import DtnDht.Lib.CString
import Mathlib.Tactic.Ring
import Mathlib.Data.Nat.ModEq

/-!
# Byte strings as numbers

A byte string, read with the most significant byte first, spells a number. Comparing two strings
of one length byte by byte is comparing these numbers (`memcmp_eq_compare`), and the low bits of
the number are the last bytes of the string (`dvd_value_append`). The bytewise exclusive or of two
strings spells that of their numbers (`value_zipWith_xor`).
-/

namespace BigEndian

/-- The number a byte string spells. -/
def value : Bytes → ℕ
  | [] => 0
  | b :: bs => b.toNat * 256 ^ bs.length + value bs

@[simp] theorem value_nil : value [] = 0 := rfl

theorem value_cons (b : UInt8) (bs : Bytes) :
    value (b :: bs) = b.toNat * 256 ^ bs.length + value bs := rfl

theorem value_append (a b : Bytes) : value (a ++ b) = value a * 256 ^ b.length + value b := by
  induction a with
  | nil => simp
  | cons c a ih =>
    rw [List.cons_append, value_cons, value_cons, ih, List.length_append, pow_add]
    ring

theorem value_lt (bs : Bytes) : value bs < 256 ^ bs.length := by
  induction bs with
  | nil => simp
  | cons b bs ih =>
    have hb := b.toNat_lt
    calc b.toNat * 256 ^ bs.length + value bs
        < b.toNat * 256 ^ bs.length + 256 ^ bs.length := by omega
      _ = (b.toNat + 1) * 256 ^ bs.length := by ring
      _ ≤ 256 * 256 ^ bs.length := Nat.mul_le_mul_right _ (by omega)
      _ = 256 ^ (b :: bs).length := by rw [List.length_cons, pow_succ, mul_comm]

theorem value_replicate_zero (n : ℕ) : value (List.replicate n 0) = 0 := by
  induction n with
  | zero => rfl
  | succ n ih => rw [List.replicate_succ, value_cons, ih]; simp

/-! ## Writing a number -/

/-- The last `k` bytes of a number. -/
def bytes : ℕ → ℕ → Bytes
  | 0, _ => []
  | k + 1, n => bytes k (n / 256) ++ [UInt8.ofNat n]

@[simp] theorem length_bytes (k n : ℕ) : (bytes k n).length = k := by
  induction k generalizing n with
  | zero => rfl
  | succ k ih => rw [bytes, List.length_append, ih]; rfl

theorem bytes_add (j k n : ℕ) : bytes (j + k) n = bytes j (n / 256 ^ k) ++ bytes k n := by
  induction k generalizing n with
  | zero => simp [bytes]
  | succ k ih =>
    rw [← Nat.add_assoc, bytes, bytes, ih, List.append_assoc, Nat.div_div_eq_div_mul, pow_succ']

/-- Only the number modulo `256 ^ k` shows. -/
theorem bytes_mod (k n : ℕ) : bytes k (n % 256 ^ k) = bytes k n := by
  induction k generalizing n with
  | zero => rfl
  | succ k ih =>
    have hd : n % 256 ^ (k + 1) / 256 = n / 256 % 256 ^ k := by
      rw [pow_succ', Nat.mod_mul_right_div_self]
    have hb : UInt8.ofNat (n % 256 ^ (k + 1)) = UInt8.ofNat n := by
      apply UInt8.toNat_inj.mp
      rw [UInt8.toNat_ofNat', UInt8.toNat_ofNat', pow_succ']
      exact Nat.mod_mul_right_mod n 256 (256 ^ k)
    rw [bytes, bytes, hd, ih, hb]

/-! ## Order -/

/-- The sign of `memcmp` on two byte strings of one length. -/
def memcmp : Bytes → Bytes → Ordering
  | a :: as, b :: bs => if a < b then .lt else if b < a then .gt else memcmp as bs
  | _, _ => .eq

/-- The first byte decides. -/
theorem value_lt_of_head_lt {a b : UInt8} {as bs : Bytes} (hl : as.length = bs.length)
    (h : a < b) : value (a :: as) < value (b :: bs) := by
  have ha := value_lt as
  have h' : a.toNat + 1 ≤ b.toNat := UInt8.lt_iff_toNat_lt.mp h
  calc a.toNat * 256 ^ as.length + value as
      < a.toNat * 256 ^ as.length + 256 ^ as.length := by omega
    _ = (a.toNat + 1) * 256 ^ bs.length := by rw [hl]; ring
    _ ≤ b.toNat * 256 ^ bs.length := Nat.mul_le_mul_right _ h'
    _ ≤ b.toNat * 256 ^ bs.length + value bs := Nat.le_add_right _ _

theorem memcmp_eq_compare {as bs : Bytes} (hl : as.length = bs.length) :
    memcmp as bs = compare (value as) (value bs) := by
  induction as generalizing bs with
  | nil =>
    rw [List.length_eq_zero_iff.mp hl.symm]
    rfl
  | cons a as ih =>
    cases bs with
    | nil => exact absurd hl (by simp)
    | cons b bs =>
      have hl' : as.length = bs.length := Nat.succ_injective hl
      rw [memcmp]
      split_ifs with h1 h2
      · exact (Nat.compare_eq_lt.mpr (value_lt_of_head_lt hl' h1)).symm
      · exact (Nat.compare_eq_gt.mpr (value_lt_of_head_lt hl'.symm h2)).symm
      · have e : a = b := UInt8.le_antisymm (UInt8.not_lt.mp h2) (UInt8.not_lt.mp h1)
        subst e
        rw [ih hl', value_cons, value_cons, hl']
        simp only [Nat.compare_eq_ite_lt, Nat.add_lt_add_iff_left]

theorem value_injective {as bs : Bytes} (hl : as.length = bs.length)
    (h : value as = value bs) : as = bs := by
  induction as generalizing bs with
  | nil => exact (List.length_eq_zero_iff.mp hl.symm).symm
  | cons a as ih =>
    cases bs with
    | nil => exact absurd hl (by simp)
    | cons b bs =>
      have hl' : as.length = bs.length := Nat.succ_injective hl
      have h1 : ¬ a < b := fun hlt => (value_lt_of_head_lt hl' hlt).ne h
      have h2 : ¬ b < a := fun hlt => (value_lt_of_head_lt hl'.symm hlt).ne h.symm
      have e : a = b := UInt8.le_antisymm (UInt8.not_lt.mp h2) (UInt8.not_lt.mp h1)
      subst e
      rw [value_cons, value_cons, hl', Nat.add_right_inj] at h
      rw [ih hl' h]

/-! ## Low bits -/

/-- A power of two below the bytes of `b` divides the whole number when it divides `b`'s. -/
theorem dvd_value_append {a b : Bytes} {k : ℕ} (hk : k ≤ 8 * b.length) :
    2 ^ k ∣ value (a ++ b) ↔ 2 ^ k ∣ value b := by
  have h : 2 ^ k ∣ value a * 256 ^ b.length := by
    apply Dvd.dvd.mul_left
    rw [show 256 = 2 ^ 8 from rfl, ← pow_mul]
    exact pow_dvd_pow 2 hk
  rw [value_append]
  exact (Nat.dvd_add_iff_right h).symm

/-- A power of two beyond the bytes of `b` divides the whole number when `b` is zero and the rest
of the power divides the number before it. -/
theorem dvd_value_append_add {a b : Bytes} {k : ℕ} :
    2 ^ (k + 8 * b.length) ∣ value (a ++ b) ↔ 2 ^ k ∣ value a ∧ value b = 0 := by
  have e : 2 ^ (k + 8 * b.length) = 2 ^ k * 256 ^ b.length := by
    rw [pow_add, pow_mul]
    rfl
  have hpos : 0 < 256 ^ b.length := Nat.pow_pos (by decide)
  rw [value_append, e]
  constructor
  · intro h
    have hb : 256 ^ b.length ∣ value b :=
      (Nat.dvd_add_iff_right (Dvd.intro_left (value a) rfl)).mpr
        ((Dvd.intro_left (2 ^ k) rfl).trans h)
    have h0 : value b = 0 := Nat.eq_zero_of_dvd_of_lt hb (value_lt b)
    rw [h0, Nat.add_zero] at h
    exact ⟨Nat.dvd_of_mul_dvd_mul_right hpos h, h0⟩
  · rintro ⟨h, h0⟩
    rw [h0, Nat.add_zero]
    exact Nat.mul_dvd_mul_right h _

/-! ## Exclusive or -/

theorem xor_mul_two_pow_add {n x y : ℕ} (a b : ℕ) (hx : x < 2 ^ n) (hy : y < 2 ^ n) :
    (a * 2 ^ n + x) ^^^ (b * 2 ^ n + y) = (a ^^^ b) * 2 ^ n + (x ^^^ y) := by
  have hxy : x ^^^ y < 2 ^ n := Nat.xor_lt_two_pow hx hy
  apply Nat.eq_of_testBit_eq
  intro i
  rw [Nat.testBit_xor, mul_comm a, mul_comm b, mul_comm (a ^^^ b),
    Nat.testBit_two_pow_mul_add a hx, Nat.testBit_two_pow_mul_add b hy,
    Nat.testBit_two_pow_mul_add _ hxy]
  split_ifs
  · rw [Nat.testBit_xor]
  · rw [Nat.testBit_xor]

theorem value_lt_two_pow (bs : Bytes) : value bs < 2 ^ (8 * bs.length) := by
  rw [pow_mul]
  exact value_lt bs

/-- The bytewise exclusive or spells the exclusive or of the numbers. -/
theorem value_zipWith_xor {as bs : Bytes} (hl : as.length = bs.length) :
    value (List.zipWith (· ^^^ ·) as bs) = value as ^^^ value bs := by
  induction as generalizing bs with
  | nil =>
    rw [List.length_eq_zero_iff.mp hl.symm]
    rfl
  | cons a as ih =>
    cases bs with
    | nil => exact absurd hl (by simp)
    | cons b bs =>
      have hl' : as.length = bs.length := Nat.succ_injective hl
      have hz : (List.zipWith (· ^^^ ·) as bs).length = as.length := by
        rw [List.length_zipWith, ← hl', min_self]
      have ha := value_lt_two_pow as
      have hb := value_lt_two_pow bs
      rw [← hl'] at hb
      rw [List.zipWith_cons_cons, value_cons, value_cons, value_cons, ih hl', hz, ← hl',
        UInt8.toNat_xor, show 256 = 2 ^ 8 from rfl, ← pow_mul,
        xor_mul_two_pow_add _ _ ha hb]

end BigEndian
