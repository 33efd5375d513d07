import DtnDht.Lib.BigEndian
import Mathlib.Data.BitVec
import Mathlib.Data.List.GetD

/-!
# SHA-1, one block

The hash function of the builds without OpenSSL. `sha1_process` works on 80 unrolled lines, each of
which names the registers in another order, and keeps the last 16 words of the message schedule
in a window. An `unsigned long` has `w` bits, at least 32; where it has more, the upper ones hold
remains of the shifts, and only the lower 32 bits are a word of SHA-1.

`compress` is the same function as the standard writes it: a schedule of 80 words, and 80 rounds
that shift the registers. One line is one round (`registers_line`), so `sha1_process` computes
`compress` (`low_sha1Process`).
-/

namespace DtnDht.Sha1

/-! ## The code -/

section

variable {w : ℕ}

/-- `GET_ULONG_BE`. -/
def getUlongBe (b : Bytes) (i : ℕ) : BitVec w :=
  (BitVec.ofNat w (b.getD i 0).toNat <<< 24)
    ||| (BitVec.ofNat w (b.getD (i + 1) 0).toNat <<< 16)
    ||| (BitVec.ofNat w (b.getD (i + 2) 0).toNat <<< 8)
    ||| BitVec.ofNat w (b.getD (i + 3) 0).toNat

/-- `PUT_ULONG_BE`, as the four bytes it stores. -/
def putUlongBe (n : BitVec w) : Bytes :=
  [UInt8.ofNat (n >>> 24).toNat, UInt8.ofNat (n >>> 16).toNat, UInt8.ofNat (n >>> 8).toNat,
    UInt8.ofNat n.toNat]

/-- The macro `S`. -/
def S (x : BitVec w) (n : ℕ) : BitVec w :=
  (x <<< n) ||| ((x &&& BitVec.ofNat w 0xFFFFFFFF) >>> (32 - n))

/-- The assignment `v[i] = x`. -/
def assign {n : ℕ} (v : Vector (BitVec w) n) (i : Fin n) (x : BitVec w) : Vector (BitVec w) n :=
  v.set i x i.isLt

/-- The macro `R`, with the window it leaves. -/
def R (t : ℕ) (W : Vector (BitVec w) 16) : Vector (BitVec w) 16 :=
  let temp := W.get (Fin.ofNat 16 (t - 3)) ^^^ W.get (Fin.ofNat 16 (t - 8)) ^^^
    W.get (Fin.ofNat 16 (t - 14)) ^^^ W.get (Fin.ofNat 16 t)
  assign W (Fin.ofNat 16 t) (S temp 1)

/-- The macro `F` at line `t`. -/
def F (t : ℕ) (x y z : BitVec w) : BitVec w :=
  if t < 20 then z ^^^ (x &&& (y ^^^ z))
  else if t < 40 then x ^^^ y ^^^ z
  else if t < 60 then (x &&& y) ||| (z &&& (x ||| y))
  else x ^^^ y ^^^ z

/-- The macro `K` at line `t`. -/
def K (t : ℕ) : BitVec w :=
  BitVec.ofNat w (if t < 20 then 0x5A827999 else if t < 40 then 0x6ED9EBA1
    else if t < 60 then 0x8F1BBCDC else 0xCA62C1D6)

/-- The macro `P` at line `t`, on the variables it is given the names of. -/
def P (t : ℕ) (a b c d e : Fin 5) (x : BitVec w) (v : Vector (BitVec w) 5) :
    Vector (BitVec w) 5 :=
  let v := assign v e (v.get e + (S (v.get a) 5 + F t (v.get b) (v.get c) (v.get d) + K t + x))
  assign v b (S (v.get b) 30)

/-- The variables `W` and `A` to `E`. -/
structure Work (w : ℕ) where
  W : Vector (BitVec w) 16
  v : Vector (BitVec w) 5

/-- The variable that line `t` gives to `P` as argument number `k`: the first line has
`A, B, C, D, E`, and each line starts one name earlier than the line before. -/
def name (t k : ℕ) : Fin 5 := Fin.ofNat 5 (k + 4 * t)

/-- Line `t` of `sha1_process`: the first 16 have `W[t]`, the others `R(t)`. -/
def line (t : ℕ) (s : Work w) : Work w :=
  let W := if t < 16 then s.W else R t s.W
  ⟨W, P t (name t 0) (name t 1) (name t 2) (name t 3) (name t 4) (W.get (Fin.ofNat 16 t)) s.v⟩

/-- The first `n` lines. -/
def lines (s : Work w) : ℕ → Work w
  | 0 => s
  | t + 1 => line t (lines s t)

/-- `sha1_process`, on `ctx->state`. -/
def sha1Process (state : Vector (BitVec w) 5) (data : Bytes) : Vector (BitVec w) 5 :=
  let work := lines ⟨Vector.ofFn fun i => getUlongBe data (4 * i), state⟩ 80
  Vector.ofFn fun i => state.get i + work.v.get i

end

/-! ## The standard -/

/-- Word `t` of a block. -/
def word (block : Bytes) (t : ℕ) : BitVec 32 :=
  BitVec.ofNat 32 (BigEndian.value ((block.drop (4 * t)).take 4))

/-- The message schedule. -/
def schedule (block : Bytes) (t : ℕ) : BitVec 32 :=
  if t < 16 then word block t
  else (schedule block (t - 3) ^^^ schedule block (t - 8) ^^^ schedule block (t - 14) ^^^
    schedule block (t - 16)).rotateLeft 1

/-- The logical function of round `t`: choice, parity and majority. -/
def logical (t : ℕ) (x y z : BitVec 32) : BitVec 32 :=
  if t < 20 then (x &&& y) ||| (~~~x &&& z)
  else if t < 40 then x ^^^ y ^^^ z
  else if t < 60 then (x &&& y) ^^^ (x &&& z) ^^^ (y &&& z)
  else x ^^^ y ^^^ z

/-- The five words a block is hashed into. -/
@[ext] structure Registers where
  a : BitVec 32
  b : BitVec 32
  c : BitVec 32
  d : BitVec 32
  e : BitVec 32
  deriving DecidableEq

namespace Registers

/-- Round `t`. -/
def round (block : Bytes) (t : ℕ) (r : Registers) : Registers :=
  ⟨r.a.rotateLeft 5 + logical t r.b r.c r.d + r.e + K t + schedule block t,
    r.a, r.b.rotateLeft 30, r.c, r.d⟩

/-- The first `n` rounds. -/
def rounds (block : Bytes) (r : Registers) : ℕ → Registers
  | 0 => r
  | t + 1 => (rounds block r t).round block t

/-- The sum, word by word. -/
def add (r s : Registers) : Registers := ⟨r.a + s.a, r.b + s.b, r.c + s.c, r.d + s.d, r.e + s.e⟩

end Registers

/-- The hash of one more block. -/
def compress (r : Registers) (block : Bytes) : Registers := r.add (r.rounds block 80)

/-! ## Words in wider ones -/

/-- The lower 32 bits. -/
def low {w : ℕ} (x : BitVec w) : BitVec 32 := x.setWidth 32

/-- The words that the state of the code holds. -/
def lowState {w : ℕ} (v : Vector (BitVec w) 5) : Registers :=
  ⟨low (v.get 0), low (v.get 1), low (v.get 2), low (v.get 3), low (v.get 4)⟩

section

variable {w : ℕ}

@[simp] theorem low_xor (x y : BitVec w) : low (x ^^^ y) = low x ^^^ low y := BitVec.setWidth_xor

@[simp] theorem low_and (x y : BitVec w) : low (x &&& y) = low x &&& low y := BitVec.setWidth_and

@[simp] theorem low_or (x y : BitVec w) : low (x ||| y) = low x ||| low y := BitVec.setWidth_or

theorem getLsbD_low (x : BitVec w) (i : ℕ) : (low x).getLsbD i = (decide (i < 32) && x.getLsbD i) :=
  BitVec.getLsbD_setWidth 32 x i

theorem getLsbD_mask (i : ℕ) :
    (BitVec.ofNat w 0xFFFFFFFF).getLsbD i = (decide (i < w) && decide (i < 32)) := by
  rw [BitVec.getLsbD_ofNat, show 0xFFFFFFFF = 2 ^ 32 - 1 from rfl, Nat.testBit_two_pow_sub_one]

end

section

variable {w : ℕ} (hw : 32 ≤ w)
include hw

theorem low_add (x y : BitVec w) : low (x + y) = low x + low y := BitVec.setWidth_add x y hw

theorem low_ofNat (n : ℕ) : low (BitVec.ofNat w n) = BitVec.ofNat 32 n :=
  BitVec.setWidth_ofNat_of_le hw n

theorem low_shiftLeft (x : BitVec w) (n : ℕ) : low (x <<< n) = low x <<< n :=
  BitVec.setWidth_shiftLeft_of_le hw

/-- What `S` leaves in the lower 32 bits is their rotation, whatever is above them. -/
theorem low_S (x : BitVec w) {n : ℕ} (h0 : 0 < n) (hn : n < 32) :
    low (S x n) = (low x).rotateLeft n := by
  apply BitVec.eq_of_getLsbD_eq
  intro i hi
  rw [BitVec.getLsbD_rotateLeft_of_le hn, getLsbD_low, getLsbD_low, getLsbD_low, S,
    BitVec.getLsbD_or, BitVec.getLsbD_shiftLeft, BitVec.getLsbD_ushiftRight, BitVec.getLsbD_and,
    getLsbD_mask]
  by_cases h : i < n
  · have h1 : 32 - n + i < 32 := by omega
    have h2 : 32 - n + i < w := by omega
    simp [h, hi, h1, h2]
  · have h1 : ¬ 32 - n + i < 32 := by omega
    have h2 : i < w := by omega
    have h3 : i - n < 32 := by omega
    simp [h, hi, h1, h2, h3]

theorem low_K (t : ℕ) : low (K t : BitVec w) = K t := low_ofNat hw _

end

/-! ## Bytes and words -/

/-- A shifted word and one below it have no bit in common. -/
theorem shiftLeft_or_ofNat {a b k : ℕ} (hb : b < 2 ^ k) :
    BitVec.ofNat 32 a <<< k ||| BitVec.ofNat 32 b = BitVec.ofNat 32 (a * 2 ^ k + b) := by
  apply BitVec.eq_of_getLsbD_eq
  intro i hi
  rw [mul_comm a, BitVec.getLsbD_or, BitVec.getLsbD_shiftLeft, BitVec.getLsbD_ofNat,
    BitVec.getLsbD_ofNat, BitVec.getLsbD_ofNat, Nat.testBit_two_pow_mul_add _ hb]
  by_cases h : i < k
  · simp [hi, h]
  · have hb' : b.testBit i = false :=
      Nat.testBit_lt_two_pow (hb.trans_le (Nat.pow_le_pow_right (by decide) (not_lt.mp h)))
    have hk : i - k < 32 := by omega
    simp [hi, h, hb', hk]

theorem drop_eq_getD_cons {b : Bytes} {i : ℕ} (hi : i < b.length) :
    b.drop i = b.getD i 0 :: b.drop (i + 1) := by
  rw [List.drop_eq_getElem_cons hi, List.getD_eq_getElem _ _ hi]

section

variable {w : ℕ} (hw : 32 ≤ w)
include hw

/-- `GET_ULONG_BE` reads four bytes as a number. -/
theorem low_getUlongBe {b : Bytes} {i : ℕ} (hi : i + 4 ≤ b.length) :
    low (getUlongBe b i : BitVec w) =
      BitVec.ofNat 32 (BigEndian.value ((b.drop i).take 4)) := by
  have hb : (b.drop i).take 4 =
      [b.getD i 0, b.getD (i + 1) 0, b.getD (i + 2) 0, b.getD (i + 3) 0] := by
    rw [drop_eq_getD_cons (i := i) (by omega), drop_eq_getD_cons (i := i + 1) (by omega),
      drop_eq_getD_cons (i := i + 2) (by omega), drop_eq_getD_cons (i := i + 3) (by omega)]
    rfl
  rw [hb, getUlongBe]
  generalize b.getD i 0 = b0, b.getD (i + 1) 0 = b1, b.getD (i + 2) 0 = b2, b.getD (i + 3) 0 = b3
  have hv : BigEndian.value [b0, b1, b2, b3] =
      b0.toNat * 2 ^ 24 + (b1.toNat * 2 ^ 16 + (b2.toNat * 2 ^ 8 + b3.toNat)) := by
    simp [BigEndian.value_cons]
  have h1 := b1.toNat_lt
  have h2 := b2.toNat_lt
  have h3 := b3.toNat_lt
  have e3 : BitVec.ofNat 32 b2.toNat <<< 8 ||| BitVec.ofNat 32 b3.toNat =
      BitVec.ofNat 32 (b2.toNat * 2 ^ 8 + b3.toNat) := shiftLeft_or_ofNat (by omega)
  have e2 : BitVec.ofNat 32 b1.toNat <<< 16 ||| BitVec.ofNat 32 (b2.toNat * 2 ^ 8 + b3.toNat) =
      BitVec.ofNat 32 (b1.toNat * 2 ^ 16 + (b2.toNat * 2 ^ 8 + b3.toNat)) :=
    shiftLeft_or_ofNat (by omega)
  simp only [low_or, low_shiftLeft hw, low_ofNat hw]
  rw [BitVec.or_assoc, BitVec.or_assoc, e3, e2, shiftLeft_or_ofNat (by omega), hv]

end

section

variable {w : ℕ}

theorem putUlongBe_eq (n : BitVec w) : putUlongBe n = BigEndian.bytes 4 n.toNat := by
  simp [putUlongBe, BigEndian.bytes, Nat.shiftRight_eq_div_pow, Nat.div_div_eq_div_mul]

/-- `PUT_ULONG_BE` writes the lower 32 bits. -/
theorem putUlongBe_low (n : BitVec w) : putUlongBe (low n) = putUlongBe n := by
  have hl : (low n).toNat = n.toNat % 256 ^ 4 := BitVec.toNat_setWidth 32 n
  rw [putUlongBe_eq, putUlongBe_eq, hl, BigEndian.bytes_mod]

end

/-! ## The window of the schedule -/

section

variable {w : ℕ}

theorem get_assign {n : ℕ} (v : Vector (BitVec w) n) (i j : Fin n) (x : BitVec w) :
    (assign v i x).get j = if i = j then x else v.get j := by
  have h : (v.set i x)[(j : ℕ)] = if (i : ℕ) = j then x else v[(j : ℕ)] :=
    Vector.getElem_set i.isLt j.isLt
  simp only [← Fin.ext_iff] at h
  exact h

theorem get_ofFn {n : ℕ} (f : Fin n → BitVec w) (i : Fin n) : (Vector.ofFn f).get i = f i :=
  Vector.getElem_ofFn i.isLt

/-- At line `t` the window holds the last 16 words of the schedule so far. -/
def Window (block : Bytes) (t : ℕ) (W : Vector (BitVec w) 16) : Prop :=
  ∀ s, t ≤ s + 16 → s < max t 16 → low (W.get (Fin.ofNat 16 s)) = schedule block s

variable {block : Bytes} {t : ℕ} {W : Vector (BitVec w) 16}

/-- The first words are those of the block. -/
theorem window_zero (hw : 32 ≤ w) (hb : block.length = 64) :
    Window block 0 (Vector.ofFn fun i : Fin 16 => (getUlongBe block (4 * i) : BitVec w)) := by
  intro s _ hs
  have hs : s < 16 := by omega
  rw [get_ofFn, schedule, if_pos hs, word]
  have hi : ((Fin.ofNat 16 s : Fin 16) : ℕ) = s := Nat.mod_eq_of_lt hs
  rw [hi, low_getUlongBe hw (by omega)]

/-- `R` replaces the oldest word by the next. -/
theorem window_R (hw : 32 ≤ w) (ht : 16 ≤ t) (h : Window block t W) :
    Window block (t + 1) (R t W) ∧ low ((R t W).get (Fin.ofNat 16 t)) = schedule block t := by
  have e : Fin.ofNat 16 t = Fin.ofNat 16 (t - 16) := by
    apply Fin.ext
    simp only [Fin.ofNat]
    omega
  have hnew : low ((R t W).get (Fin.ofNat 16 t)) = schedule block t := by
    rw [R, get_assign, if_pos rfl, low_S hw _ Nat.one_pos (Nat.one_lt_ofNat), low_xor, low_xor,
      low_xor, h (t - 3) (by omega) (by omega), h (t - 8) (by omega) (by omega),
      h (t - 14) (by omega) (by omega), e, h (t - 16) (by omega) (by omega)]
    conv_rhs => rw [schedule, if_neg (by omega)]
  refine ⟨fun s h1 h2 => ?_, hnew⟩
  rcases eq_or_ne s t with rfl | hs
  · exact hnew
  · have hne : Fin.ofNat 16 t ≠ Fin.ofNat 16 s := by
      intro he
      have := congrArg Fin.val he
      simp only [Fin.ofNat] at this
      omega
    rw [R, get_assign, if_neg hne]
    exact h s (by omega) (by omega)

/-- The window that line `t` works with, and the word it adds in. -/
theorem window_line (hw : 32 ≤ w) (h : Window block t W) :
    Window block (t + 1) (if t < 16 then W else R t W) ∧
      low ((if t < 16 then W else R t W).get (Fin.ofNat 16 t)) = schedule block t := by
  split_ifs with ht
  · exact ⟨fun s h1 h2 => h s (by omega) (by omega), h t (by omega) (by omega)⟩
  · exact window_R hw (by omega) h

end

/-! ## The registers -/

/-- The three forms of the logical functions agree. -/
theorem logical_eq (t : ℕ) (x y z : BitVec 32) : F t x y z = logical t x y z := by
  have hch : z ^^^ (x &&& (y ^^^ z)) = (x &&& y) ||| (~~~x &&& z) := by
    apply BitVec.eq_of_getLsbD_eq
    intro i hi
    simp only [BitVec.getLsbD_xor, BitVec.getLsbD_and, BitVec.getLsbD_or, BitVec.getLsbD_not, hi]
    cases x.getLsbD i <;> cases y.getLsbD i <;> cases z.getLsbD i <;> rfl
  have hmaj : (x &&& y) ||| (z &&& (x ||| y)) = (x &&& y) ^^^ (x &&& z) ^^^ (y &&& z) := by
    apply BitVec.eq_of_getLsbD_eq
    intro i hi
    simp only [BitVec.getLsbD_xor, BitVec.getLsbD_and, BitVec.getLsbD_or]
    cases x.getLsbD i <;> cases y.getLsbD i <;> cases z.getLsbD i <;> rfl
  rw [F, logical, hch, hmaj]

section

variable {w : ℕ} {t : ℕ}

theorem low_F (x y z : BitVec w) : low (F t x y z) = F t (low x) (low y) (low z) := by
  unfold F
  split_ifs <;> simp only [low_xor, low_and, low_or]

/-- The registers of the standard at line `t`, by the names that the line gives them. -/
def registers (t : ℕ) (v : Vector (BitVec w) 5) : Registers :=
  ⟨low (v.get (name t 0)), low (v.get (name t 1)), low (v.get (name t 2)),
    low (v.get (name t 3)), low (v.get (name t 4))⟩

theorem name_succ (t k : ℕ) : name (t + 1) (k + 1) = name t k := by
  apply Fin.ext
  simp only [name, Fin.ofNat]
  omega

theorem name_succ_zero (t : ℕ) : name (t + 1) 0 = name t 4 := by
  apply Fin.ext
  simp only [name, Fin.ofNat]
  omega

theorem name_ne {i j : ℕ} (hi : i < 5) (hj : j < 5) (h : i ≠ j) : name t i ≠ name t j := by
  intro he
  have := congrArg Fin.val he
  simp only [name, Fin.ofNat] at this
  omega

/-- One line is one round. -/
theorem registers_P (hw : 32 ≤ w) {block : Bytes} {x : BitVec w} (hx : low x = schedule block t)
    (v : Vector (BitVec w) 5) :
    registers (t + 1) (P t (name t 0) (name t 1) (name t 2) (name t 3) (name t 4) x v) =
      (registers t v).round block t := by
  have h10 : name t 1 ≠ name t 0 := name_ne (by decide) (by decide) (by decide)
  have h12 : name t 1 ≠ name t 2 := name_ne (by decide) (by decide) (by decide)
  have h13 : name t 1 ≠ name t 3 := name_ne (by decide) (by decide) (by decide)
  have h14 : name t 1 ≠ name t 4 := name_ne (by decide) (by decide) (by decide)
  have h40 : name t 4 ≠ name t 0 := name_ne (by decide) (by decide) (by decide)
  have h41 : name t 4 ≠ name t 1 := name_ne (by decide) (by decide) (by decide)
  have h42 : name t 4 ≠ name t 2 := name_ne (by decide) (by decide) (by decide)
  have h43 : name t 4 ≠ name t 3 := name_ne (by decide) (by decide) (by decide)
  have h5 (y : BitVec w) : low (S y 5) = (low y).rotateLeft 5 := low_S hw y (by decide) (by decide)
  have h30 (y : BitVec w) : low (S y 30) = (low y).rotateLeft 30 :=
    low_S hw y (by decide) (by decide)
  simp only [registers, Registers.round, P, name_succ_zero, name_succ, get_assign, if_neg h10,
    if_neg h12, if_neg h13, if_neg h14, if_neg h40, if_neg h41, if_neg h42, if_neg h43, if_true,
    low_add hw, h5, h30, low_K hw, low_F, logical_eq, hx, Registers.mk.injEq, and_true]
  ring

/-- The window and the registers, line by line. -/
theorem lines_spec (hw : 32 ≤ w) {block : Bytes} (hb : block.length = 64)
    (v : Vector (BitVec w) 5) (n : ℕ) :
    let s := lines ⟨Vector.ofFn fun i : Fin 16 => getUlongBe block (4 * i), v⟩ n
    Window block n s.W ∧ registers n s.v = (registers 0 v).rounds block n := by
  intro s
  induction n with
  | zero => exact ⟨window_zero hw hb, rfl⟩
  | succ n ih =>
    obtain ⟨hwin, hreg⟩ := ih
    obtain ⟨hwin, hx⟩ := window_line hw hwin
    refine ⟨hwin, ?_⟩
    rw [Registers.rounds, ← hreg]
    exact registers_P hw hx _

/-- **The unrolled lines of `sha1_process` hash a block as the standard does**: whatever the
upper bits of the state are, the lower 32 of each word are those of `compress`. -/
theorem low_sha1Process (hw : 32 ≤ w) (state : Vector (BitVec w) 5) {data : Bytes}
    (hd : data.length = 64) :
    lowState (sha1Process state data) = compress (lowState state) data := by
  have h := (lines_spec hw hd state 80).2
  -- the names have come round
  have hn (k : ℕ) : name 80 k = name 0 k := by
    apply Fin.ext
    simp only [name, Fin.ofNat]
    omega
  have h80 (v : Vector (BitVec w) 5) : registers 80 v = lowState v := by
    unfold registers
    simp only [hn]
    rfl
  rw [h80] at h
  have h0 : registers 0 state = lowState state := rfl
  rw [compress, ← h0, ← h, h0]
  simp only [sha1Process, lowState, get_ofFn, low_add hw, Registers.add]

end

end DtnDht.Sha1
