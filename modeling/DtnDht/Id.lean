import DtnDht.Lib.BigEndian
import DtnDht.Lib.Modify
import Mathlib.Data.Nat.Bitwise
import Mathlib.Tactic.NormNum

/-!
# Node ids

An id is twenty bytes, "just a path from the root of the tree, so bits are numbered from the
start". Its value is the number these bytes spell; `id_cmp` compares values (`idCmp_eq_compare`),
`xorcmp` distances from a third id (`xorcmp_neg_iff`), `lowbit` is the number of leading bits that
matter (`lowbit_lt_iff`), and setting a bit below all set ones adds a power of two
(`val_setBit`).
-/

namespace DtnDht

open BigEndian

/-- `unsigned char id[20]`. -/
structure Id where
  bytes : Bytes
  length_bytes : bytes.length = 20
deriving DecidableEq

namespace Id

/-- The number the bytes spell. -/
def val (i : Id) : ℕ := value i.bytes

/-- The twenty bytes `memcpy(id, bs, 20)` takes, zeros behind the end of `bs`. -/
def ofBytes (bs : Bytes) : Id :=
  ⟨(bs ++ List.replicate 20 0).take 20, by simp⟩

/-- `zeroes`. -/
def zeroes : Id := ⟨List.replicate 20 0, rfl⟩

theorem val_zeroes : zeroes.val = 0 := value_replicate_zero 20

theorem val_lt (i : Id) : i.val < 2 ^ 160 := by
  have h := value_lt i.bytes
  rw [i.length_bytes] at h
  exact h.trans_eq (by norm_num)

theorem val_injective : Function.Injective val := by
  rintro ⟨as, ha⟩ ⟨bs, hb⟩ h
  rw [mk.injEq]
  exact value_injective (ha.trans hb.symm) h

end Id

/-! ## Comparison -/

/-- The sign of `id_cmp`. -/
def idCmp (id1 id2 : Id) : Ordering := memcmp id1.bytes id2.bytes

theorem idCmp_eq_compare (id1 id2 : Id) : idCmp id1 id2 = compare id1.val id2.val :=
  memcmp_eq_compare (id1.length_bytes.trans id2.length_bytes.symm)

@[simp] theorem idCmp_eq_lt {id1 id2 : Id} : idCmp id1 id2 = .lt ↔ id1.val < id2.val := by
  rw [idCmp_eq_compare, Nat.compare_eq_lt]

@[simp] theorem idCmp_ne_gt {id1 id2 : Id} : idCmp id1 id2 ≠ .gt ↔ id1.val ≤ id2.val := by
  rw [idCmp_eq_compare, Ne, Nat.compare_eq_gt, not_lt]

@[simp] theorem idCmp_eq_eq {id1 id2 : Id} : idCmp id1 id2 = .eq ↔ id1 = id2 := by
  rw [idCmp_eq_compare, Nat.compare_eq_eq, Id.val_injective.eq_iff]

/-- The loop of `xorcmp`. -/
def xorcmpBytes : Bytes → Bytes → Bytes → ℤ
  | a :: as, b :: bs, r :: rs =>
    if a = b then xorcmpBytes as bs rs
    else if a ^^^ r < b ^^^ r then -1 else 1
  | _, _, _ => 0

/-- Determine whether `id1` or `id2` is closer to `ref`. -/
def xorcmp (id1 id2 ref : Id) : ℤ := xorcmpBytes id1.bytes id2.bytes ref.bytes

/-! ## Distance -/

/-- The distance of an id from `ref`: the number the bytes of the exclusive or spell. -/
def Id.dist (ref id : Id) : ℕ := id.val ^^^ ref.val

theorem Id.dist_injective (ref : Id) : Function.Injective ref.dist := by
  intro id1 id2 h
  apply Id.val_injective
  exact Nat.xor_left_injective h

theorem xorcmpBytes_neg_iff {as bs rs : Bytes} (ha : as.length = rs.length)
    (hb : bs.length = rs.length) :
    xorcmpBytes as bs rs < 0 ↔
      memcmp (List.zipWith (· ^^^ ·) as rs) (List.zipWith (· ^^^ ·) bs rs) = .lt := by
  induction rs generalizing as bs with
  | nil =>
    rw [List.length_eq_zero_iff.mp ha, List.length_eq_zero_iff.mp hb]
    decide
  | cons r rs ih =>
    obtain ⟨a, as, rfl⟩ := List.exists_cons_of_length_eq_add_one ha
    obtain ⟨b, bs, rfl⟩ := List.exists_cons_of_length_eq_add_one hb
    have hih := ih (Nat.succ_injective ha) (Nat.succ_injective hb)
    rw [xorcmpBytes, List.zipWith_cons_cons, List.zipWith_cons_cons, memcmp]
    split_ifs with h1 h2 h3 h4 h5
    · exact absurd h2 (by rw [h1]; exact UInt8.lt_irrefl _)
    · exact absurd h3 (by rw [h1]; exact UInt8.lt_irrefl _)
    · exact hih
    · simp
    · simp
    · refine absurd ?_ h1
      have e := UInt8.le_antisymm (UInt8.not_lt.mp h5) (UInt8.not_lt.mp h4)
      exact (UInt8.xor_left_inj r).mp e

/-- `xorcmp` tells which of two ids is at the smaller distance. -/
theorem xorcmp_neg_iff {id1 id2 ref : Id} :
    xorcmp id1 id2 ref < 0 ↔ ref.dist id1 < ref.dist id2 := by
  have h1 : id1.bytes.length = ref.bytes.length := id1.length_bytes.trans ref.length_bytes.symm
  have h2 : id2.bytes.length = ref.bytes.length := id2.length_bytes.trans ref.length_bytes.symm
  unfold xorcmp Id.dist Id.val
  rw [xorcmpBytes_neg_iff h1 h2, memcmp_eq_compare, Nat.compare_eq_lt, value_zipWith_xor h1,
    value_zipWith_xor h2]
  rw [List.length_zipWith, List.length_zipWith, h1, h2]

/-! ## The lowest set bit -/

/-- The loop of `lowbit` over `j`, from `j - 1` down. -/
def lowbitByte (b : UInt8) : ℕ → ℤ
  | 0 => -1
  | j + 1 => if b &&& 0x80 >>> UInt8.ofNat j ≠ 0 then j else lowbitByte b j

/-- The loop of `lowbit` over `i`, from `i - 1` down. -/
def lowbitFrom (bs : Bytes) : ℕ → ℤ
  | 0 => -1
  | i + 1 => if bs.getD i 0 ≠ 0 then 8 * i + lowbitByte (bs.getD i 0) 8 else lowbitFrom bs i

/-- Find the lowest 1 bit in an id. -/
def lowbit (id : Id) : ℤ := lowbitFrom id.bytes 20

theorem lowbitByte_lt_iff_ofNat : ∀ n < 256, ∀ e ≤ 8, n ≠ 0 →
    (lowbitByte (UInt8.ofNat n) 8 < (e : ℕ) ↔ 2 ^ (8 - e) ∣ n) := by
  decide +kernel

theorem lowbitByte_lt_iff {b : UInt8} (hb : b ≠ 0) {e : ℕ} (he : e ≤ 8) :
    lowbitByte b 8 < e ↔ 2 ^ (8 - e) ∣ b.toNat := by
  have h0 : b.toNat ≠ 0 := fun h => hb (UInt8.toNat_inj.mp h)
  have h := lowbitByte_lt_iff_ofNat b.toNat b.toNat_lt e he h0
  rwa [UInt8.ofNat_toNat] at h

theorem lowbitByte_nonneg {b : UInt8} (hb : b ≠ 0) : 0 ≤ lowbitByte b 8 := by
  by_contra h
  have h1 := (lowbitByte_lt_iff hb (e := 0) (by decide)).mp (by simpa using h)
  exact hb (UInt8.toNat_inj.mp (Nat.eq_zero_of_dvd_of_lt h1 b.toNat_lt))

theorem lowbitFrom_lt (bs : Bytes) (i : ℕ) : lowbitFrom bs i < (8 * i : ℕ) := by
  induction i with
  | zero => exact neg_one_lt_zero
  | succ i ih =>
    rw [lowbitFrom]
    split_ifs with hb
    · have := (lowbitByte_lt_iff hb (e := 8) le_rfl).mpr (by simp)
      push_cast at this ⊢
      omega
    · push_cast at ih ⊢
      omega

/-- The last set bit comes before position `d` when the bits from `d` on are zero. -/
theorem lowbitFrom_lt_iff {bs : Bytes} {i d : ℕ} (hi : i ≤ bs.length) (hd : d ≤ 8 * i) :
    lowbitFrom bs i < d ↔ 2 ^ (8 * i - d) ∣ value (bs.take i) := by
  induction i with
  | zero => simp [lowbitFrom]; omega
  | succ i ih =>
    have hlt : i < bs.length := hi
    have htake : bs.take (i + 1) = bs.take i ++ [bs.getD i 0] := by
      rw [List.getD_eq_getElem?_getD, List.getElem?_eq_getElem hlt, Option.getD_some,
        List.take_succ_eq_append_getElem hlt]
    have hv : value [bs.getD i 0] = (bs.getD i 0).toNat := by simp [value_cons]
    rw [lowbitFrom, htake]
    split_ifs with hb
    · rcases le_total (8 * i) d with h | h
      · -- the bits from `d` on are those of the last byte
        obtain ⟨e, rfl⟩ := Nat.exists_eq_add_of_le h
        have he : 8 * (i + 1) - (8 * i + e) = 8 - e := by omega
        rw [he, dvd_value_append (by simp), hv, ← lowbitByte_lt_iff hb (by omega)]
        push_cast
        omega
      · -- the last byte is set, and behind `d`
        have he : 8 * (i + 1) - d = (8 * i - d) + 8 * [bs.getD i 0].length := by
          simp only [List.length_singleton]; omega
        rw [he, dvd_value_append_add, hv]
        have h0 := lowbitByte_nonneg hb
        have h1 : (bs.getD i 0).toNat ≠ 0 := fun h => hb (UInt8.toNat_inj.mp h)
        constructor
        · intro hlow
          omega
        · exact fun hdiv => absurd hdiv.2 h1
    · have hz : bs.getD i 0 = 0 := not_not.mp hb
      rcases le_total d (8 * i) with h | h
      · have he : 8 * (i + 1) - d = (8 * i - d) + 8 * [bs.getD i 0].length := by
          simp only [List.length_singleton]; omega
        rw [he, dvd_value_append_add, hv, hz, ih hlt.le h]
        simp
      · have := lowbitFrom_lt bs i
        rw [dvd_value_append (by simp only [List.length_singleton]; omega), hv, hz]
        simp only [UInt8.toNat_zero, dvd_zero, iff_true]
        push_cast at this
        omega

theorem lowbit_lt_iff {id : Id} {d : ℕ} (hd : d ≤ 160) :
    lowbit id < d ↔ 2 ^ (160 - d) ∣ id.val := by
  have h := lowbitFrom_lt_iff id.length_bytes.ge hd
  rwa [List.take_of_length_le id.length_bytes.le] at h

/-! ## Setting a bit -/

/-- `id[bit / 8] |= 0x80 >> (bit % 8)`. -/
def Id.setBit (id : Id) (bit : ℕ) : Id :=
  ⟨id.bytes.modify (bit / 8) (· ||| 0x80 >>> UInt8.ofNat (bit % 8)), by
    rw [List.length_modify, id.length_bytes]⟩

theorem toNat_or_bit_ofNat : ∀ n < 256, ∀ r < 8, 2 ^ (8 - r) ∣ n →
    (UInt8.ofNat n ||| 0x80 >>> UInt8.ofNat r).toNat = n + 2 ^ (7 - r) := by
  decide +kernel

theorem toNat_or_bit {b : UInt8} {r : ℕ} (hr : r < 8) (h : 2 ^ (8 - r) ∣ b.toNat) :
    (b ||| 0x80 >>> UInt8.ofNat r).toNat = b.toNat + 2 ^ (7 - r) := by
  have := toNat_or_bit_ofNat b.toNat b.toNat_lt r hr h
  rwa [UInt8.ofNat_toNat] at this

/-- The byte of an id that holds a bit, and the bytes around it. -/
theorem Id.exists_byte (id : Id) {bit : ℕ} (hb : bit < 160) : ∃ pre b post,
    id.bytes = pre ++ b :: post ∧ pre.length = bit / 8 ∧ post.length = 19 - bit / 8 := by
  have hlt : bit / 8 < id.bytes.length := by rw [id.length_bytes]; omega
  refine ⟨id.bytes.take (bit / 8), id.bytes[bit / 8], id.bytes.drop (bit / 8 + 1), ?_, ?_, ?_⟩
  · rw [List.getElem_cons_drop, List.take_append_drop]
  · rw [List.length_take]; omega
  · rw [List.length_drop, id.length_bytes]; omega

/-- If the bits from a position on are zero, those of its byte are, and all bytes behind it. -/
theorem Id.dvd_byte {id : Id} {bit : ℕ} {pre post : Bytes} {b : UInt8} (hb : bit < 160)
    (hbs : id.bytes = pre ++ b :: post) (hpost : post.length = 19 - bit / 8)
    (h : 2 ^ (160 - bit) ∣ id.val) : 2 ^ (8 - bit % 8) ∣ b.toNat ∧ value post = 0 := by
  have hexp : 160 - bit = (8 - bit % 8) + 8 * post.length := by omega
  unfold Id.val at h
  rw [hbs, ← List.singleton_append, ← List.append_assoc, hexp, dvd_value_append_add] at h
  have hbyte := (dvd_value_append (by simp only [List.length_singleton]; omega)).mp h.1
  exact ⟨by simpa [value_cons] using hbyte, h.2⟩

theorem val_setBit {id : Id} {bit : ℕ} (hb : bit < 160) (h : 2 ^ (160 - bit) ∣ id.val) :
    (id.setBit bit).val = id.val + 2 ^ (159 - bit) := by
  obtain ⟨pre, b, post, hbs, hpre, hpost⟩ := id.exists_byte hb
  have hexp : 159 - bit = (7 - bit % 8) + 8 * post.length := by omega
  have hset : (id.setBit bit).bytes = pre ++ (b ||| 0x80 >>> UInt8.ofNat (bit % 8)) :: post := by
    change id.bytes.modify (bit / 8) _ = _
    rw [hbs, ← hpre]
    exact List.modify_append_cons _ _ _ _
  have hdvd := (Id.dvd_byte hb hbs hpost h).1
  unfold Id.val
  rw [hset, hbs, value_append, value_append, value_cons, value_cons,
    toNat_or_bit (by omega) hdvd, hexp, pow_add, pow_mul]
  have e : (2 : ℕ) ^ 8 = 256 := rfl
  rw [e, List.length_cons, List.length_cons]
  ring

/-! ## Common bits -/

/-- The loop of `common_bits` over the bits of `xor`. -/
def commonBitsByte : ℕ → UInt8 → ℕ
  | 0, _ => 0
  | turns + 1, xor => if xor &&& 0x80 = 0 then commonBitsByte turns (xor <<< 1) + 1 else 0

/-- The loop of `common_bits` over the bytes. -/
def commonBitsFrom : Bytes → Bytes → ℕ
  | a :: as, b :: bs =>
    if a = b then commonBitsFrom as bs + 8 else commonBitsByte 8 (a ^^^ b)
  | _, _ => 0

/-- Find how many bits two ids have in common. -/
def commonBits (id1 id2 : Id) : ℕ := commonBitsFrom id1.bytes id2.bytes

theorem le_commonBitsByte_ofNat : ∀ n < 256, ∀ d ≤ 8, n ≠ 0 →
    (d ≤ commonBitsByte 8 (UInt8.ofNat n) ↔ n < 2 ^ (8 - d)) := by
  decide +kernel

theorem le_commonBitsByte_iff {xor : UInt8} (h : xor ≠ 0) {d : ℕ} (hd : d ≤ 8) :
    d ≤ commonBitsByte 8 xor ↔ xor.toNat < 2 ^ (8 - d) := by
  have h0 : xor.toNat ≠ 0 := fun he => h (UInt8.toNat_inj.mp he)
  have hxor := le_commonBitsByte_ofNat xor.toNat xor.toNat_lt d hd h0
  rwa [UInt8.ofNat_toNat] at hxor

theorem le_commonBitsFrom_iff {as bs : Bytes} (hl : as.length = bs.length) {d : ℕ}
    (hd : d ≤ 8 * as.length) : d ≤ commonBitsFrom as bs ↔
      value (List.zipWith (· ^^^ ·) as bs) < 2 ^ (8 * as.length - d) := by
  induction as generalizing bs d with
  | nil =>
    rw [List.length_nil] at hd
    obtain rfl : d = 0 := by omega
    simp [commonBitsFrom]
  | cons a as ih =>
    obtain ⟨b, bs, rfl⟩ := List.exists_cons_of_length_eq_add_one hl.symm
    have hl' : as.length = bs.length := Nat.succ_injective hl
    have hz : (List.zipWith (· ^^^ ·) as bs).length = as.length := by
      rw [List.length_zipWith, ← hl', min_self]
    have hrest := value_lt_two_pow (List.zipWith (· ^^^ ·) as bs)
    rw [hz] at hrest
    rw [List.length_cons] at hd ⊢
    rw [commonBitsFrom, List.zipWith_cons_cons, value_cons, hz, show 256 = 2 ^ 8 from rfl,
      ← pow_mul]
    split_ifs with hab
    · rw [hab, UInt8.xor_self, UInt8.toNat_zero, Nat.zero_mul, Nat.zero_add]
      rcases le_total d 8 with h8 | h8
      · refine iff_of_true (by omega) (hrest.trans_le (Nat.pow_le_pow_right (by decide) ?_))
        omega
      · rw [show 8 * (as.length + 1) - d = 8 * as.length - (d - 8) by omega,
          ← ih hl' (by omega)]
        omega
    · have hxor : a ^^^ b ≠ 0 := fun h => hab (UInt8.xor_eq_zero_iff.mp h)
      have hpos : 0 < (a ^^^ b).toNat :=
        Nat.pos_of_ne_zero fun h => hxor (UInt8.toNat_inj.mp h)
      have hlead : 2 ^ (8 * as.length) ≤ (a ^^^ b).toNat * 2 ^ (8 * as.length) :=
        Nat.le_mul_of_pos_left _ hpos
      rcases le_or_gt d 8 with h8 | h8
      · rw [le_commonBitsByte_iff hxor h8,
          show 8 * (as.length + 1) - d = 8 - d + 8 * as.length by omega, pow_add]
        constructor
        · intro hlt
          calc (a ^^^ b).toNat * 2 ^ (8 * as.length) + value (List.zipWith (· ^^^ ·) as bs)
              < (a ^^^ b).toNat * 2 ^ (8 * as.length) + 2 ^ (8 * as.length) :=
                Nat.add_lt_add_left hrest _
            _ = ((a ^^^ b).toNat + 1) * 2 ^ (8 * as.length) := (Nat.succ_mul _ _).symm
            _ ≤ 2 ^ (8 - d) * 2 ^ (8 * as.length) := Nat.mul_le_mul_right _ hlt
        · intro hlt
          exact Nat.lt_of_mul_lt_mul_right ((Nat.le_add_right _ _).trans_lt hlt)
      · -- the first byte is among the bits
        refine iff_of_false (fun h => ?_) fun h => ?_
        · have h8' := (le_commonBitsByte_iff hxor le_rfl).mp (h8.le.trans h)
          simp only [Nat.sub_self, pow_zero] at h8'
          omega
        · have hpow : 2 ^ (8 * (as.length + 1) - d) ≤ 2 ^ (8 * as.length) :=
            Nat.pow_le_pow_right (by decide) (by omega)
          omega

/-- Two ids have `d` bits in common if they are less than `2 ^ (160 - d)` apart. -/
theorem le_commonBits_iff {id1 id2 : Id} {d : ℕ} (hd : d ≤ 160) :
    d ≤ commonBits id1 id2 ↔ id2.dist id1 < 2 ^ (160 - d) := by
  have hl : id1.bytes.length = id2.bytes.length := id1.length_bytes.trans id2.length_bytes.symm
  have h := le_commonBitsFrom_iff hl (d := d) (by rw [id1.length_bytes]; exact hd)
  rwa [id1.length_bytes, value_zipWith_xor hl] at h

/-- The ids of an aligned interval have a prefix in common. -/
theorem le_commonBits_of_range {id1 id2 : Id} {lo k : ℕ} (hk : k ≤ 160) (hdvd : 2 ^ k ∣ lo)
    (h1 : lo ≤ id1.val ∧ id1.val < lo + 2 ^ k) (h2 : lo ≤ id2.val ∧ id2.val < lo + 2 ^ k) :
    160 - k ≤ commonBits id1 id2 := by
  rw [le_commonBits_iff (Nat.sub_le 160 k), Nat.sub_sub_self hk]
  obtain ⟨a, rfl⟩ := hdvd
  obtain ⟨x, hx⟩ := Nat.exists_eq_add_of_le h1.1
  obtain ⟨y, hy⟩ := Nat.exists_eq_add_of_le h2.1
  have hx' : x < 2 ^ k := by omega
  have hy' : y < 2 ^ k := by omega
  unfold Id.dist
  rw [hx, hy, Nat.mul_comm, xor_mul_two_pow_add a a hx' hy', Nat.xor_self, Nat.zero_mul,
    Nat.zero_add]
  exact Nat.xor_lt_two_pow hx' hy'

end DtnDht
