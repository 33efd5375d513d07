import DtnDht.RoutingRun

/-!
# The ranges of the buckets

`bucket_middle` and `bucket_random` are given a bucket and the next one, and read the depth of the
bucket off the lowest bits that the first ids of the two set. If the ranges of a list of buckets
are aligned (`AlignedRanges`), the middle halves the range and a random id lies in it.
-/

namespace DtnDht

open BigEndian Tiling

/-- The range of each bucket is an aligned interval whose length is a power of two. -/
def AlignedRanges (bs : List Bucket) : Prop :=
  ∀ i b, bs[i]? = some b → Aligned b.first.val (rangeEnd bs[i + 1]?)

theorem TableInvariant.alignedRanges {af : ℕ} {myid : Id} {bs : List Bucket}
    (h : TableInvariant af myid bs) : AlignedRanges bs := h.aligned

variable {b : Bucket} {next : Option Bucket} {k d : ℕ}

/-! ## The depth of a bucket -/

theorem rangeEnd_le (next : Option Bucket) : rangeEnd next ≤ 2 ^ 160 := by
  cases next with
  | none => exact le_rfl
  | some c => exact c.first.val_lt.le

/-- The bit after those that the bounds set is the depth of the bucket. -/
theorem bucketBit_of_range (hk : rangeEnd next = b.first.val + 2 ^ k)
    (hdvd : 2 ^ k ∣ b.first.val) : bucketBit b next = 160 - k := by
  refine bucketBit_eq rfl hdvd (hk ▸ rangeEnd_le next) ?_ ?_
  · rintro c hc
    rw [Option.mem_def.mp hc] at hk
    exact hk
  · rintro rfl
    exact hk.symm

/-- A bucket of depth `d` has `2 ^ (160 - d)` ids, and starts at a multiple of that. -/
theorem dvd_first_of_depth (h : Aligned b.first.val (rangeEnd next))
    (hd : rangeEnd next = b.first.val + 2 ^ (160 - d)) : 2 ^ (160 - d) ∣ b.first.val := by
  obtain ⟨k, hk, hdvd⟩ := h
  have hpow : 2 ^ k = 2 ^ (160 - d) := by omega
  rwa [← hpow]

/-! ## The middle -/

theorem bucketMiddle_of_range (hd : d < 160) (hrange : rangeEnd next = b.first.val + 2 ^ (160 - d))
    (hdvd : 2 ^ (160 - d) ∣ b.first.val) :
    ∃ m, bucketMiddle b next = some m ∧ m.val = b.first.val + 2 ^ (159 - d) := by
  have hbit : bucketBit b next = d := by
    rw [bucketBit_of_range hrange hdvd]
    omega
  refine ⟨b.first.setBit d, ?_, val_setBit hd hdvd⟩
  unfold bucketMiddle
  rw [hbit]
  dsimp only
  rw [if_neg (by omega)]

/-! ## A random id -/

theorem and_high_ofNat : ∀ n < 256, ∀ r < 8, 2 ^ (8 - r) ∣ n →
    UInt8.ofNat n &&& UInt8.ofNat ((0xFF00 >>> r) % 256) = UInt8.ofNat n := by
  decide +kernel

theorem toNat_low_lt : ∀ r < 8, ((0xFF : UInt8) >>> UInt8.ofNat r).toNat < 2 ^ (8 - r) := by
  decide

/-- The byte of a random id that holds the first free bit. -/
theorem toNat_random_byte {c x : UInt8} {r : ℕ} (hr : r < 8) (h : 2 ^ (8 - r) ∣ c.toNat) :
    ∃ low < 2 ^ (8 - r), (c &&& UInt8.ofNat ((0xFF00 >>> r) % 256) |||
      (x &&& 0xFF >>> UInt8.ofNat r)).toNat = c.toNat + low := by
  have hhigh := and_high_ofNat c.toNat c.toNat_lt r hr h
  rw [UInt8.ofNat_toNat] at hhigh
  have hlow : (x &&& 0xFF >>> UInt8.ofNat r).toNat < 2 ^ (8 - r) := by
    rw [UInt8.toNat_and]
    exact Nat.and_le_right.trans_lt (toNat_low_lt r hr)
  refine ⟨_, hlow, ?_⟩
  obtain ⟨a, ha⟩ := h
  rw [hhigh, UInt8.toNat_or, ha]
  exact (Nat.two_pow_add_eq_or_of_lt hlow a).symm

theorem length_randomBytes (n : ℕ) (rs : Random) : (randomBytes n rs).1.length = n := by
  induction n generalizing rs with
  | zero => rfl
  | succ n ih => exact congrArg (· + 1) (ih _)

/-- What `bucket_random` writes behind the bits of the prefix adds less than the length of the
range. -/
theorem val_bucketRandom (hd : d < 160) (hbit : bucketBit b next = d)
    (hdvd : 2 ^ (160 - d) ∣ b.first.val) (rs : Random) :
    b.first.val ≤ (bucketRandom b next rs).1.val ∧
      (bucketRandom b next rs).1.val < b.first.val + 2 ^ (160 - d) := by
  obtain ⟨pre, c, post, hbs, hpre, hpost⟩ := b.first.exists_byte hd
  obtain ⟨hc, hzero⟩ := Id.dvd_byte hd hbs hpost hdvd
  unfold bucketRandom
  dsimp only
  rw [hbit, if_neg (by omega)]
  have hbyte : b.first.bytes.getD (d / 8) 0 = c := by
    rw [hbs, List.getD_eq_getElem?_getD, ← hpre, List.getElem?_append_right le_rfl, Nat.sub_self]
    rfl
  have htake : b.first.bytes.take (d / 8) = pre := by
    rw [hbs, ← hpre, List.take_left]
  rw [hbyte, htake]
  generalize hrest : randomBytes (19 - d / 8) (random rs).2 = rest
  have hlen : rest.1.length = post.length := by
    rw [← hrest, length_randomBytes, hpost]
  obtain ⟨low, hlow, hnat⟩ := toNat_random_byte (x := UInt8.ofNat ((random rs).1 % 256))
    (Nat.mod_lt d (by decide)) hc
  have hval : ∀ bs : Bytes, bs.length = 20 → (Id.ofBytes bs).val = value bs := by
    intro bs hbs
    unfold Id.val Id.ofBytes
    dsimp only
    rw [List.take_append_of_le_length hbs.ge, List.take_of_length_le hbs.le]
  rw [hval]
  · have hlt := value_lt rest.1
    have hpow : 2 ^ (160 - d) = 2 ^ (8 - d % 8) * 256 ^ post.length := by
      rw [show (256 : ℕ) = 2 ^ 8 from rfl, ← pow_mul, ← pow_add]
      congr 1
      omega
    have hsum : low * 256 ^ post.length + value rest.1 < 2 ^ (8 - d % 8) * 256 ^ post.length := by
      rw [hlen] at hlt
      calc low * 256 ^ post.length + value rest.1
          < low * 256 ^ post.length + 256 ^ post.length := Nat.add_lt_add_left hlt _
        _ = (low + 1) * 256 ^ post.length := (Nat.succ_mul _ _).symm
        _ ≤ 2 ^ (8 - d % 8) * 256 ^ post.length := Nat.mul_le_mul_right _ hlow
    have hfirst : b.first.val =
        value pre * 256 ^ (post.length + 1) + c.toNat * 256 ^ post.length := by
      unfold Id.val
      rw [hbs, value_append, value_cons, hzero, List.length_cons]
      rfl
    rw [value_append, value_cons, List.length_cons, hlen, hnat, hpow, hfirst, Nat.add_mul]
    omega
  · rw [List.length_append, List.length_cons, hlen, hpre, hpost]
    omega

/-- **Bucket arithmetic stays in the bucket.** In a list of buckets whose ranges are aligned, the
middle of a bucket of depth less than 160 lies inside and halves its range, and a random id of any
bucket lies in it. -/
theorem bucket_arithmetic {bs : List Bucket} (h : AlignedRanges bs) {i : ℕ}
    (hb : bs[i]? = some b) :
    (∀ d < 160, rangeEnd bs[i + 1]? = b.first.val + 2 ^ (160 - d) →
      ∃ m, bucketMiddle b bs[i + 1]? = some m ∧
        b.first.val < m.val ∧ m.val < rangeEnd bs[i + 1]? ∧
        Aligned b.first.val m.val ∧ Aligned m.val (rangeEnd bs[i + 1]?) ∧
        m.val - b.first.val = rangeEnd bs[i + 1]? - m.val) ∧
    ∀ rs, inBucket (bucketRandom b bs[i + 1]? rs).1 b bs[i + 1]? = true := by
  have haligned := h i b hb
  constructor
  · intro d hd hrange
    have hdvd := dvd_first_of_depth haligned hrange
    obtain ⟨m, hm, hval⟩ := bucketMiddle_of_range hd hrange hdvd
    have hpos := Nat.two_pow_pos (159 - d)
    have hdouble : 2 ^ (160 - d) = 2 * 2 ^ (159 - d) := by
      rw [show 160 - d = 159 - d + 1 by omega, Nat.pow_succ']
    have hlower : 2 ^ (159 - d + 1) ∣ b.first.val := by
      rwa [show 159 - d + 1 = 160 - d by omega]
    have hhalves := aligned_halves hlower
    rw [Nat.pow_succ', ← hdouble, ← hrange, ← hval] at hhalves
    exact ⟨m, hm, by omega, by omega, hhalves.1, hhalves.2, by omega⟩
  · intro rs
    obtain ⟨k, hk, hdvd⟩ := haligned
    have hbit := bucketBit_of_range hk hdvd
    have hmem : b.first.val ≤ (bucketRandom b bs[i + 1]? rs).1.val ∧
        (bucketRandom b bs[i + 1]? rs).1.val < rangeEnd bs[i + 1]? := by
      rw [hk]
      rcases Nat.eq_zero_or_pos k with rfl | hpos
      · -- a bucket of one id
        have hone : (bucketRandom b bs[i + 1]? rs).1 = b.first := by
          unfold bucketRandom
          dsimp only
          rw [hbit, if_pos (by omega)]
        rw [hone]
        omega
      · have hk160 : k ≤ 160 := by
          have hle := rangeEnd_le bs[i + 1]?
          exact (Nat.pow_le_pow_iff_right one_lt_two).mp (by omega)
        have hdepth : 160 - (160 - k) = k := by omega
        have hrandom := val_bucketRandom (by omega) hbit (hdepth.symm ▸ hdvd) rs
        rwa [hdepth] at hrandom
    refine inBucket_iff.mpr ⟨hmem.1, fun c hc => ?_⟩
    rw [Option.mem_def.mp hc] at hmem ⊢
    exact hmem.2

/-- The two buckets after the first split. -/
theorem bucket_arithmetic_split :
    (∃ m, bucketMiddle (callocBucket afInet Id.zeroes)
      (some (callocBucket afInet (Id.ofBytes [0x80]))) = some m ∧ m.val = 2 ^ 158) ∧
      inBucket (bucketRandom (callocBucket afInet Id.zeroes)
        (some (callocBucket afInet (Id.ofBytes [0x80]))) fun _ => 7).1
        (callocBucket afInet Id.zeroes)
        (some (callocBucket afInet (Id.ofBytes [0x80]))) = true := by
  have hhalf : (Id.ofBytes [0x80]).val = 2 ^ 159 := by decide +kernel
  have h : AlignedRanges
      [callocBucket afInet Id.zeroes, callocBucket afInet (Id.ofBytes [0x80])] := by
    intro i b hb
    match i, hb with
    | 0, hb =>
      obtain rfl : callocBucket afInet Id.zeroes = b := Option.some_inj.mp hb
      refine ⟨159, ?_, ?_⟩
      · exact hhalf.trans (by rw [show (callocBucket afInet Id.zeroes).first = Id.zeroes from rfl,
          Id.val_zeroes, Nat.zero_add])
      · rw [show (callocBucket afInet Id.zeroes).first = Id.zeroes from rfl, Id.val_zeroes]
        exact dvd_zero _
    | 1, hb =>
      obtain rfl : callocBucket afInet (Id.ofBytes [0x80]) = b := Option.some_inj.mp hb
      refine ⟨159, ?_, hhalf.symm ▸ dvd_rfl⟩
      rw [show (callocBucket afInet (Id.ofBytes [0x80])).first = Id.ofBytes [0x80] from rfl, hhalf]
      rfl
  have harith := bucket_arithmetic h (i := 0) rfl
  refine ⟨?_, harith.2 _⟩
  obtain ⟨m, hm, -, -, -, -, hsize⟩ := harith.1 1 (by decide) (by
    rw [show (callocBucket afInet Id.zeroes).first = Id.zeroes from rfl, Id.val_zeroes]
    exact hhalf)
  refine ⟨m, hm, ?_⟩
  rw [show (callocBucket afInet Id.zeroes).first = Id.zeroes from rfl, Id.val_zeroes] at hsize
  have hend : rangeEnd (some (callocBucket afInet (Id.ofBytes [0x80]))) = 2 ^ 159 := hhalf
  simp only [List.getElem?_cons_succ, List.getElem?_cons_zero, Nat.zero_add, hend] at hsize
  omega

end DtnDht
