import DtnDht.Sha1
import DtnDht.Lib.Blocks

/-!
# SHA-1 of a byte stream

`sha1_update` takes the input in pieces of any size: it first fills up the block in `buffer`, then
hashes whole blocks where they stand in the input, and keeps the rest in `buffer`. The number of
bytes kept is not stored, it is the length so far modulo 64. `total` counts the bytes in two words
of 32 bits, with the carry between them.

`Holds` says what a context stands for: a prefix of the input, absorbed block by block. Every
`sha1_update` extends the prefix (`holds_sha1Update`), so however the input is cut, `sha1_finish`
returns the hash of the standard (`sha1Finish_digest`).
-/

namespace DtnDht.Sha1

open Blocks

/-! ## The code -/

/-- `sha1_context`. -/
structure Sha1Context (w : ℕ) where
  total0 : BitVec w
  total1 : BitVec w
  state : Vector (BitVec w) 5
  buffer : Vector UInt8 64
  ipad : Vector UInt8 64
  opad : Vector UInt8 64

section

variable {w : ℕ}

/-- The state that hashing starts from. -/
def initialState : Vector (BitVec w) 5 :=
  #v[BitVec.ofNat w 0x67452301, BitVec.ofNat w 0xEFCDAB89, BitVec.ofNat w 0x98BADCFE,
    BitVec.ofNat w 0x10325476, BitVec.ofNat w 0xC3D2E1F0]

/-- `sha1_starts`. -/
def sha1Starts (ctx : Sha1Context w) : Sha1Context w :=
  { ctx with total0 := 0, total1 := 0, state := initialState }

/-- `memcpy` to `buffer + k`. -/
def memcpy (buffer : Vector UInt8 64) (k : ℕ) (src : Bytes) : Vector UInt8 64 :=
  Vector.ofFn fun i => if k ≤ i ∧ i < k + src.length then src.getD (i - k) 0 else buffer.get i

/-- The loop of `sha1_update` over the whole blocks, with the input it leaves. -/
def sha1Blocks (state : Vector (BitVec w) 5) (input : Bytes) : Vector (BitVec w) 5 × Bytes :=
  if 64 ≤ input.length then sha1Blocks (sha1Process state (input.take 64)) (input.drop 64)
  else (state, input)
termination_by input.length
decreasing_by rw [List.length_drop]; omega

/-- The end of `sha1_update`: the whole blocks of the input, and the rest behind the `left` bytes
of `buffer`. -/
def absorbInput (ctx : Sha1Context w) (left : ℕ) (input : Bytes) : Sha1Context w :=
  let r := sha1Blocks ctx.state input
  { ctx with
    state := r.1
    buffer := if 0 < r.2.length then memcpy ctx.buffer left r.2 else ctx.buffer }

/-- `sha1_update` after the counting. -/
def addInput (ctx : Sha1Context w) (left : ℕ) (input : Bytes) : Sha1Context w :=
  let fill := 64 - left
  if left ≠ 0 ∧ fill ≤ input.length then
    let buffer := memcpy ctx.buffer left (input.take fill)
    absorbInput { ctx with buffer := buffer, state := sha1Process ctx.state buffer.toList } 0
      (input.drop fill)
  else absorbInput ctx left input

/-- `sha1_update`. -/
def sha1Update (ctx : Sha1Context w) (input : Bytes) : Sha1Context w :=
  if input.length = 0 then ctx
  else
    let left := (ctx.total0 &&& BitVec.ofNat w 0x3F).toNat
    let total0 := (ctx.total0 + BitVec.ofNat w input.length) &&& BitVec.ofNat w 0xFFFFFFFF
    let total1 := if total0 < BitVec.ofNat w input.length then ctx.total1 + 1 else ctx.total1
    addInput { ctx with total0 := total0, total1 := total1 } left input

/-- `sha1_padding`. -/
def sha1Padding : Bytes := 0x80 :: List.replicate 63 0

/-- `msglen` of `sha1_finish`. -/
def msglen (ctx : Sha1Context w) : Bytes :=
  putUlongBe ((ctx.total0 >>> 29) ||| (ctx.total1 <<< 3)) ++ putUlongBe (ctx.total0 <<< 3)

/-- `padn` of `sha1_finish`. -/
def padn (ctx : Sha1Context w) : ℕ :=
  let last := (ctx.total0 &&& BitVec.ofNat w 0x3F).toNat
  if last < 56 then 56 - last else 120 - last

/-- The bytes of the state. -/
def output (state : Vector (BitVec w) 5) : Bytes :=
  putUlongBe state[0] ++ putUlongBe state[1] ++ putUlongBe state[2] ++ putUlongBe state[3] ++
    putUlongBe state[4]

/-- `sha1_finish`, the output first. -/
def sha1Finish (ctx : Sha1Context w) : Bytes × Sha1Context w :=
  let last := sha1Update (sha1Update ctx (sha1Padding.take (padn ctx))) (msglen ctx)
  (output last.state, last)

/-- `sha1`, `mem` being what its local context holds when it is called. -/
def sha1 (mem : Sha1Context w) (input : Bytes) : Bytes :=
  (sha1Finish (sha1Update (sha1Starts mem) input)).1

end

/-! ## The standard -/

/-- The initial hash value. -/
def initial : Registers := ⟨0x67452301, 0xEFCDAB89, 0x98BADCFE, 0x10325476, 0xC3D2E1F0⟩

/-- A message with its padding: a one bit, the fewest zeros that leave eight bytes of the last
block, and there the length in bits. -/
def pad (m : Bytes) : Bytes :=
  m ++ 0x80 :: (List.replicate ((119 - m.length % 64) % 64) 0 ++ BigEndian.bytes 8 (8 * m.length))

/-- The bytes of the registers. -/
def Registers.bytes (r : Registers) : Bytes :=
  putUlongBe r.a ++ putUlongBe r.b ++ putUlongBe r.c ++ putUlongBe r.d ++ putUlongBe r.e

/-- The hash of a message. -/
def digest (m : Bytes) : Bytes := (absorb compress 64 initial (pad m)).1.bytes

@[simp] theorem length_digest (m : Bytes) : (digest m).length = 20 := rfl

/-! ## The buffer -/

section

variable {buffer : Vector UInt8 64} {k : ℕ} {src : Bytes}

theorem getElem_memcpy {i : ℕ} (h : i < 64) :
    (memcpy buffer k src)[i] =
      if k ≤ i ∧ i < k + src.length then src.getD (i - k) 0 else buffer[i] :=
  Vector.getElem_ofFn h

/-- The bytes in front of those copied stay. -/
theorem take_memcpy (h : k + src.length ≤ 64) :
    (memcpy buffer k src).toList.take (k + src.length) = buffer.toList.take k ++ src := by
  have hk : (buffer.toList.take k).length = k := by
    rw [List.length_take, Vector.length_toList]
    omega
  apply List.ext_getElem
  · rw [List.length_take, Vector.length_toList, List.length_append, hk]
    omega
  · intro i h1 h2
    have hi : i < k + src.length := by rwa [List.length_append, hk] at h2
    have h64 : i < 64 := by omega
    rw [List.getElem_take, Vector.getElem_toList, getElem_memcpy h64]
    rcases Nat.lt_or_ge i k with hlt | hge
    · rw [if_neg (by omega), List.getElem_append_left (by omega), List.getElem_take,
        Vector.getElem_toList]
    · rw [if_pos ⟨hge, hi⟩, List.getElem_append_right (by omega),
        List.getD_eq_getElem _ _ (by omega)]
      simp only [hk]

end

/-! ## What a context stands for -/

section

variable {w : ℕ}

theorem sha1Blocks_eq (state : Vector (BitVec w) 5) (input : Bytes) :
    sha1Blocks state input = absorb sha1Process 64 state input := by
  induction state, input using sha1Blocks.induct with
  | case1 state input h ih => rw [sha1Blocks, if_pos h, ih, absorb_of_le (by decide) h]
  | case2 state input h => rw [sha1Blocks, if_neg h, absorb_of_lt (by omega)]

/-- The words of the code and the words of the standard, over any input. -/
theorem low_absorb (hw : 32 ≤ w) (state : Vector (BitVec w) 5) (input : Bytes) :
    absorb compress 64 (lowState state) input =
      (lowState (absorb sha1Process 64 state input).1,
        (absorb sha1Process 64 state input).2) :=
  map_absorb (by decide) (fun s _ hb => low_sha1Process hw s hb) state input

/-- The bytes in the buffer that count after `left` of them are written. -/
def kept (ctx : Sha1Context w) (left : ℕ) : Bytes := ctx.buffer.toList.take left

theorem length_kept {ctx : Sha1Context w} {left : ℕ} (h : left ≤ 64) :
    (kept ctx left).length = left := by
  rw [kept, List.length_take, Vector.length_toList]
  omega

/-- `absorbInput` hashes the input behind the `left` bytes in the buffer. -/
theorem absorb_absorbInput (hw : 32 ≤ w) (ctx : Sha1Context w) {left : ℕ} {input : Bytes}
    (hl : left = 0 ∨ left + input.length < 64) :
    absorb compress 64 (lowState ctx.state) (kept ctx left ++ input) =
      (lowState (absorbInput ctx left input).state,
        kept (absorbInput ctx left input) ((left + input.length) % 64)) := by
  have hk : (kept ctx left).length = left := length_kept (by omega)
  have hr : (sha1Blocks ctx.state input).2.length = input.length % 64 := by
    rw [sha1Blocks_eq, length_rest (by decide)]
  have hb : kept (absorbInput ctx left input) (left + input.length % 64) =
      kept ctx left ++ (sha1Blocks ctx.state input).2 := by
    rw [← hr, kept, absorbInput]
    split_ifs with h0
    · exact take_memcpy (by omega)
    · rw [List.eq_nil_of_length_eq_zero (Nat.eq_zero_of_not_pos h0), List.length_nil,
        Nat.add_zero, List.append_nil]
      rfl
  have hs : (absorbInput ctx left input).state = (sha1Blocks ctx.state input).1 := rfl
  rw [hs]
  rcases hl with rfl | hl
  · have h0 : kept ctx 0 = [] := List.take_zero
    rw [h0, List.nil_append, Nat.zero_add] at hb
    rw [h0, List.nil_append, Nat.zero_add, low_absorb hw, ← sha1Blocks_eq, hb]
  · have hi : sha1Blocks ctx.state input = (ctx.state, input) := by
      rw [sha1Blocks_eq, absorb_of_lt (by omega)]
    rw [hi, Nat.mod_eq_of_lt (by omega)] at hb
    rw [Nat.mod_eq_of_lt hl, hb, hi, absorb_keep (by omega)]

theorem absorb_addInput (hw : 32 ≤ w) (ctx : Sha1Context w) {left : ℕ} (hl : left < 64)
    (input : Bytes) :
    absorb compress 64 (lowState ctx.state) (kept ctx left ++ input) =
      (lowState (addInput ctx left input).state,
        kept (addInput ctx left input) ((left + input.length) % 64)) := by
  have hk : (kept ctx left).length = left := length_kept hl.le
  unfold addInput
  dsimp only
  split_ifs with h
  · let piece := input.take (64 - left)
    let rest := input.drop (64 - left)
    let filled : Sha1Context w :=
      { ctx with
        buffer := memcpy ctx.buffer left piece
        state := sha1Process ctx.state (memcpy ctx.buffer left piece).toList }
    have hp : left + piece.length = 64 := by
      rw [List.length_take]
      omega
    have hb : (memcpy ctx.buffer left piece).toList = kept ctx left ++ piece := by
      have hm : (memcpy ctx.buffer left piece).toList.take (left + piece.length) =
          kept ctx left ++ piece := take_memcpy hp.le
      rwa [hp, List.take_of_length_le (by rw [Vector.length_toList])] at hm
    have hs : compress (lowState ctx.state) (kept ctx left ++ piece) = lowState filled.state := by
      rw [← hb, ← low_sha1Process hw _ (by rw [Vector.length_toList])]
    have hlen : (left + input.length) % 64 = (0 + rest.length) % 64 := by
      rw [List.length_drop]
      omega
    have hrest : absorb compress 64 (lowState filled.state) (kept filled 0 ++ rest) =
        (lowState (absorbInput filled 0 rest).state,
          kept (absorbInput filled 0 rest) ((0 + rest.length) % 64)) :=
      absorb_absorbInput hw filled (.inl rfl)
    rw [absorb_fill (by decide) (by omega) (by omega), hk, hs, hlen]
    exact hrest
  · exact absorb_absorbInput hw ctx (by omega)

/-! ## Counting -/

theorem toNat_and_mask (x : BitVec w) {n : ℕ} (hn : n ≤ w) :
    (x &&& BitVec.ofNat w (2 ^ n - 1)).toNat = x.toNat % 2 ^ n := by
  have hlt : 2 ^ n - 1 < 2 ^ w :=
    lt_of_lt_of_le (Nat.sub_lt (Nat.two_pow_pos n) Nat.one_pos)
      (Nat.pow_le_pow_right (by decide) hn)
  rw [BitVec.toNat_and, BitVec.toNat_ofNat, Nat.mod_eq_of_lt hlt, Nat.and_two_pow_sub_one_eq_mod]

/-- A context that has counted and absorbed the bytes of `m`. -/
structure Holds (ctx : Sha1Context w) (m : Bytes) : Prop where
  total0 : ctx.total0.toNat = m.length % 2 ^ 32
  total1 : ctx.total1.toNat = m.length / 2 ^ 32 % 2 ^ w
  absorbed : absorb compress 64 initial m = (lowState ctx.state, kept ctx (m.length % 64))

/-- The number of bytes in the buffer is read off the counter. -/
theorem Holds.left (hw : 32 ≤ w) {ctx : Sha1Context w} {m : Bytes} (h : Holds ctx m) :
    (ctx.total0 &&& BitVec.ofNat w 0x3F).toNat = m.length % 64 := by
  have hm : (ctx.total0 &&& BitVec.ofNat w 0x3F).toNat = ctx.total0.toNat % 2 ^ 6 :=
    toNat_and_mask ctx.total0 (show 6 ≤ w by omega)
  rw [hm, h.total0]
  exact Nat.mod_mod_of_dvd _ (by decide)

theorem lowState_initialState (hw : 32 ≤ w) :
    lowState (initialState : Vector (BitVec w) 5) = initial := by
  have h (n : ℕ) : low (BitVec.ofNat w n) = BitVec.ofNat 32 n := low_ofNat hw n
  exact Registers.ext (h 0x67452301) (h 0xEFCDAB89) (h 0x98BADCFE) (h 0x10325476) (h 0xC3D2E1F0)

theorem holds_sha1Starts (hw : 32 ≤ w) (ctx : Sha1Context w) : Holds (sha1Starts ctx) [] where
  total0 := by simp [sha1Starts]
  total1 := by simp [sha1Starts]
  absorbed := by
    rw [absorb_of_lt (by decide), sha1Starts, lowState_initialState hw]
    rfl

theorem total_addInput (ctx : Sha1Context w) (left : ℕ) (input : Bytes) :
    (addInput ctx left input).total0 = ctx.total0 ∧
      (addInput ctx left input).total1 = ctx.total1 := by
  unfold addInput
  dsimp only
  split_ifs <;> exact ⟨rfl, rfl⟩

/-- The two counters after `n` more bytes: the carry is seen by the sum getting smaller. -/
theorem count_bytes (hw : 32 ≤ w) {total0 total1 : BitVec w} {len n : ℕ} (hn : n < 2 ^ 32)
    (h0 : total0.toNat = len % 2 ^ 32) (h1 : total1.toNat = len / 2 ^ 32 % 2 ^ w) :
    let sum := (total0 + BitVec.ofNat w n) &&& BitVec.ofNat w 0xFFFFFFFF
    sum.toNat = (len + n) % 2 ^ 32 ∧
      (if sum < BitVec.ofNat w n then total1 + 1 else total1).toNat =
        (len + n) / 2 ^ 32 % 2 ^ w := by
  intro sum
  have hpow : 2 ^ 32 ≤ 2 ^ w := Nat.pow_le_pow_right (by decide) hw
  have hnw : (BitVec.ofNat w n).toNat = n := by
    rw [BitVec.toNat_ofNat, Nat.mod_eq_of_lt (hn.trans_le hpow)]
  have hsum : sum.toNat = (len + n) % 2 ^ 32 := by
    have hm : sum.toNat = (total0 + BitVec.ofNat w n).toNat % 2 ^ 32 := toNat_and_mask _ hw
    rw [hm, BitVec.toNat_add, hnw, Nat.mod_mod_of_dvd _ (Nat.pow_dvd_pow 2 hw), h0,
      Nat.mod_add_mod]
  refine ⟨hsum, ?_⟩
  have hlt : sum < BitVec.ofNat w n ↔ (len + n) / 2 ^ 32 = len / 2 ^ 32 + 1 := by
    rw [BitVec.lt_def, hsum, hnw]
    omega
  split_ifs with hc
  · rw [hlt.mp hc, BitVec.toNat_add, h1]
    simp
  · have hk : (len + n) / 2 ^ 32 = len / 2 ^ 32 := by
      rw [hlt] at hc
      omega
    rw [hk, h1]

/-- **`sha1_update` hashes its input behind what the context stands for.** -/
theorem holds_sha1Update (hw : 32 ≤ w) {ctx : Sha1Context w} {m input : Bytes} (h : Holds ctx m)
    (hi : input.length < 2 ^ 32) : Holds (sha1Update ctx input) (m ++ input) := by
  unfold sha1Update
  split_ifs with h0
  · rwa [List.eq_nil_of_length_eq_zero h0, List.append_nil]
  · have hleft : (ctx.total0 &&& BitVec.ofNat w 0x3F).toNat = m.length % 64 := by
      have hm : (ctx.total0 &&& BitVec.ofNat w 0x3F).toNat = ctx.total0.toNat % 2 ^ 6 :=
        toNat_and_mask ctx.total0 (show 6 ≤ w by omega)
      rw [hm, h.total0]
      exact Nat.mod_mod_of_dvd _ (by decide)
    obtain ⟨hc0, hc1⟩ := count_bytes hw hi h.total0 h.total1
    dsimp only
    rw [h.left hw]
    refine ⟨?_, ?_, ?_⟩
    · rw [(total_addInput _ _ _).1, List.length_append]
      exact hc0
    · rw [(total_addInput _ _ _).2, List.length_append]
      exact hc1
    · rw [absorb_append (by decide), h.absorbed, List.length_append, ← Nat.mod_add_mod]
      generalize hc : Sha1Context.mk _ _ ctx.state _ _ _ = counted
      have hs : counted.state = ctx.state := by rw [← hc]
      have hk : kept counted (m.length % 64) = kept ctx (m.length % 64) := by rw [← hc]; rfl
      rw [← hs, ← hk]
      exact absorb_addInput hw counted (Nat.mod_lt _ (by decide)) input

/-- Any number of pieces. -/
theorem holds_foldl (hw : 32 ≤ w) {pieces : List Bytes} (hp : ∀ p ∈ pieces, p.length < 2 ^ 32)
    {ctx : Sha1Context w} {m : Bytes} (h : Holds ctx m) :
    Holds (pieces.foldl sha1Update ctx) (m ++ pieces.flatten) := by
  induction pieces generalizing ctx m with
  | nil => simpa using h
  | cons p pieces ih =>
    rw [List.foldl_cons, List.flatten_cons, ← List.append_assoc]
    exact ih (fun q hq => hp q (List.mem_cons_of_mem _ hq))
      (holds_sha1Update hw h (hp p List.mem_cons_self))

/-! ## The padding -/

/-- The bits of the two counters, as a number. -/
theorem msglen_eq (hw : 32 ≤ w) {ctx : Sha1Context w} {m : Bytes} (h : Holds ctx m) :
    msglen ctx = BigEndian.bytes 8 (8 * m.length) := by
  have hpow : 2 ^ 32 ∣ 2 ^ w := Nat.pow_dvd_pow 2 hw
  have hlow (x : BitVec w) : low x = BitVec.ofNat 32 x.toNat :=
    BitVec.eq_of_toNat_eq (by simp [low])
  have hbytes {x : BitVec w} {n : ℕ} (hx : low x = BitVec.ofNat 32 n) :
      putUlongBe x = BigEndian.bytes 4 n := by
    rw [← putUlongBe_low, hx, putUlongBe_eq, BitVec.toNat_ofNat]
    exact BigEndian.bytes_mod 4 n
  have hhigh : low ((ctx.total0 >>> 29) ||| (ctx.total1 <<< 3)) =
      BitVec.ofNat 32 (8 * m.length / 256 ^ 4) := by
    have hsmall : ctx.total0.toNat / 2 ^ 29 < 2 ^ 3 := by
      rw [h.total0]
      omega
    rw [BitVec.or_comm, low_or, low_shiftLeft hw, hlow ctx.total1, hlow (ctx.total0 >>> 29),
      BitVec.toNat_ushiftRight, Nat.shiftRight_eq_div_pow, shiftLeft_or_ofNat hsmall, h.total0,
      h.total1]
    have hmod : m.length / 2 ^ 32 % 2 ^ w % 2 ^ 32 = m.length / 2 ^ 32 % 2 ^ 32 :=
      Nat.mod_mod_of_dvd _ hpow
    apply BitVec.eq_of_toNat_eq
    rw [BitVec.toNat_ofNat, BitVec.toNat_ofNat]
    generalize m.length / 2 ^ 32 % 2 ^ w = high at hmod
    omega
  have hlast : low (ctx.total0 <<< 3) = BitVec.ofNat 32 (8 * m.length) := by
    rw [low_shiftLeft hw, hlow, h.total0]
    apply BitVec.eq_of_toNat_eq
    simp [Nat.shiftLeft_eq]
    omega
  rw [msglen, hbytes hhigh, hbytes hlast, ← BigEndian.bytes_add 4 4]

/-- The padding that `sha1_finish` adds. -/
theorem padding_eq (hw : 32 ≤ w) {ctx : Sha1Context w} {m : Bytes} (h : Holds ctx m) :
    sha1Padding.take (padn ctx) = 0x80 :: List.replicate ((119 - m.length % 64) % 64) 0 := by
  have hlast : (ctx.total0 &&& BitVec.ofNat w 0x3F).toNat = m.length % 64 := h.left hw
  have hz (n : ℕ) (hn : n ≤ 63) :
      sha1Padding.take (n + 1) = 0x80 :: List.replicate n 0 := by
    rw [sha1Padding, List.take_succ_cons, List.take_replicate, min_eq_left hn]
  unfold padn
  dsimp only
  rw [hlast, ← hz _ (by omega)]
  congr 1
  split_ifs <;> omega

/-- **`sha1_finish` returns the hash of what the context stands for.** -/
theorem sha1Finish_eq (hw : 32 ≤ w) {ctx : Sha1Context w} {m : Bytes} (h : Holds ctx m) :
    (sha1Finish ctx).1 = digest m := by
  have hpad : (sha1Padding.take (padn ctx)).length < 2 ^ 32 := by
    rw [List.length_take]
    have : sha1Padding.length = 64 := rfl
    omega
  have hlen : (msglen ctx).length < 2 ^ 32 := by
    rw [msglen_eq hw h, BigEndian.length_bytes]
    decide
  have hlast := holds_sha1Update hw (holds_sha1Update hw h hpad) hlen
  have hm : m ++ sha1Padding.take (padn ctx) ++ msglen ctx = pad m := by
    rw [padding_eq hw h, msglen_eq hw h, pad, List.append_assoc, List.cons_append]
  rw [hm] at hlast
  have hs := congrArg Prod.fst hlast.absorbed
  dsimp only at hs
  rw [digest, hs, sha1Finish]
  simp only [output, Registers.bytes, lowState, putUlongBe_low]
  rfl

/-- **However the input is cut into pieces, and whatever the context held before, `sha1_starts`,
`sha1_update` for each piece and `sha1_finish` compute the hash of the concatenation.** -/
theorem sha1Finish_digest (hw : 32 ≤ w) (ctx : Sha1Context w) {pieces : List Bytes}
    (hp : ∀ p ∈ pieces, p.length < 2 ^ 32) :
    (sha1Finish (pieces.foldl sha1Update (sha1Starts ctx))).1 = digest pieces.flatten :=
  sha1Finish_eq hw (holds_foldl hw hp (holds_sha1Starts hw ctx))

end

/-- A context of a machine with 64-bit words, as the stack may leave it. -/
def staleContext : Sha1Context 64 where
  total0 := 5
  total1 := 6
  state := Vector.replicate 5 9
  buffer := Vector.replicate 64 7
  ipad := Vector.replicate 64 7
  opad := Vector.replicate 64 7

/-- The bytes `abc` in two pieces. -/
theorem sha1Finish_digest_abc :
    (sha1Finish ([[0x61], [0x62, 0x63]].foldl sha1Update (sha1Starts staleContext))).1 =
        digest [0x61, 0x62, 0x63] ∧
      digest [0x61, 0x62, 0x63] =
        [0xA9, 0x99, 0x3E, 0x36, 0x47, 0x06, 0x81, 0x6A, 0xBA, 0x3E,
          0x25, 0x71, 0x78, 0x50, 0xC2, 0x6C, 0x9C, 0xD0, 0xD8, 0x9D] := by
  have h := sha1Finish_digest (by decide) staleContext
    (show ∀ p ∈ [[0x61], [0x62, 0x63]], p.length < 2 ^ 32 by decide)
  exact ⟨h, h.symm.trans (by decide +kernel)⟩

end DtnDht.Sha1
