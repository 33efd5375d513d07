import DtnDht.Sha1Digest
import DtnDht.Token

/-!
# HMAC-SHA-1, and `dht_hash`

`sha1_hmac_starts` keeps the key, exclusive-ored with two constants, in `ipad` and `opad`, and a
context can be used again after `sha1_hmac_reset`: `hmacMessages` runs any number of messages with
one key, and every output is the code of its message (`hmacMessages_eq`).

`dht_hash` hashes three byte strings with a context that stays from call to call. It depends on
nothing of it, and with the hash function of the standard it is the function that tokens and keys
are computed with (`hashReturn_eq`).
-/

namespace DtnDht.Sha1

open CString

/-! ## The code -/

section

variable {w : ℕ}

/-- The loop of `sha1_hmac_starts` on one of the pads, filled with `c` before. -/
def xorKey (c : UInt8) (key : Bytes) : Vector UInt8 64 :=
  Vector.ofFn fun i => if i < key.length then c ^^^ key.getD i 0 else c

/-- `sha1_hmac_reset`. -/
def sha1HmacReset (ctx : Sha1Context w) : Sha1Context w :=
  sha1Update (sha1Starts ctx) ctx.ipad.toList

/-- `sha1_hmac_starts`, `mem` being what the local context of `sha1` holds when it is called. -/
def sha1HmacStarts (mem ctx : Sha1Context w) (key : Bytes) : Sha1Context w :=
  let key := if key.length > 64 then sha1 mem key else key
  let ctx := { ctx with ipad := xorKey 0x36 key, opad := xorKey 0x5C key }
  sha1Update (sha1Starts ctx) ctx.ipad.toList

/-- `sha1_hmac_update`. -/
def sha1HmacUpdate (ctx : Sha1Context w) (input : Bytes) : Sha1Context w := sha1Update ctx input

/-- `sha1_hmac_finish`, the output first. -/
def sha1HmacFinish (ctx : Sha1Context w) : Bytes × Sha1Context w :=
  let inner := sha1Finish ctx
  let ctx := sha1Update (sha1Starts inner.2) inner.2.opad.toList
  sha1Finish (sha1Update ctx inner.1)

/-- `sha1_hmac`, `mem` being what its local context holds. -/
def sha1Hmac (mem : Sha1Context w) (key input : Bytes) : Bytes :=
  (sha1HmacFinish (sha1HmacUpdate (sha1HmacStarts mem mem key) input)).1

/-- The outputs for several messages, each in pieces, the context being reset after each. -/
def hmacMessages (ctx : Sha1Context w) : List (List Bytes) → List Bytes
  | [] => []
  | pieces :: rest =>
    let r := sha1HmacFinish (pieces.foldl sha1HmacUpdate ctx)
    r.1 :: hmacMessages (sha1HmacReset r.2) rest

/-- The arguments of `dht_hash`. -/
structure HashCall where
  hashSize : ℕ
  v1 : Bytes
  v2 : Bytes
  v3 : Bytes

/-- `dht_hash` with the static context `ctx`: the bytes of `hash_return`, and the context left. -/
def hashReturn (ctx : Sha1Context w) (c : HashCall) : Bytes × Sha1Context w :=
  let r := sha1Finish (sha1Update (sha1Update (sha1Update (sha1Starts ctx) c.v1) c.v2) c.v3)
  let zeros := if c.hashSize > 20 then c.hashSize - 20 else 0
  (r.1.take (if c.hashSize > 20 then 20 else c.hashSize) ++ List.replicate zeros 0, r.2)

/-- What some calls of `dht_hash` return, one after the other. -/
def hashReturns (ctx : Sha1Context w) : List HashCall → List Bytes
  | [] => []
  | c :: calls =>
    let r := hashReturn ctx c
    r.1 :: hashReturns r.2 calls

end

/-! ## The standard -/

/-- The key of one block. -/
def blockKey (key : Bytes) : Bytes :=
  let key := if key.length > 64 then digest key else key
  key ++ List.replicate (64 - key.length) 0

/-- The message authentication code of a message. -/
def hmac (key m : Bytes) : Bytes :=
  digest ((blockKey key).map (0x5C ^^^ ·) ++ digest ((blockKey key).map (0x36 ^^^ ·) ++ m))

/-! ## The pads -/

section

variable {w : ℕ}

theorem pads_addInput (ctx : Sha1Context w) (left : ℕ) (input : Bytes) :
    (addInput ctx left input).ipad = ctx.ipad ∧ (addInput ctx left input).opad = ctx.opad := by
  unfold addInput
  dsimp only
  split_ifs <;> exact ⟨rfl, rfl⟩

theorem pads_sha1Update (ctx : Sha1Context w) (input : Bytes) :
    (sha1Update ctx input).ipad = ctx.ipad ∧ (sha1Update ctx input).opad = ctx.opad := by
  unfold sha1Update
  split_ifs
  · exact ⟨rfl, rfl⟩
  · exact pads_addInput _ _ _

theorem pads_sha1Finish (ctx : Sha1Context w) :
    (sha1Finish ctx).2.ipad = ctx.ipad ∧ (sha1Finish ctx).2.opad = ctx.opad := by
  have h1 := pads_sha1Update ctx (sha1Padding.take (padn ctx))
  have h2 := pads_sha1Update (sha1Update ctx (sha1Padding.take (padn ctx))) (msglen ctx)
  exact ⟨h2.1.trans h1.1, h2.2.trans h1.2⟩

/-- A pad is the key of one block, exclusive-ored with its constant. -/
theorem toList_xorKey (c : UInt8) {key : Bytes} (hk : key.length ≤ 64) :
    (xorKey c key).toList = (key ++ List.replicate (64 - key.length) 0).map (c ^^^ ·) := by
  apply List.ext_getElem
  · rw [Vector.length_toList, List.length_map, List.length_append, List.length_replicate]
    omega
  · intro i h1 h2
    have h64 : i < 64 := by rwa [Vector.length_toList] at h1
    have hx : (xorKey c key)[i] = if i < key.length then c ^^^ key.getD i 0 else c :=
      Vector.getElem_ofFn h64
    rw [Vector.getElem_toList, hx, List.getElem_map]
    split_ifs with h
    · rw [List.getElem_append_left h, List.getD_eq_getElem]
    · rw [List.getElem_append_right (not_lt.mp h), List.getElem_replicate, UInt8.xor_zero]

/-! ## A context with a key -/

/-- A context that has the pads of `key`, and has hashed the inner pad and `m`. -/
structure Keyed (ctx : Sha1Context w) (key m : Bytes) : Prop where
  ipad : ctx.ipad.toList = (blockKey key).map (0x36 ^^^ ·)
  opad : ctx.opad.toList = (blockKey key).map (0x5C ^^^ ·)
  holds : Holds ctx ((blockKey key).map (0x36 ^^^ ·) ++ m)

variable (hw : 32 ≤ w)
include hw

theorem sha1_eq (mem : Sha1Context w) {input : Bytes} (hi : input.length < 2 ^ 32) :
    sha1 mem input = digest input :=
  sha1Finish_eq hw (holds_sha1Update hw (holds_sha1Starts hw mem) hi)

/-- Hashing the inner pad. -/
theorem keyed_sha1HmacReset {ctx : Sha1Context w} {key : Bytes}
    (hi : ctx.ipad.toList = (blockKey key).map (0x36 ^^^ ·))
    (ho : ctx.opad.toList = (blockKey key).map (0x5C ^^^ ·)) :
    Keyed (sha1HmacReset ctx) key [] := by
  have hp := pads_sha1Update (sha1Starts ctx) ctx.ipad.toList
  have hl : ctx.ipad.toList.length < 2 ^ 32 := by
    rw [Vector.length_toList]
    decide
  have hh := holds_sha1Update hw (holds_sha1Starts hw ctx) hl
  rw [List.nil_append, hi] at hh
  refine ⟨?_, ?_, ?_⟩
  · rw [sha1HmacReset, hp.1]
    exact hi
  · rw [sha1HmacReset, hp.2]
    exact ho
  · rw [sha1HmacReset, List.append_nil, hi]
    exact hh

theorem keyed_sha1HmacStarts (mem ctx : Sha1Context w) {key : Bytes} (hk : key.length < 2 ^ 32) :
    Keyed (sha1HmacStarts mem ctx key) key [] := by
  have hb (c : UInt8) :
      (xorKey c (if key.length > 64 then sha1 mem key else key)).toList =
        (blockKey key).map (c ^^^ ·) := by
    unfold blockKey
    dsimp only
    split_ifs with h
    · rw [sha1_eq hw mem hk]
      exact toList_xorKey c (by rw [length_digest]; decide)
    · exact toList_xorKey c (not_lt.mp h)
  exact keyed_sha1HmacReset hw (hb 0x36) (hb 0x5C)

theorem keyed_foldl {ctx : Sha1Context w} {key m : Bytes} {pieces : List Bytes}
    (hp : ∀ p ∈ pieces, p.length < 2 ^ 32) (h : Keyed ctx key m) :
    Keyed (pieces.foldl sha1HmacUpdate ctx) key (m ++ pieces.flatten) := by
  induction pieces generalizing ctx m with
  | nil => simpa using h
  | cons p pieces ih =>
    have hpads := pads_sha1Update ctx p
    rw [List.foldl_cons, List.flatten_cons, ← List.append_assoc]
    refine ih (fun q hq => hp q (List.mem_cons_of_mem _ hq)) ⟨?_, ?_, ?_⟩
    · rw [sha1HmacUpdate, hpads.1, h.ipad]
    · rw [sha1HmacUpdate, hpads.2, h.opad]
    · rw [← List.append_assoc]
      exact holds_sha1Update hw h.holds (hp p List.mem_cons_self)

theorem sha1HmacFinish_eq {ctx : Sha1Context w} {key m : Bytes} (h : Keyed ctx key m) :
    (sha1HmacFinish ctx).1 = hmac key m := by
  have hinner := sha1Finish_eq hw h.holds
  have ho : (sha1Finish ctx).2.opad.toList = (blockKey key).map (0x5C ^^^ ·) := by
    rw [(pads_sha1Finish ctx).2, h.opad]
  have hl : ((blockKey key).map (0x5C ^^^ ·)).length < 2 ^ 32 := by
    rw [← ho, Vector.length_toList]
    decide
  have hd (b : Bytes) : (digest b).length < 2 ^ 32 := by
    rw [length_digest]
    decide
  rw [sha1HmacFinish, hinner, ho]
  exact sha1Finish_eq hw
    (holds_sha1Update hw (holds_sha1Update hw (holds_sha1Starts hw _) hl) (hd _))

omit hw in
theorem pads_sha1HmacFinish (ctx : Sha1Context w) :
    (sha1HmacFinish ctx).2.ipad = ctx.ipad ∧ (sha1HmacFinish ctx).2.opad = ctx.opad := by
  have h1 := pads_sha1Finish ctx
  have h2 := pads_sha1Update (sha1Starts (sha1Finish ctx).2) (sha1Finish ctx).2.opad.toList
  have h3 := pads_sha1Update (sha1Update (sha1Starts (sha1Finish ctx).2)
    (sha1Finish ctx).2.opad.toList) (sha1Finish ctx).1
  have h4 := pads_sha1Finish (sha1Update (sha1Update (sha1Starts (sha1Finish ctx).2)
    (sha1Finish ctx).2.opad.toList) (sha1Finish ctx).1)
  exact ⟨h4.1.trans (h3.1.trans (h2.1.trans h1.1)), h4.2.trans (h3.2.trans (h2.2.trans h1.2))⟩

/-- Every message is coded on its own. -/
theorem hmacMessages_keyed {key : Bytes} {messages : List (List Bytes)}
    (hp : ∀ pieces ∈ messages, ∀ p ∈ pieces, p.length < 2 ^ 32) {ctx : Sha1Context w}
    (h : Keyed ctx key []) :
    hmacMessages ctx messages = messages.map fun pieces => hmac key pieces.flatten := by
  induction messages generalizing ctx with
  | nil => rfl
  | cons pieces rest ih =>
    have hk := keyed_foldl hw (hp pieces List.mem_cons_self) h
    have hpads := pads_sha1HmacFinish (pieces.foldl sha1HmacUpdate ctx)
    have hreset : Keyed (sha1HmacReset (sha1HmacFinish (pieces.foldl sha1HmacUpdate ctx)).2)
        key [] :=
      keyed_sha1HmacReset hw (by rw [hpads.1, hk.ipad]) (by rw [hpads.2, hk.opad])
    rw [hmacMessages, List.map_cons,
      ih (fun q hq => hp q (List.mem_cons_of_mem _ hq)) hreset, sha1HmacFinish_eq hw hk,
      List.nil_append]

/-- **One context codes any number of messages with one key**: after `sha1_hmac_starts`, and after
every `sha1_hmac_reset`, the output of `sha1_hmac_finish` is the code of the pieces since. -/
theorem hmacMessages_eq (mem ctx : Sha1Context w) {key : Bytes} (hk : key.length < 2 ^ 32)
    {messages : List (List Bytes)} (hp : ∀ pieces ∈ messages, ∀ p ∈ pieces, p.length < 2 ^ 32) :
    hmacMessages (sha1HmacStarts mem ctx key) messages =
      messages.map fun pieces => hmac key pieces.flatten :=
  hmacMessages_keyed hw hp (keyed_sha1HmacStarts hw mem ctx hk)

end

/-- The second test vector of the source, in two pieces, and then another message. -/
theorem hmacMessages_eq_jefe :
    hmacMessages (sha1HmacStarts staleContext staleContext (str "Jefe"))
        [[str "what do ya want ", str "for nothing?"], [str "Hi There"]] =
      [hmac (str "Jefe") (str "what do ya want for nothing?"), hmac (str "Jefe") (str "Hi There")] ∧
    hmac (str "Jefe") (str "what do ya want for nothing?") =
      [0xEF, 0xFC, 0xDF, 0x6A, 0xE5, 0xEB, 0x2F, 0xA2, 0xD2, 0x74,
        0x16, 0xD5, 0xF1, 0x84, 0xDF, 0x9C, 0x25, 0x9A, 0x7C, 0x79] := by
  have h := hmacMessages_eq (by decide) staleContext staleContext
    (show (str "Jefe").length < 2 ^ 32 by decide)
    (show ∀ pieces ∈ [[str "what do ya want ", str "for nothing?"], [str "Hi There"]],
      ∀ p ∈ pieces, p.length < 2 ^ 32 by decide)
  have hhead := congrArg List.head? h
  refine ⟨h, Option.some.inj (hhead.symm.trans ?_)⟩
  decide +kernel

section

variable {w : ℕ} (hw : 32 ≤ w)
include hw

/-! ## `dht_hash` -/

/-- The lengths are of type `int`. -/
def HashCall.Fits (c : HashCall) : Prop :=
  c.v1.length < 2 ^ 31 ∧ c.v2.length < 2 ^ 31 ∧ c.v3.length < 2 ^ 31

theorem hashReturn_eq (ctx : Sha1Context w) {c : HashCall} (hc : c.Fits) :
    (hashReturn ctx c).1 =
      dhtHash digest c.hashSize c.v1 c.v2 c.v3 ++ List.replicate (c.hashSize - 20) 0 := by
  obtain ⟨h1, h2, h3⟩ := hc
  have hh := sha1Finish_eq hw (holds_sha1Update hw (holds_sha1Update hw (holds_sha1Update hw
    (holds_sha1Starts hw ctx) (show c.v1.length < 2 ^ 32 by omega))
    (show c.v2.length < 2 ^ 32 by omega)) (show c.v3.length < 2 ^ 32 by omega))
  rw [List.nil_append] at hh
  rw [hashReturn, hh, dhtHash]
  dsimp only
  split_ifs with h
  · rw [List.take_of_length_le (by rw [length_digest]),
      List.take_of_length_le (by rw [length_digest]; omega)]
  · rw [Nat.sub_eq_zero_of_le (not_lt.mp h)]

/-- **`dht_hash` is a function of its arguments**: whatever calls came before it, it returns the
first `hash_size` bytes of the hash of the three strings, and zeros behind the 20 there are. -/
theorem hashReturns_eq (ctx : Sha1Context w) {calls : List HashCall} (hc : ∀ c ∈ calls, c.Fits) :
    hashReturns ctx calls =
      calls.map fun c =>
        dhtHash digest c.hashSize c.v1 c.v2 c.v3 ++ List.replicate (c.hashSize - 20) 0 := by
  induction calls generalizing ctx with
  | nil => rfl
  | cons c calls ih =>
    rw [hashReturns, List.map_cons, hashReturn_eq hw ctx (hc c List.mem_cons_self),
      ih _ fun c' hc' => hc c' (List.mem_cons_of_mem _ hc')]

end

/-- The key of an EID, and then a longer result with the context left over. -/
theorem hashReturns_eq_dtnA :
    hashReturns staleContext [⟨20, str "dtn:a", [], []⟩, ⟨24, str "a", str "b", str "c"⟩] =
      [dhtHash digest 20 (str "dtn:a") [] [] ++ List.replicate 0 0,
        dhtHash digest 24 (str "a") (str "b") (str "c") ++ List.replicate 4 0] ∧
    dhtHash digest 20 (str "dtn:a") [] [] ++ List.replicate 0 0 =
      [106, 94, 228, 254, 245, 6, 46, 211, 159, 225,
        220, 225, 5, 168, 150, 104, 191, 84, 223, 147] := by
  have h := hashReturns_eq (by decide) staleContext
    (show ∀ c ∈ [HashCall.mk 20 (str "dtn:a") [] [], ⟨24, str "a", str "b", str "c"⟩], c.Fits by
      intro c hc
      simp only [List.mem_cons, List.not_mem_nil, or_false] at hc
      rcases hc with rfl | rfl <;> exact ⟨by decide, by decide, by decide⟩)
  have hhead := congrArg List.head? h
  refine ⟨h, Option.some.inj (hhead.symm.trans ?_)⟩
  decide +kernel

end DtnDht.Sha1
