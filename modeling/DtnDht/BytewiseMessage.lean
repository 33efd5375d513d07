import DtnDht.BytewiseDtnMessage
import DtnDht.ParseMessage

/-!
# `parse_message` byte by byte

The parser of the messages of the DHT with its indices, lengths and output arrays, each access
checked. It meets no fault, and its value is the one of the parser on lists
(`Bytewise.parseMessage_eq`). The values it stores are the elements of the list in the datagram
(`Elements`) as far as they fit.
-/

namespace DtnDht

open CString CheckedBuffer Occurrence

namespace Bytewise

/-- The arrays of `dht_periodic`, with what stands in them before they are written. -/
structure Locals where
  tid : CharArray 16
  id : CharArray 20
  infoHash : CharArray 20
  target : CharArray 20
  token : CharArray 128
  nodes : CharArray 256
  nodes6 : CharArray 1024
  values : CharArray 2048
  values6 : CharArray 2048

/-- What `parse_message` leaves behind when it does not return -1. -/
structure Parsed where
  kind : MessageKind
  arrays : Locals
  tidLen : ℕ
  port : UInt16
  tokenLen : ℕ
  nodesLen : ℕ
  nodes6Len : ℕ
  valuesLen : ℕ
  values6Len : ℕ
  want : ℤ

/-- Go on unless there was a `goto overflow`. -/
def andThen {α β : Type} (c : Checked (Option α)) (f : α → Checked (Option β)) :
    Checked (Option β) := do
  let a ← c
  match a with
  | none => return none
  | some a => f a

variable (buf : Bytes)

/-- A field of 20 bytes. -/
def parseId (key : Bytes) (dst : CharArray 20) : Checked (Option (CharArray 20)) := do
  let p ← findFrom buf 0 key
  match p with
  | none =>
    let dst ← store dst 0 (List.replicate 20 0)
    return some dst
  | some p =>
    if buf.length < p + 20 then return none
    else
      let s ← copyOut buf p 20
      let dst ← store dst 0 s
      return some dst

/-- A string that is copied to an array, and its length. On entry the length is `len`; if there is
no such field, it becomes `missing`. -/
def parseString {n : ℕ} (key : Bytes) (dst : CharArray n) (len missing : ℕ) :
    Checked (Option (CharArray n × ℕ)) := do
  let p ← findFrom buf 0 key
  match p with
  | none => return some (dst, missing)
  | some p =>
    let s ← readField buf p (fun l => 0 < l && l < len)
    match s with
    | .value s =>
      let dst ← store dst 0 s
      return some (dst, s.length)
    | .malformed => return some (dst, 0)
    | .overflow => return none

/-- The port. -/
def parsePort : Checked UInt16 := do
  let p ← findFrom buf 0 (str "porti")
  match p with
  | none => return 0
  | some p =>
    let (l, q) ← CheckedBuffer.strtol buf p
    let e ← peek buf q
    if e = 101 ∧ 0 < l ∧ l < 0x10000 then return UInt16.ofNat l.toNat else return 0

/-- The two arrays of values, and how far they are filled. -/
structure Values where
  values : CharArray 2048
  j : ℕ
  values6 : CharArray 2048
  j6 : ℕ

/-- The body of the loop over the values for the `l` bytes from `buf + k` on. -/
def storeValue (k : ℕ) (l : ℤ) (v : Values) : Checked Values :=
  if l = 6 then
    if 2048 < v.j + 6 then return v
    else do
      let s ← copyOut buf k 6
      let values ← store v.values v.j s
      return { v with values := values, j := v.j + 6 }
  else if l = 18 then
    if 2048 < v.j6 + 18 then return v
    else do
      let s ← copyOut buf k 18
      let values6 ← store v.values6 v.j6 s
      return { v with values6 := values6, j6 := v.j6 + 18 }
  else return v

/-- The loop over the values, with `turns` turns. -/
def parseValuesFrom : ℕ → ℕ → Values → Checked (Option Values)
  | 0, _, _ => .error .endless
  | turns + 1, i, v => do
    let (l, q) ← CheckedBuffer.strtol buf i
    let colon ← peek buf q
    if colon = 58 ∧ 0 < l then
      if (buf.length : ℤ) < q + 1 + l then return none
      else
        let v ← storeValue buf (q + 1) l v
        parseValuesFrom turns (q + 1 + l.toNat) v
    else return some v

/-- The values. -/
def parseValues (values values6 : CharArray 2048) : Checked (Option Values) := do
  let p ← findFrom buf 0 (str "6:valuesl")
  match p with
  | none => return some ⟨values, 0, values6, 0⟩
  | some p => parseValuesFrom buf (buf.length + 1) p ⟨values, 0, values6, 0⟩

/-- The body of the loop over the wanted families, for the byte `c` at `buf + i`. -/
def addWanted (c : UInt8) (i want : ℕ) : Checked ℕ :=
  if c = 50 then do
    let n4 ← memcmp buf (i + 2) (str "n4")
    if n4 then return want ||| 1
    else
      let n6 ← memcmp buf (i + 2) (str "n6")
      if n6 then return want ||| 2 else return want
  else return want

/-- The loop over the wanted families, with `turns` turns. -/
def parseWantFrom : ℕ → ℕ → ℕ → Checked (Option ℕ)
  | 0, _, _ => .error .endless
  | turns + 1, i, want => do
    let c ← peek buf i
    if 48 < c ∧ c ≤ 57 then
      let colon ← peek buf (i + 1)
      let n := c.toNat - 48
      if colon = 58 ∧ i + 2 + n < buf.length then
        if buf.length < i + 2 + n then return none
        else
          let want ← addWanted buf c i want
          parseWantFrom turns (i + 2 + n) want
      else return some want
    else return some want

/-- The wanted families. -/
def parseWant : Checked (Option ℤ) := do
  let p ← findFrom buf 0 (str "4:wantl")
  match p with
  | none => return some (-1)
  | some p =>
    let want ← parseWantFrom buf (buf.length + 1) p 0
    return want.map (↑)

/-- Is the text somewhere in the buffer? -/
def has (key : Bytes) : Checked Bool := do
  let p ← memmem buf 0 buf.length key
  return p.isSome

/-- The kind of the message. -/
def parseKind : Checked (Option MessageKind) := do
  let reply ← has buf (str "1:y1:r")
  if reply then return some .reply
  else
    let error ← has buf (str "1:y1:e")
    if error then return some .error
    else
      let query ← has buf (str "1:y1:q")
      if !query then return none
      else
        let ping ← has buf (str "1:q4:ping")
        if ping then return some .ping
        else
          let findNode ← has buf (str "1:q9:find_node")
          if findNode then return some .findNode
          else
            let getPeers ← has buf (str "1:q9:get_peers")
            if getPeers then return some .getPeers
            else
              let announcePeer ← has buf (str "1:q13:announce_peer")
              if announcePeer then return some .announcePeer else return none

/-- `parse_message`; on entry the lengths but for `tidLen` are the sizes of the arrays. -/
def parseMessage (v : Locals) (tidLen : ℕ) : Checked (Option Parsed) := do
  let last ← peek buf buf.length
  if last ≠ 0 then return none
  else
    andThen (parseString buf (str "1:t") v.tid tidLen tidLen) fun (tid, tidLen) =>
    andThen (parseId buf (str "2:id20:") v.id) fun id =>
    andThen (parseId buf (str "9:info_hash20:") v.infoHash) fun infoHash => do
    let port ← parsePort buf
    andThen (parseId buf (str "6:target20:") v.target) fun target =>
    andThen (parseString buf (str "5:token") v.token 128 0) fun (token, tokenLen) =>
    andThen (parseString buf (str "5:nodes") v.nodes 256 0) fun (nodes, nodesLen) =>
    andThen (parseString buf (str "6:nodes6") v.nodes6 1024 0) fun (nodes6, nodes6Len) =>
    andThen (parseValues buf v.values v.values6) fun ⟨values, valuesLen, values6, values6Len⟩ =>
    andThen (parseWant buf) fun want =>
    andThen (parseKind buf) fun kind =>
    return some {
      kind, tidLen, port, tokenLen, nodesLen, nodes6Len, valuesLen, values6Len, want
      arrays := { tid, id, infoHash, target, token, nodes, nodes6, values, values6 } }

/-! ## They meet no fault -/

variable {buf} {i : ℕ}

@[simp]
theorem andThen_none {α β : Type} (f : α → Checked (Option β)) :
    andThen (.ok none) f = .ok none := rfl

@[simp]
theorem andThen_some {α β : Type} (a : α) (f : α → Checked (Option β)) :
    andThen (.ok (some a)) f = f a := rfl

theorem store_zero {n : ℕ} (dst : CharArray n) {s : Bytes} (hs : s.length ≤ n) :
    ∃ dst' : CharArray n, store dst 0 s = .ok dst' ∧ dst'.1 = memcpy dst.1 s s.length := by
  obtain ⟨dst', hstore, hdst'⟩ := store_eq dst (k := 0) (s := s) (by omega)
  refine ⟨dst', hstore, ?_⟩
  rw [hdst', memcpy, List.take_zero, List.nil_append, Nat.zero_add, List.take_length]

/-- An array of 20 bytes that is written as a whole. -/
theorem ofBytes_memcpy (dst : CharArray 20) {s : Bytes} (hs : 20 ≤ s.length) :
    Id.ofBytes (memcpy dst.1 (s.take 20) (s.take 20).length) = Id.ofBytes s := by
  have hlen : (s.take 20).length = 20 := by rw [List.length_take]; omega
  have hdst : dst.1.drop 20 = [] := List.drop_eq_nil_of_le dst.2.le
  unfold Id.ofBytes
  congr 1
  rw [memcpy, hlen, hdst, List.append_nil, List.take_take, min_self,
    List.take_append_of_le_length hlen.ge, List.take_append_of_le_length hs, List.take_take,
    min_self]

theorem parseId_eq (buf : Bytes) {key : Bytes} (hkey : 0 ∉ key) (dst : CharArray 20) :
    ∃ o, parseId buf key dst = .ok o ∧
      o.map (fun d => Id.ofBytes d.1) = DtnDht.parseId buf key := by
  unfold parseId DtnDht.parseId
  rw [findFrom_zero hkey, ok_bind]
  cases hp : findInfix key buf with
  | none =>
    obtain ⟨dst', hstore, hdst'⟩ := store_zero dst (s := List.replicate 20 0) le_rfl
    rw [Option.map_none]
    dsimp only
    rw [hstore]
    refine ⟨some dst', rfl, ?_⟩
    have hzero := ofBytes_memcpy dst (s := List.replicate 20 0) le_rfl
    rw [show (List.replicate 20 (0 : UInt8)).take 20 = List.replicate 20 0 from rfl] at hzero
    rw [Option.map_some, hdst', hzero]
    rfl
  | some p =>
    have hle := findInfix_add_length_le hp
    rw [Option.map_some]
    dsimp only
    rw [List.length_drop]
    by_cases hover : buf.length < p + key.length + 20
    · rw [if_pos hover, if_pos (by omega)]
      exact ⟨none, rfl, rfl⟩
    · obtain ⟨dst', hstore, hdst'⟩ := store_zero dst
        (s := (buf.drop (p + key.length)).take 20) (by rw [List.length_take]; omega)
      rw [if_neg hover, if_neg (by omega), copyOut_eq (by omega), ok_bind, hstore]
      refine ⟨some dst', rfl, ?_⟩
      rw [Option.map_some, hdst', ofBytes_memcpy dst (by rw [List.length_drop]; omega)]

/-- What `parse_message` makes of a string field, its array forgotten. -/
def stringOf (buf key dst : Bytes) (len missing : ℕ) : Option (Bytes × ℕ) :=
  match findInfix key buf with
  | none => some (dst, missing)
  | some p =>
    match DtnDht.readField buf (p + key.length) (fun l => 0 < l && l < len) with
    | .value s => some (memcpy dst s s.length, s.length)
    | .malformed => some (dst, 0)
    | .overflow => none

theorem parseString_eq (buf : Bytes) {n : ℕ} {key : Bytes} (hkey : 0 ∉ key) (dst : CharArray n)
    {len : ℕ} (hlen : len ≤ n) {missing : ℕ} (hmissing : missing ≤ n) :
    ∃ o, parseString buf key dst len missing = .ok o ∧ (∀ d ∈ o, d.2 ≤ n) ∧
      o.map (fun d => (d.1.1, d.2)) = stringOf buf key dst.1 len missing := by
  have hsome {x : CharArray n × ℕ} (hx : x.2 ≤ n) : ∀ d ∈ some x, d.2 ≤ n :=
    fun d hd => (Option.some.inj hd) ▸ hx
  unfold parseString stringOf
  rw [findFrom_zero hkey, ok_bind]
  cases hp : findInfix key buf with
  | none => exact ⟨_, rfl, hsome hmissing, rfl⟩
  | some p =>
    have hle := findInfix_add_length_le hp
    rw [Option.map_some]
    dsimp only
    rw [readField_eq (tidOk_nonneg len) hle, ok_bind]
    cases hs : DtnDht.readField buf (p + key.length)
      fun l => decide (0 < l) && decide (l < len) with
    | malformed => exact ⟨_, rfl, hsome (Nat.zero_le n), rfl⟩
    | overflow => exact ⟨none, rfl, fun d hd => absurd hd (by simp), rfl⟩
    | value s =>
      have hok := (readField_length_le (tidOk_nonneg len) hle hs).1
      rw [Bool.and_eq_true, decide_eq_true_eq, decide_eq_true_eq] at hok
      obtain ⟨dst', hstore, hdst'⟩ := store_zero dst (s := s) (by omega)
      dsimp only
      rw [hstore]
      refine ⟨some (dst', s.length), rfl, hsome (by dsimp only; omega), ?_⟩
      rw [Option.map_some, hdst']

/-- The reader of the list keeps only what is copied. -/
theorem parseString_take (buf : Bytes) {n : ℕ} {key : Bytes} (hkey : 0 ∉ key) (dst : CharArray n) :
    ∃ o, parseString buf key dst n 0 = .ok o ∧ (∀ d ∈ o, d.2 ≤ n) ∧
      o.map (fun d => d.1.1.take d.2) = DtnDht.parseString buf key n := by
  obtain ⟨o, ho, hfits, hmap⟩ := parseString_eq buf hkey dst le_rfl (Nat.zero_le n)
  have htake : (stringOf buf key dst.1 n 0).map (fun x => x.1.take x.2) =
      DtnDht.parseString buf key n := by
    unfold stringOf DtnDht.parseString
    cases findInfix key buf with
    | none => rfl
    | some p =>
      dsimp only
      cases DtnDht.readField buf (p + key.length) fun l => decide (0 < l) && decide (l < n) with
      | malformed => rfl
      | overflow => rfl
      | value s => exact congrArg some (memcpy_take dst.1 s)
  refine ⟨o, ho, hfits, ?_⟩
  rw [← htake, ← hmap, Option.map_map]
  rfl

theorem parsePort_eq : parsePort buf = .ok (DtnDht.parsePort buf) := by
  unfold parsePort DtnDht.parsePort
  rw [findFrom_zero (by decide), ok_bind]
  cases hp : findInfix (str "porti") buf with
  | none => rfl
  | some p =>
    have hle : p + 5 ≤ buf.length := findInfix_add_length_le hp
    obtain ⟨l, q, -, hq, hstrtol, hlist⟩ := strtol_eq hle
    rw [Option.map_some, show (str "porti").length = 5 from rfl]
    dsimp only
    rw [hstrtol, hlist, ok_bind]
    dsimp only
    rw [peek_eq hq, ok_bind]
    simp only [← getD_eq_iff (show (101 : UInt8) ≠ 0 by decide)]
    split_ifs <;> rfl

/-- The bytes of the two arrays that are filled. -/
def Values.filled (v : Values) : Bytes × Bytes := (v.values.1.take v.j, v.values6.1.take v.j6)

/-- What is filled is a part of the arrays. -/
def Values.Fits (v : Values) : Prop := v.j ≤ 2048 ∧ v.j6 ≤ 2048

/-- Writing behind what is filled. -/
theorem store_append (dst : CharArray 2048) {j : ℕ} {s : Bytes} (h : j + s.length ≤ 2048) :
    ∃ dst' : CharArray 2048, store dst j s = .ok dst' ∧
      dst'.1.take (j + s.length) = dst.1.take j ++ s := by
  obtain ⟨dst', hstore, hdst'⟩ := store_eq dst h
  refine ⟨dst', hstore, ?_⟩
  have hlen : (dst.1.take j ++ s).length = j + s.length := by
    rw [List.length_append, List.length_take, dst.2]
    omega
  rw [hdst', ← hlen, List.take_left]

/-- A value that is stored, or passed over, as the reader of the list does. -/
theorem storeValue_eq (buf : Bytes) {k : ℕ} {l : ℤ} {v : Values} (hv : v.Fits) (h0 : 0 < l)
    (hk : k + l ≤ buf.length) :
    ∃ v', storeValue buf k l v = .ok v' ∧ v'.Fits ∧ v'.filled =
      (if l = 6 ∧ v.j + 6 ≤ 2048 then (v.filled.1 ++ (buf.drop k).take l.toNat, v.filled.2)
      else if l = 18 ∧ v.j6 + 18 ≤ 2048 then (v.filled.1, v.filled.2 ++ (buf.drop k).take l.toNat)
      else v.filled) := by
  have hlen : ((buf.drop k).take l.toNat).length = l.toNat := by
    rw [List.length_take, List.length_drop]
    omega
  unfold storeValue
  by_cases h6 : l = 6
  · subst h6
    rw [if_pos rfl]
    by_cases hfull : 2048 < v.j + 6
    · rw [if_pos hfull, if_neg (by omega), if_neg (by omega)]
      exact ⟨v, rfl, hv, rfl⟩
    · obtain ⟨dst', hstore, htake⟩ := store_append v.values (j := v.j)
        (s := (buf.drop k).take 6) (by rw [show (6 : ℤ).toNat = 6 from rfl] at hlen; omega)
      rw [if_neg hfull, if_pos ⟨rfl, by omega⟩, copyOut_eq (by omega), ok_bind, hstore]
      refine ⟨_, rfl, ⟨by dsimp only; omega, hv.2⟩, ?_⟩
      rw [show (6 : ℤ).toNat = 6 from rfl] at hlen ⊢
      rw [hlen] at htake
      unfold Values.filled
      rw [htake]
  · by_cases h18 : l = 18
    · subst h18
      have hno : ¬ ((18 : ℤ) = 6 ∧ v.j + 6 ≤ 2048) := fun h => h6 h.1
      rw [if_neg h6, if_pos rfl, if_neg hno]
      by_cases hfull : 2048 < v.j6 + 18
      · rw [if_pos hfull, if_neg (by omega)]
        exact ⟨v, rfl, hv, rfl⟩
      · obtain ⟨dst', hstore, htake⟩ := store_append v.values6 (j := v.j6)
          (s := (buf.drop k).take 18) (by rw [show (18 : ℤ).toNat = 18 from rfl] at hlen; omega)
        rw [if_neg hfull, if_pos ⟨rfl, by omega⟩, copyOut_eq (by omega), ok_bind, hstore]
        refine ⟨_, rfl, ⟨hv.1, by dsimp only; omega⟩, ?_⟩
        rw [show (18 : ℤ).toNat = 18 from rfl] at hlen ⊢
        rw [hlen] at htake
        unfold Values.filled
        rw [htake]
    · rw [if_neg h6, if_neg h18, if_neg fun h => h6 h.1, if_neg fun h => h18 h.1]
      exact ⟨v, rfl, hv, rfl⟩

theorem Values.length_filled {v : Values} (hv : v.Fits) :
    v.filled.1.length = v.j ∧ v.filled.2.length = v.j6 := by
  unfold Values.filled
  rw [List.length_take, List.length_take, v.values.2, v.values6.2]
  exact ⟨min_eq_left hv.1, min_eq_left hv.2⟩

theorem parseValuesFrom_eq {turns : ℕ} {v : Values} (hv : v.Fits) (hi : i ≤ buf.length)
    (hturns : buf.length < turns + i) :
    ∃ o, parseValuesFrom buf turns i v = .ok o ∧ (∀ v' ∈ o, v'.Fits) ∧
      o.map Values.filled = DtnDht.parseValuesFrom turns (buf.drop i) v.filled.1 v.filled.2 := by
  induction turns generalizing i v with
  | zero => omega
  | succ turns ih =>
    obtain ⟨l, q, hiq, hq, hstrtol, hlist⟩ := strtol_eq hi
    obtain ⟨hhead, htail⟩ := head_tail_drop buf q
    obtain ⟨hj, hj6⟩ := Values.length_filled hv
    unfold parseValuesFrom DtnDht.parseValuesFrom
    rw [hstrtol, hlist, ok_bind]
    dsimp only
    rw [peek_eq hq, ok_bind]
    simp only [hhead, htail, List.length_drop, hj, hj6]
    by_cases hcond : buf.getD q 0 = 58 ∧ 0 < l
    · have hlt := @lt_length_of_getD_ne buf q (by rw [hcond.1]; decide)
      rw [if_pos hcond, if_pos hcond]
      by_cases hover : (buf.length : ℤ) < q + 1 + l
      · rw [if_pos hover, if_pos (by omega)]
        exact ⟨none, rfl, fun v' h => absurd h (by simp), rfl⟩
      · obtain ⟨v1, hstore, hfits, hfilled⟩ :=
          storeValue_eq buf (k := q + 1) hv hcond.2 (by omega)
        rw [if_neg hover, if_neg (by omega), hstore, ok_bind]
        obtain ⟨o, ho, hofits, hmap⟩ := ih hfits (i := q + 1 + l.toNat) (by omega) (by omega)
        refine ⟨o, ho, hofits, ?_⟩
        rw [hmap, List.drop_drop, hfilled]
        split_ifs <;> rfl
    · rw [if_neg hcond, if_neg hcond]
      exact ⟨some v, rfl, fun v' h => (Option.some.inj h) ▸ hv, rfl⟩

theorem parseValues_eq (buf : Bytes) (values values6 : CharArray 2048) :
    ∃ o, parseValues buf values values6 = .ok o ∧ (∀ v ∈ o, v.Fits) ∧
      o.map Values.filled = DtnDht.parseValues buf := by
  have hempty : (⟨values, 0, values6, 0⟩ : Values).Fits := ⟨Nat.zero_le _, Nat.zero_le _⟩
  unfold parseValues DtnDht.parseValues
  rw [findFrom_zero (by decide), ok_bind]
  cases hp : findInfix (str "6:valuesl") buf with
  | none => exact ⟨_, rfl, fun v h => (Option.some.inj h) ▸ hempty, rfl⟩
  | some p =>
    exact parseValuesFrom_eq hempty (findInfix_add_length_le hp) (by omega)

/-- The test for a wanted family. -/
theorem addWanted_eq {c : UInt8} {want : ℕ} (hi : i + 2 ≤ buf.length) :
    addWanted buf c i want = .ok (
      if c = 50 ∧ (buf.drop (i + 2)).take 2 = str "n4" then want ||| 1
      else if c = 50 ∧ (buf.drop (i + 2)).take 2 = str "n6" then want ||| 2
      else want) := by
  have hpre {s : Bytes} (hs : s.length = 2) :
      s.isPrefixOf (buf.drop (i + 2)) = true ↔ (buf.drop (i + 2)).take 2 = s := by
    rw [List.isPrefixOf_iff_prefix, List.prefix_iff_eq_take, hs, eq_comm]
  unfold addWanted
  by_cases hc : c = 50
  · rw [if_pos hc, memcmp_eq (by decide) hi, ok_bind]
    by_cases h4 : (buf.drop (i + 2)).take 2 = str "n4"
    · rw [if_pos ((hpre rfl).mpr h4), if_pos ⟨hc, h4⟩]
      rfl
    · have hno : ¬ (c = 50 ∧ (buf.drop (i + 2)).take 2 = str "n4") := fun h => h4 h.2
      rw [if_neg (mt (hpre rfl).mp h4), memcmp_eq (by decide) hi, ok_bind, if_neg hno]
      by_cases h6 : (buf.drop (i + 2)).take 2 = str "n6"
      · rw [if_pos ((hpre rfl).mpr h6), if_pos ⟨hc, h6⟩]
        rfl
      · have hno6 : ¬ (c = 50 ∧ (buf.drop (i + 2)).take 2 = str "n6") := fun h => h6 h.2
        rw [if_neg (mt (hpre rfl).mp h6), if_neg hno6]
        rfl
  · rw [if_neg hc, if_neg fun h => hc h.1, if_neg fun h => hc h.1]
    rfl

/-- A turn of the loop of the reader of the list. -/
theorem parseWantFrom_cons (fuel : ℕ) (c : UInt8) (s : Bytes) (want : ℕ) :
    DtnDht.parseWantFrom (fuel + 1) (c :: s) want =
      if (48 < c ∧ c ≤ 57) ∧ s.head? = some 58 ∧ c.toNat - 48 < s.tail.length then
        DtnDht.parseWantFrom fuel (s.tail.drop (c.toNat - 48))
          (if c = 50 ∧ s.tail.take 2 = str "n4" then want ||| 1
          else if c = 50 ∧ s.tail.take 2 = str "n6" then want ||| 2 else want)
      else want := by
  cases s with
  | nil => rw [if_neg fun h => absurd h.2.1 (by simp)]; rfl
  | cons b rest =>
    by_cases hb : b = 58
    · subst hb
      simp only [DtnDht.parseWantFrom, List.head?_cons, List.tail_cons, true_and, and_assoc]
      congr
    · rw [if_neg fun h => hb (Option.some.inj h.2.1)]
      unfold DtnDht.parseWantFrom
      split
      · rename_i heq
        exact absurd (List.cons.inj (List.cons.inj heq).2).1 hb
      · rfl

theorem parseWantFrom_eq {turns want : ℕ} (hi : i ≤ buf.length)
    (hturns : buf.length < turns + i) :
    parseWantFrom buf turns i want = .ok (some (DtnDht.parseWantFrom turns (buf.drop i) want)) := by
  induction turns generalizing i want with
  | zero => omega
  | succ turns ih =>
    unfold parseWantFrom
    rw [peek_eq hi, ok_bind]
    rcases Nat.lt_or_ge i buf.length with hlt | hge
    · obtain ⟨hhead, htail⟩ := head_tail_drop buf (i + 1)
      rw [List.getD_eq_getElem _ _ hlt, List.drop_eq_getElem_cons hlt, parseWantFrom_cons]
      simp only [hhead, htail, List.length_drop]
      generalize buf[i] = c
      by_cases hdigit : 48 < c ∧ c ≤ 57
      · rw [if_pos hdigit, peek_eq hlt, ok_bind]
        by_cases hmore : buf.getD (i + 1) 0 = 58 ∧ i + 2 + (c.toNat - 48) < buf.length
        · have hdrop : i + 1 + 1 + (c.toNat - 48) = i + 2 + (c.toNat - 48) := by omega
          have hlist : (48 < c ∧ c ≤ 57) ∧ buf.getD (i + 1) 0 = 58 ∧
              c.toNat - 48 < buf.length - (i + 1 + 1) := ⟨hdigit, hmore.1, by omega⟩
          rw [if_pos hmore, if_neg (by omega), addWanted_eq (by omega), ok_bind,
            ih (by omega) (by omega), if_pos hlist, List.drop_drop, hdrop]
        · rw [if_neg hmore, if_neg fun h => hmore ⟨h.2.1, by omega⟩]
          rfl
      · rw [if_neg hdigit, if_neg fun h => hdigit h.1]
        rfl
    · rw [List.getD_eq_default _ _ hge, List.drop_eq_nil_of_le hge]
      rfl

theorem parseWant_eq : parseWant buf = .ok (some (DtnDht.parseWant buf)) := by
  unfold parseWant DtnDht.parseWant
  rw [findFrom_zero (by decide), ok_bind]
  cases hp : findInfix (str "4:wantl") buf with
  | none => rfl
  | some p =>
    have hle : p + 7 ≤ buf.length := findInfix_add_length_le hp
    rw [Option.map_some, show (str "4:wantl").length = 7 from rfl]
    dsimp only
    rw [parseWantFrom_eq hle (by omega)]
    rfl

theorem has_eq {key : Bytes} (hkey : 0 ∉ key) :
    has buf key = .ok (findInfix key buf).isSome := by
  unfold has
  rw [memmem_eq hkey (Nat.zero_le _) (by omega), ok_bind, List.drop_zero, Option.isSome_map]
  rfl

theorem parseKind_eq : parseKind buf = .ok (DtnDht.parseKind buf) := by
  unfold parseKind DtnDht.parseKind
  rw [has_eq (by decide), has_eq (by decide), has_eq (by decide), has_eq (by decide),
    has_eq (by decide), has_eq (by decide), has_eq (by decide)]
  simp only [ok_bind, pure_eq_ok]
  split_ifs <;> rfl

/-! ## The whole message -/

/-- The message that `dht_periodic` reads from the arrays. -/
def Parsed.message (r : Parsed) : Message where
  kind := r.kind
  tid := r.arrays.tid.1
  tidLen := r.tidLen
  id := Id.ofBytes r.arrays.id.1
  infoHash := Id.ofBytes r.arrays.infoHash.1
  target := Id.ofBytes r.arrays.target.1
  port := r.port
  token := r.arrays.token.1.take r.tokenLen
  nodes := r.arrays.nodes.1.take r.nodesLen
  nodes6 := r.arrays.nodes6.1.take r.nodes6Len
  values := r.arrays.values.1.take r.valuesLen
  values6 := r.arrays.values6.1.take r.values6Len
  want := r.want

/-- The lengths are at most the sizes of the arrays. -/
structure Parsed.Fits (r : Parsed) : Prop where
  tid : r.tidLen ≤ 16
  token : r.tokenLen ≤ 128
  nodes : r.nodesLen ≤ 256
  nodes6 : r.nodes6Len ≤ 1024
  values : r.valuesLen ≤ 2048
  values6 : r.values6Len ≤ 2048

/-- A computation meets no fault, returns lengths that fit and has the value of the parser on
lists. -/
def Refines (c : Checked (Option Parsed)) (x : Option Message) : Prop :=
  ∃ o, c = .ok o ∧ (∀ r ∈ o, r.Fits) ∧ o.map Parsed.message = x

/-- One field after the other. -/
theorem Refines.andThen {α β : Type} {c : Checked (Option α)} {f : α → Checked (Option Parsed)}
    {o : Option α} {g : α → β} {x : Option β} {h : β → Option Message} (hc : c = .ok o)
    (hx : o.map g = x) (hf : ∀ a ∈ o, Refines (f a) (h (g a))) :
    Refines (andThen c f) (x >>= h) := by
  rw [hc, ← hx]
  cases o with
  | none => exact ⟨none, rfl, fun r hr => absurd hr (by simp), rfl⟩
  | some a => exact hf a rfl

/-- `parse_message` meets no fault and has the value of the parser on lists. -/
theorem parseMessage_refines (buf : Bytes) (v : Locals) {tidLen : ℕ} (htid : tidLen ≤ 16) :
    Refines (parseMessage buf v tidLen) (DtnDht.parseMessage buf v.tid.1 tidLen) := by
  unfold parseMessage DtnDht.parseMessage
  rw [peek_eq le_rfl, ok_bind, List.getD_eq_default _ _ le_rfl, if_neg (by simp)]
  obtain ⟨_, htideq, htidfits, htidmap⟩ :=
    parseString_eq buf (show 0 ∉ str "1:t" by decide) v.tid htid htid
  refine Refines.andThen htideq htidmap fun ⟨tid, tidLen'⟩ htid' => ?_
  obtain ⟨_, hideq, hidmap⟩ := parseId_eq buf (show 0 ∉ str "2:id20:" by decide) v.id
  refine Refines.andThen hideq hidmap fun id _ => ?_
  obtain ⟨_, hhasheq, hhashmap⟩ :=
    parseId_eq buf (show 0 ∉ str "9:info_hash20:" by decide) v.infoHash
  refine Refines.andThen hhasheq hhashmap fun infoHash _ => ?_
  rw [parsePort_eq, ok_bind]
  obtain ⟨_, htargeteq, htargetmap⟩ :=
    parseId_eq buf (show 0 ∉ str "6:target20:" by decide) v.target
  refine Refines.andThen htargeteq htargetmap fun target _ => ?_
  obtain ⟨_, htokeneq, htokenfits, htokenmap⟩ :=
    parseString_take buf (show 0 ∉ str "5:token" by decide) v.token
  refine Refines.andThen htokeneq htokenmap fun ⟨token, tokenLen⟩ htoken => ?_
  obtain ⟨_, hnodeseq, hnodesfits, hnodesmap⟩ :=
    parseString_take buf (show 0 ∉ str "5:nodes" by decide) v.nodes
  refine Refines.andThen hnodeseq hnodesmap fun ⟨nodes, nodesLen⟩ hnodes => ?_
  obtain ⟨_, hnodes6eq, hnodes6fits, hnodes6map⟩ :=
    parseString_take buf (show 0 ∉ str "6:nodes6" by decide) v.nodes6
  refine Refines.andThen hnodes6eq hnodes6map fun ⟨nodes6, nodes6Len⟩ hnodes6 => ?_
  obtain ⟨_, hvalueseq, hvaluesfits, hvaluesmap⟩ := parseValues_eq buf v.values v.values6
  refine Refines.andThen hvalueseq hvaluesmap
    fun ⟨values, valuesLen, values6, values6Len⟩ hvalues => ?_
  dsimp only
  rw [parseWant_eq, andThen_some]
  have hkindmap : (DtnDht.parseKind buf).map (fun kind => kind) = DtnDht.parseKind buf :=
    Option.map_id'
  refine Refines.andThen parseKind_eq hkindmap fun kind _ => ?_
  have hfits := hvaluesfits _ hvalues
  refine ⟨_, rfl, fun r hr => ?_, rfl⟩
  obtain rfl := Option.some.inj hr
  exact ⟨htidfits _ htid', htokenfits _ htoken, hnodesfits _ hnodes, hnodes6fits _ hnodes6,
    hfits.1, hfits.2⟩

end Bytewise

/-! ## The values -/

/-- The elements of the list that starts with the first byte, up to the first one that is not a
positive number, a colon and that many bytes. -/
inductive Elements : Bytes → List Bytes → Prop where
  | stop {s : Bytes}
      (h : ∀ e rest, e ≠ [] → CString.strtol s ≠ ((e.length : ℤ), 58 :: (e ++ rest))) :
      Elements s []
  | element {s e rest : Bytes} {es : List Bytes} (he : e ≠ [])
      (h : CString.strtol s = ((e.length : ℤ), 58 :: (e ++ rest))) (hes : Elements rest es) :
      Elements s (e :: es)

/-- As many elements of `l` bytes as fit into `room` bytes. -/
def fitting (l room : ℕ) (es : List Bytes) : Bytes :=
  ((es.filter (·.length = l)).take (room / l)).flatten

theorem fitting_cons_of_fits {l room : ℕ} {e : Bytes} {es : List Bytes} (hl : 0 < l)
    (he : e.length = l) (hroom : l ≤ room) :
    fitting l room (e :: es) = e ++ fitting l (room - l) es := by
  have hdiv : room / l = (room - l) / l + 1 := by
    rw [← Nat.add_div_right _ hl, Nat.sub_add_cancel hroom]
  unfold fitting
  rw [List.filter_cons_of_pos (by simpa using he), hdiv, List.take_succ_cons, List.flatten_cons]

/-- An element of another length, or one that does not fit. -/
theorem fitting_cons_of_not {l room : ℕ} {e : Bytes} {es : List Bytes}
    (h : ¬ (e.length = l ∧ l ≤ room)) : fitting l room (e :: es) = fitting l room es := by
  unfold fitting
  by_cases he : e.length = l
  · have hzero : room / l = 0 := Nat.div_eq_of_lt (by omega)
    rw [hzero, List.take_zero, List.take_zero]
  · rw [List.filter_cons_of_neg (by simpa using he)]

/-- What the loop over the values stores. -/
theorem parseValuesFrom_elements {fuel : ℕ} {s values values6 : Bytes} {out : Bytes × Bytes}
    (hfuel : s.length < fuel) (h : parseValuesFrom fuel s values values6 = some out) :
    ∃ es, Elements s es ∧ out = (values ++ fitting 6 (2048 - values.length) es,
      values6 ++ fitting 18 (2048 - values6.length) es) := by
  induction fuel generalizing s values values6 with
  | zero => omega
  | succ fuel ih =>
    obtain ⟨l, q, -, hq, -, hlist⟩ := @CheckedBuffer.strtol_eq s 0 (Nat.zero_le _)
    rw [List.drop_zero] at hlist
    unfold parseValuesFrom at h
    rw [hlist] at h
    dsimp only at h
    by_cases hcond : (s.drop q).head? = some 58 ∧ 0 < l
    · rw [if_pos hcond] at h
      obtain ⟨r, hr⟩ := List.head?_eq_some_iff.mp hcond.1
      rw [hr, List.tail_cons] at h
      have hrlen := congrArg List.length hr
      rw [List.length_drop, List.length_cons] at hrlen
      by_cases hover : r.length < l.toNat
      · rw [if_pos hover] at h
        exact absurd h (by simp)
      · rw [if_neg hover] at h
        have hlen : (r.take l.toNat).length = l.toNat := by rw [List.length_take]; omega
        have hne : r.take l.toNat ≠ [] := List.ne_nil_of_length_pos (by omega)
        have hspelt : CString.strtol s =
            (((r.take l.toNat).length : ℤ), 58 :: (r.take l.toNat ++ r.drop l.toNat)) := by
          rw [hlist, hr, hlen, List.take_append_drop, Int.toNat_of_nonneg hcond.2.le]
        generalize r.take l.toNat = e at h hlen hne hspelt
        have hshort : (r.drop l.toNat).length < fuel := by rw [List.length_drop]; omega
        by_cases h6 : l = 6 ∧ values.length + 6 ≤ 2048
        · rw [if_pos h6] at h
          obtain ⟨es, hes, rfl⟩ := ih hshort h
          refine ⟨e :: es, .element hne hspelt hes, ?_⟩
          rw [fitting_cons_of_fits (by omega) (by omega) (by omega),
            fitting_cons_of_not (by omega), List.append_assoc, List.length_append, Nat.sub_sub,
            show e.length = 6 by omega]
        · rw [if_neg h6] at h
          by_cases h18 : l = 18 ∧ values6.length + 18 ≤ 2048
          · rw [if_pos h18] at h
            obtain ⟨es, hes, rfl⟩ := ih hshort h
            refine ⟨e :: es, .element hne hspelt hes, ?_⟩
            rw [fitting_cons_of_not (by omega), fitting_cons_of_fits (by omega) (by omega) (by omega),
              List.append_assoc, List.length_append, Nat.sub_sub, show e.length = 18 by omega]
          · rw [if_neg h18] at h
            obtain ⟨es, hes, rfl⟩ := ih hshort h
            refine ⟨e :: es, .element hne hspelt hes, ?_⟩
            rw [fitting_cons_of_not (by omega), fitting_cons_of_not (by omega)]
    · rw [if_neg hcond] at h
      obtain rfl := Option.some.inj h
      refine ⟨[], Elements.stop fun e rest he heq => hcond ?_, by simp [fitting]⟩
      obtain ⟨hl, hdrop⟩ := Prod.ext_iff.mp (hlist.symm.trans heq)
      dsimp only at hl hdrop
      rw [hdrop, hl]
      exact ⟨rfl, Int.natCast_pos.mpr (List.length_pos_iff.mpr he)⟩

/-- The elements of the list of values, if there is one. -/
def ValuesIn (buf : Bytes) (es : List Bytes) : Prop :=
  (findInfix (str "6:valuesl") buf).elim (es = []) fun p => Elements (buf.drop (p + 9)) es

theorem parseValues_elements {buf : Bytes} {out : Bytes × Bytes} (h : parseValues buf = some out) :
    ∃ es, ValuesIn buf es ∧ out = (fitting 6 2048 es, fitting 18 2048 es) := by
  unfold parseValues at h
  unfold ValuesIn
  cases hp : findInfix (str "6:valuesl") buf with
  | none =>
    rw [hp] at h
    exact ⟨[], rfl, (Option.some.inj h).symm⟩
  | some p =>
    rw [hp] at h
    exact parseValuesFrom_elements (by rw [List.length_drop]; omega) h

theorem parseMessage_values {buf tid : Bytes} {tidLen : ℕ} {m : Message}
    (h : parseMessage buf tid tidLen = some m) : parseValues buf = some (m.values, m.values6) := by
  unfold parseMessage at h
  simp only [Option.bind_eq_bind, Option.bind_eq_some_iff] at h
  obtain ⟨_, -, _, -, _, -, _, -, _, -, _, -, _, -, ⟨values, values6⟩, hvalues, kind, -, hm⟩ := h
  obtain rfl := Option.some.inj hm
  exact hvalues

theorem dvd_length_fitting (l room : ℕ) (es : List Bytes) : l ∣ (fitting l room es).length := by
  unfold fitting
  rw [List.length_flatten]
  refine List.dvd_sum fun n hn => ?_
  obtain ⟨e, he, rfl⟩ := List.mem_map.mp hn
  have hlen := (List.mem_filter.mp (List.mem_of_mem_take he)).2
  rw [of_decide_eq_true hlen]

/-! ## The parser stays inside the datagram and its arrays -/

/-- **`parse_message` meets no fault on any datagram, whatever stands in its arrays**: it inspects no
byte behind the terminating NUL, writes no array behind its end, and ends. When it does not return
-1, the lengths are at most the sizes of the arrays, and the two arrays of values hold the elements
of 6 and of 18 bytes in their order as far as they fit. -/
theorem parseMessage_inside (buf : Bytes) (v : Bytewise.Locals) {tidLen : ℕ} (htid : tidLen ≤ 16) :
    ∃ o, Bytewise.parseMessage buf v tidLen = .ok o ∧
      o.map Bytewise.Parsed.message = parseMessage buf v.tid.1 tidLen ∧
      ∀ r ∈ o, r.Fits ∧ 6 ∣ r.valuesLen ∧ 18 ∣ r.values6Len ∧
        ∃ es, ValuesIn buf es ∧ r.arrays.values.1.take r.valuesLen = fitting 6 2048 es ∧
          r.arrays.values6.1.take r.values6Len = fitting 18 2048 es := by
  obtain ⟨o, ho, hfits, hmap⟩ := Bytewise.parseMessage_refines buf v htid
  refine ⟨o, ho, hmap, fun r hr => ?_⟩
  obtain rfl : o = some r := hr
  have hf := hfits r rfl
  obtain ⟨es, hes, hout⟩ := parseValues_elements (parseMessage_values hmap.symm)
  obtain ⟨hvalues, hvalues6⟩ := Prod.ext_iff.mp hout
  have hlen := congrArg List.length hvalues
  have hlen6 := congrArg List.length hvalues6
  dsimp only [Bytewise.Parsed.message] at hvalues hvalues6 hlen hlen6
  rw [List.length_take, r.arrays.values.2, min_eq_left hf.values] at hlen
  rw [List.length_take, r.arrays.values6.2, min_eq_left hf.values6] at hlen6
  exact ⟨hf, hlen ▸ dvd_length_fitting 6 2048 es, hlen6 ▸ dvd_length_fitting 18 2048 es, es, hes,
    hvalues, hvalues6⟩

/-- Arrays of zeros. -/
def Bytewise.zeroLocals : Bytewise.Locals where
  tid := ⟨List.replicate 16 0, List.length_replicate⟩
  id := ⟨List.replicate 20 0, List.length_replicate⟩
  infoHash := ⟨List.replicate 20 0, List.length_replicate⟩
  target := ⟨List.replicate 20 0, List.length_replicate⟩
  token := ⟨List.replicate 128 0, List.length_replicate⟩
  nodes := ⟨List.replicate 256 0, List.length_replicate⟩
  nodes6 := ⟨List.replicate 1024 0, List.length_replicate⟩
  values := ⟨List.replicate 2048 0, List.length_replicate⟩
  values6 := ⟨List.replicate 2048 0, List.length_replicate⟩

/-- A reply with a value of 6 bytes, one of 2 bytes and one of 18 bytes. -/
def repliedValues : Bytes :=
  str "d1:rd2:id20:aaaaaaaaaaaaaaaaaaaa6:valuesl6:bbbbbb2:cc18:ddddddddddddddddddee1:t4:gpgp1:y1:re"

/-- The value of 2 bytes is left out. -/
theorem parseMessage_inside_repliedValues :
    (parseMessage repliedValues Bytewise.zeroLocals.tid.1 16).map
      (fun m => (m.tidBytes, m.values, m.values6)) =
        some (str "gpgp", str "bbbbbb", str "dddddddddddddddddd") ∧
    ∃ o, Bytewise.parseMessage repliedValues Bytewise.zeroLocals 16 = .ok o ∧
      o.map Bytewise.Parsed.message =
        parseMessage repliedValues Bytewise.zeroLocals.tid.1 16 ∧
      ∀ r ∈ o, r.Fits ∧ 6 ∣ r.valuesLen ∧ 18 ∣ r.values6Len ∧
        ∃ es, ValuesIn repliedValues es ∧
          r.arrays.values.1.take r.valuesLen = fitting 6 2048 es ∧
          r.arrays.values6.1.take r.values6Len = fitting 18 2048 es :=
  ⟨by decide +kernel, parseMessage_inside repliedValues Bytewise.zeroLocals le_rfl⟩

end DtnDht
