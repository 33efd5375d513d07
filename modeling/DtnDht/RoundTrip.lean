import DtnDht.Encoded
import DtnDht.ParseMessage

/-!
# Reading the messages back

"We could use a proper bencoding printer and parser, but the format of DHT messages is fairly
stylised, so this seemed simpler": `parse_message` takes the first occurrence of a marker for the
field, wherever it stands. Ids, hashes, tokens and nodes are arbitrary bytes and may hold markers.
If they hide none of those that the parser looks for (`NoneHidden`), it reads every message as it
was sent (`parseMessage_send`).
-/

namespace DtnDht

open CString Occurrence

/-- A message without what else is in the array for the transaction id. -/
def Message.exact (m : Message) : Message :=
  { m with tid := m.tidBytes, tidLen := m.tidBytes.length }

/-! ## Messages and their markers -/

/-- A part of a message: a marker, text between markers, or bytes that the encoder is given. -/
inductive Part where
  | mark (key : String)
  | plain (s : String)
  | data (s : Bytes)

/-- The bytes of a part. -/
def Part.bytes : Part → Bytes
  | mark key => str key
  | plain s => str s
  | data s => s

/-- The message. -/
def written (ps : List Part) : Bytes := ps.flatMap Part.bytes

/-- What the encoder writes behind a marker, none if it does not write the marker. -/
def behind (key : String) : List Part → Option Bytes
  | [] => none
  | .mark k :: ps => if k = key then some (written ps) else behind key ps
  | .plain _ :: ps => behind key ps
  | .data _ :: ps => behind key ps

/-- What the parser finds behind a marker. -/
def found (key buf : Bytes) : Option Bytes :=
  (findInfix key buf).map fun p => buf.drop (p + key.length)

/-- The markers of fields. -/
def fieldMarkers : List String :=
  ["1:t", "2:id20:", "9:info_hash20:", "porti", "6:target20:", "5:token", "5:nodes", "6:nodes6",
    "6:valuesl", "4:wantl"]

/-- The markers of the kinds that are tried before this one. -/
def earlierMarkers : MessageKind → List String
  | .reply => []
  | .error => ["1:y1:r"]
  | .ping => ["1:y1:r", "1:y1:e"]
  | .findNode => ["1:y1:r", "1:y1:e", "1:q4:ping"]
  | .getPeers => ["1:y1:r", "1:y1:e", "1:q4:ping", "1:q9:find_node"]
  | .announcePeer => ["1:y1:r", "1:y1:e", "1:q4:ping", "1:q9:find_node", "1:q9:get_peers"]
  | .dtnQuery => []
  | .dtnReply => []

/-- The bytes that the encoder is given hide no marker that matters: the parser finds the fields
where they were written and none that were not, and no kind that is tried earlier. -/
structure NoneHidden (ps : List Part) (kind : MessageKind) : Prop where
  fields : ∀ key ∈ fieldMarkers, found (str key) (written ps) = behind key ps
  kinds : ∀ key ∈ earlierMarkers kind, findInfix (str key) (written ps) = none

/-! ## Fields -/

section

variable {buf key r : Bytes}

theorem parseId_of_none (h : found key buf = none) : parseId buf key = some Id.zeroes := by
  unfold parseId
  rw [Option.map_eq_none_iff.mp h]

theorem ofBytes_append (id : Id) (r : Bytes) : Id.ofBytes (id.bytes ++ r) = id := by
  unfold Id.ofBytes
  simp only [List.append_assoc, List.take_left' id.length_bytes]

theorem parseId_of_found {id : Id} (h : found key buf = some (id.bytes ++ r)) :
    parseId buf key = some id := by
  obtain ⟨p, hp, hdrop⟩ := Option.map_eq_some_iff.mp h
  have hlen : ¬ (id.bytes ++ r).length < 20 := by
    rw [List.length_append, id.length_bytes]
    omega
  unfold parseId
  rw [hp]
  dsimp only
  rw [hdrop, if_neg hlen, ofBytes_append]

/-- A string with its length is read. -/
theorem readField_of_found {s : Bytes} {p : ℕ} {size : ℕ}
    (hdrop : buf.drop p = decimal s.length ++ 58 :: (s ++ r)) (h0 : s ≠ []) (hs : s.length < size)
    (hsize : size ≤ 1024) :
    readField buf p (fun l => 0 < l && l < size) = .value s := by
  have hpos : 0 < s.length := List.length_pos_iff.mpr h0
  apply (readField_eq_value_iff fun l hl => ?_).mpr
  · constructor
    · simp only [Bool.and_eq_true, decide_eq_true_eq]
      omega
    · exact spells_decimal hdrop (by unfold longMax; omega)
  · simp only [Bool.and_eq_true, decide_eq_true_eq] at hl
    omega

theorem parseString_of_none {size : ℕ} (h : found key buf = none) :
    parseString buf key size = some [] := by
  unfold parseString
  rw [Option.map_eq_none_iff.mp h]

theorem parseString_of_found {s : Bytes} {size : ℕ}
    (h : found key buf = some (decimal s.length ++ 58 :: (s ++ r))) (h0 : s ≠ [])
    (hs : s.length < size) (hsize : size ≤ 1024) : parseString buf key size = some s := by
  obtain ⟨p, hp, hdrop⟩ := Option.map_eq_some_iff.mp h
  unfold parseString
  rw [hp]
  dsimp only
  rw [readField_of_found hdrop h0 hs hsize]

theorem parseTid_of_found {tid arr : Bytes}
    (h : found (str "1:t") buf = some (decimal tid.length ++ 58 :: (tid ++ r))) (h0 : tid ≠ [])
    (htid : tid.length < 16) :
    parseTid buf arr 16 = some (memcpy arr tid tid.length, tid.length) := by
  obtain ⟨p, hp, hdrop⟩ := Option.map_eq_some_iff.mp h
  unfold parseTid
  rw [hp]
  dsimp only
  have hread : readField buf (p + 3) (fun l => 0 < l && l < (16 : ℕ)) = .value tid :=
    readField_of_found hdrop h0 htid (by decide)
  rw [hread]

theorem parsePort_of_none (h : found (str "porti") buf = none) : parsePort buf = 0 := by
  unfold parsePort
  rw [Option.map_eq_none_iff.mp h]

theorem parsePort_of_found {port : UInt16} (h0 : port ≠ 0)
    (h : found (str "porti") buf = some (decimal port.toNat ++ 101 :: r)) :
    parsePort buf = port := by
  obtain ⟨p, hp, hdrop⟩ := Option.map_eq_some_iff.mp h
  have hlt : port.toNat < 65536 := port.toNat_lt
  have hpos : 0 < port.toNat := by
    apply Nat.pos_of_ne_zero
    intro hz
    exact h0 (UInt16.toNat_inj.mp hz)
  have hdrop' : buf.drop (p + 5) = decimal port.toNat ++ 101 :: r := hdrop
  unfold parsePort
  rw [hp]
  dsimp only
  rw [hdrop', strtol_decimal (by decide) (by unfold longMax; omega)]
  dsimp only
  rw [if_pos ⟨rfl, by omega, by omega⟩, Int.toNat_natCast]
  exact UInt16.ofNat_toNat

end

/-! ## Values -/

/-- The addresses of `len` bytes with their ports. -/
def addresses (len : ℕ) (ps : List Peer) : Bytes :=
  (ps.filter fun p => p.ip.length = len).flatMap peerBytes

theorem length_peerBytes (p : Peer) : (peerBytes p).length = p.ip.length + 2 := by
  unfold peerBytes
  rw [List.length_append]
  rfl

theorem addresses_cons (len : ℕ) (p : Peer) (ps : List Peer) : addresses len (p :: ps) =
    (if p.ip.length = len then peerBytes p else []) ++ addresses len ps := by
  unfold addresses
  rw [List.filter_cons]
  simp only [decide_eq_true_eq]
  split_ifs
  · rw [List.flatMap_cons]
  · rfl

/-- The loop over the values reads the peers that were written, as far as there is room. -/
theorem parseValuesFrom_peers {ps : List Peer} (r : Bytes)
    (hip : ∀ p ∈ ps, p.ip.length = 4 ∨ p.ip.length = 16) :
    ∀ {fuel : ℕ} {values values6 : Bytes}, ps.length ≤ fuel →
      values.length + 6 * ps.length ≤ 2048 → values6.length + 18 * ps.length ≤ 2048 →
      parseValuesFrom fuel (ps.flatMap peerText ++ 101 :: r) values values6 =
        some (values ++ addresses 4 ps, values6 ++ addresses 16 ps) := by
  induction ps with
  | nil =>
    intro fuel values values6 _ _ _
    have hend : strtol (101 :: r) = (0, 101 :: r) :=
      strtol_of_not_numeral (by decide) (by decide) (by decide) (by decide)
    rw [List.flatMap_nil, List.nil_append]
    unfold addresses
    rw [List.filter_nil, List.filter_nil, List.flatMap_nil, List.append_nil, List.append_nil]
    cases fuel with
    | zero => rfl
    | succ fuel =>
      unfold parseValuesFrom
      rw [hend]
      exact if_neg fun h => absurd h.2 (lt_irrefl 0)
  | cons p ps ih =>
    intro fuel values values6 hfuel hvalues hvalues6
    have hrest : ∀ q ∈ ps, q.ip.length = 4 ∨ q.ip.length = 16 :=
      fun q hq => hip q (List.mem_cons_of_mem p hq)
    rw [List.length_cons] at hfuel hvalues hvalues6
    obtain ⟨fuel, rfl⟩ : ∃ n, fuel = n + 1 := ⟨fuel - 1, by omega⟩
    have hlen := length_peerBytes p
    have htext : (p :: ps).flatMap peerText ++ 101 :: r =
        decimal (p.ip.length + 2) ++ 58 :: (peerBytes p ++ (ps.flatMap peerText ++ 101 :: r)) := by
      rw [List.flatMap_cons]
      unfold peerText
      simp only [List.append_assoc]
      rfl
    have hsize := hip p List.mem_cons_self
    rw [htext]
    unfold parseValuesFrom
    rw [strtol_decimal (by decide) (by unfold longMax; omega)]
    dsimp only
    rw [if_pos ⟨rfl, by omega⟩, List.tail_cons, Int.toNat_natCast,
      if_neg (by rw [List.length_append]; omega), List.take_left' hlen, List.drop_left' hlen,
      addresses_cons, addresses_cons]
    rcases hsize with h4 | h16
    · have hroom : (values ++ peerBytes p).length + 6 * ps.length ≤ 2048 := by
        rw [List.length_append]
        omega
      rw [if_pos ⟨by omega, by omega⟩, ih hrest (by omega) hroom (by omega), if_pos h4,
        if_neg (by omega), List.append_assoc, List.nil_append]
    · have hroom : (values6 ++ peerBytes p).length + 18 * ps.length ≤ 2048 := by
        rw [List.length_append]
        omega
      rw [if_neg (fun h => absurd h.1 (by omega)), if_pos ⟨by omega, by omega⟩,
        ih hrest (by omega) (by omega) hroom, if_pos h16, if_neg (by omega), List.append_assoc,
        List.nil_append]

theorem parseValues_of_none {buf : Bytes} (h : found (str "6:valuesl") buf = none) :
    parseValues buf = some ([], []) := by
  unfold parseValues
  rw [Option.map_eq_none_iff.mp h]

theorem parseValues_of_found {buf r : Bytes} {ps : List Peer}
    (h : found (str "6:valuesl") buf = some (ps.flatMap peerText ++ 101 :: r))
    (hip : ∀ p ∈ ps, p.ip.length = 4 ∨ p.ip.length = 16) (hcount : ps.length ≤ 50) :
    parseValues buf = some (addresses 4 ps, addresses 16 ps) := by
  obtain ⟨p, hp, hdrop⟩ := Option.map_eq_some_iff.mp h
  have hdrop' : buf.drop (p + 9) = ps.flatMap peerText ++ 101 :: r := hdrop
  have hfuel : ps.length ≤ buf.length + 1 := by
    have hle : ps.length ≤ (ps.flatMap peerText).length := by
      rw [List.length_flatMap]
      have hone : ∀ n ∈ ps.map fun p => (peerText p).length, 1 ≤ n := by
        intro n hn
        obtain ⟨p, -, rfl⟩ := List.mem_map.mp hn
        unfold peerText
        rw [List.length_append, List.length_append]
        have hcolon : (str ":").length = 1 := rfl
        omega
      have hsum := List.card_nsmul_le_sum _ 1 hone
      rwa [List.length_map, smul_eq_mul, mul_one] at hsum
    have hbuf := congrArg List.length hdrop'
    rw [List.length_drop, List.length_append] at hbuf
    omega
  unfold parseValues
  rw [hp]
  dsimp only
  rw [hdrop', parseValuesFrom_peers r hip hfuel (by simp; omega) (by simp; omega)]
  rfl

/-! ## Wanted families -/

/-- The families of a mask that is asked for, -1 if nothing is. -/
def readWant (want : ℤ) : ℤ := if 0 < want then ((want.toNat &&& 3 : ℕ) : ℤ) else -1

/-- The flags of the `want` entry. -/
def wantFlags (want : ℕ) : Bytes :=
  (if want &&& want4 ≠ 0 then str "2:n4" else []) ++ if want &&& want6 ≠ 0 then str "2:n6" else []

theorem parseWantFrom_end (fuel : ℕ) (r : Bytes) (want : ℕ) :
    parseWantFrom fuel (101 :: r) want = want := by
  cases fuel with
  | zero => rfl
  | succ fuel =>
    unfold parseWantFrom
    split
    · rename_i c rest heq
      obtain ⟨rfl, -⟩ := List.cons.inj heq
      exact if_neg fun h => absurd h.2.1 (by decide)
    · rfl

theorem parseWantFrom_n4 (fuel : ℕ) {r : Bytes} (hr : r ≠ []) (want : ℕ) :
    parseWantFrom (fuel + 1) (str "2:n4" ++ r) want = parseWantFrom fuel r (want ||| 1) := by
  have hpos := List.length_pos_iff.mpr hr
  show parseWantFrom (fuel + 1) (50 :: 58 :: 110 :: 52 :: r) want = _
  rw [parseWantFrom]
  rw [if_pos ⟨by decide, by decide, by simp; omega⟩]
  rfl

theorem parseWantFrom_n6 (fuel : ℕ) {r : Bytes} (hr : r ≠ []) (want : ℕ) :
    parseWantFrom (fuel + 1) (str "2:n6" ++ r) want = parseWantFrom fuel r (want ||| 2) := by
  have hpos := List.length_pos_iff.mpr hr
  show parseWantFrom (fuel + 1) (50 :: 58 :: 110 :: 54 :: r) want = _
  rw [parseWantFrom]
  rw [if_pos ⟨by decide, by decide, by simp; omega⟩]
  rfl

/-- The loop over the flags reads the two that the parser knows. -/
theorem parseWantFrom_flags (fuel want : ℕ) (r : Bytes) :
    parseWantFrom (fuel + 2) (wantFlags want ++ 101 :: r) 0 = want &&& 3 := by
  have hsplit : want &&& 3 = (want &&& want4) ||| (want &&& want6) :=
    Nat.and_or_distrib_left want 1 2
  have h4 : want &&& want4 = 0 ∨ want &&& want4 = 1 := by
    rw [show want4 = 2 ^ 0 from rfl, Nat.and_two_pow]
    cases want.testBit 0
    · exact Or.inl rfl
    · exact Or.inr rfl
  have h6 : want &&& want6 = 0 ∨ want &&& want6 = 2 := by
    rw [show want6 = 2 ^ 1 from rfl, Nat.and_two_pow]
    cases want.testBit 1
    · exact Or.inl rfl
    · exact Or.inr rfl
  have hend : (101 : UInt8) :: r ≠ [] := List.cons_ne_nil _ _
  unfold wantFlags
  rw [hsplit]
  rcases h4 with h4 | h4 <;> rcases h6 with h6 | h6 <;> rw [h4, h6]
  · exact parseWantFrom_end _ r 0
  · exact (parseWantFrom_n6 _ hend 0).trans (parseWantFrom_end _ r 2)
  · exact (parseWantFrom_n4 _ hend 0).trans (parseWantFrom_end _ r 1)
  · rw [if_pos one_ne_zero, if_pos two_ne_zero, List.append_assoc]
    have hn6 : str "2:n6" ++ (101 :: r) ≠ [] := List.cons_ne_nil _ _
    rw [parseWantFrom_n4 _ hn6, parseWantFrom_n6 _ hend]
    exact parseWantFrom_end _ r 3

theorem parseWant_of_none {buf : Bytes} (h : found (str "4:wantl") buf = none) :
    parseWant buf = -1 := by
  unfold parseWant
  rw [Option.map_eq_none_iff.mp h]

theorem parseWant_of_found {buf r : Bytes} {want : ℤ} (hwant : 0 < want)
    (h : found (str "4:wantl") buf = some (wantFlags want.toNat ++ 101 :: r)) :
    parseWant buf = readWant want := by
  obtain ⟨p, hp, hdrop⟩ := Option.map_eq_some_iff.mp h
  have hdrop' : buf.drop (p + 7) = wantFlags want.toNat ++ 101 :: r := hdrop
  obtain ⟨fuel, hfuel⟩ : ∃ n, buf.length + 1 = n + 2 := by
    have hbuf := congrArg List.length hdrop'
    rw [List.length_drop, List.length_append, List.length_cons] at hbuf
    exact ⟨buf.length - 1, by omega⟩
  unfold parseWant readWant
  rw [hp, if_pos hwant]
  dsimp only
  rw [hfuel, hdrop', parseWantFrom_flags]

/-! ## Kinds -/

/-- The markers that make a message one of this kind. -/
def kindMarkers : MessageKind → List String
  | .reply => ["1:y1:r"]
  | .error => ["1:y1:e"]
  | .ping => ["1:y1:q", "1:q4:ping"]
  | .findNode => ["1:y1:q", "1:q9:find_node"]
  | .getPeers => ["1:y1:q", "1:q9:get_peers"]
  | .announcePeer => ["1:y1:q", "1:q13:announce_peer"]
  | .dtnQuery => []
  | .dtnReply => []

theorem parseKind_of_markers {buf : Bytes} {kind : MessageKind} (hkind : kindMarkers kind ≠ [])
    (hmine : ∀ key ∈ kindMarkers kind, (findInfix (str key) buf).isSome = true)
    (hearlier : ∀ key ∈ earlierMarkers kind, findInfix (str key) buf = none) :
    parseKind buf = some kind := by
  unfold parseKind
  cases kind <;> simp_all [kindMarkers, earlierMarkers]

/-! ## Parts -/

section

variable {ps qs : List Part} {key : String}

theorem written_append (ps qs : List Part) : written (ps ++ qs) = written ps ++ written qs :=
  List.flatMap_append

/-- The markers that are written. -/
def marks (ps : List Part) : List String :=
  ps.filterMap fun
    | .mark key => some key
    | _ => none

@[simp]
theorem marks_append (ps qs : List Part) : marks (ps ++ qs) = marks ps ++ marks qs :=
  List.filterMap_append

/-- A marker that is written is found. -/
theorem isSome_findInfix_of_mem (h : key ∈ marks ps) :
    (findInfix (str key) (written ps)).isSome = true := by
  obtain ⟨part, hpart, hkey⟩ := List.mem_filterMap.mp h
  obtain ⟨as, bs, rfl⟩ := List.append_of_mem hpart
  have hbytes : part.bytes = str key := by
    cases part with
    | mark k => exact congrArg str (Option.some.inj hkey)
    | plain s => cases hkey
    | data s => cases hkey
  have hinfix : str key <:+: written (as ++ part :: bs) := by
    rw [written_append, ← hbytes]
    exact ⟨written as, written bs, List.append_assoc _ _ _⟩
  rw [Option.isSome_iff_ne_none]
  intro hnone
  exact findInfix_eq_none_iff.mp hnone hinfix

/-- Parts without the marker are passed over. -/
theorem behind_append_of_not_mem (h : key ∉ marks ps) : behind key (ps ++ qs) = behind key qs := by
  induction ps with
  | nil => rfl
  | cons part ps ih =>
    cases part with
    | mark k =>
      have hk : k ≠ key ∧ key ∉ marks ps := by
        rw [show marks (.mark k :: ps) = k :: marks ps from rfl, List.mem_cons, not_or] at h
        exact ⟨Ne.symm h.1, h.2⟩
      exact (if_neg hk.1).trans (ih hk.2)
    | plain s => exact ih h
    | data s => exact ih h

theorem behind_eq_none (h : key ∉ marks ps) : behind key ps = none := by
  have hnil : behind key (ps ++ []) = none := behind_append_of_not_mem h
  rwa [List.append_nil] at hnil

/-- The marker is in the first parts, if anywhere. -/
theorem behind_append_of_mem_or (h : key ∉ marks qs) :
    behind key (ps ++ qs) = (behind key ps).map (· ++ written qs) := by
  induction ps with
  | nil => exact behind_eq_none h
  | cons part ps ih =>
    cases part with
    | mark k =>
      show (if k = key then some (written (ps ++ qs)) else behind key (ps ++ qs)) =
        (if k = key then some (written ps) else behind key ps).map (· ++ written qs)
      split_ifs
      · rw [written_append]
        rfl
      · exact ih
    | plain s => exact ih
    | data s => exact ih

end

theorem mem_marks_flatMap {gs : List (String × List Part)} {key : String} :
    key ∈ marks (gs.flatMap Prod.snd) ↔ ∃ g ∈ gs, key ∈ marks g.2 := by
  induction gs with
  | nil => exact iff_of_false List.not_mem_nil fun ⟨_, h, _⟩ => absurd h List.not_mem_nil
  | cons g gs ih =>
    rw [List.flatMap_cons, marks_append, List.mem_append, ih]
    simp only [List.mem_cons, exists_eq_or_imp]

/-- Among groups of parts that have different markers, a marker is in the group it belongs to. -/
theorem behind_flatMap {gs : List (String × List Part)} {key : String} {ps qs : List Part}
    (hown : ∀ g ∈ gs, ∀ k ∈ marks g.2, k = g.1) (hnodup : (gs.map Prod.fst).Nodup)
    (hmem : (key, ps) ∈ gs) (hqs : key ∉ marks qs) :
    ∃ r, behind key (gs.flatMap Prod.snd ++ qs) = (behind key ps).map (· ++ r) := by
  induction gs with
  | nil => exact absurd hmem List.not_mem_nil
  | cons g gs ih =>
    rw [List.map_cons, List.nodup_cons] at hnodup
    have hown' : ∀ g ∈ gs, ∀ k ∈ marks g.2, k = g.1 :=
      fun g hg => hown g (List.mem_cons_of_mem _ hg)
    rw [List.flatMap_cons, List.append_assoc]
    rcases List.mem_cons.mp hmem with rfl | hmem
    · have hrest : key ∉ marks (gs.flatMap Prod.snd ++ qs) := by
        rw [marks_append, List.mem_append, mem_marks_flatMap, not_or]
        refine ⟨?_, hqs⟩
        rintro ⟨g, hg, hkey⟩
        apply hnodup.1
        show key ∈ gs.map Prod.fst
        rw [hown' g hg key hkey]
        exact List.mem_map_of_mem hg
      exact ⟨_, behind_append_of_mem_or hrest⟩
    · have hg : key ∉ marks g.2 := by
        intro hkey
        have heq := hown g List.mem_cons_self key hkey
        exact hnodup.1 (heq ▸ List.mem_map_of_mem hmem)
      rw [behind_append_of_not_mem hg]
      exact ih hown' hnodup.2 hmem

/-! ## Messages -/

/-- What a message holds. -/
structure Contents where
  kind : MessageKind
  target : Option Id := none
  infoHash : Option Id := none
  port : Option UInt16 := none
  nodes : Bytes := []
  nodes6 : Bytes := []
  token : Bytes := []
  peers : Option (List Peer) := none
  want : ℤ := -1

/-- A field of 20 bytes, if there is one. -/
def idParts (key : String) (id : Option Id) : List Part :=
  id.elim [] fun id => [.mark key, .data id.bytes]

/-- A string with its length, left out if it is empty. -/
def fieldParts (key : String) (s : Bytes) : List Part :=
  if s = [] then [] else [.mark key, .data (decimal s.length), .plain ":", .data s]

/-- The port, if there is one. -/
def portParts (port : Option UInt16) : List Part :=
  port.elim [] fun port => [.plain "4:", .mark "porti", .data (decimal port.toNat), .plain "e"]

/-- The list of values, if there is one. -/
def valuesParts (peers : Option (List Peer)) : List Part :=
  peers.elim [] fun ps => [.mark "6:valuesl", .data (ps.flatMap peerText), .plain "e"]

/-- The `want` entry. -/
def wantParts (want : ℤ) : List Part :=
  if 0 < want then [.mark "4:wantl", .data (wantFlags want.toNat), .plain "e"] else []

/-- The transaction id and the version. -/
def tidParts (net : Net) (tid : Bytes) : List Part :=
  [.mark "1:t", .data (decimal tid.length), .plain ":", .data tid, .data net.version]

/-- The name of a query. -/
def queryParts (kind : MessageKind) : List Part := (kindMarkers kind).tail.map Part.mark

/-- Query or reply. -/
def typeParts (kind : MessageKind) : List Part := (kindMarkers kind).head?.toList.map Part.mark

section

variable {key k : String}

@[simp]
theorem marks_map_mark (ks : List String) : marks (ks.map Part.mark) = ks := by
  induction ks with
  | nil => rfl
  | cons k ks ih => exact congrArg (k :: ·) ih

@[simp]
theorem mem_marks_idParts {id : Option Id} : k ∈ marks (idParts key id) ↔ k = key ∧ id ≠ none := by
  cases id with
  | none => exact iff_of_false List.not_mem_nil fun h => h.2 rfl
  | some id => exact List.mem_singleton.trans (and_iff_left (Option.some_ne_none id)).symm

@[simp]
theorem mem_marks_fieldParts {s : Bytes} : k ∈ marks (fieldParts key s) ↔ k = key ∧ s ≠ [] := by
  unfold fieldParts
  split_ifs with h
  · exact iff_of_false List.not_mem_nil fun hk => hk.2 h
  · exact List.mem_singleton.trans (and_iff_left h).symm

@[simp]
theorem mem_marks_portParts {port : Option UInt16} :
    k ∈ marks (portParts port) ↔ k = "porti" ∧ port ≠ none := by
  cases port with
  | none => exact iff_of_false List.not_mem_nil fun h => h.2 rfl
  | some port => exact List.mem_singleton.trans (and_iff_left (Option.some_ne_none port)).symm

@[simp]
theorem mem_marks_valuesParts {peers : Option (List Peer)} :
    k ∈ marks (valuesParts peers) ↔ k = "6:valuesl" ∧ peers ≠ none := by
  cases peers with
  | none => exact iff_of_false List.not_mem_nil fun h => h.2 rfl
  | some ps => exact List.mem_singleton.trans (and_iff_left (Option.some_ne_none ps)).symm

@[simp]
theorem mem_marks_wantParts {want : ℤ} :
    k ∈ marks (wantParts want) ↔ k = "4:wantl" ∧ 0 < want := by
  unfold wantParts
  split_ifs with h
  · exact List.mem_singleton.trans (and_iff_left h).symm
  · exact iff_of_false List.not_mem_nil fun hk => h hk.2

@[simp]
theorem marks_tidParts (net : Net) (tid : Bytes) : marks (tidParts net tid) = ["1:t"] := rfl

end

/-! ### Their texts -/

/-- The bytes of a field of 20 bytes. -/
def idText (key : String) (id : Option Id) : Bytes := id.elim [] fun id => str key ++ id.bytes

theorem written_wantParts (want : ℤ) : written (wantParts want) = wantText want := by
  unfold wantParts wantText wantFlags
  split_ifs <;> rfl

theorem written_fieldParts (key : String) (s : Bytes) :
    written (fieldParts key s) = fieldText key s := by
  unfold fieldParts fieldText
  split_ifs
  · rfl
  · show str key ++ (decimal s.length ++ (str ":" ++ (s ++ []))) = _
    rw [List.append_nil, List.append_assoc, List.append_assoc]

theorem written_valuesParts (peers : Option (List Peer)) :
    written (valuesParts peers) = valuesText peers := by
  cases peers <;> rfl

theorem written_idParts (key : String) (id : Option Id) :
    written (idParts key id) = idText key id := by
  cases id with
  | none => rfl
  | some id =>
    show str key ++ (id.bytes ++ []) = str key ++ id.bytes
    rw [List.append_nil]

theorem fieldText_nil (key : String) : fieldText key [] = [] := if_pos rfl

theorem valuesText_none : valuesText none = [] := rfl

theorem wantText_neg : wantText (-1) = [] := rfl

theorem written_portParts_none : written (portParts none) = [] := rfl

theorem written_portParts_some (port : UInt16) : written (portParts (some port)) =
    str "4:" ++ (str "porti" ++ (decimal port.toNat ++ str "e")) := rfl

namespace Contents

variable (net : Net) (tid : Bytes) (c : Contents)

/-- The start of a message, with the sender's id. -/
def head : List Part :=
  [.plain (if c.kind = .reply then "d1:rd" else "d1:ad"), .mark "2:id20:", .data net.myid.bytes]

/-- The end of a message. -/
def tail : List Part :=
  [.plain "e"] ++ (queryParts c.kind ++ (tidParts net tid ++ (typeParts c.kind ++ [.plain "e"])))

/-- The fields of a message, each with its marker. -/
def entries : List (String × List Part) :=
  [("6:target20:", idParts "6:target20:" c.target),
    ("9:info_hash20:", idParts "9:info_hash20:" c.infoHash),
    ("porti", portParts c.port),
    ("5:nodes", fieldParts "5:nodes" c.nodes),
    ("6:nodes6", fieldParts "6:nodes6" c.nodes6),
    ("5:token", fieldParts "5:token" c.token),
    ("6:valuesl", valuesParts c.peers),
    ("4:wantl", wantParts c.want)]

/-- The parts of a message. -/
def parts : List Part := c.head net ++ (c.entries.flatMap Prod.snd ++ c.tail net tid)

/-- What the parser is to return for it. -/
def message : Message where
  kind := c.kind
  tid := tid
  tidLen := tid.length
  id := net.myid
  infoHash := c.infoHash.getD Id.zeroes
  target := c.target.getD Id.zeroes
  port := c.port.getD 0
  token := c.token
  nodes := c.nodes
  nodes6 := c.nodes6
  values := addresses 4 (c.peers.getD [])
  values6 := addresses 16 (c.peers.getD [])
  want := readWant c.want

/-- The arrays of `dht_periodic` have room for the fields. -/
structure Fits : Prop where
  kind : kindMarkers c.kind ≠ []
  port : c.port ≠ some 0
  token : c.token.length < 128
  nodes : c.nodes.length < 256
  nodes6 : c.nodes6.length < 1024
  peers : ∀ ps ∈ c.peers, ps.length ≤ 50 ∧ ∀ p ∈ ps, p.ip.length = 4 ∨ p.ip.length = 16

theorem keys_entries : c.entries.map Prod.fst = ["6:target20:", "9:info_hash20:", "porti",
    "5:nodes", "6:nodes6", "5:token", "6:valuesl", "4:wantl"] := rfl

theorem written_head : written (c.head net) =
    str (if c.kind = .reply then "d1:rd" else "d1:ad") ++ (str "2:id20:" ++ net.myid.bytes) := by
  show _ ++ (_ ++ (net.myid.bytes ++ [])) = _
  rw [List.append_nil]
  rfl

theorem written_tail : written (c.tail net tid) = str "e" ++ (written (queryParts c.kind) ++
    (str "1:t" ++ (decimal tid.length ++ (str ":" ++ (tid ++ (net.version ++
      (written (typeParts c.kind) ++ str "e"))))))) := by
  have htid : written (tidParts net tid) =
      str "1:t" ++ (decimal tid.length ++ (str ":" ++ (tid ++ net.version))) := by
    show _ ++ (_ ++ (_ ++ (_ ++ (net.version ++ [])))) = _
    rw [List.append_nil]
    rfl
  unfold tail
  simp only [written_append, htid, List.append_assoc]
  rfl

theorem written_parts : written (c.parts net tid) =
    str (if c.kind = .reply then "d1:rd" else "d1:ad") ++ (str "2:id20:" ++ (net.myid.bytes ++
      (idText "6:target20:" c.target ++ (idText "9:info_hash20:" c.infoHash ++
        (written (portParts c.port) ++ (fieldText "5:nodes" c.nodes ++
          (fieldText "6:nodes6" c.nodes6 ++ (fieldText "5:token" c.token ++
            (valuesText c.peers ++ (wantText c.want ++ (str "e" ++ (written (queryParts c.kind) ++
              (str "1:t" ++ (decimal tid.length ++ (str ":" ++ (tid ++ (net.version ++
                (written (typeParts c.kind) ++ str "e")))))))))))))))))) := by
  unfold parts entries
  simp only [written_append, List.flatMap_cons, List.flatMap_nil, List.append_nil,
    List.append_assoc, written_head, written_tail, written_idParts, written_fieldParts,
    written_valuesParts, written_wantParts]

theorem nodup_entries : (c.entries.map Prod.fst).Nodup := by
  rw [keys_entries]
  decide

/-- The only marker in a field is its own. -/
theorem marks_entries : ∀ entry ∈ c.entries, ∀ k ∈ marks entry.2, k = entry.1 := by
  unfold entries
  simp only [List.forall_mem_cons, List.not_mem_nil, false_imp_iff, implies_true, and_true,
    mem_marks_idParts, mem_marks_portParts, mem_marks_fieldParts, mem_marks_valuesParts,
    mem_marks_wantParts, and_imp]
  exact ⟨fun _ h _ => h, fun _ h _ => h, fun _ h _ => h, fun _ h _ => h, fun _ h _ => h,
    fun _ h _ => h, fun _ h _ => h, fun _ h _ => h⟩

variable {net tid c}

theorem marks_tail : marks (c.tail net tid) = (kindMarkers c.kind).tail ++ ("1:t" ::
    (kindMarkers c.kind).head?.toList) := by
  unfold tail queryParts typeParts
  simp only [marks_append, marks_map_mark, marks_tidParts]
  show [] ++ (_ ++ (["1:t"] ++ (_ ++ []))) = _
  rw [List.nil_append, List.append_nil, List.singleton_append]

/-- A message has the markers of its kind. -/
theorem kindMarkers_subset_marks : kindMarkers c.kind ⊆ marks (c.parts net tid) := by
  intro key hkey
  unfold parts
  rw [marks_append, marks_append, marks_tail]
  apply List.mem_append_right
  apply List.mem_append_right
  generalize kindMarkers c.kind = ks at hkey
  cases ks with
  | nil => exact absurd hkey List.not_mem_nil
  | cons k ks =>
    rcases List.mem_cons.mp hkey with rfl | hkey
    · exact List.mem_append_right _ (List.mem_cons_of_mem _ (List.mem_singleton.mpr rfl))
    · exact List.mem_append_left _ hkey

/-- Of the markers of fields, the end of a message has that of the transaction id only. -/
theorem not_mem_marks_tail {key : String} (hkey : key ∈ fieldMarkers) (ht : key ≠ "1:t") :
    key ∉ marks (c.tail net tid) := by
  rw [marks_tail]
  have hkinds : ∀ key ∈ fieldMarkers, key ∉ kindMarkers c.kind := by
    cases c.kind <;> decide
  intro hmem
  rcases List.mem_append.mp hmem with h | h
  · exact hkinds key hkey (List.mem_of_mem_tail h)
  · rcases List.mem_cons.mp h with h | h
    · exact ht h
    · exact hkinds key hkey (List.mem_of_head? (Option.mem_toList.mp h))

/-! ### Where the fields are -/

theorem behind_id : ∃ r, behind "2:id20:" (c.parts net tid) = some (net.myid.bytes ++ r) :=
  ⟨_, rfl⟩

/-- The entries are under markers of fields, other than those of the two ids. -/
theorem key_of_mem_entries {key : String} {ps : List Part} (hmem : (key, ps) ∈ c.entries) :
    key ∈ fieldMarkers ∧ key ≠ "1:t" ∧ key ≠ "2:id20:" := by
  have hkeys : ∀ key ∈ ["6:target20:", "9:info_hash20:", "porti", "5:nodes", "6:nodes6", "5:token",
      "6:valuesl", "4:wantl"], key ∈ fieldMarkers ∧ key ≠ "1:t" ∧ key ≠ "2:id20:" := by
    decide
  apply hkeys
  rw [← c.keys_entries]
  exact List.mem_map_of_mem hmem

/-- Each field is behind its own marker. -/
theorem behind_entry {key : String} {ps : List Part} (hmem : (key, ps) ∈ c.entries) :
    ∃ r, behind key (c.parts net tid) = (behind key ps).map (· ++ r) := by
  obtain ⟨hkey, ht, hid⟩ := key_of_mem_entries hmem
  have hhead : key ∉ marks (c.head net) := by
    intro h
    exact hid (List.mem_singleton.mp h)
  have htail : key ∉ marks (c.tail net tid) := not_mem_marks_tail hkey ht
  obtain ⟨r, hr⟩ := behind_flatMap c.marks_entries c.nodup_entries hmem htail
  exact ⟨r, (behind_append_of_not_mem hhead).trans hr⟩

theorem behind_tid : ∃ r, behind "1:t" (c.parts net tid) =
    some (decimal tid.length ++ 58 :: (tid ++ r)) := by
  have hhead : "1:t" ∉ marks (c.head net) := by
    intro h
    exact absurd (List.mem_singleton.mp h) (by decide)
  have hentries : "1:t" ∉ marks (c.entries.flatMap Prod.snd) := by
    intro h
    obtain ⟨entry, hentry, hmem⟩ := mem_marks_flatMap.mp h
    have hkeys : "1:t" ∉ c.entries.map Prod.fst := by
      rw [keys_entries]
      decide
    apply hkeys
    rw [c.marks_entries entry hentry _ hmem]
    exact List.mem_map_of_mem hentry
  have hquery : "1:t" ∉ marks (queryParts c.kind) := by
    unfold queryParts
    rw [marks_map_mark]
    cases c.kind <;> decide
  unfold parts tail
  rw [behind_append_of_not_mem hhead, behind_append_of_not_mem hentries,
    behind_append_of_not_mem (List.not_mem_nil), behind_append_of_not_mem hquery]
  exact ⟨_, rfl⟩

/-! ### What the parser returns -/

section

variable {buf r : Bytes} {key : String}

theorem parseId_of_parts {id : Option Id}
    (h : found (str key) buf = (behind key (idParts key id)).map (· ++ r)) :
    parseId buf (str key) = some (id.getD Id.zeroes) := by
  cases id with
  | none => exact parseId_of_none h
  | some id =>
    have hbehind : behind key (idParts key (some id)) = some (id.bytes ++ []) := if_pos rfl
    rw [hbehind, List.append_nil] at h
    exact parseId_of_found h

theorem parseString_of_parts {s : Bytes} {size : ℕ} (hs : s.length < size) (hsize : size ≤ 1024)
    (h : found (str key) buf = (behind key (fieldParts key s)).map (· ++ r)) :
    parseString buf (str key) size = some s := by
  unfold fieldParts at h
  by_cases h0 : s = []
  · rw [if_pos h0] at h
    rw [h0]
    exact parseString_of_none h
  · rw [if_neg h0] at h
    have hbehind : behind key [.mark key, .data (decimal s.length), .plain ":", .data s] =
        some (decimal s.length ++ 58 :: (s ++ [])) := if_pos rfl
    rw [hbehind, List.append_nil, Option.map_some, List.append_assoc, List.cons_append] at h
    exact parseString_of_found h h0 hs hsize

theorem parsePort_of_parts {port : Option UInt16} (h0 : port ≠ some 0)
    (h : found (str "porti") buf = (behind "porti" (portParts port)).map (· ++ r)) :
    parsePort buf = port.getD 0 := by
  cases port with
  | none => exact parsePort_of_none h
  | some port =>
    have hbehind : behind "porti" (portParts (some port)) =
        some (decimal port.toNat ++ [101]) := rfl
    rw [hbehind, Option.map_some, List.append_assoc] at h
    exact parsePort_of_found (fun hz => h0 (congrArg some hz)) h

theorem parseValues_of_parts {peers : Option (List Peer)}
    (hpeers : ∀ ps ∈ peers, ps.length ≤ 50 ∧ ∀ p ∈ ps, p.ip.length = 4 ∨ p.ip.length = 16)
    (h : found (str "6:valuesl") buf = (behind "6:valuesl" (valuesParts peers)).map (· ++ r)) :
    parseValues buf = some (addresses 4 (peers.getD []), addresses 16 (peers.getD [])) := by
  cases peers with
  | none => exact parseValues_of_none h
  | some ps =>
    obtain ⟨hcount, hip⟩ := hpeers ps rfl
    have hbehind : behind "6:valuesl" (valuesParts (some ps)) =
        some (ps.flatMap peerText ++ [101]) := rfl
    rw [hbehind, Option.map_some, List.append_assoc] at h
    exact parseValues_of_found h hip hcount

theorem parseWant_of_parts {want : ℤ}
    (h : found (str "4:wantl") buf = (behind "4:wantl" (wantParts want)).map (· ++ r)) :
    parseWant buf = readWant want := by
  unfold wantParts at h
  by_cases hpos : 0 < want
  · rw [if_pos hpos] at h
    have hbehind : behind "4:wantl" [.mark "4:wantl", .data (wantFlags want.toNat), .plain "e"] =
        some (wantFlags want.toNat ++ [101]) := rfl
    rw [hbehind, Option.map_some, List.append_assoc] at h
    exact parseWant_of_found hpos h
  · rw [if_neg hpos] at h
    unfold readWant
    rw [if_neg hpos]
    exact parseWant_of_none h

end

/-- A message that hides no markers is read as it was written. -/
theorem parseMessage_written (hc : c.Fits) (h0 : tid ≠ []) (htid : tid.length < 16) (arr : Bytes)
    (hnone : NoneHidden (c.parts net tid) c.kind) :
    (parseMessage (written (c.parts net tid)) arr 16).map Message.exact =
      some (c.message net tid) := by
  have hfound : ∀ entry ∈ c.entries, ∃ r, found (str entry.1) (written (c.parts net tid)) =
      (behind entry.1 entry.2).map (· ++ r) := by
    rintro ⟨key, ps⟩ hmem
    rw [hnone.fields key (key_of_mem_entries hmem).1]
    exact behind_entry hmem
  unfold entries at hfound
  simp only [List.forall_mem_cons] at hfound
  obtain ⟨⟨_, htarget⟩, ⟨_, hinfo⟩, ⟨_, hport⟩, ⟨_, hnodes⟩, ⟨_, hnodes6⟩, ⟨_, htoken⟩,
    ⟨_, hvalues⟩, ⟨_, hwant⟩, -⟩ := hfound
  obtain ⟨_, htid'⟩ : ∃ r, behind "1:t" (c.parts net tid) =
    some (decimal tid.length ++ 58 :: (tid ++ r)) := behind_tid
  obtain ⟨_, hid⟩ : ∃ r, behind "2:id20:" (c.parts net tid) = some (net.myid.bytes ++ r) :=
    behind_id
  rw [← hnone.fields _ (by decide)] at htid' hid
  have hmine : ∀ key ∈ kindMarkers c.kind,
      (findInfix (str key) (written (c.parts net tid))).isSome = true := by
    intro key hkey
    apply isSome_findInfix_of_mem
    exact kindMarkers_subset_marks hkey
  have hkind := parseKind_of_markers hc.kind hmine hnone.kinds
  unfold parseMessage
  rw [parseTid_of_found htid' h0 htid, parseId_of_found hid, parseId_of_parts hinfo,
    parseId_of_parts htarget, parseString_of_parts hc.token (by decide) htoken,
    parseString_of_parts hc.nodes (by decide) hnodes,
    parseString_of_parts hc.nodes6 (by decide) hnodes6, parseValues_of_parts hc.peers hvalues,
    hkind]
  apply congrArg some
  unfold Message.exact Message.tidBytes message
  dsimp only
  rw [memcpy_take, parsePort_of_parts hc.port hport, parseWant_of_parts hwant]

end Contents

/-! ## What is sent -/

/-- A call of one of the encoders. -/
inductive Sending where
  | ping
  | pong
  | findNode (target : Id) (want : ℤ)
  | getPeers (infohash : Id) (want : ℤ)
  | announcePeer (infohash : Id) (port : UInt16) (token : Bytes)
  | peerAnnounced
  | nodesPeers (nodes nodes6 : Bytes) (peers : Option (List Peer)) (token : Bytes)

namespace Sending

variable (net : Net) (tid : Bytes)

/-- The packet. -/
def send : Sending → Option Bytes
  | ping => sendPing net tid
  | pong => sendPong net tid
  | findNode target want => sendFindNode net tid target want
  | getPeers infohash want => sendGetPeers net tid infohash want
  | announcePeer infohash port token => sendAnnouncePeer net tid infohash port token
  | peerAnnounced => sendPeerAnnounced net tid
  | nodesPeers nodes nodes6 peers token => sendNodesPeers net tid nodes nodes6 peers token

/-- What the packet is to say. -/
def contents : Sending → Contents
  | ping => { kind := .ping }
  | pong => { kind := .reply }
  | findNode target want => { kind := .findNode, target := some target, want := want }
  | getPeers infohash want => { kind := .getPeers, infoHash := some infohash, want := want }
  | announcePeer infohash port token =>
    { kind := .announcePeer, infoHash := some infohash, port := some port, token := token }
  | peerAnnounced => { kind := .reply }
  | nodesPeers nodes nodes6 peers token =>
    { kind := .reply, nodes := nodes, nodes6 := nodes6, peers := peers, token := token }

/-- The arguments the encoders are called with: a port and a token of 1 to 39 bytes; up to eight
nodes a family, and up to 50 peers. -/
def Valid : Sending → Prop
  | announcePeer _ port token => port ≠ 0 ∧ token ≠ [] ∧ token.length < 40
  | nodesPeers nodes nodes6 peers token =>
    nodes.length ≤ 208 ∧ nodes6.length ≤ 304 ∧ token.length < 40 ∧
      ∀ ps ∈ peers, ps.length ≤ 50 ∧ ∀ p ∈ ps, p.ip.length = 4 ∨ p.ip.length = 16
  | _ => True

variable {net tid} {o : Sending}

theorem fits_contents (h : o.Valid) : o.contents.Fits := by
  have hnone : ∀ ps ∈ (none : Option (List Peer)),
      ps.length ≤ 50 ∧ ∀ p ∈ ps, p.ip.length = 4 ∨ p.ip.length = 16 := fun _ h => nomatch h
  have hport : (none : Option UInt16) ≠ some 0 := nofun
  have h128 : ([] : Bytes).length < 128 := by decide
  have h256 : ([] : Bytes).length < 256 := by decide
  have h1024 : ([] : Bytes).length < 1024 := by decide
  cases o with
  | ping | pong | findNode | getPeers | peerAnnounced =>
    exact ⟨List.cons_ne_nil _ _, hport, h128, h256, h1024, hnone⟩
  | announcePeer infohash port token =>
    obtain ⟨h0, -, htoken⟩ := h
    exact ⟨List.cons_ne_nil _ _, fun h => h0 (Option.some.inj h),
      htoken.trans (by decide), h256, h1024, hnone⟩
  | nodesPeers nodes nodes6 peers token =>
    obtain ⟨hnodes, hnodes6, htoken, hpeers⟩ := h
    exact ⟨List.cons_ne_nil _ _, hport, htoken.trans (by decide),
      hnodes.trans_lt (by decide), hnodes6.trans_lt (by decide), hpeers⟩

/-- The encoders write these parts. -/
theorem send_eq (hv : net.VersionFits) (htid : tid.length ≤ 16) (h : o.Valid) :
    o.send net tid = some (written (o.contents.parts net tid)) := by
  have hquery : str "d1:ad2:id20:" = str "d1:ad" ++ str "2:id20:" := rfl
  have hreply : str "d1:rd2:id20:" = str "d1:rd" ++ str "2:id20:" := rfl
  have hq : str "1:y1:qe" = str "1:y1:q" ++ str "e" := rfl
  have hr : str "1:y1:re" = str "1:y1:r" ++ str "e" := rfl
  have hq' : ∀ kind ∈ [MessageKind.ping, .findNode, .getPeers, .announcePeer],
      written (typeParts kind) = str "1:y1:q" := by decide
  have hr' : written (typeParts .reply) = str "1:y1:r" := by decide
  have hname : str "e1:t" = str "e" ++ (written (queryParts .reply) ++ str "1:t") := rfl
  rw [Contents.written_parts]
  cases o with
  | ping =>
    refine (sendPing_eq hv htid).trans (congrArg some ?_)
    have hname : str "e1:q4:ping1:t" = str "e" ++ (written (queryParts .ping) ++ str "1:t") := rfl
    simp only [pingText, ending, hquery, hname, hq, hq' .ping (by decide), contents, idText,
      Option.elim_none, fieldText_nil, valuesText_none, written_portParts_none,
      wantText_neg, List.nil_append, List.append_assoc]
    rfl
  | pong | peerAnnounced =>
    refine (sendPong_eq hv htid).trans (congrArg some ?_)
    simp only [pongText, ending, hreply, hname, hr, hr', contents, idText, Option.elim_none,
      fieldText_nil, valuesText_none, written_portParts_none, wantText_neg, List.nil_append,
      List.append_assoc]
    rfl
  | findNode target want =>
    refine (sendFindNode_eq hv htid target want).trans (congrArg some ?_)
    have hname : str "e1:q9:find_node1:t" =
        str "e" ++ (written (queryParts .findNode) ++ str "1:t") := rfl
    simp only [findNodeText, ending, hquery, hname, hq, hq' .findNode (by decide), contents, idText,
      Option.elim_none, Option.elim_some, fieldText_nil, valuesText_none, written_portParts_none,
      List.nil_append, List.append_assoc]
    rfl
  | getPeers infohash want =>
    refine (sendGetPeers_eq hv htid infohash want).trans (congrArg some ?_)
    have hname : str "e1:q9:get_peers1:t" =
        str "e" ++ (written (queryParts .getPeers) ++ str "1:t") := rfl
    simp only [getPeersText, ending, hquery, hname, hq, hq' .getPeers (by decide), contents, idText,
      Option.elim_none, Option.elim_some, fieldText_nil, valuesText_none, written_portParts_none,
      List.nil_append, List.append_assoc]
    rfl
  | announcePeer infohash port token =>
    obtain ⟨-, h0, htoken⟩ := h
    refine (sendAnnouncePeer_eq hv htid infohash port htoken.le).trans (congrArg some ?_)
    have hname : str "e1:q13:announce_peer1:t" =
        str "e" ++ (written (queryParts .announcePeer) ++ str "1:t") := rfl
    have hport : str "4:porti" = str "4:" ++ str "porti" := rfl
    have htoken : str "e5:token" = str "e" ++ str "5:token" := rfl
    have hfield : fieldText "5:token" token =
        str "5:token" ++ decimal token.length ++ str ":" ++ token := if_neg h0
    simp only [announcePeerText, ending, hquery, hname, hport, htoken, hq,
      hq' .announcePeer (by decide), contents, idText, Option.elim_none, Option.elim_some,
      fieldText_nil, hfield, valuesText_none, written_portParts_some, wantText_neg,
      List.nil_append, List.append_assoc]
    rfl
  | nodesPeers nodes nodes6 peers token =>
    obtain ⟨hnodes, hnodes6, htoken, hpeers⟩ := h
    have hfit : PeersFit peers := by
      intro ps hps
      obtain ⟨hcount, hip⟩ := hpeers ps hps
      refine ⟨hcount, ?_⟩
      intro p hp
      have hlen := hip p hp
      omega
    refine (sendNodesPeers_eq hv htid (by omega) hnodes6 hfit htoken.le).trans (congrArg some ?_)
    simp only [nodesPeersText, ending, hreply, hname, hr, hr', contents, idText, Option.elim_none,
      written_portParts_none, wantText_neg, List.nil_append, List.append_assoc]
    rfl

/-- **A message that hides no markers is read back**: the packet of every encoder is read as a
message of its kind with exactly the transaction id, the sender's id and the fields that were
written. -/
theorem parseMessage_send (hv : net.VersionFits) (htid : tid.length = 4) (arr : Bytes) (h : o.Valid)
    (hnone : NoneHidden (o.contents.parts net tid) o.contents.kind) :
    ∃ buf, o.send net tid = some buf ∧
      (parseMessage buf arr 16).map Message.exact = some (o.contents.message net tid) := by
  have h0 : tid ≠ [] := by
    rintro rfl
    exact absurd htid (by decide)
  refine ⟨_, send_eq hv (by omega) h, ?_⟩
  exact Contents.parseMessage_written (fits_contents h) h0 (by omega) arr hnone

/-- A node whose id starts like this. -/
def nodeWithId (bs : Bytes) : Net where
  dhtSocket := 5
  dhtSocket6 := -1
  myid := Id.ofBytes bs
  myV := none
  nodeBlacklisted _ _ := false

/-- An announcement whose fields are plain bytes. -/
theorem parseMessage_send_announcePeer :
    ∃ buf, (announcePeer (Id.ofBytes [7, 7]) 4556 [1, 2, 3, 4, 5, 6, 7, 8]).send
        (nodeWithId [1]) (str "ap" ++ [0, 0]) = some buf ∧
      (parseMessage buf (List.replicate 16 0) 16).map Message.exact =
        some ((announcePeer (Id.ofBytes [7, 7]) 4556 [1, 2, 3, 4, 5, 6, 7, 8]).contents.message
          (nodeWithId [1]) (str "ap" ++ [0, 0])) :=
  parseMessage_send (show (nodeWithId [1]).VersionFits from Nat.zero_le 9) rfl _
    ⟨by decide, by decide, by decide⟩ ⟨by decide +kernel, by decide +kernel⟩

/-- A ping of a node whose id holds a transaction id. -/
theorem parseMessage_send_hidden :
    ¬ ∃ buf, ping.send (nodeWithId (str "1:t1:x")) (str "pn" ++ [0, 0]) = some buf ∧
      (parseMessage buf (List.replicate 16 0) 16).map Message.exact =
        some (ping.contents.message (nodeWithId (str "1:t1:x")) (str "pn" ++ [0, 0])) := by
  have hwrong : (ping.send (nodeWithId (str "1:t1:x")) (str "pn" ++ [0, 0])).bind
      (fun buf => (parseMessage buf (List.replicate 16 0) 16).map Message.exact) ≠
        some (ping.contents.message (nodeWithId (str "1:t1:x")) (str "pn" ++ [0, 0])) := by
    decide +kernel
  rintro ⟨buf, hsend, hread⟩
  rw [hsend] at hwrong
  exact hwrong hread

end Sending

end DtnDht
