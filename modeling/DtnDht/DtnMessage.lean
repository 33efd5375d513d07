import DtnDht.Lib.Occurrence
import DtnDht.Sockaddr

/-!
# The DTN messages

The query `send_get_dtninfo` sends, the reply `send_dtninfo` sends, and `parse_dtn_message`, which
reads both. A buffer is the list of its bytes and its terminating NUL is the end of the list; a
pointer into it is the list of the bytes from there on. The recursive readers take one unit of
fuel a call and `parseDtnEidList_eq`, `parseDtnConvergenceLayerArgs_eq` and
`parseDtnConvergenceLayer_eq` are their equations without it.
-/

namespace DtnDht

open CString Occurrence

/-- The kinds of messages the parsers report; they return -1 for anything else. -/
inductive MessageKind where
  | error
  | reply
  | ping
  | findNode
  | getPeers
  | announcePeer
  | dtnQuery
  | dtnReply
  deriving DecidableEq, Repr

/-- `struct dtn_convergence_layer_arg`, without the link. -/
structure ConvergenceLayerArg where
  key : Bytes
  value : Bytes
  deriving DecidableEq, Repr

/-- `struct dtn_convergence_layer`, without the link. -/
structure ConvergenceLayer where
  clname : Bytes
  args : List ConvergenceLayerArg
  deriving DecidableEq, Repr

/-- `struct dtn_dht_lookup_result`; a null list is empty. -/
structure LookupResult where
  eid : Option Bytes := none
  groups : List Bytes := []
  neighbours : List Bytes := []
  clayer : List ConvergenceLayer := []
  deriving DecidableEq, Repr

/-! ## Writing -/

/-- `ADD_V` for a buffer of `size` bytes; `v` is `my_v` when `have_v` is set. -/
def addV (size : ℕ) (v : Option Bytes) (buf : Bytes) : Option Bytes :=
  match v with
  | none => some buf
  | some v => copy size v buf

/-- The packet of `send_get_dtninfo`, or none when it does not fit. -/
def sendGetDtninfo (v : Option Bytes) (tid eid : Bytes) : Option Bytes := do
  let buf ← inc 1076 (str "d1:ad3:eid" ++ decimal eid.length ++ str ":") []
  let buf ← copy 1076 eid buf
  let buf ← inc 1076 (str "e1:q3:dtn1:t" ++ decimal tid.length ++ str ":") buf
  let buf ← copy 1076 tid buf
  let buf ← addV 1076 v buf
  inc 1076 (str "1:y1:qe") buf

/-- The bytes the arguments of a layer take in its text. -/
def argsLen (args : List ConvergenceLayerArg) : ℕ :=
  args.foldl (fun n arg => n + (arg.key.length + 1 + arg.value.length + 1)) 0

/-- One argument of a layer, as `send_dtninfo` writes it. -/
def sendArg (buf : Bytes) (arg : ConvergenceLayerArg) : Option Bytes := do
  let buf ← copy 4096 arg.key buf
  let buf ← copy 4096 (str "=") buf
  let buf ← copy 4096 arg.value buf
  copy 4096 (str ";") buf

/-- One convergence layer, as `send_dtninfo` writes it. -/
def sendLayer (buf : Bytes) (cl : ConvergenceLayer) : Option Bytes := do
  let buf ← inc 4096 (decimal (6 + cl.clname.length + argsLen cl.args) ++ str ":name=") buf
  let buf ← copy 4096 cl.clname buf
  let buf ← copy 4096 (str ";") buf
  cl.args.foldlM sendArg buf

/-- One group or neighbour, as `send_dtninfo` writes it. -/
def sendEid (buf eid : Bytes) : Option Bytes := do
  let buf ← inc 4096 (decimal eid.length ++ str ":") buf
  copy 4096 eid buf

/-- The packet of `send_dtninfo`, or none when it does not fit. -/
def sendDtninfo (tid eid : Bytes) (cls : List ConvergenceLayer) (nbs grs : List Bytes) :
    Option Bytes := do
  let buf ← inc 4096 (str "d1:rd2:cll") []
  let buf ← cls.foldlM sendLayer buf
  let buf ← inc 4096 (str "e3:eid" ++ decimal eid.length ++ str ":") buf
  let buf ← copy 4096 eid buf
  let buf ← inc 4096 (str "2:grl") buf
  let buf ← grs.foldlM sendEid buf
  let buf ← inc 4096 (str "e2:nbl") buf
  let buf ← nbs.foldlM sendEid buf
  let buf ← inc 4096 (str "ee1:t" ++ decimal tid.length ++ str ":") buf
  let buf ← copy 4096 tid buf
  inc 4096 (str "1:y1:re") buf

/-! ## Reading -/

/-- `while (buf[k] != c && k < n) k++` from `k = 0`: the last `k`. -/
def scanUntil (c : UInt8) : Bytes → ℕ → ℕ
  | _, 0 => 0
  | [], n + 1 => n + 1
  | b :: buf, n + 1 => if b = c then 0 else scanUntil c buf n + 1

/-- What reading a length-prefixed string gives. -/
inductive Field where
  | malformed
  | overflow
  | value (s : Bytes)
  deriving DecidableEq, Repr

/-- `l = strtol(buf + pos, &q, 10); if (q && *q == ':' && ok l) CHECK(q + 1, l)`: the `l` bytes
after the colon, unless the number is not one the caller takes or the bytes pass the end. -/
def readField (buf : Bytes) (pos : ℕ) (ok : ℤ → Bool) : Field :=
  let (l, q) := strtol (buf.drop pos)
  if q.head? = some 58 ∧ ok l then
    if q.tail.length < l.toNat then .overflow else .value (q.tail.take l.toNat)
  else .malformed

/-- At `pos` in `buf` stands a numeral for the length of `s`, a colon and `s`. -/
def Spells (buf s : Bytes) (pos : ℕ) : Prop :=
  ∃ r, strtol (buf.drop pos) = ((s.length : ℤ), 58 :: r) ∧ s <+: r

theorem readField_eq_value_iff {buf s : Bytes} {pos : ℕ} {ok : ℤ → Bool}
    (hok : ∀ l, ok l = true → 0 ≤ l) :
    readField buf pos ok = .value s ↔ ok s.length = true ∧ Spells buf s pos := by
  unfold readField Spells
  rcases strtol (buf.drop pos) with ⟨l, q⟩
  simp only [Prod.mk.injEq]
  constructor
  · intro h
    split_ifs at h with hc hlen
    obtain ⟨hq, hl⟩ := hc
    obtain ⟨r, rfl⟩ : ∃ r, q = 58 :: r := by
      cases q with
      | nil => simp at hq
      | cons c r => exact ⟨r, by simpa using hq⟩
    have hs : r.take l.toNat = s := by simpa using h
    have hle : l.toNat ≤ r.length := by simpa using hlen
    have hlen' : l = (s.length : ℤ) := by
      rw [← hs, List.length_take, min_eq_left hle, Int.toNat_of_nonneg (hok l hl)]
    exact ⟨hlen' ▸ hl, r, ⟨hlen', rfl⟩, hs ▸ List.take_prefix _ _⟩
  · rintro ⟨hl, r, ⟨rfl, rfl⟩, hs⟩
    rw [if_pos ⟨rfl, hl⟩, List.tail_cons, Int.toNat_natCast, if_neg (not_lt.mpr hs.length_le),
      ← List.prefix_iff_eq_take.mp hs]

/-- The length-prefixed string the encoders write is spelt. -/
theorem spells_decimal {buf s r : Bytes} {pos : ℕ}
    (hbuf : buf.drop pos = decimal s.length ++ 58 :: (s ++ r)) (hlen : (s.length : ℤ) ≤ longMax) :
    Spells buf s pos :=
  ⟨s ++ r, by rw [hbuf, strtol_decimal (by decide) hlen], List.prefix_append _ _⟩

/-- `parse_dtn_eid_list` with fuel: the bytes read and the EIDs, or none for -1. -/
def parseDtnEidListAux : ℕ → Bytes → ℕ → Option (ℕ × List Bytes)
  | 0, _, _ => none
  | fuel + 1, buf, buflen =>
    if buf.head? = some 101 then some (0, [])
    else
      let (l, q) := strtol buf
      if q.head? = some 58 ∧ 0 < l then
        let length := buf.length - q.length + 1 + l.toNat
        if buflen < length then none
        else
          match parseDtnEidListAux fuel (buf.drop length) (buflen - length) with
          | some (result, eids) => some (result + length, q.tail.take l.toNat :: eids)
          | none => none
      else some (0, [])

/-- `parse_dtn_eid_list`. -/
def parseDtnEidList (buf : Bytes) (buflen : ℕ) : Option (ℕ × List Bytes) :=
  parseDtnEidListAux (buflen + 1) buf buflen

theorem parseDtnEidListAux_fuel {f : ℕ} : ∀ {g buflen : ℕ} {buf : Bytes}, buflen < f → buflen < g →
    parseDtnEidListAux f buf buflen = parseDtnEidListAux g buf buflen := by
  induction f with
  | zero => intro g buflen buf hf; omega
  | succ f ih =>
    intro g buflen buf hf hg
    obtain ⟨g, rfl⟩ : ∃ g', g = g' + 1 := ⟨g - 1, by omega⟩
    simp only [parseDtnEidListAux]
    split_ifs with he hc hlen
    · rfl
    · rfl
    · rw [ih (g := g) (by omega) (by omega)]
    · rfl

/-- The equation of `parse_dtn_eid_list`. -/
theorem parseDtnEidList_eq (buf : Bytes) (buflen : ℕ) :
    parseDtnEidList buf buflen =
      if buf.head? = some 101 then some (0, [])
      else
        let (l, q) := strtol buf
        if q.head? = some 58 ∧ 0 < l then
          let length := buf.length - q.length + 1 + l.toNat
          if buflen < length then none
          else
            match parseDtnEidList (buf.drop length) (buflen - length) with
            | some (result, eids) => some (result + length, q.tail.take l.toNat :: eids)
            | none => none
        else some (0, []) := by
  unfold parseDtnEidList
  rw [parseDtnEidListAux]
  simp only
  split_ifs with he hc hlen
  · rfl
  · rfl
  · rw [parseDtnEidListAux_fuel (f := buflen) (by omega) (Nat.lt_add_one _)]
  · rfl

/-- `parse_dtn_convergence_layer_args` with fuel: the bytes read and the arguments, or none for
-1. -/
def parseDtnConvergenceLayerArgsAux : ℕ → Bytes → ℕ → Option (ℕ × List ConvergenceLayerArg)
  | 0, _, _ => none
  | fuel + 1, buf, buflen =>
    let keylen := scanUntil 61 buf buflen
    if buf[keylen]? = some 61 then
      let valuelen := scanUntil 59 (buf.drop (keylen + 1)) (buflen - (keylen + 1))
      if buf[keylen + 1 + valuelen]? = some 59 then
        let arg := ⟨buf.take keylen, (buf.drop (keylen + 1)).take valuelen⟩
        let result := keylen + valuelen + 2
        if result < buflen then
          match parseDtnConvergenceLayerArgsAux fuel (buf.drop result) (buflen - result) with
          | some (rc, args) => some (result + rc, if 0 < rc then arg :: args else [arg])
          | none => none
        else some (result, [arg])
      else none
    else none

/-- `parse_dtn_convergence_layer_args`. -/
def parseDtnConvergenceLayerArgs (buf : Bytes) (buflen : ℕ) :
    Option (ℕ × List ConvergenceLayerArg) :=
  parseDtnConvergenceLayerArgsAux (buflen + 1) buf buflen

theorem parseDtnConvergenceLayerArgsAux_fuel {f : ℕ} : ∀ {g buflen : ℕ} {buf : Bytes},
    buflen < f → buflen < g → parseDtnConvergenceLayerArgsAux f buf buflen =
      parseDtnConvergenceLayerArgsAux g buf buflen := by
  induction f with
  | zero => intro g buflen buf hf; omega
  | succ f ih =>
    intro g buflen buf hf hg
    obtain ⟨g, rfl⟩ : ∃ g', g = g' + 1 := ⟨g - 1, by omega⟩
    simp only [parseDtnConvergenceLayerArgsAux]
    split_ifs
    · rw [ih (g := g) (by omega) (by omega)]
    all_goals rfl

/-- The equation of `parse_dtn_convergence_layer_args`. -/
theorem parseDtnConvergenceLayerArgs_eq (buf : Bytes) (buflen : ℕ) :
    parseDtnConvergenceLayerArgs buf buflen =
      let keylen := scanUntil 61 buf buflen
      if buf[keylen]? = some 61 then
        let valuelen := scanUntil 59 (buf.drop (keylen + 1)) (buflen - (keylen + 1))
        if buf[keylen + 1 + valuelen]? = some 59 then
          let arg := ⟨buf.take keylen, (buf.drop (keylen + 1)).take valuelen⟩
          let result := keylen + valuelen + 2
          if result < buflen then
            match parseDtnConvergenceLayerArgs (buf.drop result) (buflen - result) with
            | some (rc, args) => some (result + rc, if 0 < rc then arg :: args else [arg])
            | none => none
          else some (result, [arg])
        else none
      else none := by
  unfold parseDtnConvergenceLayerArgs
  rw [parseDtnConvergenceLayerArgsAux]
  simp only
  split_ifs
  · rw [parseDtnConvergenceLayerArgsAux_fuel (f := buflen) (by omega) (Nat.lt_add_one _)]
  all_goals rfl

section Layers

/-! `inetNtop family address` is the text `inet_ntop` writes. -/

variable (inetNtop : ℕ → Bytes → Bytes)

/-- The `ip` argument `parse_dtn_convergence_layer` makes for the sender. -/
def ipArg (frm : Sockaddr) : ConvergenceLayerArg where
  key := str "ip"
  value :=
    if frm.family = afInet then inetNtop afInet frm.sinAddr
    else if frm.family = afInet6 then inetNtop afInet6 frm.sin6Addr
    else []

/-- `memcmp(clname, s, MIN(clnamelen, 3)) == 0`. -/
def nameMatches (clname s : Bytes) : Bool :=
  clname.take (min clname.length 3) = s.take (min clname.length 3)

/-- The test before "Adding IP". -/
def takesIp (clname : Bytes) : Bool :=
  nameMatches clname (str "tcp") || nameMatches clname (str "udp")

/-- The body of `parse_dtn_convergence_layer` for the text of `l` bytes after the colon `q` points
at, up to the recursive call. -/
def parseLayerText (frm : Sockaddr) (q : Bytes) (l : ℕ) : Option ConvergenceLayer :=
  if (str "name=").isPrefixOf q.tail then
    let namelen := scanUntil 59 (q.drop 6) (l - 6)
    let clname := if q[6 + namelen]? = some 59 then (q.drop 6).take namelen else []
    match parseDtnConvergenceLayerArgs (q.drop (6 + namelen + 1)) (l - namelen - 6) with
    | none => none
    | some (0, _) => none
    | some (_ + 1, args) =>
      some ⟨clname, if takesIp clname then ipArg inetNtop frm :: args else args⟩
  else none

/-- `parse_dtn_convergence_layer` with fuel: the sum it returns and the layers, or none for -1. -/
def parseDtnConvergenceLayerAux (frm : Sockaddr) :
    ℕ → Bytes → ℕ → Option (ℕ × List ConvergenceLayer)
  | 0, _, _ => none
  | fuel + 1, buf, buflen =>
    if buf.head? = some 101 then some (0, [])
    else
      let (l, q) := strtol buf
      if q.head? = some 58 ∧ 5 < l then
        let consumed := buf.length - q.length + l.toNat + 1
        if buflen < consumed then none
        else
          match parseLayerText inetNtop frm q l.toNat with
          | none => none
          | some layer =>
            match parseDtnConvergenceLayerAux frm fuel (buf.drop consumed) (buflen - consumed) with
            | some (pos, layers) => some (l.toNat + pos, layer :: layers)
            | none => none
      else none

/-- `parse_dtn_convergence_layer`. -/
def parseDtnConvergenceLayer (frm : Sockaddr) (buf : Bytes) (buflen : ℕ) :
    Option (ℕ × List ConvergenceLayer) :=
  parseDtnConvergenceLayerAux inetNtop frm (buflen + 1) buf buflen

theorem parseDtnConvergenceLayerAux_fuel {frm : Sockaddr} {f : ℕ} :
    ∀ {g buflen : ℕ} {buf : Bytes}, buflen < f → buflen < g →
      parseDtnConvergenceLayerAux inetNtop frm f buf buflen =
        parseDtnConvergenceLayerAux inetNtop frm g buf buflen := by
  induction f with
  | zero => intro g buflen buf hf; omega
  | succ f ih =>
    intro g buflen buf hf hg
    obtain ⟨g, rfl⟩ : ∃ g', g = g' + 1 := ⟨g - 1, by omega⟩
    simp only [parseDtnConvergenceLayerAux]
    split_ifs with he hc hlen
    · rfl
    · rfl
    · rw [ih (g := g) (by omega) (by omega)]
    · rfl

/-- The equation of `parse_dtn_convergence_layer`. -/
theorem parseDtnConvergenceLayer_eq (frm : Sockaddr) (buf : Bytes) (buflen : ℕ) :
    parseDtnConvergenceLayer inetNtop frm buf buflen =
      if buf.head? = some 101 then some (0, [])
      else
        let (l, q) := strtol buf
        if q.head? = some 58 ∧ 5 < l then
          let consumed := buf.length - q.length + l.toNat + 1
          if buflen < consumed then none
          else
            match parseLayerText inetNtop frm q l.toNat with
            | none => none
            | some layer =>
              match parseDtnConvergenceLayer inetNtop frm (buf.drop consumed)
                  (buflen - consumed) with
              | some (pos, layers) => some (l.toNat + pos, layer :: layers)
              | none => none
        else none := by
  unfold parseDtnConvergenceLayer
  rw [parseDtnConvergenceLayerAux]
  simp only
  split_ifs with he hc hlen
  · rfl
  · rfl
  · rw [parseDtnConvergenceLayerAux_fuel inetNtop (f := buflen) (by omega) (Nat.lt_add_one _)]
  · rfl

/-- What `parse_dtn_message` leaves behind: its value (none for -1), the `tid` array and
`*tid_len`, and the result structure as far as it is filled. -/
structure DtnParse where
  message : Option MessageKind
  tid : Bytes
  tidLen : ℕ
  result : LookupResult
  deriving DecidableEq, Repr

/-- `parse_dtn_message`, the query: `buf` starts with `d1:ad3:eid`. -/
def parseDtnQuery (buf tid : Bytes) (tidLen : ℕ) : DtnParse :=
  match readField buf 10 (0 < ·) with
  | .malformed | .overflow => ⟨none, tid, tidLen, {}⟩
  | .value eid =>
    let result : LookupResult := { eid := some eid }
    match findInfix (str "e1:q3:dtn1:t") buf with
    | none => ⟨some .dtnQuery, tid, tidLen, result⟩
    | some p =>
      match readField buf (p + 12) (fun l => 0 < l && l < tidLen) with
      | .value t => ⟨some .dtnQuery, memcpy tid t t.length, t.length, result⟩
      | .malformed => ⟨some .dtnQuery, tid, 0, result⟩
      | .overflow => ⟨none, tid, tidLen, result⟩

/-- The position after the first `pat` in `buf` from `pos` on. -/
def findFrom (buf : Bytes) (pos : ℕ) (pat : Bytes) : Option ℕ :=
  (findInfix pat (buf.drop pos)).map (pos + · + pat.length)

/-- `parse_dtn_message`, the transaction id of a reply. -/
def parseReplyTid (buf : Bytes) (pos : ℕ) (tid : Bytes) (tidLen : ℕ) (result : LookupResult) :
    DtnParse :=
  match findFrom buf pos (str "e1:t") with
  | none => ⟨none, tid, tidLen, result⟩
  | some pos =>
    match readField buf pos (fun l => 0 < l && l < tidLen) with
    | .value t => ⟨some .dtnReply, memcpy tid t t.length, t.length, result⟩
    | .malformed => ⟨none, tid, 0, result⟩
    | .overflow => ⟨none, tid, tidLen, result⟩

/-- `parse_dtn_message`, the neighbours of a reply. -/
def parseReplyNeighbours (buf : Bytes) (pos : ℕ) (tid : Bytes) (tidLen : ℕ)
    (result : LookupResult) : DtnParse :=
  match findFrom buf pos (str "e2:nbl") with
  | none => ⟨none, tid, tidLen, result⟩
  | some pos =>
    match parseDtnEidList (buf.drop pos) (buf.length - pos) with
    | none => ⟨none, tid, tidLen, result⟩
    | some (n, neighbours) =>
      parseReplyTid buf (pos + n) tid tidLen { result with neighbours := neighbours }

/-- `parse_dtn_message`, the groups of a reply. -/
def parseReplyGroups (buf : Bytes) (pos : ℕ) (tid : Bytes) (tidLen : ℕ)
    (result : LookupResult) : DtnParse :=
  match findFrom buf pos (str "2:grl") with
  | none => ⟨none, tid, tidLen, result⟩
  | some pos =>
    match parseDtnEidList (buf.drop pos) (buf.length - pos) with
    | none => ⟨none, tid, tidLen, result⟩
    | some (n, groups) =>
      parseReplyNeighbours buf (pos + n) tid tidLen { result with groups := groups }

/-- `parse_dtn_message`, the EID of a reply. The position advances by the length of the EID, not
by that of its length prefix. -/
def parseReplyEid (buf : Bytes) (pos : ℕ) (tid : Bytes) (tidLen : ℕ) (result : LookupResult) :
    DtnParse :=
  match findFrom buf pos (str "e3:eid") with
  | none => ⟨none, tid, tidLen, result⟩
  | some pos =>
    match readField buf pos (5 < ·) with
    | .malformed | .overflow => ⟨none, tid, tidLen, result⟩
    | .value eid =>
      parseReplyGroups buf (pos + eid.length) tid tidLen { result with eid := some eid }

/-- `parse_dtn_message`, the reply: `buf` starts with `d1:rd2:cll`. The position advances by the
sum of the layers' lengths, without their length prefixes. -/
def parseDtnReply (frm : Sockaddr) (buf tid : Bytes) (tidLen : ℕ) : DtnParse :=
  match parseDtnConvergenceLayer inetNtop frm (buf.drop 10) (buf.length - 10) with
  | none => ⟨none, tid, tidLen, {}⟩
  | some (0, _) => ⟨none, tid, tidLen, {}⟩
  | some (n + 1, layers) => parseReplyEid buf (10 + (n + 1)) tid tidLen { clayer := layers }

/-- `parse_dtn_message` on a NUL-terminated buffer. -/
def parseDtnMessage (frm : Sockaddr) (buf tid : Bytes) (tidLen : ℕ) : DtnParse :=
  if (str "d1:ad3:eid").isPrefixOf buf then parseDtnQuery buf tid tidLen
  else if (str "d1:rd2:cll").isPrefixOf buf then parseDtnReply inetNtop frm buf tid tidLen
  else ⟨none, tid, tidLen, {}⟩

end Layers

end DtnDht
