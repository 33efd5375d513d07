import DtnDht.DtnMessage
import DtnDht.Id

/-!
# The messages of the DHT

`parse_message` searches the buffer for each field it knows, wherever it stands. A buffer is the
list of its bytes; its terminating NUL is the end of the list.
-/

namespace DtnDht

open CString Occurrence

/-- What `parse_message` fills in when it does not return -1. The `tid` array may be longer than
`*tid_len`; it and its length keep their old values when there is no transaction id. -/
structure Message where
  kind : MessageKind
  tid : Bytes
  tidLen : ℕ
  id : Id
  infoHash : Id
  target : Id
  port : UInt16
  token : Bytes
  nodes : Bytes
  nodes6 : Bytes
  values : Bytes
  values6 : Bytes
  want : ℤ
  deriving DecidableEq

/-- The bytes of the transaction id. -/
def Message.tidBytes (m : Message) : Bytes := m.tid.take m.tidLen

/-- A field of 20 bytes, zeros if it is missing, and none if it passes the end. -/
def parseId (buf key : Bytes) : Option Id :=
  match findInfix key buf with
  | none => some Id.zeroes
  | some p =>
    let bs := buf.drop (p + key.length)
    if bs.length < 20 then none else some (Id.ofBytes bs)

/-- A string of less than `size` bytes, empty if it is missing or malformed, and none if it passes
the end. -/
def parseString (buf key : Bytes) (size : ℕ) : Option Bytes :=
  match findInfix key buf with
  | none => some []
  | some p =>
    match readField buf (p + key.length) (fun l => 0 < l && l < size) with
    | .value s => some s
    | .malformed => some []
    | .overflow => none

/-- The transaction id: the array and its length. -/
def parseTid (buf tid : Bytes) (tidLen : ℕ) : Option (Bytes × ℕ) :=
  match findInfix (str "1:t") buf with
  | none => some (tid, tidLen)
  | some p =>
    match readField buf (p + 3) (fun l => 0 < l && l < tidLen) with
    | .value t => some (memcpy tid t t.length, t.length)
    | .malformed => some (tid, 0)
    | .overflow => none

/-- The port, 0 if it is missing or malformed. -/
def parsePort (buf : Bytes) : UInt16 :=
  match findInfix (str "porti") buf with
  | none => 0
  | some p =>
    let (l, q) := strtol (buf.drop (p + 5))
    if q.head? = some 101 ∧ 0 < l ∧ l < 0x10000 then UInt16.ofNat l.toNat else 0

/-- The loop over the values, from the bytes `buf + i` on; `values` and `values6` are those read
so far. A value that does not fit is passed over. -/
def parseValuesFrom : ℕ → Bytes → Bytes → Bytes → Option (Bytes × Bytes)
  | 0, _, values, values6 => some (values, values6)
  | fuel + 1, buf, values, values6 =>
    let (l, q) := strtol buf
    if q.head? = some 58 ∧ 0 < l then
      if q.tail.length < l.toNat then none
      else
        let value := q.tail.take l.toNat
        let rest := q.tail.drop l.toNat
        if l = 6 ∧ values.length + 6 ≤ 2048 then
          parseValuesFrom fuel rest (values ++ value) values6
        else if l = 18 ∧ values6.length + 18 ≤ 2048 then
          parseValuesFrom fuel rest values (values6 ++ value)
        else parseValuesFrom fuel rest values values6
    else some (values, values6)

/-- The values. -/
def parseValues (buf : Bytes) : Option (Bytes × Bytes) :=
  match findInfix (str "6:valuesl") buf with
  | none => some ([], [])
  | some p => parseValuesFrom (buf.length + 1) (buf.drop (p + 9)) [] []

/-- The loop over the wanted families, from the bytes `buf + i` on. -/
def parseWantFrom : ℕ → Bytes → ℕ → ℕ
  | 0, _, want => want
  | fuel + 1, buf, want =>
    match buf with
    | c :: 58 :: rest =>
      let n := c.toNat - 48
      if 48 < c ∧ c ≤ 57 ∧ n < rest.length then
        let want :=
          if c = 50 ∧ rest.take 2 = str "n4" then want ||| 1
          else if c = 50 ∧ rest.take 2 = str "n6" then want ||| 2
          else want
        parseWantFrom fuel (rest.drop n) want
      else want
    | _ => want

/-- The wanted families, -1 if they are missing. -/
def parseWant (buf : Bytes) : ℤ :=
  match findInfix (str "4:wantl") buf with
  | none => -1
  | some p => parseWantFrom (buf.length + 1) (buf.drop (p + 7)) 0

/-- The kind of the message, none for -1. -/
def parseKind (buf : Bytes) : Option MessageKind :=
  let has (key : String) : Bool := (findInfix (str key) buf).isSome
  if has "1:y1:r" then some .reply
  else if has "1:y1:e" then some .error
  else if !has "1:y1:q" then none
  else if has "1:q4:ping" then some .ping
  else if has "1:q9:find_node" then some .findNode
  else if has "1:q9:get_peers" then some .getPeers
  else if has "1:q13:announce_peer" then some .announcePeer
  else none

/-- `parse_message` on a NUL-terminated buffer, with the array for the transaction id and its
length; none for -1. -/
def parseMessage (buf tid : Bytes) (tidLen : ℕ) : Option Message := do
  let (tid, tidLen) ← parseTid buf tid tidLen
  let id ← parseId buf (str "2:id20:")
  let infoHash ← parseId buf (str "9:info_hash20:")
  let port := parsePort buf
  let target ← parseId buf (str "6:target20:")
  let token ← parseString buf (str "5:token") 128
  let nodes ← parseString buf (str "5:nodes") 256
  let nodes6 ← parseString buf (str "6:nodes6") 1024
  let (values, values6) ← parseValues buf
  let want := parseWant buf
  let kind ← parseKind buf
  return {
    kind, tid, tidLen, id, infoHash, target, port, token, nodes, nodes6, values, values6, want }

end DtnDht
