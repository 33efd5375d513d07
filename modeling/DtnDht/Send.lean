import DtnDht.DtnMessage
import DtnDht.Id

/-!
# Sending

`dht_send` refuses blacklisted addresses and addresses of a family without a socket; what it hands
to `sendto` is a packet. The messages of the DHT proper are written like those of the DTN
extension: each definition under the source's name is the packet, or none when it does not fit.
-/

namespace DtnDht

open CString

/-- A call of `sendto`. -/
structure Packet where
  payload : Bytes
  flags : ℕ
  dest : Sockaddr
  destlen : ℕ
  deriving DecidableEq, Repr

/-- `MSG_CONFIRM`. -/
def msgConfirm : ℕ := 0x800

/-- What sending reads: the sockets, our own id and version, and `node_blacklisted`. -/
structure Net where
  dhtSocket : ℤ
  dhtSocket6 : ℤ
  myid : Id
  myV : Option Bytes
  nodeBlacklisted : Sockaddr → ℕ → Bool

/-- The packet `dht_send` hands to `sendto`, if any. -/
def dhtSend (net : Net) (buf : Bytes) (flags : ℕ) (sa : Sockaddr) (salen : ℕ) : List Packet :=
  if net.nodeBlacklisted sa salen then []
  else
    let s := if sa.family = afInet then net.dhtSocket
      else if sa.family = afInet6 then net.dhtSocket6 else -1
    if s < 0 then [] else [⟨buf, flags, sa, salen⟩]

/-- `dht_send` on a packet that may have failed to fit. -/
def dhtSendBuf (net : Net) (buf : Option Bytes) (flags : ℕ) (sa : Sockaddr) (salen : ℕ) :
    List Packet :=
  match buf with
  | none => []
  | some buf => dhtSend net buf flags sa salen

/-- A blacklisted address is sent nothing. -/
theorem dhtSend_of_nodeBlacklisted {net : Net} {sa : Sockaddr} {salen : ℕ}
    (h : net.nodeBlacklisted sa salen = true) (buf : Bytes) (flags : ℕ) :
    dhtSend net buf flags sa salen = [] := if_pos h

/-- What is sent is the packet that fits, to the address given. -/
theorem mem_dhtSendBuf {net : Net} {buf : Option Bytes} {flags salen : ℕ} {sa : Sockaddr}
    {p : Packet} (h : p ∈ dhtSendBuf net buf flags sa salen) :
    buf = some p.payload ∧ p.dest = sa := by
  unfold dhtSendBuf dhtSend at h
  cases buf with
  | none => exact absurd h List.not_mem_nil
  | some buf =>
    dsimp only at h
    split_ifs at h with hb hs hs
    all_goals first
      | exact absurd h List.not_mem_nil
      | rw [List.mem_singleton.mp h]; exact ⟨rfl, rfl⟩

/-- The socket of the family of an address. -/
def Net.socket (net : Net) (sa : Sockaddr) : ℤ :=
  if sa.family = afInet then net.dhtSocket
  else if sa.family = afInet6 then net.dhtSocket6 else -1

theorem dhtSendBuf_of_socket_neg {net : Net} {sa : Sockaddr} (h : net.socket sa < 0) (buf : Option Bytes)
    (flags salen : ℕ) : dhtSendBuf net buf flags sa salen = [] := by
  cases buf with
  | none => rfl
  | some buf =>
    unfold dhtSendBuf dhtSend
    dsimp only
    by_cases hb : net.nodeBlacklisted sa salen = true
    · exact if_pos hb
    · rw [if_neg hb]
      exact if_pos h

theorem dhtSendBuf_of_socket {net : Net} {sa : Sockaddr} {salen : ℕ}
    (hb : net.nodeBlacklisted sa salen = false) (h : 0 ≤ net.socket sa) (buf : Bytes) (flags : ℕ) :
    dhtSendBuf net (some buf) flags sa salen = [⟨buf, flags, sa, salen⟩] := by
  have hb' : ¬ net.nodeBlacklisted sa salen = true := by rw [hb]; exact Bool.false_ne_true
  unfold dhtSendBuf dhtSend
  dsimp only
  rw [if_neg hb']
  exact if_neg (not_lt.mpr h)

/-! ## Transaction ids -/

/-- `make_tid`; the sequence number is in host order. -/
def makeTid (kind : Bytes) (seqno : UInt16) : Bytes :=
  kind ++ [UInt8.ofNat (seqno.toNat % 256), UInt8.ofNat (seqno.toNat / 256)]

/-- `tid_match`. -/
def tidMatch (tid kind : Bytes) : Bool := tid.take 2 == kind

/-- The sequence number `tid_match` returns. -/
def tidSeqno (tid : Bytes) : UInt16 :=
  UInt16.ofNat ((tid.getD 2 0).toNat + 256 * (tid.getD 3 0).toNat)

/-! ## Messages -/

/-- `WANT4`. -/
def want4 : ℕ := 1

/-- `WANT6`. -/
def want6 : ℕ := 2

/-- The `want` entry, left out unless `want > 0`. -/
def addWant (want : ℤ) (buf : Bytes) : Option Bytes :=
  if 0 < want then
    inc 512 (str "4:wantl" ++ (if want.toNat &&& want4 ≠ 0 then str "2:n4" else []) ++
      (if want.toNat &&& want6 ≠ 0 then str "2:n6" else []) ++ str "e") buf
  else some buf

variable (net : Net) (tid : Bytes)

/-- `send_ping`. -/
def sendPing : Option Bytes := do
  let buf ← inc 512 (str "d1:ad2:id20:") []
  let buf ← copy 512 net.myid.bytes buf
  let buf ← inc 512 (str "e1:q4:ping1:t" ++ decimal tid.length ++ str ":") buf
  let buf ← copy 512 tid buf
  let buf ← addV 512 net.myV buf
  inc 512 (str "1:y1:qe") buf

/-- `send_pong`. -/
def sendPong : Option Bytes := do
  let buf ← inc 512 (str "d1:rd2:id20:") []
  let buf ← copy 512 net.myid.bytes buf
  let buf ← inc 512 (str "e1:t" ++ decimal tid.length ++ str ":") buf
  let buf ← copy 512 tid buf
  let buf ← addV 512 net.myV buf
  inc 512 (str "1:y1:re") buf

/-- `send_find_node`. -/
def sendFindNode (target : Id) (want : ℤ) : Option Bytes := do
  let buf ← inc 512 (str "d1:ad2:id20:") []
  let buf ← copy 512 net.myid.bytes buf
  let buf ← inc 512 (str "6:target20:") buf
  let buf ← copy 512 target.bytes buf
  let buf ← addWant want buf
  let buf ← inc 512 (str "e1:q9:find_node1:t" ++ decimal tid.length ++ str ":") buf
  let buf ← copy 512 tid buf
  let buf ← addV 512 net.myV buf
  inc 512 (str "1:y1:qe") buf

/-- `send_get_peers`. -/
def sendGetPeers (infohash : Id) (want : ℤ) : Option Bytes := do
  let buf ← inc 512 (str "d1:ad2:id20:") []
  let buf ← copy 512 net.myid.bytes buf
  let buf ← inc 512 (str "9:info_hash20:") buf
  let buf ← copy 512 infohash.bytes buf
  let buf ← addWant want buf
  let buf ← inc 512 (str "e1:q9:get_peers1:t" ++ decimal tid.length ++ str ":") buf
  let buf ← copy 512 tid buf
  let buf ← addV 512 net.myV buf
  inc 512 (str "1:y1:qe") buf

/-- `send_announce_peer`. -/
def sendAnnouncePeer (infohash : Id) (port : UInt16) (token : Bytes) : Option Bytes := do
  let buf ← inc 512 (str "d1:ad2:id20:") []
  let buf ← copy 512 net.myid.bytes buf
  let buf ← inc 512 (str "9:info_hash20:") buf
  let buf ← copy 512 infohash.bytes buf
  let buf ← inc 512 (str "4:porti" ++ decimal port.toNat ++ str "e5:token" ++
    decimal token.length ++ str ":") buf
  let buf ← copy 512 token buf
  let buf ← inc 512 (str "e1:q13:announce_peer1:t" ++ decimal tid.length ++ str ":") buf
  let buf ← copy 512 tid buf
  let buf ← addV 512 net.myV buf
  inc 512 (str "1:y1:qe") buf

/-- `send_peer_announced`. -/
def sendPeerAnnounced : Option Bytes := sendPong net tid

/-- `send_error`. -/
def sendError (code : ℕ) (message : Bytes) : Option Bytes := do
  let buf ← inc 512 (str "d1:eli" ++ decimal code ++ str "e" ++ decimal message.length ++
    str ":") []
  let buf ← copy 512 message buf
  let buf ← inc 512 (str "e1:t" ++ decimal tid.length ++ str ":") buf
  let buf ← copy 512 tid buf
  let buf ← addV 512 net.myV buf
  inc 512 (str "1:y1:ee") buf

end DtnDht
