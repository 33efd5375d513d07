import DtnDht.Maintenance
import DtnDht.Storage

/-!
# Answers with nodes and peers

`send_closest_nodes` gathers the 8 good nodes closest to an id from its bucket and the two next to
it; `send_nodes_peers` writes them out, with up to 50 stored peers.
-/

namespace DtnDht

open CString

/-- The loop of `insert_closest_node`. -/
def insertClosestNodeAt (id : Id) (n : Node) : List Node → List Node
  | [] => [n]
  | m :: nodes =>
    if idCmp n.id m.id = .eq then m :: nodes
    else if xorcmp n.id m.id id < 0 then n :: m :: nodes
    else m :: insertClosestNodeAt id n nodes

/-- `insert_closest_node`. -/
def insertClosestNode (nodes : List Node) (id : Id) (n : Node) : List Node :=
  (insertClosestNodeAt id n nodes).take 8

/-- `buffer_closest_nodes`. -/
def bufferClosestNodes (now : ℤ) (nodes : List Node) (id : Id) (b : Bucket) : List Node :=
  b.nodes.foldl (fun nodes n => if nodeGood now n then insertClosestNode nodes id n else nodes)
    nodes

/-- The nodes of a family that `send_closest_nodes` gathers. -/
def Routing.closestNodes (now : ℤ) (r : Routing) (id : Id) (af : ℕ) : List Node :=
  match r.findBucket id af with
  | none => []
  | some i =>
    let buffer (nodes : List Node) (i : ℕ) : List Node :=
      (r.table af)[i]?.elim nodes (bufferClosestNodes now nodes id)
    let nodes := buffer (buffer [] i) (i + 1)
    (previousBucket i).elim nodes (buffer nodes)

/-- The record of a node: id, address and port. -/
def nodeRecord (n : Node) : Bytes := n.id.bytes ++ n.ss.ip ++ n.ss.port

/-- A run of nodes after its key. -/
def addNodes (key nodes buf : Bytes) : Option Bytes :=
  if nodes = [] then some buf
  else do
    let buf ← inc 2048 (key ++ decimal nodes.length ++ str ":") buf
    copy 2048 nodes buf

/-- A stored peer, as `send_nodes_peers` writes it. -/
def sendPeer (buf : Bytes) (p : Peer) : Option Bytes := do
  let buf ← inc 2048 (decimal (p.ip.length + 2) ++ str ":") buf
  let buf ← copy 2048 p.ip buf
  copy 2048 [UInt8.ofNat (p.port.toNat / 256), UInt8.ofNat (p.port.toNat % 256)] buf

/-- "We treat the storage as a circular list, and serve a randomly chosen slice." -/
def servedPeers (af : ℕ) (peers : List Peer) (j0 : ℕ) : List Peer :=
  ((peers.drop j0 ++ peers.take j0).filter
    fun p => p.ip.length = if af = afInet then 4 else 16).take 50

/-- The packet of `send_nodes_peers`, or none when it does not fit; `peers` are those served, if a
storage is given. -/
def sendNodesPeers (net : Net) (tid nodes nodes6 : Bytes) (peers : Option (List Peer))
    (token : Bytes) : Option Bytes := do
  let buf ← inc 2048 (str "d1:rd2:id20:") []
  let buf ← copy 2048 net.myid.bytes buf
  let buf ← addNodes (str "5:nodes") nodes buf
  let buf ← addNodes (str "6:nodes6") nodes6 buf
  let buf ← addNodes (str "5:token") token buf
  let buf ←
    match peers with
    | none => some buf
    | some peers => do
      let buf ← inc 2048 (str "6:valuesl") buf
      let buf ← peers.foldlM sendPeer buf
      inc 2048 (str "e") buf
  let buf ← inc 2048 (str "e1:t" ++ decimal tid.length ++ str ":") buf
  let buf ← copy 2048 tid buf
  let buf ← addV 2048 net.myV buf
  inc 2048 (str "1:y1:re") buf

/-- `send_closest_nodes`. -/
def sendClosestNodes (net : Net) (now : ℤ) (r : Routing) (sa : Sockaddr) (salen : ℕ)
    (tid : Bytes) (id : Id) (want : ℤ) (af : ℕ) (st : Option Storage) (token : Bytes)
    (rs : Random) : List Packet × Random :=
  let want := if want < 0 then (if sa.family = afInet then want4 else want6) else want.toNat
  let gather (flag af : ℕ) : Bytes :=
    if want &&& flag ≠ 0 then (r.closestNodes now id af).flatMap nodeRecord else []
  let (peers, rs) : Option (List Peer) × Random :=
    match st with
    | none => (none, rs)
    | some st =>
      if st.peers = [] then (none, rs)
      else
        let (x, rs) := random rs
        (some (servedPeers af st.peers (x % st.peers.length)), rs)
  (dhtSendBuf net
    (sendNodesPeers net tid (gather want4 afInet) (gather want6 afInet6) peers token) 0 sa salen,
    rs)

/-! ## What it sends -/

/-- `want` as `send_closest_nodes` reads it. -/
def requested (sa : Sockaddr) (want : ℤ) : ℕ :=
  if want < 0 then (if sa.family = afInet then want4 else want6) else want.toNat

/-- The peers that an answer carries; `x` is what `random` returns. -/
def answerPeers (af x : ℕ) : Option Storage → Option (List Peer)
  | none => none
  | some st => if st.peers = [] then none else some (servedPeers af st.peers (x % st.peers.length))

/-- `send_closest_nodes` sends one packet, if any. -/
theorem sendClosestNodes_fst (net : Net) (now : ℤ) (r : Routing) (sa : Sockaddr) (salen : ℕ)
    (tid : Bytes) (id : Id) (want : ℤ) (af : ℕ) (st : Option Storage) (token : Bytes)
    (rs : Random) :
    (sendClosestNodes net now r sa salen tid id want af st token rs).1 =
      dhtSendBuf net (sendNodesPeers net tid
        (if requested sa want &&& want4 ≠ 0 then
          (r.closestNodes now id afInet).flatMap nodeRecord else [])
        (if requested sa want &&& want6 ≠ 0 then
          (r.closestNodes now id afInet6).flatMap nodeRecord else [])
        (answerPeers af (random rs).1 st) token) 0 sa salen := by
  unfold sendClosestNodes answerPeers
  cases st with
  | none => rfl
  | some st =>
    dsimp only
    by_cases hempty : st.peers = []
    · rw [if_pos hempty, if_pos hempty]
      rfl
    · rw [if_neg hempty, if_neg hempty]
      rfl

theorem length_closestNodes_le (now : ℤ) (r : Routing) (id : Id) (af : ℕ) :
    (r.closestNodes now id af).length ≤ 8 := by
  have hinsert (nodes : List Node) (n : Node) : (insertClosestNode nodes id n).length ≤ 8 :=
    List.length_take_le 8 _
  have hbuffer (nodes : List Node) (b : Bucket) (h : nodes.length ≤ 8) :
      (bufferClosestNodes now nodes id b).length ≤ 8 := by
    unfold bufferClosestNodes
    induction b.nodes generalizing nodes with
    | nil => exact h
    | cons n ns ih =>
      rw [List.foldl_cons]
      apply ih
      split_ifs
      · exact hinsert nodes n
      · exact h
  have helim (nodes : List Node) (b : Option Bucket) (h : nodes.length ≤ 8) :
      (b.elim nodes (bufferClosestNodes now nodes id)).length ≤ 8 := by
    cases b with
    | none => exact h
    | some b => exact hbuffer nodes b h
  unfold Routing.closestNodes
  cases r.findBucket id af with
  | none => exact Nat.zero_le 8
  | some i =>
    have h := helim _ ((r.table af)[i + 1]?) (helim [] ((r.table af)[i]?) (Nat.zero_le 8))
    dsimp only
    cases previousBucket i with
    | none => exact h
    | some j => exact helim _ ((r.table af)[j]?) h

end DtnDht
