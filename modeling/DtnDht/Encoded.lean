import DtnDht.ClosestNodes

/-!
# The texts of the messages

What the encoders of the DHT write when it fits, and that it does: 512 bytes for all messages but
the answer with nodes and peers, which gets 2048.
-/

namespace DtnDht

open CString

/-! ## The end of a message -/

/-- The version string, which has 9 bytes if there is one. -/
def Net.version (net : Net) : Bytes := net.myV.getD []

/-- Like `my_v[9]`. -/
def Net.VersionFits (net : Net) : Prop := net.version.length ≤ 9

/-- The transaction id, the version and the kind of a message; `key` is what stands in front of the
length of the transaction id. -/
def ending (net : Net) (key : String) (tid : Bytes) (kind : String) : Bytes :=
  str key ++ decimal tid.length ++ str ":" ++ (tid ++ (net.version ++ str kind))

variable {net : Net} {tid : Bytes}

theorem appends_addV (size : ℕ) (v : Option Bytes) : Appends size (v.getD []) (addV size v) := by
  cases v with
  | none => exact appends_pure size
  | some v => exact appends_copy size v

theorem appends_ending (size : ℕ) (net : Net) (key : String) (tid : Bytes) (kind : String) :
    Appends size (ending net key tid kind) (fun buf => do
      let buf ← inc size (str key ++ decimal tid.length ++ str ":") buf
      let buf ← copy size tid buf
      let buf ← addV size net.myV buf
      inc size (str kind) buf) :=
  (appends_inc _ _).bind ((appends_copy _ _).bind ((appends_addV _ _).bind (appends_inc _ _)))

theorem length_ending_le (hv : net.VersionFits) (htid : tid.length ≤ 16) (key kind : String) :
    (ending net key tid kind).length ≤ (str key).length + (str kind).length + 28 := by
  have hdec := length_decimal_le (n := tid.length) (k := 2) (by decide) (by omega)
  unfold Net.VersionFits at hv
  simp only [ending, List.length_append, show (str ":").length = 1 from rfl]
  omega

/-! ## Queries -/

/-- The text of `send_ping`. -/
def pingText (net : Net) (tid : Bytes) : Bytes :=
  str "d1:ad2:id20:" ++ (net.myid.bytes ++ ending net "e1:q4:ping1:t" tid "1:y1:qe")

theorem sendPing_eq (hv : net.VersionFits) (htid : tid.length ≤ 16) :
    sendPing net tid = some (pingText net tid) := by
  have h : Appends 512 (pingText net tid) (fun buf => do
      let buf ← inc 512 (str "d1:ad2:id20:") buf
      let buf ← copy 512 net.myid.bytes buf
      let buf ← inc 512 (str "e1:q4:ping1:t" ++ decimal tid.length ++ str ":") buf
      let buf ← copy 512 tid buf
      let buf ← addV 512 net.myV buf
      inc 512 (str "1:y1:qe") buf) :=
    (appends_inc _ _).bind ((appends_copy _ _).bind (appends_ending _ _ _ _ _))
  refine h [] ?_
  have hend := length_ending_le hv htid "e1:q4:ping1:t" "1:y1:qe"
  simp only [pingText, List.length_append, net.myid.length_bytes, List.length_nil,
    show (str "d1:ad2:id20:").length = 12 from rfl, show (str "e1:q4:ping1:t").length = 13 from rfl,
    show (str "1:y1:qe").length = 7 from rfl] at hend ⊢
  omega

/-- The `want` entry. -/
def wantText (want : ℤ) : Bytes :=
  if 0 < want then
    str "4:wantl" ++ (if want.toNat &&& want4 ≠ 0 then str "2:n4" else []) ++
      (if want.toNat &&& want6 ≠ 0 then str "2:n6" else []) ++ str "e"
  else []

theorem appends_addWant (want : ℤ) : Appends 512 (wantText want) (addWant want) := by
  unfold wantText addWant
  split_ifs
  all_goals first
    | exact appends_inc _ _
    | exact appends_pure _

theorem length_wantText_le (want : ℤ) : (wantText want).length ≤ 16 := by
  unfold wantText
  split_ifs <;> decide

/-- The text of `send_find_node`. -/
def findNodeText (net : Net) (tid : Bytes) (target : Id) (want : ℤ) : Bytes :=
  str "d1:ad2:id20:" ++ (net.myid.bytes ++ (str "6:target20:" ++ (target.bytes ++
    (wantText want ++ ending net "e1:q9:find_node1:t" tid "1:y1:qe"))))

theorem sendFindNode_eq (hv : net.VersionFits) (htid : tid.length ≤ 16) (target : Id) (want : ℤ) :
    sendFindNode net tid target want = some (findNodeText net tid target want) := by
  have h : Appends 512 (findNodeText net tid target want) (fun buf => do
      let buf ← inc 512 (str "d1:ad2:id20:") buf
      let buf ← copy 512 net.myid.bytes buf
      let buf ← inc 512 (str "6:target20:") buf
      let buf ← copy 512 target.bytes buf
      let buf ← addWant want buf
      let buf ← inc 512 (str "e1:q9:find_node1:t" ++ decimal tid.length ++ str ":") buf
      let buf ← copy 512 tid buf
      let buf ← addV 512 net.myV buf
      inc 512 (str "1:y1:qe") buf) :=
    (appends_inc _ _).bind ((appends_copy _ _).bind ((appends_inc _ _).bind
      ((appends_copy _ _).bind ((appends_addWant _).bind (appends_ending _ _ _ _ _)))))
  refine h [] ?_
  have hend := length_ending_le hv htid "e1:q9:find_node1:t" "1:y1:qe"
  have hwant := length_wantText_le want
  simp only [findNodeText, List.length_append, net.myid.length_bytes, target.length_bytes,
    List.length_nil, show (str "d1:ad2:id20:").length = 12 from rfl,
    show (str "6:target20:").length = 11 from rfl,
    show (str "e1:q9:find_node1:t").length = 18 from rfl,
    show (str "1:y1:qe").length = 7 from rfl] at hend ⊢
  omega

/-- The text of `send_get_peers`. -/
def getPeersText (net : Net) (tid : Bytes) (infohash : Id) (want : ℤ) : Bytes :=
  str "d1:ad2:id20:" ++ (net.myid.bytes ++ (str "9:info_hash20:" ++ (infohash.bytes ++
    (wantText want ++ ending net "e1:q9:get_peers1:t" tid "1:y1:qe"))))

theorem sendGetPeers_eq (hv : net.VersionFits) (htid : tid.length ≤ 16) (infohash : Id)
    (want : ℤ) :
    sendGetPeers net tid infohash want = some (getPeersText net tid infohash want) := by
  have h : Appends 512 (getPeersText net tid infohash want) (fun buf => do
      let buf ← inc 512 (str "d1:ad2:id20:") buf
      let buf ← copy 512 net.myid.bytes buf
      let buf ← inc 512 (str "9:info_hash20:") buf
      let buf ← copy 512 infohash.bytes buf
      let buf ← addWant want buf
      let buf ← inc 512 (str "e1:q9:get_peers1:t" ++ decimal tid.length ++ str ":") buf
      let buf ← copy 512 tid buf
      let buf ← addV 512 net.myV buf
      inc 512 (str "1:y1:qe") buf) :=
    (appends_inc _ _).bind ((appends_copy _ _).bind ((appends_inc _ _).bind
      ((appends_copy _ _).bind ((appends_addWant _).bind (appends_ending _ _ _ _ _)))))
  refine h [] ?_
  have hend := length_ending_le hv htid "e1:q9:get_peers1:t" "1:y1:qe"
  have hwant := length_wantText_le want
  simp only [getPeersText, List.length_append, net.myid.length_bytes, infohash.length_bytes,
    List.length_nil, show (str "d1:ad2:id20:").length = 12 from rfl,
    show (str "9:info_hash20:").length = 14 from rfl,
    show (str "e1:q9:get_peers1:t").length = 18 from rfl,
    show (str "1:y1:qe").length = 7 from rfl] at hend ⊢
  omega

/-- The text of `send_announce_peer`. -/
def announcePeerText (net : Net) (tid : Bytes) (infohash : Id) (port : UInt16) (token : Bytes) :
    Bytes :=
  str "d1:ad2:id20:" ++ (net.myid.bytes ++ (str "9:info_hash20:" ++ (infohash.bytes ++
    (str "4:porti" ++ decimal port.toNat ++ str "e5:token" ++ decimal token.length ++ str ":" ++
      (token ++ ending net "e1:q13:announce_peer1:t" tid "1:y1:qe")))))

theorem sendAnnouncePeer_eq (hv : net.VersionFits) (htid : tid.length ≤ 16) (infohash : Id)
    (port : UInt16) {token : Bytes} (htoken : token.length ≤ 40) :
    sendAnnouncePeer net tid infohash port token =
      some (announcePeerText net tid infohash port token) := by
  have h : Appends 512 (announcePeerText net tid infohash port token) (fun buf => do
      let buf ← inc 512 (str "d1:ad2:id20:") buf
      let buf ← copy 512 net.myid.bytes buf
      let buf ← inc 512 (str "9:info_hash20:") buf
      let buf ← copy 512 infohash.bytes buf
      let buf ← inc 512 (str "4:porti" ++ decimal port.toNat ++ str "e5:token" ++
        decimal token.length ++ str ":") buf
      let buf ← copy 512 token buf
      let buf ← inc 512 (str "e1:q13:announce_peer1:t" ++ decimal tid.length ++ str ":") buf
      let buf ← copy 512 tid buf
      let buf ← addV 512 net.myV buf
      inc 512 (str "1:y1:qe") buf) :=
    (appends_inc _ _).bind ((appends_copy _ _).bind ((appends_inc _ _).bind
      ((appends_copy _ _).bind ((appends_inc _ _).bind ((appends_copy _ _).bind
        (appends_ending _ _ _ _ _))))))
  refine h [] ?_
  have hend := length_ending_le hv htid "e1:q13:announce_peer1:t" "1:y1:qe"
  have hport := length_decimal_le (n := port.toNat) (k := 5) (by decide)
    (port.toNat_lt.trans (by decide))
  have hlen := length_decimal_le (n := token.length) (k := 2) (by decide) (by omega)
  simp only [announcePeerText, List.length_append, net.myid.length_bytes, infohash.length_bytes,
    List.length_nil, show (str "d1:ad2:id20:").length = 12 from rfl,
    show (str "9:info_hash20:").length = 14 from rfl, show (str "4:porti").length = 7 from rfl,
    show (str "e5:token").length = 8 from rfl, show (str ":").length = 1 from rfl,
    show (str "e1:q13:announce_peer1:t").length = 23 from rfl,
    show (str "1:y1:qe").length = 7 from rfl] at hend ⊢
  omega

/-! ## Replies -/

/-- The text of `send_pong` and `send_peer_announced`. -/
def pongText (net : Net) (tid : Bytes) : Bytes :=
  str "d1:rd2:id20:" ++ (net.myid.bytes ++ ending net "e1:t" tid "1:y1:re")

theorem sendPong_eq (hv : net.VersionFits) (htid : tid.length ≤ 16) :
    sendPong net tid = some (pongText net tid) := by
  have h : Appends 512 (pongText net tid) (fun buf => do
      let buf ← inc 512 (str "d1:rd2:id20:") buf
      let buf ← copy 512 net.myid.bytes buf
      let buf ← inc 512 (str "e1:t" ++ decimal tid.length ++ str ":") buf
      let buf ← copy 512 tid buf
      let buf ← addV 512 net.myV buf
      inc 512 (str "1:y1:re") buf) :=
    (appends_inc _ _).bind ((appends_copy _ _).bind (appends_ending _ _ _ _ _))
  refine h [] ?_
  have hend := length_ending_le hv htid "e1:t" "1:y1:re"
  simp only [pongText, List.length_append, net.myid.length_bytes, List.length_nil,
    show (str "d1:rd2:id20:").length = 12 from rfl, show (str "e1:t").length = 4 from rfl,
    show (str "1:y1:re").length = 7 from rfl] at hend ⊢
  omega

/-- The text of `send_error`. -/
def errorText (net : Net) (tid : Bytes) (code : ℕ) (message : Bytes) : Bytes :=
  str "d1:eli" ++ decimal code ++ str "e" ++ decimal message.length ++ str ":" ++
    (message ++ ending net "e1:t" tid "1:y1:ee")

theorem sendError_eq (hv : net.VersionFits) (htid : tid.length ≤ 16) {code : ℕ}
    (hcode : code < 1000) {message : Bytes} (hmessage : message.length < 100) :
    sendError net tid code message = some (errorText net tid code message) := by
  have h : Appends 512 (errorText net tid code message) (fun buf => do
      let buf ← inc 512 (str "d1:eli" ++ decimal code ++ str "e" ++ decimal message.length ++
        str ":") buf
      let buf ← copy 512 message buf
      let buf ← inc 512 (str "e1:t" ++ decimal tid.length ++ str ":") buf
      let buf ← copy 512 tid buf
      let buf ← addV 512 net.myV buf
      inc 512 (str "1:y1:ee") buf) :=
    (appends_inc _ _).bind ((appends_copy _ _).bind (appends_ending _ _ _ _ _))
  refine h [] ?_
  have hend := length_ending_le hv htid "e1:t" "1:y1:ee"
  have hdec := length_decimal_le (n := code) (k := 3) (by decide) hcode
  have hlen := length_decimal_le (n := message.length) (k := 2) (by decide) hmessage
  simp only [errorText, List.length_append, List.length_nil, show (str "d1:eli").length = 6 from rfl,
    show (str "e").length = 1 from rfl, show (str ":").length = 1 from rfl,
    show (str "e1:t").length = 4 from rfl, show (str "1:y1:ee").length = 7 from rfl] at hend ⊢
  omega

/-! ## Nodes and peers -/

/-- A string with its key, left out if it is empty. -/
def fieldText (key : String) (s : Bytes) : Bytes :=
  if s = [] then [] else str key ++ decimal s.length ++ str ":" ++ s

theorem appends_addNodes (key : String) (s : Bytes) :
    Appends 2048 (fieldText key s) (addNodes (str key) s) := by
  unfold fieldText addNodes
  split_ifs
  · exact appends_pure _
  · exact (appends_inc _ _).bind (appends_copy _ _)

theorem length_fieldText_le (key : String) {s : Bytes} (hs : s.length < 1000) :
    (fieldText key s).length ≤ (str key).length + s.length + 4 := by
  have hlen := length_decimal_le (n := s.length) (k := 3) (by decide) hs
  unfold fieldText
  split_ifs
  · exact Nat.zero_le _
  · simp only [List.length_append, show (str ":").length = 1 from rfl]
    omega

/-- The address and the port of a peer. -/
def peerBytes (p : Peer) : Bytes :=
  p.ip ++ [UInt8.ofNat (p.port.toNat / 256), UInt8.ofNat (p.port.toNat % 256)]

/-- A peer in the list of values. -/
def peerText (p : Peer) : Bytes := decimal (p.ip.length + 2) ++ str ":" ++ peerBytes p

theorem appends_sendPeer (p : Peer) : Appends 2048 (peerText p) (fun buf => sendPeer buf p) :=
  (appends_inc _ _).bind ((appends_copy _ _).bind (appends_copy _ _))

theorem length_peerText_le {p : Peer} (hp : p.ip.length ≤ 16) : (peerText p).length ≤ 21 := by
  have hlen := length_decimal_le (n := p.ip.length + 2) (k := 2) (by decide) (by omega)
  simp only [peerText, peerBytes, List.length_append, List.length_cons, List.length_nil,
    show (str ":").length = 1 from rfl]
  omega

/-- The list of values, left out if there is no storage. -/
def valuesText (peers : Option (List Peer)) : Bytes :=
  peers.elim [] fun peers => str "6:valuesl" ++ (peers.flatMap peerText ++ str "e")

/-- The text of `send_nodes_peers`. -/
def nodesPeersText (net : Net) (tid nodes nodes6 : Bytes) (peers : Option (List Peer))
    (token : Bytes) : Bytes :=
  str "d1:rd2:id20:" ++ (net.myid.bytes ++ (fieldText "5:nodes" nodes ++
    (fieldText "6:nodes6" nodes6 ++ (fieldText "5:token" token ++
      (valuesText peers ++ ending net "e1:t" tid "1:y1:re")))))

/-- The peers that are served: at most 50, with addresses of at most 16 bytes. -/
def PeersFit (peers : Option (List Peer)) : Prop :=
  ∀ ps ∈ peers, ps.length ≤ 50 ∧ ∀ p ∈ ps, p.ip.length ≤ 16

theorem length_valuesText_le {peers : Option (List Peer)} (hpeers : PeersFit peers) :
    (valuesText peers).length ≤ 1060 := by
  cases peers with
  | none => exact Nat.zero_le _
  | some ps =>
    obtain ⟨hcount, hip⟩ := hpeers ps rfl
    have hle : (ps.flatMap peerText).length ≤ ps.length * 21 := by
      rw [List.length_flatMap]
      refine (List.sum_le_card_nsmul _ 21 fun n hn => ?_).trans (by simp)
      obtain ⟨p, hp, rfl⟩ := List.mem_map.mp hn
      exact length_peerText_le (hip p hp)
    simp only [valuesText, Option.elim_some, List.length_append,
      show (str "6:valuesl").length = 9 from rfl, show (str "e").length = 1 from rfl]
    omega

/-- The values of a reply to `get_peers`, if there are any. -/
def addValues (peers : Option (List Peer)) (buf : Bytes) : Option Bytes :=
  match peers with
  | none => some buf
  | some peers => do
    let buf ← inc 2048 (str "6:valuesl") buf
    let buf ← peers.foldlM sendPeer buf
    inc 2048 (str "e") buf

theorem appends_addValues (peers : Option (List Peer)) :
    Appends 2048 (valuesText peers) (addValues peers) := by
  cases peers with
  | none => exact appends_pure _
  | some ps =>
    exact (appends_inc _ _).bind ((Appends.foldlM appends_sendPeer ps).bind (appends_inc _ _))

theorem sendNodesPeers_addValues (nodes nodes6 : Bytes) (peers : Option (List Peer))
    (token : Bytes) :
    sendNodesPeers net tid nodes nodes6 peers token = (do
      let buf ← inc 2048 (str "d1:rd2:id20:") []
      let buf ← copy 2048 net.myid.bytes buf
      let buf ← addNodes (str "5:nodes") nodes buf
      let buf ← addNodes (str "6:nodes6") nodes6 buf
      let buf ← addNodes (str "5:token") token buf
      let buf ← addValues peers buf
      let buf ← inc 2048 (str "e1:t" ++ decimal tid.length ++ str ":") buf
      let buf ← copy 2048 tid buf
      let buf ← addV 2048 net.myV buf
      inc 2048 (str "1:y1:re") buf) := by
  cases peers with
  | none => rfl
  | some ps =>
    simp only [sendNodesPeers, addValues, Option.bind_eq_bind, Option.bind_assoc]

theorem sendNodesPeers_eq (hv : net.VersionFits) (htid : tid.length ≤ 16) {nodes nodes6 : Bytes}
    (hnodes : nodes.length ≤ 304) (hnodes6 : nodes6.length ≤ 304) {peers : Option (List Peer)}
    (hpeers : PeersFit peers) {token : Bytes} (htoken : token.length ≤ 40) :
    sendNodesPeers net tid nodes nodes6 peers token =
      some (nodesPeersText net tid nodes nodes6 peers token) := by
  have h : Appends 2048 (nodesPeersText net tid nodes nodes6 peers token) (fun buf => do
      let buf ← inc 2048 (str "d1:rd2:id20:") buf
      let buf ← copy 2048 net.myid.bytes buf
      let buf ← addNodes (str "5:nodes") nodes buf
      let buf ← addNodes (str "6:nodes6") nodes6 buf
      let buf ← addNodes (str "5:token") token buf
      let buf ← addValues peers buf
      let buf ← inc 2048 (str "e1:t" ++ decimal tid.length ++ str ":") buf
      let buf ← copy 2048 tid buf
      let buf ← addV 2048 net.myV buf
      inc 2048 (str "1:y1:re") buf) :=
    (appends_inc _ _).bind ((appends_copy _ _).bind ((appends_addNodes _ _).bind
      ((appends_addNodes _ _).bind ((appends_addNodes _ _).bind ((appends_addValues _).bind
        (appends_ending _ _ _ _ _))))))
  rw [sendNodesPeers_addValues]
  refine h [] ?_
  have hend := length_ending_le hv htid "e1:t" "1:y1:re"
  have h1 := length_fieldText_le "5:nodes" (s := nodes) (by omega)
  have h2 := length_fieldText_le "6:nodes6" (s := nodes6) (by omega)
  have h3 := length_fieldText_le "5:token" (s := token) (by omega)
  have h4 := length_valuesText_le hpeers
  simp only [nodesPeersText, List.length_append, net.myid.length_bytes, List.length_nil,
    show (str "d1:rd2:id20:").length = 12 from rfl, show (str "e1:t").length = 4 from rfl,
    show (str "5:nodes").length = 7 from rfl, show (str "6:nodes6").length = 8 from rfl,
    show (str "5:token").length = 7 from rfl, show (str "1:y1:re").length = 7 from rfl]
    at hend h1 h2 h3 ⊢
  omega

/-! ## What `send_closest_nodes` hands over fits -/

theorem length_nodeRecord_le (n : Node) : (nodeRecord n).length ≤ 38 := by
  have hip : n.ss.ip.length ≤ 16 := by
    unfold Sockaddr.ip
    split_ifs
    · exact (length_slice_le _ _ _).trans (by decide)
    · exact length_slice_le _ _ _
  have hport : n.ss.port.length ≤ 2 := length_slice_le _ _ _
  simp only [nodeRecord, List.length_append, n.id.length_bytes]
  omega

theorem length_flatMap_nodeRecord_le {nodes : List Node} (h : nodes.length ≤ 8) :
    (nodes.flatMap nodeRecord).length ≤ 304 := by
  have hsum : (nodes.flatMap nodeRecord).length ≤ nodes.length * 38 := by
    rw [List.length_flatMap]
    refine (List.sum_le_card_nsmul _ 38 fun n hn => ?_).trans (by simp)
    obtain ⟨node, -, rfl⟩ := List.mem_map.mp hn
    exact length_nodeRecord_le node
  omega

theorem length_gathered_le (p : Prop) [Decidable p] (now : ℤ) (r : Routing) (id : Id) (af : ℕ) :
    (if p then (r.closestNodes now id af).flatMap nodeRecord else []).length ≤ 304 := by
  split_ifs
  · exact length_flatMap_nodeRecord_le (length_closestNodes_le now r id af)
  · exact Nat.zero_le 304

theorem peersFit_servedPeers (af : ℕ) (peers : List Peer) (j0 : ℕ) :
    PeersFit (some (servedPeers af peers j0)) := by
  intro ps hps
  obtain rfl := Option.some.inj hps
  refine ⟨List.length_take_le 50 _, fun p hp => ?_⟩
  have hip := of_decide_eq_true (List.mem_filter.mp (List.mem_of_mem_take hp)).2
  rw [hip]
  split_ifs <;> decide

theorem peersFit_answerPeers (af x : ℕ) (st : Option Storage) : PeersFit (answerPeers af x st) := by
  cases st with
  | none => exact fun ps hps => absurd hps (by simp [answerPeers])
  | some st =>
    unfold answerPeers
    dsimp only
    split_ifs
    · exact fun ps hps => absurd hps (by simp)
    · exact peersFit_servedPeers _ _ _

/-- The packet that `send_closest_nodes` sends. -/
theorem sendClosestNodes_packet (hv : net.VersionFits) (htid : tid.length ≤ 16) {token : Bytes}
    (htoken : token.length ≤ 40) {sa : Sockaddr} {salen : ℕ}
    (hb : net.nodeBlacklisted sa salen = false) (hsocket : 0 ≤ net.socket sa) (now : ℤ)
    (r : Routing) (id : Id) (want : ℤ) (af : ℕ) (st : Option Storage) (rs : Random) :
    (sendClosestNodes net now r sa salen tid id want af st token rs).1 =
      [⟨nodesPeersText net tid
        (if requested sa want &&& want4 ≠ 0 then
          (r.closestNodes now id afInet).flatMap nodeRecord else [])
        (if requested sa want &&& want6 ≠ 0 then
          (r.closestNodes now id afInet6).flatMap nodeRecord else [])
        (answerPeers af (random rs).1 st) token, 0, sa, salen⟩] := by
  rw [sendClosestNodes_fst, sendNodesPeers_eq hv htid (length_gathered_le _ now r id afInet)
    (length_gathered_le _ now r id afInet6) (peersFit_answerPeers af _ st) htoken,
    dhtSendBuf_of_socket hb hsocket]

end DtnDht
