import DtnDht.Maintenance

/-!
# Searches

"A search in progress is identified by a unique transaction id"; it walks up to `SEARCH_NODES`
nodes and asks them for peers, three at a time, until the first 8 live nodes have replied. If it
has a port, it then announces to them. Searches that are done are kept and their slots reused. A
pointer to a search is its place in the list.
-/

namespace DtnDht

open CString

/-- `struct search_node`; `token_len` is the length of the token. -/
structure SearchNode where
  id : Id
  ss : Sockaddr
  sslen : ℕ
  requestTime : ℤ
  replyTime : ℤ
  pinged : ℕ
  token : Bytes
  replied : Bool
  acked : Bool
  /-- the sender of the reply the token was taken from; a history variable, read by no function -/
  issuer : Sockaddr
  deriving DecidableEq

/-- `SEARCH_NODES`. -/
def searchNodes : ℕ := 14

/-- `struct search`; `numnodes` is the length of the list of nodes. -/
structure Search where
  tid : UInt16
  af : ℕ
  stepTime : ℤ
  id : Id
  /-- 0 for pure searches -/
  port : UInt16
  done : Bool
  nodes : List SearchNode
  deriving DecidableEq

/-- `DHT_MAX_SEARCHES`. -/
def dhtMaxSearches : ℕ := 1024

/-- `DHT_SEARCH_EXPIRE_TIME`. -/
def dhtSearchExpireTime : ℤ := 62 * 60

/-- `find_search`. -/
def findSearch (tid : UInt16) (af : ℕ) (searches : List Search) : Option ℕ :=
  searches.findIdx? fun sr => sr.tid == tid && sr.af == af

/-! ## Nodes -/

/-- What `insert_search_node` writes to a node; a token that is too long is left out. -/
def SearchNode.update (now : ℤ) (sa : Sockaddr) (salen : ℕ) (replied : Bool)
    (token : Option Bytes) (n : SearchNode) : SearchNode :=
  let n := { n with ss := memcpy n.ss sa salen, sslen := salen }
  let n := if replied then
    { n with replied := true, replyTime := now, requestTime := 0, pinged := 0 } else n
  match token with
  | none => n
  | some token => if 40 ≤ token.length then n else { n with token := token, issuer := sa.take salen }

/-- A zeroed `struct search_node` with its id set. -/
def callocSearchNode (id : Id) : SearchNode := ⟨id, zeroStorage, 0, 0, 0, 0, [], false, false, []⟩

/-- The loop of `insert_search_node`: `f` is what it writes to the node of the id, which is put in
before the first node that is farther from the target. -/
def insertNodeAt (target id : Id) (f : SearchNode → SearchNode) :
    List SearchNode → List SearchNode
  | [] => [f (callocSearchNode id)]
  | n :: nodes =>
    if idCmp id n.id = .eq then f n :: nodes
    else if xorcmp id n.id target < 0 then f (callocSearchNode id) :: n :: nodes
    else n :: insertNodeAt target id f nodes

/-- A node of the search after the loop: one from before, the new one, or the one of the id. -/
theorem mem_insertNodeAt {target id : Id} {f : SearchNode → SearchNode} {nodes : List SearchNode}
    {n : SearchNode} (h : n ∈ insertNodeAt target id f nodes) :
    n ∈ nodes ∨ n = f (callocSearchNode id) ∨ ∃ old ∈ nodes, old.id = id ∧ n = f old := by
  induction nodes with
  | nil => exact Or.inr (Or.inl (List.mem_singleton.mp h))
  | cons first nodes ih =>
    unfold insertNodeAt at h
    split_ifs at h with hid hcmp
    · rcases List.mem_cons.mp h with rfl | h
      · exact Or.inr (Or.inr ⟨first, List.mem_cons_self, (idCmp_eq_eq.mp hid).symm, rfl⟩)
      · exact Or.inl (List.mem_cons_of_mem _ h)
    · rcases List.mem_cons.mp h with rfl | h
      · exact Or.inr (Or.inl rfl)
      · exact Or.inl h
    · rcases List.mem_cons.mp h with rfl | h
      · exact Or.inl List.mem_cons_self
      · rcases ih h with h | h | ⟨old, hold, hrest⟩
        · exact Or.inl (List.mem_cons_of_mem _ h)
        · exact Or.inr (Or.inl h)
        · exact Or.inr (Or.inr ⟨old, List.mem_cons_of_mem _ hold, hrest⟩)

/-- `flush_search_node` on the nodes with the id, in a loop that passes over the node that moves
up. -/
def flushId (id : Id) : List SearchNode → List SearchNode
  | [] => []
  | n :: nodes =>
    if idCmp n.id id = .eq then
      match nodes with
      | [] => []
      | m :: nodes => m :: flushId id nodes
    else n :: flushId id nodes

/-- The loop of `dht_search` over the nodes of an old search: "Discard any doubtful nodes." It
passes over the node that moves up. -/
def resetNodes (now : ℤ) : List SearchNode → List SearchNode
  | [] => []
  | n :: nodes =>
    if 3 ≤ n.pinged ∨ n.replyTime < now - 7200 then
      match nodes with
      | [] => []
      | m :: nodes => m :: resetNodes now nodes
    else
      { n with pinged := 0, token := [], replied := false, acked := false } ::
        resetNodes now nodes

namespace Search

/-- `insert_search_node`. -/
def insertSearchNode (now : ℤ) (id : Id) (sa : Sockaddr) (salen : ℕ) (replied : Bool)
    (token : Option Bytes) (sr : Search) : Search :=
  if sa.family ≠ sr.af then sr
  else
    { sr with
      nodes := (insertNodeAt sr.id id (·.update now sa salen replied token) sr.nodes).take
        searchNodes }

/-- `insert_search_bucket`. -/
def insertSearchBucket (now : ℤ) (b : Bucket) (sr : Search) : Search :=
  b.nodes.foldl (fun sr n => sr.insertSearchNode now n.id n.ss n.sslen false none) sr

/-- `insert_search_bucket` on the bucket behind a pointer. -/
def insertBucketAt (now : ℤ) (r : Routing) (i : ℕ) (sr : Search) : Search :=
  (r.table sr.af)[i]?.elim sr fun b => sr.insertSearchBucket now b

/-- What `dht_search` inserts from the routing table, `i` being the bucket of the id. -/
def insertClosest (now : ℤ) (r : Routing) (myid : Id) (i : ℕ) (sr : Search) : Search :=
  let sr := sr.insertBucketAt now r i
  let sr :=
    if sr.nodes.length < searchNodes then
      let sr := sr.insertBucketAt now r (i + 1)
      (previousBucket i).elim sr fun p => sr.insertBucketAt now r p
    else sr
  if sr.nodes.length < searchNodes then
    (r.findBucket myid sr.af).elim sr fun i => sr.insertBucketAt now r i
  else sr

/-- An old search whose data `dht_search` reuses. -/
def restart (now : ℤ) (sr : Search) : Search :=
  { sr with done := false, nodes := resetNodes now sr.nodes }

/-- A slot that `dht_search` fills for a new search. -/
def start (af : ℕ) (tid : UInt16) (id : Id) (sr : Search) : Search :=
  { sr with af := af, tid := tid, stepTime := 0, id := id, done := false, nodes := [] }

end Search

/-! ## Slots -/

/-- The oldest done search. -/
def oldestDone (searches : List Search) : Option ℕ :=
  (List.range searches.length).foldl (fun oldest i =>
    match searches[i]?, oldest.bind (searches[·]?) with
    | some sr, none => if sr.done then some i else oldest
    | some sr, some old => if sr.done ∧ sr.stepTime < old.stepTime then some i else oldest
    | none, _ => oldest) none

/-- A zeroed `struct search`. -/
def callocSearch : Search := ⟨0, 0, 0, Id.zeroes, 0, false, []⟩

/-- `new_search`; `calloc` is whether a new slot can be had. -/
def newSearch (now : ℤ) (calloc : Bool) (searches : List Search) (numsearches : ℕ) :
    Option ℕ × List Search × ℕ :=
  let oldest := oldestDone searches
  if (oldest.bind (searches[·]?)).any (·.stepTime < now - dhtSearchExpireTime) then
    (oldest, searches, numsearches)
  else if numsearches < dhtMaxSearches ∧ calloc then
    (some 0, callocSearch :: searches, numsearches + 1)
  else (oldest, searches, numsearches)

/-- `expire_searches`. -/
def expireSearches (now : ℤ) : List Search → ℕ → List Search × ℕ
  | [], numsearches => ([], numsearches)
  | sr :: searches, numsearches =>
    if sr.stepTime < now - dhtSearchExpireTime then expireSearches now searches (numsearches - 1)
    else
      let (searches, numsearches) := expireSearches now searches numsearches
      (sr :: searches, numsearches)

/-! ## Steps -/

namespace Search

variable (net : Net) (now : ℤ)

/-- Is a node to be asked for peers? -/
def toAsk (n : SearchNode) : Bool :=
  n.pinged < 3 && !n.replied && n.requestTime < now - 15

/-- The node `search_send_get_peers` picks when it is given none: the last one to be asked. -/
def pickNode (sr : Search) : Option ℕ :=
  (List.range sr.nodes.length).reverse.find? fun j => (sr.nodes[j]?).any (toAsk now)

/-- `search_send_get_peers` on node `j`; the last component is its value. -/
def sendGetPeers (r : Routing) (sr : Search) (j : ℕ) : Search × Routing × List Packet × ℕ :=
  match sr.nodes[j]? with
  | none => (sr, r, [], 0)
  | some n =>
    if toAsk now n then
      let pkts := dhtSendBuf net
        (DtnDht.sendGetPeers net (makeTid (str "gp") sr.tid) sr.id (-1))
        (if now - 15 ≤ n.replyTime then msgConfirm else 0) n.ss n.sslen
      let sr := { sr with
        nodes := sr.nodes.set j { n with pinged := n.pinged + 1, requestTime := now } }
      let (r, pkts') := r.markPinged net now n.id n.ss.family
      (sr, r, pkts ++ pkts', 1)
    else (sr, r, [], 0)

/-- `search_send_get_peers` without a node. -/
def sendGetPeersNext (r : Routing) (sr : Search) : Search × Routing × List Packet :=
  match sr.pickNode now with
  | none => (sr, r, [])
  | some j =>
    let (sr, r, pkts, _) := sr.sendGetPeers net now r j
    (sr, r, pkts)

/-- "Check if the first 8 live nodes have replied." -/
def allDone (sr : Search) : Bool :=
  ((sr.nodes.filter (·.pinged < 3)).take 8).all (·.replied)

/-- The loop of `search_step` that announces to the first `j` live nodes; the last component is
`all_acked`. -/
def announceNodes (sr : Search) :
    ℕ → List SearchNode → Routing → List SearchNode × Routing × List Packet × Bool
  | _, [], r => ([], r, [], true)
  | 0, nodes, r => (nodes, r, [], true)
  | j + 1, n :: nodes, r =>
    if 3 ≤ n.pinged then
      let (nodes, r, pkts, acked) := announceNodes sr (j + 1) nodes r
      (n :: nodes, r, pkts, acked)
    else
      -- "A proposed extension to the protocol consists in omitting the token when storage tables
      -- are full."
      let n := if n.token = [] then { n with acked := true } else n
      if n.acked then
        let (nodes, r, pkts, acked) := announceNodes sr j nodes r
        (n :: nodes, r, pkts, acked)
      else
        -- the flags are the other way round than those of `find_node` and `get_peers`
        let pkts := dhtSendBuf net
          (sendAnnouncePeer net (makeTid (str "ap") sr.tid) sr.id sr.port n.token)
          (if now - 15 ≤ n.replyTime then 0 else msgConfirm) n.ss sizeofSockaddrStorage
        let (r, pkts') := r.markPinged net now n.id n.ss.family
        let (nodes, r, pkts'', _) := announceNodes sr j nodes r
        ({ n with pinged := n.pinged + 1, requestTime := now } :: nodes, r,
          pkts ++ pkts' ++ pkts'', false)

/-- The loop of `search_step` that asks for peers, from node `j` on with `asked` nodes asked. -/
def askNodes (r : Routing) (sr : Search) (asked : ℕ) :
    List ℕ → Search × Routing × List Packet
  | [] => (sr, r, [])
  | j :: js =>
    let (sr, r, pkts, one) := sr.sendGetPeers net now r j
    if 3 ≤ asked + one then (sr, r, pkts)
    else
      let (sr, r, pkts') := askNodes r sr (asked + one) js
      (sr, r, pkts ++ pkts')

/-- `search_step`; the last component is whether the search is done and the callback called. -/
def step (r : Routing) (sr : Search) : Search × Routing × List Packet × Bool :=
  if sr.allDone then
    if sr.port = 0 then ({ sr with done := true, stepTime := now }, r, [], true)
    else
      let (nodes, r, pkts, acked) := announceNodes net now sr 8 sr.nodes r
      if acked then ({ sr with nodes := nodes, done := true, stepTime := now }, r, pkts, true)
      else ({ sr with nodes := nodes, stepTime := now }, r, pkts, false)
  else if now ≤ sr.stepTime + 15 then (sr, r, [], false)
  else
    let (sr, r, pkts) := askNodes net now r sr 0 (List.range sr.nodes.length)
    ({ sr with stepTime := now }, r, pkts, false)

end Search

end DtnDht
