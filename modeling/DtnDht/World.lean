import DtnDht.Callback
import DtnDht.ClosestNodes
import DtnDht.Lib.LazyBucket
import DtnDht.ParseMessage
import DtnDht.Search
import DtnDht.Token

/-!
# The state of a node

All statics of the library, what it will get from its environment, and what it has sent and
reported so far. A function of the source that reads or writes statics is a function on states.
What the source does not decide is in the environment: random numbers, the clock, whether a
search slot can be allocated, and the contents of fresh memory.
-/

namespace DtnDht

open CString

/-- The contents of an array for a transaction id. -/
abbrev TidArray := {t : Bytes // t.length = 16}

/-- The values the environment returns from now on. -/
structure Env where
  random : Random
  clock : Clock
  /-- does the next `calloc` in `new_search` succeed? -/
  calloc : ℕ → Bool
  /-- the bytes of `dht_random_bytes` -/
  bytes : ℕ → UInt8
  /-- the contents of the array that `callback` allocates -/
  memory : ℕ → ℕ → SockaddrStorage
  /-- the contents of `tid` on the stack of `dht_periodic` -/
  stack : ℕ → TidArray

/-- A search as `dht_search` starts it: the search it finds for the id and the family, if any, and
whether the id is announced at that time. -/
structure SearchStart where
  id : Id
  af : ℕ
  before : Option Search
  port : UInt16
  announced : Bool

/-- What the node sends and tells the application; and, for the record, when it starts what. -/
inductive Output where
  /-- a packet of the node's own accord -/
  | request (p : Packet)
  /-- a packet in answer to a query -/
  | reply (p : Packet)
  /-- a call of `dtn_dht_handle_lookup_result` -/
  | lookupResult (result : LookupResult)
  /-- a call of `dtn_dht_operation_done` -/
  | operationDone (infoHash : Id)
  /-- a call of `dht_search` that starts a search -/
  | searchStart (start : SearchStart)
  /-- `dtn_dht_lookup` or `relookupList` starts a lookup -/
  | lookupStart (key : Id)

/-- `token_bucket_time` and `token_bucket_tokens`. -/
abbrev TokenBucket := LazyBucket.State

/-- Our own EID and those of our groups and neighbours. -/
structure DtnEids where
  myEid : Bytes := str "none"
  myEidChanged : Bool := false
  groups : List Bytes := []
  neighbours : List Bytes := []

/-- The state of a node. -/
structure World where
  dhtSocket : ℤ
  dhtSocket6 : ℤ
  myid : Id
  myV : Option Bytes
  now : ℤ
  routing : Routing
  searches : List Search
  numsearches : ℕ
  searchId : UInt16
  storage : List Storage
  secrets : Secrets
  /-- the array `blacklist` of `dht.c` -/
  snubbed : List Sockaddr
  nextBlacklisted : ℕ
  searchTime : ℤ
  confirmNodesTime : ℤ
  rotateSecretsTime : ℤ
  expireStuffTime : ℤ
  bucket : TokenBucket
  eids : DtnEids
  dtn : Dtn
  env : Env
  outputs : List Output

/-- An environment in which nothing changes. -/
def Env.still (now : ℤ) : Env where
  random := fun _ => 1
  clock := fun _ => now
  calloc := fun _ => true
  bytes := fun _ => 1
  memory := fun _ _ => ⟨zeroStorage, List.length_replicate⟩
  stack := fun _ => ⟨List.replicate 16 0, rfl⟩

namespace World

/-- The statics of a process that has just been started. -/
def initial (env : Env) : World where
  dhtSocket := -1
  dhtSocket6 := -1
  myid := Id.zeroes
  myV := none
  now := 0
  routing := ⟨[], [], 0, 0⟩
  searches := []
  numsearches := 0
  searchId := 0
  storage := []
  secrets := ⟨List.replicate 8 0, List.replicate 8 0⟩
  snubbed := List.replicate 10 zeroStorage
  nextBlacklisted := 0
  searchTime := 0
  confirmNodesTime := 0
  rotateSecretsTime := 0
  expireStuffTime := 0
  bucket := ⟨0, 0⟩
  eids := {}
  dtn := {}
  env := env
  outputs := []

/-- What sending reads. -/
def net (w : World) : Net where
  dhtSocket := w.dhtSocket
  dhtSocket6 := w.dhtSocket6
  myid := w.myid
  myV := w.myV
  nodeBlacklisted := nodeBlacklisted w.dtn.blacklist w.snubbed

/-! ## The environment -/

/-- `random()`. -/
def random (w : World) : ℕ × World :=
  (w.env.random 0, { w with env := { w.env with random := fun k => w.env.random (k + 1) } })

/-- `time(NULL)`. -/
def time (w : World) : ℤ × World :=
  (w.env.clock 0, { w with env := { w.env with clock := fun k => w.env.clock (k + 1) } })

/-- `gettimeofday(&now, NULL)`. -/
def gettimeofday (w : World) : World := { w.time.2 with now := w.time.1 }

/-- `dht_random_bytes`. -/
def randomBytes (w : World) (size : ℕ) : Bytes × World :=
  ((List.range size).map w.env.bytes,
    { w with env := { w.env with bytes := fun k => w.env.bytes (k + size) } })

/-- The contents of the array that `callback` allocates. -/
def memory (w : World) : (ℕ → SockaddrStorage) × World :=
  (w.env.memory 0, { w with env := { w.env with memory := fun k => w.env.memory (k + 1) } })

/-- The contents of `tid` on the stack. -/
def stackTid (w : World) : Bytes × World :=
  ((w.env.stack 0).1, { w with env := { w.env with stack := fun k => w.env.stack (k + 1) } })

/-! ## Output -/

/-- Add to what is sent and reported. -/
def emit (w : World) (outputs : List Output) : World :=
  { w with outputs := w.outputs ++ outputs }

/-- Packets of the node's own accord. -/
def request (w : World) (pkts : List Packet) : World := w.emit (pkts.map .request)

/-- Packets in answer to a query. -/
def reply (w : World) (pkts : List Packet) : World := w.emit (pkts.map .reply)

/-- A new routing table, and the packets sent on the way. -/
def withRouting (w : World) (out : Routing × List Packet) : World :=
  { w with routing := out.1 }.request out.2

/-! ## The routing table -/

/-- `new_node`. -/
def newNode (w : World) (id : Id) (sa : Sockaddr) (salen confirm : ℕ) : World :=
  let (r, pkts, _) := w.routing.newNode w.net w.now id sa salen confirm
  w.withRouting (r, pkts)

/-- `blacklist_node`, called with an id. -/
def blacklistNode (w : World) (id : Id) (sa : Sockaddr) (salen : ℕ) : World :=
  let w := w.withRouting (w.routing.discardNode w.net w.now id sa.family)
  { w with
    -- "Discard it from any searches in progress."
    searches := w.searches.map fun sr => { sr with nodes := flushId id sr.nodes }
    -- "And make sure we don't hear from it again."
    snubbed := w.snubbed.modify w.nextBlacklisted fun e => memcpy e sa salen
    nextBlacklisted := (w.nextBlacklisted + 1) % 10 }

/-! ## The callback -/

/-- `dht_ping_dtn_node`. -/
def dhtPingDtnNode (w : World) (sa : Sockaddr) (salen : ℕ) : World :=
  w.request (dhtSendBuf w.net (sendGetDtninfo w.myV (makeTid (str "pn") 0) w.eids.myEid) 0 sa salen)

/-- `callback`, a search is done. -/
def searchDone (w : World) (infoHash : Id) : World :=
  { w with dtn := w.dtn.searchDone infoHash }.emit [.operationDone infoHash]

/-- `callback`, values are found. -/
def valuesFound (sha1 : Bytes → Bytes) (w : World) (event : DhtEvent) (infoHash : Id)
    (data : Bytes) (frm : Sockaddr) (fromlen : ℕ) : World :=
  let (mem, w) := w.memory
  let (d, pings) := w.dtn.callback sha1 (fun i => (mem i).1) event infoHash data frm fromlen
  pings.foldl (fun w ping => w.dhtPingDtnNode ping.sa ping.salen) { w with dtn := d }

/-! ## Searches -/

/-- A search stepped or asked for peers, put back in its place. -/
def withSearch (w : World) (i : ℕ) (out : Search × Routing × List Packet) : World :=
  { w with searches := w.searches.set i out.1, routing := out.2.1 }.request out.2.2

/-- `search_send_get_peers(sr, NULL)`. -/
def searchSendGetPeers (w : World) (i : ℕ) : World :=
  match w.searches[i]? with
  | none => w
  | some sr => w.withSearch i (sr.sendGetPeersNext w.net w.now w.routing)

/-- `search_step`. -/
def searchStep (w : World) (i : ℕ) : World :=
  match w.searches[i]? with
  | none => w
  | some sr =>
    let (sr, r, pkts, done) := sr.step w.net w.now w.routing
    let w := w.withSearch i (sr, r, pkts)
    if done then w.searchDone sr.id else w

/-- Is the key announced? -/
def announced (w : World) (key : Id) : Bool :=
  (getFromList key w.dtn.announcetable).any (·.announce)

/-- The search for an id in a family. -/
def findIdx (w : World) (id : Id) (af : ℕ) : Option ℕ :=
  w.searches.findIdx? fun sr => sr.af == af && idCmp sr.id id = .eq

/-- The slot `dht_search` uses: that of an old search, or one of `new_search`. -/
def searchSlot (w : World) (id : Id) (af : ℕ) : Option ℕ × World :=
  match w.findIdx id af with
  | some i => (some i, { w with searches := w.searches.modify i (Search.restart w.now) })
  | none =>
    let (slot, searches, numsearches) :=
      newSearch w.now (w.env.calloc 0) w.searches w.numsearches
    let w := { w with env := { w.env with calloc := fun k => w.env.calloc (k + 1) } }
    match slot with
    | none => (none, w)
    | some i =>
      (some i, { w with
        searches := searches.modify i (Search.start af w.searchId id)
        numsearches := numsearches
        searchId := w.searchId + 1 })

/-- `dht_search`; the first component is its value. -/
def dhtSearch (w : World) (id : Id) (port : UInt16) (af : ℕ) : ℤ × World :=
  match w.routing.findBucket id af with
  | none => (-1, w)
  | some b =>
    match w.searchSlot id af with
    | (none, w) => (-1, w)
    | (some i, w') =>
      let start : SearchStart := {
        id := id
        af := af
        before := (w.findIdx id af).bind (w.searches[·]?)
        port := port
        announced := w.announced id }
      let w := { w' with
        searches := w'.searches.modify i fun sr =>
          { sr with port := port }.insertClosest w'.now w'.routing w'.myid b }
      let w := (w.emit [.searchStart start]).searchStep i
      (1, { w with searchTime := w.now })

end World

end DtnDht
