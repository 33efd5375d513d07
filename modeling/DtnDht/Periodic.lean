import DtnDht.World

/-!
# `dht_periodic`

A call reads the clock, handles the datagram it is given, if any, and then does what is due:
rotating the secrets, purging, stepping the searches and looking after the buckets.
-/

namespace DtnDht

open CString

/-- SHA-1 and `inet_ntop`. -/
structure Platform where
  sha1 : Bytes → Bytes
  inetNtop : ℕ → Bytes → Bytes

/-- A received datagram: `buf[0 .. buflen)`, whether a NUL follows, and the sender. -/
structure Datagram where
  buf : Bytes
  terminated : Bool
  frm : Sockaddr
  fromlen : ℕ

/-- `MAX_TOKEN_BUCKET_TOKENS`. -/
def maxTokenBucketTokens : ℤ := 400

/-- `token_bucket`. -/
def tokenBucket (now : ℤ) (b : TokenBucket) : Bool × TokenBucket :=
  let b := if b.tokens = 0 then ⟨now, min maxTokenBucketTokens (100 * (now - b.time))⟩ else b
  if b.tokens = 0 then (false, b) else (true, { b with tokens := b.tokens - 1 })

/-- The acknowledgement of an announcement, noted in the search. -/
def Search.acknowledge (now : ℤ) (id : Id) (sr : Search) : Search :=
  { sr with
    nodes := (sr.nodes.findIdx? fun n => idCmp n.id id = .eq).elim sr.nodes fun j =>
      sr.nodes.modify j fun n =>
        { n with requestTime := 0, replyTime := now, acked := true, pinged := 0 } }

namespace World

/-! ## Queries -/

section

/-! `m` is the query and `frm` its sender; each function is a case of `dht_periodic`. -/

variable (m : Message) (frm : Sockaddr) (fromlen : ℕ)

/-- `case PING`. -/
def ping (w : World) : World :=
  let w := w.newNode m.id frm fromlen 1
  w.reply (dhtSendBuf w.net (sendPong w.net m.tidBytes) 0 frm fromlen)

/-- `send_closest_nodes` in answer to a query. -/
def replyClosestNodes (w : World) (id : Id) (af : ℕ) (st : Option Storage) (token : Bytes) :
    World :=
  let (pkts, rs) := sendClosestNodes w.net w.now w.routing frm fromlen m.tidBytes id m.want af st
    token w.env.random
  { w with env := { w.env with random := rs } }.reply pkts

/-- `case FIND_NODE`. -/
def findNode (w : World) : World :=
  let w := w.newNode m.id frm fromlen 1
  w.replyClosestNodes m frm fromlen m.target 0 none []

/-- `send_error` in answer to a query. -/
def replyError (w : World) (message : String) : World :=
  w.reply (dhtSendBuf w.net (sendError w.net m.tidBytes 203 (str message)) 0 frm fromlen)

variable (sha1 : Bytes → Bytes)

/-- `case GET_PEERS`. -/
def getPeers (w : World) : World :=
  let w := w.newNode m.id frm fromlen 1
  if m.infoHash = Id.zeroes then w.replyError m frm fromlen "Get_peers with no info_hash"
  else
    let token := makeToken sha1 w.secrets frm false
    match findStorage m.infoHash w.storage with
    | some st =>
      if st.peers ≠ [] then w.replyClosestNodes m frm fromlen m.infoHash frm.family st token
      else w.replyClosestNodes m frm fromlen m.infoHash 0 none token
    | none => w.replyClosestNodes m frm fromlen m.infoHash 0 none token

/-- `case ANNOUNCE_PEER`. -/
def announcePeer (w : World) : World :=
  let w := w.newNode m.id frm fromlen 1
  if m.infoHash = Id.zeroes then w.replyError m frm fromlen "Announce_peer with no info_hash"
  else if !tokenMatch sha1 w.secrets m.token frm then
    w.replyError m frm fromlen "Announce_peer with wrong token"
  else if m.port = 0 then
    w.replyError m frm fromlen "Announce_peer with forbidden port number"
  else
    let w := { w with storage := storageStore w.now m.infoHash frm m.port w.storage }
    -- "Note that if storage_store failed, we lie to the requestor."
    w.reply (dhtSendBuf w.net (sendPeerAnnounced w.net m.tidBytes) 0 frm fromlen)

/-! ## Replies -/

/-- A write through a pointer to a search. -/
def modifySearch (w : World) (i : ℕ) (f : Search → Search) : World :=
  { w with searches := w.searches.modify i f }

/-- A node of a reply, made known to the routing table and to the search. -/
def learnNode (w : World) (sr : Option ℕ) (id : Id) (sa : Sockaddr) (salen : ℕ) : World :=
  if id = w.myid then w
  else
    let w := w.newNode id sa salen 0
    sr.elim w fun i => w.modifySearch i (·.insertSearchNode w.now id sa salen false none)

/-- The nodes of a reply. -/
def learnNodes (w : World) (sr : Option ℕ) : World :=
  let w := (List.range (m.nodes.length / 26)).foldl (fun w i =>
    let ni := slice m.nodes (26 * i) 26
    w.learnNode sr (Id.ofBytes (ni.take 20)) (sockaddrIn (slice ni 20 4) (slice ni 24 2))
      sizeofSockaddrIn) w
  (List.range (m.nodes6.length / 38)).foldl (fun w i =>
    let ni := slice m.nodes6 (38 * i) 38
    w.learnNode sr (Id.ofBytes (ni.take 20)) (sockaddrIn6 (slice ni 20 16) (slice ni 36 2))
      sizeofSockaddrIn6) w

/-- What a reply to `get_peers` does to its search. -/
def searchReply (w : World) (i : ℕ) : World :=
  let w := w.modifySearch i
    (·.insertSearchNode w.now m.id frm fromlen true (some m.token))
  match w.searches[i]? with
  | none => w
  | some sr =>
    let w := if m.values ≠ [] then
      w.valuesFound sha1 .values sr.id m.values frm fromlen else w
    if m.values6 ≠ [] then w.valuesFound sha1 .values6 sr.id m.values6 frm fromlen else w

/-- `case REPLY`, to `find_node` or `get_peers`. -/
def nodesReply (w : World) : World :=
  let gp := tidMatch m.tid (str "gp")
  let sr := if gp then findSearch (tidSeqno m.tid) frm.family w.searches else none
  let w :=
    if m.nodes.length % 26 ≠ 0 ∨ m.nodes6.length % 38 ≠ 0 then w.blacklistNode m.id frm fromlen
    else if gp ∧ sr = none then w.newNode m.id frm fromlen 1
    else
      let w := (w.newNode m.id frm fromlen 2).learnNodes m sr
      -- "Since we received a reply, the number of requests in flight has decreased. Let's push
      -- another request."
      sr.elim w w.searchSendGetPeers
  sr.elim w (w.searchReply m frm fromlen sha1)

/-- `case REPLY`, to `announce_peer`. -/
def announceReply (w : World) : World :=
  match findSearch (tidSeqno m.tid) frm.family w.searches with
  | none => w.newNode m.id frm fromlen 1
  | some i =>
    let w := w.newNode m.id frm fromlen 2
    (w.modifySearch i (Search.acknowledge w.now m.id)).searchSendGetPeers i

/-- `case REPLY`. -/
def replyMessage (w : World) : World :=
  if m.tidLen ≠ 4 then w.blacklistNode m.id frm fromlen
  else if tidMatch m.tid (str "pn") then w.newNode m.id frm fromlen 2
  else if tidMatch m.tid (str "fn") ∨ tidMatch m.tid (str "gp") then w.nodesReply m frm fromlen sha1
  else if tidMatch m.tid (str "ap") then w.announceReply m frm fromlen
  else w

/-! ## Dispatch -/

/-- `token_bucket`. -/
def takeToken (w : World) : Bool × World :=
  ((tokenBucket w.now w.bucket).1, { w with bucket := (tokenBucket w.now w.bucket).2 })

/-- The cases for queries. -/
def query (w : World) : World :=
  match m.kind with
  | .ping => w.ping m frm fromlen
  | .findNode => w.findNode m frm fromlen
  | .getPeers => w.getPeers m frm fromlen sha1
  | .announcePeer => w.announcePeer m frm fromlen sha1
  | _ => w

/-- What `dht_periodic` does with a message it has parsed. -/
def handle (w : World) : World :=
  if m.kind = .error ∨ m.id = Id.zeroes then w
  else if m.id = w.myid then w
  else if m.kind = .reply then w.replyMessage m frm fromlen sha1
  else
    -- "Rate limit requests."
    match w.takeToken with
    | (false, w) => w
    | (true, w) => w.query m frm fromlen sha1

end

section

variable (lib : Platform) (clayer : List ConvergenceLayer)

/-- Is the EID of a query or reply there, and not our own? -/
def isForeign (w : World) (eid : Option Bytes) : Bool := eid.any (· != w.eids.myEid)

/-- Is a DTN query answered? -/
def answersDtnQuery (w : World) (eid : Option Bytes) : Bool :=
  w.eids.myEidChanged && w.isForeign eid

/-- `parse_dtn_message` in `dht_periodic`, with the array for the transaction id that is on the
stack. -/
def parseDtn (w : World) (dg : Datagram) : DtnParse :=
  parseDtnMessage lib.inetNtop dg.frm dg.buf w.stackTid.1 16

/-- What `dht_periodic` does with a datagram, up to `dontread`. -/
def receive (w : World) (dg : Datagram) : World :=
  let parsed := w.parseDtn lib dg
  let w := w.stackTid.2
  match parsed.message with
  | some .dtnQuery =>
    if w.answersDtnQuery parsed.result.eid then
      w.reply (dhtSendBuf w.net (sendDtninfo (parsed.tid.take parsed.tidLen) w.eids.myEid clayer
        w.eids.neighbours w.eids.groups) 0 dg.frm dg.fromlen)
    else w
  | some .dtnReply =>
    if w.isForeign parsed.result.eid then w.emit [.lookupResult parsed.result] else w
  | _ =>
    match parseMessage dg.buf parsed.tid parsed.tidLen with
    | none => w
    | some m => w.handle m dg.frm dg.fromlen lib.sha1

/-! ## What is due -/

/-- `rotate_secrets`. -/
def rotateSecrets (w : World) : World :=
  let (x, w) := w.random
  let (fresh, w) := w.randomBytes 8
  { w with rotateSecretsTime := w.now + 900 + x % 1800, secrets := w.secrets.rotate fresh }

/-- `expire_buckets`, on both families. -/
def expireBuckets (w : World) : World :=
  let w := w.withRouting (w.routing.expireBuckets w.net)
  let (_, w) := w.random
  let (x, w) := w.random
  { w with expireStuffTime := w.now + 120 + x % 240 }

/-- Purge nodes, peers and searches. -/
def expire (w : World) : World :=
  let w := w.expireBuckets
  let (searches, numsearches) := expireSearches w.now w.searches w.numsearches
  { w with
    storage := expireStorage w.now w.storage
    searches := searches
    numsearches := numsearches }

/-- Step a search unless it is done or was stepped less than 5 seconds ago. -/
def stepIfDue (w : World) (i : ℕ) : World :=
  if w.searches[i]?.any fun sr => !sr.done && sr.stepTime + 5 ≤ w.now then w.searchStep i else w

/-- The next time a search is due. -/
def nextSearchTime (w : World) : ℤ × World :=
  w.searches.foldl (fun (t, w) sr =>
    if sr.done then (t, w)
    else
      let (x, w) := w.random
      let tm := sr.stepTime + 15 + x % 10
      (if t = 0 ∨ tm < t then tm else t, w)) (0, w)

/-- Step the searches. -/
def stepSearches (w : World) : World :=
  let w := (List.range w.searches.length).foldl stepIfDue w
  let (t, w) := w.nextSearchTime
  { w with searchTime := t }

/-- One of the two kinds of maintenance of the buckets of a family. -/
def maintain (w : World)
    (f : Net → Routing → ℕ → Random → Routing × List Packet × Bool × Random) (af : ℕ) :
    Bool × World :=
  let (r, pkts, soon, rs) := f w.net w.routing af w.env.random
  (soon, { w with env := { w.env with random := rs } }.withRouting (r, pkts))

/-- A maintenance of the buckets of both families, as far as it is due. -/
def maintainBoth (w : World)
    (f : Net → ℤ → Routing → ℕ → Random → Routing × List Packet × Bool × Random)
    (due : World → ℕ → Bool) : Bool × World :=
  let (soon, w) := if due w afInet then w.maintain (f · w.now) afInet else (false, w)
  let (soon6, w) := if due w afInet6 then w.maintain (f · w.now) afInet6 else (false, w)
  (soon || soon6, w)

/-- `mybucket_grow_time >= now.tv_sec - 150`, or the same for IPv6. -/
def hasGrown (w : World) (af : ℕ) : Bool :=
  w.now - 150 ≤ if af = afInet then w.routing.mybucketGrowTime else w.routing.mybucket6GrowTime

/-- Look after the buckets. -/
def confirmNodes (w : World) : World :=
  let (soon, w) := w.maintainBoth (fun net now r => r.bucketMaintenance net now) fun _ _ => true
  let (soon, w) :=
    if soon then (true, w)
    else w.maintainBoth (fun net now r => r.neighbourhoodMaintenance net now) hasGrown
  let (x, w) := w.random
  { w with confirmNodesTime := if soon then w.now + 5 + x % 20 else w.now + 60 + x % 120 }

/-- What `dht_periodic` does from `dontread` on. -/
def doDue (w : World) : World :=
  let w := if w.rotateSecretsTime ≤ w.now then w.rotateSecrets else w
  let w := if w.expireStuffTime ≤ w.now then w.expire else w
  let w := if 0 < w.searchTime ∧ w.searchTime ≤ w.now then w.stepSearches else w
  if w.confirmNodesTime ≤ w.now then w.confirmNodes else w

/-- `*tosleep`. -/
def tosleep (w : World) : ℤ :=
  let tosleep := if w.now < w.confirmNodesTime then w.confirmNodesTime - w.now else 0
  if 0 < w.searchTime then
    if w.searchTime ≤ w.now then 0 else min tosleep (w.searchTime - w.now)
  else tosleep

/-- Is a datagram ignored? An empty one is none: `buflen` is 0. -/
def ignores (w : World) (dg : Datagram) : Bool :=
  dg.buf.isEmpty || isMartian dg.frm || w.net.nodeBlacklisted dg.frm dg.fromlen

/-- `dht_periodic`; the first component is its value. -/
def dhtPeriodic (w : World) (dg : Option Datagram) : ℤ × World :=
  let w := w.gettimeofday
  match dg with
  | none => (1, w.doDue)
  | some dg =>
    if w.ignores dg then (1, w.doDue)
    else if !dg.terminated then (-1, w)
    else (1, (w.receive lib clayer dg).doDue)

/-- `dht_init`, when it succeeds. -/
def dhtInit (w : World) (s s6 : ℤ) (id : Id) (v : Option Bytes) : World :=
  let w := { w with
    searches := []
    numsearches := 0
    storage := []
    eids := { w.eids with groups := [], neighbours := [] }
    routing := {
      buckets := if 0 ≤ s then [callocBucket afInet Id.zeroes] else []
      buckets6 := if 0 ≤ s6 then [callocBucket afInet6 Id.zeroes] else []
      mybucketGrowTime := 0
      mybucket6GrowTime := 0 }
    myid := id
    myV := v.map fun v : Bytes => str "1:v4:" ++ v.take 4 }
  let w := w.gettimeofday
  let w := { w with
    routing := { w.routing with mybucketGrowTime := w.now, mybucket6GrowTime := w.now } }
  let (x, w) := w.random
  let w := { w with confirmNodesTime := w.now + x % 3 }
  let (x, w) := w.random
  let w := { w with
    searchId := UInt16.ofNat x
    searchTime := 0
    nextBlacklisted := 0
    bucket := ⟨w.now, maxTokenBucketTokens⟩
    secrets := { w.secrets with secret := List.replicate 8 0 } }
  let w := w.rotateSecrets
  { w with dhtSocket := s, dhtSocket6 := s6 }.expireBuckets

end

end World

end DtnDht
