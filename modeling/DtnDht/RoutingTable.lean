import DtnDht.Send

/-!
# The routing table

One list of buckets for each family, "a sorted linked list" whose bucket `b` "ranges from
`b->first` inclusive up to `b->next->first` exclusive". A pointer to a bucket is its position in
the list of its family, a pointer to a node its bucket's and its own position; `next` is the
following position. Allocations succeed. `new_node` calls itself after splitting a bucket and
takes one unit of fuel a call.
-/

namespace DtnDht

open CString

/-! ## Randomness -/

/-- The values `random()` returns from now on. -/
abbrev Random := ℕ → ℕ

/-- `random()`. -/
def random (rs : Random) : ℕ × Random := (rs 0, fun k => rs (k + 1))

/-! ## Nodes and buckets -/

/-- `struct node`; `ss` is a `struct sockaddr_storage`. -/
structure Node where
  id : Id
  ss : Sockaddr
  sslen : ℕ
  time : ℤ
  replyTime : ℤ
  pingedTime : ℤ
  pinged : ℕ
  deriving DecidableEq

/-- `struct bucket`. -/
structure Bucket where
  af : ℕ
  first : Id
  count : ℕ
  time : ℤ
  nodes : List Node
  cached : Sockaddr
  cachedlen : ℕ
  deriving DecidableEq

/-- A zeroed `struct sockaddr_storage`. -/
def zeroStorage : Sockaddr := List.replicate sizeofSockaddrStorage 0

/-- A zeroed `struct bucket` with its family and first id set. -/
def callocBucket (af : ℕ) (first : Id) : Bucket := ⟨af, first, 0, 0, [], zeroStorage, 0⟩

/-- `buckets`, `buckets6` and the times they last grew around our own id. -/
structure Routing where
  buckets : List Bucket
  buckets6 : List Bucket
  mybucketGrowTime : ℤ
  mybucket6GrowTime : ℤ
  deriving DecidableEq

namespace Routing

/-- `af == AF_INET ? buckets : buckets6`. -/
def table (r : Routing) (af : ℕ) : List Bucket :=
  if af = afInet then r.buckets else r.buckets6

/-- The list of a family, replaced. -/
def setTable (r : Routing) (af : ℕ) (bs : List Bucket) : Routing :=
  if af = afInet then { r with buckets := bs } else { r with buckets6 := bs }

/-- A write through a pointer to a bucket. -/
def modifyBucket (r : Routing) (af i : ℕ) (f : Bucket → Bucket) : Routing :=
  r.setTable af ((r.table af).modify i f)

/-- A write through a pointer to a node. -/
def modifyNode (r : Routing) (af i j : ℕ) (f : Node → Node) : Routing :=
  r.modifyBucket af i fun b => { b with nodes := b.nodes.modify j f }

/-- A read through a pointer to a node. -/
def node? (r : Routing) (af i j : ℕ) : Option Node :=
  (r.table af)[i]?.bind fun b => b.nodes[j]?

end Routing

/-- `is_martian`. -/
def isMartian (sa : Sockaddr) : Bool :=
  if sa.family = afInet then
    let a := sa.sinAddr
    sa.port == [0, 0] || a.getD 0 0 == 0 || a.getD 0 0 == 127 || a.getD 0 0 &&& 0xE0 == 0xE0
  else if sa.family = afInet6 then
    let a := sa.sin6Addr
    sa.port == [0, 0] || a.getD 0 0 == 0xFF ||
      (a.getD 0 0 == 0xFE && a.getD 1 0 &&& 0xC0 == 0x80) ||
      (a.take 15 == List.replicate 15 0 && (a.getD 15 0 == 0 || a.getD 15 0 == 1)) ||
      a.take 12 == List.replicate 10 0 ++ [0xFF, 0xFF]
  else false

/-- `node_good`. -/
def nodeGood (now : ℤ) (n : Node) : Bool :=
  n.pinged ≤ 2 && now - 7200 ≤ n.replyTime && now - 900 ≤ n.time

/-! ## Finding -/

/-- `in_bucket`, given the bucket behind `b`. -/
def inBucket (id : Id) (b : Bucket) (next : Option Bucket) : Bool :=
  idCmp b.first id ≠ .gt && next.all fun b' => idCmp id b'.first = .lt

/-- The loop of `find_bucket`: how many of the buckets `b->next` on it passes. -/
def findBucketNext (id : Id) : List Bucket → ℕ
  | [] => 0
  | b' :: bs => if idCmp id b'.first = .lt then 0 else findBucketNext id bs + 1

/-- `find_bucket` in the list of a family. -/
def findBucket (id : Id) : List Bucket → Option ℕ
  | [] => none
  | _ :: bs => some (findBucketNext id bs)

/-- `previous_bucket`. -/
def previousBucket (i : ℕ) : Option ℕ := if i = 0 then none else some (i - 1)

/-- The bit after all those that the bounds of a bucket set. -/
def bucketBit (b : Bucket) (next : Option Bucket) : ℕ :=
  (max (lowbit b.first) (next.elim (-1) fun b' => lowbit b'.first) + 1).toNat

/-- Return the middle id of a bucket. -/
def bucketMiddle (b : Bucket) (next : Option Bucket) : Option Id :=
  let bit := bucketBit b next
  if 160 ≤ bit then none else some (b.first.setBit bit)

/-- `n` draws of `random() & 0xFF`. -/
def randomBytes : ℕ → Random → Bytes × Random
  | 0, rs => ([], rs)
  | n + 1, rs =>
    let (x, rs) := random rs
    let (xs, rs) := randomBytes n rs
    (UInt8.ofNat (x % 256) :: xs, rs)

/-- Return a random id within a bucket. -/
def bucketRandom (b : Bucket) (next : Option Bucket) (rs : Random) : Id × Random :=
  let bit := bucketBit b next
  if 160 ≤ bit then (b.first, rs)
  else
    let (x, rs) := random rs
    let high := b.first.bytes.getD (bit / 8) 0 &&& UInt8.ofNat ((0xFF00 >>> (bit % 8)) % 256)
    let low := UInt8.ofNat (x % 256) &&& 0xFF >>> UInt8.ofNat (bit % 8)
    let (rest, rs) := randomBytes (19 - bit / 8) rs
    (Id.ofBytes (b.first.bytes.take (bit / 8) ++ (high ||| low) :: rest), rs)

/-- The position `random_node` picks. -/
def randomNode (b : Bucket) (rs : Random) : Option ℕ × Random :=
  if b.count = 0 then (none, rs)
  else
    let (x, rs) := random rs
    let nn := x % b.count
    (if nn < b.nodes.length then some nn else none, rs)

namespace Routing

/-- `find_bucket`. -/
def findBucket (r : Routing) (id : Id) (af : ℕ) : Option ℕ :=
  DtnDht.findBucket id (r.table af)

/-- `find_node`: the node's bucket and its place there. -/
def findNode (r : Routing) (id : Id) (af : ℕ) : Option (ℕ × ℕ) :=
  (r.findBucket id af).bind fun i => (r.table af)[i]?.bind fun b =>
    (b.nodes.findIdx? fun n => idCmp n.id id = .eq).map fun j => (i, j)

/-- Insert a new node into a bucket. -/
def insertNode (r : Routing) (n : Node) : Routing :=
  match r.findBucket n.id n.ss.family with
  | none => r
  | some i => r.modifyBucket n.ss.family i fun b =>
    { b with nodes := n :: b.nodes, count := b.count + 1 }

/-! ## Pinging -/

variable (net : Net) (now : ℤ)

/-- "Every bucket caches the address of a likely node. Ping it." -/
def sendCachedPing (r : Routing) (af i : ℕ) : Routing × List Packet :=
  match (r.table af)[i]? with
  | none => (r, [])
  | some b =>
    if b.cached.family = 0 then (r, [])
    else
      (r.modifyBucket af i fun b =>
          { b with cached := memcpy b.cached [0, 0] 2, cachedlen := 0 },
        dhtSendBuf net (DtnDht.sendPing net (makeTid (str "pn") 0)) 0 b.cached b.cachedlen)

/-- "Called whenever we send a request to a node"; `b` is the bucket the caller names, if any. -/
def pinged (r : Routing) (af i j : ℕ) (b : Option ℕ) : Routing × List Packet :=
  let r := r.modifyNode af i j fun n => { n with pinged := n.pinged + 1, pingedTime := now }
  match r.node? af i j with
  | none => (r, [])
  | some n =>
    if 3 ≤ n.pinged then
      match b with
      | some i' => r.sendCachedPing net af i'
      | none =>
        match r.findBucket n.id n.ss.family with
        | none => (r, [])
        | some i' => r.sendCachedPing net n.ss.family i'
    else (r, [])

/-! ## Growing -/

/-- Split a bucket into two equal parts. -/
def splitBucket (r : Routing) (af i : ℕ) : Routing × List Packet :=
  match (r.table af)[i]? with
  | none => (r, [])
  | some b =>
    match bucketMiddle b (r.table af)[i + 1]? with
    | none => (r, [])
    | some newId =>
      let (r, pkts) := r.sendCachedPing net af i
      let bs := (r.table af).modify i fun b => { b with nodes := [], count := 0 }
      let new := { callocBucket b.af newId with time := b.time }
      let r := r.setTable af (bs.take (i + 1) ++ new :: bs.drop (i + 1))
      (b.nodes.foldl insertNode r, pkts)

/-- What `new_node` writes to a node it knows already. -/
def refreshNode (sa : Sockaddr) (salen confirm : ℕ) (n : Node) : Node :=
  if confirm ≠ 0 ∨ n.time < now - 15 * 60 then
    let n := { n with ss := memcpy n.ss sa salen }
    let n := if confirm ≠ 0 then { n with time := now } else n
    if 2 ≤ confirm then { n with replyTime := now, pinged := 0, pingedTime := 0 } else n
  else n

/-- What `new_node` writes over a known-bad node. -/
def replaceNode (id : Id) (sa : Sockaddr) (salen confirm : ℕ) (n : Node) : Node :=
  { n with
    id := id
    ss := memcpy n.ss sa salen
    time := if confirm ≠ 0 then now else 0
    replyTime := if 2 ≤ confirm then now else 0
    pingedTime := 0
    pinged := 0 }

/-- The node `new_node` creates. -/
def callocNode (id : Id) (sa : Sockaddr) (salen confirm : ℕ) : Node where
  id := id
  ss := memcpy zeroStorage sa salen
  sslen := salen
  time := if confirm ≠ 0 then now else 0
  replyTime := if 2 ≤ confirm then now else 0
  pingedTime := 0
  pinged := 0

/-- "Ping a dubious node": the first one that is not good and that we haven't pinged in the last
15 seconds. -/
def pingDubious (r : Routing) (af i : ℕ) (nodes : List Node) : Routing × List Packet :=
  match nodes.findIdx? fun n => !nodeGood now n && n.pingedTime < now - 15 with
  | none => (r, [])
  | some j =>
    (r.modifyNode af i j fun n => { n with pinged := n.pinged + 1, pingedTime := now },
      nodes[j]?.elim [] fun n =>
        dhtSendBuf net (DtnDht.sendPing net (makeTid (str "pn") 0)) 0 n.ss n.sslen)

/-- The table after the address of a node there is no space for is cached away. -/
def cacheNode (r : Routing) (af i : ℕ) (sa : Sockaddr) (salen confirm : ℕ) : Routing :=
  r.modifyBucket af i fun b =>
    if confirm ≠ 0 ∨ b.cached.family = 0 then
      { b with cached := memcpy b.cached sa salen, cachedlen := salen }
    else b

/-- Whether `new_node` splits the full bucket `b`. -/
def wantsSplit (r : Routing) (b : Bucket) (mybucket dubious : Bool) : Bool :=
  mybucket && (!dubious ||
    -- "If there's only one bucket, split eagerly."
    (b.af = afInet && r.buckets.length ≤ 1) || (b.af = afInet6 && r.buckets6.length ≤ 1))

/-- `mybucket_grow_time` or `mybucket6_grow_time` is now. -/
def grow (r : Routing) (af : ℕ) : Routing :=
  if af = afInet then { r with mybucketGrowTime := now } else { r with mybucket6GrowTime := now }

/-- "We just learnt about a node, not necessarily a new one. Confirm is 1 if the node sent a
message, 2 if it sent us a reply." The last component is whether a node is returned. -/
def newNodeFuel (id : Id) (sa : Sockaddr) (salen confirm : ℕ) :
    ℕ → Routing → Option (Routing × List Packet × Bool)
  | 0, _ => none
  | fuel + 1, r =>
    let af := sa.family
    match r.findBucket id af with
    | none => some (r, [], false)
    | some i =>
      match (r.table af)[i]? with
      | none => some (r, [], false)
      | some b =>
        if idCmp id net.myid = .eq then some (r, [], false)
        else if isMartian sa || net.nodeBlacklisted sa salen then some (r, [], false)
        else
          let mybucket := inBucket net.myid b (r.table af)[i + 1]?
          let r := if confirm = 2 then r.modifyBucket af i fun b => { b with time := now } else r
          match b.nodes.findIdx? fun n => idCmp n.id id = .eq with
          | some j => some (r.modifyNode af i j (refreshNode now sa salen confirm), [], true)
          | none =>
            let r := if mybucket then r.grow now af else r
            match b.nodes.findIdx? fun n => 3 ≤ n.pinged && n.pingedTime < now - 15 with
            | some j => some (r.modifyNode af i j (replaceNode now id sa salen confirm), [], true)
            | none =>
              if 8 ≤ b.count then
                let dubious := b.nodes.any fun n => !nodeGood now n
                let (r, pkts) := r.pingDubious net now af i b.nodes
                if r.wantsSplit b mybucket dubious then
                  let (r, pkts') := r.splitBucket net af i
                  (newNodeFuel id sa salen confirm fuel r).map fun (r, pkts'', n) =>
                    (r, pkts ++ pkts' ++ pkts'', n)
                else some (r.cacheNode af i sa salen confirm, pkts, false)
              else
                some (r.modifyBucket af i fun b =>
                  { b with
                    nodes := callocNode now id sa salen confirm :: b.nodes
                    count := b.count + 1 }, [], true)

/-- `new_node`; a call nests at most once for each of the 160 bits, so the fuel is never spent. -/
def newNode (r : Routing) (id : Id) (sa : Sockaddr) (salen confirm : ℕ) :
    Routing × List Packet × Bool :=
  (newNodeFuel net now id sa salen confirm 161 r).getD (r, [], false)

end Routing

end DtnDht
