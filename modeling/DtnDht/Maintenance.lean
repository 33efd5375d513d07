import DtnDht.RoutingTable

/-!
# Upkeep of the routing table

Purging bad nodes, counting an unanswered request against a node, and the two periodic searches
that keep the buckets filled. `dht_get_nodes` and `dht_nodes` only read the table.
-/

namespace DtnDht

open CString

/-- `expire_buckets` on one bucket; the two loops unlink the nodes with `pinged >= 4`. -/
def expireBucket (net : Net) (b : Bucket) : Bucket × List Packet :=
  let nodes := b.nodes.filter fun n => n.pinged < 4
  let b' := { b with nodes := nodes, count := b.count - (b.nodes.length - nodes.length) }
  if nodes.length = b.nodes.length ∨ b.cached.family = 0 then (b', [])
  else
    ({ b' with cached := memcpy b.cached [0, 0] 2, cachedlen := 0 },
      dhtSendBuf net (sendPing net (makeTid (str "pn") 0)) 0 b.cached b.cachedlen)

namespace Routing

variable (net : Net) (now : ℤ)

/-- "Purge known-bad nodes", in both families. -/
def expireBuckets (r : Routing) : Routing × List Packet :=
  ({ r with
      buckets := r.buckets.map fun b => (expireBucket net b).1
      buckets6 := r.buckets6.map fun b => (expireBucket net b).1 },
    (r.buckets ++ r.buckets6).flatMap fun b => (expireBucket net b).2)

theorem table_expireBuckets (r : Routing) (af : ℕ) :
    (r.expireBuckets net).1.table af = (r.table af).map fun b => (expireBucket net b).1 := by
  unfold expireBuckets table
  split_ifs <;> rfl

theorem nodes_expireBucket (b : Bucket) :
    (expireBucket net b).1.nodes = b.nodes.filter fun n => n.pinged < 4 := by
  unfold expireBucket
  dsimp only
  split_ifs <;> rfl

/-- What `blacklist_node` does to the table: "Make the node easy to discard." -/
def discardNode (r : Routing) (id : Id) (af : ℕ) : Routing × List Packet :=
  match r.findNode id af with
  | none => (r, [])
  | some (i, j) => (r.modifyNode af i j fun n => { n with pinged := 3 }).pinged net now af i j none

/-- "If the node happens to be in our main routing table, mark it as pinged." -/
def markPinged (r : Routing) (id : Id) (af : ℕ) : Routing × List Packet :=
  match r.findNode id af with
  | none => (r, [])
  | some (i, j) => r.pinged net now af i j none

/-! ## Periodic searches -/

/-- `b->count == 0 || (random() & 7) == 0`. -/
def emptyOrRarely (count : ℕ) (rs : Random) : Bool × Random :=
  if count = 0 then (true, rs)
  else
    let (x, rs) := random rs
    (x &&& 7 == 0, rs)

/-- `b->count` behind a pointer. -/
def count (r : Routing) (af i : ℕ) : ℕ := (r.table af)[i]?.elim 0 Bucket.count

/-- "If the bucket is empty, we try to fill it from a neighbour. We also sometimes do it
gratuitiously to recover from buckets full of broken nodes." -/
def chooseBucket (r : Routing) (af i : ℕ) (rs : Random) : ℕ × Random :=
  let (q, rs) :=
    if i + 1 < (r.table af).length then
      let (c, rs) := emptyOrRarely (r.count af i) rs
      (if c then i + 1 else i, rs)
    else (i, rs)
  let (c, rs) := emptyOrRarely (r.count af q) rs
  if c then
    match previousBucket i with
    | some p => (if 0 < r.count af p then p else q, rs)
    | none => (q, rs)
  else (q, rs)

/-- Send `find_node` for `id` to node `j` of bucket `q` and count it as pinged. -/
def askNode (r : Routing) (af q j : ℕ) (id : Id) (want : ℤ) : Routing × List Packet :=
  match r.node? af q j with
  | none => (r, [])
  | some n =>
    let pkts := dhtSendBuf net (sendFindNode net (makeTid (str "fn") 0) id want)
      (if now - 15 ≤ n.replyTime then msgConfirm else 0) n.ss n.sslen
    let (r, pkts') := r.pinged net now af q j (some q)
    (r, pkts ++ pkts')

/-- `neighbourhood_maintenance`. -/
def neighbourhoodMaintenance (r : Routing) (af : ℕ) (rs : Random) :
    Routing × List Packet × Bool × Random :=
  match r.findBucket net.myid af with
  | none => (r, [], false, rs)
  | some i =>
    let (x, rs) := random rs
    let id := Id.ofBytes (net.myid.bytes.take 19 ++ [UInt8.ofNat (x % 256)])
    let (q, rs) := r.chooseBucket af i rs
    -- "Since our node-id is the same in both DHTs, it's probably profitable to query both
    -- families."
    let want : ℤ := if 0 ≤ net.dhtSocket ∧ 0 ≤ net.dhtSocket6 then 3 else -1
    match (r.table af)[q]? with
    | none => (r, [], true, rs)
    | some b =>
      match randomNode b rs with
      | (none, rs) => (r, [], true, rs)
      | (some j, rs) =>
        let (r, pkts) := r.askNode net now af q j id want
        (r, pkts, true, rs)

/-- The families `bucket_maintenance` asks for. -/
def maintenanceWant (r : Routing) (af : ℕ) (id : Id) (rs : Random) : ℤ × Random :=
  if 0 ≤ net.dhtSocket ∧ 0 ≤ net.dhtSocket6 then
    let other := if af = afInet then afInet6 else afInet
    -- "The corresponding bucket in the other family is emptyish -- querying both is useful."
    if ((r.findBucket id other).elim false fun i => r.count other i < 8) then (3, rs)
    else
      let (x, rs) := random rs
      (if x % 37 = 0 then 3 else -1, rs)
  else (-1, rs)

/-- The loop of `bucket_maintenance` over the buckets at the given places. -/
def bucketMaintenanceFrom (r : Routing) (af : ℕ) :
    List ℕ → Random → Routing × List Packet × Bool × Random
  | [], rs => (r, [], false, rs)
  | i :: is, rs =>
    match (r.table af)[i]? with
    | none => (r, [], false, rs)
    | some b =>
      if b.time < now - 600 then
        let (id, rs) := bucketRandom b (r.table af)[i + 1]? rs
        let (q, rs) := r.chooseBucket af i rs
        match (r.table af)[q]? with
        | none => bucketMaintenanceFrom r af is rs
        | some b' =>
          match randomNode b' rs with
          | (none, rs) => bucketMaintenanceFrom r af is rs
          | (some j, rs) =>
            let (want, rs) := r.maintenanceWant net af id rs
            let (r, pkts) := r.askNode net now af q j id want
            (r, pkts, true, rs)
      else bucketMaintenanceFrom r af is rs

/-- `bucket_maintenance`. -/
def bucketMaintenance (r : Routing) (af : ℕ) (rs : Random) :
    Routing × List Packet × Bool × Random :=
  r.bucketMaintenanceFrom net now af (List.range (r.table af).length) rs

/-! ## Reading the table -/

/-- The buckets for which `in_bucket(myid, b)` fails. -/
def otherBuckets (myid : Id) : List Bucket → List Bucket
  | [] => []
  | b :: bs => if inBucket myid b bs.head? then otherBuckets myid bs else b :: otherBuckets myid bs

/-- The good nodes of a family in the order of `dht_get_nodes`: "the list must start with the
contents of our bucket". -/
def goodNodes (r : Routing) (myid : Id) (af : ℕ) : List Node :=
  match r.findBucket myid af with
  | none => []
  | some i =>
    ((r.table af)[i]?.elim [] Bucket.nodes ++
      (otherBuckets myid (r.table af)).flatMap Bucket.nodes).filter (nodeGood now)

/-- The addresses `dht_get_nodes` stores for `*num = num` and `*num6 = num6`. -/
def dhtGetNodes (r : Routing) (myid : Id) (num num6 : ℕ) : List Sockaddr × List Sockaddr :=
  (((r.goodNodes now myid afInet).take num).map fun n => n.ss.take sizeofSockaddrIn,
    ((r.goodNodes now myid afInet6).take num6).map fun n => n.ss.take sizeofSockaddrIn6)

/-- `good` and the result of `dht_nodes`. -/
def dhtNodes (r : Routing) (af : ℕ) : ℕ × ℕ :=
  let nodes := (r.table af).flatMap Bucket.nodes
  ((nodes.filter (nodeGood now)).length, nodes.length)

end Routing

end DtnDht
