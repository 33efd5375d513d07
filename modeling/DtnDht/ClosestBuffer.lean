import DtnDht.Encoded
import DtnDht.RoutingRun
import DtnDht.Lib.Closest
import DtnDht.Lib.Records
import DtnDht.Lib.Slots

/-!
# The closest nodes, packed

`send_closest_nodes` keeps the nodes it gathers as records of 26 or 38 bytes in two arrays on the
stack, and `insert_closest_node` makes room for a record by moving the ones behind it. The arrays
hold the records of the lists that `Routing.closestNodes` computes (`gatherClosest_eq`), and these
are the closest of the good nodes in up to three buckets.
-/

namespace DtnDht

open CString Closest

/-! ## Moving and writing -/

/-- `memmove(s + dst, s + src, n)`. -/
def memmove (s : Bytes) (dst src n : ℕ) : Bytes := write s dst (slice s src n)

theorem length_memmove {s : Bytes} {dst src n : ℕ} (hd : dst + n ≤ s.length)
    (hs : src + n ≤ s.length) : (memmove s dst src n).length = s.length := by
  unfold memmove
  rw [length_write]
  rwa [length_slice hs]

/-- Moving nothing is no different from not moving. -/
theorem memmove_zero (s : Bytes) (dst src : ℕ) : memmove s dst src 0 = s :=
  List.take_append_drop dst s

/-- Two writes, the second right behind the first. -/
theorem write_write {s as bs : Bytes} {off n : ℕ} (hn : off + as.length = n)
    (h : n ≤ s.length) : write (write s off as) n bs = write s off (as ++ bs) := by
  subst hn
  have hlen : (s.take off ++ as).length = off + as.length := by
    rw [List.length_append, List.length_take]
    omega
  have hdrop : (s.take off ++ as ++ s.drop (off + as.length)).drop
      (off + as.length + bs.length) = s.drop (off + as.length + bs.length) := by
    rw [← List.drop_drop, List.drop_left' hlen, List.drop_drop]
  unfold write
  rw [← List.append_assoc (s.take off), List.take_left' hlen, hdrop, List.length_append,
    ← Nat.add_assoc, List.append_assoc, List.append_assoc]

/-- A record is put in by moving what is behind its place up by its length. -/
theorem take_write_memmove {s rec : Bytes} {off n : ℕ}
    (h : off + rec.length + n ≤ s.length) :
    (write (memmove s (off + rec.length) off n) off rec).take (off + rec.length + n) =
      s.take off ++ rec ++ slice s off n := by
  have hslice : (slice s off n).length = n := length_slice (by omega)
  have hoff : (s.take off).length = off := by
    rw [List.length_take]
    omega
  have hfront : (s.take (off + rec.length)).length = off + rec.length := by
    rw [List.length_take]
    omega
  unfold memmove
  generalize hm : slice s off n = moved at hslice
  have htake : (write s (off + rec.length) moved).take off = s.take off := by
    unfold write
    rw [List.take_append_of_le_length (by omega), List.take_take, min_eq_left (by omega)]
  have hdrop : (write s (off + rec.length) moved).drop (off + rec.length) =
      moved ++ s.drop (off + rec.length + moved.length) := List.drop_left' hfront
  rw [write, htake, hdrop, ← List.append_assoc, ← List.append_assoc]
  apply List.take_left'
  rw [List.length_append, List.length_append, hoff, hslice]

/-! ## Records -/

/-- The length of the record of a node of a family. -/
def recordSize (af : ℕ) : ℕ := if af = afInet then 26 else 38

/-- The three copies at the end of `insert_closest_node`; none where it aborts. -/
def writeRecord (nodes : Bytes) (i : ℕ) (n : Node) : Option Bytes :=
  if n.ss.family = afInet then
    let nodes := write nodes (26 * i) n.id.bytes
    let nodes := write nodes (26 * i + 20) n.ss.sinAddr
    some (write nodes (26 * i + 24) n.ss.port)
  else if n.ss.family = afInet6 then
    let nodes := write nodes (38 * i) n.id.bytes
    let nodes := write nodes (38 * i + 20) n.ss.sin6Addr
    some (write nodes (38 * i + 36) n.ss.port)
  else none

/-- The loop of `insert_closest_node`, from `i` on for `k` records; none where it finds the id. -/
def scanClosest (nodes : Bytes) (size : ℕ) (nid id : Id) : ℕ → ℕ → Option ℕ
  | 0, i => some i
  | k + 1, i =>
    let mid := Id.ofBytes (nodes.drop (size * i))
    if idCmp nid mid = .eq then none
    else if xorcmp nid mid id < 0 then some i
    else scanClosest nodes size nid id k (i + 1)

/-- `insert_closest_node` on the packed nodes and their number; none where it aborts. -/
def insertClosestRecord (nodes : Bytes) (numnodes : ℕ) (id : Id) (n : Node) :
    Option (Bytes × ℕ) :=
  if n.ss.family ≠ afInet ∧ n.ss.family ≠ afInet6 then none
  else
    let size := recordSize n.ss.family
    match scanClosest nodes size n.id id numnodes 0 with
    | none => some (nodes, numnodes)
    | some i =>
      if i = 8 then some (nodes, numnodes)
      else
        let numnodes := if numnodes < 8 then numnodes + 1 else numnodes
        let nodes :=
          if i < numnodes - 1 then
            memmove nodes (size * (i + 1)) (size * i) (size * (numnodes - i - 1))
          else nodes
        (writeRecord nodes i n).map fun nodes => (nodes, numnodes)

/-- `buffer_closest_nodes` on the packed nodes. -/
def bufferClosestRecords (now : ℤ) (id : Id) (b : Bucket) (buf : Bytes × ℕ) :
    Option (Bytes × ℕ) :=
  b.nodes.foldlM (fun buf n =>
    if nodeGood now n then insertClosestRecord buf.1 buf.2 id n else some buf) buf

/-- What `send_closest_nodes` gathers for a family in its array, as it passes it on; `nodes` is
the array as the stack holds it. -/
def Routing.gatherClosest (now : ℤ) (r : Routing) (id : Id) (af : ℕ) (nodes : Bytes) :
    Option Bytes :=
  match r.findBucket id af with
  | none => some []
  | some i => do
    let buffer (buf : Bytes × ℕ) (i : ℕ) : Option (Bytes × ℕ) :=
      (r.table af)[i]?.elim (some buf) fun b => bufferClosestRecords now id b buf
    let buf ← buffer (nodes, 0) i
    let buf ← buffer buf (i + 1)
    let buf ← (previousBucket i).elim (some buf) (buffer buf)
    return buf.1.take (buf.2 * recordSize af)

/-! ## What the array holds -/

section Packed

variable {af : ℕ} {id : Id} {n : Node} {ns : List Node} {nodes : Bytes}

/-- A node of a family in a `struct sockaddr_storage`. -/
def Storable (af : ℕ) (n : Node) : Prop :=
  n.ss.family = af ∧ n.ss.length = sizeofSockaddrStorage

theorem length_nodeRecord (haf : IsFamily af) (hn : Storable af n) :
    (nodeRecord n).length = recordSize af := by
  obtain ⟨rfl, hlen⟩ := hn
  have hport : n.ss.port.length = 2 := length_slice (by rw [hlen]; decide)
  unfold nodeRecord recordSize Sockaddr.ip
  rw [List.length_append, List.length_append, n.id.length_bytes, hport]
  split_ifs with h
  · have : n.ss.sinAddr.length = 4 := length_slice (by rw [hlen]; decide)
    omega
  · have : n.ss.sin6Addr.length = 16 := length_slice (by rw [hlen]; decide)
    omega

/-- The three copies write one record. -/
theorem writeRecord_eq (haf : IsFamily af) (hn : Storable af n) {i : ℕ}
    (h : recordSize af * i + recordSize af ≤ nodes.length) :
    writeRecord nodes i n = some (write nodes (recordSize af * i) (nodeRecord n)) := by
  obtain ⟨rfl, hlen⟩ := hn
  have hid := n.id.length_bytes
  unfold writeRecord
  rcases haf with h4 | h6
  · have hip : n.ss.sinAddr.length = 4 := length_slice (by rw [hlen]; decide)
    have hrec : nodeRecord n = n.id.bytes ++ n.ss.sinAddr ++ n.ss.port := by
      unfold nodeRecord Sockaddr.ip
      rw [if_pos h4]
    have hsize : recordSize n.ss.family = 26 := if_pos h4
    rw [hsize] at h ⊢
    have h1 : 26 * i + n.id.bytes.length = 26 * i + 20 := by omega
    have h2 : 26 * i + (n.id.bytes ++ n.ss.sinAddr).length = 26 * i + 24 := by
      rw [List.length_append]
      omega
    rw [if_pos h4, hrec]
    dsimp only
    rw [write_write h1 (by omega), write_write h2 (by omega)]
  · have hip : n.ss.sin6Addr.length = 16 := length_slice (by rw [hlen]; decide)
    have h4 : n.ss.family ≠ afInet := by
      rw [h6]
      decide
    have hrec : nodeRecord n = n.id.bytes ++ n.ss.sin6Addr ++ n.ss.port := by
      unfold nodeRecord Sockaddr.ip
      rw [if_neg h4]
    have hsize : recordSize n.ss.family = 38 := if_neg h4
    rw [hsize] at h ⊢
    have h1 : 38 * i + n.id.bytes.length = 38 * i + 20 := by omega
    have h2 : 38 * i + (n.id.bytes ++ n.ss.sin6Addr).length = 38 * i + 36 := by
      rw [List.length_append]
      omega
    rw [if_neg h4, if_pos h6, hrec]
    dsimp only
    rw [write_write h1 (by omega), write_write h2 (by omega)]

theorem length_flatMap_nodeRecord (haf : IsFamily af) (h : ∀ n ∈ ns, Storable af n) :
    (ns.flatMap nodeRecord).length = recordSize af * ns.length := by
  have hlen : ∀ r ∈ ns.map nodeRecord, r.length = recordSize af := by
    intro r hr
    obtain ⟨n, hn, rfl⟩ := List.mem_map.mp hr
    exact length_nodeRecord haf (h n hn)
  rw [List.flatMap_def, Records.length_flatten hlen, List.length_map, Nat.mul_comm]

/-- A run of records, cut out of all. -/
theorem slice_flatMap_nodeRecord (haf : IsFamily af) (h : ∀ n ∈ ns, Storable af n) {k m : ℕ}
    (hk : k + m ≤ ns.length) (rest : Bytes) :
    slice (ns.flatMap nodeRecord ++ rest) (recordSize af * k) (recordSize af * m) =
      ((ns.drop k).take m).flatMap nodeRecord := by
  have hsplit : ns = ns.take k ++ ((ns.drop k).take m ++ (ns.drop k).drop m) := by
    rw [List.take_append_drop, List.take_append_drop]
  have hfront : ((ns.take k).flatMap nodeRecord).length = recordSize af * k := by
    rw [length_flatMap_nodeRecord haf fun n hn => h n (List.mem_of_mem_take hn), List.length_take,
      min_eq_left (by omega)]
  have hcut : (((ns.drop k).take m).flatMap nodeRecord).length = recordSize af * m := by
    rw [length_flatMap_nodeRecord haf fun n hn =>
      h n (List.mem_of_mem_drop (List.mem_of_mem_take hn)), List.length_take, List.length_drop,
      min_eq_left (by omega)]
  unfold slice
  rw [congrArg (List.flatMap nodeRecord) hsplit, List.flatMap_append, List.flatMap_append,
    List.append_assoc, List.append_assoc, List.drop_left' hfront, List.take_left' hcut]

theorem ofBytes_bytes_append (id : Id) (s : Bytes) : Id.ofBytes (id.bytes ++ s) = id := by
  obtain ⟨bytes, h⟩ := id
  unfold Id.ofBytes
  simp only [Id.mk.injEq]
  rw [List.append_assoc, List.take_left' h]

/-- What the loop finds, in terms of the list whose records the array holds. -/
theorem insertClosestNodeAt_of_scan (haf : IsFamily af) {pre : List Node} {rest : Bytes}
    (hpre : ∀ n ∈ pre, Storable af n) {out : Option ℕ}
    (h : scanClosest (pre.flatMap nodeRecord ++ (ns.flatMap nodeRecord ++ rest)) (recordSize af)
      n.id id ns.length pre.length = out)
    (hns : ∀ n ∈ ns, Storable af n) :
    match out with
    | none => insertClosestNodeAt id n ns = ns
    | some k => ∃ i ≤ ns.length, k = pre.length + i ∧
        insertClosestNodeAt id n ns = ns.insertIdx i n := by
  induction ns generalizing pre with
  | nil =>
    subst h
    exact ⟨0, le_rfl, rfl, rfl⟩
  | cons m ns ih =>
    have hm : Id.ofBytes ((pre.flatMap nodeRecord ++
        ((m :: ns).flatMap nodeRecord ++ rest)).drop (recordSize af * pre.length)) = m.id := by
      rw [List.drop_left' (length_flatMap_nodeRecord haf hpre), List.flatMap_cons, nodeRecord,
        List.append_assoc, List.append_assoc, List.append_assoc]
      exact ofBytes_bytes_append m.id _
    rw [List.length_cons, scanClosest, hm] at h
    unfold insertClosestNodeAt
    by_cases h1 : idCmp n.id m.id = .eq
    · rw [if_pos h1] at h
      rw [if_pos h1]
      subst h
      rfl
    · rw [if_neg h1] at h
      rw [if_neg h1]
      by_cases h2 : xorcmp n.id m.id id < 0
      · rw [if_pos h2] at h
        rw [if_pos h2]
        subst h
        exact ⟨0, Nat.zero_le _, rfl, rfl⟩
      · rw [if_neg h2] at h
        rw [if_neg h2]
        -- the record joins those passed
        have hmem : ∀ n ∈ pre ++ [m], Storable af n := by
          intro n hn
          rcases List.mem_append.mp hn with hn | hn
          · exact hpre n hn
          · rw [List.mem_singleton.mp hn]
            exact hns m List.mem_cons_self
        have hsplit : (pre ++ [m]).flatMap nodeRecord ++ (ns.flatMap nodeRecord ++ rest) =
            pre.flatMap nodeRecord ++ ((m :: ns).flatMap nodeRecord ++ rest) := by
          simp only [List.flatMap_append, List.flatMap_cons, List.flatMap_nil, List.append_nil,
            List.append_assoc]
        have hlen : (pre ++ [m]).length = pre.length + 1 := List.length_append
        have hrest := ih hmem (by rw [hsplit, hlen]; exact h)
          fun n hn => hns n (List.mem_cons_of_mem m hn)
        cases out with
        | none => exact congrArg (m :: ·) hrest
        | some k =>
          obtain ⟨i, hi, hk, hat⟩ := hrest
          refine ⟨i + 1, Nat.succ_le_succ hi, by omega, ?_⟩
          rw [hat]
          rfl

/-- The array holds the records of `ns`. -/
structure Packed (af : ℕ) (nodes : Bytes) (ns : List Node) : Prop where
  length_nodes : nodes.length = recordSize af * 8
  length_le : ns.length ≤ 8
  storable : ∀ n ∈ ns, Storable af n
  take : nodes.take (recordSize af * ns.length) = ns.flatMap nodeRecord

/-- The records of `ns` and one more, put in as the `k`-th; `n'` of them stay. -/
theorem Packed.insert (haf : IsFamily af) (hp : Packed af nodes ns) (hn : Storable af n)
    {k n' : ℕ} (hk : k < n') (hk' : k ≤ ns.length)
    (hn' : (if ns.length < 8 then ns.length + 1 else ns.length) = n') :
    ((ns.insertIdx k n).take 8).length = n' ∧
      ∃ nodes', writeRecord
          (if k < n' - 1 then memmove nodes (recordSize af * (k + 1)) (recordSize af * k)
            (recordSize af * (n' - k - 1)) else nodes) k n = some nodes' ∧
        Packed af nodes' ((ns.insertIdx k n).take 8) := by
  have hle := hp.length_le
  obtain ⟨h2, h3⟩ : n' ≤ 8 ∧ n' ≤ ns.length + 1 := by
    split_ifs at hn' <;> omega
  -- at most seven of the records behind the place stay
  have hlist : (ns.insertIdx k n).take 8 = ns.take k ++ n :: (ns.drop k).take (n' - k - 1) := by
    rw [Slots.take_insertIdx hk' (by omega), List.append_cancel_left_eq, List.cons.injEq,
      List.take_eq_take_iff, List.length_drop]
    refine ⟨rfl, ?_⟩
    split_ifs at hn' <;> omega
  have hlen : ((ns.insertIdx k n).take 8).length = n' := by
    rw [hlist, List.length_append, List.length_cons, List.length_take, List.length_take,
      List.length_drop]
    omega
  have hrec : (nodeRecord n).length = recordSize af := length_nodeRecord haf hn
  have hsize : recordSize af * n' =
      recordSize af * k + recordSize af + recordSize af * (n' - k - 1) := by
    obtain ⟨m, rfl⟩ : ∃ m, n' = k + 1 + m := ⟨n' - k - 1, by omega⟩
    rw [show k + 1 + m - k - 1 = m by omega]
    ring
  have hroom : recordSize af * n' ≤ nodes.length := by
    rw [hp.length_nodes]
    exact Nat.mul_le_mul_left _ h2
  have hmove : (if k < n' - 1 then memmove nodes (recordSize af * (k + 1)) (recordSize af * k)
      (recordSize af * (n' - k - 1)) else nodes) =
      memmove nodes (recordSize af * k + (nodeRecord n).length) (recordSize af * k)
        (recordSize af * (n' - k - 1)) := by
    rw [hrec, ← Nat.mul_succ]
    split_ifs with hlt
    · rfl
    · rw [show n' - k - 1 = 0 by omega, Nat.mul_zero, memmove_zero]
  have hmoved : (memmove nodes (recordSize af * k + (nodeRecord n).length) (recordSize af * k)
      (recordSize af * (n' - k - 1))).length = nodes.length :=
    length_memmove (by omega) (by omega)
  refine ⟨hlen, _, by rw [hmove]; exact writeRecord_eq haf hn (by omega), ?_, ?_, ?_, ?_⟩
  · rw [length_write (by omega), hmoved, hp.length_nodes]
  · rw [hlen]
    exact h2
  · intro m hm
    rw [hlist, List.mem_append, List.mem_cons] at hm
    rcases hm with hm | rfl | hm
    · exact hp.storable m (List.mem_of_mem_take hm)
    · exact hn
    · exact hp.storable m (List.mem_of_mem_drop (List.mem_of_mem_take hm))
  · have hall : nodes = ns.flatMap nodeRecord ++ nodes.drop (recordSize af * ns.length) := by
      rw [← hp.take, List.take_append_drop]
    have hfront := slice_flatMap_nodeRecord haf hp.storable (k := 0) (m := k) (by omega)
      (nodes.drop (recordSize af * ns.length))
    have hback := slice_flatMap_nodeRecord haf hp.storable (k := k) (m := n' - k - 1) (by omega)
      (nodes.drop (recordSize af * ns.length))
    rw [← hall] at hfront hback
    have htake := @take_write_memmove nodes (nodeRecord n) (recordSize af * k)
      (recordSize af * (n' - k - 1)) (by omega)
    rw [hback, hrec, ← hsize] at htake
    have hfront' : nodes.take (recordSize af * k) = (ns.take k).flatMap nodeRecord := hfront
    rw [hlen, hlist, hrec, htake, hfront', List.flatMap_append, List.flatMap_cons,
      List.append_assoc]

/-- **`insert_closest_node` on the array** does what it does on the list. -/
theorem insertClosestRecord_spec (id : Id) (haf : IsFamily af) (hp : Packed af nodes ns)
    (hn : Storable af n) :
    ∃ nodes', insertClosestRecord nodes ns.length id n =
        some (nodes', (insertClosestNode ns id n).length) ∧
      Packed af nodes' (insertClosestNode ns id n) := by
  have hfam : ¬ (n.ss.family ≠ afInet ∧ n.ss.family ≠ afInet6) := by
    rw [hn.1]
    rcases haf with rfl | rfl
    · exact fun h => h.1 rfl
    · exact fun h => h.2 rfl
  have hbuf : nodes = ([] : List Node).flatMap nodeRecord ++
      (ns.flatMap nodeRecord ++ nodes.drop (recordSize af * ns.length)) := by
    rw [← hp.take, List.take_append_drop]
    rfl
  have hle := hp.length_le
  unfold insertClosestRecord
  rw [if_neg hfam, hn.1]
  dsimp only
  generalize hscan : scanClosest nodes (recordSize af) n.id id ns.length 0 = out
  rw [hbuf] at hscan
  have hat := insertClosestNodeAt_of_scan haf (fun n hn => absurd hn List.not_mem_nil) hscan
    hp.storable
  unfold insertClosestNode
  cases out with
  | none =>
    dsimp only at hat ⊢
    rw [hat, List.take_of_length_le hle]
    exact ⟨nodes, rfl, hp⟩
  | some k =>
    dsimp only at hat ⊢
    obtain ⟨i, hi, hk, hat⟩ := hat
    obtain rfl : k = i := by simpa using hk
    rw [hat]
    by_cases h8 : k = 8
    · rw [if_pos h8, List.take_insertIdx_eq_take_of_le _ _ _ _ h8.ge, List.take_of_length_le hle]
      exact ⟨nodes, rfl, hp⟩
    · rw [if_neg h8]
      obtain ⟨hlen, nodes', hw, hp'⟩ := hp.insert haf hn (by split_ifs <;> omega) hi rfl
      rw [hw, hlen]
      exact ⟨nodes', rfl, hp'⟩

theorem bufferClosestRecords_spec (haf : IsFamily af) (now : ℤ) {b : Bucket}
    (hb : ∀ n ∈ b.nodes, Storable af n) (hp : Packed af nodes ns) :
    ∃ nodes', bufferClosestRecords now id b (nodes, ns.length) =
        some (nodes', (bufferClosestNodes now ns id b).length) ∧
      Packed af nodes' (bufferClosestNodes now ns id b) := by
  unfold bufferClosestRecords bufferClosestNodes
  generalize b.nodes = l at hb
  induction l generalizing nodes ns with
  | nil => exact ⟨nodes, rfl, hp⟩
  | cons n l ih =>
    have hl : ∀ m ∈ l, Storable af m := fun m hm => hb m (List.mem_cons_of_mem n hm)
    rw [List.foldlM_cons, List.foldl_cons]
    by_cases hg : nodeGood now n = true
    · obtain ⟨nodes', heq, hp'⟩ :=
        insertClosestRecord_spec id haf hp (hb n List.mem_cons_self)
      rw [if_pos hg, if_pos hg, heq]
      exact ih hp' hl
    · rw [if_neg hg, if_neg hg]
      exact ih hp hl

/-- **What `send_closest_nodes` passes on** are the records of the list. -/
theorem gatherClosest_eq (haf : IsFamily af) (now : ℤ) {r : Routing}
    (hr : ∀ b ∈ r.table af, ∀ n ∈ b.nodes, Storable af n)
    (hlen : nodes.length = recordSize af * 8) :
    r.gatherClosest now id af nodes = some ((r.closestNodes now id af).flatMap nodeRecord) := by
  unfold Routing.gatherClosest Routing.closestNodes
  cases r.findBucket id af with
  | none => rfl
  | some i =>
    have hstep (j : ℕ) {nodes : Bytes} {ns : List Node} (hp : Packed af nodes ns) :
        ∃ nodes', (r.table af)[j]?.elim (some (nodes, ns.length))
            (fun b => bufferClosestRecords now id b (nodes, ns.length)) =
            some (nodes', ((r.table af)[j]?.elim ns (bufferClosestNodes now ns id)).length) ∧
          Packed af nodes' ((r.table af)[j]?.elim ns (bufferClosestNodes now ns id)) := by
      cases hj : (r.table af)[j]? with
      | none => exact ⟨nodes, rfl, hp⟩
      | some b => exact bufferClosestRecords_spec haf now (hr b (List.mem_of_getElem? hj)) hp
    have h0 : Packed af nodes [] :=
      ⟨hlen, Nat.zero_le 8, fun n hn => absurd hn List.not_mem_nil, rfl⟩
    obtain ⟨nodes1, h1, hp1⟩ := hstep i h0
    obtain ⟨nodes2, h2, hp2⟩ := hstep (i + 1) hp1
    rw [List.length_nil] at h1
    dsimp only
    rw [h1, Option.bind_eq_bind, Option.bind_some, h2, Option.bind_some]
    have hend : ∀ {nodes : Bytes} {ns : List Node}, Packed af nodes ns →
        nodes.take (ns.length * recordSize af) = ns.flatMap nodeRecord := by
      intro nodes ns hp
      rw [Nat.mul_comm, hp.take]
    cases previousBucket i with
    | none => exact congrArg some (hend hp2)
    | some p =>
      obtain ⟨nodes3, h3, hp3⟩ := hstep p hp2
      dsimp only [Option.elim_some]
      rw [h3]
      exact congrArg some (hend hp3)

end Packed

/-! ## The closest good nodes -/

namespace Routing

/-- The bucket of an id, its successor and its predecessor. -/
def inspected (r : Routing) (id : Id) (af : ℕ) : List Bucket :=
  match r.findBucket id af with
  | none => []
  | some i => (i :: (i + 1) :: (previousBucket i).toList).filterMap ((r.table af)[·]?)

/-- The good nodes of these buckets. -/
def goodAround (now : ℤ) (r : Routing) (id : Id) (af : ℕ) : List Node :=
  (r.inspected id af).flatMap fun b => b.nodes.filter (nodeGood now)

/-- `r'` has the nodes of `r`, in any order inside the buckets of the family. -/
def Reordered (af : ℕ) (r r' : Routing) : Prop :=
  List.Forall₂ (fun b b' => b.first = b'.first ∧ b.nodes.Perm b'.nodes) (r.table af) (r'.table af)

end Routing

section Closest

variable {af : ℕ} {id : Id} {now : ℤ} {r r' : Routing} {ns l : List Node}

theorem bufferClosestNodes_eq (b : Bucket) : bufferClosestNodes now ns id b =
    (b.nodes.filter (nodeGood now)).foldl (insertClosestNode · id) ns :=
  List.foldl_filter.symm

theorem closestNodes_eq (r : Routing) : r.closestNodes now id af =
    (r.goodAround now id af).foldl (insertClosestNode · id) [] := by
  unfold Routing.closestNodes Routing.goodAround Routing.inspected
  cases r.findBucket id af with
  | none => rfl
  | some i =>
    have hstep (ns : List Node) (j : ℕ) :
        (r.table af)[j]?.elim ns (bufferClosestNodes now ns id) =
          (((r.table af)[j]?.toList).flatMap fun b => b.nodes.filter (nodeGood now)).foldl
            (insertClosestNode · id) ns := by
      cases (r.table af)[j]? with
      | none => rfl
      | some b =>
        rw [Option.elim_some, bufferClosestNodes_eq, Option.toList_some, List.flatMap_singleton]
    dsimp only
    rw [List.filterMap_eq_flatMap_toList, List.flatMap_cons, List.flatMap_cons,
      List.flatMap_append, List.flatMap_append, List.foldl_append, List.foldl_append, ← hstep,
      ← hstep]
    cases previousBucket i with
    | none => rfl
    | some p =>
      rw [Option.toList_some, List.flatMap_singleton, ← hstep]
      rfl

/-- The keys of the list, after a node is put in its place. -/
theorem map_dist_insertClosestNodeAt (id : Id) (n : Node) :
    (insertClosestNodeAt id n ns).map (fun n => id.dist n.id) =
      ins (id.dist n.id) (ns.map fun n => id.dist n.id) := by
  induction ns with
  | nil => rfl
  | cons m ns ih =>
    have heq : idCmp n.id m.id = .eq ↔ id.dist n.id = id.dist m.id := by
      rw [idCmp_eq_eq, id.dist_injective.eq_iff]
    unfold insertClosestNodeAt
    rw [List.map_cons, ins]
    simp only [heq, xorcmp_neg_iff]
    split_ifs
    · rfl
    · rfl
    · rw [List.map_cons, ih]

theorem map_dist_foldl (l : List Node) :
    (l.foldl (insertClosestNode · id) []).map (fun n => id.dist n.id) =
      least 8 (l.map fun n => id.dist n.id).toFinset := by
  have h : ∀ ns : List Node, (l.foldl (insertClosestNode · id) ns).map (fun n => id.dist n.id) =
      (l.map fun n => id.dist n.id).foldl (fun l k => (ins k l).take 8)
        (ns.map fun n => id.dist n.id) := by
    intro ns
    induction l generalizing ns with
    | nil => rfl
    | cons n l ih =>
      rw [List.foldl_cons, ih, List.map_cons, List.foldl_cons, insertClosestNode, List.map_take,
        map_dist_insertClosestNodeAt]
  have h0 := foldl_ins (c := 8) (l.map fun n => id.dist n.id) ∅
  rw [least_empty, Finset.union_empty] at h0
  rw [h, ← h0]
  rfl

theorem mem_insertClosestNodeAt {n m : Node} (h : m ∈ insertClosestNodeAt id n ns) :
    m = n ∨ m ∈ ns := by
  induction ns with
  | nil => exact Or.inl (List.mem_singleton.mp h)
  | cons k ns ih =>
    unfold insertClosestNodeAt at h
    split_ifs at h
    · exact Or.inr h
    · exact List.mem_cons.mp h
    · rcases List.mem_cons.mp h with rfl | h
      · exact Or.inr List.mem_cons_self
      · exact (ih h).imp_right (List.mem_cons_of_mem k)

theorem mem_foldl_insertClosestNode {m : Node} (h : m ∈ l.foldl (insertClosestNode · id) ns) :
    m ∈ l ∨ m ∈ ns := by
  induction l generalizing ns with
  | nil => exact Or.inr h
  | cons n l ih =>
    rcases ih h with h | h
    · exact Or.inl (List.mem_cons_of_mem n h)
    · rcases mem_insertClosestNodeAt (List.mem_of_mem_take h) with rfl | h
      · exact Or.inl List.mem_cons_self
      · exact Or.inr h

theorem selects_closestNodes (now : ℤ) (r : Routing) (id : Id) (af : ℕ) :
    Selects (fun n => id.dist n.id) 8 (r.goodAround now id af) (r.closestNodes now id af) := by
  rw [closestNodes_eq]
  exact selects_of_map_eq (map_dist_foldl _) fun n hn =>
    (mem_foldl_insertClosestNode hn).resolve_right List.not_mem_nil

/-! ## No node twice, and no order -/

/-- Cells at distinct places of a list whose cells share nothing. -/
theorem nodup_flatMap_getElem? {α β : Type*} {f : α → List β} {xs : List α} {is : List ℕ}
    (hx : (xs.flatMap f).Nodup) (his : is.Nodup) :
    ((is.filterMap (xs[·]?)).flatMap f).Nodup := by
  obtain ⟨hone, hpair⟩ := List.nodup_flatMap.mp hx
  refine List.nodup_flatMap.mpr ⟨fun x hx' => ?_, ?_⟩
  · obtain ⟨i, -, hi⟩ := List.mem_filterMap.mp hx'
    exact hone x (List.mem_of_getElem? hi)
  · rw [List.pairwise_filterMap]
    refine his.imp fun {i j} hij x hx' y hy => ?_
    obtain ⟨hi, rfl⟩ := List.getElem?_eq_some_iff.mp hx'
    obtain ⟨hj, rfl⟩ := List.getElem?_eq_some_iff.mp hy
    rcases Nat.lt_or_gt_of_ne hij with hlt | hgt
    · exact List.pairwise_iff_getElem.mp hpair i j hi hj hlt
    · exact (List.pairwise_iff_getElem.mp hpair j i hj hi hgt).symm

theorem nodup_goodAround (now : ℤ) (id : Id)
    (h : ((r.table af).flatMap fun b => b.nodes.map Node.id).Nodup) :
    ((r.goodAround now id af).map Node.id).Nodup := by
  have hall : ((r.inspected id af).flatMap fun b => b.nodes.map Node.id).Nodup := by
    unfold Routing.inspected
    cases r.findBucket id af with
    | none => exact List.nodup_nil
    | some i =>
      apply nodup_flatMap_getElem? h
      unfold previousBucket
      split_ifs with hi
      · simp
      · simp only [Option.toList_some, List.nodup_cons, List.mem_cons, List.not_mem_nil, or_false]
        refine ⟨?_, ?_, fun h => h, List.nodup_nil⟩ <;> omega
  unfold Routing.goodAround
  rw [List.map_flatMap]
  obtain ⟨hone, hpair⟩ := List.nodup_flatMap.mp hall
  refine List.nodup_flatMap.mpr ⟨fun b hb => ?_, hpair.imp fun hd => ?_⟩
  · exact (hone b hb).sublist (List.filter_sublist.map Node.id)
  · intro x hx hy
    exact hd ((List.filter_sublist.map Node.id).subset hx)
      ((List.filter_sublist.map Node.id).subset hy)

theorem forall₂_getElem? {α β : Type*} {R : α → β → Prop} {xs : List α} {ys : List β}
    (h : List.Forall₂ R xs ys) (is : List ℕ) :
    List.Forall₂ R (is.filterMap (xs[·]?)) (is.filterMap (ys[·]?)) := by
  induction is with
  | nil => exact List.Forall₂.nil
  | cons i is ih =>
    have hlen := h.length_eq
    by_cases hi : i < xs.length
    · have hi' : i < ys.length := hlen ▸ hi
      rw [List.filterMap_cons_some (List.getElem?_eq_getElem hi),
        List.filterMap_cons_some (List.getElem?_eq_getElem hi')]
      exact List.Forall₂.cons (h.get hi hi') ih
    · have hi' : ys.length ≤ i := hlen ▸ not_lt.mp hi
      rw [List.filterMap_cons_none (List.getElem?_eq_none (not_lt.mp hi)),
        List.filterMap_cons_none (List.getElem?_eq_none hi')]
      exact ih

theorem findBucket_reordered (h : Routing.Reordered af r r') :
    r.findBucket id af = r'.findBucket id af := by
  apply findBucket_congr
  unfold Routing.Reordered at h
  generalize r.table af = bs, r'.table af = bs' at h
  induction h with
  | nil => rfl
  | cons hb _ ih => rw [List.map_cons, List.map_cons, hb.1, ih]

theorem goodAround_perm (now : ℤ) (id : Id) (h : Routing.Reordered af r r') :
    (r.goodAround now id af).Perm (r'.goodAround now id af) := by
  have hins : List.Forall₂ (fun b b' : Bucket => b.first = b'.first ∧ b.nodes.Perm b'.nodes)
      (r.inspected id af) (r'.inspected id af) := by
    unfold Routing.inspected
    rw [← findBucket_reordered h]
    cases r.findBucket id af with
    | none => exact List.Forall₂.nil
    | some i => exact forall₂_getElem? h _
  unfold Routing.goodAround
  generalize r.inspected id af = bs, r'.inspected id af = bs' at hins
  induction hins with
  | nil => exact List.Perm.nil
  | cons hb _ ih =>
    rw [List.flatMap_cons, List.flatMap_cons]
    exact (hb.2.filter _).append ih

/-- **The order inside the buckets does not matter.** -/
theorem closestNodes_reordered (h : Routing.Reordered af r r')
    (hnodup : ((r.goodAround now id af).map Node.id).Nodup) :
    r'.closestNodes now id af = r.closestNodes now id af := by
  have hperm := goodAround_perm now id h
  have hkeys : (r'.closestNodes now id af).map (fun n => id.dist n.id) =
      (r.closestNodes now id af).map fun n => id.dist n.id := by
    rw [closestNodes_eq, closestNodes_eq, map_dist_foldl, map_dist_foldl,
      List.toFinset_eq_of_perm _ _ (hperm.map _)]
  refine eq_of_map_eq (fun a ha b hb hab => ?_) hkeys
  have ha' := hperm.mem_iff.mpr ((selects_closestNodes now r' id af).mem_offered a ha)
  have hb' := (selects_closestNodes now r id af).mem_offered b hb
  exact List.inj_on_of_nodup_map hnodup ha' hb' (id.dist_injective hab)

end Closest

/-! ## The answer -/

/-- What `send_closest_nodes` passes on for the family of a flag, `nodes` being its array. -/
def Routing.passedOn (now : ℤ) (r : Routing) (id : Id) (want flag af : ℕ) (nodes : Bytes) :
    Option Bytes :=
  if want &&& flag ≠ 0 then r.gatherClosest now id af nodes else some []

/-- `bytes` are the records of the good nodes around `id` that are closest to it. -/
structure CarriesClosest (now : ℤ) (r : Routing) (id : Id) (af : ℕ) (bytes : Bytes)
    (ns : List Node) : Prop where
  length_bytes : bytes.length = recordSize af * ns.length
  record : ∀ k n, ns[k]? = some n →
    slice bytes (recordSize af * k) (recordSize af) = n.id.bytes ++ n.ss.ip ++ n.ss.port
  selects : Selects (fun n => id.dist n.id) 8 (r.goodAround now id af) ns
  length_eq : ns.length = min 8 (r.goodAround now id af).length
  nodup : (ns.map Node.id).Nodup
  unordered : ∀ (r' : Routing) (nodes : Bytes), Routing.Reordered af r r' →
    nodes.length = recordSize af * 8 → r'.gatherClosest now id af nodes = some bytes

section Answer

variable {af : ℕ} {id : Id} {now : ℤ} {r : Routing} {myid : Id}

theorem storable_of_invariant (hr : TableInvariant af myid (r.table af))
    (hss : ∀ b ∈ r.table af, ∀ n ∈ b.nodes, n.ss.length = sizeofSockaddrStorage) :
    ∀ b ∈ r.table af, ∀ n ∈ b.nodes, Storable af n := by
  intro b hb n hn
  obtain ⟨hfam, hnodes⟩ := hr.family b hb
  exact ⟨(hnodes n hn).trans hfam, hss b hb n hn⟩

theorem storable_reordered {r' : Routing} (h : Routing.Reordered af r r')
    (hr : ∀ b ∈ r.table af, ∀ n ∈ b.nodes, Storable af n) :
    ∀ b ∈ r'.table af, ∀ n ∈ b.nodes, Storable af n := by
  unfold Routing.Reordered at h
  generalize r.table af = bs, r'.table af = bs' at h hr
  induction h with
  | nil => exact fun b hb => absurd hb List.not_mem_nil
  | cons hb _ ih =>
    intro b hb' n hn
    rcases List.mem_cons.mp hb' with rfl | hb'
    · exact hr _ List.mem_cons_self n (hb.2.mem_iff.mpr hn)
    · exact ih (fun c hc => hr c (List.mem_cons_of_mem _ hc)) b hb' n hn

theorem storable_of_mem_inspected (hr : ∀ b ∈ r.table af, ∀ n ∈ b.nodes, Storable af n) :
    ∀ n ∈ r.goodAround now id af, Storable af n := by
  intro n hn
  obtain ⟨b, hb, hn⟩ := List.mem_flatMap.mp hn
  have hmem : b ∈ r.table af := by
    unfold Routing.inspected at hb
    cases hi : r.findBucket id af with
    | none => rw [hi] at hb; exact absurd hb List.not_mem_nil
    | some i =>
      rw [hi] at hb
      obtain ⟨j, -, hj⟩ := List.mem_filterMap.mp hb
      exact List.mem_of_getElem? hj
  exact hr b hmem n (List.mem_of_mem_filter hn)

theorem carriesClosest (haf : IsFamily af) (hr : TableInvariant af myid (r.table af))
    (hss : ∀ b ∈ r.table af, ∀ n ∈ b.nodes, n.ss.length = sizeofSockaddrStorage) :
    CarriesClosest now r id af ((r.closestNodes now id af).flatMap nodeRecord)
      (r.closestNodes now id af) := by
  have hstore := storable_of_invariant hr hss
  have hsel := selects_closestNodes now r id af
  have hnodup := nodup_goodAround now id hr.nodup
  have hns : ∀ n ∈ r.closestNodes now id af, Storable af n := fun n hn =>
    storable_of_mem_inspected hstore n (hsel.mem_offered n hn)
  constructor
  · exact length_flatMap_nodeRecord haf hns
  · intro k n hk
    obtain ⟨hlt, rfl⟩ := List.getElem?_eq_some_iff.mp hk
    have h := slice_flatMap_nodeRecord haf hns (k := k) (m := 1) hlt []
    rw [List.append_nil, Nat.mul_one, List.drop_eq_getElem_cons hlt] at h
    exact h.trans (List.append_nil _)
  · exact hsel
  · have hcard : ((r.goodAround now id af).map fun n => id.dist n.id).Nodup := by
      have h := hnodup.map id.dist_injective
      rwa [List.map_map] at h
    rw [hsel.length_kept, List.toFinset_card_of_nodup hcard, List.length_map]
  · exact List.pairwise_map.mpr (hsel.increasing.imp fun hlt he => hlt.ne (congrArg id.dist he))
  · intro r' nodes hre hlen
    rw [gatherClosest_eq haf now (storable_reordered hre hstore) hlen,
      closestNodes_reordered hre hnodup]

theorem passedOn_eq (haf : IsFamily af) (hr : TableInvariant af myid (r.table af))
    (hss : ∀ b ∈ r.table af, ∀ n ∈ b.nodes, n.ss.length = sizeofSockaddrStorage) {nodes : Bytes}
    (hlen : nodes.length = recordSize af * 8) (want flag : ℕ) :
    r.passedOn now id want flag af nodes =
      some (if want &&& flag ≠ 0 then (r.closestNodes now id af).flatMap nodeRecord else []) := by
  unfold Routing.passedOn
  split_ifs
  · exact gatherClosest_eq haf now (storable_of_invariant hr hss) hlen
  · rfl

/-- An answer to an address fits and may be sent. -/
structure Answerable (net : Net) (tid token : Bytes) (sa : Sockaddr) (salen : ℕ) : Prop where
  version : net.VersionFits
  tid_le : tid.length ≤ 16
  token_le : token.length ≤ 40
  socket : 0 ≤ net.socket sa
  not_blacklisted : net.nodeBlacklisted sa salen = false

/-- **Answers carry the closest good nodes.** What `send_closest_nodes` gathers in its two arrays
and sends, in one packet with the peers of the storage, are for each requested family the records of
the good nodes closest to the id in its bucket and the ones before and behind it, whatever the order
of the nodes there. Each address is a `struct sockaddr_storage`. -/
theorem closest_nodes_sent (net : Net) (now : ℤ) (r : Routing) (sa : Sockaddr) (salen : ℕ)
    (tid : Bytes) (id : Id) (want : ℤ) (af : ℕ) (st : Option Storage) (token : Bytes)
    (rs : Random) (nodes nodes6 : Bytes)
    (hinv : ∀ af, IsFamily af → TableInvariant af net.myid (r.table af))
    (hss : ∀ af, IsFamily af → ∀ b ∈ r.table af, ∀ n ∈ b.nodes,
      n.ss.length = sizeofSockaddrStorage)
    (hnodes : nodes.length = 8 * 26) (hnodes6 : nodes6.length = 8 * 38) :
    ∃ bytes bytes6,
      r.passedOn now id (requested sa want) want4 afInet nodes = some bytes ∧
      r.passedOn now id (requested sa want) want6 afInet6 nodes6 = some bytes6 ∧
      (sendClosestNodes net now r sa salen tid id want af st token rs).1 = dhtSendBuf net
        (sendNodesPeers net tid bytes bytes6 (answerPeers af (random rs).1 st) token) 0 sa salen ∧
      (Answerable net tid token sa salen →
        (sendClosestNodes net now r sa salen tid id want af st token rs).1 =
          [⟨nodesPeersText net tid bytes bytes6 (answerPeers af (random rs).1 st) token, 0, sa,
            salen⟩]) ∧
      (requested sa want &&& want4 ≠ 0 → ∃ ns, CarriesClosest now r id afInet bytes ns) ∧
      (requested sa want &&& want6 ≠ 0 → ∃ ns, CarriesClosest now r id afInet6 bytes6 ns) := by
  have h4 : IsFamily afInet := Or.inl rfl
  have h6 : IsFamily afInet6 := Or.inr rfl
  refine ⟨_, _, passedOn_eq h4 (hinv _ h4) (hss _ h4) hnodes _ _,
    passedOn_eq h6 (hinv _ h6) (hss _ h6) hnodes6 _ _, sendClosestNodes_fst .., fun h => ?_,
    fun hw => ?_, fun hw => ?_⟩
  · exact sendClosestNodes_packet h.version h.tid_le h.token_le h.not_blacklisted h.socket ..
  · rw [if_pos hw]
    exact ⟨_, carriesClosest h4 (hinv _ h4) (hss _ h4)⟩
  · rw [if_pos hw]
    exact ⟨_, carriesClosest h6 (hinv _ h6) (hss _ h6)⟩

end Answer

/-- Of twenty good nodes in the three buckets around the id, eight are sent to who asks from
9.9.9.100. -/
theorem closest_nodes_sent_learntTwenty :
    let net : Net := ⟨3, -1, Id.zeroes, none, fun _ _ => false⟩
    let sa := sockaddrIn [9, 9, 9, 100] [26, 225]
    ∃ bytes bytes6 ns, CarriesClosest 1000 learntTwenty (Id.ofBytes [70]) afInet bytes ns ∧
      ns.length = 8 ∧
      (sendClosestNodes net 1000 learntTwenty sa 16 (str "fn") (Id.ofBytes [70]) (-1) 0 none []
        (fun k => k)).1 = [⟨nodesPeersText net (str "fn") bytes bytes6 none [], 0, sa, 16⟩] := by
  have hss : ∀ af, IsFamily af → ∀ b ∈ learntTwenty.table af, ∀ n ∈ b.nodes,
      n.ss.length = sizeofSockaddrStorage := by
    rintro af (rfl | rfl)
    · decide +kernel
    · decide +kernel
  have hgood : (learntTwenty.goodAround 1000 (Id.ofBytes [70]) afInet).length = 20 := by
    decide +kernel
  have hanswer : Answerable ⟨3, -1, Id.zeroes, none, fun _ _ => false⟩ (str "fn") []
      (sockaddrIn [9, 9, 9, 100] [26, 225]) 16 :=
    ⟨Nat.zero_le 9, by decide, Nat.zero_le 40, by decide, rfl⟩
  obtain ⟨bytes, bytes6, -, -, -, hsent, hcarries, -⟩ :=
    closest_nodes_sent ⟨3, -1, Id.zeroes, none, fun _ _ => false⟩ 1000 learntTwenty
      (sockaddrIn [9, 9, 9, 100] [26, 225]) 16 (str "fn") (Id.ofBytes [70]) (-1) 0 none []
      (fun k => k) (List.replicate (8 * 26) 0) (List.replicate (8 * 38) 0) invariant_learntTwenty hss
      List.length_replicate List.length_replicate
  obtain ⟨ns, hns⟩ := hcarries (by decide)
  exact ⟨bytes, bytes6, ns, hns, by rw [hns.length_eq, hgood]; rfl, hsent hanswer⟩

end DtnDht
