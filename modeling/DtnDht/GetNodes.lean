import DtnDht.RoutingRun

/-!
# The nodes that are handed out

`dht_get_nodes` fills an array with the addresses of good nodes, those of our own bucket first: "For
restoring to work without discarding too many nodes, the list must start with the contents of our
bucket." The loops stop when the array is full. Our bucket is found by `find_bucket` the first time
and passed over by `in_bucket` the second; as exactly one bucket holds our id, no node is lost and
none is stored twice (`dhtGetNodes_spec`).
-/

namespace DtnDht

namespace Routing

variable (now : ℤ) (size num : ℕ)

/-- `while (n && i < *num)`, where `sin` is what is stored so far. -/
def storeNodes : List Node → List Sockaddr → List Sockaddr
  | [], sin => sin
  | n :: nodes, sin =>
    if sin.length < num then
      storeNodes nodes (if nodeGood now n then sin ++ [n.ss.take size] else sin)
    else sin

/-- `while (b && i < *num)`. -/
def storeBuckets (myid : Id) : List Bucket → List Sockaddr → List Sockaddr
  | [], sin => sin
  | b :: bs, sin =>
    if sin.length < num then
      storeBuckets myid bs
        (if inBucket myid b bs.head? then sin else storeNodes now size num b.nodes sin)
    else sin

/-- `dht_get_nodes`, one family. -/
def storeFamily (r : Routing) (myid : Id) (af : ℕ) : List Sockaddr :=
  match r.findBucket myid af with
  | none => []
  | some i =>
    storeBuckets now size num myid (r.table af)
      (storeNodes now size num ((r.table af)[i]?.elim [] Bucket.nodes) [])

variable {now size num} {myid : Id} {r : Routing} {af i : ℕ} {sin : List Sockaddr}

/-! ## The loops -/

theorem storeNodes_of_full (nodes : List Node) (h : num ≤ sin.length) :
    storeNodes now size num nodes sin = sin := by
  cases nodes with
  | nil => rfl
  | cons n nodes =>
    rw [storeNodes, if_neg (by omega)]

theorem storeNodes_eq (nodes : List Node) (sin : List Sockaddr) :
    storeNodes now size num nodes sin =
      sin ++ ((nodes.filter (nodeGood now)).take (num - sin.length)).map fun n =>
        n.ss.take size := by
  induction nodes generalizing sin with
  | nil => simp [storeNodes]
  | cons n nodes ih =>
    rw [storeNodes]
    split_ifs with hroom hgood
    · have hleft : num - sin.length = num - (sin ++ [n.ss.take size]).length + 1 := by
        rw [List.length_append, List.length_singleton]
        omega
      rw [ih, List.filter_cons_of_pos hgood, hleft, List.take_succ_cons, List.map_cons,
        List.append_assoc, List.singleton_append]
    · rw [ih, List.filter_cons_of_neg hgood]
    · rw [Nat.sub_eq_zero_of_le (not_lt.mp hroom), List.take_zero, List.map_nil, List.append_nil]

theorem storeBuckets_eq (bs : List Bucket) (sin : List Sockaddr) :
    storeBuckets now size num myid bs sin =
      storeNodes now size num ((otherBuckets myid bs).flatMap Bucket.nodes) sin := by
  induction bs generalizing sin with
  | nil => rfl
  | cons b bs ih =>
    rw [storeBuckets, otherBuckets]
    split_ifs with hroom hmine hmine
    · exact ih sin
    · rw [ih, List.flatMap_cons, storeNodes_eq, storeNodes_eq, storeNodes_eq, List.filter_append,
        List.append_assoc, ← List.map_append, List.take_append, List.length_append, List.length_map,
        List.length_take]
      congr 4
      omega
    · exact (storeNodes_of_full _ (not_lt.mp hroom)).symm
    · exact (storeNodes_of_full _ (not_lt.mp hroom)).symm

/-- What is stored are the first of the good nodes. -/
theorem storeFamily_eq (r : Routing) (myid : Id) (af : ℕ) :
    storeFamily now size num r myid af =
      ((r.goodNodes now myid af).take num).map fun n => n.ss.take size := by
  unfold storeFamily goodNodes
  cases r.findBucket myid af with
  | none => simp
  | some i =>
    dsimp only
    rw [storeBuckets_eq, storeNodes_eq, storeNodes_eq, List.filter_append, List.nil_append,
      ← List.map_append, List.take_append, List.length_map, List.length_take, List.length_nil]
    congr 3
    omega

theorem dhtGetNodes_eq (r : Routing) (myid : Id) (num num6 : ℕ) :
    r.dhtGetNodes now myid num num6 = (storeFamily now sizeofSockaddrIn num r myid afInet,
      storeFamily now sizeofSockaddrIn6 num6 r myid afInet6) := by
  rw [dhtGetNodes, storeFamily_eq, storeFamily_eq]

/-! ## The good nodes -/

/-- All buckets but the one that holds our id. -/
theorem otherBuckets_eq {bs : List Bucket} (hi : i < bs.length)
    (h : ∀ j b, bs[j]? = some b → (inBucket myid b bs[j + 1]? = true ↔ j = i)) :
    otherBuckets myid bs = bs.eraseIdx i := by
  induction bs generalizing i with
  | nil => rfl
  | cons b bs ih =>
    have hhead : inBucket myid b bs.head? = true ↔ 0 = i := by
      rw [List.head?_eq_getElem?]
      exact h 0 b rfl
    have hrest (i' : ℕ) (hi' : i = i' + 1 ∨ i' = bs.length ∧ i = 0) (j : ℕ) (c : Bucket)
        (hc : bs[j]? = some c) : inBucket myid c bs[j + 1]? = true ↔ j = i' := by
      have hj := (List.getElem?_eq_some_iff.mp hc).1
      rw [← List.getElem?_cons_succ (a := b) (i := j + 1)]
      refine (h (j + 1) c hc).trans ?_
      omega
    rw [otherBuckets]
    cases i with
    | zero =>
      rw [if_pos (hhead.mpr rfl), List.eraseIdx_cons_zero]
      have hnone : ∀ cs : List Bucket, (∀ j c, cs[j]? = some c →
          inBucket myid c cs[j + 1]? = false) → otherBuckets myid cs = cs := by
        intro cs hcs
        induction cs with
        | nil => rfl
        | cons c cs ihcs =>
          have hc := hcs 0 c rfl
          rw [List.getElem?_cons_succ, ← List.head?_eq_getElem?] at hc
          rw [otherBuckets, if_neg (Bool.not_eq_true _ ▸ hc),
            ihcs fun j d hd => hcs (j + 1) d hd]
      refine hnone bs fun j c hc => Bool.eq_false_iff.mpr fun hin => ?_
      have hj := (List.getElem?_eq_some_iff.mp hc).1
      have := (hrest bs.length (Or.inr ⟨rfl, rfl⟩) j c hc).mp hin
      omega
    | succ i =>
      rw [if_neg fun hin => Nat.succ_ne_zero i (hhead.mp hin).symm, List.eraseIdx_cons_succ,
        ih (Nat.lt_of_succ_lt_succ hi) (hrest i (Or.inl rfl))]

/-- The node is in the bucket that holds our id. -/
def InOwnBucket (myid : Id) (bs : List Bucket) (n : Node) : Prop :=
  ∃ i b, bs[i]? = some b ∧ inBucket myid b bs[i + 1]? = true ∧ n ∈ b.nodes

/-- What `dht_get_nodes` is to store for a family: the addresses of different good nodes, as many as
there is room for, those of our own bucket first. -/
structure StoresGoodNodes (now : ℤ) (size num : ℕ) (myid : Id) (bs : List Bucket)
    (sin : List Sockaddr) (ns : List Node) : Prop where
  stored : sin = ns.map fun n => n.ss.take size
  nodup : (ns.map Node.id).Nodup
  good : ∀ n ∈ ns, (∃ b ∈ bs, n ∈ b.nodes) ∧ nodeGood now n = true
  length : ns.length = min num ((bs.flatMap Bucket.nodes).filter (nodeGood now)).length
  own_first : ns.Pairwise fun n m => InOwnBucket myid bs m → InOwnBucket myid bs n

/-- The good nodes are those of all buckets in another order, our own bucket's first. -/
theorem goodNodes_spec (now : ℤ) (h : TableInvariant af myid (r.table af)) :
    (r.goodNodes now myid af).Perm (((r.table af).flatMap Bucket.nodes).filter (nodeGood now)) ∧
      (r.goodNodes now myid af).Pairwise fun n m =>
        InOwnBucket myid (r.table af) m → InOwnBucket myid (r.table af) n := by
  unfold goodNodes
  by_cases hne : r.table af = []
  · rw [Routing.findBucket, hne]
    exact ⟨List.Perm.nil, List.Pairwise.nil⟩
  obtain ⟨i, b, hfind, hb, hin, huniq⟩ := h.find hne myid
  have hfind' : r.findBucket myid af = some i := hfind
  obtain ⟨hi, hget⟩ := List.getElem?_eq_some_iff.mp hb
  have hothers : otherBuckets myid (r.table af) = (r.table af).eraseIdx i := by
    refine otherBuckets_eq hi fun j c hc => ⟨huniq j c hc, ?_⟩
    rintro rfl
    obtain rfl : b = c := Option.some_inj.mp (hb.symm.trans hc)
    exact hin
  have hperm : (b :: (r.table af).eraseIdx i).Perm (r.table af) :=
    hget ▸ List.getElem_cons_eraseIdx_perm hi
  rw [hfind', hothers]
  dsimp only
  rw [hb, Option.elim_some, ← List.flatMap_cons]
  constructor
  · exact ((hperm.flatMap_right Bucket.nodes).filter _)
  · rw [List.flatMap_cons, List.filter_append, List.pairwise_append]
    have hown : ∀ n ∈ b.nodes, InOwnBucket myid (r.table af) n := fun n hn => ⟨i, b, hb, hin, hn⟩
    refine ⟨?_, ?_, ?_⟩
    · exact List.pairwise_of_forall_mem_list fun n hn m _ _ =>
        hown n (List.mem_of_mem_filter hn)
    · -- a node of another bucket is not in our own
      refine List.pairwise_of_forall_mem_list fun n _ m hm hmine => absurd hmine ?_
      rintro ⟨j, c, hc, hcin, hmc⟩
      obtain rfl := huniq j c hc hcin
      obtain rfl : b = c := Option.some_inj.mp (hb.symm.trans hc)
      obtain ⟨d, hd, hmd⟩ := List.mem_flatMap.mp (List.mem_of_mem_filter hm)
      have hnodup := ((hperm.flatMap_right fun b => b.nodes.map Node.id).nodup_iff).mpr h.nodup
      rw [List.flatMap_cons, List.nodup_append] at hnodup
      exact hnodup.2.2 m.id (List.mem_map_of_mem hmc) m.id
        (List.mem_flatMap.mpr ⟨d, hd, List.mem_map_of_mem hmd⟩) rfl
    · exact fun n hn m _ _ => hown n (List.mem_of_mem_filter hn)

theorem storeFamily_spec (now : ℤ) (size num : ℕ) (h : TableInvariant af myid (r.table af)) :
    StoresGoodNodes now size num myid (r.table af) (storeFamily now size num r myid af)
      ((r.goodNodes now myid af).take num) := by
  obtain ⟨hperm, hfirst⟩ := goodNodes_spec now h
  have hsub : ((r.goodNodes now myid af).take num).Sublist (r.goodNodes now myid af) :=
    List.take_sublist _ _
  refine ⟨storeFamily_eq r myid af, ?_, ?_, ?_, hfirst.sublist hsub⟩
  · have hids := h.nodup
    rw [← List.map_flatMap] at hids
    have hgood : ((r.goodNodes now myid af).map Node.id).Nodup :=
      ((hperm.map Node.id).nodup_iff).mpr (hids.sublist (List.filter_sublist.map _))
    exact hgood.sublist (hsub.map _)
  · intro n hn
    have hmem := hperm.mem_iff.mp (hsub.mem hn)
    rw [List.mem_filter, List.mem_flatMap] at hmem
    exact hmem
  · rw [List.length_take, hperm.length_eq]

/-- **`dht_get_nodes` loses and duplicates nothing.** -/
theorem dhtGetNodes_spec (now : ℤ) (myid : Id) (r : Routing) (num num6 : ℕ)
    (h : ∀ af, IsFamily af → TableInvariant af myid (r.table af)) :
    (∃ ns, StoresGoodNodes now sizeofSockaddrIn num myid r.buckets
      (storeFamily now sizeofSockaddrIn num r myid afInet) ns) ∧
    ∃ ns, StoresGoodNodes now sizeofSockaddrIn6 num6 myid r.buckets6
      (storeFamily now sizeofSockaddrIn6 num6 r myid afInet6) ns :=
  ⟨⟨_, storeFamily_spec now _ num (h afInet (Or.inl rfl))⟩,
    ⟨_, storeFamily_spec now _ num6 (h afInet6 (Or.inr rfl))⟩⟩

/-- Of twenty good nodes in three buckets nine are stored, those of our own bucket first. -/
theorem dhtGetNodes_spec_learntTwenty : ∃ ns,
    StoresGoodNodes 1000 sizeofSockaddrIn 9 Id.zeroes learntTwenty.buckets
      (storeFamily 1000 sizeofSockaddrIn 9 learntTwenty Id.zeroes afInet) ns ∧ ns.length = 9 := by
  obtain ⟨ns, h⟩ := (dhtGetNodes_spec 1000 Id.zeroes learntTwenty 9 9 invariant_learntTwenty).1
  have hgood : ((learntTwenty.buckets.flatMap Bucket.nodes).filter (nodeGood 1000)).length = 20 := by
    decide +kernel
  refine ⟨ns, h, ?_⟩
  rw [h.length, hgood]
  rfl

end Routing

end DtnDht
