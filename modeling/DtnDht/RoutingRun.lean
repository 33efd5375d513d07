import DtnDht.RoutingInvariant

/-!
# The routing table over whole runs

Each operation on the table keeps the invariant: the upkeep because it leaves the shape of the
buckets alone or only unlinks nodes, `split_bucket` because it puts two halves for a bucket, and
`new_node` by induction on its calls; what one of them does is said once (`NewNodeStep`). A bucket
that is full when a ninth id belongs to it has at least nine ids in its range, so it can be split,
and halving ends the recursion (`newNodeFuel_isSome`). The main result is `routing_invariant`.
-/

namespace DtnDht

open CString Tiling

variable {af : ℕ} {myid id : Id} {b b' : Bucket} {bs pre post : List Bucket} {lo hi i j : ℕ}

namespace Routing

variable {r r' : Routing} {net : Net} {now : ℤ}

/-! ## `split_bucket` -/

theorem sendCachedPing_eq (net : Net) (r : Routing) (af : ℕ)
    (h : r.table af = pre ++ b :: post) :
    ∃ b', (r.sendCachedPing net af pre.length).1 = r.setTable af (pre ++ b' :: post) ∧
      b'.shape = b.shape := by
  have hget : (r.table af)[pre.length]? = some b := by
    rw [h, List.getElem?_append_right le_rfl, Nat.sub_self, List.getElem?_cons_zero]
  unfold sendCachedPing
  rw [hget]
  dsimp only
  split_ifs
  · exact ⟨b, by rw [← h, setTable_table], rfl⟩
  · refine ⟨{ b with cached := memcpy b.cached [0, 0] 2, cachedlen := 0 }, ?_, rfl⟩
    unfold modifyBucket
    rw [h, List.modify_append_cons]

/-- What `foldl_insertNode` leaves in a half bucket is in order. -/
theorem bucketOk_pushAll {half : Bucket} {lo' hi' : ℕ} {p : Node → Bool}
    (hb : BucketOk af myid b lo hi) (hfirst : half.first.val = lo') (haf : half.af = af)
    (hnodes : half.nodes = []) (hcount : half.count = 0) (hal : Aligned lo' hi')
    (hp : ∀ n ∈ b.nodes, p n = true → lo' ≤ n.id.val ∧ n.id.val < hi') :
    BucketOk af myid (pushAll half (b.nodes.filter p)) lo' hi' := by
  have hlen : (b.nodes.filter p).length ≤ 8 := by
    have := List.length_filter_le p b.nodes
    have := hb.count_le
    have := hb.count
    omega
  have hnodup : ((b.nodes.filter p).map Node.id).Nodup :=
    hb.nodup.sublist (List.filter_sublist.map _)
  constructor
  · exact hfirst
  · exact hal
  · exact haf
  · simp [pushAll, hnodes, hcount]
  · simpa [pushAll, hcount] using hlen
  · simpa [pushAll, hnodes, List.map_reverse, List.nodup_reverse] using hnodup
  · intro n hn
    have hmem : n ∈ b.nodes ∧ p n = true := by simpa [pushAll, hnodes] using hn
    have hok := hb.nodes n hmem.1
    have hrange := hp n hmem.1 hmem.2
    exact ⟨hrange.1, hrange.2, hok.ne, hok.family⟩

/-- Splitting a bucket of more than one id puts its two halves in its place. -/
theorem splitBucket_spec (net : Net) (h : Located af myid id (r.table af) pre b post lo hi)
    {k : ℕ} (hk : hi = lo + 2 ^ (k + 1)) (hdvd : 2 ^ (k + 1) ∣ lo) :
    ∃ l u, (r.splitBucket net af pre.length).1 = r.setTable af (pre ++ l :: u :: post) ∧
      BucketOk af myid l lo (lo + 2 ^ k) ∧ BucketOk af myid u (lo + 2 ^ k) hi := by
  obtain ⟨m, hm, hval⟩ := h.bucketMiddle_eq hk hdvd
  obtain ⟨b', hping, hshape⟩ := sendCachedPing_eq net r af h.eq
  have hb' : BucketOk af myid b' lo hi := h.bucket.congr hshape.symm
  have hpre : ∀ c ∈ pre, c.first.val ≤ lo := by
    intro c hc
    obtain ⟨x, y, hc, -, hy⟩ := h.pre.of_mem (fun _ _ _ => BucketOk.lt) hc
    have := hc.lt
    rw [hc.first]
    omega
  have hsplit : (r.splitBucket net af pre.length).1 = b.nodes.foldl insertNode
      (r.setTable af (pre ++ { b' with nodes := [], count := 0 } ::
        { callocBucket b.af m with time := b.time } :: post)) := by
    unfold splitBucket
    rw [h.getElem?, h.getElem?_succ]
    dsimp only
    rw [hm]
    dsimp only
    rw [hping, table_setTable_self, setTable_setTable, List.modify_append_cons,
      List.take_append, List.drop_append, List.take_of_length_le (Nat.le_succ _),
      List.drop_eq_nil_of_le (Nat.le_succ _)]
    simp
  obtain ⟨hl, hu⟩ := aligned_halves hdvd
  refine ⟨_, _, hsplit.trans (foldl_insertNode (l := { b' with nodes := [], count := 0 })
    (u := { callocBucket b.af m with time := b.time }) hpre hb'.first hval (first_head h.post)
    b.nodes
    fun n hn => ⟨(h.bucket.nodes n hn).le, (h.bucket.nodes n hn).lt,
      (h.bucket.nodes n hn).family⟩), ?_, ?_⟩
  · refine bucketOk_pushAll h.bucket hb'.first hb'.family rfl rfl hl fun n hn hp => ?_
    exact ⟨(h.bucket.nodes n hn).le, of_decide_eq_true hp⟩
  · refine bucketOk_pushAll h.bucket hval h.bucket.family rfl rfl (hk ▸ hu) fun n hn hp => ?_
    exact ⟨not_lt.mp (of_decide_eq_true hp), (h.bucket.nodes n hn).lt⟩

theorem tableOk_split {l u : Bucket} {mid : ℕ}
    (h : Located af myid id bs pre b post lo hi) (hl : BucketOk af myid l lo mid)
    (hu : BucketOk af myid u mid hi) : TableOk af myid (pre ++ l :: u :: post) :=
  Or.inr (tiles_append_cons.mpr ⟨lo, mid, h.pre, hl, hi, hu, h.post⟩)

/-! ## `new_node` -/

theorem family_memcpy {dst sa : Sockaddr} {salen : ℕ} (h2 : 2 ≤ salen) (hl : salen ≤ sa.length) :
    Sockaddr.family (memcpy dst sa salen) = sa.family := by
  obtain ⟨a, b, sa, rfl⟩ : ∃ a b t, sa = a :: b :: t := by
    match sa, hl with
    | [], hl | [_], hl => simp only [List.length_cons, List.length_nil] at hl; omega
    | a :: b :: t, _ => exact ⟨a, b, t, rfl⟩
  obtain ⟨n, rfl⟩ := Nat.exists_eq_add_of_le' h2
  rfl

theorem TableOk.node_family (h : TableOk af myid bs) (hb : b ∈ bs) {n : Node}
    (hn : n ∈ b.nodes) : n.ss.family = af := by
  rcases h with rfl | h
  · exact absurd hb List.not_mem_nil
  · obtain ⟨x, y, hb, -⟩ := h.of_mem (fun _ _ _ => BucketOk.lt) hb
    exact (hb.nodes n hn).family

section NewNode

variable {sa : Sockaddr} {salen confirm : ℕ}

theorem refreshNode_shape {n : Node} (h2 : 2 ≤ salen) (hl : salen ≤ sa.length)
    (hn : n.ss.family = sa.family) : (refreshNode now sa salen confirm n).id = n.id ∧
      (refreshNode now sa salen confirm n).ss.family = n.ss.family := by
  unfold refreshNode
  split_ifs <;> exact ⟨rfl, by first | rfl | exact (family_memcpy h2 hl).trans hn.symm⟩

/-- A node whose id belongs to the bucket may be written over another. -/
theorem bucketOk_replace (hb : BucketOk sa.family myid b lo hi) (h2 : 2 ≤ salen)
    (hl : salen ≤ sa.length) (hid : id ∉ b.nodes.map Node.id) (hmy : id ≠ myid)
    (hlo : lo ≤ id.val) (hhi : id.val < hi) :
    BucketOk sa.family myid
      { b with nodes := b.nodes.modify j (replaceNode now id sa salen confirm) } lo hi := by
  refine ⟨hb.first, hb.aligned, hb.family, ?_, hb.count_le, ?_, ?_⟩
  · rw [List.length_modify]
    exact hb.count
  · dsimp only
    rw [List.map_modify_eq_set (c := id) fun _ => rfl]
    exact hb.nodup.set hid
  · exact List.forall_mem_modify hb.nodes fun n _ _ => ⟨hlo, hhi, hmy, family_memcpy h2 hl⟩

/-- A node whose id belongs to the bucket may be added if there is room. -/
theorem bucketOk_add (hb : BucketOk sa.family myid b lo hi) (h2 : 2 ≤ salen)
    (hl : salen ≤ sa.length) (hid : id ∉ b.nodes.map Node.id) (hmy : id ≠ myid)
    (hroom : b.count < 8) (hlo : lo ≤ id.val) (hhi : id.val < hi) :
    BucketOk sa.family myid { b with
      nodes := callocNode now id sa salen confirm :: b.nodes, count := b.count + 1 } lo hi := by
  refine ⟨hb.first, hb.aligned, hb.family, ?_, hroom, ?_, ?_⟩
  · rw [List.length_cons, ← hb.count]
  · exact List.nodup_cons.mpr ⟨hid, hb.nodup⟩
  · rw [List.forall_mem_cons]
    exact ⟨⟨hlo, hhi, hmy, family_memcpy h2 hl⟩, hb.nodes⟩

theorem mem_ids_congr (h : b.shape = b'.shape) :
    id ∈ b.nodes.map Node.id ↔ id ∈ b'.nodes.map Node.id := by
  have := congrArg (fun s : ℕ × Id × ℕ × List (Id × ℕ) => s.2.2.2.map Prod.fst) h
  simp only [Bucket.shape, List.map_map] at this
  exact iff_of_eq (congrArg (id ∈ ·) this)

/-- The table before `new_node` comes to the nodes of bucket `i`: the time of the bucket may have
been set, and that of the last growth. -/
inductive Touched (now : ℤ) (af i : ℕ) (r : Routing) : Routing → Prop
  | same : Touched now af i r r
  | time {r' : Routing} (h : Touched now af i r r') :
      Touched now af i r (r'.modifyBucket af i fun b => { b with time := now })
  | grow {r' : Routing} (h : Touched now af i r r') : Touched now af i r (r'.grow now af)

/-- `new_node` has come to bucket `b`, and none of its nodes has the id. -/
structure Unknown (net : Net) (now : ℤ) (id : Id) (af : ℕ) (r r' : Routing) (i : ℕ) (b : Bucket) :
    Prop where
  found : r.findBucket id af = some i
  bucket : (r.table af)[i]? = some b
  other : id ≠ net.myid
  new : id ∉ b.nodes.map Node.id
  touched : Touched now af i r r'

/-- What one call of `new_node` does, with `fuel` calls left to make. -/
inductive NewNodeStep (net : Net) (now : ℤ) (id : Id) (sa : Sockaddr) (salen confirm fuel : ℕ)
    (r : Routing) : Option (Routing × List Packet × Bool) → Prop
  | refused : NewNodeStep net now id sa salen confirm fuel r (some (r, [], false))
  | refreshed {r' : Routing} {i j : ℕ} (h : Touched now sa.family i r r') :
      NewNodeStep net now id sa salen confirm fuel r
        (some (r'.modifyNode sa.family i j (refreshNode now sa salen confirm), [], true))
  | replaced {r' : Routing} {i j : ℕ} {b : Bucket} {n : Node}
      (h : Unknown net now id sa.family r r' i b) (hn : b.nodes[j]? = some n)
      (hbroken : 3 ≤ n.pinged ∧ n.pingedTime < now - 15) :
      NewNodeStep net now id sa salen confirm fuel r
        (some (r'.modifyNode sa.family i j (replaceNode now id sa salen confirm), [], true))
  | split {r' : Routing} {i : ℕ} {b : Bucket} (h : Unknown net now id sa.family r r' i b)
      (hfull : 8 ≤ b.count) :
      NewNodeStep net now id sa salen confirm fuel r
        ((newNodeFuel net now id sa salen confirm fuel
          ((r'.pingDubious net now sa.family i b.nodes).1.splitBucket net sa.family i).1).map
          fun x => (x.1, (r'.pingDubious net now sa.family i b.nodes).2 ++
            ((r'.pingDubious net now sa.family i b.nodes).1.splitBucket net sa.family i).2 ++
            x.2.1, x.2.2))
  | cached {r' : Routing} {i : ℕ} {b : Bucket} (h : Unknown net now id sa.family r r' i b) :
      NewNodeStep net now id sa salen confirm fuel r
        (some
          ((r'.pingDubious net now sa.family i b.nodes).1.cacheNode sa.family i sa salen confirm,
            (r'.pingDubious net now sa.family i b.nodes).2, false))
  | added {r' : Routing} {i : ℕ} {b : Bucket} (h : Unknown net now id sa.family r r' i b)
      (hroom : b.count < 8) :
      NewNodeStep net now id sa salen confirm fuel r
        (some (r'.modifyBucket sa.family i fun b =>
          { b with nodes := callocNode now id sa salen confirm :: b.nodes, count := b.count + 1 },
          [], true))

theorem newNodeStep (net : Net) (now : ℤ) (id : Id) (sa : Sockaddr) (salen confirm fuel : ℕ)
    (r : Routing) : NewNodeStep net now id sa salen confirm fuel r
      (newNodeFuel net now id sa salen confirm (fuel + 1) r) := by
  rw [newNodeFuel]
  dsimp only
  cases hi : r.findBucket id sa.family with
  | none => exact .refused
  | some i =>
    dsimp only
    cases hb : (r.table sa.family)[i]? with
    | none => exact .refused
    | some b =>
      dsimp only
      by_cases hmy : idCmp id net.myid = .eq
      · rw [if_pos hmy]
        exact .refused
      rw [if_neg hmy]
      by_cases hbad : (isMartian sa || net.nodeBlacklisted sa salen) = true
      · rw [if_pos hbad]
        exact .refused
      rw [if_neg hbad]
      rw [idCmp_eq_eq] at hmy
      generalize hr1 : (if confirm = 2 then
        r.modifyBucket sa.family i fun b => { b with time := now } else r) = r1
      have h1 : Touched now sa.family i r r1 := by
        subst hr1
        split_ifs
        · exact .time .same
        · exact .same
      cases hknown : b.nodes.findIdx? fun n => idCmp n.id id = .eq with
      | some j => exact .refreshed h1
      | none =>
        dsimp only
        have hnew : id ∉ b.nodes.map Node.id := by
          intro hmem
          obtain ⟨n, hn, he⟩ := List.mem_map.mp hmem
          have := List.findIdx?_eq_none_iff.mp hknown n hn
          simp [he] at this
        generalize hr2 : (if inBucket net.myid b (r.table sa.family)[i + 1]? = true then
          r1.grow now sa.family else r1) = r2
        have h2 : Touched now sa.family i r r2 := by
          subst hr2
          split_ifs
          · exact h1.grow
          · exact h1
        have hunknown : Unknown net now id sa.family r r2 i b := ⟨hi, hb, hmy, hnew, h2⟩
        cases hbroken : b.nodes.findIdx? fun n => 3 ≤ n.pinged && n.pingedTime < now - 15 with
        | some j =>
          obtain ⟨hlt, hp, -⟩ := List.findIdx?_eq_some_iff_getElem.mp hbroken
          simp only [Bool.and_eq_true, decide_eq_true_eq] at hp
          exact .replaced hunknown (List.getElem?_eq_getElem hlt) hp
        | none =>
          dsimp only
          by_cases hfull : 8 ≤ b.count
          · rw [if_pos hfull]
            split_ifs
            · exact .split hunknown hfull
            · exact .cached hunknown
          · rw [if_neg hfull]
            exact .added hunknown (by omega)

theorem Touched.sameShape (h : Touched now af i r r') : SameShape r r' := by
  induction h with
  | same => exact SameShape.refl r
  | time _ ih => exact ih.trans (sameShape_modifyBucket fun _ _ => rfl)
  | grow _ ih => exact ih.trans (sameShape_grow _ now af)

/-- The bucket `new_node` has come to, as it is in the table it writes to. -/
theorem Unknown.bucketOk (h : Unknown net now id sa.family r r' i b) {c : Bucket}
    (hc : (r'.table sa.family)[i]? = some c) :
    id ∉ c.nodes.map Node.id ∧ c.count = b.count := by
  obtain ⟨c', hc', hshape⟩ := h.touched.sameShape.getElem? h.bucket
  obtain rfl : c' = c := Option.some_inj.mp (hc'.symm.trans hc)
  exact ⟨fun hmem => h.new ((mem_ids_congr hshape).mpr hmem),
    congrArg (fun s : ℕ × Id × ℕ × List (Id × ℕ) => s.2.2.1) hshape.symm⟩

/-- What one call of `new_node` does: it returns with the invariant kept, or splits a full bucket
that does not hold the id yet and calls itself. -/
theorem newNodeFuel_cases (now : ℤ) (id : Id) (confirm : ℕ) (hr : RoutingOk net.myid r)
    (hfam : IsFamily sa.family) (h2 : 2 ≤ salen) (hl : salen ≤ sa.length) (fuel : ℕ) :
    (∃ out, newNodeFuel net now id sa salen confirm (fuel + 1) r = some out ∧
      RoutingOk net.myid out.1) ∨
    ∃ i b r' pkts, r.findBucket id sa.family = some i ∧ (r.table sa.family)[i]? = some b ∧
      SameShape r r' ∧ 8 ≤ b.count ∧ id ∉ b.nodes.map Node.id ∧
      newNodeFuel net now id sa salen confirm (fuel + 1) r =
        (newNodeFuel net now id sa salen confirm fuel
          (r'.splitBucket net sa.family i).1).map fun x => (x.1, pkts ++ x.2.1, x.2.2) := by
  have hstep := newNodeStep net now id sa salen confirm fuel r
  generalize newNodeFuel net now id sa salen confirm (fuel + 1) r = out at hstep ⊢
  cases hstep with
  | refused => exact Or.inl ⟨_, rfl, hr⟩
  | refreshed h =>
    have hs := h.sameShape
    refine Or.inl ⟨_, rfl, (hs.trans (sameShape_modifyNode fun c hc n hn => ?_)).ok hr⟩
    exact refreshNode_shape h2 hl (TableOk.node_family (hs.ok hr _ hfam) hc hn)
  | replaced h =>
    have hs := h.touched.sameShape
    refine Or.inl ⟨_, rfl, routingOk_modifyBucket (hs.ok hr) hfam
      ((hs.findBucket _ _).symm.trans h.found) fun c lo hi hc hok hlo hhi => ?_⟩
    exact bucketOk_replace hok h2 hl (h.bucketOk hc).1 h.other hlo hhi
  | split h hfull =>
    exact Or.inr ⟨_, _, _, _, h.found, h.bucket,
      h.touched.sameShape.trans (sameShape_pingDubious _ _ _ _ _ _), hfull, h.new, rfl⟩
  | @cached r' i b h =>
    have hs := h.touched.sameShape.trans (sameShape_pingDubious net now r' sa.family i b.nodes)
    exact Or.inl ⟨_, rfl, (hs.trans (sameShape_cacheNode _ _ _ _ _ _)).ok hr⟩
  | added h hroom =>
    have hs := h.touched.sameShape
    refine Or.inl ⟨_, rfl, routingOk_modifyBucket (hs.ok hr) hfam
      ((hs.findBucket _ _).symm.trans h.found) fun c lo hi hc hok hlo hhi => ?_⟩
    obtain ⟨hnew, hcount⟩ := h.bucketOk hc
    exact bucketOk_add hok h2 hl hnew h.other (by omega) hlo hhi

/-- The ids of a bucket and one more that belongs to it are different numbers in its range. -/
theorem count_lt_width (hb : BucketOk af myid b lo hi) (hid : id ∉ b.nodes.map Node.id)
    (hlo : lo ≤ id.val) (hhi : id.val < hi) : b.count + 1 ≤ hi - lo := by
  have hnodup : ((id :: b.nodes.map Node.id).map Id.val).Nodup :=
    (List.nodup_cons.mpr ⟨hid, hb.nodup⟩).map Id.val_injective
  have hsub : (id :: b.nodes.map Node.id).map Id.val ⊆ List.range' lo (hi - lo) := by
    intro x hx
    obtain ⟨m, hm, rfl⟩ := List.mem_map.mp hx
    rw [List.mem_range'_1]
    rcases List.mem_cons.mp hm with rfl | hm
    · omega
    · obtain ⟨n, hn, rfl⟩ := List.mem_map.mp hm
      have := (hb.nodes n hn).le
      have := (hb.nodes n hn).lt
      omega
  have hlen := (hnodup.subperm hsub).length_le
  simpa [hb.count] using hlen

theorem Located.congr {bs' : List Bucket} (he : bs.map Bucket.shape = bs'.map Bucket.shape)
    (h : Located af myid id bs pre b post lo hi) :
    ∃ pre' b' post', Located af myid id bs' pre' b' post' lo hi ∧ pre'.length = pre.length ∧
      b.shape = b'.shape := by
  rw [h.eq, List.map_append, List.map_cons] at he
  obtain ⟨pre', rest, rfl, hpre, hrest⟩ := List.map_eq_append_iff.mp he.symm
  obtain ⟨b', post', rfl, hb, hpost⟩ := List.map_eq_cons_iff.mp hrest
  refine ⟨pre', b', post', ⟨rfl, ?_, h.bucket.congr hb.symm, ?_, h.le, h.lt⟩, ?_, hb.symm⟩
  · exact h.pre.congr_map (fun _ _ _ _ => BucketOk.congr) hpre.symm
  · exact h.post.congr_map (fun _ _ _ _ => BucketOk.congr) hpost.symm
  · simpa using congrArg List.length hpre

/-- A bucket that is full when another id belongs to it can be split. -/
theorem exists_half (h : Located af myid id bs pre b post lo hi) (hfull : 8 ≤ b.count)
    (hid : id ∉ b.nodes.map Node.id) : ∃ k, hi = lo + 2 ^ (k + 1) ∧ 2 ^ (k + 1) ∣ lo := by
  obtain ⟨k, hk, hdvd⟩ := h.bucket.aligned
  cases k with
  | zero =>
    -- nine ids do not fit into a range of one
    have hwide := count_lt_width h.bucket hid h.le h.lt
    rw [hk, pow_zero] at hwide
    omega
  | succ k => exact ⟨k, hk, hdvd⟩

/-- After `split_bucket` the id belongs to one of the halves. -/
theorem located_splitBucket (net : Net) (hr : RoutingOk myid r) (haf : IsFamily af)
    (h : Located af myid id (r.table af) pre b post lo hi) {k : ℕ} (hk : hi = lo + 2 ^ (k + 1))
    (hdvd : 2 ^ (k + 1) ∣ lo) : RoutingOk myid (r.splitBucket net af pre.length).1 ∧
      ∃ pre' c post' lo', Located af myid id ((r.splitBucket net af pre.length).1.table af)
        pre' c post' lo' (lo' + 2 ^ k) ∧ lo ≤ lo' ∧ lo' + 2 ^ k ≤ hi := by
  obtain ⟨l, u, hsplit, hl, hu⟩ := splitBucket_spec net h hk hdvd
  have htable : (r.splitBucket net af pre.length).1.table af = pre ++ l :: u :: post := by
    rw [hsplit, table_setTable_self]
  have hhi : hi = lo + 2 ^ k + 2 ^ k := by
    rw [hk, pow_succ]
    omega
  constructor
  · rw [hsplit]
    exact routingOk_setTable hr haf (tableOk_split h hl hu)
  · by_cases hmid : id.val < lo + 2 ^ k
    · exact ⟨pre, l, u :: post, lo, ⟨htable, h.pre, hl, ⟨hi, hu, h.post⟩, h.le, hmid⟩, le_rfl,
        by omega⟩
    · refine ⟨pre ++ [l], u, post, lo + 2 ^ k, ⟨?_, ?_, hhi ▸ hu, hhi ▸ h.post, not_lt.mp hmid,
        hhi ▸ h.lt⟩, by omega, hhi.ge⟩
      · rw [htable, List.append_assoc, List.singleton_append]
      · exact tiles_append.mpr ⟨lo, h.pre, _, hl, rfl⟩

/-- `new_node` ends and keeps the invariant: each call but the last halves the range of the bucket
the id belongs to. -/
theorem newNodeFuel_spec (hfam : IsFamily sa.family) (h2 : 2 ≤ salen) (hl : salen ≤ sa.length)
    {k fuel : ℕ} (hfuel : k < fuel) (hr : RoutingOk net.myid r)
    (hloc : Located sa.family net.myid id (r.table sa.family) pre b post lo hi)
    (hwidth : hi ≤ lo + 2 ^ k) :
    ∃ out, newNodeFuel net now id sa salen confirm fuel r = some out ∧
      RoutingOk net.myid out.1 := by
  induction k generalizing fuel r pre b post lo hi with
  | zero =>
    obtain ⟨fuel, rfl⟩ := Nat.exists_eq_succ_of_ne_zero (by omega : fuel ≠ 0)
    refine (newNodeFuel_cases now id confirm hr hfam h2 hl fuel).resolve_right ?_
    rintro ⟨i, c, r', pkts, hi, hc, -, hfull, hid, -⟩
    obtain rfl : pre.length = i := Option.some_inj.mp (hloc.findBucket_eq.symm.trans hi)
    obtain rfl : b = c := Option.some_inj.mp (hloc.getElem?.symm.trans hc)
    have := count_lt_width hloc.bucket hid hloc.le hloc.lt
    omega
  | succ k ih =>
    obtain ⟨fuel, rfl⟩ := Nat.exists_eq_succ_of_ne_zero (by omega : fuel ≠ 0)
    rcases newNodeFuel_cases now id confirm hr hfam h2 hl fuel with
      hdone | ⟨i, c, r', pkts, hi', hc, hs, hfull, hid, heq⟩
    · exact hdone
    obtain rfl : pre.length = i := Option.some_inj.mp (hloc.findBucket_eq.symm.trans hi')
    obtain rfl : b = c := Option.some_inj.mp (hloc.getElem?.symm.trans hc)
    obtain ⟨m, hm, hdvd⟩ := exists_half hloc hfull hid
    have hmk : m ≤ k := by
      have hpow : 2 ^ (m + 1) ≤ 2 ^ (k + 1) := by omega
      exact Nat.le_of_succ_le_succ ((Nat.pow_le_pow_iff_right one_lt_two).mp hpow)
    obtain ⟨pre', b', post', hloc', hlen, -⟩ := Located.congr (hs _) hloc
    obtain ⟨hok, pre'', c, post'', lo', hhalf, -, -⟩ :=
      located_splitBucket net (hs.ok hr) hfam hloc' hm hdvd
    rw [hlen] at hok hhalf
    obtain ⟨out, hout, hinv⟩ := ih (show k < fuel by omega) hok hhalf
      (Nat.add_le_add_left (Nat.pow_le_pow_right (by decide) hmk) lo')
    exact ⟨(out.1, pkts ++ out.2.1, out.2.2), by rw [heq, hout]; rfl, hinv⟩

/-- The fuel of `new_node` is never spent, and it keeps the invariant. -/
theorem newNode_spec (now : ℤ) (id : Id) (confirm : ℕ) (hfam : IsFamily sa.family)
    (h2 : 2 ≤ salen) (hl : salen ≤ sa.length) (hr : RoutingOk net.myid r) :
    ∃ out, newNodeFuel net now id sa salen confirm 161 r = some out ∧
      r.newNode net now id sa salen confirm = out ∧ RoutingOk net.myid out.1 := by
  obtain ⟨out, hout, hok⟩ : ∃ out, newNodeFuel net now id sa salen confirm 161 r = some out ∧
      RoutingOk net.myid out.1 := by
    by_cases hne : r.table sa.family = []
    · refine ⟨(r, [], false), ?_, hr⟩
      rw [newNodeFuel, Routing.findBucket, hne]
      rfl
    · obtain ⟨pre, b, post, lo, hi, hloc, -⟩ := (hr _ hfam).located hne id
      have hle : hi ≤ 2 ^ 160 := hloc.post.le fun _ _ _ => BucketOk.lt
      exact newNodeFuel_spec hfam h2 hl (k := 160) (by decide) hr hloc (by omega)
  exact ⟨out, hout, by rw [newNode, hout]; rfl, hok⟩

end NewNode

/-! ## The other operations -/

theorem TableOk.located_getElem? (h : TableOk af myid bs) (hb : bs[i]? = some b) :
    ∃ pre post lo hi, Located af myid b.first bs pre b post lo hi ∧ pre.length = i := by
  obtain ⟨hlt, rfl⟩ := List.getElem?_eq_some_iff.mp hb
  obtain ⟨pre, post, he, hlen⟩ : ∃ pre post, bs = pre ++ bs[i] :: post ∧ pre.length = i :=
    ⟨bs.take i, bs.drop (i + 1), by simp, List.length_take_of_le hlt.le⟩
  have htiles := h.resolve_left (List.ne_nil_of_length_pos (by omega))
  rw [he] at htiles
  obtain ⟨lo, hi, hpre, hb, hpost⟩ := tiles_append_cons.mp htiles
  exact ⟨pre, post, lo, hi, ⟨he, hpre, hb, hpost, hb.first.ge, hb.first.trans_lt hb.lt⟩, hlen⟩

theorem routingOk_splitBucket (net : Net) (hr : RoutingOk myid r) (haf : IsFamily af) (i : ℕ) :
    RoutingOk myid (r.splitBucket net af i).1 := by
  cases hb : (r.table af)[i]? with
  | none =>
    unfold splitBucket
    rw [hb]
    exact hr
  | some b =>
    obtain ⟨pre, post, lo, hi, hloc, rfl⟩ := TableOk.located_getElem? (hr af haf) hb
    obtain ⟨k, hk, hdvd⟩ := hloc.bucket.aligned
    cases k with
    | zero =>
      unfold splitBucket
      rw [hb, hloc.getElem?_succ]
      dsimp only
      rw [hloc.bucketMiddle_eq_none hk]
      exact hr
    | succ k =>
      obtain ⟨l, u, hsplit, hl, hu⟩ := splitBucket_spec net hloc hk hdvd
      rw [hsplit]
      exact routingOk_setTable hr haf (tableOk_split hloc hl hu)

theorem bucketOk_expire (net : Net) (hb : BucketOk af myid b lo hi) :
    BucketOk af myid (expireBucket net b).1 lo hi := by
  have hsub : (b.nodes.filter fun n => n.pinged < 4).length ≤ b.nodes.length :=
    List.length_filter_le _ _
  have hok : BucketOk af myid { b with
      nodes := b.nodes.filter fun n => n.pinged < 4
      count := b.count - (b.nodes.length - (b.nodes.filter fun n => n.pinged < 4).length) }
      lo hi := by
    have h1 := hb.count
    have h2 := hb.count_le
    refine ⟨hb.first, hb.aligned, hb.family, ?_, ?_, ?_, ?_⟩
    · dsimp only; omega
    · dsimp only; omega
    · exact hb.nodup.sublist (List.filter_sublist.map _)
    · exact fun n hn => hb.nodes n (List.mem_of_mem_filter hn)
  unfold expireBucket
  dsimp only
  split_ifs
  · exact hok
  · exact BucketOk.congr (by rfl) hok

theorem routingOk_expireBuckets (net : Net) (hr : RoutingOk myid r) :
    RoutingOk myid (r.expireBuckets net).1 := by
  intro af haf
  have htable : (r.expireBuckets net).1.table af =
      (r.table af).map fun b => (expireBucket net b).1 := by
    unfold expireBuckets table
    split_ifs <;> rfl
  rw [htable]
  rcases hr af haf with h | h
  · exact Or.inl (by rw [h, List.map_nil])
  · exact Or.inr (h.map fun b _ _ _ hb => bucketOk_expire net hb)

theorem sameShape_discardNode (net : Net) (now : ℤ) (r : Routing) (id : Id) (af : ℕ) :
    SameShape r (r.discardNode net now id af).1 := by
  unfold discardNode
  split
  · exact SameShape.refl r
  · rename_i i j _
    have h : SameShape r (r.modifyNode af i j fun n => { n with pinged := 3 }) :=
      sameShape_modifyNode fun _ _ _ _ => ⟨rfl, rfl⟩
    exact h.trans (sameShape_pinged _ _ _ _ _ _ _)

theorem sameShape_markPinged (net : Net) (now : ℤ) (r : Routing) (id : Id) (af : ℕ) :
    SameShape r (r.markPinged net now id af).1 := by
  unfold markPinged
  split
  · exact SameShape.refl r
  · exact sameShape_pinged _ _ _ _ _ _ _

theorem sameShape_neighbourhoodMaintenance (net : Net) (now : ℤ) (r : Routing) (af : ℕ)
    (rs : Random) : SameShape r (r.neighbourhoodMaintenance net now af rs).1 := by
  unfold neighbourhoodMaintenance
  split
  · exact SameShape.refl r
  · dsimp only
    split
    · exact SameShape.refl r
    · split
      · exact SameShape.refl r
      · exact sameShape_askNode _ _ _ _ _ _ _ _

theorem sameShape_bucketMaintenance (net : Net) (now : ℤ) (r : Routing) (af : ℕ) (rs : Random) :
    SameShape r (r.bucketMaintenance net now af rs).1 := by
  unfold bucketMaintenance
  generalize List.range (r.table af).length = is
  induction is generalizing rs with
  | nil => exact SameShape.refl r
  | cons i is ih =>
    rw [bucketMaintenanceFrom]
    split
    · exact SameShape.refl r
    · rename_i b hb
      split_ifs
      · generalize bucketRandom b (r.table af)[i + 1]? rs = x
        obtain ⟨id, rs⟩ := x
        dsimp only
        generalize r.chooseBucket af i rs = y
        obtain ⟨q, rs⟩ := y
        dsimp only
        split
        · exact ih rs
        · rename_i b' hb'
          obtain ⟨_ | j, rs⟩ := randomNode b' rs
          · exact ih rs
          · exact sameShape_askNode _ _ _ _ _ _ _ _
      · exact ih rs

/-! ## Runs -/

/-- `dht_init`: one bucket for each family that has a socket, in which `expire_buckets` finds
nothing. -/
def init (s s6 now : ℤ) : Routing where
  buckets := if 0 ≤ s then [callocBucket afInet Id.zeroes] else []
  buckets6 := if 0 ≤ s6 then [callocBucket afInet6 Id.zeroes] else []
  mybucketGrowTime := now
  mybucket6GrowTime := now

/-- The calls that write to the routing table. -/
inductive Call where
  | newNode (id : Id) (sa : Sockaddr) (salen confirm : ℕ)
  | splitBucket (af i : ℕ)
  | expireBuckets
  | blacklistNode (id : Id) (sa : Sockaddr)
  | searchRequest (id : Id) (sa : Sockaddr)
  | neighbourhoodMaintenance (af : ℕ) (rs : Random)
  | bucketMaintenance (af : ℕ) (rs : Random)

/-- The addresses and families of a call are IPv4 or IPv6 ones. -/
def Call.Valid : Call → Prop
  | .newNode _ sa salen _ => IsSockaddr sa salen
  | .splitBucket af _ => IsFamily af
  | _ => True

/-- A call at some time, with some addresses blacklisted. -/
structure Event where
  now : ℤ
  nodeBlacklisted : Sockaddr → ℕ → Bool
  call : Call

/-- The table after an event. -/
def step (net : Net) (r : Routing) (e : Event) : Routing :=
  let net := { net with nodeBlacklisted := e.nodeBlacklisted }
  match e.call with
  | .newNode id sa salen confirm => (r.newNode net e.now id sa salen confirm).1
  | .splitBucket af i => (r.splitBucket net af i).1
  | .expireBuckets => (r.expireBuckets net).1
  | .blacklistNode id sa => (r.discardNode net e.now id sa.family).1
  | .searchRequest id sa => (r.markPinged net e.now id sa.family).1
  | .neighbourhoodMaintenance af rs => (r.neighbourhoodMaintenance net e.now af rs).1
  | .bucketMaintenance af rs => (r.bucketMaintenance net e.now af rs).1

theorem isFamily_of_isSockaddr {sa : Sockaddr} {salen : ℕ} (h : IsSockaddr sa salen) :
    IsFamily sa.family ∧ 2 ≤ salen ∧ salen ≤ sa.length := by
  obtain ⟨⟨h1, h2⟩ | ⟨h1, h2⟩, hl⟩ := h
  · exact ⟨Or.inl h1, by rw [h2]; decide, hl⟩
  · exact ⟨Or.inr h1, by rw [h2]; decide, hl⟩

theorem routingOk_init (myid : Id) (s s6 now : ℤ) : RoutingOk myid (init s s6 now) := by
  have hbucket : ∀ af, TableOk af myid [callocBucket af Id.zeroes] := by
    intro af
    refine Or.inr ⟨2 ^ 160, ⟨Id.val_zeroes, ⟨160, by simp, dvd_zero _⟩, rfl, rfl, ?_, ?_, ?_⟩, rfl⟩
    · exact Nat.zero_le 8
    · exact List.nodup_nil
    · exact fun n hn => absurd hn List.not_mem_nil
  intro af haf
  rcases haf with rfl | rfl
  · show TableOk afInet myid (if 0 ≤ s then [callocBucket afInet Id.zeroes] else [])
    split_ifs
    · exact hbucket _
    · exact Or.inl rfl
  · show TableOk afInet6 myid (if 0 ≤ s6 then [callocBucket afInet6 Id.zeroes] else [])
    split_ifs
    · exact hbucket _
    · exact Or.inl rfl

theorem routingOk_step (hr : RoutingOk net.myid r) {e : Event} (he : e.call.Valid) :
    RoutingOk net.myid (step net r e) := by
  obtain ⟨now, refused, call⟩ := e
  cases call with
  | newNode id sa salen confirm =>
    obtain ⟨hfam, h2, hl⟩ := isFamily_of_isSockaddr he
    have hr' : RoutingOk { net with nodeBlacklisted := refused }.myid r := hr
    obtain ⟨out, -, hout, hok⟩ := newNode_spec now id confirm hfam h2 hl hr'
    subst hout
    exact hok
  | splitBucket af i => exact routingOk_splitBucket _ hr he i
  | expireBuckets => exact routingOk_expireBuckets _ hr
  | blacklistNode id sa => exact (sameShape_discardNode _ _ _ _ _).ok hr
  | searchRequest id sa => exact (sameShape_markPinged _ _ _ _ _).ok hr
  | neighbourhoodMaintenance af rs => exact (sameShape_neighbourhoodMaintenance _ _ _ _ _).ok hr
  | bucketMaintenance af rs => exact (sameShape_bucketMaintenance _ _ _ _ _).ok hr

theorem routingOk_run {es : List Event} (hr : RoutingOk net.myid r)
    (hes : ∀ e ∈ es, e.call.Valid) : RoutingOk net.myid (es.foldl (step net) r) := by
  induction es generalizing r with
  | nil => exact hr
  | cons e es ih =>
    exact ih (routingOk_step hr (hes e List.mem_cons_self))
      fun e' he' => hes e' (List.mem_cons_of_mem e he')

end Routing

/-! ## The invariant, spelt out -/

/-- Where the range of the bucket before `next` ends. -/
def rangeEnd (next : Option Bucket) : ℕ := next.elim (2 ^ 160) fun b => b.first.val

/-- What the buckets of a family look like. -/
structure TableInvariant (af : ℕ) (myid : Id) (bs : List Bucket) : Prop where
  starts_at_zero : ∀ b ∈ bs.head?, b.first = Id.zeroes
  increasing : bs.Pairwise fun b c => b.first.val < c.first.val
  aligned : ∀ i b, bs[i]? = some b → Aligned b.first.val (rangeEnd bs[i + 1]?)
  find : bs ≠ [] → ∀ id, ∃ i b, findBucket id bs = some i ∧ bs[i]? = some b ∧
    inBucket id b bs[i + 1]? = true ∧
    ∀ j c, bs[j]? = some c → inBucket id c bs[j + 1]? = true → j = i
  in_range : ∀ i b, bs[i]? = some b → ∀ n ∈ b.nodes, inBucket n.id b bs[i + 1]? = true
  family : ∀ b ∈ bs, b.af = af ∧ ∀ n ∈ b.nodes, n.ss.family = b.af
  count : ∀ b ∈ bs, b.count = b.nodes.length ∧ b.count ≤ 8
  nodup : (bs.flatMap fun b => b.nodes.map Node.id).Nodup
  not_myid : ∀ b ∈ bs, ∀ n ∈ b.nodes, n.id ≠ myid

theorem inBucket_iff {next : Option Bucket} : inBucket id b next = true ↔
    b.first.val ≤ id.val ∧ ∀ c ∈ next, id.val < c.first.val := by
  unfold inBucket
  rw [Bool.and_eq_true, decide_eq_true_eq, idCmp_ne_gt, Option.all_eq_true]
  simp

theorem Located.rangeEnd_eq (h : Located af myid id bs pre b post lo hi) :
    rangeEnd post.head? = hi := by
  have hfirst := first_head h.post
  cases hp : post with
  | nil =>
    have := h.post
    rw [hp] at this
    exact this.symm
  | cons c post =>
    subst hp
    exact hfirst c rfl

theorem Located.inBucket_iff (h : Located af myid id bs pre b post lo hi) (x : Id) :
    inBucket x b post.head? = true ↔ lo ≤ x.val ∧ x.val < hi := by
  rw [DtnDht.inBucket_iff, h.bucket.first, ← h.rangeEnd_eq]
  cases post with
  | nil =>
    have hx : x.val < rangeEnd none := x.val_lt
    simp [hx]
  | cons c post => simp [rangeEnd]

theorem inBucket_unique (hs : bs.Pairwise fun b c => b.first.val < c.first.val) {c : Bucket}
    (hc : bs[j]? = some c) (hib : inBucket id b bs[i + 1]? = true)
    (hic : inBucket id c bs[j + 1]? = true) (hij : i < j) : False := by
  obtain ⟨hj, rfl⟩ := List.getElem?_eq_some_iff.mp hc
  have hi1 : i + 1 < bs.length := by omega
  have h1 := (inBucket_iff.mp hib).2 bs[i + 1] (List.getElem?_eq_getElem hi1)
  have h2 := (inBucket_iff.mp hic).1
  rcases eq_or_lt_of_le (show i + 1 ≤ j from hij) with rfl | hlt
  · omega
  · have := List.pairwise_iff_getElem.mp hs (i + 1) j hi1 hj hlt
    omega

theorem TableOk.invariant (h : TableOk af myid bs) : TableInvariant af myid bs := by
  have hlt : ∀ b lo hi, BucketOk af myid b lo hi → lo < hi := fun _ _ _ => BucketOk.lt
  have hinc : bs.Pairwise fun b c => b.first.val < c.first.val := by
    rcases h with rfl | h
    · exact List.Pairwise.nil
    · refine h.pairwise hlt fun c d a b a' b' hc hd hba => ?_
      rw [hc.first, hd.first]
      exact hc.lt.trans_le hba
  have hmem : ∀ b ∈ bs, ∃ lo hi, BucketOk af myid b lo hi := by
    intro b hb
    rcases h with rfl | h
    · exact absurd hb List.not_mem_nil
    · obtain ⟨lo, hi, hb, -⟩ := h.of_mem hlt hb
      exact ⟨lo, hi, hb⟩
  constructor
  · intro b hb
    rcases h with rfl | h
    · exact absurd hb (by simp)
    · cases bs with
      | nil => exact absurd hb (by simp)
      | cons c bs =>
        obtain ⟨mid, hc, -⟩ := h
        obtain rfl : c = b := by simpa using hb
        exact Id.val_injective (hc.first.trans Id.val_zeroes.symm)
  · exact hinc
  · intro i b hb
    obtain ⟨pre, post, lo, hi, hloc, rfl⟩ := Routing.TableOk.located_getElem? h hb
    rw [hloc.getElem?_succ, hloc.rangeEnd_eq, hloc.bucket.first]
    exact hloc.bucket.aligned
  · intro hne id
    obtain ⟨pre, b, post, lo, hi, hloc, hfind⟩ := h.located hne id
    have hin : inBucket id b bs[pre.length + 1]? = true := by
      rw [hloc.getElem?_succ]
      exact (hloc.inBucket_iff id).mpr ⟨hloc.le, hloc.lt⟩
    refine ⟨pre.length, b, hfind, hloc.getElem?, hin, fun j c hc hjc => ?_⟩
    rcases lt_trichotomy j pre.length with hlt | heq | hgt
    · exact (inBucket_unique hinc hloc.getElem? hjc hin hlt).elim
    · exact heq
    · exact (inBucket_unique hinc hc hin hjc hgt).elim
  · intro i b hb n hn
    obtain ⟨pre, post, lo, hi, hloc, rfl⟩ := Routing.TableOk.located_getElem? h hb
    rw [hloc.getElem?_succ]
    have hok := hloc.bucket.nodes n hn
    exact (hloc.inBucket_iff n.id).mpr ⟨hok.le, hok.lt⟩
  · intro b hb
    obtain ⟨lo, hi, hb⟩ := hmem b hb
    exact ⟨hb.family, fun n hn => (hb.nodes n hn).family.trans hb.family.symm⟩
  · intro b hb
    obtain ⟨lo, hi, hb⟩ := hmem b hb
    exact ⟨hb.count, hb.count_le⟩
  · rw [List.nodup_flatMap]
    refine ⟨fun b hb => ?_, ?_⟩
    · obtain ⟨lo, hi, hb⟩ := hmem b hb
      exact hb.nodup
    · rcases h with rfl | h
      · exact List.Pairwise.nil
      · refine h.pairwise hlt fun c d a b a' b' hc hd hba x hx hx' => ?_
        obtain ⟨n, hn, rfl⟩ := List.mem_map.mp hx
        obtain ⟨m, hm, he⟩ := List.mem_map.mp hx'
        have h1 := (hc.nodes n hn).lt
        have h2 := (hd.nodes m hm).le
        rw [he] at h2
        omega
  · intro b hb n hn
    obtain ⟨lo, hi, hb⟩ := hmem b hb
    exact (hb.nodes n hn).ne

/-- Twenty nodes are learnt, eight of them in the upper half of the ids. -/
def twentyNodes : List Routing.Event := (List.range 20).map fun k =>
  ⟨1000, fun _ _ => false,
    .newNode (Id.ofBytes [UInt8.ofNat (if k < 8 then 16 * k + 128 else 8 * (k - 7))])
      (sockaddrIn [9, 9, 9, UInt8.ofNat k] [26, 225]) 16 2⟩

/-- The table that has learnt them, with 7, 5 and 8 nodes in its three buckets. -/
def learntTwenty : Routing :=
  twentyNodes.foldl (Routing.step ⟨3, -1, Id.zeroes, none, fun _ _ => false⟩)
    (Routing.init 3 (-1) 1000)

theorem invariant_learntTwenty :
    ∀ af, IsFamily af → TableInvariant af Id.zeroes (learntTwenty.table af) := by
  have hvalid : ∀ e ∈ twentyNodes, e.call.Valid := by
    intro e he
    obtain ⟨k, -, rfl⟩ := List.mem_map.mp he
    exact ⟨Or.inl ⟨rfl, rfl⟩, le_rfl⟩
  have hok : RoutingOk Id.zeroes learntTwenty :=
    Routing.routingOk_run (Routing.routingOk_init Id.zeroes 3 (-1) 1000) hvalid
  exact fun af haf => (hok af haf).invariant

end DtnDht
