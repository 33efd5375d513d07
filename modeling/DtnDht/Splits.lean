import DtnDht.BucketRange
import Mathlib.Order.CompletePartialOrder

/-!
# How often `new_node` splits

`new_node` calls itself when it has split the bucket of the id (`recursiveCall`). It only splits a
bucket that holds `myid` too, so that the two ids have the prefix of the bucket in common; and
after `n` calls the range of the id's bucket is at most `2 ^ (160 - n)` long (`Depth`). Hence the
recursion ends, at most one call after the bits that the two ids share (`newNode_ends`).
-/

namespace DtnDht

open CString Tiling

namespace Routing

variable (net : Net) (now : ℤ)

/-! ## The recursive call -/

/-- The bucket that a call of `new_node` splits, and the table it then calls itself with; none if
it returns without calling itself. -/
def recursiveCall (id : Id) (sa : Sockaddr) (salen confirm : ℕ) (r : Routing) :
    Option (ℕ × Routing) :=
  let af := sa.family
  match r.findBucket id af with
  | none => none
  | some i =>
    match (r.table af)[i]? with
    | none => none
    | some b =>
      if idCmp id net.myid = .eq then none
      else if isMartian sa || net.nodeBlacklisted sa salen then none
      else
        let mybucket := inBucket net.myid b (r.table af)[i + 1]?
        let r := if confirm = 2 then r.modifyBucket af i fun b => { b with time := now } else r
        if b.nodes.any fun n => idCmp n.id id = .eq then none
        else
          let r := if mybucket then r.grow now af else r
          if b.nodes.any fun n => 3 ≤ n.pinged && n.pingedTime < now - 15 then none
          else if 8 ≤ b.count then
            let dubious := b.nodes.any fun n => !nodeGood now n
            let r := (r.pingDubious net now af i b.nodes).1
            if r.wantsSplit b mybucket dubious then some (i, (r.splitBucket net af i).1) else none
          else none

/-- The table the call of `new_node` works on that is nested in `n` others. -/
def nestedCall (id : Id) (sa : Sockaddr) (salen confirm : ℕ) : ℕ → Routing → Option Routing
  | 0, r => some r
  | n + 1, r => (recursiveCall net now id sa salen confirm r).bind fun x =>
    nestedCall id sa salen confirm n x.2

variable {net now} {r r' : Routing} {id : Id} {sa : Sockaddr} {salen confirm i n : ℕ}
  {b : Bucket}

/-- A call of `new_node` splits bucket `b`: it is full, it holds `myid` and none of its nodes has
the id. Until then only times and ping counters have been written (`r'`). -/
structure SplitsBucket (net : Net) (id : Id) (af : ℕ) (r r' : Routing) (i : ℕ) (b : Bucket) :
    Prop where
  found : r.findBucket id af = some i
  bucket : (r.table af)[i]? = some b
  same : SameShape r r'
  full : 8 ≤ b.count
  new : id ∉ b.nodes.map Node.id
  mine : inBucket net.myid b (r.table af)[i + 1]? = true

/-- A call of `new_node` returns, or splits a bucket and returns what the call after that does. -/
theorem recursiveCall_cases (net : Net) (now : ℤ) (id : Id) (sa : Sockaddr) (salen confirm : ℕ)
    (r : Routing) :
    (recursiveCall net now id sa salen confirm r = none ∧
      ∃ out, ∀ fuel, newNodeFuel net now id sa salen confirm (fuel + 1) r = some out) ∨
    ∃ i b r' pkts, SplitsBucket net id sa.family r r' i b ∧
      recursiveCall net now id sa salen confirm r =
        some (i, (r'.splitBucket net sa.family i).1) ∧
      ∀ fuel, newNodeFuel net now id sa salen confirm (fuel + 1) r =
        (newNodeFuel net now id sa salen confirm fuel (r'.splitBucket net sa.family i).1).map
          fun x => (x.1, pkts ++ x.2.1, x.2.2) := by
  simp only [newNodeFuel]
  unfold recursiveCall
  dsimp only
  cases hi : r.findBucket id sa.family with
  | none => exact Or.inl ⟨rfl, _, fun _ => rfl⟩
  | some i =>
    dsimp only
    cases hb : (r.table sa.family)[i]? with
    | none => exact Or.inl ⟨rfl, _, fun _ => rfl⟩
    | some b =>
      dsimp only
      by_cases hmy : idCmp id net.myid = .eq
      · simp only [if_pos hmy]
        exact Or.inl ⟨trivial, _, fun _ => rfl⟩
      simp only [if_neg hmy]
      by_cases hbad : (isMartian sa || net.nodeBlacklisted sa salen) = true
      · simp only [if_pos hbad]
        exact Or.inl ⟨trivial, _, fun _ => rfl⟩
      simp only [if_neg hbad]
      generalize hr1 : (if confirm = 2 then
        r.modifyBucket sa.family i fun b => { b with time := now } else r) = r1
      have h1 : SameShape r r1 := by
        subst hr1
        split_ifs
        · exact sameShape_modifyBucket fun _ _ => rfl
        · exact SameShape.refl r
      rw [← List.findIdx?_isSome]
      cases hknown : b.nodes.findIdx? fun n => idCmp n.id id = .eq with
      | some j => exact Or.inl ⟨rfl, _, fun _ => rfl⟩
      | none =>
        have hnew : id ∉ b.nodes.map Node.id := by
          intro hmem
          obtain ⟨n, hn, he⟩ := List.mem_map.mp hmem
          have hne := List.findIdx?_eq_none_iff.mp hknown n hn
          rw [he] at hne
          simp at hne
        dsimp only
        generalize hr2 : (if inBucket net.myid b (r.table sa.family)[i + 1]? = true then
          r1.grow now sa.family else r1) = r2
        have h2 : SameShape r r2 := by
          subst hr2
          split_ifs
          · exact h1.trans (sameShape_grow _ _ _)
          · exact h1
        rw [if_neg (by simp), ← List.findIdx?_isSome]
        cases b.nodes.findIdx? fun n => 3 ≤ n.pinged && n.pingedTime < now - 15 with
        | some j => exact Or.inl ⟨rfl, _, fun _ => rfl⟩
        | none =>
          dsimp only
          rw [if_neg (by simp)]
          by_cases hfull : 8 ≤ b.count
          · simp only [if_pos hfull]
            have h3 := h2.trans (sameShape_pingDubious net now r2 sa.family i b.nodes)
            split_ifs with hsplit
            · have hmine : inBucket net.myid b (r.table sa.family)[i + 1]? = true := by
                rw [wantsSplit, Bool.and_eq_true] at hsplit
                exact hsplit.1
              exact Or.inr ⟨i, b, _, _, ⟨hi, hb, h3, hfull, hnew, hmine⟩, rfl, fun _ => rfl⟩
            · exact Or.inl ⟨rfl, _, fun _ => rfl⟩
          · simp only [if_neg hfull]
            exact Or.inl ⟨trivial, _, fun _ => rfl⟩

/-! ## One call -/

variable {af af' : ℕ} {myid : Id}

theorem splitBucket_congr (h : af = afInet ↔ af' = afInet) (r : Routing) (i : ℕ) :
    r.splitBucket net af i = r.splitBucket net af' i := by
  have hset : ∀ (r : Routing) bs, r.setTable af bs = r.setTable af' bs := by
    intro r bs
    unfold setTable
    simp only [h]
  unfold splitBucket sendCachedPing modifyBucket
  simp only [table_congr h, hset]

/-- A family that has the list `af` stands for: all but `AF_INET` stand for the second one. -/
theorem exists_isFamily (af : ℕ) : ∃ af', IsFamily af' ∧ (af = afInet ↔ af' = afInet) := by
  by_cases h : af = afInet
  · exact ⟨afInet, Or.inl rfl, iff_of_true h rfl⟩
  · exact ⟨afInet6, Or.inr rfl, iff_of_false h (by decide)⟩

/-- The bucket of the id has a range of at most `2 ^ (160 - n)`. -/
def Depth (myid id : Id) (af n : ℕ) (r : Routing) : Prop :=
  ∃ pre b post lo k, Located af myid id (r.table af) pre b post lo (lo + 2 ^ k) ∧ n + k ≤ 160

theorem depth_zero (haf : IsFamily af) (hr : RoutingOk myid r) (hne : r.table af ≠ []) :
    Depth myid id af 0 r := by
  obtain ⟨pre, b, post, lo, hi, hloc, -⟩ := (hr af haf).located hne id
  obtain ⟨k, rfl, -⟩ := hloc.bucket.aligned
  have hle : lo + 2 ^ k ≤ 2 ^ 160 := hloc.post.le fun _ _ _ => BucketOk.lt
  have hk : k ≤ 160 := (Nat.pow_le_pow_iff_right one_lt_two).mp (by omega)
  exact ⟨pre, b, post, lo, k, hloc, by omega⟩

/-- The bucket that is split holds both ids and has a middle, and the call after that works on the
half that holds the id. -/
structure Narrows (myid id : Id) (af : ℕ) (r r' : Routing) (i j : ℕ) (b c : Bucket) : Prop where
  found : r.findBucket id af = some i
  bucket : (r.table af)[i]? = some b
  holds : inBucket id b (r.table af)[i + 1]? = true
  mine : inBucket myid b (r.table af)[i + 1]? = true
  splittable : bucketMiddle b (r.table af)[i + 1]? ≠ none
  found_next : r'.findBucket id af = some j
  bucket_next : (r'.table af)[j]? = some c
  holds_next : inBucket id c (r'.table af)[j + 1]? = true
  smaller : {x | inBucket x c (r'.table af)[j + 1]? = true} ⊂
    {x | inBucket x b (r.table af)[i + 1]? = true}

/-- What a call that splits does to the bucket of the id. -/
theorem SplitsBucket.narrows (h : SplitsBucket net id af r r' i b) (haf : IsFamily af)
    (hr : RoutingOk net.myid r) (hn : Depth net.myid id af n r) :
    RoutingOk net.myid (r'.splitBucket net af i).1 ∧
      Depth net.myid id af (n + 1) (r'.splitBucket net af i).1 ∧
      n ≤ commonBits id net.myid ∧
      ∃ j c, Narrows net.myid id af r (r'.splitBucket net af i).1 i j b c := by
  obtain ⟨pre, b', post, lo, m, hloc, hdepth⟩ := hn
  obtain rfl : pre.length = i := Option.some_inj.mp (hloc.findBucket_eq.symm.trans h.found)
  obtain rfl : b' = b := Option.some_inj.mp (hloc.getElem?.symm.trans h.bucket)
  obtain ⟨k, hk, hdvd⟩ := exists_half hloc h.full h.new
  obtain rfl : m = k + 1 := Nat.pow_right_injective le_rfl (Nat.add_left_cancel hk)
  obtain ⟨pre', c', post', hloc', hlen, -⟩ := Located.congr (h.same _) hloc
  obtain ⟨hok, pre'', c, post'', lo', hhalf, hlo, hhi⟩ :=
    located_splitBucket net (h.same.ok hr) haf hloc' rfl hdvd
  rw [hlen] at hok hhalf
  have hmine := h.mine
  rw [hloc.getElem?_succ, hloc.inBucket_iff] at hmine
  have hcommon := le_commonBits_of_range (show k + 1 ≤ 160 by omega) hdvd ⟨hloc.le, hloc.lt⟩ hmine
  obtain ⟨mid, hmid, hval⟩ := hloc.bucketMiddle_eq rfl hdvd
  refine ⟨hok, ⟨pre'', c, post'', lo', k, hhalf, by omega⟩, by omega, pre''.length, c, ?_⟩
  refine ⟨h.found, h.bucket, ?_, h.mine, ?_, hhalf.findBucket_eq, hhalf.getElem?, ?_, ?_⟩
  · rw [hloc.getElem?_succ, hloc.inBucket_iff]
    exact ⟨hloc.le, hloc.lt⟩
  · rw [hloc.getElem?_succ, hmid]
    exact Option.some_ne_none mid
  · rw [hhalf.getElem?_succ, hhalf.inBucket_iff]
    exact ⟨hhalf.le, hhalf.lt⟩
  · rw [hloc.getElem?_succ, hhalf.getElem?_succ]
    simp only [hloc.inBucket_iff, hhalf.inBucket_iff]
    have hpos := Nat.two_pow_pos k
    have hdouble : 2 ^ (k + 1) = 2 ^ k + 2 ^ k := by
      rw [pow_succ]
      omega
    refine ⟨fun x hx => ?_, fun hsub => ?_⟩
    · rw [Set.mem_ofPred_eq] at hx ⊢
      omega
    · -- the first id of the other half is not in this one
      rcases eq_or_lt_of_le hlo with rfl | hlt
      · have hmem := hsub (show mid ∈ {x : Id | lo ≤ x.val ∧ x.val < lo + 2 ^ (k + 1)} from
          ⟨by omega, by omega⟩)
        rw [Set.mem_ofPred_eq] at hmem
        omega
      · have hfirst := hloc.bucket.first
        have hmem := hsub (show b'.first ∈ {x : Id | lo ≤ x.val ∧ x.val < lo + 2 ^ (k + 1)} from
          ⟨by omega, by omega⟩)
        rw [Set.mem_ofPred_eq] at hmem
        omega

/-! ## All calls -/

theorem recursiveCall_eq_some {r'' : Routing}
    (h : recursiveCall net now id sa salen confirm r = some (i, r'')) :
    ∃ b r', SplitsBucket net id sa.family r r' i b ∧
      r'' = (r'.splitBucket net sa.family i).1 := by
  obtain ⟨hnone, -⟩ | ⟨j, b, r', pkts, hsplit, hsome, -⟩ :=
    recursiveCall_cases net now id sa salen confirm r
  · rw [hnone] at h
    exact absurd h.symm (Option.some_ne_none _)
  · rw [hsome, Option.some_inj, Prod.mk.injEq] at h
    obtain ⟨rfl, rfl⟩ := h
    exact ⟨b, r', hsplit, rfl⟩

theorem SplitsBucket.congr (he : af = afInet ↔ af' = afInet)
    (h : SplitsBucket net id af r r' i b) : SplitsBucket net id af' r r' i b := by
  have htable := table_congr he r
  refine ⟨?_, htable ▸ h.bucket, h.same, h.full, h.new, htable ▸ h.mine⟩
  have hfound := h.found
  unfold Routing.findBucket at hfound ⊢
  rwa [← htable]

/-- One call that splits, whatever the family of the address. -/
theorem recursiveCall_narrows (haf : IsFamily af) (he : sa.family = afInet ↔ af = afInet)
    (hr : RoutingOk net.myid r) (hn : Depth net.myid id af n r)
    (h : recursiveCall net now id sa salen confirm r = some (i, r')) :
    RoutingOk net.myid r' ∧ Depth net.myid id af (n + 1) r' ∧ n ≤ commonBits id net.myid ∧
      ∃ j c b, Narrows net.myid id sa.family r r' i j b c := by
  obtain ⟨b, r1, hsplit, rfl⟩ := recursiveCall_eq_some h
  rw [splitBucket_congr he]
  obtain ⟨hok, hdepth, hcommon, j, c, hnarrows⟩ := (hsplit.congr he).narrows haf hr hn
  refine ⟨hok, hdepth, hcommon, j, c, b, hsplit.found, hsplit.bucket, ?_, hsplit.mine, ?_, ?_, ?_,
    ?_, ?_⟩
  · exact table_congr he r ▸ hnarrows.holds
  · exact table_congr he r ▸ hnarrows.splittable
  · have hfound := hnarrows.found_next
    unfold Routing.findBucket at hfound ⊢
    rwa [table_congr he]
  · exact table_congr he _ ▸ hnarrows.bucket_next
  · exact table_congr he _ ▸ hnarrows.holds_next
  · have hsmaller := hnarrows.smaller
    rwa [← table_congr he, ← table_congr he] at hsmaller

theorem table_ne_nil_of_recursiveCall (he : sa.family = afInet ↔ af = afInet)
    (h : recursiveCall net now id sa salen confirm r = some (i, r')) : r.table af ≠ [] := by
  obtain ⟨b, r1, hsplit, -⟩ := recursiveCall_eq_some h
  intro hnil
  have hb := hsplit.bucket
  rw [table_congr he, hnil] at hb
  exact absurd hb.symm (Option.some_ne_none b)

/-- The call nested in `n` others works on a table that is in order, with the bucket of the id at
depth `n` or below. -/
theorem nestedCall_depth {m : ℕ} (haf : IsFamily af) (he : sa.family = afInet ↔ af = afInet)
    (hr : RoutingOk net.myid r) (hm : r.table af ≠ [] → Depth net.myid id af m r)
    (h : nestedCall net now id sa salen confirm n r = some r') :
    RoutingOk net.myid r' ∧ (r'.table af ≠ [] → Depth net.myid id af (m + n) r') ∧
      (n ≠ 0 → m + n ≤ commonBits id net.myid + 1) := by
  induction n generalizing m r with
  | zero =>
    obtain rfl : r = r' := Option.some_inj.mp h
    exact ⟨hr, hm, fun h0 => absurd rfl h0⟩
  | succ n ih =>
    rw [nestedCall, Option.bind_eq_some_iff] at h
    obtain ⟨⟨i, r1⟩, hcall, hrest⟩ := h
    have hdepth := hm (table_ne_nil_of_recursiveCall he hcall)
    obtain ⟨hok, hnext, hcommon, -⟩ := recursiveCall_narrows haf he hr hdepth hcall
    obtain ⟨hok', hdepth', hbound⟩ := ih hok (fun _ => hnext) hrest
    rw [show m + (n + 1) = m + 1 + n by omega]
    refine ⟨hok', hdepth', fun _ => ?_⟩
    cases n with
    | zero => omega
    | succ n => exact hbound (Nat.succ_ne_zero n)

/-- `new_node` returns when there is no call nested as deep as the fuel. -/
theorem newNodeFuel_of_nestedCall
    (h : nestedCall net now id sa salen confirm n r = none) :
    ∃ out, ∀ fuel, n ≤ fuel → newNodeFuel net now id sa salen confirm fuel r = some out := by
  induction n generalizing r with
  | zero => exact absurd h (Option.some_ne_none r)
  | succ n ih =>
    obtain ⟨-, out, hout⟩ | ⟨i, b, r', pkts, -, hsome, hcall⟩ :=
      recursiveCall_cases net now id sa salen confirm r
    · refine ⟨out, fun fuel hfuel => ?_⟩
      obtain ⟨fuel, rfl⟩ := Nat.exists_eq_add_of_le' (Nat.le_of_add_left_le hfuel)
      exact hout fuel
    · rw [nestedCall, hsome] at h
      obtain ⟨out, hout⟩ := ih h
      refine ⟨(out.1, pkts ++ out.2.1, out.2.2), fun fuel hfuel => ?_⟩
      obtain ⟨fuel, rfl⟩ := Nat.exists_eq_add_of_le' (Nat.le_of_add_left_le hfuel)
      rw [hcall, hout fuel (Nat.le_of_succ_le_succ hfuel)]
      rfl

/-- **`new_node` ends.** It calls itself at most once more than the id and `myid` have bits in
common. Each bucket that is split holds both ids and has a middle, and the call after that works on
a smaller bucket, which holds the id. -/
theorem newNode_ends (net : Net) (now : ℤ) (id : Id) (sa : Sockaddr) (salen confirm : ℕ)
    (r : Routing) (hr : RoutingOk net.myid r) :
    (∃ out, ∀ fuel, commonBits id net.myid + 2 ≤ fuel →
      newNodeFuel net now id sa salen confirm fuel r = some out) ∧
    (∀ n r', nestedCall net now id sa salen confirm n r = some r' →
      n ≤ commonBits id net.myid + 1) ∧
    ∀ n r' i r'', nestedCall net now id sa salen confirm n r = some r' →
      recursiveCall net now id sa salen confirm r' = some (i, r'') →
      ∃ j c b, Narrows net.myid id sa.family r' r'' i j b c := by
  obtain ⟨af, haf, he⟩ := exists_isFamily sa.family
  have hbound : ∀ n r', nestedCall net now id sa salen confirm n r = some r' →
      n ≤ commonBits id net.myid + 1 := by
    intro n r' h
    obtain ⟨-, -, hn⟩ := nestedCall_depth haf he hr (depth_zero haf hr) h
    rcases Nat.eq_zero_or_pos n with rfl | hpos
    · exact Nat.zero_le _
    · have := hn hpos.ne'
      omega
  refine ⟨?_, hbound, fun n r' i r'' hn hcall => ?_⟩
  · refine newNodeFuel_of_nestedCall (Option.eq_none_iff_forall_ne_some.mpr fun r' h => ?_)
    have := hbound _ r' h
    omega
  · obtain ⟨hok, hdepth, -⟩ := nestedCall_depth haf he hr (depth_zero haf hr) hn
    obtain ⟨-, -, -, hnarrows⟩ :=
      recursiveCall_narrows haf he hok (hdepth (table_ne_nil_of_recursiveCall he hcall)) hcall
    exact hnarrows

/-- Eight nodes, all in the half that holds the id 0. -/
def learnEight : List Event := (List.range 8).map fun i =>
  ⟨1000, fun _ _ => false,
    .newNode (Id.ofBytes [UInt8.ofNat (i + 1)]) (sockaddrIn [9, 9, 9, UInt8.ofNat i] [0, 80]) 16 2⟩

/-- A table of one bucket, which is full. -/
def fullBucket : Routing :=
  learnEight.foldl (step ⟨3, -1, Id.zeroes, none, fun _ _ => false⟩) (init 3 (-1) 1000)

theorem routingOk_fullBucket : RoutingOk Id.zeroes fullBucket := by
  have hinit : RoutingOk (Net.mk 3 (-1) Id.zeroes none fun _ _ => false).myid
      (init 3 (-1) 1000) := routingOk_init Id.zeroes 3 (-1) 1000
  refine routingOk_run hinit fun e he => ?_
  obtain ⟨i, -, rfl⟩ := List.mem_map.mp he
  exact ⟨Or.inl ⟨rfl, rfl⟩, by rfl⟩

theorem newNode_ends_fullBucket : ∃ out,
    newNodeFuel ⟨3, -1, Id.zeroes, none, fun _ _ => false⟩ 1000 (Id.ofBytes [0x80])
      (sockaddrIn [9, 9, 9, 9] [0, 80]) 16 2 2 fullBucket = some out := by
  obtain ⟨⟨out, hout⟩, -⟩ := newNode_ends ⟨3, -1, Id.zeroes, none, fun _ _ => false⟩ 1000
    (Id.ofBytes [0x80]) (sockaddrIn [9, 9, 9, 9] [0, 80]) 16 2 fullBucket routingOk_fullBucket
  exact ⟨out, hout 2 (by decide)⟩

/-- The last call may work on the half that does not hold `myid`. -/
theorem recursiveCall_other_half : ¬ ∀ (net : Net) (now : ℤ) (id : Id) (sa : Sockaddr)
    (salen confirm : ℕ) (r : Routing), RoutingOk net.myid r → ∀ i r' j c,
      recursiveCall net now id sa salen confirm r = some (i, r') →
      r'.findBucket id sa.family = some j → (r'.table sa.family)[j]? = some c →
      inBucket id c (r'.table sa.family)[j + 1]? = true ∧
        inBucket net.myid c (r'.table sa.family)[j + 1]? = true := by
  intro h
  let r' := ((recursiveCall ⟨3, -1, Id.zeroes, none, fun _ _ => false⟩ 1000 (Id.ofBytes [0x80])
    (sockaddrIn [9, 9, 9, 9] [0, 80]) 16 2 fullBucket).getD (0, fullBucket)).2
  have hmine := (h ⟨3, -1, Id.zeroes, none, fun _ _ => false⟩ 1000 (Id.ofBytes [0x80])
    (sockaddrIn [9, 9, 9, 9] [0, 80]) 16 2 fullBucket routingOk_fullBucket 0 r' 1
    { callocBucket afInet (Id.ofBytes [0x80]) with time := 1000 }
    (by decide +kernel) (by decide +kernel) (by decide +kernel)).2
  exact absurd hmine (by decide +kernel)

end Routing

end DtnDht
