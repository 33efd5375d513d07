import DtnDht.Frame

/-!
# Starting and stepping searches

A step may end a search; then the entry of the table of lookups is marked and the application is
told. `dht_search` takes the slot of the search of the same id and family or one of `new_search`,
and steps the search at once, so that it may end before `dht_search` returns.
-/

namespace DtnDht

/-! ## One search -/

namespace Search

theorem head_askNodes (net : Net) (now : ℤ) (r : Routing) (sr : Search) (asked : ℕ)
    (js : List ℕ) : (askNodes net now r sr asked js).1.head = sr.head := by
  induction js generalizing r sr asked with
  | nil => rfl
  | cons j js ih =>
    have hj := World.head_sendGetPeers net now r sr j
    unfold askNodes
    dsimp only
    split_ifs
    · exact hj
    · exact (ih _ _ _).trans hj

/-- A step sets the time of the search, or leaves it, and may end the search. -/
theorem head_step (net : Net) (now : ℤ) (r : Routing) (sr : Search) :
    ∃ t, (t = sr.stepTime ∨ t = now) ∧ (sr.step net now r).1.head =
      { sr.head with stepTime := t, done := sr.done || (sr.step net now r).2.2.2 } := by
  unfold step
  split_ifs with hall hport htime
  · exact ⟨now, Or.inr rfl, by rw [Bool.or_true]; rfl⟩
  · dsimp only
    split_ifs
    · exact ⟨now, Or.inr rfl, by rw [Bool.or_true]; rfl⟩
    · exact ⟨now, Or.inr rfl, by rw [Bool.or_false]; rfl⟩
  · exact ⟨sr.stepTime, Or.inl rfl, by rw [Bool.or_false]; rfl⟩
  · refine ⟨now, Or.inr rfl, ?_⟩
    have h := head_askNodes net now r sr 0 (List.range sr.nodes.length)
    dsimp only
    rw [Bool.or_false]
    simp only [head, SearchHead.mk.injEq] at h ⊢
    exact ⟨h.1, h.2.1, trivial, h.2.2.2⟩

/-- What `dht_search` inserts leaves all but the nodes alone. -/
theorem head_insertSearchBucket (now : ℤ) (b : Bucket) (sr : Search) :
    (sr.insertSearchBucket now b).head = sr.head := by
  unfold insertSearchBucket
  induction b.nodes generalizing sr with
  | nil => rfl
  | cons n nodes ih => exact (ih _).trans (World.head_insertSearchNode _ _ _ _ _ _ sr)

theorem head_insertBucketAt (now : ℤ) (r : Routing) (i : ℕ) (sr : Search) :
    (sr.insertBucketAt now r i).head = sr.head := by
  unfold insertBucketAt
  cases (r.table sr.af)[i]? with
  | none => rfl
  | some b => exact head_insertSearchBucket now b sr

theorem head_insertClosest (now : ℤ) (r : Routing) (myid : Id) (i : ℕ) (sr : Search) :
    (sr.insertClosest now r myid i).head = sr.head := by
  have hp (sr : Search) (p : Option ℕ) :
      (p.elim sr fun p => sr.insertBucketAt now r p).head = sr.head := by
    cases p with
    | none => rfl
    | some p => exact head_insertBucketAt now r p sr
  have hi := head_insertBucketAt now r i sr
  unfold insertClosest
  dsimp only
  split_ifs
  · exact (hp _ _).trans ((hp _ _).trans ((head_insertBucketAt now r (i + 1) _).trans hi))
  · exact (hp _ _).trans ((head_insertBucketAt now r (i + 1) _).trans hi)
  · exact hi

end Search

namespace World

variable {w : World}

/-! ## Purging -/

/-- Only old searches are purged. -/
theorem expireSearches_fst (now : ℤ) (searches : List Search) (n : ℕ) :
    (expireSearches now searches n).1 =
      searches.filter fun sr => !decide (sr.stepTime < now - dhtSearchExpireTime) := by
  induction searches generalizing n with
  | nil => rfl
  | cons sr searches ih =>
    unfold expireSearches
    rw [List.filter_cons]
    by_cases hold : sr.stepTime < now - dhtSearchExpireTime
    · rw [if_pos hold, ih, decide_eq_true hold]
      rfl
    · rw [if_neg hold, decide_eq_false hold]
      exact congrArg (sr :: ·) (ih n)

theorem heads_expire (w : World) : w.expire.heads =
    w.heads.filter fun hd => !decide (hd.stepTime < w.now - dhtSearchExpireTime) := by
  unfold expire heads
  dsimp only
  rw [List.filter_map]
  exact congrArg (List.map Search.head) (expireSearches_fst _ _ _)

theorem marks_expire (w : World) : w.expire.marks = w.marks :=
  (calm_withRouting w (w.routing.expireBuckets w.net)).marks

/-! ## A step of the system -/

/-- A step of search `i`, which was `sr`: its time is `t` afterwards, and `fin` is whether the step
has ended it. -/
structure Stepped (w w' : World) (i : ℕ) (sr : Search) (t : ℤ) (fin : Bool) : Prop
    extends Kept w w' where
  time : t = sr.stepTime ∨ t = w.now
  heads : w'.heads = w.heads.set i { sr.head with stepTime := t, done := sr.done || fin }
  lookuptable : w'.dtn.lookuptable =
    if fin then (w.dtn.searchDone sr.id).lookuptable else w.dtn.lookuptable
  marks : w'.marks = w.marks ++ if fin then [.operationDone sr.id] else []
  secrets : w'.secrets = w.secrets
  numsearches : w'.numsearches = w.numsearches
  searchId : w'.searchId = w.searchId
  expireStuffTime : w'.expireStuffTime = w.expireStuffTime

theorem marks_searchDone (w : World) (infoHash : Id) :
    (w.searchDone infoHash).marks = w.marks ++ [.operationDone infoHash] := by
  unfold searchDone emit marks
  rw [List.filter_append]
  rfl

/-- What `search_step` does. -/
theorem searchStep_spec {i : ℕ} {sr : Search} (hi : w.searches[i]? = some sr) :
    ∃ t fin, Stepped w (w.searchStep i) i sr t fin := by
  obtain ⟨t, ht, hhead⟩ := sr.head_step w.net w.now w.routing
  refine ⟨t, (sr.step w.net w.now w.routing).2.2.2, ?_⟩
  unfold searchStep
  rw [hi]
  dsimp only
  generalize sr.step w.net w.now w.routing = out at hhead
  obtain ⟨sr', r, pkts, fin⟩ := out
  have hheads : (w.withSearch i (sr', r, pkts)).heads =
      w.heads.set i { sr.head with stepTime := t, done := sr.done || fin } := by
    rw [← hhead]
    exact List.map_set
  have hmarks : (w.withSearch i (sr', r, pkts)).marks = w.marks := marks_request _ _
  have hk := (quiet_withSearch w i (sr', r, pkts)).toKept
  cases fin with
  | false => exact ⟨hk, ht, hheads, rfl, hmarks.trans (List.append_nil _).symm, rfl, rfl, rfl, rfl⟩
  | true =>
    have hid : sr'.id = sr.id := congrArg SearchHead.id hhead
    rw [if_pos rfl, hid]
    refine ⟨hk.trans (quiet_searchDone _ sr.id).toKept, ht, hheads, rfl, ?_, rfl, rfl, rfl, rfl⟩
    rw [marks_searchDone, hmarks]
    rfl

/-! ## Starting a search -/

/-- `dht_search` takes slot `i`: that of the old search, or one of `new_search`. The last arguments
are the searches then, the identifier for slot `i`, their number and the next identifier. -/
inductive TakesSlot (w : World) (id : Id) (af : ℕ) :
    ℕ → List SearchHead → UInt16 → ℕ → UInt16 → Prop
  | old {i : ℕ} {sr : Search} (hidx : w.findIdx id af = some i) (hi : w.searches[i]? = some sr) :
    TakesSlot w id af i w.heads sr.tid w.numsearches w.searchId
  | new {i : ℕ} {searches : List Search} {numsearches : ℕ} (hidx : w.findIdx id af = none)
    (hnew : newSearch w.now (w.env.calloc 0) w.searches w.numsearches =
      (some i, searches, numsearches)) :
    TakesSlot w id af i (searches.map Search.head) w.searchId numsearches (w.searchId + 1)

/-- Does `dht_search` find a bucket and a slot? -/
def canSearch (w : World) (id : Id) (af : ℕ) : Bool :=
  (w.routing.findBucket id af).isSome && ((w.findIdx id af).isSome ||
    (newSearch w.now (w.env.calloc 0) w.searches w.numsearches).1.isSome)

/-- The search that `dht_search` starts. -/
def searchStart (w : World) (id : Id) (port : UInt16) (af : ℕ) : SearchStart where
  id := id
  af := af
  before := (w.findIdx id af).bind (w.searches[·]?)
  port := port
  announced := w.announced id

/-- A search is started in slot `i` of the searches `hs`: its time is `t` afterwards, and `fin` is
whether it has ended. -/
structure Started (w w' : World) (id : Id) (port : UInt16) (af i : ℕ) (hs : List SearchHead)
    (tid : UInt16) (t : ℤ) (fin : Bool) : Prop extends Kept w w' where
  heads : w'.heads = hs.set i ⟨tid, af, t, id, port, fin⟩
  lookuptable : w'.dtn.lookuptable =
    if fin then (w.dtn.searchDone id).lookuptable else w.dtn.lookuptable
  marks : w'.marks = w.marks ++ .searchStart (w.searchStart id port af) ::
    if fin then [.operationDone id] else []
  secrets : w'.secrets = w.secrets
  expireStuffTime : w'.expireStuffTime = w.expireStuffTime

/-- The oldest done search is one. -/
theorem oldestDone_spec {searches : List Search} {i : ℕ} (h : oldestDone searches = some i) :
    ∃ sr, searches[i]? = some sr ∧ sr.done = true := by
  unfold oldestDone at h
  refine List.foldlRecOn (motive := fun oldest => ∀ i, oldest = some i →
    ∃ sr, searches[i]? = some sr ∧ sr.done = true) _ _ (fun _ h => by simp at h) ?_ i h
  intro oldest ih j _ i hi
  split at hi
  · rename_i sr hj _
    split_ifs at hi with hdone
    · exact ⟨sr, (Option.some_inj.mp hi) ▸ hj, hdone⟩
    · exact ih i hi
  · rename_i sr _ hj _
    split_ifs at hi with hdone
    · exact ⟨sr, (Option.some_inj.mp hi) ▸ hj, hdone.1⟩
    · exact ih i hi
  · exact ih i hi

/-- `new_search` hands out the slot of a done search or a new one at the head of the list. -/
theorem newSearch_cases {now : ℤ} {calloc : Bool} {searches searches' : List Search}
    {numsearches numsearches' i : ℕ}
    (h : newSearch now calloc searches numsearches = (some i, searches', numsearches')) :
    (searches' = searches ∧ numsearches' = numsearches ∧
        ∃ sr, searches[i]? = some sr ∧ sr.done = true) ∨
      (i = 0 ∧ searches' = callocSearch :: searches ∧ numsearches' = numsearches + 1 ∧
        numsearches < dhtMaxSearches) := by
  unfold newSearch at h
  dsimp only at h
  split_ifs at h with hold hnum
  · obtain ⟨ho, rfl, rfl⟩ : oldestDone searches = some i ∧ searches = searches' ∧
        numsearches = numsearches' := by simpa using h
    exact Or.inl ⟨rfl, rfl, oldestDone_spec ho⟩
  · obtain ⟨rfl, rfl, rfl⟩ : 0 = i ∧ callocSearch :: searches = searches' ∧
        numsearches + 1 = numsearches' := by simpa using h
    exact Or.inr ⟨rfl, rfl, rfl, hnum.1⟩
  · obtain ⟨ho, rfl, rfl⟩ : oldestDone searches = some i ∧ searches = searches' ∧
        numsearches = numsearches' := by simpa using h
    exact Or.inl ⟨rfl, rfl, oldestDone_spec ho⟩

/-- The old search of an id and a family. -/
theorem findIdx_spec {id : Id} {af i : ℕ} (h : w.findIdx id af = some i) :
    ∃ sr, w.searches[i]? = some sr ∧ sr.id = id ∧ sr.af = af := by
  obtain ⟨hlt, hp, -⟩ := List.findIdx?_eq_some_iff_getElem.mp h
  rw [Bool.and_eq_true, beq_iff_eq, decide_eq_true_iff, idCmp_eq_eq] at hp
  exact ⟨w.searches[i], List.getElem?_eq_getElem hlt, hp.2, hp.1⟩

theorem findIdx_eq_none {id : Id} {af : ℕ} (h : w.findIdx id af = none) :
    ∀ hd ∈ w.heads, ¬ (hd.id = id ∧ hd.af = af) := by
  rw [World.heads, List.forall_mem_map]
  rintro sr hin ⟨hid, haf⟩
  have hnot := List.findIdx?_eq_none_iff.mp h sr hin
  rw [Bool.and_eq_false_iff, decide_eq_false_iff_not, idCmp_eq_eq, beq_eq_false_iff_ne] at hnot
  exact hnot.elim (fun h => h haf) fun h => h hid

/-- What `dht_search` finds or makes: a search that is not done, in slot `i`. -/
theorem searchSlot_cases (w : World) (id : Id) (af : ℕ) :
    ((w.findIdx id af = none ∧
        (newSearch w.now (w.env.calloc 0) w.searches w.numsearches).1 = none) ∧
      (w.searchSlot id af).1 = none ∧ Calm w (w.searchSlot id af).2) ∨
      ∃ i hs tid numsearches searchId sr w', w.searchSlot id af = (some i, w') ∧
        TakesSlot w id af i hs tid numsearches searchId ∧
        w'.searches[i]? = some sr ∧ sr.head = ⟨tid, af, sr.stepTime, id, sr.port, false⟩ ∧
        (∀ h, w'.heads.set i h = hs.set i h) ∧ Kept w w' ∧
        w'.dtn = w.dtn ∧ w'.outputs = w.outputs ∧ w'.secrets = w.secrets ∧
        w'.expireStuffTime = w.expireStuffTime ∧ w'.routing = w.routing ∧ w'.myid = w.myid ∧
        w'.numsearches = numsearches ∧ w'.searchId = searchId := by
  unfold searchSlot
  cases hidx : w.findIdx id af with
  | some i =>
    obtain ⟨sr, hi, rfl, rfl⟩ := findIdx_spec hidx
    refine Or.inr ⟨i, w.heads, sr.tid, w.numsearches, w.searchId, sr.restart w.now, _, rfl,
      .old hidx hi, ?_, rfl, fun h => ?_, ⟨rfl, rfl, rfl, rfl, rfl, rfl⟩, rfl, rfl, rfl, rfl, rfl,
      rfl, rfl, rfl⟩
    · rw [List.getElem?_modify_eq, hi]
      rfl
    · exact List.set_map_modify _ _ _ i h
  | none =>
    dsimp only
    cases hnew : newSearch w.now (w.env.calloc 0) w.searches w.numsearches with
    | mk slot out =>
      obtain ⟨searches, numsearches⟩ := out
      cases slot with
      | none =>
        exact Or.inl ⟨⟨rfl, rfl⟩, rfl,
          ⟨⟨rfl, rfl, rfl, rfl, rfl, rfl, rfl, rfl, rfl, rfl, rfl⟩, rfl, rfl⟩⟩
      | some i =>
        obtain ⟨sr, hi⟩ : ∃ sr, searches[i]? = some sr := by
          rcases newSearch_cases hnew with ⟨rfl, -, sr, hi, -⟩ | ⟨rfl, rfl, -⟩
          · exact ⟨sr, hi⟩
          · exact ⟨callocSearch, rfl⟩
        refine Or.inr ⟨i, searches.map Search.head, w.searchId, numsearches, w.searchId + 1,
          sr.start af w.searchId id, _, rfl, .new hidx hnew, ?_, rfl, fun h => ?_,
          ⟨rfl, rfl, rfl, rfl, rfl, rfl⟩, rfl, rfl, rfl, rfl, rfl, rfl, rfl, rfl⟩
        · rw [List.getElem?_modify_eq, hi]
          rfl
        · exact List.set_map_modify _ _ _ i h

theorem replies_emit_searchStart (w : World) (start : SearchStart) :
    (w.emit [.searchStart start]).replies = w.replies := by
  unfold emit replies
  rw [List.filterMap_append]
  exact List.append_nil _

theorem marks_emit_searchStart (w : World) (start : SearchStart) :
    (w.emit [.searchStart start]).marks = w.marks ++ [.searchStart start] := by
  unfold emit marks
  rw [List.filter_append]
  rfl

/-- What `dht_search` does when it fails, and when it does not. -/
theorem dhtSearch_cases (w : World) (id : Id) (port : UInt16) (af : ℕ) :
    (w.canSearch id af = false ∧ (w.dhtSearch id port af).1 = -1 ∧
        Calm w (w.dhtSearch id port af).2) ∨
      ∃ i hs tid numsearches searchId t fin, w.canSearch id af = true ∧
        (w.dhtSearch id port af).1 = 1 ∧
        TakesSlot w id af i hs tid numsearches searchId ∧
        Started w (w.dhtSearch id port af).2 id port af i hs tid t fin ∧
        (w.dhtSearch id port af).2.numsearches = numsearches ∧
        (w.dhtSearch id port af).2.searchId = searchId := by
  unfold dhtSearch canSearch
  cases w.routing.findBucket id af with
  | none => exact Or.inl ⟨rfl, rfl, Calm.refl w⟩
  | some b =>
    dsimp only [Option.isSome_some]
    rw [Bool.true_and]
    rcases searchSlot_cases w id af with ⟨⟨hidx, hnew⟩, hnone, hcalm⟩ | h
    · rw [hidx, hnew]
      generalize w.searchSlot id af = out at hnone hcalm
      obtain ⟨slot, w'⟩ := out
      obtain rfl : slot = none := hnone
      exact Or.inl ⟨rfl, rfl, hcalm⟩
    · obtain ⟨i, hs, tid, numsearches, searchId, sr, w', heq, hslot, hi, hhead, hset, hk, hdtn,
        hout, hsec, hexp, hr, hid, hnum, hsid⟩ := h
      rw [heq]
      dsimp only
      set sr1 := { sr with port := port }.insertClosest w'.now w'.routing w'.myid b with hsr1
      set w1 : World := { w' with
        searches := w'.searches.modify i fun sr =>
          { sr with port := port }.insertClosest w'.now w'.routing w'.myid b } with hw1
      have hhead1 : sr1.head = ⟨tid, af, sr.stepTime, id, port, false⟩ := by
        rw [hsr1, Search.head_insertClosest]
        simp only [Search.head, SearchHead.mk.injEq] at hhead ⊢
        exact ⟨hhead.1, hhead.2.1, trivial, hhead.2.2.2.1, trivial, hhead.2.2.2.2.2⟩
      have hi1 : (w1.emit [.searchStart (w.searchStart id port af)]).searches[i]? = some sr1 := by
        rw [emit, hw1, List.getElem?_modify_eq, hi]
        rfl
      obtain ⟨t, fin, hstep⟩ := searchStep_spec hi1
      have hid1 : sr1.id = id := congrArg SearchHead.id hhead1
      have hcan : ((w.findIdx id af).isSome ||
          (newSearch w.now (w.env.calloc 0) w.searches w.numsearches).1.isSome) = true := by
        cases hslot with
        | old hidx _ => rw [hidx, Option.isSome_some, Bool.true_or]
        | new _ hnew => rw [hnew, Option.isSome_some, Bool.or_true]
      refine Or.inr ⟨i, hs, tid, numsearches, searchId, t, fin, hcan, rfl, hslot,
        ⟨?_, ?_, ?_, ?_, ?_, ?_⟩,
        hstep.numsearches.trans hnum, hstep.searchId.trans hsid⟩
      · have hemit : Kept w' (w1.emit [.searchStart (w.searchStart id port af)]) :=
          ⟨rfl, rfl, rfl, rfl, rfl, replies_emit_searchStart w1 _⟩
        exact (hk.trans (hemit.trans hstep.toKept)).trans ⟨rfl, rfl, rfl, rfl, rfl, rfl⟩
      · have hdone1 : sr1.done = false := congrArg SearchHead.done hhead1
        refine hstep.heads.trans ?_
        rw [hhead1, hdone1, ← hset]
        exact List.set_map_modify _ _ _ i _
      · have hl : (w1.emit [.searchStart (w.searchStart id port af)]).dtn = w.dtn := hdtn
        have hlookup := hstep.lookuptable
        rw [hl, hid1] at hlookup
        exact hlookup
      · refine hstep.marks.trans ?_
        rw [marks_emit_searchStart, hid1, List.append_assoc]
        have hm : w1.marks = w.marks := congrArg (List.filter _) hout
        rw [hm]
        rfl
      · exact hstep.secrets.trans hsec
      · exact hstep.expireStuffTime.trans hexp

/-- The search that is started replaces that of the id and family or one that is done, or it is
added. -/
theorem Started.replaces {w' : World} {id : Id} {port : UInt16} {af i numsearches : ℕ}
    {hs : List SearchHead} {tid searchId : UInt16} {t : ℤ} {fin : Bool}
    (h : Started w w' id port af i hs tid t fin)
    (hslot : TakesSlot w id af i hs tid numsearches searchId) :
    ∃ pre old post, w.heads = pre ++ old ++ post ∧
      w'.heads = pre ++ ⟨tid, af, t, id, port, fin⟩ :: post ∧
      ((∃ hd, old = [hd] ∧ hd.id = id ∧ hd.af = af) ∨
        (∀ hd ∈ old, hd.done = true) ∧ ∀ hd ∈ w.heads, ¬ (hd.id = id ∧ hd.af = af)) := by
  have hset {sr : Search} (hi : w.searches[i]? = some sr) :
      w.heads = w.heads.take i ++ [sr.head] ++ w.heads.drop (i + 1) ∧
        w.heads.set i ⟨tid, af, t, id, port, fin⟩ =
          w.heads.take i ++ ⟨tid, af, t, id, port, fin⟩ :: w.heads.drop (i + 1) := by
    have hi' : w.heads[i]? = some sr.head := by rw [World.heads, List.getElem?_map, hi]; rfl
    obtain ⟨hlt, heq⟩ := List.getElem?_eq_some_iff.mp hi'
    refine ⟨?_, by rw [List.set_eq_take_append_cons_drop, if_pos hlt]⟩
    rw [List.append_assoc, List.singleton_append, ← heq, List.getElem_cons_drop hlt,
      List.take_append_drop]
  rw [h.heads]
  cases hslot with
  | old hidx hi =>
    obtain ⟨sr', hi', hid, haf⟩ := findIdx_spec hidx
    obtain rfl : _ = sr' := Option.some_inj.mp (hi.symm.trans hi')
    obtain ⟨hsplit, hset⟩ := hset hi
    exact ⟨_, _, _, hsplit, hset, Or.inl ⟨_, rfl, hid, haf⟩⟩
  | new hidx hnew =>
    have hnone := findIdx_eq_none hidx
    rcases newSearch_cases hnew with ⟨rfl, -, sr, hi, hdone⟩ | ⟨rfl, rfl, -⟩
    · obtain ⟨hsplit, hset⟩ := hset hi
      refine ⟨_, _, _, hsplit, hset, Or.inr ⟨fun hd hin => ?_, hnone⟩⟩
      obtain rfl := List.mem_singleton.mp hin
      exact hdone
    · exact ⟨[], [], w.heads, rfl, rfl, Or.inr ⟨by simp, hnone⟩⟩

theorem kept_dhtSearch (w : World) (id : Id) (port : UInt16) (af : ℕ) :
    Kept w (w.dhtSearch id port af).2 := by
  rcases dhtSearch_cases w id port af with ⟨-, -, h⟩ | ⟨_, _, _, _, _, _, _, _, -, -, h, -⟩
  · exact h.quiet.toKept
  · exact h.toKept

end World

end DtnDht
