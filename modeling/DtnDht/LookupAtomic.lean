import DtnDht.Api
import DtnDht.SearchStep
import DtnDht.RoutingRun

/-!
# When a lookup fails

`dtn_dht_lookup` adds the entry of its EID to the table, or arms the one that is there again,
before it tries to search, and undoes nothing when a search cannot be started. So a lookup that
returns an error leaves the table changed; only if the IPv4 search is over at once, before the
IPv6 search fails, may its callback bring the table back to what it was (`Unnoticed`).
-/

namespace DtnDht

open CString

/-! ## Writes to the table -/

section Table

variable {key : Id} {table : List DhtEntry} {entry : DhtEntry} {f g : DhtEntry → DhtEntry}

theorem getFromList_modifyEntry (hf : ∀ entry, (f entry).md = entry.md) :
    getFromList key (modifyEntry key f table) = (getFromList key table).map f := by
  unfold getFromList
  induction table with
  | nil => rfl
  | cons first table ih =>
    unfold modifyEntry
    by_cases h : first.isFor key = true
    · have h' : (f first).isFor key = true := by
        rw [isFor_iff, hf, ← isFor_iff]
        exact h
      rw [if_pos h, List.find?_cons_of_pos h', List.find?_cons_of_pos h]
      rfl
    · rw [if_neg h, List.find?_cons_of_neg h, List.find?_cons_of_neg h, ih]

theorem modifyEntry_modifyEntry (hf : ∀ entry, (f entry).md = entry.md) :
    modifyEntry key g (modifyEntry key f table) = modifyEntry key (g ∘ f) table := by
  induction table with
  | nil => rfl
  | cons first table ih =>
    rw [modifyEntry, modifyEntry]
    by_cases h : first.isFor key = true
    · have h' : (f first).isFor key = true := by
        rw [isFor_iff, hf, ← isFor_iff]
        exact h
      rw [if_pos h, if_pos h, modifyEntry, if_pos h']
      rfl
    · rw [if_neg h, if_neg h, modifyEntry, if_neg h, ih]

/-- A write changes nothing when it does not change the entry of the key. -/
theorem modifyEntry_eq_self_iff (hf : ∀ entry, (f entry).md = entry.md)
    (h : getFromList key table = some entry) :
    modifyEntry key f table = table ↔ f entry = entry := by
  constructor
  · intro he
    have hget : getFromList key (modifyEntry key f table) = (getFromList key table).map f :=
      getFromList_modifyEntry hf
    rw [he, h] at hget
    exact (Option.some_inj.mp hget).symm
  · intro he
    unfold getFromList at h
    induction table with
    | nil => rfl
    | cons first table ih =>
      unfold modifyEntry
      by_cases hk : first.isFor key = true
      · rw [List.find?_cons_of_pos hk] at h
        obtain rfl := Option.some_inj.mp h
        rw [if_pos hk, he]
      · rw [List.find?_cons_of_neg hk] at h
        rw [if_neg hk, ih h]

/-- What `dtn_dht_lookup` writes to an entry whose lookup is done. -/
def DhtEntry.arm (now : ℤ) (entry : DhtEntry) : DhtEntry :=
  { entry with updatetime := now, status := .searching }

theorem md_arm (now : ℤ) (entry : DhtEntry) : (entry.arm now).md = entry.md := rfl

theorem modifyEntry_arm_ne (now : ℤ) (h : getFromList key table = some entry)
    (hst : entry.status ≠ .searching) : modifyEntry key (DhtEntry.arm now) table ≠ table := by
  rw [Ne, modifyEntry_eq_self_iff (md_arm now) h]
  exact fun he => hst (congrArg DhtEntry.status he).symm

/-- An entry that is armed and finished is as before only if it was done at that time. -/
theorem modifyEntry_finish_arm_iff (now : ℤ) (h : getFromList key table = some entry) :
    modifyEntry key (fun entry => { entry with status := entry.status.finish })
        (modifyEntry key (DhtEntry.arm now) table) = table ↔
      entry.status = .done ∧ entry.updatetime = now := by
  rw [modifyEntry_modifyEntry (md_arm now)]
  have hmd : ∀ entry : DhtEntry, (((fun entry : DhtEntry =>
      { entry with status := entry.status.finish }) ∘ DhtEntry.arm now) entry).md = entry.md :=
    fun _ => rfl
  rw [modifyEntry_eq_self_iff hmd h]
  obtain ⟨md, announce, status, updatetime⟩ := entry
  simp only [Function.comp_apply, DhtEntry.arm, LookupStatus.finish, DhtEntry.mk.injEq, true_and]
  constructor
  · rintro ⟨h1, h2⟩
    exact ⟨h1.symm, h2.symm⟩
  · rintro ⟨h1, h2⟩
    exact ⟨h1.symm, h2.symm⟩

theorem length_modifyEntry : (modifyEntry key f table).length = table.length := by
  induction table with
  | nil => rfl
  | cons first table ih =>
    unfold modifyEntry
    split_ifs
    · rfl
    · rw [List.length_cons, List.length_cons, ih]

end Table

/-! ## Slots for new searches -/

theorem isSome_oldestDone (searches : List Search) :
    (oldestDone searches).isSome = searches.any (·.done) := by
  rw [Bool.eq_iff_iff, List.any_eq_true]
  constructor
  · intro h
    obtain ⟨i, hi⟩ := Option.isSome_iff_exists.mp h
    obtain ⟨sr, hsr, hdone⟩ := World.oldestDone_spec hi
    exact ⟨sr, List.mem_of_getElem? hsr, hdone⟩
  · rintro ⟨sr, hin, hdone⟩
    obtain ⟨j, hj, rfl⟩ := List.getElem_of_mem hin
    unfold oldestDone
    -- a done search once found is only given up for an older one
    generalize ho : (none : Option ℕ) = o
    have hor : o.isSome = true ∨ j ∈ List.range searches.length := Or.inr (List.mem_range.mpr hj)
    clear ho
    generalize List.range searches.length = is at hor
    induction is generalizing o with
    | nil => exact hor.resolve_right List.not_mem_nil
    | cons i is ih =>
      rw [List.foldl_cons]
      apply ih
      rw [List.mem_cons] at hor
      rcases hor with hsome | rfl | hmem
      · left
        split
        · split_ifs
          · rfl
          · exact hsome
        · split_ifs
          · rfl
          · exact hsome
        · exact hsome
      · left
        rw [List.getElem?_eq_getElem hj]
        cases hb : o.bind (searches[·]?) with
        | none =>
          dsimp only
          rw [if_pos hdone]
          rfl
        | some old =>
          dsimp only
          split_ifs
          · rfl
          · obtain ⟨i, rfl, -⟩ := Option.bind_eq_some_iff.mp hb
            rfl
      · exact Or.inr hmem

/-- Whether `new_search` finds a slot. -/
theorem isSome_newSearch (now : ℤ) (calloc : Bool) (searches : List Search) (numsearches : ℕ) :
    (newSearch now calloc searches numsearches).1.isSome =
      (searches.any (·.done) || (numsearches < dhtMaxSearches && calloc)) := by
  rw [← isSome_oldestDone]
  unfold newSearch
  dsimp only
  cases ho : oldestDone searches with
  | none =>
    cases calloc <;> by_cases h : numsearches < dhtMaxSearches <;> simp [h]
  | some i =>
    rw [Option.isSome_some, Bool.true_or]
    split_ifs <;> rfl

/-! ## One search -/

namespace World

variable {w : World} {id : Id} {af : ℕ}

/-- A `dht_search` that finds no bucket or slot changes no search and no table. -/
theorem dhtSearch_of_cannot (h : w.canSearch id af = false) (port : UInt16) :
    (w.dhtSearch id port af).1 = -1 ∧ (w.dhtSearch id port af).2.searches = w.searches ∧
      (w.dhtSearch id port af).2.dtn = w.dtn := by
  unfold canSearch at h
  unfold dhtSearch
  cases hb : w.routing.findBucket id af with
  | none => exact ⟨rfl, rfl, rfl⟩
  | some b =>
    rw [hb, Option.isSome_some, Bool.true_and, Bool.or_eq_false_iff] at h
    obtain ⟨hidx, hnew⟩ := h
    rw [Option.isSome_eq_false_iff, Option.isNone_iff_eq_none] at hidx hnew
    dsimp only
    unfold searchSlot
    rw [hidx]
    dsimp only
    generalize hout : newSearch w.now (w.env.calloc 0) w.searches w.numsearches = out at hnew
    obtain ⟨slot, searches, numsearches⟩ := out
    obtain rfl : slot = none := hnew
    exact ⟨rfl, rfl, rfl⟩

/-- The search that `dht_search` steps, with its candidates from the routing table. -/
def filledSearch (w : World) (id : Id) (af : ℕ) : Option Search :=
  (w.routing.findBucket id af).bind fun b =>
    (w.searchSlot id af).1.bind fun i => ((w.searchSlot id af).2.searches[i]?).map fun sr =>
      { sr with port := 0 }.insertClosest w.now w.routing w.myid b

/-- A pure search is over at once when the live ones of its nodes have replied. -/
def endsAtOnce (w : World) (id : Id) (af : ℕ) : Bool := (w.filledSearch id af).any (·.allDone)

end World

/-- A pure search ends in a step when its nodes have replied. -/
theorem Search.fin_step (net : Net) (now : ℤ) (r : Routing) {sr : Search} (h : sr.port = 0) :
    (sr.step net now r).2.2.2 = sr.allDone := by
  unfold step
  rw [if_pos h]
  cases hall : sr.allDone with
  | true => rfl
  | false =>
    rw [if_neg Bool.false_ne_true]
    split_ifs <;> rfl

theorem Search.step_of_allDone {net : Net} {now : ℤ} {r : Routing} {sr : Search}
    (h : sr.port = 0) (hall : sr.allDone = true) :
    (sr.step net now r).1 = { sr with done := true, stepTime := now } := by
  unfold step
  rw [if_pos hall, if_pos h]

theorem Search.sameShape_step (net : Net) (now : ℤ) (r : Routing) {sr : Search}
    (h : sr.port = 0) : Routing.SameShape r (sr.step net now r).2.1 := by
  have hsend (r : Routing) (sr : Search) (j : ℕ) :
      Routing.SameShape r (sr.sendGetPeers net now r j).2.1 := by
    unfold sendGetPeers
    cases sr.nodes[j]? with
    | none => exact Routing.SameShape.refl r
    | some n =>
      dsimp only
      by_cases hn : toAsk now n = true
      · rw [if_pos hn]
        exact Routing.sameShape_markPinged net now r n.id n.ss.family
      · rw [if_neg hn]
        exact Routing.SameShape.refl r
  have hask (js : List ℕ) (r : Routing) (sr : Search) (asked : ℕ) :
      Routing.SameShape r (askNodes net now r sr asked js).2.1 := by
    induction js generalizing r sr asked with
    | nil => exact Routing.SameShape.refl r
    | cons j js ih =>
      unfold askNodes
      dsimp only
      split_ifs
      · exact hsend r sr j
      · exact (hsend r sr j).trans (ih _ _ _)
  unfold step
  rw [if_pos h]
  split_ifs
  · exact Routing.SameShape.refl r
  · exact Routing.SameShape.refl r
  · exact hask _ r sr 0

namespace World

variable {w : World} {id : Id} {af : ℕ}

/-- What a step of a pure search writes. -/
theorem searchStep_of_port_zero {i : ℕ} {sr : Search} (hi : w.searches[i]? = some sr)
    (hport : sr.port = 0) : ∃ sr' outputs, Routing.SameShape w.routing (w.searchStep i).routing ∧
      sr' = (sr.step w.net w.now w.routing).1 ∧
      w.searchStep i = { w with
        searches := w.searches.set i sr'
        routing := (w.searchStep i).routing
        outputs := outputs
        dtn := if sr.allDone then w.dtn.searchDone sr.id else w.dtn } := by
  have hfin := Search.fin_step w.net w.now w.routing hport
  have hshape := Search.sameShape_step w.net w.now w.routing hport
  obtain ⟨t, -, hhead⟩ := sr.head_step w.net w.now w.routing
  unfold searchStep
  rw [hi]
  dsimp only
  generalize sr.step w.net w.now w.routing = out at hfin hshape hhead
  obtain ⟨sr', r, pkts, fin⟩ := out
  have hid : sr'.id = sr.id := congrArg SearchHead.id hhead
  dsimp only at hfin hshape
  subst hfin
  cases sr.allDone with
  | true => exact ⟨sr', _, hshape, rfl, by rw [if_pos rfl, if_pos rfl, hid]; rfl⟩
  | false =>
    exact ⟨sr', _, hshape, rfl, by
      rw [if_neg Bool.false_ne_true, if_neg Bool.false_ne_true]; rfl⟩

/-- A pure search has been started in slot `i` of the searches of `w1`: it was `f` with its
candidates, and is `f'` after a step. -/
structure Filled (w w' w1 : World) (id : Id) (af i : ℕ) (f f' : Search) : Prop where
  slot : w.searchSlot id af = (some i, w1)
  lt : i < w1.searches.length
  filled : w.filledSearch id af = some f
  searches : w'.searches = w1.searches.set i f'
  head : ∃ tid t, f'.head = ⟨tid, af, t, id, 0, f.allDone⟩
  ended : f.allDone = true → f' = { f with done := true, stepTime := w.now }
  dtn : w'.dtn = if f.allDone then w.dtn.searchDone id else w.dtn
  numsearches : w'.numsearches = w1.numsearches
  calloc : w'.env.calloc = w1.env.calloc
  now : w'.now = w.now
  shape : Routing.SameShape w.routing w'.routing

theorem dhtSearch_of_can (h : w.canSearch id af = true) : (w.dhtSearch id 0 af).1 = 1 ∧
    ∃ w1 i f f', Filled w (w.dhtSearch id 0 af).2 w1 id af i f f' := by
  unfold canSearch at h
  rw [Bool.and_eq_true] at h
  obtain ⟨hbucket, hcan⟩ := h
  obtain ⟨b, hb⟩ := Option.isSome_iff_exists.mp hbucket
  rcases searchSlot_cases w id af with ⟨⟨hidx, hnew⟩, -⟩ | hslot
  · rw [hidx, hnew] at hcan
    exact absurd hcan Bool.false_ne_true
  · obtain ⟨i, hs, tid, numsearches, searchId, sr, w1, heq, -, hi, hhead, -, hk, hdtn, -, -, -, hr,
      hid, -, -⟩ := hslot
    obtain ⟨f, hf⟩ : ∃ f, f = { sr with port := 0 }.insertClosest w1.now w1.routing w1.myid b :=
      ⟨_, rfl⟩
    obtain ⟨w3, hw3⟩ : ∃ w3, w3 = { w1 with
        searches := w1.searches.modify i fun sr =>
          { sr with port := 0 }.insertClosest w1.now w1.routing w1.myid b
        outputs := w1.outputs ++ [Output.searchStart (w.searchStart id 0 af)] } := ⟨_, rfl⟩
    have hcall : w.dhtSearch id 0 af =
        (1, { w3.searchStep i with searchTime := (w3.searchStep i).now }) := by
      unfold dhtSearch
      rw [hb]
      dsimp only
      rw [heq, hw3]
      rfl
    have hfhead : f.head = ⟨tid, af, sr.stepTime, id, 0, false⟩ := by
      rw [hf, Search.head_insertClosest]
      simp only [Search.head, SearchHead.mk.injEq] at hhead ⊢
      exact ⟨hhead.1, hhead.2.1, trivial, hhead.2.2.2.1, trivial, hhead.2.2.2.2.2⟩
    have hfilled : w.filledSearch id af = some f := by
      unfold filledSearch
      rw [hb, heq, Option.bind_some, Option.bind_some, hi, Option.map_some, hf, hk.now, hr, hid]
    have hi3 : w3.searches[i]? = some f := by
      rw [hw3, List.getElem?_modify_eq, hi, hf]
      rfl
    have hset (sr' : Search) : w3.searches.set i sr' = w1.searches.set i sr' := by
      rw [hw3]
      exact List.set_modify _ _ i sr'
    have hport : f.port = 0 := congrArg SearchHead.port hfhead
    have hfid : f.id = id := congrArg SearchHead.id hfhead
    have hdone : f.done = false := congrArg SearchHead.done hfhead
    obtain ⟨f', outputs, hshape, hf', hstep⟩ := searchStep_of_port_zero hi3 hport
    obtain ⟨t, -, hhead'⟩ := f.head_step w3.net w3.now w3.routing
    rw [← hf', hfhead, Search.fin_step _ _ _ hport, hdone, Bool.false_or] at hhead'
    have hw3n : w3.now = w.now := by rw [hw3]; exact hk.now
    have hw3d : w3.dtn = w.dtn := by rw [hw3]; exact hdtn
    have hw3r : w3.routing = w.routing := by rw [hw3]; exact hr
    have hw3m : w3.numsearches = w1.numsearches := by rw [hw3]
    have hw3e : w3.env = w1.env := by rw [hw3]
    have hended (hall : f.allDone = true) : f' = { f with done := true, stepTime := w.now } := by
      rw [hf', Search.step_of_allDone hport hall, hw3n]
    rw [hw3r] at hshape
    generalize (w3.searchStep i).routing = r at hshape hstep
    rw [hset, hfid, hw3d] at hstep
    rw [hcall, hstep]
    exact ⟨rfl, w1, i, f, f', heq, (List.getElem?_eq_some_iff.mp hi).1, hfilled, rfl,
      ⟨tid, t, hhead'⟩, hended, rfl, hw3m, congrArg Env.calloc hw3e, hw3n, hshape⟩

/-! ## Two searches -/

theorem any_set {α : Type*} {l : List α} {i : ℕ} (hi : i < l.length) (a : α) (p : α → Bool) :
    (l.set i a).any p = (p a || (l.eraseIdx i).any p) := by
  rw [(List.set_perm_cons_eraseIdx hi a).any_eq, List.any_cons]

/-- Does the IPv6 search of `dtn_dht_search` find a bucket and a slot, after the IPv4 search? -/
def canSearchAfter (w : World) (id : Id) : Bool :=
  match w.searchSlot id afInet with
  | (none, _) => true
  | (some i, w1) =>
    (w.routing.findBucket id afInet6).isSome &&
      ((w1.searches.eraseIdx i).any (fun sr => sr.af == afInet6 && idCmp sr.id id = .eq) ||
        (w.endsAtOnce id afInet || (w1.searches.eraseIdx i).any (·.done) ||
          (w1.numsearches < dhtMaxSearches && w1.env.calloc 0)))

theorem Filled.canSearch_eq {w' w1 : World} {i : ℕ} {f f' : Search}
    (h : Filled w w' w1 id afInet i f f') : w'.canSearch id afInet6 = w.canSearchAfter id := by
  obtain ⟨tid, t, hhead⟩ := h.head
  have haf : f'.af = afInet := congrArg SearchHead.af hhead
  have hdone : f'.done = f.allDone := congrArg SearchHead.done hhead
  have hends : w.endsAtOnce id afInet = f.allDone := by
    unfold endsAtOnce
    rw [h.filled]
    rfl
  have hold : (f'.af == afInet6 && idCmp f'.id id = .eq) = false := by
    rw [haf]
    rfl
  unfold canSearch canSearchAfter findIdx
  rw [h.slot, ← h.shape.findBucket, List.findIdx?_isSome, isSome_newSearch, h.searches,
    any_set h.lt, any_set h.lt, hold, hdone, hends, h.numsearches, h.calloc, Bool.false_or]

/-- Do the searches of `dtn_dht_search` find buckets and slots? -/
def canSearchAll (ctx : Context) (w : World) (id : Id) : Bool :=
  match ctx.type with
  | .bindnone => true
  | .ipv4only => w.canSearch id afInet
  | .ipv6only => w.canSearch id afInet6
  | .bindboth => w.canSearch id afInet && w.canSearchAfter id

/-- `dtn_dht_search` fails if and only if one of its searches does. -/
theorem dtnDhtSearch_neg_iff (ctx : Context) :
    (w.dtnDhtSearch ctx id 0).1 < 0 ↔ w.canSearchAll ctx id = false := by
  have hone (w : World) (af : ℕ) : (w.dhtSearch id 0 af).1 < 0 ↔ w.canSearch id af = false := by
    cases hcan : w.canSearch id af with
    | true => simp [(dhtSearch_of_can hcan).1]
    | false => simp [(dhtSearch_of_cannot hcan 0).1]
  unfold dtnDhtSearch canSearchAll
  cases ctx.type with
  | bindnone => simp
  | ipv4only => exact hone w afInet
  | ipv6only => exact hone w afInet6
  | bindboth =>
    dsimp only
    cases hcan : w.canSearch id afInet with
    | false =>
      rw [if_pos ((hone w afInet).mpr hcan), Bool.false_and]
      exact iff_of_true ((hone w afInet).mpr hcan) rfl
    | true =>
      obtain ⟨hrc, w1, i, f, f', hfilled⟩ := dhtSearch_of_can hcan
      rw [if_neg (by rw [hrc]; decide), hone, hfilled.canSearch_eq, Bool.true_and]

theorem Filled.eq_slot {w' w1 : World} {i j : ℕ} {f f' : Search}
    (h : Filled w w' w1 id af i f f') (hj : w.findIdx id af = some j) : j = i := by
  have hslot := h.slot
  unfold searchSlot at hslot
  rw [hj] at hslot
  exact Option.some_inj.mp (congrArg Prod.fst hslot)

/-- The searches when the IPv4 search has been started are those before only if it is an old one
that is left as it was. -/
theorem Filled.searches_eq_iff {w' w1 : World} {i : ℕ} {f f' : Search}
    (h : Filled w w' w1 id af i f f') :
    w'.searches = w.searches ↔ w.findIdx id af = some i ∧ w.searches[i]? = some f' := by
  obtain ⟨tid, t, hhead⟩ := h.head
  have hkey : f'.af = af ∧ f'.id = id :=
    ⟨congrArg SearchHead.af hhead, congrArg SearchHead.id hhead⟩
  have hset {l : List Search} (hi : i < l.length) : l.set i f' = l ↔ l[i]? = some f' := by
    constructor
    · intro he
      rw [← he, List.getElem?_set_self hi]
    · intro he
      obtain ⟨_, rfl⟩ := List.getElem?_eq_some_iff.mp he
      exact List.set_getElem_self _
  have hslot := h.slot
  have hlt := h.lt
  rw [h.searches]
  unfold searchSlot at hslot
  cases hidx : w.findIdx id af with
  | some j =>
    rw [hidx] at hslot
    obtain ⟨rfl, rfl⟩ : j = i ∧ _ = w1 := by simpa using hslot
    rw [List.length_modify] at hlt
    rw [List.set_modify, hset hlt]
    exact ⟨fun he => ⟨rfl, he⟩, fun he => he.2⟩
  | none =>
    have hnone := findIdx_eq_none hidx
    rw [hidx] at hslot
    dsimp only at hslot
    cases hnew : newSearch w.now (w.env.calloc 0) w.searches w.numsearches with
    | mk slot out =>
      obtain ⟨searches, numsearches⟩ := out
      rw [hnew] at hslot
      cases slot with
      | none => exact absurd hslot (by simp)
      | some j =>
        obtain ⟨rfl, rfl⟩ : j = i ∧ _ = w1 := by simpa using hslot
        rw [List.length_modify] at hlt
        rw [List.set_modify]
        refine iff_of_false (fun he => ?_) (fun he => absurd he.1 (by simp))
        rcases newSearch_cases hnew with ⟨rfl, -, -⟩ | ⟨rfl, rfl, -⟩
        · -- the slot of a done search of another id or family
          have hf : f' ∈ w.searches := List.mem_of_getElem? ((hset hlt).mp he)
          exact hnone f'.head (List.mem_map_of_mem hf) ⟨hkey.2, hkey.1⟩
        · have hlen := congrArg List.length he
          rw [List.length_set, List.length_cons] at hlen
          omega

/-- What `dtn_dht_search` leaves when it fails. -/
theorem dtnDhtSearch_of_cannot {ctx : Context} (h : w.canSearchAll ctx id = false) :
    ((w.dtnDhtSearch ctx id 0).2.searches = w.searches ∧
        (w.dtnDhtSearch ctx id 0).2.dtn = w.dtn ∧
        (ctx.type = .bindboth → w.canSearch id afInet = false)) ∨
      ctx.type = .bindboth ∧ w.canSearch id afInet = true ∧ ∃ w' w1 i f f',
        Filled w w' w1 id afInet i f f' ∧
        (w.dtnDhtSearch ctx id 0).2.searches = w'.searches ∧
        (w.dtnDhtSearch ctx id 0).2.dtn = w'.dtn := by
  unfold canSearchAll at h
  unfold dtnDhtSearch
  cases htype : ctx.type with
  | bindnone =>
    rw [htype] at h
    exact absurd h (by simp)
  | ipv4only =>
    rw [htype] at h
    obtain ⟨-, hs, hd⟩ := dhtSearch_of_cannot h 0
    exact Or.inl ⟨hs, hd, fun he => absurd he (by simp)⟩
  | ipv6only =>
    rw [htype] at h
    obtain ⟨-, hs, hd⟩ := dhtSearch_of_cannot h 0
    exact Or.inl ⟨hs, hd, fun he => absurd he (by simp)⟩
  | bindboth =>
    rw [htype] at h
    dsimp only at h ⊢
    cases hcan : w.canSearch id afInet with
    | false =>
      obtain ⟨hrc, hs, hd⟩ := dhtSearch_of_cannot hcan 0
      rw [if_pos (by rw [hrc]; decide)]
      exact Or.inl ⟨hs, hd, fun _ => rfl⟩
    | true =>
      rw [hcan, Bool.true_and] at h
      obtain ⟨hrc, w1, i, f, f', hfilled⟩ := dhtSearch_of_can hcan
      rw [if_neg (by rw [hrc]; decide)]
      rw [← hfilled.canSearch_eq] at h
      obtain ⟨-, hs, hd⟩ := dhtSearch_of_cannot h 0
      exact Or.inr ⟨rfl, rfl, _, w1, i, f, f', hfilled, hs, hd⟩

/-! ## A lookup -/

/-- `w0` differs from `w` in nothing a search reads. -/
def SearchesAlike (w w0 : World) : Prop :=
  ∃ dtn clock outputs, w0 = { w with
    dtn := dtn
    env := { w.env with clock := clock }
    outputs := outputs }

theorem searchSlot_alike {w0 : World} (h : SearchesAlike w w0) (id : Id) (af : ℕ) :
    (w0.searchSlot id af).1 = (w.searchSlot id af).1 ∧
      SearchesAlike (w.searchSlot id af).2 (w0.searchSlot id af).2 := by
  obtain ⟨dtn, clock, outputs, rfl⟩ := h
  have hidx : World.findIdx { w with
      dtn := dtn, env := { w.env with clock := clock }, outputs := outputs } id af =
      w.findIdx id af := rfl
  unfold searchSlot
  rw [hidx]
  cases w.findIdx id af with
  | some i => exact ⟨rfl, dtn, clock, outputs, rfl⟩
  | none =>
    dsimp only
    cases newSearch w.now (w.env.calloc 0) w.searches w.numsearches with
    | mk slot out =>
      cases slot with
      | none => exact ⟨rfl, dtn, clock, outputs, rfl⟩
      | some i => exact ⟨rfl, dtn, clock, outputs, rfl⟩

theorem canSearchAll_alike {w0 : World} (h : SearchesAlike w w0) (ctx : Context) (id : Id) :
    w0.canSearch id afInet = w.canSearch id afInet ∧
      w0.filledSearch id afInet = w.filledSearch id afInet ∧
      w0.canSearchAll ctx id = w.canSearchAll ctx id := by
  obtain ⟨hslot, hafter⟩ := searchSlot_alike h id afInet
  obtain ⟨dtn, clock, outputs, rfl⟩ := h
  have hfilled : World.filledSearch { w with
      dtn := dtn, env := { w.env with clock := clock }, outputs := outputs } id afInet =
      w.filledSearch id afInet := by
    unfold filledSearch
    rw [hslot]
    obtain ⟨d, c, o, he⟩ := hafter
    rw [he]
  refine ⟨rfl, hfilled, ?_⟩
  have hsecond : World.canSearchAfter { w with
      dtn := dtn, env := { w.env with clock := clock }, outputs := outputs } id =
      w.canSearchAfter id := by
    unfold canSearchAfter endsAtOnce
    rw [hfilled]
    generalize World.searchSlot { w with
      dtn := dtn, env := { w.env with clock := clock }, outputs := outputs } id afInet = out
        at hslot hafter
    generalize w.searchSlot id afInet = out' at hslot hafter
    obtain ⟨slot, w1⟩ := out
    obtain ⟨slot', w1'⟩ := out'
    obtain rfl : slot = slot' := hslot
    obtain ⟨d, c, o, he⟩ := hafter
    dsimp only at he
    subst he
    cases slot <;> rfl
  unfold canSearchAll
  rw [hsecond]
  rfl

variable (ctx : Context) (w) (key : Id)

/-- `dtn_dht_lookup` does not get as far as a search. -/
def AnswersAtOnce : Prop :=
  (w.readyForWork ctx).1 = 0 ∨
    (∃ entry, getFromList key w.dtn.lookuptable = some entry ∧
      (entry.status = .searching ∨ entry.status = .repeatSearch)) ∨
    w.announced key = true

/-- The entry was armed in this very second and is done, and the IPv4 search is an old one that
ended in it, and would end again at once as it is. -/
def Unnoticed : Prop :=
  ctx.type = .bindboth ∧ w.canSearch key afInet = true ∧
    (∃ entry, getFromList key w.dtn.lookuptable = some entry ∧ entry.status = .done ∧
      entry.updatetime = w.env.clock 0) ∧
    ∃ i f, w.findIdx key afInet = some i ∧ w.filledSearch key afInet = some f ∧
      f.allDone = true ∧ w.searches[i]? = some { f with done := true, stepTime := w.now }

/-- What a lookup with an error is said to leave as it was. -/
def SameLookups (w w' : World) : Prop :=
  w'.dtn.lookuptable = w.dtn.lookuptable ∧ w'.searches = w.searches

variable {ctx w key}

theorem alike_readyForWork (ctx : Context) (w : World) (key : Id) :
    SearchesAlike w ((w.readyForWork ctx).2.setMinimumRating ctx) ∧
      ((w.readyForWork ctx).2.setMinimumRating ctx).dtn.lookuptable = w.dtn.lookuptable ∧
      ((w.readyForWork ctx).2.setMinimumRating ctx).announced key = w.announced key ∧
      ((w.readyForWork ctx).2.setMinimumRating ctx).env.clock = w.env.clock := by
  unfold readyForWork
  dsimp only
  split_ifs
  all_goals exact ⟨⟨_, _, _, rfl⟩, rfl, rfl, rfl⟩

/-- A search that fails, called with a table that is not the one before the lookup. -/
theorem not_sameLookups_of_cannot (ctx : Context) {w0 : World} (halike : SearchesAlike w w0)
    (hcan : w.canSearchAll ctx key = false)
    (hplain : w0.dtn.lookuptable ≠ w.dtn.lookuptable)
    (hdone : (w0.dtn.searchDone key).lookuptable = w.dtn.lookuptable ↔
      ∃ entry, getFromList key w.dtn.lookuptable = some entry ∧ entry.status = .done ∧
        entry.updatetime = w.env.clock 0) :
    SameLookups w (w0.dtnDhtSearch ctx key 0).2 ↔ w.Unnoticed ctx key := by
  obtain ⟨hcan4, hfilled4, hall⟩ := canSearchAll_alike halike ctx key
  obtain ⟨dtn, clock, outputs, h0⟩ := halike
  have hidx : w0.findIdx key afInet = w.findIdx key afInet := by rw [h0]; rfl
  have hsearches : w0.searches = w.searches := by rw [h0]
  have hnow : w0.now = w.now := by rw [h0]
  rcases dtnDhtSearch_of_cannot (hall.trans hcan) with ⟨hs, hd, hnot⟩ |
    ⟨htype, hcan0, w', w1, i, f, f', hf, hs, hd⟩
  · refine iff_of_false (fun h => hplain ?_) fun h => ?_
    · rw [← hd]
      exact h.1
    · have hcan0 := h.2.1
      rw [← hcan4, hnot h.1] at hcan0
      exact Bool.false_ne_true hcan0
  · have hfeq := hf.filled
    rw [hfilled4] at hfeq
    have hseq := hf.searches_eq_iff
    rw [hidx, hsearches] at hseq
    unfold SameLookups
    rw [hs, hd, hseq, hf.dtn]
    cases hend : f.allDone with
    | false =>
      rw [if_neg Bool.false_ne_true]
      refine iff_of_false (fun h => hplain h.1) fun h => ?_
      obtain ⟨-, -, -, j, g, -, hg, hgend, -⟩ := h
      rw [hfeq, Option.some.injEq] at hg
      rw [← hg, hend] at hgend
      exact Bool.false_ne_true hgend
    | true =>
      rw [if_pos rfl, hdone, hf.ended hend, hnow]
      constructor
      · rintro ⟨hentry, hi, hsr⟩
        exact ⟨htype, hcan4 ▸ hcan0, hentry, i, f, hi, hfeq, hend, hsr⟩
      · rintro ⟨-, -, hentry, j, g, hj, hg, -, hsr⟩
        rw [hfeq, Option.some.injEq] at hg
        subst hg
        obtain rfl : j = i := hf.eq_slot (hidx.trans hj)
        exact ⟨hentry, hj, hsr⟩

/-- The end of a lookup, after the table has been written to. -/
theorem startLookup_sameLookups_iff (ctx : Context) {w0 : World} (halike : SearchesAlike w w0)
    (hann : w0.announced key = w.announced key)
    (hplain : w0.dtn.lookuptable ≠ w.dtn.lookuptable)
    (hdone : (w0.dtn.searchDone key).lookuptable = w.dtn.lookuptable ↔
      ∃ entry, getFromList key w.dtn.lookuptable = some entry ∧ entry.status = .done ∧
        entry.updatetime = w.env.clock 0) :
    ((w0.startLookup ctx key).1 < 0 → SameLookups w (w0.startLookup ctx key).2) ↔
      w.announced key = true ∨ w.canSearchAll ctx key = true ∨ w.Unnoticed ctx key := by
  unfold startLookup
  rw [hann]
  cases w.announced key with
  | true =>
    rw [if_pos rfl]
    exact iff_of_true (fun h => absurd h (show ¬ (1 : ℤ) < 0 by decide)) (Or.inl rfl)
  | false =>
    rw [if_neg Bool.false_ne_true]
    have halike' : SearchesAlike w (w0.emit [.lookupStart key]) := by
      obtain ⟨dtn, clock, outputs, rfl⟩ := halike
      exact ⟨dtn, clock, _, rfl⟩
    rw [dtnDhtSearch_neg_iff, (canSearchAll_alike halike' ctx key).2.2]
    cases hcan : w.canSearchAll ctx key with
    | true => exact iff_of_true (fun h => absurd h.symm Bool.false_ne_true) (Or.inr (Or.inl rfl))
    | false =>
      have h := not_sameLookups_of_cannot ctx halike' hcan hplain hdone
      constructor
      · exact fun himp => Or.inr (Or.inr (h.mp (himp rfl)))
      · rintro (hf | hf | hun) _
        · exact absurd hf Bool.false_ne_true
        · exact absurd hf Bool.false_ne_true
        · exact h.mpr hun

/-- **A lookup that fails leaves the lookups as they were** exactly if it does not get as far as a
search, if its searches find buckets and slots, or if what it changed is undone by chance. -/
theorem failed_lookup_same_iff (sha1 : Bytes → Bytes) (ctx : Context) (w : World) (eid : Bytes) :
    ((w.dtnDhtLookup sha1 ctx eid).1 < 0 →
        (w.dtnDhtLookup sha1 ctx eid).2.dtn.lookuptable = w.dtn.lookuptable ∧
        (w.dtnDhtLookup sha1 ctx eid).2.searches = w.searches) ↔
      w.AnswersAtOnce ctx (eidKey sha1 eid) ∨ w.canSearchAll ctx (eidKey sha1 eid) = true ∨
        w.Unnoticed ctx (eidKey sha1 eid) := by
  obtain ⟨halike, htable, hann, hclock⟩ := alike_readyForWork ctx w (eidKey sha1 eid)
  unfold dtnDhtLookup AnswersAtOnce
  generalize hready : w.readyForWork ctx = out at halike htable hann hclock
  obtain ⟨ready, w0⟩ := out
  dsimp only at halike htable hann hclock ⊢
  by_cases h0 : ready = 0
  · rw [if_pos h0]
    exact iff_of_true (fun h => absurd h (lt_irrefl 0)) (Or.inl (Or.inl h0))
  rw [if_neg h0]
  generalize eidKey sha1 eid = key at hann ⊢
  generalize w0.setMinimumRating ctx = w1 at halike htable hann hclock ⊢
  obtain ⟨dtn, clock, outputs, hw1⟩ := halike
  cases hget : getFromList key w1.dtn.lookuptable with
  | none =>
    dsimp only
    have halike' : SearchesAlike w
        (w1.withLookups (addToList key w1.dtn.lookuptable w1.env.clock)) := by
      rw [hw1]
      exact ⟨_, _, _, rfl⟩
    have hlonger {table : List DhtEntry} {n : DhtEntry} (f : DhtEntry → DhtEntry) :
        modifyEntry key f (n :: table) ≠ table := fun he =>
      absurd (congrArg List.length he) (by rw [length_modifyEntry, List.length_cons]; omega)
    rw [htable] at hget
    have hnone : ¬ ∃ entry, getFromList key w.dtn.lookuptable = some entry ∧
        (entry.status = .searching ∨ entry.status = .repeatSearch) := by
      rintro ⟨entry, he, -⟩
      exact Option.some_ne_none entry (he.symm.trans hget)
    rw [or_iff_right h0, or_iff_right hnone]
    refine startLookup_sameLookups_iff ctx halike' hann ?_ (iff_of_false ?_ ?_)
    · rw [← htable]
      exact List.cons_ne_self _ _
    · intro he
      rw [← htable] at he
      exact hlonger _ he
    · rintro ⟨entry, he, -⟩
      exact Option.some_ne_none entry (he.symm.trans hget)
  | some entry =>
    dsimp only
    rw [htable] at hget
    by_cases hprogress : entry.status = .searching ∨ entry.status = .repeatSearch
    · rw [if_pos hprogress]
      exact iff_of_true (fun h => absurd h (show ¬ (1 : ℤ) < 0 by decide))
        (Or.inl (Or.inr (Or.inl ⟨entry, hget, hprogress⟩)))
    · rw [if_neg hprogress]
      rw [not_or] at hprogress
      dsimp only [time]
      generalize hw2 : World.modifyLookup _ key _ = w2
      have halike' : SearchesAlike w w2 := by
        rw [← hw2, hw1]
        exact ⟨_, _, _, rfl⟩
      have htable2 : w2.dtn.lookuptable =
          modifyEntry key (DhtEntry.arm (w.env.clock 0)) w.dtn.lookuptable := by
        rw [← hw2, ← htable, ← hclock]
        rfl
      have hann2 : w2.announced key = w.announced key := by
        rw [← hw2, ← hann]
        rfl
      have hnone : ¬ ∃ entry, getFromList key w.dtn.lookuptable = some entry ∧
          (entry.status = .searching ∨ entry.status = .repeatSearch) := by
        rintro ⟨entry', he, hstatus⟩
        rw [hget, Option.some.injEq] at he
        subst he
        exact not_or.mpr hprogress hstatus
      rw [or_iff_right h0, or_iff_right hnone]
      refine startLookup_sameLookups_iff ctx halike' hann2 ?_ ?_
      · rw [htable2]
        exact modifyEntry_arm_ne _ hget hprogress.1
      · unfold Dtn.searchDone
        dsimp only
        rw [htable2, modifyEntry_finish_arm_iff _ hget]
        constructor
        · intro h
          exact ⟨entry, hget, h⟩
        · rintro ⟨entry', he, h⟩
          rw [hget, Option.some.injEq] at he
          exact he ▸ h

/-- A node that has met eight others, and has no memory left. -/
def outOfMemory : World :=
  ((World.initial { Env.still 1000 with calloc := fun _ => false }).dtnDhtInit ipv4Context
    (Id.ofBytes [1])).calls samplePlatform ipv4Context meetNodes

/-- No slot can be had for the search, but the entry of the lookup stays, and the next lookup is
told that this one is in progress. -/
theorem failed_lookup_not_same :
    (outOfMemory.dtnDhtLookup samplePlatform.sha1 ipv4Context (str "dtn:a")).1 < 0 ∧
      (outOfMemory.dtnDhtLookup samplePlatform.sha1 ipv4Context
        (str "dtn:a")).2.dtn.lookuptable ≠ outOfMemory.dtn.lookuptable ∧
      ((outOfMemory.dtnDhtLookup samplePlatform.sha1 ipv4Context
        (str "dtn:a")).2.dtnDhtLookup samplePlatform.sha1 ipv4Context (str "dtn:a")).1 = 1 := by
  decide +kernel

end World

end DtnDht
