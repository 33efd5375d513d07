import DtnDht.SearchStep

/-!
# The identifiers of searches

Requests carry the 16 bits of the identifier of their search, and `find_search` takes a reply for
the search with that identifier and its family. Identifiers are drawn from a counter that wraps
around, and nothing keeps `dht_search` from drawing the one of a search that is still in the list.
So they are unique if and only if it never does (`allUnique_iff`).
-/

namespace DtnDht

namespace SearchHead

/-- What `find_search` compares. -/
def tidKey (h : SearchHead) : ℕ × UInt16 := (h.af, h.tid)

/-- What `dht_search` compares. -/
def idKey (h : SearchHead) : ℕ × Id := (h.af, h.id)

end SearchHead

/-- What concerns the searches. -/
inductive SearchEvent where
  | gettimeofday
  | search (id : Id) (port : UInt16) (af : ℕ)
  | step (i : ℕ)
  | expire
  | receive (clayer : List ConvergenceLayer) (dg : Datagram)

namespace World

variable (lib : Platform)

/-- The state after an event. -/
def searchEvent (w : World) : SearchEvent → World
  | .gettimeofday => w.gettimeofday
  | .search id port af => (w.dhtSearch id port af).2
  | .step i => w.searchStep i
  | .expire => w.expire
  | .receive clayer dg => w.receive lib clayer dg

/-- The state after some events, the latest first. -/
def afterSearches (w : World) (past : List SearchEvent) : World :=
  past.foldr (fun e w => w.searchEvent lib e) w

/-- The list of searches is no longer than it may be, and no two of its elements have the same
family and identifier, or the same family and id. -/
structure KeysUnique (w : World) : Prop where
  tids : (w.heads.map SearchHead.tidKey).Nodup
  ids : (w.heads.map SearchHead.idKey).Nodup
  numsearches : w.numsearches = w.heads.length
  le : w.heads.length ≤ dhtMaxSearches

/-- Moreover, `new_search` hands out only new slots and those of searches that are done, and
`find_search` finds every search by its identifier. -/
structure IdsUnique (w : World) : Prop extends KeysUnique w where
  slots : ∀ calloc i searches numsearches,
    newSearch w.now calloc w.searches w.numsearches = (some i, searches, numsearches) →
      (searches = w.searches ∧ ∃ sr, w.searches[i]? = some sr ∧ sr.done = true) ∨
        (searches = callocSearch :: w.searches ∧ i = 0)
  finds : ∀ i sr, w.searches[i]? = some sr → findSearch sr.tid sr.af w.searches = some i

/-- If `dht_search` starts a new search, then the next identifier is not the one of another search
of the family. -/
def FreshTid (w : World) : SearchEvent → Prop
  | .search id _ af => w.canSearch id af = true → w.findIdx id af = none →
    ∀ i searches numsearches,
      newSearch w.now (w.env.calloc 0) w.searches w.numsearches =
        (some i, searches, numsearches) →
      ∀ j sr, j ≠ i → searches[j]? = some sr → sr.af = af → sr.tid ≠ w.searchId
  | _ => True

/-- Every new search of a run gets such an identifier. -/
def FreshTids (w : World) : List SearchEvent → Prop
  | [] => True
  | e :: past => (w.afterSearches lib past).FreshTid e ∧ FreshTids w past

/-- The identifiers are unique in all states of a run. -/
def AllUnique (w : World) : List SearchEvent → Prop
  | [] => w.IdsUnique
  | e :: past => (w.afterSearches lib (e :: past)).IdsUnique ∧ AllUnique w past

variable {lib} {w : World}

theorem KeysUnique.idsUnique (h : KeysUnique w) : IdsUnique w := by
  refine ⟨h, fun calloc i searches numsearches hnew => ?_, fun i sr hi => ?_⟩
  · rcases newSearch_cases hnew with ⟨hs, -, hdone⟩ | ⟨hi, hs, -⟩
    · exact Or.inl ⟨hs, hdone⟩
    · exact Or.inr ⟨hs, hi⟩
  · obtain ⟨hlt, rfl⟩ := List.getElem?_eq_some_iff.mp hi
    refine List.findIdx?_eq_some_iff_getElem.mpr ⟨hlt, by simp, fun j hj hp => ?_⟩
    rw [Bool.and_eq_true, beq_iff_eq, beq_iff_eq] at hp
    have hne := List.nodup_iff_getElem?_ne_getElem?.mp h.tids j i hj (by simpa [heads] using hlt)
    refine hne ?_
    simp [heads, SearchHead.tidKey, Search.head, hp.1, hp.2, List.getElem?_eq_getElem hlt,
      List.getElem?_eq_getElem (hj.trans hlt)]

theorem KeysUnique.congr {w' : World} (h : KeysUnique w)
    (ht : w'.heads.map SearchHead.tidKey = w.heads.map SearchHead.tidKey)
    (hi : w'.heads.map SearchHead.idKey = w.heads.map SearchHead.idKey)
    (hn : w'.numsearches = w.numsearches) : KeysUnique w' := by
  have hl : w'.heads.length = w.heads.length := by
    simpa only [List.length_map] using congrArg List.length hi
  exact ⟨ht ▸ h.tids, hi ▸ h.ids, by rw [hn, hl, h.numsearches], hl ▸ h.le⟩

theorem KeysUnique.stable {w' : World} (h : KeysUnique w) (hs : Stable w w') : KeysUnique w' :=
  h.congr (by rw [hs.heads]) (by rw [hs.heads]) hs.numsearches

/-- A step leaves the keys alone. -/
theorem KeysUnique.searchStep (h : KeysUnique w) (i : ℕ) : KeysUnique (w.searchStep i) := by
  cases hi : w.searches[i]? with
  | none =>
    unfold World.searchStep
    rw [hi]
    exact h
  | some sr =>
    obtain ⟨t, fin, hs⟩ := searchStep_spec hi
    have hh : w.heads[i]? = some sr.head := by rw [heads, List.getElem?_map, hi]; rfl
    refine h.congr ?_ ?_ hs.numsearches
    · rw [hs.heads]
      exact List.map_set_of_eq hh rfl
    · rw [hs.heads]
      exact List.map_set_of_eq hh rfl

theorem expireSearches_snd (now : ℤ) (searches : List Search) {n : ℕ}
    (hn : searches.length ≤ n) :
    (expireSearches now searches n).2 + searches.length =
      n + (expireSearches now searches n).1.length := by
  induction searches generalizing n with
  | nil => rfl
  | cons sr searches ih =>
    rw [List.length_cons] at hn
    unfold expireSearches
    split_ifs
    · have := ih (n := n - 1) (by omega)
      rw [List.length_cons]
      omega
    · have := ih (n := n) (by omega)
      dsimp only
      rw [List.length_cons, List.length_cons]
      omega

theorem KeysUnique.expire (h : KeysUnique w) : KeysUnique w.expire := by
  have hsub : w.expire.heads.Sublist w.heads := by
    rw [heads_expire]
    exact List.filter_sublist
  refine ⟨h.tids.sublist (hsub.map _), h.ids.sublist (hsub.map _), ?_,
    hsub.length_le.trans h.le⟩
  have hn : w.numsearches = w.searches.length := by rw [h.numsearches, heads, List.length_map]
  have hsnd : w.expire.numsearches + w.searches.length =
      w.numsearches + (DtnDht.expireSearches w.now w.searches w.numsearches).1.length :=
    expireSearches_snd w.now w.searches hn.ge
  have hlen : w.expire.heads.length =
      (DtnDht.expireSearches w.now w.searches w.numsearches).1.length := List.length_map _
  omega

/-- A place is overwritten and no value occurs twice. -/
theorem nodup_set_iff {α : Type*} {l : List α} {i : ℕ} {a : α} (hi : i < l.length) :
    (l.set i a).Nodup ↔ (∀ j, j ≠ i → l[j]? ≠ some a) ∧ (l.eraseIdx i).Nodup := by
  rw [(List.set_perm_cons_eraseIdx hi a).nodup_iff, List.nodup_cons,
    List.mem_eraseIdx_iff_getElem?]
  simp only [not_exists, not_and, ne_eq]

/-- The other searches are old ones. -/
theorem newSearch_eraseIdx {now : ℤ} {calloc : Bool} {searches searches' : List Search}
    {numsearches numsearches' i : ℕ}
    (h : newSearch now calloc searches numsearches = (some i, searches', numsearches')) :
    i < searches'.length ∧ (searches'.eraseIdx i).Sublist searches := by
  rcases newSearch_cases h with ⟨rfl, -, sr, hi, -⟩ | ⟨rfl, rfl, -⟩
  · exact ⟨(List.getElem?_eq_some_iff.mp hi).1, List.eraseIdx_sublist _ _⟩
  · exact ⟨Nat.succ_pos _, List.Sublist.refl _⟩

/-- The number of searches is kept. -/
theorem newSearch_length {now : ℤ} {calloc : Bool} {searches searches' : List Search}
    {numsearches' i : ℕ} (hle : searches.length ≤ dhtMaxSearches)
    (h : newSearch now calloc searches searches.length = (some i, searches', numsearches')) :
    numsearches' = searches'.length ∧ searches'.length ≤ dhtMaxSearches := by
  rcases newSearch_cases h with ⟨rfl, rfl, -⟩ | ⟨-, rfl, rfl, hlt⟩
  · exact ⟨rfl, hle⟩
  · exact ⟨rfl, hlt⟩

/-- A slot is filled and no key occurs twice. -/
theorem nodup_map_set_iff {κ : Type*} (key : SearchHead → κ) {searches searches' : List Search}
    {i : ℕ} {h : SearchHead} (hi : i < searches'.length)
    (hsub : (searches'.eraseIdx i).Sublist searches)
    (hk : ((searches.map Search.head).map key).Nodup) :
    (((searches'.map Search.head).set i h).map key).Nodup ↔
      ∀ j sr, j ≠ i → searches'[j]? = some sr → key sr.head ≠ key h := by
  have hrest : (((searches'.map Search.head).map key).eraseIdx i).Nodup := by
    rw [List.map_map, List.eraseIdx_map]
    rw [List.map_map] at hk
    exact hk.sublist (hsub.map _)
  rw [List.map_set, nodup_set_iff (by simpa using hi), and_iff_left hrest]
  simp only [List.getElem?_map, ne_eq, Option.map_eq_some_iff, not_exists, not_and]
  constructor
  · intro hne j sr hj hsr
    exact hne j hj sr.head ⟨sr, hsr, rfl⟩
  · rintro hne j hj _ ⟨sr, hsr, rfl⟩
    exact hne j sr hj hsr

/-- `dht_search` keeps the keys unique if and only if it does not take the identifier of another
search. -/
theorem keysUnique_dhtSearch_iff (h : KeysUnique w) (id : Id) (port : UInt16) (af : ℕ) :
    KeysUnique (w.dhtSearch id port af).2 ↔ w.FreshTid (.search id port af) := by
  rcases dhtSearch_cases w id port af with ⟨hcan, -, hcalm⟩ |
    ⟨i, hs, tid, numsearches, searchId, t, fin, hcan, -, hslot, hstart, hnum, -⟩
  · refine iff_of_true (h.stable hcalm.toStable) fun hcan' => ?_
    rw [hcan] at hcan'
    exact absurd hcan' Bool.false_ne_true
  · cases hslot with
    | old hidx hi =>
      rename_i sr
      obtain ⟨sr', hi', rfl, rfl⟩ := findIdx_spec hidx
      obtain rfl : sr = sr' := Option.some_inj.mp (hi.symm.trans hi')
      have hh : w.heads[i]? = some sr.head := by rw [heads, List.getElem?_map, hi]; rfl
      refine iff_of_true (h.congr ?_ ?_ hnum) fun _ hnone => ?_
      · rw [hstart.heads]
        exact List.map_set_of_eq hh rfl
      · rw [hstart.heads]
        exact List.map_set_of_eq hh rfl
      · rw [hidx] at hnone
        exact absurd hnone (Option.some_ne_none i)
    | new hidx hnew =>
      rename_i searches
      obtain ⟨hlt, hsub⟩ := newSearch_eraseIdx hnew
      have hn : w.numsearches = w.searches.length := by rw [h.numsearches, heads, List.length_map]
      have hle : w.searches.length ≤ dhtMaxSearches := by
        have := h.le
        rwa [heads, List.length_map] at this
      obtain ⟨hlen, hmax⟩ := newSearch_length hle (hn ▸ hnew)
      have hl : (w.dhtSearch id port af).2.heads.length = searches.length := by
        rw [hstart.heads, List.length_set, List.length_map]
      have hkey {κ : Type} (key : SearchHead → κ) (hk : (w.heads.map key).Nodup) :
          ((w.dhtSearch id port af).2.heads.map key).Nodup ↔
            ∀ j sr, j ≠ i → searches[j]? = some sr →
              key sr.head ≠ key ⟨w.searchId, af, t, id, port, fin⟩ := by
        rw [hstart.heads]
        exact nodup_map_set_iff key hlt hsub hk
      -- `dht_search` has found no search of the id and the family.
      have hid := (hkey SearchHead.idKey h.ids).mpr fun j sr hj hsr he => by
        have hmem := hsub.subset (List.mem_eraseIdx_iff_getElem?.mpr ⟨j, hj, hsr⟩)
        have hne := List.findIdx?_eq_none_iff.mp hidx sr hmem
        rw [Bool.and_eq_false_iff, beq_eq_false_iff_ne, decide_eq_false_iff_not, idCmp_eq_eq] at hne
        exact hne.elim (fun hne => hne (congrArg Prod.fst he)) fun hne => hne (congrArg Prod.snd he)
      constructor
      · intro h' _ _ i' searches' n' hnew' j sr hj hsr haf htid
        obtain ⟨rfl, rfl, rfl⟩ : i = i' ∧ searches = searches' ∧ numsearches = n' := by
          simpa using hnew.symm.trans hnew'
        exact (hkey SearchHead.tidKey h.tids).mp h'.tids j sr hj hsr (Prod.ext haf htid)
      · intro hfresh
        refine ⟨(hkey SearchHead.tidKey h.tids).mpr fun j sr hj hsr he => ?_, hid, ?_, ?_⟩
        · exact hfresh hcan hidx i searches numsearches hnew j sr hj hsr (congrArg Prod.fst he)
            (congrArg Prod.snd he)
        · rw [hl, hnum, hlen]
        · rw [hl]
          exact hmax

/-! ## Runs -/

/-- An event keeps the keys unique if and only if it is no search that takes the identifier of
another one. -/
theorem keysUnique_searchEvent_iff (h : KeysUnique w) (e : SearchEvent) :
    KeysUnique (w.searchEvent lib e) ↔ w.FreshTid e := by
  cases e with
  | gettimeofday => exact iff_of_true ⟨h.tids, h.ids, h.numsearches, h.le⟩ trivial
  | search id port af => exact keysUnique_dhtSearch_iff h id port af
  | step i => exact iff_of_true (h.searchStep i) trivial
  | expire => exact iff_of_true h.expire trivial
  | receive clayer dg => exact iff_of_true (h.stable (stable_receive lib clayer w dg)) trivial

theorem AllUnique.head {past : List SearchEvent} (h : w.AllUnique lib past) :
    IdsUnique (w.afterSearches lib past) := by
  cases past with
  | nil => exact h
  | cons e past => exact h.1

/-- **The identifiers are unique in all states of a run if and only if every new search gets one
that no other search of its family has.** -/
theorem allUnique_iff (lib : Platform) (w : World) (s s6 : ℤ) (id : Id) (v : Option Bytes)
    (past : List SearchEvent) :
    (w.dhtInit s s6 id v).AllUnique lib past ↔ (w.dhtInit s s6 id v).FreshTids lib past := by
  have hinit : KeysUnique (w.dhtInit s s6 id v) :=
    ⟨List.nodup_nil, List.nodup_nil, rfl, Nat.zero_le _⟩
  generalize w.dhtInit s s6 id v = w0 at hinit
  induction past with
  | nil => exact iff_of_true hinit.idsUnique trivial
  | cons e past ih =>
    constructor
    · rintro ⟨he, hpast⟩
      exact ⟨(keysUnique_searchEvent_iff hpast.head.toKeysUnique e).mp he.toKeysUnique,
        ih.mp hpast⟩
    · rintro ⟨he, hpast⟩
      have hall := ih.mpr hpast
      exact ⟨((keysUnique_searchEvent_iff hall.head.toKeysUnique e).mpr he).idsUnique, hall⟩

/-! ## The counter wraps around -/

/-- The buckets of an IPv4 node that knows nobody. -/
structure Lonely (r : Routing) : Prop where
  buckets : r.buckets = [callocBucket afInet Id.zeroes]
  buckets6 : r.buckets6 = []

/-- A search that has ended at once. -/
def endedSearch (tid : UInt16) (now : ℤ) (id : Id) : Search := ⟨tid, afInet, now, id, 0, true, []⟩

variable {id : Id}

theorem Lonely.expireBuckets {r : Routing} (h : Lonely r) (net : Net) :
    (r.expireBuckets net).1 = r := by
  obtain ⟨b, b6, g, g6⟩ := r
  obtain rfl : b = _ := h.buckets
  obtain rfl : b6 = _ := h.buckets6
  rfl

theorem Lonely.insertBucketAt {r : Routing} (h : Lonely r) (now : ℤ) (i : ℕ) {sr : Search}
    (haf : sr.af = afInet) : sr.insertBucketAt now r i = sr := by
  unfold Search.insertBucketAt Routing.table
  rw [haf, if_pos rfl, h.buckets]
  cases i with
  | zero => rfl
  | succ i => rfl

theorem Lonely.insertClosest {r : Routing} (h : Lonely r) (now : ℤ) (myid : Id) {sr : Search}
    (haf : sr.af = afInet) : sr.insertClosest now r myid 0 = sr := by
  have hb (i : ℕ) := h.insertBucketAt now i haf
  unfold Search.insertClosest
  simp only [hb, previousBucket, if_true, Option.elim_none, ite_self]
  split_ifs
  · cases r.findBucket myid sr.af with
    | none => rfl
    | some i => rfl
  · rfl

theorem Lonely.findBucket {r : Routing} (h : Lonely r) (id : Id) :
    r.findBucket id afInet = some 0 := by
  unfold Routing.findBucket Routing.table
  rw [if_pos rfl, h.buckets]
  rfl

/-- A search without nodes and port ends at its first step. -/
theorem searchStep_of_nodes_eq_nil {i : ℕ} {sr : Search} (hi : w.searches[i]? = some sr)
    (hn : sr.nodes = []) (hp : sr.port = 0) : w.searchStep i =
      (w.withSearch i ({ sr with done := true, stepTime := w.now }, w.routing, [])).searchDone
        sr.id := by
  have hall : sr.allDone = true := by
    unfold Search.allDone
    rw [hn]
    rfl
  unfold searchStep
  rw [hi]
  dsimp only
  unfold Search.step
  rw [if_pos hall, if_pos hp]
  rfl

/-- A search of a node that knows nobody ends at once. -/
theorem dhtSearch_lonely (hr : Lonely w.routing) {i : ℕ} {w1 : World} {sr : Search}
    (hslot : w.searchSlot id afInet = (some i, w1)) (hr1 : w1.routing = w.routing)
    (hi : w1.searches[i]? = some sr) (haf : sr.af = afInet) (hn : sr.nodes = []) :
    ∃ outputs dtn, (w.dhtSearch id 0 afInet).2 = { w1 with
      searches := w1.searches.set i (endedSearch sr.tid w1.now sr.id)
      searchTime := w1.now
      outputs := outputs
      dtn := dtn } := by
  have hport : ({ sr with port := 0 } : Search).insertClosest w1.now w1.routing w1.myid 0 =
      { sr with port := 0 } := Lonely.insertClosest (hr1 ▸ hr) _ _ haf
  set w2 : World := { w1 with
    searches := w1.searches.modify i fun sr =>
      { sr with port := 0 }.insertClosest w1.now w1.routing w1.myid 0 } with hw2
  have hi2 : (w2.emit [.searchStart (w.searchStart id 0 afInet)]).searches[i]? =
      some { sr with port := 0 } := by
    rw [emit, hw2, List.getElem?_modify_eq, hi, ← hport]
    rfl
  have h : (w.dhtSearch id 0 afInet).2 =
      { (w2.emit [.searchStart (w.searchStart id 0 afInet)]).searchStep i with
        searchTime := ((w2.emit [.searchStart (w.searchStart id 0 afInet)]).searchStep i).now } := by
    unfold dhtSearch
    rw [hr.findBucket, hslot]
    rfl
  rw [h, searchStep_of_nodes_eq_nil hi2 hn rfl]
  have hset : w2.searches.set i (endedSearch sr.tid w1.now sr.id) =
      w1.searches.set i (endedSearch sr.tid w1.now sr.id) := by
    rw [hw2, List.set_modify]
  have hended : { sr with port := 0, done := true, stepTime := w1.now } =
      endedSearch sr.tid w1.now sr.id := by
    rw [endedSearch, ← haf, ← hn]
  rw [← hset, ← hended]
  exact ⟨_, _, rfl⟩

/-- A lonely node with the searches `srs`, whose next search has the identifier `next`, at time `t`.
Its clock goes on by 4000 seconds at each reading. -/
structure Lapping (w : World) (srs : List Search) (next : UInt16) (t : ℤ) : Prop where
  lonely : Lonely w.routing
  searches : w.searches = srs
  numsearches : w.numsearches = srs.length
  searchId : w.searchId = next
  now : w.now = t
  calloc : ∀ k, w.env.calloc k = true
  clock : ∀ k : ℕ, w.env.clock k = t + 4000 * (k + 1)

variable {srs : List Search} {next : UInt16} {t : ℤ}

theorem Lapping.gettimeofday (h : Lapping w srs next t) :
    Lapping w.gettimeofday srs next (t + 4000) where
  lonely := h.lonely
  searches := h.searches
  numsearches := h.numsearches
  searchId := h.searchId
  now := (h.clock 0).trans (by ring)
  calloc := fun k => h.calloc k
  clock := fun k => (h.clock (k + 1)).trans (by push_cast; ring)

theorem Lapping.expire (h : Lapping w srs next t) :
    Lapping w.expire (expireSearches t srs srs.length).1 next t := by
  have he : expireSearches t srs srs.length = expireSearches w.now w.searches w.numsearches := by
    rw [h.now, h.numsearches, h.searches]
  refine ⟨?_, ?_, ?_, h.searchId, h.now, h.calloc, h.clock⟩
  · have hr : w.expire.routing = w.routing := h.lonely.expireBuckets w.net
    rw [hr]
    exact h.lonely
  · rw [he]
    rfl
  · have hlen := expireSearches_snd t srs le_rfl
    have hn : w.expire.numsearches = (expireSearches t srs srs.length).2 := by
      rw [he]
      rfl
    omega

/-- The search of an id is found and ends again. -/
theorem Lapping.search_old (h : Lapping w srs next t) (id : Id) {i : ℕ} {tid : UInt16} {t' : ℤ}
    (hidx : w.findIdx id afInet = some i) (hi : srs[i]? = some (endedSearch tid t' id)) :
    Lapping (w.dhtSearch id 0 afInet).2 (srs.set i (endedSearch tid t id)) next t := by
  have hslot : w.searchSlot id afInet =
      (some i, { w with searches := w.searches.modify i (Search.restart w.now) }) := by
    unfold searchSlot
    rw [hidx]
  have hi1 : (w.searches.modify i (Search.restart w.now))[i]? =
      some ((endedSearch tid t' id).restart w.now) := by
    rw [List.getElem?_modify_eq, h.searches, hi]
    rfl
  obtain ⟨outputs, dtn, hw⟩ := dhtSearch_lonely h.lonely hslot rfl hi1 rfl rfl
  rw [hw]
  refine ⟨h.lonely, ?_, ?_, h.searchId, h.now, h.calloc, h.clock⟩
  · dsimp only
    rw [List.set_modify, h.searches, h.now]
    rfl
  · rw [List.length_set]
    exact h.numsearches

/-- The search of a new id gets a new slot and ends at once. -/
theorem Lapping.search_new (h : Lapping w srs next t) (id : Id) (hidx : w.findIdx id afInet = none)
    (hnew : newSearch t true srs srs.length = (some 0, callocSearch :: srs, srs.length + 1)) :
    Lapping (w.dhtSearch id 0 afInet).2 (endedSearch next t id :: srs) (next + 1) t := by
  have hslot : w.searchSlot id afInet = (some 0, { w with
      env := { w.env with calloc := fun k => w.env.calloc (k + 1) }
      searches := (callocSearch :: srs).modify 0 (Search.start afInet next id)
      numsearches := srs.length + 1
      searchId := next + 1 }) := by
    unfold searchSlot
    rw [hidx]
    dsimp only
    rw [h.calloc, h.now, h.searches, h.numsearches, hnew, h.searchId]
  obtain ⟨outputs, dtn, hw⟩ := dhtSearch_lonely h.lonely hslot rfl rfl rfl rfl
  rw [hw]
  exact ⟨h.lonely, by rw [← h.now]; rfl, rfl, rfl, h.now, fun k => h.calloc (k + 1), h.clock⟩

/-- The id that is searched for again and again. -/
def lapId : Id := Id.ofBytes [1]

/-- The id of the searches that expire. -/
def otherId : Id := Id.ofBytes [2]

/-- The first search is repeated, so that it does not expire, while the other one makes place for a
new one. -/
def lap : List SearchEvent :=
  [.search otherId 0 afInet, .expire, .search lapId 0 afInet, .gettimeofday]

/-- A lap draws an identifier. -/
theorem Lapping.after_lap (lib : Platform) {tid tid' : UInt16}
    (h : Lapping w [endedSearch tid' t otherId, endedSearch tid t lapId] next t) :
    Lapping (w.afterSearches lib lap)
      [endedSearch next (t + 4000) otherId, endedSearch tid (t + 4000) lapId] (next + 1)
      (t + 4000) := by
  have h1 := h.gettimeofday
  have h2 := h1.search_old lapId (i := 1) (by unfold findIdx; rw [h1.searches]; rfl) rfl
  have h3 := h2.expire
  have hexpire : (expireSearches (t + 4000) ([endedSearch tid' t otherId, endedSearch tid t
      lapId].set 1 (endedSearch tid (t + 4000) lapId)) 2).1 =
      [endedSearch tid (t + 4000) lapId] := by
    have hold : t < t + 4000 - dhtSearchExpireTime := by unfold dhtSearchExpireTime; omega
    have hnew : ¬ t + 4000 < t + 4000 - dhtSearchExpireTime := by unfold dhtSearchExpireTime; omega
    simp [expireSearches, endedSearch, hold, hnew]
  rw [List.length_set, List.length_cons, List.length_singleton, hexpire] at h3
  have hnew : newSearch (t + 4000) true [endedSearch tid (t + 4000) lapId] 1 =
      (some 0, [callocSearch, endedSearch tid (t + 4000) lapId], 2) := by
    have hne : ¬ t + 4000 < t + 4000 - dhtSearchExpireTime := by unfold dhtSearchExpireTime; omega
    have hold : oldestDone [endedSearch tid (t + 4000) lapId] = some 0 := rfl
    unfold newSearch
    rw [hold]
    exact if_neg (mt of_decide_eq_true hne)
  exact h3.search_new otherId (by unfold findIdx; rw [h3.searches]; rfl) hnew

theorem Lapping.after_laps (lib : Platform) {tid tid' : UInt16} (n : ℕ)
    (h : Lapping w [endedSearch tid' t otherId, endedSearch tid t lapId] (tid' + 1) t) :
    ∃ t', Lapping (w.afterSearches lib (List.replicate n lap).flatten)
      [endedSearch (tid' + UInt16.ofNat n) t' otherId, endedSearch tid t' lapId]
      (tid' + UInt16.ofNat n + 1) t' := by
  induction n with
  | zero => exact ⟨t, by simpa [afterSearches] using h⟩
  | succ n ih =>
    obtain ⟨t', h'⟩ := ih
    refine ⟨t' + 4000, ?_⟩
    have hn : tid' + UInt16.ofNat (n + 1) = tid' + UInt16.ofNat n + 1 := by
      rw [UInt16.ofNat_add]
      exact (UInt16.add_assoc tid' (UInt16.ofNat n) 1).symm
    rw [List.replicate_succ, List.flatten_cons, afterSearches, List.foldr_append, hn]
    exact h'.after_lap lib

/-- A node that has just been started. -/
def lapStart : World :=
  (World.initial { Env.still 0 with clock := fun k => 4000 * k }).dhtInit 5 (-1) (Id.ofBytes [1])
    none

theorem lapping_lapStart : Lapping lapStart [] 1 0 where
  lonely := ⟨rfl, rfl⟩
  searches := rfl
  numsearches := rfl
  searchId := rfl
  now := rfl
  calloc := fun _ => rfl
  clock := fun k => by
    have h : lapStart.env.clock k = 4000 * ((k + 1 : ℕ) : ℤ) := rfl
    rw [h]
    push_cast
    ring

/-- SHA-1 and `inet_ntop` play no part in a search. -/
def lapPlatform : Platform := ⟨fun b => b, fun _ _ => []⟩

/-- After 65536 more searches the counter draws the identifier of the first one again. -/
theorem allUnique_wraps : ¬ lapStart.AllUnique lapPlatform
    ((List.replicate 65535 lap).flatten ++ [.search otherId 0 afInet, .search lapId 0 afInet]) := by
  intro hall
  have h1 := lapping_lapStart.search_new lapId rfl rfl
  have h2 := h1.search_new otherId (by unfold findIdx; rw [h1.searches]; rfl) rfl
  obtain ⟨t, h⟩ := h2.after_laps lapPlatform 65535
  have htids := hall.head.tids
  rw [afterSearches, List.foldr_append] at htids
  have htwice : (afterSearches lapPlatform
      ((lapStart.dhtSearch lapId 0 afInet).2.dhtSearch otherId 0 afInet).2
      (List.replicate 65535 lap).flatten).heads.map SearchHead.tidKey = [(2, 1), (2, 1)] := by
    rw [heads, h.searches]
    rfl
  have hdup : ¬ [((2 : ℕ), (1 : UInt16)), (2, 1)].Nodup := by decide
  rw [← htwice] at hdup
  exact hdup htids

end World

end DtnDht
