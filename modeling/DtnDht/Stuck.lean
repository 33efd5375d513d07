import DtnDht.Api
import DtnDht.Lib.Runs

/-!
# Lookups in progress

While a lookup is in progress another one of the same EID only marks it to be repeated, so that a
lookup without a search would never come to an end. An entry of the table of lookups is marked
before its search is started, and the mark is not taken back when no search is started or when
`relookupList` sets it after the search has ended; and a search that is old is purged without
telling. Otherwise every lookup in progress has a search that is not done (`notStuck`).
-/

namespace DtnDht

open CString

/-- Is the lookup in progress? -/
def LookupStatus.inProgress (status : LookupStatus) : Bool :=
  status = .searching || status = .repeatSearch

namespace World

/-- Is a search for the key not done? -/
def runs (w : World) (key : Id) : Bool := w.heads.any (SearchHead.isRunning key)

/-- Every lookup in progress has a search that is not done. -/
def NotStuck (w : World) : Prop :=
  ∀ entry ∈ w.dtn.lookuptable, entry.status.inProgress = true → w.runs entry.md = true

instance (w : World) : Decidable w.NotStuck :=
  inferInstanceAs (Decidable (∀ entry ∈ w.dtn.lookuptable, _))

/-! ## When a call keeps it so -/

section

variable (sha1 : Bytes → Bytes) (ctx : Context)

/-- `dtn_dht_lookup` finds a search for the key that is not done, or the EID is not announced and
the first `dht_search` does not fail. -/
def findsSearch (w : World) (key : Id) : Bool :=
  w.runs key || !w.announced key && (families ctx).head?.any (w.canSearch key)

/-- Turn `i` of `relookupList` leaves no lookup in progress without a search: the entry is not
looked up again, `dtn_dht_search` fails, or it does not come to its end at once. -/
def relooksInStep (w : World) (i : ℕ) : Bool :=
  w.dtn.lookuptable[i]?.all fun pos =>
    let out := (w.emit [.lookupStart pos.md]).dtnDhtSearch ctx pos.md 0
    pos.status ≠ .doneAndReadyForRepeat || out.1 < 0 || out.2.runs pos.md

/-- No lookup in progress loses its last search when searches are purged. -/
def purgesInStep (w : World) : Bool :=
  w.dtn.lookuptable.all fun entry => !entry.status.inProgress || w.heads.any fun hd =>
    hd.isRunning entry.md && w.now - dhtSearchExpireTime ≤ hd.stepTime

/-- Does `dht_periodic` get to what is due? -/
def doesDue (w : World) (dg : Option Datagram) : Bool :=
  dg.all fun dg => w.ignores dg || dg.terminated

/-- The state in which `dtn_dht_periodic` calls `relookupList` if it does, and that in which
`dht_periodic` purges if purging is due, do so in step. -/
def PeriodicInStep (w : World) (dg : Option Datagram) : Prop :=
  let ready := (w.setMinimumRating ctx).readyForWork ctx
  let relooked := ready.2.reannounceList ctx
  let purged := (w.maintainLists ctx).gettimeofday
  (2 ≤ ready.1 → Runs.EachTurn (relookupEntry ctx) (fun w i => w.relooksInStep ctx i = true)
    relooked (List.range relooked.dtn.lookuptable.length)) ∧
  (purged.doesDue dg = true ∧ purged.expireStuffTime ≤ purged.now → purged.purgesInStep = true)

/-- A lookup is not possible yet, in progress already, or finds a search. -/
def LookupInStep (w : World) (eid : Bytes) : Prop :=
  let ready := w.readyForWork ctx
  let key := eidKey sha1 eid
  ready.1 = 0 ∨ ready.2.findsSearch ctx key = true ∨
    (getFromList key ready.2.dtn.lookuptable).any (·.status.inProgress) = true

/-- When a call leaves no lookup in progress without a search. -/
def CallInStep (w : World) : ApiCall → Prop
  | .lookup eid => w.LookupInStep sha1 ctx eid
  | .announce _ _ => True
  | .deannounce _ => True
  | .periodic dg => w.PeriodicInStep ctx dg

instance (w : World) (c : ApiCall) : Decidable (w.CallInStep sha1 ctx c) :=
  match c with
  | .lookup _ => inferInstanceAs (Decidable ((w.readyForWork ctx).1 = 0 ∨ _ = true ∨ _ = true))
  | .announce _ _ => inferInstanceAs (Decidable True)
  | .deannounce _ => inferInstanceAs (Decidable True)
  | .periodic _ => inferInstanceAs (Decidable ((2 ≤ _ → _) ∧ (_ ∧ _ → _ = true)))

end

/-! ## Searches -/

/-- Every lookup in progress has a search that is not done, but for the one of the key that is just
being started; and no two entries are of the same key. -/
structure InStep (starting : Option Id) (w : World) : Prop where
  keys : (w.dtn.lookuptable.map DhtEntry.md).Nodup
  runs : ∀ entry ∈ w.dtn.lookuptable, entry.status.inProgress = true →
    some entry.md ≠ starting → w.runs entry.md = true

variable {lib : Platform} {ctx : Context} {starting starting' : Option Id} {w w' : World} {key : Id}

theorem runs_iff : w.runs key = true ↔ ∃ hd ∈ w.heads, hd.id = key ∧ hd.done = false := by
  simp only [runs, List.any_eq_true, SearchHead.isRunning, SearchHead.isFor, Bool.and_eq_true,
    decide_eq_true_eq, Bool.not_eq_true']

theorem runs_of_heads (h : w'.heads = w.heads) (key : Id) : w'.runs key = w.runs key := by
  rw [runs, runs, h]

theorem InStep.of_eq (h : InStep starting w) (hheads : w'.heads = w.heads)
    (htable : w'.dtn.lookuptable = w.dtn.lookuptable) : InStep starting w' := by
  refine ⟨htable ▸ h.keys, fun entry hin hp hne => ?_⟩
  rw [runs_of_heads hheads]
  exact h.runs entry (htable ▸ hin) hp hne

theorem InStep.neutral (h : InStep starting w) (hn : Neutral w w') : InStep starting w' :=
  h.of_eq hn.heads hn.lookuptable

/-- The lookup that is being started has a search. -/
theorem InStep.of_runs (h : InStep (some key) w) (hruns : w.runs key = true) : InStep none w := by
  refine ⟨h.keys, fun entry hin hp _ => ?_⟩
  by_cases hk : entry.md = key
  · rwa [hk]
  · exact h.runs entry hin hp fun heq => hk (Option.some_inj.mp heq)

theorem InStep.allRun (h : InStep none w) : w.NotStuck :=
  fun entry hin hp => h.runs entry hin hp (Option.some_ne_none _)

theorem inProgress_finish (status : LookupStatus) : status.finish.inProgress = false := by
  cases status <;> rfl

theorem map_md_searchDone (d : Dtn) (id : Id) :
    (d.searchDone id).lookuptable.map DhtEntry.md = d.lookuptable.map DhtEntry.md :=
  map_md_modifyEntry fun _ => rfl

/-- A search for `id` is started or stepped, and may end; then the lookup of `id` is not in progress
any more. -/
theorem InStep.of_search (h : InStep starting w) {id : Id} {fin : Bool}
    (hstart : starting' = starting ∨ starting = some id)
    (htable : w'.dtn.lookuptable =
      if fin then (w.dtn.searchDone id).lookuptable else w.dtn.lookuptable)
    (hother : ∀ key, key ≠ id → w.runs key = true → w'.runs key = true)
    (hself : fin = false → w'.runs id = true) : InStep starting' w' := by
  have hne {entry : DhtEntry} (hid : entry.md ≠ id) (hs : some entry.md ≠ starting') :
      some entry.md ≠ starting := by
    rcases hstart with rfl | rfl
    · exact hs
    · exact fun heq => hid (Option.some_inj.mp heq)
  cases fin with
  | false =>
    rw [if_neg Bool.false_ne_true] at htable
    refine ⟨htable ▸ h.keys, fun entry hin hp hs => ?_⟩
    by_cases hid : entry.md = id
    · rw [hid]
      exact hself rfl
    · exact hother _ hid (h.runs entry (htable ▸ hin) hp (hne hid hs))
  | true =>
    rw [if_pos rfl] at htable
    constructor
    · rw [htable, map_md_searchDone]
      exact h.keys
    · intro entry hin hp hs
      rw [htable] at hin
      rcases mem_modifyEntry h.keys hin with ⟨hin, hid⟩ | ⟨old, -, -, rfl⟩
      · exact hother _ hid (h.runs entry hin hp (hne hid hs))
      · rw [inProgress_finish] at hp
        exact absurd hp Bool.false_ne_true

/-- A step of a search that is not done. -/
theorem InStep.searchStep (h : InStep starting w) {i : ℕ} {sr : Search}
    (hi : w.searches[i]? = some sr) (hdone : sr.done = false) :
    InStep starting (w.searchStep i) := by
  obtain ⟨t, fin, hst⟩ := searchStep_spec hi
  have hi' : w.heads[i]? = some sr.head := by rw [World.heads, List.getElem?_map, hi]; rfl
  have hheads := hst.heads
  rw [hdone, Bool.false_or] at hheads
  refine h.of_search (Or.inl rfl) hst.lookuptable (fun key hne hruns => ?_) fun hfin => ?_
  · obtain ⟨hd, hin, hid, hd'⟩ := runs_iff.mp hruns
    obtain ⟨j, hj⟩ := List.getElem?_of_mem hin
    have hij : i ≠ j := by
      rintro rfl
      obtain rfl := Option.some_inj.mp (hi'.symm.trans hj)
      exact hne hid.symm
    refine runs_iff.mpr ⟨hd, ?_, hid, hd'⟩
    rw [hheads]
    exact List.mem_of_getElem? (by rw [List.getElem?_set_ne hij, hj])
  · refine runs_iff.mpr ⟨{ sr.head with stepTime := t, done := fin }, ?_, rfl, hfin⟩
    rw [hheads]
    exact List.mem_set (List.getElem?_eq_some_iff.mp hi').1 _

/-- `dht_search`, whether it fails or not. -/
theorem InStep.dhtSearch (h : InStep starting w) (id : Id) (port : UInt16) (af : ℕ) :
    InStep starting (w.dhtSearch id port af).2 ∧
      (w.canSearch id af = true → starting = some id →
        InStep none (w.dhtSearch id port af).2) := by
  rcases dhtSearch_cases w id port af with
    ⟨hcan, -, hc⟩ | ⟨i, hs, tid, _, _, t, fin, -, -, ht, hst, -⟩
  · refine ⟨h.of_eq hc.heads hc.lookuptable, fun h => ?_⟩
    rw [hcan] at h
    exact absurd h Bool.false_ne_true
  · obtain ⟨pre, old, post, hheads, hheads', hold⟩ := hst.replaces ht
    have hother (key : Id) (hne : key ≠ id) (hruns : w.runs key = true) :
        (w.dhtSearch id port af).2.runs key = true := by
      obtain ⟨hd, hin, hid, hdone⟩ := runs_iff.mp hruns
      refine runs_iff.mpr ⟨hd, ?_, hid, hdone⟩
      have hnot : hd ∉ old := fun hin => by
        rcases hold with ⟨hd', rfl, hid', -⟩ | ⟨hall, -⟩
        · obtain rfl := List.mem_singleton.mp hin
          exact hne (hid.symm.trans hid')
        · rw [hall hd hin] at hdone
          exact Bool.false_ne_true hdone.symm
      rw [hheads, List.mem_append, List.mem_append] at hin
      rw [hheads', List.mem_append, List.mem_cons]
      tauto
    have hself (hfin : fin = false) : (w.dhtSearch id port af).2.runs id = true := by
      refine runs_iff.mpr ⟨⟨tid, af, t, id, port, fin⟩, ?_, rfl, hfin⟩
      rw [hheads']
      exact List.mem_append_right _ List.mem_cons_self
    exact ⟨h.of_search (Or.inl rfl) hst.lookuptable hother hself,
      fun _ hs => h.of_search (Or.inr hs) hst.lookuptable hother hself⟩

variable (ctx) in
theorem InStep.dtnDhtSearch (h : InStep starting w) (id : Id) (port : UInt16) :
    InStep starting (w.dtnDhtSearch ctx id port).2 := by
  have h4 := (h.dhtSearch id port afInet).1
  unfold World.dtnDhtSearch
  cases ctx.type with
  | bindnone => exact h
  | ipv4only => exact h4
  | ipv6only => exact (h.dhtSearch id port afInet6).1
  | bindboth =>
    dsimp only
    split_ifs
    · exact h4
    · exact (h4.dhtSearch id port afInet6).1

/-- If the first `dht_search` does not fail, the lookup has a search or has ended. -/
theorem InStep.dtnDhtSearch_of_canSearch (h : InStep (some key) w) (port : UInt16)
    (hcan : (families ctx).head?.any (w.canSearch key) = true) :
    InStep none (w.dtnDhtSearch ctx key port).2 := by
  unfold families at hcan
  unfold World.dtnDhtSearch
  cases htype : ctx.type with
  | bindnone => simp [htype] at hcan
  | ipv4only => exact (h.dhtSearch key port afInet).2 (by simpa [htype] using hcan) rfl
  | ipv6only => exact (h.dhtSearch key port afInet6).2 (by simpa [htype] using hcan) rfl
  | bindboth =>
    have h4 := (h.dhtSearch key port afInet).2 (by simpa [htype] using hcan) rfl
    dsimp only
    split_ifs
    · exact h4
    · exact (h4.dhtSearch key port afInet6).1

/-- `dtn_dht_search` leaves the entries in their places. -/
theorem map_md_dhtSearch (w : World) (id : Id) (port : UInt16) (af : ℕ) :
    (w.dhtSearch id port af).2.dtn.lookuptable.map DhtEntry.md =
      w.dtn.lookuptable.map DhtEntry.md := by
  rcases dhtSearch_cases w id port af with ⟨-, -, hc⟩ | ⟨_, _, _, _, _, _, fin, -, -, -, hst, -⟩
  · rw [hc.lookuptable]
  · rw [hst.lookuptable]
    cases fin with
    | false => rfl
    | true => exact map_md_searchDone w.dtn id

variable (ctx) in
theorem map_md_dtnDhtSearch (w : World) (id : Id) (port : UInt16) :
    (w.dtnDhtSearch ctx id port).2.dtn.lookuptable.map DhtEntry.md =
      w.dtn.lookuptable.map DhtEntry.md := by
  have h4 := map_md_dhtSearch w id port afInet
  unfold World.dtnDhtSearch
  cases ctx.type with
  | bindnone => rfl
  | ipv4only => exact h4
  | ipv6only => exact map_md_dhtSearch w id port afInet6
  | bindboth =>
    dsimp only
    split_ifs
    · exact h4
    · exact (map_md_dhtSearch _ id port afInet6).trans h4

/-! ## Calls -/

/-- A lookup that starts a search unless the EID is announced or a search is there. -/
theorem InStep.startLookup (h : InStep (some key) w) (hfinds : w.findsSearch ctx key = true) :
    InStep none (w.startLookup ctx key).2 := by
  unfold World.startLookup
  rw [findsSearch, Bool.or_eq_true, Bool.and_eq_true, Bool.not_eq_true'] at hfinds
  have hemit : InStep (some key) (w.emit [.lookupStart key]) := h.of_eq rfl rfl
  split_ifs with hann
  · refine h.of_runs (hfinds.resolve_right fun hc => ?_)
    rw [hann] at hc
    exact Bool.false_ne_true hc.1.symm
  · rcases hfinds with hruns | ⟨-, hcan⟩
    · exact (hemit.of_runs hruns).dtnDhtSearch ctx key 0
    · exact hemit.dtnDhtSearch_of_canSearch 0 hcan

/-- The entry of a lookup that is being started is written to. -/
theorem InStep.modifyLookup (h : InStep none w) {f : DhtEntry → DhtEntry}
    (hf : ∀ entry, (f entry).md = entry.md) : InStep (some key) (w.modifyLookup key f) := by
  refine ⟨?_, fun entry hin hp hs => ?_⟩
  · unfold World.modifyLookup
    rw [map_md_modifyEntry hf]
    exact h.keys
  · rcases mem_modifyEntry h.keys hin with ⟨hin, -⟩ | ⟨old, -, hold, rfl⟩
    · exact h.runs entry hin hp (Option.some_ne_none _)
    · exact absurd (congrArg some ((hf old).trans hold)) hs

/-- The entry of a lookup that is being started is made. -/
theorem InStep.addToList (h : InStep none w)
    (hnone : getFromList key w.dtn.lookuptable = none) :
    InStep (some key) (w.withLookups (addToList key w.dtn.lookuptable w.env.clock)) := by
  refine ⟨List.nodup_cons.mpr ⟨fun hin => ?_, h.keys⟩, fun entry hin hp hs => ?_⟩
  · obtain ⟨entry, hin, hk⟩ := List.mem_map.mp hin
    exact getFromList_eq_none.mp hnone entry hin hk
  · rcases List.mem_cons.mp hin with rfl | hin
    · exact absurd rfl hs
    · exact h.runs entry hin hp (Option.some_ne_none _)

theorem inProgress_iff {status : LookupStatus} :
    status.inProgress = true ↔ status = .searching ∨ status = .repeatSearch := by
  simp [LookupStatus.inProgress]

theorem InStep.dtnDhtLookup (h : InStep none w) {eid : Bytes}
    (hc : w.LookupInStep lib.sha1 ctx eid) :
    InStep none (w.dtnDhtLookup lib.sha1 ctx eid).2 := by
  have hready := h.neutral (neutral_readyForWork ctx w)
  unfold LookupInStep at hc
  unfold World.dtnDhtLookup
  generalize w.readyForWork ctx = out at hready hc
  obtain ⟨ready, w1⟩ := out
  dsimp only at hready hc ⊢
  have hset : InStep none (w1.setMinimumRating ctx) := hready.of_eq rfl rfl
  split_ifs with h0
  · exact hready
  · replace hc := hc.resolve_left h0
    split
    · rename_i hnone
      refine (hset.addToList hnone).startLookup (hc.resolve_right fun hany => ?_)
      have hnone' : getFromList (eidKey lib.sha1 eid) w1.dtn.lookuptable = none := hnone
      rw [hnone'] at hany
      exact Bool.false_ne_true hany
    · rename_i entry hsome
      obtain ⟨hin, hkey⟩ := getFromList_eq_some hsome
      split_ifs with hp
      · have hruns := hset.runs entry hin (inProgress_iff.mpr hp) (Option.some_ne_none _)
        rw [hkey] at hruns
        refine InStep.of_runs (hset.modifyLookup ?_) hruns
        exact fun _ => rfl
      · have htime : InStep none (w1.setMinimumRating ctx).time.2 := hset.of_eq rfl rfl
        refine InStep.startLookup (htime.modifyLookup ?_) (hc.resolve_right fun hany => hp ?_)
        · exact fun _ => rfl
        have hsome' : getFromList (eidKey lib.sha1 eid) w1.dtn.lookuptable = some entry := hsome
        rw [hsome', Option.any_some] at hany
        exact inProgress_iff.mp hany

theorem InStep.dtnDhtAnnounce (h : InStep none w) (sha1 : Bytes → Bytes) (eid : Bytes)
    (type : LookupType) : InStep none (w.dtnDhtAnnounce sha1 ctx eid type).2 := by
  unfold World.dtnDhtAnnounce
  dsimp only
  split
  · generalize hw1 : World.modifyAnnouncement _ _ _ = w1
    have h1 : InStep none w1 := h.of_eq (hw1 ▸ rfl) (hw1 ▸ rfl)
    have hready := h1.neutral (neutral_readyForWork ctx w1)
    generalize w1.readyForWork ctx = out at hready
    obtain ⟨ready, w2⟩ := out
    dsimp only at hready ⊢
    split_ifs
    · exact hready.of_eq rfl rfl
    · exact hready.dtnDhtSearch ctx _ _
  · exact h.of_eq rfl rfl

theorem InStep.reannounceEntry (h : InStep none w) (i : ℕ) :
    InStep none (w.reannounceEntry ctx i) := by
  have htime : InStep none w.time.2 := h.of_eq rfl rfl
  unfold World.reannounceEntry
  dsimp only
  split
  · exact htime
  · rename_i pos _
    have hs : InStep none (w.time.2.dtnDhtSearch ctx pos.md ctx.port).2 :=
      htime.dtnDhtSearch ctx pos.md ctx.port
    generalize w.time.2.dtnDhtSearch ctx pos.md ctx.port = out at hs
    split_ifs
    · exact hs
    · exact hs.of_eq rfl rfl
    · exact htime

/-- `relookupList` marks the entry of a lookup whose search is not done. -/
theorem InStep.relooked (h : InStep none w) (hruns : w.runs key = true) {i : ℕ}
    (hi : ∀ entry, w.dtn.lookuptable[i]? = some entry → entry.md = key) {f : DhtEntry → DhtEntry}
    (hf : ∀ entry, (f entry).md = entry.md) (clock : Clock) :
    InStep none (w.withLookups (w.dtn.lookuptable.modify i f, clock)) := by
  refine ⟨?_, fun entry hin hp _ => ?_⟩
  · unfold withLookups
    rw [List.map_modify_of_eq fun entry _ => hf entry]
    exact h.keys
  · obtain ⟨j, hj⟩ := List.getElem?_of_mem hin
    unfold withLookups at hj
    rw [List.getElem?_modify] at hj
    obtain ⟨old, hold, rfl⟩ := Option.map_eq_some_iff.mp hj
    by_cases hij : i = j
    · subst hij
      rw [if_pos rfl] at hp ⊢
      rw [hf, hi old hold]
      exact hruns
    · rw [if_neg hij] at hp ⊢
      exact h.runs old (List.mem_of_getElem? hold) hp (Option.some_ne_none _)

/-- A turn of `relookupList`. -/
theorem InStep.relookupEntry (h : InStep none w) {i : ℕ} (hi : w.relooksInStep ctx i = true) :
    InStep none (w.relookupEntry ctx i) := by
  unfold World.relookupEntry
  split
  · exact h
  · rename_i pos hpos
    rw [relooksInStep, hpos, Option.all_some] at hi
    have hemit : InStep none (w.emit [.lookupStart pos.md]) := h.of_eq rfl rfl
    have hs := hemit.dtnDhtSearch ctx pos.md 0
    have hmd := map_md_dtnDhtSearch ctx (w.emit [.lookupStart pos.md]) pos.md 0
    generalize (w.emit [.lookupStart pos.md]).dtnDhtSearch ctx pos.md 0 = out at hi hs hmd
    dsimp only at hi ⊢
    split_ifs with hst hrc
    · exact hs
    · have hruns : out.2.runs pos.md = true := by
        simpa [hst, hrc] using hi
      have htime : InStep none out.2.time.2 := hs.of_eq rfl rfl
      refine htime.relooked hruns (fun entry hentry => ?_) ?_ _
      · have hentry' : out.2.dtn.lookuptable[i]? = some entry := hentry
        have hpos' : (w.emit [.lookupStart pos.md]).dtn.lookuptable[i]? = some pos := hpos
        have hk := congrArg (·[i]?) hmd
        simp only [List.getElem?_map, hentry', hpos', Option.map_some] at hk
        exact Option.some_inj.mp hk
      · exact fun _ => rfl
    · exact h

theorem InStep.cleanUp (h : InStep none w) (threshold : ℤ) (clock : Clock) :
    InStep none (w.withLookups (cleanUpList w.dtn.lookuptable threshold clock)) := by
  have hsub := (cleanUpList_suffix w.dtn.lookuptable threshold clock).sublist
  exact ⟨(hsub.map _).nodup h.keys, fun entry hin => h.runs entry (hsub.mem hin)⟩

theorem InStep.maintainLists (h : InStep none w) {dg : Option Datagram}
    (hc : w.PeriodicInStep ctx dg) : InStep none (w.maintainLists ctx) := by
  have hset : InStep none (w.setMinimumRating ctx) := h.of_eq rfl rfl
  have hready := hset.neutral (neutral_readyForWork ctx (w.setMinimumRating ctx))
  have hturn := hc.1
  unfold World.maintainLists
  generalize (w.setMinimumRating ctx).readyForWork ctx = out at hready hturn
  obtain ⟨ready, w1⟩ := out
  have hre : InStep none (w1.reannounceList ctx) :=
    List.foldlRecOn _ _ hready fun _ h i _ => h.reannounceEntry i
  have hlists :
      InStep none (if 2 ≤ ready then (w1.reannounceList ctx).relookupList ctx else w1) := by
    split_ifs with h2
    · exact (hturn h2).foldl (fun _ i hi h => h.relookupEntry hi) hre
    · exact hready
  exact (hlists.cleanUp lookupThreshold _).of_eq rfl rfl

/-- Purging leaves every lookup in progress a search that is not done. -/
theorem InStep.expire (h : InStep none w) (hp : w.purgesInStep = true) : InStep none w.expire := by
  refine ⟨h.keys, fun entry hin hprogress _ => ?_⟩
  have hentry := List.all_eq_true.mp hp entry hin
  rw [hprogress, Bool.not_true, Bool.false_or] at hentry
  obtain ⟨hd, hin, hd'⟩ := List.any_eq_true.mp hentry
  rw [Bool.and_eq_true, decide_eq_true_iff] at hd'
  refine List.any_eq_true.mpr ⟨hd, ?_, hd'.1⟩
  rw [heads_expire, List.mem_filter, Bool.not_eq_true', decide_eq_false_iff_not]
  exact ⟨hin, by omega⟩

theorem InStep.doDue (h : InStep none w)
    (hp : w.expireStuffTime ≤ w.now → w.purgesInStep = true) : InStep none w.doDue := by
  refine doDue_of_steps (fun _ _ hn h => InStep.neutral h hn)
    (fun _ _ _ hi hdone h => InStep.searchStep h hi hdone) (fun hle w' hn hnow h => ?_) h
  refine InStep.expire h ?_
  have hsame : w'.purgesInStep = w.purgesInStep := by
    rw [purgesInStep, purgesInStep, hn.lookuptable, hn.heads, hnow]
  rw [hsame]
  exact hp hle

theorem InStep.dhtPeriodic (h : InStep none w) (clayer : List ConvergenceLayer)
    {dg : Option Datagram} (hp : w.gettimeofday.doesDue dg = true ∧
      w.gettimeofday.expireStuffTime ≤ w.gettimeofday.now →
        w.gettimeofday.purgesInStep = true) : InStep none (w.dhtPeriodic lib clayer dg).2 := by
  have hnow : InStep none w.gettimeofday := h.of_eq rfl rfl
  unfold World.dhtPeriodic
  cases dg with
  | none => exact hnow.doDue fun hle => hp ⟨rfl, hle⟩
  | some dg =>
    rw [doesDue, Option.all_some, Bool.or_eq_true] at hp
    dsimp only
    split_ifs with hi ht
    · exact hnow.doDue fun hle => hp ⟨Or.inl hi, hle⟩
    · exact hnow
    · rw [Bool.not_eq_true, Bool.not_eq_false'] at ht
      have hs := stable_receive lib clayer w.gettimeofday dg
      refine (hnow.neutral hs.neutral).doDue fun hle => ?_
      have hsame : (w.gettimeofday.receive lib clayer dg).purgesInStep =
          w.gettimeofday.purgesInStep := by
        rw [purgesInStep, purgesInStep, hs.lookuptable, hs.heads, hs.now]
      rw [hsame]
      rw [hs.expireStuffTime, hs.now] at hle
      exact hp ⟨Or.inr ht, hle⟩

theorem InStep.call {c : ApiCall} (h : InStep none w) (hc : w.CallInStep lib.sha1 ctx c) :
    InStep none (w.call lib ctx c) := by
  cases c with
  | lookup eid => exact h.dtnDhtLookup hc
  | announce eid type => exact h.dtnDhtAnnounce lib.sha1 eid type
  | deannounce eid => exact h.of_eq rfl rfl
  | periodic dg => exact (h.maintainLists hc).dhtPeriodic ctx.clayer hc.2

/-- **No lookup is stuck in a run of calls that keep step.** -/
theorem notStuck {env : Env} {id : Id} {past : List ApiCall}
    (h : Runs.EachStep (World.call lib ctx) (CallInStep lib.sha1 ctx)
      ((World.initial env).dtnDhtInit ctx id) past) :
    (((World.initial env).dtnDhtInit ctx id).calls lib ctx past).NotStuck := by
  have hinit : InStep none ((World.initial env).dtnDhtInit ctx id) :=
    ⟨List.nodup_nil, fun _ hin => absurd hin List.not_mem_nil⟩
  exact (h.foldr (fun _ _ hc hs => hs.call hc) hinit).allRun

/-! ## A lookup of an EID that is announced -/

/-- A node without neighbours announces an EID, meets eight nodes and looks the EID up. -/
def lookUpAnnounced : List ApiCall :=
  .lookup (str "dtn:a") :: (meetNodes ++ [.announce (str "dtn:a") .singleton])

/-- The lookup is in progress, and there is no search. -/
theorem notStuck_announced :
    ¬ (((World.initial (Env.still 1000)).dtnDhtInit ipv4Context (Id.ofBytes [1])).calls
      samplePlatform ipv4Context lookUpAnnounced).NotStuck := by
  decide +kernel

/-- An EID that is not announced is looked up twice. -/
theorem notStuck_lookUp :
    (((World.initial (Env.still 1000)).dtnDhtInit ipv4Context (Id.ofBytes [1])).calls
      samplePlatform ipv4Context
      (.periodic none :: .lookup (str "dtn:a") :: .lookup (str "dtn:a") :: meetNodes)).NotStuck :=
  notStuck (by decide +kernel)

end World

end DtnDht
