import DtnDht.Api
import DtnDht.Lib.Runs

/-!
# Lookups and announcements of the same EID

A lookup and an announcement of the same EID share one search per family. `dht_search` sets the
port of that search, so that a lookup started while an announcement is under way would end the
announcement. `dtn_dht_lookup` therefore starts no search for an EID that is announced;
`relookupList` does not look. A run cancels no announcement as long as no turn of `relookupList`
finds an announced EID with an announcement under way (`neverCancels`).
-/

namespace DtnDht

open CString

/-- A search started without a port stops an announcement that is under way. -/
def SearchStart.cancels (start : SearchStart) : Bool :=
  start.announced && start.port == 0 && start.before.any fun sr => !sr.done && sr.port != 0

namespace World

/-- An announcement of the id is under way: it is announced, and a search for it has a port and is
not done. -/
def announcing (w : World) (id : Id) : Bool :=
  w.announced id && w.heads.any fun h => h.id == id && !h.done && h.port != 0

/-- Entry `i` of the table of lookups is to be looked up again while an announcement of its id is
under way. -/
def relooksAnnouncing (w : World) (i : ℕ) : Bool :=
  w.dtn.lookuptable[i]?.any fun pos =>
    pos.status = .doneAndReadyForRepeat && w.announcing pos.md

/-- The state in which `dtn_dht_periodic` calls `relookupList`, if it does. -/
def beforeRelookupList (ctx : Context) (w : World) : ApiCall → Option World
  | .periodic _ =>
    let (ready, w) := (w.setMinimumRating ctx).readyForWork ctx
    if 2 ≤ ready then some (w.reannounceList ctx) else none
  | _ => none

/-- No turn of `relookupList` in the call is for an entry whose id has an announcement under way. -/
def RelooksFreely (ctx : Context) (w : World) (c : ApiCall) : Prop :=
  ∀ w' ∈ w.beforeRelookupList ctx c,
    Runs.EachTurn (relookupEntry ctx) (fun w i => w.relooksAnnouncing i = false) w'
      (List.range w'.dtn.lookuptable.length)

instance (ctx : Context) (w : World) (c : ApiCall) : Decidable (w.RelooksFreely ctx c) :=
  inferInstanceAs (Decidable (∀ w' ∈ w.beforeRelookupList ctx c, _))

/-- The searches started since `w` have cancelled no announcement. -/
def NotCancelled (w w' : World) : Prop :=
  ∃ starts, w'.starts = w.starts ++ starts ∧ ∀ start ∈ starts, start.cancels = false

/-- A run of calls, the latest first, cancels no announcement. -/
def NeverCancels (lib : Platform) (ctx : Context) (w : World) (past : List ApiCall) : Prop :=
  NotCancelled w (w.calls lib ctx past)

variable {lib : Platform} {ctx : Context} {w w' w'' : World}

/-! ## Starting a search -/

theorem NotCancelled.refl (w : World) : NotCancelled w w :=
  ⟨[], (List.append_nil _).symm, fun _ h => absurd h List.not_mem_nil⟩

theorem NotCancelled.trans (h : NotCancelled w w') (h' : NotCancelled w' w'') :
    NotCancelled w w'' := by
  obtain ⟨starts, hs, hall⟩ := h
  obtain ⟨starts', hs', hall'⟩ := h'
  refine ⟨starts ++ starts', by rw [hs', hs, List.append_assoc], fun start hin => ?_⟩
  rcases List.mem_append.mp hin with hin | hin
  · exact hall start hin
  · exact hall' start hin

theorem NotCancelled.of_starts (h : w'.starts = w.starts) : NotCancelled w w' :=
  ⟨[], by rw [h, List.append_nil], fun _ h => absurd h List.not_mem_nil⟩

/-- The searches after `dht_search` are the ones before and the one it starts. -/
theorem mem_heads_dhtSearch {id : Id} {port : UInt16} {af : ℕ} {h : SearchHead}
    (hin : h ∈ (w.dhtSearch id port af).2.heads) :
    h ∈ w.heads ∨ (h.id = id ∧ h.af = af ∧ h.port = port) := by
  rcases dhtSearch_cases w id port af with ⟨-, -, hc⟩ | ⟨i, hs, tid, _, _, t, fin, -, -, ht, hst, -⟩
  · rw [hc.heads] at hin
    exact Or.inl hin
  · rw [hst.heads] at hin
    have hset {hs : List SearchHead} (hin : h ∈ hs.set i ⟨tid, af, t, id, port, fin⟩) :
        h ∈ hs ∨ (h.id = id ∧ h.af = af ∧ h.port = port) := by
      rcases List.mem_or_eq_of_mem_set hin with hin | rfl
      · exact Or.inl hin
      · exact Or.inr ⟨rfl, rfl, rfl⟩
    cases ht with
    | old _ _ => exact hset hin
    | new _ hnew =>
      rcases newSearch_cases hnew with ⟨rfl, -⟩ | ⟨rfl, rfl, -⟩
      · exact hset hin
      · rw [List.map_cons, List.set_cons_zero, List.mem_cons] at hin
        rcases hin with rfl | hin
        · exact Or.inr ⟨rfl, rfl, rfl⟩
        · exact Or.inl hin

/-- `dht_search` without a port brings no announcement under way. -/
theorem announcing_dhtSearch {id : Id} (h : w.announcing id = false) (af : ℕ) :
    (w.dhtSearch id 0 af).2.announcing id = false := by
  have hkept := kept_dhtSearch w id 0 af
  unfold announcing announced at h ⊢
  rw [hkept.announcetable]
  rw [Bool.and_eq_false_iff, List.any_eq_false] at h ⊢
  refine h.imp_right fun h hd hin => ?_
  rcases mem_heads_dhtSearch hin with hin | ⟨-, -, hport⟩
  · exact h hd hin
  · simp [hport]

theorem Started.starts {id : Id} {port : UInt16} {af i : ℕ} {hs : List SearchHead} {tid : UInt16}
    {t : ℤ} {fin : Bool} (h : Started w w' id port af i hs tid t fin) :
    w'.starts = w.starts ++ [w.searchStart id port af] := by
  unfold World.starts
  rw [h.marks, List.filterMap_append]
  cases fin <;> rfl

theorem starts_dhtSearch (w : World) (id : Id) (port : UInt16) (af : ℕ) :
    (w.dhtSearch id port af).2.starts = w.starts ∨
      (w.dhtSearch id port af).2.starts = w.starts ++ [w.searchStart id port af] := by
  rcases dhtSearch_cases w id port af with ⟨-, -, hc⟩ | ⟨_, _, _, _, _, _, _, -, -, -, hst, -⟩
  · exact Or.inl hc.starts
  · exact Or.inr hst.starts

/-- A search cancels no announcement if it has a port or none is under way. -/
theorem cancels_searchStart {id : Id} {port : UInt16} (h : port = 0 → w.announcing id = false)
    (af : ℕ) : (w.searchStart id port af).cancels = false := by
  by_contra hc
  rw [Bool.not_eq_false, SearchStart.cancels, Bool.and_eq_true, Bool.and_eq_true, beq_iff_eq] at hc
  obtain ⟨⟨hann, hport⟩, hany⟩ := hc
  dsimp only [searchStart] at hann hport hany
  have hnot := h hport
  rw [announcing, hann, Bool.true_and, List.any_eq_false] at hnot
  cases hidx : w.findIdx id af with
  | none =>
    rw [hidx] at hany
    exact Bool.false_ne_true hany
  | some i =>
    obtain ⟨sr, hi, hid, -⟩ := findIdx_spec hidx
    rw [hidx, Option.bind_some, hi, Option.any_some] at hany
    refine hnot sr.head (List.mem_map_of_mem (List.mem_of_getElem? hi)) ?_
    have hhead : sr.head.id = id := hid
    rw [hhead, beq_self_eq_true, Bool.true_and]
    exact hany

theorem notCancelled_dhtSearch {id : Id} {port : UInt16}
    (h : port = 0 → w.announcing id = false) (af : ℕ) :
    NotCancelled w (w.dhtSearch id port af).2 := by
  rcases starts_dhtSearch w id port af with hs | hs
  · exact NotCancelled.of_starts hs
  · refine ⟨_, hs, fun start hin => ?_⟩
    obtain rfl := List.mem_singleton.mp hin
    exact cancels_searchStart h af

/-- `dtn_dht_search` on one family or both. -/
theorem notCancelled_dtnDhtSearch {id : Id} {port : UInt16}
    (h : port = 0 → w.announcing id = false) :
    NotCancelled w (w.dtnDhtSearch ctx id port).2 := by
  have h4 := notCancelled_dhtSearch h afInet
  unfold dtnDhtSearch
  cases ctx.type with
  | bindnone => exact NotCancelled.refl w
  | ipv4only => exact h4
  | ipv6only => exact notCancelled_dhtSearch h afInet6
  | bindboth =>
    dsimp only
    split_ifs
    · exact h4
    · refine h4.trans (notCancelled_dhtSearch (fun hport => ?_) afInet6)
      subst hport
      exact announcing_dhtSearch (h rfl) afInet

/-! ## The calls -/

variable (ctx) in
theorem starts_readyForWork (w : World) : (w.readyForWork ctx).2.starts = w.starts := by
  have h := (neutral_readyForWork ctx w).marks
  unfold starts
  rw [h]

theorem starts_emit_lookupStart (w : World) (key : Id) :
    (w.emit [.lookupStart key]).starts = w.starts := by
  unfold emit starts marks
  rw [List.filter_append, List.filterMap_append]
  exact List.append_nil _

/-- An EID that is announced is not looked up. -/
theorem notCancelled_startLookup (w : World) (key : Id) :
    NotCancelled w (w.startLookup ctx key).2 := by
  unfold startLookup
  split_ifs with hann
  · exact NotCancelled.refl w
  · refine (NotCancelled.of_starts (starts_emit_lookupStart w key)).trans
      (notCancelled_dtnDhtSearch fun _ => ?_)
    have ha : (w.emit [.lookupStart key]).announced key = false := Bool.not_eq_true _ ▸ hann
    rw [announcing, ha, Bool.false_and]

theorem notCancelled_dtnDhtLookup (sha1 : Bytes → Bytes) (w : World) (eid : Bytes) :
    NotCancelled w (w.dtnDhtLookup sha1 ctx eid).2 := by
  have hready := NotCancelled.of_starts (starts_readyForWork ctx w)
  unfold dtnDhtLookup
  generalize w.readyForWork ctx = out at hready
  obtain ⟨ready, w1⟩ := out
  refine hready.trans ?_
  dsimp only
  split_ifs
  · exact NotCancelled.refl w1
  · split
    · exact (NotCancelled.of_starts rfl).trans (notCancelled_startLookup _ _)
    · split_ifs
      · exact NotCancelled.of_starts rfl
      · exact (NotCancelled.of_starts rfl).trans (notCancelled_startLookup _ _)

theorem notCancelled_dtnDhtAnnounce (sha1 : Bytes → Bytes) (w : World) (eid : Bytes)
    (type : LookupType) : NotCancelled w (w.dtnDhtAnnounce sha1 ctx eid type).2 := by
  unfold dtnDhtAnnounce
  dsimp only
  split
  · rename_i heq
    generalize hw1 : World.modifyAnnouncement _ _ _ = w1
    have h1 : NotCancelled w w1 := NotCancelled.of_starts (hw1 ▸ rfl)
    have hready := NotCancelled.of_starts (starts_readyForWork ctx w1)
    generalize w1.readyForWork ctx = out at hready
    obtain ⟨ready, w2⟩ := out
    refine h1.trans (hready.trans ?_)
    dsimp only
    split_ifs
    · exact NotCancelled.of_starts rfl
    · exact notCancelled_dtnDhtSearch fun hport => absurd hport ctx.port_ne
  · exact NotCancelled.of_starts rfl

/-- Announcements are repeated with a port. -/
theorem notCancelled_reannounceEntry (w : World) (i : ℕ) :
    NotCancelled w (w.reannounceEntry ctx i) := by
  unfold reannounceEntry
  dsimp only
  refine (NotCancelled.of_starts rfl : NotCancelled w w.time.2).trans ?_
  split
  · exact NotCancelled.refl _
  · rename_i pos _
    split_ifs
    · exact notCancelled_dtnDhtSearch fun hport => absurd hport ctx.port_ne
    · exact (notCancelled_dtnDhtSearch fun hport => absurd hport ctx.port_ne).trans
        (NotCancelled.of_starts rfl)
    · exact NotCancelled.refl _

variable (ctx) in
theorem notCancelled_reannounceList (w : World) : NotCancelled w (w.reannounceList ctx) :=
  List.foldlRecOn _ _ (NotCancelled.refl w) fun _ h i _ =>
    h.trans (notCancelled_reannounceEntry _ i)

/-- The turn of `relookupList` for an entry whose id has no announcement under way. -/
theorem notCancelled_relookupEntry {i : ℕ} (h : w.relooksAnnouncing i = false) :
    NotCancelled w (w.relookupEntry ctx i) := by
  unfold relookupEntry
  split
  · exact NotCancelled.refl w
  · rename_i pos hpos
    split_ifs with hst
    · have hann : w.announcing pos.md = false := by
        rw [relooksAnnouncing, hpos, Option.any_some, decide_eq_true hst, Bool.true_and] at h
        exact h
      have hs : NotCancelled w ((w.emit [.lookupStart pos.md]).dtnDhtSearch ctx pos.md 0).2 :=
        (NotCancelled.of_starts (starts_emit_lookupStart w pos.md)).trans
          (notCancelled_dtnDhtSearch fun _ => hann)
      dsimp only
      split_ifs
      · exact hs
      · exact hs.trans (NotCancelled.of_starts rfl)
    · exact NotCancelled.refl w

theorem notCancelled_maintainLists {dg : Option Datagram} (h : w.RelooksFreely ctx (.periodic dg)) :
    NotCancelled w (w.maintainLists ctx) := by
  have hready : NotCancelled w ((w.setMinimumRating ctx).readyForWork ctx).2 :=
    NotCancelled.of_starts (starts_readyForWork ctx (w.setMinimumRating ctx))
  unfold RelooksFreely beforeRelookupList at h
  unfold maintainLists
  generalize (w.setMinimumRating ctx).readyForWork ctx = out at h hready
  obtain ⟨ready, w1⟩ := out
  dsimp only at h ⊢
  refine NotCancelled.trans ?_ (NotCancelled.of_starts rfl)
  split_ifs with h2
  · have hre := notCancelled_reannounceList ctx w1
    refine (hready.trans hre).trans ?_
    rw [if_pos h2] at h
    exact (h _ rfl).foldl (fun _ i hi hs => hs.trans (notCancelled_relookupEntry hi))
      (NotCancelled.refl _)
  · exact hready

/-- `dht_periodic` starts no search. -/
theorem starts_dhtPeriodic (lib : Platform) (clayer : List ConvergenceLayer) (w : World)
    (dg : Option Datagram) : (w.dhtPeriodic lib clayer dg).2.starts = w.starts := by
  have hdue (w : World) : w.doDue.starts = w.starts := (quiet_doDue w).starts
  unfold dhtPeriodic
  cases dg with
  | none => exact hdue _
  | some dg =>
    dsimp only
    split_ifs
    · exact hdue _
    · rfl
    · exact (hdue _).trans (stable_receive lib clayer _ dg).starts

theorem notCancelled_call {c : ApiCall} (h : w.RelooksFreely ctx c) :
    NotCancelled w (w.call lib ctx c) := by
  cases c with
  | lookup eid => exact notCancelled_dtnDhtLookup lib.sha1 w eid
  | announce eid type => exact notCancelled_dtnDhtAnnounce lib.sha1 w eid type
  | deannounce eid => exact NotCancelled.of_starts rfl
  | periodic dg =>
    exact (notCancelled_maintainLists h).trans
      (NotCancelled.of_starts (starts_dhtPeriodic lib ctx.clayer _ dg))

/-- **A run whose lookups are repeated freely cancels no announcement.** -/
theorem neverCancels {past : List ApiCall}
    (h : Runs.EachStep (call lib ctx) (RelooksFreely ctx) w past) : NeverCancels lib ctx w past :=
  h.foldr (fun _ _ hc hs => hs.trans (notCancelled_call hc)) (NotCancelled.refl w)

/-! ## A lookup repeated while the EID is announced again -/

/-- Eight nodes are met, then the EID is announced and looked up twice. -/
def announceAndLookUp : List ApiCall :=
  .lookup (str "dtn:a") :: .lookup (str "dtn:a") :: .announce (str "dtn:a") .singleton ::
    meetNodes

/-- 601 seconds later `dtn_dht_periodic` is called. The IPv6 search of the announcement it repeats
ends at once, which makes the lookup ready to be repeated. -/
def announcedAgain : World :=
  (World.initial { Env.still 1000 with clock := fun k => if k < 11 then 1000 else 1601 }).dtnDhtInit
    bothContext (Id.ofBytes [1])

/-- The repeated lookup cancels the announcement that `reannounceList` has just started. -/
theorem neverCancels_announcedAgain :
    (∀ eid, .deannounce eid ∉ ApiCall.periodic none :: announceAndLookUp) ∧
      ¬ NeverCancels samplePlatform bothContext announcedAgain
        (.periodic none :: announceAndLookUp) := by
  have hany : (announcedAgain.calls samplePlatform bothContext
      (.periodic none :: announceAndLookUp)).starts.any SearchStart.cancels = true := by
    decide +kernel
  refine ⟨fun eid => by simp [announceAndLookUp, meetNodes], ?_⟩
  rintro ⟨starts, hs, hall⟩
  obtain ⟨start, hin, hc⟩ := List.any_eq_true.mp hany
  have hnone : announcedAgain.starts = [] := rfl
  rw [hs, hnone, List.nil_append] at hin
  rw [hall start hin] at hc
  exact Bool.false_ne_true hc

/-- Without the wait no lookup is repeated. -/
theorem neverCancels_atOnce :
    NeverCancels samplePlatform bothContext
      ((World.initial (Env.still 1000)).dtnDhtInit bothContext (Id.ofBytes [1]))
      (.periodic none :: announceAndLookUp) :=
  neverCancels (by decide +kernel)

end World

end DtnDht
