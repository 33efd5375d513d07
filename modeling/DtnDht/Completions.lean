import DtnDht.Api

/-!
# Completions

When a search ends, the application is told (`dtn_dht_operation_done`). A lookup is to be told of
once. But on both families a lookup starts two searches, and each of them tells of its end; and so
does a later announcement of the EID. A lookup is told of once if all searches for its key are in
one family and none is started after it has ended (`oneCompletion`).
-/

namespace DtnDht

open CString

/-- Is this a call of `dtn_dht_operation_done` for the key? -/
def Output.isDone (key : Id) : Output → Bool
  | .operationDone infoHash => infoHash = key
  | _ => false

/-- Is this the start of a lookup of the key? -/
def Output.startsLookup (key : Id) : Output → Bool
  | .lookupStart key' => key' = key
  | _ => false

theorem Output.eq_of_startsLookup {key : Id} {out : Output} (h : out.startsLookup key = true) :
    out = .lookupStart key := by
  cases out with
  | lookupStart key' => rw [of_decide_eq_true h]
  | request | reply | lookupResult | operationDone | searchStart =>
    exact absurd h Bool.false_ne_true

/-- The search that is started, if one is. -/
def Output.searchStart? : Output → Option SearchStart
  | .searchStart start => some start
  | _ => none

/-- What happened since the latest start of a lookup of the key. -/
def Since (key : Id) (marks since : List Output) : Prop :=
  ∃ earlier, marks = earlier ++ .lookupStart key :: since ∧ .lookupStart key ∉ since

/-- At no time has a lookup of the key been told of twice since its start. -/
def OneCompletion (key : Id) (marks : List Output) : Prop :=
  ∀ past later since, marks = past ++ later → Since key past since →
    since.countP (Output.isDone key) ≤ 1

/-- Searches for the key are in one family, and none is started between the end of a lookup and the
start of the next. -/
structure OneSearch (key : Id) (af : ℕ) (marks : List Output) : Prop where
  family : ∀ start, .searchStart start ∈ marks → start.id = key → start.af = af
  ended : ∀ past start later since, marks = past ++ .searchStart start :: later →
    start.id = key → Since key past since → .operationDone key ∉ since

/-! ## What happened since -/

section

variable {key : Id} {af : ℕ} {marks since : List Output} {out : Output}

theorem not_since_nil : ¬ Since key [] since := by
  rintro ⟨earlier, h, -⟩
  exact absurd h (by simp)

/-- One more thing happens. -/
theorem since_append_singleton (h : Since key (marks ++ [out]) since) :
    (out = .lookupStart key ∧ since = []) ∨
      ∃ before, Since key marks before ∧ since = before ++ [out] := by
  obtain ⟨earlier, heq, hnot⟩ := h
  rcases List.eq_nil_or_concat since with rfl | ⟨before, last, rfl⟩
  · obtain ⟨-, hlast⟩ := List.append_inj' heq rfl
    exact Or.inl ⟨(List.cons.inj hlast).1, rfl⟩
  · rw [List.concat_eq_append, ← List.cons_append, ← List.append_assoc] at heq
    obtain ⟨hmarks, hlast⟩ := List.append_inj' heq rfl
    obtain rfl := (List.cons.inj hlast).1
    rw [List.concat_eq_append] at hnot ⊢
    exact Or.inr ⟨before, ⟨earlier, hmarks, fun hin => hnot (List.mem_append_left _ hin)⟩, rfl⟩

theorem OneCompletion.append_singleton (h : OneCompletion key marks)
    (hlast : ∀ since, Since key (marks ++ [out]) since → since.countP (Output.isDone key) ≤ 1) :
    OneCompletion key (marks ++ [out]) := by
  intro past later since heq hs
  rcases List.eq_nil_or_concat later with rfl | ⟨before, last, rfl⟩
  · rw [List.append_nil] at heq
    exact hlast since (heq ▸ hs)
  · rw [List.concat_eq_append, ← List.append_assoc] at heq
    obtain ⟨hmarks, -⟩ := List.append_inj' heq rfl
    exact h past before since hmarks hs

theorem OneSearch.of_append {more : List Output} (h : OneSearch key af (marks ++ more)) :
    OneSearch key af marks where
  family start hin := h.family start (List.mem_append_left _ hin)
  ended past start later since heq := h.ended past start (later ++ more) since (by rw [heq]; simp)

/-- No search is started after the first one for the key has ended. -/
theorem OneSearch.of_dropWhile
    (hfamily : ∀ start ∈ marks.filterMap Output.searchStart?, start.af = af)
    (hended : (marks.dropWhile fun out => !out.isDone key).filterMap Output.searchStart? = []) :
    OneSearch key af marks where
  family start hin _ := hfamily start (List.mem_filterMap.mpr ⟨_, hin, rfl⟩)
  ended past start later since heq _ hs hdone := by
    obtain ⟨earlier, hpast, -⟩ := hs
    have hin : .operationDone key ∈ past := by
      rw [hpast]
      exact List.mem_append_right _ (List.mem_cons_of_mem _ hdone)
    rw [heq, List.dropWhile_append] at hended
    have hne : (past.dropWhile fun out => !out.isDone key).isEmpty = false := by
      rw [List.isEmpty_eq_false_iff, ne_eq, List.dropWhile_eq_nil_iff]
      intro hall
      have := hall _ hin
      simp [Output.isDone] at this
    rw [hne, if_neg Bool.false_ne_true, List.filterMap_append] at hended
    exact absurd (List.append_eq_nil_iff.mp hended).2 (by simp [Output.searchStart?])

/-- No call of `dtn_dht_operation_done` is counted where none is. -/
theorem countP_isDone_eq_zero (h : .operationDone key ∉ since) :
    since.countP (Output.isDone key) = 0 := by
  rw [List.countP_eq_zero]
  intro out hin hdone
  cases out with
  | operationDone infoHash =>
    obtain rfl : infoHash = key := of_decide_eq_true hdone
    exact h hin
  | request | reply | lookupResult | searchStart | lookupStart => exact Bool.false_ne_true hdone

end

namespace World

/-! ## What the calls keep -/

/-- A property of the searches and of what has happened to them that all steps keep. -/
structure SearchInvariant (ctx : Context) (p : World → Prop) : Prop where
  of_eq : ∀ w w', w'.heads = w.heads → w'.marks = w.marks → p w → p w'
  step : ∀ w i sr, w.searches[i]? = some sr → sr.done = false → p w → p (w.searchStep i)
  expire : ∀ w, p w → p w.expire
  search : ∀ w id port, ∀ af ∈ families ctx, p w → p (w.dhtSearch id port af).2
  lookupStart : ∀ w key, p w → p (w.emit [.lookupStart key])

namespace SearchInvariant

variable {lib : Platform} {ctx : Context} {p : World → Prop} {w : World}

theorem neutral (hp : SearchInvariant ctx p) {w' : World} (h : Neutral w w') (hw : p w) : p w' :=
  hp.of_eq w w' h.heads h.marks hw

theorem dtnDhtSearch (hp : SearchInvariant ctx p) (id : Id) (port : UInt16) (hw : p w) :
    p (w.dtnDhtSearch ctx id port).2 := by
  have hsearch := hp.search
  unfold families at hsearch
  unfold World.dtnDhtSearch
  cases htype : ctx.type with
  | bindnone => exact hw
  | ipv4only => exact hsearch w id port afInet (by simp [htype]) hw
  | ipv6only => exact hsearch w id port afInet6 (by simp [htype]) hw
  | bindboth =>
    have h4 := hsearch w id port afInet (by simp [htype]) hw
    dsimp only
    split_ifs
    · exact h4
    · exact hsearch _ id port afInet6 (by simp [htype]) h4

theorem startLookup (hp : SearchInvariant ctx p) (key : Id) (hw : p w) :
    p (w.startLookup ctx key).2 := by
  unfold World.startLookup
  split_ifs
  · exact hw
  · exact hp.dtnDhtSearch key 0 (hp.lookupStart w key hw)

theorem dtnDhtLookup (hp : SearchInvariant ctx p) (sha1 : Bytes → Bytes) (eid : Bytes) (hw : p w) :
    p (w.dtnDhtLookup sha1 ctx eid).2 := by
  have hready := hp.neutral (neutral_readyForWork ctx w) hw
  unfold World.dtnDhtLookup
  generalize w.readyForWork ctx = out at hready
  obtain ⟨ready, w1⟩ := out
  dsimp only at hready ⊢
  split_ifs
  · exact hready
  · split
    · exact hp.startLookup _ (hp.of_eq w1 _ rfl rfl hready)
    · split_ifs
      · exact hp.of_eq w1 _ rfl rfl hready
      · exact hp.startLookup _ (hp.of_eq w1 _ rfl rfl hready)

theorem dtnDhtAnnounce (hp : SearchInvariant ctx p) (sha1 : Bytes → Bytes) (eid : Bytes)
    (type : LookupType) (hw : p w) : p (w.dtnDhtAnnounce sha1 ctx eid type).2 := by
  unfold World.dtnDhtAnnounce
  dsimp only
  split
  · generalize hw1 : World.modifyAnnouncement _ _ _ = w1
    have h1 : p w1 := hp.of_eq w w1 (hw1 ▸ rfl) (hw1 ▸ rfl) hw
    have hready := hp.neutral (neutral_readyForWork ctx w1) h1
    generalize w1.readyForWork ctx = out at hready
    obtain ⟨ready, w2⟩ := out
    dsimp only at hready ⊢
    split_ifs
    · exact hp.of_eq w2 _ rfl rfl hready
    · exact hp.dtnDhtSearch _ _ hready
  · exact hp.of_eq w _ rfl rfl hw

theorem reannounceEntry (hp : SearchInvariant ctx p) (i : ℕ) (hw : p w) :
    p (w.reannounceEntry ctx i) := by
  have htime : p w.time.2 := hp.of_eq w _ rfl rfl hw
  unfold World.reannounceEntry
  dsimp only
  split
  · exact htime
  · rename_i pos _
    have hs := hp.dtnDhtSearch pos.md ctx.port htime
    generalize w.time.2.dtnDhtSearch ctx pos.md ctx.port = out at hs
    split_ifs
    · exact hs
    · exact hp.of_eq out.2 _ rfl rfl hs
    · exact htime

theorem relookupEntry (hp : SearchInvariant ctx p) (i : ℕ) (hw : p w) :
    p (w.relookupEntry ctx i) := by
  unfold World.relookupEntry
  split
  · exact hw
  · rename_i pos _
    have hs := hp.dtnDhtSearch pos.md 0 (hp.lookupStart w pos.md hw)
    generalize (w.emit [.lookupStart pos.md]).dtnDhtSearch ctx pos.md 0 = out at hs
    dsimp only
    split_ifs
    · exact hs
    · exact hp.of_eq out.2 _ rfl rfl hs
    · exact hw

theorem maintainLists (hp : SearchInvariant ctx p) (hw : p w) : p (w.maintainLists ctx) := by
  have hready : p ((w.setMinimumRating ctx).readyForWork ctx).2 :=
    hp.neutral (neutral_readyForWork ctx (w.setMinimumRating ctx)) (hp.of_eq w _ rfl rfl hw)
  unfold World.maintainLists
  generalize (w.setMinimumRating ctx).readyForWork ctx = out at hready
  obtain ⟨ready, w1⟩ := out
  have hlists : p ((w1.reannounceList ctx).relookupList ctx) :=
    List.foldlRecOn _ _ (List.foldlRecOn _ _ hready fun _ h i _ => hp.reannounceEntry i h)
      fun _ h i _ => hp.relookupEntry i h
  dsimp only at hready ⊢
  split_ifs
  · exact hp.of_eq ((w1.reannounceList ctx).relookupList ctx) _ rfl rfl hlists
  · exact hp.of_eq w1 _ rfl rfl hready

theorem doDue (hp : SearchInvariant ctx p) (hw : p w) : p w.doDue :=
  doDue_of_steps (fun _ _ hn => hp.neutral hn) hp.step (fun _ w' _ _ h => hp.expire w' h) hw

theorem dhtPeriodic (hp : SearchInvariant ctx p) (dg : Option Datagram) (hw : p w) :
    p (w.dhtPeriodic lib ctx.clayer dg).2 := by
  have hnow : p w.gettimeofday := hp.of_eq w _ rfl rfl hw
  unfold World.dhtPeriodic
  cases dg with
  | none => exact hp.doDue hnow
  | some dg =>
    dsimp only
    split_ifs
    · exact hp.doDue hnow
    · exact hnow
    · exact hp.doDue (hp.neutral (stable_receive lib ctx.clayer _ dg).neutral hnow)

theorem call (hp : SearchInvariant ctx p) (c : ApiCall) (hw : p w) : p (w.call lib ctx c) := by
  cases c with
  | lookup eid => exact hp.dtnDhtLookup lib.sha1 eid hw
  | announce eid type => exact hp.dtnDhtAnnounce lib.sha1 eid type hw
  | deannounce eid => exact hp.of_eq w _ rfl rfl hw
  | periodic dg => exact hp.dhtPeriodic dg (hp.maintainLists hw)

/-- What all steps keep is kept by every run. -/
theorem calls (hp : SearchInvariant ctx p) (past : List ApiCall) (hw : p w) :
    p (w.calls lib ctx past) := by
  induction past with
  | nil => exact hw
  | cons c past ih => exact hp.call c ih

end SearchInvariant

/-! ## One search, one completion -/

/-- There is at most one search for the key, and since the start of a lookup it runs or has ended
once. -/
structure Once (key : Id) (af : ℕ) (w : World) : Prop where
  one : OneCompletion key w.marks
  family : ∀ hd ∈ w.heads, hd.id = key → hd.af = af
  single : w.heads.countP (SearchHead.isFor key) ≤ 1
  running : ∀ since, Since key w.marks since →
    w.heads.countP (SearchHead.isRunning key) + since.countP (Output.isDone key) ≤ 1

/-- As long as the searches for the key are in one family and none is started after the end. -/
def OnceIf (key : Id) (af : ℕ) (w : World) : Prop := OneSearch key af w.marks → Once key af w

variable {key : Id} {af : ℕ} {w w' : World}

theorem countP_isRunning_le (key : Id) (hs : List SearchHead) :
    hs.countP (SearchHead.isRunning key) ≤ hs.countP (SearchHead.isFor key) :=
  List.countP_mono_left fun _ _ h => (Bool.and_eq_true_iff.mp h).1

theorem Once.of_eq (h : Once key af w) (hheads : w'.heads = w.heads) (hmarks : w'.marks = w.marks) :
    Once key af w' :=
  ⟨hmarks ▸ h.one, hheads ▸ h.family, hheads ▸ h.single, by rw [hheads, hmarks]; exact h.running⟩

/-- A mark that neither starts nor ends a lookup of the key. -/
theorem Once.mark (h : Once key af w) {out : Output} (hheads : w'.heads = w.heads)
    (hmarks : w'.marks = w.marks ++ [out]) (hstart : out ≠ .lookupStart key)
    (hdone : out.isDone key = false) : Once key af w' := by
  have hrunning (since : List Output) (hs : Since key (w.marks ++ [out]) since) :
      w.heads.countP (SearchHead.isRunning key) + since.countP (Output.isDone key) ≤ 1 := by
    rcases since_append_singleton hs with ⟨hout, -⟩ | ⟨before, hb, rfl⟩
    · exact absurd hout hstart
    · rw [List.countP_append, List.countP_singleton, hdone]
      exact h.running before hb
  refine ⟨?_, hheads ▸ h.family, hheads ▸ h.single, by rwa [hheads, hmarks]⟩
  rw [hmarks]
  exact h.one.append_singleton fun since hs => (Nat.le_add_left _ _).trans (hrunning since hs)

/-- The searches change, and at most one of them ends. -/
theorem Once.of_ended (h : Once key af w) {id : Id} {fin : Bool}
    (hmarks : w'.marks = w.marks ++ if fin then [.operationDone id] else [])
    (hfamily : ∀ hd ∈ w'.heads, hd.id = key → hd.af = af)
    (hsingle : w'.heads.countP (SearchHead.isFor key) ≤ 1)
    (hrunning : ∀ since, Since key w.marks since →
      w'.heads.countP (SearchHead.isRunning key) + since.countP (Output.isDone key) +
        (if fin ∧ id = key then 1 else 0) ≤ 1) : Once key af w' := by
  cases fin with
  | false =>
    rw [if_neg Bool.false_ne_true, List.append_nil] at hmarks
    refine ⟨hmarks ▸ h.one, hfamily, hsingle, fun since hs => ?_⟩
    exact (Nat.le_add_right _ _).trans (hrunning since (hmarks ▸ hs))
  | true =>
    rw [if_pos rfl] at hmarks
    have hcount (since : List Output) (hs : Since key w'.marks since) :
        w'.heads.countP (SearchHead.isRunning key) + since.countP (Output.isDone key) ≤ 1 := by
      rw [hmarks] at hs
      rcases since_append_singleton hs with ⟨hout, -⟩ | ⟨before, hb, rfl⟩
      · exact absurd hout (by simp)
      · have hle := hrunning before hb
        simp only [true_and] at hle
        rw [List.countP_append, List.countP_singleton, ← Nat.add_assoc]
        simpa only [Output.isDone, decide_eq_true_iff] using hle
    refine ⟨?_, hfamily, hsingle, hcount⟩
    rw [hmarks] at hcount ⊢
    exact h.one.append_singleton fun since hs => (Nat.le_add_left _ _).trans (hcount since hs)

/-- A step of a search that is not done. -/
theorem Once.searchStep (h : Once key af w) {i : ℕ} {sr : Search} (hi : w.searches[i]? = some sr)
    (hdone : sr.done = false) : Once key af (w.searchStep i) := by
  obtain ⟨t, fin, hst⟩ := searchStep_spec hi
  have hi' : w.heads[i]? = some sr.head := by rw [World.heads, List.getElem?_map, hi]; rfl
  obtain ⟨hlt, heq⟩ := List.getElem?_eq_some_iff.mp hi'
  have hin : sr.head ∈ w.heads := List.mem_of_getElem? hi'
  have hheads := hst.heads
  rw [hdone, Bool.false_or] at hheads
  refine h.of_ended hst.marks ?_ ?_ fun since hs => ?_
  · rw [hheads]
    intro hd hmem hid
    rcases List.mem_or_eq_of_mem_set hmem with hmem | rfl
    · exact h.family hd hmem hid
    · exact h.family sr.head hin hid
  · rw [hheads, List.countP_set hlt, heq]
    have hfor : SearchHead.isFor key { sr.head with stepTime := t, done := fin } =
        SearchHead.isFor key sr.head := rfl
    have hpos (hk : SearchHead.isFor key sr.head = true) :
        0 < w.heads.countP (SearchHead.isFor key) := List.countP_pos_iff.mpr ⟨_, hin, hk⟩
    have hsingle := h.single
    rw [hfor]
    split_ifs with hk
    · have := hpos hk
      omega
    · omega
  · have hle := h.running since hs
    have hrun : SearchHead.isRunning key sr.head = SearchHead.isFor key sr.head := by
      have : sr.head.done = false := hdone
      rw [SearchHead.isRunning, this, Bool.not_false, Bool.and_true]
    have hnew : SearchHead.isRunning key { sr.head with stepTime := t, done := fin } =
        (SearchHead.isFor key sr.head && !fin) := rfl
    have hpos (hk : SearchHead.isFor key sr.head = true) :
        0 < w.heads.countP (SearchHead.isRunning key) :=
      List.countP_pos_iff.mpr ⟨_, hin, hrun.trans hk⟩
    rw [hheads, List.countP_set hlt, heq, hrun, hnew]
    by_cases hid : sr.id = key
    · have hk : SearchHead.isFor key sr.head = true := decide_eq_true hid
      have := hpos hk
      cases fin <;> simp only [hk, hid, Bool.and_true, Bool.and_false, Bool.not_true, Bool.not_false,
        Bool.false_eq_true, if_true, if_false, true_and, false_and] <;> omega
    · have hk : SearchHead.isFor key sr.head = false := decide_eq_false hid
      simpa [hk, hid] using hle

/-- A search of another key. -/
theorem Once.search_of_ne (h : Once key af w) {id : Id} (hid : id ≠ key) (port : UInt16)
    (af' : ℕ) : Once key af (w.dhtSearch id port af').2 := by
  rcases dhtSearch_cases w id port af' with ⟨-, -, hc⟩ | ⟨i, hs, tid, _, _, t, fin, -, -, ht, hst, -⟩
  · exact h.of_eq hc.heads hc.marks
  · obtain ⟨pre, old, post, hheads, hheads', -⟩ := hst.replaces ht
    have hsub : (pre ++ post).Sublist w.heads := by
      rw [hheads]
      exact (List.sublist_append_left pre old).append_right post
    have hnew {p : SearchHead → Bool} (hp : p ⟨tid, af', t, id, port, fin⟩ = false) :
        (w.dhtSearch id port af').2.heads.countP p ≤ w.heads.countP p := by
      refine le_trans (le_of_eq ?_) (hsub.countP_le (p := p))
      rw [hheads', List.countP_append, List.countP_append, List.countP_cons_of_neg (by simp [hp])]
    have hfor : SearchHead.isFor key ⟨tid, af', t, id, port, fin⟩ = false := decide_eq_false hid
    have hmark : Once key af (w.emit [.searchStart (w.searchStart id port af')]) :=
      h.mark rfl (marks_emit_searchStart w _) (by simp) rfl
    have hmarks : (w.dhtSearch id port af').2.marks =
        (w.emit [.searchStart (w.searchStart id port af')]).marks ++
          if fin then [.operationDone id] else [] := by
      rw [hst.marks, marks_emit_searchStart, List.append_assoc]
      rfl
    refine hmark.of_ended hmarks ?_ ((hnew hfor).trans h.single) ?_
    · rw [hheads']
      intro hd hin hk
      rcases List.mem_append.mp hin with hin | hin
      · exact h.family hd (hsub.mem (List.mem_append_left _ hin)) hk
      · rcases List.mem_cons.mp hin with rfl | hin
        · exact absurd hk hid
        · exact h.family hd (hsub.mem (List.mem_append_right _ hin)) hk
    · intro since hsince
      have hrun : SearchHead.isRunning key ⟨tid, af', t, id, port, fin⟩ = false := by
        rw [SearchHead.isRunning, hfor, Bool.false_and]
      rw [if_neg fun hc => hid hc.2]
      exact (Nat.add_le_add_right (hnew hrun) _).trans (hmark.running since hsince)

/-- A search of the key, in its family, when no lookup has ended since its start. -/
theorem Once.search_self (h : Once key af w) (port : UInt16)
    (hended : ∀ since, Since key w.marks since → .operationDone key ∉ since) :
    Once key af (w.dhtSearch key port af).2 := by
  rcases dhtSearch_cases w key port af with ⟨-, -, hc⟩ | ⟨i, hs, tid, _, _, t, fin, -, -, ht, hst, -⟩
  · exact h.of_eq hc.heads hc.marks
  · obtain ⟨pre, old, post, hheads, hheads', hold⟩ := hst.replaces ht
    -- all other searches are of other keys
    have hothers : pre.countP (SearchHead.isFor key) + post.countP (SearchHead.isFor key) = 0 := by
      have hsingle := h.single
      rw [hheads, List.countP_append, List.countP_append] at hsingle
      rcases hold with ⟨hd, rfl, hid, -⟩ | ⟨-, hnone⟩
      · have hk : SearchHead.isFor key hd = true := decide_eq_true hid
        rw [List.countP_singleton, if_pos hk] at hsingle
        omega
      · have hzero : w.heads.countP (SearchHead.isFor key) = 0 := by
          rw [List.countP_eq_zero]
          intro hd hin hk
          have hid : hd.id = key := of_decide_eq_true hk
          exact hnone hd hin ⟨hid, h.family hd hin hid⟩
        rw [hheads, List.countP_append, List.countP_append] at hzero
        omega
    have hrunning : pre.countP (SearchHead.isRunning key) +
        post.countP (SearchHead.isRunning key) = 0 := by
      have := countP_isRunning_le key pre
      have := countP_isRunning_le key post
      omega
    have hmark : Once key af (w.emit [.searchStart (w.searchStart key port af)]) :=
      h.mark rfl (marks_emit_searchStart w _) (by simp) rfl
    have hmarks : (w.dhtSearch key port af).2.marks =
        (w.emit [.searchStart (w.searchStart key port af)]).marks ++
          if fin then [.operationDone key] else [] := by
      rw [hst.marks, marks_emit_searchStart, List.append_assoc]
      rfl
    refine hmark.of_ended hmarks ?_ ?_ ?_
    · rw [hheads']
      intro hd hin hk
      have hmem {hd : SearchHead} (hin : hd ∈ pre ∨ hd ∈ post) : hd ∈ w.heads := by
        rw [hheads, List.mem_append, List.mem_append]
        tauto
      rcases List.mem_append.mp hin with hin | hin
      · exact h.family hd (hmem (Or.inl hin)) hk
      · rcases List.mem_cons.mp hin with rfl | hin
        · rfl
        · exact h.family hd (hmem (Or.inr hin)) hk
    · rw [hheads', List.countP_append, List.countP_cons]
      split_ifs <;> omega
    · intro since hsince
      rw [marks_emit_searchStart] at hsince
      rcases since_append_singleton hsince with ⟨hout, -⟩ | ⟨before, hb, rfl⟩
      · exact absurd hout (by simp)
      · have hself : SearchHead.isRunning key ⟨tid, af, t, key, port, fin⟩ = !fin := by
          simp [SearchHead.isRunning, SearchHead.isFor]
        rw [hheads', List.countP_append, List.countP_cons, List.countP_append,
          countP_isDone_eq_zero (hended before hb), hself]
        have hstart : List.countP (Output.isDone key)
            [.searchStart (w.searchStart key port af)] = 0 := rfl
        rw [hstart]
        cases fin <;> simp only [Bool.not_true, Bool.not_false, Bool.false_eq_true, if_true, if_false,
          true_and, false_and] <;> omega

/-- A lookup of the key is started. -/
theorem Once.lookupStart (h : Once key af w) (key' : Id) :
    Once key af (w.emit [.lookupStart key']) := by
  have hmarks : (w.emit [.lookupStart key']).marks = w.marks ++ [.lookupStart key'] := by
    unfold emit marks
    rw [List.filter_append]
    rfl
  by_cases hk : key' = key
  · subst hk
    have hrunning (since : List Output) (hs : Since key' (w.marks ++ [.lookupStart key']) since) :
        w.heads.countP (SearchHead.isRunning key') + since.countP (Output.isDone key') ≤ 1 := by
      rcases since_append_singleton hs with ⟨-, rfl⟩ | ⟨before, -, rfl⟩
      · exact (countP_isRunning_le _ w.heads).trans h.single
      · obtain ⟨_, -, hnot⟩ := hs
        exact absurd (List.mem_append_right _ (List.mem_singleton_self _)) hnot
    refine ⟨?_, h.family, h.single, by rwa [hmarks]⟩
    rw [hmarks]
    exact h.one.append_singleton fun since hs => (Nat.le_add_left _ _).trans (hrunning since hs)
  · exact h.mark rfl hmarks (fun heq => hk (Output.lookupStart.inj heq)) rfl

theorem searchInvariant_onceIf (ctx : Context) (key : Id) (af : ℕ) :
    SearchInvariant ctx (OnceIf key af) where
  of_eq w w' hheads hmarks h hc := (h (hmarks ▸ hc)).of_eq hheads hmarks
  step w i sr hi hdone h hc := by
    obtain ⟨t, fin, hst⟩ := searchStep_spec hi
    exact Once.searchStep (h (OneSearch.of_append (hst.marks ▸ hc))) hi hdone
  expire w h hc := by
    rw [marks_expire] at hc
    obtain ⟨hone, hfamily, hsingle, hrunning⟩ := h hc
    have hsub : w.expire.heads.Sublist w.heads := by
      rw [heads_expire]
      exact List.filter_sublist
    refine ⟨by rwa [marks_expire], fun hd hin => hfamily hd (hsub.mem hin),
      hsub.countP_le.trans hsingle, fun since hs => ?_⟩
    exact (Nat.add_le_add_right hsub.countP_le _).trans (hrunning since (marks_expire w ▸ hs))
  search w id port af' _ h hc := by
    rcases dhtSearch_cases w id port af' with ⟨-, -, hcalm⟩ | ⟨_, _, _, _, _, _, fin, -, -, -, hst, -⟩
    · exact (h (hcalm.marks ▸ hc)).of_eq hcalm.heads hcalm.marks
    · rw [hst.marks] at hc
      have honce := h hc.of_append
      by_cases hid : id = key
      · subst hid
        have haf : af' = af := hc.family (w.searchStart id port af') (by simp) rfl
        subst haf
        exact honce.search_self port fun since hs =>
          hc.ended w.marks (w.searchStart id port af') _ since rfl rfl hs
      · exact honce.search_of_ne hid port af'
  lookupStart w key' h hc := by
    unfold emit marks at hc
    rw [List.filter_append] at hc
    exact (h hc.of_append).lookupStart key'

/-- A property that all steps keep and that a node without searches has, holds in every run. -/
theorem SearchInvariant.run {lib : Platform} {ctx : Context} {p : World → Prop}
    (hp : SearchInvariant ctx p) (hinit : ∀ w, w.heads = [] → w.marks = [] → p w) (env : Env)
    (id : Id) (past : List ApiCall) :
    p (((World.initial env).dtnDhtInit ctx id).calls lib ctx past) :=
  hp.calls past (hinit _ rfl (calm_withRouting _ _).marks)

/-- **A lookup is told of once if all searches for its key are in one family and none is started
after it has ended.** -/
theorem oneCompletion {lib : Platform} {ctx : Context} {env : Env} {id : Id}
    {past : List ApiCall} {key : Id} {af : ℕ}
    (h : OneSearch key af (((World.initial env).dtnDhtInit ctx id).calls lib ctx past).marks) :
    OneCompletion key (((World.initial env).dtnDhtInit ctx id).calls lib ctx past).marks := by
  refine ((searchInvariant_onceIf ctx key af).run (fun w hheads hmarks _ => ?_) env id past h).one
  have hnot (since : List Output) : ¬ Since key w.marks since := hmarks ▸ not_since_nil
  refine ⟨fun past later since heq hs => ?_, by simp [hheads], by simp [hheads], fun since hs => ?_⟩
  · obtain ⟨rfl, -⟩ := List.append_eq_nil_iff.mp (heq.symm.trans hmarks)
    exact absurd hs not_since_nil
  · exact absurd hs (hnot since)

/-- On one family all searches are in it. -/
theorem family_of_type {lib : Platform} {ctx : Context} (htype : ctx.type ≠ .bindboth) (env : Env)
    (id : Id) (past : List ApiCall) :
    ∃ af, ∀ start, .searchStart start ∈
      (((World.initial env).dtnDhtInit ctx id).calls lib ctx past).marks → start.af = af := by
  obtain ⟨af, haf⟩ : ∃ af, ∀ af' ∈ families ctx, af' = af := by
    unfold families
    cases ht : ctx.type with
    | bindnone => exact ⟨afInet, by simp⟩
    | ipv4only => exact ⟨afInet, by simp⟩
    | ipv6only => exact ⟨afInet6, by simp⟩
    | bindboth => exact absurd ht htype
  have hp : SearchInvariant ctx fun w => ∀ start, .searchStart start ∈ w.marks → start.af = af := by
    constructor
    · intro w w' _ hmarks h
      rwa [hmarks]
    · intro w i sr hi _ h start hin
      obtain ⟨t, fin, hst⟩ := searchStep_spec hi
      rw [hst.marks] at hin
      rcases List.mem_append.mp hin with hin | hin
      · exact h start hin
      · cases fin <;> simp at hin
    · intro w h
      rwa [marks_expire]
    · intro w id' port af' haf' h start hin
      rcases dhtSearch_cases w id' port af' with ⟨-, -, hc⟩ | ⟨_, _, _, _, _, _, fin, -, -, -, hst, -⟩
      · exact h start (hc.marks ▸ hin)
      · rw [hst.marks] at hin
        rcases List.mem_append.mp hin with hin | hin
        · exact h start hin
        · rcases List.mem_cons.mp hin with heq | hin
          · obtain rfl := Output.searchStart.inj heq
            exact haf af' haf'
          · cases fin <;> simp at hin
    · intro w key h start hin
      unfold emit marks at hin
      rw [List.filter_append] at hin
      rcases List.mem_append.mp hin with hin | hin
      · exact h start hin
      · simp at hin
  exact ⟨af, hp.run (fun w _ hmarks start hin => by simp [hmarks] at hin) env id past⟩

/-! ## A lookup on both families -/

/-- A node whose clock goes on by 20 seconds with every call after it has met eight nodes. -/
def lookingUp (ctx : Context) : World :=
  (World.initial { Env.still 1000 with
    clock := fun k => if k < 11 then 1000 else 1000 + 20 * ((k - 9) / 2 : ℕ) }).dtnDhtInit ctx
      (Id.ofBytes [1])

/-- After it has met eight IPv4 nodes the node looks up an EID, and nobody answers. -/
def lookUp : List ApiCall :=
  List.replicate 9 (.periodic none) ++ .lookup (str "dtn:a") :: meetNodes

/-- The key of dtn:a. -/
def lookUpKey : Id := eidKey samplePlatform.sha1 (str "dtn:a")

/-- The IPv6 search ends at once and the IPv4 search after its nodes have been asked three times.
Both tell of their end. -/
theorem oneCompletion_bindboth : ¬ OneCompletion lookUpKey
    ((lookingUp bothContext).calls samplePlatform bothContext lookUp).marks := by
  have hmap : ((lookingUp bothContext).calls samplePlatform bothContext lookUp).marks.map
      (fun out => (out.startsLookup lookUpKey, out.isDone lookUpKey)) =
        [(true, false), (false, false), (false, false), (false, true), (false, true)] := by
    decide +kernel
  intro h
  obtain ⟨out, since, heq, hout, hsince⟩ := List.map_eq_cons_iff.mp hmap
  have hstart : out = .lookupStart lookUpKey :=
    Output.eq_of_startsLookup (congrArg Prod.fst hout)
  have hnot : .lookupStart lookUpKey ∉ since := fun hin => by
    have hmem := List.mem_map_of_mem
      (f := fun out => (out.startsLookup lookUpKey, out.isDone lookUpKey)) hin
    rw [hsince] at hmem
    simp [Output.startsLookup] at hmem
  have hle := h _ [] since (List.append_nil _).symm ⟨[], by rw [heq, hstart]; rfl, hnot⟩
  have hcount : since.countP (Output.isDone lookUpKey) =
      (since.map fun out => (out.startsLookup lookUpKey, out.isDone lookUpKey)).countP
        Prod.snd := by
    rw [List.countP_map]
    rfl
  rw [hcount, hsince] at hle
  simp at hle

/-- On IPv4 alone the same lookup is told of once. -/
theorem oneCompletion_ipv4only : OneCompletion lookUpKey
    ((lookingUp ipv4Context).calls samplePlatform ipv4Context lookUp).marks := by
  have h : OneSearch lookUpKey afInet
      ((lookingUp ipv4Context).calls samplePlatform ipv4Context lookUp).marks :=
    OneSearch.of_dropWhile (by decide +kernel) (by decide +kernel)
  exact oneCompletion h

end World

end DtnDht
