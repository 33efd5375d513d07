import DtnDht.BlacklistRing
import DtnDht.Cancels
import DtnDht.Progress

/-!
# Announcements are kept up

`cleanUpList` loses entries only when it deletes one, and it deletes no announcement that is on. So
as long as nothing is withdrawn, the table of announcements holds the hashes that were announced
since the start, and nothing else (`stands_after`). A `dtn_dht_periodic` of a node that is ready for
work then announces each of them again that was announced more than ten minutes ago
(`announcement_renewed`).
-/

namespace DtnDht

open CString

/-- Does the call withdraw an announcement? -/
def ProcessCall.withdraws : ProcessCall → Bool
  | .api _ _ (.deannounce _) => true
  | _ => false

/-- The hashes that are announced by some calls, the latest first. -/
def announcedHashes : List ProcessCall → List Id
  | [] => []
  | .api lib _ (.announce eid _) :: past => (announcedHashes past).insert (eidKey lib.sha1 eid)
  | _ :: past => announcedHashes past

/-! ## Tables whose entries are on -/

section

variable {table : List DhtEntry} {f : DhtEntry → DhtEntry}

theorem cleanUpFrom_of_announce {threshold : ℤ} (ht : 0 ≤ threshold) (head : List DhtEntry)
    (h : ∀ entry ∈ table, entry.announce = true) (clock : Clock) :
    (cleanUpFrom threshold head table clock).1 = head := by
  induction table generalizing clock with
  | nil => rfl
  | cons entry next ih =>
    have hkeep : ¬ (entry.updatetime + threshold < (time clock).1 ∧
        (entry.announce = false ∨ threshold < 0)) := by
      rintro ⟨-, hoff | hneg⟩
      · exact absurd (h entry List.mem_cons_self) (by rw [hoff]; exact Bool.false_ne_true)
      · omega
    unfold cleanUpFrom
    dsimp only
    rw [if_neg hkeep]
    exact ih (fun e he => h e (List.mem_cons_of_mem _ he)) _

theorem announce_modifyEntry {key : Id} (hf : ∀ entry, entry.announce = true →
    (f entry).announce = true) (h : ∀ entry ∈ table, entry.announce = true) :
    ∀ entry ∈ modifyEntry key f table, entry.announce = true := by
  induction table with
  | nil => exact h
  | cons entry next ih =>
    obtain ⟨hentry, hnext⟩ := List.forall_mem_cons.mp h
    unfold modifyEntry
    split_ifs
    · exact List.forall_mem_cons.mpr ⟨hf entry hentry, hnext⟩
    · exact List.forall_mem_cons.mpr ⟨hentry, ih hnext⟩

end

namespace World

/-- The table of announcements holds these keys, and all of them are on. -/
structure Stands (keys : List Id) (w : World) : Prop where
  keys_eq : w.dtn.announcetable.map DhtEntry.md = keys
  announce : ∀ entry ∈ w.dtn.announcetable, entry.announce = true

variable {ctx : Context} {keys : List Id} {w w' : World}

theorem Stands.of_eq (h : w.Stands keys) (heq : w'.dtn.announcetable = w.dtn.announcetable) :
    w'.Stands keys :=
  ⟨heq ▸ h.keys_eq, heq ▸ h.announce⟩

theorem Stands.kept (h : w.Stands keys) (hk : Kept w w') : w'.Stands keys :=
  h.of_eq hk.announcetable

theorem Stands.foldl {ι : Type*} {f : World → ι → World} (h : w.Stands keys) (is : List ι)
    (hf : ∀ w i, w.Stands keys → (f w i).Stands keys) : (is.foldl f w).Stands keys :=
  List.foldlRecOn is f h fun w hw i _ => hf w i hw

theorem Stands.modifyAnnouncement (h : w.Stands keys) {key : Id} {f : DhtEntry → DhtEntry}
    (hmd : ∀ entry, (f entry).md = entry.md)
    (hf : ∀ entry, entry.announce = true → (f entry).announce = true) :
    (w.modifyAnnouncement key f).Stands keys :=
  ⟨(map_md_modifyEntry hmd).trans h.keys_eq, announce_modifyEntry hf h.announce⟩

/-- A key of the table is announced. -/
theorem Stands.announced (h : w.Stands keys) {key : Id} (hkey : key ∈ keys) :
    ∃ entry, getFromList key w.dtn.announcetable = some entry ∧ entry.announce = true := by
  cases hget : getFromList key w.dtn.announcetable with
  | none =>
    rw [← h.keys_eq] at hkey
    obtain ⟨entry, hentry, hmd⟩ := List.mem_map.mp hkey
    exact absurd hmd (getFromList_eq_none.mp hget entry hentry)
  | some entry => exact ⟨entry, rfl, h.announce entry (getFromList_eq_some hget).1⟩

theorem Stands.modify (h : w.Stands keys) (i : ℕ) {f : DhtEntry → DhtEntry}
    (hmd : ∀ entry, (f entry).md = entry.md) (hf : ∀ entry, (f entry).announce = entry.announce)
    (clock : Clock) :
    (w.withAnnouncements (w.dtn.announcetable.modify i f, clock)).Stands keys :=
  ⟨(List.map_modify_of_eq fun entry _ => hmd entry).trans h.keys_eq,
    List.forall_mem_modify h.announce fun entry _ hon => (hf entry).trans hon⟩

/-! ## The calls -/

theorem Stands.reannounceEntry (h : w.Stands keys) (i : ℕ) :
    (w.reannounceEntry ctx i).Stands keys := by
  have htime : w.time.2.Stands keys := h.of_eq rfl
  unfold World.reannounceEntry
  generalize w.time = out at htime
  obtain ⟨acttime, w₁⟩ := out
  dsimp only
  split
  · exact htime
  · rename_i pos _
    have hsearch := htime.kept (kept_dtnDhtSearch ctx w₁ pos.md ctx.port)
    split_ifs
    · exact hsearch
    · have hnow : (w₁.dtnDhtSearch ctx pos.md ctx.port).2.time.2.Stands keys := hsearch.of_eq rfl
      refine hnow.modify i ?_ ?_ _
      · exact fun _ => rfl
      · exact fun _ => rfl
    · exact htime

theorem Stands.relookupEntry (h : w.Stands keys) (i : ℕ) :
    (w.relookupEntry ctx i).Stands keys := by
  unfold World.relookupEntry
  split
  · exact h
  · rename_i pos _
    have hemit : (w.emit [.lookupStart pos.md]).Stands keys := h.of_eq rfl
    have hsearch := hemit.kept (kept_dtnDhtSearch ctx _ pos.md 0)
    by_cases hrepeat : pos.status = .doneAndReadyForRepeat
    · rw [if_pos hrepeat]
      dsimp only
      split_ifs
      · exact hsearch
      · exact hsearch.of_eq rfl
    · rw [if_neg hrepeat]
      exact h

theorem Stands.cleanUpAnnouncements (h : w.Stands keys) : (w.withAnnouncements
    (cleanUpList w.dtn.announcetable lookupThreshold w.env.clock)).Stands keys :=
  h.of_eq (cleanUpFrom_of_announce (by decide) _ h.announce _)

theorem Stands.maintainLists (h : w.Stands keys) : (w.maintainLists ctx).Stands keys := by
  have hmin : (w.setMinimumRating ctx).Stands keys := h.of_eq rfl
  have hready := hmin.kept (kept_readyForWork ctx _)
  unfold World.maintainLists
  generalize (w.setMinimumRating ctx).readyForWork ctx = out at hready
  obtain ⟨ready, w₁⟩ := out
  dsimp only
  have hlists : (if 2 ≤ ready then (w₁.reannounceList ctx).relookupList ctx
      else w₁).Stands keys := by
    split_ifs
    · exact (hready.foldl _ fun _ i hw => hw.reannounceEntry i).foldl _
        fun _ i hw => hw.relookupEntry i
    · exact hready
  refine Stands.cleanUpAnnouncements ?_
  exact hlists.of_eq rfl

theorem Stands.dhtPeriodic (h : w.Stands keys) (lib : Platform) (clayer : List ConvergenceLayer)
    (dg : Option Datagram) : (w.dhtPeriodic lib clayer dg).2.Stands keys := by
  have htime : w.gettimeofday.Stands keys := h.of_eq rfl
  have hdue {w : World} (h : w.Stands keys) : w.doDue.Stands keys := h.kept (quiet_doDue w).toKept
  unfold World.dhtPeriodic
  cases dg with
  | none => exact hdue htime
  | some dg =>
    dsimp only
    split_ifs
    · exact hdue htime
    · exact htime
    · exact hdue (htime.of_eq (stable_receive lib clayer _ dg).announcetable)

theorem Stands.startLookup (h : w.Stands keys) (key : Id) :
    (w.startLookup ctx key).2.Stands keys := by
  have hemit : (w.emit [.lookupStart key]).Stands keys := h.of_eq rfl
  unfold World.startLookup
  split_ifs
  · exact h
  · exact hemit.kept (kept_dtnDhtSearch ctx _ key 0)

theorem Stands.dtnDhtLookup (h : w.Stands keys) (sha1 : Bytes → Bytes) (eid : Bytes) :
    (w.dtnDhtLookup sha1 ctx eid).2.Stands keys := by
  have hready := h.kept (kept_readyForWork ctx w)
  unfold World.dtnDhtLookup
  generalize w.readyForWork ctx = out at hready
  obtain ⟨ready, w₁⟩ := out
  dsimp only
  have hmin : (w₁.setMinimumRating ctx).Stands keys := hready.of_eq rfl
  generalize w₁.setMinimumRating ctx = w₂ at hmin
  split_ifs
  · exact hready
  · split
    · have hadd : (w₂.withLookups (addToList (eidKey sha1 eid) w₂.dtn.lookuptable
          w₂.env.clock)).Stands keys := hmin.of_eq rfl
      exact hadd.startLookup _
    · split_ifs
      · exact hmin.of_eq rfl
      · refine Stands.startLookup ?_ _
        exact hmin.of_eq rfl

/-- A key that is announced is put in front, unless it is in the table. -/
theorem Stands.dtnDhtAnnounce (h : w.Stands keys) (sha1 : Bytes → Bytes) (eid : Bytes)
    (type : LookupType) :
    (w.dtnDhtAnnounce sha1 ctx eid type).2.Stands (keys.insert (eidKey sha1 eid)) := by
  have hmin : Stands keys { w.setMinimumRating ctx with eids := w.eids.add eid type } :=
    h.of_eq rfl
  unfold World.dtnDhtAnnounce
  generalize ({ w.setMinimumRating ctx with eids := w.eids.add eid type } : World) = w₁ at hmin
  dsimp only
  cases hget : getFromList (eidKey sha1 eid) w₁.dtn.announcetable with
  | none =>
    have hnew : eidKey sha1 eid ∉ keys := by
      rw [← hmin.keys_eq]
      intro hin
      obtain ⟨entry, hentry, hmd⟩ := List.mem_map.mp hin
      exact getFromList_eq_none.mp hget entry hentry hmd
    rw [List.insert_of_not_mem hnew]
    dsimp only
    have hadd : ((w₁.withAnnouncements (addToList (eidKey sha1 eid) w₁.dtn.announcetable
        w₁.env.clock)).modifyAnnouncement (eidKey sha1 eid) fun entry =>
          { entry with announce := true }).Stands (eidKey sha1 eid :: keys) := by
      have hfirst : ((w₁.withAnnouncements (addToList (eidKey sha1 eid) w₁.dtn.announcetable
          w₁.env.clock)).modifyAnnouncement (eidKey sha1 eid) fun entry =>
            { entry with announce := true }).dtn.announcetable =
          ⟨eidKey sha1 eid, true, .searching, w₁.env.clock 0⟩ :: w₁.dtn.announcetable := by
        show modifyEntry _ _ (⟨eidKey sha1 eid, false, .searching, w₁.env.clock 0⟩ :: _) = _
        have hself : DhtEntry.isFor (eidKey sha1 eid)
            ⟨eidKey sha1 eid, false, .searching, w₁.env.clock 0⟩ = true := isFor_iff.mpr rfl
        unfold modifyEntry
        rw [if_pos hself]
      refine ⟨by rw [hfirst, List.map_cons, hmin.keys_eq], ?_⟩
      rw [hfirst]
      exact List.forall_mem_cons.mpr ⟨rfl, hmin.announce⟩
    have hready := hadd.kept (kept_readyForWork ctx _)
    generalize World.readyForWork ctx _ = out at hready
    obtain ⟨ready, w₂⟩ := out
    dsimp only
    split_ifs
    · exact hready.modifyAnnouncement (fun _ => rfl) fun _ hon => hon
    · exact hready.kept (kept_dtnDhtSearch ctx w₂ _ ctx.port)
  | some entry =>
    obtain ⟨hentry, hmd⟩ := getFromList_eq_some hget
    have hold : eidKey sha1 eid ∈ keys := hmin.keys_eq ▸ hmd ▸ List.mem_map_of_mem hentry
    rw [List.insert_of_mem hold]
    exact hmin.modifyAnnouncement (fun _ => rfl) fun _ _ => rfl

/-! ## Announcing again -/

/-- A step that starts a search for a hash on the families of a context. -/
def StartsSearch (ctx : Context) (id : Id) (port : UInt16) (w w' : World) : Prop :=
  ∃ new, w.starts ++ new <+: w'.starts ∧
    ∀ af ∈ families ctx, ∃ start ∈ new, start.id = id ∧ start.af = af ∧ start.port = port

theorem Spared.starts (h : Spared w w') : w.starts <+: w'.starts := by
  obtain ⟨later, hlater⟩ := h.marks
  unfold World.starts
  rw [← hlater, List.filterMap_append]
  exact List.prefix_append _ _

theorem StartsSearch.after {id : Id} {port : UInt16} (h : StartsSearch ctx id port w w')
    {w'' : World} (hs : w'.starts <+: w''.starts) : StartsSearch ctx id port w w'' := by
  obtain ⟨new, hnew, hall⟩ := h
  exact ⟨new, hnew.trans hs, hall⟩

theorem StartsSearch.since {id : Id} {port : UInt16} {w₀ : World} (hs : w₀.starts <+: w.starts)
    (h : StartsSearch ctx id port w w') : StartsSearch ctx id port w₀ w' := by
  obtain ⟨earlier, hearlier⟩ := hs
  obtain ⟨new, hnew, hall⟩ := h
  refine ⟨earlier ++ new, ?_, fun af haf => ?_⟩
  · rw [← List.append_assoc, hearlier]
    exact hnew
  · obtain ⟨start, hstart, hfor⟩ := hall af haf
    exact ⟨start, List.mem_append_right _ hstart, hfor⟩

/-- `dht_search` fails or starts a search. -/
theorem starts_of_dhtSearch (w : World) (id : Id) (port : UInt16) (af : ℕ)
    (h : ¬ (w.dhtSearch id port af).1 < 0) :
    (w.dhtSearch id port af).2.starts = w.starts ++ [w.searchStart id port af] := by
  rcases dhtSearch_cases w id port af with ⟨-, hrc, -⟩ | ⟨_, _, _, _, _, _, _, -, -, -, hst, -⟩
  · rw [hrc] at h
    exact absurd (by decide) h
  · exact hst.starts

/-- `dtn_dht_search` fails or starts a search on each family. -/
theorem startsSearch_dtnDhtSearch (w : World) (id : Id) (port : UInt16)
    (h : ¬ (w.dtnDhtSearch ctx id port).1 < 0) :
    StartsSearch ctx id port w (w.dtnDhtSearch ctx id port).2 := by
  have hone (af : ℕ) (hrc : ¬ (w.dhtSearch id port af).1 < 0) :
      ∃ new, w.starts ++ new <+: (w.dhtSearch id port af).2.starts ∧
        ∀ af' ∈ [af], ∃ start ∈ new, start.id = id ∧ start.af = af' ∧ start.port = port := by
    refine ⟨[w.searchStart id port af], ?_, fun af' haf' => ?_⟩
    · rw [starts_of_dhtSearch w id port af hrc]
    · exact ⟨_, List.mem_singleton_self _, rfl, (List.mem_singleton.mp haf').symm, rfl⟩
  unfold dtnDhtSearch at h ⊢
  unfold StartsSearch families
  cases htype : ctx.type with
  | bindnone => exact ⟨[], by rw [List.append_nil], fun _ haf => absurd haf List.not_mem_nil⟩
  | ipv4only =>
    rw [htype] at h
    exact hone afInet h
  | ipv6only =>
    rw [htype] at h
    exact hone afInet6 h
  | bindboth =>
    rw [htype] at h
    dsimp only at h ⊢
    by_cases h4 : (w.dhtSearch id port afInet).1 < 0
    · rw [if_pos h4] at h
      exact absurd h4 h
    · rw [if_neg h4] at h ⊢
      have hs := starts_of_dhtSearch w id port afInet h4
      have hs6 := starts_of_dhtSearch (w.dhtSearch id port afInet).2 id port afInet6 h
      refine ⟨[w.searchStart id port afInet,
        (w.dhtSearch id port afInet).2.searchStart id port afInet6], ?_, fun af haf => ?_⟩
      · rw [hs6, hs, List.append_assoc]
        exact List.prefix_refl _
      · rcases List.mem_pair.mp haf with rfl | rfl
        · exact ⟨_, List.mem_cons_self, rfl, rfl, rfl⟩
        · exact ⟨_, List.mem_cons_of_mem _ List.mem_cons_self, rfl, rfl, rfl⟩

variable (ctx) in
/-- The state when `reannounceList` has looked at some entries. -/
def reannounced (w : World) (n : ℕ) : World :=
  (List.range n).foldl (World.reannounceEntry ctx) w

variable (ctx) in
theorem reannounced_succ (w : World) (n : ℕ) :
    w.reannounced ctx (n + 1) = (w.reannounced ctx n).reannounceEntry ctx n := by
  unfold reannounced
  rw [List.range_succ, List.foldl_append]
  rfl

/-- An entry that is on was announced less than ten minutes ago, or it is announced again, if a
search can be started. -/
theorem reannounceEntry_renews {i : ℕ} {entry : DhtEntry}
    (hentry : w.dtn.announcetable[i]? = some entry) (hon : entry.announce = true) :
    w.env.clock 0 ≤ entry.updatetime + reannounceThreshold ∨
      (w.time.2.dtnDhtSearch ctx entry.md ctx.port).1 < 0 ∨
      StartsSearch ctx entry.md ctx.port w (w.reannounceEntry ctx i) := by
  have hentry' : w.time.2.dtn.announcetable[i]? = some entry := hentry
  by_cases hdue : entry.updatetime + reannounceThreshold < w.env.clock 0
  · by_cases hrc : (w.time.2.dtnDhtSearch ctx entry.md ctx.port).1 < 0
    · exact Or.inr (Or.inl hrc)
    · refine Or.inr (Or.inr ?_)
      have hsearch : StartsSearch ctx entry.md ctx.port w _ :=
        startsSearch_dtnDhtSearch w.time.2 entry.md ctx.port hrc
      have hdue' : entry.announce = true ∧ entry.updatetime + reannounceThreshold < w.time.1 :=
        ⟨hon, hdue⟩
      unfold World.reannounceEntry
      dsimp only
      rw [hentry']
      dsimp only
      rw [if_pos hdue', if_neg hrc]
      exact hsearch
  · exact Or.inl (not_lt.mp hdue)

/-- The turn of an entry leaves the others alone, and only reads the clock. -/
theorem reannounceEntry_frame (w : World) (i : ℕ) :
    (∀ j, j ≠ i → (w.reannounceEntry ctx i).dtn.announcetable[j]? = w.dtn.announcetable[j]?) ∧
      ∃ k, ∀ n, (w.reannounceEntry ctx i).env.clock n = w.env.clock (n + k) := by
  unfold World.reannounceEntry
  dsimp only
  split
  · exact ⟨fun _ _ => rfl, 1, fun _ => rfl⟩
  · rename_i pos _
    have hkept := kept_dtnDhtSearch ctx w.time.2 pos.md ctx.port
    split_ifs
    · exact ⟨fun j _ => by rw [hkept.announcetable]; rfl, 1, fun n => by rw [hkept.clock]; rfl⟩
    · refine ⟨fun j hj => ?_, 2, fun n => ?_⟩
      · refine (List.getElem?_modify_ne _ _ hj.symm).trans ?_
        exact congrArg (·[j]?) hkept.announcetable
      · exact congrFun hkept.clock (n + 1)
    · exact ⟨fun _ _ => rfl, 1, fun _ => rfl⟩

/-- Entries whose turn has not come are as they were. -/
theorem reannounced_frame (w : World) (n : ℕ) :
    (∀ j, n ≤ j → (w.reannounced ctx n).dtn.announcetable[j]? = w.dtn.announcetable[j]?) ∧
      ∃ k, ∀ m, (w.reannounced ctx n).env.clock m = w.env.clock (m + k) := by
  induction n with
  | zero => exact ⟨fun _ _ => rfl, 0, fun _ => rfl⟩
  | succ n ih =>
    obtain ⟨hrest, k, hclock⟩ := ih
    obtain ⟨hother, l, hread⟩ := reannounceEntry_frame (w.reannounced ctx n) n
    rw [reannounced_succ]
    refine ⟨fun j hj => ?_, l + k, fun m => ?_⟩
    · rw [hother j (by omega), hrest j (by omega)]
    · rw [hread, hclock, Nat.add_assoc]

theorem spared_reannounced (w : World) {m n : ℕ} (h : m ≤ n) :
    Spared (w.reannounced ctx m) (w.reannounced ctx n) := by
  induction n, h using Nat.le_induction with
  | base => exact Spared.refl _
  | succ n _ ih =>
    rw [reannounced_succ]
    exact ih.reannounceEntry ctx n

/-- `reannounceList` looks after every entry, in its turn. -/
theorem reannounceList_renews (h : w.Stands keys) (hclock : Monotone w.env.clock)
    {entry : DhtEntry} (hentry : entry ∈ w.dtn.announcetable) :
    w.env.clock 0 ≤ entry.updatetime + reannounceThreshold ∨
      (∃ i, w.dtn.announcetable[i]? = some entry ∧
        ((w.reannounced ctx i).time.2.dtnDhtSearch ctx entry.md ctx.port).1 < 0) ∨
      StartsSearch ctx entry.md ctx.port w (w.reannounceList ctx) := by
  obtain ⟨i, hi⟩ := List.mem_iff_getElem?.mp hentry
  obtain ⟨hrest, k, hread⟩ := reannounced_frame w i
  have hlt : i < w.dtn.announcetable.length := (List.getElem?_eq_some_iff.mp hi).1
  rcases reannounceEntry_renews ((hrest i le_rfl).trans hi) (h.announce entry hentry)
    with hfresh | hfail | hstart
  · refine Or.inl (le_trans ?_ hfresh)
    rw [hread]
    exact hclock (Nat.zero_le _)
  · exact Or.inr (Or.inl ⟨i, hi, hfail⟩)
  · rw [← reannounced_succ] at hstart
    exact Or.inr (Or.inr ((hstart.since (spared_reannounced w (Nat.zero_le i)).starts).after
      (spared_reannounced w hlt).starts))

/-- `dtn_dht_periodic` of a node that is ready for work looks after every entry. -/
theorem renews_periodic (h : w.Stands keys) (hclock : Monotone w.env.clock) {entry : DhtEntry}
    (hentry : entry ∈ w.dtn.announcetable) (lib : Platform) (dg : Option Datagram)
    (hready : 2 ≤ (w.readyForWork ctx).1) :
    w.env.clock 0 ≤ entry.updatetime + reannounceThreshold ∨
      (∃ i, w.dtn.announcetable[i]? = some entry ∧
        ((((w.setMinimumRating ctx).readyForWork ctx).2.reannounced ctx i).time.2.dtnDhtSearch ctx
          entry.md ctx.port).1 < 0) ∨
      StartsSearch ctx entry.md ctx.port w (w.call lib ctx (.periodic dg)) := by
  have hsame : ((w.setMinimumRating ctx).readyForWork ctx).1 = (w.readyForWork ctx).1 := by
    unfold readyForWork
    simp only [apply_ite Prod.fst]
    rfl
  have hready' : 2 ≤ ((w.setMinimumRating ctx).readyForWork ctx).1 := hsame ▸ hready
  have hmin : Kept w (w.setMinimumRating ctx) := ⟨rfl, rfl, rfl, rfl, rfl, rfl⟩
  have hkept := hmin.trans (kept_readyForWork ctx _)
  have hstarts : ((w.setMinimumRating ctx).readyForWork ctx).2.starts = w.starts :=
    starts_readyForWork ctx (w.setMinimumRating ctx)
  have hperiodic : (w.call lib ctx (.periodic dg)).starts = (w.maintainLists ctx).starts :=
    starts_dhtPeriodic lib ctx.clayer _ dg
  unfold maintainLists at hperiodic
  generalize (w.setMinimumRating ctx).readyForWork ctx = out at *
  obtain ⟨ready, w₁⟩ := out
  dsimp only at *
  rw [if_pos hready'] at hperiodic
  rcases reannounceList_renews (h.kept hkept) (hkept.clock ▸ hclock)
    (hkept.announcetable ▸ hentry) with hfresh | hfail | hstart
  · exact Or.inl (hkept.clock ▸ hfresh)
  · exact Or.inr (Or.inl (hkept.announcetable ▸ hfail))
  · have hrelookup := (Spared.relookupList ctx (Spared.refl (w₁.reannounceList ctx))).starts
    refine Or.inr (Or.inr ((hstart.since (hstarts ▸ List.prefix_refl _)).after ?_))
    rw [hperiodic]
    exact hrelookup

theorem announcetable_dhtInitWith (w : World) (s s6 : ℤ) (id : Id) (v : Option Bytes)
    (oc : InitOutcomes) :
    (w.dhtInitWith s s6 id v oc).2.dtn.announcetable = w.dtn.announcetable := by
  unfold dhtInitWith initFamily initFamily6 initRest
  dsimp only
  split_ifs <;> rfl

end World

namespace Process

variable {p : Process} {c : ProcessCall} {past : List ProcessCall}

/-- What a call between two starts or stops announces. -/
theorem stands_call (h : p.world.Stands (announcedHashes past)) (hc : c.restarts = false)
    (hw : c.withdraws = false) : (p.call c).world.Stands (announcedHashes (c :: past)) := by
  cases c with
  | init ctx id oc => exact absurd hc Bool.noConfusion
  | uninit => exact absurd hc Bool.noConfusion
  | blacklist enable => exact h.of_eq rfl
  | startRandomLookup ctx =>
    have hsearch (w : World) (h : w.Stands (announcedHashes past)) (id : Id) (s : ℤ) (af : ℕ) :
        (if 0 ≤ s then (w.dhtSearch id 0 af).2 else w).Stands (announcedHashes past) := by
      split_ifs
      · exact h.kept (World.kept_dhtSearch w id 0 af)
      · exact h
    refine hsearch _ (hsearch _ ?_ _ _ _) _ _ _
    split_ifs
    · exact h.of_eq rfl
    · exact h.of_eq rfl
  | insertNode id sa salen =>
    dsimp only [Process.call, World.dhtInsertNode]
    split_ifs
    · exact h
    · exact h.of_eq (World.calm_newNode p.world id sa salen 0).announcetable
  | pingNode sa salen => exact h.of_eq rfl
  | api lib ctx call =>
    cases call with
    | lookup eid => exact h.dtnDhtLookup lib.sha1 eid
    | announce eid type => exact h.dtnDhtAnnounce lib.sha1 eid type
    | deannounce eid => exact absurd hw Bool.noConfusion
    | periodic dg => exact h.maintainLists.dhtPeriodic lib ctx.clayer dg

theorem stands_init (p : Process) (ctx : Context) (id : Id) (oc : InitOutcomes) :
    (p.call (.init ctx id oc)).world.Stands [] := by
  have hempty : (p.world.readyToInit ctx).Stands [] := ⟨rfl, fun _ h => absurd h List.not_mem_nil⟩
  exact hempty.of_eq (World.announcetable_dhtInitWith _ _ _ _ _ _)

/-- After a start, the table of announcements holds what was announced, as long as nothing is
withdrawn. -/
theorem stands_after (p : Process) (ctx : Context) (id : Id) (oc : InitOutcomes)
    (hpast : ∀ c ∈ past, c.restarts = false ∧ c.withdraws = false) :
    ((p.call (.init ctx id oc)).after past).world.Stands (announcedHashes past) := by
  induction past with
  | nil => exact stands_init p ctx id oc
  | cons c past ih =>
    obtain ⟨hc, hw⟩ := hpast c List.mem_cons_self
    exact stands_call (ih fun c hc => hpast c (List.mem_cons_of_mem _ hc)) hc hw

/-- **Announcements are kept up.** In any run with a clock that does not go back, as long as nothing
is withdrawn, a hash that was announced since the last start stays announced, and a periodic call of
a node that is ready for work starts a search for it with the port on each family of the context, if
it was last announced more than ten minutes ago and a search can be started in the turn of its
entry. -/
theorem announcement_renewed {env : Env} (h0 : 0 ≤ env.clock 0) (hclock : Monotone env.clock)
    {before : List ProcessCall} {ctx₀ : Context} {id : Id} {oc : InitOutcomes}
    (hv : ∀ c ∈ past ++ .init ctx₀ id oc :: before, c.Valid)
    (hpast : ∀ c ∈ past, c.restarts = false ∧ c.withdraws = false)
    (hp : p = (start env).after (past ++ .init ctx₀ id oc :: before)) {key : Id}
    (hkey : key ∈ announcedHashes past) :
    ∃ entry, getFromList key p.world.dtn.announcetable = some entry ∧ entry.announce = true ∧
      ∀ (lib : Platform) (ctx : Context) (dg : Option Datagram),
        2 ≤ (p.world.readyForWork ctx).1 →
        p.world.env.clock 0 ≤ entry.updatetime + reannounceThreshold ∨
          (∃ i, p.world.dtn.announcetable[i]? = some entry ∧
            ((((p.world.setMinimumRating ctx).readyForWork ctx).2.reannounced ctx
              i).time.2.dtnDhtSearch ctx key ctx.port).1 < 0) ∨
          World.StartsSearch ctx key ctx.port p.world
            (p.call (.api lib ctx (.periodic dg))).world := by
  have hsteady : p.world.Steady := hp ▸ steady_after h0 hclock hv
  have hstands : p.world.Stands (announcedHashes past) := by
    rw [hp, after_append]
    exact stands_after _ ctx₀ id oc hpast
  obtain ⟨entry, hget, hon⟩ := hstands.announced hkey
  refine ⟨entry, hget, hon, fun lib ctx dg hready => ?_⟩
  obtain ⟨hentry, rfl⟩ := getFromList_eq_some hget
  exact World.renews_periodic hstands hsteady.monotone hentry lib dg hready

/-! ## An announcement before the node is ready -/

/-- An EID is announced by a node that knows no other, and then eight nodes are made known to it. -/
def announcedEarly : List ProcessCall :=
  (List.range 8).map (fun k =>
    .insertNode (Id.ofBytes (List.replicate 20 (UInt8.ofNat (10 * k + 100))))
      (sockaddrIn [9, 9, 9, UInt8.ofNat k] [26, 225]) 16) ++
    [.api World.samplePlatform World.ipv4Context (.announce (str "a") .singleton)]

/-- The node, eleven minutes after the epoch. -/
def upholder : Process :=
  (start (Env.still 700)).after
    (announcedEarly ++ [.init World.ipv4Context (Id.ofBytes [1]) .succeed])

theorem announcement_renewed_upholder :
    World.StartsSearch World.ipv4Context (eidKey World.samplePlatform.sha1 (str "a")) 9999
      upholder.world (upholder.call (.api World.samplePlatform World.ipv4Context
        (.periodic none))).world := by
  have hvalid : ∀ c ∈ announcedEarly ++ [.init World.ipv4Context (Id.ofBytes [1]) .succeed],
      c.Valid := by
    intro c hc
    rcases List.mem_append.mp hc with hc | hc
    · rcases List.mem_append.mp hc with hc | hc
      · obtain ⟨k, -, rfl⟩ := List.mem_map.mp hc
        exact isSockaddr_sockaddrIn rfl rfl
      · obtain rfl := List.mem_singleton.mp hc
        trivial
    · obtain rfl := List.mem_singleton.mp hc
      trivial
  have hkept : ∀ c ∈ announcedEarly, c.restarts = false ∧ c.withdraws = false := by
    decide +kernel
  have hstart : upholder = (start (Env.still 700)).after
      (announcedEarly ++ [.init World.ipv4Context (Id.ofBytes [1]) .succeed]) := rfl
  have hkey : eidKey World.samplePlatform.sha1 (str "a") ∈ announcedHashes announcedEarly := by
    decide +kernel
  have h0 : 0 ≤ (Env.still 700).clock 0 := by decide
  obtain ⟨entry, hget, -, hrenews⟩ := announcement_renewed h0 (fun _ _ _ => le_rfl) hvalid hkept
    hstart hkey
  have htime : (getFromList (eidKey World.samplePlatform.sha1 (str "a"))
      upholder.world.dtn.announcetable).map DhtEntry.updatetime = some 0 := by decide +kernel
  have hzero : entry.updatetime = 0 := by
    have hmap : (some entry).map DhtEntry.updatetime = some 0 := hget ▸ htime
    exact Option.some_inj.mp hmap
  rcases hrenews World.samplePlatform World.ipv4Context none (by decide +kernel) with
    hfresh | ⟨i, hi, hfail⟩ | hstart
  · rw [hzero] at hfresh
    exact absurd hfresh (by decide +kernel)
  · have hone : ∀ i < upholder.world.dtn.announcetable.length,
        ¬ ((((upholder.world.setMinimumRating World.ipv4Context).readyForWork
          World.ipv4Context).2.reannounced World.ipv4Context i).time.2.dtnDhtSearch
            World.ipv4Context (eidKey World.samplePlatform.sha1 (str "a"))
            World.ipv4Context.port).1 < 0 := by decide +kernel
    exact absurd hfail (hone i (List.getElem?_eq_some_iff.mp hi).1)
  · exact hstart

end Process

end DtnDht
