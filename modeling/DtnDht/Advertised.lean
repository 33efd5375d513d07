import DtnDht.Api
import DtnDht.Lib.Registry

/-!
# The EIDs that are advertised

A DTN query is answered with our own EID and the EIDs of our groups and neighbours. The lists of
groups and neighbours are registries: `dtn_dht_deannounce` takes EIDs out of them. But it leaves
our own EID, so that this one goes on being advertised. So no EID is advertised that has been
de-announced if and only if our own has not been (`advertisesAnnounced_iff`).
-/

namespace DtnDht

open CString Occurrence

/-- The last operation on the EID was an announcement. -/
def Announced (past : List ApiCall) (eid : Bytes) : Prop :=
  ∃ later type earlier, past = later ++ .announce eid type :: earlier ∧ .deannounce eid ∉ later

/-- The EID was announced as one of this type and not de-announced since. -/
def AnnouncedAs (type : LookupType) (past : List ApiCall) (eid : Bytes) : Prop :=
  ∃ later earlier, past = later ++ .announce eid type :: earlier ∧ .deannounce eid ∉ later

/-- The EID of the last announcement of our own. -/
def ownEid : List ApiCall → Option Bytes
  | [] => none
  | .announce eid .singleton :: _ => some eid
  | _ :: past => ownEid past

/-- What the EIDs of a reply should be. -/
structure OnlyAnnounced (past : List ApiCall) (e : DtnEids) : Prop where
  own : Announced past e.myEid
  groups : ∀ eid ∈ e.groups, Announced past eid
  neighbours : ∀ eid ∈ e.neighbours, Announced past eid
  nodup_groups : e.groups.Nodup
  nodup_neighbours : e.neighbours.Nodup
  mem_groups : ∀ eid, AnnouncedAs .group past eid → eid ∈ e.groups
  mem_neighbours : ∀ eid, AnnouncedAs .neighbour past eid → eid ∈ e.neighbours

variable {lib : Platform} {ctx : Context} {w : World}

namespace DtnEids

/-- What a call does to the EIDs. -/
def step (e : DtnEids) : ApiCall → DtnEids
  | .announce eid type => e.add eid type
  | .deannounce eid => e.remove eid
  | .lookup _ | .periodic _ => e

/-- The EIDs after some calls. -/
def after (past : List ApiCall) : DtnEids := past.foldr (fun c e => e.step c) {}

end DtnEids

namespace World

/-- Every query that is answered after the calls is answered with such EIDs. -/
def AdvertisesAnnounced (lib : Platform) (ctx : Context) (w : World) (past : List ApiCall) : Prop :=
  let w := w.calls lib ctx past
  ∀ dg, (w.parseDtn lib dg).message = some .dtnQuery →
    w.answersDtnQuery (w.parseDtn lib dg).result.eid = true →
    w.receive lib ctx.clayer dg = w.stackTid.2.reply (dhtSendBuf w.net
        (sendDtninfo ((w.parseDtn lib dg).tid.take (w.parseDtn lib dg).tidLen) w.eids.myEid
          ctx.clayer w.eids.neighbours w.eids.groups) 0 dg.frm dg.fromlen) ∧
      OnlyAnnounced past w.eids

/-! ## The calls and the EIDs -/

theorem eids_dhtPeriodic (clayer : List ConvergenceLayer) (dg : Option Datagram) :
    (w.dhtPeriodic lib clayer dg).2.eids = w.eids := by
  unfold dhtPeriodic
  cases dg with
  | none => exact (quiet_doDue _).eids
  | some dg =>
    dsimp only
    split_ifs
    · exact (quiet_doDue _).eids
    · rfl
    · exact (quiet_doDue _).eids.trans (stable_receive lib clayer _ dg).eids

theorem eids_foldl {f : World → ℕ → World} (hf : ∀ w i, (f w i).eids = w.eids) (is : List ℕ)
    (w : World) : (is.foldl f w).eids = w.eids := by
  induction is generalizing w with
  | nil => rfl
  | cons i is ih => exact (ih _).trans (hf w i)

theorem eids_maintainLists : (w.maintainLists ctx).eids = w.eids := by
  have hre (w : World) (i : ℕ) : (w.reannounceEntry ctx i).eids = w.eids := by
    unfold reannounceEntry
    dsimp only
    split
    · rfl
    · split_ifs
      · exact (kept_dtnDhtSearch ctx w.time.2 _ _).eids
      · exact (kept_dtnDhtSearch ctx w.time.2 _ _).eids
      · rfl
  have hlo (w : World) (i : ℕ) : (w.relookupEntry ctx i).eids = w.eids := by
    unfold relookupEntry
    split
    · rfl
    · dsimp only
      split_ifs
      · exact (kept_dtnDhtSearch ctx (w.emit _) _ _).eids
      · exact (kept_dtnDhtSearch ctx (w.emit _) _ _).eids
      · rfl
  have hready : (((w.setMinimumRating ctx).readyForWork ctx).2).eids = w.eids :=
    (kept_readyForWork ctx (w.setMinimumRating ctx)).eids
  unfold maintainLists
  dsimp only [withAnnouncements, withLookups]
  split_ifs
  · exact (eids_foldl hlo _ _).trans ((eids_foldl hre _ _).trans hready)
  · exact hready

theorem eids_startLookup (key : Id) : (w.startLookup ctx key).2.eids = w.eids := by
  unfold startLookup
  split_ifs
  · rfl
  · exact (kept_dtnDhtSearch ctx (w.emit _) key 0).eids

theorem eids_dtnDhtLookup (sha1 : Bytes → Bytes) (eid : Bytes) :
    (w.dtnDhtLookup sha1 ctx eid).2.eids = w.eids := by
  have hready := (kept_readyForWork ctx w).eids
  unfold dtnDhtLookup
  generalize w.readyForWork ctx = out at hready
  obtain ⟨ready, w1⟩ := out
  dsimp only at hready ⊢
  split_ifs
  · exact hready
  · split
    · exact (eids_startLookup _).trans hready
    · split_ifs
      · exact hready
      · exact (eids_startLookup _).trans hready

theorem eids_dtnDhtAnnounce (sha1 : Bytes → Bytes) (eid : Bytes) (type : LookupType) :
    (w.dtnDhtAnnounce sha1 ctx eid type).2.eids = w.eids.add eid type := by
  unfold dtnDhtAnnounce
  dsimp only
  split
  · split_ifs
    · exact (kept_readyForWork ctx _).eids
    · exact (kept_dtnDhtSearch ctx _ _ _).eids.trans (kept_readyForWork ctx _).eids
  · rfl

theorem eids_call (c : ApiCall) : (w.call lib ctx c).eids = w.eids.step c := by
  cases c with
  | lookup eid => exact eids_dtnDhtLookup lib.sha1 eid
  | announce eid type => exact eids_dtnDhtAnnounce lib.sha1 eid type
  | deannounce eid => rfl
  | periodic dg => exact (eids_dhtPeriodic ctx.clayer dg).trans eids_maintainLists

variable (lib ctx) in
theorem eids_calls (h : w.eids = {}) (past : List ApiCall) :
    (w.calls lib ctx past).eids = DtnEids.after past := by
  induction past with
  | nil => exact h
  | cons c past ih => exact (eids_call c).trans (congrArg (DtnEids.step · c) ih)

end World

/-! ## The registries -/

variable {past : List ApiCall} {eid : Bytes} {type : LookupType}


/-- What a call does to the list of the EIDs of a type. -/
def registryOp (type : LookupType) : ApiCall → Option (Registry.Op Bytes)
  | .announce eid type' => if type' = type then some (.add eid) else none
  | .deannounce eid => some (.remove eid)
  | .lookup _ | .periodic _ => none

theorem groups_after (past : List ApiCall) :
    (DtnEids.after past).groups = Registry.run (past.filterMap (registryOp .group)) := by
  induction past with
  | nil => rfl
  | cons c past ih =>
    have h : (DtnEids.after (c :: past)).groups = ((DtnEids.after past).step c).groups := rfl
    rw [h]
    cases c with
    | lookup eid | periodic dg => exact ih
    | deannounce eid => exact congrArg (List.erase · eid) ih
    | announce eid type =>
      cases type with
      | singleton | neighbour => exact ih
      | group => exact congrArg (Registry.apply · (.add eid)) ih

theorem neighbours_after (past : List ApiCall) :
    (DtnEids.after past).neighbours = Registry.run (past.filterMap (registryOp .neighbour)) := by
  induction past with
  | nil => rfl
  | cons c past ih =>
    have h : (DtnEids.after (c :: past)).neighbours = 
      ((DtnEids.after past).step c).neighbours := rfl
    rw [h]
    cases c with
    | lookup eid | periodic dg => exact ih
    | deannounce eid => exact congrArg (List.erase · eid) ih
    | announce eid type =>
      cases type with
      | singleton | group => exact ih
      | neighbour => exact congrArg (Registry.apply · (.add eid)) ih

theorem announcedAs_cons_iff {c : ApiCall} :
    AnnouncedAs type (c :: past) eid ↔
      c = .announce eid type ∨ (c ≠ .deannounce eid ∧ AnnouncedAs type past eid) := by
  constructor
  · rintro ⟨later, earlier, hp, hr⟩
    obtain ⟨rfl, h⟩ | ⟨later, rfl, rfl⟩ := List.cons_eq_append_iff.mp hp
    · exact Or.inl (List.cons.inj h).1.symm
    · rw [List.mem_cons, not_or] at hr
      exact Or.inr ⟨Ne.symm hr.1, later, earlier, rfl, hr.2⟩
  · rintro (rfl | ⟨hne, later, earlier, rfl, hr⟩)
    · exact ⟨[], past, rfl, List.not_mem_nil⟩
    · refine ⟨c :: later, earlier, rfl, ?_⟩
      rw [List.mem_cons, not_or]
      exact ⟨hne.symm, hr⟩

/-- An EID is in the registry of its type if and only if it was announced and not de-announced
since. -/
theorem mem_registry_iff :
    eid ∈ Registry.run (past.filterMap (registryOp type)) ↔ AnnouncedAs type past eid := by
  rw [Registry.mem_run_iff]
  induction past with
  | nil =>
    refine iff_of_false ?_ ?_
    · rintro ⟨later, earlier, hp, -⟩
      exact absurd hp (by simp)
    · rintro ⟨later, earlier, hp, -⟩
      exact absurd hp (by simp)
  | cons c past ih =>
    rw [announcedAs_cons_iff, List.filterMap_cons, ← ih]
    cases c with
    | lookup eid' | periodic dg => simp [registryOp]
    | deannounce eid' =>
      simp only [registryOp, Registry.added_cons_iff]
      simp
    | announce eid' type' =>
      by_cases ht : type' = type
      · simp only [registryOp, if_pos ht, Registry.added_cons_iff]
        simp [ht]
      · simp [registryOp, ht]

theorem AnnouncedAs.announced (h : AnnouncedAs type past eid) : Announced past eid := by
  obtain ⟨later, earlier, hp, hd⟩ := h
  exact ⟨later, type, earlier, hp, hd⟩

/-- Our own EID is that of the last announcement. -/
theorem own_after (hlen : ∀ eid type, .announce eid type ∈ past → eid.length ≤ dtnEidMaxLength) :
    ((DtnEids.after past).myEidChanged = true → ∃ eid, ownEid past = some eid) ∧
      ∀ eid, ownEid past = some eid →
        (DtnEids.after past).myEidChanged = true ∧ (DtnEids.after past).myEid = eid := by
  induction past with
  | nil => exact ⟨fun h => absurd h Bool.false_ne_true, fun eid h => absurd h (by simp [ownEid])⟩
  | cons c past ih =>
    have ih' := ih fun eid type h => hlen eid type (List.mem_cons_of_mem c h)
    cases c with
    | lookup eid | periodic dg | deannounce eid => exact ih'
    | announce eid type =>
      cases type with
      | group | neighbour => exact ih'
      | singleton =>
        refine ⟨fun _ => ⟨eid, rfl⟩, fun eid' h => ?_⟩
        obtain rfl : eid = eid' := Option.some_inj.mp h
        exact ⟨rfl, List.take_of_length_le (hlen eid .singleton List.mem_cons_self)⟩

/-! ## The replies -/

namespace World

/-- A query that is answered is answered with our EIDs. -/
theorem receive_of_answersDtnQuery {clayer : List ConvergenceLayer} {dg : Datagram}
    (hm : (w.parseDtn lib dg).message = some .dtnQuery)
    (ha : w.answersDtnQuery (w.parseDtn lib dg).result.eid = true) :
    w.receive lib clayer dg = w.stackTid.2.reply (dhtSendBuf w.net
      (sendDtninfo ((w.parseDtn lib dg).tid.take (w.parseDtn lib dg).tidLen) w.eids.myEid
        clayer w.eids.neighbours w.eids.groups) 0 dg.frm dg.fromlen) := by
  have ha' : w.stackTid.2.answersDtnQuery (w.parseDtn lib dg).result.eid = true := ha
  unfold receive
  dsimp only
  rw [hm]
  exact if_pos ha'

/-- A query that is not for the EID `eid`. -/
def otherQuery (eid : Bytes) : Datagram where
  buf := if eid = str "a" then str "d1:ad3:eid1:b" else str "d1:ad3:eid1:a"
  terminated := true
  frm := sockaddrIn [9, 9, 9, 9] [26, 225]
  fromlen := 16

/-- Neither query has a transaction id to be read. -/
theorem parseDtnMessage_otherQuery {inetNtop : ℕ → Bytes → Bytes} {frm : Sockaddr}
    {eid buf tid : Bytes} (h : (eid, buf) = (str "a", str "d1:ad3:eid1:a") ∨
      (eid, buf) = (str "b", str "d1:ad3:eid1:b")) :
    parseDtnMessage inetNtop frm buf tid 16 = ⟨some .dtnQuery, tid, 16, { eid := some eid }⟩ := by
  have hquery {eid buf : Bytes} (hp : (str "d1:ad3:eid").isPrefixOf buf = true)
      (hr : readField buf 10 (0 < ·) = .value eid)
      (hf : findInfix (str "e1:q3:dtn1:t") buf = none) :
      parseDtnMessage inetNtop frm buf tid 16 =
        ⟨some .dtnQuery, tid, 16, { eid := some eid }⟩ := by
    unfold parseDtnMessage parseDtnQuery
    rw [if_pos hp, hr]
    dsimp only
    rw [hf]
  rcases h with h | h
  · obtain ⟨rfl, rfl⟩ := Prod.mk.inj h
    exact hquery (by decide) (by decide) (by decide)
  · obtain ⟨rfl, rfl⟩ := Prod.mk.inj h
    exact hquery (by decide) (by decide) (by decide)

theorem parseDtn_otherQuery (lib : Platform) (w : World) (eid : Bytes) :
    (w.parseDtn lib (otherQuery eid)).message = some .dtnQuery ∧
      ∃ eid', (w.parseDtn lib (otherQuery eid)).result.eid = some eid' ∧ eid' ≠ eid := by
  unfold parseDtn otherQuery
  dsimp only
  split_ifs with h
  · rw [parseDtnMessage_otherQuery (Or.inr rfl)]
    exact ⟨rfl, str "b", rfl, by rw [h]; decide⟩
  · rw [parseDtnMessage_otherQuery (Or.inl rfl)]
    exact ⟨rfl, str "a", rfl, fun he => h he.symm⟩

/-- If no query is answered with an EID that has been de-announced, then our own has not been. -/
theorem AdvertisesAnnounced.own {start : World} (hstart : start.eids = {})
    (hlen : ∀ eid type, .announce eid type ∈ past → eid.length ≤ dtnEidMaxLength)
    (h : start.AdvertisesAnnounced lib ctx past) (ho : ownEid past = some eid) :
    Announced past eid := by
  have he := eids_calls lib ctx hstart past
  obtain ⟨hc, hmy⟩ := (own_after hlen).2 eid ho
  obtain ⟨hm, eid', hq, hne⟩ := parseDtn_otherQuery lib (start.calls lib ctx past) eid
  have ha : (start.calls lib ctx past).answersDtnQuery
      ((start.calls lib ctx past).parseDtn lib (otherQuery eid)).result.eid = true := by
    unfold answersDtnQuery isForeign
    rw [he, hc, hmy, hq]
    simpa using hne
  have hown := (h (otherQuery eid) hm ha).2.own
  rwa [he, hmy] at hown

theorem eids_dtnDhtInit (ctx : Context) (env : Env) (id : Id) :
    ((World.initial env).dtnDhtInit ctx id).eids = {} :=
  rfl

/-- **After any calls, only announced EIDs are advertised if and only if the last announcement of
our own EID has not been taken back.** -/
theorem advertisesAnnounced_iff (lib : Platform) (ctx : Context) (env : Env) (id : Id)
    (past : List ApiCall)
    (hlen : ∀ eid type, .announce eid type ∈ past → eid.length ≤ dtnEidMaxLength) :
    ((World.initial env).dtnDhtInit ctx id).AdvertisesAnnounced lib ctx past ↔
      ∀ eid, ownEid past = some eid → Announced past eid := by
  have hstart := eids_dtnDhtInit ctx env id
  generalize (World.initial env).dtnDhtInit ctx id = start at hstart
  refine ⟨fun h eid ho => h.own hstart hlen ho, fun h => ?_⟩
  have he := eids_calls lib ctx hstart past
  dsimp only [AdvertisesAnnounced]
  generalize start.calls lib ctx past = w at he
  intro dg hm ha
  refine ⟨receive_of_answersDtnQuery hm ha, ?_⟩
  have hchanged : w.eids.myEidChanged = true := (Bool.and_eq_true_iff.mp ha).1
  rw [he] at hchanged ⊢
  obtain ⟨eid, ho⟩ := (own_after hlen).1 hchanged
  have hg := groups_after past
  have hn := neighbours_after past
  refine ⟨?_, fun eid hmem => ?_, fun eid hmem => ?_, ?_, ?_, fun eid hmem => ?_,
    fun eid hmem => ?_⟩
  · rw [((own_after hlen).2 eid ho).2]
    exact h eid ho
  · rw [hg] at hmem
    exact (mem_registry_iff.mp hmem).announced
  · rw [hn] at hmem
    exact (mem_registry_iff.mp hmem).announced
  · rw [hg]
    exact Registry.nodup_run _
  · rw [hn]
    exact Registry.nodup_run _
  · rw [hg]
    exact mem_registry_iff.mpr hmem
  · rw [hn]
    exact mem_registry_iff.mpr hmem

/-- Our own EID goes on being advertised after it has been de-announced. -/
theorem advertisesAnnounced_deannounced :
    ¬ ((World.initial (Env.still 1000)).dtnDhtInit ipv4Context (Id.ofBytes [1])).AdvertisesAnnounced
      samplePlatform ipv4Context
      [.deannounce (str "dtn:a"), .announce (str "dtn:a") .singleton] := by
  intro h
  obtain ⟨later, type, earlier, hp, hd⟩ := AdvertisesAnnounced.own rfl
    (by simp [dtnEidMaxLength, str]) h rfl
  obtain ⟨rfl, h⟩ | ⟨later, rfl, h⟩ := List.cons_eq_append_iff.mp hp
  · exact absurd (List.cons.inj h).1 (by simp)
  · exact hd List.mem_cons_self

/-- Our own EID, announced once. -/
theorem advertisesAnnounced_announced :
    ((World.initial (Env.still 1000)).dtnDhtInit ipv4Context (Id.ofBytes [1])).AdvertisesAnnounced
      samplePlatform ipv4Context [.announce (str "dtn:a") .singleton] :=
  (advertisesAnnounced_iff samplePlatform ipv4Context (Env.still 1000) (Id.ofBytes [1])
    [.announce (str "dtn:a") .singleton] (by simp [dtnEidMaxLength, str])).mpr fun eid h =>
      ⟨[], .singleton, [], by rw [← Option.some_inj.mp h]; rfl, List.not_mem_nil⟩

end World

end DtnDht
