import DtnDht.Clock
import DtnDht.WellFormed

/-!
# Searches are not forgotten

`dht_periodic` tells its caller how long it may sleep, and it steps the searches when
`search_time` has come. Whatever was called since the node was started, `search_time` is set while
a search is in progress, and it is less than 25 seconds ahead (`awake_writes`). So the caller never
sleeps longer than 24 seconds while a search is in progress.
-/

namespace DtnDht

open CString Relation

/-! ## The times of a search -/

/-- Nothing is noted for a time that has not come. -/
structure Search.Timely (now : ℤ) (sr : Search) : Prop where
  stepTime_nonneg : 0 ≤ sr.stepTime
  stepTime_le : sr.stepTime ≤ now
  requestTime_le : ∀ n ∈ sr.nodes, n.requestTime ≤ now

section

variable {now now' : ℤ} {sr sr' : Search}

theorem Search.Timely.mono (h : sr.Timely now) (hle : now ≤ now') : sr.Timely now' :=
  ⟨h.stepTime_nonneg, h.stepTime_le.trans hle, fun n hn => (h.requestTime_le n hn).trans hle⟩

theorem Search.Timely.nonneg (h : sr.Timely now) : 0 ≤ now := h.stepTime_nonneg.trans h.stepTime_le

/-- Only the nodes are written to. -/
theorem Search.Timely.withNodes (h : sr.Timely now) (ht : sr'.stepTime = sr.stepTime)
    (hnodes : ∀ n ∈ sr'.nodes, n.requestTime ≤ now) : sr'.Timely now :=
  ⟨ht ▸ h.stepTime_nonneg, ht ▸ h.stepTime_le, hnodes⟩

theorem requestTime_update (now : ℤ) (sa : Sockaddr) (salen : ℕ) (replied : Bool)
    (token : Option Bytes) (n : SearchNode) :
    (n.update now sa salen replied token).requestTime = 0 ∨
      (n.update now sa salen replied token).requestTime = n.requestTime := by
  unfold SearchNode.update
  dsimp only
  split
  · split_ifs
    · exact Or.inl rfl
    · exact Or.inr rfl
  · split_ifs
    · exact Or.inl rfl
    · exact Or.inr rfl
    · exact Or.inl rfl
    · exact Or.inr rfl

theorem Search.Timely.insertSearchNode (h : sr.Timely now) (id : Id) (sa : Sockaddr) (salen : ℕ)
    (replied : Bool) (token : Option Bytes) :
    (sr.insertSearchNode now id sa salen replied token).Timely now := by
  have hupdate {n : SearchNode} (hn : n.requestTime ≤ now) :
      (n.update now sa salen replied token).requestTime ≤ now := by
    rcases requestTime_update now sa salen replied token n with h0 | heq
    · exact h0 ▸ h.nonneg
    · exact heq ▸ hn
  unfold Search.insertSearchNode
  split_ifs
  · exact h
  · refine h.withNodes rfl fun n hn => ?_
    rcases mem_insertNodeAt (List.mem_of_mem_take hn) with hn | rfl | ⟨old, hold, -, rfl⟩
    · exact h.requestTime_le n hn
    · exact hupdate h.nonneg
    · exact hupdate (h.requestTime_le old hold)

theorem Search.Timely.acknowledge (h : sr.Timely now) (id : Id) :
    (sr.acknowledge now id).Timely now := by
  refine h.withNodes rfl fun n hn => ?_
  unfold Search.acknowledge at hn
  cases hj : sr.nodes.findIdx? fun n => idCmp n.id id = .eq with
  | none =>
    rw [hj] at hn
    exact h.requestTime_le n hn
  | some j =>
    rw [hj] at hn
    rcases List.mem_modify_iff.mp hn with ⟨old, -, rfl⟩ | ⟨k, -, hk⟩
    · exact h.nonneg
    · exact h.requestTime_le n (List.mem_of_getElem? hk)

theorem Search.Timely.sendGetPeers (h : sr.Timely now) (net : Net) (r : Routing) (j : ℕ) :
    (sr.sendGetPeers net now r j).1.Timely now := by
  unfold Search.sendGetPeers
  cases sr.nodes[j]? with
  | none => exact h
  | some n =>
    dsimp only
    by_cases hask : Search.toAsk now n = true
    · rw [if_pos hask]
      refine h.withNodes rfl fun m hm => ?_
      rcases List.mem_or_eq_of_mem_set hm with hm | rfl
      · exact h.requestTime_le m hm
      · exact le_rfl
    · rw [if_neg hask]
      exact h

theorem Search.Timely.askNodes (h : sr.Timely now) (net : Net) (r : Routing) (asked : ℕ)
    (js : List ℕ) : (Search.askNodes net now r sr asked js).1.Timely now := by
  induction js generalizing r sr asked with
  | nil => exact h
  | cons j js ih =>
    have hj := h.sendGetPeers net r j
    unfold Search.askNodes
    dsimp only
    split_ifs
    · exact hj
    · exact ih hj _ _

theorem requestTime_announceNodes (net : Net) (sr : Search) (j : ℕ) {nodes : List SearchNode}
    (r : Routing) (h : ∀ n ∈ nodes, n.requestTime ≤ now) :
    ∀ n ∈ (Search.announceNodes net now sr j nodes r).1, n.requestTime ≤ now := by
  induction nodes generalizing j r with
  | nil => cases j <;> exact h
  | cons n nodes ih =>
    obtain ⟨hn, hnodes⟩ := List.forall_mem_cons.mp h
    cases j with
    | zero => exact h
    | succ j =>
      have hacked : (if n.token = [] then { n with acked := true } else n).requestTime ≤ now := by
        split_ifs <;> exact hn
      unfold Search.announceNodes
      dsimp only
      generalize (if n.token = [] then { n with acked := true } else n) = n' at hacked
      by_cases hpinged : 3 ≤ n.pinged
      · rw [if_pos hpinged]
        exact List.forall_mem_cons.mpr ⟨hn, ih (j + 1) _ hnodes⟩
      · rw [if_neg hpinged]
        by_cases ha : n'.acked = true
        · rw [if_pos ha]
          exact List.forall_mem_cons.mpr ⟨hacked, ih j _ hnodes⟩
        · rw [if_neg ha]
          exact List.forall_mem_cons.mpr ⟨le_rfl, ih j _ hnodes⟩

theorem Search.Timely.step (h : sr.Timely now) (net : Net) (r : Routing) :
    (sr.step net now r).1.Timely now := by
  have hannounce := requestTime_announceNodes net sr 8 r h.requestTime_le
  have hask := h.askNodes net r 0 (List.range sr.nodes.length)
  unfold Search.step
  split_ifs
  · exact ⟨h.nonneg, le_rfl, h.requestTime_le⟩
  · dsimp only
    split_ifs <;> exact ⟨h.nonneg, le_rfl, hannounce⟩
  · exact h
  · exact ⟨h.nonneg, le_rfl, hask.requestTime_le⟩

theorem requestTime_resetNodes (now : ℤ) {nodes : List SearchNode} {n : SearchNode}
    (hn : n ∈ resetNodes now nodes) : ∃ old ∈ nodes, n.requestTime = old.requestTime := by
  have hcons {old : SearchNode} {nodes : List SearchNode}
      (h : ∃ k ∈ nodes, n.requestTime = k.requestTime) :
      ∃ k ∈ old :: nodes, n.requestTime = k.requestTime :=
    h.imp fun _ h => ⟨List.mem_cons_of_mem _ h.1, h.2⟩
  fun_induction resetNodes now nodes with
  | case1 => exact absurd hn List.not_mem_nil
  | case2 old h => exact absurd hn List.not_mem_nil
  | case3 old h m nodes ih =>
    rcases List.mem_cons.mp hn with rfl | hn
    · exact ⟨n, List.mem_cons_of_mem _ List.mem_cons_self, rfl⟩
    · exact hcons (hcons (ih hn))
  | case4 old nodes h ih =>
    rcases List.mem_cons.mp hn with rfl | hn
    · exact ⟨old, List.mem_cons_self, rfl⟩
    · exact hcons (ih hn)

theorem Search.Timely.write (h : sr.Timely now) (hw : SearchWrite now sr sr') :
    sr'.Timely now := by
  cases hw with
  | insert id sa salen replied token => exact h.insertSearchNode id sa salen replied token
  | flush id =>
    exact h.withNodes rfl fun n hn => h.requestTime_le n ((sublist_flushId id sr.nodes).subset hn)
  | acknowledge id => exact h.acknowledge id
  | ask net r j => exact h.sendGetPeers net r j
  | step net r => exact h.step net r

theorem Search.Timely.startWrite (h : sr.Timely now) (hw : SearchStartWrite now sr sr') :
    sr'.Timely now := by
  cases hw with
  | write hw => exact h.write hw
  | restart =>
    refine h.withNodes rfl fun n hn => ?_
    obtain ⟨old, hold, heq⟩ := requestTime_resetNodes now hn
    exact heq ▸ h.requestTime_le old hold
  | start af tid id => exact ⟨le_rfl, h.nonneg, fun n hn => absurd hn List.not_mem_nil⟩
  | port port => exact ⟨h.stepTime_nonneg, h.stepTime_le, h.requestTime_le⟩

/-- A search that is done stays so until it is started again. -/
theorem done_of_write (hw : SearchWrite now sr sr') (h : sr'.done = false) : sr.done = false := by
  cases hw with
  | insert id sa salen replied token =>
    have hhead := World.head_insertSearchNode now id sa salen replied token sr
    exact (congrArg SearchHead.done hhead).symm.trans h
  | flush | acknowledge => exact h
  | ask net r j =>
    exact (congrArg SearchHead.done (World.head_sendGetPeers net now r sr j)).symm.trans h
  | step net r =>
    obtain ⟨t, -, hhead⟩ := Search.head_step net now r sr
    have hor : (sr.done || (sr.step net now r).2.2.2) = false :=
      (congrArg SearchHead.done hhead).symm.trans h
    exact (Bool.or_eq_false_iff.mp hor).1

end

/-! ## When the searches are due -/

namespace World

/-- A time that has been chosen and is near. -/
def Near (now t : ℤ) : Prop := 0 < t ∧ t ≤ now + 24

/-- The searches are in order, and while a search is in progress the next step is not far off. -/
structure Awake (w : World) : Prop where
  now_pos : 0 < w.now
  timely : ∀ sr ∈ w.searches, sr.Timely w.now
  ordered : ∀ sr ∈ w.searches, sr.Ordered
  searchTime : ∀ sr ∈ w.searches, sr.done = false → Near w.now w.searchTime

variable {w w' : World}

/-- The loop of `nextSearchTime`, on a search. -/
def chooseTime (out : ℤ × World) (sr : Search) : ℤ × World :=
  if sr.done then out
  else
    let (x, w) := out.2.random
    let tm := sr.stepTime + 15 + x % 10
    (if out.1 = 0 ∨ tm < out.1 then tm else out.1, w)

theorem chooseTime_near {now : ℤ} {out : ℤ × World} {sr : Search} (hsr : sr.Timely now)
    (h : out.1 = 0 ∨ Near now out.1) :
    sr.done = true ∧ chooseTime out sr = out ∨ Near now (chooseTime out sr).1 := by
  obtain ⟨h0, hle, -⟩ := hsr
  unfold chooseTime Near at *
  split_ifs with hdone
  · exact Or.inl ⟨hdone, rfl⟩
  · right
    dsimp only
    split_ifs <;> omega

/-- The time chosen for the next steps is near if a search is in progress. -/
theorem nextSearchTime_near (htimely : ∀ sr ∈ w.searches, sr.Timely w.now) {sr : Search}
    (hsr : sr ∈ w.searches) (hdone : sr.done = false) : Near w.now w.nextSearchTime.1 := by
  change Near w.now (w.searches.foldl chooseTime (0, w)).1
  obtain ⟨before, later, hsplit⟩ := List.append_of_mem hsr
  rw [hsplit] at htimely ⊢
  obtain ⟨hearly, hlate⟩ := List.forall_mem_append.mp htimely
  obtain ⟨hthis, hlate⟩ := List.forall_mem_cons.mp hlate
  rw [List.foldl_append, List.foldl_cons]
  have hbefore : (before.foldl chooseTime (0, w)).1 = 0 ∨
      Near w.now (before.foldl chooseTime (0, w)).1 := by
    refine List.foldlRecOn (motive := fun out : ℤ × World => out.1 = 0 ∨ Near w.now out.1)
      before chooseTime (Or.inl rfl) fun out hout sr' hsr' => ?_
    rcases chooseTime_near (hearly sr' hsr') hout with ⟨-, heq⟩ | hnear
    · rwa [heq]
    · exact Or.inr hnear
  have hchosen : Near w.now (chooseTime (before.foldl chooseTime (0, w)) sr).1 :=
    (chooseTime_near hthis hbefore).resolve_left fun h => by simp [hdone] at h
  -- a time that is near is replaced by near ones only
  refine List.foldlRecOn (motive := fun out : ℤ × World => Near w.now out.1) later chooseTime
    hchosen fun out hout sr' hsr' => ?_
  rcases chooseTime_near (hlate sr' hsr') (Or.inr hout) with ⟨-, heq⟩ | hnear
  · rwa [heq]
  · exact hnear

theorem Awake.of_core (h : w.Awake) (hcore : w'.core = w.core) : w'.Awake := by
  simp only [core, Statics.mk.injEq] at hcore
  obtain ⟨-, hnow, -, hsearches, htime, -, -, -⟩ := hcore
  refine ⟨?_, ?_, ?_, ?_⟩
  · rw [hnow]
    exact h.now_pos
  · rw [hnow, hsearches]
    exact h.timely
  · rw [hsearches]
    exact h.ordered
  · rw [hnow, hsearches, htime]
    exact h.searchTime

/-- Every write keeps the node awake. -/
theorem Awake.write (h : w.Awake) (hs : w.Steady) (hw : Write w w') : w'.Awake := by
  cases hw with
  | other hcore _ => exact h.of_core hcore
  | gettimeofday =>
    have hle : w.now ≤ w.gettimeofday.now := hs.now_le
    refine ⟨h.now_pos.trans_le hle, fun sr hsr => (h.timely sr hsr).mono hle, h.ordered,
      fun sr hsr hdone => ?_⟩
    obtain ⟨hpos, hsoon⟩ := h.searchTime sr hsr hdone
    exact ⟨hpos, hsoon.trans (add_le_add_left hle 24)⟩
  | routing | storageStore | expireStorage | rotateSecrets =>
    exact ⟨h.now_pos, h.timely, h.ordered, h.searchTime⟩
  | searches hsrs =>
    refine ⟨h.now_pos, hsrs.forall h.timely fun _ _ => .write,
      hsrs.forall h.ordered fun _ _ => .write, fun sr' hsr' hdone => ?_⟩
    obtain ⟨sr, hsr, hrun⟩ := hsrs sr' hsr'
    refine h.searchTime sr hsr ?_
    clear hsr hsr'
    induction hrun with
    | refl => exact hdone
    | tail _ hstep ih => exact ih (done_of_write hstep hdone)
  | searchTime =>
    exact ⟨h.now_pos, h.timely, h.ordered, fun sr hsr => nextSearchTime_near h.timely hsr⟩
  | dhtSearch hsrs =>
    refine ⟨h.now_pos, hsrs.forall (fun sr hsr => ?_) fun _ _ => .startWrite,
      hsrs.forall (fun sr hsr => ?_) fun _ _ => .startWrite, fun _ _ _ =>
        ⟨h.now_pos, (le_add_iff_nonneg_right _).mpr (by decide)⟩⟩
    · rcases List.mem_cons.mp hsr with rfl | hsr
      · exact ⟨le_rfl, h.now_pos.le, fun n hn => absurd hn List.not_mem_nil⟩
      · exact h.timely sr hsr
    · rcases List.mem_cons.mp hsr with rfl | hsr
      · exact Search.ordered_of_empty rfl
      · exact h.ordered sr hsr

theorem Awake.writes (h : w.Awake) (hs : w.Steady) (hw : Writes w w') : w'.Awake := by
  induction hw with
  | refl => exact h
  | tail hrun hstep ih => exact ih.write (forward_write.run hs hrun).1 hstep

/-- While a search is in progress the caller sleeps at most 24 seconds. -/
theorem Awake.tosleep_le (h : w.Awake) {sr : Search} (hsr : sr ∈ w.searches)
    (hdone : sr.done = false) : 0 ≤ w.tosleep ∧ w.tosleep ≤ 24 := by
  obtain ⟨hpos, hsoon⟩ := h.searchTime sr hsr hdone
  unfold tosleep
  dsimp only
  rw [if_pos hpos]
  split_ifs <;> omega

end World

/-! ## Started nodes -/

namespace Process

variable {p : Process} {ctx : Context} {id : Id} {oc : InitOutcomes}

/-- A start that succeeds reads the clock, and there are no searches yet. -/
theorem awake_init (hclock : Monotone p.world.env.clock) (hpos : 0 < p.world.env.clock 0)
    (h : (p.init ctx id oc).1 = .initialised) :
    (p.call (.init ctx id oc)).world.Awake ∧ (p.call (.init ctx id oc)).world.Steady := by
  have hinit : (p.call (.init ctx id oc)).world =
      ((p.world.readyToInit ctx).dhtInit ctx.ipv4socket ctx.ipv6socket id none) :=
    (World.dhtInitWith_of_initialised _ _ id none oc h).2
  rw [hinit]
  have hnone : ∀ sr ∈ ((p.world.readyToInit ctx).dhtInit ctx.ipv4socket ctx.ipv6socket id
      none).searches, False := fun sr hsr => List.not_mem_nil hsr
  exact ⟨⟨hpos, fun sr hsr => (hnone sr hsr).elim, fun sr hsr => (hnone sr hsr).elim,
      fun sr hsr => (hnone sr hsr).elim⟩,
    hclock (Nat.zero_le 1), fun k l hkl => hclock (Nat.succ_le_succ hkl)⟩

/-- Whatever is called after a start that succeeded, the node is awake. -/
theorem awake_after (hclock : Monotone p.world.env.clock) (hpos : 0 < p.world.env.clock 0)
    (h : (p.init ctx id oc).1 = .initialised) {later : List ProcessCall}
    (hl : ∀ c ∈ later, c.restarts = false ∧ c.Valid) :
    ((p.call (.init ctx id oc)).after later).world.Awake ∧
      ((p.call (.init ctx id oc)).after later).world.Steady := by
  obtain ⟨hawake, hsteady⟩ := awake_init hclock hpos h
  have hrun := writes_after (p.call (.init ctx id oc)) hl
  exact ⟨hawake.writes hsteady hrun, (World.forward_write.run hsteady hrun).1⟩

end Process

/-! ## Sleeping -/

/-- **Searches are not slept through**: whatever is called after a start that succeeded,
`dht_periodic` never tells its caller to sleep longer than 24 seconds while a search is in
progress. -/
theorem tosleep_le_of_search {p : Process} (hclock : Monotone p.world.env.clock)
    (hpos : 0 < p.world.env.clock 0) {ctx : Context} {id : Id} {oc : InitOutcomes}
    (h : (p.init ctx id oc).1 = .initialised) {later : List ProcessCall}
    (hl : ∀ c ∈ later, c.restarts = false ∧ c.Valid) (lib : Platform) (ctx' : Context)
    {dg : Option Datagram} (hdg : World.FromSockaddr dg) :
    let w := (((p.call (.init ctx id oc)).after later).call (.api lib ctx' (.periodic dg))).world
    ∀ sr ∈ w.searches, sr.done = false → 0 ≤ w.tosleep ∧ w.tosleep ≤ 24 := by
  have hl' : ∀ c ∈ .api lib ctx' (.periodic dg) :: later, c.restarts = false ∧ c.Valid :=
    List.forall_mem_cons.mpr ⟨⟨rfl, hdg⟩, hl⟩
  have hawake : World.Awake (((p.call (.init ctx id oc)).after later).call
      (.api lib ctx' (.periodic dg))).world := (Process.awake_after hclock hpos h hl').1
  exact fun sr hsr hdone => hawake.tosleep_le hsr hdone

/-- A node that has met eight others looks an EID up. -/
def searching : List ProcessCall :=
  (ApiCall.lookup (str "dtn:a") :: World.meetNodes).map
    (.api World.samplePlatform World.ipv4Context)

theorem valid_searching : ∀ c ∈ searching, c.restarts = false ∧ c.Valid := by
  intro c hc
  obtain ⟨call, hcall, rfl⟩ := List.mem_map.mp hc
  refine ⟨rfl, ?_⟩
  rcases List.mem_cons.mp hcall with rfl | hcall
  · trivial
  · exact valid_meetNodes hcall _ _

theorem tosleep_le_of_search_searching :
    let p := Process.start (Env.still 1000)
    let w := (((p.call (.init World.ipv4Context (Id.ofBytes [1]) .succeed)).after searching).call
      (.api World.samplePlatform World.ipv4Context (.periodic none))).world
    ∀ sr ∈ w.searches, sr.done = false → 0 ≤ w.tosleep ∧ w.tosleep ≤ 24 :=
  tosleep_le_of_search (fun _ _ _ => le_rfl) (by decide) (by decide +kernel) valid_searching _ _
    fun _ hd => absurd hd (Option.not_mem_none _)

end DtnDht
