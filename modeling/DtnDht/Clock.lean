import DtnDht.Writes
import DtnDht.Lib.Deadlines

/-!
# The clock of a process

`now` is what the last call of `dht_periodic` read. If the clock of the environment does not go
back, neither does `now`, in any run, and it never runs ahead of the clock (`steady_after`).
-/

namespace DtnDht

open Relation

namespace World

/-- The clock does not go back. -/
structure Steady (w : World) : Prop where
  now_le : w.now ≤ w.env.clock 0
  monotone : Monotone w.env.clock

theorem forward_write : Deadlines.Forward Write World.now Steady := by
  intro w w' h hw
  cases hw with
  | other hcore hclock =>
    obtain ⟨d, hd⟩ := hclock
    have hnow : w'.now = w.now := congrArg Statics.now hcore
    refine ⟨⟨?_, fun k l hkl => ?_⟩, hnow.ge⟩
    · rw [hnow, hd]
      exact h.now_le.trans (h.monotone (Nat.zero_le _))
    · rw [hd, hd]
      exact h.monotone (Nat.add_le_add_right hkl d)
  | gettimeofday =>
    exact ⟨⟨h.monotone (Nat.zero_le 1), fun k l hkl => h.monotone (Nat.succ_le_succ hkl)⟩,
      h.now_le⟩
  | routing | searches | searchTime | dhtSearch | storageStore | expireStorage | rotateSecrets =>
    exact ⟨⟨h.now_le, h.monotone⟩, le_rfl⟩

variable {w : World}

/-! ## Starting and stopping -/

section

variable {s s6 : ℤ} {id : Id} {v : Option Bytes} {oc : InitOutcomes}

theorem Steady.initRest (h : w.Steady) : (w.initRest s s6 id v oc).2.Steady := by
  unfold World.initRest
  dsimp only
  split_ifs <;>
    exact ⟨h.monotone (Nat.zero_le 1), fun k l hkl => h.monotone (Nat.succ_le_succ hkl)⟩

theorem Steady.initFamily6 (h : w.Steady) : (w.initFamily6 s s6 id v oc).2.Steady := by
  have htable (bs : List Bucket) :
      Steady { w with routing := { w.routing with buckets6 := bs } } := ⟨h.now_le, h.monotone⟩
  unfold World.initFamily6
  split_ifs
  · exact (htable _).initRest
  · exact ⟨h.now_le, h.monotone⟩
  · exact h
  · exact h.initRest

theorem Steady.dhtInitWith (h : w.Steady) : (w.dhtInitWith s s6 id v oc).2.Steady := by
  have hempty (eids : DtnEids) : Steady { w with
      searches := []
      numsearches := 0
      storage := []
      eids := eids } := ⟨h.now_le, h.monotone⟩
  have htable (eids : DtnEids) (bs : List Bucket) : Steady { w with
      searches := []
      numsearches := 0
      storage := []
      eids := eids
      routing := { w.routing with buckets := bs } } := ⟨h.now_le, h.monotone⟩
  unfold World.dhtInitWith World.initFamily
  dsimp only
  split_ifs
  · exact h
  · exact (htable _ _).initFamily6
  · exact ⟨h.now_le, h.monotone⟩
  · exact hempty _
  · exact (hempty _).initFamily6

end

end World

/-! ## Runs -/

namespace Process

variable {p : Process} {c : ProcessCall}

theorem steady_call (h : p.world.Steady) (hc : c.Valid) : (p.call c).world.Steady := by
  cases hr : c.restarts with
  | false => exact (World.forward_write.run h (p.writes_call hr hc)).1
  | true =>
    cases c with
    | init ctx id oc =>
      have hready : (p.world.readyToInit ctx).Steady := ⟨h.now_le, h.monotone⟩
      exact hready.dhtInitWith
    | uninit =>
      have hempty : World.Writes p.freeRatings.world p.freeRatings.world.emptyLists :=
        World.Writes.cleanUpLookups
          (World.Writes.cleanUpAnnouncements .refl _ (-1)) (-1)
      have hfree : p.freeRatings.world.Steady := ⟨h.now_le, h.monotone⟩
      have hlists := (World.forward_write.run hfree hempty).1
      have huninit (b : Blacklist) : World.Steady (World.dhtUninit
          { p.freeRatings.world.emptyLists with
            dtn := { p.freeRatings.world.emptyLists.dtn with blacklist := b } }).2 := by
        unfold World.dhtUninit
        split_ifs <;> exact ⟨hlists.now_le, hlists.monotone⟩
      exact huninit _
    | api | blacklist | startRandomLookup | insertNode | pingNode =>
      exact absurd hr Bool.noConfusion

/-- The clock of a process does not go back if that of its environment does not. -/
theorem steady_after {env : Env} (h0 : 0 ≤ env.clock 0) (hclock : Monotone env.clock)
    {past : List ProcessCall} (hv : ∀ c ∈ past, c.Valid) :
    ((start env).after past).world.Steady := by
  induction past with
  | nil => exact ⟨h0, hclock⟩
  | cons c past ih =>
    exact steady_call (ih fun c hc => hv c (List.mem_cons_of_mem _ hc))
      (hv c List.mem_cons_self)

/-- The calls between two starts or stops are sequences of writes. -/
theorem writes_after (p : Process) {later : List ProcessCall}
    (hl : ∀ c ∈ later, c.restarts = false ∧ c.Valid) :
    World.Writes p.world (p.after later).world := by
  induction later with
  | nil => exact .refl
  | cons c later ih =>
    obtain ⟨hr, hv⟩ := hl c List.mem_cons_self
    exact (ih fun c hc => hl c (List.mem_cons_of_mem _ hc)).trans
      ((p.after later).writes_call hr hv)

/-! ### Datagrams -/

/-- The state in which `dht_periodic`, called by `dtn_dht_periodic`, takes a datagram. -/
def listening (p : Process) (ctx : Context) : World := (p.world.maintainLists ctx).gettimeofday

/-- The process after `dtn_dht_periodic` with a datagram. -/
def hear (p : Process) (lib : Platform) (ctx : Context) (dg : Datagram) : Process :=
  p.call (.api lib ctx (.periodic (some dg)))

theorem writes_listening (p : Process) (ctx : Context) : World.Writes p.world (p.listening ctx) :=
  World.Writes.write (World.Writes.maintainLists ctx .refl) .gettimeofday

/-- What a process does until it takes a datagram. -/
theorem writes_until (p : Process) {later : List ProcessCall}
    (hl : ∀ c ∈ later, c.restarts = false ∧ c.Valid) (ctx : Context) :
    World.Writes p.world ((p.after later).listening ctx) :=
  (writes_after p hl).trans (writes_listening _ ctx)

end Process

end DtnDht
