import DtnDht.Lib.Runs
import DtnDht.SilentSteps

/-!
# The array of blacklisted nodes

`blacklist_node` writes to the ten slots of an array in turn, and `node_blacklisted` compares each
of them in as many bytes as its caller passes. `search_step` announces with the size of a
`struct sockaddr_storage`, so that an address is refused only if its slot holds zeros behind it;
a slot that held an IPv6 address before does not, and padding that is not zeroed is compared as
well. Kept bare everywhere, a blacklisted address is shunned until ten others have been blacklisted
(`blacklisted_shunned`).
-/

namespace DtnDht

open CString

/-! ## Runs -/

/-- Is this a call of `dtn_dht_init`? -/
def ProcessCall.isInit : ProcessCall → Bool
  | .init _ _ _ => true
  | _ => false

namespace Process

/-- The call of `blacklist_node` that a call of the application leads to, if any. -/
def blacklisting (p : Process) : ProcessCall → Option Blacklisting
  | .api lib ctx (.periodic (some dg)) => (p.world.maintainLists ctx).blacklisting lib dg
  | _ => none

/-- The addresses that come with a call have the lengths of their families and are bare if they are
`a`, and so are the peers that are decoded. -/
def Harmless (a : Sockaddr) (p : Process) : ProcessCall → Prop
  | .api lib ctx (.periodic (some dg)) =>
    IsSockaddr dg.frm dg.fromlen ∧ Bare a dg.frm dg.fromlen ∧
      ∀ m ∈ (p.world.maintainLists ctx).gettimeofday.messageOf lib dg,
        World.ValuesBare a (p.world.maintainLists ctx).gettimeofday.env.memory m dg.fromlen
  | .insertNode _ sa salen => IsSockaddr sa salen ∧ Bare a sa salen
  | .pingNode sa salen => Bare a sa salen
  | _ => True

instance (a : Sockaddr) (p : Process) : ∀ c, Decidable (Harmless a p c)
  | .api lib ctx (.periodic (some dg)) =>
    inferInstanceAs (Decidable (IsSockaddr dg.frm dg.fromlen ∧ Bare a dg.frm dg.fromlen ∧
      ∀ m ∈ (p.world.maintainLists ctx).gettimeofday.messageOf lib dg,
        World.ValuesBare a (p.world.maintainLists ctx).gettimeofday.env.memory m dg.fromlen))
  | .insertNode _ sa salen => inferInstanceAs (Decidable (IsSockaddr sa salen ∧ Bare a sa salen))
  | .pingNode sa salen => inferInstanceAs (Decidable (Bare a sa salen))
  | .api _ _ (.periodic none) | .api _ _ (.lookup _) | .api _ _ (.announce _ _)
  | .api _ _ (.deannounce _) | .init _ _ _ | .uninit | .blacklist _ | .startRandomLookup _ =>
    inferInstanceAs (Decidable True)

variable {a : Sockaddr} {p : Process} {c : ProcessCall}

open World

theorem world_call_periodic (p : Process) (lib : Platform) (ctx : Context) (dg : Option Datagram) :
    (p.call (.api lib ctx (.periodic dg))).world =
      ((p.world.maintainLists ctx).dhtPeriodic lib ctx.clayer dg).2 := rfl

variable (ha : a.family ≠ 0)
include ha

/-- A call that blacklists nobody. -/
theorem silent_call (h : p.world.Bare a) (hc : Harmless a p c) (hb : p.blacklisting c = none) :
    Restarted a p.world (p.call c).world ∧
      (c.isInit = false → Silent a p.world (p.call c).world) := by
  have hrefl := Silent.refl h
  have hboth {w : World} (h : Silent a p.world w) :
      Restarted a p.world w ∧ (c.isInit = false → Silent a p.world w) :=
    ⟨h.restarted, fun _ => h⟩
  cases c with
  | init ctx id oc =>
    refine ⟨?_, nofun⟩
    have hready : Silent a p.world (p.world.readyToInit ctx) := hrefl.congr rfl
    exact hready.trans_restarted (restarted_dhtInitWith ha hready.bare)
  | uninit =>
    have hfree : Silent a p.world p.freeRatings.world := hrefl.congr rfl
    have hempty := hfree.emptyLists
    refine hboth ?_
    dsimp only [Process.call, Process.uninit]
    generalize p.freeRatings.world.emptyLists = w at hempty
    have hblacklist : Silent a p.world
        { w with dtn := { w.dtn with blacklist := w.dtn.blacklist.free } } := hempty.congr rfl
    exact hblacklist.trans (silent_dhtUninit hblacklist.bare)
  | blacklist enable => exact hboth (hrefl.congr rfl)
  | startRandomLookup ctx => exact hboth (hrefl.startRandomLookup ctx ha)
  | insertNode id sa salen =>
    refine hboth ?_
    dsimp only [Process.call, World.dhtInsertNode]
    split_ifs
    · exact hrefl
    · exact hrefl.newNode ha hc.1 hc.2 id 0
  | pingNode sa salen => exact hboth (hrefl.request (skips_dhtSendBuf hc _ _))
  | api lib ctx call =>
    refine hboth ?_
    cases call with
    | lookup eid => exact hrefl.dtnDhtLookup ctx ha lib.sha1 eid
    | announce eid type => exact hrefl.dtnDhtAnnounce ctx ha lib.sha1 eid type
    | deannounce eid => exact hrefl.congr rfl
    | periodic dg =>
      have hlists := hrefl.maintainLists ctx ha
      rw [world_call_periodic]
      cases dg with
      | none =>
        generalize p.world.maintainLists ctx = w at hlists
        exact hlists.dhtPeriodic_none ha
      | some dg =>
        unfold blacklisting at hb
        unfold Harmless at hc
        dsimp only at hb hc
        generalize p.world.maintainLists ctx = w at hlists hb hc
        exact hlists.dhtPeriodic ha hc.1 hc.2.1 hc.2.2 hb

/-- A call that blacklists somebody. -/
theorem silent_call_of_blacklisting (h : p.world.Bare a) (hc : Harmless a p c) {b : Blacklisting}
    (hb : p.blacklisting c = some b) :
    Silent a p.world b.before ∧ Silent a b.after (p.call c).world := by
  unfold blacklisting at hb
  split at hb
  · rename_i lib ctx dg
    have hlists := (Silent.refl h).maintainLists ctx ha
    rw [world_call_periodic]
    unfold Harmless at hc
    dsimp only at hb hc
    generalize p.world.maintainLists ctx = w at hlists hb hc
    exact silent_blacklisting ha hc.1 hc.2.1 hc.2.2 hlists hb
  · exact absurd hb nofun

omit ha in
/-- The address that is blacklisted is that of the datagram. -/
theorem isSockaddr_of_blacklisting (hc : Harmless a p c) {b : Blacklisting}
    (hb : p.blacklisting c = some b) : IsSockaddr b.sa b.salen := by
  unfold blacklisting at hb
  split at hb
  · unfold World.blacklisting at hb
    dsimp only at hb
    split_ifs at hb
    obtain ⟨m, -, hb⟩ := Option.bind_eq_some_iff.mp hb
    split_ifs at hb
    exact Option.some_inj.mp hb ▸ hc.1
  · exact absurd hb nofun

/-- What holds of every process: the addresses are kept bare, and `next_blacklisted` is a place of
the array. -/
structure Settled (a : Sockaddr) (p : Process) : Prop where
  bare : p.world.Bare a
  length : p.world.snubbed.length = 10
  next : p.world.nextBlacklisted < 10

theorem Settled.call (h : Settled a p) (hc : Harmless a p c) : Settled a (p.call c) := by
  cases hb : p.blacklisting c with
  | none =>
    obtain ⟨n, hn, hsilent⟩ := (silent_call ha h.bare hc hb).1
    refine ⟨hsilent.bare, hsilent.snubbed ▸ h.length, ?_⟩
    rw [hsilent.next]
    rcases hn with rfl | rfl
    · exact Nat.zero_lt_succ 9
    · exact h.next
  | some b =>
    obtain ⟨hbefore, hsilent⟩ := silent_call_of_blacklisting ha h.bare hc hb
    refine ⟨hsilent.bare, ?_, ?_⟩
    · rw [hsilent.snubbed]
      unfold Blacklisting.after World.blacklistNode
      rw [List.length_modify]
      exact hbefore.snubbed ▸ h.length
    · rw [hsilent.next]
      exact Nat.mod_lt _ (by decide)

omit ha in
theorem settled_start (env : Env) : Settled a (start env) :=
  ⟨⟨fun af b hb => by
      unfold start World.initial Routing.table at hb
      split_ifs at hb
      · exact absurd hb List.not_mem_nil
      · exact absurd hb List.not_mem_nil,
    fun sr hsr => absurd hsr List.not_mem_nil⟩, List.length_replicate, Nat.zero_lt_succ 9⟩

theorem settled_after {past : List ProcessCall} {p₀ : Process} (h₀ : Settled a p₀)
    (h : Runs.EachStep Process.call (Harmless a) p₀ past) : Settled a (p₀.after past) :=
  h.foldr (fun _ _ hc hp => hp.call ha hc) h₀

end Process

/-! ## A blacklisted address -/

namespace Blacklisting

/-- The slot that is written holds zeros behind the address, and the address zeros beside its
port and IP. -/
def Clean (b : Blacklisting) : Prop :=
  ∀ old ∈ b.before.snubbed[b.before.nextBlacklisted]?, memcpy old b.sa b.salen = padded b.sa

instance (b : Blacklisting) : Decidable b.Clean :=
  inferInstanceAs (Decidable (∀ old ∈ b.before.snubbed[b.before.nextBlacklisted]?,
    memcpy old b.sa b.salen = padded b.sa))

/-- Since the call nothing has been sent to the address, and nothing will be; and what comes from
it is not read. -/
structure Shunned (b : Blacklisting) (w : World) : Prop where
  sent : ∃ new, w.outputs = b.after.outputs ++ new ∧ World.Avoids b.sa new
  refused : ∀ buf flags sa salen, endpoint sa = endpoint b.sa → Bare b.sa sa salen →
    dhtSend w.net buf flags sa salen = []
  dropped : ∀ dg : Datagram, endpoint dg.frm = endpoint b.sa → Bare b.sa dg.frm dg.fromlen →
    w.ignores dg = true

/-- The address is still in its slot. -/
structure Held (b : Blacklisting) (w : World) : Prop where
  bare : w.Bare b.sa
  slot : w.snubbed[b.before.nextBlacklisted]? = some (padded b.sa)
  sent : ∃ new, w.outputs = b.after.outputs ++ new ∧ World.Avoids b.sa new

variable {b : Blacklisting} {w w' : World}

theorem Held.silent (h : b.Held w) (hs : World.Silent b.sa w w') : b.Held w' := by
  obtain ⟨new, hnew, havoid⟩ := h.sent
  obtain ⟨new', hnew', havoid'⟩ := hs.outputs
  refine ⟨hs.bare, hs.snubbed ▸ h.slot, new ++ new', ?_, ?_⟩
  · rw [hnew', hnew, List.append_assoc]
  · exact havoid.append (havoid' (List.mem_of_getElem? h.slot))

theorem Held.shunned (h : b.Held w) : b.Shunned w := by
  have hrefuses := World.refuses_of_mem (List.mem_of_getElem? h.slot)
  refine ⟨h.sent, fun buf flags sa salen heq hbare => ?_, fun dg heq hbare => ?_⟩
  · exact dhtSend_of_nodeBlacklisted (hrefuses sa salen heq (hbare heq)) buf flags
  · unfold World.ignores
    rw [hrefuses dg.frm dg.fromlen heq (hbare heq), Bool.or_true]

end Blacklisting

namespace Process

/-- How often `blacklist_node` is called in some calls, the latest first. -/
def blacklistCalls (p : Process) : List ProcessCall → ℕ
  | [] => 0
  | c :: past => p.blacklistCalls past + if ((p.after past).blacklisting c).isSome then 1 else 0

/-- If `blacklist_node` is called, it writes to another slot. -/
def KeepsSlot (b : Blacklisting) (p : Process) (c : ProcessCall) : Prop :=
  ∀ b' ∈ p.blacklisting c, b'.before.nextBlacklisted ≠ b.before.nextBlacklisted

variable {p : Process} {c : ProcessCall} {b : Blacklisting} {future : List ProcessCall}

theorem after_append (p : Process) (future past : List ProcessCall) :
    p.after (future ++ past) = (p.after past).after future := List.foldr_append

section

variable (ha : b.sa.family ≠ 0)
include ha

theorem held_call (h : b.Held p.world) (hc : Harmless b.sa p c) (hk : KeepsSlot b p c) :
    b.Held (p.call c).world := by
  cases hb : p.blacklisting c with
  | none =>
    obtain ⟨n, -, hsilent⟩ := (silent_call ha h.bare hc hb).1
    have hset : b.Held { p.world with nextBlacklisted := n } :=
      ⟨⟨h.bare.table, h.bare.searches⟩, h.slot, h.sent⟩
    exact hset.silent hsilent
  | some b' =>
    obtain ⟨hbefore, hsilent⟩ := silent_call_of_blacklisting ha h.bare hc hb
    have hheld := h.silent hbefore
    obtain ⟨hbare, new', hnew', havoid'⟩ :=
      World.blacklistNode_spec ha hheld.bare b'.id b'.sa b'.salen
    obtain ⟨new, hnew, havoid⟩ := hheld.sent
    refine Blacklisting.Held.silent ⟨hbare, ?_, new ++ new', ?_, ?_⟩ hsilent
    · have hslot := hheld.slot
      have hne := hk b' hb
      unfold World.blacklistNode
      exact (List.getElem?_modify_ne _ _ hne).trans hslot
    · rw [hnew', hnew, List.append_assoc]
    · exact havoid.append (havoid' (List.mem_of_getElem? hheld.slot))

/-- A slot that is clean holds the bare address from the call on. -/
theorem held_of_blacklisting (h : Settled b.sa p) (hc : Harmless b.sa p c)
    (hb : p.blacklisting c = some b) (hclean : b.Clean) : b.Held (p.call c).world := by
  obtain ⟨hbefore, hsilent⟩ := silent_call_of_blacklisting ha h.bare hc hb
  have hlen : b.before.snubbed.length = 10 := hbefore.snubbed ▸ h.length
  have hlt : b.before.nextBlacklisted < 10 := hbefore.next ▸ h.next
  have hget : b.before.snubbed[b.before.nextBlacklisted]? = some _ :=
    List.getElem?_eq_getElem (hlen ▸ hlt)
  have hslot : b.after.snubbed[b.before.nextBlacklisted]? = some (padded b.sa) := by
    unfold Blacklisting.after World.blacklistNode
    rw [← hclean _ hget]
    refine (List.getElem?_modify_eq _ _ _).trans ?_
    exact congrArg (Option.map _) hget
  have hbare : b.after.Bare b.sa :=
    (World.blacklistNode_spec ha hbefore.bare b.id b.sa b.salen).1
  exact Blacklisting.Held.silent ⟨hbare, hslot, [], (List.append_nil _).symm, World.avoids_nil⟩
    hsilent

/-- The array is written in turn. -/
theorem next_after (h : Settled b.sa p)
    (hsteps : Runs.EachStep Process.call (Harmless b.sa) p future)
    (hinit : ∀ c ∈ future, c.isInit = false) :
    (p.after future).world.nextBlacklisted =
      (p.world.nextBlacklisted + p.blacklistCalls future) % 10 := by
  induction future with
  | nil => exact (Nat.mod_eq_of_lt h.next).symm
  | cons c future ih =>
    rw [List.forall_mem_cons] at hinit
    have hafter : Settled b.sa (p.after future) := settled_after ha h hsteps.2
    have hnext := ih hsteps.2 hinit.2
    have hcons : p.after (c :: future) = (p.after future).call c := rfl
    rw [hcons, blacklistCalls]
    cases hb : (p.after future).blacklisting c with
    | none =>
      rw [((silent_call ha hafter.bare hsteps.1 hb).2 hinit.1).next, hnext]
      rfl
    | some b' =>
      obtain ⟨hbefore, hsilent⟩ := silent_call_of_blacklisting ha hafter.bare hsteps.1 hb
      have hwrite : b'.after.nextBlacklisted = (b'.before.nextBlacklisted + 1) % 10 := rfl
      rw [hsilent.next, hwrite, hbefore.next, hnext, Option.isSome_some, if_pos rfl]
      omega

/-- Ten calls write to the ten slots of the array. -/
theorem keepsSlot_of_few (h : Settled b.sa p)
    (hsteps : Runs.EachStep Process.call (Harmless b.sa) p future)
    (hinit : ∀ c ∈ future, c.isInit = false)
    (hnext : p.world.nextBlacklisted = (b.before.nextBlacklisted + 1) % 10)
    (hfew : p.blacklistCalls future < 10) :
    Runs.EachStep Process.call (KeepsSlot b) p future := by
  induction future with
  | nil => trivial
  | cons c future ih =>
    rw [List.forall_mem_cons] at hinit
    rw [blacklistCalls] at hfew
    refine ⟨fun b' hb => ?_, ih hsteps.2 hinit.2 (by omega)⟩
    have hafter : Settled b.sa (p.after future) := settled_after ha h hsteps.2
    have hbefore := (silent_call_of_blacklisting ha hafter.bare hsteps.1 hb).1
    have hcall : ((p.after future).blacklisting c).isSome = true :=
      Option.isSome_iff_exists.mpr ⟨b', hb⟩
    rw [hcall, if_pos rfl] at hfew
    rw [hbefore.next, next_after ha h hsteps.2 hinit.2, hnext]
    omega

end

/-- An IPv4 address. -/
def peer4 (n : UInt8) : Sockaddr := sockaddrIn [9, 9, 9, n] [26, 225]

/-- A reply of node `n` whose transaction id is cut off. -/
def brokenReply (n : UInt8) : Datagram where
  buf := str "d1:rd2:id20:" ++ List.replicate 20 n ++ str "e1:t2:pn1:y1:re"
  terminated := true
  frm := peer4 n
  fromlen := 16

/-- A datagram is received. -/
def receive (dg : Datagram) : ProcessCall :=
  .api World.samplePlatform World.bothContext (.periodic (some dg))

/-- **A blacklisted address is shunned until the array has come round, if it is kept bare.** It is
passed bare to the library, `blacklist_node` leaves it bare in its slot, and if `dtn_dht_init` sets
`next_blacklisted` back to 0 the slot is not written to again. Shunned means at every moment:
between two calls, when `dht_periodic` is given a datagram, and when it calls `blacklist_node`. -/
theorem blacklisted_shunned (env : Env) {past future : List ProcessCall} {c : ProcessCall}
    {b : Blacklisting} (hb : ((start env).after past).blacklisting c = some b) (hclean : b.Clean)
    (hsteps : Runs.EachStep Process.call (Harmless b.sa) (start env) (future ++ c :: past))
    (hfew : ((start env).after (c :: past)).blacklistCalls future < 10)
    (hinit : (∃ c ∈ future, c.isInit = true) →
      Runs.EachStep Process.call (KeepsSlot b) ((start env).after (c :: past)) future) :
    b.Shunned ((start env).after (future ++ c :: past)).world ∧
      (∀ ctx, b.Shunned
        (((start env).after (future ++ c :: past)).world.maintainLists ctx).gettimeofday) ∧
      ∀ c' b', ((start env).after (future ++ c :: past)).blacklisting c' = some b' →
        Harmless b.sa ((start env).after (future ++ c :: past)) c' → b.Shunned b'.before := by
  obtain ⟨hpast, hfuture⟩ := Runs.eachStep_append.mp hsteps
  have ha : b.sa.family ≠ 0 := (isSockaddr_of_blacklisting hpast.1 hb).family_ne_zero
  have hp := settled_after ha (settled_start env) hpast.2
  have hp₁ := settled_after ha (settled_start env) hpast
  have hsilent := (silent_call_of_blacklisting ha hp.bare hpast.1 hb).2
  have hheld : b.Held ((start env).after (c :: past)).world :=
    held_of_blacklisting ha hp hpast.1 hb hclean
  have hkeeps :
      Runs.EachStep Process.call (KeepsSlot b) ((start env).after (c :: past)) future := by
    by_cases hany : ∃ c ∈ future, c.isInit = true
    · exact hinit hany
    · push Not at hany
      refine keepsSlot_of_few ha hp₁ hfuture (fun c hc => Bool.eq_false_iff.mpr (hany c hc)) ?_
        hfew
      exact hsilent.next
  have hend : b.Held ((start env).after (future ++ c :: past)).world := by
    rw [after_append]
    exact (hfuture.and hkeeps).foldr (q := fun p => b.Held p.world)
      (fun _ _ h hheld => held_call ha hheld h.1 h.2) hheld
  refine ⟨hend.shunned, fun ctx => ?_, fun c' b' hb' hc' => ?_⟩
  · have hlists := (World.Silent.refl hend.bare).maintainLists ctx ha
    exact (hend.silent hlists.gettimeofday).shunned
  · exact (hend.silent (silent_call_of_blacklisting ha hend.bare hc' hb').1).shunned

/-- An IPv4 and IPv6 node is started. -/
def initBoth : ProcessCall := .init World.bothContext (Id.ofBytes [1]) .succeed

/-- An IPv4 node is blacklisted, and then it answers a ping. -/
theorem blacklisted_shunned_brokenReply :
    ∃ b, ((start (Env.still 1000)).after [initBoth]).blacklisting (receive (brokenReply 9)) =
        some b ∧ b.sa = peer4 9 ∧
      b.Shunned ((start (Env.still 1000)).after ([receive (World.pingReply 9)] ++
        receive (brokenReply 9) :: [initBoth])).world := by
  have hrun : (((start (Env.still 1000)).after [initBoth]).blacklisting
      (receive (brokenReply 9))).any (fun b => b.sa = peer4 9 ∧ b.Clean) = true := by
    decide +kernel
  obtain ⟨b, hb, hsa⟩ := (Option.any_eq_true _ _).mp hrun
  obtain ⟨hsa, hclean⟩ := of_decide_eq_true hsa
  refine ⟨b, hb, hsa, (blacklisted_shunned (Env.still 1000) hb hclean ?_ ?_ ?_).1⟩
  · rw [hsa]
    decide +kernel
  · decide +kernel
  · rintro ⟨c, hc, hinit⟩
    rw [List.mem_singleton.mp hc] at hinit
    exact absurd hinit nofun

/-- An IPv6 address. -/
def peer6 (n : UInt8) : Sockaddr :=
  sockaddrIn6 ([32, 1, 13, 184] ++ List.replicate 11 7 ++ [n]) [26, 225]

/-- A reply of node `n` to `get_peers`, with a token and a node that is cut off. -/
def brokenTokenReply (n : UInt8) : Datagram where
  buf := str "d1:rd2:id20:" ++ List.replicate 20 n ++ str "5:nodes5:abcde5:token4:tttte1:t4:gp" ++
    [1, 0] ++ str "1:y1:re"
  terminated := true
  frm := peer4 n
  fromlen := 16

/-- The datagram comes from an IPv6 address. -/
def fromPeer6 (n : UInt8) (dg : Datagram) : Datagram := { dg with frm := peer6 n, fromlen := 28 }

/-- Some time passes before the last call. -/
def lapEnv : Env :=
  { Env.still 1000000 with clock := fun k => if k < 41 then 1000000 else 1000020 }

/-- The array goes round once: an EID is announced to an IPv4 node and eight IPv6 ones, and then an
IPv6 and nine IPv4 addresses are blacklisted. -/
def lap : List ProcessCall :=
  ([59, 58, 57, 56, 55, 54, 53, 52, 51] : List UInt8).map (fun n => receive (brokenReply n)) ++
    receive (fromPeer6 50 (brokenReply 50)) ::
    .api World.samplePlatform World.bothContext (.announce (str "dtn:a") .singleton) ::
    receive (World.pingReply 100) ::
    ([8, 7, 6, 5, 4, 3, 2, 1] : List UInt8).map
      (fun n => receive (fromPeer6 n (World.pingReply n))) ++
    [initBoth]

/-- The IPv4 node is blacklisted in the slot of an IPv6 address, and at once it is announced to. -/
theorem not_shunned_lap :
    Runs.EachStep Process.call (Harmless (peer4 100)) (start lapEnv)
      (receive (brokenTokenReply 100) :: lap) ∧
    ∃ b, ((start lapEnv).after lap).blacklisting (receive (brokenTokenReply 100)) = some b ∧
      b.sa = peer4 100 ∧
      ¬ b.Shunned ((start lapEnv).after (receive (brokenTokenReply 100) :: lap)).world := by
  refine ⟨by decide +kernel, ?_⟩
  have hrun : (((start lapEnv).after lap).blacklisting (receive (brokenTokenReply 100))).any
      (fun b => b.sa = peer4 100 ∧
        ∃ o ∈ ((start lapEnv).after (receive (brokenTokenReply 100) :: lap)).world.outputs.drop
          b.after.outputs.length, ∃ p ∈ o.packet, endpoint p.dest = endpoint (peer4 100)) =
      true := by decide +kernel
  obtain ⟨b, hb, hpacket⟩ := (Option.any_eq_true _ _).mp hrun
  obtain ⟨hsa, o, ho, p, hp, hdest⟩ := of_decide_eq_true hpacket
  refine ⟨b, hb, hsa, fun hshunned => ?_⟩
  obtain ⟨new, hnew, havoid⟩ := hshunned.sent
  rw [hnew, List.drop_left] at ho
  exact havoid p (List.mem_filterMap.mpr ⟨o, ho, hp⟩) (hsa ▸ hdest)

end Process

end DtnDht
