import DtnDht.DtnQuery
import DtnDht.Frame

/-!
# The rate limit

Queries take a token before they are answered, and the bucket of tokens is refilled lazily, so
that between `dht_init` and any later time at most 400 queries and 100 more for each second are
answered. But a query for our DTN EID is answered before the rate limit: each of them comes on top
(`replies_le`), and the bound holds in the runs that answer none (`rate_limit`).
-/

namespace DtnDht

open CString

/-- A call of `dht_periodic`: the EIDs announced by then, the convergence layers of its context
and the datagram. -/
structure PeriodicCall where
  eids : DtnEids
  clayer : List ConvergenceLayer
  dg : Option Datagram

namespace World

variable (lib : Platform)

/-- The state after a call of `dht_periodic`. -/
def periodic (w : World) (c : PeriodicCall) : World :=
  ({ w with eids := c.eids }.dhtPeriodic lib c.clayer c.dg).2

/-- The state after a run of calls of `dht_periodic`. -/
def periodicRun (w : World) (cs : List PeriodicCall) : World := cs.foldl (periodic lib) w

/-- Does the call answer a query for our DTN EID? -/
def answersDtn (w : World) (c : PeriodicCall) : Bool :=
  let w := { w with eids := c.eids }
  c.dg.any fun dg => !w.ignores dg && dg.terminated &&
    (w.parseDtn lib dg).message == some .dtnQuery &&
    w.answersDtnQuery (w.parseDtn lib dg).result.eid

/-- The number of calls of a run that answer a query for our DTN EID. -/
def dtnAnswers : World → List PeriodicCall → ℕ
  | _, [] => 0
  | w, c :: cs => (if w.answersDtn lib c then 1 else 0) + dtnAnswers (w.periodic lib c) cs

/-- No call of a run answers a query for our DTN EID. -/
def AnswersNoDtn : World → List PeriodicCall → Prop
  | _, [] => True
  | w, c :: cs => w.answersDtn lib c = false ∧ AnswersNoDtn (w.periodic lib c) cs

/-! ## The invariant -/

/-- Of the replies sent so far all but `n` were granted by the bucket since `t0`, and the clock
does not go back. -/
structure RateOk (t0 : ℤ) (n : ℕ) (w : World) : Prop where
  within : LazyBucket.Within 400 100 t0 w.now (w.replies.length - n) w.bucket
  clock : Monotone w.env.clock
  now_le : w.now ≤ w.env.clock 0

variable {lib} {t0 : ℤ} {n : ℕ} {w w' : World}

theorem RateOk.quiet (h : RateOk t0 n w) (hq : Quiet w w') : RateOk t0 n w' := by
  refine ⟨?_, hq.clock.symm ▸ h.clock, ?_⟩
  · rw [hq.now, hq.replies, hq.bucket]
    exact h.within
  · rw [hq.now, hq.clock]
    exact h.now_le

/-- A packet that is sent without a token. -/
theorem RateOk.answers (h : RateOk t0 n w) (ha : Answers w w') : RateOk t0 (n + 1) w' := by
  refine ⟨?_, ha.clock.symm ▸ h.clock, ?_⟩
  · obtain ⟨hn, ht, hle⟩ := h.within
    have hr := ha.replies
    rw [ha.now, ha.bucket]
    refine ⟨hn, ht, ?_⟩
    push_cast
    omega
  · rw [ha.now, ha.clock]
    exact h.now_le

/-- EIDs are announced. -/
theorem RateOk.announce (h : RateOk t0 n w) (eids : DtnEids) :
    RateOk t0 n { w with eids := eids } :=
  ⟨h.within, h.clock, h.now_le⟩

/-- The clock is read. -/
theorem RateOk.gettimeofday (h : RateOk t0 n w) : RateOk t0 n w.gettimeofday where
  within := h.within.mono h.now_le
  clock := fun _ _ hij => h.clock (Nat.succ_le_succ hij)
  now_le := h.clock (Nat.zero_le 1)

/-- A query that is answered takes a token. -/
theorem RateOk.query (h : RateOk t0 n w) (m : Message) (frm : Sockaddr) (fromlen : ℕ)
    (sha1 : Bytes → Bytes) : RateOk t0 n
      (match w.takeToken with
        | (false, w) => w
        | (true, w) => w.query m frm fromlen sha1) := by
  have hw := h.within.take (by decide) (by decide)
  have e : LazyBucket.take 400 100 w.now w.bucket = tokenBucket w.now w.bucket := rfl
  rw [e] at hw
  unfold takeToken
  cases ht : (tokenBucket w.now w.bucket).1 with
  | false =>
    rw [ht, if_neg Bool.false_ne_true, add_zero] at hw
    exact ⟨hw, h.clock, h.now_le⟩
  | true =>
    rw [ht, if_pos rfl] at hw
    set w1 : World := { w with bucket := (tokenBucket w.now w.bucket).2 } with hw1
    have ha := answers_query m frm fromlen sha1 w1
    have hb : (w1.query m frm fromlen sha1).bucket = (tokenBucket w.now w.bucket).2 := ha.bucket
    dsimp only
    refine ⟨?_, ha.clock.symm ▸ h.clock, ?_⟩
    · obtain ⟨hn, htime, hle⟩ := hw
      have hr : (w1.query m frm fromlen sha1).replies.length ≤ w.replies.length + 1 := ha.replies
      rw [ha.now, hb]
      refine ⟨hn, htime, ?_⟩
      omega
    · rw [ha.now, ha.clock]
      exact h.now_le

theorem RateOk.handle (h : RateOk t0 n w) (m : Message) (frm : Sockaddr) (fromlen : ℕ)
    (sha1 : Bytes → Bytes) : RateOk t0 n (w.handle m frm fromlen sha1) := by
  unfold World.handle
  split_ifs
  · exact h
  · exact h
  · exact h.quiet (calm_replyMessage m frm fromlen sha1 w).quiet
  · exact h.query m frm fromlen sha1

variable (lib) in
theorem RateOk.receive (h : RateOk t0 n w) (clayer : List ConvergenceLayer) (dg : Datagram) :
    RateOk t0 (n + if (w.parseDtn lib dg).message = some .dtnQuery ∧
      w.answersDtnQuery (w.parseDtn lib dg).result.eid = true then 1 else 0)
      (w.receive lib clayer dg) := by
  have hs := calm_stackTid w
  have hw := h.quiet hs.quiet
  unfold World.receive
  dsimp only
  rcases hq : (w.parseDtn lib dg).message with _ | kind
  · simp only [reduceCtorEq, false_and, if_false, add_zero]
    split
    · exact hw
    · exact hw.handle _ _ _ _
  · cases kind with
    | dtnQuery =>
      by_cases ha : w.answersDtnQuery (w.parseDtn lib dg).result.eid = true
      · have hif : w.stackTid.2.answersDtnQuery (w.parseDtn lib dg).result.eid = true := ha
        rw [if_pos ⟨rfl, ha⟩, if_pos hif]
        exact h.answers (hs.reply (length_dhtSendBuf_le _ _ _ _ _))
      · have hif : ¬ w.stackTid.2.answersDtnQuery (w.parseDtn lib dg).result.eid = true := ha
        rw [if_neg fun h => ha h.2, if_neg hif]
        exact hw
    | dtnReply =>
      simp only [Option.some.injEq, reduceCtorEq, false_and, if_false, add_zero]
      split_ifs
      · exact hw.quiet (calm_lookupResult _ _).quiet
      · exact hw
    | error | reply | ping | findNode | getPeers | announcePeer =>
      simp only [Option.some.injEq, reduceCtorEq, false_and, if_false, add_zero]
      split
      · exact hw
      · exact hw.handle _ _ _ _

/-! ## Runs -/

/-- A datagram that is not ignored is received before anything else is done. -/
theorem dhtPeriodic_of_not_ignores {clayer : List ConvergenceLayer} {dg : Datagram}
    (hi : w.gettimeofday.ignores dg = false) (ht : dg.terminated = true) :
    (w.dhtPeriodic lib clayer (some dg)).2 = (w.gettimeofday.receive lib clayer dg).doDue := by
  simp only [dhtPeriodic, hi, ht, Bool.not_true, Bool.false_eq_true, if_false]

/-- One call of `dht_periodic`: every reply is granted by the bucket but for the answer to a query
for our DTN EID. -/
theorem RateOk.periodic (h : RateOk t0 n w) (c : PeriodicCall) :
    RateOk t0 (n + if w.answersDtn lib c then 1 else 0) (w.periodic lib c) := by
  obtain ⟨eids, clayer, dg⟩ := c
  unfold World.periodic World.dhtPeriodic answersDtn
  replace h := h.announce eids
  dsimp only
  generalize { w with eids := eids } = w at h
  have hg := h.gettimeofday
  cases dg with
  | none => exact hg.quiet (quiet_doDue _)
  | some dg =>
    dsimp only [Option.any_some]
    by_cases hi : w.ignores dg = true
    · have hi' : w.gettimeofday.ignores dg = true := hi
      rw [if_pos hi']
      simpa [hi] using hg.quiet (quiet_doDue _)
    · have hi' : ¬ w.gettimeofday.ignores dg = true := hi
      rw [if_neg hi']
      by_cases ht : dg.terminated = true
      · have hr := RateOk.quiet (hg.receive lib clayer dg) (quiet_doDue _)
        have hp : w.gettimeofday.parseDtn lib dg = w.parseDtn lib dg := rfl
        have ha : w.gettimeofday.answersDtnQuery = w.answersDtnQuery := rfl
        rw [hp, ha] at hr
        simpa [hi, ht] using hr
      · simpa [ht] using hg

variable (lib) in
theorem RateOk.periodicRun (h : RateOk t0 n w) (cs : List PeriodicCall) :
    RateOk t0 (n + w.dtnAnswers lib cs) (w.periodicRun lib cs) := by
  induction cs generalizing n w with
  | nil => exact h
  | cons c cs ih =>
    rw [dtnAnswers, ← Nat.add_assoc]
    exact ih (h.periodic c)

/-- What `dht_init` does to the clock, the bucket and the answers. -/
theorem dhtInit_quiet (w : World) (s s6 : ℤ) (id : Id) (v : Option Bytes) :
    ∃ w' : World, Quiet w' (w.dhtInit s s6 id v) ∧ w'.now = w.env.clock 0 ∧
      w'.env.clock = (fun k => w.env.clock (k + 1)) ∧ w'.replies = w.replies ∧
      w'.bucket = ⟨w.env.clock 0, 400⟩ :=
  ⟨_, quiet_expireBuckets _, rfl, rfl, rfl, rfl⟩

/-- The rate limit starts with `dht_init`. -/
theorem RateOk.dhtInit (hclock : Monotone w.env.clock) (s s6 : ℤ) (id : Id) (v : Option Bytes) :
    RateOk (w.env.clock 0) w.replies.length (w.dhtInit s s6 id v) := by
  obtain ⟨w', hq, hnow, hc, hr, hb⟩ := dhtInit_quiet w s s6 id v
  refine RateOk.quiet ⟨?_, ?_, ?_⟩ hq
  · rw [hnow, hr, hb, sub_self]
    exact ⟨by simp, le_rfl, by simp⟩
  · rw [hc]
    exact fun _ _ hij => hclock (Nat.succ_le_succ hij)
  · rw [hnow, hc]
    exact hclock (Nat.zero_le 1)

theorem dtnAnswers_eq_zero {cs : List PeriodicCall} (h : AnswersNoDtn lib w cs) :
    w.dtnAnswers lib cs = 0 := by
  induction cs generalizing w with
  | nil => rfl
  | cons c cs ih =>
    obtain ⟨hc, hcs⟩ := h
    rw [dtnAnswers, hc, ih hcs]
    rfl

/-- After `dht_init` and a run of calls, at most 400 queries and 100 for each second have been
answered at any later time. -/
def RateLimited (lib : Platform) (w : World) (s s6 : ℤ) (id : Id) (v : Option Bytes)
    (cs : List PeriodicCall) : Prop :=
  ∀ t, ((w.dhtInit s s6 id v).periodicRun lib cs).now ≤ t →
    (((w.dhtInit s s6 id v).periodicRun lib cs).replies.length : ℤ) - w.replies.length ≤
      400 + 100 * (t - (w.dhtInit s s6 id v).now)

/-- All answers but those to queries for our DTN EID are within the limit. -/
theorem replies_le (hclock : Monotone w.env.clock) (s s6 : ℤ) (id : Id) (v : Option Bytes)
    (cs : List PeriodicCall) {t : ℤ} (ht : ((w.dhtInit s s6 id v).periodicRun lib cs).now ≤ t) :
    (((w.dhtInit s s6 id v).periodicRun lib cs).replies.length : ℤ) - w.replies.length ≤
      400 + 100 * (t - (w.dhtInit s s6 id v).now) + (w.dhtInit s s6 id v).dtnAnswers lib cs := by
  have h := (RateOk.dhtInit hclock s s6 id v).periodicRun lib cs
  have hle := (h.within.mono ht).granted_le (by decide)
  have hnow : (w.dhtInit s s6 id v).now = w.env.clock 0 := by
    obtain ⟨w', hq, hnow, -⟩ := dhtInit_quiet w s s6 id v
    rw [hq.now, hnow]
  rw [hnow]
  push_cast at hle
  linarith only [hle]

/-- **The rate limit holds in every run in which no query for our DTN EID is answered.** -/
theorem rate_limit (hclock : Monotone w.env.clock) (s s6 : ℤ) (id : Id) (v : Option Bytes)
    {cs : List PeriodicCall} (h : AnswersNoDtn lib (w.dhtInit s s6 id v) cs) :
    RateLimited lib w s s6 id v cs := by
  intro t ht
  have hle := replies_le hclock s s6 id v cs ht
  rw [dtnAnswers_eq_zero h, Nat.cast_zero, add_zero] at hle
  exact hle

/-! ## A flood of queries for our DTN EID -/

/-- SHA-1 and `inet_ntop` play no part in the flood. -/
def floodPlatform : Platform := ⟨fun b => b, fun _ _ => []⟩

/-- A query for our DTN EID from 9.9.9.9. -/
def floodDatagram : Datagram where
  buf := queryPacket (makeTid (str "pn") 0) (str "dtn:b")
  terminated := true
  frm := sockaddrIn [9, 9, 9, 9] [26, 225]
  fromlen := 16

/-- The EID of the node is announced. -/
def floodEids : DtnEids := { myEid := str "dtn:a", myEidChanged := true }

/-- The node receives the query. -/
def floodCall : PeriodicCall where
  eids := floodEids
  clayer := []
  dg := some floodDatagram

/-- A node before its start. All readings of its clock are the same. -/
def floodWorld : World := { World.initial (Env.still 1000) with eids := floodEids }

/-- The node after `dht_init`, with what it has sent since. -/
def flooded (outputs : List Output) : World :=
  { floodWorld.dhtInit 5 (-1) (Id.ofBytes [1]) none with outputs := outputs }

/-- The query is read as one, from dtn:b. -/
theorem parse_floodDatagram :
    let parsed := parseDtnMessage floodPlatform.inetNtop floodDatagram.frm floodDatagram.buf
      (List.replicate 16 0) 16
    parsed.message = some .dtnQuery ∧ parsed.result.eid = some (str "dtn:b") ∧
      parsed.tid.take parsed.tidLen = str "pn" ++ [0, 0] := by
  decide +kernel

/-- Nothing becomes due during the flood, so that a query does no more than to be answered. -/
theorem periodic_flooded : ∃ answer, ∀ outputs,
    (flooded outputs).periodic floodPlatform floodCall =
      flooded (outputs ++ [.reply answer]) := by
  obtain ⟨answer, h⟩ : ∃ answer, dhtSendBuf (flooded []).net (sendDtninfo (str "pn" ++ [0, 0])
      (str "dtn:a") [] [] []) 0 floodDatagram.frm 16 = [answer] :=
    List.length_eq_one_iff.mp (by decide +kernel)
  refine ⟨answer, fun outputs => ?_⟩
  have hreceive : (flooded outputs).gettimeofday.receive floodPlatform [] floodDatagram =
      flooded (outputs ++ [.reply answer]) := by
    obtain ⟨hm, he, ht⟩ := parse_floodDatagram
    have hparse : (flooded outputs).gettimeofday.parseDtn floodPlatform floodDatagram =
        parseDtnMessage floodPlatform.inetNtop floodDatagram.frm floodDatagram.buf
          (List.replicate 16 0) 16 := rfl
    have hforeign : (flooded outputs).gettimeofday.stackTid.2.answersDtnQuery
        (some (str "dtn:b")) = true := rfl
    unfold World.receive
    dsimp only
    rw [hparse, hm]
    dsimp only
    rw [he, if_pos hforeign, ht]
    exact congrArg (World.reply (flooded outputs)) h
  calc (flooded outputs).periodic floodPlatform floodCall
      = ((flooded outputs).gettimeofday.receive floodPlatform [] floodDatagram).doDue :=
        dhtPeriodic_of_not_ignores rfl rfl
    _ = (flooded (outputs ++ [.reply answer])).doDue := by rw [hreceive]
    _ = flooded (outputs ++ [.reply answer]) := rfl

/-- All queries of the flood are answered, and no time passes. -/
theorem periodicRun_flooded (outputs : List Output) (n : ℕ) : ∃ answers : List Packet,
    answers.length = n ∧
      (flooded outputs).periodicRun floodPlatform (List.replicate n floodCall) =
        flooded (outputs ++ answers.map .reply) := by
  obtain ⟨answer, h⟩ := periodic_flooded
  induction n generalizing outputs with
  | zero => exact ⟨[], rfl, by rw [List.map_nil, List.append_nil]; rfl⟩
  | succ n ih =>
    obtain ⟨answers, hn, hrun⟩ := ih (outputs ++ [.reply answer])
    refine ⟨answer :: answers, by rw [List.length_cons, hn], ?_⟩
    rw [List.replicate_succ, World.periodicRun, List.foldl_cons, h]
    refine hrun.trans (congrArg flooded ?_)
    rw [List.append_assoc]
    rfl

/-- 401 queries for our DTN EID at one time are all answered. -/
theorem rateLimited_flood : Monotone floodWorld.env.clock ∧
    ¬ RateLimited floodPlatform floodWorld 5 (-1) (Id.ofBytes [1]) none
      (List.replicate 401 floodCall) := by
  refine ⟨monotone_const, fun h => ?_⟩
  obtain ⟨answers, hn, hrun⟩ := periodicRun_flooded [] 401
  have hinit : flooded [] = floodWorld.dhtInit 5 (-1) (Id.ofBytes [1]) none := rfl
  have hlength : (flooded ([] ++ answers.map .reply)).replies.length = 401 := by
    have hr : (flooded ([] ++ answers.map .reply)).replies = answers :=
      replies_reply (flooded []) answers
    rw [hr, hn]
  have hle := h 1000 (by rw [← hinit, hrun]; exact le_rfl)
  rw [← hinit, hrun, hlength] at hle
  have hnone : floodWorld.replies.length = 0 := rfl
  have hnow : (flooded []).now = 1000 := rfl
  rw [hnone, hnow] at hle
  omega

/-- A ping is answered within the limit. -/
theorem rate_limit_ping :
    RateLimited floodPlatform floodWorld 5 (-1) (Id.ofBytes [1]) none
      [{ floodCall with dg := some { floodDatagram with
        buf := str "d1:ad2:id20:aaaaaaaaaaaaaaaaaaaae1:q4:ping1:t4:abcd1:y1:qe" } }] :=
  rate_limit monotone_const 5 (-1) (Id.ofBytes [1]) none ⟨by decide +kernel, trivial⟩

end World

end DtnDht
