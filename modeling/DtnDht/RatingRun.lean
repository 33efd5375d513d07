import DtnDht.Callback
import DtnDht.Lib.Runs

/-!
# The minimum rating

A value is to be queried only if enough nodes have reported it. The rating of a value counts its
senders (`RatingsCount`), but `callback` gives `get_rating` the first value of a list for each of
the values in it: the others are queried on the first one's rating. The minimum rating is enforced
in every run in which a list that is queried holds one value (`minimumRating_enforced`).
-/

namespace DtnDht

/-- A list of 6-byte values that a node reports. -/
structure ValuesReport where
  infoHash : Id
  data : Bytes
  frm : Sockaddr
  fromlen : ℕ
  /-- the contents of the array that `callback` allocates -/
  mem : ℕ → SockaddrStorage

namespace ValuesReport

/-- The socket address of the sender. -/
def sender (r : ValuesReport) : Bytes := r.frm.take r.fromlen

/-- The number of values. -/
def count (r : ValuesReport) : ℕ := r.data.length / 6

/-- The address and the port of value `i`. -/
def endpoint (r : ValuesReport) (i : ℕ) : Bytes × Bytes :=
  (slice r.data (i * 6) 4, slice r.data (i * 6 + 4) 2)

/-- The array of `callback` before it is written. -/
def ss (r : ValuesReport) (i : ℕ) : Sockaddr := (r.mem i).1

end ValuesReport

/-- A report, or a change of anything that `callback` reads but for the ratings. -/
inductive RatingEvent where
  | report (r : ValuesReport)
  | change (d : Dtn)

/-- The sender has reported the endpoint for the hash. -/
def Reported (past : List RatingEvent) (infoHash : Id) (endpoint : Bytes × Bytes)
    (sender : Bytes) : Prop :=
  ∃ r, .report r ∈ past ∧ r.infoHash = infoHash ∧ r.sender = sender ∧
    ∃ i < r.count, r.endpoint i = endpoint

/-- At least `n` senders have reported the endpoint for the hash. -/
def ReportedBy (past : List RatingEvent) (infoHash : Id) (endpoint : Bytes × Bytes) (n : ℕ) :
    Prop :=
  ∃ senders : List Bytes, senders.Nodup ∧ n ≤ senders.length ∧
    ∀ sender ∈ senders, Reported past infoHash endpoint sender

namespace Dtn

variable (sha1 : Bytes → Bytes)

/-- `callback` on a report. -/
def report (d : Dtn) (r : ValuesReport) : Dtn × List PingDtnNode :=
  d.callback sha1 r.ss .values r.infoHash r.data r.frm r.fromlen

/-- The statics after an event. -/
def ratingStep (d : Dtn) : RatingEvent → Dtn
  | .report r => (d.report sha1 r).1
  | .change d' => { d' with ratings := d.ratings }

/-- The statics after some events, the latest first. -/
def afterRatings (d : Dtn) (past : List RatingEvent) : Dtn :=
  past.foldr (fun e d => d.ratingStep sha1 e) d

/-- In the run every value that is queried was reported by as many senders as its minimum rating
asks for: a rating of 0 is one sender. -/
def MinimumRatingEnforced (d : Dtn) (past : List RatingEvent) : Prop :=
  ∀ later r earlier, past = later ++ .report r :: earlier →
    ∀ ping ∈ ((d.afterRatings sha1 earlier).report sha1 r).2,
      ReportedBy (.report r :: earlier) r.infoHash (r.endpoint ping.record)
        ((d.afterRatings sha1 earlier).minimumRating + 1)

/-- A list is not queried, or it holds one value. -/
def QueriesOneValue (d : Dtn) : RatingEvent → Prop
  | .report r =>
    IsQueried sha1 r.ss d .values r.infoHash r.data r.frm r.fromlen →
      getFromList r.infoHash d.lookuptable ≠ none →
      ∀ i < r.count, r.endpoint i = r.endpoint 0
  | .change _ => True

end Dtn

/-! ## What a rating counts -/

section

variable {sha1 : Bytes → Bytes} {reported : Bytes × Bytes → Bytes → Prop} {pos : ResultRating}
  {sender : Bytes} {target : Sockaddr}

/-- An `AF_INET` address as `callback` decodes it. -/
structure IsTarget (target : Sockaddr) : Prop where
  family : target.family = afInet
  length : 8 ≤ target.length

/-- The address and the port of an IPv4 target. -/
def inEndpoint (target : Sockaddr) : Bytes × Bytes := (target.sinAddr, target.port)

/-- A rating counts senders that have reported its target, no digest twice, and the filter reports
them all. -/
structure ResultRating.Counts (sha1 : Bytes → Bytes) (reported : Bytes × Bytes → Bytes → Prop)
    (pos : ResultRating) : Prop where
  family : pos.ss.family = afInet
  senders : ∃ senders : List Bytes, senders.length = pos.rating + 1 ∧ (senders.map sha1).Nodup ∧
    ∀ sender ∈ senders, reported (inEndpoint pos.ss) sender ∧
      Bloom.check ratingFuncs pos.frombloom (sha1 sender) = true

/-- The copy of a target has its address and its port. -/
theorem copyTarget_of_isTarget (h : IsTarget target) :
    (copyTarget target).family = afInet ∧ inEndpoint (copyTarget target) = inEndpoint target := by
  obtain ⟨x0, x1, p, q, a, b, c, d, t, rfl⟩ : ∃ x0 x1 p q a b c d t,
      target = x0 :: x1 :: p :: q :: a :: b :: c :: d :: t := by
    match target, h.length with
    | x0 :: x1 :: p :: q :: a :: b :: c :: d :: t, _ => exact ⟨x0, x1, p, q, a, b, c, d, t, rfl⟩
  unfold copyTarget
  rw [if_pos h.family]
  exact ⟨rfl, rfl⟩

/-- The test of `get_rating` compares addresses and ports. -/
theorem inEndpoint_of_rates (hpos : pos.ss.family = afInet) (h : pos.rates target = true) :
    inEndpoint pos.ss = inEndpoint target := by
  unfold ResultRating.rates sockaddrStorageEquals at h
  split_ifs at h with hfam
  rw [Bool.and_eq_true, beq_iff_eq, beq_iff_eq] at h
  rw [inEndpoint, inEndpoint, h.1, h.2]

theorem counts_ratingCreate (ht : IsTarget target) (hr : reported (inEndpoint target) sender) :
    (ratingCreate (sha1 sender) target).Counts sha1 reported := by
  obtain ⟨hfam, hend⟩ := copyTarget_of_isTarget ht
  refine ⟨hfam, [sender], rfl, List.nodup_singleton _, fun s hs => ?_⟩
  obtain rfl := List.mem_singleton.mp hs
  exact ⟨hend.symm ▸ hr, Bloom.check_add (by decide)⟩

theorem ResultRating.Counts.count (h : pos.Counts sha1 reported)
    (hr : reported (inEndpoint pos.ss) sender) :
    (pos.count (sha1 sender)).Counts sha1 reported := by
  obtain ⟨hfam, senders, hlen, hnodup, hall⟩ := h
  unfold ResultRating.count
  split_ifs with h10 hcheck
  · exact ⟨hfam, senders, hlen, hnodup, hall⟩
  · -- the filter does not report the sender, so it is not among those counted
    have hnew : sha1 sender ∉ senders.map sha1 := by
      refine Bloom.not_mem_of_check_eq_false (fun md hmd => ?_) (Bool.not_eq_true _ ▸ hcheck)
      obtain ⟨s, hs, rfl⟩ := List.mem_map.mp hmd
      exact (hall s hs).2
    refine ⟨hfam, sender :: senders, by rw [List.length_cons, hlen],
      List.nodup_cons.mpr ⟨hnew, hnodup⟩, fun s hs => ?_⟩
    rcases List.mem_cons.mp hs with rfl | hs
    · exact ⟨hr, Bloom.check_add (by decide)⟩
    · exact ⟨(hall s hs).1, Bloom.check_add_of_check (by decide) (hall s hs).2 _⟩
  · exact ⟨hfam, senders, hlen, hnodup, hall⟩

theorem counts_rateTarget {ratings : List ResultRating}
    (h : ∀ pos ∈ ratings, pos.Counts sha1 reported) (ht : IsTarget target)
    (hr : reported (inEndpoint target) sender) :
    ∀ pos ∈ (rateTarget (sha1 sender) target ratings).2, pos.Counts sha1 reported := by
  induction ratings with
  | nil => exact List.forall_mem_singleton.mpr (counts_ratingCreate ht hr)
  | cons pos ratings ih =>
    obtain ⟨hpos, hrest⟩ := List.forall_mem_cons.mp h
    rw [rateTarget]
    split_ifs with hrates
    · have hend := inEndpoint_of_rates hpos.family hrates
      exact List.forall_mem_cons.mpr ⟨hpos.count (hend ▸ hr), hrest⟩
    · exact List.forall_mem_cons.mpr ⟨hpos, ih hrest⟩

end

/-- All ratings count senders that have reported their targets for the hash. -/
def RatingsCount (sha1 : Bytes → Bytes) (reported : Id → Bytes × Bytes → Bytes → Prop)
    (list : List RatingEntry) : Prop :=
  ∀ entry ∈ list, ∀ pos ∈ entry.ratings, pos.Counts sha1 (reported entry.key)

section

variable {sha1 : Bytes → Bytes} {reported reported' : Id → Bytes × Bytes → Bytes → Prop}
  {list : List RatingEntry} {infoHash : Id} {sender : Bytes} {target : Sockaddr}

theorem RatingsCount.mono (h : RatingsCount sha1 reported list)
    (hle : ∀ infoHash endpoint sender,
      reported infoHash endpoint sender → reported' infoHash endpoint sender) :
    RatingsCount sha1 reported' list := by
  intro entry hentry pos hpos
  obtain ⟨hfam, senders, hlen, hnodup, hall⟩ := h entry hentry pos hpos
  exact ⟨hfam, senders, hlen, hnodup, fun s hs => ⟨hle _ _ _ (hall s hs).1, (hall s hs).2⟩⟩

theorem RatingsCount.rateEntry (h : RatingsCount sha1 reported list) (ht : IsTarget target)
    (hr : reported infoHash (inEndpoint target) sender) {out : ℕ × List RatingEntry}
    (hout : rateEntry (sha1 sender) infoHash target list = some out) :
    RatingsCount sha1 reported out.2 := by
  induction list generalizing out with
  | nil => exact absurd hout (by simp [DtnDht.rateEntry])
  | cons entry list ih =>
    obtain ⟨hentry, hlist⟩ := List.forall_mem_cons.mp h
    rw [DtnDht.rateEntry] at hout
    split_ifs at hout with hk
    · obtain rfl := Option.some_inj.mp hout
      obtain rfl := isFor_rating_iff.mp hk
      exact List.forall_mem_cons.mpr ⟨counts_rateTarget hentry ht hr, hlist⟩
    · obtain ⟨out', hout', rfl⟩ := Option.map_eq_some_iff.mp hout
      exact List.forall_mem_cons.mpr ⟨hentry, ih hlist hout'⟩

/-- A sender that has reported the target is counted. -/
theorem RatingsCount.getRating (h : RatingsCount sha1 reported list) (ht : IsTarget target)
    (hr : reported infoHash (inEndpoint target) sender) :
    RatingsCount sha1 reported (getRating (sha1 sender) list infoHash target).2 := by
  unfold DtnDht.getRating
  cases hout : DtnDht.rateEntry (sha1 sender) infoHash target list with
  | none =>
    refine List.forall_mem_cons.mpr ⟨fun pos hpos => ?_, h⟩
    obtain rfl := List.mem_singleton.mp hpos
    exact counts_ratingCreate ht hr
  | some out => exact h.rateEntry ht hr hout

theorem RatingsCount.rateRecords (h : RatingsCount sha1 reported list) (ht : IsTarget target)
    (hr : reported infoHash (inEndpoint target) sender) (n : ℕ) :
    RatingsCount sha1 reported (rateRecords (sha1 sender) infoHash target n list).2 := by
  induction n generalizing list with
  | zero => exact h
  | succ n ih => exact ih (h.getRating ht hr)

/-- A rating above 0 is at most the number of senders that have reported the target, less one. -/
theorem RatingsCount.standing (h : RatingsCount sha1 reported list)
    (hr : reported infoHash (inEndpoint target) sender) :
    ∃ senders : List Bytes, senders.Nodup ∧
      DtnDht.standing (sha1 sender) list infoHash target + 1 ≤ senders.length ∧
        ∀ s ∈ senders, reported infoHash (inEndpoint target) s := by
  have hself : ∃ senders : List Bytes, senders.Nodup ∧ 0 + 1 ≤ senders.length ∧
      ∀ s ∈ senders, reported infoHash (inEndpoint target) s :=
    ⟨[sender], List.nodup_singleton _, le_rfl, List.forall_mem_singleton.mpr hr⟩
  unfold DtnDht.standing RatingEntry.standing
  cases hentry : list.find? (·.isFor infoHash) with
  | none => exact hself
  | some entry =>
    obtain rfl := isFor_rating_iff.mp (List.find?_some hentry)
    dsimp only [Option.elim_some]
    cases hpos : entry.ratings.find? (·.rates target) with
    | none => exact hself
    | some pos =>
      have hcounts :=
        h entry (List.mem_of_find?_eq_some hentry) pos (List.mem_of_find?_eq_some hpos)
      have hend := inEndpoint_of_rates hcounts.family (List.find?_some hpos)
      have hcount : (pos.count (sha1 sender)).Counts sha1 (reported entry.key) :=
        hcounts.count (hend ▸ hr)
      have hss : (pos.count (sha1 sender)).ss = pos.ss := ss_count pos
      obtain ⟨hfam, senders, hlen, hnodup, hall⟩ := hcount
      refine ⟨senders, hnodup.of_map, hlen.ge, fun s hs => ?_⟩
      rw [← hend, ← hss]
      exact (hall s hs).1

end

/-! ## Runs -/

namespace Dtn

variable {sha1 : Bytes → Bytes} {d : Dtn}

/-- The first value as `callback` decodes it. -/
theorem isTarget_decodeRecord (r : ValuesReport) (i : ℕ) :
    IsTarget (decodeRecord r.ss r.data 6 afInet i) := by
  refine ⟨family_decodeRecord r.mem r.data 6 afInet i, ?_⟩
  have h := length_decodeRecord r.mem r.data 6 afInet i
  unfold ValuesReport.ss
  omega

theorem inEndpoint_decodeRecord (r : ValuesReport) {i : ℕ} (hi : i < r.count) :
    inEndpoint (decodeRecord r.ss r.data 6 afInet i) = r.endpoint i := by
  have hle : i * 6 + 6 ≤ r.data.length := by
    unfold ValuesReport.count at hi
    omega
  obtain ⟨ha, hp⟩ : (decodeRecord r.ss r.data 6 afInet i).sinAddr = slice r.data (i * 6) 4 ∧
      (decodeRecord r.ss r.data 6 afInet i).port = slice r.data (i * 6 + 4) 2 :=
    sinAddr_port_decodeRecord hle
  exact Prod.ext ha hp

/-- The sender has reported the first value. -/
theorem reported_first (past : List RatingEvent) {r : ValuesReport} (hr : 0 < r.count) :
    Reported (.report r :: past) r.infoHash
      (inEndpoint (decodeRecord r.ss r.data 6 afInet 0)) r.sender :=
  ⟨r, List.mem_cons_self, rfl, rfl, 0, hr, (inEndpoint_decodeRecord r hr).symm⟩

/-- A report keeps the ratings' meaning. -/
theorem ratingsCount_report {past : List RatingEvent} (r : ValuesReport)
    (h : RatingsCount sha1 (Reported (.report r :: past)) d.ratings) :
    RatingsCount sha1 (Reported (.report r :: past)) (d.report sha1 r).1.ratings := by
  have hvalues : d.report sha1 r =
      d.valuesFound sha1 r.ss 6 afInet r.infoHash r.data r.frm r.fromlen := rfl
  rw [hvalues]
  unfold valuesFound
  dsimp only
  split_ifs
  · exact h
  · exact h
  · by_cases hr : 0 < r.count
    · exact h.rateRecords (isTarget_decodeRecord r 0) (reported_first past hr) _
    · have hzero : r.data.length / 6 = 0 := Nat.eq_zero_of_not_pos hr
      rw [hzero]
      exact h

/-- In every run the ratings count senders that have reported their targets. -/
theorem ratingsCount_afterRatings (hd : d.ratings = []) (past : List RatingEvent) :
    RatingsCount sha1 (Reported past) (d.afterRatings sha1 past).ratings := by
  induction past with
  | nil =>
    intro entry hentry
    have hnil : entry ∈ d.ratings := hentry
    rw [hd] at hnil
    exact absurd hnil List.not_mem_nil
  | cons e past ih =>
    have hmono : RatingsCount sha1 (Reported (e :: past)) (d.afterRatings sha1 past).ratings :=
      ih.mono fun _ _ _ ⟨r, hr, hrest⟩ => ⟨r, List.mem_cons_of_mem _ hr, hrest⟩
    cases e with
    | report r => exact ratingsCount_report r hmono
    | change d' => exact hmono

/-- What a report queries that is not queried or holds one value. -/
theorem reportedBy_of_ping {past : List RatingEvent} {r : ValuesReport}
    (h : RatingsCount sha1 (Reported past) d.ratings) (hone : d.QueriesOneValue sha1 (.report r))
    {ping : PingDtnNode} (hping : ping ∈ (d.report sha1 r).2) :
    ReportedBy (.report r :: past) r.infoHash (r.endpoint ping.record) (d.minimumRating + 1) := by
  have hin : getFromList r.infoHash d.lookuptable ≠ none := by
    intro hnone
    have hvalues : d.report sha1 r =
        d.valuesFound sha1 r.ss 6 afInet r.infoHash r.data r.frm r.fromlen := rfl
    rw [hvalues, valuesFound, if_pos hnone] at hping
    split_ifs at hping <;> exact absurd hping List.not_mem_nil
  obtain ⟨hq, i, hi, rfl⟩ := (callback_pings (Or.inl rfl) hin rfl ping).mp hping
  have hi' : i < r.count := hi
  have hrated := hq.2
  rw [isRated, Bool.and_eq_true, decide_eq_true_iff, decide_eq_true_iff] at hrated
  have hmono : RatingsCount sha1 (Reported (.report r :: past)) d.ratings := by
    refine h.mono fun _ _ _ hreported => ?_
    obtain ⟨r', hr', hrest⟩ := hreported
    exact ⟨r', List.mem_cons_of_mem _ hr', hrest⟩
  have hpos : 0 < r.count := by omega
  obtain ⟨senders, hnodup, hle, hall⟩ := hmono.standing (reported_first past hpos)
  have hsame : r.endpoint i = r.endpoint 0 := hone hq hin i hi'
  refine ⟨senders, hnodup, ?_, fun s hs => ?_⟩
  · exact (Nat.add_le_add_right hrated.2 1).trans hle
  · rw [hsame, ← inEndpoint_decodeRecord r hpos]
    exact hall s hs

/-- **The minimum rating is enforced if every list that is queried holds one value.** -/
theorem minimumRating_enforced (hd : d.ratings = []) {past : List RatingEvent}
    (h : Runs.EachStep (ratingStep sha1) (QueriesOneValue sha1) d past) :
    d.MinimumRatingEnforced sha1 past := by
  induction past with
  | nil =>
    intro later r earlier heq
    exact absurd heq (by simp)
  | cons e past ih =>
    intro later r earlier heq ping hping
    rcases List.cons_eq_append_iff.mp heq with ⟨-, hcons⟩ | ⟨later', -, hpast⟩
    · obtain ⟨rfl, rfl⟩ := List.cons.inj hcons
      exact reportedBy_of_ping (ratingsCount_afterRatings hd _) h.1 hping
    · exact ih h.2 later' r earlier hpast ping hping

/-! ## A value queried on the rating of another -/

/-- The digests of the addresses of 192.0.2.1 and 192.0.2.2, port 6881. -/
def sha1Reporters (bs : Bytes) : Bytes :=
  if bs = replier4 1 then
    [33, 178, 200, 179, 95, 63, 131, 108, 25, 174, 5, 178, 36, 185, 158, 219, 46, 214, 10, 216]
  else
    [86, 87, 248, 75, 176, 14, 222, 9, 53, 72, 30, 93, 6, 148, 23, 32, 40, 228, 162, 149]

/-- Node 192.0.2.n reports the values. -/
def reportOf (n : UInt8) (data : Bytes) : ValuesReport :=
  ⟨Id.zeroes, data, replier4 n, 16, fun _ => freshStorage⟩

/-- A lookup that asks for a rating of 1. -/
def ratedLookup : Dtn := { lookingUp with minimumRating := 1 }

/-- 192.0.2.9, port 6881. -/
def firstValue : Bytes := [192, 0, 2, 9, 0x1a, 0xe1]

/-- 192.0.2.10, port 6881. -/
def secondValue : Bytes := [192, 0, 2, 10, 0x1a, 0xe1]

/-- One node reports the first value, another one both: then both are queried, the second one on
the report of a single node. -/
theorem minimumRating_enforced_twoValues : ¬ ratedLookup.MinimumRatingEnforced sha1Reporters
    [.report (reportOf 2 (firstValue ++ secondValue)), .report (reportOf 1 firstValue)] := by
  intro h
  have hping : ∃ ping ∈ ((ratedLookup.afterRatings sha1Reporters
      [.report (reportOf 1 firstValue)]).report sha1Reporters
        (reportOf 2 (firstValue ++ secondValue))).2, ping.record = 1 := by
    decide +kernel
  obtain ⟨ping, hin, hrecord⟩ := hping
  obtain ⟨senders, hnodup, hle, hall⟩ := h [] _ _ rfl ping hin
  have hsecond : ∀ s ∈ senders, s = replier4 2 := by
    intro s hs
    obtain ⟨r, hr, -, hsender, i, hi, hend⟩ := hall s hs
    rw [hrecord] at hend
    rcases List.mem_pair.mp hr with heq | heq
    · obtain rfl := RatingEvent.report.inj heq
      exact hsender.symm
    · obtain rfl := RatingEvent.report.inj heq
      obtain rfl : i = 0 := Nat.lt_one_iff.mp hi
      exact absurd hend (by decide)
  have htwo : 2 ≤ senders.length := hle
  match senders, htwo with
  | s :: s' :: senders, _ =>
    rw [hsecond s (by simp), hsecond s' (by simp)] at hnodup
    simp at hnodup

/-- Two nodes report the same value. -/
theorem minimumRating_enforced_oneValue : ratedLookup.MinimumRatingEnforced sha1Reporters
    [.report (reportOf 2 firstValue), .report (reportOf 1 firstValue)] := by
  have hone (n : UInt8) (i : ℕ) (hi : i < (reportOf n firstValue).count) :
      (reportOf n firstValue).endpoint i = (reportOf n firstValue).endpoint 0 := by
    have hcount : (reportOf n firstValue).count = 1 := Nat.div_self (Nat.succ_pos 5)
    obtain rfl : i = 0 := by omega
    rfl
  exact minimumRating_enforced rfl ⟨fun _ _ => hone 2, fun _ _ => hone 1, trivial⟩

end Dtn

end DtnDht
