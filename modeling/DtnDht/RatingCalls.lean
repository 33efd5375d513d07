import DtnDht.Callback
import Mathlib.Data.Finset.Card

/-!
# Ratings over runs of calls

The ratings are kept in lists of lists, but a call of `get_rating` sees and changes only the record
for its hash and for the family, port and address of its target (`record_getRating`). That record
counts digests of senders: no more than there were (`Tally`), and all of them up to eleven unless
its filter reports one that it was not given (`rating_counted_once`).
-/

namespace DtnDht

open CString

/-- A call of `get_rating`; `md` is the digest of the sender. -/
structure RatingCall where
  infoHash : Id
  target : SockaddrStorage
  md : Bytes
  family : target.1.family = afInet ∨ target.1.family = afInet6

/-- The hash and the target of a call. -/
def RatingCall.key (c : RatingCall) : Id × ℕ × Bytes × Bytes := (c.infoHash, endpoint c.target.1)

/-- The record that `get_rating` finds. -/
def record (list : List RatingEntry) (infoHash : Id) (target : Sockaddr) : Option ResultRating :=
  (list.find? (·.isFor infoHash)).bind fun entry => entry.ratings.find? (·.rates target)

/-- The ratings after some calls. -/
def ratingsAfter (cs : List RatingCall) : List RatingEntry :=
  cs.foldl (fun list c => (getRating c.md list c.infoHash c.target.1).2) []

/-- What a call returns after others. -/
def returned (cs : List RatingCall) (c : RatingCall) : ℕ :=
  (getRating c.md (ratingsAfter cs) c.infoHash c.target.1).1

/-- The digests of the senders in the calls for a hash and a target. -/
def digests (cs : List RatingCall) (key : Id × ℕ × Bytes × Bytes) : List Bytes :=
  (cs.filter fun c => c.key = key).map RatingCall.md

/-- How many senders there were in the calls for a hash and a target. -/
def senders (cs : List RatingCall) (key : Id × ℕ × Bytes × Bytes) : ℕ :=
  (digests cs key).toFinset.card

/-- The filter is asked for a sender that has not rated the target before, and reports it. -/
def FalsePositive (cs : List RatingCall) (c : RatingCall) : Prop :=
  ∃ pos, record (ratingsAfter cs) c.infoHash c.target.1 = some pos ∧ pos.rating < 10 ∧
    Bloom.check ratingFuncs pos.frombloom c.md = true ∧ c.md ∉ digests cs c.key

/-- No filter reports a sender wrongly in the run. -/
def NoFalsePositive (cs : List RatingCall) : Prop :=
  ∀ pre c post, cs = pre ++ c :: post → ¬ FalsePositive pre c

/-! ## The record of a hash and a target -/

section

variable {target target' : Sockaddr} {md : Bytes}

/-- `rating_create` copies what `sockaddr_storage_equals` compares. -/
theorem endpoint_copyTarget (h : target.length = sizeofSockaddrStorage)
    (hfam : target.family = afInet ∨ target.family = afInet6) :
    endpoint (copyTarget target) = endpoint target := by
  unfold sizeofSockaddrStorage at h
  have hport : target.port.length = 2 := length_slice (by omega)
  have h4 : target.sinAddr.length = 4 := length_slice (by omega)
  have h6 : target.sin6Addr.length = 16 := length_slice (by omega)
  unfold copyTarget
  rcases hfam with hf | hf
  · rw [if_pos hf, endpoint_sockaddrIn h4 hport, endpoint, Sockaddr.ip, if_pos hf, hf]
  · have hne : ¬ target.family = afInet := by rw [hf]; decide
    rw [if_neg hne, if_pos hf, endpoint_sockaddrIn6 h6 hport, endpoint, Sockaddr.ip, if_neg hne, hf]

/-- `sockaddr_storage_equals` compares family, port and address. -/
theorem sockaddrStorageEquals_iff (hfam : target.family = afInet ∨ target.family = afInet6)
    (ss : Sockaddr) : sockaddrStorageEquals ss target = true ↔ endpoint ss = endpoint target := by
  unfold sockaddrStorageEquals endpoint Sockaddr.ip
  rw [Prod.mk.injEq, Prod.mk.injEq]
  by_cases hsame : ss.family = target.family
  · rw [if_neg (not_not_intro hsame), hsame]
    rcases hfam with h | h
    · rw [if_pos h, if_pos h, if_pos h, Bool.and_eq_true, beq_iff_eq, beq_iff_eq]
      exact and_comm.trans (and_iff_right rfl).symm
    · have hne : ¬ target.family = afInet := by rw [h]; decide
      rw [if_neg hne, if_neg hne, if_neg hne, if_pos h, Bool.and_eq_true, beq_iff_eq, beq_iff_eq]
      exact and_comm.trans (and_iff_right rfl).symm
  · rw [if_pos hsame]
    exact iff_of_false Bool.false_ne_true fun h => hsame h.1

theorem rates_iff (hfam : target.family = afInet ∨ target.family = afInet6)
    (pos : ResultRating) : pos.rates target = true ↔ endpoint pos.ss = endpoint target :=
  sockaddrStorageEquals_iff hfam pos.ss

/-- What a call leaves of its record, given the one it found. -/
def counted (md : Bytes) (target : Sockaddr) (found : Option ResultRating) : ResultRating :=
  found.elim (ratingCreate md target) (·.count md)

variable (ht : target.length = sizeofSockaddrStorage)
  (hfam : target.family = afInet ∨ target.family = afInet6)
  (hfam' : target'.family = afInet ∨ target'.family = afInet6)

include ht hfam hfam'

theorem find?_rateTarget (ratings : List ResultRating) :
    (rateTarget md target ratings).2.find? (·.rates target') =
      if endpoint target = endpoint target' then
        some (counted md target (ratings.find? (·.rates target)))
      else ratings.find? (·.rates target') := by
  induction ratings with
  | nil =>
    have hnew : (ratingCreate md target).rates target' = true ↔
        endpoint target = endpoint target' := by
      rw [rates_iff hfam', ratingCreate, endpoint_copyTarget ht hfam]
    rw [rateTarget]
    split_ifs with he
    · rw [List.find?_cons_of_pos (hnew.mpr he)]
      rfl
    · rw [List.find?_cons_of_neg (fun h => he (hnew.mp h))]
  | cons pos ratings ih =>
    rw [rateTarget]
    by_cases hpos : pos.rates target = true
    · have hend := (rates_iff hfam pos).mp hpos
      have hpos' : pos.rates target' = true ↔ endpoint target = endpoint target' := by
        rw [rates_iff hfam', hend]
      rw [if_pos hpos, List.find?_cons_of_pos hpos]
      split_ifs with he
      · have hcount : (pos.count md).rates target' = true := by
          rw [rates_count]
          exact hpos'.mpr he
        exact List.find?_cons_of_pos hcount
      · have hcount : ¬ (pos.count md).rates target' = true := by
          rw [rates_count]
          exact fun h => he (hpos'.mp h)
        rw [List.find?_cons_of_neg hcount, List.find?_cons_of_neg fun h => he (hpos'.mp h)]
    · rw [if_neg hpos, List.find?_cons_of_neg hpos]
      dsimp only
      by_cases hpos' : pos.rates target' = true
      · have hne : ¬ endpoint target = endpoint target' := by
          intro he
          exact hpos ((rates_iff hfam pos).mpr (((rates_iff hfam' pos).mp hpos').trans he.symm))
        rw [if_neg hne, List.find?_cons_of_pos hpos', List.find?_cons_of_pos hpos']
      · rw [List.find?_cons_of_neg hpos', List.find?_cons_of_neg hpos', ih]

omit ht hfam hfam' in
theorem record_cons (entry : RatingEntry) (list : List RatingEntry) (infoHash : Id) :
    record (entry :: list) infoHash target =
      if entry.key = infoHash then entry.ratings.find? (·.rates target)
      else record list infoHash target := by
  unfold record
  by_cases hk : entry.key = infoHash
  · rw [if_pos hk, List.find?_cons_of_pos (isFor_rating_iff.mpr hk), Option.bind_some]
  · rw [if_neg hk, List.find?_cons_of_neg fun h => hk (isFor_rating_iff.mp h)]

/-- A call that finds an entry for the hash changes the record for its target in it. -/
theorem record_rateEntry {list : List RatingEntry} {infoHash : Id}
    {out : ℕ × List RatingEntry} (h : rateEntry md infoHash target list = some out)
    (infoHash' : Id) : record out.2 infoHash' target' =
      if infoHash = infoHash' ∧ endpoint target = endpoint target' then
        some (counted md target (record list infoHash target))
      else record list infoHash' target' := by
  induction list generalizing out with
  | nil => exact absurd h (by simp [rateEntry])
  | cons entry list ih =>
    rw [rateEntry] at h
    simp only [record_cons]
    by_cases hk : entry.isFor infoHash = true
    · rw [if_pos hk, Option.some_inj] at h
      subst h
      have hkey := isFor_rating_iff.mp hk
      rw [record_cons, find?_rateTarget ht hfam hfam', if_pos hkey, hkey]
      by_cases hhash : infoHash = infoHash'
      · simp only [hhash, if_true, true_and]
      · simp only [hhash, false_and, if_false]
    · rw [if_neg hk] at h
      obtain ⟨out', h', rfl⟩ := Option.map_eq_some_iff.mp h
      have hkey : ¬ entry.key = infoHash := fun hkey => hk (isFor_rating_iff.mpr hkey)
      dsimp only
      rw [record_cons, ih h', if_neg hkey]
      by_cases hkey' : entry.key = infoHash'
      · have hne : ¬ infoHash = infoHash' := fun he => hkey (hkey'.trans he.symm)
        simp only [if_pos hkey', hne, false_and, if_false]
      · simp only [if_neg hkey']

/-- A call changes the record for its hash and its target, and no other. -/
theorem record_getRating (list : List RatingEntry) (infoHash infoHash' : Id) :
    record (getRating md list infoHash target).2 infoHash' target' =
      if infoHash = infoHash' ∧ endpoint target = endpoint target' then
        some (counted md target (record list infoHash target))
      else record list infoHash' target' := by
  unfold getRating
  cases hout : rateEntry md infoHash target list with
  | some out => exact record_rateEntry ht hfam hfam' hout infoHash'
  | none =>
    have hnone : ∀ target, record list infoHash target = none := by
      intro target'
      induction list with
      | nil => rfl
      | cons entry list ih =>
        rw [rateEntry] at hout
        split_ifs at hout with hk
        rw [record_cons, if_neg fun hkey => hk (isFor_rating_iff.mpr hkey)]
        exact ih (Option.map_eq_none_iff.mp hout)
    have hnew : [ratingCreate md target].find? (·.rates target') =
        if endpoint target = endpoint target' then some (ratingCreate md target) else none :=
      find?_rateTarget ht hfam hfam' []
    rw [Option.getD_none, record_cons, hnew, hnone]
    dsimp only
    by_cases hhash : infoHash = infoHash'
    · subst hhash
      rw [if_pos rfl, hnone]
      simp only [true_and]
      rfl
    · simp only [hhash, false_and, if_false]

end

/-! ## Runs -/

theorem ratingsAfter_concat (cs : List RatingCall) (o : RatingCall) :
    ratingsAfter (cs ++ [o]) =
      (getRating o.md (ratingsAfter cs) o.infoHash o.target.1).2 := by
  rw [ratingsAfter, List.foldl_append]
  rfl

/-- The record for the hash and the target of `c` after some calls. -/
def recordAfter (cs : List RatingCall) (c : RatingCall) : Option ResultRating :=
  record (ratingsAfter cs) c.infoHash c.target.1

/-- A call changes the record of its key, and no other. -/
theorem recordAfter_concat (cs : List RatingCall) (o c : RatingCall) :
    recordAfter (cs ++ [o]) c =
      if o.key = c.key then some (counted o.md o.target.1 (recordAfter cs o))
      else recordAfter cs c := by
  unfold recordAfter RatingCall.key
  rw [ratingsAfter_concat, record_getRating o.target.2 o.family c.family]
  simp only [Prod.mk.injEq]

/-- The records of a hash and a target are the same whatever else the sockets hold. -/
theorem recordAfter_congr {c c' : RatingCall} (h : c.key = c'.key) (cs : List RatingCall) :
    recordAfter cs c = recordAfter cs c' := by
  obtain ⟨hhash, hend⟩ := Prod.mk.inj h
  have hrates : ∀ pos : ResultRating, pos.rates c.target.1 = pos.rates c'.target.1 := by
    intro pos
    rw [Bool.eq_iff_iff, rates_iff c.family, rates_iff c'.family, hend]
  unfold recordAfter record
  rw [hhash]
  simp only [hrates]

/-- A call returns the rating of its record. -/
theorem returned_eq (cs : List RatingCall) (c : RatingCall) :
    returned cs c = (counted c.md c.target.1 (recordAfter cs c)).rating := by
  unfold returned recordAfter record
  rw [getRating_fst]
  unfold standing RatingEntry.standing
  cases (ratingsAfter cs).find? (·.isFor c.infoHash) with
  | none => rfl
  | some entry =>
    rw [Option.bind_some]
    dsimp only [Option.elim_some]
    cases entry.ratings.find? (·.rates c.target.1) <;> rfl

theorem recordAfter_self (cs : List RatingCall) (c : RatingCall) :
    recordAfter (cs ++ [c]) c = some (counted c.md c.target.1 (recordAfter cs c)) := by
  rw [recordAfter_concat, if_pos rfl]

/-- The digests of a key after one more call. -/
theorem digests_concat (cs : List RatingCall) (o : RatingCall) (key : Id × ℕ × Bytes × Bytes) :
    digests (cs ++ [o]) key = if o.key = key then digests cs key ++ [o.md] else digests cs key := by
  unfold digests
  rw [List.filter_append, List.map_append]
  split_ifs with h
  · simp [h]
  · simp [h]

/-- The digests seen after one more call for the key. -/
theorem toFinset_digests_concat {cs : List RatingCall} {o : RatingCall}
    {key : Id × ℕ × Bytes × Bytes} (h : o.key = key) :
    (digests (cs ++ [o]) key).toFinset = insert o.md (digests cs key).toFinset := by
  rw [digests_concat, if_pos h]
  ext md
  simp

/-! ## What a record counts -/

/-- A record counts some of the digests seen, and its filter reports those. -/
structure Tally (seen : Finset Bytes) (pos : ResultRating) : Prop where
  le_ten : pos.rating ≤ 10
  counts : ∃ s ⊆ seen, s.card = pos.rating + 1 ∧
    ∀ md ∈ s, Bloom.check ratingFuncs pos.frombloom md = true

/-- It counts all of them, up to eleven. -/
def Exact (seen : Finset Bytes) (pos : ResultRating) : Prop := pos.rating = min 10 (seen.card - 1)

variable {seen : Finset Bytes} {pos : ResultRating} {md : Bytes} {target : Sockaddr}

theorem tally_ratingCreate : Tally {md} (ratingCreate md target) where
  le_ten := Nat.zero_le 10
  counts := by
    refine ⟨{md}, subset_rfl, Finset.card_singleton md, fun x hx => ?_⟩
    rw [Finset.mem_singleton.mp hx]
    exact Bloom.check_add (by decide)

theorem exact_ratingCreate : Exact {md} (ratingCreate md target) := rfl

theorem Tally.count (h : Tally seen pos) (md : Bytes) :
    Tally (insert md seen) (pos.count md) := by
  obtain ⟨hten, s, hsub, hcard, hall⟩ := h
  have hsub' : s ⊆ insert md seen := hsub.trans (Finset.subset_insert md seen)
  unfold ResultRating.count
  split_ifs with h10 hcheck
  · exact ⟨hten, s, hsub', hcard, hall⟩
  · -- the filter does not report the digest, so it is not among those counted
    have hnew : md ∉ s := fun hmem => hcheck (hall md hmem)
    refine ⟨h10, insert md s, Finset.insert_subset_insert md hsub, ?_, fun x hx => ?_⟩
    · rw [Finset.card_insert_of_notMem hnew, hcard]
    · rcases Finset.mem_insert.mp hx with rfl | hx
      · exact Bloom.check_add (by decide)
      · exact Bloom.check_add_of_check (by decide) (hall x hx) md
  · exact ⟨hten, s, hsub', hcard, hall⟩

theorem Tally.le (h : Tally seen pos) : pos.rating ≤ min 10 (seen.card - 1) := by
  obtain ⟨hten, s, hsub, hcard, -⟩ := h
  have hle := Finset.card_le_card hsub
  omega

/-- If the filter is asked and reports no digest wrongly, the count stays exact. -/
theorem Exact.count (h : Exact seen pos) (ht : Tally seen pos) {md : Bytes}
    (hright : pos.rating < 10 → Bloom.check ratingFuncs pos.frombloom md = true → md ∈ seen) :
    Exact (insert md seen) (pos.count md) := by
  obtain ⟨-, s, hsub, hcard, hall⟩ := ht
  have hle := Finset.card_le_card hsub
  unfold Exact at h ⊢
  unfold ResultRating.count
  split_ifs with h10 hcheck
  · rw [Finset.insert_eq_of_mem (hright h10 hcheck)]
    exact h
  · -- all that were seen are counted, so the digest is new
    have hsame : s = seen := Finset.eq_of_subset_of_card_le hsub (by omega)
    have hnew : md ∉ seen := fun hmem => hcheck (hall md (hsame ▸ hmem))
    rw [Finset.card_insert_of_notMem hnew]
    dsimp only
    omega
  · have hmore := Finset.card_le_card (Finset.subset_insert md seen)
    omega

theorem rating_le_count (pos : ResultRating) (md : Bytes) :
    pos.rating ≤ (pos.count md).rating := by
  unfold ResultRating.count
  split_ifs
  · exact le_rfl
  · exact Nat.le_succ _
  · exact le_rfl

/-- After any calls a record tallies the digests of its key. -/
theorem tally_recordAfter (cs : List RatingCall) (c : RatingCall) :
    match recordAfter cs c with
    | none => digests cs c.key = []
    | some pos => Tally (digests cs c.key).toFinset pos ∧
        (NoFalsePositive cs → Exact (digests cs c.key).toFinset pos) := by
  induction cs using List.reverseRecOn with
  | nil => exact rfl
  | append_singleton cs o ih =>
    have hinit : NoFalsePositive (cs ++ [o]) → NoFalsePositive cs := by
      intro h pre d post he
      exact h pre d (post ++ [o]) (by rw [he]; simp)
    rw [recordAfter_concat]
    by_cases hkey : o.key = c.key
    · rw [if_pos hkey, recordAfter_congr hkey, toFinset_digests_concat hkey]
      cases hrec : recordAfter cs c with
      | none =>
        rw [hrec] at ih
        dsimp only at ih
        rw [ih]
        exact ⟨tally_ratingCreate, fun _ => exact_ratingCreate⟩
      | some pos =>
        rw [hrec] at ih
        obtain ⟨htally, hexact⟩ := ih
        refine ⟨htally.count o.md,
          fun hno => (hexact (hinit hno)).count htally fun h10 hcheck => ?_⟩
        by_contra hnew
        rw [List.mem_toFinset] at hnew
        refine hno cs o [] rfl ⟨pos, ?_, h10, hcheck, hkey ▸ hnew⟩
        exact (recordAfter_congr hkey cs).trans hrec
    · rw [if_neg hkey, digests_concat, if_neg hkey]
      cases hrec : recordAfter cs c with
      | none =>
        rw [hrec] at ih
        exact ih
      | some pos =>
        rw [hrec] at ih
        exact ⟨ih.1, fun hno => ih.2 (hinit hno)⟩

/-- Ratings do not go down. -/
theorem rating_le_recordAfter (cs post : List RatingCall) (c : RatingCall) :
    ∀ pos ∈ recordAfter cs c, ∃ pos' ∈ recordAfter (cs ++ post) c, pos.rating ≤ pos'.rating := by
  intro pos hpos
  induction post using List.reverseRecOn with
  | nil => exact ⟨pos, by rwa [List.append_nil], le_rfl⟩
  | append_singleton post o ih =>
    obtain ⟨pos', hpos', hle⟩ := ih
    rw [← List.append_assoc, recordAfter_concat]
    by_cases hkey : o.key = c.key
    · refine ⟨pos'.count o.md, ?_, hle.trans (rating_le_count pos' o.md)⟩
      rw [if_pos hkey, recordAfter_congr hkey, Option.mem_def.mp hpos']
      exact rfl
    · exact ⟨pos', by rwa [if_neg hkey], hle⟩

/-- Only the calls for the key matter. -/
theorem recordAfter_filter (cs : List RatingCall) (c : RatingCall) :
    recordAfter (cs.filter fun o => o.key = c.key) c = recordAfter cs c := by
  induction cs using List.reverseRecOn with
  | nil => rfl
  | append_singleton cs o ih =>
    rw [List.filter_append, recordAfter_concat]
    by_cases hkey : o.key = c.key
    · have hself : [o].filter (fun o => o.key = c.key) = [o] := by simp [hkey]
      rw [hself, recordAfter_concat, if_pos hkey, if_pos hkey, recordAfter_congr hkey,
        recordAfter_congr hkey, ih]
    · have hnone : [o].filter (fun o => o.key = c.key) = [] := by simp [hkey]
      rw [hnone, List.append_nil, if_neg hkey, ih]

/-- **A sender is counted once for each result.** A call returns at most 10 and less than the
number of senders in the calls for its hash and its target so far, and exactly that much if no
filter has reported a sender wrongly. The value never goes down, and no other call changes it. -/
theorem rating_counted_once (cs : List RatingCall) (c : RatingCall) :
    returned cs c ≤ min 10 (senders (cs ++ [c]) c.key - 1) ∧
    (NoFalsePositive (cs ++ [c]) → returned cs c = min 10 (senders (cs ++ [c]) c.key - 1)) ∧
    (∀ later c', c'.key = c.key → returned cs c ≤ returned (cs ++ c :: later) c') ∧
    returned cs c = returned (cs.filter fun o => o.key = c.key) c := by
  have htally := tally_recordAfter (cs ++ [c]) c
  rw [recordAfter_self] at htally
  refine ⟨?_, fun hno => ?_, fun later c' hkey => ?_, ?_⟩
  · rw [returned_eq]
    exact htally.1.le
  · rw [returned_eq]
    exact htally.2 hno
  · have hself : counted c.md c.target.1 (recordAfter cs c) ∈ recordAfter (cs ++ [c]) c :=
      recordAfter_self cs c
    obtain ⟨pos, hpos, hle⟩ := rating_le_recordAfter _ (later ++ [c']) c _ hself
    have hlist : cs ++ [c] ++ (later ++ [c']) = cs ++ c :: later ++ [c'] := by simp
    rw [hlist, recordAfter_congr hkey.symm, recordAfter_self] at hpos
    rw [returned_eq, returned_eq, Option.some_inj.mp hpos]
    exact hle
  · rw [returned_eq, returned_eq, recordAfter_filter]

end DtnDht
