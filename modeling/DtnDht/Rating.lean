import DtnDht.Lib.Bloom
import DtnDht.Id
import DtnDht.Sockaddr

/-!
# The rating of search results

A target's rating is the number of senders after the first that reported it, up to 10. Each
target has a filter of the senders counted so far, so that reporting a target again does not raise
its rating (`standing_getRating`). The time of the last update is written but never read and is
left out.
-/

namespace DtnDht

/-- `hash1` to `hash7`: byte `k` of the key, a signed `char`, as an `unsigned int`. -/
def hashByte (k : ℕ) (key : Bytes) : ℕ :=
  let c := (key.getD k 0).toNat
  if c < 128 then c else 2 ^ 32 - 256 + c

/-- The functions of a rating's filter. -/
def ratingFuncs : List (Bytes → ℕ) := (List.range 7).map hashByte

/-- `sockaddr_storage_equals`. -/
def sockaddrStorageEquals (ss1 ss2 : Sockaddr) : Bool :=
  if ss1.family ≠ ss2.family then false
  else if ss1.family = afInet then ss1.port == ss2.port && ss1.sinAddr == ss2.sinAddr
  else if ss1.family = afInet6 then ss1.port == ss2.port && ss1.sin6Addr == ss2.sin6Addr
  else false

/-- `struct dht_result_rating`, without the link. -/
structure ResultRating where
  ss : Sockaddr
  frombloom : BitVec 96
  rating : ℕ

/-- `struct dht_rating_entry`, without the link. -/
structure RatingEntry where
  key : Id
  ratings : List ResultRating

/-- The copy `rating_create` makes of a target; the bytes it does not set are never read. -/
def copyTarget (ss : Sockaddr) : Sockaddr :=
  if ss.family = afInet then sockaddrIn ss.sinAddr ss.port
  else if ss.family = afInet6 then sockaddrIn6 ss.sin6Addr ss.port
  else ss.take 2

section

/-! `md` is the digest of the sender's address. -/

variable (md : Bytes)

/-- `rating_create`. -/
def ratingCreate (ss : Sockaddr) : ResultRating where
  ss := copyTarget ss
  frombloom := Bloom.add ratingFuncs 0 md
  rating := 0

/-- What `get_rating` does to the rating of the target. -/
def ResultRating.count (pos : ResultRating) : ResultRating :=
  if pos.rating < 10 then
    if Bloom.check ratingFuncs pos.frombloom md then pos
    else { pos with frombloom := Bloom.add ratingFuncs pos.frombloom md, rating := pos.rating + 1 }
  else pos

/-- The test of `get_rating` for the target. -/
def ResultRating.rates (target : Sockaddr) (pos : ResultRating) : Bool :=
  sockaddrStorageEquals pos.ss target

/-- The loop of `get_rating` over the ratings of an entry. -/
def rateTarget (target : Sockaddr) : List ResultRating → ℕ × List ResultRating
  | [] => (0, [ratingCreate md target])
  | pos :: ratings =>
    if pos.rates target then ((pos.count md).rating, pos.count md :: ratings)
    else
      let (rating, ratings) := rateTarget target ratings
      (rating, pos :: ratings)

/-- `memcmp(entry->key, info_hash, SHA_DIGEST_LENGTH) == 0`. -/
def RatingEntry.isFor (infoHash : Id) (entry : RatingEntry) : Bool :=
  idCmp entry.key infoHash = .eq

theorem isFor_rating_iff {infoHash : Id} {entry : RatingEntry} :
    entry.isFor infoHash = true ↔ entry.key = infoHash := by
  rw [RatingEntry.isFor, decide_eq_true_iff, idCmp_eq_eq]

/-- The loop of `get_rating` over the entries, none if it finds no entry for the hash. -/
def rateEntry (infoHash : Id) (target : Sockaddr) :
    List RatingEntry → Option (ℕ × List RatingEntry)
  | [] => none
  | entry :: list =>
    if entry.isFor infoHash then
      let (rating, ratings) := rateTarget md target entry.ratings
      some (rating, { entry with ratings := ratings } :: list)
    else (rateEntry infoHash target list).map fun (rating, list) => (rating, entry :: list)

/-- `get_rating`; an entry that is not there is made by `rating_create_entry`. -/
def getRating (list : List RatingEntry) (infoHash : Id) (target : Sockaddr) :
    ℕ × List RatingEntry :=
  (rateEntry md infoHash target list).getD (0, ⟨infoHash, [ratingCreate md target]⟩ :: list)

/-! ## Counting a sender once -/

/-- The rating of the target among those of an entry, with the sender counted. -/
def RatingEntry.standing (target : Sockaddr) (entry : RatingEntry) : ℕ :=
  (entry.ratings.find? (·.rates target)).elim 0 fun pos => (pos.count md).rating

/-- The rating a target has for a hash, with the sender counted. -/
def standing (list : List RatingEntry) (infoHash : Id) (target : Sockaddr) : ℕ :=
  (list.find? (·.isFor infoHash)).elim 0 (·.standing md target)

variable {md} {target : Sockaddr}

@[simp]
theorem rates_count (pos : ResultRating) : (pos.count md).rates target = pos.rates target := by
  unfold ResultRating.count
  split_ifs <;> rfl

@[simp]
theorem ss_count (pos : ResultRating) : (pos.count md).ss = pos.ss := by
  unfold ResultRating.count
  split_ifs <;> rfl

/-- A sender that is counted is not counted again. -/
theorem count_of_check {pos : ResultRating}
    (h : Bloom.check ratingFuncs pos.frombloom md = true) : pos.count md = pos := by
  unfold ResultRating.count
  rw [if_pos h, ite_self]

theorem count_count (pos : ResultRating) : (pos.count md).count md = pos.count md := by
  by_cases hr : pos.rating < 10
  · by_cases h : Bloom.check ratingFuncs pos.frombloom md = true
    · rw [count_of_check h, count_of_check h]
    · refine count_of_check ?_
      rw [ResultRating.count, if_pos hr, if_neg h]
      exact Bloom.check_add (by decide)
  · have e : pos.count md = pos := if_neg hr
    rw [e, e]

/-- The sender is counted from the start. -/
theorem count_ratingCreate (target : Sockaddr) :
    (ratingCreate md target).count md = ratingCreate md target :=
  count_of_check (Bloom.check_add (by decide))

theorem rateTarget_fst (key : Id) (ratings : List ResultRating) :
    (rateTarget md target ratings).1 = RatingEntry.standing md target ⟨key, ratings⟩ := by
  unfold RatingEntry.standing
  induction ratings with
  | nil => rfl
  | cons pos ratings ih =>
    rw [rateTarget, List.find?_cons]
    cases h : pos.rates target with
    | true => rfl
    | false => exact ih

theorem standing_rateTarget (ht : (ratingCreate md target).rates target = true) (key : Id)
    (ratings : List ResultRating) :
    RatingEntry.standing md target ⟨key, (rateTarget md target ratings).2⟩ =
      RatingEntry.standing md target ⟨key, ratings⟩ := by
  unfold RatingEntry.standing
  induction ratings with
  | nil =>
    rw [rateTarget, List.find?_cons, ht]
    exact congrArg ResultRating.rating (count_ratingCreate target)
  | cons pos ratings ih =>
    rw [rateTarget]
    cases h : pos.rates target with
    | true =>
      have hcount : (pos.count md).rates target = true := (rates_count pos).trans h
      rw [if_pos rfl, List.find?_cons, List.find?_cons, h, hcount]
      exact congrArg ResultRating.rating (count_count pos)
    | false =>
      rw [if_neg Bool.false_ne_true]
      dsimp only
      rw [List.find?_cons, List.find?_cons, h]
      exact ih

variable (infoHash : Id)

/-- `get_rating` returns the rating with the sender counted. -/
theorem getRating_fst (list : List RatingEntry) :
    (getRating md list infoHash target).1 = standing md list infoHash target := by
  unfold getRating standing
  induction list with
  | nil => rfl
  | cons entry list ih =>
    rw [rateEntry, List.find?_cons]
    cases h : entry.isFor infoHash with
    | true => exact rateTarget_fst entry.key entry.ratings
    | false =>
      dsimp only
      rw [← ih, if_neg Bool.false_ne_true]
      cases rateEntry md infoHash target list <;> rfl

theorem standing_rateEntry (ht : (ratingCreate md target).rates target = true)
    {list : List RatingEntry} {out : ℕ × List RatingEntry}
    (h : rateEntry md infoHash target list = some out) :
    standing md out.2 infoHash target = standing md list infoHash target := by
  unfold standing
  induction list generalizing out with
  | nil => exact absurd h (by simp [rateEntry])
  | cons entry list ih =>
    rw [rateEntry] at h
    cases hk : entry.isFor infoHash with
    | true =>
      rw [hk, if_pos rfl, Option.some_inj] at h
      subst h
      have hk' : RatingEntry.isFor infoHash
          ⟨entry.key, (rateTarget md target entry.ratings).2⟩ = true := hk
      rw [List.find?_cons, List.find?_cons, hk, hk']
      exact standing_rateTarget ht entry.key entry.ratings
    | false =>
      rw [hk, if_neg Bool.false_ne_true] at h
      obtain ⟨out', h', rfl⟩ := Option.map_eq_some_iff.mp h
      rw [List.find?_cons, List.find?_cons, hk]
      exact ih h'

/-- A sender that reports a target again changes no rating of it. -/
theorem standing_getRating (ht : (ratingCreate md target).rates target = true)
    (list : List RatingEntry) :
    standing md (getRating md list infoHash target).2 infoHash target =
      standing md list infoHash target := by
  cases h : rateEntry md infoHash target list with
  | none =>
    have hself : RatingEntry.isFor infoHash ⟨infoHash, [ratingCreate md target]⟩ = true :=
      decide_eq_true (idCmp_eq_eq.mpr rfl)
    rw [← getRating_fst infoHash list, getRating, h]
    unfold standing RatingEntry.standing
    dsimp only [Option.getD_none]
    rw [List.find?_cons, hself]
    dsimp only [Option.elim]
    rw [List.find?_cons, ht]
    exact congrArg ResultRating.rating (count_ratingCreate target)
  | some out =>
    rw [getRating, h]
    exact standing_rateEntry infoHash ht h

end

end DtnDht
