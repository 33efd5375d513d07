import DtnDht.Lib.LazyBucket
import DtnDht.Periodic
import Mathlib.Data.List.TakeDrop

/-!
# The request bucket under any clock

`token_bucket_tokens` is an `int` and the clock is that of `gettimeofday`, which may be set back.
As long as no refill reads a time behind the last one the bucket holds between 0 and 400 tokens
and is the one `dht_periodic` is modelled with (`take_eq`, `tokens_in_range`). A refill behind the
last one leaves a debt, which is not 0, and a request is granted on it (`granted_behind`).
-/

namespace DtnDht

/-- `token_bucket_time` and `token_bucket_tokens`. -/
structure RequestBucket where
  time : ℤ
  tokens : Int32

namespace RequestBucket

/-- What `dht_init` leaves in the bucket. -/
def init (now : ℤ) : RequestBucket := ⟨now, Int32.ofInt maxTokenBucketTokens⟩

/-- The refill of `token_bucket`. -/
def refill (now : ℤ) (b : RequestBucket) : RequestBucket :=
  if b.tokens = 0 then ⟨now, Int32.ofInt (min maxTokenBucketTokens (100 * (now - b.time)))⟩ else b

/-- `token_bucket`. -/
def take (now : ℤ) (b : RequestBucket) : Bool × RequestBucket :=
  let b := b.refill now
  if b.tokens = 0 then (false, b) else (true, { b with tokens := b.tokens - 1 })

/-- The bucket after calls at these times. -/
def run (b : RequestBucket) (clock : List ℤ) : RequestBucket :=
  clock.foldl (fun b now => (b.take now).2) b

/-- The bucket with a number for its `int`. -/
def toState (b : RequestBucket) : TokenBucket := ⟨b.time, b.tokens.toInt⟩

variable {b : RequestBucket} {now t0 : ℤ} {clock : List ℤ}

/-! ## In range -/

theorem toState_tokens_eq_zero : b.toState.tokens = 0 ↔ b.tokens = 0 :=
  Int32.toInt_inj (x := b.tokens) (y := 0)

theorem toInt_ofInt {n : ℤ} (h0 : 0 ≤ n) (h : n ≤ 400) : (Int32.ofInt n).toInt = n :=
  Int32.toInt_ofInt_of_le (by omega) (by omega)

theorem toState_refill (hf : LazyBucket.Forward now b.toState) :
    (b.refill now).toState = LazyBucket.refill 400 100 now b.toState := by
  unfold refill LazyBucket.refill
  simp only [toState_tokens_eq_zero]
  split_ifs with h0
  · have htime : b.time ≤ now := hf (toState_tokens_eq_zero.mpr h0)
    have hn : 0 ≤ min 400 (100 * (now - b.time)) := by omega
    exact congrArg (LazyBucket.State.mk now) (toInt_ofInt hn (min_le_left _ _))
  · rfl

/-- In range and with time going forward, `int`s are numbers. -/
theorem take_eq (h : LazyBucket.InRange 400 b.toState) (hf : LazyBucket.Forward now b.toState) :
    (b.take now).1 = (tokenBucket now b.toState).1 ∧
      (b.take now).2.toState = (tokenBucket now b.toState).2 := by
  have hin : LazyBucket.InRange 400 (LazyBucket.refill 400 100 now b.toState) :=
    h.refill hf (by decide) (by decide)
  have e : tokenBucket now b.toState = LazyBucket.take 400 100 now b.toState := rfl
  rw [e]
  unfold take LazyBucket.take
  rw [← toState_refill hf] at hin ⊢
  dsimp only
  simp only [toState_tokens_eq_zero]
  split_ifs with h0
  · exact ⟨rfl, rfl⟩
  · have hpos : 0 < (b.refill now).tokens.toInt :=
      lt_of_le_of_ne hin.nonneg fun h => h0 (toState_tokens_eq_zero.mp h.symm)
    have hsub : ((b.refill now).tokens - 1).toInt = (b.refill now).tokens.toInt - 1 := by
      have hle : (b.refill now).tokens.toInt ≤ 400 := hin.le
      rw [Int32.toInt_sub]
      exact Int.bmod_eq_of_le (by simp; omega) (by simp; omega)
    exact ⟨rfl, congrArg (LazyBucket.State.mk _) hsub⟩

/-! ## Runs -/

/-- The calls of a run that find no tokens do not read a time before that of the last refill. -/
def RefillsForward (b : RequestBucket) (clock : List ℤ) : Prop :=
  ∀ n now, clock[n]? = some now → (b.run (clock.take n)).tokens = 0 →
    (b.run (clock.take n)).time ≤ now

theorem inRange_take (h : LazyBucket.InRange 400 b.toState)
    (hf : LazyBucket.Forward now b.toState) : LazyBucket.InRange 400 (b.take now).2.toState := by
  rw [(take_eq h hf).2]
  exact h.take hf (by decide) (by decide)

theorem inRange_run (h : LazyBucket.InRange 400 b.toState) (hf : RefillsForward b clock) {n : ℕ}
    (hn : n ≤ clock.length) : LazyBucket.InRange 400 (b.run (clock.take n)).toState := by
  induction n with
  | zero => exact h
  | succ n ih =>
    have hlt : n < clock.length := hn
    have hsnoc : b.run (clock.take (n + 1)) = ((b.run (clock.take n)).take clock[n]).2 := by
      unfold run
      rw [List.take_succ_eq_append_getElem hlt, List.foldl_append]
      rfl
    rw [hsnoc]
    refine inRange_take (ih hlt.le) fun h0 => ?_
    exact hf n _ (List.getElem?_eq_getElem hlt) (toState_tokens_eq_zero.mp h0)

theorem inRange_init (now : ℤ) : LazyBucket.InRange 400 (init now).toState :=
  have h : (init now).toState.tokens = 400 := toInt_ofInt (n := 400) (by omega) le_rfl
  ⟨h ▸ by omega, h.le⟩

/-- The last refill was at one of the times of the run. -/
theorem time_run_mem (b : RequestBucket) (clock : List ℤ) :
    (b.run clock).time ∈ b.time :: clock := by
  induction clock generalizing b with
  | nil => exact List.mem_cons_self
  | cons now clock ih =>
    have htime : (b.take now).2.time = b.time ∨ (b.take now).2.time = now := by
      unfold take refill
      dsimp only
      split_ifs
      · exact Or.inr rfl
      · exact Or.inr rfl
      · exact Or.inl rfl
    rcases List.mem_cons.mp (ih (b.take now).2) with h | h
    · rcases htime with h' | h'
      · exact List.mem_cons.mpr (Or.inl (h.trans h'))
      · exact List.mem_cons_of_mem _ (List.mem_cons.mpr (Or.inl (h.trans h')))
    · exact List.mem_cons_of_mem _ (List.mem_cons_of_mem now h)

/-- A clock that does not go back is no trouble. -/
theorem refillsForward_of_pairwise (h : (t0 :: clock).Pairwise (· ≤ ·)) :
    RefillsForward (init t0) clock := by
  intro n now hnow _
  obtain ⟨hlt, rfl⟩ := List.getElem?_eq_some_iff.mp hnow
  obtain ⟨h0, hclock⟩ := List.pairwise_cons.mp h
  rcases List.mem_cons.mp (time_run_mem (init t0) (clock.take n)) with he | hmem
  · rw [he]
    exact h0 _ (List.getElem_mem hlt)
  · obtain ⟨i, hi, he⟩ := List.getElem_of_mem hmem
    rw [List.length_take] at hi
    rw [List.getElem_take] at he
    rw [← he]
    exact List.pairwise_iff_getElem.mp hclock i n (by omega) hlt (by omega)

/-- **The tokens stay in range** as long as the clock has not gone back behind the last refill when
the next one is due: there are between 0 and 400, and a request that is granted had a token. -/
theorem tokens_in_range (t0 : ℤ) (clock : List ℤ) (h : RefillsForward (init t0) clock) :
    (∀ n ≤ clock.length, 0 ≤ ((init t0).run (clock.take n)).tokens.toInt ∧
      ((init t0).run (clock.take n)).tokens.toInt ≤ 400) ∧
    ∀ n now, clock[n]? = some now → (((init t0).run (clock.take n)).take now).1 = true →
      0 < (((init t0).run (clock.take n)).refill now).tokens.toInt := by
  have hrun := fun n (hn : n ≤ clock.length) => inRange_run (inRange_init t0) h hn
  refine ⟨fun n hn => ⟨(hrun n hn).nonneg, (hrun n hn).le⟩, fun n now hnow ht => ?_⟩
  obtain ⟨hlt, -⟩ := List.getElem?_eq_some_iff.mp hnow
  have hin := hrun n hlt.le
  have hf : LazyBucket.Forward now ((init t0).run (clock.take n)).toState :=
    fun h0 => h n now hnow (toState_tokens_eq_zero.mp h0)
  rw [(take_eq hin hf).1] at ht
  have hpos := hin.pos_of_take hf (by decide) (by decide) ht
  rwa [← toState_refill hf] at hpos

theorem tokens_in_range_three :
    0 < (((init 1000).run [1000, 1000]).refill 1001).tokens.toInt := by
  have hclock : (1000 :: [1000, 1000, 1001] : List ℤ).Pairwise (· ≤ ·) := by decide
  exact (tokens_in_range 1000 [1000, 1000, 1001] (refillsForward_of_pairwise hclock)).2 2 1001 rfl
    (by decide +kernel)

/-- A refill that is due when the clock has been set back, by less than eight months, leaves a
debt, and the request is granted. -/
theorem granted_behind (h0 : b.tokens = 0) (h : now < b.time) (hle : b.time - now ≤ 21474836) :
    (b.take now).1 = true ∧ (b.refill now).tokens.toInt = 100 * (now - b.time) ∧
      (b.refill now).tokens.toInt < 0 := by
  have hrefill : (b.refill now).tokens.toInt = 100 * (now - b.time) := by
    unfold refill
    rw [if_pos h0, min_eq_right (show 100 * (now - b.time) ≤ maxTokenBucketTokens by
      unfold maxTokenBucketTokens; omega)]
    exact Int32.toInt_ofInt_of_le (by omega) (by omega)
  have hneg : (b.refill now).tokens.toInt < 0 := by omega
  refine ⟨?_, hrefill, hneg⟩
  unfold take
  rw [if_neg fun h => hneg.ne (Int32.toInt_inj.mpr h)]

/-- A busy second, after which the clock is set back. -/
def setBack : List ℤ := List.replicate 400 1000 ++ [999]

theorem tokens_not_in_range : ¬ ∀ (t0 : ℤ) (clock : List ℤ),
    (∀ n ≤ clock.length, 0 ≤ ((init t0).run (clock.take n)).tokens.toInt ∧
      ((init t0).run (clock.take n)).tokens.toInt ≤ 400) ∧
    ∀ n now, clock[n]? = some now → (((init t0).run (clock.take n)).take now).1 = true →
      0 < (((init t0).run (clock.take n)).refill now).tokens.toInt := by
  intro h
  have hneg := ((h 1000 setBack).1 401 (by decide +kernel)).1
  exact absurd hneg (by decide +kernel)

end RequestBucket

end DtnDht
