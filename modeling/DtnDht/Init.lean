import DtnDht.Periodic

/-!
# Starting and stopping a node

`dht_init` can fail at five places: an allocation and `set_nonblocking` in each family, and
`rotate_secrets`. The label `fail` takes back the IPv4 buckets only, and the two allocations do not
even go there. So some failures leave buckets behind; then `dht_init` fails with `EBUSY` from there
on, and `dht_uninit`, which would free them, asks for a socket and fails as well.
-/

namespace DtnDht

open CString

/-- What the calls inside `dht_init` return. -/
structure InitOutcomes where
  /-- does `calloc` for the IPv4 bucket succeed? -/
  calloc : Bool
  /-- does `set_nonblocking(s, 1)` succeed? -/
  setNonblocking : Bool
  /-- does `calloc` for the IPv6 bucket succeed? -/
  calloc6 : Bool
  /-- does `set_nonblocking(s6, 1)` succeed? -/
  setNonblocking6 : Bool
  /-- does `dht_random_bytes` in `rotate_secrets` succeed? -/
  randomBytes : Bool

/-- All of them succeed. -/
def InitOutcomes.succeed : InitOutcomes := ⟨true, true, true, true, true⟩

/-- All calls that `dht_init` makes for these sockets succeed. -/
structure InitOutcomes.Succeeds (s s6 : ℤ) (oc : InitOutcomes) : Prop where
  family : 0 ≤ s → oc.calloc = true ∧ oc.setNonblocking = true
  family6 : 0 ≤ s6 → oc.calloc6 = true ∧ oc.setNonblocking6 = true
  randomBytes : oc.randomBytes = true

/-- What `dht_init` returns. -/
inductive InitResult where
  | initialised
  /-- with `errno` set to `EBUSY` -/
  | busy
  | failed
  deriving DecidableEq

/-- The number `dht_init` returns. -/
def InitResult.rc : InitResult → ℤ
  | initialised => 1
  | busy => -1
  | failed => -1

namespace World

/-- No sockets and no buckets. -/
structure Uninitialised (w : World) : Prop where
  socket : w.dhtSocket < 0
  socket6 : w.dhtSocket6 < 0
  buckets : w.routing.buckets = []
  buckets6 : w.routing.buckets6 = []

instance (w : World) : Decidable w.Uninitialised :=
  decidable_of_iff (w.dhtSocket < 0 ∧ w.dhtSocket6 < 0 ∧ w.routing.buckets = [] ∧
      w.routing.buckets6 = [])
    ⟨fun ⟨h, h6, hb, hb6⟩ => ⟨h, h6, hb, hb6⟩, fun ⟨h, h6, hb, hb6⟩ => ⟨h, h6, hb, hb6⟩⟩

/-! ## `dht_init` -/

/-- From the label `fail` on. -/
def initFail (w : World) : InitResult × World :=
  (.failed, { w with routing := { w.routing with buckets := [] } })

/-- The statics that `dht_init` sets once the sockets are prepared, with `rotate_secrets`. Whatever
`dht_random_bytes` returns in there, `oldsecret` is written and `secret` holds what it left. -/
def initStatics (w : World) (id : Id) (v : Option Bytes) : World :=
  let w := { w with myid := id, myV := v.map fun v : Bytes => str "1:v4:" ++ v.take 4 }
  let w := w.gettimeofday
  let w := { w with
    routing := { w.routing with mybucketGrowTime := w.now, mybucket6GrowTime := w.now } }
  let (x, w) := w.random
  let w := { w with confirmNodesTime := w.now + x % 3 }
  let (x, w) := w.random
  let w := { w with
    searchId := UInt16.ofNat x
    searchTime := 0
    nextBlacklisted := 0
    bucket := ⟨w.now, maxTokenBucketTokens⟩
    secrets := { w.secrets with secret := List.replicate 8 0 } }
  w.rotateSecrets

/-- The end of `dht_init`, when nothing has failed. -/
def initDone (w : World) (s s6 : ℤ) : World :=
  { w with dhtSocket := s, dhtSocket6 := s6 }.expireBuckets

/-- `dht_init` after the sockets are prepared. -/
def initRest (w : World) (s s6 : ℤ) (id : Id) (v : Option Bytes) (oc : InitOutcomes) :
    InitResult × World :=
  let w := w.initStatics id v
  if oc.randomBytes then (.initialised, w.initDone s s6) else w.initFail

/-- `if (s6 >= 0)` and what follows. -/
def initFamily6 (w : World) (s s6 : ℤ) (id : Id) (v : Option Bytes) (oc : InitOutcomes) :
    InitResult × World :=
  if 0 ≤ s6 then
    if oc.calloc6 then
      let w := { w with
        routing := { w.routing with buckets6 := [callocBucket afInet6 Id.zeroes] } }
      if oc.setNonblocking6 then w.initRest s s6 id v oc else w.initFail
    else (.failed, w)
  else w.initRest s s6 id v oc

/-- `if (s >= 0)` and what follows. -/
def initFamily (w : World) (s s6 : ℤ) (id : Id) (v : Option Bytes) (oc : InitOutcomes) :
    InitResult × World :=
  if 0 ≤ s then
    if oc.calloc then
      let w := { w with
        routing := { w.routing with buckets := [callocBucket afInet Id.zeroes] } }
      if oc.setNonblocking then w.initFamily6 s s6 id v oc else w.initFail
    else (.failed, w)
  else w.initFamily6 s s6 id v oc

/-- `dht_init`, whatever the calls inside return. -/
def dhtInitWith (w : World) (s s6 : ℤ) (id : Id) (v : Option Bytes) (oc : InitOutcomes) :
    InitResult × World :=
  if 0 ≤ w.dhtSocket ∨ 0 ≤ w.dhtSocket6 ∨ w.routing.buckets ≠ [] ∨ w.routing.buckets6 ≠ [] then
    (.busy, w)
  else
    let w := { w with
      searches := []
      numsearches := 0
      storage := []
      eids := { w.eids with groups := [], neighbours := [] } }
    w.initFamily s s6 id v oc

/-- `dht_uninit`; the first component is its value. The lists of groups and neighbours are freed,
and their heads are left to `dht_init`. -/
def dhtUninit (w : World) : ℤ × World :=
  if w.dhtSocket < 0 ∧ w.dhtSocket6 < 0 then (-1, w)
  else
    (1, { w with
      dhtSocket := -1
      dhtSocket6 := -1
      routing := { w.routing with buckets := [], buckets6 := [] }
      storage := []
      searches := [] })

/-! ## `dht_init` as it succeeds -/

/-- There are no nodes in a fresh table. -/
theorem nodes_dhtInit (w : World) (s s6 : ℤ) (id : Id) (v : Option Bytes) {af : ℕ} {b : Bucket}
    (hb : b ∈ (w.dhtInit s s6 id v).routing.table af) : b.nodes = [] := by
  let r : Routing :=
    { buckets := if 0 ≤ s then [callocBucket afInet Id.zeroes] else []
      buckets6 := if 0 ≤ s6 then [callocBucket afInet6 Id.zeroes] else []
      mybucketGrowTime := w.gettimeofday.now
      mybucket6GrowTime := w.gettimeofday.now }
  obtain ⟨net, hr⟩ : ∃ net, (w.dhtInit s s6 id v).routing = (r.expireBuckets net).1 := ⟨_, rfl⟩
  rw [hr, Routing.table_expireBuckets] at hb
  obtain ⟨b, hfrom, rfl⟩ := List.mem_map.mp hb
  have hfresh : b = callocBucket afInet Id.zeroes ∨ b = callocBucket afInet6 Id.zeroes := by
    have hmem : ∀ {c : Bucket} {x : ℤ}, b ∈ (if 0 ≤ x then [c] else []) → b = c := by
      intro c x h
      split_ifs at h
      · exact List.mem_singleton.mp h
      · exact absurd h List.not_mem_nil
    unfold Routing.table at hfrom
    split_ifs at hfrom
    · exact Or.inl (hmem hfrom)
    · exact Or.inr (hmem hfrom)
  rw [Routing.nodes_expireBucket]
  rcases hfresh with rfl | rfl <;> rfl

section

variable (w : World) (s s6 : ℤ) (id : Id) (v : Option Bytes)

theorem initFamily6_succeed : w.initFamily6 s s6 id v .succeed =
    (.initialised, initDone (initStatics { w with routing := { w.routing with
      buckets6 := if 0 ≤ s6 then [callocBucket afInet6 Id.zeroes] else w.routing.buckets6 } }
        id v) s s6) := by
  unfold initFamily6
  by_cases h6 : 0 ≤ s6
  · simp only [if_pos h6]
    rfl
  · simp only [if_neg h6]
    rfl

theorem initFamily_succeed : w.initFamily s s6 id v .succeed =
    (.initialised, initDone (initStatics { w with routing := { w.routing with
      buckets := if 0 ≤ s then [callocBucket afInet Id.zeroes] else w.routing.buckets
      buckets6 := if 0 ≤ s6 then [callocBucket afInet6 Id.zeroes] else w.routing.buckets6 } }
        id v) s s6) := by
  unfold initFamily
  by_cases h : 0 ≤ s
  · simp only [if_pos h]
    exact initFamily6_succeed _ s s6 id v
  · simp only [if_neg h]
    exact initFamily6_succeed w s s6 id v

/-- In the uninitialised state, when no call fails, `dht_init` does what it is modelled to do when
it succeeds. -/
theorem dhtInitWith_succeed (hw : w.Uninitialised) :
    w.dhtInitWith s s6 id v .succeed = (.initialised, w.dhtInit s s6 id v) := by
  have hbusy : ¬ (0 ≤ w.dhtSocket ∨ 0 ≤ w.dhtSocket6 ∨ w.routing.buckets ≠ [] ∨
      w.routing.buckets6 ≠ []) := by
    simp [hw.socket, hw.socket6, hw.buckets, hw.buckets6]
  unfold dhtInitWith
  rw [if_neg hbusy, initFamily_succeed]
  dsimp only
  rw [hw.buckets, hw.buckets6]
  unfold dhtInit initDone
  apply congrArg (Prod.mk _)
  apply congrArg expireBuckets
  rfl

end

section

variable {w : World} {s s6 : ℤ} (id : Id) (v : Option Bytes) {oc : InitOutcomes}

theorem succeeds_of_initRest (h : (w.initRest s s6 id v oc).1 = .initialised) :
    oc.randomBytes = true := by
  by_contra hr
  unfold initRest at h
  rw [if_neg hr] at h
  cases h

theorem succeeds_of_initFamily6 (h : (w.initFamily6 s s6 id v oc).1 = .initialised) :
    (0 ≤ s6 → oc.calloc6 = true ∧ oc.setNonblocking6 = true) ∧ oc.randomBytes = true := by
  unfold initFamily6 at h
  by_cases h6 : 0 ≤ s6
  · rw [if_pos h6] at h
    by_cases hc : oc.calloc6 = true
    · rw [if_pos hc] at h
      dsimp only at h
      by_cases hn : oc.setNonblocking6 = true
      · rw [if_pos hn] at h
        exact ⟨fun _ => ⟨hc, hn⟩, succeeds_of_initRest id v h⟩
      · rw [if_neg hn] at h
        cases h
    · rw [if_neg hc] at h
      cases h
  · rw [if_neg h6] at h
    exact ⟨fun h0 => absurd h0 h6, succeeds_of_initRest id v h⟩

theorem succeeds_of_initFamily (h : (w.initFamily s s6 id v oc).1 = .initialised) :
    oc.Succeeds s s6 := by
  unfold initFamily at h
  by_cases h0 : 0 ≤ s
  · rw [if_pos h0] at h
    by_cases hc : oc.calloc = true
    · rw [if_pos hc] at h
      dsimp only at h
      by_cases hn : oc.setNonblocking = true
      · rw [if_pos hn] at h
        obtain ⟨h6, hr⟩ := succeeds_of_initFamily6 id v h
        exact ⟨fun _ => ⟨hc, hn⟩, h6, hr⟩
      · rw [if_neg hn] at h
        cases h
    · rw [if_neg hc] at h
      cases h
  · rw [if_neg h0] at h
    obtain ⟨h6, hr⟩ := succeeds_of_initFamily6 id v h
    exact ⟨fun h => absurd h h0, h6, hr⟩

/-- Only the calls that are made matter. -/
theorem initFamily_of_succeeds (h : oc.Succeeds s s6) :
    w.initFamily s s6 id v oc = w.initFamily s s6 id v .succeed := by
  have hrest : ∀ w : World, w.initRest s s6 id v oc = w.initRest s s6 id v .succeed := by
    intro w
    unfold initRest
    rw [h.randomBytes]
    rfl
  have hfamily6 : ∀ w : World, w.initFamily6 s s6 id v oc = w.initFamily6 s s6 id v .succeed := by
    intro w
    unfold initFamily6
    by_cases h6 : 0 ≤ s6
    · rw [if_pos h6, if_pos h6, if_pos (h.family6 h6).1,
        if_pos (c := InitOutcomes.succeed.calloc6) rfl]
      dsimp only
      rw [if_pos (h.family6 h6).2, hrest]
      rfl
    · rw [if_neg h6, if_neg h6, hrest]
  unfold initFamily
  by_cases h0 : 0 ≤ s
  · rw [if_pos h0, if_pos h0, if_pos (h.family h0).1]
    dsimp only
    rw [if_pos (h.family h0).2, hfamily6]
    rfl
  · rw [if_neg h0, if_neg h0, hfamily6]

/-- In the uninitialised state, when no call that it makes fails, `dht_init` does what it is modelled
to do when it succeeds. -/
theorem dhtInitWith_of_succeeds (hw : w.Uninitialised) (h : oc.Succeeds s s6) :
    w.dhtInitWith s s6 id v oc = (.initialised, w.dhtInit s s6 id v) := by
  rw [← dhtInitWith_succeed w s s6 id v hw]
  unfold dhtInitWith
  rw [initFamily_of_succeeds id v h]

end

/-! ## `dht_init` when something fails -/

/-- If a start ended with -1, no sockets and no buckets are left. -/
def Retriable (out : InitResult × World) : Prop := out.1.rc = -1 → out.2.Uninitialised

/-- `dht_init` gets to the IPv6 family, and what fails from there on is `set_nonblocking` or
`rotate_secrets` with the IPv6 bucket there, or the allocation with the IPv4 bucket there. -/
def LeavesBuckets (s s6 : ℤ) (oc : InitOutcomes) : Prop :=
  0 ≤ s6 ∧ (0 ≤ s → oc.calloc = true ∧ oc.setNonblocking = true) ∧
    if oc.calloc6 then ¬ (oc.setNonblocking6 = true ∧ oc.randomBytes = true) else 0 ≤ s

instance (s s6 : ℤ) (oc : InitOutcomes) : Decidable (LeavesBuckets s s6 oc) := by
  unfold LeavesBuckets
  infer_instance

section

variable {w : World} (s s6 : ℤ) (id : Id) (v : Option Bytes) (oc : InitOutcomes)

theorem retriable_initFail (hs : w.dhtSocket < 0) (hs6 : w.dhtSocket6 < 0) :
    Retriable w.initFail ↔ w.routing.buckets6 = [] := by
  constructor
  · intro h
    exact (h rfl).buckets6
  · intro h _
    exact ⟨hs, hs6, rfl, h⟩

theorem retriable_initRest (hs : w.dhtSocket < 0) (hs6 : w.dhtSocket6 < 0) :
    Retriable (w.initRest s s6 id v oc) ↔ oc.randomBytes = true ∨ w.routing.buckets6 = [] := by
  unfold initRest
  cases h : oc.randomBytes with
  | true =>
    have hrc : (1 : ℤ) ≠ -1 := by decide
    exact iff_of_true (fun h => absurd h hrc) (Or.inl rfl)
  | false =>
    simp only [Bool.false_eq_true, if_false, false_or]
    exact retriable_initFail hs hs6

theorem retriable_initFamily6 (hs : w.dhtSocket < 0) (hs6 : w.dhtSocket6 < 0)
    (hb6 : w.routing.buckets6 = []) :
    Retriable (w.initFamily6 s s6 id v oc) ↔
      (0 ≤ s6 → if oc.calloc6 then oc.setNonblocking6 = true ∧ oc.randomBytes = true
        else w.routing.buckets = []) := by
  unfold initFamily6
  by_cases h6 : 0 ≤ s6
  · simp only [h6, if_true, true_imp_iff]
    cases hc : oc.calloc6 with
    | false =>
      simp only [Bool.false_eq_true, if_false]
      constructor
      · intro h
        exact (h rfl).buckets
      · intro h _
        exact ⟨hs, hs6, h, hb6⟩
    | true =>
      simp only [if_true]
      cases hn : oc.setNonblocking6 with
      | false =>
        simp only [Bool.false_eq_true, if_false, false_and]
        rw [retriable_initFail (by exact hs) (by exact hs6)]
        exact iff_of_false (List.cons_ne_nil _ _) not_false
      | true =>
        simp only [if_true, true_and]
        rw [retriable_initRest s s6 id v oc (by exact hs) (by exact hs6)]
        exact or_iff_left (List.cons_ne_nil _ _)
  · simp only [h6, if_false, false_imp_iff, iff_true]
    exact (retriable_initRest s s6 id v oc hs hs6).mpr (Or.inr hb6)

theorem retriable_initFamily (hw : w.Uninitialised) :
    Retriable (w.initFamily s s6 id v oc) ↔ ¬ LeavesBuckets s s6 oc := by
  obtain ⟨hs, hs6, hb, hb6⟩ := hw
  unfold initFamily LeavesBuckets
  by_cases h : 0 ≤ s
  · simp only [h, if_true, true_imp_iff]
    cases hc : oc.calloc with
    | false =>
      simp only [Bool.false_eq_true, if_false, false_and, and_false, not_false_iff, iff_true]
      intro _
      exact ⟨hs, hs6, hb, hb6⟩
    | true =>
      simp only [if_true, true_and]
      cases hn : oc.setNonblocking with
      | false =>
        simp only [Bool.false_eq_true, if_false, false_and, and_false, not_false_iff, iff_true]
        exact (retriable_initFail (by exact hs) (by exact hs6)).mpr hb6
      | true =>
        simp only [if_true, true_and]
        rw [retriable_initFamily6 s s6 id v oc (by exact hs) (by exact hs6) (by exact hb6)]
        cases oc.calloc6 <;> simp
  · simp only [h, if_false, false_imp_iff, true_and]
    rw [retriable_initFamily6 s s6 id v oc hs hs6 hb6]
    cases oc.calloc6 <;> simp [hb]

/-- The test at the start of `dht_init` is for the uninitialised state. -/
theorem uninitialised_iff : ¬ w.Uninitialised ↔
    0 ≤ w.dhtSocket ∨ 0 ≤ w.dhtSocket6 ∨ w.routing.buckets ≠ [] ∨ w.routing.buckets6 ≠ [] := by
  constructor
  · intro h
    by_contra hbusy
    simp only [not_or, not_not, not_le] at hbusy
    obtain ⟨hs, hs6, hb, hb6⟩ := hbusy
    exact h ⟨hs, hs6, hb, hb6⟩
  · rintro (h | h | h | h) ⟨hs, hs6, hb, hb6⟩
    · exact absurd h (not_le.mpr hs)
    · exact absurd h (not_le.mpr hs6)
    · exact h hb
    · exact h hb6

theorem initRest_ne_busy : (w.initRest s s6 id v oc).1 ≠ .busy := by
  unfold initRest
  cases oc.randomBytes <;> exact nofun

theorem initFamily6_ne_busy : (w.initFamily6 s s6 id v oc).1 ≠ .busy := by
  unfold initFamily6
  by_cases h6 : 0 ≤ s6
  · simp only [h6, if_true]
    cases oc.calloc6 with
    | false => exact nofun
    | true => cases oc.setNonblocking6 with
      | false => exact nofun
      | true => exact initRest_ne_busy s s6 id v oc
  · simp only [h6, if_false]
    exact initRest_ne_busy s s6 id v oc

theorem initFamily_ne_busy : (w.initFamily s s6 id v oc).1 ≠ .busy := by
  unfold initFamily
  by_cases h : 0 ≤ s
  · simp only [h, if_true]
    cases oc.calloc with
    | false => exact nofun
    | true => cases oc.setNonblocking with
      | false => exact nofun
      | true => exact initFamily6_ne_busy s s6 id v oc
  · simp only [h, if_false]
    exact initFamily6_ne_busy s s6 id v oc

/-- `dht_init` refuses to start exactly if the node is not in the uninitialised state. -/
theorem dhtInitWith_busy_iff :
    (w.dhtInitWith s s6 id v oc).1 = .busy ↔ ¬ w.Uninitialised := by
  rw [uninitialised_iff]
  unfold dhtInitWith
  by_cases h : 0 ≤ w.dhtSocket ∨ 0 ≤ w.dhtSocket6 ∨ w.routing.buckets ≠ [] ∨
      w.routing.buckets6 ≠ []
  · rw [if_pos h]
    exact iff_of_true rfl h
  · rw [if_neg h]
    exact iff_of_false (initFamily_ne_busy s s6 id v oc) h

/-- A start that succeeds was made in the uninitialised state and does what `dht_init` is modelled
to do when it succeeds. -/
theorem dhtInitWith_of_initialised (h : (w.dhtInitWith s s6 id v oc).1 = .initialised) :
    oc.Succeeds s s6 ∧ (w.dhtInitWith s s6 id v oc).2 = w.dhtInit s s6 id v := by
  have hw : w.Uninitialised := by
    by_contra hw
    rw [(dhtInitWith_busy_iff s s6 id v oc).mpr hw] at h
    cases h
  have hfamily : oc.Succeeds s s6 := by
    unfold dhtInitWith at h
    rw [if_neg (fun hbusy => uninitialised_iff.mpr hbusy hw)] at h
    exact succeeds_of_initFamily id v h
  refine ⟨hfamily, ?_⟩
  rw [dhtInitWith_of_succeeds id v hw hfamily]

/-- A start that left buckets behind is final: from there on `dht_init` fails with `EBUSY`,
`dht_uninit` fails as well, and neither changes anything. -/
theorem stuck_of_buckets (hs : w.dhtSocket < 0) (hs6 : w.dhtSocket6 < 0)
    (hw : ¬ w.Uninitialised) :
    w.dhtInitWith s s6 id v oc = (.busy, w) ∧ w.dhtUninit = (-1, w) := by
  unfold dhtInitWith dhtUninit
  rw [if_pos (uninitialised_iff.mp hw), if_pos ⟨hs, hs6⟩]
  exact ⟨rfl, rfl⟩

end

/-- **A failed `dht_init` can be retried**, in the uninitialised state and without `EBUSY`, exactly
if it has not left buckets behind. -/
theorem failed_init_uninitialised_iff (w : World) (s s6 : ℤ) (id : Id) (v : Option Bytes)
    (oc : InitOutcomes) (hw : w.Uninitialised) :
    ((w.dhtInitWith s s6 id v oc).1.rc = -1 →
      (w.dhtInitWith s s6 id v oc).2.Uninitialised ∧
        ∀ s' s6' id' v' oc',
          ((w.dhtInitWith s s6 id v oc).2.dhtInitWith s' s6' id' v' oc').1 ≠ .busy) ↔
      ¬ LeavesBuckets s s6 oc := by
  have hretry : Retriable (w.dhtInitWith s s6 id v oc) ↔ ¬ LeavesBuckets s s6 oc := by
    unfold dhtInitWith
    rw [if_neg (fun h => uninitialised_iff.mpr h hw)]
    exact retriable_initFamily s s6 id v oc ⟨hw.socket, hw.socket6, hw.buckets, hw.buckets6⟩
  rw [← hretry]
  constructor
  · intro h hrc
    exact (h hrc).1
  · intro h hrc
    refine ⟨h hrc, ?_⟩
    intro s' s6' id' v' oc' hbusy
    exact (dhtInitWith_busy_iff s' s6' id' v' oc').mp hbusy (h hrc)

/-- With both sockets, `set_nonblocking(s, 1)` failing: that start can be retried. -/
theorem failed_init_uninitialised_iff_setNonblocking :
    (((initial (Env.still 0)).dhtInitWith 5 6 Id.zeroes none
        ⟨true, false, true, true, true⟩).1.rc = -1 →
      ((initial (Env.still 0)).dhtInitWith 5 6 Id.zeroes none
        ⟨true, false, true, true, true⟩).2.Uninitialised ∧
        ∀ s' s6' id' v' oc',
          (((initial (Env.still 0)).dhtInitWith 5 6 Id.zeroes none
            ⟨true, false, true, true, true⟩).2.dhtInitWith s' s6' id' v' oc').1 ≠ .busy) ↔
      ¬ LeavesBuckets 5 6 ⟨true, false, true, true, true⟩ :=
  failed_init_uninitialised_iff (initial (Env.still 0)) 5 6 Id.zeroes none
    ⟨true, false, true, true, true⟩ ⟨by decide, by decide, rfl, rfl⟩

/-- With both sockets, `set_nonblocking(s6, 1)` failing: the IPv6 bucket stays, and a retry in which
everything would succeed fails with `EBUSY`. -/
theorem failed_init_not_uninitialised :
    (initial (Env.still 0)).Uninitialised ∧
      ((initial (Env.still 0)).dhtInitWith 5 6 Id.zeroes none
        ⟨true, true, true, false, true⟩).1.rc = -1 ∧
      ¬ ((initial (Env.still 0)).dhtInitWith 5 6 Id.zeroes none
        ⟨true, true, true, false, true⟩).2.Uninitialised ∧
      (((initial (Env.still 0)).dhtInitWith 5 6 Id.zeroes none
        ⟨true, true, true, false, true⟩).2.dhtInitWith 5 6 Id.zeroes none .succeed).1 = .busy := by
  decide +kernel

end World

end DtnDht
