import DtnDht.Lib.Tiling
import DtnDht.Maintenance

/-!
# The invariant of the routing table

The buckets of a family tile the ids: each bucket's range is an aligned interval and its nodes lie
in it (`BucketOk`, `TableOk`). Most writes leave alone what the invariant reads of a bucket, its
shape; the others put a node into the bucket its id belongs to, and `split_bucket` hands the nodes
of a bucket out to its two halves (`foldl_insertNode`).
-/

namespace DtnDht

open CString Tiling

/-! ## Buckets -/

/-- What holds of a node in a bucket of family `af` that ranges over `[lo, hi)`. -/
structure NodeOk (af : ℕ) (myid : Id) (lo hi : ℕ) (n : Node) : Prop where
  le : lo ≤ n.id.val
  lt : n.id.val < hi
  ne : n.id ≠ myid
  family : n.ss.family = af

/-- What holds of a bucket of family `af` that ranges over `[lo, hi)`. -/
structure BucketOk (af : ℕ) (myid : Id) (b : Bucket) (lo hi : ℕ) : Prop where
  first : b.first.val = lo
  aligned : Aligned lo hi
  family : b.af = af
  count : b.count = b.nodes.length
  count_le : b.count ≤ 8
  nodup : (b.nodes.map Node.id).Nodup
  nodes : ∀ n ∈ b.nodes, NodeOk af myid lo hi n

/-- The buckets of a family, if it has any, tile the ids. -/
def TableOk (af : ℕ) (myid : Id) (bs : List Bucket) : Prop :=
  bs = [] ∨ Tiles (BucketOk af myid) bs 0 (2 ^ 160)

/-- What the invariant reads of a bucket. -/
def Bucket.shape (b : Bucket) : ℕ × Id × ℕ × List (Id × ℕ) :=
  (b.af, b.first, b.count, b.nodes.map fun n => (n.id, n.ss.family))

variable {af : ℕ} {myid id : Id} {b b' : Bucket} {bs pre post : List Bucket} {lo hi i : ℕ}

theorem BucketOk.lt (h : BucketOk af myid b lo hi) : lo < hi := h.aligned.lt

theorem BucketOk.congr (he : b.shape = b'.shape) (h : BucketOk af myid b lo hi) :
    BucketOk af myid b' lo hi := by
  simp only [Bucket.shape, Prod.mk.injEq] at he
  obtain ⟨haf, hfirst, hcount, hnodes⟩ := he
  have hids : b.nodes.map Node.id = b'.nodes.map Node.id := by
    have := congrArg (List.map Prod.fst) hnodes
    simpa only [List.map_map, Function.comp_def] using this
  have hlen : b.nodes.length = b'.nodes.length := by
    simpa using congrArg List.length hids
  refine ⟨hfirst ▸ h.first, h.aligned, haf ▸ h.family, ?_, hcount ▸ h.count_le, hids ▸ h.nodup, ?_⟩
  · rw [← hcount, h.count, hlen]
  · intro n hn
    have hmem := List.mem_map_of_mem (f := fun n => (n.id, n.ss.family)) hn
    rw [← hnodes] at hmem
    obtain ⟨m, hm, he⟩ := List.mem_map.mp hmem
    rw [Prod.mk.injEq] at he
    have hok := h.nodes m hm
    exact ⟨he.1 ▸ hok.le, he.1 ▸ hok.lt, he.1 ▸ hok.ne, he.2 ▸ hok.family⟩

theorem TableOk.congr {bs' : List Bucket} (he : bs.map Bucket.shape = bs'.map Bucket.shape)
    (h : TableOk af myid bs) : TableOk af myid bs' := by
  rcases h with rfl | h
  · exact Or.inl (List.map_eq_nil_iff.mp he.symm)
  · exact Or.inr (h.congr_map (fun _ _ _ _ => BucketOk.congr) he)

/-! ## Finding the bucket of an id -/

theorem findBucketNext_append {xs : List Bucket} (h : ∀ c ∈ xs, c.first.val ≤ id.val) :
    findBucketNext id (xs ++ bs) = xs.length + findBucketNext id bs := by
  induction xs with
  | nil => simp
  | cons c xs ih =>
    have hc := h c List.mem_cons_self
    rw [List.cons_append, findBucketNext, if_neg (by rw [idCmp_eq_lt]; omega),
      ih fun d hd => h d (List.mem_cons_of_mem c hd), List.length_cons]
    omega

/-- `find_bucket` stops at a bucket that starts at or before the id when the next one starts
behind it. -/
theorem findBucket_append_cons (hpre : ∀ c ∈ pre, c.first.val ≤ id.val)
    (hb : b.first.val ≤ id.val) (hpost : ∀ c ∈ post.head?, id.val < c.first.val) :
    findBucket id (pre ++ b :: post) = some pre.length := by
  have hzero : findBucketNext id post = 0 := by
    cases post with
    | nil => rfl
    | cons c post => rw [findBucketNext, if_pos (idCmp_eq_lt.mpr (hpost c rfl))]
  cases pre with
  | nil => exact congrArg some hzero
  | cons a pre =>
    have h : ∀ c ∈ pre ++ [b], c.first.val ≤ id.val := by
      intro c hc
      rcases List.mem_append.mp hc with hc | hc
      · exact hpre c (List.mem_cons_of_mem a hc)
      · rw [List.mem_singleton.mp hc]
        exact hb
    rw [List.cons_append, findBucket, ← List.singleton_append, ← List.append_assoc,
      findBucketNext_append h, hzero, List.length_append, List.length_singleton, List.length_cons]

theorem findBucket_congr {bs' : List Bucket} (he : bs.map Bucket.first = bs'.map Bucket.first) :
    findBucket id bs = findBucket id bs' := by
  have hnext : ∀ {xs ys : List Bucket}, xs.map Bucket.first = ys.map Bucket.first →
      findBucketNext id xs = findBucketNext id ys := by
    intro xs
    induction xs with
    | nil => intro ys h; rw [List.map_eq_nil_iff.mp h.symm]
    | cons x xs ih =>
      intro ys h
      cases ys with
      | nil => exact absurd h (by simp)
      | cons y ys =>
        rw [List.map_cons, List.map_cons, List.cons.injEq] at h
        rw [findBucketNext, findBucketNext, h.1, ih h.2]
  cases bs with
  | nil => rw [List.map_eq_nil_iff.mp he.symm]
  | cons b bs =>
    cases bs' with
    | nil => exact absurd he (by simp)
    | cons b' bs' =>
      rw [List.map_cons, List.map_cons, List.cons.injEq] at he
      rw [findBucket, findBucket, hnext he.2]

/-- The bucket behind one that ends at `hi` starts there. -/
theorem first_head (h : Tiles (BucketOk af myid) post hi (2 ^ 160)) :
    ∀ c ∈ post.head?, c.first.val = hi := by
  intro c hc
  cases post with
  | nil => exact absurd hc (by simp)
  | cons d post =>
    obtain ⟨m, hd, -⟩ := h
    obtain rfl : d = c := by simpa using hc
    exact hd.first

/-- In a tiling `find_bucket` stops at the bucket whose range holds the id. -/
theorem findBucket_of_range (hpre : Tiles (BucketOk af myid) pre 0 lo)
    (hb : BucketOk af myid b lo hi) (hpost : Tiles (BucketOk af myid) post hi (2 ^ 160))
    (hlo : lo ≤ id.val) (hhi : id.val < hi) :
    findBucket id (pre ++ b :: post) = some pre.length := by
  refine findBucket_append_cons (fun c hc => ?_) (hb.first.trans_le hlo) (fun c hc => ?_)
  · obtain ⟨x, y, hc, -, hy⟩ := hpre.of_mem (fun _ _ _ => BucketOk.lt) hc
    have := hc.lt
    rw [hc.first]
    omega
  · rw [first_head hpost c hc]
    exact hhi

/-- A bucket in its place: the table around it and its range, which holds `id`. -/
structure Located (af : ℕ) (myid id : Id) (bs : List Bucket) (pre : List Bucket) (b : Bucket)
    (post : List Bucket) (lo hi : ℕ) : Prop where
  eq : bs = pre ++ b :: post
  pre : Tiles (BucketOk af myid) pre 0 lo
  bucket : BucketOk af myid b lo hi
  post : Tiles (BucketOk af myid) post hi (2 ^ 160)
  le : lo ≤ id.val
  lt : id.val < hi

theorem Located.getElem? (h : Located af myid id bs pre b post lo hi) :
    bs[pre.length]? = some b := by
  rw [h.eq, List.getElem?_append_right le_rfl, Nat.sub_self, List.getElem?_cons_zero]

theorem Located.getElem?_succ (h : Located af myid id bs pre b post lo hi) :
    bs[pre.length + 1]? = post.head? := by
  rw [h.eq, List.getElem?_append_right (Nat.le_add_right _ 1), Nat.add_sub_cancel_left,
    List.getElem?_cons_succ, List.head?_eq_getElem?]

theorem Located.findBucket_eq {r : Routing}
    (h : Located af myid id (r.table af) pre b post lo hi) :
    r.findBucket id af = some pre.length := by
  unfold Routing.findBucket
  rw [h.eq]
  exact findBucket_of_range h.pre h.bucket h.post h.le h.lt

theorem TableOk.located (h : TableOk af myid bs) (hne : bs ≠ []) (id : Id) :
    ∃ pre b post lo hi, Located af myid id bs pre b post lo hi ∧
      findBucket id bs = some pre.length := by
  obtain ⟨pre, b, post, lo, hi, rfl, hpre, hb, hpost, hlo, hhi⟩ :=
    (h.resolve_left hne).exists_cell (Nat.zero_le id.val) id.val_lt
  exact ⟨pre, b, post, lo, hi, ⟨rfl, hpre, hb, hpost, hlo, hhi⟩,
    findBucket_of_range hpre hb hpost hlo hhi⟩

/-! ## Both families -/

/-- The families the table has a list for. -/
def IsFamily (af : ℕ) : Prop := af = afInet ∨ af = afInet6

/-- The invariant of the routing table. -/
def RoutingOk (myid : Id) (r : Routing) : Prop := ∀ af, IsFamily af → TableOk af myid (r.table af)

namespace Routing

variable {r r' : Routing} {net : Net} {now : ℤ} {f : Bucket → Bucket} {af' j : ℕ}

theorem table_congr (h : af = afInet ↔ af' = afInet) (r : Routing) :
    r.table af = r.table af' := by
  unfold table
  simp only [h]

theorem table_setTable (r : Routing) (af af' : ℕ) (bs : List Bucket) :
    (r.setTable af bs).table af' = if af = afInet ↔ af' = afInet then bs else r.table af' := by
  unfold setTable table
  by_cases h : af = afInet <;> by_cases h' : af' = afInet <;> simp [h, h']

@[simp] theorem table_setTable_self (r : Routing) (af : ℕ) (bs : List Bucket) :
    (r.setTable af bs).table af = bs := by
  rw [table_setTable, if_pos Iff.rfl]

@[simp] theorem table_modifyBucket_self (r : Routing) (af i : ℕ) (f : Bucket → Bucket) :
    (r.modifyBucket af i f).table af = (r.table af).modify i f :=
  table_setTable_self r af _

@[simp] theorem table_grow (r : Routing) (now : ℤ) (af af' : ℕ) :
    (r.grow now af).table af' = r.table af' := by
  unfold grow table
  split_ifs <;> rfl

/-- A list that satisfies the invariant may take the place of a family's. -/
theorem routingOk_setTable (h : RoutingOk myid r) (haf : IsFamily af)
    (hbs : TableOk af myid bs) : RoutingOk myid (r.setTable af bs) := by
  intro af' haf'
  rw [table_setTable]
  split_ifs with he
  · have : af' = af := by
      rcases haf with rfl | rfl <;> rcases haf' with rfl | rfl <;> simp_all [afInet, afInet6]
    exact this ▸ hbs
  · exact h af' haf'

/-- `r'` is `r` as far as the invariant can tell. -/
def SameShape (r r' : Routing) : Prop :=
  ∀ af, (r.table af).map Bucket.shape = (r'.table af).map Bucket.shape

theorem SameShape.refl (r : Routing) : SameShape r r := fun _ => rfl

theorem SameShape.trans {r'' : Routing} (h : SameShape r r') (h' : SameShape r' r'') :
    SameShape r r'' := fun af => (h af).trans (h' af)

theorem SameShape.ok (h : SameShape r r') (hr : RoutingOk myid r) : RoutingOk myid r' :=
  fun af haf => (hr af haf).congr (h af)

theorem SameShape.findBucket (h : SameShape r r') (id : Id) (af : ℕ) :
    r.findBucket id af = r'.findBucket id af := by
  refine findBucket_congr ?_
  have := congrArg (List.map fun s : ℕ × Id × ℕ × List (Id × ℕ) => s.2.1) (h af)
  rwa [List.map_map, List.map_map] at this

theorem SameShape.length (h : SameShape r r') (af : ℕ) :
    (r.table af).length = (r'.table af).length := by
  simpa using congrArg List.length (h af)

theorem SameShape.getElem? (h : SameShape r r') {b : Bucket} (hb : (r.table af)[i]? = some b) :
    ∃ b', (r'.table af)[i]? = some b' ∧ b.shape = b'.shape := by
  have hi := congrArg (·[i]?) (h af)
  simp only [List.getElem?_map, hb, Option.map_some] at hi
  obtain ⟨b', hb', he⟩ := Option.map_eq_some_iff.mp hi.symm
  exact ⟨b', hb', he.symm⟩

theorem sameShape_modifyBucket (h : ∀ b ∈ r.table af, (f b).shape = b.shape) :
    SameShape r (r.modifyBucket af i f) := by
  intro af'
  unfold modifyBucket
  rw [table_setTable]
  split_ifs with he
  · have : r.table af' = r.table af := by
      unfold table
      by_cases h : af = afInet <;> simp_all
    rw [this, List.map_modify_of_eq h]
  · rfl

theorem sameShape_modifyNode {f : Node → Node}
    (h : ∀ b ∈ r.table af, ∀ n ∈ b.nodes, (f n).id = n.id ∧ (f n).ss.family = n.ss.family) :
    SameShape r (r.modifyNode af i j f) := by
  refine sameShape_modifyBucket fun b hb => ?_
  have hn : (b.nodes.modify j f).map (fun n => (n.id, n.ss.family)) =
      b.nodes.map fun n => (n.id, n.ss.family) :=
    List.map_modify_of_eq fun n hn => by rw [(h b hb n hn).1, (h b hb n hn).2]
  simp only [Bucket.shape, hn]

theorem sameShape_grow (r : Routing) (now : ℤ) (af : ℕ) : SameShape r (r.grow now af) :=
  fun af' => by rw [table_grow]

theorem sameShape_sendCachedPing (net : Net) (r : Routing) (af i : ℕ) :
    SameShape r (r.sendCachedPing net af i).1 := by
  unfold sendCachedPing
  split
  · exact SameShape.refl r
  · split_ifs
    · exact SameShape.refl r
    · exact sameShape_modifyBucket fun _ _ => rfl

theorem sameShape_pinged (net : Net) (now : ℤ) (r : Routing) (af i j : ℕ) (b : Option ℕ) :
    SameShape r (r.pinged net now af i j b).1 := by
  have h : SameShape r (r.modifyNode af i j fun n =>
      { n with pinged := n.pinged + 1, pingedTime := now }) :=
    sameShape_modifyNode fun _ _ _ _ => ⟨rfl, rfl⟩
  unfold pinged
  dsimp only
  split
  · exact h
  · split_ifs
    · split
      · exact h.trans (sameShape_sendCachedPing _ _ _ _)
      · split
        · exact h
        · exact h.trans (sameShape_sendCachedPing _ _ _ _)
    · exact h

theorem sameShape_pingDubious (net : Net) (now : ℤ) (r : Routing) (af i : ℕ)
    (nodes : List Node) : SameShape r (r.pingDubious net now af i nodes).1 := by
  unfold pingDubious
  split
  · exact SameShape.refl r
  · exact sameShape_modifyNode fun _ _ _ _ => ⟨rfl, rfl⟩

theorem sameShape_cacheNode (r : Routing) (af i : ℕ) (sa : Sockaddr) (salen confirm : ℕ) :
    SameShape r (r.cacheNode af i sa salen confirm) := by
  refine sameShape_modifyBucket fun b _ => ?_
  split_ifs <;> rfl

theorem sameShape_askNode (net : Net) (now : ℤ) (r : Routing) (af q j : ℕ) (id : Id) (want : ℤ) :
    SameShape r (r.askNode net now af q j id want).1 := by
  unfold askNode
  split
  · exact SameShape.refl r
  · exact sameShape_pinged _ _ _ _ _ _ _

/-- A write to the bucket an id belongs to need only respect ranges that hold the id. -/
theorem routingOk_modifyBucket (h : RoutingOk myid r) (haf : IsFamily af)
    (hi : r.findBucket id af = some i)
    (hf : ∀ b lo hi, (r.table af)[i]? = some b → BucketOk af myid b lo hi → lo ≤ id.val →
      id.val < hi → BucketOk af myid (f b) lo hi) :
    RoutingOk myid (r.modifyBucket af i f) := by
  have hne : r.table af ≠ [] := by
    intro h0
    rw [Routing.findBucket, h0] at hi
    exact absurd hi (by simp [DtnDht.findBucket])
  obtain ⟨pre, b, post, lo, hi', hloc, hfind⟩ := (h af haf).located hne id
  obtain rfl : pre.length = i := Option.some_inj.mp (hfind.symm.trans hi)
  refine routingOk_setTable h haf (Or.inr ?_)
  rw [hloc.eq, List.modify_append_cons]
  exact tiles_append_cons.mpr
    ⟨lo, hi', hloc.pre, hf b lo hi' hloc.getElem? hloc.bucket hloc.le hloc.lt, hloc.post⟩

end Routing

/-! ## Splitting -/

/-- The bit after those the bounds set is the depth of the bucket. -/
theorem bucketBit_eq {next : Option Bucket} {k : ℕ} (hfirst : b.first.val = lo) (hdvd : 2 ^ k ∣ lo)
    (hle : lo + 2 ^ k ≤ 2 ^ 160) (hnext : ∀ c ∈ next, c.first.val = lo + 2 ^ k)
    (hnone : next = none → lo + 2 ^ k = 2 ^ 160) : bucketBit b next = 160 - k := by
  have hk : k ≤ 160 := (Nat.pow_le_pow_iff_right one_lt_two).mp ((Nat.le_add_left _ _).trans hle)
  have hd : 160 - (160 - k) = k := by omega
  have hlow : lowbit b.first < (160 - k : ℕ) := by
    rw [lowbit_lt_iff (by omega), hd, hfirst]
    exact hdvd
  have hlow' : next.elim (-1) (fun c => lowbit c.first) < ((160 - k : ℕ) : ℤ) := by
    cases next with
    | none => simp only [Option.elim_none]; omega
    | some c =>
      rw [Option.elim_some, lowbit_lt_iff (by omega), hd, hnext c rfl]
      exact Nat.dvd_add hdvd dvd_rfl
  -- one of the two bounds is an odd multiple of the length
  have hodd : k < 160 → ¬ (lowbit b.first < (160 - (k + 1) : ℕ) ∧
      next.elim (-1) (fun c => lowbit c.first) < ((160 - (k + 1) : ℕ) : ℤ)) := by
    rintro hk' ⟨h1, h2⟩
    have hd' : 160 - (160 - (k + 1)) = k + 1 := by omega
    rw [lowbit_lt_iff (by omega), hd', hfirst] at h1
    have hhi : 2 ^ (k + 1) ∣ lo + 2 ^ k := by
      cases next with
      | none =>
        rw [hnone rfl]
        exact pow_dvd_pow 2 hk'
      | some c => rwa [Option.elim_some, lowbit_lt_iff (by omega), hd', hnext c rfl] at h2
    have := Nat.le_of_dvd (Nat.two_pow_pos k) ((Nat.dvd_add_iff_right h1).mpr hhi)
    exact absurd ((Nat.pow_le_pow_iff_right one_lt_two).mp this) (by omega)
  unfold bucketBit
  by_cases hk' : k < 160
  · have := hodd hk'
    omega
  · omega

theorem Located.bucketBit_eq (h : Located af myid id bs pre b post lo hi) {k : ℕ}
    (hk : hi = lo + 2 ^ k) (hdvd : 2 ^ k ∣ lo) : bucketBit b post.head? = 160 - k := by
  subst hk
  refine DtnDht.bucketBit_eq h.bucket.first hdvd (h.post.le fun _ _ _ => BucketOk.lt)
    (first_head h.post) fun hnone => ?_
  have hpost := h.post
  rw [List.head?_eq_none_iff.mp hnone] at hpost
  exact hpost

/-- A bucket of more than one id has a middle. -/
theorem Located.bucketMiddle_eq (h : Located af myid id bs pre b post lo hi) {k : ℕ}
    (hk : hi = lo + 2 ^ (k + 1)) (hdvd : 2 ^ (k + 1) ∣ lo) :
    ∃ m, bucketMiddle b post.head? = some m ∧ m.val = lo + 2 ^ k := by
  have hle : hi ≤ 2 ^ 160 := h.post.le fun _ _ _ => BucketOk.lt
  have hk' : k + 1 ≤ 160 := (Nat.pow_le_pow_iff_right one_lt_two).mp
    ((Nat.le_add_left _ lo).trans (hk ▸ hle))
  refine ⟨b.first.setBit (160 - (k + 1)), ?_, ?_⟩
  · unfold bucketMiddle
    rw [h.bucketBit_eq hk hdvd]
    dsimp only
    rw [if_neg (by omega)]
  · have e : 160 - (160 - (k + 1)) = k + 1 := by omega
    have e' : 159 - (160 - (k + 1)) = k := by omega
    rw [val_setBit (by omega) (by rw [e, h.bucket.first]; exact hdvd), e', h.bucket.first]

/-- A bucket of one id has none. -/
theorem Located.bucketMiddle_eq_none (h : Located af myid id bs pre b post lo hi)
    (hk : hi = lo + 1) : bucketMiddle b post.head? = none := by
  unfold bucketMiddle
  rw [h.bucketBit_eq (k := 0) hk (one_dvd lo)]
  exact if_pos le_rfl

namespace Routing

variable {r : Routing}

@[simp] theorem setTable_table (r : Routing) (af : ℕ) : r.setTable af (r.table af) = r := by
  unfold setTable table
  split_ifs <;> rfl

@[simp] theorem setTable_setTable (r : Routing) (af : ℕ) (bs bs' : List Bucket) :
    (r.setTable af bs).setTable af bs' = r.setTable af bs' := by
  unfold setTable
  split_ifs <;> rfl

theorem modifyBucket_setTable (r : Routing) (af i : ℕ) (bs : List Bucket) (f : Bucket → Bucket) :
    (r.setTable af bs).modifyBucket af i f = r.setTable af (bs.modify i f) := by
  rw [Routing.modifyBucket, table_setTable_self, setTable_setTable]

/-- The bucket with nodes pushed to the front of its list one after the other. -/
def pushAll (b : Bucket) (ns : List Node) : Bucket :=
  { b with nodes := ns.reverse ++ b.nodes, count := b.count + ns.length }

theorem pushAll_cons (b : Bucket) (n : Node) (ns : List Node) :
    pushAll (pushAll b [n]) ns = pushAll b (n :: ns) := by
  simp only [pushAll, List.reverse_cons, List.append_assoc, List.singleton_append,
    List.length_cons, List.length_nil, List.reverse_nil, List.nil_append, Nat.add_comm 1,
    Nat.add_assoc, Nat.zero_add]

theorem insertNode_setTable {n : Node} (haf : n.ss.family = af)
    (hi : DtnDht.findBucket n.id bs = some i) : (r.setTable af bs).insertNode n =
      r.setTable af (bs.modify i fun b => pushAll b [n]) := by
  unfold insertNode Routing.findBucket
  rw [haf, table_setTable_self, hi]
  exact modifyBucket_setTable r af i bs _

/-- Redistribution: each node goes to the half its id lies in. -/
theorem foldl_insertNode {l u : Bucket} {mid : ℕ} (hpre : ∀ c ∈ pre, c.first.val ≤ lo)
    (hl : l.first.val = lo) (hu : u.first.val = mid)
    (hpost : ∀ c ∈ post.head?, c.first.val = hi) (ns : List Node)
    (hns : ∀ n ∈ ns, lo ≤ n.id.val ∧ n.id.val < hi ∧ n.ss.family = af) :
    ns.foldl insertNode (r.setTable af (pre ++ l :: u :: post)) =
      r.setTable af (pre ++ pushAll l (ns.filter fun n => n.id.val < mid) ::
        pushAll u (ns.filter fun n => ¬ n.id.val < mid) :: post) := by
  induction ns generalizing l u with
  | nil => simp [pushAll]
  | cons n ns ih =>
    have hn := hns n List.mem_cons_self
    have hns' : ∀ n ∈ ns, lo ≤ n.id.val ∧ n.id.val < hi ∧ n.ss.family = af :=
      fun m hm => hns m (List.mem_cons_of_mem n hm)
    rw [List.foldl_cons]
    by_cases hlt : n.id.val < mid
    · have hfind : DtnDht.findBucket n.id (pre ++ l :: u :: post) = some pre.length :=
        findBucket_append_cons (fun c hc => (hpre c hc).trans hn.1) (hl.trans_le hn.1)
          (fun c hc => by
            obtain rfl : u = c := by simpa using hc
            rwa [hu])
      rw [insertNode_setTable hn.2.2 hfind, List.modify_append_cons,
        ih (l := pushAll l [n]) hl hu hns', List.filter_cons_of_pos (by simpa using hlt),
        List.filter_cons_of_neg (by simpa using hlt), pushAll_cons]
    · have hfind : DtnDht.findBucket n.id ((pre ++ [l]) ++ u :: post) =
          some (pre ++ [l]).length := by
        refine findBucket_append_cons (fun c hc => ?_) (by rw [hu]; omega)
          (fun c hc => by rw [hpost c hc]; exact hn.2.1)
        rcases List.mem_append.mp hc with hc | hc
        · exact (hpre c hc).trans hn.1
        · rw [List.mem_singleton.mp hc, hl]
          exact hn.1
      have e : pre ++ l :: u :: post = (pre ++ [l]) ++ u :: post := by simp
      have e' : (pre ++ [l]) ++ pushAll u [n] :: post = pre ++ l :: pushAll u [n] :: post := by
        simp
      rw [e, insertNode_setTable hn.2.2 hfind, List.modify_append_cons, e',
        ih (u := pushAll u [n]) hl hu hns', List.filter_cons_of_neg (by simpa using hlt),
        List.filter_cons_of_pos (by simpa using hlt), pushAll_cons]

end Routing

end DtnDht
