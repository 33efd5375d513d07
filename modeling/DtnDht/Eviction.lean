import DtnDht.Frame
import DtnDht.Init
import DtnDht.RoutingRun

/-!
# Nodes that stay in the routing table

A node is taken out of the table at three places: `new_node` writes another one over it,
`expire_buckets` unlinks it, and `split_bucket` links it into the bucket of its id. The first asks
for three unanswered requests, the last of them more than 15 seconds ago, the second for four, and
the third loses no node as long as each is in the table of its family. So a node with fewer than
three unanswered requests is safe, and so is one that was asked within the last 15 seconds, as long
as nothing is purged (`Safe`). What one operation does is stated once (`Keeps`); the main result is
`good_node_stays`.
-/

namespace DtnDht

open CString

namespace Routing

/-- `n` is in the table of a family. -/
def Holds (r : Routing) (af : ℕ) (n : Node) : Prop := ∃ b ∈ r.table af, n ∈ b.nodes

/-- A node that `new_node` does not write another one over at `now`. -/
def Safe (now : ℤ) (n : Node) : Prop := n.pinged < 3 ∨ now - 15 ≤ n.pingedTime

/-- Is this an address for the table of the family? There are two tables, one for `AF_INET` and one
for the rest. -/
def Suits (af : ℕ) (n : Node) : Prop := n.ss.family = afInet ↔ af = afInet

/-- Every node is in the table of its family. -/
def FamiliesOk (r : Routing) : Prop := ∀ af n, r.Holds af n → Suits af n

/-- The safe nodes stay, as safe nodes under their ids, and every node is in the table of its
family. -/
def Keeps (now : ℤ) (r r' : Routing) : Prop :=
  r.FamiliesOk → r'.FamiliesOk ∧ ∀ af n, r.Holds af n → Safe now n →
    ∃ n', r'.Holds af n' ∧ n'.id = n.id ∧ Safe now n'

variable {r r' r'' : Routing} {now : ℤ} {net : Net} {af i j : ℕ}

theorem Keeps.refl (r : Routing) : Keeps now r r :=
  fun hr => ⟨hr, fun _ n hn hsafe => ⟨n, hn, rfl, hsafe⟩⟩

theorem Keeps.trans (h : Keeps now r r') (h' : Keeps now r' r'') : Keeps now r r'' := by
  intro hr
  obtain ⟨hr', hkept⟩ := h hr
  obtain ⟨hr'', hkept'⟩ := h' hr'
  refine ⟨hr'', ?_⟩
  intro af n hn hsafe
  obtain ⟨n', hn', hid, hsafe'⟩ := hkept af n hn hsafe
  obtain ⟨n'', hn'', hid', hsafe''⟩ := hkept' af n' hn' hsafe'
  exact ⟨n'', hn'', hid'.trans hid, hsafe''⟩

theorem keeps_of_table (h : ∀ af, r'.table af = r.table af) : Keeps now r r' := by
  have hholds : ∀ af n, r'.Holds af n ↔ r.Holds af n := by
    intro af n
    unfold Holds
    rw [h]
  intro hr
  constructor
  · intro af n hn
    exact hr af n ((hholds af n).mp hn)
  · intro af n hn hsafe
    exact ⟨n, (hholds af n).mpr hn, rfl, hsafe⟩

/-! ## Writes to a bucket and to a node -/

/-- The safe nodes of a bucket stay in it. -/
def BucketKeeps (now : ℤ) (af : ℕ) (b b' : Bucket) : Prop :=
  (∀ n ∈ b.nodes, Suits af n) → (∀ n' ∈ b'.nodes, Suits af n') ∧
    ∀ n ∈ b.nodes, Safe now n → ∃ n' ∈ b'.nodes, n'.id = n.id ∧ Safe now n'

theorem suits_congr {af' : ℕ} (h : af = afInet ↔ af' = afInet) (n : Node) :
    Suits af n ↔ Suits af' n := by
  unfold Suits
  rw [h]

/-- The nodes after the list of a family is replaced. -/
theorem holds_setTable {bs : List Bucket} {af' : ℕ} {n : Node} :
    (r.setTable af bs).Holds af' n ↔
      if af = afInet ↔ af' = afInet then ∃ b ∈ bs, n ∈ b.nodes else r.Holds af' n := by
  unfold Holds
  rw [table_setTable]
  split_ifs <;> rfl

/-- The list of a family may be replaced by one with the safe nodes. -/
theorem keeps_setTable {bs : List Bucket}
    (hsuits : r.FamiliesOk → ∀ b ∈ bs, ∀ n ∈ b.nodes, Suits af n)
    (hkept : r.FamiliesOk → ∀ n, r.Holds af n → Safe now n →
      ∃ b ∈ bs, ∃ n' ∈ b.nodes, n'.id = n.id ∧ Safe now n') :
    Keeps now r (r.setTable af bs) := by
  intro hr
  constructor
  · intro af' n hn
    rw [holds_setTable] at hn
    split_ifs at hn with hsame
    · obtain ⟨b, hb, hn⟩ := hn
      exact (suits_congr hsame n).mp (hsuits hr b hb n hn)
    · exact hr af' n hn
  · intro af' n hn hsafe
    by_cases hsame : af = afInet ↔ af' = afInet
    · have hn' : r.Holds af n := by
        unfold Holds
        rw [table_congr hsame]
        exact hn
      obtain ⟨b, hb, n', hn', hid, hsafe'⟩ := hkept hr n hn' hsafe
      refine ⟨n', ?_, hid, hsafe'⟩
      rw [holds_setTable, if_pos hsame]
      exact ⟨b, hb, hn'⟩
    · refine ⟨n, ?_, rfl, hsafe⟩
      rw [holds_setTable, if_neg hsame]
      exact hn

theorem keeps_modifyBucket {f : Bucket → Bucket}
    (hf : ∀ b, (r.table af)[i]? = some b → BucketKeeps now af b (f b)) :
    Keeps now r (r.modifyBucket af i f) := by
  have hbucket : r.FamiliesOk → ∀ b ∈ r.table af, ∀ n ∈ b.nodes, Suits af n :=
    fun hr b hb n hn => hr af n ⟨b, hb, hn⟩
  refine keeps_setTable ?_ ?_
  · intro hr b' hb' n hn
    rcases List.mem_modify_iff.mp hb' with ⟨b, hb, rfl⟩ | ⟨k, -, hb⟩
    · exact (hf b hb (hbucket hr b (List.mem_of_getElem? hb))).1 n hn
    · exact hbucket hr b' (List.mem_of_getElem? hb) n hn
  · rintro hr n ⟨b, hb, hn⟩ hsafe
    obtain ⟨k, hk⟩ := List.mem_iff_getElem?.mp hb
    by_cases hki : k = i
    · subst hki
      obtain ⟨n', hn', hid, hsafe'⟩ := (hf b hk (hbucket hr b hb)).2 n hn hsafe
      exact ⟨f b, List.mem_modify_iff.mpr (Or.inl ⟨b, hk, rfl⟩), n', hn', hid, hsafe'⟩
    · exact ⟨b, List.mem_modify_iff.mpr (Or.inr ⟨k, hki, hk⟩), n, hn, rfl, hsafe⟩

/-- A write to a bucket that leaves its nodes alone. -/
theorem keeps_modifyBucket_of_nodes {f : Bucket → Bucket} (hf : ∀ b, (f b).nodes = b.nodes) :
    Keeps now r (r.modifyBucket af i f) := by
  refine keeps_modifyBucket fun b _ hb => ?_
  rw [hf b]
  exact ⟨hb, fun n hn hsafe => ⟨n, hn, rfl, hsafe⟩⟩

theorem keeps_modifyNode {f : Node → Node}
    (hf : ∀ n, r.node? af i j = some n →
      (Suits af n → Suits af (f n)) ∧ (Safe now n → (f n).id = n.id ∧ Safe now (f n))) :
    Keeps now r (r.modifyNode af i j f) := by
  refine keeps_modifyBucket fun b hb hsuits => ?_
  have hnode : ∀ n, b.nodes[j]? = some n → r.node? af i j = some n := by
    intro n hn
    rw [node?, hb]
    exact hn
  dsimp only
  constructor
  · intro n' hn'
    rcases List.mem_modify_iff.mp hn' with ⟨n, hn, rfl⟩ | ⟨k, -, hn⟩
    · exact (hf n (hnode n hn)).1 (hsuits n (List.mem_of_getElem? hn))
    · exact hsuits n' (List.mem_of_getElem? hn)
  · intro n hn hsafe
    obtain ⟨k, hk⟩ := List.mem_iff_getElem?.mp hn
    by_cases hkj : k = j
    · subst hkj
      exact ⟨f n, List.mem_modify_iff.mpr (Or.inl ⟨n, hk, rfl⟩), (hf n (hnode n hk)).2 hsafe⟩
    · exact ⟨n, List.mem_modify_iff.mpr (Or.inr ⟨k, hkj, hk⟩), rfl, hsafe⟩

/-! ## Asking nodes -/

theorem safe_of_pingedTime {n : Node} (h : n.pingedTime = now) : Safe now n :=
  Or.inr (by omega)

theorem keeps_sendCachedPing (net : Net) (r : Routing) (af i : ℕ) :
    Keeps now r (r.sendCachedPing net af i).1 := by
  unfold sendCachedPing
  cases (r.table af)[i]? with
  | none => exact Keeps.refl r
  | some b =>
    dsimp only
    by_cases h0 : b.cached.family = 0
    · rw [if_pos h0]
      exact Keeps.refl r
    · rw [if_neg h0]
      exact keeps_modifyBucket_of_nodes fun _ => rfl

/-- `pinged` counts a request against a node and may send a cached ping. -/
theorem keeps_pinged_of {r₀ : Routing} (b : Option ℕ)
    (h : Keeps now r₀ (r.modifyNode af i j fun n =>
      { n with pinged := n.pinged + 1, pingedTime := now })) :
    Keeps now r₀ (r.pinged net now af i j b).1 := by
  unfold pinged
  dsimp only
  split
  · exact h
  · split_ifs
    · split
      · exact h.trans (keeps_sendCachedPing _ _ _ _)
      · split
        · exact h
        · exact h.trans (keeps_sendCachedPing _ _ _ _)
    · exact h

theorem keeps_pinged (net : Net) (r : Routing) (af i j : ℕ) (b : Option ℕ) :
    Keeps now r (r.pinged net now af i j b).1 :=
  keeps_pinged_of b
    (keeps_modifyNode fun _ _ => ⟨fun h => h, fun _ => ⟨rfl, safe_of_pingedTime rfl⟩⟩)

theorem keeps_pingDubious (net : Net) (r : Routing) (af i : ℕ) (nodes : List Node) :
    Keeps now r (r.pingDubious net now af i nodes).1 := by
  unfold pingDubious
  split
  · exact Keeps.refl r
  · exact keeps_modifyNode fun _ _ => ⟨fun h => h, fun _ => ⟨rfl, safe_of_pingedTime rfl⟩⟩

theorem keeps_markPinged (net : Net) (r : Routing) (id : Id) (af : ℕ) :
    Keeps now r (r.markPinged net now id af).1 := by
  unfold markPinged
  split
  · exact Keeps.refl r
  · exact keeps_pinged _ _ _ _ _ _

theorem keeps_askNode (net : Net) (r : Routing) (af q j : ℕ) (id : Id) (want : ℤ) :
    Keeps now r (r.askNode net now af q j id want).1 := by
  unfold askNode
  split
  · exact Keeps.refl r
  · exact keeps_pinged _ _ _ _ _ _

theorem modifyNode_modifyNode (r : Routing) (af i j : ℕ) (f g : Node → Node) :
    (r.modifyNode af i j f).modifyNode af i j g = r.modifyNode af i j fun n => g (f n) := by
  unfold modifyNode
  rw [modifyBucket, modifyBucket, modifyBucket, table_setTable_self, setTable_setTable,
    List.modify_modify_eq]
  refine congrArg (fun h => r.setTable af ((r.table af).modify i h)) ?_
  funext b
  simp only [Function.comp_apply, List.modify_modify_eq]
  rfl

/-- `blacklist_node` asks the node at the same time, so that it stays for the moment. -/
theorem keeps_discardNode (net : Net) (r : Routing) (id : Id) (af : ℕ) :
    Keeps now r (r.discardNode net now id af).1 := by
  unfold discardNode
  split
  · exact Keeps.refl r
  · refine keeps_pinged_of none ?_
    rw [modifyNode_modifyNode]
    exact keeps_modifyNode fun _ _ => ⟨fun h => h, fun _ => ⟨rfl, safe_of_pingedTime rfl⟩⟩

theorem keeps_neighbourhoodMaintenance (net : Net) (r : Routing) (af : ℕ) (rs : Random) :
    Keeps now r (r.neighbourhoodMaintenance net now af rs).1 := by
  unfold neighbourhoodMaintenance
  split
  · exact Keeps.refl r
  · dsimp only
    split
    · exact Keeps.refl r
    · split
      · exact Keeps.refl r
      · exact keeps_askNode _ _ _ _ _ _ _

theorem keeps_bucketMaintenance (net : Net) (r : Routing) (af : ℕ) (rs : Random) :
    Keeps now r (r.bucketMaintenance net now af rs).1 := by
  unfold bucketMaintenance
  generalize List.range (r.table af).length = is
  induction is generalizing rs with
  | nil => exact Keeps.refl r
  | cons i is ih =>
    rw [bucketMaintenanceFrom]
    split
    · exact Keeps.refl r
    · rename_i b hb
      split_ifs
      · generalize bucketRandom b (r.table af)[i + 1]? rs = x
        obtain ⟨id, rs⟩ := x
        dsimp only
        generalize r.chooseBucket af i rs = y
        obtain ⟨q, rs⟩ := y
        dsimp only
        split
        · exact ih rs
        · rename_i b' hb'
          obtain ⟨_ | j, rs⟩ := randomNode b' rs
          · exact ih rs
          · exact keeps_askNode _ _ _ _ _ _ _
      · exact ih rs

/-! ## Splitting -/

theorem findBucketNext_le (id : Id) (bs : List Bucket) : findBucketNext id bs ≤ bs.length := by
  induction bs with
  | nil => exact le_rfl
  | cons b bs ih =>
    rw [findBucketNext]
    split_ifs
    · exact Nat.zero_le _
    · exact Nat.succ_le_succ ih

/-- A family that has a bucket has one for every id. -/
theorem exists_findBucket (id : Id) (h : r.table af ≠ []) :
    ∃ i b, r.findBucket id af = some i ∧ (r.table af)[i]? = some b := by
  unfold findBucket
  cases hbs : r.table af with
  | nil => exact absurd hbs h
  | cons b bs =>
    have hlt : findBucketNext id bs < (b :: bs).length :=
      Nat.lt_succ_of_le (findBucketNext_le id bs)
    exact ⟨_, _, rfl, List.getElem?_eq_getElem hlt⟩

/-- `insert_node` adds the node to its family, if that has a bucket, and changes no other. -/
theorem holds_insertNode {n m : Node} {af' : ℕ} (h : r.table n.ss.family ≠ []) :
    (r.insertNode n).Holds af' m ↔ r.Holds af' m ∨ (m = n ∧ Suits af' n) := by
  obtain ⟨i, b, hi, hb⟩ := exists_findBucket n.id h
  unfold insertNode
  rw [hi]
  dsimp only
  rw [modifyBucket, holds_setTable]
  by_cases hsame : n.ss.family = afInet ↔ af' = afInet
  · rw [if_pos hsame, Holds, ← table_congr hsame]
    constructor
    · rintro ⟨c, hc, hm⟩
      rcases List.mem_modify_iff.mp hc with ⟨c, hc', rfl⟩ | ⟨k, -, hc⟩
      · rcases List.mem_cons.mp hm with rfl | hm
        · exact Or.inr ⟨rfl, hsame⟩
        · exact Or.inl ⟨c, List.mem_of_getElem? hc', hm⟩
      · exact Or.inl ⟨c, List.mem_of_getElem? hc, hm⟩
    · rintro (⟨c, hc, hm⟩ | ⟨rfl, -⟩)
      · obtain ⟨k, hk⟩ := List.mem_iff_getElem?.mp hc
        by_cases hki : k = i
        · subst hki
          exact ⟨_, List.mem_modify_iff.mpr (Or.inl ⟨c, hk, rfl⟩), List.mem_cons_of_mem n hm⟩
        · exact ⟨c, List.mem_modify_iff.mpr (Or.inr ⟨k, hki, hk⟩), hm⟩
      · exact ⟨_, List.mem_modify_iff.mpr (Or.inl ⟨b, hb, rfl⟩), List.mem_cons_self⟩
  · rw [if_neg hsame]
    exact (or_iff_left fun hm => hsame hm.2).symm

theorem table_insertNode_ne_nil {n : Node} (h : r.table af ≠ []) :
    (r.insertNode n).table af ≠ [] := by
  unfold insertNode
  cases r.findBucket n.id n.ss.family with
  | none => exact h
  | some i =>
    dsimp only
    rw [modifyBucket, table_setTable]
    split_ifs with hsame
    · rw [table_congr hsame, ← List.length_pos_iff, List.length_modify, List.length_pos_iff]
      exact h
    · exact h

/-- Nodes that are linked in one after the other. -/
theorem holds_foldl_insertNode {ns : List Node} {m : Node} {af' : ℕ} (h : r.table af ≠ [])
    (hns : ∀ n ∈ ns, Suits af n) :
    (ns.foldl insertNode r).Holds af' m ↔ r.Holds af' m ∨ (m ∈ ns ∧ Suits af' m) := by
  induction ns generalizing r with
  | nil => simp
  | cons n ns ih =>
    have hn : r.table n.ss.family ≠ [] := by
      rw [table_congr (hns n List.mem_cons_self)]
      exact h
    rw [List.foldl_cons,
      ih (table_insertNode_ne_nil h) fun x hx => hns x (List.mem_cons_of_mem n hx),
      holds_insertNode hn, List.mem_cons, or_assoc]
    refine or_congr_right ?_
    constructor
    · rintro (⟨rfl, hm⟩ | ⟨hm, hm'⟩)
      · exact ⟨Or.inl rfl, hm⟩
      · exact ⟨Or.inr hm, hm'⟩
    · rintro ⟨rfl | hm, hm'⟩
      · exact Or.inl ⟨rfl, hm'⟩
      · exact Or.inr ⟨hm, hm'⟩

/-- The nodes of a bucket may be linked in anew once there is an empty bucket behind it. -/
theorem keeps_redistribute {b new : Bucket} (hb : (r.table af)[i]? = some b)
    (hnew : new.nodes = []) {bs : List Bucket}
    (hbs : bs = (r.table af).modify i fun b => { b with nodes := [], count := 0 }) :
    Keeps now r (b.nodes.foldl insertNode
      (r.setTable af (bs.take (i + 1) ++ new :: bs.drop (i + 1)))) := by
  intro hr
  have hsuits : ∀ n ∈ b.nodes, Suits af n := fun n hn => hr af n ⟨b, List.mem_of_getElem? hb, hn⟩
  have hne : (r.setTable af (bs.take (i + 1) ++ new :: bs.drop (i + 1))).table af ≠ [] := by
    rw [table_setTable_self]
    exact List.append_ne_nil_of_right_ne_nil _ (List.cons_ne_nil _ _)
  have hmem : ∀ c, c ∈ bs.take (i + 1) ++ new :: bs.drop (i + 1) ↔ c = new ∨ c ∈ bs := by
    intro c
    rw [List.mem_append, List.mem_cons, or_left_comm, ← List.mem_append, List.take_append_drop]
  constructor
  · intro af' n hn
    rcases (holds_foldl_insertNode hne hsuits).mp hn with hn | ⟨-, hn⟩
    swap
    · exact hn
    rw [holds_setTable] at hn
    split_ifs at hn with hsame
    · obtain ⟨c, hc, hnc⟩ := hn
      rcases (hmem c).mp hc with rfl | hc
      · rw [hnew] at hnc
        exact absurd hnc List.not_mem_nil
      · rw [hbs] at hc
        rcases List.mem_modify_iff.mp hc with ⟨c, -, rfl⟩ | ⟨k, -, hc⟩
        · exact absurd hnc List.not_mem_nil
        · exact (suits_congr hsame n).mp (hr af n ⟨c, List.mem_of_getElem? hc, hnc⟩)
    · exact hr af' n hn
  · rintro af' n hn hsafe
    refine ⟨n, (holds_foldl_insertNode hne hsuits).mpr ?_, rfl, hsafe⟩
    rw [holds_setTable]
    by_cases hsame : af = afInet ↔ af' = afInet
    · rw [if_pos hsame]
      obtain ⟨c, hc, hnc⟩ := hn
      rw [← table_congr hsame] at hc
      obtain ⟨k, hk⟩ := List.mem_iff_getElem?.mp hc
      by_cases hki : k = i
      · subst hki
        obtain rfl : b = c := Option.some_inj.mp (hb.symm.trans hk)
        exact Or.inr ⟨hnc, (suits_congr hsame n).mp (hsuits n hnc)⟩
      · refine Or.inl ⟨c, (hmem c).mpr (Or.inr ?_), hnc⟩
        rw [hbs]
        exact List.mem_modify_iff.mpr (Or.inr ⟨k, hki, hk⟩)
    · rw [if_neg hsame]
      exact Or.inl hn

theorem nodes_sendCachedPing (net : Net) {b : Bucket} (hb : (r.table af)[i]? = some b) :
    ∃ b', ((r.sendCachedPing net af i).1.table af)[i]? = some b' ∧ b'.nodes = b.nodes := by
  unfold sendCachedPing
  rw [hb]
  dsimp only
  by_cases h0 : b.cached.family = 0
  · rw [if_pos h0]
    exact ⟨b, hb, rfl⟩
  · rw [if_neg h0, table_modifyBucket_self, List.getElem?_modify_eq, hb]
    exact ⟨_, rfl, rfl⟩

/-- `split_bucket` loses no node. -/
theorem keeps_splitBucket (net : Net) (r : Routing) (af i : ℕ) :
    Keeps now r (r.splitBucket net af i).1 := by
  unfold splitBucket
  cases hb : (r.table af)[i]? with
  | none => exact Keeps.refl r
  | some b =>
    dsimp only
    cases bucketMiddle b (r.table af)[i + 1]? with
    | none => exact Keeps.refl r
    | some newId =>
      dsimp only
      refine (keeps_sendCachedPing net r af i).trans ?_
      obtain ⟨b', hb', hnodes⟩ := nodes_sendCachedPing net hb
      rw [← hnodes]
      exact keeps_redistribute hb' rfl rfl

/-! ## `new_node` -/

section NewNode

variable {id : Id} {sa : Sockaddr} {salen confirm : ℕ}

/-- A node that is known is safe afterwards if it was before. -/
theorem safe_refreshNode {n : Node} (h : Safe now n) :
    (refreshNode now sa salen confirm n).id = n.id ∧
      Safe now (refreshNode now sa salen confirm n) := by
  unfold refreshNode
  split_ifs <;> first | exact ⟨rfl, h⟩ | exact ⟨rfl, Or.inl (Nat.succ_pos 2)⟩

theorem suits_refreshNode {n : Node} (h2 : 2 ≤ salen) (hl : salen ≤ sa.length)
    (h : Suits sa.family n) : Suits sa.family (refreshNode now sa salen confirm n) := by
  have hfam : Suits sa.family { n with ss := memcpy n.ss sa salen } := by
    unfold Suits
    rw [family_memcpy h2 hl]
  unfold refreshNode
  split_ifs
  · exact hfam
  · exact hfam
  · exact hfam
  · exact hfam
  · exact h

/-- Neither the time of the bucket nor that of the last growth concerns a node. -/
theorem Touched.keeps (h : Touched now af i r r') :
    Keeps now r r' ∧ ∀ j, r'.node? af i j = r.node? af i j := by
  induction h with
  | same => exact ⟨Keeps.refl r, fun _ => rfl⟩
  | @time r'' _ ih =>
    refine ⟨ih.1.trans (keeps_modifyBucket_of_nodes fun _ => rfl), fun j => ?_⟩
    rw [← ih.2 j, node?, table_modifyBucket_self, List.getElem?_modify_eq, node?]
    cases (r''.table af)[i]? <;> rfl
  | grow _ ih =>
    refine ⟨ih.1.trans (keeps_of_table fun _ => table_grow _ now af _), fun j => ?_⟩
    rw [← ih.2 j, node?, table_grow, node?]

/-- A node is written over after three unanswered requests, the last more than 15 seconds ago. -/
theorem Unknown.not_safe {b : Bucket} (h : Unknown net now id sa.family r r' i b) {n n' : Node}
    (hn : b.nodes[j]? = some n) (hbroken : 3 ≤ n.pinged ∧ n.pingedTime < now - 15)
    (hn' : r'.node? sa.family i j = some n') : ¬ Safe now n' := by
  rw [h.touched.keeps.2 j, node?, h.bucket] at hn'
  obtain rfl : n = n' := Option.some_inj.mp (hn.symm.trans hn')
  unfold Safe
  omega

theorem keeps_newNodeFuel (net : Net) (now : ℤ) (id : Id) (confirm : ℕ) (h2 : 2 ≤ salen)
    (hl : salen ≤ sa.length) (fuel : ℕ) {out : Routing × List Packet × Bool}
    (hout : newNodeFuel net now id sa salen confirm fuel r = some out) : Keeps now r out.1 := by
  induction fuel generalizing r out with
  | zero => exact absurd hout nofun
  | succ fuel ih =>
    have hstep := newNodeStep net now id sa salen confirm fuel r
    rw [hout] at hstep
    generalize hresult : some out = result at hstep
    cases hstep with
    | refused => exact Option.some_inj.mp hresult ▸ Keeps.refl r
    | refreshed h =>
      refine Option.some_inj.mp hresult ▸ h.keeps.1.trans (keeps_modifyNode fun n _ => ?_)
      exact ⟨suits_refreshNode h2 hl, safe_refreshNode⟩
    | replaced h hn hbroken =>
      refine Option.some_inj.mp hresult ▸ h.touched.keeps.1.trans (keeps_modifyNode fun n hn' => ?_)
      refine ⟨fun _ => ?_, fun hsafe => absurd hsafe (h.not_safe hn hbroken hn')⟩
      unfold Suits
      rw [show (replaceNode now id sa salen confirm n).ss = memcpy n.ss sa salen from rfl,
        family_memcpy h2 hl]
    | @split r' i b h =>
      obtain ⟨out', hout', rfl⟩ := Option.map_eq_some_iff.mp hresult.symm
      have hpinged : Keeps now r _ :=
        h.touched.keeps.1.trans (keeps_pingDubious net r' sa.family i b.nodes)
      have hrec : Keeps now _ out'.1 := ih hout'
      exact (hpinged.trans (keeps_splitBucket net _ sa.family i)).trans hrec
    | @cached r' i b h =>
      have hpinged : Keeps now r _ :=
        h.touched.keeps.1.trans (keeps_pingDubious net r' sa.family i b.nodes)
      refine Option.some_inj.mp hresult ▸
        hpinged.trans (keeps_modifyBucket_of_nodes fun b => ?_)
      split_ifs <;> rfl
    | added h =>
      refine Option.some_inj.mp hresult ▸
        h.touched.keeps.1.trans (keeps_modifyBucket fun b hb hsuits => ?_)
      constructor
      · rw [List.forall_mem_cons]
        refine ⟨?_, hsuits⟩
        unfold Suits
        rw [show (callocNode now id sa salen confirm).ss =
          memcpy zeroStorage sa salen from rfl, family_memcpy h2 hl]
      · intro n hn hsafe
        exact ⟨n, List.mem_cons_of_mem _ hn, rfl, hsafe⟩

/-- `new_node` writes over no safe node. -/
theorem keeps_newNode (net : Net) (now : ℤ) (r : Routing) (id : Id) (confirm : ℕ) (h2 : 2 ≤ salen)
    (hl : salen ≤ sa.length) : Keeps now r (r.newNode net now id sa salen confirm).1 := by
  unfold newNode
  cases h : newNodeFuel net now id sa salen confirm 161 r with
  | none => exact Keeps.refl r
  | some out => exact keeps_newNodeFuel net now id confirm h2 hl 161 h

end NewNode

/-! ## Purging -/

/-- `expire_buckets` unlinks only nodes with four unanswered requests. -/
theorem kept_expireBuckets (net : Net) (r : Routing) :
    (r.FamiliesOk → (r.expireBuckets net).1.FamiliesOk) ∧
      ∀ af n, r.Holds af n → n.pinged < 4 → (r.expireBuckets net).1.Holds af n := by
  have hholds : ∀ af n, (r.expireBuckets net).1.Holds af n ↔ r.Holds af n ∧ n.pinged < 4 := by
    intro af n
    unfold Holds
    rw [table_expireBuckets]
    constructor
    · rintro ⟨b', hb', hn⟩
      obtain ⟨b, hb, rfl⟩ := List.mem_map.mp hb'
      rw [nodes_expireBucket, List.mem_filter] at hn
      exact ⟨⟨b, hb, hn.1⟩, of_decide_eq_true hn.2⟩
    · rintro ⟨⟨b, hb, hn⟩, h4⟩
      refine ⟨_, List.mem_map.mpr ⟨b, hb, rfl⟩, ?_⟩
      rw [nodes_expireBucket, List.mem_filter]
      exact ⟨hn, decide_eq_true h4⟩
  constructor
  · intro hr af n hn
    exact hr af n ((hholds af n).mp hn).1
  · intro af n hn h4
    exact (hholds af n).mpr ⟨hn, h4⟩

end Routing

namespace Search

variable {r : Routing} {net : Net} {now : ℤ}

theorem keeps_sendGetPeers (sr : Search) (j : ℕ) :
    Routing.Keeps now r (sr.sendGetPeers net now r j).2.1 := by
  unfold sendGetPeers
  cases sr.nodes[j]? with
  | none => exact Routing.Keeps.refl r
  | some n =>
    dsimp only
    by_cases hn : toAsk now n = true
    · rw [if_pos hn]
      exact Routing.keeps_markPinged net r n.id n.ss.family
    · rw [if_neg hn]
      exact Routing.Keeps.refl r

theorem keeps_sendGetPeersNext (sr : Search) :
    Routing.Keeps now r (sr.sendGetPeersNext net now r).2.1 := by
  unfold sendGetPeersNext
  cases sr.pickNode now with
  | none => exact Routing.Keeps.refl r
  | some j => exact keeps_sendGetPeers sr j

theorem keeps_announceNodes (sr : Search) (j : ℕ) (nodes : List SearchNode) :
    Routing.Keeps now r (announceNodes net now sr j nodes r).2.1 := by
  induction nodes generalizing j r with
  | nil =>
    rw [announceNodes]
    exact Routing.Keeps.refl r
  | cons n nodes ih =>
    cases j with
    | zero =>
      rw [announceNodes]
      · exact Routing.Keeps.refl r
      · exact nofun
    | succ j =>
      rw [announceNodes]
      dsimp only
      generalize (if n.token = [] then { n with acked := true } else n) = n'
      by_cases h3 : 3 ≤ n.pinged
      · rw [if_pos h3]
        exact ih (j + 1)
      · rw [if_neg h3]
        by_cases hack : n'.acked = true
        · rw [if_pos hack]
          exact ih j
        · rw [if_neg hack]
          exact (Routing.keeps_markPinged net r n'.id n'.ss.family).trans (ih j)

theorem keeps_askNodes (sr : Search) (asked : ℕ) (js : List ℕ) :
    Routing.Keeps now r (askNodes net now r sr asked js).2.1 := by
  induction js generalizing r sr asked with
  | nil => exact Routing.Keeps.refl r
  | cons j js ih =>
    unfold askNodes
    dsimp only
    split_ifs
    · exact keeps_sendGetPeers sr j
    · exact (keeps_sendGetPeers sr j).trans (ih _ _)

theorem keeps_step (sr : Search) : Routing.Keeps now r (sr.step net now r).2.1 := by
  unfold step
  split_ifs
  · exact Routing.Keeps.refl r
  · dsimp only
    split_ifs <;> exact keeps_announceNodes sr 8 sr.nodes
  · exact Routing.Keeps.refl r
  · exact keeps_askNodes sr 0 _

end Search

namespace World

/-- The safe nodes stay, and so does the time. -/
structure Spares (w w' : World) : Prop where
  now : w'.now = w.now
  keeps : Routing.Keeps w.now w.routing w'.routing

variable {w w' w'' : World}

theorem Spares.refl (w : World) : Spares w w := ⟨rfl, Routing.Keeps.refl w.routing⟩

theorem Spares.trans (h : Spares w w') (h' : Spares w' w'') : Spares w w'' :=
  ⟨h'.now.trans h.now, h.keeps.trans (h.now ▸ h'.keeps)⟩

theorem spares_foldl {ι : Type*} {f : World → ι → World} (w : World) (is : List ι)
    (hf : ∀ w, ∀ i ∈ is, Spares w (f w i)) : Spares w (is.foldl f w) := by
  induction is generalizing w with
  | nil => exact Spares.refl w
  | cons i is ih =>
    exact (hf w i List.mem_cons_self).trans (ih _ fun w k hk => hf w k (List.mem_cons_of_mem i hk))

/-- A step that leaves the table and the time alone. -/
theorem spares_of_eq (hnow : w'.now = w.now) (h : w'.routing = w.routing) : Spares w w' :=
  ⟨hnow, by rw [h]; exact Routing.Keeps.refl w.routing⟩

/-! ## Messages -/

section

variable (m : Message) {frm : Sockaddr} {fromlen : ℕ} (sha1 : Bytes → Bytes)

theorem spares_newNode (w : World) (id : Id) {sa : Sockaddr} {salen : ℕ} (confirm : ℕ)
    (h2 : 2 ≤ salen) (hl : salen ≤ sa.length) : Spares w (w.newNode id sa salen confirm) :=
  ⟨rfl, Routing.keeps_newNode w.net w.now w.routing id confirm h2 hl⟩

theorem spares_blacklistNode (w : World) (id : Id) (sa : Sockaddr) (salen : ℕ) :
    Spares w (w.blacklistNode id sa salen) :=
  ⟨rfl, Routing.keeps_discardNode w.net w.routing id sa.family⟩

theorem spares_searchSendGetPeers (w : World) (i : ℕ) : Spares w (w.searchSendGetPeers i) := by
  unfold searchSendGetPeers
  cases w.searches[i]? with
  | none => exact Spares.refl w
  | some sr => exact ⟨rfl, Search.keeps_sendGetPeersNext sr⟩

theorem spares_searchStep (w : World) (i : ℕ) : Spares w (w.searchStep i) := by
  unfold searchStep
  cases w.searches[i]? with
  | none => exact Spares.refl w
  | some sr =>
    have hstep : Routing.Keeps w.now w.routing (sr.step w.net w.now w.routing).2.1 :=
      Search.keeps_step sr
    dsimp only
    split_ifs <;> exact ⟨rfl, hstep⟩

theorem spares_valuesFound (w : World) (event : DhtEvent) (infoHash : Id) (data : Bytes)
    (frm : Sockaddr) (fromlen : ℕ) :
    Spares w (w.valuesFound sha1 event infoHash data frm fromlen) := by
  unfold valuesFound
  dsimp only [memory]
  refine Spares.trans ?_ (spares_foldl _ _ fun w ping _ => spares_of_eq rfl rfl)
  exact spares_of_eq rfl rfl

theorem spares_learnNode (w : World) (sr : Option ℕ) (id : Id) {sa : Sockaddr} {salen : ℕ}
    (h2 : 2 ≤ salen) (hl : salen ≤ sa.length) : Spares w (w.learnNode sr id sa salen) := by
  unfold learnNode
  split_ifs
  · exact Spares.refl w
  · refine (spares_newNode w id 0 h2 hl).trans ?_
    cases sr with
    | none => exact Spares.refl _
    | some i => exact spares_of_eq rfl rfl

theorem length_sockaddrIn (ip port : Bytes) :
    (sockaddrIn ip port).length = 10 + port.length + ip.length := by
  simp only [sockaddrIn, List.length_append, List.length_cons, List.length_nil,
    List.length_replicate]
  omega

theorem length_sockaddrIn6 (ip port : Bytes) :
    (sockaddrIn6 ip port).length = 10 + port.length + ip.length := by
  simp only [sockaddrIn6, List.length_append, List.length_cons, List.length_nil,
    List.length_replicate]
  omega

theorem spares_learnNodes (w : World) (sr : Option ℕ) : Spares w (w.learnNodes m sr) := by
  unfold learnNodes
  dsimp only
  refine (spares_foldl w _ fun w i hi => ?_).trans (spares_foldl _ _ fun w i hi => ?_)
  · have hni : (slice m.nodes (26 * i) 26).length = 26 := by
      have := List.mem_range.mp hi
      exact length_slice (by omega)
    refine spares_learnNode w sr _ (by decide) ?_
    rw [length_sockaddrIn, length_slice (by omega), length_slice (by omega)]
    rfl
  · have hni : (slice m.nodes6 (38 * i) 38).length = 38 := by
      have := List.mem_range.mp hi
      exact length_slice (by omega)
    refine spares_learnNode w sr _ (by decide) ?_
    rw [length_sockaddrIn6, length_slice (by omega), length_slice (by omega)]
    rfl

theorem spares_searchReply (w : World) (i : ℕ) :
    Spares w (w.searchReply m frm fromlen sha1 i) := by
  unfold searchReply
  have hmod : Spares w (w.modifySearch i
      (·.insertSearchNode w.now m.id frm fromlen true (some m.token))) := spares_of_eq rfl rfl
  refine hmod.trans ?_
  dsimp only
  split
  · exact Spares.refl _
  · rename_i sr _
    have h (w : World) : Spares w (if m.values ≠ [] then
        w.valuesFound sha1 .values sr.id m.values frm fromlen else w) := by
      split_ifs
      · exact spares_valuesFound sha1 w _ _ _ _ _
      · exact Spares.refl w
    have h6 (w : World) : Spares w (if m.values6 ≠ [] then
        w.valuesFound sha1 .values6 sr.id m.values6 frm fromlen else w) := by
      split_ifs
      · exact spares_valuesFound sha1 w _ _ _ _ _
      · exact Spares.refl w
    exact (h _).trans (h6 _)

theorem spares_option_elim {sr : Option ℕ} {f : ℕ → World} (hf : ∀ i, Spares w (f i)) :
    Spares w (sr.elim w f) := by
  cases sr with
  | none => exact Spares.refl w
  | some i => exact hf i

variable (h2 : 2 ≤ fromlen) (hl : fromlen ≤ frm.length)
include h2 hl

theorem spares_nodesReply (w : World) : Spares w (w.nodesReply m frm fromlen sha1) := by
  unfold nodesReply
  dsimp only
  refine Spares.trans ?_ (spares_option_elim fun i => spares_searchReply m sha1 _ i)
  generalize (if tidMatch m.tid (str "gp") = true then
    findSearch (tidSeqno m.tid) frm.family w.searches else none) = sr
  split_ifs
  · exact spares_blacklistNode w m.id frm fromlen
  · exact spares_newNode w m.id 1 h2 hl
  · have h := (spares_newNode w m.id 2 h2 hl).trans (spares_learnNodes m _ sr)
    exact h.trans (spares_option_elim fun i => spares_searchSendGetPeers _ i)

theorem spares_announceReply (w : World) : Spares w (w.announceReply m frm fromlen) := by
  unfold announceReply
  cases findSearch (tidSeqno m.tid) frm.family w.searches with
  | none => exact spares_newNode w m.id 1 h2 hl
  | some i =>
    have h := spares_newNode w m.id 2 h2 hl
    have hack : Spares (w.newNode m.id frm fromlen 2) ((w.newNode m.id frm fromlen 2).modifySearch i
      (Search.acknowledge (w.newNode m.id frm fromlen 2).now m.id)) := spares_of_eq rfl rfl
    exact (h.trans hack).trans (spares_searchSendGetPeers _ i)

theorem spares_replyMessage (w : World) : Spares w (w.replyMessage m frm fromlen sha1) := by
  unfold replyMessage
  split_ifs
  · exact spares_blacklistNode w m.id frm fromlen
  · exact spares_newNode w m.id 2 h2 hl
  · exact spares_nodesReply m sha1 h2 hl w
  · exact spares_announceReply m h2 hl w
  · exact Spares.refl w

theorem spares_query (w : World) : Spares w (w.query m frm fromlen sha1) := by
  have h := spares_newNode w m.id 1 h2 hl
  unfold query
  cases m.kind with
  | ping => exact h.trans (spares_of_eq rfl rfl)
  | findNode => exact h.trans (spares_of_eq rfl rfl)
  | getPeers =>
    refine h.trans ?_
    dsimp only [getPeers]
    split_ifs
    · exact spares_of_eq rfl rfl
    · split
      · split_ifs <;> exact spares_of_eq rfl rfl
      · exact spares_of_eq rfl rfl
  | announcePeer =>
    refine h.trans ?_
    dsimp only [announcePeer]
    split_ifs <;> exact spares_of_eq rfl rfl
  | error | reply | dtnQuery | dtnReply => exact Spares.refl w

theorem spares_handle (w : World) : Spares w (w.handle m frm fromlen sha1) := by
  unfold handle
  split_ifs
  · exact Spares.refl w
  · exact Spares.refl w
  · exact spares_replyMessage m sha1 h2 hl w
  · have ht : Spares w w.takeToken.2 := spares_of_eq rfl rfl
    generalize w.takeToken = out at ht
    obtain ⟨ok, w1⟩ := out
    cases ok with
    | false => exact ht
    | true => exact ht.trans (spares_query m sha1 h2 hl w1)

end

/-- No datagram evicts a safe node. -/
theorem spares_receive (lib : Platform) (clayer : List ConvergenceLayer) (w : World)
    {dg : Datagram} (h2 : 2 ≤ dg.fromlen) (hl : dg.fromlen ≤ dg.frm.length) :
    Spares w (w.receive lib clayer dg) := by
  have hs : Spares w w.stackTid.2 := spares_of_eq rfl rfl
  unfold receive
  dsimp only
  split
  · split_ifs
    · exact hs.trans (spares_of_eq rfl rfl)
    · exact hs
  · split_ifs
    · exact hs.trans (spares_of_eq rfl rfl)
    · exact hs
  · split
    · exact hs
    · exact hs.trans (spares_handle _ _ h2 hl _)

/-- Finding a slot for a search concerns no node. -/
theorem spares_searchSlot (w : World) (id : Id) (af : ℕ) : Spares w (w.searchSlot id af).2 := by
  unfold searchSlot
  cases w.findIdx id af with
  | some i => exact spares_of_eq rfl rfl
  | none =>
    dsimp only
    generalize newSearch w.now (w.env.calloc 0) w.searches w.numsearches = out
    obtain ⟨slot, searches, numsearches⟩ := out
    cases slot with
    | none => exact spares_of_eq rfl rfl
    | some i => exact spares_of_eq rfl rfl

theorem spares_dhtSearch (w : World) (id : Id) (port : UInt16) (af : ℕ) :
    Spares w (w.dhtSearch id port af).2 := by
  unfold dhtSearch
  cases w.routing.findBucket id af with
  | none => exact Spares.refl w
  | some b =>
    have hslot := spares_searchSlot w id af
    dsimp only
    generalize w.searchSlot id af = out at hslot
    obtain ⟨slot, w'⟩ := out
    cases slot with
    | none => exact hslot
    | some i =>
      dsimp only
      generalize hw₁ : World.emit _ _ = w₁
      have hstart : Spares w' w₁ := by
        rw [← hw₁]
        exact spares_of_eq rfl rfl
      have hstep : Spares w₁ (w₁.searchStep i) := spares_searchStep w₁ i
      exact ((hslot.trans hstart).trans hstep).trans (spares_of_eq rfl rfl)

/-! ## Runs -/

/-- What happens to the routing table: a call of a function that writes to it, or anything that
leaves it alone. An address is at least long enough for its family. -/
inductive TableStep (lib : Platform) (clayer : List ConvergenceLayer) : World → World → Prop where
  | newNode (w : World) (id : Id) (sa : Sockaddr) (salen confirm : ℕ) (h2 : 2 ≤ salen)
      (hl : salen ≤ sa.length) : TableStep lib clayer w (w.newNode id sa salen confirm)
  | splitBucket (w : World) (af i : ℕ) :
      TableStep lib clayer w (w.withRouting (w.routing.splitBucket w.net af i))
  | expireBuckets (w : World) : TableStep lib clayer w w.expireBuckets
  | bucketMaintenance (w : World) (af : ℕ) : TableStep lib clayer w
      (w.maintain (fun net r => r.bucketMaintenance net w.now) af).2
  | neighbourhoodMaintenance (w : World) (af : ℕ) : TableStep lib clayer w
      (w.maintain (fun net r => r.neighbourhoodMaintenance net w.now) af).2
  | searchSendGetPeers (w : World) (i : ℕ) : TableStep lib clayer w (w.searchSendGetPeers i)
  | searchStep (w : World) (i : ℕ) : TableStep lib clayer w (w.searchStep i)
  | dhtSearch (w : World) (id : Id) (port : UInt16) (af : ℕ) :
      TableStep lib clayer w (w.dhtSearch id port af).2
  | receive (w : World) (dg : Datagram) (h2 : 2 ≤ dg.fromlen) (hl : dg.fromlen ≤ dg.frm.length) :
      TableStep lib clayer w (w.receive lib clayer dg)
  | other (w w' : World) (h : w'.routing = w.routing) : TableStep lib clayer w w'

variable {lib : Platform} {clayer : List ConvergenceLayer}

/-- A node with fewer than three unanswered requests stays, and each node is in the table of its
family. -/
theorem TableStep.kept (h : TableStep lib clayer w w') (hw : w.routing.FamiliesOk) :
    w'.routing.FamiliesOk ∧ ∀ af n, w.routing.Holds af n → n.pinged < 3 →
      ∃ n', w'.routing.Holds af n' ∧ n'.id = n.id := by
  have hkeeps : ∀ {w' : World}, Routing.Keeps w.now w.routing w'.routing →
      w'.routing.FamiliesOk ∧ ∀ af n, w.routing.Holds af n → n.pinged < 3 →
        ∃ n', w'.routing.Holds af n' ∧ n'.id = n.id := by
    intro w' hk
    refine ⟨(hk hw).1, fun af n hn h3 => ?_⟩
    obtain ⟨n', hn', hid, -⟩ := (hk hw).2 af n hn (Or.inl h3)
    exact ⟨n', hn', hid⟩
  cases h with
  | newNode id sa salen confirm h2 hl => exact hkeeps (spares_newNode w id confirm h2 hl).keeps
  | splitBucket af i => exact hkeeps (Routing.keeps_splitBucket w.net w.routing af i)
  | expireBuckets =>
    obtain ⟨hok, hheld⟩ := Routing.kept_expireBuckets w.net w.routing
    exact ⟨hok hw, fun af n hn h3 => ⟨n, hheld af n hn (by omega), rfl⟩⟩
  | bucketMaintenance af =>
    exact hkeeps (Routing.keeps_bucketMaintenance w.net w.routing af w.env.random)
  | neighbourhoodMaintenance af =>
    exact hkeeps (Routing.keeps_neighbourhoodMaintenance w.net w.routing af w.env.random)
  | searchSendGetPeers i => exact hkeeps (spares_searchSendGetPeers w i).keeps
  | searchStep i => exact hkeeps (spares_searchStep w i).keeps
  | dhtSearch id port af => exact hkeeps (spares_dhtSearch w id port af).keeps
  | receive dg h2 hl => exact hkeeps (spares_receive lib clayer w h2 hl).keeps
  | other _ h => exact hkeeps (Routing.keeps_of_table fun af => by rw [h])

theorem familiesOk_dhtInit (w : World) (s s6 : ℤ) (id : Id) (v : Option Bytes) :
    (w.dhtInit s s6 id v).routing.FamiliesOk := by
  rintro af n ⟨b, hb, hn⟩
  rw [nodes_dhtInit w s s6 id v hb] at hn
  exact absurd hn List.not_mem_nil

theorem familiesOk_run {s s6 : ℤ} {id : Id} {v : Option Bytes} {w₀ : World}
    (hw : Relation.ReflTransGen (TableStep lib clayer) (w₀.dhtInit s s6 id v) w) :
    w.routing.FamiliesOk := by
  induction hw with
  | refl => exact familiesOk_dhtInit w₀ s s6 id v
  | tail _ hstep ih => exact (hstep.kept ih).1

theorem pinged_lt_of_nodeGood {now : ℤ} {n : Node} (h : nodeGood now n = true) : n.pinged < 3 := by
  unfold nodeGood at h
  simp only [Bool.and_eq_true, decide_eq_true_eq] at h
  omega

/-- **Good nodes are never evicted.** In every state reached from `dht_init`, each step leaves a
good node in the table of its family, and a node whose id is no longer there afterwards had three
unanswered requests before. -/
theorem good_node_stays {s s6 : ℤ} {id : Id} {v : Option Bytes} {w₀ w w' : World}
    (hw : Relation.ReflTransGen (TableStep lib clayer) (w₀.dhtInit s s6 id v) w)
    (hstep : TableStep lib clayer w w') {af : ℕ} {n : Node} (hn : w.routing.Holds af n) :
    (nodeGood w.now n = true → ∃ n', w'.routing.Holds af n' ∧ n'.id = n.id) ∧
      ((¬ ∃ n', w'.routing.Holds af n' ∧ n'.id = n.id) → 3 ≤ n.pinged) := by
  have hkept := (hstep.kept (familiesOk_run hw)).2 af n hn
  constructor
  · intro hgood
    exact hkept (pinged_lt_of_nodeGood hgood)
  · intro hgone
    by_contra h3
    exact hgone (hkept (not_le.mp h3))

/-- A node that has just replied to the first request. -/
def repliedNode : Node :=
  Routing.callocNode 1000 (Id.ofBytes [1]) (sockaddrIn [9, 9, 9, 9] [0, 80]) 16 2

/-- The node after it has met `repliedNode`. -/
def meetsRepliedNode : World :=
  ((initial (Env.still 1000)).dhtInit 3 (-1) Id.zeroes none).newNode
    (Id.ofBytes [1]) (sockaddrIn [9, 9, 9, 9] [0, 80]) 16 2

/-- It is still there after `expire_buckets`. -/
theorem good_node_stays_replied : nodeGood meetsRepliedNode.now repliedNode = true ∧
    ∃ n', meetsRepliedNode.expireBuckets.routing.Holds afInet n' ∧ n'.id = repliedNode.id := by
  have hgood : nodeGood meetsRepliedNode.now repliedNode = true := by decide +kernel
  have hrun : Relation.ReflTransGen (TableStep ⟨fun _ => [], fun _ _ => []⟩ [])
      ((initial (Env.still 1000)).dhtInit 3 (-1) Id.zeroes none) meetsRepliedNode :=
    Relation.ReflTransGen.single (TableStep.newNode _ _ _ _ _ (by decide) (by decide))
  have hheld : meetsRepliedNode.routing.Holds afInet repliedNode := by
    unfold Routing.Holds
    decide +kernel
  exact ⟨hgood, (good_node_stays hrun (TableStep.expireBuckets _) hheld).1 hgood⟩

end World

end DtnDht
