import DtnDht.Search
import DtnDht.Lib.Closest
import DtnDht.Lib.Slots

/-!
# The nodes of a search

`struct search` keeps its nodes in an array of `SEARCH_NODES` cells, of which the first `numnodes`
are in use. `insert_search_node` shifts cells up and `flush_search_node` down, cell by cell. On the
list of the cells in use this is what `Search.insertSearchNode` computes
(`nodes_insertSearchNode`), and the ids of that list are the closest of all that were offered.
-/

namespace DtnDht

open Closest Slots

/-- `struct search`, as far as its nodes go. -/
structure SearchArray where
  af : ℕ
  id : Id
  /-- `nodes` -/
  cells : List SearchNode
  numnodes : ℕ
  length_cells : cells.length = searchNodes
  numnodes_le : numnodes ≤ searchNodes

/-- A zeroed `struct search` with its family and id set. -/
def callocSearchArray (af : ℕ) (id : Id) : SearchArray where
  af := af
  id := id
  cells := List.replicate searchNodes (callocSearchNode Id.zeroes)
  numnodes := 0
  length_cells := List.length_replicate
  numnodes_le := Nat.zero_le _

/-- The arguments of a call of `insert_search_node`, and the time of it. -/
structure Offer where
  now : ℤ
  id : Id
  sa : Sockaddr
  salen : ℕ
  replied : Bool
  token : Option Bytes

/-- Where the first loop of `insert_search_node` leaves `i`, and whether it goes to `found`. -/
def findPlace (target id : Id) : List SearchNode → ℕ → Bool × ℕ
  | [], i => (false, i)
  | n :: nodes, i =>
    if idCmp id n.id = .eq then (true, i)
    else if xorcmp id n.id target < 0 then (false, i)
    else findPlace target id nodes (i + 1)

namespace SearchArray

/-- The cells in use. -/
def nodes (sr : SearchArray) : List SearchNode := sr.cells.take sr.numnodes

theorem length_nodes (sr : SearchArray) : sr.nodes.length = sr.numnodes := by
  unfold nodes
  rw [List.length_take, sr.length_cells, min_eq_left sr.numnodes_le]

/-- `insert_search_node`. -/
def insertSearchNode (sr : SearchArray) (o : Offer) : SearchArray :=
  if o.sa.family ≠ sr.af then sr
  else
    let (found, i) := findPlace sr.id o.id (sr.cells.take sr.numnodes) 0
    let update := SearchNode.update o.now o.sa o.salen o.replied o.token
    if found then
      { sr with
        cells := sr.cells.modify i update
        length_cells := by rw [List.length_modify, sr.length_cells] }
    else if i = searchNodes then sr
    else
      let numnodes := if sr.numnodes < searchNodes then sr.numnodes + 1 else sr.numnodes
      { sr with
        cells := (shiftUp i numnodes sr.cells).set i (update (callocSearchNode o.id))
        numnodes := numnodes
        length_cells := by rw [List.length_set, length_shiftUp, sr.length_cells]
        numnodes_le := by
          have := sr.numnodes_le
          dsimp only [numnodes]
          split_ifs <;> omega }

/-- `flush_search_node` on the node in cell `i`. -/
def flushSearchNode (sr : SearchArray) (i : ℕ) : SearchArray where
  af := sr.af
  id := sr.id
  cells := shiftDown i (sr.numnodes - 1 - i) sr.cells
  numnodes := sr.numnodes - 1
  length_cells := by rw [length_shiftDown, sr.length_cells]
  numnodes_le := (Nat.sub_le _ 1).trans sr.numnodes_le

/-- A sequence of calls. -/
def insertAll (sr : SearchArray) (offers : List Offer) : SearchArray :=
  offers.foldl insertSearchNode sr

@[simp] theorem id_insertSearchNode (sr : SearchArray) (o : Offer) :
    (sr.insertSearchNode o).id = sr.id := by
  unfold insertSearchNode
  dsimp only
  split_ifs <;> rfl

@[simp] theorem af_insertSearchNode (sr : SearchArray) (o : Offer) :
    (sr.insertSearchNode o).af = sr.af := by
  unfold insertSearchNode
  dsimp only
  split_ifs <;> rfl

end SearchArray

/-! ## The list of the cells in use -/

section Place

variable {target id : Id} {f : SearchNode → SearchNode} {nodes : List SearchNode} {j k : ℕ}

/-- What the loop finds, in terms of the list. -/
theorem insertNodeAt_of_findPlace {found : Bool}
    (h : findPlace target id nodes j = (found, k)) :
    ∃ i ≤ nodes.length, k = j + i ∧
      insertNodeAt target id f nodes =
        if found then nodes.modify i f else nodes.insertIdx i (f (callocSearchNode id)) := by
  induction nodes generalizing j with
  | nil =>
    unfold findPlace at h
    cases h
    exact ⟨0, le_rfl, rfl, rfl⟩
  | cons n nodes ih =>
    unfold findPlace at h
    unfold insertNodeAt
    split_ifs at h with h1 h2
    · cases h
      rw [if_pos h1]
      exact ⟨0, Nat.zero_le _, rfl, rfl⟩
    · cases h
      rw [if_neg h1, if_pos h2]
      exact ⟨0, Nat.zero_le _, rfl, rfl⟩
    · rw [if_neg h1, if_neg h2]
      obtain ⟨i, hi, hk, hat⟩ := ih h
      refine ⟨i + 1, Nat.succ_le_succ hi, by omega, ?_⟩
      rw [hat]
      cases found <;> rfl

/-- The keys of the list, after a node is put in its place. -/
theorem map_dist_insertNodeAt (hf : ∀ n, (f n).id = n.id) :
    (insertNodeAt target id f nodes).map (fun n => target.dist n.id) =
      ins (target.dist id) (nodes.map fun n => target.dist n.id) := by
  induction nodes with
  | nil =>
    unfold insertNodeAt
    rw [List.map_singleton, hf]
    rfl
  | cons n nodes ih =>
    have heq : idCmp id n.id = .eq ↔ target.dist id = target.dist n.id := by
      rw [idCmp_eq_eq, target.dist_injective.eq_iff]
    unfold insertNodeAt
    rw [List.map_cons, ins]
    simp only [heq, xorcmp_neg_iff]
    split_ifs
    · rw [List.map_cons, hf]
    · rw [List.map_cons, hf, List.map_cons]
      rfl
    · rw [List.map_cons, ih]

end Place

/-! ## What one call writes -/

section Update

variable {now : ℤ} {sa : Sockaddr} {salen : ℕ} {replied : Bool} {token : Option Bytes}
  {n : SearchNode}

@[simp] theorem id_update : (n.update now sa salen replied token).id = n.id := by
  unfold SearchNode.update
  cases token with
  | none => cases replied <;> rfl
  | some token =>
    dsimp only
    cases replied <;> split_ifs <;> rfl

/-- An overlong token is left out. -/
theorem length_token_update (h : n.token.length < 40) :
    (n.update now sa salen replied token).token.length < 40 := by
  unfold SearchNode.update
  cases token with
  | none => cases replied <;> exact h
  | some token =>
    dsimp only
    by_cases h40 : 40 ≤ token.length
    · rw [if_pos h40]
      cases replied <;> exact h
    · rw [if_neg h40]
      exact not_le.mp h40

end Update

namespace SearchArray

variable {sr : SearchArray}

/-- **On the cells in use** the array version computes what the list version does. -/
theorem nodes_insertSearchNode {o : Offer} (h : o.sa.family = sr.af) :
    (sr.insertSearchNode o).nodes =
      (insertNodeAt sr.id o.id (·.update o.now o.sa o.salen o.replied o.token) sr.nodes).take
        searchNodes := by
  have hlen := sr.length_nodes
  have hle := sr.numnodes_le
  have hcells := sr.length_cells
  unfold insertSearchNode
  rw [if_neg (not_not.mpr h)]
  generalize hp : findPlace sr.id o.id (sr.cells.take sr.numnodes) 0 = p
  obtain ⟨found, k⟩ := p
  obtain ⟨i, hi, hk, hat⟩ :=
    insertNodeAt_of_findPlace (f := (·.update o.now o.sa o.salen o.replied o.token)) hp
  rw [Nat.zero_add] at hk
  subst hk
  have hi' : k ≤ sr.numnodes := by
    rwa [← hlen]
  change _ = (insertNodeAt sr.id o.id _ (sr.cells.take sr.numnodes)).take searchNodes
  rw [hat]
  unfold nodes
  cases found with
  | true =>
    dsimp only
    rw [if_pos rfl, if_pos rfl, List.take_of_length_le (i := searchNodes)]
    · exact List.take_modify ..
    · rw [List.length_modify, List.length_take]
      omega
  | false =>
    dsimp only
    rw [if_neg Bool.false_ne_true, if_neg Bool.false_ne_true]
    by_cases hfull : k = searchNodes
    · rw [if_pos hfull]
      have hn : sr.numnodes = searchNodes := by omega
      rw [List.take_insertIdx_eq_take_of_le _ _ _ _ hfull.ge, List.take_take, hn, min_self]
    · rw [if_neg hfull]
      dsimp only
      have hlen' : (sr.cells.take sr.numnodes).length = sr.numnodes := hlen
      split_ifs with hn
      · -- a cell more is in use
        rw [take_set_shiftUp hi' (by omega) (Nat.le_succ _) le_rfl (by omega),
          List.take_of_length_le (i := searchNodes)]
        · apply List.take_of_length_le
          rw [List.length_insertIdx_of_le_length hi, hlen']
        · rw [List.length_insertIdx_of_le_length hi, hlen']
          omega
      · -- the last node falls off
        have hn' : sr.numnodes = searchNodes := by omega
        rw [take_set_shiftUp hi' (by omega) le_rfl (Nat.le_succ _) (by omega), hn']

/-- The list version is what the array version computes, call by call. -/
theorem insertSearchNode_refines {s : Search} {o : Offer} (haf : s.af = sr.af) (hid : s.id = sr.id)
    (hnodes : s.nodes = sr.nodes) :
    (s.insertSearchNode o.now o.id o.sa o.salen o.replied o.token).nodes =
      (sr.insertSearchNode o).nodes := by
  unfold Search.insertSearchNode
  rw [haf]
  by_cases h : o.sa.family = sr.af
  · rw [if_neg (not_not.mpr h), nodes_insertSearchNode h, hid, hnodes]
  · unfold insertSearchNode
    rw [if_pos h, if_pos h, hnodes]

/-- **`flush_search_node` removes its node** and keeps the order of the others. -/
theorem nodes_flushSearchNode {i : ℕ} (hi : i < sr.numnodes) :
    (sr.flushSearchNode i).nodes = sr.nodes.eraseIdx i := by
  have hle := sr.numnodes_le
  have hcells := sr.length_cells
  exact take_shiftDown hi (by omega)

/-! ## Sequences of calls -/

/-- The distances of the nodes after a sequence of calls. -/
theorem map_dist_insertAll {offers : List Offer} (h : ∀ o ∈ offers, o.sa.family = sr.af)
    (s : Finset ℕ) (hs : sr.nodes.map (fun n => sr.id.dist n.id) = least searchNodes s) :
    (sr.insertAll offers).nodes.map (fun n => sr.id.dist n.id) =
      least searchNodes ((offers.map fun o => sr.id.dist o.id).toFinset ∪ s) := by
  induction offers generalizing sr s with
  | nil => simpa [insertAll] using hs
  | cons o offers ih =>
    have ho := h o List.mem_cons_self
    have hstep : (sr.insertSearchNode o).nodes.map (fun n => sr.id.dist n.id) =
        least searchNodes (insert (sr.id.dist o.id) s) := by
      rw [nodes_insertSearchNode ho, List.map_take, map_dist_insertNodeAt fun n => id_update, hs,
        take_ins_least]
    have hrest := @ih (sr.insertSearchNode o)
      (fun o' ho' => by
        rw [af_insertSearchNode]
        exact h o' (List.mem_cons_of_mem o ho')) (insert (sr.id.dist o.id) s)
    rw [id_insertSearchNode] at hrest
    have hfold : sr.insertAll (o :: offers) = (sr.insertSearchNode o).insertAll offers := rfl
    rw [hfold, hrest hstep, List.map_cons, List.toFinset_cons, Finset.insert_union,
      Finset.union_insert]

/-- What every node has that a sequence of calls leaves. -/
theorem forall_insertAll {P : SearchNode → Prop} {offers : List Offer}
    (h : ∀ o ∈ offers, o.sa.family = sr.af) (h0 : ∀ n ∈ sr.nodes, P n)
    (hnew : ∀ o ∈ offers, P (callocSearchNode o.id))
    (hupdate : ∀ o ∈ offers, ∀ n, P n → P (n.update o.now o.sa o.salen o.replied o.token)) :
    ∀ n ∈ (sr.insertAll offers).nodes, P n := by
  induction offers generalizing sr with
  | nil => exact h0
  | cons o offers ih =>
    apply @ih (sr.insertSearchNode o)
    · intro o' ho'
      rw [af_insertSearchNode]
      exact h o' (List.mem_cons_of_mem o ho')
    · intro n hn
      rw [nodes_insertSearchNode (h o List.mem_cons_self)] at hn
      rcases mem_insertNodeAt (List.mem_of_mem_take hn) with hn | rfl | ⟨m, hm, -, rfl⟩
      · exact h0 n hn
      · exact hupdate o List.mem_cons_self _ (hnew o List.mem_cons_self)
      · exact hupdate o List.mem_cons_self m (h0 m hm)
    · exact fun o' ho' => hnew o' (List.mem_cons_of_mem o ho')
    · exact fun o' ho' => hupdate o' (List.mem_cons_of_mem o ho')

/-- The distances that an empty search holds after a sequence of calls. -/
theorem map_dist_of_empty (h0 : sr.numnodes = 0) {offers : List Offer}
    (h : ∀ o ∈ offers, o.sa.family = sr.af) :
    (sr.insertAll offers).nodes.map (fun n => sr.id.dist n.id) =
      least searchNodes (offers.map fun o => sr.id.dist o.id).toFinset := by
  have hnil : sr.nodes = [] := List.length_eq_zero_iff.mp (sr.length_nodes.trans h0)
  rw [map_dist_insertAll h ∅ (by rw [hnil, least_empty]; rfl), Finset.union_empty]

/-- **A search keeps the closest candidates.** After any calls of its family on an empty search the
nodes are the 14 closest of the distinct ids offered, whatever the order of the calls, and no token
is longer than its array; `flush_search_node` takes one node out of any search. -/
theorem closest_kept (h0 : sr.numnodes = 0) {offers : List Offer}
    (h : ∀ o ∈ offers, o.sa.family = sr.af) :
    Selects sr.id.dist searchNodes (offers.map Offer.id)
        ((sr.insertAll offers).nodes.map SearchNode.id) ∧
      ((sr.insertAll offers).nodes.map SearchNode.id).Nodup ∧
      (sr.insertAll offers).nodes.length =
        min searchNodes (offers.map Offer.id).toFinset.card ∧
      (∀ offers' : List Offer, (∀ o ∈ offers', o.sa.family = sr.af) →
        (∀ id, id ∈ offers'.map Offer.id ↔ id ∈ offers.map Offer.id) →
        (sr.insertAll offers').nodes.map SearchNode.id =
          (sr.insertAll offers).nodes.map SearchNode.id) ∧
      (∀ n ∈ (sr.insertAll offers).nodes, n.token.length < 40) ∧
      ∀ (sr' : SearchArray) (i : ℕ), i < sr'.numnodes →
        (sr'.flushSearchNode i).nodes = sr'.nodes.eraseIdx i := by
  have hnil : sr.nodes = [] := List.length_eq_zero_iff.mp (sr.length_nodes.trans h0)
  have hdist (os : List Offer) (hos : ∀ o ∈ os, o.sa.family = sr.af) :
      ((sr.insertAll os).nodes.map SearchNode.id).map sr.id.dist =
        least searchNodes ((os.map Offer.id).map sr.id.dist).toFinset := by
    rw [List.map_map, List.map_map]
    exact map_dist_of_empty h0 hos
  have hmem : ∀ n ∈ (sr.insertAll offers).nodes, n.id ∈ offers.map Offer.id := by
    apply forall_insertAll (P := fun n => n.id ∈ offers.map Offer.id) h
    · rw [hnil]
      exact fun n hn => absurd hn List.not_mem_nil
    · exact fun o ho => List.mem_map_of_mem ho
    · intro o _ n hn
      rwa [id_update]
  have hsel : Selects sr.id.dist searchNodes (offers.map Offer.id)
      ((sr.insertAll offers).nodes.map SearchNode.id) := by
    apply selects_of_map_eq (hdist offers h)
    intro id hid
    obtain ⟨n, hn, rfl⟩ := List.mem_map.mp hid
    exact hmem n hn
  refine ⟨hsel, ?_, ?_, ?_, ?_, ?_⟩
  · exact hsel.increasing.imp fun hlt he => hlt.ne (congrArg sr.id.dist he)
  · rw [← card_map_key sr.id.dist_injective, ← hsel.length_kept, List.length_map]
  · intro offers' h' hsame
    have hset : ((offers'.map Offer.id).map sr.id.dist).toFinset =
        ((offers.map Offer.id).map sr.id.dist).toFinset := by
      ext d
      simp only [List.mem_toFinset, List.mem_map (f := sr.id.dist), hsame]
    apply eq_of_map_eq fun a _ b _ hab => sr.id.dist_injective hab
    rw [hdist offers' h', hdist offers h, hset]
  · apply forall_insertAll (P := fun n => n.token.length < 40) h
    · rw [hnil]
      exact fun n hn => absurd hn List.not_mem_nil
    · exact fun o _ => Nat.zero_lt_succ 39
    · exact fun o _ n hn => length_token_update hn
  · exact fun sr' i hi => nodes_flushSearchNode hi

/-- Two calls with an IPv4 address on a new search, the farther id first. -/
theorem closest_kept_two :
    Selects (callocSearchArray afInet Id.zeroes).id.dist searchNodes
        [Id.zeroes.setBit 0, Id.zeroes.setBit 1]
        (((callocSearchArray afInet Id.zeroes).insertAll
          [⟨0, Id.zeroes.setBit 0, sockaddrIn [10, 0, 0, 1] [1, 1], 16, false, none⟩,
            ⟨0, Id.zeroes.setBit 1, sockaddrIn [10, 0, 0, 2] [1, 1], 16, true,
              some [7]⟩]).nodes.map SearchNode.id) :=
  (@closest_kept (callocSearchArray afInet Id.zeroes) rfl
    [⟨0, Id.zeroes.setBit 0, sockaddrIn [10, 0, 0, 1] [1, 1], 16, false, none⟩,
      ⟨0, Id.zeroes.setBit 1, sockaddrIn [10, 0, 0, 2] [1, 1], 16, true, some [7]⟩]
    (by decide)).1

end SearchArray

end DtnDht
