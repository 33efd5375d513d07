import DtnDht.SearchNodes
import DtnDht.World
import Mathlib.Data.List.Chain

/-!
# Reusing an old search

`dht_search` walks the nodes of an old search, flushes the doubtful ones and resets the others.
`flush_search_node` moves the next node to the place of the flushed one, and the loop goes on to
the place behind it (`nodes_resetFrom`). So a node right behind a flushed one is neither tested nor
reset, and the walk does what it is for only if no such node needs it.
-/

namespace DtnDht

namespace SearchNode

/-- "Discard any doubtful nodes." -/
def doubtful (now : ℤ) (n : SearchNode) : Bool := 3 ≤ n.pinged ∨ n.replyTime < now - 7200

/-- What `dht_search` writes to a node it keeps. -/
def reset (n : SearchNode) : SearchNode :=
  { n with pinged := 0, token := [], replied := false, acked := false }

theorem reset_eq_self_iff {n : SearchNode} :
    n.reset = n ↔ n.pinged = 0 ∧ n.token = [] ∧ n.replied = false ∧ n.acked = false := by
  obtain ⟨_, _, _, _, _, _, _, _, _, _⟩ := n
  unfold reset
  simp only [SearchNode.mk.injEq, true_and, and_true]
  constructor
  · rintro ⟨h1, h2, h3, h4⟩
    exact ⟨h1.symm, h2.symm, h3.symm, h4.symm⟩
  · rintro ⟨h1, h2, h3, h4⟩
    exact ⟨h1.symm, h2.symm, h3.symm, h4.symm⟩

end SearchNode

variable {now : ℤ} {nodes : List SearchNode}

/-! ## The loop on the array -/

namespace SearchArray

/-- A write to cell `i`. -/
def modifyCell (sr : SearchArray) (i : ℕ) (f : SearchNode → SearchNode) : SearchArray :=
  { sr with
    cells := sr.cells.modify i f
    length_cells := by rw [List.length_modify, sr.length_cells] }

/-- The loop of `dht_search` over the nodes of an old search, from `i` on for up to `k` rounds. -/
def resetFrom (now : ℤ) : ℕ → ℕ → SearchArray → SearchArray
  | 0, _, sr => sr
  | k + 1, i, sr =>
    if i < sr.numnodes then
      if (sr.cells[i]?).any (·.doubtful now) then resetFrom now k (i + 1) (sr.flushSearchNode i)
      else resetFrom now k (i + 1) (sr.modifyCell i SearchNode.reset)
    else sr

theorem resetFrom_of_le {sr : SearchArray} {k i : ℕ} (h : sr.numnodes ≤ i) :
    sr.resetFrom now k i = sr := by
  cases k with
  | zero => rfl
  | succ k =>
    unfold resetFrom
    rw [if_neg (not_lt.mpr h)]

theorem nodes_modifyCell (sr : SearchArray) (i : ℕ) (f : SearchNode → SearchNode) :
    (sr.modifyCell i f).nodes = sr.nodes.modify i f := List.take_modify ..

end SearchArray

theorem resetNodes_cons (n : SearchNode) : resetNodes now (n :: nodes) =
    if n.doubtful now then
      match nodes with
      | [] => []
      | m :: nodes => m :: resetNodes now nodes
    else n.reset :: resetNodes now nodes := by
  simp only [SearchNode.doubtful, decide_eq_true_eq]
  cases nodes <;> rfl

/-- **The loop on the array** does what `resetNodes` does on the list. -/
theorem nodes_resetFrom {sr : SearchArray} {k : ℕ} {passed rest : List SearchNode}
    (h : sr.nodes = passed ++ rest) (hk : rest.length ≤ k) :
    (sr.resetFrom now k passed.length).nodes = passed ++ resetNodes now rest := by
  induction k generalizing sr passed rest with
  | zero =>
    obtain rfl : rest = [] := List.length_eq_zero_iff.mp (Nat.le_zero.mp hk)
    rw [List.append_nil] at h
    exact h.trans (List.append_nil _).symm
  | succ k ih =>
    have hnum : sr.numnodes = passed.length + rest.length := by
      rw [← sr.length_nodes, h, List.length_append]
    unfold SearchArray.resetFrom
    cases rest with
    | nil =>
      rw [if_neg (by rw [hnum]; exact lt_irrefl _), h]
      rfl
    | cons n rest =>
      rw [List.length_cons] at hnum hk
      have hlt : passed.length < sr.numnodes := by omega
      have hcell : sr.cells[passed.length]? = some n := by
        have hn : sr.nodes[passed.length]? = some n := by
          rw [h, List.getElem?_append_right le_rfl, Nat.sub_self, List.getElem?_cons_zero]
        unfold SearchArray.nodes at hn
        rwa [List.getElem?_take_of_lt hlt] at hn
      rw [if_pos hlt, hcell, Option.any_some, resetNodes_cons]
      by_cases hd : n.doubtful now = true
      · rw [if_pos hd, if_pos hd]
        have hflush : (sr.flushSearchNode passed.length).nodes = passed ++ rest := by
          rw [SearchArray.nodes_flushSearchNode hlt, h, List.eraseIdx_append_of_length_le le_rfl,
            Nat.sub_self]
          rfl
        cases rest with
        | nil =>
          rw [List.append_nil] at hflush
          have hnum' : (sr.flushSearchNode passed.length).numnodes ≤ passed.length + 1 := by
            rw [← SearchArray.length_nodes, hflush]
            exact Nat.le_succ _
          rw [SearchArray.resetFrom_of_le hnum', hflush, List.append_nil]
        | cons m rest =>
          have hm : (sr.flushSearchNode passed.length).nodes = (passed ++ [m]) ++ rest := by
            rw [hflush, List.append_assoc, List.singleton_append]
          rw [List.length_cons] at hk
          have := ih hm (by omega)
          rw [List.length_append, List.length_singleton] at this
          rw [this, List.append_assoc, List.singleton_append]
      · rw [if_neg hd, if_neg hd]
        have hreset : (sr.modifyCell passed.length SearchNode.reset).nodes =
            (passed ++ [n.reset]) ++ rest := by
          rw [SearchArray.nodes_modifyCell, h, List.append_assoc, List.singleton_append]
          exact List.modify_append_cons _ _ _ _
        have := ih hreset (by omega)
        rw [List.length_append, List.length_singleton] at this
        rw [this, List.append_assoc, List.singleton_append]

/-! ## When the loop resets the search -/

/-- What the loop is for: the nodes that are not doubtful, reset. -/
def resetAll (now : ℤ) (nodes : List SearchNode) : List SearchNode :=
  (nodes.filter fun n => !n.doubtful now).map SearchNode.reset

theorem resetAll_cons (n : SearchNode) : resetAll now (n :: nodes) =
    if n.doubtful now then resetAll now nodes else n.reset :: resetAll now nodes := by
  unfold resetAll
  rw [List.filter_cons]
  cases n.doubtful now <;> rfl

/-- A node behind a flushed one stays, so the loop never leaves fewer nodes. -/
theorem length_resetAll_le : (resetAll now nodes).length ≤ (resetNodes now nodes).length := by
  induction nodes using resetNodes.induct now with
  | case1 => exact Nat.zero_le _
  | case2 n hd =>
    have hd' : n.doubtful now = true := decide_eq_true hd
    rw [resetAll_cons, if_pos hd']
    exact Nat.zero_le _
  | case3 n hd m nodes ih =>
    have hd' : n.doubtful now = true := decide_eq_true hd
    rw [resetAll_cons, if_pos hd', resetAll_cons, resetNodes_cons, if_pos hd']
    split_ifs
    · exact ih.trans (Nat.le_succ _)
    · exact Nat.succ_le_succ ih
  | case4 n nodes hd ih =>
    have hd' : ¬ n.doubtful now = true := fun h => hd (of_decide_eq_true h)
    rw [resetAll_cons, if_neg hd', resetNodes_cons, if_neg hd']
    exact Nat.succ_le_succ ih

/-- Each node right behind a doubtful one is not doubtful and needs no reset. -/
def NothingPassedOver (now : ℤ) (nodes : List SearchNode) : Prop :=
  nodes.IsChain fun n m => n.doubtful now = true → m.doubtful now = false ∧ m.reset = m

theorem resetNodes_eq_resetAll_iff :
    resetNodes now nodes = resetAll now nodes ↔ NothingPassedOver now nodes := by
  unfold NothingPassedOver
  induction nodes using resetNodes.induct now with
  | case1 => exact ⟨fun _ => List.isChain_nil, fun _ => rfl⟩
  | case2 n hd =>
    have hd' : n.doubtful now = true := decide_eq_true hd
    rw [resetNodes_cons, if_pos hd', resetAll_cons, if_pos hd']
    exact ⟨fun _ => List.isChain_singleton n, fun _ => rfl⟩
  | case3 n hd m nodes ih =>
    have hd' : n.doubtful now = true := decide_eq_true hd
    rw [resetNodes_cons, if_pos hd', resetAll_cons, if_pos hd', resetAll_cons,
      List.isChain_cons_cons]
    by_cases hm : m.doubtful now = true
    · rw [if_pos hm]
      constructor
      · -- the node passed over is one too many
        intro h
        have hlen := congrArg List.length h
        have hle : (resetAll now nodes).length ≤ (resetNodes now nodes).length :=
          length_resetAll_le
        rw [List.length_cons] at hlen
        omega
      · rintro ⟨h, -⟩
        exact absurd hm (by rw [(h hd').1]; exact Bool.false_ne_true)
    · rw [if_neg hm, List.cons.injEq, ih]
      have hm' : m.doubtful now = false := eq_false_of_ne_true hm
      constructor
      · rintro ⟨hreset, hrest⟩
        refine ⟨fun _ => ⟨hm', hreset.symm⟩, ?_⟩
        cases nodes with
        | nil => exact List.isChain_singleton m
        | cons k nodes => exact List.isChain_cons_cons.mpr ⟨fun h => absurd h hm, hrest⟩
      · rintro ⟨h, hrest⟩
        exact ⟨(h hd').2.symm, hrest.tail⟩
  | case4 n nodes hd ih =>
    have hd' : ¬ n.doubtful now = true := fun h => hd (of_decide_eq_true h)
    rw [resetNodes_cons, if_neg hd', resetAll_cons, if_neg hd', List.cons.injEq, ih]
    constructor
    · rintro ⟨-, hrest⟩
      cases nodes with
      | nil => exact List.isChain_singleton n
      | cons m nodes => exact List.isChain_cons_cons.mpr ⟨fun h => absurd h hd', hrest⟩
    · intro h
      exact ⟨rfl, h.tail⟩

/-! ## Searching again -/

namespace World

variable {w : World} {id : Id} {af i : ℕ} {sr : Search}

theorem searches_searchSlot (hi : w.findIdx id af = some i) (hsr : w.searches[i]? = some sr) :
    (w.searchSlot id af).1 = some i ∧
      (w.searchSlot id af).2.searches[i]? = some (sr.restart w.now) := by
  unfold searchSlot
  rw [hi]
  refine ⟨rfl, ?_⟩
  dsimp only
  rw [List.getElem?_modify_eq, hsr]
  rfl

/-- **Reusing a search resets it** exactly when the loop passes over nothing: before new nodes are
put in, the search holds its nodes that are not doubtful, all reset. -/
theorem reused_search_reset_iff (hi : w.findIdx id af = some i)
    (hsr : w.searches[i]? = some sr) :
    ((w.searchSlot id af).1 = some i ∧
      ((w.searchSlot id af).2.searches[i]?).map Search.nodes =
        some ((sr.nodes.filter fun n => !n.doubtful w.now).map SearchNode.reset)) ↔
      NothingPassedOver w.now sr.nodes := by
  obtain ⟨hslot, hsearch⟩ := searches_searchSlot hi hsr
  rw [hsearch, Option.map_some, Option.some.injEq, ← resetNodes_eq_resetAll_iff]
  exact ⟨fun h => h.2, fun h => ⟨hslot, h⟩⟩

end World

/-- A process with one search for IPv4 peers, done, over these nodes. -/
def searchedBefore (nodes : List SearchNode) : World :=
  { World.initial (Env.still 10000) with
    now := 10000
    searches := [⟨0, afInet, 9000, Id.zeroes, 80, true, nodes⟩]
    numsearches := 1 }

/-- A node that has not replied for two hours. -/
def silentNode : SearchNode :=
  { callocSearchNode (Id.zeroes.setBit 1) with replyTime := 1000 }

/-- A node that has acknowledged the last announcement. -/
def ackedNode : SearchNode :=
  { callocSearchNode (Id.zeroes.setBit 0) with
    replyTime := 9000
    token := [7]
    replied := true
    acked := true }

/-- Behind a silent node the one that acknowledged the last announcement keeps its `acked`, so the
next announcement is not sent to it. -/
theorem World.not_reset_acked :
    (((searchedBefore [silentNode, ackedNode]).searchSlot Id.zeroes afInet).2.searches[0]?).map
        Search.nodes = some [ackedNode] ∧
      some [ackedNode] ≠
        some (([silentNode, ackedNode].filter fun n => !n.doubtful 10000).map SearchNode.reset) := by
  decide +kernel

/-- In the other order both are treated right. -/
theorem World.reused_search_reset_iff_acked :
    (((searchedBefore [ackedNode, silentNode]).searchSlot Id.zeroes afInet).1 = some 0 ∧
      (((searchedBefore [ackedNode, silentNode]).searchSlot Id.zeroes afInet).2.searches[0]?).map
          Search.nodes =
        some (([ackedNode, silentNode].filter fun n => !n.doubtful 10000).map SearchNode.reset)) ↔
      NothingPassedOver 10000 [ackedNode, silentNode] :=
  @World.reused_search_reset_iff (searchedBefore [ackedNode, silentNode]) Id.zeroes afInet 0
    ⟨0, afInet, 9000, Id.zeroes, 80, true, [ackedNode, silentNode]⟩ (by decide +kernel) rfl

end DtnDht
