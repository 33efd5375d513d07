import DtnDht.Table

/-!
# Cleaning up a table

`cleanUpList` walks a singly linked list with the cursors `pos`, `prev` and `next`. The memory is
a map from addresses to entries; a list in it is a chain of these (`Chain`). `prev` is never set,
so the branch that unlinks an entry behind another is dead and every deletion makes the head of
the list what comes behind the deleted entry (`cleanUpLoop_spec`). What is left is a filter of the
table when no surviving entry stands before an expired one, and only then.
-/

namespace DtnDht

/-! ## Expiry -/

/-- Is an entry expired at time `now`? -/
def DhtEntry.expired (now threshold : ℤ) (entry : DhtEntry) : Bool :=
  entry.updatetime + threshold < now ∧ (entry.announce = false ∨ threshold < 0)

variable {now threshold : ℤ} {table head : List DhtEntry}

theorem cleanUpFrom_cons (entry : DhtEntry) :
    (cleanUpFrom threshold head (entry :: table) fun _ => now).1 =
      (cleanUpFrom threshold (if entry.expired now threshold then table else head) table
        fun _ => now).1 := by
  rw [cleanUpFrom]
  dsimp only [time]
  simp only [DhtEntry.expired, decide_eq_true_eq]
  split_ifs <;> rfl

/-- A loop over the rest of a table leaves what is behind the last expired entry of it. -/
theorem cleanUpFrom_split (seen : List DhtEntry)
    (hseen : ∀ entry ∈ seen, entry.expired now threshold = false) :
    ∃ gone, seen ++ table = gone ++
        (cleanUpFrom threshold (seen ++ table) table fun _ => now).1 ∧
      (∀ entry ∈ (cleanUpFrom threshold (seen ++ table) table fun _ => now).1,
        entry.expired now threshold = false) ∧
      ∀ entry ∈ gone.getLast?, entry.expired now threshold = true := by
  induction table generalizing seen with
  | nil =>
    rw [List.append_nil]
    exact ⟨[], rfl, hseen, fun entry h => absurd h (by simp)⟩
  | cons entry table ih =>
    rw [cleanUpFrom_cons]
    cases hexp : entry.expired now threshold with
    | true =>
      obtain ⟨gone, heq, hout, hlast⟩ := ih [] fun entry h => absurd h List.not_mem_nil
      rw [List.nil_append] at heq hout
      rw [if_pos rfl]
      refine ⟨seen ++ entry :: gone, ?_, hout, fun last hl => ?_⟩
      · rw [List.append_assoc, List.cons_append, ← heq]
      · rw [List.getLast?_append, List.getLast?_cons] at hl
        cases hg : gone.getLast? with
        | none =>
          rw [hg] at hl
          obtain rfl : entry = last := by simpa using hl
          exact hexp
        | some last' =>
          rw [hg] at hl
          obtain rfl : last' = last := by simpa using hl
          exact hlast last' hg
    | false =>
      have hmove : seen ++ entry :: table = (seen ++ [entry]) ++ table := by
        rw [List.append_assoc, List.singleton_append]
      rw [if_neg Bool.false_ne_true, hmove]
      apply ih
      intro e he
      rcases List.mem_append.mp he with he | he
      · exact hseen e he
      · rw [List.mem_singleton.mp he]
        exact hexp

/-! ## The list in memory -/

/-- A `struct dhtentry` in memory. -/
structure Cell where
  entry : DhtEntry
  next : Option ℕ

/-- The entries by address; one that is freed is gone. -/
abbrev Heap := ℕ → Option Cell

/-- The entries of a list with their addresses, from a pointer on. -/
def Chain (heap : Heap) : Option ℕ → List (ℕ × DhtEntry) → Prop
  | p, [] => p = none
  | p, (a, entry) :: cells =>
    p = some a ∧ ∃ next, heap a = some ⟨entry, next⟩ ∧ Chain heap next cells

/-- The variables of `cleanUpList`, with `table->head` and the memory. -/
structure Cursors where
  heap : Heap
  head : Option ℕ
  pos : Option ℕ
  prev : Option ℕ
  next : Option ℕ
  isempty : Bool

/-- One round of the loop of `cleanUpList`, `pos` being `p` and `cell` what it points to. -/
def cleanUpRound (threshold now : ℤ) (c : Cursors) (p : ℕ) (cell : Cell) : Cursors :=
  let c :=
    if cell.entry.expired now threshold then
      let c := { c with next := cell.next }
      let c := match c.prev with
        | some q =>
          { c with
            heap := Function.update c.heap q
              ((c.heap q).map fun cell : Cell => { cell with next := c.next }) }
        | none => { c with head := c.next }
      { c with heap := Function.update c.heap p none, pos := none }
    else { c with isempty := false }
  let c := { c with prev := c.prev.bind fun q => (c.heap q).bind Cell.next }
  match c.pos with
  | some p => { c with pos := (c.heap p).bind Cell.next }
  | none => { c with pos := c.next }

/-- The loop of `cleanUpList`; none when it has not ended after so many rounds. -/
def cleanUpLoop (threshold now : ℤ) : ℕ → Cursors → Option (Heap × Option ℕ)
  | 0, _ => none
  | fuel + 1, c =>
    match c.pos with
    | none => some (c.heap, if c.isempty then none else c.head)
    | some p =>
      match c.heap p with
      | none => none
      | some cell => cleanUpLoop threshold now fuel (cleanUpRound threshold now c p cell)

/-- A chain does not depend on memory outside it. -/
theorem Chain.update {heap : Heap} {a : ℕ} {cell : Option Cell} {cells : List (ℕ × DhtEntry)}
    {p : Option ℕ} (h : Chain heap p cells) (ha : a ∉ cells.map Prod.fst) :
    Chain (Function.update heap a cell) p cells := by
  induction cells generalizing p with
  | nil => exact h
  | cons first cells ih =>
    rw [List.map_cons, List.mem_cons, not_or] at ha
    obtain ⟨rfl, next, hfirst, hrest⟩ := h
    exact ⟨rfl, next, by rw [Function.update_of_ne (Ne.symm ha.1)]; exact hfirst, ih hrest ha.2⟩

/-- **The loop in memory** leaves the chain of the entries that the loop on lists leaves. -/
theorem cleanUpLoop_spec {heap : Heap} {hd pos next : Option ℕ} {isempty : Bool}
    {seen cells : List (ℕ × DhtEntry)} (hhead : Chain heap hd (seen ++ cells))
    (hpos : Chain heap pos cells) (hnodup : ((seen ++ cells).map Prod.fst).Nodup)
    (hempty : isempty = true → seen = []) :
    ∃ heap' hd' out,
      cleanUpLoop threshold now (cells.length + 1) ⟨heap, hd, pos, none, next, isempty⟩ =
        some (heap', hd') ∧
      Chain heap' hd' out ∧
      out.map Prod.snd = (cleanUpFrom threshold ((seen ++ cells).map Prod.snd)
        (cells.map Prod.snd) fun _ => now).1 := by
  induction cells generalizing heap hd pos next isempty seen with
  | nil =>
    obtain rfl : pos = none := hpos
    rw [List.append_nil] at *
    refine ⟨heap, if isempty then none else hd, seen, rfl, ?_, rfl⟩
    split_ifs with he
    · rw [hempty he]
      rfl
    · exact hhead
  | cons cell cells ih =>
    obtain ⟨a, entry⟩ := cell
    obtain ⟨rfl, next', hcell, hrest⟩ := hpos
    have hloop : cleanUpLoop threshold now ((a, entry) :: cells).length.succ
        ⟨heap, hd, some a, none, next, isempty⟩ = cleanUpLoop threshold now (cells.length + 1)
          (cleanUpRound threshold now ⟨heap, hd, some a, none, next, isempty⟩ a
            ⟨entry, next'⟩) := by
      rw [cleanUpLoop]
      dsimp only
      rw [hcell]
      rfl
    rw [hloop, List.map_cons, cleanUpFrom_cons]
    unfold cleanUpRound
    dsimp only
    cases hexp : entry.expired now threshold with
    | true =>
      have ha : a ∉ cells.map Prod.fst := by
        rw [List.map_append, List.map_cons] at hnodup
        exact (List.nodup_cons.mp (List.nodup_append.mp hnodup).2.1).1
      have hnodup' : (([] ++ cells).map Prod.fst).Nodup := by
        rw [List.map_append, List.map_cons] at hnodup
        exact (List.nodup_cons.mp (List.nodup_append.mp hnodup).2.1).2
      have hchain : Chain (Function.update heap a none) next' cells := hrest.update ha
      exact ih hchain hchain hnodup' fun _ => rfl
    | false =>
      have hmove : seen ++ (a, entry) :: cells = (seen ++ [(a, entry)]) ++ cells := by
        rw [List.append_assoc, List.singleton_append]
      rw [hmove] at hhead hnodup ⊢
      have hnext : (heap a).bind Cell.next = next' := by rw [hcell]; rfl
      simp only [if_neg Bool.false_ne_true, Option.bind_none, hnext]
      exact ih hhead hrest hnodup fun h => absurd h Bool.false_ne_true

/-- From the start of a list the loop ends with what `cleanUpList` leaves. -/
theorem cleanUpLoop_refines {heap : Heap} {hd : Option ℕ} {cells : List (ℕ × DhtEntry)}
    (h : Chain heap hd cells) (hnodup : (cells.map Prod.fst).Nodup) :
    ∃ heap' hd' out,
      cleanUpLoop threshold now (cells.length + 1) ⟨heap, hd, hd, none, none, true⟩ =
        some (heap', hd') ∧
      Chain heap' hd' out ∧
      out.map Prod.snd = (cleanUpList (cells.map Prod.snd) threshold fun _ => now).1 := by
  have hseen : Chain heap hd ([] ++ cells) := h
  exact cleanUpLoop_spec hseen h hnodup fun _ => rfl

/-- **`cleanUpList` is a filter** of the table exactly when every entry before an expired one is
expired too. -/
theorem cleanUpList_eq_filter_iff (table : List DhtEntry) (threshold now : ℤ) :
    (cleanUpList table threshold fun _ => now).1 =
        table.filter (fun entry => !entry.expired now threshold) ↔
      table.Pairwise fun a b =>
        b.expired now threshold = true → a.expired now threshold = true := by
  obtain ⟨gone, heq, hout, hlast⟩ := @cleanUpFrom_split now threshold table [] fun entry h =>
    absurd h List.not_mem_nil
  rw [List.nil_append] at heq hout
  unfold cleanUpList
  generalize (cleanUpFrom threshold table table fun _ => now).1 = out at heq hout
  subst heq
  have hfilter : out.filter (fun entry => !entry.expired now threshold) = out := by
    apply List.filter_eq_self.mpr
    intro entry h
    rw [hout entry h]
    rfl
  rw [List.filter_append, hfilter, List.self_eq_append_left, List.filter_eq_nil_iff,
    List.pairwise_append]
  simp only [Bool.not_eq_true', Bool.not_eq_false]
  constructor
  · intro hgone
    refine ⟨List.pairwise_of_forall_mem_list fun a ha b _ _ => hgone a ha,
      List.pairwise_of_forall_mem_list fun a _ b hb h => ?_, fun a _ b hb h => ?_⟩
    · exact absurd h (by rw [hout b hb]; exact Bool.false_ne_true)
    · exact absurd h (by rw [hout b hb]; exact Bool.false_ne_true)
  · rintro ⟨hpair, -, -⟩ a ha
    rcases List.eq_nil_or_concat' gone with rfl | ⟨init, last, rfl⟩
    · exact absurd ha List.not_mem_nil
    · have hl : last.expired now threshold = true := hlast last (by simp)
      rcases List.mem_append.mp ha with ha | ha
      · exact (List.pairwise_append.mp hpair).2.2 a ha last List.mem_cons_self hl
      · rw [List.mem_singleton.mp ha]
        exact hl

/-- A lookup just started, in front of one that is older than 1800 seconds: both are lost. -/
theorem cleanUpList_ne_filter :
    (cleanUpList [⟨Id.zeroes, false, .searching, 5000⟩, ⟨Id.zeroes.setBit 0, false, .done, 1000⟩]
        1800 fun _ => 5000).1 ≠
      [⟨Id.zeroes, false, .searching, 5000⟩, ⟨Id.zeroes.setBit 0, false, .done, 1000⟩].filter
        (fun entry => !entry.expired 5000 1800) := by
  decide

end DtnDht
