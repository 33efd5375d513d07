import DtnDht.Id

/-!
# The tables of lookups and announcements

A `struct list` is the list of its entries, and a pointer to an entry of it the first entry with
its key. `cleanUpList` keeps no pointer to the entry before the current one, so that deleting an
entry also drops all entries before it.
-/

namespace DtnDht

/-! ## The clock -/

/-- The values `time(NULL)` returns from now on. -/
abbrev Clock := ℕ → ℤ

/-- `time(NULL)`. -/
def time (clock : Clock) : ℤ × Clock := (clock 0, fun k => clock (k + 1))

/-! ## Entries -/

/-- `enum dht_lookup_status`. -/
inductive LookupStatus where
  | searching
  | done
  | repeatSearch
  | doneAndReadyForRepeat
  deriving DecidableEq, Repr

/-- `struct dhtentry`, without the link. -/
structure DhtEntry where
  md : Id
  announce : Bool
  status : LookupStatus
  updatetime : ℤ
  deriving DecidableEq

/-- Is this the entry of the key? -/
def DhtEntry.isFor (key : Id) (entry : DhtEntry) : Bool := idCmp key entry.md = .eq

/-- `getFromList`. -/
def getFromList (key : Id) (table : List DhtEntry) : Option DhtEntry :=
  table.find? (·.isFor key)

/-- A write through the pointer `getFromList` returns. -/
def modifyEntry (key : Id) (f : DhtEntry → DhtEntry) : List DhtEntry → List DhtEntry
  | [] => []
  | entry :: table =>
    if entry.isFor key then f entry :: table else entry :: modifyEntry key f table

/-- `addToList`. -/
def addToList (key : Id) (table : List DhtEntry) (clock : Clock) : List DhtEntry × Clock :=
  let (now, clock) := time clock
  (⟨key, false, .searching, now⟩ :: table, clock)

/-- `deactivateFromList`. -/
def deactivateFromList (key : Id) (table : List DhtEntry) : List DhtEntry :=
  modifyEntry key (fun entry => { entry with announce := false }) table

/-- The loop of `cleanUpList`, `head` being `table->head` and the last list the entries from `pos`
on. -/
def cleanUpFrom (threshold : ℤ) (head : List DhtEntry) :
    List DhtEntry → Clock → List DhtEntry × Clock
  | [], clock => (head, clock)
  | pos :: next, clock =>
    let (now, clock) := time clock
    if pos.updatetime + threshold < now ∧ (pos.announce = false ∨ threshold < 0) then
      cleanUpFrom threshold next next clock
    else cleanUpFrom threshold head next clock

/-- `cleanUpList`. -/
def cleanUpList (table : List DhtEntry) (threshold : ℤ) (clock : Clock) : List DhtEntry × Clock :=
  cleanUpFrom threshold table table clock

/-! ## Keys -/

variable {key : Id} {table : List DhtEntry} {f : DhtEntry → DhtEntry} {entry : DhtEntry}

theorem isFor_iff : entry.isFor key = true ↔ entry.md = key := by
  rw [DhtEntry.isFor, decide_eq_true_iff, idCmp_eq_eq, eq_comm]

theorem getFromList_eq_none : getFromList key table = none ↔ ∀ entry ∈ table, entry.md ≠ key := by
  unfold getFromList
  simp only [List.find?_eq_none, isFor_iff, ne_eq]

theorem getFromList_eq_some (h : getFromList key table = some entry) :
    entry ∈ table ∧ entry.md = key :=
  ⟨List.mem_of_find?_eq_some h, isFor_iff.mp (List.find?_some h)⟩

/-- A write that leaves the keys alone. -/
theorem map_md_modifyEntry (hf : ∀ entry, (f entry).md = entry.md) :
    (modifyEntry key f table).map DhtEntry.md = table.map DhtEntry.md := by
  induction table with
  | nil => rfl
  | cons entry table ih =>
    unfold modifyEntry
    split_ifs
    · rw [List.map_cons, List.map_cons, hf]
    · rw [List.map_cons, List.map_cons, ih]

/-- In a table without duplicate keys a write changes the entry of the key alone. -/
theorem mem_modifyEntry (hkeys : (table.map DhtEntry.md).Nodup)
    (h : entry ∈ modifyEntry key f table) :
    (entry ∈ table ∧ entry.md ≠ key) ∨ ∃ old ∈ table, old.md = key ∧ entry = f old := by
  induction table with
  | nil => exact absurd h List.not_mem_nil
  | cons first table ih =>
    rw [List.map_cons, List.nodup_cons] at hkeys
    unfold modifyEntry at h
    split_ifs at h with hk
    · rw [isFor_iff] at hk
      rcases List.mem_cons.mp h with rfl | h
      · exact Or.inr ⟨first, List.mem_cons_self, hk, rfl⟩
      · refine Or.inl ⟨List.mem_cons_of_mem _ h, fun hentry => hkeys.1 ?_⟩
        rw [hk, ← hentry]
        exact List.mem_map_of_mem h
    · rcases List.mem_cons.mp h with rfl | h
      · exact Or.inl ⟨List.mem_cons_self, fun hentry => hk (isFor_iff.mpr hentry)⟩
      · rcases ih hkeys.2 h with ⟨hin, hne⟩ | ⟨old, hin, hold⟩
        · exact Or.inl ⟨List.mem_cons_of_mem _ hin, hne⟩
        · exact Or.inr ⟨old, List.mem_cons_of_mem _ hin, hold⟩

theorem cleanUpFrom_suffix (threshold : ℤ) {head pos : List DhtEntry} (h : pos <:+ head)
    (clock : Clock) : (cleanUpFrom threshold head pos clock).1 <:+ head := by
  induction pos generalizing head clock with
  | nil => exact List.suffix_rfl
  | cons entry next ih =>
    have hnext : next <:+ head := (List.suffix_cons entry next).trans h
    unfold cleanUpFrom
    dsimp only
    split_ifs
    · exact (ih List.suffix_rfl _).trans hnext
    · exact ih hnext _

/-- Cleaning up leaves a rest of the table. -/
theorem cleanUpList_suffix (table : List DhtEntry) (threshold : ℤ) (clock : Clock) :
    (cleanUpList table threshold clock).1 <:+ table :=
  cleanUpFrom_suffix threshold List.suffix_rfl clock

end DtnDht
