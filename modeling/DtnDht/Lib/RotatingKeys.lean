import Mathlib.Data.List.Nodup

/-!
# Tokens under rotating keys

A server authenticates addresses by tokens: the token of an address is a function of a key and the
address. The key is replaced from time to time, and tokens of the current and of the previous key
are accepted. If the keys are fresh and the function injective on what occurs, then a token is
accepted for an address if and only if it was issued to it with at most one rotation since
(`accepts_iff`), but for the tokens of the key that was there before the first one.

A history is a list of events, the latest first.
-/

namespace RotatingKeys

variable {K A T : Type*}

/-- What happens at the server. -/
inductive Event (K A : Type*) where
  | rotate (key : K)
  | issue (addr : A)

/-- A token, to whom it was issued, and the number of rotations since. -/
structure Issue (A T : Type*) where
  token : T
  addr : A
  later : ℕ

/-- The keys drawn, the latest first. -/
def drawn (first : K) : List (Event K A) → List K
  | [] => [first]
  | .rotate key :: past => key :: drawn first past
  | .issue _ :: past => drawn first past

/-- The tokens issued. -/
def issued (mac : K → A → T) (first : K) : List (Event K A) → List (Issue A T)
  | [] => []
  | .rotate _ :: past => (issued mac first past).map fun i => { i with later := i.later + 1 }
  | .issue addr :: past =>
    ⟨mac ((drawn first past).headD first) addr, addr, 0⟩ :: issued mac first past

/-- The keys whose tokens are accepted: the current one and the one before it, which is `zeroth` as
long as there was no rotation. -/
def accepted (zeroth first : K) (past : List (Event K A)) : List K :=
  (drawn first past ++ [zeroth]).take 2

variable {mac : K → A → T} {zeroth first : K} {past : List (Event K A)}

theorem drawn_ne_nil (first : K) (past : List (Event K A)) : drawn first past ≠ [] := by
  induction past with
  | nil => exact List.cons_ne_nil _ _
  | cons e past ih =>
    cases e with
    | rotate key => exact List.cons_ne_nil _ _
    | issue addr => exact ih

/-- The second of the accepted keys is `zeroth` if and only if there was no rotation. -/
theorem length_drawn_eq_one (first : K) (past : List (Event K A)) :
    (drawn first past).length = 1 ↔ ∀ key, .rotate key ∉ past := by
  induction past with
  | nil => simp [drawn]
  | cons e past ih =>
    cases e with
    | rotate key =>
      have hpos := List.length_pos_iff.mpr (drawn_ne_nil first past)
      refine iff_of_false ?_ fun h => h key List.mem_cons_self
      rw [drawn, List.length_cons]
      omega
    | issue addr => simpa [drawn] using ih

/-- A token is the one of the key that was current when it was issued. -/
theorem token_of_mem_issued {i : Issue A T} (h : i ∈ issued mac first past) :
    ∃ key, (drawn first past)[i.later]? = some key ∧ i.token = mac key i.addr := by
  induction past generalizing i with
  | nil => exact absurd h List.not_mem_nil
  | cons e past ih =>
    cases e with
    | rotate key =>
      obtain ⟨j, hj, rfl⟩ := List.mem_map.mp h
      exact ih hj
    | issue addr =>
      rcases List.mem_cons.mp h with rfl | h
      · obtain ⟨key, rest, hd⟩ := List.exists_cons_of_ne_nil (drawn_ne_nil first past)
        have hk : drawn first (.issue addr :: past) = key :: rest := hd
        refine ⟨key, by rw [hk]; rfl, ?_⟩
        rw [hd]
        rfl
      · exact ih h

/-- An address and those that tokens were issued to. -/
def addresses (mac : K → A → T) (first : K) (past : List (Event K A)) (addr : A) : List A :=
  addr :: (issued mac first past).map Issue.addr

/-- The keys are fresh, the function is injective on the keys and the addresses that occur, and the
token is the one of a drawn key only if it was issued: nobody else knows the keys. -/
structure Secret (mac : K → A → T) (zeroth first : K) (past : List (Event K A)) (addr : A)
    (token : T) : Prop where
  fresh : (drawn first past ++ [zeroth]).Nodup
  inj : ∀ key ∈ drawn first past ++ [zeroth], ∀ key' ∈ drawn first past ++ [zeroth],
    ∀ a ∈ addresses mac first past addr, ∀ a' ∈ addresses mac first past addr,
    mac key a = mac key' a' → key = key' ∧ a = a'
  unknown : ∀ key ∈ drawn first past, ∀ a ∈ addresses mac first past addr, token = mac key a →
    ∃ i ∈ issued mac first past, i.token = token

variable {token : T} {addr : A}

theorem mem_addresses {i : Issue A T} (h : i ∈ issued mac first past) (addr : A) :
    i.addr ∈ addresses mac first past addr :=
  List.mem_cons_of_mem _ (List.mem_map_of_mem h)

/-- A token of the drawn key at a place was issued with that many rotations since. -/
theorem Secret.issued (h : Secret mac zeroth first past addr token)
    {n : ℕ} {key : K} (hkey : (drawn first past)[n]? = some key) (ht : token = mac key addr) :
    ∃ i ∈ issued mac first past, i.token = token ∧ i.addr = addr ∧ i.later = n := by
  have hmem := List.mem_of_getElem? hkey
  have haddr : addr ∈ addresses mac first past addr := List.mem_cons_self
  obtain ⟨i, hi, hit⟩ := h.unknown key hmem addr haddr ht
  obtain ⟨key', hkey', hmac⟩ := token_of_mem_issued hi
  obtain ⟨rfl, ha⟩ := h.inj key' (List.mem_append_left _ (List.mem_of_getElem? hkey')) key
    (List.mem_append_left _ hmem) i.addr (mem_addresses hi addr) addr haddr
    (by rw [← hmac, hit, ht])
  have hnodup := (List.nodup_append.mp h.fresh).1
  exact ⟨i, hi, hit, ha, (List.getElem?_inj (List.getElem?_eq_some_iff.mp hkey').1
    hnodup).mp (hkey'.trans hkey.symm)⟩

/-- The accepted keys are the two latest, or the first and `zeroth`. -/
theorem mem_accepted_iff {key : K} :
    key ∈ accepted zeroth first past ↔
      (∃ n ≤ 1, (drawn first past)[n]? = some key) ∨
        ((drawn first past).length = 1 ∧ key = zeroth) := by
  obtain ⟨key0, rest, hd⟩ := List.exists_cons_of_ne_nil (drawn_ne_nil first past)
  unfold accepted
  rw [hd]
  cases rest with
  | nil =>
    constructor
    · intro h
      rcases List.mem_cons.mp h with rfl | h
      · exact Or.inl ⟨0, Nat.zero_le 1, rfl⟩
      · exact Or.inr ⟨rfl, List.mem_singleton.mp h⟩
    · rintro (⟨n, hn, h⟩ | ⟨-, rfl⟩)
      · obtain rfl | rfl : n = 0 ∨ n = 1 := by omega
        · exact List.mem_cons.mpr (Or.inl (Option.some_inj.mp h).symm)
        · exact absurd h (by simp)
      · exact List.mem_cons_of_mem _ (List.mem_singleton_self _)
  | cons key1 rest =>
    constructor
    · intro h
      rcases List.mem_cons.mp h with rfl | h
      · exact Or.inl ⟨0, Nat.zero_le 1, rfl⟩
      · exact Or.inl ⟨1, Nat.le_refl 1, congrArg some (List.mem_singleton.mp h).symm⟩
    · rintro (⟨n, hn, h⟩ | ⟨h, -⟩)
      · obtain rfl | rfl : n = 0 ∨ n = 1 := by omega
        · exact List.mem_cons.mpr (Or.inl (Option.some_inj.mp h).symm)
        · exact List.mem_cons_of_mem _ (List.mem_singleton.mpr (Option.some_inj.mp h).symm)
      · exact absurd h (by simp)

/-- **A token is accepted if and only if it was issued to the address with at most one rotation
since, or it is the one of the key before the first and there was no rotation.** -/
theorem accepts_iff (h : Secret mac zeroth first past addr token) :
    (∃ key ∈ accepted zeroth first past, mac key addr = token) ↔
      (∃ i ∈ issued mac first past, i.token = token ∧ i.addr = addr ∧ i.later ≤ 1) ∨
        ((∀ key, .rotate key ∉ past) ∧ token = mac zeroth addr) := by
  rw [← length_drawn_eq_one first]
  constructor
  · rintro ⟨key, hkey, ht⟩
    rcases mem_accepted_iff.mp hkey with ⟨n, hn, hkey⟩ | ⟨hone, rfl⟩
    · obtain ⟨i, hi, hit, ha, hlater⟩ := h.issued hkey ht.symm
      exact Or.inl ⟨i, hi, hit, ha, by omega⟩
    · exact Or.inr ⟨hone, ht.symm⟩
  · rintro (⟨i, hi, hit, ha, hlater⟩ | ⟨hone, ht⟩)
    · obtain ⟨key, hkey, hmac⟩ := token_of_mem_issued hi
      refine ⟨key, mem_accepted_iff.mpr (Or.inl ⟨i.later, hlater, hkey⟩), ?_⟩
      rw [← ha, ← hmac, hit]
    · exact ⟨zeroth, mem_accepted_iff.mpr (Or.inr ⟨hone, rfl⟩), ht.symm⟩

/-- The token of the key before the first was not issued. -/
theorem not_issued_zeroth (h : Secret mac zeroth first past addr token)
    (ht : token = mac zeroth addr) {i : Issue A T} (hi : i ∈ issued mac first past) :
    i.token ≠ token := by
  intro hit
  obtain ⟨key, hkey, hmac⟩ := token_of_mem_issued hi
  have hmem := List.mem_of_getElem? hkey
  obtain ⟨rfl, -⟩ := h.inj key (List.mem_append_left _ hmem) zeroth
    (List.mem_append_right _ (List.mem_singleton_self _)) i.addr (mem_addresses hi addr) addr
    List.mem_cons_self (by rw [← hmac, hit, ht])
  exact (List.nodup_append.mp h.fresh).2.2 key hmem key (List.mem_singleton_self _) rfl

end RotatingKeys
