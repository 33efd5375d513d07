import DtnDht.Blacklist
import Mathlib.Algebra.BigOperators.Group.Finset.Basic
import Mathlib.Data.Set.Card

/-!
# The counters of the blacklist

`blacklist_blacklist_node` counts an address when its leaf is not there yet, so that the counters
grow with the tries (`entries_run`). But `blacklist_free` leaves them alone, and they are
`unsigned int`: what `blacklist_size` returns is the number of addresses in the tries just when
`blacklist_free` has dropped none, or a multiple of `2 ^ 32` (`sizeMatches_iff`).
-/

namespace DtnDht

namespace Blacklist

/-- `blacklist_size`: what it returns, `*ipv4_return` and `*ipv6_return`. -/
def blacklistSize (bl : Blacklist) : UInt32 × UInt32 × UInt32 :=
  (UInt32.ofNat bl.numberOfEntriesIpv4 + UInt32.ofNat bl.numberOfEntriesIpv6,
    UInt32.ofNat bl.numberOfEntriesIpv4, UInt32.ofNat bl.numberOfEntriesIpv6)

/-- The numbers returned are those of the addresses in the tries. -/
structure SizeMatches (bl : Blacklist) : Prop where
  ipv4 : bl.blacklistSize.2.1.toNat = (Trie.keys 4 bl.ipv4Blacklist).ncard
  ipv6 : bl.blacklistSize.2.2.toNat = (Trie.keys 16 bl.ipv6Blacklist).ncard

/-- How many addresses of a family are stored after some calls. -/
noncomputable def stored (cs : List BlacklistCall) (af : ℕ) : ℕ := {ip | Passed cs af ip}.ncard

/-- How many addresses of a family the calls of `blacklist_free` have dropped. -/
noncomputable def dropped (cs : List BlacklistCall) (af : ℕ) : ℕ :=
  ∑ i ∈ Finset.range cs.length, match cs[i]? with
    | some .free => stored (cs.take i) af
    | _ => 0

variable {cs : List BlacklistCall} {af : ℕ} {ip : Bytes} {t : Trie UInt8 BlacklistLeaf}

/-- The count in a trie that holds the addresses of a family. -/
theorem new_eq {sa : Sockaddr} {n : ℕ} (hlen : sa.ip.length = n)
    (hkeys : Trie.keys n t = {ip | Passed cs af ip}) (hen : enabledAfter cs = true)
    (haf : sa.family = af) :
    (if !Trie.contains sa.ip t then 1 else 0) =
      (open Classical in
        if enabledAfter cs = true ∧ sa.family = af ∧ ¬ Passed cs af sa.ip then 1 else 0) := by
  have hmem : Trie.contains sa.ip t = true ↔ Passed cs af sa.ip := by
    have hset := Set.ext_iff.mp hkeys sa.ip
    simpa [Trie.keys, hlen] using hset
  by_cases hp : Passed cs af sa.ip
  · rw [hmem.mpr hp, if_neg (by simp), if_neg fun h => h.2.2 hp]
  · rw [Bool.eq_false_of_not_eq_true (mt hmem.mp hp), Bool.not_false, if_pos rfl,
      if_pos ⟨hen, haf, hp⟩]

/-! ## Stored and dropped -/

/-- The IP that a call passes. -/
def passedIp : BlacklistCall → Bytes
  | .blacklistNode sa _ => sa.ip
  | _ => []

/-- The addresses that were passed are among those of the calls. -/
theorem exists_finset_passed (cs : List BlacklistCall) (af : ℕ) :
    ∃ ips : Finset Bytes, {ip | Passed cs af ip} ⊆ ips ∧ ips.card ≤ cs.length := by
  refine ⟨(cs.map passedIp).toFinset, ?_, ?_⟩
  swap
  · exact (List.toFinset_card_le _).trans_eq (List.length_map _)
  rintro ip ⟨pre, sa, md, post, rfl, -, -, -, rfl⟩
  exact List.mem_toFinset.mpr (List.mem_map.mpr ⟨.blacklistNode sa md, by simp, rfl⟩)

theorem finite_passed (cs : List BlacklistCall) (af : ℕ) : {ip | Passed cs af ip}.Finite := by
  obtain ⟨ips, hsub, -⟩ := exists_finset_passed cs af
  exact ips.finite_toSet.subset hsub

theorem stored_le_length (cs : List BlacklistCall) (af : ℕ) : stored cs af ≤ cs.length := by
  obtain ⟨ips, hsub, hcard⟩ := exists_finset_passed cs af
  have hle := Set.ncard_le_ncard hsub ips.finite_toSet
  rw [Set.ncard_coe_finset] at hle
  exact hle.trans hcard

theorem stored_free (cs : List BlacklistCall) (af : ℕ) : stored (cs ++ [.free]) af = 0 := by
  have hnone : {ip | Passed (cs ++ [.free]) af ip} = ∅ := by
    ext ip
    simp [passed_concat]
  rw [stored, hnone, Set.ncard_empty]

theorem stored_enable (cs : List BlacklistCall) (b : Bool) (af : ℕ) :
    stored (cs ++ [.enable b]) af = stored cs af := by
  unfold stored
  congr 1
  ext ip
  simp [passed_concat]

/-- An address that is passed is stored if it was not. -/
theorem stored_blacklistNode (cs : List BlacklistCall) (sa : Sockaddr) (md : Bytes) (af : ℕ) :
    stored (cs ++ [.blacklistNode sa md]) af = stored cs af +
      (open Classical in
        if enabledAfter cs = true ∧ sa.family = af ∧ ¬ Passed cs af sa.ip then 1 else 0) := by
  unfold stored
  by_cases hpassed : enabledAfter cs = true ∧ sa.family = af
  · have hinsert : {ip | Passed (cs ++ [.blacklistNode sa md]) af ip} =
        insert sa.ip {ip | Passed cs af ip} := by
      ext ip
      simp [passed_concat, hpassed, eq_comm]
    rw [hinsert]
    by_cases hmem : sa.ip ∈ {ip | Passed cs af ip}
    · rw [Set.insert_eq_of_mem hmem, if_neg fun h => h.2.2 hmem, add_zero]
    · rw [Set.ncard_insert_of_notMem hmem (finite_passed cs af),
        if_pos ⟨hpassed.1, hpassed.2, hmem⟩]
  · have hsame : {ip | Passed (cs ++ [.blacklistNode sa md]) af ip} = {ip | Passed cs af ip} := by
      ext ip
      simp only [Set.mem_ofPred_eq, passed_concat]
      constructor
      · rintro (⟨sa', md', he, hen, haf, -⟩ | ⟨-, h⟩)
        · obtain ⟨rfl, rfl⟩ := BlacklistCall.blacklistNode.inj he
          exact absurd ⟨hen, haf⟩ hpassed
        · exact h
      · exact fun h => Or.inr ⟨nofun, h⟩
    rw [hsame, if_neg fun h => hpassed ⟨h.1, h.2.1⟩, add_zero]

theorem dropped_concat (cs : List BlacklistCall) (c : BlacklistCall) (af : ℕ) :
    dropped (cs ++ [c]) af = dropped cs af + match c with
      | .free => stored cs af
      | _ => 0 := by
  unfold dropped
  rw [List.length_append, List.length_singleton, Finset.sum_range_succ]
  congr 1
  · refine Finset.sum_congr rfl fun i hi => ?_
    have hlt := Finset.mem_range.mp hi
    rw [List.getElem?_append_left hlt, List.take_append_of_le_length hlt.le]
  · rw [List.getElem?_append_right le_rfl, Nat.sub_self, List.getElem?_cons_zero, List.take_left]
    cases c <;> rfl

theorem dropped_eq_zero (h : .free ∉ cs) (af : ℕ) : dropped cs af = 0 := by
  refine Finset.sum_eq_zero fun i _ => ?_
  split
  · rename_i hfree
    exact absurd (List.mem_of_getElem? hfree) h
  · rfl

/-! ## The counters -/

/-- The counters count the addresses that are stored and those that were dropped. -/
theorem entries_run (hcs : ∀ c ∈ cs, c.Valid) :
    (run cs).numberOfEntriesIpv4 = stored cs afInet + dropped cs afInet ∧
      (run cs).numberOfEntriesIpv6 = stored cs afInet6 + dropped cs afInet6 := by
  induction cs using List.reverseRecOn with
  | nil =>
    have hnone : ∀ af, stored [] af = 0 := by
      intro af
      have hempty : {ip | Passed [] af ip} = ∅ := by
        ext ip
        simp [Passed]
      rw [stored, hempty, Set.ncard_empty]
    rw [hnone, hnone]
    exact ⟨rfl, rfl⟩
  | append_singleton cs c ih =>
    have hcs' : ∀ d ∈ cs, d.Valid := fun d hd => hcs d (List.mem_append_left _ hd)
    obtain ⟨ih4, ih6⟩ := ih hcs'
    obtain ⟨hkeys4, hkeys6⟩ := keys_run hcs'
    have hc := hcs c (by simp)
    rw [run_concat, dropped_concat, dropped_concat]
    cases c with
    | enable b =>
      rw [stored_enable, stored_enable]
      exact ⟨ih4, ih6⟩
    | free =>
      rw [stored_free, stored_free]
      constructor
      · exact ih4.trans (by rw [Nat.zero_add, Nat.add_comm])
      · exact ih6.trans (by rw [Nat.zero_add, Nat.add_comm])
    | blacklistNode sa md =>
      obtain ⟨salen, hsa⟩ := hc
      rw [stored_blacklistNode, stored_blacklistNode, step]
      have hstep := nodeStep (run cs) md hsa
      generalize (run cs).blacklistNode sa md = bl at hstep
      cases hstep with
      | disabled hen =>
        rw [run_enabled] at hen
        simp only [hen, Bool.false_eq_true, false_and, if_false, add_zero]
        exact ⟨ih4, ih6⟩
      | ipv4 hen haf hlen =>
        rw [run_enabled] at hen
        have hother : ¬ sa.family = afInet6 := by rw [haf]; decide
        constructor
        · dsimp only
          rw [new_eq hlen hkeys4 hen haf, ih4]
          omega
        · simp only [hother, false_and, and_false, if_false, add_zero]
          exact ih6
      | ipv6 hen haf hlen =>
        rw [run_enabled] at hen
        have hother : ¬ sa.family = afInet := by rw [haf]; decide
        constructor
        · simp only [hother, false_and, and_false, if_false, add_zero]
          exact ih4
        · dsimp only
          rw [new_eq hlen hkeys6 hen haf, ih6]
          omega

theorem toNat_ofNat_eq_iff (s d : ℕ) :
    (UInt32.ofNat (s + d)).toNat = s ↔ s < 2 ^ 32 ∧ 2 ^ 32 ∣ d := by
  rw [UInt32.toNat_ofNat']
  constructor
  · intro h
    have hlt : s < 2 ^ 32 := h ▸ Nat.mod_lt _ (by decide)
    exact ⟨hlt, by omega⟩
  · rintro ⟨hlt, k, rfl⟩
    rw [Nat.add_mul_mod_self_left, Nat.mod_eq_of_lt hlt]

/-- **`blacklist_size` returns the numbers of addresses in the tries** exactly if fewer than
`2 ^ 32` addresses of a family are stored and `blacklist_free` has dropped a multiple of `2 ^ 32`
of them, such as none. -/
theorem sizeMatches_iff (hcs : ∀ c ∈ cs, c.Valid) : SizeMatches (run cs) ↔
    (stored cs afInet < 2 ^ 32 ∧ 2 ^ 32 ∣ dropped cs afInet) ∧
      (stored cs afInet6 < 2 ^ 32 ∧ 2 ^ 32 ∣ dropped cs afInet6) := by
  obtain ⟨h4, h6⟩ := entries_run hcs
  obtain ⟨hkeys4, hkeys6⟩ := keys_run hcs
  have hiff : SizeMatches (run cs) ↔ (run cs).blacklistSize.2.1.toNat = stored cs afInet ∧
      (run cs).blacklistSize.2.2.toNat = stored cs afInet6 := by
    unfold stored
    rw [← hkeys4, ← hkeys6]
    exact ⟨fun h => ⟨h.ipv4, h.ipv6⟩, fun h => ⟨h.1, h.2⟩⟩
  rw [hiff, blacklistSize]
  dsimp only
  rw [h4, h6, toNat_ofNat_eq_iff, toNat_ofNat_eq_iff]

/-- An address that is passed twice. -/
theorem sizeMatches_twice : SizeMatches (run
    [.blacklistNode (sockaddrIn [9, 9, 9, 9] [0, 80]) [],
      .blacklistNode (sockaddrIn [9, 9, 9, 9] [0, 81]) []]) := by
  refine (sizeMatches_iff ?_).mpr ?_
  · rw [List.forall_mem_cons, List.forall_mem_singleton]
    exact ⟨⟨16, by decide⟩, 16, by decide⟩
  · have hlt := fun af => (stored_le_length [.blacklistNode (sockaddrIn [9, 9, 9, 9] [0, 80]) [],
      .blacklistNode (sockaddrIn [9, 9, 9, 9] [0, 81]) []] af).trans_lt
        (show 2 < 2 ^ 32 by decide)
    rw [dropped_eq_zero (by simp), dropped_eq_zero (by simp)]
    exact ⟨⟨hlt _, dvd_zero _⟩, hlt _, dvd_zero _⟩

/-- An address is passed and the blacklist is freed. -/
theorem not_sizeMatches_free :
    ¬ SizeMatches (run [.blacklistNode (sockaddrIn [9, 9, 9, 9] [0, 80]) [], .free]) := by
  intro h
  have h4 := h.ipv4
  have hkeys : Trie.keys 4 (run [.blacklistNode (sockaddrIn [9, 9, 9, 9] [0, 80]) [],
      .free]).ipv4Blacklist = ∅ := Trie.keys_null 4 (by decide)
  rw [hkeys, Set.ncard_empty] at h4
  exact absurd h4 (by decide)

end Blacklist

end DtnDht
