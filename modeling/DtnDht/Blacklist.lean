import DtnDht.Lib.Trie
import DtnDht.Send

/-!
# The address blacklist

One trie for each family, of depth 4 and 16, and a list of ids. `blacklist_blacklist_node` and
`blacklist_blacklisted` walk the tries by loops of their own; they are the insertion and the
membership test of the trie library (`insertLoop_eq`, `lookupLoop_eq`), so the tries are the sets
of the addresses passed to the former (`keys_run`). But the case of `blacklist_blacklisted` for
IPv6 is commented out: the blacklist is a set for IPv4 only (`blacklistIsSet_iff`).
-/

namespace DtnDht

/-- `struct blacklist_leaf`. -/
structure BlacklistLeaf where
  port : ℕ
  md : Bytes

/-- The statics of `blacklist.c`. -/
structure Blacklist where
  ipv4Blacklist : Trie UInt8 BlacklistLeaf := .null
  ipv6Blacklist : Trie UInt8 BlacklistLeaf := .null
  enabled : Bool := true
  numberOfEntriesIpv4 : ℕ := 0
  numberOfEntriesIpv6 : ℕ := 0
  idblacklist : List Id := []

/-- `create_new_leaf`. -/
def createNewLeaf (port md : Bytes) : BlacklistLeaf :=
  ⟨256 * (port.getD 0 0).toNat + (port.getD 1 0).toNat, md.take 20⟩

/-- The loop of `blacklist_blacklist_node` over the rest of the address, and whether it counts a
new entry. -/
def insertLoop (leaf : BlacklistLeaf) :
    Bytes → Trie UInt8 BlacklistLeaf → Trie UInt8 BlacklistLeaf × Bool
  | [], prev => (prev, false)
  | [a], prev => (prev.setChild a (.leaf leaf), (prev.child a).isNull)
  | a :: addr, prev =>
    let child := if (prev.child a).isNull then .emptyEntry else prev.child a
    let (child, new) := insertLoop leaf addr child
    (prev.setChild a child, new)

/-- The loop of `blacklist_blacklisted` over the rest of the address. -/
def lookupLoop : Bytes → Trie UInt8 BlacklistLeaf → Bool
  | [], _ => true
  | pos :: addr, entry =>
    if entry.isNull then false
    else if addr.isEmpty then !(entry.child pos).isNull
    else lookupLoop addr (entry.child pos)

namespace Blacklist

/-- `blacklist_blacklist_node`. -/
def blacklistNode (bl : Blacklist) (sa : Sockaddr) (md : Bytes) : Blacklist :=
  if !bl.enabled then bl
  else if sa.family = afInet then
    let root := if bl.ipv4Blacklist.isNull then .emptyEntry else bl.ipv4Blacklist
    let (root, new) := insertLoop (createNewLeaf sa.port md) sa.sinAddr root
    { bl with
      ipv4Blacklist := root
      numberOfEntriesIpv4 := bl.numberOfEntriesIpv4 + if new then 1 else 0 }
  else if sa.family = afInet6 then
    let root := if bl.ipv6Blacklist.isNull then .emptyEntry else bl.ipv6Blacklist
    let (root, new) := insertLoop (createNewLeaf sa.port md) sa.sin6Addr root
    { bl with
      ipv6Blacklist := root
      numberOfEntriesIpv6 := bl.numberOfEntriesIpv6 + if new then 1 else 0 }
  else bl

/-- `blacklist_blacklisted`; there is no case for `AF_INET6`. -/
def blacklisted (bl : Blacklist) (sa : Sockaddr) : Bool :=
  if !bl.enabled then false
  else if sa.family = afInet then lookupLoop sa.sinAddr bl.ipv4Blacklist
  else false

/-- `blacklist_free`; the counters stay. -/
def free (bl : Blacklist) : Blacklist :=
  { bl with ipv4Blacklist := .null, ipv6Blacklist := .null, idblacklist := [] }

/-- `blacklist_enable`. -/
def enable (bl : Blacklist) (b : Bool) : Blacklist := { bl with enabled := b }

/-- `blacklist_id_blacklisted`. -/
def idBlacklisted (bl : Blacklist) (id : Id) : Bool := bl.idblacklist.contains id

/-- `blacklist_blacklist_id`. -/
def blacklistId (bl : Blacklist) (id : Id) : Blacklist :=
  { bl with idblacklist := id :: bl.idblacklist }

end Blacklist

/-- `node_blacklisted`, `blacklist` being the array of `dht.c`; `dht_blacklisted` is
`blacklist_blacklisted`. -/
def nodeBlacklisted (bl : Blacklist) (blacklist : List Sockaddr) (sa : Sockaddr) (salen : ℕ) :
    Bool :=
  bl.blacklisted sa || blacklist.any fun e => e.take salen == sa.take salen

/-! ## The loops and the trie operations -/

variable {leaf : BlacklistLeaf} {addr : Bytes} {t : Trie UInt8 BlacklistLeaf}

theorem child_of_isNull (h : t.isNull = true) : t.child = fun _ => .null := by
  cases t with
  | null => rfl
  | leaf v => exact absurd h (by simp [Trie.isNull])
  | entry c => exact absurd h (by simp [Trie.isNull])

/-- Creating an entry for a missing child changes nothing an insertion sees. -/
theorem insert_emptyEntry (ha : addr ≠ []) (h : t.isNull = true) :
    Trie.insert addr leaf .emptyEntry = Trie.insert addr leaf t := by
  cases addr with
  | nil => exact absurd rfl ha
  | cons a addr =>
    rw [Trie.insert, Trie.insert, Trie.setChild, Trie.setChild, child_of_isNull h]
    rfl

theorem insertLoop_eq (ha : addr ≠ []) :
    (insertLoop leaf addr t).1 = Trie.insert addr leaf t := by
  induction addr generalizing t with
  | nil => exact absurd rfl ha
  | cons a addr ih =>
    cases addr with
    | nil => rfl
    | cons b addr =>
      rw [insertLoop, Trie.insert]
      dsimp only
      rw [ih (List.cons_ne_nil b addr)]
      split_ifs with h
      · rw [insert_emptyEntry (List.cons_ne_nil b addr) h]
      · rfl
      · simp

theorem lookupLoop_eq (ha : addr ≠ []) : lookupLoop addr t = Trie.contains addr t := by
  induction addr generalizing t with
  | nil => exact absurd rfl ha
  | cons a addr ih =>
    rw [lookupLoop]
    split_ifs with h h0
    · cases t with
      | null => exact (Trie.contains_null a addr).symm
      | leaf v => exact absurd h (by simp [Trie.isNull])
      | entry c => exact absurd h (by simp [Trie.isNull])
    · rw [List.isEmpty_iff.mp h0]
      rfl
    · exact ih fun h => h0 (by rw [h]; rfl)

theorem contains_of_isNull (ha : addr ≠ []) (h : t.isNull = true) :
    Trie.contains addr t = false := by
  obtain ⟨a, addr, rfl⟩ := List.exists_cons_of_ne_nil ha
  cases t with
  | null => exact Trie.contains_null a addr
  | leaf v => exact absurd h (by simp [Trie.isNull])
  | entry c => exact absurd h (by simp [Trie.isNull])

/-- An entry created on the way stores nothing yet. -/
theorem contains_created (ha : addr ≠ []) :
    Trie.contains addr (if t.isNull then .emptyEntry else t) = Trie.contains addr t := by
  split_ifs with h
  · obtain ⟨a, as, rfl⟩ := List.exists_cons_of_ne_nil ha
    rw [contains_of_isNull ha h]
    exact Trie.contains_emptyEntry a as
  · rfl

/-- An address is counted when it is not stored yet. -/
theorem insertLoop_snd (ha : addr ≠ []) :
    (insertLoop leaf addr t).2 = !Trie.contains addr t := by
  induction addr generalizing t with
  | nil => exact absurd rfl ha
  | cons a addr ih =>
    cases addr with
    | nil =>
      rw [insertLoop, Trie.contains, Trie.contains, Bool.not_not]
    | cons b addr =>
      have hloop : (insertLoop leaf (a :: b :: addr) t).2 = (insertLoop leaf (b :: addr)
          (if (t.child a).isNull then .emptyEntry else t.child a)).2 := rfl
      rw [hloop, ih (List.cons_ne_nil b addr), contains_created (List.cons_ne_nil b addr)]
      rfl

/-- Inserting into a trie whose root may have to be created. -/
theorem insertLoop_root (ha : addr ≠ []) :
    insertLoop leaf addr (if t.isNull then .emptyEntry else t) =
      (Trie.insert addr leaf t, !Trie.contains addr t) := by
  refine Prod.ext ?_ ?_
  · rw [insertLoop_eq ha]
    split_ifs with h
    · exact insert_emptyEntry ha h
    · rfl
  · rw [insertLoop_snd ha, contains_created ha]

/-! ## Runs -/

/-- The calls that change the address blacklist. -/
inductive BlacklistCall where
  | blacklistNode (sa : Sockaddr) (md : Bytes)
  | enable (b : Bool)
  | free

namespace BlacklistCall

/-- The address of a call is an IPv4 or IPv6 one. -/
def Valid : BlacklistCall → Prop
  | .blacklistNode sa _ => ∃ salen, IsSockaddr sa salen
  | _ => True

end BlacklistCall

namespace Blacklist

/-- The blacklist after a call. -/
def step (bl : Blacklist) : BlacklistCall → Blacklist
  | .blacklistNode sa md => bl.blacklistNode sa md
  | .enable b => bl.enable b
  | .free => bl.free

/-- The blacklist after some calls. -/
def run (cs : List BlacklistCall) : Blacklist := cs.foldl step {}

/-- What the last `blacklist_enable` said; the blacklist starts enabled. -/
def enabledAfter (cs : List BlacklistCall) : Bool :=
  cs.foldl (fun e c => match c with | .enable b => b | _ => e) true

/-- The address was passed to `blacklist_blacklist_node` while the blacklist was enabled, and
`blacklist_free` was not called since. -/
def Passed (cs : List BlacklistCall) (af : ℕ) (ip : Bytes) : Prop :=
  ∃ pre sa md post, cs = pre ++ .blacklistNode sa md :: post ∧ enabledAfter pre = true ∧
    .free ∉ post ∧ sa.family = af ∧ sa.ip = ip

variable {cs : List BlacklistCall} {af : ℕ} {ip : Bytes}

theorem run_concat (cs : List BlacklistCall) (c : BlacklistCall) :
    run (cs ++ [c]) = (run cs).step c := by
  rw [run, List.foldl_append]
  rfl

theorem enabledAfter_concat (cs : List BlacklistCall) (c : BlacklistCall) :
    enabledAfter (cs ++ [c]) = match c with | .enable b => b | _ => enabledAfter cs := by
  rw [enabledAfter, List.foldl_append]
  rfl

theorem run_enabled (cs : List BlacklistCall) : (run cs).enabled = enabledAfter cs := by
  induction cs using List.reverseRecOn with
  | nil => rfl
  | append_singleton cs c ih =>
    rw [run_concat, enabledAfter_concat]
    cases c with
    | blacklistNode sa md =>
      rw [step, blacklistNode]
      split_ifs <;> exact ih
    | enable b => rfl
    | free => exact ih

theorem passed_concat (cs : List BlacklistCall) (c : BlacklistCall) (af : ℕ) (ip : Bytes) :
    Passed (cs ++ [c]) af ip ↔
      (∃ sa md, c = .blacklistNode sa md ∧ enabledAfter cs = true ∧ sa.family = af ∧ sa.ip = ip) ∨
        c ≠ .free ∧ Passed cs af ip := by
  constructor
  · rintro ⟨pre, sa, md, post, he, hen, hfree, haf, hip⟩
    rcases List.eq_nil_or_concat post with rfl | ⟨post, d, rfl⟩
    · obtain ⟨rfl, hc⟩ := List.append_inj' he rfl
      exact Or.inl ⟨sa, md, List.singleton_inj.mp hc, hen, haf, hip⟩
    · rw [List.concat_eq_append, ← List.cons_append, ← List.append_assoc] at he
      obtain ⟨rfl, hc⟩ := List.append_inj' he rfl
      obtain rfl := List.singleton_inj.mp hc
      rw [List.concat_eq_append, List.mem_append, not_or, List.mem_singleton] at hfree
      exact Or.inr ⟨Ne.symm hfree.2, pre, sa, md, post, rfl, hen, hfree.1, haf, hip⟩
  · rintro (⟨sa, md, rfl, hen, haf, hip⟩ | ⟨hc, pre, sa, md, post, rfl, hen, hfree, haf, hip⟩)
    · exact ⟨cs, sa, md, [], rfl, hen, List.not_mem_nil, haf, hip⟩
    · refine ⟨pre, sa, md, post ++ [c], by simp, hen, ?_, haf, hip⟩
      rw [List.mem_append, not_or, List.mem_singleton]
      exact ⟨hfree, Ne.symm hc⟩

theorem length_ip {sa : Sockaddr} {salen : ℕ} (h : IsSockaddr sa salen) :
    sa.ip.length = if sa.family = afInet then 4 else 16 := by
  obtain ⟨⟨h1, h2⟩ | ⟨h1, h2⟩, hl⟩ := h
  · rw [Sockaddr.ip, if_pos h1, if_pos h1, Sockaddr.sinAddr, slice, List.length_take,
      List.length_drop]
    unfold sizeofSockaddrIn at h2
    omega
  · have hne : ¬ sa.family = afInet := by rw [h1]; decide
    rw [Sockaddr.ip, if_neg hne, if_neg hne, Sockaddr.sin6Addr, slice, List.length_take,
      List.length_drop]
    unfold sizeofSockaddrIn6 at h2
    omega

/-- What `blacklist_blacklist_node` does with an IPv4 or IPv6 address. -/
inductive NodeStep (bl : Blacklist) (sa : Sockaddr) (md : Bytes) : Blacklist → Prop
  | disabled (hen : bl.enabled = false) : NodeStep bl sa md bl
  | ipv4 (hen : bl.enabled = true) (haf : sa.family = afInet) (hlen : sa.ip.length = 4) :
      NodeStep bl sa md { bl with
        ipv4Blacklist := Trie.insert sa.ip (createNewLeaf sa.port md) bl.ipv4Blacklist
        numberOfEntriesIpv4 := bl.numberOfEntriesIpv4 +
          if !Trie.contains sa.ip bl.ipv4Blacklist then 1 else 0 }
  | ipv6 (hen : bl.enabled = true) (haf : sa.family = afInet6) (hlen : sa.ip.length = 16) :
      NodeStep bl sa md { bl with
        ipv6Blacklist := Trie.insert sa.ip (createNewLeaf sa.port md) bl.ipv6Blacklist
        numberOfEntriesIpv6 := bl.numberOfEntriesIpv6 +
          if !Trie.contains sa.ip bl.ipv6Blacklist then 1 else 0 }

theorem nodeStep (bl : Blacklist) {sa : Sockaddr} (md : Bytes) {salen : ℕ}
    (hsa : IsSockaddr sa salen) : NodeStep bl sa md (bl.blacklistNode sa md) := by
  have hlen := length_ip hsa
  unfold blacklistNode
  by_cases hen : bl.enabled = true
  · rw [if_neg (by simp [hen])]
    by_cases h4 : sa.family = afInet
    · have hip : sa.ip = sa.sinAddr := by rw [Sockaddr.ip, if_pos h4]
      rw [if_pos h4] at hlen
      have hne : sa.ip ≠ [] := List.ne_nil_of_length_pos (by omega)
      rw [if_pos h4, ← hip]
      dsimp only
      rw [insertLoop_root hne]
      exact .ipv4 hen h4 hlen
    · have h6 : sa.family = afInet6 := hsa.1.elim (fun h => absurd h.1 h4) And.left
      have hip : sa.ip = sa.sin6Addr := by rw [Sockaddr.ip, if_neg h4]
      rw [if_neg h4] at hlen
      have hne : sa.ip ≠ [] := List.ne_nil_of_length_pos (by omega)
      rw [if_neg h4, if_pos h6, ← hip]
      dsimp only
      rw [insertLoop_root hne]
      exact .ipv6 hen h6 hlen
  · rw [if_pos (by simp [hen])]
    exact .disabled (Bool.eq_false_of_not_eq_true hen)

/-- The two tries hold the addresses that were passed. -/
theorem keys_run (hcs : ∀ c ∈ cs, c.Valid) :
    Trie.keys 4 (run cs).ipv4Blacklist = {ip | Passed cs afInet ip} ∧
      Trie.keys 16 (run cs).ipv6Blacklist = {ip | Passed cs afInet6 ip} := by
  induction cs using List.reverseRecOn with
  | nil =>
    have hnone : ∀ af, {ip | Passed [] af ip} = (∅ : Set Bytes) := by
      intro af
      ext ip
      simp [Passed]
    rw [hnone, hnone]
    exact ⟨Trie.keys_null 4 (by decide), Trie.keys_null 16 (by decide)⟩
  | append_singleton cs c ih =>
    obtain ⟨ih4, ih6⟩ := ih fun d hd => hcs d (List.mem_append_left _ hd)
    have hc := hcs c (by simp)
    rw [run_concat]
    simp only [passed_concat]
    cases c with
    | enable b =>
      have h4 : ((run cs).step (.enable b)).ipv4Blacklist = (run cs).ipv4Blacklist := rfl
      have h6 : ((run cs).step (.enable b)).ipv6Blacklist = (run cs).ipv6Blacklist := rfl
      rw [h4, h6, ih4, ih6]
      simp
    | free =>
      have h4 : ((run cs).step .free).ipv4Blacklist = .null := rfl
      have h6 : ((run cs).step .free).ipv6Blacklist = .null := rfl
      rw [h4, h6, Trie.keys_null 4 (by decide), Trie.keys_null 16 (by decide)]
      simp
    | blacklistNode sa md =>
      obtain ⟨salen, hsa⟩ := hc
      have hstep := nodeStep (run cs) md hsa
      rw [step]
      generalize (run cs).blacklistNode sa md = bl at hstep
      cases hstep with
      | disabled hen =>
        -- nothing is passed
        rw [run_enabled] at hen
        rw [ih4, ih6]
        simp [hen]
      | ipv4 hen haf hlen =>
        rw [run_enabled] at hen
        refine ⟨?_, ?_⟩
        · dsimp only
          rw [Trie.keys_insert hlen, ih4]
          ext ip
          simp [hen, haf, eq_comm]
        · dsimp only
          rw [ih6]
          ext ip
          simp [haf, afInet, afInet6]
      | ipv6 hen haf hlen =>
        rw [run_enabled] at hen
        refine ⟨?_, ?_⟩
        · dsimp only
          rw [ih4]
          ext ip
          simp [haf, afInet, afInet6]
        · dsimp only
          rw [Trie.keys_insert hlen, ih6]
          ext ip
          simp [hen, haf, eq_comm]

end Blacklist

/-! ## The blacklist as a set -/

open Blacklist

/-- The blacklist behaves as the set of the addresses passed to it, as far as `a` is concerned. -/
structure BlacklistIsSet (cs : List BlacklistCall) (a : Sockaddr) : Prop where
  mem : (run cs).blacklisted a = true ↔ enabledAfter cs = true ∧ Passed cs a.family a.ip
  other : ∀ sa md, (∃ salen, IsSockaddr sa salen) → (sa.family, sa.ip) ≠ (a.family, a.ip) →
    (run (cs ++ [.blacklistNode sa md])).blacklisted a = (run cs).blacklisted a
  refused : enabledAfter cs = true → Passed cs a.family a.ip → ∀ (net : Net) ring,
    net.nodeBlacklisted = nodeBlacklisted (run cs) ring → ∀ buf flags salen,
      dhtSend net buf flags a salen = []

theorem blacklisted_iff {cs : List BlacklistCall} (hcs : ∀ c ∈ cs, c.Valid) {a : Sockaddr}
    {salen : ℕ} (ha : IsSockaddr a salen) (h4 : a.family = afInet) :
    (run cs).blacklisted a = true ↔ enabledAfter cs = true ∧ Passed cs a.family a.ip := by
  have hip : a.ip = a.sinAddr := by rw [Sockaddr.ip, if_pos h4]
  have hlen := length_ip ha
  rw [if_pos h4, hip] at hlen
  have hne : a.sinAddr ≠ [] := List.ne_nil_of_length_pos (by omega)
  have hkeys : Trie.contains a.sinAddr (run cs).ipv4Blacklist = true ↔
      Passed cs afInet a.sinAddr := by
    have := Set.ext_iff.mp (keys_run hcs).1 a.sinAddr
    simpa [Trie.keys, hlen] using this
  rw [blacklisted, run_enabled, if_pos h4, lookupLoop_eq hne, h4, hip, ← hkeys]
  cases enabledAfter cs <;> simp

theorem blacklisted_of_ne {a : Sockaddr} (h : a.family ≠ afInet) (bl : Blacklist) :
    bl.blacklisted a = false := by
  rw [blacklisted, if_neg h]
  split_ifs <;> rfl

/-- **The address blacklist is a set** for IPv4; for an IPv6 address it is one only as long as the
address should not be on it. -/
theorem blacklistIsSet_iff {cs : List BlacklistCall} (hcs : ∀ c ∈ cs, c.Valid) {a : Sockaddr}
    {salen : ℕ} (ha : IsSockaddr a salen) : BlacklistIsSet cs a ↔
      a.family = afInet ∨ ¬ (enabledAfter cs = true ∧ Passed cs a.family a.ip) := by
  by_cases h4 : a.family = afInet
  · refine iff_of_true ⟨blacklisted_iff hcs ha h4, fun sa md hsa hne => ?_, ?_⟩ (Or.inl h4)
    · have hcs' : ∀ c ∈ cs ++ [.blacklistNode sa md], c.Valid := by
        intro c hc
        rcases List.mem_append.mp hc with hc | hc
        · exact hcs c hc
        · rw [List.mem_singleton.mp hc]
          exact hsa
      rw [Bool.eq_iff_iff, blacklisted_iff hcs' ha h4, blacklisted_iff hcs ha h4,
        enabledAfter_concat, passed_concat]
      have hnone : ¬ ∃ sa' md', BlacklistCall.blacklistNode sa md = .blacklistNode sa' md' ∧
          enabledAfter cs = true ∧ sa'.family = a.family ∧ sa'.ip = a.ip := by
        rintro ⟨sa', md', he, -, hf, hip⟩
        obtain ⟨rfl, rfl⟩ := BlacklistCall.blacklistNode.inj he
        exact hne (by rw [hf, hip])
      rw [or_iff_right hnone]
      simp
    · intro hen hpassed net ring hnet buf flags salen'
      refine dhtSend_of_nodeBlacklisted ?_ buf flags
      rw [hnet, nodeBlacklisted, (blacklisted_iff hcs ha h4).mpr ⟨hen, hpassed⟩, Bool.true_or]
  · rw [or_iff_right h4]
    constructor
    · intro h hpassed
      have := h.mem.mpr hpassed
      rw [blacklisted_of_ne h4] at this
      exact Bool.noConfusion this
    · intro h
      constructor
      · rw [blacklisted_of_ne h4]
        simpa using h
      · intro sa md _ _
        rw [blacklisted_of_ne h4, blacklisted_of_ne h4]
      · exact fun hen hpassed => absurd ⟨hen, hpassed⟩ h

/-- An IPv4 address on the blacklist. -/
theorem blacklistIsSet_ipv4 : BlacklistIsSet
    [.blacklistNode (sockaddrIn [9, 9, 9, 9] [0, 80]) []] (sockaddrIn [9, 9, 9, 9] [0, 81]) := by
  have hsa : IsSockaddr (sockaddrIn [9, 9, 9, 9] [0, 81]) 16 := by decide
  refine (blacklistIsSet_iff ?_ hsa).mpr (Or.inl rfl)
  rw [List.forall_mem_singleton]
  exact ⟨16, by decide⟩

/-- The IPv6 address 2001:db8::1 is put on the blacklist and is not on it. -/
theorem blacklistIsSet_ipv6 : ¬ BlacklistIsSet
    [.blacklistNode (sockaddrIn6 [0x20, 1, 0xd, 0xb8, 0, 0, 0, 0, 0, 0, 0, 0, 0, 0, 0, 1] [0, 80])
      []]
    (sockaddrIn6 [0x20, 1, 0xd, 0xb8, 0, 0, 0, 0, 0, 0, 0, 0, 0, 0, 0, 1] [0, 80]) := by
  intro h
  have hmem := h.mem.mpr ⟨rfl, [], _, _, [], rfl, rfl, List.not_mem_nil, rfl, rfl⟩
  exact absurd hmem (by decide)

end DtnDht
