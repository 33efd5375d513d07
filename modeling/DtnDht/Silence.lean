import DtnDht.Eviction

/-!
# What is sent to an address

`node_blacklisted` compares as many bytes as its caller passes, and callers pass the length of a
family or that of a `struct sockaddr_storage`. An address is kept bare (`Bare`) when nothing but
zeros stands beside family, port and address in these bytes. Where the table and the searches keep
an address bare and `node_blacklisted` refuses it bare, no function sends to it (`Quiet`).
-/

namespace DtnDht

open CString

/-! ## Bare addresses -/

/-- The size of an address of a family. -/
def sizeofFamily (af : ℕ) : ℕ := if af = afInet then sizeofSockaddrIn else sizeofSockaddrIn6

/-- A zeroed `struct sockaddr_storage` with family, port and address of `sa`. -/
def padded (sa : Sockaddr) : Sockaddr :=
  memcpy zeroStorage
    (if sa.family = afInet then sockaddrIn sa.ip sa.port else sockaddrIn6 sa.ip sa.port)
    (sizeofFamily sa.family)

/-- If these `len` bytes are the address `a`, they hold nothing else. -/
def Bare (a sa : Sockaddr) (len : ℕ) : Prop :=
  endpoint sa = endpoint a → sa.take len = (padded a).take len

instance (a sa : Sockaddr) (len : ℕ) : Decidable (Bare a sa len) :=
  inferInstanceAs (Decidable (endpoint sa = endpoint a → sa.take len = (padded a).take len))

variable {a sa : Sockaddr} {salen : ℕ}

theorem salen_eq (h : IsSockaddr sa salen) : salen = sizeofFamily sa.family := by
  unfold sizeofFamily
  obtain ⟨⟨hfam, rfl⟩ | ⟨hfam, rfl⟩, -⟩ := h
  · rw [if_pos hfam]
  · rw [if_neg (by rw [hfam]; decide)]

theorem IsSockaddr.family_ne_zero (h : IsSockaddr sa salen) : sa.family ≠ 0 := by
  obtain ⟨⟨hfam, -⟩ | ⟨hfam, -⟩, -⟩ := h
  · rw [hfam]
    decide
  · rw [hfam]
    decide

theorem padded_congr {sb : Sockaddr} (h : endpoint sa = endpoint sb) : padded sa = padded sb := by
  unfold endpoint at h
  simp only [Prod.mk.injEq] at h
  unfold padded
  rw [h.1, h.2.1, h.2.2]

theorem endpoint_memcpy (h : IsSockaddr sa salen) (dst : Sockaddr) :
    endpoint (memcpy dst sa salen) = endpoint sa :=
  (endpoint_congr h (take_memcpy dst h.2).symm).symm

theorem drop_padded (h : IsSockaddr sa salen) :
    (padded sa).drop salen = List.replicate (sizeofSockaddrStorage - salen) 0 := by
  have hip := Blacklist.length_ip h
  have hport : sa.port.length = 2 := by
    have h2 := h.2
    refine length_slice ?_
    obtain ⟨⟨-, rfl⟩ | ⟨-, rfl⟩, -⟩ := h
    · unfold sizeofSockaddrIn at h2
      omega
    · unfold sizeofSockaddrIn6 at h2
      omega
  unfold padded
  rw [← salen_eq h, drop_memcpy, zeroStorage, List.drop_replicate]
  obtain ⟨⟨hfam, rfl⟩ | ⟨hfam, rfl⟩, -⟩ := h
  · rw [if_pos hfam] at hip ⊢
    rw [World.length_sockaddrIn, hip, hport]
    rfl
  · have hne : ¬ sa.family = afInet := by rw [hfam]; decide
    rw [if_neg hne] at hip ⊢
    rw [World.length_sockaddrIn6, hip, hport]
    rfl

/-- An address is copied with its length. -/
theorem bare_memcpy (h : IsSockaddr sa salen) (hb : Bare a sa salen) (dst : Sockaddr) :
    Bare a (memcpy dst sa salen) salen := by
  intro heq
  rw [take_memcpy dst h.2]
  exact hb (endpoint_memcpy h dst ▸ heq)

theorem isSockaddr_memcpy (h : IsSockaddr sa salen) (dst : Sockaddr) :
    IsSockaddr (memcpy dst sa salen) salen := by
  have hfam : Sockaddr.family (memcpy dst sa salen) = sa.family :=
    congrArg Prod.fst (endpoint_memcpy h dst)
  refine ⟨hfam ▸ h.1, ?_⟩
  unfold CString.memcpy
  rw [List.length_append, List.length_take_of_le h.2]
  omega

theorem isSockaddr_sockaddrIn {ip port : Bytes} (hip : ip.length = 4) (hport : port.length = 2) :
    IsSockaddr (sockaddrIn ip port) sizeofSockaddrIn :=
  ⟨Or.inl ⟨congrArg Prod.fst (endpoint_sockaddrIn hip hport), rfl⟩, by
    rw [World.length_sockaddrIn, hip, hport]
    rfl⟩

theorem isSockaddr_sockaddrIn6 {ip port : Bytes} (hip : ip.length = 16) (hport : port.length = 2) :
    IsSockaddr (sockaddrIn6 ip port) sizeofSockaddrIn6 :=
  ⟨Or.inr ⟨congrArg Prod.fst (endpoint_sockaddrIn6 hip hport), rfl⟩, by
    rw [World.length_sockaddrIn6, hip, hport]
    rfl⟩

/-- The addresses of the nodes in a reply are bare. -/
theorem bare_sockaddrIn {ip port : Bytes} (hip : ip.length = 4) (hport : port.length = 2) :
    Bare a (sockaddrIn ip port) sizeofSockaddrIn := by
  intro h
  have he := endpoint_sockaddrIn hip hport
  rw [← padded_congr h]
  unfold endpoint at he
  simp only [Prod.mk.injEq] at he
  unfold padded
  rw [he.1, he.2.1, he.2.2, if_pos rfl]
  exact (take_memcpy _ (isSockaddr_sockaddrIn hip hport).2).symm

theorem bare_sockaddrIn6 {ip port : Bytes} (hip : ip.length = 16) (hport : port.length = 2) :
    Bare a (sockaddrIn6 ip port) sizeofSockaddrIn6 := by
  intro h
  have he := endpoint_sockaddrIn6 hip hport
  rw [← padded_congr h]
  unfold endpoint at he
  simp only [Prod.mk.injEq] at he
  unfold padded
  rw [he.1, he.2.1, he.2.2, if_neg (by decide)]
  exact (take_memcpy _ (isSockaddr_sockaddrIn6 hip hport).2).symm

/-- `node_blacklisted` refuses the bare address, whatever length is passed. -/
def Net.Refuses (net : Net) (a : Sockaddr) : Prop :=
  ∀ sa salen, endpoint sa = endpoint a → sa.take salen = (padded a).take salen →
    net.nodeBlacklisted sa salen = true

/-- If the bare address is refused, no packet goes to the address. -/
def Net.Skips (net : Net) (a : Sockaddr) (pkts : List Packet) : Prop :=
  net.Refuses a → ∀ p ∈ pkts, endpoint p.dest ≠ endpoint a

variable {net : Net} {pkts pkts' : List Packet}

theorem skips_nil : net.Skips a [] := fun _ _ hp => absurd hp List.not_mem_nil

theorem Net.Skips.append (h : net.Skips a pkts) (h' : net.Skips a pkts') :
    net.Skips a (pkts ++ pkts') := by
  intro hr p hp
  rcases List.mem_append.mp hp with hp | hp
  · exact h hr p hp
  · exact h' hr p hp

/-- An address that is kept bare is refused. -/
theorem skips_dhtSendBuf (h : Bare a sa salen) (buf : Option Bytes) (flags : ℕ) :
    net.Skips a (dhtSendBuf net buf flags sa salen) := by
  intro hr p hp heq
  have hdest : p.dest = sa := (mem_dhtSendBuf hp).2
  rw [hdest] at heq
  have hrefused := hr sa salen heq (h heq)
  cases buf with
  | none => exact absurd hp List.not_mem_nil
  | some buf =>
    unfold dhtSendBuf at hp
    dsimp only at hp
    rw [dhtSend_of_nodeBlacklisted hrefused] at hp
    exact absurd hp List.not_mem_nil

/-! ## The routing table -/

/-- A node of the table of family `af` whose address is kept bare. -/
structure BareNode (a : Sockaddr) (af : ℕ) (n : Node) : Prop where
  suits : Routing.Suits af n
  isSockaddr : IsSockaddr n.ss n.sslen
  bare : Bare a n.ss n.sslen

/-- The addresses that a bucket of the table of family `af` holds are kept bare. -/
structure BareBucket (a : Sockaddr) (af : ℕ) (b : Bucket) : Prop where
  nodes : ∀ n ∈ b.nodes, BareNode a af n
  cached : Bare a b.cached b.cachedlen

namespace Routing

/-- The addresses that the table holds are kept bare. -/
def Bare (a : Sockaddr) (r : Routing) : Prop := ∀ af, ∀ b ∈ r.table af, BareBucket a af b

/-- A table that keeps the address bare, and packets none of which goes to it if it is refused. -/
structure Quiet (a : Sockaddr) (net : Net) (out : Routing × List Packet) : Prop where
  bare : out.1.Bare a
  skips : net.Skips a out.2

variable {r r' r'' : Routing} {now : ℤ} {af i j : ℕ} {b : Bucket} {n : Node}

theorem Bare.quiet (h : r.Bare a) : Quiet a net (r, []) := ⟨h, skips_nil⟩

theorem bareBucket_congr {af' : ℕ} (h : af = afInet ↔ af' = afInet) (hb : BareBucket a af b) :
    BareBucket a af' b :=
  ⟨fun n hn => ⟨(suits_congr h n).mp (hb.nodes n hn).suits, (hb.nodes n hn).isSockaddr,
    (hb.nodes n hn).bare⟩, hb.cached⟩

theorem Bare.setTable (h : r.Bare a) {bs : List Bucket} (hbs : ∀ b ∈ bs, BareBucket a af b) :
    (r.setTable af bs).Bare a := by
  intro af' b hb
  rw [table_setTable] at hb
  split_ifs at hb with hsame
  · exact bareBucket_congr hsame (hbs b hb)
  · exact h af' b hb

theorem Bare.modifyBucket (h : r.Bare a) {f : Bucket → Bucket}
    (hf : ∀ b ∈ r.table af, BareBucket a af b → BareBucket a af (f b)) :
    (r.modifyBucket af i f).Bare a :=
  h.setTable (List.forall_mem_modify (h af) hf)

theorem Bare.modifyNode (h : r.Bare a) {f : Node → Node}
    (hf : ∀ n, BareNode a af n → BareNode a af (f n)) : (r.modifyNode af i j f).Bare a :=
  h.modifyBucket fun _ _ hb => ⟨List.forall_mem_modify hb.nodes fun n _ => hf n, hb.cached⟩

theorem Bare.node (h : r.Bare a) (hn : r.node? af i j = some n) : BareNode a af n := by
  obtain ⟨b, hb, hn⟩ := Option.bind_eq_some_iff.mp hn
  exact (h af b (List.mem_of_getElem? hb)).nodes n (List.mem_of_getElem? hn)

theorem Bare.insertNode (h : r.Bare a) (hn : BareNode a af n) : (r.insertNode n).Bare a := by
  unfold Routing.insertNode
  split
  · exact h
  · refine h.modifyBucket fun b _ hb => ⟨List.forall_mem_cons.mpr ⟨?_, hb.nodes⟩, hb.cached⟩
    exact ⟨Iff.rfl, hn.isSockaddr, hn.bare⟩

/-- The family of a cached address is cleared. -/
theorem bare_cleared (ha : a.family ≠ 0) (dst : Sockaddr) (len : ℕ) :
    DtnDht.Bare a (memcpy dst [0, 0] 2) len := by
  intro heq
  exact absurd (congrArg Prod.fst heq).symm ha

theorem Bare.pingDubious (h : r.Bare a) {nodes : List Node} (hnodes : ∀ n ∈ nodes, BareNode a af n)
    (i : ℕ) : Quiet a net (r.pingDubious net now af i nodes) := by
  unfold Routing.pingDubious
  split
  · exact h.quiet
  · rename_i j hj
    refine ⟨h.modifyNode fun n hn => ⟨hn.suits, hn.isSockaddr, hn.bare⟩, ?_⟩
    cases hn : nodes[j]? with
    | none => exact skips_nil
    | some n => exact skips_dhtSendBuf (hnodes n (List.mem_of_getElem? hn)).bare _ _

/-- A zeroed `struct sockaddr_storage` has family 0. -/
theorem bare_zeroStorage (ha : a.family ≠ 0) (len : ℕ) : DtnDht.Bare a zeroStorage len := by
  intro heq
  exact absurd (congrArg Prod.fst heq).symm ha

variable (ha : a.family ≠ 0)
include ha

theorem Bare.sendCachedPing (h : r.Bare a) (af i : ℕ) :
    Quiet a net (r.sendCachedPing net af i) := by
  unfold Routing.sendCachedPing
  cases hb : (r.table af)[i]? with
  | none => exact h.quiet
  | some b =>
    dsimp only
    split_ifs
    · exact h.quiet
    · exact ⟨h.modifyBucket fun c _ hc => ⟨hc.nodes, bare_cleared ha _ _⟩,
        skips_dhtSendBuf (h af b (List.mem_of_getElem? hb)).cached _ _⟩

theorem Bare.pinged (h : r.Bare a) (af i j : ℕ) (b : Option ℕ) :
    Quiet a net (r.pinged net now af i j b) := by
  have hcount : (r.modifyNode af i j fun n =>
      { n with pinged := n.pinged + 1, pingedTime := now }).Bare a :=
    h.modifyNode fun n hn => ⟨hn.suits, hn.isSockaddr, hn.bare⟩
  unfold Routing.pinged
  dsimp only
  split
  · exact hcount.quiet
  · split_ifs
    · split
      · exact hcount.sendCachedPing ha _ _
      · split
        · exact hcount.quiet
        · exact hcount.sendCachedPing ha _ _
    · exact hcount.quiet

theorem Bare.markPinged (h : r.Bare a) (id : Id) (af : ℕ) :
    Quiet a net (r.markPinged net now id af) := by
  unfold Routing.markPinged
  split
  · exact h.quiet
  · exact h.pinged ha _ _ _ _

theorem Bare.discardNode (h : r.Bare a) (id : Id) (af : ℕ) :
    Quiet a net (r.discardNode net now id af) := by
  unfold Routing.discardNode
  split
  · exact h.quiet
  · refine Bare.pinged ha (h.modifyNode fun n hn => ?_) _ _ _ _
    exact ⟨hn.suits, hn.isSockaddr, hn.bare⟩

theorem Bare.askNode (h : r.Bare a) (af q j : ℕ) (id : Id) (want : ℤ) :
    Quiet a net (r.askNode net now af q j id want) := by
  unfold Routing.askNode
  cases hn : r.node? af q j with
  | none => exact h.quiet
  | some n =>
    have hping : Quiet a net (r.pinged net now af q j (some q)) := h.pinged ha af q j (some q)
    exact ⟨hping.bare, (skips_dhtSendBuf (h.node hn).bare _ _).append hping.skips⟩

/-- The maintenance of the buckets of a family, without what it returns besides. -/
theorem Bare.neighbourhoodMaintenance (h : r.Bare a) (af : ℕ) (rs : Random) :
    Quiet a net ((r.neighbourhoodMaintenance net now af rs).1,
      (r.neighbourhoodMaintenance net now af rs).2.1) := by
  unfold Routing.neighbourhoodMaintenance
  split
  · exact h.quiet
  · dsimp only
    split
    · exact h.quiet
    · split
      · exact h.quiet
      · exact h.askNode ha _ _ _ _ _

theorem Bare.bucketMaintenance (h : r.Bare a) (af : ℕ) (rs : Random) :
    Quiet a net ((r.bucketMaintenance net now af rs).1,
      (r.bucketMaintenance net now af rs).2.1) := by
  unfold Routing.bucketMaintenance
  generalize List.range (r.table af).length = is
  induction is generalizing rs with
  | nil => exact h.quiet
  | cons i is ih =>
    rw [bucketMaintenanceFrom]
    split
    · exact h.quiet
    · rename_i b hb
      split_ifs
      · generalize bucketRandom b (r.table af)[i + 1]? rs = x
        obtain ⟨id, rs⟩ := x
        dsimp only
        generalize r.chooseBucket af i rs = y
        obtain ⟨q, rs⟩ := y
        dsimp only
        split
        · exact ih rs
        · rename_i b' hb'
          obtain ⟨_ | j, rs⟩ := randomNode b' rs
          · exact ih rs
          · exact h.askNode ha _ _ _ _ _
      · exact ih rs

theorem Bare.expireBuckets (h : r.Bare a) : Quiet a net (r.expireBuckets net) := by
  have hbucket (af : ℕ) (b : Bucket) (hb : b ∈ r.table af) :
      BareBucket a af (expireBucket net b).1 ∧ net.Skips a (expireBucket net b).2 := by
    have hbare := h af b hb
    have hnodes : ∀ n ∈ (b.nodes.filter fun n => n.pinged < 4), BareNode a af n :=
      fun n hn => hbare.nodes n (List.mem_of_mem_filter hn)
    unfold expireBucket
    dsimp only
    split_ifs
    · exact ⟨⟨hnodes, hbare.cached⟩, skips_nil⟩
    · exact ⟨⟨hnodes, bare_cleared ha _ _⟩, skips_dhtSendBuf hbare.cached _ _⟩
  constructor
  · intro af b hb
    rw [table_expireBuckets] at hb
    obtain ⟨c, hc, rfl⟩ := List.mem_map.mp hb
    exact (hbucket af c hc).1
  · intro hr p hp
    obtain ⟨b, hb, hp⟩ := List.mem_flatMap.mp hp
    rcases List.mem_append.mp hb with hb | hb
    · exact (hbucket afInet b hb).2 hr p hp
    · exact (hbucket afInet6 b hb).2 hr p hp

/-! ### `new_node` -/

theorem Bare.splitBucket (h : r.Bare a) (af i : ℕ) :
    Quiet a net (r.splitBucket net af i) := by
  unfold Routing.splitBucket
  cases hb : (r.table af)[i]? with
  | none => exact h.quiet
  | some b =>
    dsimp only
    cases bucketMiddle b (r.table af)[i + 1]? with
    | none => exact h.quiet
    | some newId =>
      have hping : Quiet a net (r.sendCachedPing net af i) := h.sendCachedPing ha af i
      refine ⟨?_, hping.skips⟩
      dsimp only
      have hnodes := (h af b (List.mem_of_getElem? hb)).nodes
      generalize b.nodes = nodes at hnodes
      generalize hr₁ : Routing.setTable _ af _ = r₁
      have h₁ : r₁.Bare a := by
        rw [← hr₁]
        refine hping.bare.setTable fun c hc => ?_
        rw [List.mem_append, List.mem_cons, or_left_comm, ← List.mem_append,
          List.take_append_drop] at hc
        rcases hc with rfl | hc
        · exact ⟨fun n hn => absurd hn List.not_mem_nil, bare_zeroStorage ha _⟩
        · have hall := List.forall_mem_modify (i := i)
            (f := fun b : Bucket => { b with nodes := [], count := 0 }) (hping.bare af)
            fun c _ hc => ⟨fun n hn => absurd hn List.not_mem_nil, hc.cached⟩
          exact hall c hc
      clear hr₁
      induction nodes generalizing r₁ with
      | nil => exact h₁
      | cons n nodes ih =>
        rw [List.forall_mem_cons] at hnodes
        exact ih hnodes.2 _ (h₁.insertNode hnodes.1)

section NewNode

variable {id : Id} {confirm : ℕ} (hsa : IsSockaddr sa salen) (hbare : DtnDht.Bare a sa salen)
include hsa hbare

omit ha in
theorem bareNode_memcpy (dst : Sockaddr) {n' : Node} (hss : n'.ss = memcpy dst sa salen)
    (hlen : n'.sslen = salen) : BareNode a sa.family n' := by
  refine ⟨?_, ?_, ?_⟩
  · unfold Suits
    rw [hss, show Sockaddr.family (memcpy dst sa salen) = sa.family from
      congrArg Prod.fst (endpoint_memcpy hsa dst)]
  · rw [hss, hlen]
    exact isSockaddr_memcpy hsa dst
  · rw [hss, hlen]
    exact bare_memcpy hsa hbare dst

omit ha hbare in
theorem sslen_eq (h : BareNode a sa.family n) : n.sslen = salen := by
  rw [salen_eq h.isSockaddr, salen_eq hsa]
  have hsuits := h.suits
  unfold Suits at hsuits
  unfold sizeofFamily
  simp only [hsuits]

omit ha in
theorem bareNode_refreshNode (h : BareNode a sa.family n) :
    BareNode a sa.family (refreshNode now sa salen confirm n) := by
  have hlen := sslen_eq hsa h
  unfold refreshNode
  split_ifs
  · exact bareNode_memcpy hsa hbare n.ss rfl hlen
  · exact bareNode_memcpy hsa hbare n.ss rfl hlen
  · exact bareNode_memcpy hsa hbare n.ss rfl hlen
  · exact bareNode_memcpy hsa hbare n.ss rfl hlen
  · exact h

omit ha hbare hsa in
theorem Touched.bare (h : Touched now af i r r') (hr : r.Bare a) : r'.Bare a := by
  induction h with
  | same => exact hr
  | time _ ih => exact ih.modifyBucket fun _ _ hb => ⟨hb.nodes, hb.cached⟩
  | grow _ ih => exact fun af' b hb => ih af' b (table_grow _ now af af' ▸ hb)

theorem bare_newNodeFuel (fuel : ℕ) (h : r.Bare a) {out : Routing × List Packet × Bool}
    (hout : newNodeFuel net now id sa salen confirm fuel r = some out) :
    Quiet a net (out.1, out.2.1) := by
  induction fuel generalizing r out with
  | zero => exact absurd hout nofun
  | succ fuel ih =>
    have hstep := newNodeStep net now id sa salen confirm fuel r
    rw [hout] at hstep
    generalize hresult : some out = result at hstep
    cases hstep with
    | refused => exact Option.some_inj.mp hresult ▸ h.quiet
    | refreshed ht =>
      rw [Option.some_inj.mp hresult]
      exact Bare.quiet ((ht.bare h).modifyNode fun n hn => bareNode_refreshNode hsa hbare hn)
    | replaced hu hn _ =>
      rw [Option.some_inj.mp hresult]
      refine Bare.quiet ((hu.touched.bare h).modifyNode fun n hn => ?_)
      have hlen := sslen_eq hsa hn
      exact bareNode_memcpy hsa hbare n.ss rfl hlen
    | @split r' i b hu _ =>
      obtain ⟨out', hout', rfl⟩ := Option.map_eq_some_iff.mp hresult.symm
      have hping : Quiet a net (r'.pingDubious net now sa.family i b.nodes) :=
        (hu.touched.bare h).pingDubious (h sa.family b (List.mem_of_getElem? hu.bucket)).nodes i
      have hsplit : Quiet a net ((r'.pingDubious net now sa.family i b.nodes).1.splitBucket net
          sa.family i) := hping.bare.splitBucket ha sa.family i
      have hrec := ih hsplit.bare hout'
      exact ⟨hrec.bare, (hping.skips.append hsplit.skips).append hrec.skips⟩
    | @cached r' i b hu =>
      have hping : Quiet a net (r'.pingDubious net now sa.family i b.nodes) :=
        (hu.touched.bare h).pingDubious (h sa.family b (List.mem_of_getElem? hu.bucket)).nodes i
      rw [Option.some_inj.mp hresult]
      refine ⟨hping.bare.modifyBucket fun c _ hc => ?_, hping.skips⟩
      split_ifs
      · exact ⟨hc.nodes, bare_memcpy hsa hbare c.cached⟩
      · exact hc
    | added hu _ =>
      rw [Option.some_inj.mp hresult]
      refine Bare.quiet ((hu.touched.bare h).modifyBucket fun c _ hc => ?_)
      refine ⟨List.forall_mem_cons.mpr ⟨?_, hc.nodes⟩, hc.cached⟩
      exact bareNode_memcpy hsa hbare zeroStorage rfl rfl

theorem Bare.newNode (h : r.Bare a) (id : Id) (confirm : ℕ) :
    Quiet a net ((r.newNode net now id sa salen confirm).1,
      (r.newNode net now id sa salen confirm).2.1) := by
  unfold Routing.newNode
  cases hout : newNodeFuel net now id sa salen confirm 161 r with
  | none => exact h.quiet
  | some out => exact bare_newNodeFuel ha hsa hbare 161 h hout

end NewNode

end Routing

/-! ## Searches -/

/-- A node of a search of family `af` whose address is kept bare, up to the size of a
`struct sockaddr_storage`. -/
structure BareSearchNode (a : Sockaddr) (af : ℕ) (n : SearchNode) : Prop where
  family : n.ss.family = af
  isSockaddr : IsSockaddr n.ss n.sslen
  behind : n.ss.drop n.sslen = List.replicate (sizeofSockaddrStorage - n.sslen) 0
  bare : Bare a n.ss n.sslen

variable {af : ℕ} {n : SearchNode} {now : ℤ} {r : Routing}

/-- `send_announce_peer` is passed the size of a `struct sockaddr_storage`. -/
theorem BareSearchNode.bare_storage (h : BareSearchNode a af n) :
    Bare a n.ss sizeofSockaddrStorage := by
  intro heq
  have hss : n.ss = padded a :=
    calc n.ss = n.ss.take n.sslen ++ n.ss.drop n.sslen := (List.take_append_drop _ _).symm
      _ = (padded a).take n.sslen ++ (padded a).drop n.sslen := by
        rw [h.bare heq, h.behind, ← padded_congr heq, drop_padded h.isSockaddr]
      _ = padded a := List.take_append_drop _ _
  rw [hss]

namespace Search

/-- The addresses of the nodes of a search are kept bare. -/
def Bare (a : Sockaddr) (sr : Search) : Prop := ∀ n ∈ sr.nodes, BareSearchNode a sr.af n

variable {sr : Search} {id : Id}

theorem bareSearchNode_update (hsa : IsSockaddr sa salen) (hbare : DtnDht.Bare a sa salen)
    (hbehind : n.ss.drop salen = List.replicate (sizeofSockaddrStorage - salen) 0)
    (replied : Bool) (token : Option Bytes) :
    BareSearchNode a sa.family (n.update now sa salen replied token) := by
  have hss : (n.update now sa salen replied token).ss = memcpy n.ss sa salen := by
    unfold SearchNode.update
    dsimp only
    split <;> split_ifs <;> rfl
  have hlen : (n.update now sa salen replied token).sslen = salen := by
    unfold SearchNode.update
    dsimp only
    split <;> split_ifs <;> rfl
  refine ⟨?_, ?_, ?_, ?_⟩
  · rw [hss]
    exact congrArg Prod.fst (endpoint_memcpy hsa n.ss)
  · rw [hss, hlen]
    exact isSockaddr_memcpy hsa n.ss
  · rw [hss, hlen, drop_memcpy n.ss hsa.2]
    exact hbehind
  · rw [hss, hlen]
    exact bare_memcpy hsa hbare n.ss

theorem Bare.insertSearchNode (h : sr.Bare a) (hsa : IsSockaddr sa salen)
    (hbare : DtnDht.Bare a sa salen) (now : ℤ) (id : Id) (replied : Bool) (token : Option Bytes) :
    (sr.insertSearchNode now id sa salen replied token).Bare a := by
  unfold Search.insertSearchNode
  split_ifs with hfam
  · exact h
  · rw [not_not] at hfam
    intro n hn
    dsimp only
    rw [← hfam]
    rcases mem_insertNodeAt (List.mem_of_mem_take hn) with hn | rfl | ⟨old, hold, -, rfl⟩
    · exact hfam ▸ h n hn
    · refine bareSearchNode_update hsa hbare ?_ replied token
      exact List.drop_replicate
    · have hold := h old hold
      refine bareSearchNode_update hsa hbare ?_ replied token
      have hlen : old.sslen = salen := by
        rw [salen_eq hold.isSockaddr, salen_eq hsa, hold.family, hfam]
      exact hlen ▸ hold.behind

theorem Bare.insertBucketAt (h : sr.Bare a) (hr : r.Bare a) (now : ℤ) (i : ℕ) :
    (sr.insertBucketAt now r i).Bare a := by
  unfold Search.insertBucketAt
  cases hb : (r.table sr.af)[i]? with
  | none => exact h
  | some b =>
    have hnodes := (hr sr.af b (List.mem_of_getElem? hb)).nodes
    refine List.foldlRecOn b.nodes _ h fun sr hsr n hn => ?_
    exact hsr.insertSearchNode (hnodes n hn).isSockaddr (hnodes n hn).bare _ _ _ _

theorem Bare.insertClosest (h : sr.Bare a) (hr : r.Bare a) (now : ℤ) (myid : Id) (i : ℕ) :
    (sr.insertClosest now r myid i).Bare a := by
  have hopt {sr : Search} (h : sr.Bare a) (p : Option ℕ) :
      (p.elim sr fun i => sr.insertBucketAt now r i).Bare a := by
    cases p with
    | none => exact h
    | some i => exact h.insertBucketAt hr now i
  have h₁ := h.insertBucketAt hr now i
  have h₂ := hopt (h₁.insertBucketAt hr now (i + 1)) (previousBucket i)
  unfold Search.insertClosest
  dsimp only
  split_ifs
  · exact hopt h₂ _
  · exact h₂
  · exact h₁

theorem bare_resetNodes (now : ℤ) {nodes : List SearchNode}
    (h : ∀ n ∈ nodes, BareSearchNode a af n) :
    ∀ n ∈ resetNodes now nodes, BareSearchNode a af n := by
  fun_induction resetNodes now nodes with
  | case1 => exact h
  | case2 first _ => exact fun n hn => absurd hn List.not_mem_nil
  | case3 first _ second nodes ih =>
    rw [List.forall_mem_cons, List.forall_mem_cons] at h
    exact List.forall_mem_cons.mpr ⟨h.2.1, ih h.2.2⟩
  | case4 first nodes _ ih =>
    rw [List.forall_mem_cons] at h
    refine List.forall_mem_cons.mpr ⟨?_, ih h.2⟩
    exact ⟨h.1.family, h.1.isSockaddr, h.1.behind, h.1.bare⟩

theorem bare_flushId {nodes : List SearchNode} (h : ∀ n ∈ nodes, BareSearchNode a af n) :
    ∀ n ∈ flushId id nodes, BareSearchNode a af n := by
  fun_induction flushId id nodes with
  | case1 => exact h
  | case2 first _ => exact fun n hn => absurd hn List.not_mem_nil
  | case3 first _ second nodes ih =>
    rw [List.forall_mem_cons, List.forall_mem_cons] at h
    exact List.forall_mem_cons.mpr ⟨h.2.1, ih h.2.2⟩
  | case4 first nodes _ ih =>
    rw [List.forall_mem_cons] at h
    exact List.forall_mem_cons.mpr ⟨h.1, ih h.2⟩

/-- A search and a table that keep the address bare, and packets none of which goes to it if it is
refused. -/
structure Quiet (a : Sockaddr) (net : Net) (out : Search × Routing × List Packet) : Prop where
  search : out.1.Bare a
  table : out.2.1.Bare a
  skips : net.Skips a out.2.2

theorem Bare.quiet (h : sr.Bare a) (hr : r.Bare a) : Quiet a net (sr, r, []) := ⟨h, hr, skips_nil⟩

variable (ha : a.family ≠ 0)
include ha

theorem Bare.sendGetPeers (h : sr.Bare a) (hr : r.Bare a) (j : ℕ) :
    Quiet a net ((sr.sendGetPeers net now r j).1, (sr.sendGetPeers net now r j).2.1,
      (sr.sendGetPeers net now r j).2.2.1) := by
  unfold Search.sendGetPeers
  cases hn : sr.nodes[j]? with
  | none => exact h.quiet hr
  | some n =>
    have hbare := h n (List.mem_of_getElem? hn)
    dsimp only
    by_cases hask : toAsk now n = true
    · rw [if_pos hask]
      have hmark : Routing.Quiet a net (r.markPinged net now n.id n.ss.family) :=
        hr.markPinged ha n.id n.ss.family
      refine ⟨fun m hm => ?_, hmark.bare, (skips_dhtSendBuf hbare.bare _ _).append hmark.skips⟩
      rcases List.mem_or_eq_of_mem_set hm with hm | rfl
      · exact h m hm
      · exact ⟨hbare.family, hbare.isSockaddr, hbare.behind, hbare.bare⟩
    · rw [if_neg hask]
      exact h.quiet hr

theorem Bare.sendGetPeersNext (h : sr.Bare a) (hr : r.Bare a) :
    Quiet a net (sr.sendGetPeersNext net now r) := by
  unfold Search.sendGetPeersNext
  cases sr.pickNode now with
  | none => exact h.quiet hr
  | some j => exact h.sendGetPeers ha hr j

theorem bare_announceNodes {nodes : List SearchNode} (h : ∀ n ∈ nodes, BareSearchNode a af n)
    (hr : r.Bare a) (j : ℕ) :
    (∀ n ∈ (announceNodes net now sr j nodes r).1, BareSearchNode a af n) ∧
      (announceNodes net now sr j nodes r).2.1.Bare a ∧
      net.Skips a (announceNodes net now sr j nodes r).2.2.1 := by
  induction nodes generalizing j r with
  | nil => exact ⟨h, hr, skips_nil⟩
  | cons n nodes ih =>
    rw [List.forall_mem_cons] at h
    cases j with
    | zero => exact ⟨List.forall_mem_cons.mpr h, hr, skips_nil⟩
    | succ j =>
      rw [announceNodes]
      have hn' : BareSearchNode a af (if n.token = [] then { n with acked := true } else n) := by
        split_ifs
        · exact ⟨h.1.family, h.1.isSockaddr, h.1.behind, h.1.bare⟩
        · exact h.1
      generalize (if n.token = [] then { n with acked := true } else n) = n' at hn'
      dsimp only
      by_cases h3 : 3 ≤ n.pinged
      · obtain ⟨hnodes, htable, hskips⟩ := ih h.2 hr (j + 1)
        rw [if_pos h3]
        exact ⟨List.forall_mem_cons.mpr ⟨h.1, hnodes⟩, htable, hskips⟩
      · rw [if_neg h3]
        by_cases hack : n'.acked = true
        · obtain ⟨hnodes, htable, hskips⟩ := ih h.2 hr j
          rw [if_pos hack]
          exact ⟨List.forall_mem_cons.mpr ⟨hn', hnodes⟩, htable, hskips⟩
        · have hmark : Routing.Quiet a net (r.markPinged net now n'.id n'.ss.family) :=
            hr.markPinged ha n'.id n'.ss.family
          obtain ⟨hnodes, htable, hskips⟩ := ih h.2 hmark.bare j
          rw [if_neg hack]
          refine ⟨List.forall_mem_cons.mpr ⟨?_, hnodes⟩, htable, Net.Skips.append ?_ hskips⟩
          · exact ⟨hn'.family, hn'.isSockaddr, hn'.behind, hn'.bare⟩
          · exact (skips_dhtSendBuf hn'.bare_storage _ _).append hmark.skips

theorem bare_askNodes (h : sr.Bare a) (hr : r.Bare a) (asked : ℕ) (js : List ℕ) :
    Quiet a net (askNodes net now r sr asked js) := by
  induction js generalizing sr r asked with
  | nil => exact h.quiet hr
  | cons j js ih =>
    have hone : Quiet a net ((sr.sendGetPeers net now r j).1, (sr.sendGetPeers net now r j).2.1,
        (sr.sendGetPeers net now r j).2.2.1) := h.sendGetPeers ha hr j
    unfold askNodes
    dsimp only
    split_ifs
    · exact hone
    · have hrest := ih hone.search hone.table (asked + (sr.sendGetPeers net now r j).2.2.2)
      exact ⟨hrest.search, hrest.table, hone.skips.append hrest.skips⟩

theorem Bare.step (h : sr.Bare a) (hr : r.Bare a) :
    Quiet a net ((sr.step net now r).1, (sr.step net now r).2.1, (sr.step net now r).2.2.1) := by
  unfold Search.step
  split_ifs
  · exact ⟨h, hr, skips_nil⟩
  · dsimp only
    split_ifs
    · obtain ⟨hnodes, htable, hskips⟩ := bare_announceNodes ha h hr 8
      exact ⟨hnodes, htable, hskips⟩
    · obtain ⟨hnodes, htable, hskips⟩ := bare_announceNodes ha h hr 8
      exact ⟨hnodes, htable, hskips⟩
  · exact h.quiet hr
  · have hask : Quiet a net (askNodes net now r sr 0 (List.range sr.nodes.length)) :=
      bare_askNodes ha h hr 0 (List.range sr.nodes.length)
    exact ⟨hask.search, hask.table, hask.skips⟩

end Search

end DtnDht
