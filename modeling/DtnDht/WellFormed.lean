import DtnDht.Writes
import DtnDht.SearchNodes
import DtnDht.StorageArray

/-!
# Every state of a process is in order

The invariants of the single data structures, together, in every state that a process comes to:
whatever the application calls, starts and stops of the node included, whatever datagrams come
in, and whichever allocations in `dht_init` fail. Every write keeps them (`WellFormed.write`), and
starting and stopping leaves nothing out of order (`WellFormed.restart`).
-/

namespace DtnDht

open CString Relation

/-! ## Searches -/

/-- The nodes `ns'` come from `ns`: their ids are some of those, in the same order, and so are
their tokens, as far as they are not dropped. -/
structure Thins (ns ns' : List SearchNode) : Prop where
  ids : (ns'.map SearchNode.id).Sublist (ns.map SearchNode.id)
  tokens : ∀ n' ∈ ns', n'.token = [] ∨ ∃ n ∈ ns, n'.token = n.token

/-- What `Thins` is about. -/
def SearchNode.label (n : SearchNode) : Id × Bytes := (n.id, n.token)

section

variable {ns ns' : List SearchNode}

theorem thins_of_labels (h : ns'.map SearchNode.label = ns.map SearchNode.label) :
    Thins ns ns' := by
  have hids : ns'.map SearchNode.id = ns.map SearchNode.id := by
    have hfst := congrArg (List.map Prod.fst) h
    rwa [List.map_map, List.map_map] at hfst
  refine ⟨by rw [hids], fun n' hn' => ?_⟩
  have hmem : n'.label ∈ ns.map SearchNode.label := h ▸ List.mem_map_of_mem hn'
  obtain ⟨n, hn, he⟩ := List.mem_map.mp hmem
  exact Or.inr ⟨n, hn, (congrArg Prod.snd he).symm⟩

theorem thins_of_sublist (h : ns'.Sublist ns) : Thins ns ns' :=
  ⟨h.map _, fun n' hn' => Or.inr ⟨n', h.subset hn', rfl⟩⟩

theorem sublist_flushId (id : Id) (ns : List SearchNode) : (flushId id ns).Sublist ns := by
  fun_induction flushId id ns with
  | case1 => exact List.Sublist.refl []
  | case2 n h => exact List.nil_sublist _
  | case3 n h m ns ih => exact (ih.cons_cons m).cons n
  | case4 n ns h ih => exact ih.cons_cons n

theorem Thins.cons {n n' : SearchNode} (h : Thins ns ns') (hid : n'.id = n.id)
    (ht : n'.token = [] ∨ n'.token = n.token) : Thins (n :: ns) (n' :: ns') := by
  constructor
  · rw [List.map_cons, List.map_cons, hid]
    exact h.ids.cons_cons _
  · intro m hm
    rcases List.mem_cons.mp hm with rfl | hm
    · exact ht.imp_right fun ht => ⟨n, List.mem_cons_self, ht⟩
    · rcases h.tokens m hm with h0 | ⟨k, hk, he⟩
      · exact Or.inl h0
      · exact Or.inr ⟨k, List.mem_cons_of_mem n hk, he⟩

theorem Thins.skip (h : Thins ns ns') (n : SearchNode) : Thins (n :: ns) ns' := by
  constructor
  · exact h.ids.cons _
  · intro m hm
    rcases h.tokens m hm with h0 | ⟨k, hk, he⟩
    · exact Or.inl h0
    · exact Or.inr ⟨k, List.mem_cons_of_mem n hk, he⟩

theorem thins_resetNodes (now : ℤ) (ns : List SearchNode) : Thins ns (resetNodes now ns) := by
  fun_induction resetNodes now ns with
  | case1 => exact thins_of_sublist (List.Sublist.refl [])
  | case2 n h => exact thins_of_sublist (List.nil_sublist _)
  | case3 n h m ns ih => exact (ih.cons rfl (Or.inr rfl)).skip n
  | case4 n ns h ih => exact ih.cons rfl (Or.inl rfl)

theorem labels_sendGetPeers (net : Net) (now : ℤ) (r : Routing) (sr : Search) (j : ℕ) :
    (sr.sendGetPeers net now r j).1.id = sr.id ∧
      (sr.sendGetPeers net now r j).1.nodes.map SearchNode.label =
        sr.nodes.map SearchNode.label := by
  unfold Search.sendGetPeers
  cases hn : sr.nodes[j]? with
  | none => exact ⟨rfl, rfl⟩
  | some n =>
    dsimp only
    by_cases hask : Search.toAsk now n = true
    · rw [if_pos hask]
      exact ⟨rfl, List.map_set_of_eq hn rfl⟩
    · rw [if_neg hask]
      exact ⟨rfl, rfl⟩

theorem labels_askNodes (net : Net) (now : ℤ) (r : Routing) (sr : Search) (asked : ℕ)
    (js : List ℕ) :
    (Search.askNodes net now r sr asked js).1.id = sr.id ∧
      (Search.askNodes net now r sr asked js).1.nodes.map SearchNode.label =
        sr.nodes.map SearchNode.label := by
  induction js generalizing r sr asked with
  | nil => exact ⟨rfl, rfl⟩
  | cons j js ih =>
    obtain ⟨hid, hlabels⟩ := labels_sendGetPeers net now r sr j
    unfold Search.askNodes
    dsimp only
    split_ifs
    · exact ⟨hid, hlabels⟩
    · obtain ⟨hid', hlabels'⟩ := ih (sr.sendGetPeers net now r j).2.1
        (sr.sendGetPeers net now r j).1 (asked + (sr.sendGetPeers net now r j).2.2.2)
      exact ⟨hid'.trans hid, hlabels'.trans hlabels⟩

theorem labels_announceNodes (net : Net) (now : ℤ) (sr : Search) (j : ℕ) (nodes : List SearchNode)
    (r : Routing) : (Search.announceNodes net now sr j nodes r).1.map SearchNode.label =
      nodes.map SearchNode.label := by
  induction nodes generalizing j r with
  | nil => cases j <;> rfl
  | cons n nodes ih =>
    cases j with
    | zero => rfl
    | succ j =>
      have hacked : (if n.token = [] then { n with acked := true } else n).label = n.label := by
        split_ifs <;> rfl
      unfold Search.announceNodes
      dsimp only
      generalize (if n.token = [] then { n with acked := true } else n) = n' at hacked
      by_cases hpinged : 3 ≤ n.pinged
      · rw [if_pos hpinged, List.map_cons, List.map_cons, ih]
      · rw [if_neg hpinged]
        by_cases ha : n'.acked = true
        · rw [if_pos ha, List.map_cons, List.map_cons, ih, hacked]
        · rw [if_neg ha, List.map_cons, List.map_cons, ih, ← hacked]
          rfl

theorem labels_step (net : Net) (now : ℤ) (r : Routing) (sr : Search) :
    (sr.step net now r).1.id = sr.id ∧
      (sr.step net now r).1.nodes.map SearchNode.label = sr.nodes.map SearchNode.label := by
  unfold Search.step
  split_ifs
  · exact ⟨rfl, rfl⟩
  · dsimp only
    split_ifs <;> exact ⟨rfl, labels_announceNodes net now sr 8 sr.nodes r⟩
  · exact ⟨rfl, rfl⟩
  · exact labels_askNodes net now r sr 0 _

theorem labels_acknowledge (now : ℤ) (id : Id) (sr : Search) :
    (sr.acknowledge now id).nodes.map SearchNode.label = sr.nodes.map SearchNode.label := by
  unfold Search.acknowledge
  cases sr.nodes.findIdx? fun n => idCmp n.id id = .eq with
  | none => rfl
  | some j => exact List.map_modify_of_eq fun n _ => rfl

end

/-- The nodes of a search are strictly increasing in distance, there are at most 14, and no token is
longer than its array. -/
structure Search.Ordered (sr : Search) : Prop where
  increasing : (sr.nodes.map fun n => sr.id.dist n.id).Pairwise (· < ·)
  length_le : sr.nodes.length ≤ searchNodes
  token_lt : ∀ n ∈ sr.nodes, n.token.length < 40

section

variable {sr sr' : Search}

theorem Search.ordered_of_empty (h : sr.nodes = []) : sr.Ordered := by
  constructor
  · rw [h]
    exact List.Pairwise.nil
  · rw [h]
    exact Nat.zero_le _
  · rw [h]
    exact fun n hn => absurd hn List.not_mem_nil

theorem Search.Ordered.insertSearchNode (h : sr.Ordered) (now : ℤ) (id : Id) (sa : Sockaddr)
    (salen : ℕ) (replied : Bool) (token : Option Bytes) :
    (sr.insertSearchNode now id sa salen replied token).Ordered := by
  unfold Search.insertSearchNode
  split_ifs
  · exact h
  · constructor
    · dsimp only
      rw [List.map_take, map_dist_insertNodeAt fun _ => id_update]
      exact (Closest.pairwise_ins h.increasing).sublist (List.take_sublist _ _)
    · exact List.length_take_le _ _
    · intro n hn
      rcases mem_insertNodeAt (List.mem_of_mem_take hn) with hn | rfl | ⟨old, hold, -, rfl⟩
      · exact h.token_lt n hn
      · exact length_token_update (Nat.zero_lt_succ 39)
      · exact length_token_update (h.token_lt old hold)

theorem Search.Ordered.thins (h : sr.Ordered) (hid : sr'.id = sr.id)
    (ht : Thins sr.nodes sr'.nodes) : sr'.Ordered := by
  constructor
  · have hsub := ht.ids.map sr.id.dist
    rw [List.map_map, List.map_map] at hsub
    rw [hid]
    exact h.increasing.sublist hsub
  · have hlen := ht.ids.length_le
    rw [List.length_map, List.length_map] at hlen
    exact hlen.trans h.length_le
  · intro n' hn'
    rcases ht.tokens n' hn' with h0 | ⟨n, hn, he⟩
    · rw [h0]
      exact Nat.zero_lt_succ 39
    · rw [he]
      exact h.token_lt n hn

theorem Search.Ordered.write {now : ℤ} (h : sr.Ordered) (hw : SearchWrite now sr sr') :
    sr'.Ordered := by
  cases hw with
  | insert id sa salen replied token => exact h.insertSearchNode now id sa salen replied token
  | flush id => exact h.thins rfl (thins_of_sublist (sublist_flushId id sr.nodes))
  | acknowledge id => exact h.thins rfl (thins_of_labels (labels_acknowledge now id sr))
  | ask net r j =>
    obtain ⟨hid, hlabels⟩ := labels_sendGetPeers net now r sr j
    exact h.thins hid (thins_of_labels hlabels)
  | step net r =>
    obtain ⟨hid, hlabels⟩ := labels_step net now r sr
    exact h.thins hid (thins_of_labels hlabels)

theorem Search.Ordered.startWrite {now : ℤ} (h : sr.Ordered) (hw : SearchStartWrite now sr sr') :
    sr'.Ordered := by
  cases hw with
  | write hw => exact h.write hw
  | restart => exact h.thins rfl (thins_resetNodes now sr.nodes)
  | start af tid id => exact Search.ordered_of_empty rfl
  | port port => exact ⟨h.increasing, h.length_le, h.token_lt⟩

/-- What the single steps keep, searches written to by them keep. -/
theorem World.Wrote.forall {step : Search → Search → Prop} {old srs : List Search}
    {P : Search → Prop} (h : World.Wrote step old srs) (hold : ∀ sr ∈ old, P sr)
    (hstep : ∀ sr sr', P sr → step sr sr' → P sr') : ∀ sr ∈ srs, P sr := by
  intro sr' hsr'
  obtain ⟨sr, hsr, hw⟩ := h sr' hsr'
  clear hsr'
  induction hw with
  | refl => exact hold sr hsr
  | tail _ h' ih => exact hstep _ _ ih h'

end

/-! ## The statics -/

/-- The list of storages is what an array store in order holds. -/
def StorageOk (storage : List Storage) : Prop :=
  ∃ s : Store, StoreOk s ∧ s.storage.map StorageRecord.toStorage = storage

theorem Evolves.routingOk {net : Net} {r r' : Routing} (h : Evolves net r r')
    (hr : RoutingOk net.myid r) : RoutingOk net.myid r' := by
  obtain ⟨es, hes, rfl⟩ := h
  exact Routing.routingOk_run hr hes

namespace World

/-- The statics are in order. -/
structure WellFormed (w : World) : Prop where
  routing : RoutingOk w.myid w.routing
  searches : ∀ sr ∈ w.searches, sr.Ordered
  storage : StorageOk w.storage

variable {w w' : World}

theorem WellFormed.of_core (h : w.WellFormed) (hcore : w'.core = w.core) : w'.WellFormed := by
  simp only [core, Statics.mk.injEq] at hcore
  obtain ⟨hmyid, -, hrouting, hsearches, -, hstorage, -, -⟩ := hcore
  refine ⟨?_, ?_, ?_⟩
  · rw [hmyid, hrouting]
    exact h.routing
  · rw [hsearches]
    exact h.searches
  · rw [hstorage]
    exact h.storage

/-- Every write keeps the statics in order. -/
theorem WellFormed.write (h : w.WellFormed) (hw : Write w w') : w'.WellFormed := by
  cases hw with
  | other hcore _ => exact h.of_core hcore
  | gettimeofday => exact ⟨h.routing, h.searches, h.storage⟩
  | routing hr => exact ⟨hr.routingOk h.routing, h.searches, h.storage⟩
  | searches hs => exact ⟨h.routing, hs.forall h.searches fun _ _ => .write, h.storage⟩
  | searchTime => exact ⟨h.routing, h.searches, h.storage⟩
  | dhtSearch hs =>
    refine ⟨h.routing, hs.forall (fun sr hsr => ?_) fun _ _ => .startWrite, h.storage⟩
    rcases List.mem_cons.mp hsr with rfl | hsr
    · exact Search.ordered_of_empty rfl
    · exact h.searches sr hsr
  | storageStore id sa port =>
    obtain ⟨s, hs, hlist⟩ := h.storage
    refine ⟨h.routing, h.searches, ?_⟩
    exact ⟨_, storeOk_store hs id sa true, by
      rw [toStorage_storage_store hs id sa fun _ => ⟨0, [], 0⟩, hlist]⟩
  | expireStorage =>
    obtain ⟨s, hs, hlist⟩ := h.storage
    exact ⟨h.routing, h.searches, _, storeOk_expire hs, by rw [toStorage_storage_expire hs, hlist]⟩
  | rotateSecrets => exact ⟨h.routing, h.searches, h.storage⟩

theorem WellFormed.writes (h : w.WellFormed) (hw : Writes w w') : w'.WellFormed := by
  induction hw with
  | refl => exact h
  | tail _ hstep ih => exact ih.write hstep

/-! ## Starting and stopping -/

theorem storageOk_nil : StorageOk [] := ⟨⟨[], 0⟩, storeOk_empty, rfl⟩

/-- No searches, no peers, and tables that are in order whatever the own id is. -/
structure Blank (w : World) : Prop where
  routing : ∀ id, RoutingOk id w.routing
  searches : w.searches = []
  storage : w.storage = []

theorem Blank.wellFormed (h : w.Blank) : w.WellFormed := by
  refine ⟨h.routing w.myid, ?_, ?_⟩
  · rw [h.searches]
    exact fun sr hsr => absurd hsr List.not_mem_nil
  · rw [h.storage]
    exact storageOk_nil

theorem Blank.setTable (h : w.Blank) {af : ℕ} (haf : IsFamily af) {bs : List Bucket}
    (hbs : ∀ id, TableOk af id bs) :
    Blank { w with routing := w.routing.setTable af bs } :=
  ⟨fun id => Routing.routingOk_setTable (h.routing id) haf (hbs id), h.searches, h.storage⟩

theorem tableOk_callocBucket {af : ℕ} (haf : IsFamily af) (id : Id) :
    TableOk af id [callocBucket af Id.zeroes] := by
  have h := Routing.routingOk_init id 0 0 0 af haf
  rcases haf with rfl | rfl <;> exact h

variable {s s6 : ℤ} {id : Id} {v : Option Bytes} {oc : InitOutcomes}

theorem Blank.initFail (h : w.Blank) : w.initFail.2.Blank :=
  h.setTable (Or.inl rfl) fun _ => Or.inl rfl

theorem Blank.initRest (h : w.Blank) : (w.initRest s s6 id v oc).2.WellFormed := by
  have hstatics : (w.initStatics id v).Blank := ⟨h.routing, h.searches, h.storage⟩
  unfold World.initRest
  dsimp only
  split_ifs
  · have hsockets : Blank { w.initStatics id v with dhtSocket := s, dhtSocket6 := s6 } :=
      ⟨hstatics.routing, hstatics.searches, hstatics.storage⟩
    have hrefl : Writes { w.initStatics id v with dhtSocket := s, dhtSocket6 := s6 } _ := .refl
    exact hsockets.wellFormed.writes hrefl.expireBuckets
  · exact hstatics.initFail.wellFormed

theorem Blank.initFamily6 (h : w.Blank) : (w.initFamily6 s s6 id v oc).2.WellFormed := by
  have htable := h.setTable (Or.inr rfl) (tableOk_callocBucket (Or.inr rfl))
  unfold World.initFamily6
  split_ifs
  · exact htable.initRest
  · exact htable.initFail.wellFormed
  · exact h.wellFormed
  · exact h.initRest

theorem Blank.initFamily (h : w.Blank) : (w.initFamily s s6 id v oc).2.WellFormed := by
  have htable := h.setTable (Or.inl rfl) (tableOk_callocBucket (Or.inl rfl))
  unfold World.initFamily
  split_ifs
  · exact htable.initFamily6
  · exact htable.initFail.wellFormed
  · exact h.wellFormed
  · exact h.initFamily6

/-- `dht_init` finds no buckets, or does nothing. -/
theorem WellFormed.dhtInitWith (h : w.WellFormed) :
    (w.dhtInitWith s s6 id v oc).2.WellFormed := by
  unfold World.dhtInitWith
  split_ifs with hbusy
  · exact h
  · simp only [not_or, not_not] at hbusy
    obtain ⟨-, -, hbuckets, hbuckets6⟩ := hbusy
    refine Blank.initFamily ⟨fun id af haf => Or.inl ?_, rfl, rfl⟩
    rcases haf with rfl | rfl
    · exact hbuckets
    · exact hbuckets6

theorem WellFormed.dhtUninit (h : w.WellFormed) : w.dhtUninit.2.WellFormed := by
  unfold World.dhtUninit
  split_ifs
  · exact h
  · refine Blank.wellFormed ⟨fun id af haf => Or.inl ?_, rfl, rfl⟩
    rcases haf with rfl | rfl <;> rfl

end World

/-! ## Processes -/

namespace Process

variable {p : Process} {c : ProcessCall}

theorem wellFormed_call (h : p.world.WellFormed) (hc : c.Valid) : (p.call c).world.WellFormed := by
  cases hr : c.restarts with
  | false => exact h.writes (p.writes_call hr hc)
  | true =>
    cases c with
    | init ctx id oc =>
      have hready : (p.world.readyToInit ctx).WellFormed := h.of_core rfl
      exact hready.dhtInitWith
    | uninit =>
      have hempty : World.Writes p.freeRatings.world p.freeRatings.world.emptyLists :=
        World.Writes.cleanUpLookups
          (World.Writes.cleanUpAnnouncements .refl _ (-1)) (-1)
      have hfree : p.freeRatings.world.WellFormed := h.of_core rfl
      have hlists := hfree.writes hempty
      have hblacklist : World.WellFormed { p.freeRatings.world.emptyLists with
          dtn := { p.freeRatings.world.emptyLists.dtn with
            blacklist := p.freeRatings.world.emptyLists.dtn.blacklist.free } } :=
        hlists.of_core rfl
      exact hblacklist.dhtUninit
    | api | blacklist | startRandomLookup | insertNode | pingNode =>
      exact absurd hr Bool.noConfusion

theorem wellFormed_after (env : Env) {past : List ProcessCall} (hv : ∀ c ∈ past, c.Valid) :
    ((start env).after past).world.WellFormed := by
  induction past with
  | nil =>
    refine World.Blank.wellFormed ⟨fun id af haf => Or.inl ?_, rfl, rfl⟩
    rcases haf with rfl | rfl <;> rfl
  | cons c past ih =>
    exact wellFormed_call (ih fun c hc => hv c (List.mem_cons_of_mem _ hc))
      (hv c List.mem_cons_self)

end Process

/-! ## The invariant, spelt out -/

/-- A list of storages as `storage_store` and `expire_storage` keep it. -/
structure StorageInvariant (storage : List Storage) : Prop where
  distinct : (storage.map Storage.id).Nodup
  length_le : storage.length ≤ dhtMaxHashes
  peers_le : ∀ st ∈ storage, st.peers.length ≤ st.maxpeers ∧ st.maxpeers ≤ dhtMaxPeers
  peers_distinct : ∀ st ∈ storage, (st.peers.map Peer.key).Nodup

theorem StorageOk.invariant {storage : List Storage} (h : StorageOk storage) :
    StorageInvariant storage := by
  obtain ⟨s, hs, rfl⟩ := h
  have hrecord : ∀ st ∈ s.storage.map StorageRecord.toStorage,
      ∃ rec, RecordOk rec ∧ st = rec.toStorage := by
    intro st hst
    obtain ⟨rec, hrec, rfl⟩ := List.mem_map.mp hst
    exact ⟨rec, hs.records rec hrec, rfl⟩
  constructor
  · rw [List.map_map]
    exact hs.distinct
  · rw [List.length_map]
    exact hs.le
  · intro st hst
    obtain ⟨rec, hrec, rfl⟩ := hrecord st hst
    exact ⟨hrec.length_peers.trans_le hrec.numpeers_le, hrec.maxpeers_le⟩
  · intro st hst
    obtain ⟨rec, hrec, rfl⟩ := hrecord st hst
    exact hrec.distinct

/-- **Every state of a process is in order**: the buckets of both families, the nodes of every
search, and the stored peers, after any calls whatever. -/
theorem process_invariant (env : Env) {past : List ProcessCall} (hv : ∀ c ∈ past, c.Valid) :
    let w := ((Process.start env).after past).world
    (∀ af, IsFamily af → TableInvariant af w.myid (w.routing.table af)) ∧
      (∀ sr ∈ w.searches, (sr.nodes.map fun n => sr.id.dist n.id).Pairwise (· < ·) ∧
        sr.nodes.length ≤ searchNodes ∧ ∀ n ∈ sr.nodes, n.token.length < 40) ∧
      StorageInvariant w.storage := by
  have h := Process.wellFormed_after env hv
  exact ⟨fun af haf => (h.routing af haf).invariant,
    fun sr hsr => ⟨(h.searches sr hsr).increasing, (h.searches sr hsr).length_le,
      (h.searches sr hsr).token_lt⟩, h.storage.invariant⟩

theorem valid_meetNodes {call : ApiCall} (h : call ∈ World.meetNodes) (lib : Platform)
    (ctx : Context) : (ProcessCall.api lib ctx call).Valid := by
  obtain ⟨n, -, rfl⟩ := List.mem_map.mp h
  exact World.fromSockaddr_some (isSockaddr_sockaddrIn rfl rfl)

theorem Process.valid_busy : ∀ c ∈ busy, c.Valid := by
  intro c hc
  rcases List.mem_append.mp hc with hc | hc
  · rcases List.mem_pair.mp hc with rfl | rfl
    · trivial
    · exact World.fromSockaddr_some (isSockaddr_sockaddrIn rfl rfl)
  · obtain ⟨call, hcall, rfl⟩ := List.mem_map.mp hc
    exact valid_meetNodes hcall _ _

/-- A node that knows others, searches for an EID and has stored a peer, before and after it was
restarted. -/
theorem process_invariant_busy :
    let w := ((Process.start (Env.still 1000)).after (Process.busy ++
      .init World.ipv4Context (Id.ofBytes [1]) .succeed :: .uninit ::
        (Process.busy ++ [.init World.ipv4Context (Id.ofBytes [1]) .succeed]))).world
    ((∃ sr ∈ w.searches, sr.nodes ≠ []) ∧ w.storage ≠ []) ∧
      (∀ af, IsFamily af → TableInvariant af w.myid (w.routing.table af)) ∧
      (∀ sr ∈ w.searches, (sr.nodes.map fun n => sr.id.dist n.id).Pairwise (· < ·) ∧
        sr.nodes.length ≤ searchNodes ∧ ∀ n ∈ sr.nodes, n.token.length < 40) ∧
      StorageInvariant w.storage := by
  refine ⟨by decide +kernel, ?_⟩
  have hbefore : ∀ c ∈ Process.busy ++ [.init World.ipv4Context (Id.ofBytes [1]) .succeed],
      c.Valid :=
    List.forall_mem_append.mpr ⟨Process.valid_busy, List.forall_mem_singleton.mpr trivial⟩
  have hrestart : ∀ c ∈ ProcessCall.init World.ipv4Context (Id.ofBytes [1]) .succeed :: .uninit ::
      (Process.busy ++ [.init World.ipv4Context (Id.ofBytes [1]) .succeed]), c.Valid :=
    List.forall_mem_cons.mpr ⟨trivial, List.forall_mem_cons.mpr ⟨trivial, hbefore⟩⟩
  exact process_invariant (Env.still 1000)
    (List.forall_mem_append.mpr ⟨Process.valid_busy, hrestart⟩)

end DtnDht
