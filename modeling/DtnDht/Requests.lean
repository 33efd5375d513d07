import DtnDht.Restart
import DtnDht.RoutingRun

/-!
# What a node sends of its own accord

Keeping up the routing table and stepping the searches, a node sends the four queries of the DHT
proper and nothing else. It answers nothing and reports no lookup, and it asks nobody for an EID
(`Routine`): all of that comes from the datagrams it receives.
-/

namespace DtnDht

open CString

/-! ## Packets -/

/-- How the queries of the DHT proper start. -/
def queryStart : Bytes := str "d1:ad2:id20:"

section

variable {net : Net} {tid out : Bytes}

theorem prefix_snprintf {start s : Bytes} {room : ℕ} (h : start <+: s) (hroom : start.length < room) :
    start <+: snprintf room s := by
  unfold snprintf
  split_ifs
  · exact h
  · refine List.prefix_take_iff.mpr ⟨List.IsPrefix.trans ?_ (List.prefix_append _ _), hroom.le⟩
    exact List.prefix_take_iff.mpr ⟨h, by omega⟩

/-- A packet starts with the text that is written first. -/
theorem prefix_of_inc {start head : Bytes} {size : ℕ} {rest : Bytes → Option Bytes}
    (hstart : start <+: head) (hsize : start.length < size) (hrest : Extends rest)
    (hout : out ∈ inc size head [] >>= rest) : start <+: out := by
  obtain ⟨buf, hbuf, hout⟩ := Option.bind_eq_some_iff.mp hout
  have hbegins : start <+: buf := by
    unfold inc at hbuf
    split_ifs at hbuf
    · exact Option.some_inj.mp hbuf ▸ prefix_snprintf hstart hsize
  exact hbegins.trans (hrest buf out hout)

theorem extends_addV (size : ℕ) (v : Option Bytes) : Extends (addV size v) := by
  cases v with
  | none => exact extends_some
  | some v => exact extends_copy size v

theorem extends_addWant (want : ℤ) : Extends (addWant want) :=
  .ite (extends_inc _ _) extends_some

theorem query_sendPing (hout : out ∈ sendPing net tid) : queryStart <+: out :=
  prefix_of_inc List.prefix_rfl (by decide) ((extends_copy _ _).bind ((extends_inc _ _).bind
    ((extends_copy _ _).bind ((extends_addV _ _).bind (extends_inc _ _))))) hout

theorem query_sendFindNode {target : Id} {want : ℤ} (hout : out ∈ sendFindNode net tid target want) :
    queryStart <+: out :=
  prefix_of_inc List.prefix_rfl (by decide) ((extends_copy _ _).bind ((extends_inc _ _).bind
    ((extends_copy _ _).bind ((extends_addWant _).bind ((extends_inc _ _).bind
    ((extends_copy _ _).bind ((extends_addV _ _).bind (extends_inc _ _)))))))) hout

theorem query_sendGetPeers {infohash : Id} {want : ℤ}
    (hout : out ∈ sendGetPeers net tid infohash want) : queryStart <+: out :=
  prefix_of_inc List.prefix_rfl (by decide) ((extends_copy _ _).bind ((extends_inc _ _).bind
    ((extends_copy _ _).bind ((extends_addWant _).bind ((extends_inc _ _).bind
    ((extends_copy _ _).bind ((extends_addV _ _).bind (extends_inc _ _)))))))) hout

theorem query_sendAnnouncePeer {infohash : Id} {port : UInt16} {token : Bytes}
    (hout : out ∈ sendAnnouncePeer net tid infohash port token) : queryStart <+: out :=
  prefix_of_inc List.prefix_rfl (by decide) ((extends_copy _ _).bind ((extends_inc _ _).bind
    ((extends_copy _ _).bind ((extends_inc _ _).bind ((extends_copy _ _).bind
    ((extends_inc _ _).bind ((extends_copy _ _).bind ((extends_addV _ _).bind
    (extends_inc _ _))))))))) hout

/-- The packets are queries of the DHT proper. -/
def Queries (pkts : List Packet) : Prop := ∀ p ∈ pkts, queryStart <+: p.payload

theorem queries_nil : Queries [] := fun _ hp => absurd hp List.not_mem_nil

theorem Queries.append {pkts pkts' : List Packet} (h : Queries pkts) (h' : Queries pkts') :
    Queries (pkts ++ pkts') := fun p hp => (List.mem_append.mp hp).elim (h p) (h' p)

theorem queries_dhtSendBuf {buf : Option Bytes} (h : ∀ out ∈ buf, queryStart <+: out) (net : Net)
    (flags : ℕ) (sa : Sockaddr) (salen : ℕ) : Queries (dhtSendBuf net buf flags sa salen) :=
  fun _ hp => h _ (mem_dhtSendBuf hp).1

end

/-! ## The routing table -/

namespace Routing

variable (net : Net) (now : ℤ) (r : Routing)

theorem queries_sendCachedPing (af i : ℕ) : Queries (r.sendCachedPing net af i).2 := by
  unfold sendCachedPing
  split
  · exact queries_nil
  · split_ifs
    · exact queries_nil
    · exact queries_dhtSendBuf (fun _ => query_sendPing) _ _ _ _

theorem queries_pinged (af i j : ℕ) (b : Option ℕ) : Queries (r.pinged net now af i j b).2 := by
  unfold pinged
  dsimp only
  split
  · exact queries_nil
  · split_ifs
    · split
      · exact queries_sendCachedPing net _ _ _
      · split
        · exact queries_nil
        · exact queries_sendCachedPing net _ _ _
    · exact queries_nil

theorem queries_markPinged (id : Id) (af : ℕ) : Queries (r.markPinged net now id af).2 := by
  unfold markPinged
  split
  · exact queries_nil
  · exact queries_pinged net now _ _ _ _ _

theorem queries_discardNode (id : Id) (af : ℕ) : Queries (r.discardNode net now id af).2 := by
  unfold discardNode
  split
  · exact queries_nil
  · exact queries_pinged net now _ _ _ _ _

theorem queries_askNode (af q j : ℕ) (id : Id) (want : ℤ) :
    Queries (r.askNode net now af q j id want).2 := by
  unfold askNode
  split
  · exact queries_nil
  · exact (queries_dhtSendBuf (fun _ => query_sendFindNode) _ _ _ _).append
      (queries_pinged net now r af q j (some q))

theorem queries_neighbourhoodMaintenance (af : ℕ) (rs : Random) :
    Queries (r.neighbourhoodMaintenance net now af rs).2.1 := by
  unfold neighbourhoodMaintenance
  split
  · exact queries_nil
  · dsimp only
    split
    · exact queries_nil
    · split
      · exact queries_nil
      · exact queries_askNode net now r _ _ _ _ _

theorem queries_bucketMaintenance (af : ℕ) (rs : Random) :
    Queries (r.bucketMaintenance net now af rs).2.1 := by
  unfold bucketMaintenance
  generalize List.range (r.table af).length = is
  induction is generalizing rs with
  | nil => exact queries_nil
  | cons i is ih =>
    rw [bucketMaintenanceFrom]
    split
    · exact queries_nil
    · rename_i b hb
      split_ifs
      · generalize bucketRandom b (r.table af)[i + 1]? rs = x
        obtain ⟨id, rs⟩ := x
        dsimp only
        generalize r.chooseBucket af i rs = y
        obtain ⟨q, rs⟩ := y
        dsimp only
        split
        · exact ih rs
        · rename_i b' hb'
          obtain ⟨_ | j, rs⟩ := randomNode b' rs
          · exact ih rs
          · exact queries_askNode net now r _ _ _ _ _
      · exact ih rs

theorem queries_expireBuckets : Queries (r.expireBuckets net).2 := by
  intro p hp
  obtain ⟨b, -, hp⟩ := List.mem_flatMap.mp hp
  unfold expireBucket at hp
  dsimp only at hp
  split_ifs at hp
  · exact absurd hp List.not_mem_nil
  · exact queries_dhtSendBuf (fun _ => query_sendPing) _ _ _ _ p hp

theorem queries_splitBucket (af i : ℕ) : Queries (r.splitBucket net af i).2 := by
  unfold splitBucket
  split
  · exact queries_nil
  · split
    · exact queries_nil
    · exact queries_sendCachedPing net _ _ _

theorem queries_pingDubious (af i : ℕ) (nodes : List Node) :
    Queries (r.pingDubious net now af i nodes).2 := by
  unfold pingDubious
  split
  · exact queries_nil
  · rename_i j _
    cases nodes[j]? with
    | none => exact queries_nil
    | some n => exact queries_dhtSendBuf (fun _ => query_sendPing) _ _ _ _

variable {r}

theorem queries_newNodeFuel (id : Id) (sa : Sockaddr) (salen confirm fuel : ℕ)
    {out : Routing × List Packet × Bool}
    (hout : newNodeFuel net now id sa salen confirm fuel r = some out) : Queries out.2.1 := by
  induction fuel generalizing r out with
  | zero => exact absurd hout nofun
  | succ fuel ih =>
    have hstep := newNodeStep net now id sa salen confirm fuel r
    rw [hout] at hstep
    generalize hresult : some out = result at hstep
    cases hstep with
    | refused | refreshed | replaced | added =>
      rw [Option.some_inj.mp hresult]
      exact queries_nil
    | split hu _ =>
      obtain ⟨out', hout', rfl⟩ := Option.map_eq_some_iff.mp hresult.symm
      exact ((queries_pingDubious net now _ _ _ _).append (queries_splitBucket net _ _ _)).append
        (ih hout')
    | cached hu =>
      rw [Option.some_inj.mp hresult]
      exact queries_pingDubious net now _ _ _ _

theorem queries_newNode (id : Id) (sa : Sockaddr) (salen confirm : ℕ) :
    Queries (r.newNode net now id sa salen confirm).2.1 := by
  unfold newNode
  cases hout : newNodeFuel net now id sa salen confirm 161 r with
  | none => exact queries_nil
  | some out => exact queries_newNodeFuel net now id sa salen confirm 161 hout

end Routing

/-! ## Searches -/

namespace Search

variable (net : Net) (now : ℤ) (r : Routing) (sr : Search)

theorem queries_sendGetPeers (j : ℕ) : Queries (sr.sendGetPeers net now r j).2.2.1 := by
  unfold sendGetPeers
  split
  · exact queries_nil
  · rename_i n _
    by_cases hask : toAsk now n = true
    · rw [if_pos hask]
      exact (queries_dhtSendBuf (fun _ => query_sendGetPeers) _ _ _ _).append
        (Routing.queries_markPinged net now r _ _)
    · rw [if_neg hask]
      exact queries_nil

theorem queries_sendGetPeersNext : Queries (sr.sendGetPeersNext net now r).2.2 := by
  unfold sendGetPeersNext
  split
  · exact queries_nil
  · exact queries_sendGetPeers net now r sr _

theorem queries_announceNodes (nodes : List SearchNode) (j : ℕ) :
    Queries (announceNodes net now sr j nodes r).2.2.1 := by
  induction nodes generalizing j r with
  | nil => exact queries_nil
  | cons n nodes ih =>
    cases j with
    | zero => exact queries_nil
    | succ j =>
      rw [announceNodes]
      generalize (if n.token = [] then { n with acked := true } else n) = n'
      dsimp only
      by_cases h3 : 3 ≤ n.pinged
      · rw [if_pos h3]
        exact ih r (j + 1)
      · rw [if_neg h3]
        by_cases hack : n'.acked = true
        · rw [if_pos hack]
          exact ih r j
        · rw [if_neg hack]
          exact ((queries_dhtSendBuf (fun _ => query_sendAnnouncePeer) _ _ _ _).append
            (Routing.queries_markPinged net now r _ _)).append (ih _ j)

theorem queries_askNodes (asked : ℕ) (js : List ℕ) :
    Queries (askNodes net now r sr asked js).2.2 := by
  induction js generalizing sr r asked with
  | nil => exact queries_nil
  | cons j js ih =>
    unfold askNodes
    dsimp only
    split_ifs
    · exact queries_sendGetPeers net now r sr j
    · exact (queries_sendGetPeers net now r sr j).append (ih _ _ _)

theorem queries_step : Queries (sr.step net now r).2.2.1 := by
  unfold step
  split_ifs
  · exact queries_nil
  · dsimp only
    split_ifs <;> exact queries_announceNodes net now r sr _ _
  · exact queries_nil
  · exact queries_askNodes net now r sr _ _

end Search

/-! ## The node -/

/-- A query of the DHT proper, or a note about a search. -/
def Output.IsRoutine : Output → Prop
  | .request p => queryStart <+: p.payload
  | .reply _ | .lookupResult _ => False
  | .operationDone _ | .searchStart _ | .lookupStart _ => True

namespace World

/-- All that is sent in between is routine. -/
def Routine (w w' : World) : Prop :=
  ∃ new, w'.outputs = w.outputs ++ new ∧ ∀ o ∈ new, o.IsRoutine

variable {w w' w'' : World}

theorem routine_of_eq (h : w'.outputs = w.outputs) : Routine w w' :=
  ⟨[], h.trans (List.append_nil _).symm, fun _ ho => absurd ho List.not_mem_nil⟩

theorem Routine.refl (w : World) : Routine w w := routine_of_eq rfl

theorem Routine.trans (h : Routine w w') (h' : Routine w' w'') : Routine w w'' := by
  obtain ⟨new, hnew, hroutine⟩ := h
  obtain ⟨new', hnew', hroutine'⟩ := h'
  refine ⟨new ++ new', ?_, fun o ho => ?_⟩
  · rw [hnew', hnew, List.append_assoc]
  · exact (List.mem_append.mp ho).elim (hroutine o) (hroutine' o)

theorem routine_request (w : World) {pkts : List Packet} (h : Queries pkts) :
    Routine w (w.request pkts) := by
  refine ⟨_, rfl, fun o ho => ?_⟩
  obtain ⟨p, hp, rfl⟩ := List.mem_map.mp ho
  exact h p hp

theorem routine_emit (w : World) (o : Output) (ho : o.IsRoutine) : Routine w (w.emit [o]) :=
  ⟨[o], rfl, fun _ ho' => List.mem_singleton.mp ho' ▸ ho⟩

theorem routine_foldl {ι : Type*} {f : World → ι → World} (hf : ∀ w i, Routine w (f w i))
    (w : World) (is : List ι) : Routine w (is.foldl f w) :=
  List.foldlRecOn (motive := fun w' => Routine w w') is f (Routine.refl w) fun w' h i _ =>
    h.trans (hf w' i)

theorem routine_ite {f : World → World} (hf : ∀ w, Routine w (f w)) (p : World → Prop)
    [DecidablePred p] (w : World) : Routine w (if p w then f w else w) := by
  split_ifs
  · exact hf w
  · exact Routine.refl w

variable (w)

theorem routine_withRouting {out : Routing × List Packet} (h : Queries out.2) :
    Routine w (w.withRouting out) := routine_request { w with routing := out.1 } h

theorem routine_withSearch (i : ℕ) {out : Search × Routing × List Packet} (h : Queries out.2.2) :
    Routine w (w.withSearch i out) :=
  routine_request { w with searches := w.searches.set i out.1, routing := out.2.1 } h

/-! ### What is due -/

theorem routine_searchDone (infoHash : Id) : Routine w (w.searchDone infoHash) :=
  routine_emit { w with dtn := w.dtn.searchDone infoHash } (.operationDone infoHash) trivial

theorem routine_searchStep (i : ℕ) : Routine w (w.searchStep i) := by
  unfold searchStep
  cases w.searches[i]? with
  | none => exact Routine.refl w
  | some sr =>
    have hsent : Routine w (w.withSearch i ((sr.step w.net w.now w.routing).1,
        (sr.step w.net w.now w.routing).2.1, (sr.step w.net w.now w.routing).2.2.1)) :=
      routine_withSearch w i (Search.queries_step w.net w.now w.routing sr)
    dsimp only
    split_ifs
    · exact hsent.trans (routine_searchDone _ _)
    · exact hsent

theorem routine_nextSearchTime : Routine w w.nextSearchTime.2 := by
  unfold nextSearchTime
  refine List.foldlRecOn (motive := fun out : ℤ × World => Routine w out.2) _ _ (Routine.refl w) ?_
  rintro ⟨t, w'⟩ h sr -
  dsimp only
  split_ifs
  · exact h
  · exact h.trans (routine_of_eq rfl)
  · exact h.trans (routine_of_eq rfl)

theorem routine_stepSearches : Routine w w.stepSearches := by
  have hstep (w : World) (i : ℕ) : Routine w (w.stepIfDue i) :=
    routine_ite (fun w => routine_searchStep w i)
      (fun w => (w.searches[i]?.any fun sr => !sr.done && sr.stepTime + 5 ≤ w.now) = true) w
  exact ((routine_foldl hstep w _).trans (routine_nextSearchTime _)).trans (routine_of_eq rfl)

theorem routine_maintainBoth
    {f : Net → ℤ → Routing → ℕ → Random → Routing × List Packet × Bool × Random}
    (hf : ∀ net now r af rs, Queries (f net now r af rs).2.1) (due : World → ℕ → Bool) :
    Routine w (w.maintainBoth f due).2 := by
  have hone (w : World) (af : ℕ) : Routine w (if due w af then w.maintain (f · w.now) af
      else (false, w)).2 := by
    split_ifs
    · exact (routine_of_eq rfl).trans (routine_withRouting
        { w with env := { w.env with random := (f w.net w.now w.routing af w.env.random).2.2.2 } }
        (hf _ _ _ _ _))
    · exact Routine.refl w
  exact (hone w afInet).trans (hone _ afInet6)

theorem routine_confirmNodes : Routine w w.confirmNodes := by
  have hb := routine_maintainBoth w Routing.queries_bucketMaintenance fun _ _ => true
  unfold confirmNodes
  dsimp only
  generalize w.maintainBoth (fun net now r => r.bucketMaintenance net now) (fun _ _ => true) =
    out at hb
  have hn : Routine w (if out.1 then (true, out.2) else
      out.2.maintainBoth (fun net now r => r.neighbourhoodMaintenance net now) hasGrown).2 := by
    split_ifs
    · exact hb
    · exact hb.trans (routine_maintainBoth out.2 Routing.queries_neighbourhoodMaintenance hasGrown)
  exact hn.trans (routine_of_eq rfl)

theorem routine_expire : Routine w w.expire := by
  have hbuckets : Routine w w.expireBuckets :=
    (routine_withRouting w (Routing.queries_expireBuckets w.net w.routing)).trans
      (routine_of_eq rfl)
  exact hbuckets.trans (routine_of_eq rfl)

/-- What is due is routine. -/
theorem routine_doDue : Routine w w.doDue := by
  have hrotate (w : World) : Routine w w.rotateSecrets := routine_of_eq rfl
  unfold doDue
  dsimp only
  refine Routine.trans ?_ (routine_ite routine_confirmNodes (fun w => w.confirmNodesTime ≤ w.now) _)
  refine Routine.trans ?_
    (routine_ite routine_stepSearches (fun w => 0 < w.searchTime ∧ w.searchTime ≤ w.now) _)
  refine Routine.trans ?_ (routine_ite routine_expire (fun w => w.expireStuffTime ≤ w.now) _)
  exact routine_ite hrotate (fun w => w.rotateSecretsTime ≤ w.now) w

/-! ### The API -/

theorem routine_dhtSearch (id : Id) (port : UInt16) (af : ℕ) :
    Routine w (w.dhtSearch id port af).2 := by
  have hslot : Routine w (w.searchSlot id af).2 := by
    unfold searchSlot
    cases w.findIdx id af with
    | some i => exact routine_of_eq rfl
    | none =>
      dsimp only
      cases newSearch w.now (w.env.calloc 0) w.searches w.numsearches with
      | mk slot rest => cases slot <;> exact routine_of_eq rfl
  unfold dhtSearch
  cases w.routing.findBucket id af with
  | none => exact Routine.refl w
  | some b =>
    dsimp only
    generalize w.searchSlot id af = out at hslot
    obtain ⟨slot, w'⟩ := out
    cases slot with
    | none => exact hslot
    | some i =>
      have hstart (w₁ : World) (h₁ : Routine w w₁) (start : SearchStart) :
          Routine w ((w₁.emit [.searchStart start]).searchStep i) :=
        (h₁.trans (routine_emit w₁ (.searchStart start) trivial)).trans (routine_searchStep _ i)
      have htime (w₁ : World) (h₁ : Routine w w₁) (t : ℤ) :
          Routine w { w₁ with searchTime := t } := h₁
      dsimp only
      refine htime _ (hstart _ (hslot.trans ?_) _) _
      exact routine_of_eq rfl

variable (ctx : Context)

theorem routine_dtnDhtSearch (id : Id) (port : UInt16) :
    Routine w (w.dtnDhtSearch ctx id port).2 := by
  have h4 := routine_dhtSearch w id port afInet
  unfold dtnDhtSearch
  cases ctx.type with
  | bindnone => exact Routine.refl w
  | ipv4only => exact h4
  | ipv6only => exact routine_dhtSearch w id port afInet6
  | bindboth =>
    dsimp only
    split_ifs
    · exact h4
    · exact h4.trans (routine_dhtSearch _ id port afInet6)

theorem routine_reannounceEntry (i : ℕ) : Routine w (w.reannounceEntry ctx i) := by
  unfold reannounceEntry
  dsimp only
  split
  · exact routine_of_eq rfl
  · rename_i pos _
    have hsearch : Routine w (w.time.2.dtnDhtSearch ctx pos.md ctx.port).2 :=
      (routine_of_eq rfl).trans (routine_dtnDhtSearch w.time.2 ctx pos.md ctx.port)
    split_ifs
    · exact hsearch
    · exact hsearch.trans (routine_of_eq rfl)
    · exact routine_of_eq rfl

theorem routine_relookupEntry (i : ℕ) : Routine w (w.relookupEntry ctx i) := by
  unfold relookupEntry
  split
  · exact Routine.refl w
  · rename_i pos _
    have hsearch : Routine w ((w.emit [.lookupStart pos.md]).dtnDhtSearch ctx pos.md 0).2 :=
      (routine_emit w (.lookupStart pos.md) trivial).trans (routine_dtnDhtSearch _ ctx pos.md 0)
    by_cases hrepeat : pos.status = .doneAndReadyForRepeat
    · rw [if_pos hrepeat]
      dsimp only
      split_ifs
      · exact hsearch
      · exact hsearch.trans (routine_of_eq rfl)
    · rw [if_neg hrepeat]
      exact Routine.refl w

theorem routine_readyForWork : Routine w (w.readyForWork ctx).2 := by
  unfold readyForWork
  dsimp only
  split_ifs <;> exact routine_of_eq rfl

theorem routine_maintainLists : Routine w (w.maintainLists ctx) := by
  have hready : Routine w ((w.setMinimumRating ctx).readyForWork ctx).2 :=
    (routine_of_eq rfl).trans (routine_readyForWork _ ctx)
  unfold maintainLists
  generalize (w.setMinimumRating ctx).readyForWork ctx = out at hready
  obtain ⟨ready, w₁⟩ := out
  have hlists : Routine w (if 2 ≤ ready then (w₁.reannounceList ctx).relookupList ctx else
      w₁) := by
    split_ifs
    · exact (hready.trans (routine_foldl (fun w i => routine_reannounceEntry w ctx i) w₁ _)).trans
        (routine_foldl (fun w i => routine_relookupEntry w ctx i) _ _)
    · exact hready
  exact hlists.trans (routine_of_eq rfl)

theorem routine_startLookup (key : Id) : Routine w (w.startLookup ctx key).2 := by
  unfold startLookup
  split_ifs
  · exact Routine.refl w
  · exact (routine_emit w (.lookupStart key) trivial).trans (routine_dtnDhtSearch _ ctx key 0)

theorem routine_dtnDhtLookup (sha1 : Bytes → Bytes) (eid : Bytes) :
    Routine w (w.dtnDhtLookup sha1 ctx eid).2 := by
  have hready := routine_readyForWork w ctx
  unfold dtnDhtLookup
  generalize w.readyForWork ctx = out at hready
  obtain ⟨ready, w₁⟩ := out
  dsimp only
  split_ifs
  · exact hready
  · split
    · refine (hready.trans ?_).trans (routine_startLookup _ ctx _)
      exact routine_of_eq rfl
    · split_ifs
      · exact hready.trans (routine_of_eq rfl)
      · refine (hready.trans ?_).trans (routine_startLookup _ ctx _)
        exact routine_of_eq rfl

theorem routine_dtnDhtAnnounce (sha1 : Bytes → Bytes) (eid : Bytes) (type : LookupType) :
    Routine w (w.dtnDhtAnnounce sha1 ctx eid type).2 := by
  unfold dtnDhtAnnounce
  dsimp only
  split
  · generalize hw₁ : modifyAnnouncement _ _ _ = w₁
    have h₁ : Routine w w₁ := routine_of_eq (hw₁ ▸ rfl)
    have hready := h₁.trans (routine_readyForWork w₁ ctx)
    generalize w₁.readyForWork ctx = out at hready
    obtain ⟨ready, w₂⟩ := out
    dsimp only
    split_ifs
    · exact hready.trans (routine_of_eq rfl)
    · exact hready.trans (routine_dtnDhtSearch w₂ ctx _ _)
  · exact routine_of_eq rfl

theorem routine_startRandomLookup : Routine w (w.startRandomLookup ctx) := by
  have hone (w : World) (s : ℤ) (id : Id) (af : ℕ) :
      Routine w (if 0 ≤ s then (w.dhtSearch id 0 af).2 else w) :=
    routine_ite (fun w => routine_dhtSearch w id 0 af) (fun _ => 0 ≤ s) w
  unfold startRandomLookup
  refine Routine.trans ?_ ((hone _ ctx.ipv4socket _ afInet).trans (hone _ ctx.ipv6socket _ afInet6))
  split_ifs
  · exact routine_of_eq rfl
  · exact routine_of_eq rfl

/-! ### Starting and stopping -/

theorem routine_initRest (s s6 : ℤ) (id : Id) (v : Option Bytes) (oc : InitOutcomes) :
    Routine w (w.initRest s s6 id v oc).2 := by
  unfold initRest
  dsimp only
  split_ifs
  · exact ((routine_of_eq rfl).trans (routine_withRouting
      { w.initStatics id v with dhtSocket := s, dhtSocket6 := s6 }
      (Routing.queries_expireBuckets _ _))).trans (routine_of_eq rfl)
  · exact routine_of_eq rfl

theorem routine_initFamily6 (s s6 : ℤ) (id : Id) (v : Option Bytes) (oc : InitOutcomes) :
    Routine w (w.initFamily6 s s6 id v oc).2 := by
  unfold initFamily6
  split_ifs
  · exact (routine_of_eq rfl).trans (routine_initRest { w with
      routing := { w.routing with buckets6 := [callocBucket afInet6 Id.zeroes] } } s s6 id v oc)
  · exact routine_of_eq rfl
  · exact Routine.refl w
  · exact routine_initRest w s s6 id v oc

theorem routine_dhtInitWith (s s6 : ℤ) (id : Id) (v : Option Bytes) (oc : InitOutcomes) :
    Routine w (w.dhtInitWith s s6 id v oc).2 := by
  unfold dhtInitWith initFamily
  dsimp only
  split_ifs
  · exact Routine.refl w
  · exact (routine_of_eq rfl).trans (routine_initFamily6 _ s s6 id v oc)
  · exact routine_of_eq rfl
  · exact routine_of_eq rfl
  · exact (routine_of_eq rfl).trans (routine_initFamily6 _ s s6 id v oc)

theorem routine_emptyLists : Routine w w.emptyLists := by
  unfold emptyLists
  exact routine_of_eq rfl

theorem routine_dhtUninit : Routine w w.dhtUninit.2 := by
  unfold dhtUninit
  split_ifs <;> exact routine_of_eq rfl

/-! ### Replies to the queries -/

theorem routine_newNode (id : Id) (sa : Sockaddr) (salen confirm : ℕ) :
    Routine w (w.newNode id sa salen confirm) :=
  routine_withRouting w (Routing.queries_newNode w.net w.now id sa salen confirm)

theorem routine_blacklistNode (id : Id) (sa : Sockaddr) (salen : ℕ) :
    Routine w (w.blacklistNode id sa salen) :=
  (routine_withRouting w (Routing.queries_discardNode w.net w.now w.routing id sa.family)).trans
    (routine_of_eq rfl)

theorem routine_searchSendGetPeers (i : ℕ) : Routine w (w.searchSendGetPeers i) := by
  unfold searchSendGetPeers
  cases w.searches[i]? with
  | none => exact Routine.refl w
  | some sr => exact routine_withSearch w i (Search.queries_sendGetPeersNext _ _ _ sr)

theorem routine_learnNode (sr : Option ℕ) (id : Id) (sa : Sockaddr) (salen : ℕ) :
    Routine w (w.learnNode sr id sa salen) := by
  unfold learnNode
  split_ifs
  · exact Routine.refl w
  · refine (routine_newNode w id sa salen 0).trans ?_
    cases sr with
    | none => exact Routine.refl _
    | some i => exact routine_of_eq rfl

theorem routine_learnNodes (m : Message) (sr : Option ℕ) : Routine w (w.learnNodes m sr) :=
  (routine_foldl (fun w _ => routine_learnNode w sr _ _ _) w _).trans
    (routine_foldl (fun w _ => routine_learnNode w sr _ _ _) _ _)

theorem routine_announceReply (m : Message) (frm : Sockaddr) (fromlen : ℕ) :
    Routine w (w.announceReply m frm fromlen) := by
  unfold announceReply
  split
  · exact routine_newNode w m.id frm fromlen 1
  · exact ((routine_newNode w m.id frm fromlen 2).trans (routine_of_eq rfl)).trans
      (routine_searchSendGetPeers _ _)

end World

end DtnDht
