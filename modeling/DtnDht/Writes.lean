import DtnDht.Restart
import DtnDht.RoutingRun
import DtnDht.SilentSteps
import DtnDht.Lib.Modify
import Mathlib.Logic.Relation

/-!
# The writes of a process

Whatever an application calls and whatever datagrams come in, the statics that the protocol works
on are written in few ways: by the functions of the routing table, by `insert_search_node` and the
upkeep of the searches, by `storage_store` and `expire_storage`, and by `rotate_secrets` when it is
due. A `Write` is one of these, or anything that leaves these statics alone. All calls between
`dtn_dht_init` and `dtn_dht_uninit` are sequences of writes (`writes_call`), so what every write
keeps is kept by every run.
-/

namespace DtnDht

open CString Relation

/-! ## Routing tables -/

/-- The table `r'` comes from `r` by calls with IPv4 and IPv6 addresses. -/
def Evolves (net : Net) (r r' : Routing) : Prop :=
  ∃ es : List Routing.Event, (∀ e ∈ es, e.call.Valid) ∧ r' = es.foldl (Routing.step net) r

section

variable {net : Net} {r r' r'' : Routing} {now : ℤ}

theorem Evolves.refl (net : Net) (r : Routing) : Evolves net r r :=
  ⟨[], fun _ he => absurd he List.not_mem_nil, rfl⟩

theorem Evolves.trans (h : Evolves net r r') (h' : Evolves net r' r'') : Evolves net r r'' := by
  obtain ⟨es, hes, rfl⟩ := h
  obtain ⟨es', hes', rfl⟩ := h'
  exact ⟨es ++ es', List.forall_mem_append.mpr ⟨hes, hes'⟩, List.foldl_append.symm⟩

theorem evolves_call (net : Net) (r : Routing) (now : ℤ) {c : Routing.Call} (hc : c.Valid) :
    Evolves net r (Routing.step net r ⟨now, net.nodeBlacklisted, c⟩) :=
  ⟨[⟨now, net.nodeBlacklisted, c⟩], List.forall_mem_singleton.mpr hc, rfl⟩

theorem evolves_markPinged (net : Net) (r : Routing) (now : ℤ) (id : Id) (sa : Sockaddr) :
    Evolves net r (r.markPinged net now id sa.family).1 :=
  evolves_call net r now (show (Routing.Call.searchRequest id sa).Valid from trivial)

theorem evolves_sendGetPeers (sr : Search) (j : ℕ) :
    Evolves net r (sr.sendGetPeers net now r j).2.1 := by
  unfold Search.sendGetPeers
  cases sr.nodes[j]? with
  | none => exact Evolves.refl net r
  | some n =>
    dsimp only
    by_cases hn : Search.toAsk now n = true
    · rw [if_pos hn]
      exact evolves_markPinged net r now n.id n.ss
    · rw [if_neg hn]
      exact Evolves.refl net r

theorem evolves_sendGetPeersNext (sr : Search) :
    Evolves net r (sr.sendGetPeersNext net now r).2.1 := by
  unfold Search.sendGetPeersNext
  cases sr.pickNode now with
  | none => exact Evolves.refl net r
  | some j => exact evolves_sendGetPeers sr j

theorem evolves_announceNodes (sr : Search) (j : ℕ) (nodes : List SearchNode) :
    Evolves net r (Search.announceNodes net now sr j nodes r).2.1 := by
  induction nodes generalizing j r with
  | nil => cases j <;> exact Evolves.refl net r
  | cons n nodes ih =>
    cases j with
    | zero => exact Evolves.refl net r
    | succ j =>
      unfold Search.announceNodes
      dsimp only
      generalize (if n.token = [] then { n with acked := true } else n) = n'
      by_cases h3 : 3 ≤ n.pinged
      · rw [if_pos h3]
        exact ih (j + 1)
      · rw [if_neg h3]
        by_cases hack : n'.acked = true
        · rw [if_pos hack]
          exact ih j
        · rw [if_neg hack]
          exact (evolves_markPinged net r now n'.id n'.ss).trans (ih j)

theorem evolves_askNodes (sr : Search) (asked : ℕ) (js : List ℕ) :
    Evolves net r (Search.askNodes net now r sr asked js).2.1 := by
  induction js generalizing r sr asked with
  | nil => exact Evolves.refl net r
  | cons j js ih =>
    unfold Search.askNodes
    dsimp only
    split_ifs
    · exact evolves_sendGetPeers sr j
    · exact (evolves_sendGetPeers sr j).trans (ih _ _)

theorem evolves_step (sr : Search) : Evolves net r (sr.step net now r).2.1 := by
  unfold Search.step
  split_ifs
  · exact Evolves.refl net r
  · dsimp only
    split_ifs <;> exact evolves_announceNodes sr 8 sr.nodes
  · exact Evolves.refl net r
  · exact evolves_askNodes sr 0 _

end

/-! ## Searches -/

/-- One write to a search: `insert_search_node`, `flush_search_node`, an acknowledgement, or what
`search_send_get_peers` and `search_step` note. -/
inductive SearchWrite (now : ℤ) (sr : Search) : Search → Prop
  | insert (id : Id) (sa : Sockaddr) (salen : ℕ) (replied : Bool) (token : Option Bytes) :
      SearchWrite now sr (sr.insertSearchNode now id sa salen replied token)
  | flush (id : Id) : SearchWrite now sr { sr with nodes := flushId id sr.nodes }
  | acknowledge (id : Id) : SearchWrite now sr (sr.acknowledge now id)
  | ask (net : Net) (r : Routing) (j : ℕ) : SearchWrite now sr (sr.sendGetPeers net now r j).1
  | step (net : Net) (r : Routing) : SearchWrite now sr (sr.step net now r).1

/-- One write to a search by `dht_search`, which starts it or starts it again. -/
inductive SearchStartWrite (now : ℤ) (sr : Search) : Search → Prop
  | write {sr' : Search} (h : SearchWrite now sr sr') : SearchStartWrite now sr sr'
  | restart : SearchStartWrite now sr (sr.restart now)
  | start (af : ℕ) (tid : UInt16) (id : Id) : SearchStartWrite now sr (sr.start af tid id)
  | port (port : UInt16) : SearchStartWrite now sr { sr with port := port }

section

variable {now : ℤ}

theorem searchWrites_sendGetPeersNext (net : Net) (r : Routing) (sr : Search) :
    ReflTransGen (SearchWrite now) sr (sr.sendGetPeersNext net now r).1 := by
  unfold Search.sendGetPeersNext
  cases sr.pickNode now with
  | none => exact .refl
  | some j => exact .single (.ask net r j)

theorem searchWrites_insertBucketAt (r : Routing) (i : ℕ) (sr : Search) :
    ReflTransGen (SearchWrite now) sr (sr.insertBucketAt now r i) := by
  unfold Search.insertBucketAt
  cases (r.table sr.af)[i]? with
  | none => exact .refl
  | some b =>
    exact List.foldlRecOn b.nodes _ .refl fun sr' h n _ =>
      h.tail (.insert n.id n.ss n.sslen false none)

theorem searchWrites_insertClosest (r : Routing) (myid : Id) (i : ℕ) (sr : Search) :
    ReflTransGen (SearchWrite now) sr (sr.insertClosest now r myid i) := by
  have helim (o : Option ℕ) (sr : Search) :
      ReflTransGen (SearchWrite now) sr (o.elim sr fun i => sr.insertBucketAt now r i) := by
    cases o with
    | none => exact .refl
    | some i => exact searchWrites_insertBucketAt r i sr
  have h0 : ReflTransGen (SearchWrite now) sr (sr.insertBucketAt now r i) :=
    searchWrites_insertBucketAt r i sr
  unfold Search.insertClosest
  dsimp only
  generalize sr.insertBucketAt now r i = sr₁ at h0
  have h1 : ReflTransGen (SearchWrite now) sr
      (if sr₁.nodes.length < searchNodes then
        (previousBucket i).elim (sr₁.insertBucketAt now r (i + 1)) fun p =>
          (sr₁.insertBucketAt now r (i + 1)).insertBucketAt now r p
      else sr₁) := by
    split_ifs
    · exact (h0.trans (searchWrites_insertBucketAt r (i + 1) sr₁)).trans (helim _ _)
    · exact h0
  generalize (if sr₁.nodes.length < searchNodes then
        (previousBucket i).elim (sr₁.insertBucketAt now r (i + 1)) fun p =>
          (sr₁.insertBucketAt now r (i + 1)).insertBucketAt now r p
      else sr₁) = sr₂ at h1
  split_ifs
  · exact h1.trans (helim _ _)
  · exact h1

end

/-! ## The statics -/

/-- The statics that the protocol works on. -/
structure Statics where
  myid : Id
  now : ℤ
  routing : Routing
  searches : List Search
  searchTime : ℤ
  storage : List Storage
  secrets : Secrets
  rotateSecretsTime : ℤ

namespace World

/-- The statics that the protocol works on, as they are. -/
def core (w : World) : Statics :=
  ⟨w.myid, w.now, w.routing, w.searches, w.searchTime, w.storage, w.secrets, w.rotateSecretsTime⟩

/-- Each of the searches `srs` is written to by the steps. -/
def Wrote (step : Search → Search → Prop) (old srs : List Search) : Prop :=
  ∀ sr' ∈ srs, ∃ sr ∈ old, ReflTransGen step sr sr'

/-- One write to the statics that the protocol works on. -/
inductive Write (w : World) : World → Prop
  /-- the clock may be read -/
  | other {w' : World} (hcore : w'.core = w.core)
      (hclock : ∃ d, ∀ k, w'.env.clock k = w.env.clock (k + d)) : Write w w'
  | gettimeofday : Write w w.gettimeofday
  | routing {r : Routing} (h : Evolves w.net w.routing r) : Write w { w with routing := r }
  | searches {srs : List Search} (h : Wrote (SearchWrite w.now) w.searches srs) :
      Write w { w with searches := srs }
  | searchTime : Write w { w with searchTime := w.nextSearchTime.1 }
  | dhtSearch {srs : List Search}
      (h : Wrote (SearchStartWrite w.now) (callocSearch :: w.searches) srs) :
      Write w { w with searches := srs, searchTime := w.now }
  | storageStore (id : Id) (sa : Sockaddr) (port : UInt16) :
      Write w { w with storage := storageStore w.now id sa port w.storage }
  | expireStorage : Write w { w with storage := expireStorage w.now w.storage }
  | rotateSecrets (h : w.rotateSecretsTime ≤ w.now) : Write w w.rotateSecrets

/-- A sequence of writes. -/
abbrev Writes (w w' : World) : Prop := ReflTransGen Write w w'

variable {w w' w'' : World}

/-! ### Lists of searches -/

section

variable {step : Search → Search → Prop} {srs srs' : List Search}

theorem wrote_of_subset (h : srs' ⊆ srs) : Wrote step srs srs' :=
  fun sr hsr => ⟨sr, h hsr, .refl⟩

theorem Wrote.trans {srs'' : List Search} (h : Wrote step srs srs') (h' : Wrote step srs' srs'') :
    Wrote step srs srs'' := by
  intro sr'' hsr''
  obtain ⟨sr', hsr', hw'⟩ := h' sr'' hsr''
  obtain ⟨sr, hsr, hw⟩ := h sr' hsr'
  exact ⟨sr, hsr, hw.trans hw'⟩

theorem wrote_modify {i : ℕ} {f : Search → Search} (hf : ∀ sr ∈ srs, ReflTransGen step sr (f sr)) :
    Wrote step srs (srs.modify i f) := by
  intro sr' hsr'
  rcases List.mem_modify_iff.mp hsr' with ⟨sr, hsr, rfl⟩ | ⟨k, -, hk⟩
  · have hmem := List.mem_of_getElem? hsr
    exact ⟨sr, hmem, hf sr hmem⟩
  · exact ⟨sr', List.mem_of_getElem? hk, .refl⟩

theorem wrote_set {i : ℕ} {sr sr' : Search} (hi : srs[i]? = some sr)
    (h : ReflTransGen step sr sr') : Wrote step srs (srs.set i sr') := by
  intro sr₁ hsr₁
  rcases List.mem_or_eq_of_mem_set hsr₁ with hmem | rfl
  · exact ⟨sr₁, hmem, .refl⟩
  · exact ⟨sr, List.mem_of_getElem? hi, h⟩

theorem Wrote.start {now : ℤ} (h : Wrote (SearchWrite now) srs srs') :
    Wrote (SearchStartWrite now) srs srs' := by
  intro sr' hsr'
  obtain ⟨sr, hsr, hw⟩ := h sr' hsr'
  exact ⟨sr, hsr, hw.lift (fun sr => sr) fun _ _ => .write⟩

end

/-! ### Sequences of writes -/

theorem Writes.write (h : Writes w w') (h' : Write w' w'') : Writes w w'' := h.tail h'

theorem Writes.other (h : Writes w w') (hcore : w''.core = w'.core)
    (hclock : w''.env.clock = w'.env.clock) : Writes w w'' :=
  h.tail (.other hcore ⟨0, fun _ => by rw [hclock]; rfl⟩)

theorem Writes.foldl {ι : Type*} {f : World → ι → World} (h : Writes w w') (is : List ι)
    (hf : ∀ w', ∀ i ∈ is, Writes w w' → Writes w (f w' i)) : Writes w (is.foldl f w') :=
  List.foldlRecOn is f h fun w' hw i hi => hf w' i hi hw

/-- The clock is read. -/
theorem Writes.later (h : Writes w w') (hcore : w''.core = w'.core)
    (hclock : ∃ d, ∀ k, w''.env.clock k = w'.env.clock (k + d)) : Writes w w'' :=
  h.tail (.other hcore hclock)

/-- A new table, and packets. -/
theorem Writes.withRouting (h : Writes w w') {out : Routing × List Packet}
    (hout : Evolves w'.net w'.routing out.1) : Writes w (w'.withRouting out) :=
  (h.write (.routing hout)).other rfl rfl

theorem Writes.newNode (h : Writes w w') {sa : Sockaddr} {salen : ℕ} (hsa : IsSockaddr sa salen)
    (id : Id) (confirm : ℕ) : Writes w (w'.newNode id sa salen confirm) :=
  h.withRouting (evolves_call w'.net w'.routing w'.now
    (show (Routing.Call.newNode id sa salen confirm).Valid from hsa))

theorem Writes.blacklistNode (h : Writes w w') (id : Id) (sa : Sockaddr) (salen : ℕ) :
    Writes w (w'.blacklistNode id sa salen) := by
  have hout : Evolves w'.net w'.routing (w'.routing.discardNode w'.net w'.now id sa.family).1 :=
    evolves_call w'.net w'.routing w'.now
      (show (Routing.Call.blacklistNode id sa).Valid from trivial)
  have hr := h.withRouting hout
  unfold World.blacklistNode
  dsimp only
  generalize w'.withRouting (w'.routing.discardNode w'.net w'.now id sa.family) = w₁ at hr
  have hs : Wrote (SearchWrite w₁.now) w₁.searches
      (w₁.searches.map fun sr => { sr with nodes := flushId id sr.nodes }) := by
    intro sr' hsr'
    obtain ⟨sr, hsr, rfl⟩ := List.mem_map.mp hsr'
    exact ⟨sr, hsr, .single (.flush id)⟩
  exact (Writes.write hr (.searches hs)).other rfl rfl

theorem Writes.modifySearch (h : Writes w w') {i : ℕ} {f : Search → Search}
    (hf : ∀ sr ∈ w'.searches, ReflTransGen (SearchWrite w'.now) sr (f sr)) :
    Writes w (w'.modifySearch i f) := h.write (.searches (wrote_modify hf))

theorem Writes.withSearch (h : Writes w w') {i : ℕ} {sr : Search}
    (hi : w'.searches[i]? = some sr) {out : Search × Routing × List Packet}
    (hsr : ReflTransGen (SearchWrite w'.now) sr out.1)
    (hout : Evolves w'.net w'.routing out.2.1) : Writes w (w'.withSearch i out) := by
  have hs : Writes w { w' with searches := w'.searches.set i out.1 } :=
    h.write (.searches (wrote_set hi hsr))
  exact (hs.write (.routing hout)).other rfl rfl

theorem Writes.searchSendGetPeers (h : Writes w w') (i : ℕ) :
    Writes w (w'.searchSendGetPeers i) := by
  unfold World.searchSendGetPeers
  cases hi : w'.searches[i]? with
  | none => exact h
  | some sr =>
    exact h.withSearch hi (searchWrites_sendGetPeersNext w'.net w'.routing sr)
      (evolves_sendGetPeersNext sr)

/-- What `search_step` writes. -/
theorem core_searchStep (w : World) (i : ℕ) : ∃ srs r,
    Wrote (SearchWrite w.now) w.searches srs ∧ Evolves w.net w.routing r ∧
      (w.searchStep i).core = { w with searches := srs, routing := r }.core ∧
      (w.searchStep i).env = w.env := by
  unfold World.searchStep
  cases hi : w.searches[i]? with
  | none => exact ⟨w.searches, w.routing, wrote_of_subset (List.Subset.refl _), .refl _ _, rfl, rfl⟩
  | some sr =>
    have hr : Evolves w.net w.routing (sr.step w.net w.now w.routing).2.1 := evolves_step sr
    refine ⟨_, _, wrote_set hi (.single (.step w.net w.routing)), hr, ?_, ?_⟩
    · dsimp only
      split_ifs <;> rfl
    · dsimp only
      split_ifs <;> rfl

theorem Writes.searchStep (h : Writes w w') (i : ℕ) : Writes w (w'.searchStep i) := by
  obtain ⟨srs, r, hsrs, hr, hcore, henv⟩ := core_searchStep w' i
  have hs : Writes w { w' with searches := srs } := h.write (.searches hsrs)
  exact (hs.write (.routing hr)).other hcore (congrArg Env.clock henv)

/-! ## Messages -/

section

variable (m : Message) {frm : Sockaddr} {fromlen : ℕ} (sha1 : Bytes → Bytes)

theorem Writes.valuesFound (h : Writes w w') (event : DhtEvent) (infoHash : Id) (data : Bytes)
    (frm : Sockaddr) (fromlen : ℕ) :
    Writes w (w'.valuesFound sha1 event infoHash data frm fromlen) := by
  unfold World.valuesFound
  dsimp only [memory]
  refine Writes.foldl ?_ _ fun w₁ ping _ h₁ => h₁.other rfl rfl
  exact h.other rfl rfl

theorem Writes.learnNode (h : Writes w w') (sr : Option ℕ) (id : Id) {sa : Sockaddr} {salen : ℕ}
    (hsa : IsSockaddr sa salen) : Writes w (w'.learnNode sr id sa salen) := by
  unfold World.learnNode
  split_ifs
  · exact h
  · have hnew := h.newNode hsa id 0
    cases sr with
    | none => exact hnew
    | some i => exact hnew.modifySearch fun sr _ => .single (.insert id sa salen false none)

theorem Writes.learnNodes (h : Writes w w') (sr : Option ℕ) : Writes w (w'.learnNodes m sr) := by
  unfold World.learnNodes
  dsimp only
  refine Writes.foldl (Writes.foldl h _ ?_) _ ?_
  · intro w₁ i hi h₁
    have hni : (slice m.nodes (26 * i) 26).length = 26 := by
      have := List.mem_range.mp hi
      exact length_slice (by omega)
    exact h₁.learnNode sr _
      (isSockaddr_sockaddrIn (length_slice (by omega)) (length_slice (by omega)))
  · intro w₁ i hi h₁
    have hni : (slice m.nodes6 (38 * i) 38).length = 38 := by
      have := List.mem_range.mp hi
      exact length_slice (by omega)
    exact h₁.learnNode sr _
      (isSockaddr_sockaddrIn6 (length_slice (by omega)) (length_slice (by omega)))

theorem Writes.searchReply (h : Writes w w') (i : ℕ) :
    Writes w (w'.searchReply m frm fromlen sha1 i) := by
  have hins : Writes w (w'.modifySearch i
      (·.insertSearchNode w'.now m.id frm fromlen true (some m.token))) :=
    h.modifySearch fun sr _ => .single (.insert m.id frm fromlen true (some m.token))
  unfold World.searchReply
  dsimp only
  generalize w'.modifySearch i _ = w₁ at hins
  cases w₁.searches[i]? with
  | none => exact hins
  | some sr =>
    dsimp only
    have h4 : Writes w (w₁.valuesFound sha1 .values sr.id m.values frm fromlen) :=
      hins.valuesFound sha1 _ _ _ _ _
    split_ifs
    · exact h4.valuesFound sha1 _ _ _ _ _
    · exact hins.valuesFound sha1 _ _ _ _ _
    · exact h4
    · exact hins

theorem Writes.elim (h : Writes w w') {sr : Option ℕ} {f : ℕ → World}
    (hf : ∀ i, Writes w (f i)) : Writes w (sr.elim w' f) := by
  cases sr with
  | none => exact h
  | some i => exact hf i

variable (hsa : IsSockaddr frm fromlen)
include hsa

theorem Writes.nodesReply (h : Writes w w') : Writes w (w'.nodesReply m frm fromlen sha1) := by
  unfold World.nodesReply
  dsimp only
  generalize (if tidMatch m.tid (str "gp") = true then
    findSearch (tidSeqno m.tid) frm.family w'.searches else none) = sr
  have hnew := h.newNode hsa m.id 2
  have hlearn := hnew.learnNodes m sr
  split_ifs
  · have hb := h.blacklistNode m.id frm fromlen
    exact hb.elim fun i => hb.searchReply m sha1 i
  · have h1 := h.newNode hsa m.id 1
    exact h1.elim fun i => h1.searchReply m sha1 i
  · have hask : Writes w (sr.elim ((w'.newNode m.id frm fromlen 2).learnNodes m sr)
        ((w'.newNode m.id frm fromlen 2).learnNodes m sr).searchSendGetPeers) :=
      hlearn.elim fun i => hlearn.searchSendGetPeers i
    exact hask.elim fun i => hask.searchReply m sha1 i

theorem Writes.announceReply (h : Writes w w') :
    Writes w (w'.announceReply m frm fromlen) := by
  unfold World.announceReply
  cases findSearch (tidSeqno m.tid) frm.family w'.searches with
  | none => exact h.newNode hsa m.id 1
  | some i =>
    have hack := (h.newNode hsa m.id 2).modifySearch (i := i)
      (f := Search.acknowledge (w'.newNode m.id frm fromlen 2).now m.id)
      fun sr _ => .single (.acknowledge m.id)
    exact hack.searchSendGetPeers i

theorem Writes.replyMessage (h : Writes w w') :
    Writes w (w'.replyMessage m frm fromlen sha1) := by
  unfold World.replyMessage
  split_ifs
  · exact h.blacklistNode m.id frm fromlen
  · exact h.newNode hsa m.id 2
  · exact h.nodesReply m sha1 hsa
  · exact h.announceReply m hsa
  · exact h

theorem Writes.query (h : Writes w w') : Writes w (w'.query m frm fromlen sha1) := by
  have h1 := h.newNode hsa m.id 1
  unfold World.query
  cases m.kind with
  | ping => exact h1.other rfl rfl
  | findNode => exact h1.other rfl rfl
  | getPeers =>
    dsimp only [getPeers]
    split_ifs
    · exact h1.other rfl rfl
    · split
      · split_ifs <;> exact h1.other rfl rfl
      · exact h1.other rfl rfl
  | announcePeer =>
    dsimp only [announcePeer]
    split_ifs
    · exact h1.other rfl rfl
    · exact h1.other rfl rfl
    · exact h1.other rfl rfl
    · exact (h1.write (.storageStore m.infoHash frm m.port)).other rfl rfl
  | error | reply | dtnQuery | dtnReply => exact h

theorem Writes.handle (h : Writes w w') : Writes w (w'.handle m frm fromlen sha1) := by
  unfold World.handle
  split_ifs
  · exact h
  · exact h
  · exact h.replyMessage m sha1 hsa
  · have ht : Writes w w'.takeToken.2 := h.other rfl rfl
    generalize w'.takeToken = out at ht
    obtain ⟨ok, w1⟩ := out
    cases ok with
    | false => exact ht
    | true => exact ht.query m sha1 hsa

end

/-! ## Receiving -/

variable {lib : Platform} {clayer : List ConvergenceLayer} {dg : Datagram}

theorem Writes.receive (h : Writes w w') (hdg : IsSockaddr dg.frm dg.fromlen) :
    Writes w (w'.receive lib clayer dg) := by
  have hstack : Writes w w'.stackTid.2 := h.other rfl rfl
  cases hm : w'.messageOf lib dg with
  | none =>
    rcases receive_of_none clayer hm with heq | ⟨text, heq⟩ | ⟨result, heq⟩
    · exact heq ▸ hstack
    · exact heq ▸ hstack.other rfl rfl
    · exact heq ▸ hstack.other rfl rfl
  | some m =>
    rw [receive_of_message clayer hm]
    exact hstack.handle m lib.sha1 hdg

/-! ## What is due -/

theorem Writes.expireBuckets (h : Writes w w') : Writes w w'.expireBuckets :=
  (h.withRouting (evolves_call w'.net w'.routing w'.now
    (show Routing.Call.expireBuckets.Valid from trivial))).other rfl rfl

theorem Writes.expire (h : Writes w w') : Writes w w'.expire := by
  have hbuckets := h.expireBuckets
  have hstorage := hbuckets.write .expireStorage
  unfold World.expire
  dsimp only
  generalize w'.expireBuckets = w₁ at hstorage
  have hsub : (expireSearches w₁.now w₁.searches w₁.numsearches).1.Sublist w₁.searches := by
    rw [expireSearches_fst]
    exact List.filter_sublist
  have hs : Wrote (SearchWrite w₁.now) w₁.searches
      (expireSearches w₁.now w₁.searches w₁.numsearches).1 := wrote_of_subset hsub.subset
  have hstatics : Writes w { w₁ with
      storage := DtnDht.expireStorage w₁.now w₁.storage
      searches := (expireSearches w₁.now w₁.searches w₁.numsearches).1 } :=
    Writes.write hstorage (.searches hs)
  exact hstatics.other rfl rfl

/-- Choosing the time of the next steps only draws random numbers. -/
theorem core_nextSearchTime (w : World) :
    w.nextSearchTime.2.core = w.core ∧ w.nextSearchTime.2.env.clock = w.env.clock := by
  unfold World.nextSearchTime
  refine List.foldlRecOn (motive := fun out : ℤ × World =>
    out.2.core = w.core ∧ out.2.env.clock = w.env.clock) _ _ ⟨rfl, rfl⟩ ?_
  rintro ⟨t, w'⟩ h sr _
  dsimp only
  split_ifs
  · exact h
  · exact h
  · exact h

theorem Writes.stepSearches (h : Writes w w') : Writes w w'.stepSearches := by
  have hsteps : Writes w ((List.range w'.searches.length).foldl stepIfDue w') := by
    refine h.foldl _ fun w₁ i _ h₁ => ?_
    unfold stepIfDue
    split_ifs
    · exact h₁.searchStep i
    · exact h₁
  unfold World.stepSearches
  dsimp only
  generalize (List.range w'.searches.length).foldl stepIfDue w' = w₁ at hsteps
  have hnext := core_nextSearchTime w₁
  have htime : Writes w { w₁ with searchTime := w₁.nextSearchTime.1 } :=
    Writes.write hsteps .searchTime
  refine htime.other ?_ hnext.2
  simp only [core, Statics.mk.injEq] at hnext ⊢
  obtain ⟨⟨hmyid, hnow, hrouting, hsearches, -, hstorage, hsecrets, hrotate⟩, -⟩ := hnext
  exact ⟨hmyid, hnow, hrouting, hsearches, trivial, hstorage, hsecrets, hrotate⟩

theorem Writes.maintainBoth (h : Writes w w')
    {f : Net → ℤ → Routing → ℕ → Random → Routing × List Packet × Bool × Random}
    {due : World → ℕ → Bool} (hf : ∀ (net : Net) (now : ℤ) (r : Routing) (af : ℕ) (rs : Random),
      Evolves net r (f net now r af rs).1) :
    Writes w (w'.maintainBoth f due).2 := by
  have hone {w' : World} (h : Writes w w') (af : ℕ) :
      Writes w (w'.maintain (f · w'.now) af).2 := by
    unfold World.maintain
    have hw : Writes w { w' with
        env := { w'.env with random := (f w'.net w'.now w'.routing af w'.env.random).2.2.2 } } :=
      h.other rfl rfl
    exact hw.withRouting (hf _ _ _ _ _)
  have hif {w' : World} (h : Writes w w') (af : ℕ) :
      Writes w (if due w' af = true then w'.maintain (f · w'.now) af else (false, w')).2 := by
    split_ifs
    · exact hone h af
    · exact h
  exact hif (hif h afInet) afInet6

theorem Writes.confirmNodes (h : Writes w w') : Writes w w'.confirmNodes := by
  have hbucket : Writes w (w'.maintainBoth (fun net now r => r.bucketMaintenance net now)
      fun _ _ => true).2 :=
    h.maintainBoth fun net now r af rs => evolves_call net r now
      (show (Routing.Call.bucketMaintenance af rs).Valid from trivial)
  unfold World.confirmNodes
  dsimp only
  generalize w'.maintainBoth (fun net now r => r.bucketMaintenance net now)
    (fun _ _ => true) = out at hbucket
  obtain ⟨soon, w₁⟩ := out
  have hneighbour : Writes w (w₁.maintainBoth
      (fun net now r => r.neighbourhoodMaintenance net now) hasGrown).2 :=
    Writes.maintainBoth hbucket fun net now r af rs => evolves_call net r now
      (show (Routing.Call.neighbourhoodMaintenance af rs).Valid from trivial)
  cases soon with
  | true => exact Writes.other hbucket rfl rfl
  | false => exact hneighbour.other rfl rfl

theorem Writes.doDue (h : Writes w w') : Writes w w'.doDue := by
  have h₁ : Writes w (if w'.rotateSecretsTime ≤ w'.now then w'.rotateSecrets else w') := by
    split_ifs with hdue
    · exact h.write (.rotateSecrets hdue)
    · exact h
  unfold World.doDue
  dsimp only
  generalize (if w'.rotateSecretsTime ≤ w'.now then w'.rotateSecrets else w') = w₁ at h₁
  have h₂ : Writes w (if w₁.expireStuffTime ≤ w₁.now then w₁.expire else w₁) := by
    split_ifs
    · exact h₁.expire
    · exact h₁
  generalize (if w₁.expireStuffTime ≤ w₁.now then w₁.expire else w₁) = w₂ at h₂
  have h₃ : Writes w (if 0 < w₂.searchTime ∧ w₂.searchTime ≤ w₂.now then w₂.stepSearches
      else w₂) := by
    split_ifs
    · exact h₂.stepSearches
    · exact h₂
  generalize (if 0 < w₂.searchTime ∧ w₂.searchTime ≤ w₂.now then w₂.stepSearches else w₂) = w₃
    at h₃
  split_ifs
  · exact h₃.confirmNodes
  · exact h₃

/-- The sender of a datagram has an IPv4 or IPv6 address. -/
def FromSockaddr (dg : Option Datagram) : Prop := ∀ d ∈ dg, IsSockaddr d.frm d.fromlen

theorem fromSockaddr_some {dg : Datagram} (h : IsSockaddr dg.frm dg.fromlen) :
    FromSockaddr (some dg) :=
  fun _ hd => Option.some_inj.mp hd ▸ h

theorem Writes.dhtPeriodic (h : Writes w w') {dg : Option Datagram} (hdg : FromSockaddr dg) :
    Writes w (w'.dhtPeriodic lib clayer dg).2 := by
  have hnow := h.write .gettimeofday
  unfold World.dhtPeriodic
  cases dg with
  | none => exact hnow.doDue
  | some dg =>
    dsimp only
    split_ifs
    · exact hnow.doDue
    · exact hnow
    · exact (hnow.receive (hdg dg rfl)).doDue

/-! ## The API -/

section

variable (ctx : Context)

theorem Writes.readyForWork (h : Writes w w') : Writes w (w'.readyForWork ctx).2 := by
  unfold World.readyForWork
  dsimp only
  split_ifs
  all_goals first
    | exact h
    | exact h.other rfl rfl

/-- The slot that `dht_search` uses, if it gets one, is started or started again. -/
theorem core_searchSlot (w : World) (id : Id) (af : ℕ) :
    ((w.searchSlot id af).1 = none ∧ (w.searchSlot id af).2.core = w.core ∨
      (w.searchSlot id af).1 ≠ none ∧ ∃ srs,
        Wrote (SearchStartWrite w.now) (callocSearch :: w.searches) srs ∧
          (w.searchSlot id af).2.core = { w with searches := srs }.core) ∧
      (w.searchSlot id af).2.net = w.net ∧ (w.searchSlot id af).2.env.clock = w.env.clock := by
  unfold World.searchSlot
  cases w.findIdx id af with
  | some i =>
    refine ⟨Or.inr ⟨Option.some_ne_none i, _, ?_, rfl⟩, rfl, rfl⟩
    exact (wrote_of_subset (List.subset_cons_self _ _)).trans
      (wrote_modify fun _ _ => .single .restart)
  | none =>
    dsimp only
    cases hnew : newSearch w.now (w.env.calloc 0) w.searches w.numsearches with
    | mk slot rest =>
      obtain ⟨searches, numsearches⟩ := rest
      cases slot with
      | none => exact ⟨Or.inl ⟨rfl, rfl⟩, rfl, rfl⟩
      | some i =>
        have hsub : searches ⊆ callocSearch :: w.searches := by
          rcases newSearch_cases hnew with ⟨rfl, -, -⟩ | ⟨-, rfl, -⟩
          · exact List.subset_cons_self _ _
          · exact List.Subset.refl _
        refine ⟨Or.inr ⟨Option.some_ne_none i, _, (wrote_of_subset hsub).trans ?_, rfl⟩, rfl, rfl⟩
        exact wrote_modify fun _ _ => .single (.start af w.searchId id)

theorem Writes.dhtSearch (h : Writes w w') (id : Id) (port : UInt16) (af : ℕ) :
    Writes w (w'.dhtSearch id port af).2 := by
  obtain ⟨hslot, hnet, hclock⟩ := core_searchSlot w' id af
  unfold World.dhtSearch
  cases w'.routing.findBucket id af with
  | none => exact h
  | some b =>
    dsimp only
    generalize w'.searchSlot id af = out at hslot hnet hclock
    obtain ⟨slot, w₁⟩ := out
    dsimp only at hslot hnet hclock
    cases slot with
    | none =>
      rcases hslot with ⟨-, hcore⟩ | ⟨hsome, -⟩
      · exact h.other hcore hclock
      · exact absurd rfl hsome
    | some i =>
      rcases hslot with ⟨hnone, -⟩ | ⟨-, srs, hsrs, hcore⟩
      · exact absurd hnone (Option.some_ne_none i)
      simp only [core, Statics.mk.injEq] at hcore
      obtain ⟨hmyid, hnow, hrouting, rfl, -, hstorage, hsecrets, hrotate⟩ := hcore
      have hclosest : Wrote (SearchStartWrite w'.now) w₁.searches (w₁.searches.modify i fun sr =>
          ({ sr with port := port } : Search).insertClosest w₁.now w₁.routing w₁.myid b) := by
        refine wrote_modify fun sr _ => .head (.port port) ?_
        rw [hnow]
        exact (searchWrites_insertClosest _ _ _ _).lift (fun sr => sr) fun _ _ => .write
      dsimp only
      generalize hw₂ : World.emit _ _ = w₂
      obtain ⟨srs, r, hstep, hr, hcore, henv⟩ := core_searchStep w₂ i
      subst hw₂
      have hnow₂ : SearchWrite w₁.now = SearchWrite w'.now := congrArg _ hnow
      have hall : Wrote (SearchStartWrite w'.now) (callocSearch :: w'.searches) srs :=
        (hsrs.trans hclosest).trans (Wrote.start (hnow₂ ▸ hstep))
      have hr' : Evolves w'.net w'.routing r := hnet ▸ hrouting ▸ hr
      have hroute : Writes w { w' with searches := srs, searchTime := w'.now, routing := r } :=
        (h.write (.dhtSearch hall)).write (.routing hr')
      refine hroute.other ?_ ((congrArg Env.clock henv).trans hclock)
      simp only [core, emit, Statics.mk.injEq] at hcore ⊢
      obtain ⟨hmyid', hnow', hrouting', hsearches', -, hstorage', hsecrets', hrotate'⟩ := hcore
      exact ⟨hmyid'.trans hmyid, hnow'.trans hnow, hrouting', hsearches', hnow'.trans hnow,
        hstorage'.trans hstorage, hsecrets'.trans hsecrets, hrotate'.trans hrotate⟩

theorem Writes.dtnDhtSearch (h : Writes w w') (id : Id) (port : UInt16) :
    Writes w (w'.dtnDhtSearch ctx id port).2 := by
  have h4 := h.dhtSearch id port afInet
  unfold World.dtnDhtSearch
  cases ctx.type with
  | bindnone => exact h
  | ipv4only => exact h4
  | ipv6only => exact h.dhtSearch id port afInet6
  | bindboth =>
    dsimp only
    split_ifs
    · exact h4
    · exact h4.dhtSearch id port afInet6

theorem Writes.startLookup (h : Writes w w') (key : Id) :
    Writes w (w'.startLookup ctx key).2 := by
  unfold World.startLookup
  split_ifs
  · exact h
  · exact (h.other rfl rfl : Writes w (w'.emit [.lookupStart key])).dtnDhtSearch ctx key 0

/-- A table is made with readings of the clock. -/
theorem clock_cleanUpFrom (threshold : ℤ) (head pos : List DhtEntry) (clock : Clock) :
    ∃ d, ∀ k, (cleanUpFrom threshold head pos clock).2 k = clock (k + d) := by
  induction pos generalizing head clock with
  | nil => exact ⟨0, fun _ => rfl⟩
  | cons entry next ih =>
    unfold cleanUpFrom
    dsimp only
    split_ifs
    · obtain ⟨d, hd⟩ := ih next (DtnDht.time clock).2
      exact ⟨d + 1, fun k => (hd k).trans (congrArg clock (Nat.add_assoc k d 1))⟩
    · obtain ⟨d, hd⟩ := ih head (DtnDht.time clock).2
      exact ⟨d + 1, fun k => (hd k).trans (congrArg clock (Nat.add_assoc k d 1))⟩

theorem Writes.dtnDhtLookup (h : Writes w w') (sha1 : Bytes → Bytes) (eid : Bytes) :
    Writes w (w'.dtnDhtLookup sha1 ctx eid).2 := by
  have hready := h.readyForWork ctx
  unfold World.dtnDhtLookup
  generalize w'.readyForWork ctx = out at hready
  obtain ⟨ready, w₁⟩ := out
  dsimp only
  split_ifs
  · exact hready
  · split
    · refine Writes.startLookup ctx ?_ _
      exact Writes.later hready rfl ⟨1, fun _ => rfl⟩
    · split_ifs
      · exact Writes.other hready rfl rfl
      · refine Writes.startLookup ctx ?_ _
        exact Writes.later hready rfl ⟨1, fun _ => rfl⟩

theorem Writes.dtnDhtAnnounce (h : Writes w w') (sha1 : Bytes → Bytes) (eid : Bytes)
    (type : LookupType) : Writes w (w'.dtnDhtAnnounce sha1 ctx eid type).2 := by
  unfold World.dtnDhtAnnounce
  dsimp only
  split
  · generalize hw₁ : modifyAnnouncement _ _ _ = w₁
    have h₁ : Writes w w₁ := by
      rw [← hw₁]
      exact h.later rfl ⟨1, fun _ => rfl⟩
    have hready := h₁.readyForWork ctx
    generalize w₁.readyForWork ctx = out at hready
    obtain ⟨ready, w₂⟩ := out
    dsimp only
    split_ifs
    · exact Writes.other hready rfl rfl
    · exact Writes.dtnDhtSearch ctx hready _ _
  · exact h.other rfl rfl

theorem Writes.reannounceList (h : Writes w w') : Writes w (w'.reannounceList ctx) := by
  refine h.foldl _ fun w₀ i _ h₀ => ?_
  have htime : Writes w w₀.time.2 := h₀.later rfl ⟨1, fun _ => rfl⟩
  unfold reannounceEntry
  generalize w₀.time = out at htime
  obtain ⟨acttime, w₁⟩ := out
  dsimp only
  split
  · exact htime
  · rename_i pos _
    have hsearch := Writes.dtnDhtSearch ctx htime pos.md ctx.port
    split_ifs
    · exact hsearch
    · exact hsearch.later rfl ⟨1, fun _ => rfl⟩
    · exact htime

theorem Writes.relookupList (h : Writes w w') : Writes w (w'.relookupList ctx) := by
  refine h.foldl _ fun w₀ i _ h₀ => ?_
  unfold relookupEntry
  split
  · exact h₀
  · rename_i pos _
    have hstart : Writes w (w₀.emit [.lookupStart pos.md]) := h₀.other rfl rfl
    have hsearch := hstart.dtnDhtSearch ctx pos.md 0
    by_cases hrepeat : pos.status = .doneAndReadyForRepeat
    · rw [if_pos hrepeat]
      dsimp only
      split_ifs
      · exact hsearch
      · exact hsearch.later rfl ⟨1, fun _ => rfl⟩
    · rw [if_neg hrepeat]
      exact h₀

theorem Writes.cleanUpLookups (h : Writes w w') (threshold : ℤ) :
    Writes w (w'.withLookups (cleanUpList w'.dtn.lookuptable threshold w'.env.clock)) :=
  h.later rfl (clock_cleanUpFrom threshold _ _ _)

theorem Writes.cleanUpAnnouncements (h : Writes w w') (table : List DhtEntry) (threshold : ℤ) :
    Writes w (w'.withAnnouncements (cleanUpList table threshold w'.env.clock)) :=
  h.later rfl (clock_cleanUpFrom threshold _ _ _)

theorem Writes.maintainLists (h : Writes w w') : Writes w (w'.maintainLists ctx) := by
  have hmin : Writes w (w'.setMinimumRating ctx) := h.other rfl rfl
  have hready := hmin.readyForWork ctx
  unfold World.maintainLists
  generalize (w'.setMinimumRating ctx).readyForWork ctx = out at hready
  obtain ⟨ready, w₁⟩ := out
  dsimp only
  have hlists : Writes w (if 2 ≤ ready then (w₁.reannounceList ctx).relookupList ctx
      else w₁) := by
    split_ifs
    · exact (Writes.reannounceList ctx hready).relookupList ctx
    · exact hready
  exact (hlists.cleanUpLookups lookupThreshold).cleanUpAnnouncements _ lookupThreshold

theorem Writes.startRandomLookup (h : Writes w w') : Writes w (w'.startRandomLookup ctx) := by
  have hone {w' : World} (h : Writes w w') (s : ℤ) (id : Id) (af : ℕ) :
      Writes w (if 0 ≤ s then (w'.dhtSearch id 0 af).2 else w') := by
    split_ifs
    · exact h.dhtSearch id 0 af
    · exact h
  unfold World.startRandomLookup
  refine hone (hone ?_ ctx.ipv4socket _ afInet) ctx.ipv6socket _ afInet6
  split_ifs
  · exact h.other rfl rfl
  · exact h.other rfl rfl

end

end World

/-! ## Calls -/

/-- Does the call start or stop the node? -/
def ProcessCall.restarts : ProcessCall → Bool
  | .init _ _ _ | .uninit => true
  | _ => false

/-- The addresses that the call is given are IPv4 and IPv6 ones. -/
def ProcessCall.Valid : ProcessCall → Prop
  | .api _ _ (.periodic dg) => World.FromSockaddr dg
  | .insertNode _ sa salen => IsSockaddr sa salen
  | _ => True

/-- Every call between `dtn_dht_init` and `dtn_dht_uninit` is a sequence of writes. -/
theorem Process.writes_call (p : Process) {c : ProcessCall} (hc : c.restarts = false)
    (hv : c.Valid) : World.Writes p.world (p.call c).world := by
  have hrefl : World.Writes p.world p.world := .refl
  cases c with
  | init ctx id oc => exact absurd hc Bool.noConfusion
  | uninit => exact absurd hc Bool.noConfusion
  | blacklist enable => exact hrefl.other rfl rfl
  | startRandomLookup ctx => exact hrefl.startRandomLookup ctx
  | insertNode id sa salen =>
    dsimp only [Process.call, World.dhtInsertNode]
    split_ifs
    · exact hrefl
    · exact hrefl.newNode hv id 0
  | pingNode sa salen => exact hrefl.other rfl rfl
  | api lib ctx call =>
    cases call with
    | lookup eid => exact hrefl.dtnDhtLookup ctx lib.sha1 eid
    | announce eid type => exact hrefl.dtnDhtAnnounce ctx lib.sha1 eid type
    | deannounce eid => exact hrefl.other rfl rfl
    | periodic dg => exact (hrefl.maintainLists ctx).dhtPeriodic hv

end DtnDht
