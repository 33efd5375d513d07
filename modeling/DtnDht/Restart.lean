import DtnDht.Api
import DtnDht.Init

/-!
# Stopping and starting again

`dtn_dht_uninit` and `dtn_dht_init` together reset the statics of six files, but for these: the
counters of `blacklist.c` and the head of the list of `rating.c`, which is left pointing at freed
entries; `dht_has_been_ready` of `bootstrapping.c`; and the own EID and the array `blacklist` of
`dht.c`. A process in which none of them has been written starts again as a fresh one
(`restart_eq_fresh`), and each of them shows at once (`leavesNothing_of_observed`).
-/

namespace DtnDht

open CString

/-- A process: its statics, and whether the list of ratings points at freed entries. As long as it
does, `get_rating` has no defined result. -/
structure Process where
  world : World
  danglingRatings : Bool

/-- A call that an application makes. -/
inductive ProcessCall where
  | init (ctx : Context) (id : Id) (oc : InitOutcomes)
  | uninit
  | api (lib : Platform) (ctx : Context) (c : ApiCall)
  | blacklist (enable : Bool)
  | startRandomLookup (ctx : Context)
  | insertNode (id : Id) (sa : Sockaddr) (salen : ℕ)
  | pingNode (sa : Sockaddr) (salen : ℕ)

namespace World

/-- `dtn_dht_blacklist`. -/
def dtnDhtBlacklist (w : World) (enable : Bool) : World :=
  { w with dtn := { w.dtn with blacklist := w.dtn.blacklist.enable enable } }

/-- `bootstrapping_start_random_lookup`. -/
def startRandomLookup (w : World) (ctx : Context) : World :=
  let (randomhash, w) := w.randomBytes 20
  let id := Id.ofBytes randomhash
  let w :=
    if w.dtn.blacklist.enabled then
      { w with dtn := { w.dtn with blacklist := w.dtn.blacklist.blacklistId id } }
    else w
  let w := if 0 ≤ ctx.ipv4socket then (w.dhtSearch id 0 afInet).2 else w
  if 0 ≤ ctx.ipv6socket then (w.dhtSearch id 0 afInet6).2 else w

/-- `dht_insert_node`. -/
def dhtInsertNode (w : World) (id : Id) (sa : Sockaddr) (salen : ℕ) : World :=
  if sa.family ≠ afInet then w else w.newNode id sa salen 0

/-- `dht_ping_node`. -/
def dhtPingNode (w : World) (sa : Sockaddr) (salen : ℕ) : World :=
  w.request (dhtSendBuf w.net (sendPing w.net (makeTid (str "pn") 0)) 0 sa salen)

/-- `cleanUpList` with a threshold of -1, on both tables, "all announcements off" before. -/
def emptyLists (w : World) : World :=
  let off := w.dtn.announcetable.map fun entry => { entry with announce := false }
  let w := w.withAnnouncements (cleanUpList off (-1) w.env.clock)
  w.withLookups (cleanUpList w.dtn.lookuptable (-1) w.env.clock)

/-- What `dtn_dht_init` sets before it calls `dht_init`. -/
def readyToInit (w : World) (ctx : Context) : World :=
  let w := w.setMinimumRating ctx
  { w with dtn := { w.dtn with announcetable := [], lookuptable := [] } }

/-- The record of what was sent and reported, which nothing reads, starts anew. -/
def forget (w : World) : World := { w with outputs := [] }

end World

namespace Process

/-- A process that has just been started. -/
def start (env : Env) : Process := ⟨World.initial env, false⟩

/-- `dtn_dht_init`, whatever the calls inside return. -/
def init (p : Process) (ctx : Context) (id : Id) (oc : InitOutcomes) : InitResult × Process :=
  let (rc, w) :=
    (p.world.readyToInit ctx).dhtInitWith ctx.ipv4socket ctx.ipv6socket id none oc
  (rc, { p with world := w })

/-- `free_ratings`; `list` keeps its value. -/
def freeRatings (p : Process) : Process where
  world := { p.world with dtn := { p.world.dtn with ratings := [] } }
  danglingRatings := p.danglingRatings || !p.world.dtn.ratings.isEmpty

/-- `dtn_dht_uninit`. -/
def uninit (p : Process) : ℤ × Process :=
  let p := p.freeRatings
  let w := p.world.emptyLists
  let w := { w with dtn := { w.dtn with blacklist := w.dtn.blacklist.free } }
  let (rc, w) := w.dhtUninit
  (rc, { p with world := w })

/-- The process after a call. -/
def call (p : Process) : ProcessCall → Process
  | .init ctx id oc => (p.init ctx id oc).2
  | .uninit => p.uninit.2
  | .api lib ctx c => { p with world := p.world.call lib ctx c }
  | .blacklist enable => { p with world := p.world.dtnDhtBlacklist enable }
  | .startRandomLookup ctx => { p with world := p.world.startRandomLookup ctx }
  | .insertNode id sa salen => { p with world := p.world.dhtInsertNode id sa salen }
  | .pingNode sa salen => { p with world := p.world.dhtPingNode sa salen }

/-- The process after some calls, the latest first. -/
def after (p : Process) (past : List ProcessCall) : Process := past.foldr (fun c p => p.call c) p

/-! ## What a process shows -/

/-- `get_rating`, none if it reads freed memory; `md` is the digest of the sender. -/
def rating (p : Process) (md : Bytes) (infoHash : Id) (target : Sockaddr) : Option ℕ :=
  if p.danglingRatings then none else some (getRating md p.world.dtn.ratings infoHash target).1

/-- The text of the answer to a DTN query, none if it is not answered. -/
def dtnAnswer (p : Process) (clayer : List ConvergenceLayer) (tid : Bytes) (eid : Option Bytes) :
    Option (Option Bytes) :=
  if p.world.answersDtnQuery eid then
    some (sendDtninfo tid p.world.eids.myEid clayer p.world.eids.neighbours p.world.eids.groups)
  else none

/-- What can be observed of a process. -/
structure Observed where
  /-- `dtn_dht_blacklisted_nodes` -/
  blacklistedNodes : ℕ × ℕ
  /-- `dtn_dht_ready_for_work` -/
  readyForWork : Context → ℕ
  dtnAnswer : List ConvergenceLayer → Bytes → Option Bytes → Option (Option Bytes)
  /-- `node_blacklisted` -/
  refused : Sockaddr → ℕ → Bool
  /-- `get_rating` -/
  rating : Bytes → Id → Sockaddr → Option ℕ
  /-- what was sent and reported -/
  outputs : List Output

/-- What a process shows. -/
def observed (p : Process) : Observed where
  blacklistedNodes :=
    (p.world.dtn.blacklist.numberOfEntriesIpv4, p.world.dtn.blacklist.numberOfEntriesIpv6)
  readyForWork ctx := (p.world.readyForWork ctx).1
  dtnAnswer := p.dtnAnswer
  refused := p.world.net.nodeBlacklisted
  rating := p.rating
  outputs := p.world.outputs

variable (p : Process) (ctx : Context) (id : Id) (oc : InitOutcomes)

/-- The process stopped and started again. -/
def restart : Process :=
  let p := (p.uninit.2.init ctx id oc).2
  { p with world := p.world.forget }

/-- A fresh process started at the same time, with the blacklist enabled or not as in this one. -/
def fresh : Process :=
  let enabled := p.world.dtn.blacklist.enabled
  let p := (((start p.uninit.2.world.env).call (.blacklist enabled)).init ctx id oc).2
  { p with world := p.world.forget }

/-- None of the statics that a restart leaves alone has been written. -/
structure LeavesNothing : Prop where
  dangling : p.danglingRatings = false
  ratings : p.world.dtn.ratings = []
  ipv4 : p.world.dtn.blacklist.numberOfEntriesIpv4 = 0
  ipv6 : p.world.dtn.blacklist.numberOfEntriesIpv6 = 0
  ready : p.world.dtn.dhtHasBeenReady = false
  eid : p.world.eids.myEid = str "none"
  eidChanged : p.world.eids.myEidChanged = false
  snubbed : p.world.snubbed = List.replicate 10 zeroStorage

end Process

/-! ## What a start reads -/

namespace World

variable {w w' : World}

/-- A start reads nothing but the environment, and leaves nothing else but these statics. -/
theorem dhtInit_congr (s s6 : ℤ) (id : Id) (v : Option Bytes) (henv : w.env = w'.env)
    (hdtn : w.dtn = w'.dtn) (hsnubbed : w.snubbed = w'.snubbed)
    (heid : w.eids.myEid = w'.eids.myEid) (hchanged : w.eids.myEidChanged = w'.eids.myEidChanged) :
    (w.dhtInit s s6 id v).forget = (w'.dhtInit s s6 id v).forget := by
  obtain ⟨_, _, _, _, _, _, _, _, _, _, _, _, _, _, _, _, _, _, ⟨_, _, _, _⟩, _, _, _⟩ := w
  obtain ⟨_, _, _, _, _, _, _, _, _, _, _, _, _, _, _, _, _, _, ⟨_, _, _, _⟩, _, _, _⟩ := w'
  dsimp only at henv hdtn hsnubbed heid hchanged
  subst henv hdtn hsnubbed heid hchanged
  rfl

/-- A start leaves the statics of the other files and the array `blacklist` alone, and of the EIDs
our own. -/
theorem dhtInit_statics (w : World) (s s6 : ℤ) (id : Id) (v : Option Bytes) :
    (w.dhtInit s s6 id v).forget.dtn = w.dtn ∧ (w.dhtInit s s6 id v).forget.snubbed = w.snubbed ∧
      (w.dhtInit s s6 id v).forget.eids = { w.eids with groups := [], neighbours := [] } :=
  ⟨rfl, rfl, rfl⟩

/-- There are no good nodes after a start. -/
theorem dhtNodes_dhtInit (w : World) (s s6 : ℤ) (id : Id) (v : Option Bytes) (now : ℤ) (af : ℕ) :
    ((w.dhtInit s s6 id v).forget.routing.dhtNodes now af).1 = 0 := by
  have hempty : ∀ b ∈ (w.dhtInit s s6 id v).routing.table af, b.nodes = [] := by
    intro b hb
    exact nodes_dhtInit w s s6 id v hb
  generalize w.dhtInit s s6 id v = w' at hempty
  have hnodes : (w'.routing.table af).flatMap Bucket.nodes = [] :=
    List.flatMap_eq_nil_iff.mpr hempty
  show (((w'.routing.table af).flatMap Bucket.nodes).filter (nodeGood now)).length = 0
  rw [hnodes]
  rfl

theorem readyForWork_of_empty (ctx : Context) {w : World}
    (h : ∀ now af, (w.routing.dhtNodes now af).1 = 0) :
    (w.readyForWork ctx).1 = if w.dtn.dhtHasBeenReady then 1 else 0 := by
  unfold readyForWork
  simp only [h, ite_self]
  split_ifs <;> first | rfl | contradiction

/-- `dht_uninit` concerns the sockets, the routing table, the searches and the storage. -/
theorem dhtUninit_statics (w : World) :
    w.dhtUninit.2.env = w.env ∧ w.dhtUninit.2.dtn = w.dtn ∧
      w.dhtUninit.2.snubbed = w.snubbed ∧ w.dhtUninit.2.eids = w.eids := by
  unfold dhtUninit
  split_ifs <;> exact ⟨rfl, rfl, rfl, rfl⟩

end World

namespace Process

variable {p : Process} {ctx : Context} {id : Id} {oc : InitOutcomes}

/-- The statics of `dtndht.c` and of the files it uses, as a restart leaves them. -/
theorem dtn_uninit (p : Process) : p.uninit.2.world.dtn =
    { p.world.emptyLists.dtn with ratings := [], blacklist := p.world.dtn.blacklist.free } := by
  unfold uninit
  exact (World.dhtUninit_statics _).2.1

theorem snubbed_uninit (p : Process) : p.uninit.2.world.snubbed = p.world.snubbed := by
  unfold uninit
  exact (World.dhtUninit_statics _).2.2.1

theorem eids_uninit (p : Process) : p.uninit.2.world.eids = p.world.eids := by
  unfold uninit
  exact (World.dhtUninit_statics _).2.2.2

/-- A start that succeeds, as it is modelled. -/
theorem world_init (h : (p.init ctx id oc).1 = .initialised) :
    oc.Succeeds ctx.ipv4socket ctx.ipv6socket ∧ (p.init ctx id oc).2.world =
      (p.world.readyToInit ctx).dhtInit ctx.ipv4socket ctx.ipv6socket id none :=
  World.dhtInitWith_of_initialised ctx.ipv4socket ctx.ipv6socket id none oc h

theorem world_restart (h : (p.uninit.2.init ctx id oc).1 = .initialised) :
    (p.restart ctx id oc).world = ((p.uninit.2.world.readyToInit ctx).dhtInit
      ctx.ipv4socket ctx.ipv6socket id none).forget :=
  congrArg World.forget (world_init h).2

/-- The fresh process before its start. -/
def freshWorld (p : Process) : World :=
  (World.initial p.uninit.2.world.env).dtnDhtBlacklist p.world.dtn.blacklist.enabled

theorem world_fresh (p : Process) (id : Id) (h : oc.Succeeds ctx.ipv4socket ctx.ipv6socket) :
    (p.fresh ctx id oc).world = ((p.freshWorld.readyToInit ctx).dhtInit
      ctx.ipv4socket ctx.ipv6socket id none).forget := by
  have hsocket : (-1 : ℤ) < 0 := by decide
  have hinitial : (p.freshWorld.readyToInit ctx).Uninitialised := ⟨hsocket, hsocket, rfl, rfl⟩
  have hinit := World.dhtInitWith_of_succeeds id none hinitial h
  exact congrArg (fun out => World.forget out.2) hinit

/-- A process that leaves nothing behind starts again as a fresh one. -/
theorem restart_eq (hinit : (p.uninit.2.init ctx id oc).1 = .initialised) (hp : p.LeavesNothing) :
    p.restart ctx id oc = p.fresh ctx id oc := by
  have hworld : (p.restart ctx id oc).world = (p.fresh ctx id oc).world := by
    rw [world_restart hinit, world_fresh p id (world_init hinit).1]
    apply World.dhtInit_congr
    · rfl
    · have hblacklist : p.world.dtn.blacklist.free =
          Blacklist.enable {} p.world.dtn.blacklist.enabled := by
        unfold Blacklist.free Blacklist.enable
        rw [hp.ipv4, hp.ipv6]
      unfold World.readyToInit World.setMinimumRating
      dsimp only
      rw [dtn_uninit, hblacklist]
      show _ = ({ minimumRating := ctx.minimumRating, blacklist := _ } : Dtn)
      rw [← hp.ready]
      rfl
    · exact (snubbed_uninit p).trans hp.snubbed
    · exact (congrArg DtnEids.myEid (eids_uninit p)).trans hp.eid
    · exact (congrArg DtnEids.myEidChanged (eids_uninit p)).trans hp.eidChanged
  have hdangling : (p.restart ctx id oc).danglingRatings = (p.fresh ctx id oc).danglingRatings := by
    show (p.danglingRatings || !p.world.dtn.ratings.isEmpty) = false
    rw [hp.dangling, hp.ratings]
    rfl
  exact congrArg₂ Process.mk hworld hdangling

/-- **A process in which nothing was blacklisted or rated, that was never ready and never announced
an EID of its own, starts again as a fresh one**: whatever happens from then on, it shows the
same. -/
theorem restart_eq_fresh (hinit : (p.uninit.2.init ctx id oc).1 = .initialised)
    (hp : p.LeavesNothing) (later : List ProcessCall) :
    ((p.restart ctx id oc).after later).observed = ((p.fresh ctx id oc).after later).observed := by
  rw [restart_eq hinit hp]

/-- A hash function that keeps the first 20 bytes. -/
def cutPlatform : Platform where
  sha1 b := (b ++ List.replicate 20 0).take 20
  inetNtop _ _ := []

/-- An announcement of node 7 on port 6881, with the token of eight ones. -/
def announcement : Datagram where
  buf := str "d1:ad2:id20:" ++ List.replicate 20 7 ++ str "9:info_hash20:" ++
    List.replicate 20 8 ++ str "4:porti6881e5:token8:" ++ List.replicate 8 1 ++
    str "e1:q13:announce_peer1:t4:ap" ++ [1, 2] ++ str "1:y1:qe"
  terminated := true
  frm := sockaddrIn [9, 9, 9, 9] [26, 225]
  fromlen := 16

/-- Eight nodes answer pings, then the announcement comes in, and then an EID is looked up. -/
def busy : List ProcessCall :=
  [.api cutPlatform World.ipv4Context (.lookup (str "dtn:a")),
    .api cutPlatform World.ipv4Context (.periodic (some announcement))] ++
    World.meetNodes.map (.api cutPlatform World.ipv4Context)

/-- A node that has done all this since its start. -/
def busyNode : Process :=
  (start (Env.still 1000)).after (busy ++ [.init World.ipv4Context (Id.ofBytes [1]) .succeed])

/-- After a restart it does all this again as a fresh one does. -/
theorem restart_eq_fresh_busyNode :
    let q := (busyNode.restart World.ipv4Context (Id.ofBytes [1]) .succeed).after busy
    (∃ sr ∈ busyNode.world.searches, sr.nodes ≠ []) ∧ busyNode.world.storage ≠ [] ∧
      q.observed.outputs ≠ [] ∧ q.observed =
        ((busyNode.fresh World.ipv4Context (Id.ofBytes [1]) .succeed).after busy).observed := by
  have hleaves : busyNode.danglingRatings = false ∧ busyNode.world.dtn.ratings = [] ∧
      busyNode.world.dtn.blacklist.numberOfEntriesIpv4 = 0 ∧
      busyNode.world.dtn.blacklist.numberOfEntriesIpv6 = 0 ∧
      busyNode.world.dtn.dhtHasBeenReady = false ∧ busyNode.world.eids.myEid = str "none" ∧
      busyNode.world.eids.myEidChanged = false ∧
      busyNode.world.snubbed = List.replicate 10 zeroStorage := by decide +kernel
  obtain ⟨hdangling, hratings, hipv4, hipv6, hready, heid, hchanged, hsnubbed⟩ := hleaves
  have hbusy : (∃ sr ∈ busyNode.world.searches, sr.nodes ≠ []) ∧ busyNode.world.storage ≠ [] ∧
      ((busyNode.restart World.ipv4Context (Id.ofBytes [1]) .succeed).after busy).observed.outputs ≠
        [] := by decide +kernel
  obtain ⟨hsearches, hstorage, houtputs⟩ := hbusy
  refine ⟨hsearches, hstorage, houtputs, ?_⟩
  exact restart_eq_fresh (by decide +kernel)
    ⟨hdangling, hratings, hipv4, hipv6, hready, heid, hchanged, hsnubbed⟩ busy

/-! ## What a restart leaves -/

section

variable (hinit : (p.uninit.2.init ctx id oc).1 = .initialised)

include hinit

theorem dtn_restart : (p.restart ctx id oc).world.dtn = (p.uninit.2.world.readyToInit ctx).dtn := by
  rw [world_restart hinit]
  exact (World.dhtInit_statics _ _ _ _ _).1

theorem snubbed_restart : (p.restart ctx id oc).world.snubbed = p.world.snubbed := by
  rw [world_restart hinit]
  exact (World.dhtInit_statics _ _ _ _ _).2.1.trans (snubbed_uninit p)

theorem eids_restart : (p.restart ctx id oc).world.eids =
    { p.world.eids with groups := [], neighbours := [] } := by
  rw [world_restart hinit, ← eids_uninit p]
  exact (World.dhtInit_statics _ _ _ _ _).2.2

theorem blacklist_restart :
    (p.restart ctx id oc).world.dtn.blacklist = p.world.dtn.blacklist.free := by
  rw [dtn_restart hinit]
  show p.uninit.2.world.dtn.blacklist = _
  rw [dtn_uninit]

theorem dhtHasBeenReady_restart :
    (p.restart ctx id oc).world.dtn.dhtHasBeenReady = p.world.dtn.dhtHasBeenReady := by
  rw [dtn_restart hinit]
  show p.uninit.2.world.dtn.dhtHasBeenReady = _
  rw [dtn_uninit]
  rfl

theorem readyForWork_restart :
    ((p.restart ctx id oc).world.readyForWork ctx).1 =
      if p.world.dtn.dhtHasBeenReady then 1 else 0 := by
  rw [World.readyForWork_of_empty ctx, dhtHasBeenReady_restart hinit]
  intro now af
  rw [world_restart hinit]
  exact World.dhtNodes_dhtInit _ _ _ _ _ now af

end

/-- What a fresh process shows. -/
theorem observed_fresh (p : Process) (id : Id)
    (h : oc.Succeeds ctx.ipv4socket ctx.ipv6socket) :
    (p.fresh ctx id oc).observed.blacklistedNodes = (0, 0) ∧
      (p.fresh ctx id oc).observed.readyForWork ctx = 0 ∧
      (∀ clayer tid eid, (p.fresh ctx id oc).observed.dtnAnswer clayer tid eid = none) ∧
      (∀ sa salen, (p.fresh ctx id oc).observed.refused sa salen =
        nodeBlacklisted p.world.dtn.blacklist.free (List.replicate 10 zeroStorage) sa salen) ∧
      ∀ md infoHash target, (p.fresh ctx id oc).observed.rating md infoHash target ≠ none := by
  have hw := world_fresh p id h
  obtain ⟨hdtn, hsnubbed, heids⟩ := World.dhtInit_statics (p.freshWorld.readyToInit ctx)
    ctx.ipv4socket ctx.ipv6socket id none
  rw [← hw] at hdtn hsnubbed heids
  have hblacklist : (p.fresh ctx id oc).world.dtn.blacklist =
      Blacklist.enable {} p.world.dtn.blacklist.enabled := by
    rw [hdtn]
    rfl
  refine ⟨?_, ?_, ?_, ?_, ?_⟩
  · unfold observed
    rw [hblacklist]
    rfl
  · show ((p.fresh ctx id oc).world.readyForWork ctx).1 = 0
    rw [World.readyForWork_of_empty ctx, hdtn]
    · rfl
    · intro now af
      rw [hw]
      exact World.dhtNodes_dhtInit _ _ _ _ _ now af
  · intro clayer tid eid
    show (p.fresh ctx id oc).dtnAnswer clayer tid eid = none
    unfold dtnAnswer World.answersDtnQuery
    rw [heids]
    rfl
  · intro sa salen
    show nodeBlacklisted _ _ sa salen = _
    rw [hblacklist, hsnubbed]
    rfl
  · intro md infoHash target
    exact Option.some_ne_none _

/-- An empty blacklist refuses no address. -/
theorem blacklisted_free (bl : Blacklist) {sa : Sockaddr} (h : 8 ≤ sa.length) :
    bl.free.blacklisted sa = false := by
  have hlookup : lookupLoop sa.sinAddr .null = false := by
    have hpos : 0 < sa.sinAddr.length := by
      unfold Sockaddr.sinAddr slice
      rw [List.length_take, List.length_drop]
      omega
    obtain ⟨a, addr, haddr⟩ := List.exists_cons_of_length_pos hpos
    rw [haddr]
    rfl
  unfold Blacklist.blacklisted
  split_ifs
  · rfl
  · exact hlookup
  · rfl

/-- The flag of the EID shows in the answer to a query for it. -/
theorem myEidChanged_of_dtnAnswer (hinit : (p.uninit.2.init ctx id oc).1 = .initialised)
    (h : ∀ clayer tid eid, (p.restart ctx id oc).observed.dtnAnswer clayer tid eid = none) :
    p.world.eids.myEidChanged = false := by
  by_contra hne
  have hanswers : (p.restart ctx id oc).world.answersDtnQuery
      (some (p.world.eids.myEid ++ [0])) = true := by
    unfold World.answersDtnQuery World.isForeign
    rw [eids_restart hinit, Bool.of_not_eq_false hne]
    simp
  have hnone : (p.restart ctx id oc).dtnAnswer [] [] (some (p.world.eids.myEid ++ [0])) = none :=
    h [] [] _
  unfold dtnAnswer at hnone
  rw [if_pos hanswers] at hnone
  exact absurd hnone (Option.some_ne_none _)

/-- The ring of snubbed addresses shows in what is refused: an address that was snubbed still is,
and a fresh process refuses nothing but zeros. -/
theorem snubbed_of_refused (hinit : (p.uninit.2.init ctx id oc).1 = .initialised)
    (h : ∀ sa salen, (p.restart ctx id oc).observed.refused sa salen =
      nodeBlacklisted p.world.dtn.blacklist.free (List.replicate 10 zeroStorage) sa salen) :
    ∀ e ∈ p.world.snubbed, e = List.replicate e.length 0 := by
  intro e he
  have hsame : (p.restart ctx id oc).observed.refused (e ++ zeroStorage) e.length = true := by
    show nodeBlacklisted _ _ _ _ = true
    rw [snubbed_restart hinit]
    apply Bool.or_eq_true_iff.mpr
    right
    apply List.any_eq_true.mpr
    refine ⟨e, he, ?_⟩
    rw [List.take_left, List.take_length, beq_self_eq_true]
  rw [h] at hsame
  unfold nodeBlacklisted at hsame
  rw [blacklisted_free, Bool.false_or, List.any_eq_true] at hsame
  · obtain ⟨z, hz, hze⟩ := hsame
    rw [List.eq_of_mem_replicate hz, List.take_left, beq_iff_eq] at hze
    rw [← hze]
    unfold zeroStorage
    rw [List.take_replicate, List.length_replicate]
  · rw [List.length_append, show zeroStorage.length = 128 from rfl]
    omega

/-- **Each of these statics shows at once** after a restart. -/
theorem leavesNothing_of_observed (hinit : (p.uninit.2.init ctx id oc).1 = .initialised)
    (h : (p.restart ctx id oc).observed = (p.fresh ctx id oc).observed) :
    p.danglingRatings = false ∧ p.world.dtn.ratings = [] ∧
      p.world.dtn.blacklist.numberOfEntriesIpv4 = 0 ∧
      p.world.dtn.blacklist.numberOfEntriesIpv6 = 0 ∧
      p.world.dtn.dhtHasBeenReady = false ∧ p.world.eids.myEidChanged = false ∧
      ∀ e ∈ p.world.snubbed, e = List.replicate e.length 0 := by
  obtain ⟨hnodes, hready, hanswer, hrefused, hrating⟩ :=
    observed_fresh p id (world_init hinit).1
  rw [← h] at hnodes hready hanswer hrefused hrating
  have hdangling : (p.danglingRatings || !p.world.dtn.ratings.isEmpty) = false := by
    by_contra hd
    apply hrating [] id []
    show (p.restart ctx id oc).rating [] id [] = none
    unfold rating
    exact if_pos (Bool.of_not_eq_false hd)
  obtain ⟨hd, hr⟩ := Bool.or_eq_false_iff.mp hdangling
  have hcounters : (p.restart ctx id oc).observed.blacklistedNodes =
      (p.world.dtn.blacklist.numberOfEntriesIpv4, p.world.dtn.blacklist.numberOfEntriesIpv6) := by
    unfold observed
    rw [blacklist_restart hinit]
    rfl
  rw [hcounters, Prod.mk.injEq] at hnodes
  have hready' : (if p.world.dtn.dhtHasBeenReady then 1 else 0) = 0 :=
    (readyForWork_restart hinit).symm.trans hready
  refine ⟨hd, ?_, hnodes.1, hnodes.2, ?_, myEidChanged_of_dtnAnswer hinit hanswer,
    snubbed_of_refused hinit hrefused⟩
  · rwa [Bool.not_eq_false', List.isEmpty_iff] at hr
  · by_contra hne
    rw [if_pos (Bool.of_not_eq_false hne)] at hready'
    exact absurd hready' one_ne_zero

/-- A node that has announced an EID of its own. -/
def announced : Process :=
  ((start (Env.still 1000)).call (.init World.ipv4Context (Id.ofBytes [1]) .succeed)).call
    (.api World.samplePlatform World.ipv4Context (.announce (str "dtn:a") .singleton))

/-- Started again, it answers DTN queries under that EID, before it has announced anything. -/
theorem restart_ne_fresh :
    (announced.uninit.2.init World.ipv4Context (Id.ofBytes [1]) .succeed).1 = .initialised ∧
      (announced.restart World.ipv4Context (Id.ofBytes [1]) .succeed).observed ≠
        (announced.fresh World.ipv4Context (Id.ofBytes [1]) .succeed).observed := by
  constructor
  · decide +kernel
  · intro h
    have hanswer := congrArg (fun o => (o.dtnAnswer [] [] (some (str "dtn:b"))).isSome) h
    revert hanswer
    decide +kernel

end Process

end DtnDht
