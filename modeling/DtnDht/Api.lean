import DtnDht.SearchStep

/-!
# The API

An application looks up EIDs, announces its own, its groups' and its neighbours', stops announcing
them, and calls `dtn_dht_periodic`. The results of all calls but the last are not used by the
library itself. A run is a list of calls, the latest first.
-/

namespace DtnDht

open CString

/-- `enum dtn_dht_bind_type`. -/
inductive BindType where
  | bindnone
  | ipv4only
  | ipv6only
  | bindboth
  deriving DecidableEq, Repr

/-- `enum dtn_dht_lookup_type`. -/
inductive LookupType where
  | singleton
  | neighbour
  | group
  deriving DecidableEq, Repr

/-- What the calls read of a `struct dtn_dht_context`. -/
structure Context where
  ipv4socket : ℤ
  ipv6socket : ℤ
  port : UInt16
  type : BindType
  minimumRating : ℕ
  clayer : List ConvergenceLayer
  /-- "if ((*ctx).port <= 0 || (*ctx).port >= 0x10000)" is refused by `dtn_dht_init_sockets`. -/
  port_ne : port ≠ 0

/-- `DTN_EID_MAX_LENGTH`. -/
def dtnEidMaxLength : ℕ := 256

/-- `BOOTSTRAPPING_SEARCH_THRESHOLD`. -/
def bootstrappingSearchThreshold : ℕ := 8

/-- `DHT_READY_THRESHOLD`. -/
def dhtReadyThreshold : ℕ := 30

/-- `LOOKUP_THRESHOLD`. -/
def lookupThreshold : ℤ := 1800

/-- `REANNOUNCE_THRESHOLD`. -/
def reannounceThreshold : ℤ := 600

/-- The key of an EID in the tables. -/
def eidKey (sha1 : Bytes → Bytes) (eid : Bytes) : Id := Id.ofBytes (dhtHash sha1 20 eid [] [])

/-! ## EIDs -/

namespace DtnEids

/-- `dht_set_dtn_eid`. -/
def set (eid : Bytes) (e : DtnEids) : DtnEids :=
  { e with myEid := eid.take dtnEidMaxLength, myEidChanged := true }

/-- `dht_add_dtn_eid`. -/
def add (eid : Bytes) (type : LookupType) (e : DtnEids) : DtnEids :=
  match type with
  | .singleton => e.set eid
  | .group => { e with groups := if eid ∈ e.groups then e.groups else eid :: e.groups }
  | .neighbour =>
    { e with neighbours := if eid ∈ e.neighbours then e.neighbours else eid :: e.neighbours }

/-- `dht_remove_dtn_eid`. -/
def remove (eid : Bytes) (e : DtnEids) : DtnEids :=
  { e with neighbours := e.neighbours.erase eid, groups := e.groups.erase eid }

end DtnEids

namespace World

variable (sha1 : Bytes → Bytes) (ctx : Context)

/-! ## Searches -/

/-- `dtn_dht_ready_for_work`. -/
def readyForWork (w : World) : ℕ × World :=
  let good := if 0 ≤ ctx.ipv4socket then (w.routing.dhtNodes w.now afInet).1 else 0
  let good6 := if 0 ≤ ctx.ipv6socket then (w.routing.dhtNodes w.now afInet6).1 else 0
  if dhtReadyThreshold ≤ good ∨ dhtReadyThreshold ≤ good6 then
    (3, { w with dtn := { w.dtn with dhtHasBeenReady := true } })
  else if bootstrappingSearchThreshold ≤ good ∨ bootstrappingSearchThreshold ≤ good6 then (2, w)
  else if w.dtn.dhtHasBeenReady then (1, w)
  else (0, w)

/-- The families a context searches. -/
def families : List ℕ :=
  match ctx.type with
  | .bindnone => []
  | .ipv4only => [afInet]
  | .ipv6only => [afInet6]
  | .bindboth => [afInet, afInet6]

/-- `dtn_dht_search`. -/
def dtnDhtSearch (w : World) (id : Id) (port : UInt16) : ℤ × World :=
  match ctx.type with
  | .bindnone => (0, w)
  | .ipv4only => w.dhtSearch id port afInet
  | .ipv6only => w.dhtSearch id port afInet6
  | .bindboth =>
    let (rc, w) := w.dhtSearch id port afInet
    if rc < 0 then (rc, w) else w.dhtSearch id port afInet6

/-! ## The tables -/

/-- `minimum_rating = (*ctx).minimum_rating`. -/
def setMinimumRating (w : World) : World :=
  { w with dtn := { w.dtn with minimumRating := ctx.minimumRating } }

/-- A table of lookups, and the clock after it was made. -/
def withLookups (w : World) (out : List DhtEntry × Clock) : World :=
  { w with dtn := { w.dtn with lookuptable := out.1 }, env := { w.env with clock := out.2 } }

/-- A table of announcements, and the clock after it was made. -/
def withAnnouncements (w : World) (out : List DhtEntry × Clock) : World :=
  { w with dtn := { w.dtn with announcetable := out.1 }, env := { w.env with clock := out.2 } }

/-- A write through a pointer to an entry of the table of lookups. -/
def modifyLookup (w : World) (key : Id) (f : DhtEntry → DhtEntry) : World :=
  { w with dtn := { w.dtn with lookuptable := modifyEntry key f w.dtn.lookuptable } }

/-- A write through a pointer to an entry of the table of announcements. -/
def modifyAnnouncement (w : World) (key : Id) (f : DhtEntry → DhtEntry) : World :=
  { w with dtn := { w.dtn with announcetable := modifyEntry key f w.dtn.announcetable } }

/-! ## Lookups and announcements -/

/-- The end of `dtn_dht_lookup`: an EID that is announced is not looked up. -/
def startLookup (w : World) (key : Id) : ℤ × World :=
  if w.announced key then (1, w) else (w.emit [.lookupStart key]).dtnDhtSearch ctx key 0

/-- `dtn_dht_lookup`. -/
def dtnDhtLookup (w : World) (eid : Bytes) : ℤ × World :=
  let (ready, w) := w.readyForWork ctx
  if ready = 0 then (0, w)
  else
    let w := w.setMinimumRating ctx
    let key := eidKey sha1 eid
    match getFromList key w.dtn.lookuptable with
    | none =>
      (w.withLookups (addToList key w.dtn.lookuptable w.env.clock)).startLookup ctx key
    | some entry =>
      -- "Do not relookup, if the last lookup isn't finished"
      if entry.status = .searching ∨ entry.status = .repeatSearch then
        (1, w.modifyLookup key fun entry => { entry with status := .repeatSearch })
      else
        let (now, w) := w.time
        (w.modifyLookup key fun entry =>
          { entry with updatetime := now, status := .searching }).startLookup ctx key

/-- `dtn_dht_announce`. -/
def dtnDhtAnnounce (w : World) (eid : Bytes) (type : LookupType) : ℤ × World :=
  let w := { w.setMinimumRating ctx with eids := w.eids.add eid type }
  let key := eidKey sha1 eid
  match getFromList key w.dtn.announcetable with
  | none =>
    let w := w.withAnnouncements (addToList key w.dtn.announcetable w.env.clock)
    let (ready, w) :=
      (w.modifyAnnouncement key fun entry => { entry with announce := true }).readyForWork ctx
    if ready = 0 then (0, w.modifyAnnouncement key fun entry => { entry with updatetime := 0 })
    else w.dtnDhtSearch ctx key ctx.port
  | some _ => (0, w.modifyAnnouncement key fun entry => { entry with announce := true })

/-- `dtn_dht_deannounce`. -/
def dtnDhtDeannounce (w : World) (eid : Bytes) : World :=
  { w with
    eids := w.eids.remove eid
    dtn := { w.dtn with
      announcetable := deactivateFromList (eidKey sha1 eid) w.dtn.announcetable } }

/-- The loop of `reannounceList`, on an entry. -/
def reannounceEntry (w : World) (i : ℕ) : World :=
  let (acttime, w) := w.time
  match w.dtn.announcetable[i]? with
  | none => w
  | some pos =>
    if pos.announce ∧ pos.updatetime + reannounceThreshold < acttime then
      let (rc, w) := w.dtnDhtSearch ctx pos.md ctx.port
      if rc < 0 then w
      else
        let (now, w) := w.time
        w.withAnnouncements (w.dtn.announcetable.modify i fun pos =>
          { pos with updatetime := now }, w.env.clock)
    else w

/-- `reannounceList`. -/
def reannounceList (w : World) : World :=
  (List.range w.dtn.announcetable.length).foldl (reannounceEntry ctx) w

/-- The loop of `relookupList`, on an entry. -/
def relookupEntry (w : World) (i : ℕ) : World :=
  match w.dtn.lookuptable[i]? with
  | none => w
  | some pos =>
    if pos.status = .doneAndReadyForRepeat then
      let (rc, w) := (w.emit [.lookupStart pos.md]).dtnDhtSearch ctx pos.md 0
      if rc < 0 then w
      else
        let (now, w) := w.time
        w.withLookups (w.dtn.lookuptable.modify i fun pos =>
          { pos with status := .searching, updatetime := now }, w.env.clock)
    else w

/-- `relookupList`. -/
def relookupList (w : World) : World :=
  (List.range w.dtn.lookuptable.length).foldl (relookupEntry ctx) w

end World

/-- A call of the API. -/
inductive ApiCall where
  | lookup (eid : Bytes)
  | announce (eid : Bytes) (type : LookupType)
  | deannounce (eid : Bytes)
  | periodic (dg : Option Datagram)

namespace World

variable (lib : Platform) (ctx : Context)

/-- What `dtn_dht_periodic` does before it calls `dht_periodic`. -/
def maintainLists (w : World) : World :=
  let (ready, w) := (w.setMinimumRating ctx).readyForWork ctx
  let w := if 2 ≤ ready then (w.reannounceList ctx).relookupList ctx else w
  let w := w.withLookups (cleanUpList w.dtn.lookuptable lookupThreshold w.env.clock)
  w.withAnnouncements (cleanUpList w.dtn.announcetable lookupThreshold w.env.clock)

/-- `dtn_dht_periodic`. -/
def dtnDhtPeriodic (w : World) (dg : Option Datagram) : ℤ × World :=
  (w.maintainLists ctx).dhtPeriodic lib ctx.clayer dg

/-- `dtn_dht_init`, when it succeeds. -/
def dtnDhtInit (w : World) (id : Id) : World :=
  let w := w.setMinimumRating ctx
  let w := { w with dtn := { w.dtn with announcetable := [], lookuptable := [] } }
  w.dhtInit ctx.ipv4socket ctx.ipv6socket id none

/-- The state after a call. -/
def call (w : World) : ApiCall → World
  | .lookup eid => (w.dtnDhtLookup lib.sha1 ctx eid).2
  | .announce eid type => (w.dtnDhtAnnounce lib.sha1 ctx eid type).2
  | .deannounce eid => w.dtnDhtDeannounce lib.sha1 eid
  | .periodic dg => (w.dtnDhtPeriodic lib ctx dg).2

/-- The state after some calls, the latest first. -/
def calls (w : World) (past : List ApiCall) : World := past.foldr (fun c w => w.call lib ctx c) w

/-- An IPv4 node on the default port. -/
def ipv4Context : Context := ⟨5, -1, 9999, .ipv4only, 0, [], by decide⟩

/-- An IPv4 and IPv6 node on the default port. -/
def bothContext : Context := ⟨5, 6, 9999, .bindboth, 0, [], by decide⟩

/-- The reply to a ping of node `n`, 9.9.9.n. -/
def pingReply (n : UInt8) : Datagram where
  buf := str "d1:rd2:id20:" ++ List.replicate 20 n ++ str "e1:t4:pn" ++ [0, 0] ++ str "1:y1:re"
  terminated := true
  frm := sockaddrIn [9, 9, 9, n] [26, 225]
  fromlen := 16

/-- Eight nodes answer pings. -/
def meetNodes : List ApiCall :=
  ([200, 201, 202, 203, 204, 205, 206, 207] : List UInt8).map fun n =>
    .periodic (some (pingReply n))

/-- SHA-1 of dtn:a. -/
def samplePlatform : Platform where
  sha1 b :=
    if b = str "dtn:a" then
      [106, 94, 228, 254, 245, 6, 46, 211, 159, 225,
        220, 225, 5, 168, 150, 104, 191, 84, 223, 147]
    else List.replicate 20 0
  inetNtop _ _ := []

/-! ## What the calls leave unchanged -/

variable {lib ctx} {w : World}

variable (ctx) in
theorem kept_readyForWork (w : World) : Kept w (w.readyForWork ctx).2 := by
  unfold readyForWork
  dsimp only
  split_ifs <;> exact ⟨rfl, rfl, rfl, rfl, rfl, rfl⟩

variable (ctx) in
theorem kept_dtnDhtSearch (w : World) (id : Id) (port : UInt16) :
    Kept w (w.dtnDhtSearch ctx id port).2 := by
  have h := kept_dhtSearch w id port afInet
  unfold dtnDhtSearch
  cases ctx.type with
  | bindnone => exact Kept.refl w
  | ipv4only => exact h
  | ipv6only => exact kept_dhtSearch w id port afInet6
  | bindboth =>
    dsimp only
    split_ifs
    · exact h
    · exact h.trans (kept_dhtSearch _ id port afInet6)

/-- A step that leaves the tables and the searches but for their nodes alone. -/
structure Neutral (w w' : World) : Prop where
  heads : w'.heads = w.heads
  marks : w'.marks = w.marks
  announcetable : w'.dtn.announcetable = w.dtn.announcetable
  lookuptable : w'.dtn.lookuptable = w.dtn.lookuptable

theorem Stable.neutral {w w' : World} (h : Stable w w') : Neutral w w' :=
  ⟨h.heads, h.marks, h.announcetable, h.lookuptable⟩

variable (ctx) in
theorem neutral_readyForWork (w : World) : Neutral w (w.readyForWork ctx).2 := by
  unfold readyForWork
  dsimp only
  split_ifs <;> exact ⟨rfl, rfl, rfl, rfl⟩

/-- What is kept by steps that are neutral, by steps of searches that are not done and by the purge
is kept by what is due. -/
theorem doDue_of_steps {p : World → Prop} (hneutral : ∀ w w', Neutral w w' → p w → p w')
    (hstep : ∀ w i sr, w.searches[i]? = some sr → sr.done = false → p w → p (w.searchStep i))
    {w : World} (hexpire : w.expireStuffTime ≤ w.now → ∀ w', Neutral w w' → w'.now = w.now →
      p w' → p w'.expire) (h : p w) : p w.doDue := by
  have hdue (w : World) (i : ℕ) (h : p w) : p (w.stepIfDue i) := by
    unfold stepIfDue
    cases hi : w.searches[i]? with
    | none => exact h
    | some sr =>
      rw [Option.any_some]
      split_ifs with hd
      · rw [Bool.and_eq_true] at hd
        exact hstep w i sr hi (Bool.not_eq_true' _ ▸ hd.1) h
      · exact h
  have hsteps (w : World) (h : p w) : p w.stepSearches := by
    have hfold : p ((List.range w.searches.length).foldl stepIfDue w) :=
      List.foldlRecOn _ _ h fun w h i _ => hdue w i h
    refine hneutral _ _ ?_ hfold
    have hn := (calm_nextSearchTime ((List.range w.searches.length).foldl stepIfDue w)).neutral
    exact ⟨hn.heads, hn.marks, hn.announcetable, hn.lookuptable⟩
  obtain ⟨hrot, hnow, hexp⟩ :
      Neutral w (if w.rotateSecretsTime ≤ w.now then w.rotateSecrets else w) ∧
      (if w.rotateSecretsTime ≤ w.now then w.rotateSecrets else w).now = w.now ∧
      (if w.rotateSecretsTime ≤ w.now then w.rotateSecrets else w).expireStuffTime =
        w.expireStuffTime := by
    split_ifs <;> exact ⟨⟨rfl, rfl, rfl, rfl⟩, rfl, rfl⟩
  unfold doDue
  dsimp only
  generalize (if w.rotateSecretsTime ≤ w.now then w.rotateSecrets else w) = w1 at hrot hnow hexp
  have h1 : p w1 := hneutral w w1 hrot h
  have h2 : p (if w1.expireStuffTime ≤ w1.now then w1.expire else w1) := by
    split_ifs with hle
    · exact hexpire (by rwa [hexp, hnow] at hle) w1 hrot hnow h1
    · exact h1
  generalize (if w1.expireStuffTime ≤ w1.now then w1.expire else w1) = w2 at h2
  have h3 : p (if 0 < w2.searchTime ∧ w2.searchTime ≤ w2.now then w2.stepSearches else w2) := by
    split_ifs
    · exact hsteps w2 h2
    · exact h2
  generalize (if 0 < w2.searchTime ∧ w2.searchTime ≤ w2.now then w2.stepSearches else w2) = w3 at h3
  split_ifs
  · exact hneutral _ _ (calm_confirmNodes w3).neutral h3
  · exact h3

end World

end DtnDht
