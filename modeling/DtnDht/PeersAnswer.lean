import DtnDht.Encoded
import Mathlib.Data.List.Rotate

/-!
# The peers in an answer

`send_nodes_peers` walks the stored peers in a circle from a random place, skips those of the other
family and stops at the place where it began or after 50. The loop serves the slice that the model
of the answer is given (`servePeers_eq`), each stored peer at most once and in the order of the
circle (`CircularSlice`), and the answer always fits into its 2048 bytes (`nodes_peers_answer`).
-/

namespace DtnDht

open CString

/-- The loop of `send_nodes_peers` over the peers, with as many turns as it is allowed. -/
def servePeers (len : ℕ) (peers : List Peer) (j0 : ℕ) : ℕ → ℕ → ℕ → Bytes → Option Bytes
  | 0, _, _, _ => none
  | turns + 1, j, k, buf => do
    let p ← peers[j]?
    let (buf, k) ← if p.ip.length = len then (sendPeer buf p).map fun buf => (buf, k + 1)
      else some (buf, k)
    let j := (j + 1) % peers.length
    if j ≠ j0 ∧ k < 50 then servePeers len peers j0 turns j k buf else some buf

/-- `send_nodes_peers` up to `dht_send`; none is the exit with `ENOSPC`, and `x` what `random`
returns. -/
def sendNodesPeersLoop (net : Net) (tid nodes nodes6 : Bytes) (af : ℕ) (st : Option Storage)
    (token : Bytes) (x : ℕ) : Option Bytes := do
  let buf ← inc 2048 (str "d1:rd2:id20:") []
  let buf ← copy 2048 net.myid.bytes buf
  let buf ← addNodes (str "5:nodes") nodes buf
  let buf ← addNodes (str "6:nodes6") nodes6 buf
  let buf ← addNodes (str "5:token") token buf
  let buf ←
    match st with
    | none => some buf
    | some st =>
      if st.peers = [] then some buf
      else do
        let len := if af = afInet then 4 else 16
        let j0 := x % st.peers.length
        let buf ← inc 2048 (str "6:valuesl") buf
        let buf ← servePeers len st.peers j0 st.peers.length j0 0 buf
        inc 2048 (str "e") buf
  let buf ← inc 2048 (str "e1:t" ++ decimal tid.length ++ str ":") buf
  let buf ← copy 2048 tid buf
  let buf ← addV 2048 net.myV buf
  inc 2048 (str "1:y1:re") buf

/-! ## The circle -/

section

variable {peers : List Peer} {j0 len : ℕ}

/-- The peer `d` places behind the start. -/
def isServed (len : ℕ) (peers : List Peer) (j0 d : ℕ) : Bool :=
  peers[(j0 + d) % peers.length]?.any fun p => p.ip.length = len

/-- The loop stops where it began after one round, and not before. -/
theorem next_eq_start_iff {d : ℕ} (hj : j0 < peers.length) (hd : d < peers.length) :
    ((j0 + d) % peers.length + 1) % peers.length = j0 ↔ d + 1 = peers.length := by
  rw [Nat.mod_add_mod, Nat.add_assoc]
  constructor
  · intro h
    by_contra hne
    rcases lt_or_ge (j0 + (d + 1)) peers.length with hlt | hge
    · rw [Nat.mod_eq_of_lt hlt] at h
      omega
    · rw [Nat.mod_eq_sub_mod hge, Nat.mod_eq_of_lt (by omega)] at h
      omega
  · intro h
    rw [h, Nat.add_mod_right, Nat.mod_eq_of_lt hj]

/-- From place `d` on the loop writes the peers of the family that are left in the round, up to
50. -/
theorem servePeers_from (len : ℕ) (hj : j0 < peers.length) : ∀ (turns d k : ℕ) (buf : Bytes),
    d + turns = peers.length → 0 < turns → k < 50 →
    servePeers len peers j0 turns ((j0 + d) % peers.length) k buf =
      ((((List.range' d turns).filter (isServed len peers j0)).take (50 - k)).filterMap fun d =>
        peers[(j0 + d) % peers.length]?).foldlM sendPeer buf := by
  intro turns
  induction turns with
  | zero => exact fun d k buf _ h0 => absurd h0 (lt_irrefl 0)
  | succ turns ih =>
    intro d k buf hsum _ hk
    have hlt : (j0 + d) % peers.length < peers.length := Nat.mod_lt _ (by omega)
    have hget := List.getElem?_eq_getElem hlt
    have hstart := next_eq_start_iff hj (show d < peers.length by omega)
    have hmod : ((j0 + d) % peers.length + 1) % peers.length = (j0 + (d + 1)) % peers.length := by
      rw [Nat.mod_add_mod, Nat.add_assoc]
    -- what the rest of the round writes
    have hrest : ∀ k buf, k ≤ 50 → (if ((j0 + d) % peers.length + 1) % peers.length ≠ j0 ∧ k < 50
        then servePeers len peers j0 turns (((j0 + d) % peers.length + 1) % peers.length) k buf
        else some buf) = ((((List.range' (d + 1) turns).filter (isServed len peers j0)).take
          (50 - k)).filterMap fun d => peers[(j0 + d) % peers.length]?).foldlM sendPeer buf := by
      intro k buf hk
      by_cases hmore : ((j0 + d) % peers.length + 1) % peers.length ≠ j0 ∧ k < 50
      · have hturns : 0 < turns := by
          rcases Nat.eq_zero_or_pos turns with h0 | hpos
          · exact absurd (hstart.mpr (by omega)) hmore.1
          · exact hpos
        rw [if_pos hmore, hmod, ih (d + 1) k buf (by omega) hturns hmore.2]
      · rw [if_neg hmore]
        rcases not_and_or.mp hmore with hround | hfifty
        · obtain rfl : turns = 0 := by
            have := hstart.mp (not_not.mp hround)
            omega
          simp
        · obtain rfl : k = 50 := by omega
          simp
    rw [servePeers, hget]
    simp only [Option.bind_eq_bind, Option.bind_some]
    rw [List.range'_succ]
    by_cases hlen : peers[(j0 + d) % peers.length].ip.length = len
    · have hserved : isServed len peers j0 d = true := by
        rw [isServed, hget]
        exact decide_eq_true hlen
      rw [if_pos hlen, List.filter_cons_of_pos hserved,
        show 50 - k = 50 - (k + 1) + 1 by omega, List.take_succ_cons,
        List.filterMap_cons_some (f := fun d => peers[(j0 + d) % peers.length]?) hget,
        List.foldlM_cons]
      cases sendPeer buf peers[(j0 + d) % peers.length] with
      | none => rfl
      | some buf' => exact hrest (k + 1) buf' hk
    · have hserved : ¬ isServed len peers j0 d = true := by
        rw [isServed, hget]
        simpa using hlen
      rw [if_neg hlen, List.filter_cons_of_neg hserved]
      exact hrest k buf hk.le

/-- Where the served peers stand, counted from the start. -/
def servedPlaces (len : ℕ) (peers : List Peer) (j0 : ℕ) : List ℕ :=
  ((List.range peers.length).filter (isServed len peers j0)).take 50

/-- The peers the loop writes. -/
def slicePeers (len : ℕ) (peers : List Peer) (j0 : ℕ) : List Peer :=
  (servedPlaces len peers j0).filterMap fun d => peers[(j0 + d) % peers.length]?

theorem servePeers_eq (hj : j0 < peers.length) (buf : Bytes) :
    servePeers len peers j0 peers.length j0 0 buf =
      (slicePeers len peers j0).foldlM sendPeer buf := by
  have h := servePeers_from len hj peers.length 0 0 buf (Nat.zero_add _) (by omega)
    (by decide)
  rw [Nat.add_zero, Nat.mod_eq_of_lt hj] at h
  rw [h, slicePeers, servedPlaces, List.range_eq_range']

end

/-- The peers `ps` are the first 50 of the family, or all of them, at different places of the
circle that begins at `j0`, in its order. -/
structure CircularSlice (af : ℕ) (peers : List Peer) (j0 : ℕ) (ps : List Peer) : Prop where
  count : ps.length =
    min 50 (peers.countP fun p => p.ip.length = if af = afInet then 4 else 16)
  places : ∃ ds : List ℕ, ds.Pairwise (· < ·) ∧ (∀ d ∈ ds, d < peers.length) ∧
    ps.map some = ds.map fun d => peers[(j0 + d) % peers.length]?
  family : ∀ p ∈ ps, p.ip.length = if af = afInet then 4 else 16
  distinct : (peers.map fun p => (p.ip, p.port)).Nodup → (ps.map fun p => (p.ip, p.port)).Nodup

section

variable {peers : List Peer} {j0 af : ℕ}

theorem rotate_eq_map (hj : j0 < peers.length) :
    (peers.rotate j0).map some =
      (List.range peers.length).map fun d => peers[(j0 + d) % peers.length]? := by
  refine List.ext_getElem (by simp) fun d hd _ => ?_
  rw [List.getElem_map, List.getElem_map, List.getElem_range, List.getElem_rotate,
    List.getElem?_eq_getElem (Nat.mod_lt _ (by omega))]
  simp only [Nat.add_comm]

theorem map_some_slicePeers (hj : j0 < peers.length) (len : ℕ) :
    (slicePeers len peers j0).map some =
      (servedPlaces len peers j0).map fun d => peers[(j0 + d) % peers.length]? := by
  unfold slicePeers
  induction servedPlaces len peers j0 with
  | nil => rfl
  | cons d ds ih =>
    have hget := List.getElem?_eq_getElem
      (show (j0 + d) % peers.length < peers.length from Nat.mod_lt _ (by omega))
    rw [List.filterMap_cons_some (f := fun d => peers[(j0 + d) % peers.length]?) hget,
      List.map_cons, List.map_cons, ih, hget]

/-- The slice is cut from the circle. -/
theorem slicePeers_eq (hj : j0 < peers.length) (len : ℕ) :
    slicePeers len peers j0 = ((peers.rotate j0).filter fun p => p.ip.length = len).take 50 := by
  refine List.map_injective_iff.mpr (Option.some_injective Peer) ?_
  calc (slicePeers len peers j0).map some
      = (servedPlaces len peers j0).map fun d => peers[(j0 + d) % peers.length]? :=
        map_some_slicePeers hj len
    _ = ((((List.range peers.length).map fun d => peers[(j0 + d) % peers.length]?).filter
          fun o => o.any fun p => p.ip.length = len).take 50) := by
        rw [List.filter_map, ← List.map_take]
        rfl
    _ = (((peers.rotate j0).filter fun p => p.ip.length = len).take 50).map some := by
        rw [← rotate_eq_map hj, List.filter_map, ← List.map_take]
        rfl

theorem circularSlice_slicePeers (hj : j0 < peers.length) (af : ℕ) :
    CircularSlice af peers j0 (slicePeers (if af = afInet then 4 else 16) peers j0) := by
  generalize hlen : (if af = afInet then 4 else 16) = len
  have hslice := slicePeers_eq hj len
  constructor
  · rw [hlen, hslice, List.length_take, ← List.countP_eq_length_filter,
      (List.rotate_perm peers j0).countP_eq]
  · refine ⟨servedPlaces len peers j0, ?_, fun d hd => ?_, map_some_slicePeers hj len⟩
    · exact (List.pairwise_lt_range.sublist List.filter_sublist).sublist (List.take_sublist _ _)
    · exact List.mem_range.mp (List.mem_of_mem_filter (List.mem_of_mem_take hd))
  · intro p hp
    rw [hslice] at hp
    rw [hlen]
    simpa using (List.mem_filter.mp (List.mem_of_mem_take hp)).2
  · intro hnodup
    have hsub : (slicePeers len peers j0).Sublist (peers.rotate j0) := by
      rw [hslice]
      exact (List.take_sublist _ _).trans List.filter_sublist
    have hrotate : ((peers.rotate j0).map fun p => (p.ip, p.port)).Nodup :=
      (((List.rotate_perm peers j0).map _).nodup_iff).mpr hnodup
    exact hrotate.sublist (hsub.map _)

/-- The model of the answer is given this slice. -/
theorem servedPeers_eq (hj : j0 < peers.length) :
    servedPeers af peers j0 = slicePeers (if af = afInet then 4 else 16) peers j0 := by
  rw [slicePeers_eq hj, List.rotate_eq_drop_append_take hj.le]
  rfl

end

/-! ## The answer -/

variable {net : Net} {tid nodes nodes6 token : Bytes}

/-- The loop writes the answer with the slice. -/
theorem sendNodesPeersLoop_eq (net : Net) (tid nodes nodes6 : Bytes) (af : ℕ) {st : Storage}
    (hpeers : st.peers ≠ []) (token : Bytes) (x : ℕ) :
    sendNodesPeersLoop net tid nodes nodes6 af (some st) token x =
      sendNodesPeers net tid nodes nodes6
        (some (servedPeers af st.peers (x % st.peers.length))) token := by
  have hj : x % st.peers.length < st.peers.length :=
    Nat.mod_lt _ (List.length_pos_iff.mpr hpeers)
  unfold sendNodesPeersLoop sendNodesPeers
  simp only [if_neg hpeers, servePeers_eq hj, servedPeers_eq hj]

/-- **An answer to `get_peers` serves a full slice of different peers and always fits.** For a
storage with peers, any start, lists of at most 8 nodes, a token of 8 bytes and a transaction id of
at most 16, `send_nodes_peers` does not take its exit with `ENOSPC`, and the values it writes are
those of the slice. -/
theorem nodes_peers_answer (hv : net.VersionFits) (htid : tid.length ≤ 16)
    (hnodes : nodes.length ≤ 8 * 26) (hnodes6 : nodes6.length ≤ 8 * 38) (htoken : token.length = 8)
    (af : ℕ) {st : Storage} (hpeers : st.peers ≠ []) (x : ℕ) :
    ∃ ps, sendNodesPeersLoop net tid nodes nodes6 af (some st) token x =
        some (nodesPeersText net tid nodes nodes6 (some ps) token) ∧
      CircularSlice af st.peers (x % st.peers.length) ps := by
  have hj : x % st.peers.length < st.peers.length :=
    Nat.mod_lt _ (List.length_pos_iff.mpr hpeers)
  have hslice := circularSlice_slicePeers hj af
  rw [← servedPeers_eq hj] at hslice
  have hfit : PeersFit (some (servedPeers af st.peers (x % st.peers.length))) := by
    intro ps hps
    obtain rfl := Option.some_inj.mp hps
    refine ⟨by rw [hslice.count]; omega, fun p hp => ?_⟩
    rw [hslice.family p hp]
    split_ifs <;> decide
  refine ⟨_, ?_, hslice⟩
  rw [sendNodesPeersLoop_eq net tid nodes nodes6 af hpeers token x]
  exact sendNodesPeers_eq hv htid (by omega) hnodes6 hfit (by omega)

/-- A storage with a peer of each family. -/
def twoPeers : Storage :=
  ⟨Id.zeroes, 2, [⟨0, [192, 0, 2, 1], 6881⟩, ⟨0, List.replicate 16 1, 6881⟩]⟩

theorem nodes_peers_answer_twoPeers : ∃ ps,
    sendNodesPeersLoop ⟨3, -1, Id.zeroes, none, fun _ _ => false⟩ (str "gp") [] [] afInet
      (some twoPeers) (List.replicate 8 7) 5 =
        some (nodesPeersText ⟨3, -1, Id.zeroes, none, fun _ _ => false⟩ (str "gp") [] [] (some ps)
          (List.replicate 8 7)) ∧ ps.length = 1 := by
  have hv : (Net.mk 3 (-1) Id.zeroes none fun _ _ => false).VersionFits := Nat.zero_le 9
  have htid : (str "gp").length ≤ 16 := by decide
  have htoken : (List.replicate 8 7 : Bytes).length = 8 := List.length_replicate
  have hpeers : twoPeers.peers ≠ [] := List.cons_ne_nil _ _
  have hnodes : ∀ n, ([] : Bytes).length ≤ 8 * n := fun n => Nat.zero_le (8 * n)
  obtain ⟨ps, hsend, hslice⟩ :=
    nodes_peers_answer hv htid (hnodes 26) (hnodes 38) htoken afInet hpeers 5
  exact ⟨ps, hsend, hslice.count.trans (by decide)⟩

end DtnDht
