import DtnDht.DtnReply
import DtnDht.Lib.Ledger

/-!
# The records of a list of EIDs

`parse_dtn_eid_list` links a new record behind the one it is given before it knows whether another
EID follows, and takes it away again when the inner call has read nothing. What it leaves is the
list the parser on lists reads (`parseEidsAux_spec`), and so what `send_dtninfo` wrote comes back
with no empty record at its end (`parseEids_encode`).
-/

namespace DtnDht

open CString Ledger

/-- All the records `create_dtn_eid` has returned; one without an EID is empty. -/
abbrev EidHeap := Heap Bytes

/-- `parse_dtn_eid_list` with fuel on the records; `eids` is the record it fills in. -/
def parseEidsAux : ℕ → Bytes → ℕ → ℕ → EidHeap → Option ℕ × EidHeap
  | 0, _, _, _, h => (none, h)
  | fuel + 1, buf, buflen, eids, h =>
    if buf.head? = some 101 then (some 0, h.setNext eids none)
    else
      let (l, q) := strtol buf
      if q.head? = some 58 ∧ 0 < l then
        let length := buf.length - q.length + 1 + l.toNat
        if buflen < length then (none, h)
        else
          let (next, h) := h.create
          let h := (h.setNext eids (some next)).setContent eids (q.tail.take l.toNat)
          match parseEidsAux fuel (buf.drop length) (buflen - length) next h with
          | (some result, h) =>
            (some (result + length),
              if result = 0 then (h.freeList (h.next eids)).setNext eids none else h)
          | (none, h) => (none, (h.freeList (h.next eids)).setNext eids none)
      else (some 0, h)

/-- `parse_dtn_eid_list` on the records. -/
def parseEids (buf : Bytes) (buflen eids : ℕ) (h : EidHeap) : Option ℕ × EidHeap :=
  parseEidsAux (buflen + 1) buf buflen eids h

/-! ## What the parser does to the records -/

/-- The records hold what the parser on lists reads. -/
theorem parseEidsAux_spec (fuel : ℕ) : ∀ (buf : Bytes) (buflen : ℕ) {d n : ℕ} {h : EidHeap}
    {eids : List Bytes}, h.cells.length = d + 1 → h.next d = none →
    parseDtnEidListAux fuel buf buflen = some (n, eids) →
    ∃ h', parseEidsAux fuel buf buflen d h = (some n, h') ∧ Filled h h' d eids ∧
      (n = 0 ↔ eids = []) := by
  induction fuel with
  | zero =>
    intro buf buflen d n h eids hlen hnext hparse
    cases hparse
  | succ fuel ih =>
    intro buf buflen d n h eids hlen hnext hparse
    rw [parseDtnEidListAux] at hparse
    rw [parseEidsAux]
    by_cases hend : buf.head? = some 101
    · rw [if_pos hend, Option.some_inj, Prod.mk.injEq] at hparse
      obtain ⟨rfl, rfl⟩ := hparse
      rw [if_pos hend]
      exact ⟨_, rfl, Filled.nil_setNext hlen, iff_of_true rfl rfl⟩
    rw [if_neg hend] at hparse ⊢
    generalize strtol buf = out at hparse ⊢
    obtain ⟨l, q⟩ := out
    dsimp only at hparse ⊢
    by_cases hcolon : q.head? = some 58 ∧ 0 < l
    swap
    · rw [if_neg hcolon, Option.some_inj, Prod.mk.injEq] at hparse
      obtain ⟨rfl, rfl⟩ := hparse
      rw [if_neg hcolon]
      exact ⟨h, rfl, Filled.nil hlen hnext, iff_of_true rfl rfl⟩
    rw [if_pos hcolon] at hparse ⊢
    generalize hlength : buf.length - q.length + 1 + l.toNat = length at hparse ⊢
    by_cases hfits : buflen < length
    · rw [if_pos hfits] at hparse
      cases hparse
    rw [if_neg hfits] at hparse ⊢
    cases hlist : parseDtnEidListAux fuel (buf.drop length) (buflen - length) with
    | none =>
      rw [hlist] at hparse
      cases hparse
    | some out =>
      obtain ⟨result, rest⟩ := out
      rw [hlist, Option.some_inj, Prod.mk.injEq] at hparse
      obtain ⟨rfl, rfl⟩ := hparse
      obtain ⟨hlen', -, hnext', -⟩ := withNext_spec hlen (q.tail.take l.toNat)
      obtain ⟨h', hrec, hfilled, hzero⟩ := ih _ _ hlen' hnext' hlist
      rw [setContent_create hlen, Heap.create_fst, hlen, hrec]
      have hsum : result + length = 0 ↔ q.tail.take l.toNat :: rest = [] :=
        iff_of_false (by omega) (List.cons_ne_nil _ _)
      by_cases hres : result = 0
      · obtain rfl := hzero.mp hres
        exact ⟨_, by simp only [if_pos hres], hfilled.singleton hlen, hsum⟩
      · have hne := fun hnil => hres (hzero.mpr hnil)
        exact ⟨h', by simp only [if_neg hres], hfilled.cons hlen hne, hsum⟩

/-! ## The way back -/

/-- What the loop over the groups or the neighbours writes for an EID, if it fits. -/
theorem sendEid_eq_some {buf out eid : Bytes} (hne : eid ≠ []) (h : sendEid buf eid = some out) :
    out = buf ++ encodeString eid ∧ out.length ≤ 4096 := by
  have hpos := List.length_pos_iff.mpr hne
  unfold sendEid at h
  obtain ⟨front, hfront, hcopy⟩ := Option.bind_eq_some_iff.mp h
  unfold inc at hfront
  unfold copy at hcopy
  split_ifs at hfront hcopy with hroom hroom'
  obtain rfl := Option.some_inj.mp hfront
  obtain rfl := Option.some_inj.mp hcopy
  have hfull : (decimal eid.length ++ str ":").length < 4096 - buf.length := by
    -- a full buffer has no room for the EID
    refine lt_of_le_of_ne (by omega) fun heq => ?_
    rw [← heq, List.length_append, length_snprintf] at hroom'
    omega
  rw [snprintf, if_pos hfull] at hroom' ⊢
  rw [encodeString, List.append_assoc, List.append_assoc]
  refine ⟨rfl, ?_⟩
  rw [← List.append_assoc, ← List.append_assoc, List.length_append, List.append_assoc]
  omega

theorem foldlM_sendEid_eq_some {eids : List Bytes} (hne : ∀ e ∈ eids, e ≠ []) {start out : Bytes}
    (h : eids.foldlM sendEid start = some out) :
    out = start ++ eids.flatMap encodeString ∧ (eids ≠ [] → out.length ≤ 4096) := by
  induction eids generalizing start with
  | nil =>
    obtain rfl := Option.some_inj.mp h
    exact ⟨(List.append_nil start).symm, fun h => absurd rfl h⟩
  | cons e es ih =>
    rw [List.foldlM_cons] at h
    obtain ⟨mid, hmid, hrest⟩ := Option.bind_eq_some_iff.mp h
    obtain ⟨rfl, hle⟩ := sendEid_eq_some (hne e List.mem_cons_self) hmid
    obtain ⟨rfl, hle'⟩ := ih (fun x hx => hne x (List.mem_cons_of_mem e hx)) hrest
    refine ⟨by rw [List.flatMap_cons, List.append_assoc], fun _ => ?_⟩
    cases es with
    | nil =>
      rw [List.flatMap_nil, List.append_nil]
      exact hle
    | cons e' es => exact hle' (List.cons_ne_nil e' es)

/-- **EID lists come back as they were sent.** Run on what the loop of `send_dtninfo` wrote for a
list of EIDs, with an `e` and anything behind it, `parse_dtn_eid_list` fills the record it is given
and the ones it creates with exactly these EIDs, touches no other, and returns the number of bytes
written, behind which stands the `e`. -/
theorem parseEids_encode {eids : List Bytes} (hne : eids ≠ []) (hne' : ∀ e ∈ eids, e ≠ [])
    {start out : Bytes} (hsend : eids.foldlM sendEid start = some out) (rest : Bytes)
    (heap : EidHeap) :
    ∃ bytes h', out = start ++ bytes ∧
      parseEids (bytes ++ 101 :: rest ++ [0]) (bytes ++ 101 :: rest).length heap.create.1
        heap.create.2 = (some bytes.length, h') ∧
      h'.toList (some heap.create.1) = eids.map some ∧
      (∀ j < heap.create.1, h'.cells[j]? = heap.cells[j]?) ∧
      (bytes ++ 101 :: rest).drop bytes.length = 101 :: rest := by
  obtain ⟨rfl, hle⟩ := foldlM_sendEid_eq_some hne' hsend
  have hlong : ((eids.flatMap encodeString).length : ℤ) ≤ longMax := by
    have hsum := hle hne
    rw [List.length_append] at hsum
    unfold longMax
    omega
  have hparse := parseDtnEidList_encode hne' (r := rest ++ [0])
    (n := (eids.flatMap encodeString ++ 101 :: rest).length) (by simp) hlong
  obtain ⟨h', hrec, hfilled, -⟩ := parseEidsAux_spec _ _ _ (d := heap.create.1)
    (h := heap.create.2) (Heap.length_cells_create heap) Heap.next_create hparse
  refine ⟨_, h', rfl, ?_, hfilled.toList_eq hne, fun j hj => ?_, List.drop_left⟩
  · rw [List.append_assoc]
    exact hrec
  · rw [hfilled.frame j hj, Heap.getElem?_cells_create hj]

/-- Two EIDs, the second of which ends like the length of another. -/
theorem parseEids_encode_two : ∃ h',
    parseEids (str "5:dtn:a7:dtn:b1:e2:nbl" ++ [0]) 22 0 (Heap.create Heap.empty).2 =
      (some 16, h') ∧ h'.toList (some 0) = [some (str "dtn:a"), some (str "dtn:b1:")] := by
  have hsend : [str "dtn:a", str "dtn:b1:"].foldlM sendEid [] = some (str "5:dtn:a7:dtn:b1:") := by
    decide
  obtain ⟨bytes, h', hbytes, hparse, hlist, -⟩ :=
    parseEids_encode (List.cons_ne_nil _ _) (by decide) hsend (str "2:nbl") Heap.empty
  obtain rfl : str "5:dtn:a7:dtn:b1:" = bytes := hbytes
  exact ⟨h', hparse, hlist⟩

end DtnDht
