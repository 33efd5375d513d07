import DtnDht.DtnMessage
import DtnDht.Lib.CheckedBuffer

/-!
# `parse_dtn_message` byte by byte

The parser of the DTN messages with its indices and lengths, each access checked. It meets no
fault, and its value is the one of the parser on lists.
-/

namespace DtnDht

namespace Bytewise

open CString CheckedBuffer

variable (buf : Bytes)

/-! ## The parsers -/

/-- `l = strtol(buf + i, &q, 10); if (q && *q == ':' && ok(l)) { CHECK(q + 1, l);
memcpy(dst, q + 1, l); }` where `CHECK` is about the whole buffer. -/
def readField (i : ℕ) (ok : ℤ → Bool) : Checked Field := do
  let (l, q) ← CheckedBuffer.strtol buf i
  let colon ← peek buf q
  if colon = 58 ∧ ok l then
    if (buf.length : ℤ) < q + 1 + l then return .overflow
    else
      let s ← copyOut buf (q + 1) l.toNat
      return .value s
  else return .malformed

/-- `parse_dtn_eid_list(buf + i, buflen, ...)`, with `turns` calls. -/
def parseDtnEidList : ℕ → ℕ → ℤ → Checked (Option (ℕ × List Bytes))
  | 0, _, _ => .error .endless
  | turns + 1, i, buflen => do
    let first ← peek buf i
    if first = 101 then return some (0, [])
    else
      let (l, q) ← CheckedBuffer.strtol buf i
      let colon ← peek buf q
      if colon = 58 ∧ 0 < l then
        if i + buflen < q + 1 + l then return none
        else
          let eid ← copyOut buf (q + 1) l.toNat
          let next := q + 1 + l.toNat
          let rest ← parseDtnEidList turns next (buflen - (next - i))
          match rest with
          | some (result, eids) => return some (result + (next - i), eid :: eids)
          | none => return none
      else return some (0, [])

/-- `while (buf[i + k] != c && k < len) k++`. -/
def scanTo (c : UInt8) (i : ℕ) (len : ℤ) : ℕ → ℕ → Checked ℕ
  | 0, _ => .error .endless
  | turns + 1, k => do
    let b ← peek buf (i + k)
    if b ≠ c ∧ k < len then scanTo c i len turns (k + 1) else return k

/-- `parse_dtn_convergence_layer_args(buf + i, buflen, ...)`, with `turns` calls. -/
def parseDtnConvergenceLayerArgs :
    ℕ → ℕ → ℤ → Checked (Option (ℕ × List ConvergenceLayerArg))
  | 0, _, _ => .error .endless
  | turns + 1, i, buflen => do
    let keylen ← scanTo buf 61 i buflen (buf.length + 1) 0
    let equals ← peek buf (i + keylen)
    if equals = 61 then
      let key ← copyOut buf i keylen
      let stop ← scanTo buf 59 i buflen (buf.length + 1) (keylen + 1)
      let semicolon ← peek buf (i + stop)
      if semicolon = 59 then
        let value ← copyOut buf (i + (keylen + 1)) (stop - (keylen + 1))
        let result := stop + 1
        if result < buflen then
          let rest ← parseDtnConvergenceLayerArgs turns (i + result) (buflen - result)
          match rest with
          | some (rc, args) =>
            return some (result + rc, if 0 < rc then ⟨key, value⟩ :: args else [⟨key, value⟩])
          | none => return none
        else return some (result, [⟨key, value⟩])
      else return none
    else return none

variable (inetNtop : ℕ → Bytes → Bytes) (frm : Sockaddr)

/-- The name of a layer, if the byte at `q[stop]` ends it. -/
def parseClname (q stop : ℕ) : Checked Bytes := do
  let semicolon ← peek buf (q + stop)
  if semicolon = 59 then copyOut buf (q + 6) (stop - 6) else return []

/-- The body of `parse_dtn_convergence_layer` for the text of `l` bytes after the colon `q` points
at, up to the recursive call. -/
def parseLayerText (q : ℕ) (l : ℤ) : Checked (Option ConvergenceLayer) := do
  let name ← memcmp buf (q + 1) (str "name=")
  if name then
    let stop ← scanTo buf 59 q l (buf.length + 1) 6
    let clname ← parseClname buf q stop
    let args ← parseDtnConvergenceLayerArgs buf (buf.length + 1) (q + stop + 1)
      (l - (stop - 6) - 6)
    match args with
    | none => return none
    | some (0, _) => return none
    | some (_ + 1, args) =>
      return some ⟨clname, if takesIp clname then ipArg inetNtop frm :: args else args⟩
  else return none

/-- `parse_dtn_convergence_layer(buf + i, buflen, ...)`, with `turns` calls. -/
def parseDtnConvergenceLayer : ℕ → ℕ → ℤ → Checked (Option (ℕ × List ConvergenceLayer))
  | 0, _, _ => .error .endless
  | turns + 1, i, buflen => do
    let first ← peek buf i
    if first = 101 then return some (0, [])
    else
      let (l, begin) ← CheckedBuffer.strtol buf i
      let colon ← peek buf begin
      if colon = 58 ∧ 5 < l then
        if i + buflen < begin + 1 + l then return none
        else
          let layer ← parseLayerText buf inetNtop frm begin l
          match layer with
          | none => return none
          | some layer =>
            let rest ← parseDtnConvergenceLayer turns (begin + l.toNat + 1)
              (buflen - (begin - i + l + 1))
            match rest with
            | some (pos, layers) => return some (l.toNat + pos, layer :: layers)
            | none => return none
      else return none

/-- `p = dht_memmem(buf + pos, buflen - pos, pat, strlen(pat))`: the index after `pat`. -/
def findFrom (pos : ℕ) (pat : Bytes) : Checked (Option ℕ) := do
  let p ← memmem buf pos (buf.length - pos) pat
  return p.map (· + pat.length)

variable (tid : CharArray 16) (tidLen : ℕ)

/-- What `parse_dtn_message` leaves behind. -/
structure DtnParse where
  message : Option MessageKind
  tid : CharArray 16
  tidLen : ℕ
  result : LookupResult

/-- The value is -1. -/
def failed (result : LookupResult) : DtnParse := ⟨none, tid, tidLen, result⟩

/-- `parse_dtn_message`, the query: `buf` starts with `d1:ad3:eid`. -/
def parseDtnQuery : Checked DtnParse := do
  let eid ← readField buf 10 (0 < ·)
  match eid with
  | .malformed | .overflow => return failed tid tidLen {}
  | .value eid =>
    let result : LookupResult := { eid := some eid }
    let p ← findFrom buf 0 (str "e1:q3:dtn1:t")
    match p with
    | none => return ⟨some .dtnQuery, tid, tidLen, result⟩
    | some p =>
      let t ← readField buf p (fun l => 0 < l && l < tidLen)
      match t with
      | .value t =>
        let tid ← store tid 0 t
        return ⟨some .dtnQuery, tid, t.length, result⟩
      | .malformed => return ⟨some .dtnQuery, tid, 0, result⟩
      | .overflow => return failed tid tidLen result

/-- `parse_dtn_message`, the transaction id of a reply. -/
def parseReplyTid (pos : ℕ) (result : LookupResult) : Checked DtnParse := do
  let p ← findFrom buf pos (str "e1:t")
  match p with
  | none => return failed tid tidLen result
  | some p =>
    let t ← readField buf p (fun l => 0 < l && l < tidLen)
    match t with
    | .value t =>
      let tid ← store tid 0 t
      return ⟨some .dtnReply, tid, t.length, result⟩
    | .malformed => return failed tid 0 result
    | .overflow => return failed tid tidLen result

/-- `parse_dtn_message`, the neighbours of a reply. -/
def parseReplyNeighbours (pos : ℕ) (result : LookupResult) : Checked DtnParse := do
  let p ← findFrom buf pos (str "e2:nbl")
  match p with
  | none => return failed tid tidLen result
  | some pos =>
    let eids ← parseDtnEidList buf (buf.length + 1) pos (buf.length - pos)
    match eids with
    | none => return failed tid tidLen result
    | some (n, neighbours) =>
      parseReplyTid buf tid tidLen (pos + n) { result with neighbours := neighbours }

/-- `parse_dtn_message`, the groups of a reply. -/
def parseReplyGroups (pos : ℕ) (result : LookupResult) : Checked DtnParse := do
  let p ← findFrom buf pos (str "2:grl")
  match p with
  | none => return failed tid tidLen result
  | some pos =>
    let eids ← parseDtnEidList buf (buf.length + 1) pos (buf.length - pos)
    match eids with
    | none => return failed tid tidLen result
    | some (n, groups) =>
      parseReplyNeighbours buf tid tidLen (pos + n) { result with groups := groups }

/-- `parse_dtn_message`, the EID of a reply. -/
def parseReplyEid (pos : ℕ) (result : LookupResult) : Checked DtnParse := do
  let p ← findFrom buf pos (str "e3:eid")
  match p with
  | none => return failed tid tidLen result
  | some pos =>
    let eid ← readField buf pos (5 < ·)
    match eid with
    | .malformed | .overflow => return failed tid tidLen result
    | .value eid =>
      parseReplyGroups buf tid tidLen (pos + eid.length) { result with eid := some eid }

/-- `parse_dtn_message`, the reply: `buf` starts with `d1:rd2:cll`. -/
def parseDtnReply : Checked DtnParse := do
  let layers ← parseDtnConvergenceLayer buf inetNtop frm (buf.length + 1) 10 (buf.length - 10)
  match layers with
  | none => return failed tid tidLen {}
  | some (0, _) => return failed tid tidLen {}
  | some (n + 1, layers) => parseReplyEid buf tid tidLen (10 + (n + 1)) { clayer := layers }

/-- `parse_dtn_message`. -/
def parseDtnMessage : Checked DtnParse := do
  let last ← peek buf buf.length
  if last ≠ 0 then return failed tid tidLen {}
  else
    let query ← memcmp buf 0 (str "d1:ad3:eid")
    if query then parseDtnQuery buf tid tidLen
    else
      let reply ← memcmp buf 0 (str "d1:rd2:cll")
      if reply then parseDtnReply buf inetNtop frm tid tidLen
      else return failed tid tidLen {}

/-! ## They meet no fault -/

variable {buf} {i : ℕ}

/-- What stands at the pointer of `strtol` is what the reader of the list sees. -/
theorem head_tail_drop (buf : Bytes) (q : ℕ) :
    ((buf.drop q).head? = some 58 ↔ buf.getD q 0 = 58) ∧ (buf.drop q).tail = buf.drop (q + 1) :=
  ⟨(getD_eq_iff (by decide)).symm, List.tail_drop⟩

theorem readField_eq {ok : ℤ → Bool} (hok : ∀ l, ok l = true → 0 ≤ l) (hi : i ≤ buf.length) :
    readField buf i ok = .ok (DtnDht.readField buf i ok) := by
  obtain ⟨l, q, -, hq, hstrtol, hlist⟩ := strtol_eq hi
  obtain ⟨hhead, htail⟩ := head_tail_drop buf q
  unfold readField DtnDht.readField
  rw [hstrtol, hlist, ok_bind]
  dsimp only
  rw [peek_eq hq, ok_bind]
  simp only [hhead, htail, List.length_drop]
  by_cases hcond : buf.getD q 0 = 58 ∧ ok l = true
  · have hlt := @lt_length_of_getD_ne buf q (by rw [hcond.1]; decide)
    have hl := hok l hcond.2
    rw [if_pos hcond, if_pos hcond]
    by_cases hover : (buf.length : ℤ) < q + 1 + l
    · rw [if_pos hover, if_pos (by omega)]
      rfl
    · rw [if_neg hover, if_neg (by omega), copyOut_eq (by omega)]
      rfl
  · rw [if_neg hcond, if_neg hcond]
    rfl

theorem parseDtnEidList_eq {turns : ℕ} {buflen : ℤ} (hi : i ≤ buf.length)
    (hlen : i + buflen = buf.length) (hturns : buf.length < turns + i) :
    parseDtnEidList buf turns i buflen =
      .ok (DtnDht.parseDtnEidList (buf.drop i) (buf.length - i)) := by
  induction turns generalizing i buflen with
  | zero => omega
  | succ turns ih =>
    obtain ⟨l, q, hiq, hq, hstrtol, hlist⟩ := strtol_eq hi
    obtain ⟨hhead, htail⟩ := head_tail_drop buf q
    unfold parseDtnEidList
    rw [DtnDht.parseDtnEidList_eq, peek_eq hi, ok_bind, hlist, hstrtol]
    simp only [← getD_eq_iff (show (101 : UInt8) ≠ 0 by decide)]
    by_cases hfirst : buf.getD i 0 = 101
    · rw [if_pos hfirst, if_pos hfirst]
      rfl
    · rw [if_neg hfirst, if_neg hfirst, ok_bind]
      dsimp only
      rw [peek_eq hq, ok_bind]
      simp only [hhead, htail, List.length_drop]
      by_cases hcond : buf.getD q 0 = 58 ∧ 0 < l
      · have hlt := @lt_length_of_getD_ne buf q (by rw [hcond.1]; decide)
        rw [if_pos hcond, if_pos hcond]
        by_cases hover : i + buflen < q + 1 + l
        · rw [if_pos hover, if_pos (by omega)]
          rfl
        · have hread : buf.length - i - (buf.length - q) + 1 + l.toNat = q + 1 + l.toNat - i := by
            omega
          have hnext : i + (q + 1 + l.toNat - i) = q + 1 + l.toNat := by omega
          have hrest : buf.length - i - (q + 1 + l.toNat - i) = buf.length - (q + 1 + l.toNat) := by
            omega
          rw [if_neg hover, if_neg (by omega), copyOut_eq (by omega), ok_bind,
            ih (by omega) (by omega) (by omega), ok_bind, List.drop_drop, hread, hnext, hrest]
          cases DtnDht.parseDtnEidList (buf.drop (q + 1 + l.toNat))
            (buf.length - (q + 1 + l.toNat)) with
          | none => rfl
          | some out => rfl
      · rw [if_neg hcond, if_neg hcond]
        rfl

theorem scanTo_eq {c : UInt8} {len : ℤ} {k turns : ℕ} (hk : i + k ≤ buf.length)
    (hlen : i + len ≤ buf.length) (hturns : buf.length < turns + (i + k)) :
    scanTo buf c i len turns k = .ok (k + scanUntil c (buf.drop (i + k)) (len - k).toNat) := by
  induction turns generalizing k with
  | zero => omega
  | succ turns ih =>
    unfold scanTo
    rw [peek_eq hk, ok_bind]
    by_cases hlt : k < len
    · obtain ⟨n, hn⟩ : ∃ n, (len - k).toNat = n + 1 := ⟨(len - k).toNat - 1, by omega⟩
      have hin : i + k < buf.length := by omega
      rw [hn, List.getD_eq_getElem _ _ hin, List.drop_eq_getElem_cons hin, scanUntil]
      by_cases hc : buf[i + k] = c
      · rw [if_neg (by simp [hc]), if_pos hc]
        rfl
      · have hn' : (len - ((k + 1 : ℕ) : ℤ)).toNat = n := by omega
        rw [if_pos ⟨hc, hlt⟩, if_neg hc, ih (by omega) (by omega), hn', Nat.add_assoc i k 1]
        congr 1
        omega
    · have hzero : (len - k).toNat = 0 := by omega
      rw [if_neg (fun h => hlt h.2), hzero, scanUntil]
      rfl

theorem scanUntil_le (c : UInt8) (s : Bytes) (n : ℕ) : scanUntil c s n ≤ n := by
  fun_induction scanUntil c s n with
  | case1 => exact le_rfl
  | case2 => exact le_rfl
  | case3 => exact Nat.zero_le _
  | case4 _ _ _ _ ih => exact Nat.succ_le_succ ih

theorem parseDtnConvergenceLayerArgs_eq {turns : ℕ} {buflen : ℤ} (h0 : 0 ≤ buflen)
    (hlen : i + buflen ≤ buf.length) (hturns : buf.length < turns + i) :
    parseDtnConvergenceLayerArgs buf turns i buflen =
      .ok (DtnDht.parseDtnConvergenceLayerArgs (buf.drop i) buflen.toNat) := by
  induction turns generalizing i buflen with
  | zero => omega
  | succ turns ih =>
    have hbyte (k : ℕ) {c : UInt8} (hc : c ≠ 0) :
        (buf.drop i)[k]? = some c ↔ buf.getD (i + k) 0 = c := by
      rw [getD_eq_iff hc, List.getElem?_drop, List.head?_drop]
    have hkey := scanUntil_le 61 (buf.drop i) buflen.toNat
    unfold parseDtnConvergenceLayerArgs
    rw [DtnDht.parseDtnConvergenceLayerArgs_eq, scanTo_eq (by omega) hlen (by omega)]
    simp only [ok_bind, Nat.zero_add, Nat.add_zero, Nat.cast_zero, sub_zero]
    generalize scanUntil 61 (buf.drop i) buflen.toNat = keylen at hkey
    rw [peek_eq (by omega), ok_bind]
    simp only [hbyte keylen (show (61 : UInt8) ≠ 0 by decide)]
    by_cases hequals : buf.getD (i + keylen) 0 = 61
    · have hlt := @lt_length_of_getD_ne buf (i + keylen) (by rw [hequals]; decide)
      have hvalue := scanUntil_le 59 (buf.drop (i + (keylen + 1))) (buflen.toNat - (keylen + 1))
      have htoNat : (buflen - ((keylen + 1 : ℕ) : ℤ)).toNat = buflen.toNat - (keylen + 1) := by
        omega
      rw [if_pos hequals, if_pos hequals, copyOut_eq (by omega), ok_bind,
        scanTo_eq (by omega) hlen (by omega), ok_bind, htoNat, List.drop_drop]
      generalize scanUntil 59 (buf.drop (i + (keylen + 1))) (buflen.toNat - (keylen + 1)) =
        valuelen at hvalue
      rw [peek_eq (by omega), ok_bind]
      simp only [hbyte (keylen + 1 + valuelen) (show (59 : UInt8) ≠ 0 by decide)]
      by_cases hsemicolon : buf.getD (i + (keylen + 1 + valuelen)) 0 = 59
      · have hresult : keylen + valuelen + 2 = keylen + 1 + valuelen + 1 := by omega
        rw [if_pos hsemicolon, if_pos hsemicolon, Nat.add_sub_cancel_left, copyOut_eq (by omega),
          ok_bind, hresult]
        generalize hpos : keylen + 1 + valuelen + 1 = result
        by_cases hmore : result < buflen
        · have hrest : (buflen - result).toNat = buflen.toNat - result := by omega
          rw [if_pos hmore, if_pos (by omega), ih (by omega) (by omega) (by omega), ok_bind, hrest,
            List.drop_drop]
          cases DtnDht.parseDtnConvergenceLayerArgs (buf.drop (i + result))
            (buflen.toNat - result) with
          | none => rfl
          | some out => rfl
        · rw [if_neg hmore, if_neg (by omega)]
          rfl
      · rw [if_neg hsemicolon, if_neg hsemicolon]
        rfl
    · rw [if_neg hequals, if_neg hequals]
      rfl

variable {inetNtop : ℕ → Bytes → Bytes} {frm : Sockaddr}

theorem parseClname_eq {q namelen : ℕ} (hq : q + 6 + namelen ≤ buf.length) :
    parseClname buf q (6 + namelen) =
      .ok (if (buf.drop q)[6 + namelen]? = some 59 then ((buf.drop q).drop 6).take namelen
        else []) := by
  have hsemicolon : (buf.drop q)[6 + namelen]? = some 59 ↔ buf.getD (q + (6 + namelen)) 0 = 59 := by
    rw [getD_eq_iff (by decide), List.getElem?_drop, List.head?_drop]
  unfold parseClname
  rw [peek_eq (by omega), ok_bind, Nat.add_sub_cancel_left, copyOut_eq (by omega), List.drop_drop]
  simp only [hsemicolon]
  split_ifs <;> rfl

theorem parseLayerText_eq {q : ℕ} {l : ℤ} (hl : 5 < l) (hq : q + 1 + l ≤ buf.length) :
    parseLayerText buf inetNtop frm q l =
      .ok (DtnDht.parseLayerText inetNtop frm (buf.drop q) l.toNat) := by
  have htoNat : (l - ((6 : ℕ) : ℤ)).toNat = l.toNat - 6 := by omega
  have hname := scanUntil_le 59 ((buf.drop q).drop 6) (l.toNat - 6)
  unfold parseLayerText DtnDht.parseLayerText
  rw [memcmp_eq (by decide) (by omega), ok_bind, List.tail_drop]
  by_cases h : (str "name=").isPrefixOf (buf.drop (q + 1)) = true
  · rw [if_pos h, if_pos h, scanTo_eq (by omega) (by omega) (by omega), ok_bind, htoNat,
      ← List.drop_drop]
    dsimp only
    generalize scanUntil 59 ((buf.drop q).drop 6) (l.toNat - 6) = namelen at hname
    have hlen : (l - ((6 + namelen : ℕ) - 6) - 6).toNat = l.toNat - namelen - 6 := by omega
    rw [parseClname_eq (by omega), ok_bind,
      parseDtnConvergenceLayerArgs_eq (by omega) (by omega) (by omega), ok_bind, hlen,
      List.drop_drop, List.drop_drop, Nat.add_assoc q (6 + namelen) 1]
    cases DtnDht.parseDtnConvergenceLayerArgs (buf.drop (q + (6 + namelen + 1)))
      (l.toNat - namelen - 6) with
    | none => rfl
    | some out =>
      obtain ⟨n, args⟩ := out
      cases n <;> rfl
  · rw [if_neg h, if_neg h]
    rfl

theorem parseDtnConvergenceLayer_eq {turns : ℕ} {buflen : ℤ} (hi : i ≤ buf.length)
    (hlen : i + buflen = buf.length) (hturns : buf.length < turns + i) :
    parseDtnConvergenceLayer buf inetNtop frm turns i buflen =
      .ok (DtnDht.parseDtnConvergenceLayer inetNtop frm (buf.drop i) (buf.length - i)) := by
  induction turns generalizing i buflen with
  | zero => omega
  | succ turns ih =>
    obtain ⟨l, q, hiq, hq, hstrtol, hlist⟩ := strtol_eq hi
    obtain ⟨hhead, -⟩ := head_tail_drop buf q
    unfold parseDtnConvergenceLayer
    rw [DtnDht.parseDtnConvergenceLayer_eq, peek_eq hi, ok_bind, hlist, hstrtol]
    simp only [← getD_eq_iff (show (101 : UInt8) ≠ 0 by decide)]
    by_cases hfirst : buf.getD i 0 = 101
    · rw [if_pos hfirst, if_pos hfirst]
      rfl
    · rw [if_neg hfirst, if_neg hfirst, ok_bind]
      dsimp only
      rw [peek_eq hq, ok_bind]
      simp only [hhead, List.length_drop]
      by_cases hcond : buf.getD q 0 = 58 ∧ 5 < l
      · have hlt := @lt_length_of_getD_ne buf q (by rw [hcond.1]; decide)
        have hl := hcond.2
        rw [if_pos hcond, if_pos hcond]
        by_cases hover : i + buflen < q + 1 + l
        · rw [if_pos hover, if_pos (by omega)]
          rfl
        · have hread : buf.length - i - (buf.length - q) + l.toNat + 1 = q + l.toNat + 1 - i := by
            omega
          have hnext : i + (q + l.toNat + 1 - i) = q + l.toNat + 1 := by omega
          have hrest : buf.length - i - (q + l.toNat + 1 - i) = buf.length - (q + l.toNat + 1) := by
            omega
          rw [if_neg hover, if_neg (by omega), parseLayerText_eq hl (by omega), ok_bind]
          cases DtnDht.parseLayerText inetNtop frm (buf.drop q) l.toNat with
          | none => rfl
          | some layer =>
            dsimp only
            rw [ih (by omega) (by omega) (by omega), ok_bind, List.drop_drop, hread, hnext, hrest]
            cases DtnDht.parseDtnConvergenceLayer inetNtop frm (buf.drop (q + l.toNat + 1))
              (buf.length - (q + l.toNat + 1)) with
            | none => rfl
            | some out => rfl
      · rw [if_neg hcond, if_neg hcond]
        rfl

/-! ## What they read -/

theorem readField_length_le {ok : ℤ → Bool} (hok : ∀ l, ok l = true → 0 ≤ l) {s : Bytes}
    (hi : i ≤ buf.length) (h : DtnDht.readField buf i ok = .value s) :
    ok s.length = true ∧ i + s.length ≤ buf.length := by
  obtain ⟨hs, r, hlist', hpre⟩ := (readField_eq_value_iff hok).mp h
  obtain ⟨l, q, hiq, hq, -, hlist⟩ := strtol_eq hi
  have hdrop : buf.drop q = 58 :: r := (Prod.ext_iff.mp (hlist.symm.trans hlist')).2
  have hlen := congrArg List.length hdrop
  have hle := hpre.length_le
  rw [List.length_drop, List.length_cons] at hlen
  exact ⟨hs, by omega⟩

theorem parseDtnEidList_le {s : Bytes} {n k : ℕ} {eids : List Bytes}
    (h : DtnDht.parseDtnEidList s n = some (k, eids)) : k ≤ n := by
  induction n using Nat.strong_induction_on generalizing s k eids with
  | _ n ih =>
    rw [DtnDht.parseDtnEidList_eq] at h
    split_ifs at h with hfirst
    · simp only [Option.some.injEq, Prod.mk.injEq] at h
      omega
    · dsimp only at h
      split_ifs at h with hcond hover
      · split at h
        · rename_i result eids' hrest
          have hle := ih _ (by omega) hrest
          simp only [Option.some.injEq, Prod.mk.injEq] at h
          omega
        · exact absurd h (by simp)
      · simp only [Option.some.injEq, Prod.mk.injEq] at h
        omega

theorem parseDtnConvergenceLayer_le {s : Bytes} {n k : ℕ} {layers : List ConvergenceLayer}
    (h : DtnDht.parseDtnConvergenceLayer inetNtop frm s n = some (k, layers)) : k ≤ n := by
  induction n using Nat.strong_induction_on generalizing s k layers with
  | _ n ih =>
    rw [DtnDht.parseDtnConvergenceLayer_eq] at h
    split_ifs at h with hfirst
    · simp only [Option.some.injEq, Prod.mk.injEq] at h
      omega
    · dsimp only at h
      split_ifs at h with hcond hover
      split at h
      · exact absurd h (by simp)
      · split at h
        · rename_i pos layers' hrest
          have hle := ih _ (by omega) hrest
          simp only [Option.some.injEq, Prod.mk.injEq] at h
          omega
        · exact absurd h (by simp)

theorem findFrom_le {pos p : ℕ} {pat : Bytes} (h : DtnDht.findFrom buf pos pat = some p)
    (hpos : pos ≤ buf.length) : p ≤ buf.length := by
  obtain ⟨k, hk, rfl⟩ := Option.map_eq_some_iff.mp h
  obtain ⟨hle, hpre, -⟩ := Occurrence.findInfix_eq_some_iff.mp hk
  have hlen := hpre.length_le
  rw [List.length_drop, List.length_drop] at hlen
  rw [List.length_drop] at hle
  omega

theorem findFrom_eq {pos : ℕ} {pat : Bytes} (hpat : 0 ∉ pat) (hpos : pos ≤ buf.length) :
    findFrom buf pos pat = .ok (DtnDht.findFrom buf pos pat) := by
  unfold findFrom DtnDht.findFrom
  rw [memmem_eq hpat hpos (by omega), ok_bind, Option.map_map]
  rfl

/-- A search from the start. -/
theorem findFrom_zero {pat : Bytes} (hpat : 0 ∉ pat) :
    findFrom buf 0 pat = .ok ((Occurrence.findInfix pat buf).map (· + pat.length)) := by
  rw [findFrom_eq hpat (Nat.zero_le _), DtnDht.findFrom, List.drop_zero]
  simp only [Nat.zero_add]

theorem findInfix_add_length_le {pat : Bytes} {p : ℕ}
    (h : Occurrence.findInfix pat buf = some p) : p + pat.length ≤ buf.length := by
  obtain ⟨hle, hpre, -⟩ := Occurrence.findInfix_eq_some_iff.mp h
  have hlen := hpre.length_le
  rw [List.length_drop] at hlen
  omega

/-! ## The whole message -/

/-- The arrays forgotten. -/
def DtnParse.view (r : DtnParse) : DtnDht.DtnParse := ⟨r.message, r.tid.1, r.tidLen, r.result⟩

/-- A computation meets no fault and has the value of the parser on lists. -/
def Computes (c : Checked DtnParse) (p : DtnDht.DtnParse) : Prop := ∃ r, c = .ok r ∧ r.view = p

theorem computes_ok (r : DtnParse) : Computes (.ok r) r.view := ⟨r, rfl, rfl⟩

variable {tid : CharArray 16} {tidLen pos : ℕ} {result : LookupResult}

/-- The transaction id fits into its array. -/
theorem computes_store {t : Bytes} (ht : t.length ≤ 16) {kind : MessageKind} :
    Computes (do
      let tid ← store tid 0 t
      return ⟨some kind, tid, t.length, result⟩)
      ⟨some kind, memcpy tid.1 t t.length, t.length, result⟩ := by
  obtain ⟨tid', hstore, htid'⟩ := store_eq tid (k := 0) (s := t) (by omega)
  refine ⟨⟨some kind, tid', t.length, result⟩, by rw [hstore]; rfl, ?_⟩
  unfold DtnParse.view
  rw [htid']
  simp [memcpy]

theorem tidOk_nonneg (tidLen : ℕ) (l : ℤ) (h : (decide (0 < l) && decide (l < tidLen)) = true) :
    0 ≤ l := by
  rw [Bool.and_eq_true, decide_eq_true_eq] at h
  omega

theorem parseReplyTid_computes (htid : tidLen ≤ 16) (hpos : pos ≤ buf.length) :
    Computes (parseReplyTid buf tid tidLen pos result)
      (DtnDht.parseReplyTid buf pos tid.1 tidLen result) := by
  unfold parseReplyTid DtnDht.parseReplyTid
  rw [findFrom_eq (by decide) hpos, ok_bind]
  cases hp : DtnDht.findFrom buf pos (str "e1:t") with
  | none => exact computes_ok _
  | some p =>
    have hle := findFrom_le hp hpos
    dsimp only
    rw [readField_eq (tidOk_nonneg tidLen) hle, ok_bind]
    cases ht : DtnDht.readField buf p fun l => decide (0 < l) && decide (l < tidLen) with
    | malformed => exact computes_ok _
    | overflow => exact computes_ok _
    | value t =>
      have hlen := (readField_length_le (tidOk_nonneg tidLen) hle ht).1
      rw [Bool.and_eq_true, decide_eq_true_eq, decide_eq_true_eq] at hlen
      exact computes_store (by omega)

theorem parseReplyNeighbours_computes (htid : tidLen ≤ 16) (hpos : pos ≤ buf.length) :
    Computes (parseReplyNeighbours buf tid tidLen pos result)
      (DtnDht.parseReplyNeighbours buf pos tid.1 tidLen result) := by
  unfold parseReplyNeighbours DtnDht.parseReplyNeighbours
  rw [findFrom_eq (by decide) hpos, ok_bind]
  cases hp : DtnDht.findFrom buf pos (str "e2:nbl") with
  | none => exact computes_ok _
  | some p =>
    have hle := findFrom_le hp hpos
    dsimp only
    rw [parseDtnEidList_eq hle (by omega) (by omega), ok_bind]
    cases hn : DtnDht.parseDtnEidList (buf.drop p) (buf.length - p) with
    | none => exact computes_ok _
    | some out =>
      obtain ⟨n, neighbours⟩ := out
      have hn' := parseDtnEidList_le hn
      exact parseReplyTid_computes htid (by omega)

theorem parseReplyGroups_computes (htid : tidLen ≤ 16) (hpos : pos ≤ buf.length) :
    Computes (parseReplyGroups buf tid tidLen pos result)
      (DtnDht.parseReplyGroups buf pos tid.1 tidLen result) := by
  unfold parseReplyGroups DtnDht.parseReplyGroups
  rw [findFrom_eq (by decide) hpos, ok_bind]
  cases hp : DtnDht.findFrom buf pos (str "2:grl") with
  | none => exact computes_ok _
  | some p =>
    have hle := findFrom_le hp hpos
    dsimp only
    rw [parseDtnEidList_eq hle (by omega) (by omega), ok_bind]
    cases hn : DtnDht.parseDtnEidList (buf.drop p) (buf.length - p) with
    | none => exact computes_ok _
    | some out =>
      obtain ⟨n, groups⟩ := out
      have hn' := parseDtnEidList_le hn
      exact parseReplyNeighbours_computes htid (by omega)

theorem parseReplyEid_computes (htid : tidLen ≤ 16) (hpos : pos ≤ buf.length) :
    Computes (parseReplyEid buf tid tidLen pos result)
      (DtnDht.parseReplyEid buf pos tid.1 tidLen result) := by
  have hok (l : ℤ) (h : decide (5 < l) = true) : 0 ≤ l := by
    rw [decide_eq_true_eq] at h
    omega
  unfold parseReplyEid DtnDht.parseReplyEid
  rw [findFrom_eq (by decide) hpos, ok_bind]
  cases hp : DtnDht.findFrom buf pos (str "e3:eid") with
  | none => exact computes_ok _
  | some p =>
    have hle := findFrom_le hp hpos
    dsimp only
    rw [readField_eq hok hle, ok_bind]
    cases heid : DtnDht.readField buf p fun l => decide (5 < l) with
    | malformed => exact computes_ok _
    | overflow => exact computes_ok _
    | value eid =>
      exact parseReplyGroups_computes htid (readField_length_le hok hle heid).2

theorem parseDtnReply_computes (htid : tidLen ≤ 16) (hlen : 10 ≤ buf.length) :
    Computes (parseDtnReply buf inetNtop frm tid tidLen)
      (DtnDht.parseDtnReply inetNtop frm buf tid.1 tidLen) := by
  unfold parseDtnReply DtnDht.parseDtnReply
  rw [parseDtnConvergenceLayer_eq hlen (by omega) (by omega), ok_bind]
  cases hn : DtnDht.parseDtnConvergenceLayer inetNtop frm (buf.drop 10) (buf.length - 10) with
  | none => exact computes_ok _
  | some out =>
    obtain ⟨n, layers⟩ := out
    have hn' := parseDtnConvergenceLayer_le hn
    cases n with
    | zero => exact computes_ok _
    | succ n => exact parseReplyEid_computes htid (by omega)

theorem parseDtnQuery_computes (htid : tidLen ≤ 16) (hlen : 10 ≤ buf.length) :
    Computes (parseDtnQuery buf tid tidLen) (DtnDht.parseDtnQuery buf tid.1 tidLen) := by
  have hok (l : ℤ) (h : decide (0 < l) = true) : 0 ≤ l := by
    rw [decide_eq_true_eq] at h
    omega
  unfold parseDtnQuery DtnDht.parseDtnQuery
  rw [readField_eq hok hlen, ok_bind]
  cases DtnDht.readField buf 10 fun l => decide (0 < l) with
  | malformed => exact computes_ok _
  | overflow => exact computes_ok _
  | value eid =>
    dsimp only
    rw [findFrom_zero (by decide), ok_bind]
    cases hp : Occurrence.findInfix (str "e1:q3:dtn1:t") buf with
    | none => exact computes_ok _
    | some p =>
      have hle : p + 12 ≤ buf.length := findInfix_add_length_le hp
      rw [Option.map_some, show (str "e1:q3:dtn1:t").length = 12 from rfl]
      dsimp only
      rw [readField_eq (tidOk_nonneg tidLen) hle, ok_bind]
      cases ht : DtnDht.readField buf (p + 12) fun l => decide (0 < l) && decide (l < tidLen) with
      | malformed => exact computes_ok _
      | overflow => exact computes_ok _
      | value t =>
        have hlen := (readField_length_le (tidOk_nonneg tidLen) hle ht).1
        rw [Bool.and_eq_true, decide_eq_true_eq, decide_eq_true_eq] at hlen
        exact computes_store (by omega)

theorem parseDtnMessage_computes (inetNtop : ℕ → Bytes → Bytes) (frm : Sockaddr) (buf : Bytes)
    (tid : CharArray 16) (htid : tidLen ≤ 16) :
    Computes (parseDtnMessage buf inetNtop frm tid tidLen)
      (DtnDht.parseDtnMessage inetNtop frm buf tid.1 tidLen) := by
  have hlen {s : Bytes} (h : s.isPrefixOf buf = true) : s.length ≤ buf.length :=
    (List.isPrefixOf_iff_prefix.mp h).length_le
  unfold parseDtnMessage DtnDht.parseDtnMessage
  rw [peek_eq le_rfl, ok_bind, List.getD_eq_default _ _ le_rfl, if_neg (by simp),
    memcmp_eq (by decide) (Nat.zero_le _), ok_bind, List.drop_zero]
  by_cases hquery : (str "d1:ad3:eid").isPrefixOf buf = true
  · rw [if_pos hquery, if_pos hquery]
    exact parseDtnQuery_computes htid (hlen hquery)
  · rw [if_neg hquery, if_neg hquery, memcmp_eq (by decide) (Nat.zero_le _), ok_bind,
      List.drop_zero]
    by_cases hreply : (str "d1:rd2:cll").isPrefixOf buf = true
    · rw [if_pos hreply, if_pos hreply]
      exact parseDtnReply_computes htid (hlen hreply)
    · rw [if_neg hreply, if_neg hreply]
      exact computes_ok _

end Bytewise

open CString

/-! ## The transaction id -/

/-- The array of the transaction id after some bytes are written to it, or none. -/
def setTid (tid : Bytes) (written : Option Bytes) : Bytes :=
  written.elim tid fun t => memcpy tid t t.length

/-- The length of the transaction id then. -/
def setTidLen (tidLen : ℕ) (written : Option Bytes) : ℕ := written.elim tidLen List.length

/-- What is written are bytes of the buffer that leave room in the array, and the buffer holds the
marker of a transaction id. -/
def FromBuffer (buf : Bytes) (tidLen : ℕ) (written : Option Bytes) : Prop :=
  ∀ t ∈ written, t <:+: buf ∧ t.length ≤ tidLen - 1 ∧ str "1:t" <:+: buf

/-- A parser that may write a transaction id from the buffer, and does not read the array. -/
def WritesTid (buf : Bytes) (tidLen : ℕ) (f : Bytes → DtnParse) : Prop :=
  ∃ message result written, FromBuffer buf tidLen written ∧
    ∀ tid, f tid = ⟨message, setTid tid written, setTidLen tidLen written, result⟩

variable {buf : Bytes} {tidLen pos : ℕ} {result : LookupResult}

theorem fromBuffer_none : FromBuffer buf tidLen none := fun t ht => absurd ht (by simp)

theorem fromBuffer_some {t : Bytes} (ht : t <:+: buf) (hlen : t.length ≤ tidLen - 1)
    (hmarker : str "1:t" <:+: buf) : FromBuffer buf tidLen (some t) :=
  fun _ heq => (Option.some.inj heq) ▸ ⟨ht, hlen, hmarker⟩

/-- The parser stops. -/
theorem writesTid_stop (message : Option MessageKind) (result : LookupResult) :
    WritesTid buf tidLen fun tid => ⟨message, tid, tidLen, result⟩ :=
  ⟨message, result, none, fromBuffer_none, fun _ => rfl⟩

theorem isInfix_of_readField {ok : ℤ → Bool} (hok : ∀ l, ok l = true → 0 ≤ l) {s : Bytes}
    (h : readField buf pos ok = .value s) : s <:+: buf := by
  obtain ⟨-, r, hlist', hpre⟩ := (readField_eq_value_iff hok).mp h
  obtain ⟨l, q, -, -, -, hlist⟩ := @CheckedBuffer.strtol_eq (buf.drop pos) 0 (Nat.zero_le _)
  rw [List.drop_zero, List.drop_drop] at hlist
  have hdrop : buf.drop (pos + q) = 58 :: r := (Prod.ext_iff.mp (hlist.symm.trans hlist')).2
  have hsuffix : r <:+ buf := (List.suffix_cons 58 r).trans (hdrop ▸ List.drop_suffix _ _)
  exact hpre.isInfix.trans hsuffix.isInfix

/-- What is read as a transaction id. -/
theorem fromBuffer_value {t : Bytes} (hmarker : str "1:t" <:+: buf)
    (h : readField buf pos (fun l => decide (0 < l) && decide (l < tidLen)) = .value t) :
    FromBuffer buf tidLen (some t) := by
  have hlen := ((readField_eq_value_iff (Bytewise.tidOk_nonneg tidLen)).mp h).1
  rw [Bool.and_eq_true, decide_eq_true_eq, decide_eq_true_eq] at hlen
  exact fromBuffer_some (isInfix_of_readField (Bytewise.tidOk_nonneg tidLen) h) (by omega) hmarker

theorem fromBuffer_nil (hmarker : str "1:t" <:+: buf) : FromBuffer buf tidLen (some []) :=
  fromBuffer_some List.nil_infix (Nat.zero_le _) hmarker

/-- A marker that was found holds the one of a transaction id. -/
theorem isInfix_marker {key : Bytes} {p n : ℕ} (hkey : str "1:t" <:+: key)
    (h : Occurrence.findInfix key (buf.drop n) = some p) : str "1:t" <:+: buf := by
  obtain ⟨-, hpre, -⟩ := Occurrence.findInfix_eq_some_iff.mp h
  rw [List.drop_drop] at hpre
  exact hkey.trans (Occurrence.infix_of_prefix_drop hpre)

theorem writesTid_parseReplyTid : WritesTid buf tidLen fun tid =>
    parseReplyTid buf pos tid tidLen result := by
  unfold parseReplyTid
  cases hp : findFrom buf pos (str "e1:t") with
  | none => exact writesTid_stop _ _
  | some p =>
    obtain ⟨k, hk, -⟩ := Option.map_eq_some_iff.mp hp
    have hmarker : str "1:t" <:+: buf := isInfix_marker ⟨[101], [], rfl⟩ hk
    dsimp only
    cases ht : readField buf p fun l => decide (0 < l) && decide (l < tidLen) with
    | malformed => exact ⟨_, _, some [], fromBuffer_nil hmarker, fun _ => rfl⟩
    | overflow => exact writesTid_stop _ _
    | value t => exact ⟨_, _, some t, fromBuffer_value hmarker ht, fun _ => rfl⟩

theorem writesTid_parseReplyNeighbours : WritesTid buf tidLen fun tid =>
    parseReplyNeighbours buf pos tid tidLen result := by
  unfold parseReplyNeighbours
  split
  · exact writesTid_stop _ _
  · split
    · exact writesTid_stop _ _
    · exact writesTid_parseReplyTid

theorem writesTid_parseReplyGroups : WritesTid buf tidLen fun tid =>
    parseReplyGroups buf pos tid tidLen result := by
  unfold parseReplyGroups
  split
  · exact writesTid_stop _ _
  · split
    · exact writesTid_stop _ _
    · exact writesTid_parseReplyNeighbours

theorem writesTid_parseReplyEid : WritesTid buf tidLen fun tid =>
    parseReplyEid buf pos tid tidLen result := by
  unfold parseReplyEid
  split
  · exact writesTid_stop _ _
  · split
    · exact writesTid_stop _ _
    · exact writesTid_stop _ _
    · exact writesTid_parseReplyGroups

theorem writesTid_parseDtnReply {inetNtop : ℕ → Bytes → Bytes} {frm : Sockaddr} :
    WritesTid buf tidLen fun tid => parseDtnReply inetNtop frm buf tid tidLen := by
  unfold parseDtnReply
  split
  · exact writesTid_stop _ _
  · exact writesTid_stop _ _
  · exact writesTid_parseReplyEid

theorem writesTid_parseDtnQuery : WritesTid buf tidLen fun tid => parseDtnQuery buf tid tidLen := by
  unfold parseDtnQuery
  split
  · exact writesTid_stop _ _
  · exact writesTid_stop _ _
  · dsimp only
    cases hp : Occurrence.findInfix (str "e1:q3:dtn1:t") buf with
    | none => exact writesTid_stop _ _
    | some p =>
      have hmarker : str "1:t" <:+: buf :=
        isInfix_marker (n := 0) ⟨str "e1:q3:dtn", [], rfl⟩ (by rw [List.drop_zero]; exact hp)
      dsimp only
      cases ht : readField buf (p + 12) fun l => decide (0 < l) && decide (l < tidLen) with
      | malformed => exact ⟨_, _, some [], fromBuffer_nil hmarker, fun _ => rfl⟩
      | overflow => exact writesTid_stop _ _
      | value t => exact ⟨_, _, some t, fromBuffer_value hmarker ht, fun _ => rfl⟩

theorem writesTid_parseDtnMessage (inetNtop : ℕ → Bytes → Bytes) (frm : Sockaddr) (buf : Bytes)
    (tidLen : ℕ) :
    WritesTid buf tidLen fun tid => parseDtnMessage inetNtop frm buf tid tidLen := by
  unfold parseDtnMessage
  split_ifs
  · exact writesTid_parseDtnQuery
  · exact writesTid_parseDtnReply
  · exact writesTid_stop _ _

/-! ## The parsers stay inside the datagram -/

/-- **The DTN parsers meet no fault on any datagram and sender**: they inspect no byte behind the
terminating NUL, copy only bytes in front of it, pass no negative length, write at most 15 bytes of
the datagram to the transaction id, and end. -/
theorem dtnParsers_inside (inetNtop : ℕ → Bytes → Bytes) (frm : Sockaddr) (buf : Bytes)
    (tid : CheckedBuffer.CharArray 16) :
    (∃ r, Bytewise.parseDtnMessage buf inetNtop frm tid 16 = .ok r ∧
      r.view = parseDtnMessage inetNtop frm buf tid.1 16 ∧
      ∃ written, (∀ t ∈ written, t <:+: buf ∧ t.length ≤ 15) ∧
        r.tid.1 = setTid tid.1 written ∧ r.tidLen = setTidLen 16 written) ∧
    Bytewise.parseDtnConvergenceLayer buf inetNtop frm (buf.length + 1) 0 buf.length =
      .ok (parseDtnConvergenceLayer inetNtop frm buf buf.length) ∧
    Bytewise.parseDtnConvergenceLayerArgs buf (buf.length + 1) 0 buf.length =
      .ok (parseDtnConvergenceLayerArgs buf buf.length) ∧
    Bytewise.parseDtnEidList buf (buf.length + 1) 0 buf.length =
      .ok (parseDtnEidList buf buf.length) := by
  refine ⟨?_, ?_, ?_, ?_⟩
  · obtain ⟨r, hr, hview⟩ := Bytewise.parseDtnMessage_computes inetNtop frm buf tid le_rfl
    obtain ⟨_, _, written, hfrom, hparse⟩ := writesTid_parseDtnMessage inetNtop frm buf 16
    have htid := hview.trans (hparse tid.1)
    have hwritten (t : Bytes) (ht : t ∈ written) : t <:+: buf ∧ t.length ≤ 15 :=
      ⟨(hfrom t ht).1, (hfrom t ht).2.1⟩
    exact ⟨r, hr, hview, written, hwritten, congrArg DtnParse.tid htid,
      congrArg DtnParse.tidLen htid⟩
  · exact Bytewise.parseDtnConvergenceLayer_eq (Nat.zero_le _) (by omega) (by omega)
  · exact Bytewise.parseDtnConvergenceLayerArgs_eq (by omega) (by omega) (by omega)
  · exact Bytewise.parseDtnEidList_eq (Nat.zero_le _) (by omega) (by omega)

end DtnDht
