import DtnDht.DtnReply

/-!
# The grammar of the convergence layers

A list of layers is a sequence of items, each a numeral, a colon and as many bytes as the numeral
says, up to a closing `e`. `parse_dtn_convergence_layer` accepts these lists and nothing else
(`layers_accepted_iff`). Both of its scanners can stop one byte behind the item, at a `=` or a `;`
that belongs to what follows; an item that ends so is refused because nothing that starts with one
of these bytes is a list of layers (`not_parsed_of_head`).
-/

namespace DtnDht

open CString

/-- The separators stay out of the fields they end, and there is an argument. -/
structure PlainLayer (cl : ConvergenceLayer) : Prop where
  name : (59 : UInt8) ∉ cl.clname
  arg : ∀ arg ∈ cl.args, (61 : UInt8) ∉ arg.key ∧ (59 : UInt8) ∉ arg.value
  ne_nil : cl.args ≠ []

/-- The buffer starts with a list of layers: items `N:P` up to an `e`. `P` is `name=n;` and
arguments `k=v;`, and `strtol` reads `N` as the length of `P`, which is more than 5. -/
inductive LayerList : Bytes → List ConvergenceLayer → Prop where
  | nil (r : Bytes) : LayerList (101 :: r) []
  | cons {N r : Bytes} {cl : ConvergenceLayer} {cls : List ConvergenceLayer} (hcl : PlainLayer cl)
      (hnum : strtol (N ++ 58 :: (layerText cl ++ r)) =
        (((layerText cl).length : ℤ), 58 :: (layerText cl ++ r)))
      (hr : LayerList r cls) : LayerList (N ++ 58 :: (layerText cl ++ r)) (cl :: cls)

/-! ## The scanners -/

theorem scanUntil_spec (c : UInt8) (buf : Bytes) (n : ℕ) : scanUntil c buf n ≤ n ∧
    c ∉ buf.take (scanUntil c buf n) ∧
    (scanUntil c buf n < n → n ≤ buf.length → buf[scanUntil c buf n]? = some c) := by
  fun_induction scanUntil c buf n with
  | case1 => exact ⟨le_rfl, by simp, fun h => absurd h (lt_irrefl _)⟩
  | case2 n => exact ⟨le_rfl, by simp, fun h => absurd h (lt_irrefl _)⟩
  | case3 buf n => exact ⟨Nat.zero_le _, by simp, fun _ _ => rfl⟩
  | case4 b buf n hb ih =>
    obtain ⟨hle, hnot, hget⟩ := ih
    refine ⟨Nat.succ_le_succ hle, ?_, ?_⟩
    · rw [List.take_succ_cons, List.mem_cons, not_or]
      exact ⟨Ne.symm hb, hnot⟩
    · intro hlt hlen
      exact hget (Nat.lt_of_succ_lt_succ hlt) (Nat.le_of_succ_le_succ hlen)

theorem eq_take_cons_drop {buf : Bytes} {k : ℕ} {c : UInt8} (h : buf[k]? = some c) :
    buf = buf.take k ++ c :: buf.drop (k + 1) := by
  obtain ⟨hk, hc⟩ := List.getElem?_eq_some_iff.mp h
  rw [← hc, ← List.drop_eq_getElem_cons hk, List.take_append_drop]

/-- A `=` at `k` and a `;` that comes `m` bytes behind it bound an argument. -/
theorem eq_encodeArg_append {buf : Bytes} {k m : ℕ} (h61 : buf[k]? = some 61)
    (h59 : buf[k + 1 + m]? = some 59) :
    buf = encodeArg ⟨buf.take k, (buf.drop (k + 1)).take m⟩ ++ buf.drop (k + m + 2) := by
  have hvalue : buf.drop (k + 1) = (buf.drop (k + 1)).take m ++ 59 :: buf.drop (k + m + 2) := by
    have h59' : (buf.drop (k + 1))[m]? = some 59 := by
      rw [List.getElem?_drop]
      exact h59
    have h := eq_take_cons_drop h59'
    rwa [List.drop_drop, show k + 1 + (m + 1) = k + m + 2 by omega] at h
  calc buf = buf.take k ++ 61 :: buf.drop (k + 1) := eq_take_cons_drop h61
    _ = buf.take k ++ 61 :: ((buf.drop (k + 1)).take m ++ 59 :: buf.drop (k + m + 2)) := by
      rw [← hvalue]
    _ = _ := by
      rw [encodeArg, List.append_assoc, List.cons_append, List.append_assoc, List.singleton_append]

/-- What the arguments are read from: all `n` bytes, or the byte behind them is a `=` or a `;`. -/
theorem parseDtnConvergenceLayerArgs_sound {n : ℕ} : ∀ {buf : Bytes} {rc : ℕ}
    {args : List ConvergenceLayerArg}, n ≤ buf.length →
    parseDtnConvergenceLayerArgs buf n = some (rc, args) →
    (rc = n ∧ args ≠ [] ∧ (∀ arg ∈ args, (61 : UInt8) ∉ arg.key ∧ (59 : UInt8) ∉ arg.value) ∧
      args.flatMap encodeArg = buf.take n) ∨ buf[n]? = some 61 ∨ buf[n]? = some 59 := by
  induction n using Nat.strong_induction_on with
  | _ n ih =>
    intro buf rc args hn h
    rw [parseDtnConvergenceLayerArgs_eq] at h
    dsimp only at h
    obtain ⟨hk, hkey, -⟩ := scanUntil_spec 61 buf n
    generalize scanUntil 61 buf n = k at h hk hkey
    by_cases h61 : buf[k]? = some 61
    swap
    · rw [if_neg h61] at h
      exact absurd h nofun
    rw [if_pos h61] at h
    obtain ⟨hm, hvalue, -⟩ := scanUntil_spec 59 (buf.drop (k + 1)) (n - (k + 1))
    generalize scanUntil 59 (buf.drop (k + 1)) (n - (k + 1)) = m at h hm hvalue
    by_cases h59 : buf[k + 1 + m]? = some 59
    swap
    · rw [if_neg h59] at h
      exact absurd h nofun
    rw [if_pos h59] at h
    -- The scanners have stopped inside, or one of them right behind the bytes.
    rcases Nat.lt_or_ge (k + 1 + m) n with hlt | hge
    swap
    · right
      by_cases hkn : k = n
      · exact Or.inl (hkn ▸ h61)
      · exact Or.inr (by rwa [show n = k + 1 + m by omega])
    have hbuf : buf = encodeArg ⟨buf.take k, (buf.drop (k + 1)).take m⟩ ++ buf.drop (k + m + 2) :=
      eq_encodeArg_append h61 h59
    have htext : encodeArg ⟨buf.take k, (buf.drop (k + 1)).take m⟩ = buf.take (k + m + 2) :=
      List.append_cancel_right (hbuf.symm.trans (List.take_append_drop _ _).symm)
    by_cases hres : k + m + 2 < n
    · rw [if_pos hres] at h
      cases hrec : parseDtnConvergenceLayerArgs (buf.drop (k + m + 2)) (n - (k + m + 2)) with
      | none => simp only [hrec] at h; exact absurd h nofun
      | some out =>
        obtain ⟨rc', args'⟩ := out
        simp only [hrec, Option.some_inj, Prod.mk.injEq] at h
        obtain ⟨rfl, rfl⟩ := h
        have hlen : n - (k + m + 2) ≤ (buf.drop (k + m + 2)).length := by
          rw [List.length_drop]; omega
        rcases ih _ (by omega) hlen hrec with ⟨hrc, -, hargs, hrest⟩ | hbehind
        · left
          rw [if_pos (by omega)]
          refine ⟨by omega, List.cons_ne_nil _ _, ?_, ?_⟩
          · rw [List.forall_mem_cons]
            exact ⟨⟨hkey, hvalue⟩, hargs⟩
          · rw [List.flatMap_cons, htext, hrest]
            rw [← List.take_add, show k + m + 2 + (n - (k + m + 2)) = n by omega]
        · right
          rwa [List.getElem?_drop, show k + m + 2 + (n - (k + m + 2)) = n by omega] at hbehind
    · rw [if_neg hres] at h
      simp only [Option.some_inj, Prod.mk.injEq] at h
      obtain ⟨rfl, rfl⟩ := h
      left
      refine ⟨by omega, List.cons_ne_nil _ _, ?_, ?_⟩
      · rw [List.forall_mem_singleton]
        exact ⟨hkey, hvalue⟩
      · rw [List.flatMap_singleton, htext, show n = k + m + 2 by omega]

/-- A numeral with its colon starts with none of the other bytes that matter here. -/
theorem head_ne_of_strtol {c : UInt8} (hc : c ∈ [(101 : UInt8), 61, 59]) {buf s : Bytes} {l : ℤ}
    (h : strtol buf = (l, 58 :: s)) : buf.head? ≠ some c := by
  intro hhead
  obtain ⟨t, rfl⟩ := List.head?_eq_some_iff.mp hhead
  obtain ⟨hspace, hdigit, hplus, hminus, hcolon⟩ :
      isSpace c = false ∧ isDigit c = false ∧ c ≠ 43 ∧ c ≠ 45 ∧ c ≠ 58 := by
    simp only [List.mem_cons, List.not_mem_nil, or_false] at hc
    rcases hc with rfl | rfl | rfl <;> decide
  rw [strtol_of_not_numeral hspace hdigit hplus hminus] at h
  exact hcolon (List.cons.inj (Prod.mk.inj h).2).1

section

variable (inetNtop : ℕ → Bytes → Bytes) (frm : Sockaddr)

/-- What a layer is read from: all `l` bytes behind the colon, or the byte behind them is a `=` or a
`;`. -/
theorem parseLayerText_sound {s : Bytes} {l : ℕ} {layer : ConvergenceLayer} (hl : 5 < l)
    (hs : l ≤ s.length) (h : parseLayerText inetNtop frm (58 :: s) l = some layer) :
    (∃ cl, PlainLayer cl ∧ layerText cl = s.take l ∧ layer = decodedLayer inetNtop frm cl) ∨
      s[l]? = some 61 ∨ s[l]? = some 59 := by
  unfold parseLayerText at h
  rw [List.tail_cons] at h
  by_cases hpre : (str "name=").isPrefixOf s = true
  swap
  · rw [if_neg hpre] at h
    exact absurd h nofun
  rw [if_pos hpre] at h
  obtain ⟨t, rfl⟩ := List.isPrefixOf_iff_prefix.mp hpre
  have hdrop : (58 :: (str "name=" ++ t)).drop 6 = t := rfl
  rw [List.length_append, show (str "name=").length = 5 from rfl] at hs
  dsimp only at h
  rw [hdrop] at h
  obtain ⟨hk, hname, hsemi⟩ := scanUntil_spec 59 t (l - 6)
  generalize scanUntil 59 t (l - 6) = k at h hk hname hsemi
  have hdrop' : (58 :: (str "name=" ++ t)).drop (6 + k + 1) = t.drop (k + 1) := by
    rw [Nat.add_assoc, ← List.drop_drop, hdrop]
  rw [hdrop'] at h
  cases hargs : parseDtnConvergenceLayerArgs (t.drop (k + 1)) (l - k - 6) with
  | none => simp only [hargs] at h; exact absurd h nofun
  | some out =>
    obtain ⟨rc, args⟩ := out
    have hlen : l - k - 6 ≤ (t.drop (k + 1)).length := by rw [List.length_drop]; omega
    rcases parseDtnConvergenceLayerArgs_sound hlen hargs with ⟨rfl, hne, hplain, htext⟩ | hbehind
    · -- There is an argument, so the name ended before the item did.
      have hpos : 0 < l - k - 6 := by
        have := length_encodedArgs_pos hne
        rw [htext, List.length_take] at this
        omega
      have hget := hsemi (by omega) (by omega)
      have hk' : (t.take k).length = k := by rw [List.length_take]; omega
      left
      refine ⟨⟨t.take k, args⟩, ⟨hname, hplain, hne⟩, ?_, ?_⟩
      · have htake : t.take (l - 5) = t.take k ++ 59 :: args.flatMap encodeArg := by
          conv_lhs => rw [eq_take_cons_drop hget]
          rw [List.take_append, hk', List.take_take, min_eq_right (by omega),
            show l - 5 - k = l - k - 6 + 1 by omega, List.take_succ_cons, htext]
        rw [layerText, List.take_append, List.take_of_length_le (l := str "name=") hl.le,
          show (str "name=").length = 5 from rfl, htake]
      · have hclname : (58 :: (str "name=" ++ t))[6 + k]? = some 59 := by
          rw [← List.getElem?_drop, hdrop, hget]
        obtain ⟨rc, hrc⟩ := Nat.exists_eq_succ_of_ne_zero hpos.ne'
        simp only [hrc] at hargs
        simp only [hrc, hargs, hclname, if_true, Option.some_inj] at h
        exact h.symm
    · right
      have hidx : (str "name=" ++ t)[l]? = (t.drop (k + 1))[l - k - 6]? := by
        rw [List.getElem?_append_right (show (str "name=").length ≤ l from hl.le),
          List.getElem?_drop, show (str "name=").length = 5 from rfl,
          show l - 5 = k + 1 + (l - k - 6) by omega]
      rwa [hidx]

/-- Nothing that starts with a `=` or a `;` is a list of layers. -/
theorem not_parsed_of_head {buf : Bytes} (n : ℕ)
    (h : buf.head? = some 61 ∨ buf.head? = some 59) :
    parseDtnConvergenceLayer inetNtop frm buf n = none := by
  have hend : buf.head? ≠ some 101 := by
    rcases h with h | h <;>
      exact fun hc => absurd (Option.some_inj.mp (h.symm.trans hc)) (by decide)
  rw [parseDtnConvergenceLayer_eq, if_neg hend]
  generalize hnum : strtol buf = out
  obtain ⟨l, q⟩ := out
  dsimp only
  refine if_neg ?_
  rintro ⟨hcolon, -⟩
  obtain ⟨s, rfl⟩ := List.head?_eq_some_iff.mp hcolon
  rcases h with h | h <;> exact head_ne_of_strtol (by decide) hnum h

variable {inetNtop frm}

/-- What is accepted is a list of layers. -/
theorem layerList_of_parsed {buf : Bytes} {n : ℕ} {layers : List ConvergenceLayer}
    (h : parseDtnConvergenceLayer inetNtop frm buf buf.length = some (n, layers)) :
    ∃ cls, LayerList buf cls ∧ layers = cls.map (decodedLayer inetNtop frm) ∧ n = textLen cls := by
  induction hlen : buf.length using Nat.strong_induction_on generalizing buf n layers with
  | _ len ih =>
    subst hlen
    rw [parseDtnConvergenceLayer_eq] at h
    by_cases hend : buf.head? = some 101
    · rw [if_pos hend] at h
      obtain ⟨rfl, rfl⟩ := Prod.mk.inj (Option.some_inj.mp h)
      obtain ⟨r, rfl⟩ := List.head?_eq_some_iff.mp hend
      exact ⟨[], LayerList.nil r, rfl, rfl⟩
    rw [if_neg hend] at h
    obtain ⟨N, hN⟩ := strtol_suffix buf
    generalize hnum : strtol buf = out at h hN
    obtain ⟨l, q⟩ := out
    dsimp only at h hN
    by_cases hc : q.head? = some 58 ∧ 5 < l
    swap
    · rw [if_neg hc] at h
      exact absurd h nofun
    rw [if_pos hc] at h
    obtain ⟨s, rfl⟩ := List.head?_eq_some_iff.mp hc.1
    have hconsumed : buf.length - (58 :: s).length + l.toNat + 1 = N.length + (l.toNat + 1) := by
      rw [← hN, List.length_append]
      omega
    rw [hconsumed] at h
    by_cases hfits : buf.length < N.length + (l.toNat + 1)
    · rw [if_pos hfits] at h
      exact absurd h nofun
    rw [if_neg hfits] at h
    have hls : l.toNat ≤ s.length := by
      rw [← hN, List.length_append, List.length_cons] at hfits
      omega
    have hrest : buf.drop (N.length + (l.toNat + 1)) = s.drop l.toNat := by
      rw [← hN, ← List.drop_drop, List.drop_left, List.drop_succ_cons]
    have hrestlen : buf.length - (N.length + (l.toNat + 1)) = (s.drop l.toNat).length := by
      rw [← hrest, List.length_drop]
    rw [hrest, hrestlen] at h
    cases hlayer : parseLayerText inetNtop frm (58 :: s) l.toNat with
    | none => simp only [hlayer] at h; exact absurd h nofun
    | some layer =>
      simp only [hlayer] at h
      cases hrec : parseDtnConvergenceLayer inetNtop frm (s.drop l.toNat)
          (s.drop l.toNat).length with
      | none => simp only [hrec] at h; exact absurd h nofun
      | some out =>
        obtain ⟨pos, layers'⟩ := out
        simp only [hrec, Option.some_inj, Prod.mk.injEq] at h
        obtain ⟨rfl, rfl⟩ := h
        have hl5 : 5 < l.toNat := by omega
        rcases parseLayerText_sound inetNtop frm hl5 hls hlayer with ⟨cl, hcl, htext, rfl⟩ | hhead
        · obtain ⟨cls, hlist, rfl, rfl⟩ := ih (s.drop l.toNat).length
            (by rw [← hrestlen]; omega) hrec rfl
          have hs : s = layerText cl ++ s.drop l.toNat := by rw [htext, List.take_append_drop]
          have htl : (layerText cl).length = l.toNat := by
            rw [htext, List.length_take, min_eq_left hls]
          have hbuf : N ++ 58 :: (layerText cl ++ s.drop l.toNat) = buf := by rw [← hs, hN]
          refine ⟨cl :: cls, ?_, rfl, ?_⟩
          · rw [← hbuf]
            refine LayerList.cons hcl ?_ hlist
            rw [hbuf, hnum, ← hs, htl, Int.toNat_of_nonneg (by omega)]
          · rw [← htl]
            rfl
        · -- The scanners went behind the item, so the rest is refused.
          rw [← List.head?_drop] at hhead
          rw [not_parsed_of_head inetNtop frm _ hhead] at hrec
          exact absurd hrec nofun

theorem LayerList.head_ne {buf : Bytes} {cls : List ConvergenceLayer} (h : LayerList buf cls) :
    buf.head? ≠ some 61 := by
  cases h with
  | nil r => exact fun h => absurd (Option.some_inj.mp h) (by decide)
  | cons hcl hnum hr => exact head_ne_of_strtol (by decide) hnum

/-- A list of layers is accepted. -/
theorem LayerList.parsed {buf : Bytes} {cls : List ConvergenceLayer} (h : LayerList buf cls) :
    parseDtnConvergenceLayer inetNtop frm buf buf.length =
      some (textLen cls, cls.map (decodedLayer inetNtop frm)) := by
  induction h with
  | nil r => rw [parseDtnConvergenceLayer_eq]; rfl
  | @cons N r cl cls hcl hnum hr ih =>
    have hend : (N ++ 58 :: (layerText cl ++ r)).head? ≠ some 101 :=
      head_ne_of_strtol (by decide) hnum
    have hfive : (5 : ℤ) < (layerText cl).length := by rw [length_layerText]; omega
    have hconsumed : (N ++ 58 :: (layerText cl ++ r)).length -
        (58 :: (layerText cl ++ r)).length + (layerText cl).length + 1 =
          N.length + ((layerText cl).length + 1) := by
      rw [List.length_append]
      omega
    have hlen : (N ++ 58 :: (layerText cl ++ r)).length =
        N.length + ((layerText cl).length + 1) + r.length := by
      simp only [List.length_append, List.length_cons]
      omega
    have hdrop : (N ++ 58 :: (layerText cl ++ r)).drop (N.length + ((layerText cl).length + 1)) =
        r := by
      rw [← List.drop_drop, List.drop_left, List.drop_succ_cons, List.drop_left]
    have hdropLen : (N ++ 58 :: (layerText cl ++ r)).length -
        (N.length + ((layerText cl).length + 1)) = r.length := by
      rw [hlen, Nat.add_sub_cancel_left]
    rw [parseDtnConvergenceLayer_eq, if_neg hend, hnum]
    dsimp only
    rw [if_pos ⟨rfl, hfive⟩, Int.toNat_natCast, hconsumed, if_neg (by omega), hdrop, hdropLen,
      parseLayerText_encode inetNtop frm hcl.name hcl.arg hr.head_ne, if_neg hcl.ne_nil, ih]
    rfl

/-- **The parser accepts exactly its grammar**: it succeeds on the lists of layers, with the names,
keys and values of the items in order, and its value is the sum of the lengths of their texts. -/
theorem layers_accepted_iff (buf : Bytes) (n : ℕ) (layers : List ConvergenceLayer) :
    parseDtnConvergenceLayer inetNtop frm buf buf.length = some (n, layers) ↔
      ∃ cls, LayerList buf cls ∧ layers = cls.map (decodedLayer inetNtop frm) ∧
        n = (cls.map fun cl => (layerText cl).length).sum := by
  constructor
  · exact layerList_of_parsed
  · rintro ⟨cls, hlist, rfl, rfl⟩
    exact hlist.parsed

end

end DtnDht
