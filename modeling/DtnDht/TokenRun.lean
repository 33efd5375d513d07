import DtnDht.Frame
import DtnDht.Lib.RotatingKeys

/-!
# Announce tokens over a run

An announcement is stored only with a token that was issued to its sender under the current or the
previous secret. But `dht_init` zeroes the secret before it draws the first one, and
`rotate_secrets` keeps the zeroes as the previous secret. So up to the next rotation the token
that anyone can compute from eight zero bytes is accepted as well (`tokenSound_iff`).
-/

namespace DtnDht

/-- The IP address and the port of a socket address. -/
def Sockaddr.endpoint (sa : Sockaddr) : Bytes × Bytes := (sa.ip, sa.port)

/-- The token of a secret for an address and a port. -/
def tokenMac (sha1 : Bytes → Bytes) (secret : Bytes) (endpoint : Bytes × Bytes) : Bytes :=
  dhtHash sha1 tokenSize secret endpoint.1 endpoint.2.reverse

/-- What concerns the tokens. -/
inductive TokenEvent where
  | rotateSecrets
  | getPeers (m : Message) (frm : Sockaddr) (fromlen : ℕ)
  | announcePeer (m : Message) (frm : Sockaddr) (fromlen : ℕ)

/-- The number of rotations. -/
def rotations : List TokenEvent → ℕ
  | [] => 0
  | .rotateSecrets :: past => rotations past + 1
  | _ :: past => rotations past

namespace World

variable (sha1 : Bytes → Bytes)

/-- The state after an event. -/
def tokenStep (w : World) : TokenEvent → World
  | .rotateSecrets => w.rotateSecrets
  | .getPeers m frm fromlen => w.getPeers m frm fromlen sha1
  | .announcePeer m frm fromlen => w.announcePeer m frm fromlen sha1

/-- The state after some events, the latest first. -/
def afterTokens (w : World) (past : List TokenEvent) : World :=
  past.foldr (fun e w => w.tokenStep sha1 e) w

/-- The events as those of a server that issues tokens under rotating keys. -/
def tokenTrace (w : World) : List TokenEvent → List (RotatingKeys.Event Bytes (Bytes × Bytes))
  | [] => []
  | .rotateSecrets :: past =>
    .rotate (w.afterTokens sha1 (.rotateSecrets :: past)).secrets.secret :: tokenTrace w past
  | .getPeers m frm _ :: past =>
    if m.infoHash = Id.zeroes then tokenTrace w past
    else .issue frm.endpoint :: tokenTrace w past
  | .announcePeer _ _ _ :: past => tokenTrace w past

/-- The token was issued to the address, and at most `n` rotations followed. -/
def IssuedWithin (w : World) (past : List TokenEvent) (token : Bytes) (addr : Sockaddr) (n : ℕ) :
    Prop :=
  ∃ later m frm fromlen earlier, past = later ++ .getPeers m frm fromlen :: earlier ∧
    m.infoHash ≠ Id.zeroes ∧ frm.endpoint = addr.endpoint ∧
    makeToken sha1 (w.afterTokens sha1 earlier).secrets frm false = token ∧ rotations later ≤ n

/-- After the events, the token is accepted for the address if and only if it was issued to it with
at most one rotation since, and an announcement with it is stored only then. -/
def TokenSound (w : World) (past : List TokenEvent) (token : Bytes) (addr : Sockaddr) : Prop :=
  (tokenMatch sha1 (w.afterTokens sha1 past).secrets token addr = true ↔
      w.IssuedWithin sha1 past token addr 1) ∧
    ∀ m fromlen, m.token = token →
      ((w.afterTokens sha1 past).announcePeer m addr fromlen sha1).storage ≠
        (w.afterTokens sha1 past).storage →
      w.IssuedWithin sha1 past token addr 1

/-! ## The secrets -/

variable {w : World} {past : List TokenEvent}

variable {sha1} in
theorem secrets_getPeers (m : Message) (frm : Sockaddr) (fromlen : ℕ) (w : World) :
    (w.getPeers m frm fromlen sha1).secrets = w.secrets :=
  (answers_getPeers m frm fromlen sha1 w).secrets

variable {sha1} in
theorem secrets_announcePeer (m : Message) (frm : Sockaddr) (fromlen : ℕ) (w : World) :
    (w.announcePeer m frm fromlen sha1).secrets = w.secrets :=
  (answers_announcePeer m frm fromlen sha1 w).secrets

/-- The current and the previous secret are the latest two of the trace. -/
theorem exists_drawn_append (w : World) (past : List TokenEvent) : ∃ rest,
    RotatingKeys.drawn w.secrets.secret (w.tokenTrace sha1 past) ++ [w.secrets.oldsecret] =
      (w.afterTokens sha1 past).secrets.secret :: (w.afterTokens sha1 past).secrets.oldsecret ::
        rest := by
  induction past with
  | nil => exact ⟨[], rfl⟩
  | cons e past ih =>
    obtain ⟨rest, hrest⟩ := ih
    cases e with
    | rotateSecrets =>
      refine ⟨(w.afterTokens sha1 past).secrets.oldsecret :: rest, ?_⟩
      rw [tokenTrace, RotatingKeys.drawn, List.cons_append, hrest]
      rfl
    | getPeers m frm fromlen =>
      refine ⟨rest, ?_⟩
      have hs : (w.afterTokens sha1 (.getPeers m frm fromlen :: past)).secrets =
          (w.afterTokens sha1 past).secrets := secrets_getPeers m frm fromlen _
      rw [hs, ← hrest, tokenTrace]
      split_ifs <;> rfl
    | announcePeer m frm fromlen =>
      refine ⟨rest, ?_⟩
      have hs : (w.afterTokens sha1 (.announcePeer m frm fromlen :: past)).secrets =
          (w.afterTokens sha1 past).secrets := secrets_announcePeer m frm fromlen _
      rw [hs, ← hrest]
      rfl

/-- The key that tokens are issued with is the current secret. -/
theorem headD_drawn (w : World) (past : List TokenEvent) :
    (RotatingKeys.drawn w.secrets.secret (w.tokenTrace sha1 past)).headD w.secrets.secret =
      (w.afterTokens sha1 past).secrets.secret := by
  obtain ⟨rest, hrest⟩ := exists_drawn_append sha1 w past
  obtain ⟨key, keys, hd⟩ := List.exists_cons_of_ne_nil
    (RotatingKeys.drawn_ne_nil w.secrets.secret (w.tokenTrace sha1 past))
  rw [hd, List.cons_append] at hrest
  rw [hd, ← (List.cons.inj hrest).1]
  rfl

variable {sha1}

/-- `token_match` accepts the tokens of the accepted keys. -/
theorem tokenMatch_iff (hdigest : ∀ b, (sha1 b).length = 20) (w : World) (past : List TokenEvent)
    (token : Bytes) (addr : Sockaddr) :
    tokenMatch sha1 (w.afterTokens sha1 past).secrets token addr = true ↔
      ∃ key ∈ RotatingKeys.accepted w.secrets.oldsecret w.secrets.secret (w.tokenTrace sha1 past),
        tokenMac sha1 key addr.endpoint = token := by
  obtain ⟨rest, hrest⟩ := exists_drawn_append sha1 w past
  have hacc : RotatingKeys.accepted w.secrets.oldsecret w.secrets.secret
      (w.tokenTrace sha1 past) = [(w.afterTokens sha1 past).secrets.secret,
        (w.afterTokens sha1 past).secrets.oldsecret] := congrArg (List.take 2) hrest
  have hlen (key : Bytes) : (tokenMac sha1 key addr.endpoint).length = tokenSize := by
    rw [tokenMac, dhtHash, List.length_take, hdigest]
    rfl
  rw [hacc]
  unfold tokenMatch
  split_ifs with h
  · refine iff_of_false not_false ?_
    rintro ⟨key, -, rfl⟩
    exact h (hlen key)
  · rw [Bool.or_eq_true, beq_iff_eq, beq_iff_eq]
    simp only [List.mem_cons, List.not_mem_nil, or_false, exists_eq_or_imp, exists_eq_left]
    rfl

/-! ## What was issued -/

variable {token : Bytes} {addr : Sockaddr} {n : ℕ}

/-- An event that is no request for peers issues nothing. -/
theorem issuedWithin_rotateSecrets :
    w.IssuedWithin sha1 (.rotateSecrets :: past) token addr n ↔
      ∃ k, n = k + 1 ∧ w.IssuedWithin sha1 past token addr k := by
  constructor
  · rintro ⟨later, m, frm, fromlen, earlier, hp, hm, ha, ht, hn⟩
    obtain ⟨-, h⟩ | ⟨later, rfl, rfl⟩ := List.cons_eq_append_iff.mp hp
    · exact absurd h (by simp)
    · obtain ⟨k, rfl⟩ : ∃ k, n = k + 1 := ⟨n - 1, by rw [rotations] at hn; omega⟩
      exact ⟨k, rfl, later, m, frm, fromlen, earlier, rfl, hm, ha, ht, Nat.le_of_succ_le_succ hn⟩
  · rintro ⟨k, rfl, later, m, frm, fromlen, earlier, rfl, hm, ha, ht, hn⟩
    exact ⟨.rotateSecrets :: later, m, frm, fromlen, earlier, rfl, hm, ha, ht,
      Nat.succ_le_succ hn⟩

theorem issuedWithin_announcePeer (m : Message) (frm : Sockaddr) (fromlen : ℕ) :
    w.IssuedWithin sha1 (.announcePeer m frm fromlen :: past) token addr n ↔
      w.IssuedWithin sha1 past token addr n := by
  constructor
  · rintro ⟨later, m', frm', fromlen', earlier, hp, h⟩
    obtain ⟨-, h⟩ | ⟨later, rfl, rfl⟩ := List.cons_eq_append_iff.mp hp
    · exact absurd h (by simp)
    · exact ⟨later, m', frm', fromlen', earlier, rfl, h⟩
  · rintro ⟨later, m', frm', fromlen', earlier, rfl, h⟩
    exact ⟨.announcePeer m frm fromlen :: later, m', frm', fromlen', earlier, rfl, h⟩

/-- A request for peers issues the token of its sender. -/
theorem issuedWithin_getPeers (m : Message) (frm : Sockaddr) (fromlen : ℕ) :
    w.IssuedWithin sha1 (.getPeers m frm fromlen :: past) token addr n ↔
      (m.infoHash ≠ Id.zeroes ∧ frm.endpoint = addr.endpoint ∧
          makeToken sha1 (w.afterTokens sha1 past).secrets frm false = token) ∨
        w.IssuedWithin sha1 past token addr n := by
  constructor
  · rintro ⟨later, m', frm', fromlen', earlier, hp, hm, ha, ht, hn⟩
    obtain ⟨rfl, h⟩ | ⟨later, rfl, rfl⟩ := List.cons_eq_append_iff.mp hp
    · rw [List.cons.injEq] at h
      obtain ⟨he, rfl⟩ := h
      obtain ⟨rfl, rfl, rfl⟩ := TokenEvent.getPeers.inj he
      exact Or.inl ⟨hm, ha, ht⟩
    · exact Or.inr ⟨later, m', frm', fromlen', earlier, rfl, hm, ha, ht, hn⟩
  · rintro (⟨hm, ha, ht⟩ | ⟨later, m', frm', fromlen', earlier, rfl, h⟩)
    · exact ⟨[], m, frm, fromlen, past, rfl, hm, ha, ht, Nat.zero_le n⟩
    · exact ⟨.getPeers m frm fromlen :: later, m', frm', fromlen', earlier, rfl, h⟩

/-- The tokens of the history are those of the trace. -/
theorem issuedWithin_iff :
    w.IssuedWithin sha1 past token addr n ↔
      ∃ i ∈ RotatingKeys.issued (tokenMac sha1) w.secrets.secret (w.tokenTrace sha1 past),
        i.token = token ∧ i.addr = addr.endpoint ∧ i.later ≤ n := by
  induction past generalizing n with
  | nil =>
    refine iff_of_false ?_ ?_
    · rintro ⟨later, m, frm, fromlen, earlier, hp, -⟩
      exact absurd hp (by simp)
    · rintro ⟨i, hi, -⟩
      exact List.not_mem_nil hi
  | cons e past ih =>
    cases e with
    | rotateSecrets =>
      rw [issuedWithin_rotateSecrets, tokenTrace, RotatingKeys.issued]
      constructor
      · rintro ⟨k, rfl, h⟩
        obtain ⟨i, hi, ht, ha, hk⟩ := ih.mp h
        exact ⟨_, List.mem_map_of_mem hi, ht, ha, Nat.succ_le_succ hk⟩
      · rintro ⟨i, hi, ht, ha, hn⟩
        obtain ⟨j, hj, rfl⟩ := List.mem_map.mp hi
        obtain ⟨k, rfl⟩ : ∃ k, n = k + 1 := Nat.exists_eq_add_one.mpr (Nat.lt_of_succ_le
          (Nat.le_trans (Nat.succ_le_succ (Nat.zero_le _)) hn))
        exact ⟨k, rfl, ih.mpr ⟨j, hj, ht, ha, Nat.le_of_succ_le_succ hn⟩⟩
    | getPeers m frm fromlen =>
      rw [issuedWithin_getPeers, tokenTrace, ih]
      split_ifs with h0
      · exact or_iff_right fun h => h.1 h0
      · rw [RotatingKeys.issued, headD_drawn]
        simp only [List.mem_cons, or_and_right, exists_or, exists_eq_left, Nat.zero_le, and_true]
        refine or_congr ?_ Iff.rfl
        exact ⟨fun ⟨_, ha, ht⟩ => ⟨ht, ha⟩, fun ⟨ht, ha⟩ => ⟨h0, ha, ht⟩⟩
    | announcePeer m frm fromlen =>
      rw [issuedWithin_announcePeer, tokenTrace, ih]

/-! ## Acceptance -/

variable (sha1 w past) in
theorem rotate_mem_tokenTrace_iff :
    (∃ key, .rotate key ∈ w.tokenTrace sha1 past) ↔ TokenEvent.rotateSecrets ∈ past := by
  induction past with
  | nil => simp [tokenTrace]
  | cons e past ih =>
    cases e with
    | rotateSecrets =>
      exact iff_of_true ⟨_, List.mem_cons_self⟩ List.mem_cons_self
    | getPeers m frm fromlen =>
      rw [tokenTrace]
      split_ifs <;> simp [ih]
    | announcePeer m frm fromlen =>
      rw [tokenTrace, ih]
      simp

/-- An announcement with a wrong token stores nothing. -/
theorem storage_announcePeer {m : Message} {frm : Sockaddr} (fromlen : ℕ)
    (h : tokenMatch sha1 w.secrets m.token frm = false) :
    (w.announcePeer m frm fromlen sha1).storage = w.storage := by
  have hn : tokenMatch sha1 (w.newNode m.id frm fromlen 1).secrets m.token frm = false := h
  unfold announcePeer
  dsimp only
  split_ifs with h0 ht hp
  · rfl
  · rfl
  · rfl
  · rw [hn] at ht
    exact absurd rfl ht

/-- What `dht_init` leaves in the previous secret. -/
def zeroSecret : Bytes := List.replicate 8 0

theorem oldsecret_dhtInit (w : World) (s s6 : ℤ) (id : Id) (v : Option Bytes) :
    (w.dhtInit s s6 id v).secrets.oldsecret = zeroSecret :=
  rfl

/-- **Tokens are accepted as claimed if and only if the secret was rotated since `dht_init` or the
token is not the one of eight zero bytes.** -/
theorem tokenSound_iff (hdigest : ∀ b, (sha1 b).length = 20) (w : World) (s s6 : ℤ) (id : Id)
    (v : Option Bytes) (past : List TokenEvent) (token : Bytes) (addr : Sockaddr)
    (h : RotatingKeys.Secret (tokenMac sha1) zeroSecret (w.dhtInit s s6 id v).secrets.secret
      ((w.dhtInit s s6 id v).tokenTrace sha1 past) addr.endpoint token) :
    (w.dhtInit s s6 id v).TokenSound sha1 past token addr ↔
      .rotateSecrets ∈ past ∨ token ≠ tokenOf sha1 zeroSecret addr := by
  have hmac : tokenOf sha1 zeroSecret addr = tokenMac sha1 zeroSecret addr.endpoint := rfl
  have hold := oldsecret_dhtInit w s s6 id v
  generalize w.dhtInit s s6 id v = w0 at h hold
  have haccept := tokenMatch_iff hdigest w0 past token addr
  rw [hold, RotatingKeys.accepts_iff h, ← issuedWithin_iff] at haccept
  rw [← rotate_mem_tokenTrace_iff sha1 w0 past, hmac]
  constructor
  · rintro ⟨hiff, -⟩
    by_contra hcon
    rw [not_or, not_exists, not_not] at hcon
    obtain ⟨i, hi, ht, -⟩ := issuedWithin_iff.mp (hiff.mp (haccept.mpr (Or.inr hcon)))
    exact RotatingKeys.not_issued_zeroth h hcon.2 hi ht
  · intro hcond
    have hiff : tokenMatch sha1 (w0.afterTokens sha1 past).secrets token addr = true ↔
        w0.IssuedWithin sha1 past token addr 1 := by
      refine haccept.trans (or_iff_left ?_)
      rintro ⟨hno, ht⟩
      exact hcond.elim (fun ⟨key, hkey⟩ => hno key hkey) fun hne => hne ht
    refine ⟨hiff, fun m fromlen ht hst => hiff.mp ?_⟩
    subst ht
    by_contra hno
    exact hst (storage_announcePeer fromlen (Bool.eq_false_iff.mpr hno))

/-! ## The first epoch -/

/-- 9.9.9.9, port 6881. -/
def peerAddr : Sockaddr := sockaddrIn [9, 9, 9, 9] [26, 225]

/-- SHA-1 of the address with eight zero bytes and with eight ones before it. -/
def peerSha1 (b : Bytes) : Bytes :=
  if b = List.replicate 8 0 ++ [9, 9, 9, 9, 225, 26] then
    [1, 250, 154, 61, 94, 127, 209, 105, 111, 21, 253, 252, 215, 34, 85, 4, 12, 26, 50, 231]
  else if b = List.replicate 8 1 ++ [9, 9, 9, 9, 225, 26] then
    [138, 100, 108, 117, 97, 108, 245, 23, 110, 15, 10, 152, 238, 213, 58, 154, 255, 174, 180, 147]
  else List.replicate 20 0

theorem length_peerSha1 (b : Bytes) : (peerSha1 b).length = 20 := by
  unfold peerSha1
  split_ifs <;> rfl

/-- A node after `dht_init`; the secret it draws is eight ones. -/
def started : World := (World.initial (Env.still 1000)).dhtInit 5 (-1) (Id.ofBytes [1]) none

/-- Nothing is issued yet, but the token of eight zero bytes is accepted. -/
theorem tokenSound_first_epoch :
    RotatingKeys.Secret (tokenMac peerSha1) zeroSecret started.secrets.secret
        (started.tokenTrace peerSha1 []) peerAddr.endpoint (tokenOf peerSha1 zeroSecret peerAddr) ∧
      ¬ started.TokenSound peerSha1 [] (tokenOf peerSha1 zeroSecret peerAddr) peerAddr := by
  refine ⟨⟨by decide +kernel, by decide +kernel, by decide +kernel⟩, fun h => ?_⟩
  obtain ⟨later, m, frm, fromlen, earlier, hp, -⟩ := h.1.mp (by decide +kernel)
  exact absurd hp (by simp)

/-- A request for peers. -/
def peerRequest : Message where
  kind := .getPeers
  tid := [1, 2, 3, 4]
  tidLen := 4
  id := Id.ofBytes [2]
  infoHash := Id.ofBytes [3]
  target := Id.zeroes
  port := 0
  token := []
  nodes := []
  nodes6 := []
  values := []
  values6 := []
  want := -1

/-- The token issued in answer to a request. -/
theorem tokenSound_issued :
    started.TokenSound peerSha1 [.getPeers peerRequest peerAddr 16]
      (makeToken peerSha1 started.secrets peerAddr false) peerAddr :=
  (tokenSound_iff length_peerSha1 (World.initial (Env.still 1000)) 5 (-1) (Id.ofBytes [1]) none
    [.getPeers peerRequest peerAddr 16] (makeToken peerSha1 started.secrets peerAddr false) peerAddr
    ⟨by decide +kernel, by decide +kernel, by decide +kernel⟩).mpr (Or.inr (by decide +kernel))

end World

end DtnDht
