import DtnDht.Sockaddr

/-!
# Announce tokens

A token is a hash of the current secret and of the address and port it is issued to. The secret
is replaced from time to time, and the tokens of the one before are still accepted.
-/

namespace DtnDht

/-- `secret` and `oldsecret`. -/
structure Secrets where
  secret : Bytes
  oldsecret : Bytes
  deriving DecidableEq

/-- `TOKEN_SIZE`. -/
def tokenSize : ℕ := 8

section

/-! `sha1` is the hash function. -/

variable (sha1 : Bytes → Bytes)

/-- `dht_hash`, for at most 20 bytes. -/
def dhtHash (hashSize : ℕ) (v1 v2 v3 : Bytes) : Bytes := (sha1 (v1 ++ v2 ++ v3)).take hashSize

/-- `htons(port)`, as bytes in memory. -/
def htonsPort (sa : Sockaddr) : Bytes := sa.port.reverse

/-- The token of a secret for an address. -/
def tokenOf (secret : Bytes) (sa : Sockaddr) : Bytes :=
  dhtHash sha1 tokenSize secret sa.ip (htonsPort sa)

/-- `make_token`. -/
def makeToken (s : Secrets) (sa : Sockaddr) (old : Bool) : Bytes :=
  tokenOf sha1 (if old then s.oldsecret else s.secret) sa

/-- `token_match`. -/
def tokenMatch (s : Secrets) (token : Bytes) (sa : Sockaddr) : Bool :=
  if token.length ≠ tokenSize then false
  else makeToken sha1 s sa false == token || makeToken sha1 s sa true == token

/-- `rotate_secrets`, `fresh` being the bytes `dht_random_bytes` draws. -/
def Secrets.rotate (s : Secrets) (fresh : Bytes) : Secrets := ⟨fresh, s.secret⟩

end

end DtnDht
