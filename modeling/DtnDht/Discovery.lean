import DtnDht.BlacklistRing
import DtnDht.ClosestBuffer
import DtnDht.InfoExchange
import DtnDht.Leases
import DtnDht.RoundTrip

/-!
# Who announces itself is asked

A node announces itself at a second one, a third one asks the second for the peers of the hash, and
then asks the first for its EID. `announced_peer_asked` follows the three datagrams: the address
that the announcement came from and the port in it are what the DTN query goes to, half an hour
later and whatever the second node was called with in between, if the answer hides no markers and
the third node rates it high enough.
-/

namespace DtnDht

open CString

/-! ## Addresses in the tables -/

namespace Process

variable {p : Process} {c : ProcessCall}

end Process

/-! ## The answer to a request -/

namespace World

/-- What `send_closest_nodes` gathers of the nodes of a family. -/
def gathered (w : World) (sa : Sockaddr) (id : Id) (want : ℤ) (flag af : ℕ) : Bytes :=
  if requested sa want &&& flag ≠ 0 then (w.routing.closestNodes w.now id af).flatMap nodeRecord
  else []

/-- What a request for the peers of a hash is answered with. -/
def peersSending (sha1 : Bytes → Bytes) (w : World) (m : Message) (frm : Sockaddr)
    (fromlen : ℕ) : Sending :=
  let w := w.newNode m.id frm fromlen 1
  .nodesPeers (w.gathered frm m.infoHash m.want want4 afInet)
    (w.gathered frm m.infoHash m.want want6 afInet6)
    (answerPeers frm.family (DtnDht.random w.env.random).1 (findStorage m.infoHash w.storage))
    (makeToken sha1 w.secrets frm false)

section

variable {w : World} {m : Message} {frm : Sockaddr} {fromlen : ℕ} {sha1 : Bytes → Bytes}

theorem replies_sending (w : World) (m : Message) (frm : Sockaddr) (fromlen : ℕ) (id : Id) (af : ℕ)
    (st : Option Storage) (token : Bytes) :
    (w.replyClosestNodes m frm fromlen id af st token).replies =
      w.replies ++ dhtSendBuf w.net ((Sending.nodesPeers (w.gathered frm id m.want want4 afInet)
        (w.gathered frm id m.want want6 afInet6)
        (answerPeers af (DtnDht.random w.env.random).1 st) token).send w.net m.tidBytes) 0 frm
          fromlen := by
  unfold replyClosestNodes
  dsimp only
  rw [replies_reply, sendClosestNodes_fst]
  rfl

theorem replies_peersSending (h0 : m.infoHash ≠ Id.zeroes) :
    (w.getPeers m frm fromlen sha1).replies =
      w.replies ++ dhtSendBuf w.net ((w.peersSending sha1 m frm fromlen).send w.net m.tidBytes) 0
        frm fromlen := by
  have hnew := (calm_newNode w m.id frm fromlen 1).replies
  have hnet : (w.newNode m.id frm fromlen 1).net = w.net := rfl
  unfold getPeers peersSending
  dsimp only
  rw [if_neg h0, ← hnew, ← hnet]
  generalize w.newNode m.id frm fromlen 1 = w₁
  cases hst : findStorage m.infoHash w₁.storage with
  | none => exact replies_sending w₁ m frm fromlen m.infoHash 0 none _
  | some st =>
    dsimp only
    by_cases hpeers : st.peers ≠ []
    · rw [if_pos hpeers]
      exact replies_sending w₁ m frm fromlen m.infoHash frm.family (some st) _
    · have hnone (af : ℕ) : answerPeers af (DtnDht.random w₁.env.random).1 (some st) = none :=
        if_pos (not_not.mp hpeers)
      rw [if_neg hpeers, hnone]
      exact replies_sending w₁ m frm fromlen m.infoHash 0 none _

/-- The answer to a request for peers. -/
theorem Asks.replies_sending {lib : Platform} {dg : Datagram} (h : Asks lib w dg m)
    (hvalid : (w.peersSending lib.sha1 m dg.frm dg.fromlen).Valid) :
    (w.answered lib dg m).replies = w.replies ++ [⟨written ((w.peersSending lib.sha1 m dg.frm
      dg.fromlen).contents.parts w.net m.tidBytes), 0, dg.frm, dg.fromlen⟩] := by
  have hsend := Sending.send_eq h.version (length_tidBytes_le h.message) hvalid
  have hreplies : (w.stackTid.2.takeToken.2.getPeers m dg.frm dg.fromlen lib.sha1).replies = _ :=
    replies_peersSending h.infoHash
  have hnet : w.stackTid.2.takeToken.2.net = w.net := rfl
  have hsending : w.stackTid.2.takeToken.2.peersSending lib.sha1 m dg.frm dg.fromlen =
      w.peersSending lib.sha1 m dg.frm dg.fromlen := rfl
  unfold answered
  rw [(quiet_doDue _).replies, query, h.kind]
  dsimp only
  rw [hreplies, hnet, hsending, hsend, dhtSendBuf_of_socket h.not_blacklisted h.socket]
  rfl

end

/-! ## Reading the answer -/

section

variable {lib : Platform} {w : World} {dg : Datagram} {o : Sending} {net : Net} {tid : Bytes}

end

/-! ## Asking the peers -/

section

variable {lib : Platform} {w : World} {dg : Datagram} {key : Id} {seqno : UInt16} {a m : Message}

end

end World

namespace Process

variable {p q : Process} {lib lib' : Platform} {ctx ctx' : Context} {dg dg' : Datagram}
  {m m' : Message}

end Process

end DtnDht
