import Libdsm.Netbios.Proofs.Recv
import Libdsm.Netbios.Proofs.Send
import Libdsm.Smb.Proofs.Frame

/-!
# One message out, one message in

What `smb_session_send_msg` and `smb_session_recv_msg` do to the connection, on any network: a send
puts the frame of the message on the wire or fails, a receive logs one event, and a message it hands
out holds the reply of that event.
-/

namespace Libdsm

/-- What a call has added to the log is what it did. -/
theorem events_eq {P : Platform} {s : SmbSession} {op : SmbOp} {events : List NetEvent}
    (h : (op.run P s).tcp.log = s.tcp.log ++ events) : op.events P s = events := by
  rw [SmbOp.events, h, List.drop_left]

/-! ## Replies -/

/-- A field of a reply, given as the bytes received. -/
def replyU16 (reply : List UInt8) (off : Nat) : UInt16 :=
  UInt16.ofNat (leNat ((reply.drop off).take 2))

def replyU32 (reply : List UInt8) (off : Nat) : UInt32 :=
  UInt32.ofNat (leNat ((reply.drop off).take 4))

def replyU64 (reply : List UInt8) (off : Nat) : UInt64 :=
  UInt64.ofNat (leNat ((reply.drop off).take 8))

def replyStatus (reply : List UInt8) : UInt32 := replyU32 reply smbHeaderStatus
def replyTid (reply : List UInt8) : UInt16 := replyU16 reply smbHeaderTid
def replyUid (reply : List UInt8) : UInt16 := replyU16 reply smbHeaderUid

/-- A reply with these fields in its header, the others being zero. -/
def replyBytes (status : UInt32) (tid uid : UInt16) (payload : List UInt8) : List UInt8 :=
  smbMagic ++ [0] ++ le32 status ++ List.replicate 15 0 ++ le16 tid ++ [0, 0] ++ le16 uid ++ [0, 0] ++
    payload

/-- The replies of a sample conversation: to a negotiation, to a session setup of either kind, and to
a tree connect. -/
def negotiateReply (caps : UInt32) : List UInt8 :=
  replyBytes 0 0 0 ([0x11] ++ List.replicate 19 0 ++ le32 caps ++ List.replicate 21 0)

def setupReply (status : UInt32) (uid action : UInt16) : List UInt8 :=
  replyBytes status 0 uid (List.replicate 5 0 ++ le16 action ++ List.replicate 4 0)

def treeReply (tid : UInt16) : List UInt8 := replyBytes 0 tid 0 ([3] ++ List.replicate 8 0)

/-- A session connected to a server that sends these replies. -/
def connectedTo (replies : List (List UInt8)) : SmbSession :=
  SmbOp.run .ascii (smbSessionNew .ascii (.answering (negotiateReply 0 :: replies)))
    (.connect (ascii "s") (some .tcp))

/-- The message holds the reply, and the reply is more than a header. -/
structure SmbMessage.Holds (msg : SmbMessage) (reply : List UInt8) : Prop where
  length : reply.length = smbHeaderSize + msg.payloadSize
  bytes : msg.packet.read 0 reply.length = reply
  nonempty : 0 < msg.payloadSize
  cursor : msg.cursor = 0

namespace SmbMessage.Holds

variable {msg : SmbMessage} {reply : List UInt8} (h : msg.Holds reply)

include h

theorem read_eq {off k : Nat} (hoff : off + k ≤ smbHeaderSize + msg.payloadSize) :
    msg.packet.read off k = (reply.drop off).take k := by
  have hlen : off + k ≤ reply.length := by rw [h.length]; exact hoff
  rw [← Mem.read_part h.bytes hlen, Nat.zero_add]

theorem u16_eq {off : Nat} (hoff : off + 2 ≤ smbHeaderSize + msg.payloadSize) :
    msg.packet.u16 off = replyU16 reply off := by
  rw [Mem.u16, h.read_eq hoff, replyU16]

theorem payload_read : msg.payload.read 0 msg.payloadSize = reply.drop smbHeaderSize := by
  have hlen := h.length
  rw [SmbMessage.payload, Mem.read_shift, Nat.add_zero, h.read_eq (Nat.le_refl _)]
  apply List.take_of_length_le
  rw [List.length_drop]
  omega

theorem payload_read_eq {off k : Nat} (hoff : off + k ≤ msg.payloadSize) :
    msg.payload.read off k = (reply.drop (smbHeaderSize + off)).take k := by
  rw [SmbMessage.payload, Mem.read_shift, h.read_eq (by omega)]

theorem payload_eq {i : Nat} (hi : i < msg.payloadSize) :
    msg.payload i = reply.getD (smbHeaderSize + i) 0 := by
  have hlen := h.length
  have hget := Mem.read_getElem? msg.packet 0 reply.length (smbHeaderSize + i) (by omega)
  rw [h.bytes, Nat.zero_add] at hget
  rw [List.getD_eq_getElem?_getD, hget]
  rfl

theorem payload_u16_eq {off : Nat} (hoff : off + 2 ≤ msg.payloadSize) :
    msg.payload.u16 off = replyU16 reply (smbHeaderSize + off) := by
  rw [Mem.u16, h.payload_read_eq hoff, replyU16]

theorem payload_u32_eq {off : Nat} (hoff : off + 4 ≤ msg.payloadSize) :
    msg.payload.u32 off = replyU32 reply (smbHeaderSize + off) := by
  rw [Mem.u32, h.payload_read_eq hoff, replyU32]

theorem payload_u64_eq {off : Nat} (hoff : off + 8 ≤ msg.payloadSize) :
    msg.payload.u64 off = replyU64 reply (smbHeaderSize + off) := by
  rw [Mem.u64, h.payload_read_eq hoff, replyU64]

theorem status_eq : msg.status = replyStatus reply := by
  rw [SmbMessage.status, Mem.u32, h.read_eq (by simp only [smbHeaderStatus, smbHeaderSize]; omega)]
  rfl

theorem tid_eq : msg.tid = replyTid reply :=
  h.u16_eq (by simp only [smbHeaderTid, smbHeaderSize]; omega)

theorem uid_eq : msg.uid = replyUid reply :=
  h.u16_eq (by simp only [smbHeaderUid, smbHeaderSize]; omega)

end SmbMessage.Holds

/-! ## Receiving -/

/-- What a receive that hands out no message has logged. -/
def NoMessage (event : NetEvent) : Prop :=
  event = .recvFailed ∨ ∃ opcode reply, event = .received opcode reply ∧
    reply.length ≤ smbHeaderSize

/-- The session with its transport's session replaced. -/
def SmbSession.withNetbios (s : SmbSession) (nb : NetbiosSession) : SmbSession :=
  { s with transport := { s.transport with session := nb } }

@[simp] theorem withNetbios_tcp (s : SmbSession) (nb : NetbiosSession) :
    (s.withNetbios nb).tcp = nb.tcp := rfl

@[simp] theorem withNetbios_session (s : SmbSession) (nb : NetbiosSession) :
    (s.withNetbios nb).transport.session = nb := rfl

@[simp] theorem withNetbios_shares (s : SmbSession) (nb : NetbiosSession) :
    (s.withNetbios nb).shares = s.shares := rfl

/-- The message a received frame of `size` bytes gives, if it is more than a header. -/
def receivedMessage (size : Nat) (m : Mem) : Option SmbMessage :=
  if size ≤ smbHeaderSize then none
  else some { payloadSize := size - smbHeaderSize, cursor := 0, packet := m.shift netbiosHeaderSize }

theorem recvMsg_eq (s : SmbSession) :
    smbSessionRecvMsg s =
      (receivedMessage ((netbiosSessionPacketRecv s.transport.session).1.getD 0)
          (netbiosSessionPacketRecv s.transport.session).2.packet.bytes,
        s.withNetbios (netbiosSessionPacketRecv s.transport.session).2) := by
  simp only [smbSessionRecvMsg, smbSessionRecvInto, bind, StateT.bind, receivedMessage]
  generalize (netbiosSessionPacketRecv s.transport.session).1.getD 0 = size
  by_cases h : size ≤ smbHeaderSize
  · rw [if_pos (by omega), if_pos h]
    rfl
  · rw [if_neg (by omega), if_neg h, if_neg (by omega)]
    rfl

theorem receivedMessage_holds {size : Nat} {m : Mem} {msg : SmbMessage}
    (h : receivedMessage size m = some msg) : msg.Holds (m.read netbiosHeaderSize size) := by
  unfold receivedMessage at h
  split at h
  · exact absurd h (by simp)
  · rw [Option.some.injEq] at h
    subst h
    exact ⟨by simp; omega, by simp, by simp; omega, rfl⟩

/-- A receive takes bytes off the connection and logs one event, and hands out the message of that
event if it is one. -/
theorem recvMsg_tcp (s : SmbSession) :
    ∃ inbox event, (smbSessionRecvMsg s).2.tcp =
        { s.tcp with inbox, log := s.tcp.log ++ [event] } ∧
      ((smbSessionRecvMsg s).1 = none ∧ NoMessage event ∨
        ∃ msg opcode reply, (smbSessionRecvMsg s).1 = some msg ∧
          event = .received opcode reply ∧ msg.Holds reply) := by
  obtain ⟨inbox, htcp⟩ := packetRecv_tcp s.transport.session
  rw [recvMsg_eq]
  refine ⟨inbox, _, htcp, ?_⟩
  cases hsize : (netbiosSessionPacketRecv s.transport.session).1 with
  | none => exact .inl ⟨rfl, .inl rfl⟩
  | some size =>
    rw [Option.getD_some]
    cases hmsg : receivedMessage size
        (netbiosSessionPacketRecv s.transport.session).2.packet.bytes with
    | some msg => exact .inr ⟨msg, _, _, rfl, rfl, receivedMessage_holds hmsg⟩
    | none =>
      refine .inl ⟨rfl, .inr ⟨_, _, rfl, ?_⟩⟩
      unfold receivedMessage at hmsg
      split at hmsg
      · simpa using ‹size ≤ smbHeaderSize›
      · exact absurd hmsg (by simp)

/-- The reply received last. -/
def SmbSession.lastReply (s : SmbSession) : List UInt8 :=
  match s.tcp.log.getLast? with
  | some (.received _ reply) => reply
  | _ => []

/-- A message that is received holds the last reply. -/
theorem recvMsg_lastReply (s : SmbSession) {msg : SmbMessage}
    (hmsg : (smbSessionRecvMsg s).1 = some msg) :
    msg.Holds (smbSessionRecvMsg s).2.lastReply := by
  obtain ⟨inbox, event, htcp, ⟨hnone, -⟩ | ⟨msg', opcode, reply, hsome, rfl, hholds⟩⟩ :=
    recvMsg_tcp s
  · rw [hnone] at hmsg
    cases hmsg
  · obtain rfl : msg' = msg := by
      rw [hsome] at hmsg
      exact Option.some.inj hmsg
    rw [SmbSession.lastReply, htcp]
    simpa using hholds

/-- The status check, for a condition that does not depend on the status remembered. -/
theorem checkNtStatus_triple {A : SmbSession → Prop} (hA : ∀ s ntStatus, A s → A { s with ntStatus })
    (msg : SmbMessage) :
    Triple A (smbSessionCheckNtStatus msg) fun ok s =>
      (ok = true ↔ msg.status = ntStatusSuccess) ∧ A s := by
  refine .ite (fun h => ?_) fun h => ?_
  · exact .bind (.modify (Q := fun _ => A) fun s hs => hA s _ hs) fun _ =>
      .pure fun s hs => ⟨by simpa using h, hs⟩
  · exact .pure fun s hs => ⟨by simpa using h, hs⟩

/-! ## Sending -/

/-- The uid a request carries. -/
theorem requestBytes_uid (uid : UInt16) (msg : SmbMessage) :
    replyUid (smbRequestBytes uid msg) = uid := by
  rw [replyUid, replyU16, smbRequestBytes, SmbMessage.bytes,
    Mem.read_sub _ (by simp only [smbHeaderUid, smbHeaderSize]; omega)]
  exact Mem.u16_eq (Mem.read_write _ smbHeaderUid (le16 uid))

/-- The frame `smb_session_send_msg` builds for a message. -/
def SmbSession.requestFrame (s : SmbSession) (msg : SmbMessage) : List UInt8 :=
  (smbRequestPacket s.transport.session s.srv.uid msg).frame

theorem requestPacket_tcp (nb : NetbiosSession) (uid : UInt16) (msg : SmbMessage) :
    (smbRequestPacket nb uid msg).tcp = nb.tcp := by
  simp [smbRequestPacket]

theorem requestPacket_ready (nb : NetbiosSession) (uid : UInt16) (msg : SmbMessage) :
    (smbRequestPacket nb uid msg).ready = nb.ready := by
  simp [smbRequestPacket]

theorem sendMsg_eq (s : SmbSession) (msg : SmbMessage) :
    smbSessionSendMsg msg s =
      (decide ((netbiosSessionPacketSend
          (smbRequestPacket s.transport.session s.srv.uid msg)).1 ≠ 0),
        s.withNetbios (netbiosSessionPacketSend
          (smbRequestPacket s.transport.session s.srv.uid msg)).2) := by
  unfold smbSessionSendMsg
  rfl

/-- What a send does to the connection: nothing, a torn frame, or a whole one, which it reports
unless the frame has 4 GiB or more. -/
theorem sendMsg_cases (s : SmbSession) (msg : SmbMessage) :
    ((smbSessionSendMsg msg s).1 = false ∧ (smbSessionSendMsg msg s).2.tcp = s.tcp ∧
      s.transport.session.ready = false) ∨
    ((smbSessionSendMsg msg s).1 = false ∧
      (smbSessionSendMsg msg s).2.tcp = s.tcp.torn (s.requestFrame msg) ∧
      s.tcp.sends.headD 0 < (s.requestFrame msg).length ∧
      s.transport.session.ready = true) ∨
    ((smbSessionSendMsg msg s).2.transport.session =
        (smbRequestPacket s.transport.session s.srv.uid msg).afterSend
          (s.tcp.delivered (s.requestFrame msg)) ∧
      s.transport.session.ready = true ∧
      (s.requestFrame msg).length ≤ s.tcp.sends.headD 0 ∧
      ((s.requestFrame msg).length < 2 ^ 32 → (smbSessionSendMsg msg s).1 = true)) := by
  have htcp : _ = s.tcp := requestPacket_tcp s.transport.session s.srv.uid msg
  have hready := requestPacket_ready s.transport.session s.srv.uid msg
  rw [sendMsg_eq, SmbSession.requestFrame, withNetbios_tcp, withNetbios_session, ← htcp, ← hready]
  generalize smbRequestPacket s.transport.session s.srv.uid msg = nb
  rcases packetSend_cases nb with ⟨h, hr⟩ | ⟨h, hr, hshort⟩ | ⟨h, hr, hfull, hlt⟩
  · exact .inl ⟨by rw [h]; simp, by rw [h], hr⟩
  · exact .inr (.inl ⟨by rw [h]; simp, by rw [h]; rfl, hshort, hr⟩)
  · exact .inr (.inr ⟨h, hr, hfull, fun hl => decide_eq_true (hlt hl)⟩)

/-- The reply that an event shows being received. -/
def NetEvent.reply : NetEvent → Option (List UInt8)
  | .received _ reply => some reply
  | _ => none

/-- The frame that an event shows being offered to the socket. -/
def NetEvent.offered : NetEvent → Option (List UInt8)
  | .sent frame | .sendFailed frame _ => some frame
  | _ => none

/-- The frames a call has offered to the socket. -/
def SmbOp.offered (P : Platform) (s : SmbSession) (op : SmbOp) : List (List UInt8) :=
  (op.events P s).filterMap NetEvent.offered

/-- A send offers the frame of the message to the socket of a session that is connected, and logs
no reply. -/
theorem sendMsg_offered (s : SmbSession) (msg : SmbMessage) :
    ∃ events, (smbSessionSendMsg msg s).2.tcp.log = s.tcp.log ++ events ∧
      (∀ opcode reply, .received opcode reply ∉ events) ∧
      events.filterMap NetEvent.offered =
        if s.transport.session.ready then [s.requestFrame msg] else [] := by
  obtain ⟨-, htcp, hready⟩ | ⟨-, htcp, -, hready⟩ | ⟨hsession, hready, -⟩ := sendMsg_cases s msg
  · exact ⟨[], by rw [htcp, List.append_nil], by simp, by rw [hready]; rfl⟩
  · exact ⟨_, by rw [htcp, Tcp.torn], by simp, by rw [hready]; rfl⟩
  · have htcp : (smbSessionSendMsg msg s).2.tcp = s.tcp.delivered (s.requestFrame msg) := by
      rw [SmbSession.tcp, hsession, NetbiosSession.afterSend]
    exact ⟨_, by rw [htcp, Tcp.delivered], by simp, by rw [hready]; rfl⟩

/-- A send logs no reply. -/
theorem sendMsg_log (s : SmbSession) (msg : SmbMessage) :
    ∃ events, (smbSessionSendMsg msg s).2.tcp.log = s.tcp.log ++ events ∧
      ∀ opcode reply, .received opcode reply ∉ events := by
  obtain ⟨events, hlog, hsilent, -⟩ := sendMsg_offered s msg
  exact ⟨events, hlog, hsilent⟩

/-! ## The connection stays up -/

theorem sendMsg_ready (s : SmbSession) (msg : SmbMessage) :
    (smbSessionSendMsg msg s).2.transport.session.ready = s.transport.session.ready := by
  rw [sendMsg_eq, withNetbios_session, packetSend_ready, requestPacket_ready]

/-- Only connecting opens or closes the socket. -/
theorem ready_framed : Framed fun s => s.transport.session.ready where
  send msg s := sendMsg_ready s msg
  recv _ s := packetRecv_ready s.transport.session
  ntStatus _ _ := rfl
  creds _ _ := rfl
  srv _ _ _ := rfl
  fileAdd _ _ _ := rfl
  fileRemove s fd := by
    obtain ⟨shares, h⟩ := fileRemove_eq s fd
    rw [h]
  fileUpdate _ _ _ := rfl

end Libdsm
