import Libdsm.Misc.Chunks
import Libdsm.Misc.Endian
import Libdsm.Netbios.Utils

/-!
# NetBIOS sessions (`src/netbios_session.c`)

A session owns one block of memory, `packet`, in which it builds the frame to send and into which
it receives the next one. The socket and the peer behind it are the record `Tcp`: what the coming
calls of `connect`, `send` and `recv` will do is fixed in it in advance, and what they did is
logged, so that a statement over every `Tcp` is a statement over every behaviour of the network.

Allocation succeeds throughout. A `size_t` is a natural number, and the sums and differences the
code computes are taken modulo `2^64`.
-/

namespace Libdsm

/-! ## The socket -/

/-- What one `recv` call gets; `[]` is a call that fails or finds the stream closed. -/
abbrev Chunk := List UInt8

/-- What happened on the connection, in order. -/
inductive NetEvent where
  | connected
  | connectFailed
  /-- A frame the socket accepted in full. -/
  | sent (frame : List UInt8)
  /-- A frame of which the socket accepted only the first `accepted` bytes. -/
  | sendFailed (frame : List UInt8) (accepted : Nat)
  | received (opcode : UInt8) (payload : List UInt8)
  | recvFailed
  deriving DecidableEq, Repr

/-- The kernel's end of the connection and the peer behind it. -/
structure Tcp where
  /-- The coming connection attempts: `none` fails, `some` gives the first bytes of the peer. -/
  connects : List (Option (List Chunk))
  /-- How many bytes the coming `send` calls accept at most. -/
  sends : List Nat
  /-- What the peer sends once the `k`-th frame has reached it in full. -/
  server : Nat → List UInt8 → List Chunk
  /-- The number of frames that have reached the peer in full. -/
  served : Nat
  /-- What the coming `recv` calls on this connection get. -/
  inbox : List Chunk
  /-- The bytes accepted since the connection was made. -/
  wire : List UInt8
  log : List NetEvent

namespace Tcp

/-- A peer that answers nothing, with `inbox` already on its way. -/
def silent (sends : List Nat) (inbox : List Chunk) : Tcp where
  connects := []
  sends := sends
  server := fun _ _ => []
  served := 0
  inbox := inbox
  wire := []
  log := []

/-- `connect`, after the `select` loop that waits for it. -/
def connect (t : Tcp) : Bool × Tcp :=
  match t.connects with
  | some inbox :: rest =>
    (true, { t with connects := rest, inbox, wire := [], log := t.log ++ [.connected] })
  | none :: rest =>
    (false, { t with connects := rest, inbox := [], log := t.log ++ [.connectFailed] })
  | [] => (false, { t with inbox := [], log := t.log ++ [.connectFailed] })

/-- `closesocket`: what the peer has sent and nobody has read is gone. -/
def close (t : Tcp) : Tcp := { t with inbox := [] }

/-- `send` of a frame, with the `select` before it: a `select` that fails or an abort accepts
nothing. The result is the number of bytes accepted. Behind a part of a frame the peer takes the next
frame for its rest, and an answer that `server` gives there is one to bytes that are no frame. -/
def send (t : Tcp) (frame : List UInt8) : Nat × Tcp :=
  let accepted := min (t.sends.headD 0) frame.length
  let t := { t with sends := t.sends.tail, wire := t.wire ++ frame.take accepted }
  if accepted = frame.length then
    (accepted, { t with
      served := t.served + 1
      inbox := t.inbox ++ t.server t.served frame
      log := t.log ++ [.sent frame] })
  else (accepted, { t with log := t.log ++ [.sendFailed frame accepted] })

end Tcp

/-! ## The packet block -/

/-- A heap block of `size` bytes. `overrun` records that a byte was written outside it; such a
byte lands in the memory after the block. -/
structure Block where
  bytes : Mem
  size : Nat
  overrun : Bool

/-- A write through the block's pointer. -/
def Block.write (b : Block) (off : Nat) (bs : List UInt8) : Block :=
  { b with
    bytes := b.bytes.write off bs
    overrun := b.overrun || (!bs.isEmpty && decide (b.size < off + bs.length)) }

/-- The session states of `netbios_session.h`. -/
inductive NetbiosSessionState where
  | new
  | connecting
  | connected
  | error
  | refused
  deriving DecidableEq, Repr

/-- `s->state > 0`. -/
def NetbiosSessionState.active : NetbiosSessionState → Bool
  | .connecting | .connected => true
  | .new | .error | .refused => false

/-- `netbios_session`. The socket number is only ever compared with `-1`. -/
structure NetbiosSession where
  socketOpen : Bool
  state : NetbiosSessionState
  packetPayloadSize : Nat
  packetCursor : Nat
  packet : Block
  tcp : Tcp

/-- `sizeof(netbios_session_packet)`. -/
def netbiosHeaderSize : Nat := 4

def netbiosOpSessionMsg : UInt8 := 0x00
def netbiosOpSessionReq : UInt8 := 0x81
def netbiosOpSessionReqOk : UInt8 := 0x82
def netbiosOpSessionKeepalive : UInt8 := 0x85

/-- `(size_t)n`. -/
def sizeT (n : Nat) : Nat := n % 2 ^ 64

/-- `a - b` on `size_t`. -/
def sizeSub (a b : Nat) : Nat := sizeT (a + 2 ^ 64 - b)

/-- `session_buffer_realloc`: from here on `packet_payload_size` is the size of the whole block. -/
def sessionBufferRealloc (s : NetbiosSession) (newSize : Nat) : NetbiosSession :=
  { s with packetPayloadSize := newSize, packet := { s.packet with size := newSize } }

/-- `netbios_session_new`, the fresh block holding whatever the heap held. -/
def netbiosSessionNew (heap : Mem) (tcp : Tcp) (bufSize : Nat) : NetbiosSession where
  socketOpen := false
  state := .new
  packetPayloadSize := bufSize
  packetCursor := 0
  packet := { bytes := heap, size := sizeT (netbiosHeaderSize + bufSize), overrun := false }
  tcp := tcp

/-- A fresh session once its socket is connected. -/
def netbiosSessionOn (heap : Mem) (tcp : Tcp) (bufSize : Nat) : NetbiosSession :=
  { netbiosSessionNew heap tcp bufSize with socketOpen := true, state := .connected }

def netbiosSessionDisconnect (s : NetbiosSession) : NetbiosSession :=
  if s.socketOpen then { s with socketOpen := false, tcp := s.tcp.close } else s

/-- The assertions of the send and receive paths. A call that breaks them stops the program; here
it fails without touching the socket. -/
def NetbiosSession.ready (s : NetbiosSession) : Bool := s.socketOpen && s.state.active

/-! ## Sending -/

/-- `netbios_session_packet_init`. -/
def netbiosSessionPacketInit (s : NetbiosSession) : NetbiosSession :=
  { s with
    packetCursor := 0
    packet := (s.packet.write 1 [0]).write 0 [netbiosOpSessionMsg] }

/-- `netbios_session_packet_append`, which grows the block when the data do not fit what is left
of `packet_payload_size`. -/
def netbiosSessionPacketAppend (s : NetbiosSession) (data : List UInt8) : NetbiosSession :=
  let s :=
    if sizeSub s.packetPayloadSize s.packetCursor < data.length then
      sessionBufferRealloc s (sizeT (data.length + s.packetCursor + netbiosHeaderSize))
    else s
  { s with
    packet := s.packet.write (netbiosHeaderSize + s.packetCursor) data
    packetCursor := sizeT (s.packetCursor + data.length) }

/-- `htons`, as the two bytes it leaves in memory. -/
def htons (n : Nat) : List UInt8 := [UInt8.ofNat (n / 256), UInt8.ofNat n]

/-- The bytes `netbios_session_packet_send` hands to the socket, `length` set. -/
def NetbiosSession.frame (s : NetbiosSession) : List UInt8 :=
  (s.packet.bytes.write 2 (htons s.packetCursor)).read 0 (netbiosHeaderSize + s.packetCursor)

/-- `netbios_session_packet_send`: one `send` of the whole frame; anything short of it is `0`. -/
def netbiosSessionPacketSend (s : NetbiosSession) : Int × NetbiosSession :=
  if s.ready then
    let toSend := netbiosHeaderSize + s.packetCursor
    let r := s.tcp.send s.frame
    let s := { s with packet := s.packet.write 2 (htons s.packetCursor), tcp := r.2 }
    -- the `ssize_t` is returned as an `int`
    if r.1 = toSend then ((toSend : Int).bmod (2 ^ 32), s) else (0, s)
  else (0, s)

/-! ## Receiving -/

/-- `netbios_session_recv` into the block at `off`; a result that is not positive is `0`. -/
def netbiosSessionRecv (s : NetbiosSession) (off len : Nat) : Nat × NetbiosSession :=
  let r := Chunks.recv len s.tcp.inbox
  (r.1.length, { s with packet := s.packet.write off r.1, tcp := { s.tcp with inbox := r.2 } })

/-- The loop `while (sofar < total)`, with `off` the place of the next byte and `need` the bytes
still missing. Each turn receives at least one byte, so `need` turns are enough. -/
def netbiosSessionRecvLoop : Nat → NetbiosSession → Nat → Nat → Bool × NetbiosSession
  | _, s, _, 0 => (true, s)
  | 0, s, _, _ + 1 => (false, s)
  | fuel + 1, s, off, need + 1 =>
    let r := netbiosSessionRecv s off (need + 1)
    if r.1 = 0 then (false, r.2)
    else netbiosSessionRecvLoop fuel r.2 (off + r.1) (need + 1 - r.1)

/-- The payload length a frame header announces: `ntohs(length) | (flags & 1) << 16`. -/
def frameTotal (m : Mem) : Nat :=
  ((m 2).toNat * 256 + (m 3).toNat) ||| (((m 1).toNat &&& 1) <<< 16)

/-- The growth test of `netbios_session_get_next_packet`, for a payload of `total` bytes. -/
def netbiosSessionReserve (s : NetbiosSession) (total : Nat) : NetbiosSession :=
  if s.packetPayloadSize < total + netbiosHeaderSize then
    sessionBufferRealloc s (total + netbiosHeaderSize)
  else s

/-- `netbios_session_get_next_packet`: the header first, then exactly the payload it announces.
The loop never takes more than it asked for, so the test `sofar > total` after it cannot fire. -/
def netbiosSessionGetNextPacket (s : NetbiosSession) : Option Nat × NetbiosSession :=
  if s.ready then
    let r := netbiosSessionRecvLoop netbiosHeaderSize s 0 netbiosHeaderSize
    if r.1 then
      let total := frameTotal r.2.packet.bytes
      let s := netbiosSessionReserve r.2 total
      let r := netbiosSessionRecvLoop total s netbiosHeaderSize total
      if r.1 then (some total, r.2) else (none, r.2)
    else (none, r.2)
  else (none, s)

/-- The loop of `netbios_session_packet_recv` that skips keepalives. A frame takes four bytes of
the stream at least, so the bytes of the stream bound its turns. -/
def netbiosSessionRecvPackets : Nat → NetbiosSession → Option Nat × NetbiosSession
  | 0, s => (none, s)
  | fuel + 1, s =>
    match netbiosSessionGetNextPacket s with
    | (none, s) => (none, s)
    | (some size, s) =>
      if s.packet.bytes 0 = netbiosOpSessionKeepalive then netbiosSessionRecvPackets fuel s
      else (some size, s)

/-- The session with an event added to its log. -/
def NetbiosSession.note (s : NetbiosSession) (event : NetEvent) : NetbiosSession :=
  { s with tcp := { s.tcp with log := s.tcp.log ++ [event] } }

/-- `netbios_session_packet_recv`. `none` is `-1`; the payload stays in the block. -/
def netbiosSessionPacketRecv (s : NetbiosSession) : Option Nat × NetbiosSession :=
  match netbiosSessionRecvPackets (s.tcp.inbox.flatten.length + 1) s with
  | (none, s) => (none, s.note .recvFailed)
  | (some size, s) =>
    let payload := s.packet.bytes.read netbiosHeaderSize size
    (some size, s.note (.received (s.packet.bytes 0) payload))

/-! ## Connecting -/

/-- The name types of the session request. -/
def netbiosWorkstation : UInt8 := 0x00
def netbiosFileserver : UInt8 := 0x20

/-- `open_socket_and_connect`, tried on `ports` ports until one answers. -/
def openSocketAndConnect : Nat → NetbiosSession → Bool × NetbiosSession
  | 0, s => (false, s)
  | ports + 1, s =>
    let r := s.tcp.connect
    let s := { s with socketOpen := true, tcp := r.2 }
    if r.1 then (true, s) else openSocketAndConnect ports s

/-- The session request of NetBIOS over TCP: the called and the calling name. -/
def netbiosSessionRequest (s : NetbiosSession) (name : List UInt8) : NetbiosSession :=
  let s := netbiosSessionPacketInit s
  let s := { s with packet := s.packet.write 0 [netbiosOpSessionReq] }
  let s := netbiosSessionPacketAppend s (cString (netbiosNameEncode name netbiosFileserver))
  netbiosSessionPacketAppend s (cString (netbiosNameEncode (ascii "LIBDSM") netbiosWorkstation))

/-- `netbios_session_connect`. Direct TCP tries ports 445 and 139 and is connected at once; over
NetBIOS the peer has to accept the session request first. -/
def netbiosSessionConnect (s : NetbiosSession) (name : List UInt8) (directTcp : Bool) :
    Bool × NetbiosSession :=
  let r := openSocketAndConnect (if directTcp then 2 else 1) s
  if !r.1 then (false, { r.2 with state := .error })
  else if directTcp then (true, { r.2 with state := .connected })
  else
    let s := { netbiosSessionRequest r.2 name with state := .connecting }
    let sent := netbiosSessionPacketSend s
    if sent.1 = 0 then (false, { sent.2 with state := .error })
    else
      let reply := netbiosSessionPacketRecv sent.2
      match reply.1 with
      | none => (false, { reply.2 with state := .error })
      | some _ =>
        if reply.2.packet.bytes 0 = netbiosOpSessionReqOk then
          (true, { reply.2 with state := .connected })
        else (false, { reply.2 with state := .refused })

/-- A peer that accepts one connection and answers the `k`-th frame with the `k`-th reply, in one
chunk. -/
def Tcp.answering (replies : List (List UInt8)) : Tcp where
  connects := [some []]
  sends := replies.map fun _ => 65539
  server := fun k _ => (replies[k]?).toList.map fun reply => [0, 0] ++ htons reply.length ++ reply
  served := 0
  inbox := []
  wire := []
  log := []

end Libdsm
