import Libdsm.Smb.Types

/-!
# Sending and receiving messages (`src/smb_session_msg.c`)
-/

namespace Libdsm

/-- The bytes `smb_session_send_msg` hands to the transport, the session's fields of the header
filled in. -/
def smbRequestBytes (uid : UInt16) (msg : SmbMessage) : List UInt8 :=
  let msg := msg.setHeader smbHeaderFlags [0x18]
  let msg := msg.setHeader smbHeaderFlags2 (le16 0xc843)
  let msg := msg.setHeader smbHeaderUid (le16 uid)
  msg.bytes

/-- The session with its packet block holding the frame of a request. -/
def smbRequestPacket (s : NetbiosSession) (uid : UInt16) (msg : SmbMessage) : NetbiosSession :=
  netbiosSessionPacketAppend (netbiosSessionPacketInit s) (smbRequestBytes uid msg)

/-- `smb_session_send_msg`. -/
def smbSessionSendMsg (msg : SmbMessage) : SmbM Bool := fun s =>
  let r := netbiosSessionPacketSend (smbRequestPacket s.transport.session s.srv.uid msg)
  (r.1 ≠ 0, { s with transport := { s.transport with session := r.2 } })

/-- `smb_session_recv_msg(s, &msg)`: the value returned and what `msg` then holds. A call that
fails leaves `msg` alone, which keeps pointing into the packet block. -/
def smbSessionRecvInto (msg : SmbMessage) : SmbM (Nat × SmbMessage) := fun s =>
  let r := netbiosSessionPacketRecv s.transport.session
  let packet := r.2.packet.bytes.shift netbiosHeaderSize
  let size := r.1.getD 0
  let msg : SmbMessage :=
    if size < smbHeaderSize then { msg with packet }
    else { payloadSize := size - smbHeaderSize, cursor := 0, packet }
  ((size - smbHeaderSize, msg), { s with transport := { s.transport with session := r.2 } })

/-- `smb_session_recv_msg` as most callers use it, giving up when it returns `0`. -/
def smbSessionRecvMsg : SmbM (Option SmbMessage) := do
  let (size, msg) ← smbSessionRecvInto { payloadSize := 0, cursor := 0, packet := fun _ => 0 }
  if size = 0 then return none
  return some msg

/-- `smb_session_check_nt_status`. -/
def smbSessionCheckNtStatus (msg : SmbMessage) : SmbM Bool := do
  if msg.status ≠ ntStatusSuccess then
    modify fun s => { s with ntStatus := msg.status }
    return false
  return true

end Libdsm
