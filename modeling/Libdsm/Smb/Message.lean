import Libdsm.Smb.Packets
import Libdsm.Smb.Utils

/-!
# Messages (`src/smb_message.c`)

A message is a packet, its 32-byte header followed by the payload, together with the number of
payload bytes allocated and a write cursor. A received message points into the session's packet
block: its packet is the memory from there on, so what lies behind the bytes received can be read
through it as it can be in C.

Allocation succeeds, except for a block that no heap has room for, and the sizes are computed modulo
`2^64` as `size_t` are.
-/

namespace Libdsm

/-- `smb_message`. -/
structure SmbMessage where
  payloadSize : Nat
  cursor : Nat
  packet : Mem

namespace SmbMessage

/-- `msg->packet->payload`. -/
def payload (msg : SmbMessage) : Mem := msg.packet.shift smbHeaderSize

def status (msg : SmbMessage) : UInt32 := msg.packet.u32 smbHeaderStatus
def tid (msg : SmbMessage) : UInt16 := msg.packet.u16 smbHeaderTid
def uid (msg : SmbMessage) : UInt16 := msg.packet.u16 smbHeaderUid

/-- Setting a field of the header. -/
def setHeader (msg : SmbMessage) (off : Nat) (bs : List UInt8) : SmbMessage :=
  { msg with packet := msg.packet.write off bs }

def setTid (msg : SmbMessage) (tid : UInt16) : SmbMessage := msg.setHeader smbHeaderTid (le16 tid)

/-- A write into the payload that the message is taken to have room for. -/
def poke (msg : SmbMessage) (off : Nat) (bs : List UInt8) : SmbMessage :=
  { msg with packet := msg.packet.write (smbHeaderSize + off) bs }

/-- The bytes of the message up to the cursor. -/
def bytes (msg : SmbMessage) : List UInt8 := msg.packet.read 0 (smbHeaderSize + msg.cursor)

end SmbMessage

/-- `PAYLOAD_BLOCK_SIZE`. -/
def payloadBlockSize : Nat := 256

/-- `smb_message_expand_payload`. The bytes `realloc` adds hold what the heap held. -/
def smbMessageExpandPayload (msg : SmbMessage) (cursor dataSize : Nat) : SmbMessage :=
  if dataSize = 0 ∨ sizeSub msg.payloadSize cursor < dataSize then
    let newSize := sizeSub (sizeT (dataSize + cursor)) msg.payloadSize
    let nbBlocks := newSize / payloadBlockSize + 1
    { msg with payloadSize := sizeT (msg.payloadSize + nbBlocks * payloadBlockSize) }
  else msg

/-- `smb_message_new`. -/
def smbMessageNew (P : Platform) (cmd : UInt8) : SmbMessage :=
  let msg := smbMessageExpandPayload { payloadSize := 0, cursor := 0, packet := P.heap } 0 0
  let msg := msg.setHeader 0 (List.replicate smbHeaderSize 0)
  let msg := msg.setHeader 0 smbMagic
  let msg := msg.setHeader smbHeaderCommand [cmd]
  msg.setHeader smbHeaderPid (le16 P.pid)

/-- `PTRDIFF_MAX`: `malloc` refuses a larger block. -/
def ptrdiffMax : Nat := 2 ^ 63 - 1

/-- The size of the packet that `smb_message_grow` allocates. -/
def smbMessageGrowBlock (msg : SmbMessage) (size : Nat) : Nat :=
  sizeT (smbHeaderSize + sizeT (msg.payloadSize + size))

/-- `smb_message_grow`: a copy with `size` more bytes of payload, which hold what the heap held. -/
def smbMessageGrow (P : Platform) (msg : SmbMessage) (size : Nat) : Option SmbMessage :=
  if ptrdiffMax < smbMessageGrowBlock msg size then none
  else some
    { cursor := msg.cursor
      payloadSize := sizeT (msg.payloadSize + size)
      packet := P.heap.write 0 (msg.packet.read 0 (msg.payloadSize + smbHeaderSize)) }

/-- `smb_message_append` of data that are not `NULL`. -/
def smbMessageAppend (msg : SmbMessage) (data : List UInt8) : SmbMessage :=
  let msg := smbMessageExpandPayload msg msg.cursor data.length
  { msg.poke msg.cursor data with cursor := sizeT (msg.cursor + data.length) }

/-- `smb_message_append` of the result of a conversion: one that failed is `NULL`, and then nothing
happens. -/
def smbMessageAppendUtf16 (msg : SmbMessage) (utf : List UInt8) : SmbMessage :=
  if utf = [] then msg else smbMessageAppend msg utf

/-- `smb_message_insert`. -/
def smbMessageInsert (msg : SmbMessage) (cursor : Nat) (data : List UInt8) : SmbMessage :=
  (smbMessageExpandPayload msg cursor data.length).poke cursor data

/-- `smb_message_advance`. -/
def smbMessageAdvance (msg : SmbMessage) (size : Nat) : SmbMessage :=
  let msg := smbMessageExpandPayload msg msg.cursor size
  { msg with cursor := sizeT (msg.cursor + size) }

def smbMessagePut8 (msg : SmbMessage) (data : UInt8) : SmbMessage := smbMessageAppend msg [data]
def smbMessagePut16 (msg : SmbMessage) (data : UInt16) : SmbMessage :=
  smbMessageAppend msg (le16 data)
def smbMessagePut32 (msg : SmbMessage) (data : UInt32) : SmbMessage :=
  smbMessageAppend msg (le32 data)
def smbMessagePut64 (msg : SmbMessage) (data : UInt64) : SmbMessage :=
  smbMessageAppend msg (le64 data)

/-- `smb_message_put_utf16`. -/
def smbMessagePutUtf16 (P : Platform) (msg : SmbMessage) (str : List UInt8) : SmbMessage :=
  smbMessageAppendUtf16 msg (smbToUtf16 P str)

/-- `smb_message_put_uuid`; `d` has eight bytes. -/
def smbMessagePutUuid (msg : SmbMessage) (a : UInt32) (b c : UInt16) (d : List UInt8) :
    SmbMessage :=
  d.foldl smbMessagePut8 (smbMessagePut16 (smbMessagePut16 (smbMessagePut32 msg a) b) c)

/-- `smb_message_set_andx_members`. -/
def smbMessageSetAndxMembers (msg : SmbMessage) : SmbMessage := msg.poke 1 smbAndxMembers

end Libdsm
