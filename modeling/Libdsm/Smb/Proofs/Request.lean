import Libdsm.Smb.Proofs.Message
import Libdsm.Smb.Proofs.Wire

/-!
# What a request carries

A request is put together by `smb_message_new`, the tid of its header and a list of appended pieces.
`Carries` follows these steps; at the end the frame offered to the socket holds the command, the tid
and the pieces, one after the other.
-/

namespace Libdsm

/-! ## The message of a frame -/

/-- The message inside a frame. -/
def frameMessage (frame : List UInt8) : List UInt8 := frame.drop netbiosHeaderSize

/-- The command of a message. -/
def requestCommand (request : List UInt8) : UInt8 := request.getD smbHeaderCommand 0

theorem requestFrame_message (s : SmbSession) (msg : SmbMessage)
    (hlt : (smbRequestBytes s.srv.uid msg).length < 65536) :
    frameMessage (s.requestFrame msg) = smbRequestBytes s.srv.uid msg := by
  obtain ⟨f, -, hpayload, hframe⟩ := requestFrame_eq s msg hlt
  rw [hframe, ← hpayload]
  rfl

/-! ## Commands

Nothing that puts a message together touches its command. -/

theorem setHeader_before {msg : SmbMessage} {off i : Nat} (h : i < off) (bs : List UInt8) :
    (msg.setHeader off bs).packet i = msg.packet i :=
  Mem.write_of_lt msg.packet bs h

/-- The command in the header of a message. -/
def SmbMessage.command (msg : SmbMessage) : UInt8 := msg.packet smbHeaderCommand

@[simp] theorem command_new (P : Platform) (cmd : UInt8) : (smbMessageNew P cmd).command = cmd := by
  have hpid : smbHeaderCommand < smbHeaderPid := by decide
  rw [smbMessageNew, SmbMessage.command, setHeader_before hpid]
  rfl

@[simp] theorem command_setTid (msg : SmbMessage) (tid : UInt16) :
    (msg.setTid tid).command = msg.command :=
  setHeader_before (show smbHeaderCommand < smbHeaderTid by decide) _

@[simp] theorem command_setFlags2 (msg : SmbMessage) (bs : List UInt8) :
    (msg.setHeader smbHeaderFlags2 bs).command = msg.command :=
  setHeader_before (show smbHeaderCommand < smbHeaderFlags2 by decide) _

@[simp] theorem command_poke (msg : SmbMessage) (off : Nat) (bs : List UInt8) :
    (msg.poke off bs).command = msg.command := by
  have hlt : smbHeaderCommand < smbHeaderSize := by decide
  exact Mem.write_of_lt msg.packet _ (by omega)

@[simp] theorem command_expandPayload (msg : SmbMessage) (cursor dataSize : Nat) :
    (smbMessageExpandPayload msg cursor dataSize).command = msg.command := by
  rw [SmbMessage.command, expandPayload_packet, SmbMessage.command]

@[simp] theorem command_append (msg : SmbMessage) (data : List UInt8) :
    (smbMessageAppend msg data).command = msg.command :=
  (command_poke _ _ _).trans (command_expandPayload _ _ _)

@[simp] theorem command_appendUtf16 (msg : SmbMessage) (utf : List UInt8) :
    (smbMessageAppendUtf16 msg utf).command = msg.command := by
  unfold smbMessageAppendUtf16
  split
  · rfl
  · exact command_append _ _

@[simp] theorem command_insert (msg : SmbMessage) (cursor : Nat) (data : List UInt8) :
    (smbMessageInsert msg cursor data).command = msg.command :=
  (command_poke _ _ _).trans (command_expandPayload _ _ _)

@[simp] theorem command_advance (msg : SmbMessage) (size : Nat) :
    (smbMessageAdvance msg size).command = msg.command :=
  command_expandPayload _ _ _

theorem command_foldl {α : Type} {f : SmbMessage → α → SmbMessage}
    (hf : ∀ msg a, (f msg a).command = msg.command) (l : List α) (msg : SmbMessage) :
    (l.foldl f msg).command = msg.command := by
  induction l generalizing msg with
  | nil => rfl
  | cons a l ih => exact (ih (f msg a)).trans (hf msg a)

@[simp] theorem command_put8 (msg : SmbMessage) (data : UInt8) :
    (smbMessagePut8 msg data).command = msg.command := command_append _ _

@[simp] theorem command_put16 (msg : SmbMessage) (data : UInt16) :
    (smbMessagePut16 msg data).command = msg.command := command_append _ _

@[simp] theorem command_put32 (msg : SmbMessage) (data : UInt32) :
    (smbMessagePut32 msg data).command = msg.command := command_append _ _

@[simp] theorem command_putUtf16 (P : Platform) (msg : SmbMessage) (str : List UInt8) :
    (smbMessagePutUtf16 P msg str).command = msg.command := command_appendUtf16 _ _

@[simp] theorem command_puts (msg : SmbMessage) (puts : List (List UInt8)) :
    (smbMessagePuts msg puts).command = msg.command := command_foldl command_append _ _

@[simp] theorem command_putUuid (msg : SmbMessage) (a : UInt32) (b c : UInt16) (d : List UInt8) :
    (smbMessagePutUuid msg a b c d).command = msg.command := by
  rw [smbMessagePutUuid, command_foldl command_put8]
  simp

/-- The command as the server finds it, in a frame that is long enough to have one. -/
theorem requestFrame_command (s : SmbSession) (msg : SmbMessage) :
    requestCommand (frameMessage (s.requestFrame msg)) = msg.command ∨
      requestCommand (frameMessage (s.requestFrame msg)) = 0 := by
  let data := smbRequestBytes s.srv.uid msg
  let nb := smbRequestPacket s.transport.session s.srv.uid msg
  have hdata : data[smbHeaderCommand]? = some msg.command := by
    have hsize : smbHeaderCommand < smbHeaderSize + msg.cursor := by
      simp only [smbHeaderCommand, smbHeaderSize]
      omega
    have huid : smbHeaderCommand < smbHeaderUid := by decide
    have hflags2 : smbHeaderCommand < smbHeaderFlags2 := by decide
    have hflags : smbHeaderCommand < smbHeaderFlags := by decide
    show (Mem.read _ 0 (smbHeaderSize + msg.cursor))[smbHeaderCommand]? = _
    rw [Mem.read_getElem? _ _ _ _ hsize, Nat.zero_add, setHeader_before huid,
      setHeader_before hflags2, setHeader_before hflags]
    rfl
  have hbyte : nb.packet.bytes (netbiosHeaderSize + smbHeaderCommand) = msg.command := by
    obtain ⟨hlt, hget⟩ := List.getElem?_eq_some_iff.mp hdata
    have hbytes : nb.packet.bytes = (netbiosSessionPacketInit s.transport.session).packet.bytes.write
        netbiosHeaderSize data := packetAppend_bytes _ _
    rw [hbytes, Mem.write_inside _ _ _ _ hlt, hget]
  -- the frame has that byte unless it ends before it
  have hframe : frameMessage (s.requestFrame msg) =
      nb.packet.bytes.read netbiosHeaderSize nb.packetCursor := by
    show (Mem.read _ 0 (netbiosHeaderSize + nb.packetCursor)).drop netbiosHeaderSize = _
    rw [Mem.read_add, List.drop_left' (Mem.read_length ..), Nat.zero_add,
      Mem.read_write_disjoint _ _ (.inr (by simp [netbiosHeaderSize]))]
  rw [requestCommand, hframe, List.getD_eq_getElem?_getD]
  by_cases hlt : smbHeaderCommand < nb.packetCursor
  · left
    rw [Mem.read_getElem? _ _ _ _ hlt, Option.getD_some, hbyte]
  · right
    rw [List.getElem?_eq_none (by simpa using hlt), Option.getD_none]

/-! ## Headers -/

theorem requestBytes_length (uid : UInt16) (msg : SmbMessage) :
    (smbRequestBytes uid msg).length = smbHeaderSize + msg.cursor := by
  rw [smbRequestBytes, SmbMessage.bytes, Mem.read_length]
  rfl

/-- The bytes that `smb_session_send_msg` leaves alone. -/
theorem requestBytes_read (uid : UInt16) (msg : SmbMessage) (off k : Nat)
    (hoff : off + k ≤ smbHeaderSize + msg.cursor)
    (hfree : off + k ≤ smbHeaderFlags ∨
      smbHeaderFlags2 + 2 ≤ off ∧ (off + k ≤ smbHeaderUid ∨ smbHeaderUid + 2 ≤ off)) :
    ((smbRequestBytes uid msg).drop off).take k = msg.packet.read off k := by
  let packet := ((msg.packet.write smbHeaderFlags [0x18]).write smbHeaderFlags2 (le16 0xc843)).write
    smbHeaderUid (le16 uid)
  have hsub : ((packet.read 0 (smbHeaderSize + msg.cursor)).drop off).take k =
      packet.read (0 + off) k := Mem.read_sub packet hoff
  rw [Nat.zero_add] at hsub
  simp only [smbHeaderFlags, smbHeaderFlags2, smbHeaderUid] at hfree
  refine hsub.trans ?_
  rw [Mem.read_write_disjoint _ _ (by simp [smbHeaderUid]; omega),
    Mem.read_write_disjoint _ _ (by simp [smbHeaderFlags2]; omega),
    Mem.read_write_disjoint _ _ (by simp [smbHeaderFlags]; omega)]

/-- A message without skipped bytes holds the list it stands for. -/
theorem Builds.read_eq {msg : SmbMessage} {content : List UInt8}
    (h : Builds msg (content.map some)) : msg.packet.read smbHeaderSize msg.cursor = content := by
  have hcursor : msg.cursor = content.length := by simpa using h.cursor
  apply List.ext_getElem
  · rw [Mem.read_length, hcursor]
  · intro i hi hi'
    have hbyte := h.bytes i content[i] (by simp [hi'])
    simpa [Mem.read, SmbMessage.payload] using hbyte

/-- The message of a command for a tree, with these bytes appended. -/
structure Carries (msg : SmbMessage) (cmd : UInt8) (tid : UInt16) (content : List UInt8) : Prop where
  command : msg.packet smbHeaderCommand = cmd
  tid : msg.tid = tid
  builds : Builds msg (content.map some)

namespace Carries

/-- A new message with its tid set. -/
theorem new (P : Platform) (cmd : UInt8) (tid : UInt16) :
    Carries ((smbMessageNew P cmd).setTid tid) cmd tid [] := by
  have hbuilds := Builds.new P cmd
  refine ⟨?_, Mem.u16_eq (Mem.read_write _ smbHeaderTid (le16 tid)), ?_⟩
  · exact (command_setTid _ _).trans (command_new P cmd)
  · exact ⟨hbuilds.cursor, hbuilds.room, hbuilds.slack, fun i b h => by simp at h⟩

variable {msg : SmbMessage} {cmd : UInt8} {tid : UInt16} {content : List UInt8}
variable (h : Carries msg cmd tid content)

include h

theorem append (data : List UInt8) (hlen : content.length + data.length < 2 ^ 63) :
    Carries (smbMessageAppend msg data) cmd tid (content ++ data) := by
  have hpacket : (smbMessageAppend msg data).packet =
      msg.packet.write (smbHeaderSize + msg.cursor) data := by
    rw [smbMessageAppend, SmbMessage.poke, expandPayload_packet, expandPayload_cursor]
  refine ⟨?_, ?_, ?_⟩
  · exact (command_append _ _).trans h.command
  · rw [← h.tid, SmbMessage.tid, hpacket]
    apply Mem.u16_congr
    exact Mem.read_write_disjoint _ _ (by simp only [smbHeaderTid, smbHeaderSize]; omega)
  · rw [List.map_append]
    exact h.builds.append data (by simpa using hlen)

/-- The frame of the message, on any session. -/
theorem frame (s : SmbSession) (hlen : smbHeaderSize + content.length < 65536) :
    requestCommand (frameMessage (s.requestFrame msg)) = cmd ∧
      replyTid (frameMessage (s.requestFrame msg)) = tid ∧
      (frameMessage (s.requestFrame msg)).drop smbHeaderSize = content := by
  have hcursor : msg.cursor = content.length := by simpa using h.builds.cursor
  have hlength := requestBytes_length s.srv.uid msg
  rw [requestFrame_message s msg (by rw [hlength, hcursor]; exact hlen)]
  refine ⟨?_, ?_, ?_⟩
  · have hread := requestBytes_read s.srv.uid msg smbHeaderCommand 1
      (by simp only [smbHeaderCommand, smbHeaderSize]; omega) (.inl (by decide))
    have hbyte := congrArg (·[0]?) hread
    rw [List.getElem?_take_of_succ, List.getElem?_drop, Mem.read_getElem? _ _ _ _ (by decide)] at hbyte
    rw [requestCommand, List.getD_eq_getElem?_getD, ← h.command]
    exact congrArg (·.getD 0) hbyte
  · rw [← h.tid, replyTid, replyU16, requestBytes_read, SmbMessage.tid, Mem.u16]
    all_goals simp [smbHeaderTid, smbHeaderSize, smbHeaderFlags, smbHeaderFlags2, smbHeaderUid]
    omega
  · have hread := requestBytes_read s.srv.uid msg smbHeaderSize msg.cursor
      (Nat.le_refl _) (.inr ⟨by decide, .inr (by decide)⟩)
    rw [List.take_of_length_le (by rw [List.length_drop, hlength]; omega)] at hread
    rw [hread]
    exact h.builds.read_eq

end Carries

/-! ## Fields of the content -/

/-- A field of the front is one of the whole. -/
theorem field_append {front : List UInt8} {off k : Nat} (h : off + k ≤ front.length)
    (rest : List UInt8) : ((front ++ rest).drop off).take k = (front.drop off).take k := by
  rw [List.drop_append_of_le_length (by omega),
    List.take_append_of_le_length (by rw [List.length_drop]; omega)]

/-- A field behind the header is one of the content. -/
theorem replyU16_payload (request : List UInt8) (off : Nat) {x : UInt16}
    (h : ((request.drop smbHeaderSize).drop off).take 2 = le16 x) :
    replyU16 request (smbHeaderSize + off) = x := by
  have hx : x.toNat % 256 ^ 2 = x.toNat := Nat.mod_eq_of_lt x.toNat_lt
  rw [List.drop_drop] at h
  rw [replyU16, h, le16, leNat_leBytes, hx, UInt16.ofNat_toNat]

theorem replyU32_payload (request : List UInt8) (off : Nat) {x : UInt32}
    (h : ((request.drop smbHeaderSize).drop off).take 4 = le32 x) :
    replyU32 request (smbHeaderSize + off) = x := by
  have hx : x.toNat % 256 ^ 4 = x.toNat := Nat.mod_eq_of_lt x.toNat_lt
  rw [List.drop_drop] at h
  rw [replyU32, h, le32, leNat_leBytes, hx, UInt32.ofNat_toNat]

end Libdsm
