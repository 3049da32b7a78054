import Libdsm.Netbios.Proofs.Recv
import Libdsm.Netbios.Proofs.Send

/-!
# Framing round trip

What `netbios_session_packet_send` puts on the wire, decoded by the receive path. The sender
writes the cursor into the 16-bit length field and leaves `flags` at zero, so the receiver takes
the payload to be its first `cursor mod 65536` bytes (`frame_eq`): it is the whole payload exactly
when that is shorter than 65536 bytes.
-/

namespace Libdsm

/-- The frame under construction: a data frame header and, up to the cursor, the bytes `p`. -/
structure Building (s : NetbiosSession) (p : List UInt8) : Prop where
  opcode : s.packet.bytes 0 = netbiosOpSessionMsg
  flags : s.packet.bytes 1 = 0
  cursor : s.packetCursor = p.length
  payload : s.packet.bytes.read netbiosHeaderSize p.length = p

theorem Building.init (s : NetbiosSession) : Building (netbiosSessionPacketInit s) [] := by
  refine ⟨?_, ?_, rfl, rfl⟩ <;> simp [netbiosSessionPacketInit, Block.write, Mem.write]

/-- Appending adds to the payload, whether or not the block grows for it. -/
theorem Building.append {s : NetbiosSession} {p : List UInt8} (h : Building s p)
    (data : List UInt8) (hlen : (p ++ data).length < 2 ^ 64) :
    Building (netbiosSessionPacketAppend s data) (p ++ data) := by
  have hcur : sizeT (p.length + data.length) = p.length + data.length :=
    Nat.mod_eq_of_lt (by simpa using hlen)
  have hbytes : (netbiosSessionPacketAppend s data).packet.bytes =
      s.packet.bytes.write (netbiosHeaderSize + p.length) data := by
    rw [packetAppend_bytes, h.cursor]
  have hcursor : (netbiosSessionPacketAppend s data).packetCursor = p.length + data.length := by
    rw [← hcur, ← h.cursor]
    unfold netbiosSessionPacketAppend sessionBufferRealloc
    split <;> rfl
  refine ⟨?_, ?_, by simpa using hcursor, ?_⟩
  · rw [hbytes, Mem.write_of_lt _ _ (by simp only [netbiosHeaderSize]; omega)]
    exact h.opcode
  · rw [hbytes, Mem.write_of_lt _ _ (by simp only [netbiosHeaderSize]; omega)]
    exact h.flags
  · rw [hbytes, List.length_append, Mem.read_write_end, h.payload]

theorem Building.appends {s : NetbiosSession} {p : List UInt8} (h : Building s p)
    (chunks : List (List UInt8)) (hlen : (p ++ chunks.flatten).length < 2 ^ 64) :
    Building (chunks.foldl netbiosSessionPacketAppend s) (p ++ chunks.flatten) := by
  induction chunks generalizing s p with
  | nil => simpa using h
  | cons c cs ih =>
    rw [List.flatten_cons, ← List.append_assoc] at hlen ⊢
    exact ih (h.append c (by simp at hlen ⊢; omega)) hlen

/-- The opcode and the flags survive every append, however long. -/
theorem appends_header (s : NetbiosSession) (chunks : List (List UInt8)) (i : Nat)
    (hi : i < netbiosHeaderSize) :
    (chunks.foldl netbiosSessionPacketAppend s).packet.bytes i = s.packet.bytes i := by
  induction chunks generalizing s with
  | nil => rfl
  | cons c cs ih =>
    rw [List.foldl_cons, ih, packetAppend_bytes]
    exact Mem.write_of_lt _ _ (by omega)

theorem htons_mod (n : Nat) : htons (n % 65536) = htons n := by
  have hi : UInt8.ofNat (n % 65536 / 256) = UInt8.ofNat (n / 256) := by
    apply UInt8.toNat_inj.mp
    simp
    omega
  have lo : UInt8.ofNat (n % 65536) = UInt8.ofNat n := by
    apply UInt8.toNat_inj.mp
    simp
  rw [htons, htons, hi, lo]

/-- What a receiver makes of the frame: its first `cursor mod 65536` payload bytes. -/
theorem frame_eq {s : NetbiosSession} (h0 : s.packet.bytes 0 = netbiosOpSessionMsg)
    (h1 : s.packet.bytes 1 = 0) :
    ∃ f : Frame, f.opcode = netbiosOpSessionMsg ∧
      f.payload =
        (s.packet.bytes.read netbiosHeaderSize s.packetCursor).take (s.packetCursor % 65536) ∧
      s.frame = f.encode ++
        (s.packet.bytes.read netbiosHeaderSize s.packetCursor).drop (s.packetCursor % 65536) := by
  have hhead : (s.packet.bytes.write 2 (htons s.packetCursor)).read 0 netbiosHeaderSize =
      netbiosOpSessionMsg :: 0 :: htons s.packetCursor := by
    rw [show netbiosHeaderSize = 2 + (htons s.packetCursor).length from rfl, Mem.read_add,
      Mem.read_write, Mem.read_write_disjoint _ _ (by simp)]
    simp [Mem.read_succ, h0, h1]
  have hbody : (s.packet.bytes.write 2 (htons s.packetCursor)).read (0 + netbiosHeaderSize)
      s.packetCursor = s.packet.bytes.read netbiosHeaderSize s.packetCursor := by
    rw [Nat.zero_add, Mem.read_write_disjoint _ _ (.inr (by simp [netbiosHeaderSize, htons]))]
  have hq : (s.packet.bytes.read netbiosHeaderSize s.packetCursor).length = s.packetCursor :=
    Mem.read_length ..
  rw [NetbiosSession.frame, Mem.read_add, hhead, hbody]
  generalize s.packet.bytes.read netbiosHeaderSize s.packetCursor = q at hq
  have hlen : (q.take (s.packetCursor % 65536)).length = s.packetCursor % 65536 := by
    rw [List.length_take, hq]
    omega
  refine ⟨⟨netbiosOpSessionMsg, 0, q.take (s.packetCursor % 65536), ?_⟩, rfl, rfl, ?_⟩
  · rw [hlen, Nat.div_eq_of_lt (Nat.mod_lt _ (by decide))]
    rfl
  · unfold Frame.encode
    dsimp only
    rw [hlen, htons_mod, List.append_assoc, List.take_append_drop]

/-- A payload that the length field has room for goes out as one frame. -/
theorem Building.frame {s : NetbiosSession} {p : List UInt8} (h : Building s p)
    (hlt : p.length < 65536) :
    ∃ f : Frame, f.opcode = netbiosOpSessionMsg ∧ f.payload = p ∧ s.frame = f.encode := by
  obtain ⟨f, hop, hpay, hframe⟩ := frame_eq h.opcode h.flags
  have hcut : s.packetCursor % 65536 = p.length := by rw [h.cursor, Nat.mod_eq_of_lt hlt]
  rw [hcut, h.cursor, h.payload] at hpay hframe
  rw [List.take_length] at hpay
  rw [List.drop_length, List.append_nil] at hframe
  exact ⟨f, hop, hpay, hframe⟩

/-! ## Sending -/

/-- The bytes one send puts on the wire. -/
def emitted (s : NetbiosSession) : List UInt8 :=
  (netbiosSessionPacketSend s).2.tcp.wire.drop s.tcp.wire.length

/-- `bytes` decode to the payload `p` and nothing is left of them: every session that receives
exactly these bytes, in whatever chunks, gets `p`. -/
def DecodesTo (bytes p : List UInt8) : Prop :=
  ∀ r : NetbiosSession, r.ready = true → Chunks.Live r.tcp.inbox → r.tcp.inbox.flatten = bytes →
    ∃ r', netbiosSessionGetNextPacket r = (some p.length, r') ∧
      r'.packet.bytes.read netbiosHeaderSize p.length = p ∧ r'.tcp.inbox.flatten = []

theorem decodesTo_frame (f : Frame) : DecodesTo f.encode f.payload := by
  intro r hready hlive hin
  obtain ⟨inbox, r', heq, -, hrest, hread⟩ :=
    getNextPacket_frame hready hlive f [] (by simpa using hin)
  exact ⟨r', heq, hread.payload, by rw [hread.tcp]; exact hrest⟩

/-- A frame followed by other bytes decodes to the frame's payload at most. -/
theorem DecodesTo.length_eq {f : Frame} {rest p : List UInt8} (h : DecodesTo (f.encode ++ rest) p) :
    p.length = f.payload.length := by
  -- any receiver will do
  let r := netbiosSessionOn (fun _ => 0) (.silent [] [f.encode ++ rest]) 0
  have hlive : Chunks.Live r.tcp.inbox := by
    intro c hc
    obtain rfl : c = f.encode ++ rest := List.mem_singleton.mp hc
    simp [Frame.encode]
  have hin : r.tcp.inbox.flatten = f.encode ++ rest := List.flatten_singleton
  obtain ⟨r', heq, -⟩ := h r rfl hlive hin
  obtain ⟨inbox, r'', heq', -⟩ := getNextPacket_frame (s := r) rfl hlive f rest hin
  rw [heq'] at heq
  simpa using (congrArg Prod.fst heq).symm

/-- The session after `netbios_session_packet_init` and one append for each of `chunks`. -/
def built (s : NetbiosSession) (chunks : List (List UInt8)) : NetbiosSession :=
  chunks.foldl netbiosSessionPacketAppend (netbiosSessionPacketInit s)

/-- What a send that reports success has emitted: a frame, and what that frame leaves over. -/
theorem emitted_built {s : NetbiosSession} {chunks : List (List UInt8)}
    (hsent : (netbiosSessionPacketSend (built s chunks)).1 ≠ 0) :
    ∃ f : Frame,
      f.payload = ((built s chunks).packet.bytes.read netbiosHeaderSize
        (built s chunks).packetCursor).take ((built s chunks).packetCursor % 65536) ∧
      emitted (built s chunks) = f.encode ++ ((built s chunks).packet.bytes.read netbiosHeaderSize
        (built s chunks).packetCursor).drop ((built s chunks).packetCursor % 65536) := by
  have h0 : (built s chunks).packet.bytes 0 = netbiosOpSessionMsg := by
    rw [built, appends_header _ _ 0 (by decide)]
    exact (Building.init s).opcode
  have h1 : (built s chunks).packet.bytes 1 = 0 := by
    rw [built, appends_header _ _ 1 (by decide)]
    exact (Building.init s).flags
  have hwire : (netbiosSessionPacketSend (built s chunks)).2.tcp.wire =
      (built s chunks).tcp.wire ++ (built s chunks).frame :=
    congrArg (·.tcp.wire) (packetSend_of_ne_zero hsent).2
  obtain ⟨f, -, hpay, hframe⟩ := frame_eq h0 h1
  exact ⟨f, hpay, by rw [emitted, hwire, List.drop_left, hframe]⟩

/-- Nothing of 65536 bytes or more decodes to what went in: the length field has no room. -/
theorem DecodesTo.length_lt {s : NetbiosSession} {chunks : List (List UInt8)} {p : List UInt8}
    (hsent : (netbiosSessionPacketSend (built s chunks)).1 ≠ 0)
    (h : DecodesTo (emitted (built s chunks)) p) : p.length < 65536 := by
  obtain ⟨f, hpay, hemit⟩ := emitted_built hsent
  rw [hemit] at h
  rw [h.length_eq, hpay, List.length_take]
  have := Nat.mod_lt (built s chunks).packetCursor (show 65536 > 0 by decide)
  omega

/-- A payload built by appends and sent with success comes out of the receive path as it went in,
and takes up exactly the bytes sent, if and only if it is shorter than 65536 bytes. -/
theorem packetSend_decodes_iff (s : NetbiosSession) (chunks : List (List UInt8))
    (hsent : (netbiosSessionPacketSend (built s chunks)).1 ≠ 0) :
    DecodesTo (emitted (built s chunks)) chunks.flatten ↔ chunks.flatten.length < 65536 := by
  constructor
  · exact DecodesTo.length_lt hsent
  · intro hlt
    obtain ⟨f, hpay, hemit⟩ := emitted_built hsent
    have hbuild : Building (built s chunks) ([] ++ chunks.flatten) :=
      (Building.init s).appends chunks (by simp only [List.nil_append]; omega)
    rw [List.nil_append] at hbuild
    have hq : (built s chunks).packet.bytes.read netbiosHeaderSize (built s chunks).packetCursor =
        chunks.flatten := by
      rw [hbuild.cursor, hbuild.payload]
    have hn : (built s chunks).packetCursor % 65536 = chunks.flatten.length := by
      rw [hbuild.cursor, Nat.mod_eq_of_lt hlt]
    rw [hq, hn, List.take_length] at hpay
    rw [hemit, hq, hn, List.drop_length, List.append_nil, ← hpay]
    exact decodesTo_frame f

/-- Two appends of three bytes in all. -/
theorem packetSend_decodes_iff_short :
    let b := built (netbiosSessionOn (fun _ => 0) (.silent [7] []) 8192) [[1, 2], [3]]
    (netbiosSessionPacketSend b).1 ≠ 0 ∧
      (DecodesTo (emitted b) [[1, 2], [3]].flatten ↔ [[1, 2], [3]].flatten.length < 65536) :=
  ⟨by decide, packetSend_decodes_iff _ [[1, 2], [3]] (by decide)⟩

/-- One append of 65536 bytes: the length field reads zero, and the send reports success. -/
theorem packetSend_decodes_long :
    let b := built (netbiosSessionOn (fun _ => 0) (.silent [70000] []) 8192)
      [List.replicate 65536 0]
    (netbiosSessionPacketSend b).1 ≠ 0 ∧
      ¬ DecodesTo (emitted b) [List.replicate 65536 0].flatten := by
  intro b
  have hlong : ([List.replicate 65536 0] : List (List UInt8)).flatten.length = 65536 := by
    rw [List.flatten_singleton, List.length_replicate]
  have hcursor : b.packetCursor = 65536 := by
    have h := (Building.init (netbiosSessionOn (fun _ => 0) (.silent [70000] []) 8192)).appends
      [List.replicate 65536 0] (by rw [List.nil_append, hlong]; decide)
    rw [show b.packetCursor = _ from h.cursor, List.nil_append, hlong]
  have htcp : b.tcp = .silent [70000] [] := by
    simp only [b, built, List.foldl_cons, List.foldl_nil, packetAppend_tcp, packetInit_tcp]
    rfl
  have hready : b.ready = true := by
    simp only [b, built, List.foldl_cons, List.foldl_nil, packetAppend_ready, packetInit_ready]
    rfl
  have hfull : b.frame.length ≤ b.tcp.sends.headD 0 := by
    rw [b.frame_length, hcursor, htcp]
    decide
  have hsent : (netbiosSessionPacketSend b).1 ≠ 0 := by
    rw [packetSend_full hready hfull, hcursor]
    decide
  refine ⟨hsent, fun h => ?_⟩
  have hlt := h.length_lt hsent
  rw [hlong] at hlt
  exact absurd hlt (by decide)

end Libdsm
