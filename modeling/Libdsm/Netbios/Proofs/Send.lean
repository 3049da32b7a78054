import Libdsm.Netbios.Session

/-!
# Sending a frame

`send` either takes the whole frame or a strict prefix of it, and `netbios_session_packet_send`
reports the first as the number of bytes and the second as `0`.
-/

namespace Libdsm

/-- The connection once a frame has been accepted in full and answered. -/
def Tcp.delivered (t : Tcp) (frame : List UInt8) : Tcp :=
  { t with
    sends := t.sends.tail
    wire := t.wire ++ frame
    served := t.served + 1
    inbox := t.inbox ++ t.server t.served frame
    log := t.log ++ [.sent frame] }

/-- The connection once a strict prefix of a frame has been accepted. -/
def Tcp.torn (t : Tcp) (frame : List UInt8) : Tcp :=
  { t with
    sends := t.sends.tail
    wire := t.wire ++ frame.take (t.sends.headD 0)
    log := t.log ++ [.sendFailed frame (t.sends.headD 0)] }

theorem Tcp.send_full {t : Tcp} {frame : List UInt8} (h : frame.length ≤ t.sends.headD 0) :
    t.send frame = (frame.length, t.delivered frame) := by
  unfold Tcp.send
  simp only [Nat.min_eq_right h, List.take_length, if_true]
  rfl

theorem Tcp.send_short {t : Tcp} {frame : List UInt8} (h : t.sends.headD 0 < frame.length) :
    t.send frame = (t.sends.headD 0, t.torn frame) := by
  unfold Tcp.send
  simp only [Nat.min_eq_left (Nat.le_of_lt h)]
  rw [if_neg (Nat.ne_of_lt h)]
  rfl

theorem NetbiosSession.frame_length (s : NetbiosSession) :
    s.frame.length = netbiosHeaderSize + s.packetCursor := by
  simp [NetbiosSession.frame]

/-! ## Building leaves the socket alone -/

@[simp] theorem packetInit_tcp (s : NetbiosSession) :
    (netbiosSessionPacketInit s).tcp = s.tcp := rfl

@[simp] theorem packetInit_ready (s : NetbiosSession) :
    (netbiosSessionPacketInit s).ready = s.ready := rfl

@[simp] theorem packetAppend_tcp (s : NetbiosSession) (data : List UInt8) :
    (netbiosSessionPacketAppend s data).tcp = s.tcp := by
  unfold netbiosSessionPacketAppend sessionBufferRealloc
  split <;> rfl

@[simp] theorem packetAppend_ready (s : NetbiosSession) (data : List UInt8) :
    (netbiosSessionPacketAppend s data).ready = s.ready := by
  unfold netbiosSessionPacketAppend sessionBufferRealloc
  split <;> rfl

theorem packetAppend_bytes (s : NetbiosSession) (data : List UInt8) :
    (netbiosSessionPacketAppend s data).packet.bytes =
      s.packet.bytes.write (netbiosHeaderSize + s.packetCursor) data := by
  unfold netbiosSessionPacketAppend sessionBufferRealloc
  split <;> rfl

/-! ## The send -/

/-- The session after its frame went to the socket, `t` being what the socket became. -/
def NetbiosSession.afterSend (s : NetbiosSession) (t : Tcp) : NetbiosSession :=
  { s with packet := s.packet.write 2 (htons s.packetCursor), tcp := t }

theorem packetSend_full {s : NetbiosSession} (hready : s.ready = true)
    (h : s.frame.length ≤ s.tcp.sends.headD 0) :
    netbiosSessionPacketSend s =
      (((netbiosHeaderSize + s.packetCursor : Nat) : Int).bmod (2 ^ 32),
        s.afterSend (s.tcp.delivered s.frame)) := by
  unfold netbiosSessionPacketSend
  simp only [hready, if_true, Tcp.send_full h, s.frame_length]
  rfl

theorem packetSend_short {s : NetbiosSession} (hready : s.ready = true)
    (h : s.tcp.sends.headD 0 < s.frame.length) :
    netbiosSessionPacketSend s = (0, s.afterSend (s.tcp.torn s.frame)) := by
  unfold netbiosSessionPacketSend
  simp only [hready, if_true, Tcp.send_short h]
  rw [if_neg (by rw [← s.frame_length]; exact Nat.ne_of_lt h)]
  rfl

/-- The length a send reports is cut to an `int`, and not zero for a frame of less than 4 GiB. -/
theorem bmod_ne_zero {n : Nat} (h0 : 0 < n) (h : n < 2 ^ 32) : (n : Int).bmod (2 ^ 32) ≠ 0 := by
  rw [Int.bmod_def]
  split <;> omega

/-- What a send does: nothing, a torn frame, or a whole one, which it reports unless the frame has
4 GiB or more. -/
theorem packetSend_cases (s : NetbiosSession) :
    (netbiosSessionPacketSend s = (0, s) ∧ s.ready = false) ∨
    (netbiosSessionPacketSend s = (0, s.afterSend (s.tcp.torn s.frame)) ∧ s.ready = true ∧
      s.tcp.sends.headD 0 < s.frame.length) ∨
    ((netbiosSessionPacketSend s).2 = s.afterSend (s.tcp.delivered s.frame) ∧ s.ready = true ∧
      s.frame.length ≤ s.tcp.sends.headD 0 ∧
      (s.frame.length < 2 ^ 32 → (netbiosSessionPacketSend s).1 ≠ 0)) := by
  cases hready : s.ready with
  | false =>
    refine .inl ⟨?_, rfl⟩
    unfold netbiosSessionPacketSend
    rw [if_neg (by rw [hready]; exact Bool.false_ne_true)]
  | true =>
    by_cases hfull : s.frame.length ≤ s.tcp.sends.headD 0
    · have hsend := packetSend_full hready hfull
      refine .inr (.inr ⟨by rw [hsend], rfl, hfull, fun hlt => ?_⟩)
      have hpos : 0 < netbiosHeaderSize + s.packetCursor := by simp only [netbiosHeaderSize]; omega
      rw [s.frame_length] at hlt
      rw [hsend]
      dsimp only
      exact bmod_ne_zero hpos hlt
    · have hshort := Nat.lt_of_not_le hfull
      exact .inr (.inl ⟨packetSend_short hready hshort, rfl, hshort⟩)

/-- A send that reports success has put the whole frame on the wire. -/
theorem packetSend_of_ne_zero {s : NetbiosSession} (h : (netbiosSessionPacketSend s).1 ≠ 0) :
    s.ready = true ∧
      (netbiosSessionPacketSend s).2 = s.afterSend (s.tcp.delivered s.frame) := by
  by_cases hready : s.ready = true
  · refine ⟨hready, ?_⟩
    by_cases hfull : s.frame.length ≤ s.tcp.sends.headD 0
    · rw [packetSend_full hready hfull]
    · rw [packetSend_short hready (Nat.lt_of_not_le hfull)] at h
      exact absurd rfl h
  · unfold netbiosSessionPacketSend at h
    rw [if_neg hready] at h
    exact absurd rfl h

/-- A send neither opens nor closes the socket. -/
theorem packetSend_ready (s : NetbiosSession) : (netbiosSessionPacketSend s).2.ready = s.ready := by
  rcases packetSend_cases s with ⟨h, -⟩ | ⟨h, -⟩ | ⟨h, -⟩
  · rw [h]
  · rw [h]
    rfl
  · rw [h]
    rfl

end Libdsm
