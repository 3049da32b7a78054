import Libdsm.Misc.Runs
import Libdsm.Netbios.Proofs.Recv

/-!
# The capacity of the packet block

`packet_payload_size` counts the payload bytes alone as long as the block is the one
`netbios_session_new` allocated, and the header bytes with them once `session_buffer_realloc` has
run. The receive path is written for the second meaning and is safe under both. The append path is
written for the first: in a reallocated block it accepts an append that ends in the last four bytes
of `packet_payload_size`, which is up to four bytes past the end of the block.
-/

namespace Libdsm

/-- The calls that write through `s->packet`; more of the peer's bytes may arrive before each
receive. -/
inductive PacketCall where
  | init
  | append (data : List UInt8)
  | recv (incoming : List Chunk)

def PacketCall.run (s : NetbiosSession) : PacketCall → NetbiosSession
  | .init => netbiosSessionPacketInit s
  | .append data => netbiosSessionPacketAppend s data
  | .recv incoming =>
    (netbiosSessionPacketRecv { s with tcp := { s.tcp with inbox := s.tcp.inbox ++ incoming } }).2

/-- What `netbios_session_packet_recv` returns when it is the call. -/
def PacketCall.received (s : NetbiosSession) : PacketCall → Option Nat
  | .recv incoming =>
    (netbiosSessionPacketRecv { s with tcp := { s.tcp with inbox := s.tcp.inbox ++ incoming } }).1
  | _ => none

/-- Every byte the call wrote is inside the block, and so is all that it leaves behind: the header
and the bytes up to the cursor after an append, the header and the payload after a receive. -/
def WritesInBlock (s : NetbiosSession) (c : PacketCall) : Prop :=
  (c.run s).packet.overrun = false ∧
    (∀ data, c = .append data →
      netbiosHeaderSize + (c.run s).packetCursor ≤ (c.run s).packet.size) ∧
    (∀ total, c.received s = some total → netbiosHeaderSize + total ≤ (c.run s).packet.size)

/-- An append that stays clear of the defect: its end can be computed in a `size_t`, and it does
not end in the last four bytes of `packet_payload_size` of a reallocated block, one where
`packet_payload_size` is the size of the block. -/
def AppendClear (s : NetbiosSession) : PacketCall → Prop
  | .append data =>
    s.packetCursor + data.length + netbiosHeaderSize < 2 ^ 64 ∧
      ¬ (s.packet.size = s.packetPayloadSize ∧
        s.packetPayloadSize < s.packetCursor + data.length + netbiosHeaderSize ∧
        s.packetCursor + data.length ≤ s.packetPayloadSize)
  | _ => True

/-- What holds between two calls as long as no byte has left the block. -/
structure BlockInv (s : NetbiosSession) : Prop where
  inside : s.packet.overrun = false
  cursor : s.packetCursor ≤ s.packetPayloadSize
  header : netbiosHeaderSize ≤ s.packet.size
  size : s.packet.size = s.packetPayloadSize ∨
    s.packet.size = s.packetPayloadSize + netbiosHeaderSize
  bound : s.packet.size < 2 ^ 64

theorem Block.write_overrun {b : Block} {off : Nat} {bs : List UInt8} (hb : b.overrun = false)
    (h : off + bs.length ≤ b.size) : (b.write off bs).overrun = false := by
  simp [write, hb, Nat.not_lt.mpr h]

theorem BlockInv.new (heap : Mem) (tcp : Tcp) {n : Nat} (hn : netbiosHeaderSize + n < 2 ^ 64) :
    BlockInv (netbiosSessionNew heap tcp n) := by
  have hsize : sizeT (netbiosHeaderSize + n) = netbiosHeaderSize + n := Nat.mod_eq_of_lt hn
  refine ⟨rfl, Nat.zero_le _, ?_, Or.inr ?_, ?_⟩
  · simp [netbiosSessionNew, hsize]
  · exact hsize.trans (Nat.add_comm _ _)
  · simpa [netbiosSessionNew, hsize] using hn

theorem BlockInv.init {s : NetbiosSession} (h : BlockInv s) :
    BlockInv (netbiosSessionPacketInit s) := by
  have h4 := h.header
  rw [netbiosHeaderSize] at h4
  refine ⟨?_, Nat.zero_le _, h.header, h.size, h.bound⟩
  apply Block.write_overrun
  · exact Block.write_overrun h.inside (by simp; omega)
  · simp [Block.write]; omega

/-! ## Receiving -/

theorem BlockInv.take {s : NetbiosSession} (h : BlockInv s) (off : Nat) (bs : List UInt8)
    (hfit : off + bs.length ≤ s.packet.size) (inbox : List Chunk) : BlockInv (s.take off bs inbox) :=
  ⟨Block.write_overrun h.inside hfit, h.cursor, h.header, h.size, h.bound⟩

/-- The growth test makes room for the frame, and never moves the cursor out of reach. -/
theorem BlockInv.reserve {s : NetbiosSession} (h : BlockInv s) {total : Nat}
    (htotal : total < 131072) :
    BlockInv (netbiosSessionReserve s total) ∧
      netbiosHeaderSize + total ≤ (netbiosSessionReserve s total).packet.size := by
  have hc := h.cursor
  have hs := h.size
  unfold netbiosSessionReserve sessionBufferRealloc
  split
  · refine ⟨⟨h.inside, ?_, ?_, Or.inl rfl, ?_⟩, ?_⟩ <;> simp only [netbiosHeaderSize] at * <;> omega
  · exact ⟨h, by omega⟩

theorem BlockInv.getNextPacket {s : NetbiosSession} (h : BlockInv s) :
    BlockInv (netbiosSessionGetNextPacket s).2 ∧
      ∀ total, (netbiosSessionGetNextPacket s).1 = some total →
        netbiosHeaderSize + total ≤ (netbiosSessionGetNextPacket s).2.packet.size := by
  unfold netbiosSessionGetNextPacket
  by_cases hready : s.ready = true
  swap
  · simp [hready, h]
  rw [if_pos hready]
  -- the header fits any block, the payload the block after the growth test
  have hlen := Chunks.readN_length_le netbiosHeaderSize netbiosHeaderSize s.tcp.inbox
  have h1 := h.take 0 (Chunks.readN netbiosHeaderSize netbiosHeaderSize s.tcp.inbox).1
    (by have := h.header; omega)
    (Chunks.readN netbiosHeaderSize netbiosHeaderSize s.tcp.inbox).2.2
  simp only [recvLoop_eq]
  generalize s.take 0 _ _ = s1 at h1 ⊢
  cases (Chunks.readN netbiosHeaderSize netbiosHeaderSize s.tcp.inbox).2.1 with
  | false => simp [h1]
  | true =>
    obtain ⟨h2, hroom⟩ := h1.reserve (frameTotal_lt s1.packet.bytes)
    simp only [if_true]
    generalize frameTotal s1.packet.bytes = total at h2 hroom ⊢
    generalize netbiosSessionReserve s1 total = s2 at h2 hroom ⊢
    have hlen' := Chunks.readN_length_le total total s2.tcp.inbox
    have h3 := h2.take netbiosHeaderSize (Chunks.readN total total s2.tcp.inbox).1
      (by omega) (Chunks.readN total total s2.tcp.inbox).2.2
    split
    · refine ⟨h3, ?_⟩
      rintro _ ⟨⟩
      exact hroom
    · exact ⟨h3, by simp⟩

theorem BlockInv.recvPackets {s : NetbiosSession} (h : BlockInv s) (fuel : Nat) :
    BlockInv (netbiosSessionRecvPackets fuel s).2 ∧
      ∀ total, (netbiosSessionRecvPackets fuel s).1 = some total →
        netbiosHeaderSize + total ≤ (netbiosSessionRecvPackets fuel s).2.packet.size := by
  induction fuel generalizing s with
  | zero => simp [netbiosSessionRecvPackets, h]
  | succ fuel ih =>
    obtain ⟨hinv, hroom⟩ := h.getNextPacket
    rw [netbiosSessionRecvPackets]
    generalize netbiosSessionGetNextPacket s = r at hinv hroom ⊢
    obtain ⟨size, s'⟩ := r
    cases size with
    | none => exact ⟨hinv, by simp⟩
    | some size =>
      simp only
      split
      · exact ih hinv
      · exact ⟨hinv, hroom⟩

theorem BlockInv.packetRecv {s : NetbiosSession} (h : BlockInv s) :
    BlockInv (netbiosSessionPacketRecv s).2 ∧
      ∀ total, (netbiosSessionPacketRecv s).1 = some total →
        netbiosHeaderSize + total ≤ (netbiosSessionPacketRecv s).2.packet.size := by
  obtain ⟨hinv, hroom⟩ := h.recvPackets (s.tcp.inbox.flatten.length + 1)
  rw [netbiosSessionPacketRecv]
  generalize netbiosSessionRecvPackets (s.tcp.inbox.flatten.length + 1) s = r at hinv hroom ⊢
  obtain ⟨size, s'⟩ := r
  have hnote : ∀ event, BlockInv (s'.note event) := fun _ =>
    ⟨hinv.inside, hinv.cursor, hinv.header, hinv.size, hinv.bound⟩
  cases size with
  | none => exact ⟨hnote _, by simp⟩
  | some size => exact ⟨hnote _, hroom⟩

/-! ## Appending -/

theorem sizeSub_eq {a b : Nat} (hb : b ≤ a) (ha : a < 2 ^ 64) : sizeSub a b = a - b := by
  rw [sizeSub, sizeT, show a + 2 ^ 64 - b = a - b + 2 ^ 64 by omega, Nat.add_mod_right,
    Nat.mod_eq_of_lt (by omega)]

theorem Block.write_overrun_of_lt {b : Block} {off : Nat} {bs : List UInt8}
    (h : b.size < off + bs.length) (hne : bs ≠ []) : (b.write off bs).overrun = true := by
  simp [write, h, hne]

section Append

variable {s : NetbiosSession} {data : List UInt8}

/-- The append that the growth test lets through as it is. -/
theorem packetAppend_fits (h : BlockInv s)
    (hfit : s.packetCursor + data.length ≤ s.packetPayloadSize) :
    netbiosSessionPacketAppend s data =
      { s with
        packet := s.packet.write (netbiosHeaderSize + s.packetCursor) data
        packetCursor := s.packetCursor + data.length } := by
  have hs := h.size
  have hb := h.bound
  have htest : ¬ sizeSub s.packetPayloadSize s.packetCursor < data.length := by
    rw [sizeSub_eq h.cursor (by omega)]
    omega
  have hcur : sizeT (s.packetCursor + data.length) = s.packetCursor + data.length :=
    Nat.mod_eq_of_lt (by omega)
  simp [netbiosSessionPacketAppend, htest, hcur]

/-- The append that makes the block grow. -/
theorem packetAppend_grows (h : BlockInv s)
    (hgrow : s.packetPayloadSize < s.packetCursor + data.length) :
    netbiosSessionPacketAppend s data =
      { sessionBufferRealloc s (sizeT (data.length + s.packetCursor + netbiosHeaderSize)) with
        packet := (sessionBufferRealloc s (sizeT (data.length + s.packetCursor +
          netbiosHeaderSize))).packet.write (netbiosHeaderSize + s.packetCursor) data
        packetCursor := sizeT (s.packetCursor + data.length) } := by
  have hs := h.size
  have hb := h.bound
  have htest : sizeSub s.packetPayloadSize s.packetCursor < data.length := by
    rw [sizeSub_eq h.cursor (by omega)]
    have := h.cursor
    omega
  simp [netbiosSessionPacketAppend, htest, sessionBufferRealloc]

/-- A clear append stays inside and keeps the invariant. -/
theorem BlockInv.append (h : BlockInv s) (hclear : AppendClear s (.append data)) :
    BlockInv (netbiosSessionPacketAppend s data) ∧
      netbiosHeaderSize + (netbiosSessionPacketAppend s data).packetCursor ≤
        (netbiosSessionPacketAppend s data).packet.size := by
  obtain ⟨hwrap, hwindow⟩ := hclear
  have hs := h.size
  by_cases hfit : s.packetCursor + data.length ≤ s.packetPayloadSize
  · have hroom : netbiosHeaderSize + (s.packetCursor + data.length) ≤ s.packet.size := by
      rcases hs with hs | hs
      · by_contra hlt
        exact hwindow ⟨hs, by omega, hfit⟩
      · omega
    rw [packetAppend_fits h hfit]
    refine ⟨⟨Block.write_overrun h.inside ?_, hfit, h.header, h.size, h.bound⟩, hroom⟩
    omega
  · have hsize : sizeT (data.length + s.packetCursor + netbiosHeaderSize) =
        s.packetCursor + data.length + netbiosHeaderSize := by
      rw [Nat.add_comm data.length]
      exact Nat.mod_eq_of_lt hwrap
    have hcur : sizeT (s.packetCursor + data.length) = s.packetCursor + data.length :=
      Nat.mod_eq_of_lt (by omega)
    rw [packetAppend_grows h (by omega), hsize, hcur]
    refine ⟨⟨Block.write_overrun h.inside ?_, ?_, ?_, Or.inl rfl, hwrap⟩, ?_⟩ <;>
      simp [sessionBufferRealloc, Block.write] <;> omega

/-- An append that is not clear leaves the block. -/
theorem append_clear_of_inBlock (h : BlockInv s) (hin : WritesInBlock s (.append data)) :
    AppendClear s (.append data) := by
  obtain ⟨hover, hcur, -⟩ := hin
  have hcur := hcur data rfl
  simp only [PacketCall.run] at hover hcur
  have hs := h.size
  have hb := h.bound
  by_cases hfit : s.packetCursor + data.length ≤ s.packetPayloadSize
  · -- no growth: the cursor moves, and the bound on it is the claim
    rw [packetAppend_fits h hfit] at hcur
    change netbiosHeaderSize + (s.packetCursor + data.length) ≤ s.packet.size at hcur
    exact ⟨by omega, fun ⟨he, hlt, _⟩ => by omega⟩
  · -- growth: if the new size wrapped, the block is too small for the data
    refine ⟨?_, fun ⟨_, _, hle⟩ => hfit hle⟩
    by_contra hwrap
    have hne : data ≠ [] := by
      rintro rfl
      exact hfit (by simpa using h.cursor)
    rw [packetAppend_grows h (by omega)] at hover
    have hsmall : sizeT (data.length + s.packetCursor + netbiosHeaderSize) <
        netbiosHeaderSize + s.packetCursor + data.length := by
      have : sizeT (data.length + s.packetCursor + netbiosHeaderSize) < 2 ^ 64 :=
        Nat.mod_lt _ (by decide)
      omega
    have := Block.write_overrun_of_lt (b := (sessionBufferRealloc s (sizeT (data.length +
      s.packetCursor + netbiosHeaderSize))).packet) hsmall hne
    rw [this] at hover
    exact absurd hover (by decide)

end Append

/-! ## Runs -/

theorem BlockInv.run {s : NetbiosSession} (h : BlockInv s) {c : PacketCall}
    (hclear : AppendClear s c) : BlockInv (c.run s) ∧ WritesInBlock s c := by
  cases c with
  | init => exact ⟨h.init, h.init.inside, by simp, by simp [PacketCall.received]⟩
  | append data =>
    obtain ⟨hinv, hroom⟩ := h.append hclear
    exact ⟨hinv, hinv.inside, fun _ _ => hroom, by simp [PacketCall.received]⟩
  | recv incoming =>
    have h' : BlockInv { s with tcp := { s.tcp with inbox := s.tcp.inbox ++ incoming } } :=
      ⟨h.inside, h.cursor, h.header, h.size, h.bound⟩
    obtain ⟨hinv, hroom⟩ := h'.packetRecv
    exact ⟨hinv, hinv.inside, by simp, hroom⟩

theorem writesInBlock_iff {s : NetbiosSession} (h : BlockInv s) (c : PacketCall) :
    WritesInBlock s c ↔ AppendClear s c := by
  refine ⟨fun hin => ?_, fun hclear => (h.run hclear).2⟩
  cases c with
  | append data => exact append_clear_of_inBlock h hin
  | init => trivial
  | recv incoming => trivial

/-- From `netbios_session_new(n)`, every byte of every run stays inside the block exactly as long
as every append of the run is clear. The session is connected, so that it may receive. -/
theorem packetCalls_inBlock_iff (heap : Mem) (tcp : Tcp) (n : Nat)
    (hn : netbiosHeaderSize + n < 2 ^ 64) (calls : List PacketCall) :
    Along PacketCall.run WritesInBlock (netbiosSessionOn heap tcp n) calls ↔
      Along PacketCall.run AppendClear (netbiosSessionOn heap tcp n) calls := by
  have hnew := BlockInv.new heap tcp hn
  exact along_congr (fun s c h => writesInBlock_iff h c) (fun s c h hclear => (h.run hclear).1)
    ⟨hnew.inside, hnew.cursor, hnew.header, hnew.size, hnew.bound⟩

/-- A session of the default size that sends once and receives a keepalive. -/
theorem packetCalls_inBlock_iff_default :
    netbiosHeaderSize + 8192 < 2 ^ 64 ∧
      (Along PacketCall.run WritesInBlock (netbiosSessionOn (fun _ => 0) (.silent [] []) 8192)
          [.init, .append [1, 2, 3], .recv [[0x85, 0, 0, 0]]] ↔
        Along PacketCall.run AppendClear (netbiosSessionOn (fun _ => 0) (.silent [] []) 8192)
          [.init, .append [1, 2, 3], .recv [[0x85, 0, 0, 0]]]) :=
  ⟨by decide, packetCalls_inBlock_iff (fun _ => 0) (.silent [] []) 8192 (by decide) _⟩

/-- An empty buffer grows to five bytes for one byte of payload; four more are then taken to fit,
and all four are written past the end of the block. -/
theorem packetCalls_overrun :
    ¬ Along PacketCall.run WritesInBlock (netbiosSessionOn (fun _ => 0) (.silent [] []) 0)
        [.init, .append [1], .append [2, 3, 4, 5]] := by
  rintro ⟨-, -, ⟨hinside, -⟩, -⟩
  exact absurd hinside (by decide)

end Libdsm
