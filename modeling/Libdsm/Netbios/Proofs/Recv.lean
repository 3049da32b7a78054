import Libdsm.Netbios.Session
import Mathlib.Tactic.SplitIfs

/-!
# Frames off the stream

`netbios_session_get_next_packet` against the frame format: the two receive loops are one exact
read each (`recvLoop_eq`), so on a live stream that begins with the encoding of a frame the call
returns that frame and leaves the stream at the byte after it (`getNextPacket_frame`), however the
stream is cut; on a stream that ends inside a frame it fails (`getNextPacket_torn`).
-/

namespace Libdsm

/-! ## The frame format -/

/-- A session frame: the 16-bit length field and bit 0 of `flags` give the payload length. -/
structure Frame where
  opcode : UInt8
  flags : UInt8
  payload : List UInt8
  length_eq : payload.length / 65536 = flags.toNat % 2

/-- The frame on the wire (`netbios_session_packet`). -/
def Frame.encode (f : Frame) : List UInt8 :=
  f.opcode :: f.flags :: htons f.payload.length ++ f.payload

def Frame.isKeepalive (f : Frame) : Bool := f.opcode = netbiosOpSessionKeepalive

@[simp] theorem htons_length (n : Nat) : (htons n).length = 2 := rfl

@[simp] theorem Frame.encode_length (f : Frame) :
    f.encode.length = netbiosHeaderSize + f.payload.length := by
  simp [encode, netbiosHeaderSize]
  omega

/-- The header's length fields, decoded. -/
theorem frameTotal_eq {m : Mem} {flags : UInt8} {n : Nat} (h1 : m 1 = flags)
    (h2 : m 2 = UInt8.ofNat (n / 256)) (h3 : m 3 = UInt8.ofNat n) :
    frameTotal m = n % 65536 + 65536 * (flags.toNat % 2) := by
  have hi : (UInt8.ofNat (n / 256)).toNat = n / 256 % 256 := by simp
  have lo : (UInt8.ofNat n).toNat = n % 256 := by simp
  have len : n / 256 % 256 * 256 + n % 256 = n % 65536 := by omega
  have lt : n % 65536 < 2 ^ 16 := Nat.mod_lt _ (by decide)
  have bit : (flags.toNat &&& 1) <<< 16 = 2 ^ 16 * (flags.toNat % 2) := by
    rw [Nat.and_one_is_mod, Nat.shiftLeft_eq, Nat.mul_comm]
  rw [frameTotal, h1, h2, h3, hi, lo, len, bit, Nat.or_comm,
    ← Nat.two_pow_add_eq_or_of_lt lt, Nat.add_comm]

/-- A memory that holds the first four bytes of a frame announces its payload. -/
theorem Frame.total_of_header (f : Frame) {m : Mem}
    (h : m.read 0 netbiosHeaderSize = f.encode.take netbiosHeaderSize) :
    frameTotal m = f.payload.length := by
  simp only [netbiosHeaderSize, Mem.read_succ, Mem.read_zero, encode, htons, List.cons_append,
    List.nil_append, List.take_succ_cons, List.take_zero, List.cons.injEq] at h
  obtain ⟨-, h1, h2, h3, -⟩ := h
  rw [frameTotal_eq h1 h2 h3]
  have := f.length_eq
  omega

/-! ## The receive loop -/

theorem Block.write_nil (b : Block) (off : Nat) : b.write off [] = b := by
  simp [write]

/-- Two adjacent writes through the pointer are one. -/
theorem Block.write_append (b : Block) (off : Nat) (xs ys : List UInt8) :
    (b.write off xs).write (off + xs.length) ys = b.write off (xs ++ ys) := by
  cases ys with
  | nil => simp [write]
  | cons y ys =>
    have hne : (xs ++ y :: ys).isEmpty = false := by cases xs <;> rfl
    simp only [write, Mem.write_append, List.length_append, Nat.add_assoc, hne, Block.mk.injEq,
      true_and, List.isEmpty_cons, Bool.not_false, Bool.true_and]
    -- the second write ends at the later place, so it decides
    by_cases h : b.size < off + (xs.length + (y :: ys).length)
    · rw [decide_eq_true h, Bool.or_true, Bool.or_true]
    · have h' : ¬ b.size < off + xs.length := by omega
      simp [h']

/-- The session after reading `bs` into the block at `off`. -/
def NetbiosSession.take (s : NetbiosSession) (off : Nat) (bs : List UInt8) (inbox : List Chunk) :
    NetbiosSession :=
  { s with packet := s.packet.write off bs, tcp := { s.tcp with inbox } }

/-- The receive loop is one exact read of the stream into the block. -/
theorem recvLoop_eq (fuel : Nat) (s : NetbiosSession) (off need : Nat) :
    netbiosSessionRecvLoop fuel s off need =
      ((Chunks.readN fuel need s.tcp.inbox).2.1,
        s.take off (Chunks.readN fuel need s.tcp.inbox).1
          (Chunks.readN fuel need s.tcp.inbox).2.2) := by
  induction fuel generalizing s off need with
  | zero => cases need <;> simp [netbiosSessionRecvLoop, Chunks.readN, NetbiosSession.take,
      Block.write_nil]
  | succ fuel ih =>
    cases need with
    | zero => simp [netbiosSessionRecvLoop, Chunks.readN, NetbiosSession.take, Block.write_nil]
    | succ need =>
      simp only [netbiosSessionRecvLoop, Chunks.readN, netbiosSessionRecv]
      by_cases hr : (Chunks.recv (need + 1) s.tcp.inbox).1 = []
      · simp [hr, NetbiosSession.take]
      · simp [hr, ih, NetbiosSession.take, Block.write_append]

/-! ## One packet -/

/-- `s` after a frame has been read into it: the frame's bytes at the start of the block, the
block grown if the frame needs it, the stream at `inbox`. -/
structure FrameRead (s : NetbiosSession) (f : Frame) (inbox : List Chunk) (s' : NetbiosSession) :
    Prop where
  socketOpen : s'.socketOpen = s.socketOpen
  state : s'.state = s.state
  cursor : s'.packetCursor = s.packetCursor
  bytes : s'.packet.bytes = s.packet.bytes.write 0 f.encode
  tcp : s'.tcp = { s.tcp with inbox }

theorem FrameRead.ready {s s' : NetbiosSession} {f : Frame} {inbox : List Chunk}
    (h : FrameRead s f inbox s') : s'.ready = s.ready := by
  rw [NetbiosSession.ready, h.socketOpen, h.state, NetbiosSession.ready]

theorem FrameRead.opcode {s s' : NetbiosSession} {f : Frame} {inbox : List Chunk}
    (h : FrameRead s f inbox s') : s'.packet.bytes 0 = f.opcode := by
  rw [h.bytes]
  exact Mem.write_inside s.packet.bytes 0 0 f.encode (by simp [Frame.encode])

theorem FrameRead.payload {s s' : NetbiosSession} {f : Frame} {inbox : List Chunk}
    (h : FrameRead s f inbox s') :
    s'.packet.bytes.read netbiosHeaderSize f.payload.length = f.payload := by
  have hall := Mem.read_write s.packet.bytes 0 f.encode
  rw [Frame.encode_length, Mem.read_add, Nat.zero_add, ← h.bytes] at hall
  exact (List.append_inj hall (by simp [netbiosHeaderSize])).2

section Reserve

variable (s : NetbiosSession) (total : Nat)

@[simp] theorem reserve_socketOpen : (netbiosSessionReserve s total).socketOpen = s.socketOpen := by
  unfold netbiosSessionReserve; split <;> rfl

@[simp] theorem reserve_state : (netbiosSessionReserve s total).state = s.state := by
  unfold netbiosSessionReserve; split <;> rfl

@[simp] theorem reserve_cursor :
    (netbiosSessionReserve s total).packetCursor = s.packetCursor := by
  unfold netbiosSessionReserve; split <;> rfl

@[simp] theorem reserve_bytes :
    (netbiosSessionReserve s total).packet.bytes = s.packet.bytes := by
  unfold netbiosSessionReserve; split <;> rfl

@[simp] theorem reserve_tcp : (netbiosSessionReserve s total).tcp = s.tcp := by
  unfold netbiosSessionReserve; split <;> rfl

end Reserve

/-- The header part of a read frame, and the session after it. -/
theorem recvLoop_header {s : NetbiosSession} (hlive : Chunks.Live s.tcp.inbox)
    (hlen : netbiosHeaderSize ≤ s.tcp.inbox.flatten.length) :
    ∃ inbox, netbiosSessionRecvLoop netbiosHeaderSize s 0 netbiosHeaderSize =
        (true, s.take 0 (s.tcp.inbox.flatten.take netbiosHeaderSize) inbox) ∧
      Chunks.Live inbox ∧ inbox.flatten = s.tcp.inbox.flatten.drop netbiosHeaderSize := by
  obtain ⟨hok, hbs, hrest⟩ := Chunks.readN_complete hlive hlen (Nat.le_refl _)
  refine ⟨_, ?_, Chunks.readN_live hlive, hrest⟩
  rw [recvLoop_eq, hok, hbs]

theorem read_header_take (s : NetbiosSession) {bs : List UInt8} (inbox : List Chunk)
    (hlen : bs.length = netbiosHeaderSize) :
    (s.take 0 bs inbox).packet.bytes.read 0 netbiosHeaderSize = bs := by
  rw [← hlen]
  exact Mem.read_write s.packet.bytes 0 bs

theorem take_tcp (s : NetbiosSession) (off : Nat) (bs : List UInt8) (inbox : List Chunk) :
    (s.take off bs inbox).tcp = { s.tcp with inbox } := rfl

/-- Its header and its payload read one after the other, a frame has been read. -/
theorem frameRead_take (s : NetbiosSession) (f : Frame) (inbox inbox' : List Chunk) :
    FrameRead s f inbox' ((netbiosSessionReserve
      (s.take 0 (f.encode.take netbiosHeaderSize) inbox) f.payload.length).take netbiosHeaderSize
        f.payload inbox') := by
  have hsplit : f.encode = f.encode.take netbiosHeaderSize ++ f.payload := by
    simp [Frame.encode, htons, netbiosHeaderSize]
  have hhead : (f.encode.take netbiosHeaderSize).length = netbiosHeaderSize := by simp
  refine ⟨by simp [NetbiosSession.take], by simp [NetbiosSession.take],
    by simp [NetbiosSession.take], ?_, by simp [NetbiosSession.take]⟩
  simp only [NetbiosSession.take, Block.write, reserve_bytes]
  nth_rewrite 2 [hsplit]
  rw [← Mem.write_append, hhead, Nat.zero_add]

/-- On a live stream that begins with a frame, the call returns it and stops right after it. -/
theorem getNextPacket_frame {s : NetbiosSession} (hready : s.ready = true)
    (hlive : Chunks.Live s.tcp.inbox) (f : Frame) (rest : List UInt8)
    (hin : s.tcp.inbox.flatten = f.encode ++ rest) :
    ∃ inbox s', netbiosSessionGetNextPacket s = (some f.payload.length, s') ∧
      Chunks.Live inbox ∧ inbox.flatten = rest ∧ FrameRead s f inbox s' := by
  have hsplit : f.encode = f.encode.take netbiosHeaderSize ++ f.payload := by
    simp [Frame.encode, htons, netbiosHeaderSize]
  have hhead : (f.encode.take netbiosHeaderSize).length = netbiosHeaderSize := by simp
  obtain ⟨inbox, hloop, hlive', hrest⟩ := recvLoop_header hlive (by simp [hin]; omega)
  have htake : s.tcp.inbox.flatten.take netbiosHeaderSize = f.encode.take netbiosHeaderSize := by
    rw [hin, List.take_append_of_le_length (by simp)]
  have hdrop : inbox.flatten = f.payload ++ rest := by
    rw [hrest, hin, hsplit, List.append_assoc, List.drop_left' hhead]
  rw [htake] at hloop
  have htotal := f.total_of_header (read_header_take s inbox hhead)
  -- the payload loop, whether or not the block had to grow first
  obtain ⟨hok, hbs, hleft⟩ := Chunks.readN_complete hlive'
    (show f.payload.length ≤ inbox.flatten.length by simp [hdrop]) (Nat.le_refl _)
  rw [hdrop, List.take_left] at hbs
  rw [hdrop, List.drop_left] at hleft
  let s1 := s.take 0 (f.encode.take netbiosHeaderSize) inbox
  let inbox' := (Chunks.readN f.payload.length f.payload.length inbox).2.2
  refine ⟨inbox', (netbiosSessionReserve s1 f.payload.length).take netbiosHeaderSize f.payload inbox',
    ?_, Chunks.readN_live hlive', hleft, ?_⟩
  · have hs1 : s1.tcp.inbox = inbox := rfl
    rw [netbiosSessionGetNextPacket, if_pos hready, hloop]
    simp only [if_true, htotal, recvLoop_eq, reserve_tcp]
    change (if (Chunks.readN _ _ s1.tcp.inbox).2.1 = true then _ else _) = _
    rw [hs1, if_pos hok, hbs]
  · exact frameRead_take s f inbox inbox'

/-- Whatever the socket does: a call that returns on a stream that begins with a frame has returned
that frame and stopped right after it. -/
theorem getNextPacket_exact {s s' : NetbiosSession} {size : Nat}
    (h : netbiosSessionGetNextPacket s = (some size, s')) (f : Frame) (rest : List UInt8)
    (hin : s.tcp.inbox.flatten = f.encode ++ rest) :
    size = f.payload.length ∧ ∃ inbox, inbox.flatten = rest ∧ FrameRead s f inbox s' := by
  have hsplit : f.encode = f.encode.take netbiosHeaderSize ++ f.payload := by
    simp [Frame.encode, htons, netbiosHeaderSize]
  have hhead : (f.encode.take netbiosHeaderSize).length = netbiosHeaderSize := by simp
  unfold netbiosSessionGetNextPacket at h
  split at h
  · simp only [recvLoop_eq] at h
    split at h
    · rename_i hheader
      obtain ⟨hbs, hrest⟩ := Chunks.readN_exact hheader
      generalize Chunks.readN netbiosHeaderSize netbiosHeaderSize s.tcp.inbox = header at *
      rw [hin, List.take_append_of_le_length (by simp)] at hbs
      rw [hin, hsplit, List.append_assoc, List.drop_left' hhead] at hrest
      have htotal := f.total_of_header (read_header_take s header.2.2 hhead)
      rw [hbs, htotal] at h
      split at h
      · rename_i hpayload
        obtain ⟨hbs', hrest'⟩ := Chunks.readN_exact hpayload
        rw [reserve_tcp, take_tcp] at hbs' hrest'
        rw [hrest, List.take_left] at hbs'
        rw [hrest, List.drop_left] at hrest'
        rw [reserve_tcp, take_tcp, hbs', Prod.mk.injEq, Option.some.injEq] at h
        obtain ⟨rfl, rfl⟩ := h
        exact ⟨rfl, _, hrest', frameRead_take s f _ _⟩
      · cases h
    · cases h
  · cases h

/-- A stream that ends inside a frame: a proper prefix of one, the empty one included. -/
def Torn (tail : List UInt8) : Prop := ∃ f : Frame, tail <+: f.encode ∧ tail ≠ f.encode

theorem Torn.short {tail : List UInt8} {f : Frame} (hpre : tail <+: f.encode)
    (hne : tail ≠ f.encode) : tail.length < f.encode.length := by
  have hle := hpre.length_le
  have : tail.length ≠ f.encode.length := fun h => hne (hpre.eq_of_length h)
  omega

/-- What a stream gives that ends before its first frame is complete. -/
theorem getNextPacket_torn {s : NetbiosSession} (hlive : Chunks.Live s.tcp.inbox)
    (htorn : Torn s.tcp.inbox.flatten) : (netbiosSessionGetNextPacket s).1 = none := by
  obtain ⟨f, hpre, hne⟩ := htorn
  have hshort := Torn.short hpre hne
  rw [Frame.encode_length] at hshort
  unfold netbiosSessionGetNextPacket
  by_cases hready : s.ready = true
  swap
  · simp [hready]
  rw [if_pos hready]
  by_cases hhead : s.tcp.inbox.flatten.length < netbiosHeaderSize
  · simp [recvLoop_eq, Chunks.readN_short hhead]
  · -- the header is complete and announces the frame's payload, of which some is missing
    obtain ⟨inbox, hloop, -, hrest⟩ := recvLoop_header hlive (by omega)
    have htake : s.tcp.inbox.flatten.take netbiosHeaderSize = f.encode.take netbiosHeaderSize :=
      (List.prefix_iff_eq_take.mp hpre ▸ List.take_take ..).trans (by congr 1; omega)
    have hlen : inbox.flatten.length < f.payload.length := by
      rw [hrest, List.length_drop]
      omega
    rw [htake] at hloop
    have htotal := f.total_of_header (read_header_take s inbox (by simp))
    rw [hloop]
    simp only [if_true, htotal, recvLoop_eq, reserve_tcp]
    have hfail : (Chunks.readN f.payload.length f.payload.length
        (s.take 0 (f.encode.take netbiosHeaderSize) inbox).tcp.inbox).2.1 = false :=
      Chunks.readN_short hlen
    simp [hfail]

/-! ## Whatever arrives

On any stream a receive takes bytes off the connection and logs one event, and does no more to
it. -/

theorem getNextPacket_tcp (s : NetbiosSession) :
    ∃ inbox, (netbiosSessionGetNextPacket s).2.tcp = { s.tcp with inbox } := by
  unfold netbiosSessionGetNextPacket
  split
  · simp only [recvLoop_eq]
    split
    · split <;> exact ⟨_, by rw [take_tcp, reserve_tcp, take_tcp]⟩
    · exact ⟨_, rfl⟩
  · exact ⟨s.tcp.inbox, rfl⟩

theorem recvPackets_tcp (fuel : Nat) (s : NetbiosSession) :
    ∃ inbox, (netbiosSessionRecvPackets fuel s).2.tcp = { s.tcp with inbox } := by
  induction fuel generalizing s with
  | zero => exact ⟨s.tcp.inbox, rfl⟩
  | succ fuel ih =>
    obtain ⟨inbox, htcp⟩ := getNextPacket_tcp s
    rw [netbiosSessionRecvPackets]
    generalize netbiosSessionGetNextPacket s = r at htcp ⊢
    obtain ⟨size, s'⟩ := r
    cases size with
    | none => exact ⟨inbox, htcp⟩
    | some size =>
      dsimp only at htcp ⊢
      split
      · obtain ⟨inbox', htcp'⟩ := ih s'
        exact ⟨inbox', by rw [htcp', htcp]⟩
      · exact ⟨inbox, htcp⟩

/-- The event a receive logs: the frame that is then in the block, or the failure. -/
def recvEvent (size : Option Nat) (m : Mem) : NetEvent :=
  match size with
  | none => .recvFailed
  | some size => .received (m 0) (m.read netbiosHeaderSize size)

theorem packetRecv_tcp (s : NetbiosSession) :
    ∃ inbox, (netbiosSessionPacketRecv s).2.tcp =
      { s.tcp with
        inbox
        log := s.tcp.log ++ [recvEvent (netbiosSessionPacketRecv s).1
          (netbiosSessionPacketRecv s).2.packet.bytes] } := by
  obtain ⟨inbox, htcp⟩ := recvPackets_tcp (s.tcp.inbox.flatten.length + 1) s
  refine ⟨inbox, ?_⟩
  rw [netbiosSessionPacketRecv]
  generalize netbiosSessionRecvPackets (s.tcp.inbox.flatten.length + 1) s = r at htcp ⊢
  obtain ⟨size, s'⟩ := r
  dsimp only at htcp
  cases size with
  | none => simp [NetbiosSession.note, recvEvent, htcp]
  | some size => simp [NetbiosSession.note, recvEvent, htcp]

theorem frameTotal_lt (m : Mem) : frameTotal m < 131072 := by
  have h1 := (m 2).toNat_lt
  have h2 := (m 3).toNat_lt
  have h3 : (m 1).toNat &&& 1 < 2 := Nat.and_lt_two_pow (m 1).toNat (show 1 < 2 ^ 1 by decide)
  apply Nat.or_lt_two_pow (n := 17)
  · omega
  · rw [Nat.shiftLeft_eq]
    omega

/-- A loop that got all it asked for has taken that much off the stream. -/
theorem recvLoop_consumes {fuel off need : Nat} {s : NetbiosSession}
    (h : (netbiosSessionRecvLoop fuel s off need).1 = true) :
    need + (netbiosSessionRecvLoop fuel s off need).2.tcp.inbox.flatten.length =
      s.tcp.inbox.flatten.length := by
  rw [recvLoop_eq] at h ⊢
  have hlen := Chunks.readN_length_eq h
  have hsplit := congrArg List.length (Chunks.readN_flatten fuel need s.tcp.inbox)
  rw [List.length_append, hlen] at hsplit
  exact hsplit

/-- A packet takes its header and its payload off the stream. -/
theorem getNextPacket_some {s s' : NetbiosSession} {size : Nat}
    (h : netbiosSessionGetNextPacket s = (some size, s')) :
    size < 131072 ∧
      netbiosHeaderSize + size + s'.tcp.inbox.flatten.length = s.tcp.inbox.flatten.length := by
  unfold netbiosSessionGetNextPacket at h
  split at h
  · dsimp only at h
    split at h
    · rename_i hheader
      split at h
      · rename_i hpayload
        rw [Prod.mk.injEq, Option.some.injEq] at h
        obtain ⟨rfl, rfl⟩ := h
        have hhead := recvLoop_consumes hheader
        have hbody := recvLoop_consumes hpayload
        rw [reserve_tcp] at hbody
        exact ⟨frameTotal_lt _, by omega⟩
      · cases h
    · cases h
  · cases h

/-- A receive that returns a frame has taken bytes off the stream. -/
theorem recvPackets_some {fuel : Nat} {s s' : NetbiosSession} {size : Nat}
    (h : netbiosSessionRecvPackets fuel s = (some size, s')) :
    size < 131072 ∧ s'.tcp.inbox.flatten.length < s.tcp.inbox.flatten.length := by
  induction fuel generalizing s with
  | zero => cases h
  | succ fuel ih =>
    rw [netbiosSessionRecvPackets] at h
    generalize hget : netbiosSessionGetNextPacket s = r at h
    obtain ⟨got, t⟩ := r
    cases got with
    | none => cases h
    | some got =>
      obtain ⟨hlt, hlen⟩ := getNextPacket_some hget
      rw [netbiosHeaderSize] at hlen
      dsimp only at h
      split at h
      · obtain ⟨hlt', hlen'⟩ := ih h
        exact ⟨hlt', by omega⟩
      · rw [Prod.mk.injEq, Option.some.injEq] at h
        obtain ⟨rfl, rfl⟩ := h
        exact ⟨hlt, by omega⟩

theorem packetRecv_some {s : NetbiosSession} {size : Nat}
    (h : (netbiosSessionPacketRecv s).1 = some size) :
    size < 131072 ∧
      (netbiosSessionPacketRecv s).2.tcp.inbox.flatten.length < s.tcp.inbox.flatten.length := by
  unfold netbiosSessionPacketRecv at h ⊢
  generalize hrecv : netbiosSessionRecvPackets (s.tcp.inbox.flatten.length + 1) s = r at h ⊢
  obtain ⟨got, t⟩ := r
  cases got with
  | none => cases h
  | some got =>
    obtain rfl : got = size := Option.some.inj h
    obtain ⟨hlt, hlen⟩ := recvPackets_some hrecv
    exact ⟨hlt, hlen⟩

/-- A receive neither opens nor closes the socket. -/
theorem getNextPacket_ready (s : NetbiosSession) :
    (netbiosSessionGetNextPacket s).2.ready = s.ready := by
  have htake : ∀ (s : NetbiosSession) off bs inbox, (s.take off bs inbox).ready = s.ready :=
    fun _ _ _ _ => rfl
  have hreserve : ∀ (s : NetbiosSession) total, (netbiosSessionReserve s total).ready = s.ready := by
    intro s total
    unfold netbiosSessionReserve
    split <;> rfl
  unfold netbiosSessionGetNextPacket
  split
  · simp only [recvLoop_eq]
    split
    · split <;> rw [htake, hreserve, htake]
    · rw [htake]
  · rfl

theorem recvPackets_ready (fuel : Nat) (s : NetbiosSession) :
    (netbiosSessionRecvPackets fuel s).2.ready = s.ready := by
  induction fuel generalizing s with
  | zero => rfl
  | succ fuel ih =>
    have hready := getNextPacket_ready s
    rw [netbiosSessionRecvPackets]
    generalize netbiosSessionGetNextPacket s = r at hready ⊢
    obtain ⟨size, s'⟩ := r
    cases size with
    | none => exact hready
    | some size =>
      dsimp only at hready ⊢
      split
      · exact (ih s').trans hready
      · exact hready

theorem packetRecv_ready (s : NetbiosSession) : (netbiosSessionPacketRecv s).2.ready = s.ready := by
  have hready := recvPackets_ready (s.tcp.inbox.flatten.length + 1) s
  rw [netbiosSessionPacketRecv]
  generalize netbiosSessionRecvPackets (s.tcp.inbox.flatten.length + 1) s = r at hready ⊢
  obtain ⟨size, s'⟩ := r
  cases size <;> exact hready

end Libdsm
