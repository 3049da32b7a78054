import Libdsm.Netbios.Proofs.Recv
import Mathlib.Logic.Function.Iterate

/-!
# Stream reassembly

`netbios_session_packet_recv` turns the byte stream of the peer into frames. The stream is any
sequence of frames, possibly followed by the beginning of one that never completes, and the socket
hands it over in any live chunks. The k-th call returns the k-th frame that is not a keepalive and
leaves the stream at the first byte after it; the call after the last of them fails.
-/

namespace Libdsm

/-- What the keepalive loop stops at: the first frame that is no keepalive, and those after it. -/
def nextFrame : List Frame → Option (Frame × List Frame)
  | [] => none
  | f :: fs => if f.isKeepalive then nextFrame fs else some (f, fs)

/-- The number of frames a receiver gets to see. -/
def dataCount (fs : List Frame) : Nat := (fs.filter fun f => !f.isKeepalive).length

theorem nextFrame_keepalives {q : List Frame} (hq : ∀ f ∈ q, f.isKeepalive = true)
    (fs : List Frame) : nextFrame (q ++ fs) = nextFrame fs := by
  induction q with
  | nil => rfl
  | cons f q ih =>
    have hf := hq f (by simp)
    rw [List.cons_append, nextFrame, if_pos hf]
    exact ih fun x hx => hq x (List.mem_cons_of_mem _ hx)

/-- The session can receive, and its stream stands at the first byte of `fs`. -/
structure StreamAt (s : NetbiosSession) (fs : List Frame) (tail : List UInt8) : Prop where
  ready : s.ready = true
  live : Chunks.Live s.tcp.inbox
  stream : s.tcp.inbox.flatten = fs.flatMap Frame.encode ++ tail

/-- The keepalive loop on a stream of frames. The bytes left bound the turns it may need. -/
theorem recvPackets_frame {s : NetbiosSession} {fs : List Frame} {tail : List UInt8}
    (h : StreamAt s fs tail) {f : Frame} {post : List Frame} (hnext : nextFrame fs = some (f, post))
    {fuel : Nat} (hfuel : s.tcp.inbox.flatten.length < fuel) :
    ∃ m inbox s', netbiosSessionRecvPackets fuel s = (some f.payload.length, s') ∧
      Chunks.Live inbox ∧ inbox.flatten = post.flatMap Frame.encode ++ tail ∧
      FrameRead { s with packet := { s.packet with bytes := m } } f inbox s' ∧
      f.isKeepalive = false ∧ (fs = f :: post → m = s.packet.bytes) := by
  induction fs generalizing s fuel with
  | nil => simp [nextFrame] at hnext
  | cons g fs ih =>
    obtain ⟨hready, hlive, hin⟩ := h
    rw [List.flatMap_cons, List.append_assoc] at hin
    obtain ⟨inbox, s', hget, hlive', hrest, hread⟩ := getNextPacket_frame hready hlive g _ hin
    cases fuel with
    | zero => omega
    | succ fuel =>
      rw [netbiosSessionRecvPackets, hget]
      simp only [hread.opcode]
      by_cases hg : g.isKeepalive = true
      · rw [nextFrame, if_pos hg] at hnext
        have hop : g.opcode = netbiosOpSessionKeepalive := by simpa [Frame.isKeepalive] using hg
        have hinbox : s'.tcp.inbox = inbox := by rw [hread.tcp]
        have hat : StreamAt s' fs tail :=
          ⟨hread.ready.trans hready, hinbox ▸ hlive', hinbox ▸ hrest⟩
        have hless : s'.tcp.inbox.flatten.length < fuel := by
          have := congrArg List.length hin
          rw [List.length_append, ← hrest, Frame.encode_length, netbiosHeaderSize] at this
          rw [hinbox]
          omega
        obtain ⟨m, inbox'', s'', heq, hl, hf, hr, hk, -⟩ := ih hat hnext hless
        refine ⟨m, inbox'', s'', ?_, hl, hf, ⟨hr.socketOpen.trans hread.socketOpen,
          hr.state.trans hread.state, hr.cursor.trans hread.cursor, hr.bytes, ?_⟩, hk, ?_⟩
        · rw [if_pos hop, heq]
        · rw [hr.tcp, hread.tcp]
        · intro hcons
          rw [(List.cons.inj hcons).1, hk] at hg
          simp at hg
      · rw [nextFrame, if_neg hg] at hnext
        obtain ⟨rfl, rfl⟩ : g = f ∧ fs = post := by simpa using hnext
        have hop : ¬ g.opcode = netbiosOpSessionKeepalive := by simpa [Frame.isKeepalive] using hg
        exact ⟨s.packet.bytes, inbox, s', by rw [if_neg hop], hlive', hrest, hread,
          by simpa using hg, fun _ => rfl⟩

/-- A stream of keepalives that then ends gives nothing. -/
theorem recvPackets_none {s : NetbiosSession} {fs : List Frame} {tail : List UInt8}
    (h : StreamAt s fs tail) (htail : Torn tail) (hnext : nextFrame fs = none) (fuel : Nat) :
    (netbiosSessionRecvPackets fuel s).1 = none := by
  induction fs generalizing s fuel with
  | nil =>
    have htorn : Torn s.tcp.inbox.flatten := by rw [h.stream]; simpa using htail
    have hnone := getNextPacket_torn h.live htorn
    cases fuel with
    | zero => rfl
    | succ fuel =>
      rw [netbiosSessionRecvPackets]
      generalize netbiosSessionGetNextPacket s = r at hnone ⊢
      obtain ⟨size, s'⟩ := r
      simp only at hnone
      subst hnone
      rfl
  | cons g fs ih =>
    obtain ⟨hready, hlive, hin⟩ := h
    rw [List.flatMap_cons, List.append_assoc] at hin
    obtain ⟨inbox, s', hget, hlive', hrest, hread⟩ := getNextPacket_frame hready hlive g _ hin
    have hg : g.isKeepalive = true := by
      by_contra hg
      rw [nextFrame, if_neg hg] at hnext
      exact absurd hnext (by simp)
    rw [nextFrame, if_pos hg] at hnext
    have hop : g.opcode = netbiosOpSessionKeepalive := by simpa [Frame.isKeepalive] using hg
    have hinbox : s'.tcp.inbox = inbox := by rw [hread.tcp]
    cases fuel with
    | zero => rfl
    | succ fuel =>
      rw [netbiosSessionRecvPackets, hget]
      simp only [hread.opcode, if_pos hop]
      exact ih ⟨hread.ready.trans hready, hinbox ▸ hlive', hinbox ▸ hrest⟩ hnext fuel

/-- One call of `netbios_session_packet_recv`: the next frame is in the block and the stream stands
after it. Unless keepalives came before the frame, the rest of the block is untouched. -/
theorem packetRecv_frame {s : NetbiosSession} {fs : List Frame} {tail : List UInt8}
    (h : StreamAt s fs tail) {f : Frame} {post : List Frame}
    (hnext : nextFrame fs = some (f, post)) :
    ∃ m inbox s', netbiosSessionPacketRecv s =
        (some f.payload.length, s'.note (.received f.opcode f.payload)) ∧
      FrameRead { s with packet := { s.packet with bytes := m } } f inbox s' ∧
      StreamAt (s'.note (.received f.opcode f.payload)) post tail ∧
      (fs = f :: post → m = s.packet.bytes) := by
  obtain ⟨m, inbox, s', heq, hlive, hrest, hread, -, hm⟩ :=
    recvPackets_frame h hnext (Nat.lt_succ_self s.tcp.inbox.flatten.length)
  have hinbox : s'.tcp.inbox = inbox := by rw [hread.tcp]
  refine ⟨m, inbox, s', ?_, hread, ⟨hread.ready.trans h.ready, ?_, ?_⟩, hm⟩
  · rw [netbiosSessionPacketRecv, heq]
    simp only [hread.opcode, hread.payload]
  · exact (hinbox ▸ hlive : Chunks.Live s'.tcp.inbox)
  · exact (hinbox ▸ hrest : s'.tcp.inbox.flatten = _)

theorem packetRecv_none {s : NetbiosSession} {fs : List Frame} {tail : List UInt8}
    (h : StreamAt s fs tail) (htail : Torn tail) (hnext : nextFrame fs = none) :
    (netbiosSessionPacketRecv s).1 = none := by
  have hnone := recvPackets_none h htail hnext (s.tcp.inbox.flatten.length + 1)
  rw [netbiosSessionPacketRecv]
  generalize netbiosSessionRecvPackets (s.tcp.inbox.flatten.length + 1) s = r at hnone ⊢
  obtain ⟨size, s'⟩ := r
  simp only at hnone
  subst hnone
  rfl

/-- Whatever the socket does: a receive that returns on a stream of frames has returned the next
frame that is no keepalive. -/
theorem recvPackets_exact {fuel : Nat} {s s' : NetbiosSession} {size : Nat}
    (h : netbiosSessionRecvPackets fuel s = (some size, s')) {fs : List Frame}
    (hin : s.tcp.inbox.flatten = fs.flatMap Frame.encode) :
    ∃ f post, nextFrame fs = some (f, post) ∧
      s'.packet.bytes.read netbiosHeaderSize size = f.payload ∧
      s'.tcp.inbox.flatten = post.flatMap Frame.encode := by
  induction fs generalizing s fuel with
  | nil =>
    have hlen := (recvPackets_some h).2
    rw [hin] at hlen
    exact absurd hlen (Nat.not_lt_zero _)
  | cons g fs ih =>
    cases fuel with
    | zero => cases h
    | succ fuel =>
      rw [netbiosSessionRecvPackets] at h
      generalize hget : netbiosSessionGetNextPacket s = r at h
      obtain ⟨got, t⟩ := r
      cases got with
      | none => cases h
      | some got =>
        obtain ⟨rfl, inbox, hrest, hread⟩ := getNextPacket_exact hget g _ hin
        have hinbox : t.tcp.inbox = inbox := by rw [hread.tcp]
        dsimp only at h
        rw [hread.opcode] at h
        by_cases hg : g.isKeepalive = true
        · have hop : g.opcode = netbiosOpSessionKeepalive := by simpa [Frame.isKeepalive] using hg
          rw [if_pos hop] at h
          rw [nextFrame, if_pos hg]
          exact ih h (hinbox ▸ hrest)
        · have hop : ¬ g.opcode = netbiosOpSessionKeepalive := by
            simpa [Frame.isKeepalive] using hg
          rw [if_neg hop, Prod.mk.injEq, Option.some.injEq] at h
          obtain ⟨rfl, rfl⟩ := h
          exact ⟨g, fs, by rw [nextFrame, if_neg hg], hread.payload, hinbox ▸ hrest⟩

theorem packetRecv_exact {s : NetbiosSession} {size : Nat}
    (h : (netbiosSessionPacketRecv s).1 = some size) {fs : List Frame}
    (hin : s.tcp.inbox.flatten = fs.flatMap Frame.encode) :
    ∃ f post, nextFrame fs = some (f, post) ∧
      (netbiosSessionPacketRecv s).2.packet.bytes.read netbiosHeaderSize size = f.payload ∧
      (netbiosSessionPacketRecv s).2.tcp.inbox.flatten = post.flatMap Frame.encode := by
  unfold netbiosSessionPacketRecv at h ⊢
  generalize hrecv : netbiosSessionRecvPackets (s.tcp.inbox.flatten.length + 1) s = r at h ⊢
  obtain ⟨got, t⟩ := r
  cases got with
  | none => cases h
  | some got =>
    obtain rfl : got = size := Option.some.inj h
    exact recvPackets_exact hrecv hin

/-- The session after `k` calls of `netbios_session_packet_recv`. -/
def afterRecvs (k : Nat) (s : NetbiosSession) : NetbiosSession :=
  (fun s => (netbiosSessionPacketRecv s).2)^[k] s

/-- After as many calls as `pre` has data frames, at most keepalives of `pre` are left. -/
theorem afterRecvs_at {s : NetbiosSession} (pre post : List Frame) {tail : List UInt8}
    (h : StreamAt s (pre ++ post) tail) :
    ∃ q, (∀ f ∈ q, f.isKeepalive = true) ∧
      StreamAt (afterRecvs (dataCount pre) s) (q ++ post) tail := by
  generalize hn : dataCount pre = n
  induction n generalizing s pre with
  | zero =>
    refine ⟨pre, ?_, h⟩
    simpa [dataCount, List.filter_eq_nil_iff] using hn
  | succ n ih =>
    obtain ⟨g, gs, hfilter⟩ := List.exists_cons_of_length_eq_add_one hn
    obtain ⟨q, pre', rfl, hq, hg, rfl⟩ := List.filter_eq_cons_iff.mp hfilter
    have hnext : nextFrame ((q ++ g :: pre') ++ post) = some (g, pre' ++ post) := by
      rw [List.append_assoc, nextFrame_keepalives (by simpa using hq), List.cons_append, nextFrame,
        if_neg (by simpa using hg)]
    obtain ⟨m, inbox, s', heq, -, hat, -⟩ := packetRecv_frame h hnext
    have hcount : dataCount pre' = n := by
      rw [dataCount, hfilter, List.length_cons] at hn
      exact Nat.succ.inj hn
    obtain ⟨q', hq', hat'⟩ := ih pre' hat hcount
    refine ⟨q', hq', ?_⟩
    rwa [afterRecvs, Function.iterate_succ_apply, heq]

/-- Successive calls return the frames that are no keepalives, in order, each leaving the stream at
the first byte after its frame; when none is left the call fails. -/
theorem netbiosSessionPacketRecv_reassembles (s : NetbiosSession) (hready : s.ready = true)
    (frames : List Frame) (tail : List UInt8) (htail : Torn tail)
    (hlive : Chunks.Live s.tcp.inbox)
    (hin : s.tcp.inbox.flatten = frames.flatMap Frame.encode ++ tail) :
    (∀ pre f post, frames = pre ++ f :: post → f.isKeepalive = false →
      ∃ s', netbiosSessionPacketRecv (afterRecvs (dataCount pre) s) =
          (some f.payload.length, s') ∧
        s'.packet.bytes 0 = f.opcode ∧
        s'.packet.bytes.read netbiosHeaderSize f.payload.length = f.payload ∧
        s'.tcp.inbox.flatten = post.flatMap Frame.encode ++ tail) ∧
    (netbiosSessionPacketRecv (afterRecvs (dataCount frames) s)).1 = none := by
  constructor
  · rintro pre f post rfl hf
    obtain ⟨q, hq, hat⟩ := afterRecvs_at pre (f :: post) ⟨hready, hlive, hin⟩
    have hnext : nextFrame (q ++ f :: post) = some (f, post) := by
      rw [nextFrame_keepalives hq, nextFrame, if_neg (by simp [hf])]
    obtain ⟨m, inbox, s', heq, hread, hat', -⟩ := packetRecv_frame hat hnext
    exact ⟨_, heq, hread.opcode, hread.payload, hat'.stream⟩
  · obtain ⟨q, hq, hat⟩ :=
      afterRecvs_at frames [] ⟨hready, hlive, by simpa using hin⟩
    exact packetRecv_none hat htail (nextFrame_keepalives hq [])

/-- A keepalive and a three-byte message, cut across both headers; the stream then ends after two
bytes of another header. -/
theorem netbiosSessionPacketRecv_reassembles_cut :
    let s := netbiosSessionOn (fun _ => 0)
      (.silent [] [[0x85], [0, 0, 0, 0], [0, 0, 3, 7], [8, 9, 0], [0]]) 8192
    let f : Frame := ⟨0, 0, [7, 8, 9], rfl⟩
    ∃ s', netbiosSessionPacketRecv s = (some 3, s') ∧
      s'.packet.bytes.read netbiosHeaderSize 3 = [7, 8, 9] ∧ s'.tcp.inbox.flatten = [0, 0] ∧
      (netbiosSessionPacketRecv (afterRecvs (dataCount [⟨0x85, 0, [], rfl⟩, f]) s)).1 = none := by
  intro s f
  have h := netbiosSessionPacketRecv_reassembles s rfl [⟨0x85, 0, [], rfl⟩, f] [0, 0]
    ⟨f, ⟨[0, 3, 7, 8, 9], by decide⟩, by decide⟩ (by simp [Chunks.Live, s, netbiosSessionOn,
      netbiosSessionNew, Tcp.silent]) (by decide)
  obtain ⟨s', heq, -, hpay, hrest⟩ := h.1 [⟨0x85, 0, [], rfl⟩] f [] rfl rfl
  exact ⟨s', heq, hpay, hrest, h.2⟩

end Libdsm
