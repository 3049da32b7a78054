import Libdsm.Misc.Runs
import Libdsm.Netbios.Proofs.Framing
import Libdsm.Smb.Proofs.Exchange

/-!
# Whole frames on the wire

What a sequence of `smb_session_send_msg` calls puts on the wire, for any socket. The socket may take
any prefix of a frame; the call then fails and leaves the connection as it is, so that the next call
starts a frame in the middle of the last one. If the socket takes nothing more once it has taken a part
of a frame, and no message is longer than the length field can say, the wire holds frames of the messages
offered.
-/

namespace Libdsm

/-! ## Frames of messages -/

/-- The wire is a concatenation of complete frames, of messages offered in this order. -/
def WholeFrames (offered : List (List UInt8)) (wire : List UInt8) : Prop :=
  ∃ frames : List Frame, (frames.map (·.payload)).Sublist offered ∧
    wire = frames.flatMap Frame.encode

/-- The wire ends in an incomplete frame of one of the messages offered. -/
def TornFrames (offered : List (List UInt8)) (wire : List UInt8) : Prop :=
  ∃ whole f tail, WholeFrames offered whole ∧ f.payload ∈ offered ∧
    tail <+: Frame.encode f ∧ tail ≠ f.encode ∧ wire = whole ++ tail

theorem wholeFrames_nil (offered : List (List UInt8)) : WholeFrames offered [] :=
  ⟨[], List.nil_sublist _, rfl⟩

theorem WholeFrames.mono {offered more : List (List UInt8)} {wire : List UInt8}
    (h : WholeFrames offered wire) : WholeFrames (offered ++ more) wire := by
  obtain ⟨frames, hsub, hwire⟩ := h
  exact ⟨frames, hsub.trans (List.sublist_append_left offered more), hwire⟩

theorem TornFrames.mono {offered more : List (List UInt8)} {wire : List UInt8}
    (h : TornFrames offered wire) : TornFrames (offered ++ more) wire := by
  obtain ⟨whole, f, tail, hwhole, hmem, hpre, hne, hwire⟩ := h
  exact ⟨whole, f, tail, hwhole.mono, List.mem_append_left more hmem, hpre, hne, hwire⟩

/-- A frame of the message offered next. -/
theorem WholeFrames.append {offered : List (List UInt8)} {wire : List UInt8}
    (h : WholeFrames offered wire) (f : Frame) :
    WholeFrames (offered ++ [f.payload]) (wire ++ f.encode) := by
  obtain ⟨frames, hsub, rfl⟩ := h
  refine ⟨frames ++ [f], ?_, ?_⟩
  · rw [List.map_append]
    exact hsub.append (List.Sublist.refl _)
  · rw [List.flatMap_append, List.flatMap_singleton]

/-- What a single message offered can have put on the wire. -/
theorem WholeFrames.length_single {payload wire : List UInt8} (h : WholeFrames [payload] wire) :
    wire.length = 0 ∨ wire.length = netbiosHeaderSize + payload.length := by
  obtain ⟨frames, hsub, rfl⟩ := h
  rcases List.sublist_singleton.mp hsub with hnil | hone
  · left
    rw [List.map_eq_nil_iff.mp hnil]
    rfl
  · right
    obtain ⟨f, rfl, hf⟩ := List.map_eq_singleton_iff.mp hone
    rw [List.flatMap_singleton, Frame.encode_length, hf]

/-- A message of less than 65536 bytes goes out as one frame. -/
theorem requestFrame_eq (s : SmbSession) (msg : SmbMessage)
    (hlt : (smbRequestBytes s.srv.uid msg).length < 65536) :
    ∃ f : Frame, f.opcode = netbiosOpSessionMsg ∧ f.payload = smbRequestBytes s.srv.uid msg ∧
      s.requestFrame msg = f.encode := by
  have hbuild : Building (smbRequestPacket s.transport.session s.srv.uid msg)
      ([] ++ smbRequestBytes s.srv.uid msg) := by
    apply (Building.init s.transport.session).append
    rw [List.nil_append]
    omega
  rw [List.nil_append] at hbuild
  exact hbuild.frame hlt

/-! ## What one send puts on the wire -/

/-- The session and the messages offered so far, one send on. -/
def sendStep (st : SmbSession × List (List UInt8)) (msg : SmbMessage) :
    SmbSession × List (List UInt8) :=
  ((smbSessionSendMsg msg st.1).2, st.2 ++ [smbRequestBytes st.1.srv.uid msg])

/-- After the send the wire holds complete frames and perhaps an incomplete one at its end, and
nothing was added behind an incomplete one. -/
structure WireFramed (st : SmbSession × List (List UInt8)) (msg : SmbMessage) : Prop where
  framed : WholeFrames (sendStep st msg).2 (sendStep st msg).1.tcp.wire ∨
    TornFrames (sendStep st msg).2 (sendStep st msg).1.tcp.wire
  final : (sendStep st msg).1.tcp.wire = st.1.tcp.wire ∨ WholeFrames st.2 st.1.tcp.wire

/-- The frame of a message, in bytes. -/
def SmbMessage.frameSize (msg : SmbMessage) : Nat := netbiosHeaderSize + (smbHeaderSize + msg.cursor)

/-- Of the frame of `msg` the socket takes a part, and not all of it. -/
def TakesPart (accepted : Nat) (msg : SmbMessage) : Prop := 0 < accepted ∧ accepted < msg.frameSize

/-- The socket stays clear of the defects, if of the messages it accepts as much as `sends` says: once it
has taken a part of a frame it takes nothing more, and a message of which it takes anything is short
enough for the length field. -/
structure SendsClear (sends : List Nat) (msgs : List SmbMessage) : Prop where
  last : ∀ i j msg, msgs[i]? = some msg → TakesPart (sends.getD i 0) msg → i < j → j < msgs.length →
    sends.getD j 0 = 0
  short : ∀ (i : Nat) msg, msgs[i]? = some msg → sends.getD i 0 ≠ 0 → smbHeaderSize + msg.cursor < 65536

/-- The wire so far. -/
def WireInv (st : SmbSession × List (List UInt8)) : Prop :=
  WholeFrames st.2 st.1.tcp.wire ∨ TornFrames st.2 st.1.tcp.wire

/-- A prefix of the next frame behind complete ones. -/
theorem wireInv_take {offered : List (List UInt8)} {wire : List UInt8}
    (h : WholeFrames offered wire) (f : Frame) (k : Nat) :
    WholeFrames (offered ++ [f.payload]) (wire ++ f.encode.take k) ∨
      TornFrames (offered ++ [f.payload]) (wire ++ f.encode.take k) := by
  by_cases hk : f.encode.take k = f.encode
  · left
    rw [hk]
    exact h.append f
  · right
    exact ⟨wire, f, f.encode.take k, h.mono, by simp, List.take_prefix _ _, hk, rfl⟩

theorem WireInv.mono {offered more : List (List UInt8)} {s : SmbSession} (h : WireInv (s, offered)) :
    WireInv (s, offered ++ more) :=
  Or.imp (fun h => h.mono) (fun h => h.mono) h

theorem getD_tail (sends : List Nat) (k : Nat) : sends.tail.getD k 0 = sends.getD (k + 1) 0 := by
  cases sends <;> rfl

theorem headD_getD (sends : List Nat) : sends.headD 0 = sends.getD 0 0 := by cases sends <;> rfl

theorem SendsClear.tail {sends : List Nat} {msg : SmbMessage} {msgs : List SmbMessage}
    (h : SendsClear sends (msg :: msgs)) : SendsClear sends.tail msgs where
  last i j m hm hpart hij hj := by
    rw [getD_tail] at hpart ⊢
    exact h.last (i + 1) (j + 1) m hm hpart (Nat.succ_lt_succ hij) (Nat.succ_lt_succ hj)
  short i m hm htakes := by
    rw [getD_tail] at htakes
    exact h.short (i + 1) m hm htakes

/-- Nothing more goes out: the session is not connected, or the socket takes nothing of the messages. -/
def Quiet (st : SmbSession × List (List UInt8)) (msgs : List SmbMessage) : Prop :=
  st.1.transport.session.ready = false ∨ ∀ k < msgs.length, st.1.tcp.sends.getD k 0 = 0

theorem Quiet.step {st : SmbSession × List (List UInt8)} {msg : SmbMessage} {msgs : List SmbMessage}
    (h : Quiet st (msg :: msgs)) :
    (sendStep st msg).1.tcp.wire = st.1.tcp.wire ∧ Quiet (sendStep st msg) msgs := by
  have hready := sendMsg_ready st.1 msg
  obtain ⟨-, htcp, hoff⟩ | ⟨-, htcp, -, hon⟩ | ⟨-, hon, hfull, -⟩ := sendMsg_cases st.1 msg
  · exact ⟨by rw [sendStep, htcp], .inl (hready.trans hoff)⟩
  · have hnone := h.resolve_left (by rw [hon]; decide)
    have hhead : st.1.tcp.sends.headD 0 = 0 := by rw [headD_getD, hnone 0 (Nat.succ_pos _)]
    refine ⟨by rw [sendStep, htcp, Tcp.torn, hhead, List.take_zero, List.append_nil], .inr ?_⟩
    intro k hk
    rw [sendStep, htcp, Tcp.torn, getD_tail]
    exact hnone (k + 1) (Nat.succ_lt_succ hk)
  · -- a frame is never empty, so that a socket that takes nothing does not take all of it
    have hnone := h.resolve_left (by rw [hon]; decide)
    rw [headD_getD, hnone 0 (Nat.succ_pos _), SmbSession.requestFrame, NetbiosSession.frame_length,
      netbiosHeaderSize] at hfull
    omega

/-- Behind the last frame, torn or not, the wire stays as it is. -/
theorem quiet_framed (msgs : List SmbMessage) {st : SmbSession × List (List UInt8)} (h : WireInv st)
    (hquiet : Quiet st msgs) : Along sendStep WireFramed st msgs := by
  induction msgs generalizing st with
  | nil => trivial
  | cons msg msgs ih =>
    obtain ⟨hwire, hrest⟩ := hquiet.step
    have hinv : WireInv (sendStep st msg) := by
      rw [WireInv, hwire]
      exact h.mono
    exact ⟨⟨hinv, .inl hwire⟩, ih hinv hrest⟩

/-- Behind complete frames. -/
theorem clear_framed (msgs : List SmbMessage) {st : SmbSession × List (List UInt8)}
    (h : WholeFrames st.2 st.1.tcp.wire) (hclear : SendsClear st.1.tcp.sends msgs) :
    Along sendStep WireFramed st msgs := by
  induction msgs generalizing st with
  | nil => trivial
  | cons msg msgs ih =>
    have hhead := headD_getD st.1.tcp.sends
    have hshort : st.1.tcp.sends.headD 0 ≠ 0 → ∃ f : Frame,
        f.payload = smbRequestBytes st.1.srv.uid msg ∧ st.1.requestFrame msg = f.encode ∧
        f.encode.length = msg.frameSize := by
      intro htakes
      have hlt := hclear.short 0 msg rfl (hhead ▸ htakes)
      have hlength : (smbRequestBytes st.1.srv.uid msg).length = smbHeaderSize + msg.cursor := by
        rw [smbRequestBytes, SmbMessage.bytes, Mem.read_length]
        rfl
      obtain ⟨f, -, hpayload, hframe⟩ := requestFrame_eq st.1 msg (hlength ▸ hlt)
      exact ⟨f, hpayload, hframe, by rw [Frame.encode_length, hpayload, hlength, SmbMessage.frameSize]⟩
    obtain ⟨-, -, hoff⟩ | ⟨-, htcp, hlt, -⟩ | ⟨hsession, -, hfull, -⟩ := sendMsg_cases st.1 msg
    · exact quiet_framed _ (.inl h) (.inl hoff)
    · have hwire : (sendStep st msg).1.tcp.wire =
          st.1.tcp.wire ++ (st.1.requestFrame msg).take (st.1.tcp.sends.headD 0) := by
        rw [sendStep, htcp, Tcp.torn]
      have hsends : (sendStep st msg).1.tcp.sends = st.1.tcp.sends.tail := by
        rw [sendStep, htcp, Tcp.torn]
      by_cases hzero : st.1.tcp.sends.headD 0 = 0
      · rw [hzero, List.take_zero, List.append_nil] at hwire
        have hwhole : WholeFrames (sendStep st msg).2 (sendStep st msg).1.tcp.wire := by
          rw [hwire]
          exact h.mono
        exact ⟨⟨.inl hwhole, .inl hwire⟩, ih hwhole (hsends ▸ hclear.tail)⟩
      · obtain ⟨f, hpayload, hframe, hsize⟩ := hshort hzero
        have hinv : WireInv (sendStep st msg) := by
          rw [WireInv, hwire, hframe, sendStep, ← hpayload]
          exact wireInv_take h f _
        have hpart : TakesPart (st.1.tcp.sends.getD 0 0) msg := by
          rw [TakesPart, ← hhead, ← hsize, ← hframe]
          exact ⟨Nat.pos_of_ne_zero hzero, hlt⟩
        have hquiet : Quiet (sendStep st msg) msgs := by
          right
          intro k hk
          rw [hsends, getD_tail]
          exact hclear.last 0 (k + 1) msg rfl hpart (Nat.succ_pos k) (Nat.succ_lt_succ hk)
        exact ⟨⟨hinv, .inr h⟩, quiet_framed msgs hinv hquiet⟩
    · have htcp : (sendStep st msg).1.tcp = st.1.tcp.delivered (st.1.requestFrame msg) := by
        rw [sendStep, SmbSession.tcp, hsession, NetbiosSession.afterSend]
      have htakes : st.1.tcp.sends.headD 0 ≠ 0 := by
        rw [SmbSession.requestFrame, NetbiosSession.frame_length, netbiosHeaderSize] at hfull
        omega
      obtain ⟨f, hpayload, hframe, -⟩ := hshort htakes
      have hwhole : WholeFrames (sendStep st msg).2 (sendStep st msg).1.tcp.wire := by
        rw [htcp, Tcp.delivered, hframe, sendStep, ← hpayload]
        exact h.append f
      refine ⟨⟨.inl hwhole, .inr h⟩, ih hwhole ?_⟩
      rw [htcp, Tcp.delivered]
      exact hclear.tail

/-- Over every run of sends on a connection, for every behaviour of the socket: if it takes nothing more
once it has taken a part of a frame, and nothing of a message that is too long for the length field, the
wire always holds complete frames of the messages offered, and at most one incomplete one after which
nothing more is sent. -/
theorem sends_wholeFrames (s : SmbSession) (hwire : s.tcp.wire = []) (msgs : List SmbMessage)
    (hclear : SendsClear s.tcp.sends msgs) : Along sendStep WireFramed (s, []) msgs := by
  refine clear_framed msgs ?_ hclear
  rw [hwire]
  exact wholeFrames_nil _

/-- A fresh session on a socket that accepts so much of each frame. -/
def sessionSending (sends : List Nat) : SmbSession :=
  { transport :=
    { kind := some .tcp
      session := netbiosSessionOn (fun _ => 0) (.silent sends []) smbDefaultBufsize } }

/-- Ten bytes of one request, and nothing of the next. -/
theorem sends_wholeFrames_torn :
    let s := sessionSending [10, 0]
    let msgs := [smbTreeDisconnectReq .ascii 5, smbTreeDisconnectReq .ascii 5]
    SendsClear s.tcp.sends msgs ∧ Along sendStep WireFramed (s, []) msgs := by
  intro s msgs
  have hclear : SendsClear s.tcp.sends msgs := by
    refine ⟨fun i j msg _ _ hij hj => ?_, fun i msg hmsg _ => ?_⟩
    · obtain rfl : j = 1 := by
        simp only [msgs, List.length_cons, List.length_nil] at hj
        omega
      rfl
    · obtain rfl : msg = smbTreeDisconnectReq .ascii 5 := by
        simpa [msgs] using List.mem_of_getElem? hmsg
      decide +kernel
  exact ⟨hclear, sends_wholeFrames s rfl msgs hclear⟩

/-- Ten bytes of one request, and then all of the next: the second frame starts inside the first. -/
theorem sends_behind_torn :
    ¬ Along sendStep WireFramed (sessionSending [10, 65539], [])
      [smbTreeDisconnectReq .ascii 5, smbTreeDisconnectReq .ascii 5] := by
  intro h
  rcases h.2.1.final with hsame | hwhole
  · revert hsame
    decide +kernel
  · rcases hwhole.length_single with hlen | hlen
    · revert hlen
      decide +kernel
    · revert hlen
      decide +kernel

end Libdsm
