import Libdsm.Netbios.Proofs.Reassembly
import Libdsm.Smb.Proofs.Request
import Libdsm.Smb.Trans2

/-!
# TRANS2 answers

A server that answers every request with a list of messages, and the reassembly of a TRANS2 answer
from the messages it was cut into. `Talks` says where a conversation stands: what the server has
sent and nobody has read, and what it will answer to the requests to come. A send moves the next
answer into the inbox and a receive takes one message out of it. On an answer that is cut into
fragments, `smb_tr2_recv` gives the parameters and the data as if they had come in one message.
-/

namespace Libdsm

/-! ## Messages on a stream -/

/-- The messages of a stream of frames. -/
def messages (fs : List Frame) : List (List UInt8) :=
  (fs.filter fun f => !f.isKeepalive).map (·.payload)

/-- The chunks carry these messages, in any frames and with keepalives anywhere between them. -/
structure Delivers (chunks : List Chunk) (msgs : List (List UInt8)) : Prop where
  live : Chunks.Live chunks
  frames : ∃ fs : List Frame, chunks.flatten = fs.flatMap Frame.encode ∧ messages fs = msgs

/-- The same of a socket that may fail between any two chunks. -/
def Carried (chunks : List Chunk) (msgs : List (List UInt8)) : Prop :=
  ∃ fs : List Frame, chunks.flatten = fs.flatMap Frame.encode ∧ messages fs = msgs

theorem carried_nil : Carried [] [] := ⟨[], rfl, rfl⟩

theorem Carried.append {xs ys : List Chunk} {ms ns : List (List UInt8)} (hx : Carried xs ms)
    (hy : Carried ys ns) : Carried (xs ++ ys) (ms ++ ns) := by
  obtain ⟨fs, hfs, rfl⟩ := hx
  obtain ⟨gs, hgs, rfl⟩ := hy
  refine ⟨fs ++ gs, ?_, ?_⟩
  · rw [List.flatten_append, List.flatMap_append, hfs, hgs]
  · rw [messages, List.filter_append, List.map_append]
    rfl

theorem Delivers.frame {f : Frame} (h : f.opcode = 0) : Delivers [f.encode] [f.payload] := by
  have hkeepalive : f.isKeepalive = false := by
    rw [Frame.isKeepalive, h]
    rfl
  refine ⟨by simp [Chunks.Live, Frame.encode], [f], by simp, ?_⟩
  simp [messages, hkeepalive]

theorem Delivers.append {xs ys : List Chunk} {ms ns : List (List UInt8)} (hx : Delivers xs ms)
    (hy : Delivers ys ns) : Delivers (xs ++ ys) (ms ++ ns) :=
  ⟨hx.live.append hy.live, Carried.append hx.frames hy.frames⟩

/-- A frame takes bytes, so there are no more messages than bytes. -/
theorem Delivers.length_le {chunks : List Chunk} {msgs : List (List UInt8)}
    (h : Delivers chunks msgs) : msgs.length ≤ chunks.flatten.length := by
  obtain ⟨fs, hfs, rfl⟩ := h.frames
  rw [hfs, messages, List.length_map]
  clear hfs h
  induction fs with
  | nil => simp
  | cons f fs ih =>
    have hle : ((f :: fs).filter fun f => !f.isKeepalive).length ≤
        1 + (fs.filter fun f => !f.isKeepalive).length := by
      rw [List.filter_cons]
      split
      · rw [List.length_cons, Nat.add_comm]
      · exact Nat.le_add_left _ _
    rw [List.flatMap_cons, List.length_append, Frame.encode_length, netbiosHeaderSize]
    omega

/-- The frame that carries the first message. -/
theorem nextFrame_message {fs : List Frame} {m : List UInt8} {ms : List (List UInt8)}
    (h : messages fs = m :: ms) :
    ∃ f post, nextFrame fs = some (f, post) ∧ f.payload = m ∧ messages post = ms := by
  induction fs with
  | nil => simp [messages] at h
  | cons f fs ih =>
    by_cases hf : f.isKeepalive = true
    · have hskip : messages (f :: fs) = messages fs := by simp [messages, hf]
      rw [hskip] at h
      rw [nextFrame, if_pos hf]
      exact ih h
    · have hcons : messages (f :: fs) = f.payload :: messages fs := by simp [messages, hf]
      rw [hcons, List.cons.injEq] at h
      exact ⟨f, fs, by rw [nextFrame, if_neg hf], h.1, h.2⟩

theorem nextFrame_messages {fs : List Frame} {f : Frame} {post : List Frame}
    (h : nextFrame fs = some (f, post)) : messages fs = f.payload :: messages post := by
  induction fs with
  | nil => cases h
  | cons g fs ih =>
    rw [nextFrame] at h
    split at h
    · rename_i hg
      have hskip : messages (g :: fs) = messages fs := by simp [messages, hg]
      rw [hskip]
      exact ih h
    · rename_i hg
      rw [Option.some.injEq, Prod.mk.injEq] at h
      obtain ⟨rfl, rfl⟩ := h
      simp [messages, hg]

/-- A receive that returns has returned the first message carried. -/
theorem Carried.recv {nb : NetbiosSession} {msgs : List (List UInt8)}
    (h : Carried nb.tcp.inbox msgs) {size : Nat}
    (hsize : (netbiosSessionPacketRecv nb).1 = some size) :
    ∃ rest, msgs =
        (netbiosSessionPacketRecv nb).2.packet.bytes.read netbiosHeaderSize size :: rest ∧
      Carried (netbiosSessionPacketRecv nb).2.tcp.inbox rest := by
  obtain ⟨fs, hfs, rfl⟩ := h
  obtain ⟨f, post, hnext, hread, hrest⟩ := packetRecv_exact hsize hfs
  exact ⟨messages post, by rw [hread, nextFrame_messages hnext], post, hrest, rfl⟩

/-! ## The conversation -/

/-- The session is connected, the messages `pending` wait to be read, and the server answers the
requests to come with `replies`. The socket takes the frames of as many requests, of up to `room`
bytes each. -/
structure Talks (room : Nat) (s : SmbSession) (pending : List (List UInt8))
    (replies : List (List (List UInt8))) : Prop where
  ready : s.transport.session.ready = true
  inbox : Delivers s.tcp.inbox pending
  server : ∀ k reply, replies[k]? = some reply →
    ∀ frame, Delivers (s.tcp.server (s.tcp.served + k) frame) reply
  sends : ∀ k < replies.length, room ≤ s.tcp.sends.getD k 0

namespace Talks

variable {room : Nat} {s : SmbSession} {pending : List (List UInt8)}
variable {replies : List (List (List UInt8))}

/-- A request that fits is sent, and the next answer is on its way. -/
theorem send {reply : List (List UInt8)} (h : Talks room s pending (reply :: replies))
    {msg : SmbMessage} (hroom : (s.requestFrame msg).length ≤ room)
    (hlt : (s.requestFrame msg).length < 2 ^ 32) :
    ∃ s', smbSessionSendMsg msg s = (true, s') ∧ Talks room s' (pending ++ reply) replies := by
  have hhead : room ≤ s.tcp.sends.headD 0 := by
    have hzero := h.sends 0 (by simp)
    rwa [List.getD_eq_getElem?_getD, ← List.head?_eq_getElem?, ← List.headD_eq_head?_getD] at hzero
  obtain ⟨-, -, hnot⟩ | ⟨-, -, hshort, -⟩ | ⟨hsession, -, -, hok⟩ := sendMsg_cases s msg
  · rw [h.ready] at hnot
    cases hnot
  · omega
  · have htcp : (smbSessionSendMsg msg s).2.tcp = s.tcp.delivered (s.requestFrame msg) := by
      rw [SmbSession.tcp, hsession, NetbiosSession.afterSend]
    refine ⟨(smbSessionSendMsg msg s).2, Prod.ext (hok hlt) rfl, ?_, ?_, ?_, ?_⟩
    · rw [sendMsg_ready]
      exact h.ready
    · rw [htcp]
      have hanswer := h.server 0 reply rfl (s.requestFrame msg)
      exact h.inbox.append hanswer
    · intro k next hk frame
      have hnext := h.server (k + 1) next (by simpa using hk) frame
      rw [htcp]
      have hplace : s.tcp.served + 1 + k = s.tcp.served + (k + 1) := by omega
      show Delivers (s.tcp.server (s.tcp.served + 1 + k) frame) next
      rw [hplace]
      exact hnext
    · intro k hk
      have hnext := h.sends (k + 1) (by simpa using hk)
      rw [htcp]
      show room ≤ s.tcp.sends.tail.getD k 0
      rwa [List.getD_eq_getElem?_getD, List.getElem?_tail, ← List.getD_eq_getElem?_getD]

/-- A message that waits is received. -/
theorem recv {m : List UInt8} {ms : List (List UInt8)} (h : Talks room s (m :: ms) replies)
    (hlong : smbHeaderSize < m.length) :
    ∃ msg s', smbSessionRecvMsg s = (some msg, s') ∧ msg.Holds m ∧ Talks room s' ms replies := by
  obtain ⟨fs, hfs, hmsgs⟩ := h.inbox.frames
  obtain ⟨f, post, hnext, rfl, hpost⟩ := nextFrame_message hmsgs
  have hat : StreamAt s.transport.session fs [] := by
    refine ⟨h.ready, h.inbox.live, ?_⟩
    rw [List.append_nil]
    exact hfs
  obtain ⟨mem, inbox, nb, heq, hread, hat', -⟩ := packetRecv_frame hat hnext
  have hrecv := recvMsg_eq s
  rw [heq] at hrecv
  have hmsg : receivedMessage f.payload.length
      (nb.note (.received f.opcode f.payload)).packet.bytes = some
        { payloadSize := f.payload.length - smbHeaderSize
          cursor := 0
          packet := nb.packet.bytes.shift netbiosHeaderSize } := by
    rw [receivedMessage, if_neg (by omega)]
    rfl
  have hholds := receivedMessage_holds hmsg
  rw [Option.getD_some, hmsg] at hrecv
  have hpayload : (nb.note (.received f.opcode f.payload)).packet.bytes.read netbiosHeaderSize
      f.payload.length = f.payload := hread.payload
  rw [hpayload] at hholds
  refine ⟨_, _, hrecv, hholds, hat'.ready, ⟨hat'.live, post, ?_, hpost⟩, ?_, ?_⟩
  · have hstream := hat'.stream
    rw [List.append_nil] at hstream
    exact hstream
  · intro k reply hk frame
    have hserver : (nb.note (.received f.opcode f.payload)).tcp.server = s.tcp.server ∧
        (nb.note (.received f.opcode f.payload)).tcp.served = s.tcp.served := by
      simp [NetbiosSession.note, hread.tcp, SmbSession.tcp]
    rw [withNetbios_tcp, hserver.1, hserver.2]
    exact h.server k reply hk frame
  · intro k hk
    have hsends : (nb.note (.received f.opcode f.payload)).tcp.sends = s.tcp.sends := by
      simp [NetbiosSession.note, hread.tcp, SmbSession.tcp]
    rw [withNetbios_tcp, hsends]
    exact h.sends k hk

/-- Every answer to come has a send that asks for it. -/
theorem length_le (h : Talks room s pending replies) (hroom : 0 < room) :
    replies.length ≤ s.tcp.sends.length := by
  cases hlen : replies.length with
  | zero => exact Nat.zero_le _
  | succ n =>
    have hlast := h.sends n (by omega)
    by_contra hshort
    rw [List.getD_eq_getElem?_getD, List.getElem?_eq_none (by omega), Option.getD_none] at hlast
    omega

end Talks

/-! ## Fragments -/

/-- What a message of a TRANS2 answer carries behind its header. -/
def tr2Body (reply : List UInt8) : List UInt8 := reply.drop (smbHeaderSize + SmbTrans2Resp.size)

/-- A message of an answer with `total` bytes of data, which carries `piece` of them and has
`displacement` of them before it. -/
structure Tr2Fragment (total displacement : Nat) (piece reply : List UInt8) : Prop where
  header : smbHeaderSize + SmbTrans2Resp.size ≤ reply.length
  total : (replyU16 reply (smbHeaderSize + 3)).toNat = total
  count : (replyU16 reply (smbHeaderSize + 13)).toNat = piece.length
  displacement : (replyU16 reply (smbHeaderSize + 17)).toNat = displacement

/-- The messages after the first, for the data still to come: each has its piece right behind its
header, and the answer ends when the data do. -/
inductive Tr2Rest (total : Nat) : List UInt8 → List (List UInt8) → Prop where
  | done : Tr2Rest total [] []
  | more {piece rest reply : List UInt8} {replies : List (List UInt8)} :
      piece ++ rest ≠ [] →
      Tr2Fragment total (total - (piece ++ rest).length) piece reply →
      piece <+: tr2Body reply →
      Tr2Rest total rest replies →
      Tr2Rest total (piece ++ rest) (reply :: replies)

/-- The messages of an answer: the first has the parameters and behind them data to its end, the
others the rest of the data. -/
inductive Tr2Answer (params data : List UInt8) : List (List UInt8) → Prop where
  | intro {piece rest reply : List UInt8} {replies : List (List UInt8)} :
      data = piece ++ rest →
      Tr2Fragment data.length 0 piece reply →
      tr2Body reply = params ++ piece →
      Tr2Rest data.length rest replies →
      Tr2Answer params data (reply :: replies)

namespace Tr2Fragment

variable {total displacement : Nat} {piece reply : List UInt8} {msg : SmbMessage}
variable (h : Tr2Fragment total displacement piece reply)

include h

theorem long : smbHeaderSize < reply.length := by
  have hheader := h.header
  rw [SmbTrans2Resp.size] at hheader
  omega

variable (hholds : msg.Holds reply)

include hholds

theorem size_le : SmbTrans2Resp.size ≤ msg.payloadSize := by
  have hheader := h.header
  rw [hholds.length] at hheader
  omega

theorem totalDataCount_eq : (SmbTrans2Resp.totalDataCount msg.payload).toNat = total := by
  have hsize := h.size_le hholds
  rw [SmbTrans2Resp.size] at hsize
  rw [SmbTrans2Resp.totalDataCount, hholds.payload_u16_eq (by omega), h.total]

theorem dataCount_eq : (SmbTrans2Resp.dataCount msg.payload).toNat = piece.length := by
  have hsize := h.size_le hholds
  rw [SmbTrans2Resp.size] at hsize
  rw [SmbTrans2Resp.dataCount, hholds.payload_u16_eq (by omega), h.count]

theorem dataDisplacement_eq :
    (SmbTrans2Resp.dataDisplacement msg.payload).toNat = displacement := by
  have hsize := h.size_le hholds
  rw [SmbTrans2Resp.size] at hsize
  rw [SmbTrans2Resp.dataDisplacement, hholds.payload_u16_eq (by omega), h.displacement]

/-- What `remaining` is after the message: the length of the data behind its piece. -/
theorem remaining_eq {rest : List UInt8} (hle : (piece ++ rest).length ≤ total)
    (hdisp : displacement = total - (piece ++ rest).length) :
    smbTr2Remaining msg.payload = rest.length := by
  rw [List.length_append] at hle hdisp
  rw [smbTr2Remaining, h.totalDataCount_eq hholds, h.dataCount_eq hholds,
    h.dataDisplacement_eq hholds]
  omega

end Tr2Fragment

/-! ## Putting an answer together -/

/-- The message holds the bytes of `content` up to its cursor. -/
structure Gathered (msg : SmbMessage) (content : List UInt8) : Prop where
  cursor : msg.cursor = content.length
  room : content.length ≤ msg.payloadSize
  small : msg.payloadSize < 2 ^ 62
  bytes : msg.payload.read 0 content.length = content

theorem Gathered.append_expands {msg : SmbMessage} {content : List UInt8} (h : Gathered msg content)
    (data : List UInt8) : (smbMessageAppend msg data).payloadSize =
      (smbMessageExpandPayload msg content.length data.length).payloadSize := by
  rw [← h.cursor]
  rfl

/-- Appending a piece, for which the message may have room or not. -/
theorem Gathered.append {msg : SmbMessage} {content : List UInt8} (h : Gathered msg content)
    (data : List UInt8) (hlen : content.length + data.length < 2 ^ 61) :
    Gathered (smbMessageAppend msg data) (content ++ data) := by
  have hroom := h.room
  have hsmall := h.small
  obtain ⟨hfit, hmax⟩ : content.length + data.length ≤ (smbMessageAppend msg data).payloadSize ∧
      (smbMessageAppend msg data).payloadSize ≤
        max msg.payloadSize (content.length + data.length + payloadBlockSize) := by
    rw [h.append_expands]
    exact expandPayload_size msg hroom (by omega) (by omega)
  rw [payloadBlockSize] at hmax
  refine ⟨?_, ?_, ?_, ?_⟩
  · rw [append_cursor, h.cursor, List.length_append]
    exact Nat.mod_eq_of_lt (by omega)
  · rw [List.length_append]
    exact hfit
  · omega
  · have hend := Mem.read_write_end msg.payload 0 content.length data
    rw [Nat.zero_add, h.bytes] at hend
    rw [append_payload, h.cursor, List.length_append]
    exact hend

/-- A piece right behind the header is what the loop appends. -/
theorem Tr2Fragment.read_piece {total displacement : Nat} {piece reply : List UInt8}
    {msg : SmbMessage} (h : Tr2Fragment total displacement piece reply) (hholds : msg.Holds reply)
    (hbody : piece <+: tr2Body reply) :
    msg.payload.read SmbTrans2Resp.size (SmbTrans2Resp.dataCount msg.payload).toNat = piece := by
  have hlen := hbody.length_le
  rw [tr2Body, List.length_drop, hholds.length] at hlen
  have hheader := h.size_le hholds
  rw [h.dataCount_eq hholds, SmbMessage.payload, Mem.read_shift, hholds.read_eq (by omega)]
  exact (List.prefix_iff_eq_take.mp hbody).symm

/-- The loop of `smb_tr2_recv` appends the rest of the answer. -/
theorem tr2RecvLoop_rest {room total : Nat} {replies : List (List (List UInt8))}
    {rest : List UInt8} {pending : List (List UInt8)} (hrest : Tr2Rest total rest pending) :
    ∀ {s : SmbSession} {fuel : Nat} {res : SmbMessage} {content : List UInt8},
      Talks room s pending replies → pending.length < fuel → Gathered res content →
      content.length + rest.length < 2 ^ 61 → rest.length ≤ total →
      ∃ res' s', smbTr2RecvLoop fuel rest.length res s = (res', s') ∧
        Gathered res' (content ++ rest) ∧ Talks room s' [] replies := by
  induction hrest with
  | done =>
    intro s fuel res content htalks hfuel hres _ _
    cases fuel with
    | zero => simp at hfuel
    | succ fuel =>
      refine ⟨res, s, ?_, ?_, htalks⟩
      · rw [smbTr2RecvLoop]
        rfl
      · rw [List.append_nil]
        exact hres
  | @more piece rest reply pending hne hfragment hbody hrest ih =>
    intro s fuel res content htalks hfuel hres hlen htotal
    cases fuel with
    | zero => simp at hfuel
    | succ fuel =>
      obtain ⟨msg, s', hrecv, hholds, htalks'⟩ := htalks.recv hfragment.long
      have hpos : 0 < ((piece ++ rest).length : Int) := by
        have hnat := List.length_pos_iff.mpr hne
        omega
      have hpiece := hfragment.read_piece hholds hbody
      have hremaining := hfragment.remaining_eq hholds htotal rfl
      rw [List.length_append] at hlen htotal
      have hless : pending.length < fuel := by
        rw [List.length_cons] at hfuel
        omega
      obtain ⟨res', s'', hloop, hres', htalks''⟩ := ih htalks' hless
        (hres.append piece (by omega)) (by rw [List.length_append]; omega) (by omega)
      refine ⟨res', s'', ?_, ?_, htalks''⟩
      · rw [smbTr2RecvLoop, if_neg (not_not_intro hpos)]
        show (smbSessionRecvMsg >>= _) s = _
        simp only [bind, StateT.bind, hrecv]
        rw [hpiece, hremaining]
        exact hloop
      · rw [← List.append_assoc]
        exact hres'

/-- The payload of the copy that `smb_message_grow` makes. -/
theorem grown_payload (heap : Mem) (msg : SmbMessage) :
    (heap.write 0 (msg.packet.read 0 (msg.payloadSize + smbHeaderSize))).shift smbHeaderSize =
      (heap.shift smbHeaderSize).write 0 (msg.payload.read 0 msg.payloadSize) := by
  have hsplit := Mem.shift_write_append heap (msg.packet.read 0 smbHeaderSize)
    (msg.packet.read (0 + smbHeaderSize) msg.payloadSize)
  rw [← Mem.read_add, Mem.read_length, Nat.zero_add] at hsplit
  rw [Nat.add_comm, hsplit, SmbMessage.payload, Mem.read_shift, Nat.add_zero]

/-- The message that `smb_tr2_recv` starts from, where the first message declares no more data than
the answer. -/
theorem gathered_grown (P : Platform) {msg : SmbMessage} (hsize : msg.payloadSize < 2 ^ 61)
    (hcount : (SmbTrans2Resp.dataCount msg.payload).toNat ≤
      (SmbTrans2Resp.totalDataCount msg.payload).toNat) :
    ∃ res, smbMessageGrow P msg (smbTr2Growth msg.payload) = some res ∧
      res.payloadSize = msg.payloadSize + ((SmbTrans2Resp.totalDataCount msg.payload).toNat -
        (SmbTrans2Resp.dataCount msg.payload).toNat) ∧
      Gathered { res with cursor := msg.payloadSize } (msg.payload.read 0 msg.payloadSize) := by
  have htotal := UInt16.toNat_lt (SmbTrans2Resp.totalDataCount msg.payload)
  have hgrowth : smbTr2Growth msg.payload = (SmbTrans2Resp.totalDataCount msg.payload).toNat -
      (SmbTrans2Resp.dataCount msg.payload).toNat := by
    rw [smbTr2Growth, sizeSub, sizeT]
    omega
  rw [hgrowth]
  generalize (SmbTrans2Resp.totalDataCount msg.payload).toNat = total at htotal hcount
  generalize (SmbTrans2Resp.dataCount msg.payload).toNat = count at hcount
  have hgrown : sizeT (msg.payloadSize + (total - count)) = msg.payloadSize + (total - count) :=
    Nat.mod_eq_of_lt (by omega)
  have hblock : ¬ ptrdiffMax < smbMessageGrowBlock msg (total - count) := by
    rw [ptrdiffMax, smbMessageGrowBlock, hgrown, sizeT, smbHeaderSize]
    omega
  refine ⟨_, if_neg hblock, hgrown, (Mem.read_length _ _ _).symm, ?_, ?_, ?_⟩
  · rw [Mem.read_length]
    show msg.payloadSize ≤ sizeT (msg.payloadSize + (total - count))
    omega
  · show sizeT (msg.payloadSize + (total - count)) < 2 ^ 62
    omega
  · rw [Mem.read_length, SmbMessage.payload, grown_payload]
    have hcopied := Mem.read_write (P.heap.shift smbHeaderSize) 0
      (msg.payload.read 0 msg.payloadSize)
    rwa [Mem.read_length] at hcopied

/-- The message has the parameters and all of the data behind its header. -/
structure Assembled (msg : SmbMessage) (params data : List UInt8) : Prop where
  params_eq : (smbTr2Params msg).read 0 params.length = params
  data_eq : msg.payload.read (SmbTrans2Resp.size + params.length) data.length = data
  size : SmbTrans2Resp.size + params.length + data.length ≤ msg.payloadSize

theorem Gathered.assembled {msg : SmbMessage} {front params data : List UInt8}
    (h : Gathered msg (front ++ (params ++ data))) (hfront : front.length = SmbTrans2Resp.size) :
    Assembled msg params data := by
  have hbytes := h.bytes
  have hroom := h.room
  rw [List.length_append, List.length_append, hfront] at hroom hbytes
  rw [Mem.read_add, Mem.read_add] at hbytes
  obtain ⟨-, htail⟩ := List.append_inj hbytes (by rw [Mem.read_length, hfront])
  obtain ⟨hparams, hdata⟩ := List.append_inj htail (Mem.read_length _ _ _)
  rw [Nat.zero_add] at hparams hdata
  refine ⟨?_, hdata, by omega⟩
  rw [smbTr2Params, Mem.read_shift]
  exact hparams

/-- `smb_tr2_recv` on an answer, however the answer is cut. -/
theorem tr2Recv_answer (P : Platform) {room : Nat} {s : SmbSession} {pending : List (List UInt8)}
    {replies : List (List (List UInt8))} {params data : List UInt8}
    (h : Talks room s pending replies) (hanswer : Tr2Answer params data pending)
    (hparams : params.length < 65536) :
    ∃ msg s', smbTr2Recv P s = (some msg, s') ∧ Assembled msg params data ∧
      Talks room s' [] replies := by
  obtain ⟨hdata, hfragment, hbody, hrest⟩ := hanswer
  rename_i piece rest reply pending
  obtain ⟨msg, s', hrecv, hholds, htalks⟩ := h.recv hfragment.long
  have hlen : data.length = piece.length + rest.length := by rw [hdata, List.length_append]
  have htotal : data.length < 65536 := by
    rw [← hfragment.total]
    exact UInt16.toNat_lt _
  have hsplit : reply.drop smbHeaderSize =
      (reply.drop smbHeaderSize).take SmbTrans2Resp.size ++ (params ++ piece) := by
    rw [← hbody, tr2Body, ← List.drop_drop, List.take_append_drop]
  have hfront : ((reply.drop smbHeaderSize).take SmbTrans2Resp.size).length =
      SmbTrans2Resp.size := by
    have hheader := hfragment.header
    rw [List.length_take, List.length_drop]
    omega
  have hreply : reply.length = smbHeaderSize + SmbTrans2Resp.size + params.length + piece.length := by
    have hheader := hfragment.header
    have hbodylen := congrArg List.length hbody
    rw [tr2Body, List.length_drop, List.length_append] at hbodylen
    omega
  have hpayload := hholds.payload_read
  have hsize := hholds.length
  rw [smbHeaderSize, SmbTrans2Resp.size] at hreply
  rw [smbHeaderSize] at hsize
  have hsmall : msg.payloadSize < 2 ^ 61 := by omega
  have hcount : (SmbTrans2Resp.dataCount msg.payload).toNat ≤
      (SmbTrans2Resp.totalDataCount msg.payload).toNat := by
    rw [hfragment.totalDataCount_eq hholds, hfragment.dataCount_eq hholds]
    omega
  obtain ⟨grown, hgrow, -, hfirst⟩ := gathered_grown P hsmall hcount
  rw [hpayload] at hfirst
  have hremaining := hfragment.remaining_eq hholds (Nat.le_of_eq (by rw [hdata]))
    (by rw [hdata]; omega)
  obtain ⟨res, s'', hloop, hres, htalks'⟩ := tr2RecvLoop_rest hrest htalks
    (Nat.lt_succ_of_le htalks.inbox.length_le) hfirst
    (by rw [List.length_drop]; omega) (by omega)
  refine ⟨res, s'', ?_, ?_, htalks'⟩
  · rw [smbTr2Recv, bind_run hrecv]
    show smbTr2Gather msg (smbMessageGrow P msg (smbTr2Growth msg.payload)) s' = _
    rw [hgrow, smbTr2Gather, get_bind_run, hremaining, bind_run hloop]
    rfl
  · rw [hsplit, List.append_assoc, List.append_assoc, ← hdata] at hres
    exact hres.assembled hfront

/-! ## Requests -/

/-- The frame of a message that fits a frame. -/
theorem requestFrame_length (s : SmbSession) (msg : SmbMessage)
    (hlt : smbHeaderSize + msg.cursor < 2 ^ 64) :
    (s.requestFrame msg).length = netbiosHeaderSize + (smbHeaderSize + msg.cursor) := by
  have hbytes := requestBytes_length s.srv.uid msg
  have hbuild : Building (smbRequestPacket s.transport.session s.srv.uid msg)
      ([] ++ smbRequestBytes s.srv.uid msg) := by
    apply (Building.init s.transport.session).append
    rw [List.nil_append, hbytes]
    exact hlt
  rw [SmbSession.requestFrame, NetbiosSession.frame_length, hbuild.cursor, List.nil_append, hbytes]

theorem trans2Req_length (tr2 : SmbTrans2Req) : tr2.bytes.length = SmbTrans2Req.size := by
  delta SmbTrans2Req.bytes
  simp only [List.length_append, List.length_cons, List.length_nil, le16_length, le32_length]
  rfl

/-- The pieces of a TRANS2 request, one after the other. -/
theorem trans2Msg_builds (P : Platform) (tid : UInt16) (tr2 : SmbTrans2Req)
    (params utf : List UInt8) (padding : Nat)
    (hlen : tr2.bytes.length + params.length + utf.length + padding < 2 ^ 63) :
    Builds (smbTrans2Msg P tid tr2 params utf padding)
      ((tr2.bytes ++ params ++ utf ++ List.replicate padding 0).map some) := by
  have hnew := Carries.new P smbCmdTrans2 tid
  have htr2 := hnew.append tr2.bytes (by rw [List.length_nil]; omega)
  have hparams := htr2.append params (by rw [List.nil_append]; omega)
  have hutf := hparams.append utf (by rw [List.nil_append, List.length_append]; omega)
  have hpad := hutf.builds.put8s (List.replicate padding 0) (by
    rw [List.length_map, List.length_replicate, List.nil_append, List.length_append,
      List.length_append]
    omega)
  rw [List.nil_append, ← List.map_append] at hpad
  exact hpad

theorem trans2Msg_cursor (P : Platform) (tid : UInt16) (tr2 : SmbTrans2Req)
    (params utf : List UInt8) (padding : Nat)
    (hlen : tr2.bytes.length + params.length + utf.length + padding < 2 ^ 63) :
    (smbTrans2Msg P tid tr2 params utf padding).cursor =
      tr2.bytes.length + params.length + utf.length + padding := by
  rw [(trans2Msg_builds P tid tr2 params utf padding hlen).cursor]
  simp only [List.length_append, List.length_map, List.length_replicate]

/-- A request that fits is answered, and the answer put together. -/
theorem Talks.trans2 (P : Platform) {room : Nat} {s : SmbSession} {reply : List (List UInt8)}
    {replies : List (List (List UInt8))} {params data : List UInt8}
    (h : Talks room s [] (reply :: replies)) (hanswer : Tr2Answer params data reply)
    (hparams : params.length < 65536) {msg : SmbMessage}
    (hroom : (s.requestFrame msg).length ≤ room) (hlt : (s.requestFrame msg).length < 2 ^ 32) :
    ∃ res s' s'', smbSessionSendMsg msg s = (true, s') ∧ smbTr2Recv P s' = (some res, s'') ∧
      Assembled res params data ∧ Talks room s'' [] replies := by
  obtain ⟨s', hsend, htalks⟩ := h.send hroom hlt
  rw [List.nil_append] at htalks
  obtain ⟨res, s'', hrecv, hres, htalks'⟩ := tr2Recv_answer P htalks hanswer hparams
  exact ⟨res, s', s'', hsend, hrecv, hres, htalks'⟩

end Libdsm
