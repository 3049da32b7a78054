import Libdsm.Smb.Proofs.Listing
import Libdsm.Smb.Proofs.Wire

/-!
# Servers that look at the requests

`Peer` is a conversation with a server that answers each request by what it says: the session is
connected, some messages wait to be read, and for the requests to come there are functions that give
the answers. A send applies the first of them to the bytes of the request, a receive takes the oldest
message.
-/

namespace Libdsm

/-- What a server answers to a request. -/
abbrev Answer := List UInt8 → List (List UInt8)

/-- The session is connected, the messages `pending` wait to be read, and the server answers the
requests to come by `answers`. The socket takes the frames of as many requests, of up to `room` bytes
each. -/
structure Peer (room : Nat) (s : SmbSession) (pending : List (List UInt8)) (answers : List Answer) :
    Prop where
  ready : s.transport.session.ready = true
  inbox : Delivers s.tcp.inbox pending
  server : ∀ k answer, answers[k]? = some answer → ∀ frame,
    Delivers (s.tcp.server (s.tcp.served + k) frame) (answer (frame.drop netbiosHeaderSize))
  sends : ∀ k < answers.length, room ≤ s.tcp.sends.getD k 0

theorem Frame.encode_drop (f : Frame) : f.encode.drop netbiosHeaderSize = f.payload := rfl

namespace Peer

variable {room : Nat} {s : SmbSession} {pending : List (List UInt8)} {answers : List Answer}

/-- Changes to the session that leave the connection alone. -/
theorem of_transport (h : Peer room s pending answers) {s' : SmbSession}
    (hs : s'.transport = s.transport) : Peer room s' pending answers := by
  have htcp : s'.tcp = s.tcp := by rw [SmbSession.tcp, SmbSession.tcp, hs]
  refine ⟨by rw [hs]; exact h.ready, ?_, ?_, ?_⟩
  · rw [htcp]
    exact h.inbox
  · rw [htcp]
    exact h.server
  · rw [htcp]
    exact h.sends

/-- A request that fits is sent, and its answer is on the way. -/
theorem send {answer : Answer} (h : Peer room s pending (answer :: answers)) {msg : SmbMessage}
    (hlt : (smbRequestBytes s.srv.uid msg).length < 65536)
    (hroom : netbiosHeaderSize + (smbRequestBytes s.srv.uid msg).length ≤ room) :
    ∃ nb frame, smbSessionSendMsg msg s = (true, s.withNetbios nb) ∧
      nb.tcp.log = s.tcp.log ++ [.sent frame] ∧
      frame.drop netbiosHeaderSize = smbRequestBytes s.srv.uid msg ∧
      Peer room (s.withNetbios nb) (pending ++ answer (smbRequestBytes s.srv.uid msg)) answers := by
  obtain ⟨f, -, hpayload, hframe⟩ := requestFrame_eq s msg hlt
  have hlength : (s.requestFrame msg).length =
      netbiosHeaderSize + (smbRequestBytes s.srv.uid msg).length := by
    rw [hframe, Frame.encode_length, hpayload]
  have hrequest : (s.requestFrame msg).drop netbiosHeaderSize = smbRequestBytes s.srv.uid msg := by
    rw [hframe, Frame.encode_drop, hpayload]
  have hhead : room ≤ s.tcp.sends.headD 0 := by
    have hzero := h.sends 0 (by simp)
    rwa [List.getD_eq_getElem?_getD, ← List.head?_eq_getElem?, ← List.headD_eq_head?_getD] at hzero
  obtain ⟨-, -, hnot⟩ | ⟨-, -, hshort, -⟩ | ⟨hsession, -, -, hok⟩ := sendMsg_cases s msg
  · rw [h.ready] at hnot
    cases hnot
  · omega
  · have hone : (smbSessionSendMsg msg s).1 = true := hok (by rw [hlength, netbiosHeaderSize]; omega)
    have htwo : (smbSessionSendMsg msg s).2 =
        s.withNetbios (smbSessionSendMsg msg s).2.transport.session := by
      have hsend := congrArg Prod.snd (sendMsg_eq s msg)
      dsimp only at hsend
      rw [hsend, withNetbios_session]
    have hready : (smbSessionSendMsg msg s).2.transport.session.ready = true := by
      rw [sendMsg_ready]
      exact h.ready
    have htcp : (smbSessionSendMsg msg s).2.transport.session.tcp =
        s.tcp.delivered (s.requestFrame msg) := by
      rw [hsession, NetbiosSession.afterSend]
    generalize (smbSessionSendMsg msg s).2.transport.session = nb at htwo hready htcp
    have hsent : smbSessionSendMsg msg s = (true, s.withNetbios nb) := Prod.ext hone htwo
    have hlog : nb.tcp.log = s.tcp.log ++ [.sent (s.requestFrame msg)] := by rw [htcp, Tcp.delivered]
    refine ⟨nb, s.requestFrame msg, hsent, hlog, hrequest, ?_⟩
    constructor
    · rw [withNetbios_session]
      exact hready
    · have hanswer := h.server 0 answer rfl (s.requestFrame msg)
      rw [hrequest, Nat.add_zero] at hanswer
      rw [withNetbios_tcp, htcp, Tcp.delivered]
      exact h.inbox.append hanswer
    · intro k next hk frame
      have hnext := h.server (k + 1) next (by simpa using hk) frame
      rw [show s.tcp.served + (k + 1) = s.tcp.served + 1 + k by omega] at hnext
      rw [withNetbios_tcp, htcp, Tcp.delivered]
      exact hnext
    · intro k hk
      have hnext := h.sends (k + 1) (by simpa using hk)
      rw [withNetbios_tcp, htcp, Tcp.delivered]
      show room ≤ s.tcp.sends.tail.getD k 0
      rwa [List.getD_eq_getElem?_getD, List.getElem?_tail, ← List.getD_eq_getElem?_getD]

/-- A message that waits is received. -/
theorem recv {m : List UInt8} {ms : List (List UInt8)} (h : Peer room s (m :: ms) answers)
    (hlong : smbHeaderSize < m.length) :
    ∃ msg nb event, smbSessionRecvMsg s = (some msg, s.withNetbios nb) ∧ msg.Holds m ∧
      nb.tcp.log = s.tcp.log ++ [event] ∧ Peer room (s.withNetbios nb) ms answers := by
  have htalks : Talks room s (m :: ms) [] := ⟨h.ready, h.inbox, by simp, by simp⟩
  obtain ⟨msg, s', hrecv, hholds, htalks'⟩ := htalks.recv hlong
  obtain ⟨inbox, event, htcp, -⟩ := recvMsg_tcp s
  have hs' : s' = s.withNetbios s'.transport.session := by
    have hrecv' := congrArg Prod.snd hrecv
    rw [recvMsg_eq] at hrecv'
    dsimp only at hrecv'
    rw [← hrecv', withNetbios_session]
  have htcp' : s'.tcp = { s.tcp with inbox, log := s.tcp.log ++ [event] } := by rw [← htcp, hrecv]
  refine ⟨msg, s'.transport.session, event, ?_, hholds, ?_, ?_⟩
  · rw [hrecv, ← hs']
  · show s'.tcp.log = _
    rw [htcp']
  · rw [← hs']
    refine ⟨htalks'.ready, htalks'.inbox, ?_, ?_⟩
    · rw [htcp']
      exact h.server
    · rw [htcp']
      exact h.sends

/-- A peer for the one request that comes next. -/
theorem next {answer : Answer} (hready : s.transport.session.ready = true)
    (hinbox : Delivers s.tcp.inbox []) (hsends : room ≤ s.tcp.sends.headD 0)
    (hserver : ∀ frame, Delivers (s.tcp.server s.tcp.served frame) (answer (frame.drop netbiosHeaderSize))) :
    Peer room s [] [answer] := by
  refine ⟨hready, hinbox, fun k answer' hk frame => ?_, fun k hk => ?_⟩
  · rw [List.getElem?_singleton] at hk
    split at hk
    · rename_i hzero
      rw [← Option.some.inj hk, hzero]
      exact hserver frame
    · cases hk
  · obtain rfl : k = 0 := by simpa using hk
    rwa [List.headD_eq_head?_getD, List.head?_eq_getElem?, ← List.getD_eq_getElem?_getD] at hsends

/-- One request and its one answer. -/
theorem exchange {answer : Answer} (h : Peer room s [] (answer :: answers)) {msg : SmbMessage}
    {reply : List UInt8} (hanswer : answer (smbRequestBytes s.srv.uid msg) = [reply])
    (hlt : (smbRequestBytes s.srv.uid msg).length < 65536)
    (hroom : netbiosHeaderSize + (smbRequestBytes s.srv.uid msg).length ≤ room)
    (hlong : smbHeaderSize < reply.length) :
    ∃ nb₁ nb₂ resp frame event, smbSessionSendMsg msg s = (true, s.withNetbios nb₁) ∧
      smbSessionRecvMsg (s.withNetbios nb₁) = (some resp, s.withNetbios nb₂) ∧ resp.Holds reply ∧
      nb₂.tcp.log = s.tcp.log ++ [.sent frame, event] ∧ event.offered = none ∧
      frame.drop netbiosHeaderSize = smbRequestBytes s.srv.uid msg ∧
      Peer room (s.withNetbios nb₂) [] answers := by
  obtain ⟨nb₁, frame, hsend, hlog₁, hframe, hpeer₁⟩ := h.send hlt hroom
  rw [List.nil_append, hanswer] at hpeer₁
  obtain ⟨resp, nb₂, event, hrecv, hholds, hlog₂, hpeer₂⟩ := hpeer₁.recv hlong
  have hevent : event.offered = none := by
    obtain ⟨inbox, event', htcp, hcases⟩ := recvMsg_tcp (s.withNetbios nb₁)
    have hlog := congrArg Tcp.log htcp
    rw [hrecv] at hlog hcases
    have hsame : nb₂.tcp.log = nb₁.tcp.log ++ [event'] := hlog
    rw [hlog₂, withNetbios_tcp] at hsame
    obtain rfl : event = event' := by simpa using hsame
    obtain ⟨hnone, -⟩ | ⟨_, _, _, -, rfl, -⟩ := hcases
    · cases hnone
    · rfl
  refine ⟨nb₁, nb₂, resp, frame, event, hsend, hrecv, hholds, ?_, hevent, hframe, hpeer₂⟩
  rw [hlog₂, withNetbios_tcp, hlog₁, List.append_assoc]
  rfl

end Peer

/-! ## A peer to talk to -/

/-- A peer that answers by these functions, one after the other. -/
def Tcp.obeying (answers : List Answer) : Tcp where
  connects := []
  sends := answers.map fun _ => 65539
  server := fun k frame => (answers.getD k (fun _ => []) (frame.drop netbiosHeaderSize)).map
    fun m => [0, 0] ++ htons m.length ++ m
  served := 0
  inbox := []
  wire := []
  log := []

/-- The transport of a session connected to it. -/
def SmbTransport.obeyed (answers : List Answer) : SmbTransport where
  kind := some .tcp
  session := netbiosSessionOn (fun _ => 0) (.obeying answers) 8192

theorem peer_obeyed {answers : List Answer}
    (h : ∀ answer ∈ answers, ∀ request, ∀ m ∈ answer request, m.length < 65536) {room : Nat}
    (hroom : room ≤ 65539) {s : SmbSession} (hs : s.transport = .obeyed answers) :
    Peer room s [] answers := by
  have htcp : s.tcp = .obeying answers := by
    rw [SmbSession.tcp, hs]
    rfl
  refine ⟨by rw [hs]; rfl, ?_, ?_, ?_⟩
  · rw [htcp]
    exact ⟨by simp [Chunks.Live, Tcp.obeying], [], rfl, rfl⟩
  · intro k answer hk frame
    have hget : answers.getD (0 + k) (fun _ => []) = answer := by
      rw [Nat.zero_add, List.getD_eq_getElem?_getD, hk, Option.getD_some]
    rw [htcp]
    show Delivers ((answers.getD (0 + k) (fun _ => []) _).map _) _
    rw [hget]
    exact delivers_frames (h answer (List.mem_of_getElem? hk) _)
  · intro k hk
    rw [htcp]
    show room ≤ (answers.map fun _ => 65539).getD k 0
    simp [List.getD_eq_getElem?_getD, hk, hroom]

end Libdsm
