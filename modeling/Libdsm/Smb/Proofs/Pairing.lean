import Libdsm.Smb.Proofs.Gather

/-!
# Requests and their replies

Nothing in a reply is compared with the request it answers: a call takes what it receives next for
the reply to what it sent last. On a server that answers every request once and in order this is right
as long as every call reads all the replies to its own requests and no others. `Fine` follows a call
from one send or receive to the next and says which replies are still unread; what it starts with and
ends with is that there are none.
-/

namespace Libdsm

/-! ## The server -/

/-- The length field of the frame has room for its length. -/
def FitsLength (frame : List UInt8) : Prop := frame.length < netbiosHeaderSize + 65536

/-- The frame is an SMB message with the command TRANS2. -/
def IsTrans2 (frame : List UInt8) : Prop :=
  frame.getD 0 0 = netbiosOpSessionMsg ∧ requestCommand (frameMessage frame) = smbCmdTrans2

/-- The server answers the `k`-th frame with the messages `replies k frame`: one message, unless the
frame is a TRANS2 request. It says nothing unasked. -/
structure Serves (replies : Nat → List UInt8 → List (List UInt8)) (tcp : Tcp) : Prop where
  answers : ∀ k frame, FitsLength frame → Carried (tcp.server k frame) (replies k frame)
  once : ∀ k frame, FitsLength frame → ¬ IsTrans2 frame → ∃ reply, replies k frame = [reply]
  quiet : ∀ inbox, some inbox ∈ tcp.connects → Carried inbox []

/-- What a connection may become under a call, as far as the server is concerned. -/
theorem Serves.of_eq {replies : Nat → List UInt8 → List (List UInt8)} {t t' : Tcp}
    (h : Serves replies t) (hserver : t'.server = t.server)
    (hconnects : ∀ attempt ∈ t'.connects, attempt ∈ t.connects) : Serves replies t' where
  answers k frame hfits := by rw [hserver]; exact h.answers k frame hfits
  once := h.once
  quiet inbox hmem := h.quiet inbox (hconnects _ hmem)

/-! ## What a call sends and reads -/

/-- The request that an event shows reaching the server. -/
def NetEvent.request : NetEvent → Option (List UInt8)
  | .sent frame => some frame
  | _ => none

/-- The requests that reach the server, with their numbers, the first being `k`. -/
def requestsSent (k : Nat) (events : List NetEvent) : List (List UInt8 × Nat) :=
  (events.filterMap NetEvent.request).zipIdx k

/-- The replies to them. -/
def repliesDue (replies : Nat → List UInt8 → List (List UInt8)) (k : Nat)
    (events : List NetEvent) : List (List UInt8) :=
  (requestsSent k events).flatMap fun r => replies r.2 r.1

/-- The replies received. -/
def repliesRead (events : List NetEvent) : List (List UInt8) := events.filterMap NetEvent.reply

/-- After this event the two ends may no longer agree on where a frame begins: a receive that fails may
have stopped inside one, and behind the part of a frame that the socket has accepted the server takes
the next one for its rest. -/
def NetEvent.breaks : NetEvent → Bool
  | .recvFailed => true
  | .sendFailed _ accepted => accepted ≠ 0
  | .connected | .connectFailed | .sent _ | .received .. => false

/-- Whether the next byte on either way is the first of a frame, as far as the log tells. A connection
starts anew. -/
def NetEvent.stepOn (inStep : Bool) (event : NetEvent) : Bool :=
  match event with
  | .connected | .connectFailed => true
  | .recvFailed | .sendFailed .. | .sent _ | .received .. => inStep && !event.breaks

/-- No receive has failed since the connection was made, and no frame was accepted in part. -/
def inStep (log : List NetEvent) : Bool := log.foldl NetEvent.stepOn true

/-- In none of these events the two ends lose each other. -/
def Unbroken (events : List NetEvent) : Prop := ∀ event ∈ events, event.breaks = false

instance (events : List NetEvent) : Decidable (Unbroken events) :=
  inferInstanceAs (Decidable (∀ event ∈ events, event.breaks = false))

theorem stepOn_of_breaks {event : NetEvent} (h : event.breaks = true) (inStep : Bool) :
    event.stepOn inStep = false := by
  cases event with
  | connected => cases h
  | connectFailed => cases h
  | sent frame => cases h
  | sendFailed frame accepted => rw [NetEvent.stepOn, h, Bool.not_true, Bool.and_false]
  | received opcode payload => cases h
  | recvFailed => exact Bool.and_false _

theorem inStep_append (log : List NetEvent) (event : NetEvent) :
    inStep (log ++ [event]) = event.stepOn (inStep log) := by
  rw [inStep, List.foldl_append]
  rfl

theorem requestsSent_append (k : Nat) (events : List NetEvent) (event : NetEvent) :
    requestsSent k (events ++ [event]) = requestsSent k events ++
      (event.request.toList.zipIdx (k + (events.filterMap NetEvent.request).length)) := by
  rw [requestsSent, List.filterMap_append, List.zipIdx_append]
  cases h : event.request <;> simp [h, requestsSent]

theorem repliesDue_append (replies : Nat → List UInt8 → List (List UInt8)) (k : Nat)
    (events : List NetEvent) {event : NetEvent} (h : event.request = none) :
    repliesDue replies k (events ++ [event]) = repliesDue replies k events := by
  rw [repliesDue, requestsSent_append, h]
  simp [repliesDue]

theorem repliesRead_append (events : List NetEvent) (event : NetEvent) :
    repliesRead (events ++ [event]) = repliesRead events ++ event.reply.toList := by
  rw [repliesRead, List.filterMap_append]
  cases h : event.reply <;> simp [h, repliesRead]

/-- The message says that its answer goes on after it: it is long enough to have the counters of a
TRANS2 answer, and by these its data do not reach the end. -/
structure Tr2More (reply : List UInt8) : Prop where
  header : smbHeaderSize + SmbTrans2Resp.size ≤ reply.length
  more : (replyU16 reply (smbHeaderSize + 17)).toNat + (replyU16 reply (smbHeaderSize + 13)).toNat <
    (replyU16 reply (smbHeaderSize + 3)).toNat

/-- Every message of the answer but the last says that the answer goes on. -/
def Tr2Continued (answer : List (List UInt8)) : Prop := ∀ reply ∈ answer.dropLast, Tr2More reply

theorem Tr2Continued.next {reply : List UInt8} {msgs : List (List UInt8)}
    (h : Tr2Continued (reply :: msgs)) : (msgs ≠ [] → Tr2More reply) ∧ Tr2Continued msgs := by
  cases msgs with
  | nil => exact ⟨fun hne => absurd rfl hne, fun _ hm => by cases hm⟩
  | cons m ms =>
    refine ⟨fun _ => h reply (by simp), fun x hx => h x ?_⟩
    rw [List.dropLast_cons_cons]
    exact List.mem_cons_of_mem _ hx

/-- A message that is a header at most can only be the last. -/
theorem Tr2Continued.last {reply : List UInt8} {msgs : List (List UInt8)}
    (h : Tr2Continued (reply :: msgs)) (hshort : reply.length ≤ smbHeaderSize) : msgs = [] := by
  by_contra hne
  have hheader := (h.next.1 hne).header
  rw [SmbTrans2Resp.size] at hheader
  omega

namespace Tr2More

variable {reply : List UInt8} {msg : SmbMessage} (h : Tr2More reply) (hholds : msg.Holds reply)

include h hholds

/-- The counters, as `smb_tr2_recv` reads them. -/
theorem counters : (SmbTrans2Resp.dataDisplacement msg.payload).toNat + tr2Count msg < tr2Total msg := by
  let piece : List UInt8 := List.replicate (replyU16 reply (smbHeaderSize + 13)).toNat 0
  have hfragment : Tr2Fragment _ _ piece reply := ⟨h.header, rfl, by simp [piece], rfl⟩
  rw [tr2Count, tr2Total, hfragment.totalDataCount_eq hholds, hfragment.dataCount_eq hholds,
    hfragment.dataDisplacement_eq hholds, List.length_replicate]
  exact h.more

theorem remaining_pos : 0 < smbTr2Remaining msg.payload := by
  have hcounters := h.counters hholds
  rw [tr2Count, tr2Total] at hcounters
  rw [smbTr2Remaining]
  omega

theorem grows (P : Platform) (hsmall : msg.payloadSize < 131072) :
    (smbMessageGrow P msg (smbTr2Growth msg.payload)).isSome = true := by
  have hcounters := h.counters hholds
  exact (tr2Grow_isSome_iff P hsmall).mpr (by omega)

end Tr2More

/-! ## Inside a call -/

/-- A call under way: the server, the connection it started with, and the answers it can read to
their end. -/
structure Call where
  replies : Nat → List UInt8 → List (List UInt8)
  start : Tcp
  reads : List (List UInt8) → Prop

namespace Call

/-- The requests have been ones that the server can make out, with answers that the call can read. -/
def Clear (c : Call) (events : List NetEvent) : Prop :=
  ∀ r ∈ requestsSent c.start.served events, FitsLength r.1 ∧ c.reads (c.replies r.2 r.1)

/-- The connection after these events of the call: the replies that are due and not read yet are
those on their way, and `unread` holds of them. -/
structure Follows (c : Call) (unread : List (List UInt8) → Prop) (tcp : Tcp)
    (events : List NetEvent) : Prop where
  serves : Serves c.replies tcp
  log : tcp.log = c.start.log ++ events
  served : tcp.served = c.start.served + (events.filterMap NetEvent.request).length
  lost : ¬ Unbroken events → inStep tcp.log = false
  due : c.Clear events → Unbroken events →
    ∃ msgs, unread msgs ∧ repliesRead events ++ msgs = repliesDue c.replies c.start.served events ∧
      Carried tcp.inbox msgs

/-- The call is somewhere on its way, and `unread` holds of the replies it still has to read. -/
def Fine (c : Call) (unread : List (List UInt8) → Prop) (tcp : Tcp) : Prop :=
  ∃ events, c.Follows unread tcp events

variable {c : Call} {unread unread' : List (List UInt8) → Prop} {tcp : Tcp}

theorem Fine.imp (h : c.Fine unread tcp) (himp : ∀ msgs, unread msgs → unread' msgs) :
    c.Fine unread' tcp := by
  obtain ⟨events, hserves, hlog, hserved, hlost, hdue⟩ := h
  refine ⟨events, hserves, hlog, hserved, hlost, fun hclear hok => ?_⟩
  obtain ⟨msgs, hunread, hread, hinbox⟩ := hdue hclear hok
  exact ⟨msgs, himp msgs hunread, hread, hinbox⟩

/-- The requests before the last are clear if all are. -/
theorem Clear.of_append {events : List NetEvent} {event : NetEvent}
    (h : c.Clear (events ++ [event])) : c.Clear events := by
  intro r hr
  apply h r
  rw [requestsSent_append]
  exact List.mem_append_left _ hr

/-- One more event, which is not a connection being made. -/
theorem Follows.snoc {events : List NetEvent} (h : c.Follows unread tcp events) {tcp' : Tcp}
    (event : NetEvent) (hserves : Serves c.replies tcp') (hlog : tcp'.log = tcp.log ++ [event])
    (hserved : tcp'.served = tcp.served + event.request.toList.length)
    (hstep : event.stepOn false = false)
    (hdue : c.Clear (events ++ [event]) → event.breaks = false → ∀ msgs, unread msgs →
      repliesRead events ++ msgs = repliesDue c.replies c.start.served events →
      Carried tcp.inbox msgs →
      ∃ msgs', unread' msgs' ∧ repliesRead (events ++ [event]) ++ msgs' =
          repliesDue c.replies c.start.served (events ++ [event]) ∧ Carried tcp'.inbox msgs') :
    c.Follows unread' tcp' (events ++ [event]) where
  serves := hserves
  log := by rw [hlog, h.log, List.append_assoc]
  served := by
    rw [hserved, h.served, List.filterMap_append, List.length_append, Nat.add_assoc]
    cases hrequest : event.request <;> simp [hrequest]
  lost hbroken := by
    rw [hlog, inStep_append]
    by_cases hbreaks : event.breaks = true
    · exact stepOn_of_breaks hbreaks _
    · have hbefore : ¬ Unbroken events := by
        intro hok
        refine hbroken fun e he => ?_
        rcases List.mem_append.mp he with he | he
        · exact hok e he
        · rw [List.mem_singleton.mp he]
          exact Bool.eq_false_iff.mpr hbreaks
      rw [h.lost hbefore, hstep]
  due hclear hok := by
    obtain ⟨msgs, hunread, hread, hinbox⟩ :=
      h.due hclear.of_append fun e he => hok e (List.mem_append_left _ he)
    exact hdue hclear (hok event (by simp)) msgs hunread hread hinbox

/-- A request that reaches the server: its answer is on its way behind the replies before it. -/
theorem Fine.delivered (h : c.Fine unread tcp) (frame : List UInt8) :
    c.Fine (fun msgs => FitsLength frame ∧ c.reads (c.replies tcp.served frame) ∧
      ∃ before, unread before ∧ msgs = before ++ c.replies tcp.served frame)
      (tcp.delivered frame) := by
  obtain ⟨events, h⟩ := h
  have hrequests : requestsSent c.start.served (events ++ [.sent frame]) =
      requestsSent c.start.served events ++ [(frame, tcp.served)] := by
    rw [requestsSent_append, h.served]
    rfl
  refine ⟨_, h.snoc (.sent frame) (h.serves.of_eq rfl fun _ h => h) rfl rfl rfl ?_⟩
  intro hclear _ msgs hunread hread hinbox
  obtain ⟨hfits, hreads⟩ := hclear (frame, tcp.served) (by rw [hrequests]; simp)
  refine ⟨_, ⟨hfits, hreads, msgs, hunread, rfl⟩, ?_, ?_⟩
  · rw [repliesRead_append, repliesDue, hrequests, List.flatMap_append, List.flatMap_singleton]
    show repliesRead events ++ [] ++ (msgs ++ _) = repliesDue c.replies _ events ++ _
    rw [List.append_nil, ← List.append_assoc, hread]
  · exact hinbox.append (h.serves.answers tcp.served frame hfits)

/-- A request that does not reach it. -/
theorem Fine.torn (h : c.Fine unread tcp) (frame : List UInt8) :
    c.Fine unread (tcp.torn frame) := by
  obtain ⟨events, h⟩ := h
  refine ⟨_, h.snoc (.sendFailed frame (tcp.sends.headD 0))
    (h.serves.of_eq rfl fun _ h => h) rfl rfl rfl ?_⟩
  intro _ _ msgs hunread hread hinbox
  refine ⟨msgs, hunread, ?_, hinbox⟩
  rw [repliesRead_append, repliesDue_append _ _ _ rfl, ← hread]
  show repliesRead events ++ [] ++ msgs = _
  rw [List.append_nil]

/-- A receive: the reply it returns is the first one unread, and where it returns none the call is no
longer in step. -/
theorem Fine.recv {nb : NetbiosSession} (h : c.Fine unread nb.tcp) :
    c.Fine (fun msgs => ∃ reply, unread (reply :: msgs) ∧
      ∃ size, (netbiosSessionPacketRecv nb).1 = some size ∧
        (netbiosSessionPacketRecv nb).2.packet.bytes.read netbiosHeaderSize size = reply)
      (netbiosSessionPacketRecv nb).2.tcp := by
  obtain ⟨events, h⟩ := h
  obtain ⟨inbox, htcp⟩ := packetRecv_tcp nb
  cases hsize : (netbiosSessionPacketRecv nb).1 with
  | none =>
    rw [hsize] at htcp
    refine ⟨_, h.snoc .recvFailed (h.serves.of_eq (by rw [htcp]) (by simp [htcp]))
      (by rw [htcp]; rfl) (by rw [htcp]; rfl) rfl ?_⟩
    intro _ hok
    cases hok
  | some size =>
    rw [hsize] at htcp
    refine ⟨_, h.snoc (.received _ _) (h.serves.of_eq (by rw [htcp]) (by simp [htcp]))
      (by rw [htcp]; rfl) (by rw [htcp]; rfl) rfl ?_⟩
    intro _ _ msgs hunread hread hinbox
    obtain ⟨rest, rfl, hrest⟩ := hinbox.recv hsize
    refine ⟨rest, ⟨_, hunread, size, rfl, rfl⟩, ?_, hrest⟩
    rw [repliesRead_append, repliesDue_append _ _ _ rfl, ← hread, List.append_assoc]
    rfl

/-! ## Messages -/

/-- No reply is left to read. -/
def Idle (c : Call) (tcp : Tcp) : Prop := c.Fine (· = []) tcp

/-- At most one reply is left to read. -/
def Asked (c : Call) (tcp : Tcp) : Prop := c.Fine (·.length ≤ 1) tcp

theorem Idle.asked (h : c.Idle tcp) : c.Asked tcp := by
  refine Fine.imp h ?_
  rintro msgs rfl
  exact Nat.zero_le _

/-- A frame is sent: the answer to come is one that the call can read, and one message unless the
frame is a TRANS2 request. -/
theorem Idle.packetSend {nb : NetbiosSession} (h : c.Idle nb.tcp) :
    ((netbiosSessionPacketSend nb).1 = 0 → c.Idle (netbiosSessionPacketSend nb).2.tcp) ∧
      c.Fine (fun msgs => msgs = [] ∨ c.reads msgs ∧ (¬ IsTrans2 nb.frame → msgs.length ≤ 1))
        (netbiosSessionPacketSend nb).2.tcp := by
  have hnothing : ∀ {tcp}, c.Idle tcp → c.Fine (fun msgs => msgs = [] ∨ c.reads msgs ∧
      (¬ IsTrans2 nb.frame → msgs.length ≤ 1)) tcp := fun h => Fine.imp h fun _ => .inl
  rcases packetSend_cases nb with ⟨heq, -⟩ | ⟨heq, -⟩ | ⟨heq, -, -, hlt⟩
  · rw [heq]
    exact ⟨fun _ => h, hnothing h⟩
  · rw [heq]
    exact ⟨fun _ => h.torn nb.frame, hnothing (h.torn nb.frame)⟩
  · have hsent := h.delivered nb.frame
    rw [heq]
    refine ⟨fun hzero => hsent.imp ?_, hsent.imp ?_⟩
    · -- a send that reports nothing has sent a frame of 4 GiB or more
      rintro msgs ⟨hfits, -⟩
      rw [FitsLength, netbiosHeaderSize] at hfits
      exact absurd hzero (hlt (by omega))
    · rintro msgs ⟨hfits, hreads, before, rfl, rfl⟩
      refine .inr ⟨hreads, fun htrans2 => ?_⟩
      obtain ⟨events, hfollows⟩ := h
      obtain ⟨reply, hreply⟩ := hfollows.serves.once nb.tcp.served nb.frame hfits htrans2
      rw [hreply]
      exact Nat.le_refl _

/-- A frame is received. -/
theorem Asked.packetRecv {nb : NetbiosSession} (h : c.Asked nb.tcp) :
    c.Idle (netbiosSessionPacketRecv nb).2.tcp := by
  refine (Fine.recv h).imp ?_
  rintro msgs ⟨reply, hlen, -⟩
  exact List.eq_nil_of_length_eq_zero (Nat.le_zero.mp (Nat.le_of_succ_le_succ hlen))

/-- A message is sent. -/
theorem sendMsg (c : Call) (msg : SmbMessage) :
    Triple (fun s => c.Idle s.tcp) (smbSessionSendMsg msg) fun ok s =>
      (ok = false → c.Idle s.tcp) ∧
        c.Fine (fun msgs => msgs = [] ∨ c.reads msgs ∧
          (msg.command ≠ smbCmdTrans2 → msgs.length ≤ 1)) s.tcp := by
  intro s h
  have htcp : _ = s.tcp := requestPacket_tcp s.transport.session s.srv.uid msg
  rw [← htcp] at h
  obtain ⟨hfail, hsent⟩ := Idle.packetSend h
  rw [sendMsg_eq, withNetbios_tcp]
  refine ⟨fun hfalse => hfail (by simpa using hfalse), hsent.imp ?_⟩
  rintro msgs (hnil | ⟨hreads, hone⟩)
  · exact .inl hnil
  · refine .inr ⟨hreads, fun hcommand => hone fun htrans2 => ?_⟩
    rcases requestFrame_command s msg with heq | hzero
    · exact hcommand (heq.symm.trans htrans2.2)
    · exact absurd (hzero.symm.trans htrans2.2) (by decide)

/-- What is unread once a receive has handed out `r`: what was behind the reply it received. -/
def Received (unread : List (List UInt8) → Prop) (r : Option SmbMessage)
    (msgs : List (List UInt8)) : Prop :=
  ∃ reply, unread (reply :: msgs) ∧
    (∀ msg, r = some msg → msg.Holds reply ∧ msg.payloadSize < 131072) ∧
      (r = none → reply.length ≤ smbHeaderSize)

/-- A message is received, if it is more than a header. -/
theorem recvMsg (c : Call) (unread : List (List UInt8) → Prop) :
    Triple (fun s => c.Fine unread s.tcp) smbSessionRecvMsg fun r s =>
      c.Fine (Received unread r) s.tcp := by
  intro s h
  rw [recvMsg_eq, withNetbios_tcp]
  refine (Fine.recv h).imp ?_
  rintro msgs ⟨reply, hunread, size, hsize, rfl⟩
  have hsmall := (packetRecv_some hsize).1
  rw [hsize, Option.getD_some]
  refine ⟨_, hunread, fun msg hmsg => ?_, fun hnone => ?_⟩
  · have hholds := receivedMessage_holds hmsg
    have hlength := hholds.length
    rw [Mem.read_length] at hlength
    exact ⟨hholds, by omega⟩
  rw [receivedMessage] at hnone
  split at hnone
  · rwa [Mem.read_length]
  · cases hnone

/-! ## Programs -/

variable {α β : Type} {m n : SmbM α} {k : α → SmbM β}

/-- Started with nothing to read, the program ends with nothing to read. -/
def Pairs (c : Call) (m : SmbM α) : Prop :=
  Triple (fun s => c.Idle s.tcp) m fun _ s => c.Idle s.tcp

/-- Started with at most one reply to read, the program reads it. -/
def Takes (c : Call) (m : SmbM α) : Prop :=
  Triple (fun s => c.Asked s.tcp) m fun _ s => c.Idle s.tcp

theorem Pairs.pure (a : α) : c.Pairs (Pure.pure a) := Triple.pure fun _ h => h

theorem Pairs.bind (hm : c.Pairs m) (hk : ∀ a, c.Pairs (k a)) : c.Pairs (m >>= k) :=
  Triple.bind hm hk

theorem Pairs.ite {p : Prop} [Decidable p] (hm : c.Pairs m) (hn : c.Pairs n) :
    c.Pairs (if p then m else n) :=
  Triple.ite (fun _ => hm) fun _ => hn

theorem Pairs.get : c.Pairs (MonadState.get : SmbM SmbSession) := fun _ h => h

/-- A program that leaves the connection alone. -/
theorem Pairs.of_keeps (h : Keeps SmbSession.tcp m) : c.Pairs m := by
  intro s hs
  rw [h]
  exact hs

theorem Pairs.modify {f : SmbSession → SmbSession} (h : ∀ s, (f s).tcp = s.tcp) :
    c.Pairs (modify f : SmbM PUnit) :=
  .of_keeps (.modify h)

/-- A program that goes on from another session, on the same connection. -/
theorem Pairs.set_bind {s s' : SmbSession} {k : PUnit → SmbM α} (hk : c.Pairs (k ⟨⟩))
    (h : s'.tcp = s.tcp) (hs : c.Idle s.tcp) : c.Idle ((set s' >>= k : SmbM α) s).2.tcp := by
  rw [← h] at hs
  exact hk s' hs

/-- A request that is not TRANS2 has one reply, and any other if the call can read only that. -/
theorem sendMsg_asked {msg : SmbMessage}
    (hone : msg.command ≠ smbCmdTrans2 ∨ ∀ msgs, c.reads msgs → msgs.length ≤ 1) :
    Triple (fun s => c.Idle s.tcp) (smbSessionSendMsg msg) fun ok s =>
      (ok = false → c.Idle s.tcp) ∧ c.Asked s.tcp := by
  refine (c.sendMsg msg).post fun ok s h => ⟨h.1, h.2.imp ?_⟩
  rintro msgs (rfl | ⟨hreads, hcommand⟩)
  · exact Nat.zero_le _
  · exact hone.elim hcommand fun hone => hone msgs hreads

/-- Send, give up if that fails, and read the reply. -/
theorem Pairs.ask {msg : SmbMessage}
    (hone : msg.command ≠ smbCmdTrans2 ∨ ∀ msgs, c.reads msgs → msgs.length ≤ 1) {a : α}
    (hm : c.Takes m) :
    c.Pairs (smbSessionSendMsg msg >>= fun ok => if !ok then Pure.pure a else m) := by
  refine Triple.bind (sendMsg_asked hone) fun ok => Triple.ite (fun hfail => ?_) fun _ => ?_
  · exact Triple.pure fun s h => h.1 (by simpa using hfail)
  · exact Triple.conseq hm (fun s h => h.2) fun _ _ h => h

/-- Send, and read the reply whether or not that fails. -/
theorem Pairs.tell {msg : SmbMessage} (hcommand : msg.command ≠ smbCmdTrans2)
    (hm : c.Takes m) : c.Pairs (smbSessionSendMsg msg >>= fun _ => m) := by
  refine Triple.bind (sendMsg_asked (.inl hcommand)) fun ok => ?_
  exact Triple.conseq hm (fun s h => h.2) fun _ _ h => h

theorem Takes.recvInto {msg : SmbMessage} {k : Nat × SmbMessage → SmbM α}
    (hk : ∀ r, c.Pairs (k r)) : c.Takes (smbSessionRecvInto msg >>= k) := by
  have hrecv : c.Takes (smbSessionRecvInto msg) := fun _ h => Asked.packetRecv h
  exact Triple.bind hrecv hk

theorem Takes.recv {k : Option SmbMessage → SmbM α} (hk : ∀ r, c.Pairs (k r)) :
    c.Takes (smbSessionRecvMsg >>= k) := by
  have hrecv : c.Takes smbSessionRecvMsg := by
    intro s h
    rw [recvMsg_eq]
    exact Asked.packetRecv h
  exact Triple.bind hrecv hk

/-! ## Operations -/

section

variable (P : Platform)

theorem checkNtStatus_pairs (msg : SmbMessage) : c.Pairs (smbSessionCheckNtStatus msg) :=
  .ite (.bind (.modify fun _ => rfl) fun _ => .pure _) (.pure _)

/-- A reply that is checked for its status before anything else. -/
theorem checked_pairs {resp : SmbMessage} (hm : c.Pairs m) (hn : c.Pairs n) :
    c.Pairs (do if !(← smbSessionCheckNtStatus resp) then m else n) :=
  (checkNtStatus_pairs resp).bind fun _ => .ite hm hn

theorem simpleReply_takes : c.Takes smbSimpleReply := by
  refine .recv fun resp => ?_
  cases resp with
  | none => exact .pure _
  | some resp => exact checked_pairs (.pure _) (.ite (.pure _) (.ite (.pure _) (.pure _)))

theorem negotiate_pairs : c.Pairs (smbNegotiate P) := by
  have hcommand : (smbNegotiateReq P).command = smbCmdNegotiate := by
    simp [smbNegotiateReq, command_foldl]
  refine .ask (.inl (by rw [hcommand]; decide)) (.recv fun answer => ?_)
  cases answer with
  | none => exact .pure _
  | some answer =>
    refine .ite (.pure _) (checked_pairs (.pure _) (.ite (.pure _) ?_))
    have hsrv : ∀ (s : SmbSession) srv, ({ s with srv } : SmbSession).tcp = s.tcp := fun _ _ => rfl
    refine .bind (.modify fun s => hsrv s _) fun _ => .bind .get fun _ => .ite ?_ (.pure _)
    exact .bind (.modify fun s => hsrv s _) fun _ => .pure _

theorem treeConnect_pairs (name : List UInt8) : c.Pairs (smbTreeConnect P name) := by
  refine .bind .get fun s => ?_
  have hcommand : (smbTreeConnectReq P s.srv.name name).command = smbCmdTreeConnect := by
    simp [smbTreeConnectReq, smbMessageSetAndxMembers]
  refine .ask (.inl (by rw [hcommand]; decide)) (.recv fun resp => ?_)
  cases resp with
  | none => exact .pure _
  | some resp =>
    refine checked_pairs (.pure _) ?_
    split
    · exact .bind (.modify fun _ => rfl) fun _ => .pure _
    · exact .pure _

theorem treeDisconnect_pairs (tid : UInt16) : c.Pairs (smbTreeDisconnect P tid) := by
  have hcommand : (smbTreeDisconnectReq P tid).command = smbCmdTreeDisconnect := by
    simp [smbTreeDisconnectReq]
  exact .ask (.inl (by rw [hcommand]; decide)) simpleReply_takes

theorem fopen_pairs (tid : UInt16) (path : List UInt8) (oFlags : UInt32) :
    c.Pairs (smbFopen P tid path oFlags) := by
  refine .bind .get fun s => ?_
  split
  · refine .ite (.pure _) ?_
    have hcommand : (smbFopenReq P tid (smbToUtf16 P (path ++ [0])) oFlags).command = smbCmdCreate := by
      simp [smbFopenReq]
    refine .ask (.inl (by rw [hcommand]; decide)) (.recv fun resp => ?_)
    cases resp with
    | none => exact .pure _
    | some resp =>
      refine checked_pairs (.pure _) (.ite (.pure _) ?_)
      exact .bind (.modify fun _ => rfl) fun _ => .pure _
  · exact .pure _

theorem fclose_pairs (fd : UInt32) : c.Pairs (smbFclose P fd) := by
  have hcommand : (smbFcloseReq P fd).command = smbCmdClose := by simp [smbFcloseReq]
  have htail : c.Pairs (do
      let _ ← smbSessionSendMsg (smbFcloseReq P fd)
      let _ ← smbSessionRecvMsg) :=
    .tell (by rw [hcommand]; decide) (.recv fun _ => .pure _)
  refine .ite (.pure _) (Triple.get_bind fun s hs => ?_)
  have hremove : (smbSessionFileRemove s fd).2.tcp = s.tcp := by
    obtain ⟨shares, hremove⟩ := fileRemove_eq s fd
    rw [hremove]
    rfl
  generalize smbSessionFileRemove s fd = r at hremove
  obtain ⟨file, s'⟩ := r
  cases file with
  | none => exact hs
  | some file => exact Pairs.set_bind htail hremove hs

theorem fseek_pairs (fd : UInt32) (offset : Int) (whence : Option SmbSeek) :
    c.Pairs (smbFseek fd offset whence) := by
  refine .bind .get fun s => ?_
  split
  · exact .bind (.modify fun _ => rfl) fun _ => .pure _
  · exact .pure _

theorem fread_pairs (fd : UInt32) (copy : Bool) (bufSize : Nat) :
    c.Pairs (smbFread P fd copy bufSize) := by
  refine .bind .get fun s => ?_
  split
  · rename_i file _
    have hcommand : (smbFreadReq P file bufSize).command = smbCmdRead := by simp [smbFreadReq]
    refine .ask (.inl (by rw [hcommand]; decide)) (.recv fun resp => ?_)
    cases resp with
    | none => exact .pure _
    | some resp =>
      refine checked_pairs (.pure _) (.ite (.pure _) (.ite (.pure _) ?_))
      exact (fseek_pairs _ _ _).bind fun _ => .pure _
  · exact .pure _

theorem fwrite_pairs (fd : UInt32) (buf : List UInt8) : c.Pairs (smbFwrite P fd buf) := by
  refine .bind .get fun s => ?_
  split
  · rename_i file _
    have hcommand : (smbFwriteReq P file buf).command = smbCmdWrite := by simp [smbFwriteReq]
    refine .ask (.inl (by rw [hcommand]; decide)) (.recv fun resp => ?_)
    cases resp with
    | none => exact .pure _
    | some resp =>
      refine checked_pairs (.pure _) (.ite (.pure _) ?_)
      exact (fseek_pairs _ _ _).bind fun _ => .pure _
  · exact .pure _

theorem fileRm_pairs (tid : UInt16) (path : List UInt8) : c.Pairs (smbFileRm P tid path) := by
  have hcommand : (smbFileRmReq P tid (smbToUtf16 P (path ++ [0]))).command = smbCmdRmfile := by
    simp [smbFileRmReq]
  exact .ite (.pure _) (.tell (by rw [hcommand]; decide) simpleReply_takes)

theorem fileMv_pairs (tid : UInt16) (oldPath newPath : List UInt8) :
    c.Pairs (smbFileMv P tid oldPath newPath) := by
  have hcommand : (smbFileMvReq P tid (smbToUtf16 P (oldPath ++ [0]))
      (smbToUtf16 P (newPath ++ [0]))).command = smbCmdMove := by
    simp [smbFileMvReq]
  exact .ite (.pure _) (.ite (.pure _) (.tell (by rw [hcommand]; decide) simpleReply_takes))

theorem directoryOp_pairs {cmd : UInt8} (hcmd : cmd ≠ smbCmdTrans2) (tid : UInt16)
    (path : List UInt8) : c.Pairs (smbDirectoryOp P cmd tid path) := by
  have hcommand : (smbDirectoryReq P cmd tid (smbToUtf16 P (path ++ [0]))).command = cmd := by
    simp [smbDirectoryReq]
  exact .ite (.pure _) (.tell (by rw [hcommand]; exact hcmd) simpleReply_takes)

/-! ## Logging in and off -/

theorem loginNtlm_pairs (nonces : SmbNonces) (domain user password : List UInt8) :
    c.Pairs (smbSessionLoginNtlm P nonces domain user password) := by
  refine .bind .get fun s => ?_
  have hcommand : (smbSessionLoginNtlmReq P nonces s.srv domain user password).command =
      smbCmdSetup := by
    unfold smbSessionLoginNtlmReq
    dsimp only
    split <;> simp
  refine .ask (.inl (by rw [hcommand]; decide)) (.recv fun answer => ?_)
  cases answer with
  | none => exact .pure _
  | some answer =>
    refine .ite (.pure _) (checked_pairs (.pure _) ?_)
    exact .bind (.of_keeps (loggedIn_keeps _ _)) fun _ => .pure _

theorem xsecReq_command (srv : SmbSrvInfo) (der : List UInt8) (align : Bool) :
    (smbSessionXsecReq P srv der align).command = smbCmdSetup := by
  unfold smbSessionXsecReq
  dsimp only
  split <;> simp

/-- The first message of the SPNEGO exchange, of which the second takes the reply. -/
theorem spnegoNegotiate_asked (domain : List UInt8) :
    Triple (fun s => c.Idle s.tcp) (spnegoNegotiate P domain) fun res s =>
      (res ≠ .success → c.Idle s.tcp) ∧ c.Asked s.tcp := by
  have hidle : ∀ res : DsmCode, Triple (fun s => c.Idle s.tcp) (Pure.pure res : SmbM DsmCode)
      fun res s => (res ≠ .success → c.Idle s.tcp) ∧ c.Asked s.tcp :=
    fun _ => Triple.pure fun s h => ⟨fun _ => h, Idle.asked h⟩
  refine Triple.bind Pairs.get fun s => ?_
  split
  · rename_i der _
    have hcommand := xsecReq_command P s.srv der false
    refine Triple.bind (sendMsg_asked (.inl (by rw [hcommand]; decide))) fun ok => ?_
    refine Triple.ite (fun hfail => ?_) fun _ => ?_
    · exact (hidle _).conseq (fun s h => h.1 (by simpa using hfail)) fun _ _ h => h
    · exact Triple.pure fun s h => ⟨fun hne => absurd rfl hne, h.2⟩
  · exact hidle _

theorem spnegoChallenge_takes : c.Takes (spnegoChallenge P) := by
  refine .recv fun msg => ?_
  cases msg with
  | none => exact .pure _
  | some msg =>
    refine .ite (.pure _) (.ite (.pure _) ?_)
    dsimp only
    split
    · exact .bind (.modify (by intro s; rfl)) fun _ => .pure _
    · exact .pure _

theorem spnegoAuth_pairs (nonces : SmbNonces) (domain user password : List UInt8) :
    c.Pairs (spnegoAuth P nonces domain user password) := by
  refine .bind .get fun s => ?_
  dsimp only
  split
  · rename_i der _
    have hcommand := xsecReq_command P s.srv der true
    refine .ask (.inl (by rw [hcommand]; decide)) (.recv fun resp => ?_)
    cases resp with
    | none => exact .pure _
    | some resp =>
      refine checked_pairs (.pure _) (.ite (.pure _) ?_)
      exact .bind (.of_keeps (loggedIn_keeps _ _)) fun _ => .pure _
  · exact .pure _

theorem spnegoExchange_pairs (nonces : SmbNonces) (domain user password : List UInt8) :
    c.Pairs (spnegoExchange P nonces domain user password) := by
  refine Triple.bind (spnegoNegotiate_asked P domain) fun res => Triple.ite (fun hres => ?_)
    fun _ => ?_
  · exact Triple.pure fun s h => h.1 hres
  · refine Triple.conseq (Triple.bind (spnegoChallenge_takes P) fun res => ?_) (fun s h => h.2)
      fun _ _ h => h
    exact Pairs.ite (.pure _) (spnegoAuth_pairs P nonces domain user password)

theorem login_pairs (nonces : SmbNonces) : c.Pairs (smbSessionLogin P nonces) := by
  refine .bind .get fun s => ?_
  split
  · refine .ite ?_ (loginNtlm_pairs P _ _ _ _)
    refine .bind (.modify fun _ => rfl) fun _ => ?_
    refine .bind (.of_keeps ?_) fun _ => .ite (.pure _) ?_
    · exact .bind .get fun _ => .ite (.pure _) (.ite (.pure _)
        (.bind (.modify fun _ => rfl) fun _ => .pure _))
    · exact (spnegoExchange_pairs P _ _ _ _).bind fun _ =>
        .bind (.modify fun _ => rfl) fun _ => .pure _
  · exact .pure _

/-- Logging off sends a request and reads nothing: it pairs if that request has no answer. -/
theorem logoff_pairs (hreads : ∀ msgs, c.reads msgs → msgs = []) :
    c.Pairs (smbSessionLogoff P) := by
  have hsend : c.Pairs (smbSessionSendMsg (smbSessionLogoffReq P)) := by
    refine (c.sendMsg _).post fun ok s h => h.2.imp ?_
    rintro msgs (hnil | ⟨h, -⟩)
    · exact hnil
    · exact hreads msgs h
  exact hsend.bind fun _ => .ite (.pure _) (.bind (.modify fun _ => rfl) fun _ => .pure _)

/-! ## Searches -/

theorem fstat_pairs (hreads : ∀ msgs, c.reads msgs → msgs.length ≤ 1) (tid : UInt16)
    (path : List UInt8) : c.Pairs (smbFstat P tid path) := by
  refine .ite (.pure _) (.ask (.inr hreads) (.recv fun reply => ?_))
  cases reply with
  | none => exact .pure _
  | some reply =>
    exact checked_pairs (.pure _) (.ite (.pure _) (.ite (.pure _) (.pure _)))

/-- What `smb_tr2_recv` may find unread after a message that leaves it with `remaining`: nothing, or
more messages and a counter that says so. -/
def MoreToCome (remaining : Int) (msgs : List (List UInt8)) : Prop :=
  (msgs ≠ [] → 0 < remaining) ∧ Tr2Continued msgs

theorem tr2RecvLoop_pairs (fuel : Nat) (remaining : Int) (res : SmbMessage) :
    Triple (fun s => c.Fine (MoreToCome remaining) s.tcp ∧ s.tcp.inbox.flatten.length < fuel)
      (smbTr2RecvLoop fuel remaining res) fun _ s => c.Idle s.tcp := by
  induction fuel generalizing remaining res with
  | zero => exact fun s h => absurd h.2 (Nat.not_lt_zero _)
  | succ fuel ih =>
    refine .ite (fun hstop => .pure fun s h => h.1.imp ?_) fun _ => ?_
    · rintro msgs ⟨hmore, -⟩
      by_contra hne
      exact hstop (hmore hne)
    · -- a message that is received has taken bytes off the stream
      have hrecv : Triple (fun s => c.Fine (MoreToCome remaining) s.tcp ∧
          s.tcp.inbox.flatten.length < fuel + 1) smbSessionRecvMsg fun r s =>
            c.Fine (Received (MoreToCome remaining) r) s.tcp ∧
              (r.isSome = true → s.tcp.inbox.flatten.length < fuel) := by
        refine fun s h => ⟨c.recvMsg _ s h.1, fun hsome => ?_⟩
        obtain ⟨msg, hmsg⟩ := Option.isSome_iff_exists.mp hsome
        have hless := (recvMsg_some (run_eq hmsg)).2
        have hfuel := h.2
        omega
      refine hrecv.bind fun recv => ?_
      cases recv with
      | none =>
        refine .pure fun s h => h.1.imp ?_
        rintro msgs ⟨reply, ⟨-, hcontinued⟩, -, hshort⟩
        exact hcontinued.last (hshort rfl)
      | some recv =>
        refine (ih _ _).conseq (fun s h => ⟨h.1.imp ?_, h.2 rfl⟩) fun _ _ h => h
        rintro msgs ⟨reply, ⟨-, hcontinued⟩, hholds, -⟩
        obtain ⟨hmore, hrest⟩ := hcontinued.next
        exact ⟨fun hne => (hmore hne).remaining_pos (hholds recv rfl).1, hrest⟩

/-- An answer is put together: every message of it is taken. -/
theorem tr2Recv_pairs :
    Triple (fun s => c.Fine Tr2Continued s.tcp) (smbTr2Recv P) fun _ s => c.Idle s.tcp := by
  refine .bind (c.recvMsg _) fun recv => ?_
  cases recv with
  | none =>
    refine .pure fun s h => h.imp ?_
    rintro msgs ⟨reply, hcontinued, -, hshort⟩
    exact hcontinued.last (hshort rfl)
  | some recv =>
    show Triple _ (smbTr2Gather recv (smbMessageGrow P recv (smbTr2Growth recv.payload))) _
    generalize hgrow : smbMessageGrow P recv (smbTr2Growth recv.payload) = grown
    cases grown with
    | none =>
      refine .pure fun s h => h.imp ?_
      rintro msgs ⟨reply, hcontinued, hholds, -⟩
      by_contra hne
      obtain ⟨hholds, hsmall⟩ := hholds recv rfl
      have hsome := (hcontinued.next.1 hne).grows hholds P hsmall
      rw [hgrow] at hsome
      exact absurd hsome (by decide)
    | some grown =>
      refine .get_bind fun s h => ?_
      rw [bind_pure_snd]
      refine tr2RecvLoop_pairs _ _ _ s ⟨h.imp ?_, Nat.lt_succ_self _⟩
      rintro msgs ⟨reply, hcontinued, hholds, -⟩
      obtain ⟨hmore, hrest⟩ := hcontinued.next
      exact ⟨fun hne => (hmore hne).remaining_pos (hholds recv rfl).1, hrest⟩

section

variable (hreads : ∀ msgs, c.reads msgs → Tr2Continued msgs)

include hreads

theorem trans2_pairs (msg : SmbMessage) :
    c.Pairs (smbSessionSendMsg msg >>= fun ok => if !ok then Pure.pure none else smbTr2Recv P) := by
  refine Triple.bind (c.sendMsg msg) fun ok => .ite (fun hfail => ?_) fun _ => ?_
  · exact .pure fun s h => h.1 (by simpa using hfail)
  · refine (tr2Recv_pairs P).conseq (fun s h => h.2.imp ?_) fun _ _ h => h
    rintro msgs (rfl | ⟨h, -⟩)
    · exact fun _ hm => by cases hm
    · exact hreads msgs h

theorem findLoop_pairs (tid sid : UInt16) (pattern : List UInt8) (fuel : Nat)
    (endOfSearch : Bool) (resumeKey errorOffset : UInt16) (files : List SmbFile) :
    c.Pairs (smbFindLoop P tid sid pattern fuel endOfSearch resumeKey errorOffset files) := by
  induction fuel generalizing endOfSearch resumeKey errorOffset files with
  | zero => exact .pure _
  | succ fuel ih =>
    refine .ite (.pure _) (.bind (.ite (.pure _) (trans2_pairs P hreads _)) fun msg => ?_)
    cases msg with
    | none => exact .pure _
    | some msg => exact ih _ _ _ _

theorem find_pairs (tid : UInt16) (pattern : List UInt8) : c.Pairs (smbFind P tid pattern) := by
  refine .bind (.ite (.pure _) (trans2_pairs P hreads _)) fun msg => ?_
  cases msg with
  | none => exact .pure _
  | some msg => exact .ite (.pure _) (.bind .get fun _ => findLoop_pairs P hreads _ _ _ _ _ _ _ _)

end

/-! ## Listing the shares -/

theorem shareEnum_pairs (ipcTid : UInt16) (srvsvcFd : UInt32) :
    c.Pairs (smbShareEnum P ipcTid srvsvcFd) := by
  have hbind : (smbShareBindReq P ipcTid (smbFdFid srvsvcFd)).command = smbCmdTrans := by
    simp [smbShareBindReq, smbPutPipe]
  refine .ask (.inl (by rw [hbind]; decide)) (.recvInto fun _ => .ite (.pure _) (.ite (.pure _) ?_))
  refine .bind .get fun s => ?_
  have henum : (smbShareEnumReq P s.srv.name ipcTid (smbFdFid srvsvcFd)).command = smbCmdTrans := by
    unfold smbShareEnumReq
    dsimp only
    split <;> simp [smbPutPipe]
  refine .ask (.inl (by rw [henum]; decide)) ?_
  exact .recvInto fun _ => .ite (.pure _) (.ite (.pure _) (.pure _))

theorem shareGetList_pairs : c.Pairs (smbShareGetList P) := by
  refine (treeConnect_pairs P _).bind fun ⟨ret, ipcTid⟩ => ?_
  cases ipcTid with
  | none => exact .pure _
  | some ipcTid =>
    refine (fopen_pairs P _ _ _).bind fun ⟨ret, srvsvcFd⟩ => ?_
    cases srvsvcFd with
    | none => exact .pure _
    | some srvsvcFd =>
      exact (shareEnum_pairs P _ _).bind fun _ => (fclose_pairs P _).bind fun _ => .pure _

end

/-! ## Connecting -/

/-- The call has done nothing yet but try to connect. -/
structure Connecting (c : Call) (tcp : Tcp) : Prop where
  serves : Serves c.replies tcp
  served : tcp.served = c.start.served
  log : ∃ events, tcp.log = c.start.log ++ events ∧
    ∀ event ∈ events, event = .connected ∨ event = .connectFailed

/-- On a connection on which nothing has arrived it has nothing to read. -/
theorem Connecting.idle (h : c.Connecting tcp) (hinbox : Carried tcp.inbox []) : c.Idle tcp := by
  obtain ⟨events, hlog, hevents⟩ := h.log
  have hrequests : events.filterMap NetEvent.request = [] := by
    refine List.filterMap_eq_nil_iff.mpr fun event hevent => ?_
    rcases hevents event hevent with rfl | rfl <;> rfl
  have hread : repliesRead events = [] := by
    refine List.filterMap_eq_nil_iff.mpr fun event hevent => ?_
    rcases hevents event hevent with rfl | rfl <;> rfl
  have hunbroken : Unbroken events := by
    intro event hevent
    rcases hevents event hevent with rfl | rfl <;> rfl
  refine ⟨events, h.serves, hlog, ?_, fun hbroken => absurd hunbroken hbroken, fun _ _ => ?_⟩
  · rw [h.served, hrequests]
    rfl
  · refine ⟨[], rfl, ?_, hinbox⟩
    rw [hread, repliesDue, requestsSent, hrequests]
    rfl

/-- An attempt to connect, which ends on a connection on which nothing has arrived, or on none. -/
theorem Connecting.connect (h : c.Connecting tcp) :
    c.Connecting tcp.connect.2 ∧ Carried tcp.connect.2.inbox [] := by
  obtain ⟨events, hlog, hevents⟩ := h.log
  have hlog' : ∀ event, event = .connected ∨ event = .connectFailed →
      ∃ events, tcp.log ++ [event] = c.start.log ++ events ∧
        ∀ event ∈ events, event = .connected ∨ event = .connectFailed := by
    intro event hevent
    refine ⟨events ++ [event], by rw [hlog, List.append_assoc], fun e he => ?_⟩
    rcases List.mem_append.mp he with he | he
    · exact hevents e he
    · rwa [List.mem_singleton.mp he]
  unfold Tcp.connect
  split
  · rename_i inbox rest hconnects
    refine ⟨⟨h.serves.of_eq rfl ?_, h.served, hlog' _ (.inl rfl)⟩,
      h.serves.quiet inbox (by rw [hconnects]; exact List.mem_cons_self)⟩
    intro attempt hmem
    rw [hconnects]
    exact List.mem_cons_of_mem _ hmem
  · rename_i rest hconnects
    refine ⟨⟨h.serves.of_eq rfl ?_, h.served, hlog' _ (.inr rfl)⟩, carried_nil⟩
    intro attempt hmem
    rw [hconnects]
    exact List.mem_cons_of_mem _ hmem
  · exact ⟨⟨h.serves.of_eq rfl fun _ h => h, h.served, hlog' _ (.inr rfl)⟩, carried_nil⟩

theorem Connecting.openSocket (ports : Nat) {nb : NetbiosSession} (h : c.Connecting nb.tcp) :
    c.Idle (openSocketAndConnect (ports + 1) nb).2.tcp := by
  induction ports generalizing nb with
  | zero =>
    obtain ⟨hconnecting, hinbox⟩ := h.connect
    rw [openSocketAndConnect]
    split
    · exact hconnecting.idle hinbox
    · exact hconnecting.idle hinbox
  | succ ports ih =>
    obtain ⟨hconnecting, hinbox⟩ := h.connect
    rw [openSocketAndConnect]
    split
    · exact hconnecting.idle hinbox
    · exact ih hconnecting

/-- The request of a session, which is no SMB message. -/
theorem sessionRequest_frame (nb : NetbiosSession) (name : List UInt8) :
    (netbiosSessionRequest nb name).tcp = nb.tcp ∧
      (netbiosSessionRequest nb name).packet.bytes 0 = netbiosOpSessionReq := by
  unfold netbiosSessionRequest
  generalize cString (netbiosNameEncode name netbiosFileserver) = called
  generalize cString (netbiosNameEncode (ascii "LIBDSM") netbiosWorkstation) = calling
  refine ⟨?_, ?_⟩
  · rw [packetAppend_tcp, packetAppend_tcp]
    rfl
  · rw [packetAppend_bytes, Mem.write_of_lt _ _ (by simp only [netbiosHeaderSize]; omega),
      packetAppend_bytes, Mem.write_of_lt _ _ (by simp only [netbiosHeaderSize]; omega)]
    exact Mem.write_inside (netbiosSessionPacketInit nb).packet.bytes 0 0 [netbiosOpSessionReq]
      (by decide)

theorem frame_opcode (nb : NetbiosSession) : nb.frame.getD 0 0 = nb.packet.bytes 0 := by
  have hpos : 0 < netbiosHeaderSize + nb.packetCursor := by
    simp only [netbiosHeaderSize]
    omega
  rw [NetbiosSession.frame, List.getD_eq_getElem?_getD, Mem.read_getElem? _ _ _ _ hpos,
    Option.getD_some, Mem.write_of_lt _ _ (by decide)]

/-- A session request is sent, which has one answer. -/
theorem Idle.sendRequest {nb : NetbiosSession} (h : c.Idle nb.tcp)
    (hopcode : nb.packet.bytes 0 = netbiosOpSessionReq) :
    ((netbiosSessionPacketSend nb).1 = 0 → c.Idle (netbiosSessionPacketSend nb).2.tcp) ∧
      c.Asked (netbiosSessionPacketSend nb).2.tcp := by
  have htrans2 : ¬ IsTrans2 nb.frame := by
    rintro ⟨hmsg, -⟩
    rw [frame_opcode, hopcode] at hmsg
    exact absurd hmsg (by decide)
  obtain ⟨hfail, hsent⟩ := h.packetSend
  refine ⟨hfail, hsent.imp ?_⟩
  rintro msgs (rfl | ⟨-, hone⟩)
  · exact Nat.zero_le _
  · exact hone htrans2

theorem Connecting.sessionConnect {nb : NetbiosSession} (h : c.Connecting nb.tcp)
    (name : List UInt8) (directTcp : Bool) :
    c.Idle (netbiosSessionConnect nb name directTcp).2.tcp := by
  have hopen : c.Idle (openSocketAndConnect (if directTcp then 2 else 1) nb).2.tcp := by
    cases directTcp with
    | true => exact h.openSocket 1
    | false => exact h.openSocket 0
  -- what the request looks like is kept out of sight
  obtain ⟨requestOf, heq, hrequest⟩ : ∃ f, netbiosSessionRequest = f ∧ ∀ nb name,
      (f nb name).tcp = nb.tcp ∧ (f nb name).packet.bytes 0 = netbiosOpSessionReq :=
    ⟨_, rfl, sessionRequest_frame⟩
  obtain ⟨r, hr⟩ : ∃ r, openSocketAndConnect (if directTcp then 2 else 1) nb = r := ⟨_, rfl⟩
  unfold netbiosSessionConnect
  rw [heq, hr]
  rw [hr] at hopen
  obtain ⟨htcp, hopcode⟩ := hrequest r.2 name
  dsimp only
  split
  · exact hopen
  · split
    · exact hopen
    · obtain ⟨hfail, hasked⟩ := @Idle.sendRequest c
        { requestOf r.2 name with state := .connecting } (htcp ▸ hopen) hopcode
      have hread := hasked.packetRecv
      split
      · exact hfail ‹_›
      · split
        · exact hread
        · split
          · exact hread
          · exact hread

/-- The socket is closed, and what was unread is gone. -/
theorem Connecting.close (h : c.Connecting tcp) : c.Connecting tcp.close :=
  ⟨h.serves.of_eq rfl fun _ h => h, h.served, h.log⟩

theorem Idle.close (h : c.Idle tcp) : c.Idle tcp.close := by
  obtain ⟨events, h⟩ := h
  refine ⟨events, h.serves.of_eq rfl fun _ h => h, h.log, h.served, h.lost, fun hclear hok => ?_⟩
  obtain ⟨msgs, hnil, hread, -⟩ := h.due hclear hok
  subst hnil
  exact ⟨[], rfl, hread, carried_nil⟩

theorem transportDisconnect_tcp {A : Tcp → Prop} (hclose : ∀ tcp, A tcp → A tcp.close) :
    Triple (fun s => A s.tcp) smbTransportDisconnect fun _ s => A s.tcp := by
  refine .modify fun s hs => ?_
  split
  · show A (netbiosSessionDisconnect s.transport.session).tcp
    unfold netbiosSessionDisconnect
    split
    · exact hclose _ hs
    · exact hs
  · exact hs

/-- A connect with a transport starts anew, whatever there is to read. -/
theorem connect_idle (P : Platform) (name : List UInt8) (kind : SmbTransportKind) :
    Triple (fun s => c.Connecting s.tcp) (smbSessionConnect P name (some kind))
      fun _ s => c.Idle s.tcp := by
  refine .bind (transportDisconnect_tcp fun _ => Connecting.close) fun _ => ?_
  refine .bind (.modify (Q := fun _ s => c.Connecting s.tcp) fun _ h => h) fun _ => ?_
  have hconnect : Triple (fun s => c.Connecting s.tcp) (smbTransportConnect name kind)
      fun _ s => c.Idle s.tcp := fun s h => h.sessionConnect name _
  refine hconnect.bind fun _ => Pairs.ite (.pure _) ?_
  exact .bind (.modify fun _ => rfl) fun _ => negotiate_pairs P

/-- One without a transport only disconnects. -/
theorem connect_pairs (P : Platform) (name : List UInt8) :
    c.Pairs (smbSessionConnect P name none) :=
  Triple.bind (transportDisconnect_tcp fun _ => Idle.close) fun _ => Pairs.pure _

end Call

/-! ## Whole runs -/

/-- The answers that a call reads to their end: logging off reads none, `smb_fstat` one message, and
`smb_find` goes on as long as the messages say that there is more. -/
def SmbOp.Reads : SmbOp → List (List UInt8) → Prop
  | .logoff, answer => answer = []
  | .fstat .., answer => answer.length ≤ 1
  | .find .., answer => Tr2Continued answer
  | _, _ => True

section

variable (P : Platform) (replies : Nat → List UInt8 → List (List UInt8))

/-- If no receive fails and no frame is accepted in part, the call reads the replies to its own requests
and no others, and leaves nothing unread. -/
def OpPaired (s : SmbSession) (op : SmbOp) : Prop :=
  Unbroken (op.events P s) →
    repliesRead (op.events P s) = repliesDue replies s.tcp.served (op.events P s) ∧
      Carried (op.run P s).tcp.inbox []

/-- The call stays clear of the defects: it starts on a connection on which no receive has failed and no
frame was accepted in part, or makes a new one, and each request that reaches the server is one that the
length field has room for, with an answer that the call reads to its end. -/
structure PairClear (s : SmbSession) (op : SmbOp) : Prop where
  inStep : (∃ name kind, op = .connect name (some kind)) ∨ inStep s.tcp.log = true
  requests : ∀ r ∈ requestsSent s.tcp.served (op.events P s),
    FitsLength r.1 ∧ op.Reads (replies r.2 r.1)

/-- The invariant: nothing is unread as long as the two ends are in step. -/
structure PairInv (s : SmbSession) : Prop where
  serves : Serves replies s.tcp
  inbox : inStep s.tcp.log = true → Carried s.tcp.inbox []

/-- The call that `op` makes of the session as it is. -/
def callOf (s : SmbSession) (op : SmbOp) : Call := ⟨replies, s.tcp, op.Reads⟩

variable {replies}

theorem exec_pairs {s : SmbSession} {op : SmbOp}
    (hop : ∀ name kind, op ≠ .connect name (some kind)) :
    (callOf replies s op).Pairs (op.exec P) := by
  cases op with
  | setCreds domain user password => exact .bind (.modify fun _ => rfl) fun _ => .pure _
  | connect name transport =>
    cases transport with
    | none => exact (Call.connect_pairs P name).bind fun _ => .pure _
    | some kind => exact absurd rfl (hop name kind)
  | login nonces => exact (Call.login_pairs P nonces).bind fun _ => .pure _
  | logoff => exact (Call.logoff_pairs P fun _ h => h).bind fun _ => .pure _
  | treeConnect name => exact (Call.treeConnect_pairs P name).bind fun _ => .pure _
  | treeDisconnect tid => exact (Call.treeDisconnect_pairs P tid).bind fun _ => .pure _
  | fopen tid path oFlags => exact (Call.fopen_pairs P tid path oFlags).bind fun _ => .pure _
  | fclose fd => exact (Call.fclose_pairs P fd).bind fun _ => .pure _
  | fread fd copy bufSize => exact (Call.fread_pairs P fd copy bufSize).bind fun _ => .pure _
  | fwrite fd buf => exact (Call.fwrite_pairs P fd buf).bind fun _ => .pure _
  | fseek fd offset whence => exact (Call.fseek_pairs fd offset whence).bind fun _ => .pure _
  | fileRm tid path => exact (Call.fileRm_pairs P tid path).bind fun _ => .pure _
  | fileMv tid oldPath newPath => exact (Call.fileMv_pairs P tid oldPath newPath).bind fun _ => .pure _
  | directoryRm tid path =>
    exact (Call.directoryOp_pairs P (by decide) tid path).bind fun _ => .pure _
  | directoryCreate tid path =>
    exact (Call.directoryOp_pairs P (by decide) tid path).bind fun _ => .pure _
  | find tid pattern => exact (Call.find_pairs P (fun _ h => h) tid pattern).bind fun _ => .pure _
  | fstat tid path => exact (Call.fstat_pairs P (fun _ h => h) tid path).bind fun _ => .pure _
  | shareGetList => exact (Call.shareGetList_pairs P).bind fun _ => .pure _

/-- A call ends with nothing to read. -/
theorem PairInv.idle {s : SmbSession} (h : PairInv replies s) {op : SmbOp}
    (hstep : (∃ name kind, op = .connect name (some kind)) ∨ inStep s.tcp.log = true) :
    (callOf replies s op).Idle (op.run P s).tcp := by
  have hconnecting : (callOf replies s op).Connecting s.tcp :=
    ⟨h.serves, rfl, [], by rw [List.append_nil]; rfl, fun _ h => by cases h⟩
  by_cases hop : ∃ name kind, op = .connect name (some kind)
  · obtain ⟨name, kind, rfl⟩ := hop
    have hconnect := Triple.bind (Call.connect_idle P name kind) fun code =>
      Call.Pairs.pure (c := callOf replies s (.connect name (some kind))) (SmbResult.code code)
    exact hconnect s hconnecting
  · have hidle : (callOf replies s op).Idle s.tcp :=
      hconnecting.idle (h.inbox (hstep.resolve_left hop))
    exact exec_pairs P (fun name kind heq => hop ⟨name, kind, heq⟩) s hidle

theorem PairInv.step {s : SmbSession} (h : PairInv replies s) {op : SmbOp}
    (hclear : PairClear P replies s op) :
    PairInv replies (op.run P s) ∧ OpPaired P replies s op := by
  obtain ⟨events, hfollows⟩ := h.idle P hclear.inStep
  have hevents : op.events P s = events := events_eq hfollows.log
  have hrequests := hclear.requests
  rw [hevents] at hrequests
  refine ⟨⟨hfollows.serves, fun hstep => ?_⟩, fun hok => ?_⟩
  · have hok : Unbroken events := by
      by_contra hbroken
      rw [hfollows.lost hbroken] at hstep
      exact Bool.false_ne_true hstep
    obtain ⟨msgs, rfl, -, hinbox⟩ := hfollows.due hrequests hok
    exact hinbox
  · rw [hevents] at hok ⊢
    obtain ⟨msgs, rfl, hread, hinbox⟩ := hfollows.due hrequests hok
    rw [List.append_nil] at hread
    exact ⟨hread, hinbox⟩

/-- Over every run from a new session, against every server that answers each request once and in
order: if each call is clear, each call in which no receive fails and no frame is accepted in part reads
exactly the replies to its own requests and leaves none unread. -/
theorem requests_paired (tcp : Tcp) (hserves : Serves replies tcp) (hinbox : tcp.inbox = [])
    (ops : List SmbOp)
    (hclear : Along (SmbOp.run P) (PairClear P replies) (smbSessionNew P tcp) ops) :
    Along (SmbOp.run P) (OpPaired P replies) (smbSessionNew P tcp) ops := by
  have hstart : PairInv replies (smbSessionNew P tcp) := by
    refine ⟨hserves, fun _ => ?_⟩
    show Carried tcp.inbox []
    rw [hinbox]
    exact carried_nil
  exact (Along.of_invariant (fun _ _ h hc => h.step P hc) hstart hclear).1

end

/-- A peer that accepts one connection and answers every frame with the same reply. -/
def Tcp.repeating (reply : List UInt8) : Tcp where
  connects := [some []]
  sends := List.replicate 8 65539
  server := fun _ _ => [[0, 0] ++ htons reply.length ++ reply]
  served := 0
  inbox := []
  wire := []
  log := []

theorem serves_repeating {reply : List UInt8} (hlen : reply.length < 65536) :
    Serves (fun _ _ => [reply]) (.repeating reply) where
  answers _ _ _ := (@delivers_frames [reply] (by simpa using hlen)).frames
  once _ _ _ _ := ⟨reply, rfl⟩
  quiet inbox hmem := by
    obtain rfl : inbox = [] := by simpa [Tcp.repeating] using hmem
    exact carried_nil

/-- A connect and the disconnect of a tree. -/
theorem requests_paired_tree :
    let tcp := Tcp.repeating (negotiateReply 0)
    let replies : Nat → List UInt8 → List (List UInt8) := fun _ _ => [negotiateReply 0]
    let ops : List SmbOp := [.connect (ascii "s") (some .tcp), .treeDisconnect 5]
    Along (SmbOp.run .ascii) (PairClear .ascii replies) (smbSessionNew .ascii tcp) ops ∧
      Along (SmbOp.run .ascii) (OpPaired .ascii replies) (smbSessionNew .ascii tcp) ops := by
  intro tcp replies ops
  have hclear : Along (SmbOp.run .ascii) (PairClear .ascii replies) (smbSessionNew .ascii tcp) ops := by
    refine ⟨⟨.inl ⟨_, _, rfl⟩, fun r hr => ⟨?_, trivial⟩⟩, ⟨.inr (by decide +kernel),
      fun r hr => ⟨?_, trivial⟩⟩, trivial⟩
    · revert r
      unfold FitsLength
      decide +kernel
    · revert r
      unfold FitsLength
      decide +kernel
  exact ⟨hclear, requests_paired .ascii tcp (serves_repeating (by decide +kernel)) rfl ops hclear⟩

/-- A connect and a logoff, whose reply nobody reads. -/
theorem logoff_unpaired :
    let tcp := Tcp.repeating (negotiateReply 0)
    let replies : Nat → List UInt8 → List (List UInt8) := fun _ _ => [negotiateReply 0]
    Serves replies tcp ∧ tcp.inbox = [] ∧
      ¬ Along (SmbOp.run .ascii) (OpPaired .ascii replies) (smbSessionNew .ascii tcp)
        [.connect (ascii "s") (some .tcp), .logoff] := by
  intro tcp replies
  refine ⟨serves_repeating (by decide +kernel), rfl, fun h => ?_⟩
  have hread := (h.2.1 (by decide +kernel)).1
  revert hread
  decide +kernel

end Libdsm
