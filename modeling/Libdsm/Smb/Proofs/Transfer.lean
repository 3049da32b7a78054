import Libdsm.Smb.Proofs.FileTable
import Libdsm.Smb.Proofs.ShareTable

/-!
# Reading and writing a file

`smb_fread` and `smb_fwrite` are one exchange of messages each. A reply they accept moves the file's
position by the number of bytes it announces, and that number is what they return; in every other
case they fail and the table stays as it was. A read reply is checked against the packet it came in
but not against the buffer of the caller, and a write reply not at all.
-/

namespace Libdsm

variable (P : Platform)

/-! ## One exchange -/

/-- From `s` the request was offered to the socket, the events `got` came after it, and the shares
are still those of `s`. -/
structure Exchanged (s : SmbSession) (req : SmbMessage) (got : List NetEvent) (s' : SmbSession) :
    Prop where
  shares : s'.shares = s.shares
  log : ∃ sent, s'.tcp.log = s.tcp.log ++ (sent ++ got) ∧
    (∀ opcode reply, .received opcode reply ∉ sent) ∧
    sent.filterMap NetEvent.offered =
      if s.transport.session.ready then [s.requestFrame req] else []
  quiet : got.filterMap NetEvent.offered = []

section

variable {s : SmbSession} {req : SmbMessage}

theorem sendMsg_exchanged :
    Triple (· = s) (smbSessionSendMsg req) fun _ => Exchanged s req [] := by
  rintro s₁ rfl
  obtain ⟨sent, hlog, hsilent, hoffered⟩ := sendMsg_offered s₁ req
  refine ⟨?_, ⟨sent, ?_, hsilent, hoffered⟩, rfl⟩
  · rw [sendMsg_eq, withNetbios_shares]
  · rw [hlog, List.append_nil]

/-- The event a receive has logged, and the message it hands out if there is one. -/
def ReceivedNext (s : SmbSession) (req : SmbMessage) (msg : Option SmbMessage) (s' : SmbSession) :
    Prop :=
  (msg = none ∧ ∃ event, NoMessage event ∧ Exchanged s req [event] s') ∨
    ∃ resp opcode reply, msg = some resp ∧ resp.Holds reply ∧
      Exchanged s req [.received opcode reply] s'

theorem recvMsg_exchanged :
    Triple (Exchanged s req []) smbSessionRecvMsg (ReceivedNext s req) := by
  intro s₁ h
  obtain ⟨sent, hlog, hsilent, hoffered⟩ := h.log
  rw [List.append_nil] at hlog
  have hshares : (smbSessionRecvMsg s₁).2.shares = s.shares := recvMsg_shares s₁ h.shares
  obtain ⟨inbox, event, htcp, hcases⟩ := recvMsg_tcp s₁
  have hquiet : event.offered = none := by
    rcases hcases with ⟨-, rfl | ⟨opcode, reply, rfl, -⟩⟩ | ⟨_, opcode, reply, -, rfl, -⟩
    · rfl
    · rfl
    · rfl
  have hexchanged : Exchanged s req [event] (smbSessionRecvMsg s₁).2 := by
    refine ⟨hshares, ⟨sent, ?_, hsilent, hoffered⟩, ?_⟩
    · rw [htcp, hlog, List.append_assoc]
    · rw [List.filterMap_cons, hquiet, List.filterMap_nil]
  rcases hcases with ⟨hnone, hevent⟩ | ⟨msg, opcode, reply, hsome, rfl, hholds⟩
  · exact .inl ⟨hnone, event, hevent, hexchanged⟩
  · exact .inr ⟨msg, opcode, reply, hsome, hholds, hexchanged⟩

/-- The exchange at the start of both calls, which fails with `fail` unless a reply of the status
success comes back. -/
theorem exchange_triple {α : Type} {fail : α} {k : SmbMessage → SmbM α}
    {Q : α → SmbSession → Prop}
    (hfail : ∀ got s', Exchanged s req got s' →
      (∀ opcode reply, .received opcode reply ∈ got →
        reply.length ≤ smbHeaderSize ∨ replyStatus reply ≠ ntStatusSuccess) → Q fail s')
    (hk : ∀ resp opcode reply, resp.Holds reply → replyStatus reply = ntStatusSuccess →
      Triple (Exchanged s req [.received opcode reply]) (k resp) Q) :
    Triple (· = s)
      (do
        if !(← smbSessionSendMsg req) then return fail
        let some resp ← smbSessionRecvMsg | return fail
        if !(← smbSessionCheckNtStatus resp) then return fail
        k resp) Q := by
  refine .bind sendMsg_exchanged fun sent => .ite (fun _ => ?_) fun _ => ?_
  · exact .pure fun s' h => hfail [] s' h (by simp)
  refine .bind recvMsg_exchanged fun msg => ?_
  cases msg with
  | none =>
    refine .pure fun s' h => ?_
    rcases h with ⟨-, event, hevent, hexchanged⟩ | ⟨_, _, _, hsome, -⟩
    · refine hfail [event] s' hexchanged fun opcode reply hmem => .inl ?_
      rw [List.mem_singleton] at hmem
      rcases hevent with hfailed | ⟨opcode', reply', hgot, hshort⟩
      · rw [hfailed] at hmem
        cases hmem
      · rw [hgot] at hmem
        cases hmem
        exact hshort
    · cases hsome
  | some resp =>
    intro s₁ h
    rcases h with ⟨hnone, -⟩ | ⟨_, opcode, reply, hsome, hholds, hexchanged⟩
    · cases hnone
    · cases hsome
      have hstatus := hholds.status_eq
      have hcheck := checkNtStatus_triple (A := Exchanged s req [.received opcode reply])
        (fun _ _ h => ⟨h.shares, h.log, h.quiet⟩) resp
      refine Triple.bind hcheck (fun ok => .ite (fun hbad => ?_) fun hok => ?_) s₁ hexchanged
      · refine .pure fun s' h => hfail _ s' h.2 fun opcode' reply' hmem => .inr ?_
        rw [List.mem_singleton] at hmem
        cases hmem
        rw [← hstatus]
        intro hsucc
        rw [h.1.mpr hsucc] at hbad
        exact absurd hbad (by decide)
      · intro s' h
        have hsucc : replyStatus reply = ntStatusSuccess := by
          rw [← hstatus]
          exact h.1.mp (by simpa using hok)
        exact hk resp opcode reply hholds hsucc s' h.2

end

/-! ## Accepted replies -/

/-- The length and the place of the data in a read reply, and the length a write reply confirms. -/
def readReplyLen (reply : List UInt8) : Nat := (replyU16 reply (smbHeaderSize + 11)).toNat
def readReplyOffset (reply : List UInt8) : Nat := (replyU16 reply (smbHeaderSize + 13)).toNat
def writeReplyLen (reply : List UInt8) : Nat := (replyU16 reply (smbHeaderSize + 5)).toNat

/-- The read reply passes the checks of `smb_fread`, whose data then lie in the packet. -/
def ReadAccepted (reply : List UInt8) : Prop :=
  replyStatus reply = ntStatusSuccess ∧ smbHeaderSize + SmbReadResp.size ≤ reply.length ∧
    readReplyOffset reply + readReplyLen reply ≤ reply.length

/-- The write reply passes the checks of `smb_fwrite`. -/
def WriteAccepted (reply : List UInt8) : Prop :=
  replyStatus reply = ntStatusSuccess ∧ smbHeaderSize + SmbWriteResp.size ≤ reply.length

instance (reply : List UInt8) : Decidable (ReadAccepted reply) :=
  inferInstanceAs (Decidable (_ ∧ _ ∧ _))

instance (reply : List UInt8) : Decidable (WriteAccepted reply) :=
  inferInstanceAs (Decidable (_ ∧ _))

/-- A transfer that failed: no reply was accepted, and the table is as it was. -/
def TransferFailed (s : SmbSession) (req : SmbMessage) (accepted : List UInt8 → Prop)
    (s' : SmbSession) : Prop :=
  ∃ got, Exchanged s req got s' ∧ ∀ opcode reply, .received opcode reply ∈ got → ¬ accepted reply

/-- An exchange without a reply of the status success has failed, whatever else is asked of a reply. -/
theorem transferFailed_of_bad {s s' : SmbSession} {req : SmbMessage}
    {accepted : List UInt8 → Prop} {got : List NetEvent} (h : Exchanged s req got s')
    (hbad : ∀ opcode reply, .received opcode reply ∈ got →
      reply.length ≤ smbHeaderSize ∨ replyStatus reply ≠ ntStatusSuccess)
    (haccepted : ∀ reply, accepted reply →
      replyStatus reply = ntStatusSuccess ∧ smbHeaderSize < reply.length) :
    TransferFailed s req accepted s' := by
  refine ⟨got, h, fun opcode reply hmem hreply => ?_⟩
  obtain ⟨hstatus, hlong⟩ := haccepted reply hreply
  rcases hbad opcode reply hmem with hshort | hfailed
  · omega
  · exact hfailed hstatus

theorem transferFailed_of_rejected {s s' : SmbSession} {req : SmbMessage}
    {accepted : List UInt8 → Prop} {opcode : UInt8} {reply : List UInt8}
    (h : Exchanged s req [.received opcode reply] s') (hrejected : ¬ accepted reply) :
    TransferFailed s req accepted s' := by
  refine ⟨_, h, fun opcode' reply' hmem => ?_⟩
  rw [List.mem_singleton] at hmem
  cases hmem
  exact hrejected

/-- The session with a file's position set. -/
def SmbSession.seek (s : SmbSession) (fd : UInt32) (position : Int) : SmbSession :=
  smbSessionFileUpdate s fd fun file => { file with offset := position }

/-- A transfer of `n` bytes from `position` on: the reply was accepted, and the position has moved
behind the bytes. -/
def TransferDone (s : SmbSession) (fd : UInt32) (req : SmbMessage) (position : Int)
    (reply : List UInt8) (n : Nat) (s' : SmbSession) : Prop :=
  ∃ opcode s₁, Exchanged s req [.received opcode reply] s₁ ∧ s' = s₁.seek fd (position + n)

/-! ## The calls -/

/-- Where `smb_fseek` moves a position to. -/
def seekTo (position offset : Int) : Option SmbSeek → Int
  | some .set => offset
  | some .cur => position + offset
  | none => position

theorem fseek_open {s : SmbSession} {fd : UInt32} {file : SmbFile}
    (hopen : smbSessionFileGet s fd = some file) (offset : Int) (whence : Option SmbSeek) :
    smbFseek fd offset whence s =
      (seekTo file.offset offset whence, s.seek fd (seekTo file.offset offset whence)) := by
  unfold smbFseek
  rw [get_bind_run, hopen]
  cases whence with
  | none => rfl
  | some whence => cases whence <;> rfl

theorem fseek_closed {s : SmbSession} {fd : UInt32} (hclosed : smbSessionFileGet s fd = none)
    (offset : Int) (whence : Option SmbSeek) : smbFseek fd offset whence s = (-1, s) := by
  unfold smbFseek
  rw [get_bind_run, hclosed]
  rfl

section

variable {s : SmbSession} {fd : UInt32} {file : SmbFile}
variable (hopen : smbSessionFileGet s fd = some file)

include hopen

/-- The last steps of both calls: the position moves, and the result is what moved it. -/
theorem advance_triple {α : Type} {req : SmbMessage} {opcode : UInt8} {reply : List UInt8} (n : Nat)
    (result : α) {Q : α → SmbSession → Prop}
    (hQ : ∀ s', TransferDone s fd req file.offset reply n s' → Q result s') :
    Triple (Exchanged s req [.received opcode reply])
      (do
        let _ ← smbFseek fd n (some .cur)
        return result) Q := by
  intro s₁ h
  apply hQ
  have hfile : smbSessionFileGet s₁ fd = some file := by
    rw [fileGet_congr h.shares]
    exact hopen
  refine ⟨opcode, s₁, h, ?_⟩
  show (smbFseek fd n (some .cur) s₁).2 = _
  rw [fseek_open hfile]
  rfl

/-- How `smb_fread` on an open file ends. -/
def FreadEnds (s : SmbSession) (fd : UInt32) (file : SmbFile) (copy : Bool) (bufSize : Nat)
    (r : SmbResult) (s' : SmbSession) : Prop :=
  (∃ res, r = .read res none ∧ res < 0 ∧
      TransferFailed s (smbFreadReq P file bufSize) ReadAccepted s') ∨
    ∃ reply, ReadAccepted reply ∧
      TransferDone s fd (smbFreadReq P file bufSize) file.offset reply (readReplyLen reply) s' ∧
      r = .read (readReplyLen reply)
        (if copy then some ((reply.drop (readReplyOffset reply)).take (readReplyLen reply)) else none)

theorem fread_exec (copy : Bool) (bufSize : Nat) :
    Triple (· = s) (SmbOp.exec P (.fread fd copy bufSize)) (FreadEnds P s fd file copy bufSize) := by
  refine .bind (Q := fun r s' => FreadEnds P s fd file copy bufSize (.read r.1 r.2) s') ?_
    fun r => .pure fun s' h => h
  refine .get_bind_at ?_
  dsimp only
  rw [hopen]
  refine exchange_triple (fun got s' h hbad => ?_) fun resp opcode reply hholds hstatus => ?_
  · refine .inl ⟨-1, rfl, by decide, transferFailed_of_bad h hbad fun reply haccepted => ?_⟩
    exact ⟨haccepted.1, Nat.lt_of_lt_of_le (by decide) haccepted.2.1⟩
  · have hlen := hholds.length
    refine .ite (fun hsmall => ?_) fun hsize => ?_
    · exact .pure fun s' h => .inl ⟨_, rfl, by decide, transferFailed_of_rejected h fun haccepted => by
        have hlong := haccepted.2.1
        omega⟩
    have hsize := Nat.le_of_not_lt hsize
    have hdataLen : (SmbReadResp.dataLen resp.payload).toNat = readReplyLen reply := by
      rw [SmbReadResp.dataLen, readReplyLen, hholds.payload_u16_eq]
      exact Nat.le_trans (by decide) hsize
    have hdataOffset : (SmbReadResp.dataOffset resp.payload).toNat = readReplyOffset reply := by
      rw [SmbReadResp.dataOffset, readReplyOffset, hholds.payload_u16_eq]
      exact Nat.le_trans (by decide) hsize
    rw [hdataLen, hdataOffset, ← hlen]
    refine .ite (fun houtside => ?_) fun hinside => ?_
    · exact .pure fun s' h => .inl ⟨_, rfl, by decide, transferFailed_of_rejected h fun haccepted => by
        have hin := haccepted.2.2
        omega⟩
    have hinside := Nat.le_of_not_lt hinside
    have haccepted : ReadAccepted reply := ⟨hstatus, by omega, hinside⟩
    rw [hholds.read_eq (by omega)]
    exact advance_triple hopen _ _ fun s' hdone => .inr ⟨reply, haccepted, hdone, rfl⟩

/-- How `smb_fwrite` on an open file ends. -/
def FwriteEnds (s : SmbSession) (fd : UInt32) (file : SmbFile) (buf : List UInt8)
    (r : SmbResult) (s' : SmbSession) : Prop :=
  (∃ res, r = .size res ∧ res < 0 ∧ TransferFailed s (smbFwriteReq P file buf) WriteAccepted s') ∨
    ∃ reply, WriteAccepted reply ∧
      TransferDone s fd (smbFwriteReq P file buf) file.offset reply (writeReplyLen reply) s' ∧
      r = .size (writeReplyLen reply)

theorem fwrite_exec (buf : List UInt8) :
    Triple (· = s) (SmbOp.exec P (.fwrite fd buf)) (FwriteEnds P s fd file buf) := by
  refine .bind (Q := fun r s' => FwriteEnds P s fd file buf (.size r) s') ?_
    fun r => .pure fun s' h => h
  refine .get_bind_at ?_
  dsimp only
  rw [hopen]
  refine exchange_triple (fun got s' h hbad => ?_) fun resp opcode reply hholds hstatus => ?_
  · refine .inl ⟨-1, rfl, by decide, transferFailed_of_bad h hbad fun reply haccepted => ?_⟩
    exact ⟨haccepted.1, Nat.lt_of_lt_of_le (by decide) haccepted.2⟩
  · have hlen := hholds.length
    refine .ite (fun hsmall => ?_) fun hsize => ?_
    · exact .pure fun s' h => .inl ⟨_, rfl, by decide, transferFailed_of_rejected h fun haccepted => by
        have hlong := haccepted.2
        omega⟩
    have hsize := Nat.le_of_not_lt hsize
    have hdataLen : (SmbWriteResp.dataLen resp.payload).toNat = writeReplyLen reply := by
      rw [SmbWriteResp.dataLen, writeReplyLen, hholds.payload_u16_eq]
      exact Nat.le_trans (by decide) hsize
    rw [hdataLen]
    have haccepted : WriteAccepted reply := ⟨hstatus, by omega⟩
    exact advance_triple hopen _ _ fun s' hdone => .inr ⟨reply, haccepted, hdone, rfl⟩

end

/-! ## Without an open file -/

section

variable {s : SmbSession} {fd : UInt32} (hclosed : smbSessionFileGet s fd = none)

include hclosed

theorem fread_closed (copy : Bool) (bufSize : Nat) :
    Triple (· = s) (SmbOp.exec P (.fread fd copy bufSize)) fun r s' =>
      r = .read (-1) none ∧ s' = s := by
  refine .bind (Q := fun r s' => r = (-1, none) ∧ s' = s) ?_ fun r => ?_
  · refine .get_bind_at ?_
    dsimp only
    rw [hclosed]
    exact .pure fun s' h => ⟨rfl, h⟩
  · exact .pure fun s' h => ⟨by rw [h.1], h.2⟩

theorem fwrite_closed (buf : List UInt8) :
    Triple (· = s) (SmbOp.exec P (.fwrite fd buf)) fun r s' => r = .size (-1) ∧ s' = s := by
  refine .bind (Q := fun r s' => r = -1 ∧ s' = s) ?_ fun r => ?_
  · refine .get_bind_at ?_
    dsimp only
    rw [hclosed]
    exact .pure fun s' h => ⟨rfl, h⟩
  · exact .pure fun s' h => ⟨by rw [h.1], h.2⟩

end

/-! ## What a call moves -/

/-- The position of an open file. -/
def SmbSession.position (s : SmbSession) (fd : UInt32) : Option Int :=
  (smbSessionFileGet s fd).map (·.offset)

theorem position_congr {s s' : SmbSession} (h : s.shares = s'.shares) (fd : UInt32) :
    s.position fd = s'.position fd := by
  rw [SmbSession.position, fileGet_congr h, SmbSession.position]

theorem position_seek {s : SmbSession} {fd : UInt32} (hfd : fd ≠ 0) (position : Int) (other : UInt32) :
    (s.seek fd position).position other =
      if other = fd then (s.position fd).map fun _ => position else s.position other := by
  rw [SmbSession.position, SmbSession.seek, fileGet_fileUpdate s hfd]
  case hf => exact fun file => rfl
  split
  · rw [SmbSession.position, Option.map_map, Option.map_map]
    rfl
  · rfl

section

variable {P} {s s' : SmbSession} {fd : UInt32} {req : SmbMessage} {op : SmbOp}

/-- The replies among a call's events are those that came after its request. -/
theorem Exchanged.received_iff {got : List NetEvent} (h : Exchanged s req got s')
    (hlog : (op.run P s).tcp.log = s'.tcp.log) (opcode : UInt8) (reply : List UInt8) :
    .received opcode reply ∈ op.events P s ↔ .received opcode reply ∈ got := by
  obtain ⟨sent, hsent, hsilent, -⟩ := h.log
  rw [events_eq (hlog.trans hsent), List.mem_append]
  exact or_iff_right (hsilent opcode reply)

/-- A call that makes one exchange, after steps that log nothing, offers its request alone. -/
theorem Exchanged.offered_eq {got : List NetEvent} (h : Exchanged s req got s') {start : SmbSession}
    (hlog : (op.run P start).tcp.log = s'.tcp.log) (hstart : s.tcp.log = start.tcp.log) :
    op.offered P start = if s.transport.session.ready then [s.requestFrame req] else [] := by
  obtain ⟨sent, hsent, -, hoffered⟩ := h.log
  rw [hstart] at hsent
  rw [SmbOp.offered, events_eq (hlog.trans hsent), List.filterMap_append, hoffered, h.quiet,
    List.append_nil]

theorem TransferFailed.offered_eq {accepted : List UInt8 → Prop}
    (h : TransferFailed s req accepted (op.run P s)) :
    op.offered P s = if s.transport.session.ready then [s.requestFrame req] else [] := by
  obtain ⟨got, hexchanged, -⟩ := h
  exact hexchanged.offered_eq rfl rfl

theorem TransferDone.offered_eq {position : Int} {reply : List UInt8} {n : Nat}
    (h : TransferDone s fd req position reply n (op.run P s)) :
    op.offered P s = if s.transport.session.ready then [s.requestFrame req] else [] := by
  obtain ⟨opcode, s₁, hexchanged, hrun⟩ := h
  exact hexchanged.offered_eq (by rw [hrun]; rfl) rfl

/-- A call that leaves the session as it was has sent nothing. -/
theorem offered_of_unchanged (hrun : op.run P s = s) : op.offered P s = [] := by
  have hevents : op.events P s = [] := events_eq (by rw [hrun, List.append_nil])
  rw [SmbOp.offered, hevents, List.filterMap_nil]

/-- After a transfer that failed nothing has moved, and no reply was accepted. -/
theorem TransferFailed.spec {accepted : List UInt8 → Prop}
    (h : TransferFailed s req accepted (op.run P s)) :
    (op.run P s).shares = s.shares ∧
      ∀ opcode reply, .received opcode reply ∈ op.events P s → ¬ accepted reply := by
  obtain ⟨got, hexchanged, hrejected⟩ := h
  refine ⟨hexchanged.shares, fun opcode reply hmem => ?_⟩
  exact hrejected opcode reply ((hexchanged.received_iff rfl opcode reply).mp hmem)

/-- After a transfer the position has moved, and the reply is the only one. -/
theorem TransferDone.spec {file : SmbFile} (hopen : smbSessionFileGet s fd = some file)
    {reply : List UInt8} {n : Nat} (h : TransferDone s fd req file.offset reply n (op.run P s)) :
    (op.run P s).position fd = (s.position fd).map (· + (n : Int)) ∧
      ∃ opcode, ∀ opcode' reply', .received opcode' reply' ∈ op.events P s ↔
        opcode' = opcode ∧ reply' = reply := by
  obtain ⟨opcode, s₁, hexchanged, hrun⟩ := h
  have hfd := fileGet_ne_zero hopen
  refine ⟨?_, opcode, fun opcode' reply' => ?_⟩
  · rw [hrun, position_seek hfd, if_pos rfl, position_congr hexchanged.shares, SmbSession.position,
      hopen]
    rfl
  · rw [hexchanged.received_iff (by rw [hrun]; rfl), List.mem_singleton, NetEvent.received.injEq]

end

/-! ## Bounds -/

/-- The read stays within the buffer: what it returns, what it copies and how far the position
moves, and what it copies are bytes of a packet received. -/
structure ReadBounded (s : SmbSession) (fd : UInt32) (copy : Bool) (bufSize : Nat) : Prop where
  result : ∃ (res : Int) (buf : Option (List UInt8)),
    SmbOp.result P s (.fread fd copy bufSize) = .read res buf ∧ res ≤ min bufSize 0xffff ∧
    ∀ data, buf = some data → data.length ≤ min bufSize 0xffff ∧
      ∃ opcode reply, .received opcode reply ∈ SmbOp.events P s (.fread fd copy bufSize) ∧
        data <:+: reply
  position : ∃ n : Nat, n ≤ min bufSize 0xffff ∧
    (SmbOp.run P s (.fread fd copy bufSize)).position fd = (s.position fd).map (· + (n : Int))

/-- The write stays within the data of its request. -/
structure WriteBounded (s : SmbSession) (fd : UInt32) (buf : List UInt8) : Prop where
  result : ∃ res : Int, SmbOp.result P s (.fwrite fd buf) = .size res ∧
    res ≤ min smbMaxWrite buf.length
  position : ∃ n : Nat, n ≤ min smbMaxWrite buf.length ∧
    (SmbOp.run P s (.fwrite fd buf)).position fd = (s.position fd).map (· + (n : Int))

theorem readReplyLen_le (reply : List UInt8) : readReplyLen reply ≤ 0xffff :=
  Nat.le_of_lt_succ (UInt16.toNat_lt _)

section

variable {s : SmbSession} {fd : UInt32} {file : SmbFile}
variable (hopen : smbSessionFileGet s fd = some file)

include hopen

/-- A bound on the reply that a call accepts is a bound on all its replies that are accepted: there is
at most one. -/
theorem accepted_bound_iff {op : SmbOp} {req : SmbMessage} {accepted : List UInt8 → Prop}
    {len : List UInt8 → Nat} {reply : List UInt8} {bound : Nat} (haccepted : accepted reply)
    (hdone : TransferDone s fd req file.offset reply (len reply) (op.run P s)) :
    (∀ opcode reply, .received opcode reply ∈ op.events P s → accepted reply → len reply ≤ bound) ↔
      len reply ≤ bound := by
  obtain ⟨-, opcode, honly⟩ := hdone.spec hopen
  constructor
  · exact fun h => h opcode reply ((honly opcode reply).mpr ⟨rfl, rfl⟩) haccepted
  · intro hbound opcode' reply' hmem _
    obtain ⟨-, rfl⟩ := (honly opcode' reply').mp hmem
    exact hbound

theorem read_bounded_iff (copy : Bool) (bufSize : Nat) :
    ReadBounded P s fd copy bufSize ↔
      ∀ opcode reply, .received opcode reply ∈ SmbOp.events P s (.fread fd copy bufSize) →
        ReadAccepted reply → readReplyLen reply ≤ bufSize := by
  rcases exec_spec (fread_exec P hopen copy bufSize) rfl with
    ⟨res, hres, hneg, hfailed⟩ | ⟨reply, haccepted, hdone, hres⟩
  · obtain ⟨hshares, hrejected⟩ := hfailed.spec
    refine iff_of_true ?_ fun opcode reply hmem haccepted => absurd haccepted (hrejected _ _ hmem)
    refine ⟨⟨res, none, hres, by omega, by simp⟩, 0, Nat.zero_le _, ?_⟩
    rw [position_congr hshares]
    simp
  · obtain ⟨hposition, opcode, honly⟩ := hdone.spec hopen
    have hle := readReplyLen_le reply
    rw [accepted_bound_iff P hopen haccepted hdone]
    constructor
    · intro h
      obtain ⟨res, buf, hresult, hbound, -⟩ := h.result
      rw [hres] at hresult
      cases hresult
      omega
    · intro hbound
      refine ⟨⟨_, _, hres, by omega, fun data hdata => ?_⟩, _, by omega, hposition⟩
      cases copy with
      | false => cases hdata
      | true =>
        cases hdata
        have hin := haccepted.2.2
        refine ⟨by simp only [List.length_take, List.length_drop]; omega, opcode, reply,
          (honly opcode reply).mpr ⟨rfl, rfl⟩, ?_⟩
        exact (List.take_prefix _ _).isInfix.trans (List.drop_suffix _ _).isInfix

theorem write_bounded_iff (buf : List UInt8) :
    WriteBounded P s fd buf ↔
      ∀ opcode reply, .received opcode reply ∈ SmbOp.events P s (.fwrite fd buf) →
        WriteAccepted reply → writeReplyLen reply ≤ min smbMaxWrite buf.length := by
  rcases exec_spec (fwrite_exec P hopen buf) rfl with
    ⟨res, hres, hneg, hfailed⟩ | ⟨reply, haccepted, hdone, hres⟩
  · obtain ⟨hshares, hrejected⟩ := hfailed.spec
    refine iff_of_true ?_ fun opcode reply hmem haccepted => absurd haccepted (hrejected _ _ hmem)
    refine ⟨⟨res, hres, by omega⟩, 0, Nat.zero_le _, ?_⟩
    rw [position_congr hshares]
    simp
  · rw [accepted_bound_iff P hopen haccepted hdone]
    constructor
    · intro h
      obtain ⟨res, hresult, hbound⟩ := h.result
      rw [hres] at hresult
      cases hresult
      omega
    · exact fun hbound => ⟨⟨_, hres, by omega⟩, _, hbound, (hdone.spec hopen).1⟩

/-- In every session state and for every reply: a read stays within the caller's buffer, and a write
within the data of its request, exactly if the reply that is accepted announces no more. -/
theorem transfer_bounded_iff :
    (∀ copy bufSize, ReadBounded P s fd copy bufSize ↔
      ∀ opcode reply, .received opcode reply ∈ SmbOp.events P s (.fread fd copy bufSize) →
        ReadAccepted reply → readReplyLen reply ≤ bufSize) ∧
    ∀ buf, WriteBounded P s fd buf ↔
      ∀ opcode reply, .received opcode reply ∈ SmbOp.events P s (.fwrite fd buf) →
        WriteAccepted reply → writeReplyLen reply ≤ min smbMaxWrite buf.length :=
  ⟨read_bounded_iff P hopen, write_bounded_iff P hopen⟩

end

/-- The replies of a sample conversation: to a file opened, read and written. -/
def createReply (fid : UInt16) : List UInt8 :=
  replyBytes 0 0 0 (List.replicate 6 0 ++ le16 fid ++ List.replicate 63 0)

def readReply (data : List UInt8) : List UInt8 :=
  replyBytes 0 0 0 (List.replicate 11 0 ++ le16 (.ofNat data.length) ++ le16 59 ++
    List.replicate 12 0 ++ data)

def writeReply (len : UInt16) : List UInt8 :=
  replyBytes 0 0 0 (List.replicate 5 0 ++ le16 len ++ List.replicate 8 0)

/-- A session with the file 7 open on the tree 5, whose server sends one more reply. -/
def openedFile (reply : List UInt8) : SmbSession :=
  [SmbOp.treeConnect (ascii "x"), .fopen 5 (ascii "f") 0].foldl (SmbOp.run .ascii)
    (connectedTo [treeReply 5, createReply 7, reply])

/-- Two bytes read into a buffer of two. -/
theorem transfer_bounded_iff_full :
    let s := openedFile (readReply [1, 2])
    (smbSessionFileGet s (smbFd 5 7)).isSome ∧ ReadBounded .ascii s (smbFd 5 7) true 2 := by
  intro s
  have hsome : (smbSessionFileGet s (smbFd 5 7)).isSome := by decide +kernel
  obtain ⟨file, hopen⟩ := Option.isSome_iff_exists.mp hsome
  refine ⟨hsome, ((transfer_bounded_iff .ascii hopen).1 true 2).mpr fun opcode reply hmem _ => ?_⟩
  have hshort : ∀ reply ∈ (SmbOp.events .ascii s (.fread (smbFd 5 7) true 2)).filterMap
      NetEvent.reply, readReplyLen reply ≤ 2 := by decide +kernel
  exact hshort reply (List.mem_filterMap.mpr ⟨_, hmem, rfl⟩)

/-- A reply of two bytes to a read of one, and one that confirms two bytes to a write of one. -/
theorem transfer_unbounded :
    ¬ ReadBounded .ascii (openedFile (readReply [1, 2])) (smbFd 5 7) true 1 ∧
      ¬ WriteBounded .ascii (openedFile (writeReply 2)) (smbFd 5 7) [1] := by
  refine ⟨fun h => ?_, fun h => ?_⟩
  · obtain ⟨res, buf, hresult, hle, -⟩ := h.result
    have heval : SmbOp.result .ascii (openedFile (readReply [1, 2])) (.fread (smbFd 5 7) true 1) =
        .read 2 (some [1, 2]) := by decide +kernel
    rw [heval] at hresult
    cases hresult
    exact absurd hle (by decide)
  · obtain ⟨res, hresult, hle⟩ := h.result
    have heval : SmbOp.result .ascii (openedFile (writeReply 2)) (.fwrite (smbFd 5 7) [1]) =
        .size 2 := by decide +kernel
    rw [heval] at hresult
    cases hresult
    exact absurd hle (by decide)

end Libdsm
