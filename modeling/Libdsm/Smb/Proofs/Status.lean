import Libdsm.Smb.Proofs.Login

/-!
# Error replies

An operation that receives a reply with an error status should fail and hand out nothing. Eleven of
the thirteen operations that answer to their caller do: each checks the status of every reply before
it goes on, so that where it succeeds all its replies were clean (`Clean`). The two listings, which do
not, come later.
-/

namespace Libdsm

/-- The call failed and handed out nothing: a negative code or `NULL`, and nothing stored. -/
def SmbResult.isRefusal : SmbResult → Bool
  | .done => false
  | .code c => c ≠ .success
  | .tree c tid => c ≠ .success ∧ tid = none
  | .file c fd => c ≠ .success ∧ fd = none
  | .read res buf => res < 0 ∧ buf = none
  | .size res => res < 0
  | .list files => files = []
  | .stat f => f = none
  | .shares c l => c ≠ .success ∧ l = none

/-- The reply is long enough to have a status, and the status is an error. -/
def ErrorReply (reply : List UInt8) : Prop :=
  smbHeaderSize ≤ reply.length ∧ replyStatus reply ≠ ntStatusSuccess

/-- The challenge of a SPNEGO login, which comes first and has a status of its own. -/
def IsChallenge (s : SmbSession) (op : SmbOp) (before : List NetEvent) (reply : List UInt8) : Prop :=
  (∃ nonces, op = .login nonces) ∧ s.loginsBySpnego = true ∧
    (∀ opcode reply, .received opcode reply ∉ before) ∧
    replyStatus reply = ntStatusMoreProcessingRequired

/-- The operations that report what became of their requests. -/
def SmbOp.reports : SmbOp → Bool
  | .treeConnect _ | .treeDisconnect _ | .fopen .. | .fread .. | .fwrite .. | .fileRm .. | .fileMv ..
  | .directoryCreate .. | .directoryRm .. | .fstat .. | .find .. | .shareGetList | .login _ => true
  | .setCreds .. | .connect .. | .logoff | .fclose _ | .fseek .. => false

/-- If the call receives an error reply, it is refused. -/
def StatusSound (P : Platform) (s : SmbSession) (op : SmbOp) : Prop :=
  ∀ before opcode reply after, op.events P s = before ++ .received opcode reply :: after →
    ErrorReply reply → ¬ IsChallenge s op before reply → (op.result P s).isRefusal = true

/-! ## Clean logs -/

/-- None of the events is an error reply. -/
def NoError (events : List NetEvent) : Prop :=
  ∀ opcode reply, .received opcode reply ∈ events → ¬ ErrorReply reply

theorem NoError.append {xs ys : List NetEvent} (hx : NoError xs) (hy : NoError ys) :
    NoError (xs ++ ys) := by
  intro opcode reply hmem
  rcases List.mem_append.mp hmem with h | h
  · exact hx opcode reply h
  · exact hy opcode reply h

theorem noError_of_silent {events : List NetEvent}
    (h : ∀ opcode reply, .received opcode reply ∉ events) : NoError events :=
  fun opcode reply hmem => absurd hmem (h opcode reply)

/-- The log has grown from `log` by events that have `A`. -/
def LogGrown (log : List NetEvent) (A : List NetEvent → Prop) (s : SmbSession) : Prop :=
  ∃ events, s.tcp.log = log ++ events ∧ A events

/-- `A` still holds after more events without an error reply. -/
def GrowsClean (A : List NetEvent → Prop) : Prop := ∀ xs ys, A xs → NoError ys → A (xs ++ ys)

theorem noError_grows : GrowsClean NoError := fun _ _ hx hy => hx.append hy

/-- The log has grown so if the message received last has the right status. -/
def Checked (log : List NetEvent) (A : List NetEvent → Prop) (msg : SmbMessage) (s : SmbSession) :
    Prop :=
  msg.status = ntStatusSuccess → LogGrown log A s

/-- The result is one of `refused`, or the log has grown so. -/
def RefusedOr {α : Type} (refused : α → Prop) (log : List NetEvent) (A : List NetEvent → Prop)
    (r : α) (s : SmbSession) : Prop :=
  refused r ∨ LogGrown log A s

section

variable {log : List NetEvent} {A : List NetEvent → Prop}

/-- A message that is received is the last event of the log. -/
theorem recvMsg_grown :
    Triple (LogGrown log A) smbSessionRecvMsg fun r s => ∀ msg, r = some msg →
      ∃ events opcode reply, s.tcp.log = log ++ (events ++ [.received opcode reply]) ∧
        A events ∧ msg.Holds reply := by
  rintro s ⟨events, hlog, hev⟩ msg hmsg
  obtain ⟨inbox, event, htcp, ⟨hnone, -⟩ | ⟨msg', opcode, reply, hsome, rfl, hholds⟩⟩ :=
    recvMsg_tcp s
  · rw [hnone] at hmsg
    exact absurd hmsg (by simp)
  · obtain rfl : msg' = msg := by
      rw [hsome] at hmsg
      exact Option.some.inj hmsg
    exact ⟨events, opcode, reply, by rw [htcp, hlog, List.append_assoc], hev, hholds⟩

theorem fseek_grown (fd : UInt32) (offset : Int) (whence : Option SmbSeek) :
    Triple (LogGrown log A) (smbFseek fd offset whence) fun _ => LogGrown log A := by
  refine .bind (.post .get fun _ _ h => h.2) fun s => ?_
  split
  · exact .bind (.modify (Q := fun _ => LogGrown log A) fun _ h => h) fun _ => .pure fun _ h => h
  · exact .pure fun _ h => h

variable (hA : GrowsClean A)

include hA

theorem sendMsg_grown (msg : SmbMessage) :
    Triple (LogGrown log A) (smbSessionSendMsg msg) fun _ => LogGrown log A := by
  rintro s ⟨events, hlog, hev⟩
  obtain ⟨more, hsend, hmore⟩ := sendMsg_log s msg
  exact ⟨events ++ more, by rw [hsend, hlog, List.append_assoc],
    hA _ _ hev (noError_of_silent hmore)⟩

theorem recvMsg_checked :
    Triple (LogGrown log A) smbSessionRecvMsg fun r s =>
      ∀ msg, r = some msg → Checked log A msg s := by
  refine recvMsg_grown.post fun r s h msg hmsg hstatus => ?_
  obtain ⟨events, opcode, reply, hlog, hev, hholds⟩ := h msg hmsg
  refine ⟨_, hlog, hA _ _ hev fun opcode' reply' hmem herr => ?_⟩
  simp only [List.mem_singleton, NetEvent.received.injEq] at hmem
  rw [hmem.2, ErrorReply, ← hholds.status_eq] at herr
  exact herr.2 hstatus

omit hA in
/-- The status check. -/
theorem checkNtStatus_grown (msg : SmbMessage) :
    Triple (Checked log A msg) (smbSessionCheckNtStatus msg) fun ok s =>
      ok = true → LogGrown log A s :=
  (checkNtStatus_triple (fun _ _ h => h) msg).post fun _ _ h hok => h.2 (h.1.mp hok)

variable {α : Type} {refused : α → Prop}

omit hA in
theorem refused_pure {B : SmbSession → Prop} {a : α} (h : refused a) :
    Triple B (pure a) (RefusedOr refused log A) :=
  .pure fun _ _ => .inl h

omit hA in
theorem grown_pure {a : α} : Triple (LogGrown log A) (pure a) (RefusedOr refused log A) :=
  .pure fun _ h => .inr h

omit hA in
/-- The check of a reply, before anything else is done with it. -/
theorem checked_grown {resp : SmbMessage} {fail : α} {m : SmbM α} (hfail : refused fail)
    (hm : Triple (LogGrown log A) m (RefusedOr refused log A)) :
    Triple (Checked log A resp)
      (do
        if !(← smbSessionCheckNtStatus resp) then return fail
        m)
      (RefusedOr refused log A) := by
  refine .bind (checkNtStatus_grown resp) fun ok => ?_
  cases ok with
  | false => exact refused_pure hfail
  | true => exact hm.conseq (fun _ h => h rfl) fun _ _ h => h

/-- A reply that is received and checked. -/
theorem checkedReply {fail fail' : α} {k : SmbMessage → SmbM α} (hfail : refused fail)
    (hfail' : refused fail')
    (hk : ∀ resp, Triple (LogGrown log A) (k resp) (RefusedOr refused log A)) :
    Triple (LogGrown log A)
      (do
        let some resp ← smbSessionRecvMsg | return fail
        if !(← smbSessionCheckNtStatus resp) then return fail'
        k resp)
      (RefusedOr refused log A) := by
  refine .bind (recvMsg_checked hA) fun resp => ?_
  cases resp with
  | none => exact refused_pure hfail
  | some resp =>
    exact (checked_grown hfail' (hk resp)).conseq (fun _ h => h _ rfl) fun _ _ h => h

end

/-! ## The operations that check -/

section

variable (P : Platform) {log : List NetEvent}

/-- No error reply has been received since the log was `log`. -/
abbrev Clean (log : List NetEvent) : SmbSession → Prop := LogGrown log NoError

/-- A code other than success, with nothing stored. -/
abbrev Refused {α : Type} (r : DsmCode × Option α) : Prop := r.1 ≠ .success ∧ r.2 = none

theorem simpleReply_clean :
    Triple (Clean log) smbSimpleReply (RefusedOr (· ≠ .success) log NoError) :=
  checkedReply noError_grows (by decide) (by decide) fun _ =>
    .ite (fun _ => grown_pure) fun _ => .ite (fun _ => grown_pure) fun _ => grown_pure

theorem sendSimple_clean (msg : SmbMessage) :
    Triple (Clean log) (do let _ ← smbSessionSendMsg msg; smbSimpleReply)
      (RefusedOr (· ≠ .success) log NoError) :=
  .bind (sendMsg_grown noError_grows msg) fun _ => simpleReply_clean

theorem treeConnect_clean (name : List UInt8) :
    Triple (Clean log) (smbTreeConnect P name) (RefusedOr Refused log NoError) := by
  refine .bind (.post .get fun _ _ h => h.2) fun s => ?_
  refine .bind (sendMsg_grown noError_grows _) fun _ => ?_
  refine .ite (fun _ => refused_pure ⟨by decide, rfl⟩) fun _ => ?_
  refine checkedReply noError_grows ⟨by decide, rfl⟩ ⟨by decide, rfl⟩ fun resp => ?_
  cases smbTreeConnectShare resp with
  | none => exact grown_pure
  | some share => exact .bind (.modify (Q := fun _ => Clean log) fun _ h => h) fun _ => grown_pure

theorem fopen_clean (tid : UInt16) (path : List UInt8) (oFlags : UInt32) :
    Triple (Clean log) (smbFopen P tid path oFlags) (RefusedOr Refused log NoError) := by
  refine .bind (.post .get fun _ _ h => h.2) fun s => ?_
  cases smbSessionShareGet s tid with
  | none => exact grown_pure
  | some share =>
    refine .ite (fun _ => grown_pure) fun _ => .bind (sendMsg_grown noError_grows _) fun _ => ?_
    refine .ite (fun _ => grown_pure) fun _ => ?_
    refine checkedReply noError_grows ⟨by decide, rfl⟩ ⟨by decide, rfl⟩ fun resp => ?_
    refine .ite (fun _ => grown_pure) fun _ => ?_
    exact .bind (.modify (Q := fun _ => Clean log) fun _ h => h) fun _ => grown_pure

theorem fread_clean (fd : UInt32) (copy : Bool) (bufSize : Nat) :
    Triple (Clean log) (smbFread P fd copy bufSize)
      (RefusedOr (fun r => r.1 < 0 ∧ r.2 = none) log NoError) := by
  refine .bind (.post .get fun _ _ h => h.2) fun s => ?_
  cases smbSessionFileGet s fd with
  | none => exact grown_pure
  | some file =>
    refine .bind (sendMsg_grown noError_grows _) fun _ => .ite (fun _ => grown_pure) fun _ => ?_
    refine checkedReply noError_grows ⟨by decide, rfl⟩ ⟨by decide, rfl⟩ fun resp => ?_
    refine .ite (fun _ => grown_pure) fun _ => .ite (fun _ => grown_pure) fun _ => ?_
    exact .bind (fseek_grown _ _ _) fun _ => grown_pure

theorem fwrite_clean (fd : UInt32) (buf : List UInt8) :
    Triple (Clean log) (smbFwrite P fd buf) (RefusedOr (· < 0) log NoError) := by
  refine .bind (.post .get fun _ _ h => h.2) fun s => ?_
  cases smbSessionFileGet s fd with
  | none => exact grown_pure
  | some file =>
    refine .bind (sendMsg_grown noError_grows _) fun _ => .ite (fun _ => grown_pure) fun _ => ?_
    refine checkedReply noError_grows (by decide) (by decide) fun resp => ?_
    exact .ite (fun _ => grown_pure) fun _ => .bind (fseek_grown _ _ _) fun _ => grown_pure

theorem fstat_clean (tid : UInt16) (path : List UInt8) :
    Triple (Clean log) (smbFstat P tid path) (RefusedOr (· = none) log NoError) := by
  refine .ite (fun _ => grown_pure) fun _ => .bind (sendMsg_grown noError_grows _) fun _ => ?_
  refine .ite (fun _ => grown_pure) fun _ => checkedReply noError_grows rfl rfl fun reply => ?_
  exact .ite (fun _ => grown_pure) fun _ => .ite (fun _ => grown_pure) fun _ => grown_pure

/-! ### Logging in -/

variable (nonces : SmbNonces) (domain user password : List UInt8)

theorem loggedIn_grown {A : List NetEvent → Prop} (action uid : UInt16) :
    Triple (LogGrown log A) (smbSessionLoggedIn action uid) fun _ => LogGrown log A := by
  rintro s ⟨events, hlog, hev⟩
  exact ⟨events, by rw [loggedIn_keeps, hlog], hev⟩

theorem loginNtlm_clean :
    Triple (Clean log) (smbSessionLoginNtlm P nonces domain user password)
      (RefusedOr (· ≠ .success) log NoError) := by
  refine .bind (.post .get fun _ _ h => h.2) fun s => ?_
  refine .bind (sendMsg_grown noError_grows _) fun _ => .ite (fun _ => grown_pure) fun _ => ?_
  refine .bind (recvMsg_checked noError_grows) fun answer => ?_
  cases answer with
  | none => exact refused_pure (by decide)
  | some answer =>
    refine Triple.conseq (P := Checked log NoError answer) ?_ (fun _ h => h _ rfl) fun _ _ h => h
    refine .ite (fun _ => refused_pure (by decide)) fun _ => checked_grown (by decide) ?_
    exact .bind (loggedIn_grown _ _) fun _ => grown_pure

/-- No reply at all. -/
def Silent (events : List NetEvent) : Prop := ∀ opcode reply, .received opcode reply ∉ events

/-- The first reply is the challenge, and no other one is an error. -/
def Challenged (events : List NetEvent) : Prop :=
  ∃ before opcode reply after, events = before ++ .received opcode reply :: after ∧
    Silent before ∧ replyStatus reply = ntStatusMoreProcessingRequired ∧ NoError after

theorem challenged_grows : GrowsClean Challenged := by
  rintro _ ys ⟨before, opcode, reply, after, rfl, hbefore, hstatus, hafter⟩ hys
  exact ⟨before, opcode, reply, after ++ ys, by simp, hbefore, hstatus, hafter.append hys⟩

theorem sendMsg_silent (msg : SmbMessage) :
    Triple (LogGrown log Silent) (smbSessionSendMsg msg) fun _ => LogGrown log Silent := by
  rintro s ⟨events, hlog, hev⟩
  obtain ⟨more, hsend, hmore⟩ := sendMsg_log s msg
  refine ⟨events ++ more, by rw [hsend, hlog, List.append_assoc], fun opcode reply hmem => ?_⟩
  rcases List.mem_append.mp hmem with h | h
  · exact hev opcode reply h
  · exact hmore opcode reply h

theorem spnegoNegotiate_silent :
    Triple (LogGrown log Silent) (spnegoNegotiate P domain) fun _ => LogGrown log Silent := by
  refine .bind (.post .get fun _ _ h => h.2) fun s => ?_
  split
  · refine .bind (sendMsg_silent _) fun _ => ?_
    exact .ite (fun _ => .pure fun _ h => h) fun _ => .pure fun _ h => h
  · exact .pure fun _ h => h

theorem spnegoChallenge_challenged :
    Triple (LogGrown log Silent) (spnegoChallenge P) (RefusedOr (· ≠ .success) log Challenged) := by
  refine .bind recvMsg_grown fun msg => ?_
  cases msg with
  | none => exact refused_pure (by decide)
  | some msg =>
    refine .ite (fun _ => refused_pure (by decide)) fun hstatus => ?_
    refine Triple.conseq (P := LogGrown log Challenged) ?_ (fun s h => ?_) fun _ _ h => h
    · refine .ite (fun _ => refused_pure (by decide)) fun _ => ?_
      dsimp only
      split
      · exact .bind (.modify (Q := fun _ => LogGrown log Challenged) fun _ h => h) fun _ => grown_pure
      · exact refused_pure (by decide)
    · obtain ⟨events, opcode, reply, hlog, hev, hholds⟩ := h msg rfl
      refine ⟨_, hlog, events, opcode, reply, [], rfl, hev, ?_, fun _ _ h => absurd h (by simp)⟩
      rw [← hholds.status_eq]
      simpa using hstatus

theorem spnegoAuth_challenged :
    Triple (LogGrown log Challenged) (spnegoAuth P nonces domain user password)
      (RefusedOr (· ≠ .success) log Challenged) := by
  refine .bind (.post .get fun _ _ h => h.2) fun s => ?_
  dsimp only
  split
  · refine .bind (sendMsg_grown challenged_grows _) fun _ => .ite (fun _ => grown_pure) fun _ => ?_
    refine checkedReply challenged_grows (by decide) (by decide) fun resp => ?_
    refine .ite (fun _ => grown_pure) fun _ => .bind (loggedIn_grown _ _) fun _ => grown_pure
  · exact grown_pure

theorem spnegoExchange_challenged :
    Triple (LogGrown log Silent) (spnegoExchange P nonces domain user password)
      (RefusedOr (· ≠ .success) log Challenged) := by
  refine .bind (spnegoNegotiate_silent P domain) fun res => .ite refused_pure fun _ => ?_
  refine .bind (spnegoChallenge_challenged P) fun res => .ite refused_pure fun hres => ?_
  exact (spnegoAuth_challenged P nonces domain user password).conseq
    (fun _ h => h.resolve_left hres) fun _ _ h => h

theorem loginSpnego_challenged :
    Triple (LogGrown log Silent) (smbSessionLoginSpnego P nonces domain user password)
      (RefusedOr (· ≠ .success) log Challenged) := by
  have hinit : Triple (LogGrown log Silent) (initAsn1 P) fun _ => LogGrown log Silent := by
    refine .bind (.post .get fun _ _ h => h.2) fun s => ?_
    refine .ite (fun _ => .pure fun _ h => h) fun _ => .ite (fun _ => .pure fun _ h => h) fun _ => ?_
    exact .bind (.modify (Q := fun _ => LogGrown log Silent) fun _ h => h) fun _ =>
      .pure fun _ h => h
  refine .bind (.modify (Q := fun _ => LogGrown log Silent) fun _ h => h) fun _ => ?_
  refine .bind hinit fun _ => .ite (fun _ => refused_pure (by decide)) fun _ => ?_
  refine .bind (spnegoExchange_challenged P nonces domain user password) fun res => ?_
  exact .bind (.modify (Q := fun _ => RefusedOr (· ≠ .success) log Challenged res) fun _ h => h)
    fun _ => .pure fun _ h => h

end

/-! ## Soundness -/

theorem RefusedOr.exec {α : Type} {refused : α → Prop} {log : List NetEvent}
    {A : List NetEvent → Prop} {m : SmbM α} {g : α → SmbResult}
    (h : Triple (Clean log) m (RefusedOr refused log A))
    (hg : ∀ a, refused a → (g a).isRefusal = true) :
    Triple (Clean log) (m >>= fun a => pure (g a)) (RefusedOr (·.isRefusal = true) log A) :=
  .bind h fun a => .pure fun _ hs => hs.imp_left (hg a)

theorem grown_start (s : SmbSession) {A : List NetEvent → Prop} (h : A []) :
    LogGrown s.tcp.log A s :=
  ⟨[], (List.append_nil _).symm, h⟩

theorem noError_nil : NoError [] := fun _ _ h => absurd h List.not_mem_nil

theorem statusSound_of_clean {P : Platform} {s : SmbSession} {op : SmbOp}
    (h : Triple (Clean s.tcp.log) (op.exec P) (RefusedOr (·.isRefusal = true) s.tcp.log NoError)) :
    StatusSound P s op := by
  intro before opcode reply after hev herr _
  rcases exec_spec h (grown_start s noError_nil) with hrefused | ⟨events, hlog, hno⟩
  · exact hrefused
  · refine absurd herr (hno opcode reply ?_)
    rw [← events_eq hlog, hev]
    simp

/-- Of replies the first of which is the challenge, only the challenge is an error. -/
theorem challenge_unique {before after before' after' : List NetEvent} {opcode opcode' : UInt8}
    {reply reply' : List UInt8}
    (h : before ++ .received opcode reply :: after = before' ++ .received opcode' reply' :: after')
    (hbefore : Silent before) (hafter : NoError after) (herr : ErrorReply reply') :
    before' = before ∧ reply' = reply := by
  rcases List.append_eq_append_iff.mp h with ⟨mid, rfl, hmid⟩ | ⟨mid, rfl, hmid⟩
  · cases mid with
    | nil =>
      simp only [List.nil_append, List.cons.injEq, NetEvent.received.injEq] at hmid
      exact ⟨List.append_nil _, hmid.1.2.symm⟩
    | cons event mid =>
      rw [List.cons_append, List.cons.injEq] at hmid
      exact absurd herr (hafter opcode' reply' (by rw [hmid.2]; simp))
  · cases mid with
    | nil =>
      simp only [List.nil_append, List.cons.injEq, NetEvent.received.injEq] at hmid
      exact ⟨(List.append_nil _).symm, hmid.1.2⟩
    | cons event mid =>
      rw [List.cons_append, List.cons.injEq] at hmid
      exact absurd (show NetEvent.received opcode' reply' ∈ before' ++ event :: mid by
        rw [hmid.1]; simp) (hbefore opcode' reply')

theorem login_sound (P : Platform) (s : SmbSession) (nonces : SmbNonces) :
    StatusSound P s (.login nonces) := by
  intro before opcode reply after hev herr hno
  have hrun := login_run P nonces s
  have hrefused : (smbSessionLogin P nonces s).1 ≠ .success →
      (SmbOp.result P s (.login nonces)).isRefusal = true := by
    intro hne
    rw [login_result]
    exact decide_eq_true hne
  obtain ⟨heq, -⟩ | ⟨domain, user, password, heq, hspnego⟩ | ⟨domain, user, password, heq, -⟩ :=
    login_cases P nonces s
  · exact hrefused (by rw [heq]; exact DsmCode.noConfusion)
  · have hend := loginSpnego_challenged P nonces domain user password s
      (grown_start s fun _ _ => List.not_mem_nil)
    rw [← heq, ← hrun] at hend
    rcases hend with hne | ⟨events, hlog, before', opcode', reply', after', hsplit, hb, hst, ha⟩
    · exact hrefused hne
    · rw [events_eq hlog, hsplit] at hev
      obtain ⟨rfl, rfl⟩ := challenge_unique hev hb ha herr
      exact absurd ⟨⟨nonces, rfl⟩, hspnego, hb, hst⟩ hno
  · have hend := loginNtlm_clean P nonces domain user password s (grown_start s noError_nil)
    rw [← heq, ← hrun] at hend
    rcases hend with hne | ⟨events, hlog, hclean⟩
    · exact hrefused hne
    · refine absurd herr (hclean opcode reply ?_)
      rw [← events_eq hlog, hev]
      simp

/-! ## All operations -/

section

variable (P : Platform) {log : List NetEvent}

theorem treeDisconnect_clean (tid : UInt16) :
    Triple (Clean log) (smbTreeDisconnect P tid) (RefusedOr (· ≠ .success) log NoError) :=
  .bind (sendMsg_grown noError_grows _) fun _ => .ite (fun _ => grown_pure) fun _ =>
    simpleReply_clean

theorem fileRm_clean (tid : UInt16) (path : List UInt8) :
    Triple (Clean log) (smbFileRm P tid path) (RefusedOr (· ≠ .success) log NoError) :=
  .ite (fun _ => grown_pure) fun _ => sendSimple_clean _

theorem fileMv_clean (tid : UInt16) (oldPath newPath : List UInt8) :
    Triple (Clean log) (smbFileMv P tid oldPath newPath)
      (RefusedOr (· ≠ .success) log NoError) :=
  .ite (fun _ => grown_pure) fun _ => .ite (fun _ => grown_pure) fun _ => sendSimple_clean _

theorem directoryOp_clean (cmd : UInt8) (tid : UInt16) (path : List UInt8) :
    Triple (Clean log) (smbDirectoryOp P cmd tid path) (RefusedOr (· ≠ .success) log NoError) :=
  .ite (fun _ => grown_pure) fun _ => sendSimple_clean _

end

/-- An operation that reports what became of its requests, and is neither of the two listings, is
sound. -/
theorem statusSound_of_reports {P : Platform} {s : SmbSession} {op : SmbOp}
    (hreports : op.reports = true) (hfind : ∀ tid pattern, op ≠ .find tid pattern)
    (hlist : op ≠ .shareGetList) : StatusSound P s op := by
  have hcode : ∀ code : DsmCode, code ≠ .success → (SmbResult.code code).isRefusal = true :=
    fun _ h => decide_eq_true h
  have hsize : ∀ res : Int, res < 0 → (SmbResult.size res).isRefusal = true :=
    fun _ h => decide_eq_true h
  cases op with
  | login nonces => exact login_sound P s nonces
  | treeConnect name =>
    exact statusSound_of_clean
      (RefusedOr.exec (treeConnect_clean P name) fun a h => decide_eq_true h)
  | treeDisconnect tid =>
    exact statusSound_of_clean (RefusedOr.exec (treeDisconnect_clean P tid) hcode)
  | fopen tid path oFlags =>
    exact statusSound_of_clean
      (RefusedOr.exec (fopen_clean P tid path oFlags) fun a h => decide_eq_true h)
  | fread fd copy bufSize =>
    exact statusSound_of_clean
      (RefusedOr.exec (fread_clean P fd copy bufSize) fun a h => decide_eq_true h)
  | fwrite fd buf => exact statusSound_of_clean (RefusedOr.exec (fwrite_clean P fd buf) hsize)
  | fileRm tid path => exact statusSound_of_clean (RefusedOr.exec (fileRm_clean P tid path) hcode)
  | fileMv tid oldPath newPath =>
    exact statusSound_of_clean (RefusedOr.exec (fileMv_clean P tid oldPath newPath) hcode)
  | directoryRm tid path =>
    exact statusSound_of_clean (RefusedOr.exec (directoryOp_clean P _ tid path) hcode)
  | directoryCreate tid path =>
    exact statusSound_of_clean (RefusedOr.exec (directoryOp_clean P _ tid path) hcode)
  | fstat tid path =>
    exact statusSound_of_clean
      (RefusedOr.exec (fstat_clean P tid path) fun a h => decide_eq_true h)
  | find tid pattern => exact absurd rfl (hfind tid pattern)
  | shareGetList => exact absurd rfl hlist
  | _ => exact absurd hreports (by simp [SmbOp.reports])

/-! ## Samples -/

/-- `NT_STATUS_ACCESS_DENIED`. -/
def ntStatusAccessDenied : UInt32 := 0xc0000022

/-- The answer to a search: one entry, the file `a`, and the end of the search. -/
def findReply (status : UInt32) : List UInt8 :=
  replyBytes status 0 0
    ([10] ++ le16 10 ++ le16 96 ++ List.replicate 8 0 ++ le16 96 ++ List.replicate 9 0 ++
      le16 1 ++ le16 1 ++ le16 1 ++ List.replicate 6 0 ++
      List.replicate 60 0 ++ le32 2 ++ List.replicate 30 0 ++ [0x61, 0])

/-- An answer of an opened pipe: zeros only, so that nothing in it is an error but the status. -/
def pipeReply (status : UInt32) : List UInt8 := replyBytes status 0 0 (List.replicate 72 0)

instance (reply : List UInt8) : Decidable (ErrorReply reply) :=
  inferInstanceAs (Decidable (_ ∧ _))

end Libdsm
