import Libdsm.Misc.Runs
import Libdsm.Smb.Proofs.Exchange

/-!
# Logging in and off

`logged`, `guest` and the uid of a session against the history of its calls. A login that succeeds
marks the session logged in, takes the uid of the reply that completed it and sets `guest` if that
reply does; nothing but a logoff ever clears `guest`, and a login that fails leaves `logged` and
`guest` alone. Over SPNEGO it has overwritten the uid by then.
-/

namespace Libdsm

/-! ## Identity -/

/-- Who the session acts as. -/
def SmbSession.identity (s : SmbSession) : Bool × Bool × UInt16 := (s.logged, s.guest, s.srv.uid)

theorem identity_eq_iff {s : SmbSession} {logged guest : Bool} {uid : UInt16} :
    s.identity = (logged, guest, uid) ↔ s.logged = logged ∧ s.guest = guest ∧ s.srv.uid = uid := by
  simp [SmbSession.identity]

theorem identity_framed : Framed SmbSession.identity where
  send := sendMsg_keeps fun _ _ => rfl
  recv := recvInto_keeps fun _ _ => rfl
  ntStatus _ _ := rfl
  creds _ _ := rfl
  srv s srv h := by simp [SmbSession.identity, h]
  fileAdd _ _ _ := rfl
  fileRemove s fd := by
    obtain ⟨shares, h⟩ := fileRemove_eq s fd
    rw [h]
    rfl
  fileUpdate _ _ _ := rfl

/-- Only logging in and off changes the identity. -/
theorem run_identity (P : Platform) (s : SmbSession) {op : SmbOp}
    (hlogin : ∀ nonces, op ≠ .login nonces) (hlogoff : op ≠ .logoff) :
    (op.run P s).identity = s.identity := by
  have hf := identity_framed
  have hadd : ∀ s share, SmbSession.identity (smbSessionShareAdd s share) = s.identity :=
    fun _ _ => rfl
  revert s
  show Keeps SmbSession.identity (op.exec P)
  cases op with
  | setCreds domain user password =>
    exact .bind (.modify fun s => hf.creds s _) fun _ => .pure _
  | connect name transport => exact (connect_keeps hf P (fun _ _ => rfl) _ _).bind fun _ => .pure _
  | login nonces => exact absurd rfl (hlogin nonces)
  | logoff => exact absurd rfl hlogoff
  | treeConnect name => exact (treeConnect_keeps hf P hadd _).bind fun _ => .pure _
  | treeDisconnect tid => exact (treeDisconnect_keeps hf P _).bind fun _ => .pure _
  | fopen tid path oFlags => exact (fopen_keeps hf P _ _ _).bind fun _ => .pure _
  | fclose fd => exact (fclose_keeps hf P _).bind fun _ => .pure _
  | fread fd copy bufSize => exact (fread_keeps hf P _ _ _).bind fun _ => .pure _
  | fwrite fd buf => exact (fwrite_keeps hf P _ _).bind fun _ => .pure _
  | fseek fd offset whence => exact (fseek_keeps hf _ _ _).bind fun _ => .pure _
  | fileRm tid path => exact (fileRm_keeps hf P _ _).bind fun _ => .pure _
  | fileMv tid oldPath newPath => exact (fileMv_keeps hf P _ _ _).bind fun _ => .pure _
  | directoryRm tid path => exact (directoryOp_keeps hf P _ _ _).bind fun _ => .pure _
  | directoryCreate tid path => exact (directoryOp_keeps hf P _ _ _).bind fun _ => .pure _
  | find tid pattern => exact (find_keeps hf P _ _).bind fun _ => .pure _
  | fstat tid path => exact (fstat_keeps hf P _ _).bind fun _ => .pure _
  | shareGetList => exact (shareGetList_keeps hf P hadd).bind fun _ => .pure _

/-! ## The reply that completes a login -/

/-- Bit 0 of the `action` of a Session Setup reply. -/
def replyGuest (reply : List UInt8) : Bool := replyU16 reply (smbHeaderSize + 5) &&& 0x0001 ≠ 0

/-- A login has just succeeded, on a session whose `guest` was `guest`. -/
structure LoggedIn (guest : Bool) (s : SmbSession) : Prop where
  logged : s.logged = true
  guest : s.guest = (guest || replyGuest s.lastReply)
  uid : s.srv.uid = replyUid s.lastReply

/-- How a login ends: it has succeeded, or `logged` and `guest` are what they were and `U` holds of
the uid. -/
def LoginEnds (logged guest : Bool) (U : UInt16 → Prop) (code : DsmCode) (s : SmbSession) : Prop :=
  code = .success ∧ LoggedIn guest s ∨
    code ≠ .success ∧ s.logged = logged ∧ s.guest = guest ∧ U s.srv.uid

section

variable {logged guest : Bool} {uid : UInt16} {U : UInt16 → Prop}

/-- The states in which a login has not yet changed more than the uid. -/
def Waiting (logged guest : Bool) (U : UInt16 → Prop) (s : SmbSession) : Prop :=
  s.logged = logged ∧ s.guest = guest ∧ U s.srv.uid

/-- The same, with the reply that `msg` holds received last. -/
def Replied (logged guest : Bool) (U : UInt16 → Prop) (msg : SmbMessage) (s : SmbSession) : Prop :=
  Waiting logged guest U s ∧ msg.Holds s.lastReply

theorem Waiting.of_identity {s s' : SmbSession} (h : Waiting logged guest U s)
    (heq : s'.identity = s.identity) : Waiting logged guest U s' := by
  obtain ⟨hl, hg, hu⟩ := identity_eq_iff.mp heq
  exact ⟨hl ▸ h.1, hg ▸ h.2.1, hu ▸ h.2.2⟩

theorem sendMsg_waiting (msg : SmbMessage) :
    Triple (Waiting logged guest U) (smbSessionSendMsg msg) (fun _ => Waiting logged guest U) :=
  fun s h => h.of_identity (identity_framed.send msg s)

theorem recvMsg_replied :
    Triple (Waiting logged guest U) smbSessionRecvMsg fun r s =>
      Waiting logged guest U s ∧ ∀ msg, r = some msg → msg.Holds s.lastReply := by
  intro s h
  exact ⟨h.of_identity (recvMsg_keeps identity_framed s), fun msg hmsg => recvMsg_lastReply s hmsg⟩

theorem Replied.ntStatus {msg : SmbMessage} (s : SmbSession) (ntStatus : UInt32)
    (h : Replied logged guest U msg s) : Replied logged guest U msg { s with ntStatus } := h

/-- The assignments at the end of a successful login. -/
theorem loggedIn_spec {msg : SmbMessage} {action : UInt16}
    (haction : ∀ reply, msg.Holds reply → action = replyU16 reply (smbHeaderSize + 5)) :
    Triple (Replied logged guest U msg) (smbSessionLoggedIn action msg.uid)
      (fun _ => LoggedIn guest) := by
  rintro s ⟨⟨-, hguest, -⟩, hholds⟩
  have hbit := haction _ hholds
  have huid := hholds.uid_eq
  unfold smbSessionLoggedIn
  by_cases h : action &&& 0x0001 ≠ 0
  · rw [if_pos h]
    refine ⟨rfl, ?_, huid⟩
    have : replyGuest s.lastReply = true := by simpa [replyGuest, hbit] using h
    show true = (guest || replyGuest s.lastReply)
    rw [this, Bool.or_true]
  · rw [if_neg h]
    refine ⟨rfl, ?_, huid⟩
    have : replyGuest s.lastReply = false := by simpa [replyGuest, hbit] using h
    show s.guest = (guest || replyGuest s.lastReply)
    rw [this, Bool.or_false, hguest]

theorem waiting_fails {code : DsmCode} (h : code ≠ .success) :
    Triple (Waiting logged guest U) (pure code) (LoginEnds logged guest U) :=
  .pure fun _ hs => .inr ⟨h, hs⟩

theorem replied_fails {msg : SmbMessage} {code : DsmCode} (h : code ≠ .success) :
    Triple (Replied logged guest U msg) (pure code) (LoginEnds logged guest U) :=
  .pure fun _ hs => .inr ⟨h, hs.1⟩

/-- The `action` of a reply long enough to have one. -/
theorem SmbMessage.Holds.action_eq {msg : SmbMessage} {reply : List UInt8} (h : msg.Holds reply)
    (hsize : 7 ≤ msg.payloadSize) : msg.payload.u16 5 = replyU16 reply (smbHeaderSize + 5) := by
  rw [← h.u16_eq (by omega), Mem.u16, Mem.u16, SmbMessage.payload, Mem.read_shift]

variable (P : Platform) (nonces : SmbNonces) (domain user password : List UInt8)

theorem loginNtlm_spec :
    Triple (Waiting logged guest U) (smbSessionLoginNtlm P nonces domain user password)
      (LoginEnds logged guest U) := by
  refine .bind .get fun s => ?_
  refine .bind ((sendMsg_waiting _).conseq (fun _ h => h.2) fun _ _ h => h) fun _ => ?_
  refine .ite (fun _ => waiting_fails (by decide)) fun _ => ?_
  refine .bind recvMsg_replied fun answer => ?_
  cases answer with
  | none => exact (waiting_fails (by decide)).conseq (fun _ h => h.1) fun _ _ h => h
  | some answer =>
    refine Triple.conseq (P := Replied logged guest U answer) ?_
      (fun _ h => ⟨h.1, h.2 _ rfl⟩) fun _ _ h => h
    refine .ite (fun _ => replied_fails (by decide)) fun hsize => ?_
    refine .bind (checkNtStatus_triple Replied.ntStatus answer) fun ok => ?_
    refine Triple.conseq (P := Replied logged guest U answer) ?_ (fun _ h => h.2) fun _ _ h => h
    refine .ite (fun _ => replied_fails (by decide)) fun _ => ?_
    refine .bind (loggedIn_spec fun reply h => h.action_eq ?_) fun _ => ?_
    · rw [SmbSessionResp.size] at hsize
      omega
    · exact .pure fun s hs => .inl ⟨rfl, hs⟩

/-! ## The SPNEGO exchange -/

/-- The uid may be anything. -/
abbrev anyUid : UInt16 → Prop := fun _ => True

theorem spnegoNegotiate_spec :
    Triple (Waiting logged guest anyUid) (spnegoNegotiate P domain)
      (fun _ => Waiting logged guest anyUid) := by
  refine .bind .get fun s => ?_
  refine Triple.conseq (P := Waiting logged guest anyUid) ?_ (fun _ h => h.2) fun _ _ h => h
  split
  · refine .bind (sendMsg_waiting _) fun _ => ?_
    exact .ite (fun _ => .pure fun _ h => h) fun _ => .pure fun _ h => h
  · exact .pure fun _ h => h

theorem spnegoChallenge_spec :
    Triple (Waiting logged guest anyUid) (spnegoChallenge P)
      (fun _ => Waiting logged guest anyUid) := by
  refine .bind (recvMsg_replied.post fun _ _ h => h.1) fun msg => ?_
  cases msg with
  | none => exact .pure fun _ h => h
  | some msg =>
    refine .ite (fun _ => .pure fun _ h => h) fun _ => .ite (fun _ => .pure fun _ h => h) fun _ => ?_
    dsimp only
    split
    · refine .bind (.modify (Q := fun _ => Waiting logged guest anyUid) fun _ h => ?_) fun _ => ?_
      · exact ⟨h.1, h.2.1, trivial⟩
      · exact .pure fun _ h => h
    · exact .pure fun _ h => h

theorem spnegoAuth_spec :
    Triple (Waiting logged guest anyUid) (spnegoAuth P nonces domain user password)
      (LoginEnds logged guest anyUid) := by
  refine .bind .get fun s => ?_
  refine Triple.conseq (P := Waiting logged guest anyUid) ?_ (fun _ h => h.2) fun _ _ h => h
  dsimp only
  split
  · refine .bind (sendMsg_waiting _) fun _ => .ite (fun _ => waiting_fails (by decide)) fun _ => ?_
    refine .bind recvMsg_replied fun resp => ?_
    cases resp with
    | none => exact (waiting_fails (by decide)).conseq (fun _ h => h.1) fun _ _ h => h
    | some resp =>
      refine Triple.conseq (P := Replied logged guest anyUid resp) ?_
        (fun _ h => ⟨h.1, h.2 _ rfl⟩) fun _ _ h => h
      refine .bind (checkNtStatus_triple Replied.ntStatus resp) fun ok => ?_
      refine Triple.conseq (P := Replied logged guest anyUid resp) ?_ (fun _ h => h.2)
        fun _ _ h => h
      refine .ite (fun _ => replied_fails (by decide)) fun _ => ?_
      refine .ite (fun _ => replied_fails (by decide)) fun hsize => ?_
      refine .bind (loggedIn_spec fun reply h => h.action_eq ?_) fun _ => ?_
      · rw [SmbSessionXsecResp.size] at hsize
        omega
      · exact .pure fun s hs => .inl ⟨rfl, hs⟩
  · exact waiting_fails (by decide)

theorem spnegoExchange_spec :
    Triple (Waiting logged guest anyUid) (spnegoExchange P nonces domain user password)
      (LoginEnds logged guest anyUid) := by
  refine .bind (spnegoNegotiate_spec P domain) fun _ => .ite waiting_fails fun _ => ?_
  refine .bind (spnegoChallenge_spec P) fun _ => .ite waiting_fails fun _ => ?_
  exact spnegoAuth_spec P nonces domain user password

theorem loginSpnego_spec :
    Triple (Waiting logged guest U) (smbSessionLoginSpnego P nonces domain user password)
      (LoginEnds logged guest anyUid) := by
  refine .bind (.modify (Q := fun _ => Waiting logged guest anyUid) fun _ h => ?_) fun _ => ?_
  · exact ⟨h.1, h.2.1, trivial⟩
  have hinit : Triple (Waiting logged guest anyUid) (initAsn1 P)
      (fun _ => Waiting logged guest anyUid) := by
    refine .bind .get fun s => ?_
    refine Triple.conseq (P := Waiting logged guest anyUid) ?_ (fun _ h => h.2) fun _ _ h => h
    refine .ite (fun _ => .pure fun _ h => h) fun _ => .ite (fun _ => .pure fun _ h => h) fun _ => ?_
    exact .bind (.modify (Q := fun _ => Waiting logged guest anyUid) fun _ h => h) fun _ =>
      .pure fun _ h => h
  refine .bind hinit fun _ => .ite (fun _ => waiting_fails (by decide)) fun _ => ?_
  refine .bind (spnegoExchange_spec P nonces domain user password) fun res => ?_
  -- forgetting the ASN.1 tree changes nothing a login is judged by
  exact .bind (.modify (Q := fun _ => LoginEnds logged guest anyUid res) fun s h =>
    h.imp (fun ⟨hc, h⟩ => ⟨hc, h.1, h.2, h.3⟩) id) fun _ => .pure fun _ h => h

end

/-! ## Logins and logoffs as steps -/

theorem login_run (P : Platform) (nonces : SmbNonces) (s : SmbSession) :
    SmbOp.run P s (.login nonces) = (smbSessionLogin P nonces s).2 := by
  rw [SmbOp.run, SmbOp.exec]
  exact bind_pure_snd _ _ _

theorem login_result (P : Platform) (nonces : SmbNonces) (s : SmbSession) :
    SmbOp.result P s (.login nonces) = .code (smbSessionLogin P nonces s).1 := by
  rw [SmbOp.result, SmbOp.exec]
  exact bind_pure_fst _ _ _

theorem logoff_run (P : Platform) (s : SmbSession) : SmbOp.run P s .logoff = (smbSessionLogoff P s).2 := by
  rw [SmbOp.run, SmbOp.exec]
  exact bind_pure_snd _ _ _

theorem logoff_result (P : Platform) (s : SmbSession) :
    SmbOp.result P s .logoff = .code (smbSessionLogoff P s).1 := by
  rw [SmbOp.result, SmbOp.exec]
  exact bind_pure_fst _ _ _

/-- A login of this session goes through SPNEGO. -/
def SmbSession.loginsBySpnego (s : SmbSession) : Bool :=
  s.supportsXsec && s.creds.domain.isSome && s.creds.login.isSome && s.creds.password.isSome

/-- A login without full credentials does nothing; any other goes by SPNEGO or by NTLM. -/
theorem login_cases (P : Platform) (nonces : SmbNonces) (s : SmbSession) :
    (smbSessionLogin P nonces s = (.errorGeneric, s) ∧ s.loginsBySpnego = false) ∨
    (∃ domain user password, smbSessionLogin P nonces s =
        smbSessionLoginSpnego P nonces domain user password s ∧ s.loginsBySpnego = true) ∨
    ∃ domain user password, smbSessionLogin P nonces s =
        smbSessionLoginNtlm P nonces domain user password s ∧ s.loginsBySpnego = false := by
  unfold smbSessionLogin
  rw [get_bind_run, SmbSession.loginsBySpnego]
  cases s.creds.domain with
  | none => exact .inl ⟨rfl, by simp⟩
  | some domain =>
    cases s.creds.login with
    | none => exact .inl ⟨rfl, by simp⟩
    | some login =>
      cases s.creds.password with
      | none => exact .inl ⟨rfl, by simp⟩
      | some password =>
        dsimp only
        cases s.supportsXsec with
        | true => exact .inr (.inl ⟨domain, login, password, by rw [if_pos rfl], rfl⟩)
        | false =>
          exact .inr (.inr ⟨domain, login, password, by rw [if_neg Bool.false_ne_true], rfl⟩)

theorem login_ends (P : Platform) (nonces : SmbNonces) (s : SmbSession) :
    LoginEnds s.logged s.guest (fun uid => s.loginsBySpnego = true ∨ uid = s.srv.uid)
      (smbSessionLogin P nonces s).1 (smbSessionLogin P nonces s).2 := by
  have hs : Waiting s.logged s.guest (· = s.srv.uid) s := ⟨rfl, rfl, rfl⟩
  have hmono : ∀ {U U' : UInt16 → Prop} {code s'}, (∀ uid, U uid → U' uid) →
      LoginEnds s.logged s.guest U code s' → LoginEnds s.logged s.guest U' code s' :=
    fun hU h => h.imp id fun ⟨hc, hl, hg, hu⟩ => ⟨hc, hl, hg, hU _ hu⟩
  obtain ⟨heq, -⟩ | ⟨domain, user, password, heq, hspnego⟩ | ⟨domain, user, password, heq, -⟩ :=
    login_cases P nonces s
  · rw [heq]
    exact .inr ⟨DsmCode.noConfusion, rfl, rfl, .inr rfl⟩
  · rw [heq]
    exact hmono (fun _ _ => .inl hspnego) (loginSpnego_spec P nonces domain user password s hs)
  · rw [heq]
    exact hmono (fun _ h => .inr h) (loginNtlm_spec P nonces domain user password s hs)

/-- A logoff that succeeds clears the identity, one that fails leaves it alone. -/
theorem logoff_cases (P : Platform) (s : SmbSession) :
    (smbSessionLogoff P s).1 = .success ∧ (smbSessionLogoff P s).2.identity = (false, false, 0) ∨
      (smbSessionLogoff P s).1 ≠ .success ∧ (smbSessionLogoff P s).2.identity = s.identity := by
  have hall : Triple (SmbSession.identity · = s.identity) (smbSessionLogoff P) fun code s' =>
      code = .success ∧ s'.identity = (false, false, 0) ∨
        code ≠ .success ∧ s'.identity = s.identity := by
    have hsend : Triple (SmbSession.identity · = s.identity)
        (smbSessionSendMsg (smbSessionLogoffReq P)) fun _ s' => s'.identity = s.identity :=
      fun s' h => (identity_framed.send _ s').trans h
    refine .bind hsend fun _ => .ite (fun _ => .pure fun _ h => .inr ⟨by decide, h⟩) fun _ => ?_
    exact .bind (.modify (Q := fun _ s' => s'.identity = (false, false, 0)) fun _ _ => rfl)
      fun _ => .pure fun _ h => .inl ⟨rfl, h⟩
  exact hall s rfl

end Libdsm
