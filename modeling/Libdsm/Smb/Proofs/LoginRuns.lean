import Libdsm.Smb.Proofs.Login

/-!
# Identity over whole runs

What `smb_session_is_guest` returns against the history of the calls, and the uid of a session
against the reply that completed its last login. Three steps go wrong. A connect leaves the login of
the last connection standing; a login with a user's reply on a session marked as guest leaves it
marked as guest; and a SPNEGO login that fails on a logged-in session has changed its uid.
-/

namespace Libdsm

variable (P : Platform)

/-! ## Guests -/

/-- What the history says after one more call: no login stands, or one does, as guest or not. -/
def loginView (view : Option Bool) (s : SmbSession) (op : SmbOp) : Option Bool :=
  match op with
  | .connect .. => none
  | .login _ =>
    if (op.result P s).isSuccess then some (replyGuest (op.run P s).lastReply) else view
  | .logoff => if (op.result P s).isSuccess then none else view
  | _ => view

/-- The session and the history, one call on. -/
def loginStep (st : SmbSession × Option Bool) (op : SmbOp) : SmbSession × Option Bool :=
  (op.run P st.1, loginView P st.2 st.1 op)

/-- What `smb_session_is_guest` should return. -/
def guestCode : Option Bool → Int
  | none => -1
  | some true => 1
  | some false => 0

/-- After the call `smb_session_is_guest` agrees with the history. -/
def GuestAgrees (st : SmbSession × Option Bool) (op : SmbOp) : Prop :=
  smbSessionIsGuest (op.run P st.1) = guestCode (loginView P st.2 st.1 op)

/-- The call stays clear of the defects: a connect is made on a session that is not logged in, and
a login that the server completes on a session marked as guest is completed as guest again. -/
def GuestClear (st : SmbSession × Option Bool) (op : SmbOp) : Prop :=
  match op with
  | .connect .. => st.1.logged = false
  | .login _ => st.1.guest = true → (op.result P st.1).isSuccess = true →
      replyGuest (op.run P st.1).lastReply = true
  | _ => True

/-- The history as the session's fields tell it. -/
def SmbSession.view (s : SmbSession) : Option Bool := if s.logged then some s.guest else none

theorem isGuest_eq (s : SmbSession) : smbSessionIsGuest s = guestCode s.view := by
  unfold smbSessionIsGuest SmbSession.view
  cases s.logged <;> cases s.guest <;> rfl

theorem guestCode_inj {v w : Option Bool} : guestCode v = guestCode w ↔ v = w := by
  rcases v with _ | _ | _ <;> rcases w with _ | _ | _ <;> decide

theorem guestAgrees_iff (st : SmbSession × Option Bool) (op : SmbOp) :
    GuestAgrees P st op ↔ (op.run P st.1).view = loginView P st.2 st.1 op := by
  rw [GuestAgrees, isGuest_eq, guestCode_inj]

/-- The invariant: the fields tell the history, and only a logged-in session is marked as guest. -/
structure LoginInv (s : SmbSession) (view : Option Bool) : Prop where
  view : s.view = view
  guest : s.guest = true → s.logged = true

theorem LoginInv.of_keeps {s s' : SmbSession} {view : Option Bool} (h : LoginInv s view)
    (hl : s'.logged = s.logged) (hg : s'.guest = s.guest) : LoginInv s' view := by
  refine ⟨?_, ?_⟩
  · rw [← h.view, SmbSession.view, SmbSession.view, hl, hg]
  · rw [hl, hg]
    exact h.guest

/-- The calls that make history, and all the others. -/
theorem login_or_other (op : SmbOp) :
    (∃ name transport, op = .connect name transport) ∨ (∃ nonces, op = .login nonces) ∨
      op = .logoff ∨ (∀ nonces, op ≠ .login nonces) ∧ op ≠ .logoff ∧
        ∀ st : SmbSession × Option Bool, loginView P st.2 st.1 op = st.2 ∧ GuestClear P st op := by
  cases op <;> simp [loginView, GuestClear]

theorem isSuccess_code (code : DsmCode) :
    (SmbResult.code code).isSuccess = decide (code = .success) := rfl

section

variable {st : SmbSession × Option Bool} (h : LoginInv st.1 st.2)

include h

/-- A call that changes neither the fields nor the history. -/
theorem LoginInv.unchanged {op : SmbOp} (hview : loginView P st.2 st.1 op = st.2)
    (hl : (op.run P st.1).logged = st.1.logged) (hg : (op.run P st.1).guest = st.1.guest)
    (hclear : GuestClear P st op) :
    (GuestAgrees P st op ↔ GuestClear P st op) ∧
      (GuestClear P st op → LoginInv (op.run P st.1) (loginView P st.2 st.1 op)) := by
  have hinv := h.of_keeps hl hg
  rw [guestAgrees_iff, hview]
  exact ⟨⟨fun _ => hclear, fun _ => hinv.view⟩, fun _ => hinv⟩

theorem LoginInv.connect (name : List UInt8) (transport : Option SmbTransportKind) :
    (GuestAgrees P st (.connect name transport) ↔ GuestClear P st (.connect name transport)) ∧
      (GuestClear P st (.connect name transport) →
        LoginInv (SmbOp.run P st.1 (.connect name transport))
          (loginView P st.2 st.1 (.connect name transport))) := by
  have hid : (SmbOp.run P st.1 (.connect name transport)).identity = st.1.identity :=
    run_identity P st.1 (by simp) (by simp)
  obtain ⟨hl, hg, -⟩ := identity_eq_iff.mp hid
  have hview : (SmbOp.run P st.1 (.connect name transport)).view = none ↔ st.1.logged = false := by
    rw [SmbSession.view, hl]
    cases st.1.logged <;> simp
  rw [guestAgrees_iff]
  refine ⟨hview, fun hclear => ⟨hview.mpr hclear, fun hg' => ?_⟩⟩
  exact hl.trans (h.guest (hg.symm.trans hg'))

theorem LoginInv.login (nonces : SmbNonces) :
    (GuestAgrees P st (.login nonces) ↔ GuestClear P st (.login nonces)) ∧
      (GuestClear P st (.login nonces) →
        LoginInv (SmbOp.run P st.1 (.login nonces)) (loginView P st.2 st.1 (.login nonces))) := by
  have hrun := login_run P nonces st.1
  obtain ⟨hok, hin⟩ | ⟨hfail, hl, hg, -⟩ := login_ends P nonces st.1
  · -- the new `guest` is the old one or the reply's
    have hsucc : (SmbOp.result P st.1 (.login nonces)).isSuccess = true := by
      rw [login_result, isSuccess_code, decide_eq_true hok]
    have hview : loginView P st.2 st.1 (.login nonces) =
        some (replyGuest (SmbOp.run P st.1 (.login nonces)).lastReply) := by
      simp only [loginView, hsucc, if_true]
    have hiff : (SmbOp.run P st.1 (.login nonces)).view = loginView P st.2 st.1 (.login nonces) ↔
        GuestClear P st (.login nonces) := by
      rw [hview, hrun, SmbSession.view, if_pos hin.logged, hin.guest, GuestClear, hsucc, hrun]
      cases st.1.guest <;> cases replyGuest (smbSessionLogin P nonces st.1).2.lastReply <;> simp
    rw [guestAgrees_iff]
    exact ⟨hiff, fun hclear => ⟨hiff.mpr hclear, fun _ => hin.logged⟩⟩
  · have hsucc : (SmbOp.result P st.1 (.login nonces)).isSuccess = false := by
      rw [login_result, isSuccess_code, decide_eq_false hfail]
    rw [← hrun] at hl hg
    refine h.unchanged P (by simp only [loginView, hsucc, Bool.false_eq_true, if_false]) hl hg ?_
    intro _ hs
    rw [hsucc] at hs
    exact absurd hs Bool.false_ne_true

theorem LoginInv.logoff :
    (GuestAgrees P st .logoff ↔ GuestClear P st .logoff) ∧
      (GuestClear P st .logoff →
        LoginInv (SmbOp.run P st.1 .logoff) (loginView P st.2 st.1 .logoff)) := by
  have hrun := logoff_run P st.1
  obtain ⟨hok, hid⟩ | ⟨hfail, hid⟩ := logoff_cases P st.1
  · have hsucc : (SmbOp.result P st.1 .logoff).isSuccess = true := by
      rw [logoff_result, isSuccess_code, decide_eq_true hok]
    have hview : loginView P st.2 st.1 .logoff = none := by simp only [loginView, hsucc, if_true]
    rw [← hrun] at hid
    obtain ⟨hl, hg, -⟩ := identity_eq_iff.mp hid
    have hnone : (SmbOp.run P st.1 .logoff).view = none := by
      rw [SmbSession.view, hl, if_neg Bool.false_ne_true]
    rw [guestAgrees_iff, hview]
    refine ⟨⟨fun _ => trivial, fun _ => hnone⟩, fun _ => ⟨hnone, fun hg' => ?_⟩⟩
    exact absurd (hg.symm.trans hg') Bool.false_ne_true
  · have hsucc : (SmbOp.result P st.1 .logoff).isSuccess = false := by
      rw [logoff_result, isSuccess_code, decide_eq_false hfail]
    rw [← hrun] at hid
    obtain ⟨hl, hg, -⟩ := identity_eq_iff.mp hid
    exact h.unchanged P (by simp only [loginView, hsucc, Bool.false_eq_true, if_false]) hl hg trivial

/-- One call, with the invariant: `smb_session_is_guest` agrees with the history after it exactly
if it is clear, and then the invariant is kept. -/
theorem LoginInv.step (op : SmbOp) :
    (GuestAgrees P st op ↔ GuestClear P st op) ∧
      (GuestClear P st op → LoginInv (op.run P st.1) (loginView P st.2 st.1 op)) := by
  rcases login_or_other P op with ⟨name, transport, rfl⟩ | ⟨nonces, rfl⟩ | rfl |
    ⟨hlogin, hlogoff, hview⟩
  · exact h.connect P name transport
  · exact h.login P nonces
  · exact h.logoff P
  · obtain ⟨hl, hg, -⟩ := identity_eq_iff.mp (run_identity P st.1 hlogin hlogoff)
    exact h.unchanged P (hview st).1 hl hg (hview st).2

end

/-- Over every run from a new session, `smb_session_is_guest` agrees with the history after each
call exactly as long as each call is clear. -/
theorem isGuest_agrees_iff (tcp : Tcp) (ops : List SmbOp) :
    Along (loginStep P) (GuestAgrees P) (smbSessionNew P tcp, none) ops ↔
      Along (loginStep P) (GuestClear P) (smbSessionNew P tcp, none) ops :=
  along_congr (I := fun st => LoginInv st.1 st.2) (fun _ op h => (h.step P op).1)
    (fun _ op h => (h.step P op).2)
    ⟨rfl, fun h => absurd h Bool.false_ne_true⟩

/-- A guest login, then a login that the server completes as a user. -/
theorem isGuest_user_after_guest :
    ¬ Along (loginStep .ascii) (GuestAgrees .ascii)
      (smbSessionNew .ascii (.answering [negotiateReply 0, setupReply 0 7 1, setupReply 0 7 0]), none)
      [.setCreds (some (ascii "d")) (some (ascii "u")) (some (ascii "p")),
        .connect (ascii "s") (some .tcp), .login {}, .login {}] := by
  intro h
  have hlast := h.2.2.2.1
  revert hlast
  unfold GuestAgrees
  decide +kernel

/-! ## Failed logins -/

/-- The uid of the last login that succeeded, after one more call. -/
def uidView (uid : UInt16) (s : SmbSession) (op : SmbOp) : UInt16 :=
  match op with
  | .login _ => if (op.result P s).isSuccess then replyUid (op.run P s).lastReply else uid
  | _ => uid

/-- The session and the uid of its last successful login, one call on. -/
def uidStep (st : SmbSession × UInt16) (op : SmbOp) : SmbSession × UInt16 :=
  (op.run P st.1, uidView P st.2 st.1 op)

/-- The call is a login that fails. -/
def FailedLogin (s : SmbSession) (op : SmbOp) : Prop :=
  (∃ nonces, op = .login nonces) ∧ (op.result P s).isSuccess = false

/-- After the call no login is mixed: if it is a login that failed, the session is not logged in or
has kept its identity, and the requests of a logged-in session carry the uid of its last login. -/
structure NotMixed (st : SmbSession × UInt16) (op : SmbOp) : Prop where
  failed : FailedLogin P st.1 op →
    (op.run P st.1).logged = false ∨ (op.run P st.1).identity = st.1.identity
  uid : (op.run P st.1).logged = true →
    ∀ msg, replyUid (smbRequestBytes (op.run P st.1).srv.uid msg) = uidView P st.2 st.1 op

/-- The call is no SPNEGO login that fails on a logged-in session, and no connect with a name that runs
over the fields behind `srv.name`, the uid among them. -/
structure UidClear (st : SmbSession × UInt16) (op : SmbOp) : Prop where
  name : ∀ name transport, op = .connect name transport → NameFits name
  login : FailedLogin P st.1 op → st.1.logged = false ∨ st.1.loginsBySpnego = false

/-- The invariant: a logged-in session has the uid of its last successful login. -/
def UidInv (s : SmbSession) (uid : UInt16) : Prop := s.logged = true → s.srv.uid = uid

theorem UidInv.of_identity {s s' : SmbSession} {uid : UInt16} (h : UidInv s uid)
    (hid : s'.identity = s.identity) : UidInv s' uid := by
  obtain ⟨hl, -, hu⟩ := identity_eq_iff.mp hid
  intro hlogged
  rw [hu]
  exact h (hl.symm.trans hlogged)

/-- A call after which the invariant holds is not mixed, if what it says of failed logins holds. -/
theorem UidInv.notMixed {st : SmbSession × UInt16} {op : SmbOp}
    (h : UidInv (op.run P st.1) (uidView P st.2 st.1 op))
    (hfailed : FailedLogin P st.1 op →
      (op.run P st.1).logged = false ∨ (op.run P st.1).identity = st.1.identity) :
    NotMixed P st op :=
  ⟨hfailed, fun hl msg => (requestBytes_uid _ msg).trans (h hl)⟩

theorem UidInv.login {st : SmbSession × UInt16} (h : UidInv st.1 st.2) {nonces : SmbNonces}
    (hclear : UidClear P st (.login nonces)) :
    UidInv (SmbOp.run P st.1 (.login nonces)) (uidView P st.2 st.1 (.login nonces)) ∧
      NotMixed P st (.login nonces) := by
  have hrun := login_run P nonces st.1
  obtain ⟨hok, hin⟩ | ⟨hfail, hl, hg, hu⟩ := login_ends P nonces st.1
  · have hsucc : (SmbOp.result P st.1 (.login nonces)).isSuccess = true := by
      rw [login_result, isSuccess_code, decide_eq_true hok]
    have hinv : UidInv (SmbOp.run P st.1 (.login nonces)) (uidView P st.2 st.1 (.login nonces)) := by
      intro _
      rw [uidView, if_pos hsucc, hrun]
      exact hin.uid
    refine ⟨hinv, hinv.notMixed P fun hf => ?_⟩
    exact absurd (hsucc.symm.trans hf.2) (by decide)
  · have hsucc : (SmbOp.result P st.1 (.login nonces)).isSuccess = false := by
      rw [login_result, isSuccess_code, decide_eq_false hfail]
    have hview : uidView P st.2 st.1 (.login nonces) = st.2 := by
      rw [uidView, if_neg (by rw [hsucc]; exact Bool.false_ne_true)]
    rw [← hrun] at hl hg hu
    -- not logged in before and after, or not by SPNEGO, which leaves the uid alone
    rcases hclear.login ⟨⟨nonces, rfl⟩, hsucc⟩ with hout | hntlm
    · have hout' := hl.trans hout
      have hinv : UidInv (SmbOp.run P st.1 (.login nonces))
          (uidView P st.2 st.1 (.login nonces)) :=
        fun hin => absurd (hout'.symm.trans hin) Bool.false_ne_true
      exact ⟨hinv, hinv.notMixed P fun _ => .inl hout'⟩
    · rw [hntlm] at hu
      have huid := hu.resolve_left Bool.false_ne_true
      have hid : (SmbOp.run P st.1 (.login nonces)).identity = st.1.identity :=
        identity_eq_iff.mpr ⟨hl, hg, huid⟩
      have hinv : UidInv (SmbOp.run P st.1 (.login nonces))
          (uidView P st.2 st.1 (.login nonces)) := by
        rw [hview]
        exact h.of_identity hid
      exact ⟨hinv, hinv.notMixed P fun _ => .inr hid⟩

theorem UidInv.step {st : SmbSession × UInt16} (h : UidInv st.1 st.2) {op : SmbOp}
    (hclear : UidClear P st op) :
    UidInv (op.run P st.1) (uidView P st.2 st.1 op) ∧ NotMixed P st op := by
  by_cases hlogin : ∃ nonces, op = .login nonces
  · obtain ⟨nonces, rfl⟩ := hlogin
    exact h.login P hclear
  · have hview : uidView P st.2 st.1 op = st.2 := by
      cases op <;> first | rfl | exact absurd ⟨_, rfl⟩ hlogin
    have hinv : UidInv (op.run P st.1) (uidView P st.2 st.1 op) := by
      rw [hview]
      by_cases hlogoff : op = .logoff
      · subst hlogoff
        rw [logoff_run]
        obtain ⟨-, hid⟩ | ⟨-, hid⟩ := logoff_cases P st.1
        · intro hin
          exact absurd ((identity_eq_iff.mp hid).1.symm.trans hin) Bool.false_ne_true
        · exact h.of_identity hid
      · exact h.of_identity (run_identity P st.1 (fun nonces heq => hlogin ⟨nonces, heq⟩) hlogoff)
    exact ⟨hinv, hinv.notMixed P fun hf => absurd hf.1 hlogin⟩

/-- In every run from a new session in which no SPNEGO login fails on a logged-in session and no name is
longer than fifteen bytes, no state is mixed. -/
theorem login_not_mixed (tcp : Tcp) (ops : List SmbOp)
    (hclear : Along (uidStep P) (UidClear P) (smbSessionNew P tcp, 0) ops) :
    Along (uidStep P) (NotMixed P) (smbSessionNew P tcp, 0) ops :=
  (Along.of_invariant (I := fun st => UidInv st.1 st.2) (fun _ _ h hc => h.step P hc)
    (fun h => absurd h Bool.false_ne_true) hclear).1

/-- A SPNEGO login that the server refuses, on a fresh connection. -/
theorem login_not_mixed_refused :
    let tcp := Tcp.answering [negotiateReply smbCapsXsec, setupReply 0xc000006d 7 0]
    let ops : List SmbOp := [.setCreds (some (ascii "d")) (some (ascii "u")) (some (ascii "p")),
      .connect (ascii "s") (some .tcp), .login {}]
    Along (uidStep .ascii) (UidClear .ascii) (smbSessionNew .ascii tcp, 0) ops ∧
      Along (uidStep .ascii) (NotMixed .ascii) (smbSessionNew .ascii tcp, 0) ops := by
  intro tcp ops
  have hclear : Along (uidStep .ascii) (UidClear .ascii) (smbSessionNew .ascii tcp, 0) ops := by
    refine ⟨⟨fun _ _ hop => (by cases hop), fun h => ?_⟩, ⟨fun name transport hop => ?_, fun h => ?_⟩,
      ⟨fun _ _ hop => (by cases hop), fun _ => .inl ?_⟩, trivial⟩
    · obtain ⟨⟨nonces, hop⟩, -⟩ := h
      cases hop
    · cases hop
      show 1 < smbSrvNameSize
      decide
    · obtain ⟨⟨nonces, hop⟩, -⟩ := h
      cases hop
    · decide +kernel
  exact ⟨hclear, login_not_mixed .ascii tcp ops hclear⟩

/-- A SPNEGO login that succeeds, then one that the server refuses: the session is still logged in,
with another uid. -/
theorem login_mixed :
    ¬ Along (uidStep .ascii) (NotMixed .ascii)
      (smbSessionNew .ascii (.answering [negotiateReply smbCapsXsec,
        setupReply ntStatusMoreProcessingRequired 7 0, setupReply 0 7 0,
        setupReply 0xc000006d 7 0]), 0)
      [.setCreds (some (ascii "d")) (some (ascii "u")) (some (ascii "p")),
        .connect (ascii "s") (some .tcp), .login {}, .login {}] := by
  intro h
  have hlast := h.2.2.2.1.failed ⟨⟨_, rfl⟩, by decide +kernel⟩
  revert hlast
  decide +kernel

end Libdsm
