import Libdsm.Smb.Proofs.ShareTable

/-!
# What the operations change

`Tracked R` says that `R` is a preorder which contains every single change that the operations make to a
session: a message on the wire, a status or a login recorded, a share or a file added, removed or moved.
Every operation then takes the session along `R`.
-/

namespace Libdsm

/-- `R` contains the changes that the operations are made of. -/
structure Tracked (R : SmbSession → SmbSession → Prop) : Prop where
  refl : ∀ s, R s s
  trans : ∀ {a b c}, R a b → R b c → R a c
  transport : ∀ s transport, R s { s with transport }
  ntStatus : ∀ s ntStatus, R s { s with ntStatus }
  server : ∀ s srv, R s { s with srv }
  login : ∀ s logged guest, R s { s with logged, guest }
  asn1 : ∀ s spnegoAsn1, R s { s with spnegoAsn1 }
  challenge : ∀ s xsecTarget srv, R s { s with xsecTarget, srv }
  setCreds : ∀ domain user password, Moves R (smbSessionSetCreds domain user password)
  shareAdd : ∀ s share, share.files = [] → R s (smbSessionShareAdd s share)
  fileAdd : ∀ s tid file, file.name = none → R s (smbSessionFileAdd s tid file)
  fileRemove : ∀ s fd, R s (smbSessionFileRemove s fd).2
  fileSeek : ∀ s fd offset, (smbSessionFileGet s fd).isSome →
    R s (smbSessionFileUpdate s fd fun file => { file with offset })

section

variable {R : SmbSession → SmbSession → Prop} (hR : Tracked R) (P : Platform)

include hR

/-! ## Messages -/

theorem sendMsg_moves (msg : SmbMessage) : Moves R (smbSessionSendMsg msg) :=
  fun s => hR.transport s _

theorem recvInto_moves (msg : SmbMessage) : Moves R (smbSessionRecvInto msg) :=
  fun s => hR.transport s _

theorem recvMsg_moves : Moves R smbSessionRecvMsg :=
  .bind hR.trans (recvInto_moves hR _) fun _ => .ite (.pure hR.refl _) (.pure hR.refl _)

/-- A reply that is checked for its status before anything else. -/
theorem checked_moves {α : Type} {resp : SmbMessage} {m n : SmbM α} (hm : Moves R m)
    (hn : Moves R n) :
    Moves R (do if !(← smbSessionCheckNtStatus resp) then m else n) := by
  refine .bind hR.trans ?_ fun _ => .ite hm hn
  exact .ite (.bind hR.trans (.modify fun s => hR.ntStatus s _) fun _ => .pure hR.refl _)
    (.pure hR.refl _)

theorem simpleReply_moves : Moves R smbSimpleReply := by
  refine .bind hR.trans (recvMsg_moves hR) fun resp => ?_
  cases resp with
  | none => exact .pure hR.refl _
  | some resp =>
    exact checked_moves hR (.pure hR.refl _)
      (.ite (.pure hR.refl _) (.ite (.pure hR.refl _) (.pure hR.refl _)))

/-! ## Connecting and logging in -/

theorem negotiate_moves : Moves R (smbNegotiate P) := by
  refine .bind hR.trans (sendMsg_moves hR _) fun _ => .ite (.pure hR.refl _) ?_
  refine .bind hR.trans (recvMsg_moves hR) fun answer => ?_
  cases answer with
  | none => exact .pure hR.refl _
  | some answer =>
    refine .ite (.pure hR.refl _) ?_
    refine checked_moves hR (.pure hR.refl _) (.ite (.pure hR.refl _) ?_)
    refine .bind hR.trans (.modify fun s => hR.server s _) fun _ => ?_
    refine .bind hR.trans (.get hR.refl) fun _ => .ite ?_ (.pure hR.refl _)
    exact .bind hR.trans (.modify fun s => hR.server s _) fun _ => .pure hR.refl _

theorem connect_moves (name : List UInt8) (transport : Option SmbTransportKind) :
    Moves R (smbSessionConnect P name transport) := by
  have hdisconnect : Moves R smbTransportDisconnect := by
    intro s
    show R s (if _ then _ else _)
    split
    · exact hR.transport s _
    · exact hR.refl s
  refine .bind hR.trans hdisconnect fun _ => ?_
  cases transport with
  | none => exact .pure hR.refl _
  | some kind =>
    refine .bind hR.trans (.modify fun s => hR.transport s _) fun _ => ?_
    refine .bind hR.trans (fun s => hR.transport s _) fun _ => .ite (.pure hR.refl _) ?_
    exact .bind hR.trans (.modify fun s => hR.server s _) fun _ => negotiate_moves hR P

theorem loggedIn_moves (action uid : UInt16) : Moves R (smbSessionLoggedIn action uid) := by
  have hlogged : Moves R (modify fun s => { s with srv := { s.srv with uid := uid }, logged := true }) :=
    .modify fun s => hR.trans (hR.server s _) (hR.login _ true s.guest)
  have hguest : Moves R (modify fun s => { s with guest := true }) := .modify fun s => hR.login s s.logged true
  exact .ite (.bind hR.trans hguest fun _ => hlogged) hlogged

theorem loginNtlm_moves (nonces : SmbNonces) (domain user password : List UInt8) :
    Moves R (smbSessionLoginNtlm P nonces domain user password) := by
  refine .bind hR.trans (.get hR.refl) fun s => ?_
  refine .bind hR.trans (sendMsg_moves hR _) fun _ => .ite (.pure hR.refl _) ?_
  refine .bind hR.trans (recvMsg_moves hR) fun answer => ?_
  cases answer with
  | none => exact .pure hR.refl _
  | some answer =>
    refine .ite (.pure hR.refl _) ?_
    refine checked_moves hR (.pure hR.refl _) ?_
    exact .bind hR.trans (loggedIn_moves hR _ _) fun _ => .pure hR.refl _

theorem spnegoNegotiate_moves (domain : List UInt8) : Moves R (spnegoNegotiate P domain) := by
  refine .bind hR.trans (.get hR.refl) fun s => ?_
  split
  · exact .bind hR.trans (sendMsg_moves hR _) fun _ => .ite (.pure hR.refl _) (.pure hR.refl _)
  · exact .pure hR.refl _

theorem spnegoChallenge_moves : Moves R (spnegoChallenge P) := by
  refine .bind hR.trans (recvMsg_moves hR) fun msg => ?_
  cases msg with
  | none => exact .pure hR.refl _
  | some msg =>
    refine .ite (.pure hR.refl _) (.ite (.pure hR.refl _) ?_)
    dsimp only
    split
    · exact .bind hR.trans (.modify fun s => hR.challenge s _ _) fun _ => .pure hR.refl _
    · exact .pure hR.refl _

theorem spnegoAuth_moves (nonces : SmbNonces) (domain user password : List UInt8) :
    Moves R (spnegoAuth P nonces domain user password) := by
  refine .bind hR.trans (.get hR.refl) fun s => ?_
  dsimp only
  split
  · refine .bind hR.trans (sendMsg_moves hR _) fun _ => .ite (.pure hR.refl _) ?_
    refine .bind hR.trans (recvMsg_moves hR) fun resp => ?_
    cases resp with
    | none => exact .pure hR.refl _
    | some resp =>
      refine checked_moves hR (.pure hR.refl _) (.ite (.pure hR.refl _) ?_)
      exact .bind hR.trans (loggedIn_moves hR _ _) fun _ => .pure hR.refl _
  · exact .pure hR.refl _

theorem loginSpnego_moves (nonces : SmbNonces) (domain user password : List UInt8) :
    Moves R (smbSessionLoginSpnego P nonces domain user password) := by
  have hinit : Moves R (initAsn1 P) := by
    refine .bind hR.trans (.get hR.refl) fun s => .ite (.pure hR.refl _) (.ite (.pure hR.refl _) ?_)
    exact .bind hR.trans (.modify fun s => hR.asn1 s _) fun _ => .pure hR.refl _
  have hexchange : Moves R (spnegoExchange P nonces domain user password) := by
    refine .bind hR.trans (spnegoNegotiate_moves hR P _) fun _ => .ite (.pure hR.refl _) ?_
    refine .bind hR.trans (spnegoChallenge_moves hR P) fun _ => .ite (.pure hR.refl _) ?_
    exact spnegoAuth_moves hR P _ _ _ _
  refine .bind hR.trans (.modify fun s => hR.server s _) fun _ => ?_
  refine .bind hR.trans hinit fun _ => .ite (.pure hR.refl _) ?_
  refine .bind hR.trans hexchange fun _ => ?_
  exact .bind hR.trans (.modify fun s => hR.asn1 s _) fun _ => .pure hR.refl _

theorem login_moves (nonces : SmbNonces) : Moves R (smbSessionLogin P nonces) := by
  refine .bind hR.trans (.get hR.refl) fun s => ?_
  split
  · exact .ite (loginSpnego_moves hR P _ _ _ _) (loginNtlm_moves hR P _ _ _ _)
  · exact .pure hR.refl _

theorem logoff_moves : Moves R (smbSessionLogoff P) := by
  refine .bind hR.trans (sendMsg_moves hR _) fun _ => .ite (.pure hR.refl _) ?_
  refine .bind hR.trans (.modify fun s => ?_) fun _ => .pure hR.refl _
  exact hR.trans (hR.server s _) (hR.login _ false false)

/-! ## Trees and files -/

theorem treeConnect_moves (name : List UInt8) : Moves R (smbTreeConnect P name) := by
  refine .bind hR.trans (.get hR.refl) fun s => ?_
  refine .bind hR.trans (sendMsg_moves hR _) fun _ => .ite (.pure hR.refl _) ?_
  refine .bind hR.trans (recvMsg_moves hR) fun resp => ?_
  cases resp with
  | none => exact .pure hR.refl _
  | some resp =>
    refine checked_moves hR (.pure hR.refl _) ?_
    cases hshare : smbTreeConnectShare resp with
    | none => exact .pure hR.refl _
    | some share =>
      have hfiles := (treeConnectShare_spec hshare).2
      exact .bind hR.trans (.modify fun s => hR.shareAdd s share hfiles) fun _ => .pure hR.refl _

theorem treeDisconnect_moves (tid : UInt16) : Moves R (smbTreeDisconnect P tid) :=
  .bind hR.trans (sendMsg_moves hR _) fun _ => .ite (.pure hR.refl _) (simpleReply_moves hR)

theorem fopen_moves (tid : UInt16) (path : List UInt8) (oFlags : UInt32) :
    Moves R (smbFopen P tid path oFlags) := by
  refine .bind hR.trans (.get hR.refl) fun s => ?_
  split
  · refine .ite (.pure hR.refl _) ?_
    refine .bind hR.trans (sendMsg_moves hR _) fun _ => .ite (.pure hR.refl _) ?_
    refine .bind hR.trans (recvMsg_moves hR) fun resp => ?_
    cases resp with
    | none => exact .pure hR.refl _
    | some resp =>
      refine checked_moves hR (.pure hR.refl _) (.ite (.pure hR.refl _) ?_)
      exact .bind hR.trans (.modify fun s => hR.fileAdd s _ _ rfl) fun _ => .pure hR.refl _
  · exact .pure hR.refl _

theorem fclose_moves (fd : UInt32) : Moves R (smbFclose P fd) := by
  have htail : Moves R (do
      let _ ← smbSessionSendMsg (smbFcloseReq P fd)
      let _ ← smbSessionRecvMsg) :=
    .bind hR.trans (sendMsg_moves hR _) fun _ =>
      .bind hR.trans (recvMsg_moves hR) fun _ => .pure hR.refl _
  -- the file removed is that of the session as it is when the call starts
  refine .ite (.pure hR.refl _) (.get_bind fun s => ?_)
  have hremove := hR.fileRemove s fd
  generalize smbSessionFileRemove s fd = r at hremove
  obtain ⟨file, s'⟩ := r
  cases file with
  | none => exact hR.refl s
  | some file =>
    have hend := @Moves.set_bind _ _ R hR.trans s s' (fun _ => do
      let _ ← smbSessionSendMsg (smbFcloseReq P fd)
      let _ ← smbSessionRecvMsg) htail hremove
    exact hend

theorem fseek_moves (fd : UInt32) (offset : Int) (whence : Option SmbSeek) :
    Moves R (smbFseek fd offset whence) := by
  refine .get_bind fun s => ?_
  cases hfile : smbSessionFileGet s fd with
  | none => exact hR.refl s
  | some file => exact hR.fileSeek s fd _ (by rw [hfile]; rfl)

theorem fread_moves (fd : UInt32) (copy : Bool) (bufSize : Nat) :
    Moves R (smbFread P fd copy bufSize) := by
  refine .bind hR.trans (.get hR.refl) fun s => ?_
  split
  · refine .bind hR.trans (sendMsg_moves hR _) fun _ => .ite (.pure hR.refl _) ?_
    refine .bind hR.trans (recvMsg_moves hR) fun resp => ?_
    cases resp with
    | none => exact .pure hR.refl _
    | some resp =>
      refine checked_moves hR (.pure hR.refl _) (.ite (.pure hR.refl _) (.ite (.pure hR.refl _) ?_))
      exact .bind hR.trans (fseek_moves hR _ _ _) fun _ => .pure hR.refl _
  · exact .pure hR.refl _

theorem fwrite_moves (fd : UInt32) (buf : List UInt8) : Moves R (smbFwrite P fd buf) := by
  refine .bind hR.trans (.get hR.refl) fun s => ?_
  split
  · refine .bind hR.trans (sendMsg_moves hR _) fun _ => .ite (.pure hR.refl _) ?_
    refine .bind hR.trans (recvMsg_moves hR) fun resp => ?_
    cases resp with
    | none => exact .pure hR.refl _
    | some resp =>
      refine checked_moves hR (.pure hR.refl _) (.ite (.pure hR.refl _) ?_)
      exact .bind hR.trans (fseek_moves hR _ _ _) fun _ => .pure hR.refl _
  · exact .pure hR.refl _

theorem fileRm_moves (tid : UInt16) (path : List UInt8) : Moves R (smbFileRm P tid path) :=
  .ite (.pure hR.refl _) (.bind hR.trans (sendMsg_moves hR _) fun _ => simpleReply_moves hR)

theorem fileMv_moves (tid : UInt16) (oldPath newPath : List UInt8) :
    Moves R (smbFileMv P tid oldPath newPath) :=
  .ite (.pure hR.refl _) (.ite (.pure hR.refl _)
    (.bind hR.trans (sendMsg_moves hR _) fun _ => simpleReply_moves hR))

theorem directoryOp_moves (cmd : UInt8) (tid : UInt16) (path : List UInt8) :
    Moves R (smbDirectoryOp P cmd tid path) :=
  .ite (.pure hR.refl _) (.bind hR.trans (sendMsg_moves hR _) fun _ => simpleReply_moves hR)

/-! ## Searches -/

theorem tr2Recv_moves : Moves R (smbTr2Recv P) :=
  .tr2Recv hR.refl hR.trans (recvMsg_moves hR) P

theorem findNext_moves (tid resumeKey sid : UInt16) (pattern : List UInt8) :
    Moves R (smbTrans2FindNext P tid resumeKey sid pattern) :=
  .ite (.pure hR.refl _) (.bind hR.trans (sendMsg_moves hR _) fun _ =>
    .ite (.pure hR.refl _) (tr2Recv_moves hR P))

theorem findLoop_moves (tid sid : UInt16) (pattern : List UInt8) (fuel : Nat)
    (endOfSearch : Bool) (resumeKey errorOffset : UInt16) (files : List SmbFile) :
    Moves R (smbFindLoop P tid sid pattern fuel endOfSearch resumeKey errorOffset files) := by
  induction fuel generalizing endOfSearch resumeKey errorOffset files with
  | zero => exact .pure hR.refl _
  | succ fuel ih =>
    refine .ite (.pure hR.refl _) (.bind hR.trans (findNext_moves hR P _ _ _ _) fun msg => ?_)
    cases msg with
    | none => exact .pure hR.refl _
    | some msg => exact ih _ _ _ _

theorem find_moves (tid : UInt16) (pattern : List UInt8) : Moves R (smbFind P tid pattern) := by
  have hfirst : Moves R (smbTrans2FindFirst P tid pattern) :=
    .ite (.pure hR.refl _) (.bind hR.trans (sendMsg_moves hR _) fun _ =>
      .ite (.pure hR.refl _) (tr2Recv_moves hR P))
  refine .bind hR.trans hfirst fun msg => ?_
  cases msg with
  | none => exact .pure hR.refl _
  | some msg =>
    exact .ite (.pure hR.refl _)
      (.bind hR.trans (.get hR.refl) fun _ => findLoop_moves hR P _ _ _ _ _ _ _ _)

theorem fstat_moves (tid : UInt16) (path : List UInt8) : Moves R (smbFstat P tid path) := by
  refine .ite (.pure hR.refl _) (.bind hR.trans (sendMsg_moves hR _) fun _ => .ite (.pure hR.refl _) ?_)
  refine .bind hR.trans (recvMsg_moves hR) fun reply => ?_
  cases reply with
  | none => exact .pure hR.refl _
  | some reply =>
    exact checked_moves hR (.pure hR.refl _)
      (.ite (.pure hR.refl _) (.ite (.pure hR.refl _) (.pure hR.refl _)))

theorem shareEnum_moves (ipcTid : UInt16) (srvsvcFd : UInt32) :
    Moves R (smbShareEnum P ipcTid srvsvcFd) := by
  refine .bind hR.trans (sendMsg_moves hR _) fun _ => .ite (.pure hR.refl _) ?_
  refine .bind hR.trans (recvInto_moves hR _) fun _ => .ite (.pure hR.refl _) (.ite (.pure hR.refl _) ?_)
  refine .bind hR.trans (.get hR.refl) fun _ => ?_
  refine .bind hR.trans (sendMsg_moves hR _) fun _ => .ite (.pure hR.refl _) ?_
  exact .bind hR.trans (recvInto_moves hR _) fun _ =>
    .ite (.pure hR.refl _) (.ite (.pure hR.refl _) (.pure hR.refl _))

theorem shareGetList_moves : Moves R (smbShareGetList P) := by
  refine .bind hR.trans (treeConnect_moves hR P _) fun ⟨ret, ipcTid⟩ => ?_
  cases ipcTid with
  | none => exact .pure hR.refl _
  | some ipcTid =>
    refine .bind hR.trans (fopen_moves hR P _ _ _) fun ⟨ret, srvsvcFd⟩ => ?_
    cases srvsvcFd with
    | none => exact .pure hR.refl _
    | some srvsvcFd =>
      refine .bind hR.trans (shareEnum_moves hR P _ _) fun _ => ?_
      exact .bind hR.trans (fclose_moves hR P _) fun _ => .pure hR.refl _

/-! ## Calls and runs -/

/-- Every public operation. -/
theorem exec_moves (op : SmbOp) : Moves R (op.exec P) := by
  cases op with
  | setCreds domain user password =>
    exact .bind hR.trans (hR.setCreds domain user password) fun _ => .pure hR.refl _
  | connect name transport => exact .bind hR.trans (connect_moves hR P _ _) fun _ => .pure hR.refl _
  | login nonces => exact .bind hR.trans (login_moves hR P _) fun _ => .pure hR.refl _
  | logoff => exact .bind hR.trans (logoff_moves hR P) fun _ => .pure hR.refl _
  | treeConnect name => exact .bind hR.trans (treeConnect_moves hR P _) fun _ => .pure hR.refl _
  | treeDisconnect tid => exact .bind hR.trans (treeDisconnect_moves hR P _) fun _ => .pure hR.refl _
  | fopen tid path oFlags => exact .bind hR.trans (fopen_moves hR P _ _ _) fun _ => .pure hR.refl _
  | fclose fd => exact .bind hR.trans (fclose_moves hR P _) fun _ => .pure hR.refl _
  | fread fd copy bufSize => exact .bind hR.trans (fread_moves hR P _ _ _) fun _ => .pure hR.refl _
  | fwrite fd buf => exact .bind hR.trans (fwrite_moves hR P _ _) fun _ => .pure hR.refl _
  | fseek fd offset whence => exact .bind hR.trans (fseek_moves hR _ _ _) fun _ => .pure hR.refl _
  | fileRm tid path => exact .bind hR.trans (fileRm_moves hR P _ _) fun _ => .pure hR.refl _
  | fileMv tid oldPath newPath => exact .bind hR.trans (fileMv_moves hR P _ _ _) fun _ => .pure hR.refl _
  | directoryRm tid path => exact .bind hR.trans (directoryOp_moves hR P _ _ _) fun _ => .pure hR.refl _
  | directoryCreate tid path =>
    exact .bind hR.trans (directoryOp_moves hR P _ _ _) fun _ => .pure hR.refl _
  | find tid pattern => exact .bind hR.trans (find_moves hR P _ _) fun _ => .pure hR.refl _
  | fstat tid path => exact .bind hR.trans (fstat_moves hR P _ _) fun _ => .pure hR.refl _
  | shareGetList => exact .bind hR.trans (shareGetList_moves hR P) fun _ => .pure hR.refl _

end

end Libdsm
