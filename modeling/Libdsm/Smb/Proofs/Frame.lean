import Libdsm.Misc.Hoare
import Libdsm.Smb.Ops

/-!
# What the operations leave alone

Most operations send and receive messages and change the last status and the open files of the
shares, and no more. `Framed f` says that `f` sees none of this; every operation then keeps `f`,
apart from the few that change more, and the lemmas for those say what they need in addition.
-/

namespace Libdsm

universe v

/-- What the program of a call does is what the call does. -/
theorem exec_spec {P : Platform} {op : SmbOp} {A : SmbSession → Prop}
    {Q : SmbResult → SmbSession → Prop} (h : Triple A (op.exec P) Q) {s : SmbSession} (hs : A s) :
    Q (op.result P s) (op.run P s) := h s hs

theorem exec_keeps {γ : Type v} {f : SmbSession → γ} {P : Platform} {op : SmbOp}
    (h : Keeps f (op.exec P)) (s : SmbSession) : f (op.run P s) = f s := h s

/-- `f` sees nothing of what the operations on files and directories change. -/
structure Framed {γ : Type v} (f : SmbSession → γ) : Prop where
  send : ∀ msg, Keeps f (smbSessionSendMsg msg)
  recv : ∀ msg, Keeps f (smbSessionRecvInto msg)
  ntStatus : ∀ s ntStatus, f { s with ntStatus } = f s
  creds : ∀ s creds, f { s with creds } = f s
  srv : ∀ s (srv : SmbSrvInfo), srv.uid = s.srv.uid → f { s with srv } = f s
  fileAdd : ∀ s tid file, f (smbSessionFileAdd s tid file) = f s
  fileRemove : ∀ s fd, f (smbSessionFileRemove s fd).2 = f s
  fileUpdate : ∀ s fd g, f (smbSessionFileUpdate s fd g) = f s

/-- Removing a file changes the shares alone. -/
theorem fileRemove_eq (s : SmbSession) (fd : UInt32) :
    ∃ shares, (smbSessionFileRemove s fd).2 = { s with shares } := by
  unfold smbSessionFileRemove
  split
  · exact ⟨s.shares, rfl⟩
  · split
    · exact ⟨s.shares, rfl⟩
    · exact ⟨_, rfl⟩

/-- What does not look at the transport sees nothing of a message. -/
theorem sendMsg_keeps {γ : Type v} {f : SmbSession → γ}
    (ht : ∀ s transport, f { s with transport } = f s) (msg : SmbMessage) :
    Keeps f (smbSessionSendMsg msg) :=
  fun s => ht s _

theorem recvInto_keeps {γ : Type v} {f : SmbSession → γ}
    (ht : ∀ s transport, f { s with transport } = f s) (msg : SmbMessage) :
    Keeps f (smbSessionRecvInto msg) :=
  fun s => ht s _

/-- The end of a login leaves the connection alone. -/
theorem loggedIn_keeps (action uid : UInt16) :
    Keeps SmbSession.tcp (smbSessionLoggedIn action uid) := by
  intro s
  unfold smbSessionLoggedIn
  split <;> rfl

/-- Where a receive takes the session along a preorder, putting an answer together does. -/
theorem Moves.tr2RecvLoop {R : SmbSession → SmbSession → Prop} (hrefl : ∀ s, R s s)
    (htrans : ∀ {a b c}, R a b → R b c → R a c) (h : Moves R smbSessionRecvMsg)
    (fuel : Nat) (remaining : Int) (res : SmbMessage) :
    Moves R (smbTr2RecvLoop fuel remaining res) := by
  induction fuel generalizing remaining res with
  | zero => exact .pure hrefl _
  | succ fuel ih =>
    refine .ite (.pure hrefl _) (.bind htrans h fun recv => ?_)
    cases recv with
    | none => exact .pure hrefl _
    | some recv => exact ih _ _

theorem Moves.tr2Recv {R : SmbSession → SmbSession → Prop} (hrefl : ∀ s, R s s)
    (htrans : ∀ {a b c}, R a b → R b c → R a c) (h : Moves R smbSessionRecvMsg) (P : Platform) :
    Moves R (smbTr2Recv P) := by
  refine .bind htrans h fun recv => ?_
  cases recv with
  | none => exact .pure hrefl _
  | some recv =>
    show Moves R (smbTr2Gather recv (smbMessageGrow P recv (smbTr2Growth recv.payload)))
    generalize smbMessageGrow P recv (smbTr2Growth recv.payload) = res
    cases res with
    | none => exact .pure hrefl _
    | some res =>
      refine .bind htrans (.get hrefl) fun _ => ?_
      exact .bind htrans (.tr2RecvLoop hrefl htrans h _ _ _) fun _ => .pure hrefl _

/-- What a receive leaves alone, putting an answer together leaves alone. -/
theorem tr2Recv_keeps {γ : Type v} {f : SmbSession → γ} (h : Keeps f smbSessionRecvMsg)
    (P : Platform) : Keeps f (smbTr2Recv P) :=
  Moves.tr2Recv (R := fun s s' => f s' = f s) (fun _ => rfl) (fun hab hbc => hbc.trans hab) h P

section

variable {γ : Type v} {f : SmbSession → γ} (hf : Framed f) (P : Platform)

include hf

/-! ## Messages -/

theorem recvMsg_keeps : Keeps f smbSessionRecvMsg :=
  (hf.recv _).bind fun _ => .ite (.pure _) (.pure _)

theorem checkNtStatus_keeps (msg : SmbMessage) : Keeps f (smbSessionCheckNtStatus msg) :=
  .ite (.bind (.modify fun s => hf.ntStatus s _) fun _ => .pure _) (.pure _)

/-- A reply that is checked for its status before anything else. -/
theorem checked_keeps {α : Type} {resp : SmbMessage} {m n : SmbM α} (hm : Keeps f m)
    (hn : Keeps f n) :
    Keeps f (do if !(← smbSessionCheckNtStatus resp) then m else n) :=
  (checkNtStatus_keeps hf resp).bind fun _ => .ite hm hn

theorem simpleReply_keeps : Keeps f smbSimpleReply := by
  refine (recvMsg_keeps hf).bind fun resp => ?_
  cases resp with
  | none => exact .pure _
  | some resp =>
    exact checked_keeps hf (.pure _) (.ite (.pure _) (.ite (.pure _) (.pure _)))

/-! ## Connecting -/

theorem negotiate_keeps : Keeps f (smbNegotiate P) := by
  refine (hf.send _).bind fun _ => .ite (.pure _) ?_
  refine (recvMsg_keeps hf).bind fun answer => ?_
  cases answer with
  | none => exact .pure _
  | some answer =>
    refine .ite (.pure _) (checked_keeps hf (.pure _) (.ite (.pure _) ?_))
    refine .bind (.modify fun s => hf.srv s _ rfl) fun _ => .bind .get fun _ => .ite ?_ (.pure _)
    exact .bind (.modify fun s => hf.srv s _ rfl) fun _ => .pure _

omit hf in
theorem transportDisconnect_keeps (ht : ∀ s transport, f { s with transport } = f s) :
    Keeps f smbTransportDisconnect := by
  intro s
  show f (if _ then _ else _) = f s
  split
  · exact ht s _
  · rfl

theorem connect_keeps (ht : ∀ s transport, f { s with transport } = f s) (name : List UInt8)
    (transport : Option SmbTransportKind) : Keeps f (smbSessionConnect P name transport) := by
  refine (transportDisconnect_keeps ht).bind fun _ => ?_
  cases transport with
  | none => exact .pure _
  | some kind =>
    refine .bind (.modify fun s => ht s _) fun _ => ?_
    refine .bind (fun s => ht s _) fun _ => .ite (.pure _) ?_
    exact .bind (.modify fun s => hf.srv s _ rfl) fun _ => negotiate_keeps hf P

/-! ## Trees and files -/

theorem treeConnect_keeps (hadd : ∀ s share, f (smbSessionShareAdd s share) = f s)
    (name : List UInt8) : Keeps f (smbTreeConnect P name) := by
  refine .bind .get fun s => (hf.send _).bind fun _ => .ite (.pure _) ?_
  refine (recvMsg_keeps hf).bind fun resp => ?_
  cases resp with
  | none => exact .pure _
  | some resp =>
    refine checked_keeps hf (.pure _) ?_
    split
    · exact .bind (.modify fun s => hadd s _) fun _ => .pure _
    · exact .pure _

theorem treeDisconnect_keeps (tid : UInt16) : Keeps f (smbTreeDisconnect P tid) :=
  (hf.send _).bind fun _ => .ite (.pure _) (simpleReply_keeps hf)

theorem fopen_keeps (tid : UInt16) (path : List UInt8) (oFlags : UInt32) :
    Keeps f (smbFopen P tid path oFlags) := by
  refine .bind .get fun s => ?_
  split
  · refine .ite (.pure _) ((hf.send _).bind fun _ => .ite (.pure _) ?_)
    refine (recvMsg_keeps hf).bind fun resp => ?_
    cases resp with
    | none => exact .pure _
    | some resp =>
      refine checked_keeps hf (.pure _) (.ite (.pure _) ?_)
      exact .bind (.modify fun s => hf.fileAdd s _ _) fun _ => .pure _
  · exact .pure _

theorem fclose_keeps (fd : UInt32) : Keeps f (smbFclose P fd) := by
  have htail : Keeps f (do
      let _ ← smbSessionSendMsg (smbFcloseReq P fd)
      let _ ← smbSessionRecvMsg) :=
    (hf.send _).bind fun _ => (recvMsg_keeps hf).bind fun _ => .pure _
  -- the file removed is that of the session as it is when the call starts
  refine .ite (.pure _) (.get_bind fun s => ?_)
  have hremove := hf.fileRemove s fd
  generalize smbSessionFileRemove s fd = r at hremove
  obtain ⟨file, s'⟩ := r
  cases file with
  | none => rfl
  | some file => exact Keeps.set_bind htail hremove

theorem fseek_keeps (fd : UInt32) (offset : Int) (whence : Option SmbSeek) :
    Keeps f (smbFseek fd offset whence) := by
  refine .bind .get fun s => ?_
  split
  · exact .bind (.modify fun s => hf.fileUpdate s _ _) fun _ => .pure _
  · exact .pure _

theorem fread_keeps (fd : UInt32) (copy : Bool) (bufSize : Nat) :
    Keeps f (smbFread P fd copy bufSize) := by
  refine .bind .get fun s => ?_
  split
  · refine (hf.send _).bind fun _ => .ite (.pure _) ?_
    refine (recvMsg_keeps hf).bind fun resp => ?_
    cases resp with
    | none => exact .pure _
    | some resp =>
      refine checked_keeps hf (.pure _) (.ite (.pure _) (.ite (.pure _) ?_))
      exact (fseek_keeps hf _ _ _).bind fun _ => .pure _
  · exact .pure _

theorem fwrite_keeps (fd : UInt32) (buf : List UInt8) : Keeps f (smbFwrite P fd buf) := by
  refine .bind .get fun s => ?_
  split
  · refine (hf.send _).bind fun _ => .ite (.pure _) ?_
    refine (recvMsg_keeps hf).bind fun resp => ?_
    cases resp with
    | none => exact .pure _
    | some resp =>
      refine checked_keeps hf (.pure _) (.ite (.pure _) ?_)
      exact (fseek_keeps hf _ _ _).bind fun _ => .pure _
  · exact .pure _

theorem fileRm_keeps (tid : UInt16) (path : List UInt8) : Keeps f (smbFileRm P tid path) :=
  .ite (.pure _) ((hf.send _).bind fun _ => simpleReply_keeps hf)

theorem fileMv_keeps (tid : UInt16) (oldPath newPath : List UInt8) :
    Keeps f (smbFileMv P tid oldPath newPath) :=
  .ite (.pure _) (.ite (.pure _) ((hf.send _).bind fun _ => simpleReply_keeps hf))

theorem directoryOp_keeps (cmd : UInt8) (tid : UInt16) (path : List UInt8) :
    Keeps f (smbDirectoryOp P cmd tid path) :=
  .ite (.pure _) ((hf.send _).bind fun _ => simpleReply_keeps hf)

/-! ## Searches -/

theorem findFirst_keeps (tid : UInt16) (pattern : List UInt8) :
    Keeps f (smbTrans2FindFirst P tid pattern) :=
  .ite (.pure _) ((hf.send _).bind fun _ => .ite (.pure _) (tr2Recv_keeps (recvMsg_keeps hf) P))

theorem findNext_keeps (tid resumeKey sid : UInt16) (pattern : List UInt8) :
    Keeps f (smbTrans2FindNext P tid resumeKey sid pattern) :=
  .ite (.pure _) ((hf.send _).bind fun _ => .ite (.pure _) (tr2Recv_keeps (recvMsg_keeps hf) P))

theorem findLoop_keeps (tid sid : UInt16) (pattern : List UInt8) (fuel : Nat)
    (endOfSearch : Bool) (resumeKey errorOffset : UInt16) (files : List SmbFile) :
    Keeps f (smbFindLoop P tid sid pattern fuel endOfSearch resumeKey errorOffset files) := by
  induction fuel generalizing endOfSearch resumeKey errorOffset files with
  | zero => exact .pure _
  | succ fuel ih =>
    refine .ite (.pure _) ((findNext_keeps hf P _ _ _ _).bind fun msg => ?_)
    cases msg with
    | none => exact .pure _
    | some msg => exact ih _ _ _ _

theorem find_keeps (tid : UInt16) (pattern : List UInt8) : Keeps f (smbFind P tid pattern) := by
  refine (findFirst_keeps hf P _ _).bind fun msg => ?_
  cases msg with
  | none => exact .pure _
  | some msg => exact .ite (.pure _) (.bind .get fun _ => findLoop_keeps hf P _ _ _ _ _ _ _ _)

theorem fstat_keeps (tid : UInt16) (path : List UInt8) : Keeps f (smbFstat P tid path) := by
  refine .ite (.pure _) ((hf.send _).bind fun _ => .ite (.pure _) ?_)
  refine (recvMsg_keeps hf).bind fun reply => ?_
  cases reply with
  | none => exact .pure _
  | some reply =>
    exact checked_keeps hf (.pure _) (.ite (.pure _) (.ite (.pure _) (.pure _)))

/-! ## Listing the shares -/

theorem shareEnum_keeps (ipcTid : UInt16) (srvsvcFd : UInt32) :
    Keeps f (smbShareEnum P ipcTid srvsvcFd) := by
  refine (hf.send _).bind fun _ => .ite (.pure _) ?_
  refine (hf.recv _).bind fun _ => .ite (.pure _) (.ite (.pure _) ?_)
  refine .bind .get fun _ => (hf.send _).bind fun _ => .ite (.pure _) ?_
  exact (hf.recv _).bind fun _ => .ite (.pure _) (.ite (.pure _) (.pure _))

theorem shareGetList_keeps (hadd : ∀ s share, f (smbSessionShareAdd s share) = f s) :
    Keeps f (smbShareGetList P) := by
  refine (treeConnect_keeps hf P hadd _).bind fun ⟨ret, ipcTid⟩ => ?_
  cases ipcTid with
  | none => exact .pure _
  | some ipcTid =>
    refine (fopen_keeps hf P _ _ _).bind fun ⟨ret, srvsvcFd⟩ => ?_
    cases srvsvcFd with
    | none => exact .pure _
    | some srvsvcFd =>
      exact (shareEnum_keeps hf P _ _).bind fun _ => (fclose_keeps hf P _).bind fun _ => .pure _

end

end Libdsm
