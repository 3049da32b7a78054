import Libdsm.Smb.Proofs.Request
import Libdsm.Smb.Proofs.Transfer
import Mathlib.Logic.Function.Basic

/-!
# Descriptors and the files they stand for

Over a run of tree connects, opens and closes, the descriptors that are open are known from the
calls, and the file of each from the reply that opened it. The table of a session agrees with that
as long as two things do not happen: the server opens a file with fid 0 on the tree 0, whose
descriptor is the one that stands for no file; and a close walks past the head of a share's list,
where the file ids are compared with the id of the share.
-/

namespace Libdsm

variable (P : Platform)

/-! ## Open files by the history of the calls -/

/-- The open files, by descriptor. -/
abbrev OpenFiles := UInt32 → Option SmbFile

/-- The open files after one more call, by what the call returned and the last reply. -/
def openAfter (files : OpenFiles) (op : SmbOp) (r : SmbResult) (reply : List UInt8) : OpenFiles :=
  match op, r with
  | .fopen tid _ _, .file .success (some fd) =>
    Function.update files fd (some (fileOfReply tid reply))
  | .fclose fd, _ => Function.update files fd none
  | _, _ => files

/-- The session and the open files, one call on. -/
def openStep (st : SmbSession × OpenFiles) (op : SmbOp) : SmbSession × OpenFiles :=
  (op.run P st.1, openAfter st.2 op (op.result P st.1) (op.run P st.1).lastReply)

/-- The calls that connect trees, and open and close files on them. -/
def SmbOp.isDescriptorOp : SmbOp → Bool
  | .treeConnect _ | .fopen .. | .fclose _ => true
  | _ => false

/-- What the server promises: a file it opens has a fid that no open file of the share has. -/
structure OpenPromise (st : SmbSession × OpenFiles) (op : SmbOp) : Prop where
  descriptorOp : op.isDescriptorOp = true
  fresh : ∀ tid path oFlags fd, op = .fopen tid path oFlags →
    op.result P st.1 = .file .success (some fd) →
    ∀ other file, st.2 other = some file → file.tid = tid →
      file.fid ≠ (fileOfReply tid (op.run P st.1).lastReply).fid

/-! ## The law -/

/-- All files of the table. -/
def SmbSession.files (s : SmbSession) : List SmbFile := s.shares.flatMap (·.files)

/-- The table has lost this file and no other. -/
def TakenOut (file : SmbFile) (s s' : SmbSession) : Prop :=
  ∃ pre post, s.files = pre ++ file :: post ∧ s'.files = pre ++ post

/-- The frame is the request to close this file. -/
structure CloseRequest (file : SmbFile) (frame : List UInt8) : Prop where
  command : requestCommand (frameMessage frame) = smbCmdClose
  tid : replyTid (frameMessage frame) = file.tid
  fid : replyU16 (frameMessage frame) (smbHeaderSize + 1) = file.fid

/-- What a call from `s` to `s'` keeps right: every descriptor finds the file it stands for, and no
other descriptor finds one; a file opened has got a descriptor that is not zero and was free; and a
file closed has left the table, with one request to close it. -/
structure DescriptorsRight (s s' : SmbSession) (files files' : OpenFiles) (op : SmbOp)
    (r : SmbResult) (offered : List (List UInt8)) : Prop where
  found : ∀ fd, smbSessionFileGet s' fd = files' fd
  opened : ∀ fd, r = .file .success (some fd) → fd ≠ 0 ∧ files fd = none
  closed : ∀ fd file, op = .fclose fd → files fd = some file →
    TakenOut file s s' ∧ ∃ frame, offered = [frame] ∧ CloseRequest file frame

/-- The law at one call of a run. -/
def DescriptorStep (st : SmbSession × OpenFiles) (op : SmbOp) : Prop :=
  DescriptorsRight st.1 (op.run P st.1) st.2 (openStep P st op).2 op (op.result P st.1)
    (op.offered P st.1)

/-- The call stays clear of the defects. -/
def DescriptorClear (st : SmbSession × OpenFiles) (op : SmbOp) : Prop :=
  match op with
  | .fopen tid _ _ => ∀ fd, op.result P st.1 = .file .success (some fd) → tid = 0 →
      (fileOfReply tid (op.run P st.1).lastReply).fid ≠ 0
  | .fclose fd => fd = 0 ∨ ∀ share, smbSessionShareGet st.1 (smbFdTid fd) = some share →
      RemoveClear fd share.files
  | _ => True

/-- The table holds the open files and no two of them under one descriptor. -/
structure OpenInv (s : SmbSession) (files : OpenFiles) : Prop where
  found : ∀ fd, smbSessionFileGet s fd = files fd
  tids : TidsMatch s
  nodup : ∀ share ∈ s.shares, (share.files.map (·.fid)).Nodup
  zero : filesFind s.shares 0 0 = none
  ready : s.transport.session.ready = true

/-! ## Connecting a tree and opening a file -/

section

variable {s s' : SmbSession} {files : OpenFiles} (h : OpenInv s files)

include h

/-- A call that leaves the table alone keeps the invariant. -/
theorem OpenInv.congr (hshares : s'.shares = s.shares)
    (hready : s'.transport.session.ready = s.transport.session.ready) : OpenInv s' files where
  found fd := by
    rw [fileGet_congr hshares]
    exact h.found fd
  tids := h.tids.congr hshares
  nodup := by
    rw [hshares]
    exact h.nodup
  zero := by
    rw [hshares]
    exact h.zero
  ready := hready.trans h.ready

theorem OpenInv.treeConnected {r : SmbResult} (hend : TreeConnected s.shares r s')
    (hready : s'.transport.session.ready = s.transport.session.ready) : OpenInv s' files := by
  rcases hend with ⟨share, -, hempty, hshares⟩ | ⟨code, -, hshares⟩
  · -- the share that is added has no files
    have hfind := filesFind_shareAdd s.shares hempty
    have hget : ∀ fd, smbSessionFileGet s' fd = smbSessionFileGet s fd := by
      intro fd
      by_cases hzero : fd = 0
      · rw [hzero, fileGet_zero, fileGet_zero]
      · rw [fileGet_eq _ hzero, hshares, hfind, fileGet_eq _ hzero]
    refine ⟨fun fd => ?_, fun fd file hfile => ?_, fun other hother => ?_, ?_, hready.trans h.ready⟩
    · rw [hget]
      exact h.found fd
    · rw [hget] at hfile
      exact h.tids fd file hfile
    · rw [hshares, List.mem_append, List.mem_singleton] at hother
      rcases hother with hold | rfl
      · exact h.nodup other hold
      · rw [hempty]
        exact List.nodup_nil
    · rw [hshares, hfind]
      exact h.zero
  · exact h.congr hshares hready

/-- A pair of ids that no open file has is free in the table. -/
theorem OpenInv.free {tid fid : UInt16}
    (hfresh : ∀ other file, files other = some file → file.tid = tid → file.fid ≠ fid) :
    filesFind s.shares tid fid = none := by
  by_cases hzero : smbFd tid fid = 0
  · obtain ⟨rfl, rfl⟩ := (smbFd_eq_zero tid fid).mp hzero
    exact h.zero
  · rw [Option.eq_none_iff_forall_ne_some]
    intro file hfile
    have hget : smbSessionFileGet s (smbFd tid fid) = some file := by
      rw [fileGet_eq s hzero, smbFdTid_smbFd, smbFdFid_smbFd]
      exact hfile
    have htid := h.tids _ _ hget
    have hfid := fileGet_fid hget
    rw [smbFdTid_smbFd] at htid
    rw [smbFdFid_smbFd] at hfid
    rw [h.found] at hget
    exact hfresh _ _ hget htid hfid

theorem OpenInv.fileAdded {tid : UInt16} {file : SmbFile} (hfd : smbFd tid file.fid ≠ 0)
    (hmem : tid ∈ s.shares.map (·.tid)) (htid : file.tid = tid)
    (hnone : filesFind s.shares tid file.fid = none)
    (hshares : s'.shares =
      updateShare tid (fun share => { share with files := share.files ++ [file] }) s.shares)
    (hready : s'.transport.session.ready = s.transport.session.ready) :
    OpenInv s' (Function.update files (smbFd tid file.fid) (some file)) := by
  have hget := fileGet_fileAdd hfd hmem hnone hshares
  refine ⟨fun fd => ?_, fun fd other hother => ?_, fun share hshare => ?_, ?_, hready.trans h.ready⟩
  · rw [hget]
    by_cases heq : fd = smbFd tid file.fid
    · rw [heq, if_pos rfl, Function.update_self]
    · rw [if_neg heq, Function.update_of_ne heq]
      exact h.found fd
  · rw [hget] at hother
    split at hother
    · rename_i heq
      rw [heq, smbFdTid_smbFd, ← Option.some.inj hother, htid]
    · exact h.tids fd other hother
  · rw [hshares] at hshare
    rcases mem_updateShare hshare with hold | ⟨old, hold, rfl⟩
    · exact h.nodup share hold
    · -- the share had no file of this fid
      rw [filesFind, hold, Option.bind_some, List.find?_eq_none] at hnone
      rw [List.map_append, List.nodup_append]
      refine ⟨h.nodup old (List.mem_of_find?_eq_some hold), by simp, ?_⟩
      intro a ha b hb heq
      obtain ⟨other, hmem, rfl⟩ := List.mem_map.mp ha
      have hfid : other.fid = file.fid := by
        rw [heq]
        simpa using hb
      exact hnone other hmem (by simpa using hfid)
  · rw [filesFind_fileAdd hmem hnone hshares, if_neg]
    · exact h.zero
    · rintro ⟨rfl, hfid⟩
      exact hfd ((smbFd_eq_zero _ _).mpr ⟨rfl, hfid.symm⟩)

end

/-! ## Closing a file -/

/-- How `smb_fclose` ends: with nothing done, or the file removed and a request sent. -/
def FcloseEnds (s : SmbSession) (fd : UInt32) (r : SmbResult) (s' : SmbSession) : Prop :=
  r = .done ∧
    (((fd = 0 ∨ (smbSessionFileRemove s fd).1 = none) ∧ s' = s) ∨
      (fd ≠ 0 ∧ (smbSessionFileRemove s fd).1.isSome ∧
        ∃ got, Exchanged (smbSessionFileRemove s fd).2 (smbFcloseReq P fd) got s'))

theorem fclose_exec (s : SmbSession) (fd : UInt32) :
    Triple (· = s) (SmbOp.exec P (.fclose fd)) (FcloseEnds P s fd) := by
  refine .bind (Q := fun _ s' => FcloseEnds P s fd .done s') ?_ fun _ => .pure fun s' h => h
  refine .ite (fun hzero => ?_) fun hfd => .get_bind_at ?_
  · exact .pure fun s' h => ⟨rfl, .inl ⟨.inl hzero, h⟩⟩
  · dsimp only
    cases hremove : (smbSessionFileRemove s fd).1 with
    | none => exact .pure fun s' h => ⟨rfl, .inl ⟨.inr hremove, h⟩⟩
    | some file =>
      have hset : Triple (· = s) (set (smbSessionFileRemove s fd).2 : SmbM PUnit)
          fun _ s' => s' = (smbSessionFileRemove s fd).2 := fun _ _ => rfl
      refine .bind hset fun _ => .bind sendMsg_exchanged fun _ => .bind recvMsg_exchanged fun _ => ?_
      refine .pure fun s' h => ⟨rfl, .inr ⟨hfd, by rw [hremove]; rfl, ?_⟩⟩
      rcases h with ⟨-, event, -, hexchanged⟩ | ⟨_, opcode, reply, -, -, hexchanged⟩
      · exact ⟨_, hexchanged⟩
      · exact ⟨_, hexchanged⟩

/-- The request of `smb_fclose`. -/
theorem fcloseReq_closes (s : SmbSession) {fd : UInt32} {file : SmbFile}
    (htid : file.tid = smbFdTid fd) (hfid : file.fid = smbFdFid fd) :
    CloseRequest file (s.requestFrame (smbFcloseReq P fd)) := by
  have hbuilt : ∃ r : SmbCloseReq, smbFcloseReq P fd =
        smbMessageAppend ((smbMessageNew P smbCmdClose).setTid (smbFdTid fd)) r.bytes ∧
      r.fid = smbFdFid fd := ⟨_, rfl, rfl⟩
  obtain ⟨r, hreq, hrfid⟩ := hbuilt
  have hlength : r.bytes.length = 9 := by simp [SmbCloseReq.bytes]
  have hcarries := (Carries.new P smbCmdClose (smbFdTid fd)).append r.bytes (by rw [hlength]; decide)
  rw [List.nil_append] at hcarries
  rw [hreq]
  obtain ⟨hcommand, hmtid, hcontent⟩ := hcarries.frame s (by rw [hlength]; decide)
  refine ⟨hcommand, by rw [hmtid, htid], ?_⟩
  rw [hfid, ← hrfid]
  apply replyU16_payload
  rw [hcontent]
  rfl

section

variable {s s' : SmbSession} {files : OpenFiles} {fd : UInt32} {r : SmbResult}

/-- The shares that a close leaves, when the share of the descriptor is there. -/
theorem FcloseEnds.lookup (hend : FcloseEnds P s fd r s') (hfd : fd ≠ 0) {share : SmbShare}
    (hshare : smbSessionShareGet s (smbFdTid fd) = some share) (other fid : UInt16) :
    filesFind s'.shares other fid =
      if other = smbFdTid fd then
        (removeFile fd share.files).2.find? fun file => file.fid = fid
      else filesFind s.shares other fid := by
  have hremove := fileRemove_share hfd hshare
  rcases hend with ⟨-, ⟨hzero | hnone, rfl⟩ | ⟨-, -, got, hexchanged⟩⟩
  · exact absurd hzero hfd
  · rw [hremove] at hnone
    by_cases hother : other = smbFdTid fd
    · rw [if_pos hother, removeFile_none hnone, hother, filesFind]
      rw [smbSessionShareGet] at hshare
      rw [hshare]
      rfl
    · rw [if_neg hother]
  · rw [hexchanged.shares, hremove]
    exact filesFind_replace hshare _ other fid

/-- A close that finds no share does nothing. -/
theorem FcloseEnds.no_share (hend : FcloseEnds P s fd r s')
    (hnone : fd = 0 ∨ smbSessionShareGet s (smbFdTid fd) = none) : s' = s := by
  rcases hend with ⟨-, ⟨-, rfl⟩ | ⟨hfd, hsome, -⟩⟩
  · rfl
  · rcases hnone with hzero | hshare
    · exact absurd hzero hfd
    · rw [smbSessionFileRemove, if_neg hfd, hshare] at hsome
      cases hsome

variable (h : OpenInv s files)

include h

/-- A close without a share to look in leaves the open files as they are. -/
theorem OpenInv.update_none (hnone : fd = 0 ∨ smbSessionShareGet s (smbFdTid fd) = none) :
    Function.update files fd none = files := by
  have hget : smbSessionFileGet s fd = none := by
    rcases hnone with hzero | hshare
    · rw [hzero, fileGet_zero]
    · unfold smbSessionFileGet
      split
      · rfl
      · rw [hshare]
  rw [h.found] at hget
  rw [← hget, Function.update_eq_self]

/-- Where the walk is clear, the lookups after a close see exactly its descriptor gone. -/
theorem OpenInv.closed_found (hend : FcloseEnds P s fd r s') (hfd : fd ≠ 0) {share : SmbShare}
    (hshare : smbSessionShareGet s (smbFdTid fd) = some share) (hclear : RemoveClear fd share.files)
    (other : UInt32) :
    smbSessionFileGet s' other = Function.update files fd none other := by
  have hnodup := h.nodup share (List.mem_of_find?_eq_some hshare)
  by_cases hzero : other = 0
  · rw [hzero, fileGet_zero, Function.update_of_ne (Ne.symm hfd), ← h.found, fileGet_zero]
  · rw [fileGet_eq _ hzero, hend.lookup P hfd hshare, removeFile_of_clear hclear, takeFile]
    dsimp only
    rw [find?_eraseP_fid hnodup]
    have hfound := h.found other
    rw [fileGet_eq _ hzero, filesFind] at hfound
    by_cases htid : smbFdTid other = smbFdTid fd
    · rw [if_pos htid]
      by_cases hfid : smbFdFid other = smbFdFid fd
      · have heq : other = fd := by rw [← smbFd_parts other, htid, hfid, smbFd_parts]
        rw [if_pos hfid, heq, Function.update_self]
      · have hne : other ≠ fd := fun heq => hfid (by rw [heq])
        rw [smbSessionShareGet] at hshare
        rw [htid, hshare, Option.bind_some] at hfound
        rw [if_neg hfid, Function.update_of_ne hne, hfound]
    · have hne : other ≠ fd := fun heq => htid (by rw [heq])
      rw [if_neg htid, Function.update_of_ne hne, ← hfound]
      rfl

/-- A walk that is not clear shows in a lookup. -/
theorem OpenInv.clear_of_found (hend : FcloseEnds P s fd r s') (hfd : fd ≠ 0) {share : SmbShare}
    (hshare : smbSessionShareGet s (smbFdTid fd) = some share)
    (hfound : ∀ other, smbSessionFileGet s' other = Function.update files fd none other) :
    RemoveClear fd share.files := by
  by_contra hclear
  have hnodup := h.nodup share (List.mem_of_find?_eq_some hshare)
  obtain ⟨fid, hsome, hwrong⟩ := removeFile_of_not_clear hnodup hclear
  have hfind : filesFind s.shares (smbFdTid fd) fid =
      share.files.find? fun file => file.fid = fid := by
    rw [smbSessionShareGet] at hshare
    rw [filesFind, hshare]
    rfl
  have hnonzero : smbFd (smbFdTid fd) fid ≠ 0 := by
    intro hzero
    obtain ⟨htid, hfid⟩ := (smbFd_eq_zero _ _).mp hzero
    rw [← hfind, htid, hfid, h.zero] at hsome
    cases hsome
  have hlookup := hfound (smbFd (smbFdTid fd) fid)
  rw [fileGet_eq _ hnonzero, smbFdTid_smbFd, smbFdFid_smbFd, hend.lookup P hfd hshare,
    if_pos rfl] at hlookup
  apply hwrong
  rw [hlookup]
  by_cases hfid : fid = smbFdFid fd
  · rw [if_pos hfid, hfid, smbFd_parts, Function.update_self]
  · have hne : smbFd (smbFdTid fd) fid ≠ fd := by
      intro heq
      exact hfid (by rw [← heq, smbFdFid_smbFd])
    rw [if_neg hfid, Function.update_of_ne hne, ← h.found, fileGet_eq _ hnonzero,
      smbFdTid_smbFd, smbFdFid_smbFd, hfind]

theorem OpenInv.fileClosed (hend : FcloseEnds P s fd r s') (hfd : fd ≠ 0) {share : SmbShare}
    (hshare : smbSessionShareGet s (smbFdTid fd) = some share) (hclear : RemoveClear fd share.files)
    (hready : s'.transport.session.ready = s.transport.session.ready) :
    OpenInv s' (Function.update files fd none) := by
  have hfound := h.closed_found P hend hfd hshare hclear
  have hnodup := h.nodup share (List.mem_of_find?_eq_some hshare)
  refine ⟨hfound, fun other file hfile => ?_, fun share' hshare' => ?_, ?_, hready.trans h.ready⟩
  · rw [hfound] at hfile
    by_cases heq : other = fd
    · rw [heq, Function.update_self] at hfile
      cases hfile
    · rw [Function.update_of_ne heq, ← h.found] at hfile
      exact h.tids other file hfile
  · rcases hend with ⟨-, ⟨-, rfl⟩ | ⟨-, -, got, hexchanged⟩⟩
    · exact h.nodup share' hshare'
    · rw [hexchanged.shares, fileRemove_share hfd hshare] at hshare'
      rcases mem_updateShare hshare' with hold | ⟨old, -, rfl⟩
      · exact h.nodup share' hold
      · rw [removeFile_of_clear hclear, takeFile]
        exact hnodup.sublist ((List.eraseP_sublist).map _)
  · rw [hend.lookup P hfd hshare]
    split
    · rename_i htid
      have hfiles : share.files.find? (fun file => file.fid = 0) = none := by
        have hzero := h.zero
        rw [smbSessionShareGet, ← htid] at hshare
        rw [filesFind, hshare] at hzero
        exact hzero
      rw [removeFile_of_clear hclear, takeFile]
      dsimp only
      rw [find?_eraseP_fid hnodup]
      split
      · rfl
      · exact hfiles
    · exact h.zero

/-- The file of an open descriptor that is closed leaves the table, with its request. -/
theorem OpenInv.closed_file {op : SmbOp} (hrun : op.run P s = s') (hend : FcloseEnds P s fd r s')
    (hclear : ∀ share, smbSessionShareGet s (smbFdTid fd) = some share → RemoveClear fd share.files)
    {file : SmbFile} (hfile : files fd = some file) :
    TakenOut file s s' ∧ ∃ frame, op.offered P s = [frame] ∧ CloseRequest file frame := by
  rw [← h.found] at hfile
  have hfd := fileGet_ne_zero hfile
  have htid := h.tids fd file hfile
  have hfid := fileGet_fid hfile
  rw [fileGet_eq s hfd, filesFind, Option.bind_eq_some_iff] at hfile
  obtain ⟨share, hshare, hfind⟩ := hfile
  have hremove := fileRemove_share hfd hshare
  rw [removeFile_of_clear (hclear share hshare), takeFile, hfind] at hremove
  rcases hend with ⟨-, ⟨hzero | hnone, -⟩ | ⟨-, -, got, hexchanged⟩⟩
  · exact absurd hzero hfd
  · rw [hremove] at hnone
    cases hnone
  rw [hremove] at hexchanged
  have hlog : (op.run P s).tcp.log = s'.tcp.log := by rw [hrun]
  have hoffered := (hexchanged.offered_eq hlog rfl).trans (if_pos h.ready)
  refine ⟨?_, _, hoffered, fcloseReq_closes P _ htid hfid⟩
  · -- the share is the first of its tid, and the file the first of its fid
    obtain ⟨hmatch, before, after, hshares, hbefore⟩ := List.find?_eq_some_iff_append.mp hshare
    obtain ⟨hmatch', front, back, hfiles, hfront⟩ := List.find?_eq_some_iff_append.mp hfind
    have herase : (share.files.eraseP fun file => file.fid = smbFdFid fd) = front ++ back := by
      rw [hfiles, List.eraseP_append_right _ fun f hf => by simpa using hfront f hf,
        List.eraseP_cons_of_pos (by simpa using hmatch')]
    refine ⟨before.flatMap (·.files) ++ front, back ++ after.flatMap (·.files), ?_, ?_⟩
    · rw [SmbSession.files, hshares, List.flatMap_append, List.flatMap_cons, hfiles]
      simp
    · rw [SmbSession.files, hexchanged.shares, hshares,
        updateShare_first _ (fun other ho => by simpa using hbefore other ho) (by simpa using hmatch),
        List.flatMap_append, List.flatMap_cons, herase]
      simp

end

/-! ## Runs -/

section

variable {st : SmbSession × OpenFiles} (h : OpenInv st.1 st.2)

include h

theorem treeConnect_right (name : List UInt8) :
    DescriptorStep P st (.treeConnect name) ∧
      OpenInv (openStep P st (.treeConnect name)).1 (openStep P st (.treeConnect name)).2 := by
  have hkeeps : Keeps (fun s => s.transport.session.ready) (SmbOp.exec P (.treeConnect name)) :=
    (treeConnect_keeps ready_framed P (fun _ _ => rfl) name).bind fun _ => .pure _
  have hready := exec_keeps hkeeps st.1
  have hend := exec_spec (treeConnect_exec P name) (s := st.1) rfl
  rw [DescriptorStep, openStep]
  dsimp only
  generalize SmbOp.run P st.1 (.treeConnect name) = s' at *
  generalize SmbOp.result P st.1 (.treeConnect name) = r at *
  have hinv := h.treeConnected hend hready
  have hafter : openAfter st.2 (.treeConnect name) r s'.lastReply = st.2 := rfl
  rw [hafter]
  refine ⟨⟨hinv.found, fun fd hres => ?_, fun _ _ hop => by cases hop⟩, hinv⟩
  rcases hend with ⟨share, hr, -⟩ | ⟨code, hr, -⟩
  · rw [hres] at hr
    cases hr
  · rw [hres] at hr
    cases hr

theorem fopen_right_iff {tid : UInt16} {path : List UInt8} {oFlags : UInt32}
    (hp : OpenPromise P st (.fopen tid path oFlags)) :
    (DescriptorStep P st (.fopen tid path oFlags) ↔ DescriptorClear P st (.fopen tid path oFlags)) ∧
      (DescriptorClear P st (.fopen tid path oFlags) →
        OpenInv (openStep P st (.fopen tid path oFlags)).1
          (openStep P st (.fopen tid path oFlags)).2) := by
  have hkeeps : Keeps (fun s => s.transport.session.ready)
      (SmbOp.exec P (.fopen tid path oFlags)) :=
    (fopen_keeps ready_framed P tid path oFlags).bind fun _ => .pure _
  have hready := exec_keeps hkeeps st.1
  have hend := exec_spec (fopen_exec P tid path oFlags) (s := st.1) rfl
  have hfresh := hp.fresh tid path oFlags
  rw [DescriptorStep, openStep, DescriptorClear]
  dsimp only
  generalize SmbOp.run P st.1 (.fopen tid path oFlags) = s' at *
  generalize SmbOp.result P st.1 (.fopen tid path oFlags) = r at *
  generalize SmbOp.offered P st.1 (.fopen tid path oFlags) = offered at *
  rcases hend with ⟨file, rfl, hmem, rfl, hshares⟩ | ⟨code, rfl, hshares⟩
  · have hafter : openAfter st.2 (.fopen tid path oFlags)
        (.file .success (some (smbFd tid (fileOfReply tid s'.lastReply).fid))) s'.lastReply =
        Function.update st.2 (smbFd tid (fileOfReply tid s'.lastReply).fid)
          (some (fileOfReply tid s'.lastReply)) := rfl
    rw [hafter]
    have hnone := h.free fun other file hfile htid => hfresh _ rfl rfl other file hfile htid
    have htid : (fileOfReply tid s'.lastReply).tid = tid := rfl
    generalize fileOfReply tid s'.lastReply = file at *
    -- the descriptor is zero exactly if both ids are
    have hfd : smbFd tid file.fid ≠ 0 ↔ (tid = 0 → file.fid ≠ 0) := by
      rw [ne_eq, smbFd_eq_zero, not_and]
    have hinv : (tid = 0 → file.fid ≠ 0) →
        OpenInv s' (Function.update st.2 (smbFd tid file.fid) (some file)) := fun hclear =>
      h.fileAdded (hfd.mpr hclear) hmem htid hnone hshares hready
    refine ⟨⟨fun hright _ _ => ?_, fun hclear => ?_⟩, fun hclear => hinv (hclear _ rfl)⟩
    · exact hfd.mp (hright.opened _ rfl).1
    · have hnonzero := hfd.mpr (hclear _ rfl)
      refine ⟨(hinv (hclear _ rfl)).found, fun fd hres => ?_, fun _ _ hop => by cases hop⟩
      cases hres
      refine ⟨hnonzero, ?_⟩
      rw [← h.found, fileGet_eq _ hnonzero, smbFdTid_smbFd, smbFdFid_smbFd]
      exact hnone
  · have hafter : openAfter st.2 (.fopen tid path oFlags) (.file code none) s'.lastReply = st.2 := by
      cases code <;> rfl
    rw [hafter]
    have hinv := h.congr hshares hready
    refine ⟨⟨fun _ _ hres => (by cases hres), fun _ => ?_⟩, fun _ => hinv⟩
    exact ⟨hinv.found, fun _ hres => (by cases hres), fun _ _ hop => by cases hop⟩

theorem fclose_right_iff (fd : UInt32) :
    (DescriptorStep P st (.fclose fd) ↔ DescriptorClear P st (.fclose fd)) ∧
      (DescriptorClear P st (.fclose fd) →
        OpenInv (openStep P st (.fclose fd)).1 (openStep P st (.fclose fd)).2) := by
  have hkeeps : Keeps (fun s => s.transport.session.ready) (SmbOp.exec P (.fclose fd)) :=
    (fclose_keeps ready_framed P fd).bind fun _ => .pure _
  have hready := exec_keeps hkeeps st.1
  have hend := exec_spec (fclose_exec P st.1 fd) rfl
  have hclosed : ∀ {file}, (∀ share, smbSessionShareGet st.1 (smbFdTid fd) = some share →
      RemoveClear fd share.files) → st.2 fd = some file →
      TakenOut file st.1 (SmbOp.run P st.1 (.fclose fd)) ∧
        ∃ frame, SmbOp.offered P st.1 (.fclose fd) = [frame] ∧ CloseRequest file frame :=
    fun hclear hfile => h.closed_file P rfl hend hclear hfile
  rw [DescriptorStep, openStep, DescriptorClear]
  dsimp only
  generalize SmbOp.run P st.1 (.fclose fd) = s' at *
  generalize SmbOp.result P st.1 (.fclose fd) = r at *
  generalize SmbOp.offered P st.1 (.fclose fd) = offered at *
  have hafter : openAfter st.2 (.fclose fd) r s'.lastReply = Function.update st.2 fd none := rfl
  rw [hafter]
  have hdone : r = .done := hend.1
  by_cases hnone : fd = 0 ∨ smbSessionShareGet st.1 (smbFdTid fd) = none
  · -- nothing is done, and nothing was open under the descriptor
    have hsame := hend.no_share P hnone
    have hfree := congrFun (h.update_none hnone) fd
    rw [Function.update_self] at hfree
    rw [h.update_none hnone, hsame]
    refine ⟨⟨fun _ => hnone.imp_right fun hshare share hsome => ?_, fun _ => ?_⟩, fun _ => h⟩
    · rw [hshare] at hsome
      cases hsome
    · refine ⟨h.found, fun _ hres => ?_, fun fd' file hop hfile => ?_⟩
      · rw [hdone] at hres
        cases hres
      · cases hop
        rw [← hfree] at hfile
        cases hfile
  · rw [not_or, ← ne_eq, ← ne_eq, Option.ne_none_iff_exists'] at hnone
    obtain ⟨hfd, share, hshare⟩ := hnone
    have hshares : (fd = 0 ∨ ∀ share, smbSessionShareGet st.1 (smbFdTid fd) = some share →
        RemoveClear fd share.files) ↔ RemoveClear fd share.files := by
      rw [or_iff_right hfd, hshare]
      exact ⟨fun hall => hall share rfl, fun hclear _ hsome => Option.some.inj hsome ▸ hclear⟩
    rw [hshares]
    refine ⟨⟨fun hright => ?_, fun hclear => ?_⟩, fun hclear => ?_⟩
    · exact h.clear_of_found P hend hfd hshare hright.found
    · refine ⟨h.closed_found P hend hfd hshare hclear, fun _ hres => ?_, fun fd' file hop hfile => ?_⟩
      · rw [hdone] at hres
        cases hres
      · cases hop
        refine hclosed (fun share' hsome => ?_) hfile
        rw [hshare] at hsome
        exact Option.some.inj hsome ▸ hclear
    · exact h.fileClosed P hend hfd hshare hclear hready

/-- One call, with the invariant: it keeps the descriptors right exactly if it is clear. -/
theorem OpenInv.step {op : SmbOp} (hp : OpenPromise P st op) :
    (DescriptorStep P st op ↔ DescriptorClear P st op) ∧
      (DescriptorClear P st op → OpenInv (openStep P st op).1 (openStep P st op).2) := by
  have hop := hp.descriptorOp
  cases op with
  | treeConnect name =>
    obtain ⟨hright, hinv⟩ := treeConnect_right P h name
    exact ⟨⟨fun _ => trivial, fun _ => hright⟩, fun _ => hinv⟩
  | fopen tid path oFlags => exact fopen_right_iff P h hp
  | fclose fd => exact fclose_right_iff P h fd
  | _ => exact absurd hop Bool.false_ne_true

end

/-- Over every run of tree connects, opens and closes on a connected session without open files,
against a server that gives each open file of a share its own fid: the descriptors are right after
each call exactly as long as each call is clear. -/
theorem descriptors_right_iff (s : SmbSession) (hready : s.transport.session.ready = true)
    (hempty : ∀ share ∈ s.shares, share.files = []) (ops : List SmbOp)
    (hpromise : Along (openStep P) (OpenPromise P) (s, fun _ => none) ops) :
    Along (openStep P) (DescriptorStep P) (s, fun _ => none) ops ↔
      Along (openStep P) (DescriptorClear P) (s, fun _ => none) ops := by
  have hstart : OpenInv s fun _ => none := by
    have hnone := fileGet_of_empty hempty
    refine ⟨hnone, fun fd file hfile => ?_, fun share hshare => ?_, filesFind_of_empty hempty 0 0,
      hready⟩
    · rw [hnone] at hfile
      cases hfile
    · rw [hempty share hshare]
      exact List.nodup_nil
  exact along_congr_under (I := fun st => OpenInv st.1 st.2) (fun _ _ h hp => (h.step P hp).1)
    (fun _ _ h hp hclear => (h.step P hp).2 hclear) hstart hpromise

/-- A session connected to the tree 5, whose server sends these replies next. -/
def connectedTree (replies : List (List UInt8)) : SmbSession :=
  SmbOp.run .ascii (connectedTo (treeReply 5 :: replies)) (.treeConnect (ascii "x"))

/-- The first file of a run, and any close, are as the server promises. -/
theorem openPromise_first (s : SmbSession) (tid : UInt16) (path : List UInt8) (oFlags : UInt32) :
    OpenPromise P (s, fun _ => none) (.fopen tid path oFlags) :=
  ⟨rfl, fun _ _ _ _ _ _ _ _ hfile => by cases hfile⟩

theorem openPromise_close (st : SmbSession × OpenFiles) (fd : UInt32) :
    OpenPromise P st (.fclose fd) :=
  ⟨rfl, fun _ _ _ _ hop => by cases hop⟩

/-- A second file on the tree of the first is as the server promises if the fids differ. -/
theorem openPromise_second {s : SmbSession} {tid : UInt16} {path path' : List UInt8} (fd : UInt32)
    (hres : SmbOp.result P s (.fopen tid path 0) = .file .success (some fd))
    (hfids : (fileOfReply tid (SmbOp.run P s (.fopen tid path 0)).lastReply).fid ≠
      (fileOfReply tid (SmbOp.run P (SmbOp.run P s (.fopen tid path 0))
        (.fopen tid path' 0)).lastReply).fid) :
    OpenPromise P (openStep P (s, fun _ => none) (.fopen tid path 0)) (.fopen tid path' 0) := by
  refine ⟨rfl, fun tid' path'' oFlags fd' hop _ other file hfile _ => ?_⟩
  cases hop
  rw [openStep, hres, openAfter] at hfile
  dsimp only at hfile
  by_cases heq : other = fd
  · rw [heq, Function.update_self, Option.some.injEq] at hfile
    rw [← hfile]
    exact hfids
  · rw [Function.update_of_ne heq] at hfile
    cases hfile

/-- An open on a tree other than 0 is clear. -/
theorem openClear_of_tid {st : SmbSession × OpenFiles} {tid : UInt16} {path : List UInt8}
    {oFlags : UInt32} (htid : tid ≠ 0) : DescriptorClear P st (.fopen tid path oFlags) :=
  fun _ _ hzero => absurd hzero htid

/-- A close after a call that leaves a file of its fid in front is clear. -/
theorem closeClear_of_head {st : SmbSession × OpenFiles} {op : SmbOp} {fd : UInt32}
    (h : ∀ share ∈ (op.run P st.1).shares,
      share.files.head?.all (fun file => file.fid = smbFdFid fd) = true) :
    DescriptorClear P (openStep P st op) (.fclose fd) := by
  refine .inr fun share hshare => ?_
  have hhead := h share (List.mem_of_find?_eq_some hshare)
  cases hfiles : share.files with
  | nil => trivial
  | cons file rest =>
    rw [hfiles] at hhead
    exact .inl (of_decide_eq_true hhead)

/-- Two files opened on a tree, and closed in the same order. -/
theorem descriptors_right_iff_closed :
    let s := connectedTree [createReply 7, createReply 8, replyBytes 0 0 0 [0, 0, 0],
      replyBytes 0 0 0 [0, 0, 0]]
    let ops : List SmbOp := [.fopen 5 (ascii "f") 0, .fopen 5 (ascii "g") 0, .fclose (smbFd 5 7),
      .fclose (smbFd 5 8)]
    Along (openStep .ascii) (OpenPromise .ascii) (s, fun _ => none) ops ∧
      Along (openStep .ascii) (DescriptorStep .ascii) (s, fun _ => none) ops := by
  intro s ops
  have hready : s.transport.session.ready = true := by decide +kernel
  have hempty : ∀ share ∈ s.shares, share.files = [] := by decide +kernel
  have hres : SmbOp.result .ascii s (.fopen 5 (ascii "f") 0) =
      .file .success (some (smbFd 5 7)) := by decide +kernel
  have hfids : (fileOfReply 5 (SmbOp.run .ascii s (.fopen 5 (ascii "f") 0)).lastReply).fid ≠
      (fileOfReply 5 (SmbOp.run .ascii (SmbOp.run .ascii s (.fopen 5 (ascii "f") 0))
        (.fopen 5 (ascii "g") 0)).lastReply).fid := by decide +kernel
  have hfirst : ∀ share ∈ (([.fopen 5 (ascii "f") 0, .fopen 5 (ascii "g") 0] : List SmbOp).foldl
      (SmbOp.run .ascii) s).shares,
      share.files.head?.all (fun file => file.fid = smbFdFid (smbFd 5 7)) = true := by decide +kernel
  have hsecond : ∀ share ∈ (([.fopen 5 (ascii "f") 0, .fopen 5 (ascii "g") 0, .fclose (smbFd 5 7)] :
      List SmbOp).foldl (SmbOp.run .ascii) s).shares,
      share.files.head?.all (fun file => file.fid = smbFdFid (smbFd 5 8)) = true := by decide +kernel
  clear_value s
  have hpromise : Along (openStep .ascii) (OpenPromise .ascii) (s, fun _ => none) ops :=
    ⟨openPromise_first .ascii s 5 _ 0, openPromise_second .ascii _ hres hfids,
      openPromise_close .ascii _ _, openPromise_close .ascii _ _, trivial⟩
  have hclear : Along (openStep .ascii) (DescriptorClear .ascii) (s, fun _ => none) ops :=
    ⟨openClear_of_tid .ascii (by decide), openClear_of_tid .ascii (by decide),
      closeClear_of_head .ascii hfirst, closeClear_of_head .ascii hsecond, trivial⟩
  exact ⟨hpromise, (descriptors_right_iff .ascii s hready hempty ops hpromise).mpr hclear⟩

/-- Of two files opened on a tree the second is closed, and is still found. -/
theorem descriptors_second_stays :
    let s := connectedTree [createReply 7, createReply 8]
    let ops : List SmbOp := [.fopen 5 (ascii "f") 0, .fopen 5 (ascii "g") 0, .fclose (smbFd 5 8)]
    Along (openStep .ascii) (OpenPromise .ascii) (s, fun _ => none) ops ∧
      ¬ Along (openStep .ascii) (DescriptorStep .ascii) (s, fun _ => none) ops := by
  intro s ops
  refine ⟨⟨openPromise_first .ascii s 5 _ 0, ?_, openPromise_close .ascii _ _, trivial⟩, fun h => ?_⟩
  · exact openPromise_second .ascii (smbFd 5 7) (by decide +kernel) (by decide +kernel)
  · have hfound := h.2.2.1.found (smbFd 5 8)
    revert hfound
    decide +kernel

end Libdsm
