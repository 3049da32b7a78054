import Libdsm.Misc.Runs
import Libdsm.Smb.Proofs.Exchange

/-!
# The share table and the connected trees

A session keeps the shares it has connected in a table that is only ever added to. Against the
trees that are connected at the server, as the results of the calls tell them, the table goes wrong
in two places: `smb_tree_disconnect` leaves the share in it, and `smb_session_connect` leaves all
of them. As long as neither happens to a share that is there, the table holds each connected tree
once, and a file that is opened goes to the share it was opened on.
-/

namespace Libdsm

variable (P : Platform)

/-! ## Tids of the table -/

/-- The tids of the shares, in the order of the table. -/
def SmbSession.tids (s : SmbSession) : List UInt16 := s.shares.map (·.tid)

theorem shareGet_isSome_iff (s : SmbSession) (tid : UInt16) :
    (smbSessionShareGet s tid).isSome ↔ tid ∈ s.tids := by
  rw [smbSessionShareGet, List.find?_isSome]
  simp [SmbSession.tids]

theorem updateShare_tids {tid : UInt16} {f : SmbShare → SmbShare}
    (hf : ∀ share, (f share).tid = share.tid) (shares : List SmbShare) :
    (updateShare tid f shares).map (·.tid) = shares.map (·.tid) := by
  induction shares with
  | nil => rfl
  | cons share rest ih =>
    rw [updateShare]
    split
    · simp [hf]
    · simp [ih]

/-- An update goes to the first share of its tid. -/
theorem updateShare_first {tid : UInt16} (f : SmbShare → SmbShare) {pre post : List SmbShare}
    {share : SmbShare} (hpre : ∀ other ∈ pre, other.tid ≠ tid) (hshare : share.tid = tid) :
    updateShare tid f (pre ++ share :: post) = pre ++ f share :: post := by
  induction pre with
  | nil => rw [List.nil_append, updateShare, if_pos hshare, List.nil_append]
  | cons other pre ih =>
    rw [List.cons_append, updateShare, if_neg (hpre other (by simp)),
      ih fun x hx => hpre x (List.mem_cons_of_mem _ hx), List.cons_append]

theorem tids_framed : Framed SmbSession.tids where
  send := sendMsg_keeps fun _ _ => rfl
  recv := recvInto_keeps fun _ _ => rfl
  ntStatus _ _ := rfl
  creds _ _ := rfl
  srv _ _ _ := rfl
  fileAdd s tid file := by
    apply updateShare_tids
    exact fun _ => rfl
  fileRemove s fd := by
    unfold smbSessionFileRemove
    split
    · rfl
    · split
      · rfl
      · apply updateShare_tids
        exact fun _ => rfl
  fileUpdate s fd f := by
    apply updateShare_tids
    exact fun _ => rfl

/-! ## What the calls do to the table -/

section

variable {shares : List SmbShare}

theorem sendMsg_shares (msg : SmbMessage) :
    Triple (·.shares = shares) (smbSessionSendMsg msg) fun _ s => s.shares = shares := by
  intro s h
  rw [sendMsg_eq, withNetbios_shares]
  exact h

theorem recvMsg_shares :
    Triple (·.shares = shares) smbSessionRecvMsg fun _ s => s.shares = shares := by
  intro s h
  rw [recvMsg_eq, withNetbios_shares]
  exact h

theorem recvMsg_replied_shares :
    Triple (·.shares = shares) smbSessionRecvMsg fun r s =>
      s.shares = shares ∧ ∀ msg, r = some msg → msg.Holds s.lastReply :=
  fun s h => ⟨recvMsg_shares s h, fun _ hmsg => recvMsg_lastReply s hmsg⟩

/-- How a call that opens something ends: with what it opened added and its id stored for the caller,
or with an error, nothing stored and the table as before. -/
def Opened {α : Type} (shares : List SmbShare) (Added : α → SmbSession → Prop)
    (r : DsmCode × Option α) (s : SmbSession) : Prop :=
  (∃ id, r = (.success, some id) ∧ Added id s) ∨ (r.1 ≠ .success ∧ r.2 = none ∧ s.shares = shares)

theorem opened_fails {α : Type} {Added : α → SmbSession → Prop} {code : DsmCode}
    (h : code ≠ .success) :
    Triple (·.shares = shares) (pure (code, none) : SmbM (DsmCode × Option α))
      (Opened shares Added) :=
  .pure fun _ hs => .inr ⟨h, rfl, hs⟩

/-- The table, and the message received last. -/
def RepliedWith (shares : List SmbShare) (resp : SmbMessage) (s : SmbSession) : Prop :=
  s.shares = shares ∧ resp.Holds s.lastReply

theorem checkNtStatus_replied (resp : SmbMessage) :
    Triple (RepliedWith shares resp) (smbSessionCheckNtStatus resp) fun _ => RepliedWith shares resp :=
  (checkNtStatus_triple (fun _ _ h => h) resp).post fun _ _ h => h.2

theorem opened_refused {α : Type} {Added : α → SmbSession → Prop} {code : DsmCode}
    (resp : SmbMessage) (h : code ≠ .success) :
    Triple (RepliedWith shares resp) (pure (code, none) : SmbM (DsmCode × Option α))
      (Opened shares Added) :=
  (opened_fails h).conseq (fun _ hs => hs.1) fun _ _ hs => hs

/-! ### Connecting a tree -/

/-- The share a reply connects, by the two forms that the reply may have. -/
def shareOfReply (reply : List UInt8) : Option SmbShare :=
  let wordCount := reply.getD smbHeaderSize 0
  if wordCount = 3 ∧ smbHeaderSize + 9 ≤ reply.length then
    some { tid := replyTid reply, opts := replyU16 reply (smbHeaderSize + 5) }
  else if wordCount = 7 ∧ smbHeaderSize + 17 ≤ reply.length then
    some
      { tid := replyTid reply
        opts := replyU16 reply (smbHeaderSize + 5)
        rights := (replyU32 reply (smbHeaderSize + 7)).toUInt16
        guestRights := (replyU32 reply (smbHeaderSize + 11)).toUInt16 }
  else none

/-- The share has the tid of the reply, and no files. -/
theorem treeConnectShare_spec {resp : SmbMessage} {share : SmbShare}
    (h : smbTreeConnectShare resp = some share) : share.tid = resp.tid ∧ share.files = [] := by
  unfold smbTreeConnectShare at h
  split at h
  · split at h
    · cases h
    · rw [← Option.some.inj h]
      exact ⟨rfl, rfl⟩
  · split at h
    · split at h
      · cases h
      · rw [← Option.some.inj h]
        exact ⟨rfl, rfl⟩
    · cases h

theorem treeConnectShare_reply {resp : SmbMessage} {reply : List UInt8} (h : resp.Holds reply) :
    smbTreeConnectShare resp = shareOfReply reply := by
  have hlen := h.length
  have hwct : resp.payload 0 = reply.getD smbHeaderSize 0 := h.payload_eq h.nonempty
  have hthree : SmbTreeConnectResp.size ≤ resp.payloadSize ↔ smbHeaderSize + 9 ≤ reply.length := by
    rw [hlen, SmbTreeConnectResp.size]
    omega
  have hseven : SmbTreeConnectRespx.size ≤ resp.payloadSize ↔ smbHeaderSize + 17 ≤ reply.length := by
    rw [hlen, SmbTreeConnectRespx.size]
    omega
  simp only [smbTreeConnectShare, shareOfReply, ← hwct, ← hthree, ← hseven, ← h.tid_eq, ← not_lt]
  by_cases hw : resp.payload 0 = 3
  · have hother : ¬ resp.payload 0 = 7 := by
      rw [hw]
      decide
    by_cases hshort : resp.payloadSize < SmbTreeConnectResp.size
    · simp [hw, hshort]
    · have hroom := Nat.le_of_not_lt hshort
      rw [SmbTreeConnectResp.size] at hroom
      have hopts : resp.payload.u16 5 = replyU16 reply (smbHeaderSize + 5) :=
        h.payload_u16_eq (by omega)
      simp [hw, hshort, SmbTreeConnectResp.optSupport, hopts]
  · by_cases hw' : resp.payload 0 = 7
    · by_cases hshort : resp.payloadSize < SmbTreeConnectRespx.size
      · simp [hw', hshort]
      · have hroom := Nat.le_of_not_lt hshort
        rw [SmbTreeConnectRespx.size] at hroom
        have hopts : resp.payload.u16 5 = replyU16 reply (smbHeaderSize + 5) :=
          h.payload_u16_eq (by omega)
        have hrights : resp.payload.u32 7 = replyU32 reply (smbHeaderSize + 7) :=
          h.payload_u32_eq (by omega)
        have hguest : resp.payload.u32 11 = replyU32 reply (smbHeaderSize + 11) :=
          h.payload_u32_eq (by omega)
        simp [hw', hshort, SmbTreeConnectRespx.optSupport, SmbTreeConnectRespx.maxRights,
          SmbTreeConnectRespx.guestRights, hopts, hrights, hguest]
    · simp [hw, hw']

theorem treeConnect_opened (name : List UInt8) :
    Triple (·.shares = shares) (smbTreeConnect P name) (Opened shares fun tid s =>
      ∃ share, shareOfReply s.lastReply = some share ∧ share.tid = replyTid s.lastReply ∧
        share.files = [] ∧ tid = share.tid ∧ s.shares = shares ++ [share]) := by
  refine .bind (.post .get fun _ _ h => h.2) fun s => .bind (sendMsg_shares _) fun _ => ?_
  refine .ite (fun _ => opened_fails (by decide)) fun _ => .bind recvMsg_replied_shares fun resp => ?_
  cases resp with
  | none => exact (opened_fails (by decide)).conseq (fun _ h => h.1) fun _ _ h => h
  | some resp =>
    refine Triple.conseq (P := RepliedWith shares resp) ?_ (fun _ h => ⟨h.1, h.2 resp rfl⟩)
      fun _ _ h => h
    refine .bind (checkNtStatus_replied resp) fun _ =>
      .ite (fun _ => opened_refused resp (by decide)) fun _ => ?_
    cases hshare : smbTreeConnectShare resp with
    | none => exact opened_refused resp (by decide)
    | some share =>
      refine .bind (.modify (Q := fun _ => RepliedWith (shares ++ [share]) resp) fun s h => ?_) fun _ => ?_
      · rw [RepliedWith, ← h.1]
        exact ⟨rfl, h.2⟩
      · obtain ⟨htid, hfiles⟩ := treeConnectShare_spec hshare
        refine .pure fun s h => .inl ⟨share.tid, rfl, share, ?_, ?_, hfiles, rfl, h.1⟩
        · rw [← treeConnectShare_reply h.2, hshare]
        · rw [htid, h.2.tid_eq]

/-- How `smb_tree_connect` ends: with a share added that has the tid returned and no files, or as
before. -/
def TreeConnected (shares : List SmbShare) (r : SmbResult) (s : SmbSession) : Prop :=
  (∃ share, r = .tree .success (some share.tid) ∧ share.files = [] ∧ s.shares = shares ++ [share]) ∨
    ∃ code, r = .tree code none ∧ s.shares = shares

theorem treeConnect_exec (name : List UInt8) :
    Triple (·.shares = shares) (SmbOp.exec P (.treeConnect name)) (TreeConnected shares) := by
  refine .bind (treeConnect_opened P name) fun r => .pure fun s h => ?_
  obtain ⟨tid, rfl, share, -, -, hfiles, rfl, hshares⟩ | ⟨-, hnone, hshares⟩ := h
  · exact .inl ⟨share, rfl, hfiles, hshares⟩
  · exact .inr ⟨r.1, by rw [hnone], hshares⟩

/-! ### Opening a file -/

/-- The file a reply opens: its fid, times, sizes and attributes stand in the reply at these places. -/
def fileOfReply (tid : UInt16) (reply : List UInt8) : SmbFile where
  fid := replyU16 reply (smbHeaderSize + 6)
  tid := tid
  created := replyU64 reply (smbHeaderSize + 12)
  accessed := replyU64 reply (smbHeaderSize + 20)
  written := replyU64 reply (smbHeaderSize + 28)
  changed := replyU64 reply (smbHeaderSize + 36)
  attr := replyU32 reply (smbHeaderSize + 44)
  allocSize := replyU64 reply (smbHeaderSize + 48)
  size := replyU64 reply (smbHeaderSize + 56)
  isDir := (reply.getD (smbHeaderSize + 68) 0).toUInt32

theorem fopenFile_reply (tid : UInt16) {resp : SmbMessage} {reply : List UInt8} (h : resp.Holds reply)
    (hsize : SmbCreateResp.size ≤ resp.payloadSize) :
    smbFopenFile tid resp.payload = fileOfReply tid reply := by
  rw [SmbCreateResp.size] at hsize
  unfold smbFopenFile fileOfReply
  rw [SmbCreateResp.fid, SmbCreateResp.created, SmbCreateResp.accessed, SmbCreateResp.written,
    SmbCreateResp.changed, SmbCreateResp.attr, SmbCreateResp.allocSize, SmbCreateResp.fileSize,
    SmbCreateResp.isDir, h.payload_u16_eq (by omega), h.payload_u64_eq (by omega),
    h.payload_u64_eq (by omega), h.payload_u64_eq (by omega), h.payload_u64_eq (by omega),
    h.payload_u32_eq (by omega), h.payload_u64_eq (by omega), h.payload_u64_eq (by omega),
    h.payload_eq (by omega)]

theorem fopen_opened (tid : UInt16) (path : List UInt8) (oFlags : UInt32) :
    Triple (·.shares = shares) (smbFopen P tid path oFlags) (Opened shares fun fd s =>
      fd = smbFd tid (fileOfReply tid s.lastReply).fid ∧ tid ∈ shares.map (·.tid) ∧
        s.shares = updateShare tid (fun share => { share with
          files := share.files ++ [fileOfReply tid s.lastReply] }) shares) := by
  refine .bind .get fun s => ?_
  cases hget : smbSessionShareGet s tid with
  | none => exact (opened_fails (by decide)).conseq (fun _ h => h.2) fun _ _ h => h
  | some share =>
    -- the share is in the table the session has now
    have hmem : s.shares = shares → tid ∈ shares.map (·.tid) := by
      rintro rfl
      exact (shareGet_isSome_iff s tid).mp (by rw [hget]; rfl)
    by_cases hs : s.shares = shares
    swap
    · exact fun s' h => absurd (h.1 ▸ h.2) hs
    refine Triple.conseq (P := fun s => s.shares = shares) ?_ (fun _ h => h.2) fun _ _ h => h
    refine .ite (fun _ => opened_fails (by decide)) fun _ => .bind (sendMsg_shares _) fun _ => ?_
    refine .ite (fun _ => opened_fails (by decide)) fun _ => .bind recvMsg_replied_shares fun resp => ?_
    cases resp with
    | none => exact (opened_fails (by decide)).conseq (fun _ h => h.1) fun _ _ h => h
    | some resp =>
      refine Triple.conseq (P := RepliedWith shares resp) ?_ (fun _ h => ⟨h.1, h.2 resp rfl⟩)
        fun _ _ h => h
      refine .bind (checkNtStatus_replied resp) fun _ =>
        .ite (fun _ => opened_refused resp (by decide)) fun _ =>
          .ite (fun _ => opened_refused resp (by decide)) fun hsize => ?_
      refine .bind (.modify (Q := fun _ => RepliedWith (updateShare tid (fun share => { share with
        files := share.files ++ [smbFopenFile tid resp.payload] }) shares) resp) fun s h => ?_)
          fun _ => .pure fun s h => ?_
      · rw [RepliedWith, ← h.1]
        exact ⟨rfl, h.2⟩
      · have hfile : smbFopenFile tid resp.payload = fileOfReply tid s.lastReply :=
          fopenFile_reply tid h.2 (by omega)
        have hshares := h.1
        rw [hfile] at hshares
        exact .inl ⟨_, rfl, by rw [hfile], hmem hs, hshares⟩

/-- How `smb_fopen` ends: with the file of the last reply added to the share, whose descriptor is
returned, or as before. -/
def FileOpened (shares : List SmbShare) (tid : UInt16) (r : SmbResult) (s : SmbSession) : Prop :=
  (∃ file, r = .file .success (some (smbFd tid file.fid)) ∧ tid ∈ shares.map (·.tid) ∧
      file = fileOfReply tid s.lastReply ∧
      s.shares = updateShare tid (fun share => { share with files := share.files ++ [file] })
        shares) ∨
    ∃ code, r = .file code none ∧ s.shares = shares

theorem fopen_exec (tid : UInt16) (path : List UInt8) (oFlags : UInt32) :
    Triple (·.shares = shares) (SmbOp.exec P (.fopen tid path oFlags))
      (FileOpened shares tid) := by
  refine .bind (fopen_opened P tid path oFlags) fun r => .pure fun s h => ?_
  obtain ⟨fd, rfl, rfl, hmem, hshares⟩ | ⟨-, hnone, hshares⟩ := h
  · exact .inl ⟨_, rfl, hmem, rfl, hshares⟩
  · exact .inr ⟨r.1, by rw [hnone], hshares⟩

end

/-! ### Opening is atomic -/

/-- The share of a tid that is found is the first one. -/
theorem shareGet_first {s : SmbSession} {tid : UInt16} {share : SmbShare}
    (h : smbSessionShareGet s tid = some share) :
    ∃ pre post, s.shares = pre ++ share :: post ∧ share.tid = tid ∧ ∀ other ∈ pre, other.tid ≠ tid := by
  rw [smbSessionShareGet, List.find?_eq_some_iff_append] at h
  obtain ⟨htid, pre, post, hshares, hpre⟩ := h
  exact ⟨pre, post, hshares, by simpa using htid, fun other ho => by simpa using hpre other ho⟩

/-- `smb_tree_connect` and `smb_fopen` leave the table and the caller's variable alone unless they
succeed. Then `smb_tree_connect` has added the share of the reply at the end of the table, and
`smb_fopen` the file of the reply at the end of the files of the share found for `tid`. -/
theorem opening_atomic (s : SmbSession) :
    (∀ name,
      let r := (smbTreeConnect P name s).1
      let s' := (smbTreeConnect P name s).2
      (r.1 ≠ .success → r.2 = none ∧ s'.shares = s.shares) ∧
      (r.1 = .success → ∃ share, shareOfReply s'.lastReply = some share ∧
        share.tid = replyTid s'.lastReply ∧ share.files = [] ∧ r.2 = some share.tid ∧
        s'.shares = s.shares ++ [share])) ∧
    ∀ tid path oFlags,
      let r := (smbFopen P tid path oFlags s).1
      let s' := (smbFopen P tid path oFlags s).2
      let file := fileOfReply tid s'.lastReply
      (r.1 ≠ .success → r.2 = none ∧ s'.shares = s.shares) ∧
      (r.1 = .success → ∃ pre share post, s.shares = pre ++ share :: post ∧
        smbSessionShareGet s tid = some share ∧ (∀ other ∈ pre, other.tid ≠ tid) ∧
        r.2 = some (smbFd tid file.fid) ∧
        s'.shares = pre ++ { share with files := share.files ++ [file] } :: post) := by
  constructor
  · intro name r s'
    have hend : Opened s.shares _ r s' := treeConnect_opened P name s rfl
    obtain ⟨tid, hr, share, hshare, htid, hfiles, rfl, hshares⟩ | ⟨hcode, hnone, hshares⟩ := hend
    · refine ⟨fun h => absurd (by rw [hr]) h, fun _ => ⟨share, hshare, htid, hfiles, ?_, hshares⟩⟩
      rw [hr]
    · exact ⟨fun _ => ⟨hnone, hshares⟩, fun h => absurd h hcode⟩
  · intro tid path oFlags r s' file
    have hend : Opened s.shares _ r s' := fopen_opened P tid path oFlags s rfl
    obtain ⟨fd, hr, hfd, hmem, hshares⟩ | ⟨hcode, hnone, hshares⟩ := hend
    · obtain ⟨share, hget⟩ := Option.isSome_iff_exists.mp ((shareGet_isSome_iff s tid).mpr hmem)
      obtain ⟨pre, post, hsplit, htid, hpre⟩ := shareGet_first hget
      rw [hsplit, updateShare_first _ hpre htid] at hshares
      refine ⟨fun h => absurd (by rw [hr]) h, fun _ => ⟨pre, share, post, hsplit, hget, hpre, ?_, hshares⟩⟩
      rw [hr, hfd]
    · exact ⟨fun _ => ⟨hnone, hshares⟩, fun h => absurd h hcode⟩

/-- A tree that is connected, and a file on it that is refused first and then opened. -/
example :
    let s := connectedTo [treeReply 5, replyBytes 0xc0000022 0 0 [0, 0, 0],
      replyBytes 0 0 0 (List.replicate 6 0 ++ le16 7 ++ List.replicate 63 0)]
    let tree := smbTreeConnect .ascii (ascii "x") s
    let refused := smbFopen .ascii 5 (ascii "f") 0 tree.2
    let opened := smbFopen .ascii 5 (ascii "f") 0 refused.2
    tree.1 = (.success, some 5) ∧ refused.1 = (.errorNt, none) ∧ refused.2.shares = tree.2.shares ∧
      opened.1 = (.success, some (smbFd 5 7)) ∧
      opened.2.shares.map (·.files.map SmbFile.fid) = [[7]] := by
  decide +kernel

/-! ## Runs -/

/-- The calls that connect and disconnect trees, and open and close files on them. -/
def SmbOp.isTreeOp : SmbOp → Bool
  | .connect .. | .treeConnect _ | .treeDisconnect _ | .fopen .. | .fclose _ => true
  | _ => false

/-- The trees that are connected after one more call, by what the call returned. -/
def treesAfter (trees : List UInt16) (op : SmbOp) (r : SmbResult) : List UInt16 :=
  match op, r with
  | .connect .., _ => []
  | .treeConnect _, .tree .success (some tid) => trees ++ [tid]
  | .treeDisconnect tid, .code .success => trees.filter (· ≠ tid)
  | _, _ => trees

theorem treesAfter_disconnect_failed {trees : List UInt16} {tid : UInt16} {r : SmbResult}
    (h : r ≠ .code .success) : treesAfter trees (.treeDisconnect tid) r = trees := by
  unfold treesAfter
  split
  · simp at *
  · simp at *
  · exact absurd rfl h
  · rfl

/-- The session and the connected trees, one call on. -/
def treeStep (st : SmbSession × List UInt16) (op : SmbOp) : SmbSession × List UInt16 :=
  (op.run P st.1, treesAfter st.2 op (op.result P st.1))

/-- The program makes these calls only, and the server hands out no tid that is still connected. -/
structure TreePromise (st : SmbSession × List UInt16) (op : SmbOp) : Prop where
  treeOp : op.isTreeOp = true
  fresh : ∀ tid, op.result P st.1 = .tree .success (some tid) → tid ∉ st.2

/-- The descriptor's file was added to the newest share of the tid, and nothing else changed. -/
def StoredInNewest (before after : List SmbShare) (tid : UInt16) (fd : UInt32) : Prop :=
  ∃ pre share post file, before = pre ++ share :: post ∧ share.tid = tid ∧
    (∀ other ∈ post, other.tid ≠ tid) ∧ fd = smbFd tid file.fid ∧
    after = pre ++ { share with files := share.files ++ [file] } :: post

/-- After the call the table holds exactly the connected trees, each once, and a file the call has
opened is in the newest share of its tid. -/
structure TableMatches (st : SmbSession × List UInt16) (op : SmbOp) : Prop where
  found : ∀ tid, (smbSessionShareGet (op.run P st.1) tid).isSome ↔
    tid ∈ treesAfter st.2 op (op.result P st.1)
  nodup : (op.run P st.1).tids.Nodup
  stored : ∀ tid path oFlags fd, op = .fopen tid path oFlags →
    op.result P st.1 = .file .success (some fd) →
    StoredInNewest st.1.shares (op.run P st.1).shares tid fd

/-- The call stays clear of the defects: a connect is made with an empty table, and no tree that is
in the table is disconnected with success. -/
def TreeClear (st : SmbSession × List UInt16) (op : SmbOp) : Prop :=
  match op with
  | .connect .. => st.1.shares = []
  | .treeDisconnect tid => op.result P st.1 = .code .success → smbSessionShareGet st.1 tid = none
  | _ => True

/-- The invariant: the table holds exactly the connected trees, each once. -/
structure TableInv (s : SmbSession) (trees : List UInt16) : Prop where
  mem : ∀ tid, tid ∈ s.tids ↔ tid ∈ trees
  nodup : s.tids.Nodup

theorem TableMatches.inv {st : SmbSession × List UInt16} {op : SmbOp} (h : TableMatches P st op) :
    TableInv (op.run P st.1) (treesAfter st.2 op (op.result P st.1)) :=
  ⟨fun tid => (shareGet_isSome_iff _ tid).symm.trans (h.found tid), h.nodup⟩

theorem TableInv.matches {st : SmbSession × List UInt16} {op : SmbOp}
    (h : TableInv (op.run P st.1) (treesAfter st.2 op (op.result P st.1)))
    (hfopen : ∀ tid path oFlags, op ≠ .fopen tid path oFlags) : TableMatches P st op :=
  ⟨fun tid => (shareGet_isSome_iff _ tid).trans (h.mem tid), h.nodup,
    fun tid path oFlags _ hop => absurd hop (hfopen tid path oFlags)⟩

/-- A table without repetitions: the first share of a tid is the newest. -/
theorem storedInNewest_update {shares : List SmbShare} (hnodup : (shares.map (·.tid)).Nodup)
    {tid : UInt16} (hmem : tid ∈ shares.map (·.tid)) (file : SmbFile) :
    StoredInNewest shares
      (updateShare tid (fun share => { share with files := share.files ++ [file] }) shares) tid
      (smbFd tid file.fid) := by
  obtain ⟨share, hshare, htid⟩ := List.mem_map.mp hmem
  obtain ⟨pre, post, rfl⟩ := List.append_of_mem hshare
  rw [List.map_append, List.map_cons, List.nodup_append, List.nodup_cons] at hnodup
  obtain ⟨-, ⟨hpost, -⟩, hpre⟩ := hnodup
  refine ⟨pre, share, post, file, rfl, htid, fun other ho heq => ?_, rfl,
    updateShare_first _ (fun other ho heq => ?_) htid⟩
  · exact hpost (List.mem_map.mpr ⟨other, ho, heq.trans htid.symm⟩)
  · exact hpre _ (List.mem_map_of_mem ho) share.tid (by simp) (heq.trans htid.symm)

section

variable {st : SmbSession × List UInt16} (h : TableInv st.1 st.2)

include h

theorem connect_matches_iff (name : List UInt8) (transport : Option SmbTransportKind) :
    TableMatches P st (.connect name transport) ↔ TreeClear P st (.connect name transport) := by
  have htids : (SmbOp.run P st.1 (.connect name transport)).tids = st.1.tids :=
    exec_keeps ((connect_keeps tids_framed P (fun _ _ => rfl) name transport).bind fun _ => .pure _) st.1
  constructor
  · intro hm
    have hnil : st.1.tids = [] := by
      refine List.eq_nil_iff_forall_not_mem.mpr fun tid htid => ?_
      have hin := (hm.inv P).mem tid
      rw [htids] at hin
      exact absurd (hin.mp htid) (by simp [treesAfter])
    exact List.map_eq_nil_iff.mp hnil
  · intro hclear
    have hnil : st.1.tids = [] := List.map_eq_nil_iff.mpr hclear
    refine TableInv.matches P ⟨fun tid => ?_, ?_⟩ (by simp)
    · rw [htids, hnil]
      simp [treesAfter]
    · rw [htids]
      exact h.nodup

theorem treeConnect_matches {name : List UInt8} (hp : TreePromise P st (.treeConnect name)) :
    TableMatches P st (.treeConnect name) := by
  have hend : TreeConnected st.1.shares (SmbOp.result P st.1 (.treeConnect name))
      (SmbOp.run P st.1 (.treeConnect name)) := exec_spec (treeConnect_exec P name) rfl
  have hfresh := hp.fresh
  refine TableInv.matches P ?_ (by simp)
  generalize SmbOp.result P st.1 (.treeConnect name) = r at hend hfresh ⊢
  generalize SmbOp.run P st.1 (.treeConnect name) = s' at hend ⊢
  rcases hend with ⟨share, rfl, -, hshares⟩ | ⟨code, rfl, hshares⟩
  · have hnew : share.tid ∉ st.1.tids := fun hmem => hfresh _ rfl ((h.mem _).mp hmem)
    have htids : s'.tids = st.1.tids ++ [share.tid] := by
      rw [SmbSession.tids, hshares, List.map_append]
      rfl
    refine ⟨fun tid => ?_, ?_⟩
    · rw [htids, treesAfter, List.mem_append, List.mem_append, h.mem]
    · rw [htids, List.nodup_append]
      refine ⟨h.nodup, by simp, fun a ha b hb hab => ?_⟩
      rw [List.mem_singleton] at hb
      exact hnew (hb ▸ hab ▸ ha)
  · have htids : s'.tids = st.1.tids := by rw [SmbSession.tids, hshares]; rfl
    have htrees : treesAfter st.2 (.treeConnect name) (.tree code none) = st.2 := by
      cases code <;> rfl
    rw [htrees]
    exact ⟨fun tid => by rw [htids]; exact h.mem tid, by rw [htids]; exact h.nodup⟩

theorem treeDisconnect_matches_iff (tid : UInt16) :
    TableMatches P st (.treeDisconnect tid) ↔ TreeClear P st (.treeDisconnect tid) := by
  have hkeeps : Keeps SmbSession.tids (SmbOp.exec P (.treeDisconnect tid)) :=
    (treeDisconnect_keeps tids_framed P tid).bind fun _ => .pure _
  have htids := exec_keeps hkeeps st.1
  have hnone : smbSessionShareGet st.1 tid = none ↔ tid ∉ st.1.tids := by
    rw [← shareGet_isSome_iff, Option.not_isSome_iff_eq_none]
  constructor
  · intro hm hsucc
    have hin := (hm.inv P).mem tid
    rw [htids, hsucc, treesAfter] at hin
    exact hnone.mpr fun hmem => absurd (hin.mp hmem) (by simp)
  · intro hclear
    refine TableInv.matches P ⟨fun other => ?_, by rw [htids]; exact h.nodup⟩ (by simp)
    rw [htids]
    by_cases hsucc : SmbOp.result P st.1 (.treeDisconnect tid) = .code .success
    · have hout : tid ∉ st.2 := fun hmem => hnone.mp (hclear hsucc) ((h.mem tid).mpr hmem)
      rw [hsucc, treesAfter, List.mem_filter, h.mem]
      refine ⟨fun hmem => ⟨hmem, ?_⟩, fun hmem => hmem.1⟩
      exact decide_eq_true fun heq => hout (heq ▸ hmem)
    · rw [treesAfter_disconnect_failed hsucc]
      exact h.mem other

theorem fopen_matches (tid : UInt16) (path : List UInt8) (oFlags : UInt32) :
    TableMatches P st (.fopen tid path oFlags) := by
  have hend : FileOpened st.1.shares tid (SmbOp.result P st.1 (.fopen tid path oFlags))
      (SmbOp.run P st.1 (.fopen tid path oFlags)) := exec_spec (fopen_exec P tid path oFlags) rfl
  have htids : (SmbOp.run P st.1 (.fopen tid path oFlags)).tids = st.1.tids :=
    exec_keeps ((fopen_keeps tids_framed P tid path oFlags).bind fun _ => .pure _) st.1
  refine ⟨fun other => ?_, by rw [htids]; exact h.nodup, fun tid' path' oFlags' fd hop hr => ?_⟩
  · rw [shareGet_isSome_iff, htids, treesAfter]
    · exact h.mem other
    all_goals simp
  · cases hop
    rw [hr] at hend
    rcases hend with ⟨file, hfd, hmem, -, hshares⟩ | ⟨code, hfd, -⟩
    · cases hfd
      rw [hshares]
      exact storedInNewest_update h.nodup hmem file
    · cases hfd

theorem fclose_matches (fd : UInt32) : TableMatches P st (.fclose fd) := by
  have htids : (SmbOp.run P st.1 (.fclose fd)).tids = st.1.tids :=
    exec_keeps ((fclose_keeps tids_framed P fd).bind fun _ => .pure _) st.1
  refine TableInv.matches P ⟨fun tid => ?_, by rw [htids]; exact h.nodup⟩ (by simp)
  rw [htids, treesAfter]
  · exact h.mem tid
  all_goals simp

/-- One call, with the invariant: the table matches after it exactly if it is clear. -/
theorem TableInv.step {op : SmbOp} (hp : TreePromise P st op) :
    TableMatches P st op ↔ TreeClear P st op := by
  have hop := hp.treeOp
  cases op with
  | connect name transport => exact connect_matches_iff P h name transport
  | treeConnect name => exact ⟨fun _ => trivial, fun _ => treeConnect_matches P h hp⟩
  | treeDisconnect tid => exact treeDisconnect_matches_iff P h tid
  | fopen tid path oFlags => exact ⟨fun _ => trivial, fun _ => fopen_matches P h tid path oFlags⟩
  | fclose fd => exact ⟨fun _ => trivial, fun _ => fclose_matches P h fd⟩
  | _ => exact absurd hop Bool.false_ne_true

end

/-- Over every run from a new session, against a server that hands out no connected tid, the table
matches the connected trees after each call exactly as long as each call is clear. -/
theorem shareTable_matches_iff (tcp : Tcp) (ops : List SmbOp)
    (hpromise : Along (treeStep P) (TreePromise P) (smbSessionNew P tcp, []) ops) :
    Along (treeStep P) (TableMatches P) (smbSessionNew P tcp, []) ops ↔
      Along (treeStep P) (TreeClear P) (smbSessionNew P tcp, []) ops := by
  have hnew : TableInv (smbSessionNew P tcp) [] := ⟨fun _ => Iff.rfl, List.nodup_nil⟩
  exact along_congr_under (I := fun st => TableInv st.1 st.2) (fun _ _ h hp => h.step P hp)
    (fun _ _ h hp hclear => ((h.step P hp).mpr hclear).inv P) hnew hpromise

/-- A tree that is connected and stays so. -/
theorem shareTable_matches_iff_connected :
    let tcp := Tcp.answering [negotiateReply 0, treeReply 5]
    let ops : List SmbOp := [.connect (ascii "s") (some .tcp), .treeConnect (ascii "x")]
    Along (treeStep .ascii) (TreePromise .ascii) (smbSessionNew .ascii tcp, []) ops ∧
      Along (treeStep .ascii) (TreeClear .ascii) (smbSessionNew .ascii tcp, []) ops ∧
      Along (treeStep .ascii) (TableMatches .ascii) (smbSessionNew .ascii tcp, []) ops := by
  intro tcp ops
  have hpromise : Along (treeStep .ascii) (TreePromise .ascii) (smbSessionNew .ascii tcp, []) ops := by
    refine ⟨⟨rfl, fun _ _ => List.not_mem_nil⟩, ⟨rfl, fun _ _ => ?_⟩, trivial⟩
    rw [treeStep, treesAfter]
    exact List.not_mem_nil
  have hclear : Along (treeStep .ascii) (TreeClear .ascii) (smbSessionNew .ascii tcp, []) ops :=
    ⟨rfl, trivial, trivial⟩
  exact ⟨hpromise, hclear, (shareTable_matches_iff .ascii tcp ops hpromise).mpr hclear⟩

/-- A tree that is connected and disconnected, both with success, is still found. -/
theorem shareTable_disconnected_found :
    ¬ Along (treeStep .ascii) (TableMatches .ascii)
      (smbSessionNew .ascii
        (.answering [negotiateReply 0, treeReply 5, replyBytes 0 5 0 [0, 0, 0]]), [])
      [.connect (ascii "s") (some .tcp), .treeConnect (ascii "x"), .treeDisconnect 5] := by
  intro h
  have hlast := h.2.2.1.found 5
  revert hlast
  decide +kernel

end Libdsm
