import Libdsm.Smb.Fd

/-!
# The table of open files

A descriptor packs the tid of a share and the fid of a file of that share, and a lookup goes through
the shares and then through the files of the first share with the tid. The lemmas below say how a
lookup sees an update, an added file and a removed one. They need no promise about the ids in the
table: a file that is hidden behind another one of its descriptor is neither found nor changed.
-/

namespace Libdsm

/-! ## Descriptors -/

theorem smbFdTid_toNat (fd : UInt32) : (smbFdTid fd).toNat = fd.toNat / 65536 := by
  have hfd := fd.toNat_lt
  have hshift : (16 : UInt32).toNat % 32 = 16 := rfl
  rw [smbFdTid, UInt32.toNat_toUInt16, UInt32.toNat_shiftRight, hshift, Nat.shiftRight_eq_div_pow]
  omega

theorem smbFdFid_toNat (fd : UInt32) : (smbFdFid fd).toNat = fd.toNat % 65536 := by
  have hmask : (0x0000ffff : UInt32).toNat = 2 ^ 16 - 1 := rfl
  rw [smbFdFid, UInt32.toNat_toUInt16, UInt32.toNat_and, hmask, Nat.and_two_pow_sub_one_eq_mod,
    Nat.mod_mod]

theorem smbFd_toNat (tid fid : UInt16) :
    (smbFd tid fid).toNat = tid.toNat * 65536 + fid.toNat := by
  have htid := tid.toNat_lt
  have hfid := fid.toNat_lt
  have hshift : (16 : UInt32).toNat % 32 = 16 := rfl
  have hfits : tid.toNat <<< 16 < 2 ^ 32 := by
    rw [Nat.shiftLeft_eq]
    omega
  rw [smbFd, UInt32.toNat_or, UInt32.toNat_shiftLeft, UInt16.toNat_toUInt32, UInt16.toNat_toUInt32,
    hshift, Nat.mod_eq_of_lt hfits, ← Nat.shiftLeft_add_eq_or_of_lt hfid, Nat.shiftLeft_eq]

@[simp] theorem smbFdTid_smbFd (tid fid : UInt16) : smbFdTid (smbFd tid fid) = tid := by
  have hfid := fid.toNat_lt
  apply UInt16.toNat_inj.mp
  rw [smbFdTid_toNat, smbFd_toNat]
  omega

@[simp] theorem smbFdFid_smbFd (tid fid : UInt16) : smbFdFid (smbFd tid fid) = fid := by
  have hfid := fid.toNat_lt
  apply UInt16.toNat_inj.mp
  rw [smbFdFid_toNat, smbFd_toNat]
  omega

@[simp] theorem smbFd_parts (fd : UInt32) : smbFd (smbFdTid fd) (smbFdFid fd) = fd := by
  apply UInt32.toNat_inj.mp
  rw [smbFd_toNat, smbFdTid_toNat, smbFdFid_toNat]
  omega

theorem smbFd_eq_zero (tid fid : UInt16) : smbFd tid fid = 0 ↔ tid = 0 ∧ fid = 0 := by
  constructor
  · intro h
    have htid := smbFdTid_smbFd tid fid
    have hfid := smbFdFid_smbFd tid fid
    rw [h] at htid hfid
    exact ⟨htid.symm, hfid.symm⟩
  · rintro ⟨rfl, rfl⟩
    rfl

/-! ## Lookups after an update -/

theorem find?_updateShare_same {tid : UInt16} {f : SmbShare → SmbShare}
    (hf : ∀ share, (f share).tid = share.tid) (shares : List SmbShare) :
    (updateShare tid f shares).find? (fun share => share.tid = tid) =
      (shares.find? fun share => share.tid = tid).map f := by
  induction shares with
  | nil => rfl
  | cons share rest ih =>
    by_cases h : share.tid = tid
    · rw [updateShare, if_pos h, List.find?_cons_of_pos (by simpa [hf] using h),
        List.find?_cons_of_pos (by simpa using h), Option.map_some]
    · rw [updateShare, if_neg h, List.find?_cons_of_neg (by simpa using h),
        List.find?_cons_of_neg (by simpa using h), ih]

theorem find?_updateShare_other {tid other : UInt16} (hne : other ≠ tid) {f : SmbShare → SmbShare}
    (hf : ∀ share, (f share).tid = share.tid) (shares : List SmbShare) :
    (updateShare tid f shares).find? (fun share => share.tid = other) =
      shares.find? fun share => share.tid = other := by
  induction shares with
  | nil => rfl
  | cons share rest ih =>
    by_cases h : share.tid = tid
    · have hother : share.tid ≠ other := fun heq => hne (heq.symm.trans h)
      rw [updateShare, if_pos h, List.find?_cons_of_neg (by simpa [hf] using hother),
        List.find?_cons_of_neg (by simpa using hother)]
    · rw [updateShare, if_neg h, List.find?_cons, List.find?_cons, ih]

/-- The shares after an update: those of before, and the first of the tid changed. -/
theorem mem_updateShare {tid : UInt16} {f : SmbShare → SmbShare} {shares : List SmbShare}
    {share : SmbShare} (h : share ∈ updateShare tid f shares) :
    share ∈ shares ∨ ∃ old, shares.find? (fun share => share.tid = tid) = some old ∧
      share = f old := by
  induction shares with
  | nil => cases h
  | cons first rest ih =>
    by_cases htid : first.tid = tid
    · rw [updateShare, if_pos htid, List.mem_cons] at h
      rcases h with rfl | hrest
      · exact .inr ⟨first, List.find?_cons_of_pos (by simpa using htid), rfl⟩
      · exact .inl (List.mem_cons_of_mem _ hrest)
    · rw [updateShare, if_neg htid, List.mem_cons] at h
      rw [List.find?_cons_of_neg (by simpa using htid), List.mem_cons]
      rcases h with rfl | hrest
      · exact .inl (.inl rfl)
      · exact (ih hrest).imp_left .inr

theorem find?_updateFile_same {fid : UInt16} {f : SmbFile → SmbFile}
    (hf : ∀ file, (f file).fid = file.fid) (files : List SmbFile) :
    (updateFile fid f files).find? (fun file => file.fid = fid) =
      (files.find? fun file => file.fid = fid).map f := by
  induction files with
  | nil => rfl
  | cons file rest ih =>
    by_cases h : file.fid = fid
    · rw [updateFile, if_pos h, List.find?_cons_of_pos (by simpa [hf] using h),
        List.find?_cons_of_pos (by simpa using h), Option.map_some]
    · rw [updateFile, if_neg h, List.find?_cons_of_neg (by simpa using h),
        List.find?_cons_of_neg (by simpa using h), ih]

theorem find?_updateFile_other {fid other : UInt16} (hne : other ≠ fid) {f : SmbFile → SmbFile}
    (hf : ∀ file, (f file).fid = file.fid) (files : List SmbFile) :
    (updateFile fid f files).find? (fun file => file.fid = other) =
      files.find? fun file => file.fid = other := by
  induction files with
  | nil => rfl
  | cons file rest ih =>
    by_cases h : file.fid = fid
    · have hother : file.fid ≠ other := fun heq => hne (heq.symm.trans h)
      rw [updateFile, if_pos h, List.find?_cons_of_neg (by simpa [hf] using hother),
        List.find?_cons_of_neg (by simpa using hother)]
    · rw [updateFile, if_neg h, List.find?_cons, List.find?_cons, ih]

/-! ## The two levels -/

/-- The file a lookup finds under a descriptor's two parts. -/
def filesFind (shares : List SmbShare) (tid fid : UInt16) : Option SmbFile :=
  (shares.find? fun share => share.tid = tid).bind fun share =>
    share.files.find? fun file => file.fid = fid

theorem fileGet_eq (s : SmbSession) {fd : UInt32} (hfd : fd ≠ 0) :
    smbSessionFileGet s fd = filesFind s.shares (smbFdTid fd) (smbFdFid fd) := by
  rw [smbSessionFileGet, if_neg hfd, smbSessionShareGet, filesFind]
  cases s.shares.find? fun share => share.tid = smbFdTid fd with
  | none => rfl
  | some share => rfl

theorem fileGet_zero (s : SmbSession) : smbSessionFileGet s 0 = none := rfl

theorem fileGet_ne_zero {s : SmbSession} {fd : UInt32} {file : SmbFile}
    (h : smbSessionFileGet s fd = some file) : fd ≠ 0 := by
  rintro rfl
  rw [fileGet_zero] at h
  cases h

/-- The file found has the descriptor's fid. -/
theorem fileGet_fid {s : SmbSession} {fd : UInt32} {file : SmbFile}
    (h : smbSessionFileGet s fd = some file) : file.fid = smbFdFid fd := by
  rw [fileGet_eq s (fileGet_ne_zero h), filesFind, Option.bind_eq_some_iff] at h
  obtain ⟨share, -, hfile⟩ := h
  simpa using List.find?_some hfile

/-- Shares without files. -/
theorem filesFind_of_empty {shares : List SmbShare} (h : ∀ share ∈ shares, share.files = [])
    (tid fid : UInt16) : filesFind shares tid fid = none := by
  rw [Option.eq_none_iff_forall_ne_some]
  intro file hfile
  rw [filesFind, Option.bind_eq_some_iff] at hfile
  obtain ⟨share, hshare, hfind⟩ := hfile
  rw [h share (List.mem_of_find?_eq_some hshare)] at hfind
  cases hfind

theorem fileGet_of_empty {s : SmbSession} (h : ∀ share ∈ s.shares, share.files = [])
    (fd : UInt32) : smbSessionFileGet s fd = none := by
  by_cases hzero : fd = 0
  · rw [hzero, fileGet_zero]
  · rw [fileGet_eq s hzero]
    exact filesFind_of_empty h _ _

/-- A lookup looks at the shares alone. -/
theorem fileGet_congr {s s' : SmbSession} (h : s.shares = s'.shares) (fd : UInt32) :
    smbSessionFileGet s fd = smbSessionFileGet s' fd := by
  rw [smbSessionFileGet, smbSessionFileGet, smbSessionShareGet, smbSessionShareGet, h]

/-- A change of one share, as another lookup sees it. -/
theorem filesFind_updateShare {f : SmbShare → SmbShare} (hf : ∀ share, (f share).tid = share.tid)
    (shares : List SmbShare) (tid other fid : UInt16) :
    filesFind (updateShare tid f shares) other fid =
      if other = tid then
        (shares.find? fun share => share.tid = tid).bind fun share =>
          (f share).files.find? fun file => file.fid = fid
      else filesFind shares other fid := by
  by_cases h : other = tid
  · subst h
    rw [if_pos rfl, filesFind, find?_updateShare_same hf, Option.bind_map]
    rfl
  · rw [if_neg h, filesFind, find?_updateShare_other h hf, filesFind]

/-- An assignment to the file of a descriptor. -/
theorem fileGet_fileUpdate (s : SmbSession) {fd : UInt32} (hfd : fd ≠ 0) {f : SmbFile → SmbFile}
    (hf : ∀ file, (f file).fid = file.fid) (other : UInt32) :
    smbSessionFileGet (smbSessionFileUpdate s fd f) other =
      if other = fd then (smbSessionFileGet s fd).map f else smbSessionFileGet s other := by
  by_cases hzero : other = 0
  · subst hzero
    rw [if_neg (Ne.symm hfd), fileGet_zero, fileGet_zero]
  · rw [fileGet_eq _ hzero, fileGet_eq _ hfd, fileGet_eq _ hzero, smbSessionFileUpdate]
    dsimp only
    rw [filesFind_updateShare]
    case hf => exact fun share => rfl
    by_cases htid : smbFdTid other = smbFdTid fd
    · rw [if_pos htid]
      by_cases hfid : smbFdFid other = smbFdFid fd
      · have heq : other = fd := by
          rw [← smbFd_parts other, htid, hfid, smbFd_parts]
        rw [if_pos heq, hfid, filesFind, Option.map_bind]
        congr 1
        funext share
        exact find?_updateFile_same hf share.files
      · have hne : other ≠ fd := fun heq => hfid (by rw [heq])
        rw [if_neg hne, filesFind, htid]
        congr 1
        funext share
        exact find?_updateFile_other hfid hf share.files
    · have hne : other ≠ fd := fun heq => htid (by rw [heq])
      rw [if_neg htid, if_neg hne]

/-- A file that is added to a share which had none of its fid. -/
theorem filesFind_fileAdd {shares shares' : List SmbShare} {tid : UInt16} {file : SmbFile}
    (hmem : tid ∈ shares.map (·.tid)) (hfresh : filesFind shares tid file.fid = none)
    (h : shares' = updateShare tid (fun share => { share with files := share.files ++ [file] }) shares)
    (other fid : UInt16) :
    filesFind shares' other fid =
      if other = tid ∧ fid = file.fid then some file else filesFind shares other fid := by
  subst h
  rw [filesFind_updateShare]
  case hf => exact fun share => rfl
  by_cases htid : other = tid
  · subst htid
    have hsome : (shares.find? fun share => share.tid = other).isSome := by
      rw [List.find?_isSome]
      simpa using hmem
    obtain ⟨share, hshare⟩ := Option.isSome_iff_exists.mp hsome
    rw [filesFind, hshare, Option.bind_some] at hfresh
    rw [if_pos rfl, filesFind, hshare, Option.bind_some, Option.bind_some, List.find?_append]
    by_cases hfid : fid = file.fid
    · subst hfid
      rw [hfresh, if_pos ⟨rfl, rfl⟩, Option.none_or, List.find?_cons_of_pos (by simp)]
    · have hlast : [file].find? (fun f => f.fid = fid) = none := by
        simpa using fun heq : file.fid = fid => hfid heq.symm
      rw [hlast, Option.or_none, if_neg fun h => hfid h.2]
  · rw [if_neg htid, if_neg fun h => htid h.1]

/-- The same for a session, with the descriptor that the file gets. -/
theorem fileGet_fileAdd {s s' : SmbSession} {tid : UInt16} {file : SmbFile}
    (hfd : smbFd tid file.fid ≠ 0) (hmem : tid ∈ s.shares.map (·.tid))
    (hfresh : filesFind s.shares tid file.fid = none)
    (h : s'.shares =
      updateShare tid (fun share => { share with files := share.files ++ [file] }) s.shares)
    (other : UInt32) :
    smbSessionFileGet s' other =
      if other = smbFd tid file.fid then some file else smbSessionFileGet s other := by
  by_cases hzero : other = 0
  · rw [hzero, fileGet_zero, fileGet_zero, if_neg (Ne.symm hfd)]
  · rw [fileGet_eq _ hzero, filesFind_fileAdd hmem hfresh h, fileGet_eq _ hzero]
    by_cases heq : other = smbFd tid file.fid
    · rw [if_pos heq, heq, smbFdTid_smbFd, smbFdFid_smbFd, if_pos ⟨rfl, rfl⟩]
    · rw [if_neg heq, if_neg]
      rintro ⟨htid, hfid⟩
      exact heq (by rw [← htid, ← hfid, smbFd_parts])

/-- A share without files that is added hides no file and brings none. -/
theorem filesFind_shareAdd (shares : List SmbShare) {share : SmbShare} (hempty : share.files = [])
    (tid fid : UInt16) : filesFind (shares ++ [share]) tid fid = filesFind shares tid fid := by
  rw [filesFind, List.find?_append, filesFind]
  cases shares.find? fun share => share.tid = tid with
  | some found => rfl
  | none =>
    rw [Option.none_or, List.find?_cons]
    split
    · rw [Option.bind_some, hempty]
      rfl
    · rfl

/-- Every file found has the tid of its descriptor. -/
def TidsMatch (s : SmbSession) : Prop :=
  ∀ fd file, smbSessionFileGet s fd = some file → file.tid = smbFdTid fd

theorem TidsMatch.congr {s s' : SmbSession} (h : TidsMatch s) (hshares : s'.shares = s.shares) :
    TidsMatch s' := by
  intro fd file hfile
  rw [fileGet_congr hshares] at hfile
  exact h fd file hfile

/-! ## Removing a file -/

/-- The removal a descriptor asks for: the first file of its fid. -/
def takeFile (fid : UInt16) (files : List SmbFile) : Option SmbFile × List SmbFile :=
  (files.find? fun file => file.fid = fid, files.eraseP fun file => file.fid = fid)

/-- The walk of `smb_session_file_remove` stays clear of its wrong comparison: it ends at the head,
or both parts of the descriptor are the same, or neither of them is a fid behind the head. -/
def RemoveClear (fd : UInt32) : List SmbFile → Prop
  | [] => True
  | file :: rest =>
    file.fid = smbFdFid fd ∨ smbFdFid fd = smbFdTid fd ∨
      ∀ other ∈ rest, other.fid ≠ smbFdFid fd ∧ other.fid ≠ smbFdTid fd

theorem find?_fid_none {files : List SmbFile} {fid : UInt16} (h : ∀ file ∈ files, file.fid ≠ fid) :
    files.find? (fun file => file.fid = fid) = none := by
  rw [List.find?_eq_none]
  intro file hfile
  simpa using h file hfile

theorem eraseP_fid_eq {files : List SmbFile} {fid : UInt16} (h : ∀ file ∈ files, file.fid ≠ fid) :
    files.eraseP (fun file => file.fid = fid) = files := by
  apply List.eraseP_of_forall_not
  intro file hfile
  simpa using h file hfile

/-- A clear walk does what the descriptor asks for. -/
theorem removeFile_of_clear {fd : UInt32} {files : List SmbFile} (h : RemoveClear fd files) :
    removeFile fd files = takeFile (smbFdFid fd) files := by
  cases files with
  | nil => rfl
  | cons file rest =>
    by_cases hhead : file.fid = smbFdFid fd
    · rw [removeFile, if_pos hhead, takeFile, List.find?_cons_of_pos (by simpa using hhead),
        List.eraseP_cons_of_pos (by simpa using hhead)]
    · rw [removeFile, if_neg hhead, takeFile, List.find?_cons_of_neg (by simpa using hhead),
        List.eraseP_cons_of_neg (by simpa using hhead)]
      rcases h with hfid | heq | hnone
      · exact absurd hfid hhead
      · rw [heq]
      · rw [find?_fid_none fun f hf => (hnone f hf).1, find?_fid_none fun f hf => (hnone f hf).2,
          eraseP_fid_eq fun f hf => (hnone f hf).1, eraseP_fid_eq fun f hf => (hnone f hf).2]

/-- A lookup after the removal of a fid that no two files have. -/
theorem find?_eraseP_fid {files : List SmbFile} (hnodup : (files.map (·.fid)).Nodup)
    (fid other : UInt16) :
    (files.eraseP fun file => file.fid = fid).find? (fun file => file.fid = other) =
      if other = fid then none else files.find? fun file => file.fid = other := by
  induction files with
  | nil => simp
  | cons file rest ih =>
    rw [List.map_cons, List.nodup_cons] at hnodup
    by_cases hhead : file.fid = fid
    · rw [List.eraseP_cons_of_pos (by simpa using hhead)]
      by_cases hother : other = fid
      · rw [if_pos hother]
        apply find?_fid_none
        intro f hf heq
        exact hnodup.1 (List.mem_map.mpr ⟨f, hf, by rw [heq, hother, hhead]⟩)
      · rw [if_neg hother, List.find?_cons_of_neg]
        simpa [hhead] using fun heq => hother heq.symm
    · rw [List.eraseP_cons_of_neg (by simpa using hhead), List.find?_cons, List.find?_cons,
        ih hnodup.2]
      by_cases hother : other = fid
      · have hne : file.fid ≠ other := fun heq => hhead (heq.trans hother)
        rw [if_pos hother, if_pos hother]
        simp [hne]
      · rw [if_neg hother, if_neg hother]

/-- A walk that is not clear leaves the file it should take, or takes one it should leave. -/
theorem removeFile_of_not_clear {fd : UInt32} {files : List SmbFile}
    (hnodup : (files.map (·.fid)).Nodup) (h : ¬ RemoveClear fd files) :
    ∃ fid, (files.find? fun file => file.fid = fid).isSome ∧
      (removeFile fd files).2.find? (fun file => file.fid = fid) ≠
        if fid = smbFdFid fd then none else files.find? fun file => file.fid = fid := by
  cases files with
  | nil => exact absurd trivial h
  | cons file rest =>
    rw [RemoveClear, not_or, not_or] at h
    obtain ⟨hhead, hne, hrest⟩ := h
    push Not at hrest
    obtain ⟨other, hother, hwrong⟩ := hrest
    rw [List.map_cons, List.nodup_cons] at hnodup
    have hlookup := find?_eraseP_fid hnodup.2 (smbFdTid fd)
    by_cases hfid : other.fid = smbFdFid fd
    · -- the file of the descriptor is behind the head and stays
      have hsome : (rest.find? fun f => f.fid = smbFdFid fd).isSome := by
        rw [List.find?_isSome]
        exact ⟨other, hother, by simpa using hfid⟩
      refine ⟨smbFdFid fd, ?_, ?_⟩
      · rw [List.find?_cons_of_neg (by simpa using hhead)]
        exact hsome
      · rw [removeFile, if_neg hhead, if_pos rfl, List.find?_cons_of_neg (by simpa using hhead),
          hlookup, if_neg hne]
        exact fun hnone => by simp [hnone] at hsome
    · -- another file has the share's id for its fid and goes
      have htid : other.fid = smbFdTid fd := hwrong hfid
      have hheadTid : file.fid ≠ smbFdTid fd := by
        intro heq
        exact hnodup.1 (List.mem_map.mpr ⟨other, hother, by rw [htid, heq]⟩)
      have hsome : (rest.find? fun f => f.fid = smbFdTid fd).isSome := by
        rw [List.find?_isSome]
        exact ⟨other, hother, by simpa using htid⟩
      refine ⟨smbFdTid fd, ?_, ?_⟩
      · rw [List.find?_cons_of_neg (by simpa using hheadTid)]
        exact hsome
      · rw [removeFile, if_neg hhead, if_neg (Ne.symm hne),
          List.find?_cons_of_neg (by simpa using hheadTid), hlookup, if_pos rfl,
          List.find?_cons_of_neg (by simpa using hheadTid)]
        exact fun hnone => by simp [← hnone] at hsome

/-- A walk that finds nothing removes nothing. -/
theorem removeFile_none {fd : UInt32} {files : List SmbFile} (h : (removeFile fd files).1 = none) :
    (removeFile fd files).2 = files := by
  cases files with
  | nil => rfl
  | cons file rest =>
    rw [removeFile] at h ⊢
    split
    · rename_i hhead
      rw [if_pos hhead] at h
      cases h
    · rename_i hhead
      rw [if_neg hhead] at h
      dsimp only at h ⊢
      rw [eraseP_fid_eq]
      intro f hf
      rw [List.find?_eq_none] at h
      simpa using h f hf

/-- The removal on the share that is found. -/
theorem fileRemove_share {s : SmbSession} {fd : UInt32} (hfd : fd ≠ 0) {share : SmbShare}
    (hshare : smbSessionShareGet s (smbFdTid fd) = some share) :
    smbSessionFileRemove s fd =
      ((removeFile fd share.files).1,
        { s with
          shares := updateShare (smbFdTid fd)
            (fun share' => { share' with files := (removeFile fd share.files).2 }) s.shares }) := by
  rw [smbSessionFileRemove, if_neg hfd, hshare]

/-- A lookup after the files of the first share of a tid were replaced. -/
theorem filesFind_replace {shares : List SmbShare} {tid : UInt16} {share : SmbShare}
    (hshare : shares.find? (fun share => share.tid = tid) = some share) (files : List SmbFile)
    (other fid : UInt16) :
    filesFind (updateShare tid (fun share' => { share' with files }) shares) other fid =
      if other = tid then files.find? (fun file => file.fid = fid)
      else filesFind shares other fid := by
  rw [filesFind_updateShare]
  case hf => exact fun share => rfl
  rw [hshare]
  rfl

/-! ## Removal against lookup -/

/-- What `smb_session_file_remove` is for: it returns the file that a lookup finds and unlinks that
file alone, so that no lookup finds it any more where the fids of the share differ. -/
structure RemovesFile (s : SmbSession) (fd : UInt32) : Prop where
  returned : (smbSessionFileRemove s fd).1 = smbSessionFileGet s fd
  unlinked : (smbSessionFileRemove s fd).2 =
    { s with
      shares := updateShare (smbFdTid fd)
        (fun share => { share with files := (takeFile (smbFdFid fd) share.files).2 }) s.shares }
  gone : (∀ share, smbSessionShareGet s (smbFdTid fd) = some share →
      (share.files.map (·.fid)).Nodup) →
    smbSessionFileGet (smbSessionFileRemove s fd).2 fd = none

/-- Replacing the files of the first share of a tid, by what they become or by a function. -/
theorem updateShare_replace {tid : UInt16} {shares : List SmbShare} {share : SmbShare}
    (hshare : shares.find? (fun share => share.tid = tid) = some share)
    (f : List SmbFile → List SmbFile) :
    updateShare tid (fun share' => { share' with files := f share.files }) shares =
      updateShare tid (fun share' => { share' with files := f share'.files }) shares := by
  induction shares with
  | nil => rfl
  | cons head rest ih =>
    by_cases hhead : head.tid = tid
    · rw [List.find?_cons_of_pos (by simpa using hhead)] at hshare
      rw [updateShare, updateShare, if_pos hhead, if_pos hhead, Option.some.inj hshare]
    · rw [List.find?_cons_of_neg (by simpa using hhead)] at hshare
      rw [updateShare, updateShare, if_neg hhead, if_neg hhead, ih hshare]

theorem updateShare_absent {tid : UInt16} {shares : List SmbShare}
    (hnone : shares.find? (fun share => share.tid = tid) = none) (f : SmbShare → SmbShare) :
    updateShare tid f shares = shares := by
  induction shares with
  | nil => rfl
  | cons head rest ih =>
    rw [List.find?_eq_none] at hnone
    have hhead : ¬ head.tid = tid := by simpa using hnone head (by simp)
    rw [updateShare, if_neg hhead, ih]
    rw [List.find?_eq_none]
    exact fun share hshare => hnone share (List.mem_cons_of_mem _ hshare)

/-- The walk finds the file of the descriptor only where it stays clear. -/
theorem removeClear_of_returned {fd : UInt32} {files : List SmbFile}
    (h : (removeFile fd files).1 = files.find? fun file => file.fid = smbFdFid fd) :
    RemoveClear fd files := by
  cases files with
  | nil => exact trivial
  | cons file rest =>
    by_cases hhead : file.fid = smbFdFid fd
    · exact .inl hhead
    · by_cases hsame : smbFdFid fd = smbFdTid fd
      · exact .inr (.inl hsame)
      · rw [removeFile, if_neg hhead, List.find?_cons_of_neg (by simpa using hhead)] at h
        dsimp only at h
        -- a file found by both walks would have both ids for its fid
        cases hfound : rest.find? fun f => f.fid = smbFdFid fd with
        | some f =>
          rw [hfound] at h
          have htid : f.fid = smbFdTid fd := by simpa using List.find?_some h
          have hfid : f.fid = smbFdFid fd := by simpa using List.find?_some hfound
          exact absurd (hfid.symm.trans htid) hsame
        | none =>
          rw [hfound] at h
          rw [List.find?_eq_none] at h hfound
          exact .inr (.inr fun f hf => ⟨by simpa using hfound f hf, by simpa using h f hf⟩)

/-- `smb_session_file_remove` takes out exactly the file that `smb_session_file_get` finds if and only
if its walk over the files of the share stays clear of the wrong comparison. -/
theorem fileRemove_removes_iff (s : SmbSession) (fd : UInt32) (hfd : fd ≠ 0) :
    RemovesFile s fd ↔
      ∀ share, smbSessionShareGet s (smbFdTid fd) = some share → RemoveClear fd share.files := by
  have hget : smbSessionFileGet s fd = filesFind s.shares (smbFdTid fd) (smbFdFid fd) :=
    fileGet_eq s hfd
  cases hshare : smbSessionShareGet s (smbFdTid fd) with
  | none =>
    have habsent : s.shares.find? (fun share => share.tid = smbFdTid fd) = none := hshare
    have hremove : smbSessionFileRemove s fd = (none, s) := by
      rw [smbSessionFileRemove, if_neg hfd, hshare]
    have hnone : smbSessionFileGet s fd = none := by
      rw [hget, filesFind, habsent]
      rfl
    constructor
    · intro _ share h
      cases h
    · intro _
      refine ⟨?_, ?_, fun _ => ?_⟩
      · rw [hremove, hnone]
      · rw [hremove, updateShare_absent habsent]
      · rw [hremove, hnone]
  | some share =>
    have hfound : s.shares.find? (fun share => share.tid = smbFdTid fd) = some share := hshare
    have hremove := fileRemove_share hfd hshare
    have hfile : smbSessionFileGet s fd = share.files.find? fun file => file.fid = smbFdFid fd := by
      rw [hget, filesFind, hfound]
      rfl
    constructor
    · intro h other hother
      obtain rfl : share = other := Option.some.inj hother
      apply removeClear_of_returned
      rw [← hfile, ← h.returned, hremove]
    · intro hclear
      have hwalk := removeFile_of_clear (hclear share rfl)
      rw [hwalk] at hremove
      refine ⟨?_, ?_, fun hnodup => ?_⟩
      · rw [hremove, hfile, takeFile]
      · rw [hremove]
        dsimp only
        rw [updateShare_replace hfound fun files => (takeFile (smbFdFid fd) files).2]
      · rw [fileGet_eq _ hfd, hremove, filesFind_replace hfound, if_pos rfl, takeFile,
          find?_eraseP_fid (hnodup share hshare), if_pos rfl]

/-- A session with one share, of tid 1, and these fids open on it. -/
def sessionWithFids (fids : List UInt16) : SmbSession where
  transport := { session := netbiosSessionNew (fun _ => 0) (.silent [] []) 0 }
  shares := [{ tid := 1, files := fids.map fun fid => { fid := fid, tid := 1 } }]

/-- The first of two files. -/
theorem fileRemove_removes_iff_head :
    smbFd 1 7 ≠ 0 ∧ RemovesFile (sessionWithFids [7, 8]) (smbFd 1 7) := by
  have hfd : smbFd 1 7 ≠ 0 := by decide
  refine ⟨hfd, (fileRemove_removes_iff _ _ hfd).mpr ?_⟩
  intro share hshare
  have hfound : smbSessionShareGet (sessionWithFids [7, 8]) (smbFdTid (smbFd 1 7)) =
      some { tid := 1, files := [{ fid := 7, tid := 1 }, { fid := 8, tid := 1 }] } := by decide
  rw [hfound, Option.some.injEq] at hshare
  subst hshare
  exact .inl (by decide)

/-- The second of two files is not found and stays open. -/
theorem fileRemove_misses_second :
    smbFd 1 8 ≠ 0 ∧ ¬ RemovesFile (sessionWithFids [7, 8]) (smbFd 1 8) := by
  refine ⟨by decide, fun h => ?_⟩
  have hreturned := h.returned
  have hwrong : (smbSessionFileRemove (sessionWithFids [7, 8]) (smbFd 1 8)).1 ≠
      smbSessionFileGet (sessionWithFids [7, 8]) (smbFd 1 8) := by decide
  exact hwrong hreturned

end Libdsm
