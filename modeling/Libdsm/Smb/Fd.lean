import Libdsm.Smb.Types

/-!
# Shares and open files of a session (`src/smb_fd.c`)

The shares are a list in the order they were connected, each with the list of its open files in the
order they were opened. A lookup takes the first match.
-/

namespace Libdsm

/-- `SMB_FD_TID`. -/
def smbFdTid (fd : UInt32) : UInt16 := (fd >>> 16).toUInt16

/-- `SMB_FD_FID`. -/
def smbFdFid (fd : UInt32) : UInt16 := (fd &&& 0x0000ffff).toUInt16

/-- `SMB_FD`. -/
def smbFd (tid fid : UInt16) : UInt32 := tid.toUInt32 <<< 16 ||| fid.toUInt32

/-- `smb_session_share_add`. -/
def smbSessionShareAdd (s : SmbSession) (share : SmbShare) : SmbSession :=
  { s with shares := s.shares ++ [share] }

/-- `smb_session_share_get`. -/
def smbSessionShareGet (s : SmbSession) (tid : UInt16) : Option SmbShare :=
  s.shares.find? fun share => share.tid = tid

/-- `smb_session_share_remove`. No operation calls it, not even `smb_tree_disconnect`; it stands here for
its twin on the lists in memory. -/
def smbSessionShareRemove (s : SmbSession) (tid : UInt16) : Option SmbShare × SmbSession :=
  (smbSessionShareGet s tid, { s with shares := s.shares.eraseP fun share => share.tid = tid })

/-- The shares with `f` applied to the first one of id `tid`, as through the pointer that
`smb_session_share_get` returns. -/
def updateShare (tid : UInt16) (f : SmbShare → SmbShare) : List SmbShare → List SmbShare
  | [] => []
  | share :: rest => if share.tid = tid then f share :: rest else share :: updateShare tid f rest

/-- `smb_session_file_add`; without the share nothing happens. -/
def smbSessionFileAdd (s : SmbSession) (tid : UInt16) (file : SmbFile) : SmbSession :=
  let add (share : SmbShare) := { share with files := share.files ++ [file] }
  { s with shares := updateShare tid add s.shares }

/-- `smb_session_file_get`. The assertion `fd != 0` stops the program; here the lookup fails. -/
def smbSessionFileGet (s : SmbSession) (fd : UInt32) : Option SmbFile :=
  if fd = 0 then none
  else
    match smbSessionShareGet s (smbFdTid fd) with
    | none => none
    | some share => share.files.find? fun file => file.fid = smbFdFid fd

/-- The list `smb_session_file_remove` leaves of a share's files, and the file it takes out. Behind
the head the walk compares the file ids with the share's id. -/
def removeFile (fd : UInt32) : List SmbFile → Option SmbFile × List SmbFile
  | [] => (none, [])
  | file :: rest =>
    if file.fid = smbFdFid fd then (some file, rest)
    else
      (rest.find? fun f => f.fid = smbFdTid fd,
        file :: rest.eraseP fun f => f.fid = smbFdTid fd)

/-- `smb_session_file_remove`. -/
def smbSessionFileRemove (s : SmbSession) (fd : UInt32) : Option SmbFile × SmbSession :=
  if fd = 0 then (none, s)
  else
    match smbSessionShareGet s (smbFdTid fd) with
    | none => (none, s)
    | some share =>
      let r := removeFile fd share.files
      let shares := updateShare (smbFdTid fd) (fun share => { share with files := r.2 }) s.shares
      (r.1, { s with shares })

/-- The files with `f` applied to the first one of id `fid`. -/
def updateFile (fid : UInt16) (f : SmbFile → SmbFile) : List SmbFile → List SmbFile
  | [] => []
  | file :: rest => if file.fid = fid then f file :: rest else file :: updateFile fid f rest

/-- An assignment to the file that `smb_session_file_get` finds. -/
def smbSessionFileUpdate (s : SmbSession) (fd : UInt32) (f : SmbFile → SmbFile) : SmbSession :=
  let update (share : SmbShare) := { share with files := updateFile (smbFdFid fd) f share.files }
  { s with shares := updateShare (smbFdTid fd) update s.shares }

end Libdsm
