import Libdsm.Misc.Chain
import Libdsm.Smb.Fd
import Libdsm.Smb.Trans2

/-!
# Shares, files and listings in memory (`src/smb_fd.c`, `src/smb_stat.c`)

The lists of a session with their links: every `smb_share` and every `smb_file` is a cell of a heap,
and the functions follow and change pointers as the sources do. A result of `none` is a read of memory
that is not allocated, or a loop that has not ended after `fuel` turns. Null pointers are `none` as well,
one level further in.
-/

namespace Libdsm

/-- `smb_file` without its link. The name is a pointer; that of `members` is not used. -/
structure SmbFileCell where
  name : Option Nat
  members : SmbFile

/-- `smb_share` without its link. -/
structure SmbShareCell where
  files : Option Nat
  tid : UInt16
  opts : UInt16
  rights : UInt16
  guestRights : UInt16

/-- The names that are allocated. -/
abbrev Names := Nat → Option (List UInt8)

/-- `free (name)`. -/
def freeName (name : Option Nat) (names : Names) : Option Names :=
  match name with
  | none => some names
  | some a => if (names a).isSome then some (Function.update names a none) else none

/-- `free (file->name)` in the loops that free a list of files. -/
def freeFileName (file : SmbFileCell) (names : Names) : Option Names := freeName file.name names

/-! ## The table of a session -/

/-- The memory of a session's lists, and `s->shares`. -/
structure FdTable where
  shareCells : Cells SmbShareCell
  fileCells : Cells SmbFileCell
  names : Names
  shares : Option Nat

/-- A session without shares, in a heap that holds nothing else. -/
def FdTable.empty : FdTable where
  shareCells := fun _ => none
  fileCells := fun _ => none
  names := fun _ => none
  shares := none

namespace FdTable

variable (t : FdTable) (fuel : Nat)

/-- `smb_session_share_add`. -/
def smbSessionShareAdd (share : Nat) : Option FdTable := do
  let (shares, shareCells) ← t.shareCells.append fuel t.shares share
  some { t with shares, shareCells }

/-- `smb_session_share_get`. -/
def smbSessionShareGet (tid : UInt16) : Option (Option Nat) :=
  t.shareCells.seek (fun share => share.tid = tid) fuel t.shares

/-- `smb_session_share_remove`. -/
def smbSessionShareRemove (tid : UInt16) : Option (Option Nat × FdTable) := do
  let (found, shares, shareCells) ←
    t.shareCells.unlink (fun share => share.tid = tid) (fun share => share.tid = tid) fuel t.shares
  some (found, { t with shares, shareCells })

/-- The inner loop of `smb_session_share_clear`. -/
def freeFiles (share : SmbShareCell) (s : Cells SmbFileCell × Names) :
    Option (Cells SmbFileCell × Names) :=
  Cells.drain freeFileName fuel s.1 share.files s.2

/-- `smb_session_share_clear`, which leaves `s->shares` as it is. -/
def smbSessionShareClear : Option FdTable := do
  let (shareCells, fileCells, names) ←
    Cells.drain (freeFiles fuel) fuel t.shareCells t.shares (t.fileCells, t.names)
  some { t with shareCells, fileCells, names }

/-- `smb_session_file_add`. -/
def smbSessionFileAdd (tid : UInt16) (f : Nat) : Option (Bool × FdTable) := do
  match ← t.smbSessionShareGet fuel tid with
  | none => some (false, t)
  | some a => do
    let share ← t.shareCells a
    let (files, fileCells) ← t.fileCells.append fuel share.val.files f
    let share := { share with val := { share.val with files } }
    some (true, { t with fileCells, shareCells := Function.update t.shareCells a (some share) })

/-- `smb_session_file_get`. The assertion `fd != 0` stops the program; here the lookup fails. -/
def smbSessionFileGet (fd : UInt32) : Option (Option Nat) :=
  if fd = 0 then some none
  else do
    match ← t.smbSessionShareGet fuel (smbFdTid fd) with
    | none => some none
    | some a => do
      let share ← t.shareCells a
      t.fileCells.seek (fun file => file.members.fid = smbFdFid fd) fuel share.val.files

/-- `smb_session_file_remove`. Behind the head the walk compares the file ids with the share's id. -/
def smbSessionFileRemove (fd : UInt32) : Option (Option Nat × FdTable) :=
  if fd = 0 then some (none, t)
  else do
    match ← t.smbSessionShareGet fuel (smbFdTid fd) with
    | none => some (none, t)
    | some a => do
      let share ← t.shareCells a
      let (found, files, fileCells) ←
        t.fileCells.unlink (fun file => file.members.fid = smbFdFid fd)
          (fun file => file.members.fid = smbFdTid fd) fuel share.val.files
      let share := { share with val := { share.val with files } }
      some (found, { t with fileCells, shareCells := Function.update t.shareCells a (some share) })

/-- The file at an address, with the text of its name. -/
def fileAt (a : Nat) : Option SmbFile := do
  let file ← t.fileCells a
  some { file.val.members with name := file.val.name.bind t.names }

/-- The shares with their files, read off the memory by following the links. -/
def contents : Option (List SmbShare) := do
  let shares ← t.shareCells.collect fuel t.shares
  shares.mapM fun share => do
    let cells ← t.fileCells.collect fuel share.2.files
    let files ← cells.mapM fun cell => t.fileAt cell.1
    some { files
           tid := share.2.tid
           opts := share.2.opts
           rights := share.2.rights
           guestRights := share.2.guestRights }

/-! ## What the operations do to the table -/

/-- The end of `smb_tree_connect`: the share that `calloc` returned, filled in and added. -/
def connect (a : Nat) (tid opts rights guestRights : UInt16) : Option FdTable :=
  let share : SmbShareCell := { files := none, tid, opts, rights, guestRights }
  let t := { t with shareCells := Function.update t.shareCells a (some ⟨share, none⟩) }
  t.smbSessionShareAdd fuel a

/-- The table in `smb_fopen`: without the share nothing is sent, and what `smb_session_file_add`
returns is not looked at. The name of an open file stays `NULL`. -/
def fopen (a : Nat) (tid : UInt16) (file : SmbFile) : Option FdTable := do
  match ← t.smbSessionShareGet fuel tid with
  | none => some t
  | some _ => do
    let cell : SmbFileCell := { name := none, members := file }
    let t := { t with fileCells := Function.update t.fileCells a (some ⟨cell, none⟩) }
    let (_, t) ← t.smbSessionFileAdd fuel tid a
    some t

/-- The table in `smb_fclose`: the file taken out is freed with its name. -/
def fclose (fd : UInt32) : Option FdTable := do
  let (found, t) ← t.smbSessionFileRemove fuel fd
  match found with
  | none => some t
  | some a => do
    let file ← t.fileCells a
    let names ← freeName file.val.name t.names
    some { t with names, fileCells := Function.update t.fileCells a none }

/-- An assignment to `file->offset`, as in `smb_fseek`. -/
def fseek (fd : UInt32) (offset : Int) : Option FdTable := do
  match ← t.smbSessionFileGet fuel fd with
  | none => some t
  | some a => do
    let file ← t.fileCells a
    let val := { file.val with members := { file.val.members with offset } }
    some { t with fileCells := Function.update t.fileCells a (some { file with val }) }

end FdTable

/-- What the operations of a session do to its table. -/
inductive FdOp where
  | connect (tid opts rights guestRights : UInt16)
  | fopen (tid : UInt16) (file : SmbFile)
  | fclose (fd : UInt32)
  | fseek (fd : UInt32) (offset : Int)

/-- One of them, with the address that `calloc` returns if it is called. -/
def FdTable.step (fuel : Nat) (t : FdTable) (op : FdOp) (a : Nat) : Option FdTable :=
  match op with
  | .connect tid opts rights guestRights => t.connect fuel a tid opts rights guestRights
  | .fopen tid file => t.fopen fuel a tid file
  | .fclose fd => t.fclose fuel fd
  | .fseek fd offset => t.fseek fuel fd offset

/-- A run of them stops at the first failure. -/
def FdTable.run (fuel : Nat) (t : Option FdTable) (op : FdOp × Nat) : Option FdTable :=
  t.bind fun t => t.step fuel op.1 op.2

/-! ## Listings -/

/-- The memory of a listing. -/
structure StatHeap where
  fileCells : Cells SmbFileCell
  names : Names

/-- `smb_tr2_find2_parse_entries` in memory, with `count` turns to go, at offset `iter`. `addrs` are the
addresses that `calloc` and `smb_from_utf16` return for the entries; the file of an entry whose name does
not convert is freed again. -/
def StatHeap.smbTr2Find2ParseEntries (P : Platform) (payload : Mem) (eod : Nat) :
    Nat → Nat → List (Nat × Nat) → StatHeap → Option Nat → StatHeap × Option Nat
  | count + 1, iter, (a, b) :: addrs, h, files =>
    if iter < eod then
      let entry := payload.shift iter
      let nameLen := (SmbTr2Find2Entry.nameLen entry).toNat
      let name := smbFromUtf16 P (entry.read SmbTr2Find2Entry.size nameLen)
      if name = [] then (h, files)
      else
        let cell : SmbFileCell := { name := some b, members := smbTr2Find2File entry name }
        let h : StatHeap :=
          { fileCells := Function.update h.fileCells a (some ⟨cell, files⟩)
            names := Function.update h.names b (some name) }
        smbTr2Find2ParseEntries P payload eod count
          (iter + (SmbTr2Find2Entry.nextEntry entry).toNat) addrs h (some a)
    else (h, files)
  | _, _, _, h, files => (h, files)

/-- `smb_stat_list_count`. -/
def smbStatListCount (h : StatHeap) (fuel : Nat) (list : Option Nat) : Option Nat := do
  let cells ← h.fileCells.collect fuel list
  some cells.length

/-- `smb_stat_list_at`. -/
def smbStatListAt (h : StatHeap) (list : Option Nat) (index : Nat) : Option (Option Nat) :=
  h.fileCells.advance index list

/-- `smb_stat_list_next`, of a list that is not `NULL`. -/
def smbStatListNext (h : StatHeap) (list : Nat) : Option (Option Nat) := do
  let c ← h.fileCells list
  some c.next

/-- `smb_stat_list_destroy`. -/
def smbStatListDestroy (h : StatHeap) (fuel : Nat) (list : Option Nat) : Option StatHeap := do
  let (fileCells, names) ← Cells.drain freeFileName fuel h.fileCells list h.names
  some { fileCells, names }

/-- `smb_stat_name`. -/
def smbStatName (h : StatHeap) (info : Option Nat) : Option (Option Nat) :=
  match info with
  | none => some none
  | some a => do
    let c ← h.fileCells a
    some c.val.name

/-- The members that `smb_stat_get` tells apart. -/
inductive SmbStatWhat where
  | size
  | allocSize
  | isdir
  | ctime
  | atime
  | wtime
  | mtime
  deriving DecidableEq, Repr

/-- The member that `smb_stat_get` is asked for; `none` is any other `what`. -/
def SmbFile.statGet (file : SmbFile) : Option SmbStatWhat → UInt64
  | some .size => file.size
  | some .allocSize => file.allocSize
  | some .ctime => file.created
  | some .atime => file.accessed
  | some .wtime => file.written
  | some .mtime => file.changed
  -- an `int` that becomes a `uint64_t`
  | some .isdir => UInt64.ofInt file.isDir.toBitVec.toInt
  | none => 0

/-- `smb_stat_get`. -/
def smbStatGet (h : StatHeap) (info : Option Nat) (what : Option SmbStatWhat) : Option UInt64 :=
  match info with
  | none => some 0
  | some a => do
    let c ← h.fileCells a
    some (c.val.members.statGet what)

end Libdsm
