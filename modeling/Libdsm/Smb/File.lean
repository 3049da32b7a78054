import Libdsm.Smb.Fd
import Libdsm.Smb.SessionMsg

/-!
# Files and directories (`src/smb_file.c`, `src/smb_dir.c`)

A value the source stores through a pointer argument is part of the result, `none` where the
operation returns without storing it.
-/

namespace Libdsm

/-! ## Replies without data -/

/-- The end of the operations whose reply is an `smb_simple_struct`: removing, moving and creating,
and disconnecting a tree. -/
def smbSimpleReply : SmbM DsmCode := do
  let some resp ← smbSessionRecvMsg | return .errorNetwork
  if !(← smbSessionCheckNtStatus resp) then return .errorNt
  if resp.payloadSize < SmbSimpleStruct.size then return .errorNetwork
  if SmbSimpleStruct.readWct resp.payload ≠ 0 ∨ SmbSimpleStruct.readBct resp.payload ≠ 0 then
    return .errorNetwork
  return .success

/-! ## Opening and closing -/

/-- The request of `smb_fopen`, `utfPath` being the converted path with its terminator. -/
def smbFopenReq (P : Platform) (tid : UInt16) (utfPath : List UInt8) (oFlags : UInt32) :
    SmbMessage :=
  let msg := (smbMessageNew P smbCmdCreate).setTid tid
  let rw := oFlags &&& smbModRw = smbModRw
  let req : SmbCreateReq :=
    { wct := 24
      accessMask := oFlags
      shareAccess := smbShareRead ||| smbShareWrite
      disposition := if rw then smbDispositionFileSupersede else smbDispositionFileOpen
      createOpts := if rw then smbCreateoptWriteThrough else 0
      impersonation := smbImpersonationSecImpersonate
      securityFlags := smbSecurityNoTracking
      pathLength := UInt16.ofNat utfPath.length
      bct := UInt16.ofNat (utfPath.length + 1) }
  let msg := smbMessageAppend msg req.bytes
  let msg := smbMessagePut8 msg 0
  smbMessageAppend msg utfPath

/-- The file `smb_fopen` makes of its reply. -/
def smbFopenFile (tid : UInt16) (resp : Mem) : SmbFile where
  fid := SmbCreateResp.fid resp
  tid := tid
  created := SmbCreateResp.created resp
  accessed := SmbCreateResp.accessed resp
  written := SmbCreateResp.written resp
  changed := SmbCreateResp.changed resp
  allocSize := SmbCreateResp.allocSize resp
  size := SmbCreateResp.fileSize resp
  attr := SmbCreateResp.attr resp
  isDir := (SmbCreateResp.isDir resp).toUInt32

/-- `smb_fopen`. -/
def smbFopen (P : Platform) (tid : UInt16) (path : List UInt8) (oFlags : UInt32) :
    SmbM (DsmCode × Option UInt32) := do
  let some _ := smbSessionShareGet (← get) tid | return (.errorGeneric, none)
  let utfPath := smbToUtf16 P (path ++ [0])
  if utfPath = [] then return (.errorCharset, none)
  if !(← smbSessionSendMsg (smbFopenReq P tid utfPath oFlags)) then return (.errorNetwork, none)
  let some resp ← smbSessionRecvMsg | return (.errorNetwork, none)
  if !(← smbSessionCheckNtStatus resp) then return (.errorNt, none)
  if resp.payloadSize < SmbCreateResp.size then return (.errorNetwork, none)
  let file := smbFopenFile tid resp.payload
  modify fun s => smbSessionFileAdd s tid file
  return (.success, some (smbFd tid file.fid))

/-- The request of `smb_fclose`. -/
def smbFcloseReq (P : Platform) (fd : UInt32) : SmbMessage :=
  let msg := (smbMessageNew P smbCmdClose).setTid (smbFdTid fd)
  let req : SmbCloseReq := { wct := 3, fid := smbFdFid fd, lastWrite := 0xffffffff, bct := 0 }
  smbMessageAppend msg req.bytes

/-- `smb_fclose`, which takes no notice of what becomes of the request. -/
def smbFclose (P : Platform) (fd : UInt32) : SmbM Unit := do
  if fd = 0 then return
  let r := smbSessionFileRemove (← get) fd
  let some _ := r.1 | return
  set r.2
  let _ ← smbSessionSendMsg (smbFcloseReq P fd)
  let _ ← smbSessionRecvMsg

/-! ## Reading and writing -/

/-- `smb_fseek` operations; any other `whence` leaves the position alone. -/
inductive SmbSeek where
  | set
  | cur
  deriving DecidableEq, Repr

/-- `smb_fseek`. -/
def smbFseek (fd : UInt32) (offset : Int) (whence : Option SmbSeek) : SmbM Int := do
  let some file := smbSessionFileGet (← get) fd | return -1
  let position :=
    match whence with
    | some .set => offset
    | some .cur => file.offset + offset
    | none => file.offset
  modify fun s => smbSessionFileUpdate s fd fun file => { file with offset := position }
  return position

/-- The request of `smb_fread`. -/
def smbFreadReq (P : Platform) (file : SmbFile) (bufSize : Nat) : SmbMessage :=
  let msg := (smbMessageNew P smbCmdRead).setTid file.tid
  let maxRead := min 0xffff bufSize
  let req : SmbReadReq :=
    { wct := 12
      fid := file.fid
      offset := UInt32.ofInt file.offset
      maxCount := UInt16.ofNat maxRead
      minCount := UInt16.ofNat maxRead
      offsetHigh := UInt32.ofInt (file.offset >>> (32 : Nat)) }
  smbMessageAppend msg req.bytes

/-- `smb_fread`; `copy` says whether `buf` is a buffer at all. The bytes are those copied to it. -/
def smbFread (P : Platform) (fd : UInt32) (copy : Bool) (bufSize : Nat) :
    SmbM (Int × Option (List UInt8)) := do
  let some file := smbSessionFileGet (← get) fd | return (-1, none)
  if !(← smbSessionSendMsg (smbFreadReq P file bufSize)) then return (-1, none)
  let some resp ← smbSessionRecvMsg | return (-1, none)
  if !(← smbSessionCheckNtStatus resp) then return (-1, none)
  if resp.payloadSize < SmbReadResp.size then return (DsmCode.errorNetwork.toInt, none)
  let dataLen := (SmbReadResp.dataLen resp.payload).toNat
  let dataOffset := (SmbReadResp.dataOffset resp.payload).toNat
  if smbHeaderSize + resp.payloadSize < dataOffset + dataLen then
    return (DsmCode.errorNetwork.toInt, none)
  let _ ← smbFseek fd dataLen (some .cur)
  return (dataLen, if copy then some (resp.packet.read dataOffset dataLen) else none)

/-- `max_write`: what is left of a frame behind the two headers. -/
def smbMaxWrite : Nat := 65535 - smbHeaderSize - SmbWriteReq.size

/-- The request of `smb_fwrite`. -/
def smbFwriteReq (P : Platform) (file : SmbFile) (buf : List UInt8) : SmbMessage :=
  let msg := (smbMessageNew P smbCmdWrite).setTid file.tid
  let maxWrite := min smbMaxWrite buf.length
  let req : SmbWriteReq :=
    { wct := 14
      fid := file.fid
      offset := UInt32.ofInt file.offset
      writeMode := smbWritemodeWritethrough
      dataLen := UInt16.ofNat maxWrite
      dataOffset := UInt16.ofNat (smbHeaderSize + SmbWriteReq.size)
      offsetHigh := UInt32.ofInt (file.offset >>> (32 : Nat))
      bct := UInt16.ofNat maxWrite }
  let msg := smbMessageAppend msg req.bytes
  smbMessageAppend msg (buf.take maxWrite)

/-- `smb_fwrite`. -/
def smbFwrite (P : Platform) (fd : UInt32) (buf : List UInt8) : SmbM Int := do
  let some file := smbSessionFileGet (← get) fd | return -1
  if !(← smbSessionSendMsg (smbFwriteReq P file buf)) then return -1
  let some resp ← smbSessionRecvMsg | return -1
  if !(← smbSessionCheckNtStatus resp) then return -1
  if resp.payloadSize < SmbWriteResp.size then return DsmCode.errorNetwork.toInt
  let dataLen := (SmbWriteResp.dataLen resp.payload).toNat
  let _ ← smbFseek fd dataLen (some .cur)
  return dataLen

/-! ## Removing, moving and creating -/

/-- The request of `smb_file_rm`. -/
def smbFileRmReq (P : Platform) (tid : UInt16) (utfPattern : List UInt8) : SmbMessage :=
  let msg := (smbMessageNew P smbCmdRmfile).setTid tid
  let msg := msg.setHeader smbHeaderFlags2 (le16 smbFlags2LongNames)
  let req : SmbFileRmReq :=
    { wct := 0x01
      searchAttributes := smbAttrHidden ||| smbAttrSys
      bct := UInt16.ofNat (utfPattern.length + 1)
      bufferFormat := 0x04 }
  smbMessageAppend (smbMessageAppend msg req.bytes) utfPattern

/-- `smb_file_rm`, which waits for a reply even if the request could not be sent. -/
def smbFileRm (P : Platform) (tid : UInt16) (path : List UInt8) : SmbM DsmCode := do
  let utfPattern := smbToUtf16 P (path ++ [0])
  if utfPattern = [] then return .errorCharset
  let _ ← smbSessionSendMsg (smbFileRmReq P tid utfPattern)
  smbSimpleReply

/-- The request of `smb_file_mv`. -/
def smbFileMvReq (P : Platform) (tid : UInt16) (utfOld utfNew : List UInt8) : SmbMessage :=
  let msg := (smbMessageNew P smbCmdMove).setTid tid
  let msg := msg.setHeader smbHeaderFlags2 (le16 smbFlags2LongNames)
  let req : SmbFileMvReq :=
    { wct := 0x01
      searchAttributes := smbAttrHidden ||| smbAttrSys
      bct := UInt16.ofNat (utfOld.length + utfNew.length + 3) }
  let msg := smbMessagePut8 (smbMessageAppend msg req.bytes) 0x04
  let msg := smbMessageAppend msg utfOld
  let msg := smbMessagePut8 (smbMessagePut8 msg 0x00) 0x04
  smbMessageAppend msg utfNew

/-- `smb_file_mv`. -/
def smbFileMv (P : Platform) (tid : UInt16) (oldPath newPath : List UInt8) : SmbM DsmCode := do
  let utfOld := smbToUtf16 P (oldPath ++ [0])
  if utfOld = [] then return .errorCharset
  let utfNew := smbToUtf16 P (newPath ++ [0])
  if utfNew = [] then return .errorCharset
  let _ ← smbSessionSendMsg (smbFileMvReq P tid utfOld utfNew)
  smbSimpleReply

/-- The request of the two directory operations. -/
def smbDirectoryReq (P : Platform) (cmd : UInt8) (tid : UInt16) (utfPattern : List UInt8) :
    SmbMessage :=
  let msg := (smbMessageNew P cmd).setTid tid
  let req : SmbDirectoryReq :=
    { wct := 0x00, bct := UInt16.ofNat (utfPattern.length + 1), bufferFormat := 0x04 }
  smbMessageAppend (smbMessageAppend msg req.bytes) utfPattern

/-- The body the two directory operations share. -/
def smbDirectoryOp (P : Platform) (cmd : UInt8) (tid : UInt16) (path : List UInt8) :
    SmbM DsmCode := do
  let utfPattern := smbToUtf16 P (path ++ [0])
  if utfPattern = [] then return .errorCharset
  let _ ← smbSessionSendMsg (smbDirectoryReq P cmd tid utfPattern)
  smbSimpleReply

/-- `smb_directory_rm`. -/
def smbDirectoryRm (P : Platform) (tid : UInt16) (path : List UInt8) : SmbM DsmCode :=
  smbDirectoryOp P smbCmdRmdir tid path

/-- `smb_directory_create`. -/
def smbDirectoryCreate (P : Platform) (tid : UInt16) (path : List UInt8) : SmbM DsmCode :=
  smbDirectoryOp P smbCmdMkdir tid path

end Libdsm
