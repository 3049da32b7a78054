import Libdsm.Smb.SessionMsg

/-!
# Searches and queries (`src/smb_trans2.c`)

A TRANS2 answer may come in several messages. `smb_tr2_recv` puts them together, and `smb_find`
reads the entries of a directory off the FIND_FIRST answer and the FIND_NEXT answers after it.
Offsets into a payload stand for the pointers of the source.
-/

namespace Libdsm

/-! ## Receiving an answer -/

/-- What the answer still lacks after a message: `remaining`. -/
def smbTr2Remaining (tr2 : Mem) : Int :=
  (SmbTrans2Resp.totalDataCount tr2).toNat -
    ((SmbTrans2Resp.dataDisplacement tr2).toNat + (SmbTrans2Resp.dataCount tr2).toNat : Nat)

/-- The loop of `smb_tr2_recv`. A message takes bytes off the stream, so their number bounds the
turns. -/
def smbTr2RecvLoop : Nat → Int → SmbMessage → SmbM SmbMessage
  | 0, _, res => return res
  | fuel + 1, remaining, res => do
    if ¬ 0 < remaining then return res
    let some recv ← smbSessionRecvMsg | return res
    let tr2 := recv.payload
    let dataCount := (SmbTrans2Resp.dataCount tr2).toNat
    let res := smbMessageAppend res (tr2.read SmbTrans2Resp.size dataCount)
    smbTr2RecvLoop fuel (smbTr2Remaining tr2) res

/-- `growth`: a difference of two 16-bit numbers, taken to be a `size_t`. -/
def smbTr2Growth (tr2 : Mem) : Nat :=
  sizeSub (SmbTrans2Resp.totalDataCount tr2).toNat (SmbTrans2Resp.dataCount tr2).toNat

/-- `smb_tr2_recv` once `smb_message_grow` has returned, `recv` being the first message. -/
def smbTr2Gather (recv : SmbMessage) : Option SmbMessage → SmbM (Option SmbMessage)
  | none => return none
  | some res => do
    let s ← get
    let res ← smbTr2RecvLoop (s.tcp.inbox.flatten.length + 1) (smbTr2Remaining recv.payload)
      { res with cursor := recv.payloadSize }
    return some res

/-- `smb_tr2_recv`. -/
def smbTr2Recv (P : Platform) : SmbM (Option SmbMessage) := do
  let some recv ← smbSessionRecvMsg | return none
  smbTr2Gather recv (smbMessageGrow P recv (smbTr2Growth recv.payload))

/-! ## Parsing entries -/

/-- The file made of the directory entry at `entry`, `name` being its converted name. -/
def smbTr2Find2File (entry : Mem) (name : List UInt8) : SmbFile where
  name := some name
  nameLen := name.length
  created := SmbTr2Find2Entry.created entry
  accessed := SmbTr2Find2Entry.accessed entry
  written := SmbTr2Find2Entry.written entry
  changed := SmbTr2Find2Entry.changed entry
  size := SmbTr2Find2Entry.fileSize entry
  allocSize := SmbTr2Find2Entry.allocSize entry
  attr := SmbTr2Find2Entry.attr entry
  isDir := SmbTr2Find2Entry.attr entry &&& smbAttrDir

/-- `smb_tr2_find2_parse_entries`, with `count` turns to go, at offset `iter`. -/
def smbTr2Find2ParseEntries (P : Platform) (payload : Mem) (eod : Nat) :
    Nat → Nat → List SmbFile → List SmbFile
  | 0, _, files => files
  | count + 1, iter, files =>
    if iter < eod then
      let entry := payload.shift iter
      let nameLen := (SmbTr2Find2Entry.nameLen entry).toNat
      let name := smbFromUtf16 P (entry.read SmbTr2Find2Entry.size nameLen)
      if name = [] then files
      else
        smbTr2Find2ParseEntries P payload eod count
          (iter + (SmbTr2Find2Entry.nextEntry entry).toNat) (smbTr2Find2File entry name :: files)
    else files

/-- `tr2->payload`, where the parameters start. -/
def smbTr2Params (msg : SmbMessage) : Mem := msg.payload.shift SmbTrans2Resp.size

/-- `smb_find_first_parse`. -/
def smbFindFirstParse (P : Platform) (msg : SmbMessage) (files : List SmbFile) : List SmbFile :=
  smbTr2Find2ParseEntries P msg.payload msg.payloadSize
    (SmbTr2Findfirst2Params.count (smbTr2Params msg)).toNat
    (SmbTrans2Resp.size + SmbTr2Findfirst2Params.size) files

/-- `smb_find_next_parse`. -/
def smbFindNextParse (P : Platform) (msg : SmbMessage) (files : List SmbFile) : List SmbFile :=
  smbTr2Find2ParseEntries P msg.payload msg.payloadSize
    (SmbTr2Findnext2Params.count (smbTr2Params msg)).toNat
    (SmbTrans2Resp.size + SmbTr2Findnext2Params.size) files

/-! ## Searching -/

/-- The padding that brings a byte count to three modulo four. -/
def smbTr2Padding (bct : Nat) : Nat := (7 - bct % 4) % 4

/-- A TRANS2 request: the parameters, the pattern and the padding after it. -/
def smbTrans2Msg (P : Platform) (tid : UInt16) (tr2 : SmbTrans2Req) (params utf : List UInt8)
    (padding : Nat) : SmbMessage :=
  let msg := (smbMessageNew P smbCmdTrans2).setTid tid
  let msg := smbMessageAppend msg tr2.bytes
  let msg := smbMessageAppend msg params
  let msg := smbMessageAppend msg utf
  (List.replicate padding 0).foldl smbMessagePut8 msg

/-- The request of `smb_trans2_find_first`. -/
def smbTrans2FindFirstReq (P : Platform) (tid : UInt16) (utfPattern : List UInt8) : SmbMessage :=
  let paramCount := SmbTr2Findfirst2.size + utfPattern.length
  let padding := smbTr2Padding (paramCount + 3)
  let tr2 : SmbTrans2Req :=
    { wct := 15
      maxParamCount := 10
      maxDataCount := 0xffff
      paramOffset := 68
      dataCount := 0
      dataOffset := 88
      setupCount := 1
      cmd := smbTr2FindFirst
      totalParamCount := UInt16.ofNat paramCount
      paramCount := UInt16.ofNat paramCount
      bct := UInt16.ofNat (paramCount + 3 + padding) }
  let find : SmbTr2Findfirst2 :=
    { attrs := smbFind2AttrDefault
      count := 1366
      flags := smbFind2FlagCloseEos ||| smbFind2FlagResume
      interest := smbFind2InterestBothDirectoryInfo }
  smbTrans2Msg P tid tr2 find.bytes utfPattern padding

/-- `smb_trans2_find_first`. -/
def smbTrans2FindFirst (P : Platform) (tid : UInt16) (pattern : List UInt8) :
    SmbM (Option SmbMessage) := do
  let utfPattern := smbToUtf16 P (pattern ++ [0])
  if utfPattern = [] then return none
  if !(← smbSessionSendMsg (smbTrans2FindFirstReq P tid utfPattern)) then return none
  smbTr2Recv P

/-- The request of `smb_trans2_find_next`. -/
def smbTrans2FindNextReq (P : Platform) (tid resumeKey sid : UInt16) (utfPattern : List UInt8) :
    SmbMessage :=
  let paramCount := SmbTr2Findnext2.size + utfPattern.length
  let padding := smbTr2Padding (paramCount + 3)
  let tr2 : SmbTrans2Req :=
    { wct := 0x0f
      totalParamCount := UInt16.ofNat paramCount
      totalDataCount := 0x0000
      maxParamCount := 10
      maxDataCount := 0xffff
      paramCount := UInt16.ofNat paramCount
      paramOffset := 68
      dataCount := 0
      dataOffset := 88
      setupCount := 1
      cmd := smbTr2FindNext
      bct := UInt16.ofNat (paramCount + 3 + padding) }
  let find : SmbTr2Findnext2 :=
    { sid := sid
      count := 255
      interest := smbFind2InterestBothDirectoryInfo
      flags := smbFind2FlagCloseEos ||| smbFind2FlagContinue
      resumeKey := resumeKey.toUInt32 }
  smbTrans2Msg P tid tr2 find.bytes utfPattern padding

/-- `smb_trans2_find_next`. -/
def smbTrans2FindNext (P : Platform) (tid resumeKey sid : UInt16) (pattern : List UInt8) :
    SmbM (Option SmbMessage) := do
  let utfPattern := smbToUtf16 P (pattern ++ [0])
  if utfPattern = [] then return none
  if !(← smbSessionSendMsg (smbTrans2FindNextReq P tid resumeKey sid utfPattern)) then
    return none
  smbTr2Recv P

/-- The FIND_NEXT loop of `smb_find`. Each turn sends a request, so the sends still to come bound
the turns. -/
def smbFindLoop (P : Platform) (tid sid : UInt16) (pattern : List UInt8) :
    Nat → Bool → UInt16 → UInt16 → List SmbFile → SmbM (List SmbFile)
  | 0, _, _, _, files => return files
  | fuel + 1, endOfSearch, resumeKey, errorOffset, files => do
    if endOfSearch ∨ errorOffset ≠ 0 then return files
    let some msg ← smbTrans2FindNext P tid resumeKey sid pattern | return []
    let params := smbTr2Params msg
    let files := smbFindNextParse P msg files
    let endOfSearch := SmbTr2Findnext2Params.eos params ≠ 0 ∨ files = []
    smbFindLoop P tid sid pattern fuel endOfSearch (SmbTr2Findnext2Params.lastNameOffset params)
      (SmbTr2Findnext2Params.eaErrorOffset params) files

/-- `smb_find`; the empty list is `NULL`. -/
def smbFind (P : Platform) (tid : UInt16) (pattern : List UInt8) : SmbM (List SmbFile) := do
  let some msg ← smbTrans2FindFirst P tid pattern | return []
  let files := smbFindFirstParse P msg []
  if files = [] then return []
  let params := smbTr2Params msg
  let s ← get
  smbFindLoop P tid (SmbTr2Findfirst2Params.id params) pattern (s.tcp.sends.length + 1)
    (SmbTr2Findfirst2Params.eos params ≠ 0) (SmbTr2Findfirst2Params.lastNameOffset params)
    (SmbTr2Findfirst2Params.eaErrorOffset params) files

/-! ## Querying a path -/

/-- The request of `smb_fstat`. -/
def smbFstatReq (P : Platform) (tid : UInt16) (utfPath : List UInt8) : SmbMessage :=
  let msgLen := SmbTrans2Req.size + SmbTr2Query.size + utfPath.length
  let padding := (4 - msgLen % 4) % 4
  let paramCount := UInt16.ofNat (utfPath.length + SmbTr2Query.size)
  let tr2 : SmbTrans2Req :=
    { wct := 15
      totalParamCount := paramCount
      paramCount := paramCount
      maxParamCount := 2
      maxDataCount := 0xffff
      paramOffset := 68
      dataCount := 0
      dataOffset := 96
      setupCount := 1
      cmd := smbTr2QueryPath
      bct := UInt16.ofNat (SmbTr2Query.size + utfPath.length + padding) }
  let query : SmbTr2Query := { interest := smbFind2QueryFileAllInfo }
  smbTrans2Msg P tid tr2 query.bytes utfPath padding

/-- The offset of the `smb_tr2_path_info` in the payload. -/
def smbFstatInfo : Nat := SmbTrans2Resp.size + 4

/-- The file `smb_fstat` makes of its reply. The terminator is put at half the length of the name
received, in a buffer that behind the converted name holds what the heap held; a name that does not
convert has no buffer, and the store stops the program. -/
def smbFstatFile (P : Platform) (info : Mem) : SmbFile :=
  let nameLen := (SmbTr2PathInfo.nameLen info).toNat
  let name := smbFromUtf16 P (info.read SmbTr2PathInfo.size nameLen)
  let buf := (P.heap.write 0 name).write (nameLen / 2) [0]
  { name := if name = [] then none else some ((buf.read 0 (nameLen / 2)).takeWhile (· ≠ 0))
    nameLen := name.length
    created := SmbTr2PathInfo.created info
    accessed := SmbTr2PathInfo.accessed info
    written := SmbTr2PathInfo.written info
    changed := SmbTr2PathInfo.changed info
    allocSize := SmbTr2PathInfo.allocSize info
    size := SmbTr2PathInfo.fileSize info
    attr := SmbTr2PathInfo.attr info
    isDir := (SmbTr2PathInfo.isDir info).toUInt32 }

/-- `smb_fstat`, which takes the answer to be one message. -/
def smbFstat (P : Platform) (tid : UInt16) (path : List UInt8) : SmbM (Option SmbFile) := do
  let utfPath := smbToUtf16 P (path ++ [0])
  if utfPath = [] then return none
  if !(← smbSessionSendMsg (smbFstatReq P tid utfPath)) then return none
  let some reply ← smbSessionRecvMsg | return none
  if !(← smbSessionCheckNtStatus reply) then return none
  if reply.payloadSize < SmbTr2PathInfo.size then return none
  let info := reply.payload.shift smbFstatInfo
  let nameLen := (SmbTr2PathInfo.nameLen info).toNat
  if reply.payloadSize < smbFstatInfo + SmbTr2PathInfo.size + nameLen then return none
  return some (smbFstatFile P info)

end Libdsm
