import Libdsm.Smb.File

/-!
# Shares (`src/smb_share.c`)

Connecting and disconnecting trees, and the enumeration of a server's shares over the `srvsvc`
pipe.
-/

namespace Libdsm

/-! ## Trees -/

/-- The request of `smb_tree_connect`. A path that does not convert leaves the path out. -/
def smbTreeConnectReq (P : Platform) (srvName name : List UInt8) : SmbMessage :=
  let path := ascii "\\\\" ++ srvName ++ ascii "\\" ++ name
  let utfPath := smbToUtf16 P (path ++ [0])
  let msg := (smbMessageNew P smbCmdTreeConnect).setTid 0xffff
  let msg := smbMessageSetAndxMembers msg
  let req : SmbTreeConnectReq :=
    { wct := 4, flags := 0x0c, passwdLen := 1, bct := UInt16.ofNat (utfPath.length + 6 + 1) }
  let msg := smbMessageAppend msg req.bytes
  let msg := smbMessagePut8 msg 0
  let msg := smbMessageAppendUtf16 msg utfPath
  smbMessageAppend msg (cString (ascii "?????"))

/-- The share `smb_tree_connect` makes of its reply, which has one of two forms. -/
def smbTreeConnectShare (resp : SmbMessage) : Option SmbShare :=
  if resp.payload 0 = 3 then
    if resp.payloadSize < SmbTreeConnectResp.size then none
    else some { tid := resp.tid, opts := SmbTreeConnectResp.optSupport resp.payload }
  else if resp.payload 0 = 7 then
    if resp.payloadSize < SmbTreeConnectRespx.size then none
    else some
      { tid := resp.tid
        opts := SmbTreeConnectRespx.optSupport resp.payload
        rights := (SmbTreeConnectRespx.maxRights resp.payload).toUInt16
        guestRights := (SmbTreeConnectRespx.guestRights resp.payload).toUInt16 }
  else none

/-- `smb_tree_connect`. -/
def smbTreeConnect (P : Platform) (name : List UInt8) : SmbM (DsmCode × Option UInt16) := do
  let s ← get
  if !(← smbSessionSendMsg (smbTreeConnectReq P s.srv.name name)) then
    return (.errorNetwork, none)
  let some resp ← smbSessionRecvMsg | return (.errorNetwork, none)
  if !(← smbSessionCheckNtStatus resp) then return (.errorNt, none)
  let some share := smbTreeConnectShare resp | return (.errorNetwork, none)
  modify fun s => smbSessionShareAdd s share
  return (.success, some share.tid)

/-- The request of `smb_tree_disconnect`. -/
def smbTreeDisconnectReq (P : Platform) (tid : UInt16) : SmbMessage :=
  let req : SmbSimpleStruct := {}
  smbMessageAppend ((smbMessageNew P smbCmdTreeDisconnect).setTid tid) req.bytes

/-- `smb_tree_disconnect`. The share stays in the table. -/
def smbTreeDisconnect (P : Platform) (tid : UInt16) : SmbM DsmCode := do
  if !(← smbSessionSendMsg (smbTreeDisconnectReq P tid)) then return .errorNetwork
  smbSimpleReply

/-! ## The enumeration reply -/

/-- `smb_share_list`: the elements stored, `none` a `NULL` one; a `NULL` follows the last. -/
abbrev SmbShareList := List (Option (List UInt8))

/-- `smb_share_list_count`: the elements up to the first `NULL`. -/
def smbShareListCount (list : SmbShareList) : Nat := (list.takeWhile Option.isSome).length

/-- `n * 2` on `uint32_t`, and `n` rounded up to an even number. -/
def twice32 (n : UInt32) : Nat := (n * 2).toNat
def even32 (n : UInt32) : UInt32 := if n % 2 ≠ 0 then n + 1 else n

/-- The loop of `smb_share_parse_enum`; `data` and `eod` are offsets into the payload. -/
def smbShareParseEnumLoop (P : Platform) (payload : Mem) (eod : Nat) :
    Nat → Nat → SmbShareList
  | 0, _ => []
  | count + 1, data =>
    if ¬ data < eod then []
    else if eod < data + 4 then []
    else
      let nameLen := payload.u32 data
      let data := data + 12
      if eod < data + 4 + twice32 nameLen + 4 then []
      else
        let utf := smbFromUtf16 P (payload.read data (twice32 nameLen))
        let data := data + twice32 (even32 nameLen)
        let comLen := payload.u32 data
        let data := data + 12 + twice32 (even32 comLen)
        (if utf = [] then none else some utf) :: smbShareParseEnumLoop P payload eod count data

/-- `share_count`. -/
def smbShareCount (msg : SmbMessage) : UInt32 := msg.payload.u32 60

/-- `smb_share_parse_enum`; the count it returns is the number of elements stored. -/
def smbShareParseEnum (P : Platform) (msg : SmbMessage) : SmbShareList :=
  let count := smbShareCount msg
  smbShareParseEnumLoop P msg.payload msg.payloadSize count.toNat (72 + (count * 12).toNat)

/-- The number of elements `smb_share_parse_enum` allocates, `share_count + 1` on `uint32_t`. -/
def smbShareListSize (msg : SmbMessage) : Nat := (smbShareCount msg + 1).toNat

/-- The element at an index of the list: what was stored there, else the `NULL` of `calloc`. Behind
the block there is no element. -/
def smbShareListElem (P : Platform) (msg : SmbMessage) (i : Nat) : Option (Option (List UInt8)) :=
  if i < smbShareListSize msg then some ((smbShareParseEnum P msg).getD i none) else none

/-! ## Listing the shares -/

/-- A run of `smb_message_put` calls, each given the bytes it puts. -/
def smbMessagePuts (msg : SmbMessage) (puts : List (List UInt8)) : SmbMessage :=
  puts.foldl smbMessageAppend msg

/-- The padding, `\PIPE\` and the padding behind it. -/
def smbPutPipe (P : Platform) (msg : SmbMessage) : SmbMessage :=
  let msg := smbMessagePut8 msg 0
  let msg := smbMessagePutUtf16 P msg (cString (ascii "\\PIPE\\"))
  smbMessagePut16 msg 0

/-- The bind request of `smb_share_get_list`. -/
def smbShareBindReq (P : Platform) (ipcTid srvsvcFid : UInt16) : SmbMessage :=
  let msg := (smbMessageNew P smbCmdTrans).setTid ipcTid
  let trans : SmbTransReq :=
    { wct := 16
      totalDataCount := 72
      maxDataCount := 0xffff
      paramOffset := 84
      dataCount := 72
      dataOffset := 84
      setupCount := 2
      pipeFunction := 0x26
      fid := srvsvcFid
      bct := 89 }
  let msg := smbMessageAppend msg trans.bytes
  let msg := smbPutPipe P msg
  let msg := smbMessagePuts msg
    [[5], [0], [0x0b], [0x03], le32 0x10, le16 72, le16 0, le32 19, le16 0xffff, le16 0xffff,
      le32 0, le32 1, le16 0, le16 1]
  let msg := smbMessagePutUuid msg 0x4b324fc8 0x1670 0x01d3
    [0x12, 0x78, 0x5a, 0x47, 0xbf, 0x6e, 0xe1, 0x88]
  let msg := smbMessagePuts msg [le16 3, le16 0]
  let msg := smbMessagePutUuid msg 0x8a885d04 0x1ceb 0x11c9
    [0x9f, 0xe8, 0x08, 0x00, 0x2b, 0x10, 0x48, 0x60]
  smbMessagePut32 msg 2

/-- The `NetShareEnumAll` request of `smb_share_get_list`. -/
def smbShareEnumReq (P : Platform) (srvName : List UInt8) (ipcTid srvsvcFid : UInt16) :
    SmbMessage :=
  let msg := (smbMessageNew P smbCmdTrans).setTid ipcTid
  let msg := smbMessageAdvance msg SmbTransReq.size
  let msg := smbPutPipe P msg
  let msg := smbMessagePuts msg [[5], [0], [0], [0x03], le32 0x10]
  let fragLenCursor := msg.cursor
  let nameCount := le32 (UInt32.ofNat (srvName.length + 1))
  let msg := smbMessagePuts msg
    [le16 0, le16 0, le32 12, le32 64, le16 0, le16 15, le32 0x00020000, nameCount, le32 0,
      nameCount]
  let msg := smbMessagePutUtf16 P msg (srvName ++ [0])
  let msg := if srvName.length % 2 = 0 then smbMessagePut16 msg 0 else msg
  let msg := smbMessagePuts msg
    [le32 1, le32 1, le32 0x00020004, le64 0, le32 0xffffffff, le32 0x00020008, le32 0]
  let bct := UInt16.ofNat (msg.cursor - SmbTransReq.size)
  let trans : SmbTransReq :=
    { wct := 16
      maxDataCount := 4280
      setupCount := 2
      pipeFunction := 0x26
      fid := srvsvcFid
      bct := bct
      dataCount := bct - 17
      totalDataCount := bct - 17
      dataOffset := 84
      paramOffset := 84 }
  let msg := smbMessageInsert msg 0 trans.bytes
  msg.poke fragLenCursor [(bct - 17).toUInt8]

/-- `smb_share_get_list` between opening and closing the pipe. A message that was not received is
whatever `resp` held before: uninitialised at first, the bind reply after that. -/
def smbShareEnum (P : Platform) (ipcTid : UInt16) (srvsvcFd : UInt32) :
    SmbM (DsmCode × Option SmbShareList) := do
  let fid := smbFdFid srvsvcFd
  if !(← smbSessionSendMsg (smbShareBindReq P ipcTid fid)) then return (.errorNetwork, none)
  let uninit : SmbMessage := { payloadSize := (P.stack.u64 0).toNat, cursor := 0, packet := P.stack }
  let (res, resp) ← smbSessionRecvInto uninit
  if resp.payloadSize < 71 then return (.errorNetwork, none)
  if res = 0 ∨ resp.payload 68 ≠ 0 then return (.errorNetwork, none)
  let s ← get
  if !(← smbSessionSendMsg (smbShareEnumReq P s.srv.name ipcTid fid)) then
    return (.errorNetwork, none)
  let (res, resp) ← smbSessionRecvInto resp
  if resp.payloadSize < 4 then return (.errorNetwork, none)
  if res = 0 ∧ resp.payload (resp.payloadSize - 4) ≠ 0 then return (.errorNetwork, none)
  return (.success, some (smbShareParseEnum P resp))

/-- `smb_share_get_list`; `*pcount` is the length of the list. -/
def smbShareGetList (P : Platform) : SmbM (DsmCode × Option SmbShareList) := do
  let (ret, ipcTid) ← smbTreeConnect P (ascii "IPC$")
  let some ipcTid := ipcTid | return (ret, none)
  let (ret, srvsvcFd) ← smbFopen P ipcTid (ascii "\\srvsvc") (smbModRead ||| smbModWrite)
  let some srvsvcFd := srvsvcFd | return (ret, none)
  let res ← smbShareEnum P ipcTid srvsvcFd
  smbFclose P srvsvcFd
  return res

end Libdsm
