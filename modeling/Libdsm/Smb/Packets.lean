import Libdsm.Misc.Endian
import Libdsm.Smb.Defs

/-!
# SMB packets (`src/smb_packets.h`)

A packed structure of a request is a record whose fields start at zero, as `SMB_MSG_INIT_PKT`
leaves them, and `bytes` lays it out. Of a response only the fields the library reads have a name;
each is read from the payload at its offset. `sizeof` of a structure with a flexible array member
counts the fields before it.
-/

namespace Libdsm

/-! ## The header -/

/-- `sizeof(smb_header)`, which is also `sizeof(smb_packet)`. -/
def smbHeaderSize : Nat := 32

/-- The offsets of the header's fields. -/
def smbHeaderCommand : Nat := 4
def smbHeaderStatus : Nat := 5
def smbHeaderFlags : Nat := 9
def smbHeaderFlags2 : Nat := 10
def smbHeaderTid : Nat := 24
def smbHeaderPid : Nat := 26
def smbHeaderUid : Nat := 28

/-- `SMB_ANDX_MEMBERS` as `SMB_MSG_INIT_PKT_ANDX` sets them: no further command. -/
def smbAndxMembers : List UInt8 := [0xff, 0, 0, 0]

/-! ## Requests -/

/-- `smb_simple_struct`. -/
structure SmbSimpleStruct where
  wct : UInt8 := 0
  bct : UInt16 := 0

def SmbSimpleStruct.bytes (r : SmbSimpleStruct) : List UInt8 := [r.wct] ++ le16 r.bct

/-- `smb_session_req`. -/
structure SmbSessionReq where
  wct : UInt8 := 0
  maxBuffer : UInt16 := 0
  mpxCount : UInt16 := 0
  vcCount : UInt16 := 0
  sessionKey : UInt32 := 0
  oemPassLen : UInt16 := 0
  uniPassLen : UInt16 := 0
  reserved2 : UInt32 := 0
  caps : UInt32 := 0
  payloadSize : UInt16 := 0

def SmbSessionReq.size : Nat := 29

def SmbSessionReq.bytes (r : SmbSessionReq) : List UInt8 :=
  [r.wct] ++ smbAndxMembers ++ le16 r.maxBuffer ++ le16 r.mpxCount ++ le16 r.vcCount ++
    le32 r.sessionKey ++ le16 r.oemPassLen ++ le16 r.uniPassLen ++ le32 r.reserved2 ++
    le32 r.caps ++ le16 r.payloadSize

/-- `smb_session_xsec_req`. -/
structure SmbSessionXsecReq where
  wct : UInt8 := 0
  maxBuffer : UInt16 := 0
  mpxCount : UInt16 := 0
  vcCount : UInt16 := 0
  sessionKey : UInt32 := 0
  xsecBlobSize : UInt16 := 0
  reserved2 : UInt32 := 0
  caps : UInt32 := 0
  payloadSize : UInt16 := 0

def SmbSessionXsecReq.size : Nat := 27

def SmbSessionXsecReq.bytes (r : SmbSessionXsecReq) : List UInt8 :=
  [r.wct] ++ smbAndxMembers ++ le16 r.maxBuffer ++ le16 r.mpxCount ++ le16 r.vcCount ++
    le32 r.sessionKey ++ le16 r.xsecBlobSize ++ le32 r.reserved2 ++ le32 r.caps ++
    le16 r.payloadSize

/-- `smb_tree_connect_req`. -/
structure SmbTreeConnectReq where
  wct : UInt8 := 0
  flags : UInt16 := 0
  passwdLen : UInt16 := 0
  bct : UInt16 := 0

def SmbTreeConnectReq.bytes (r : SmbTreeConnectReq) : List UInt8 :=
  [r.wct] ++ smbAndxMembers ++ le16 r.flags ++ le16 r.passwdLen ++ le16 r.bct

/-- `smb_create_req`. -/
structure SmbCreateReq where
  wct : UInt8 := 0
  reserved2 : UInt8 := 0
  pathLength : UInt16 := 0
  flags : UInt32 := 0
  rootFid : UInt32 := 0
  accessMask : UInt32 := 0
  allocSize : UInt64 := 0
  fileAttr : UInt32 := 0
  shareAccess : UInt32 := 0
  disposition : UInt32 := 0
  createOpts : UInt32 := 0
  impersonation : UInt32 := 0
  securityFlags : UInt8 := 0
  bct : UInt16 := 0

def SmbCreateReq.bytes (r : SmbCreateReq) : List UInt8 :=
  [r.wct] ++ smbAndxMembers ++ [r.reserved2] ++ le16 r.pathLength ++ le32 r.flags ++
    le32 r.rootFid ++ le32 r.accessMask ++ le64 r.allocSize ++ le32 r.fileAttr ++
    le32 r.shareAccess ++ le32 r.disposition ++ le32 r.createOpts ++ le32 r.impersonation ++
    [r.securityFlags] ++ le16 r.bct

/-- `smb_close_req`. -/
structure SmbCloseReq where
  wct : UInt8 := 0
  fid : UInt16 := 0
  lastWrite : UInt32 := 0
  bct : UInt16 := 0

def SmbCloseReq.bytes (r : SmbCloseReq) : List UInt8 :=
  [r.wct] ++ le16 r.fid ++ le32 r.lastWrite ++ le16 r.bct

/-- `smb_read_req`. -/
structure SmbReadReq where
  wct : UInt8 := 0
  fid : UInt16 := 0
  offset : UInt32 := 0
  maxCount : UInt16 := 0
  minCount : UInt16 := 0
  maxCountHigh : UInt32 := 0
  remaining : UInt16 := 0
  offsetHigh : UInt32 := 0
  bct : UInt16 := 0

def SmbReadReq.bytes (r : SmbReadReq) : List UInt8 :=
  [r.wct] ++ smbAndxMembers ++ le16 r.fid ++ le32 r.offset ++ le16 r.maxCount ++
    le16 r.minCount ++ le32 r.maxCountHigh ++ le16 r.remaining ++ le32 r.offsetHigh ++ le16 r.bct

/-- `smb_write_req`, the padding byte included. -/
structure SmbWriteReq where
  wct : UInt8 := 0
  fid : UInt16 := 0
  offset : UInt32 := 0
  timeout : UInt32 := 0
  writeMode : UInt16 := 0
  remaining : UInt16 := 0
  reserved : UInt16 := 0
  dataLen : UInt16 := 0
  dataOffset : UInt16 := 0
  offsetHigh : UInt32 := 0
  bct : UInt16 := 0
  padding : UInt8 := 0

def SmbWriteReq.size : Nat := 32

def SmbWriteReq.bytes (r : SmbWriteReq) : List UInt8 :=
  [r.wct] ++ smbAndxMembers ++ le16 r.fid ++ le32 r.offset ++ le32 r.timeout ++
    le16 r.writeMode ++ le16 r.remaining ++ le16 r.reserved ++ le16 r.dataLen ++
    le16 r.dataOffset ++ le32 r.offsetHigh ++ le16 r.bct ++ [r.padding]

/-- `smb_file_rm_req`. -/
structure SmbFileRmReq where
  wct : UInt8 := 0
  searchAttributes : UInt16 := 0
  bct : UInt16 := 0
  bufferFormat : UInt8 := 0

def SmbFileRmReq.bytes (r : SmbFileRmReq) : List UInt8 :=
  [r.wct] ++ le16 r.searchAttributes ++ le16 r.bct ++ [r.bufferFormat]

/-- `smb_directory_rm_req` and `smb_directory_mk_req`, which have the same fields. -/
structure SmbDirectoryReq where
  wct : UInt8 := 0
  bct : UInt16 := 0
  bufferFormat : UInt8 := 0

def SmbDirectoryReq.bytes (r : SmbDirectoryReq) : List UInt8 :=
  [r.wct] ++ le16 r.bct ++ [r.bufferFormat]

/-- `smb_file_mv_req`. -/
structure SmbFileMvReq where
  wct : UInt8 := 0
  searchAttributes : UInt16 := 0
  bct : UInt16 := 0

def SmbFileMvReq.bytes (r : SmbFileMvReq) : List UInt8 :=
  [r.wct] ++ le16 r.searchAttributes ++ le16 r.bct

/-- `smb_trans_req`. -/
structure SmbTransReq where
  wct : UInt8 := 0
  totalParamCount : UInt16 := 0
  totalDataCount : UInt16 := 0
  maxParamCount : UInt16 := 0
  maxDataCount : UInt16 := 0
  maxSetupCount : UInt8 := 0
  reserved : UInt8 := 0
  flags : UInt16 := 0
  timeout : UInt32 := 0
  reserved2 : UInt16 := 0
  paramCount : UInt16 := 0
  paramOffset : UInt16 := 0
  dataCount : UInt16 := 0
  dataOffset : UInt16 := 0
  setupCount : UInt8 := 0
  reserved3 : UInt8 := 0
  pipeFunction : UInt16 := 0
  fid : UInt16 := 0
  bct : UInt16 := 0

def SmbTransReq.size : Nat := 35

def SmbTransReq.bytes (r : SmbTransReq) : List UInt8 :=
  [r.wct] ++ le16 r.totalParamCount ++ le16 r.totalDataCount ++ le16 r.maxParamCount ++
    le16 r.maxDataCount ++ [r.maxSetupCount] ++ [r.reserved] ++ le16 r.flags ++ le32 r.timeout ++
    le16 r.reserved2 ++ le16 r.paramCount ++ le16 r.paramOffset ++ le16 r.dataCount ++
    le16 r.dataOffset ++ [r.setupCount] ++ [r.reserved3] ++ le16 r.pipeFunction ++ le16 r.fid ++
    le16 r.bct

/-- `smb_trans2_req`, the three padding bytes included. -/
structure SmbTrans2Req where
  wct : UInt8 := 0
  totalParamCount : UInt16 := 0
  totalDataCount : UInt16 := 0
  maxParamCount : UInt16 := 0
  maxDataCount : UInt16 := 0
  maxSetupCount : UInt8 := 0
  reserved : UInt8 := 0
  flags : UInt16 := 0
  timeout : UInt32 := 0
  reserve2 : UInt16 := 0
  paramCount : UInt16 := 0
  paramOffset : UInt16 := 0
  dataCount : UInt16 := 0
  dataOffset : UInt16 := 0
  setupCount : UInt8 := 0
  reserved3 : UInt8 := 0
  cmd : UInt16 := 0
  bct : UInt16 := 0

def SmbTrans2Req.size : Nat := 36

def SmbTrans2Req.bytes (r : SmbTrans2Req) : List UInt8 :=
  [r.wct] ++ le16 r.totalParamCount ++ le16 r.totalDataCount ++ le16 r.maxParamCount ++
    le16 r.maxDataCount ++ [r.maxSetupCount] ++ [r.reserved] ++ le16 r.flags ++ le32 r.timeout ++
    le16 r.reserve2 ++ le16 r.paramCount ++ le16 r.paramOffset ++ le16 r.dataCount ++
    le16 r.dataOffset ++ [r.setupCount] ++ [r.reserved3] ++ le16 r.cmd ++ le16 r.bct ++ [0, 0, 0]

/-- `smb_tr2_findfirst2`. -/
structure SmbTr2Findfirst2 where
  attrs : UInt16 := 0
  count : UInt16 := 0
  flags : UInt16 := 0
  interest : UInt16 := 0
  storage : UInt32 := 0

def SmbTr2Findfirst2.size : Nat := 12

def SmbTr2Findfirst2.bytes (r : SmbTr2Findfirst2) : List UInt8 :=
  le16 r.attrs ++ le16 r.count ++ le16 r.flags ++ le16 r.interest ++ le32 r.storage

/-- `smb_tr2_findnext2`. -/
structure SmbTr2Findnext2 where
  sid : UInt16 := 0
  count : UInt16 := 0
  interest : UInt16 := 0
  resumeKey : UInt32 := 0
  flags : UInt16 := 0

def SmbTr2Findnext2.size : Nat := 12

def SmbTr2Findnext2.bytes (r : SmbTr2Findnext2) : List UInt8 :=
  le16 r.sid ++ le16 r.count ++ le16 r.interest ++ le32 r.resumeKey ++ le16 r.flags

/-- `smb_tr2_query`. -/
structure SmbTr2Query where
  interest : UInt16 := 0
  reserved : UInt32 := 0

def SmbTr2Query.size : Nat := 6

def SmbTr2Query.bytes (r : SmbTr2Query) : List UInt8 := le16 r.interest ++ le32 r.reserved

/-! ## Responses

Each function reads one field of the structure it is named after, given the memory the structure
starts at. -/

def SmbSimpleStruct.readWct (p : Mem) : UInt8 := p 0
def SmbSimpleStruct.readBct (p : Mem) : UInt16 := p.u16 1
def SmbSimpleStruct.size : Nat := 3

namespace SmbNegoResp

def size : Nat := 45
def wct (p : Mem) : UInt8 := p 0
def dialectIndex (p : Mem) : UInt16 := p.u16 1
def securityMode (p : Mem) : UInt8 := p 3
def sessionKey (p : Mem) : UInt32 := p.u32 16
def caps (p : Mem) : UInt32 := p.u32 20
def ts (p : Mem) : UInt64 := p.u64 24
def challenge (p : Mem) : UInt64 := p.u64 37

end SmbNegoResp

namespace SmbSessionResp

def size : Nat := 9
def action (p : Mem) : UInt16 := p.u16 5

end SmbSessionResp

namespace SmbSessionXsecResp

def size : Nat := 11
def action (p : Mem) : UInt16 := p.u16 5
def xsecBlobSize (p : Mem) : UInt16 := p.u16 7
def payload (p : Mem) : Mem := p.shift 11

end SmbSessionXsecResp

namespace SmbTreeConnectResp

def size : Nat := 9
def optSupport (p : Mem) : UInt16 := p.u16 5

end SmbTreeConnectResp

namespace SmbTreeConnectRespx

def size : Nat := 17
def optSupport (p : Mem) : UInt16 := p.u16 5
def maxRights (p : Mem) : UInt32 := p.u32 7
def guestRights (p : Mem) : UInt32 := p.u32 11

end SmbTreeConnectRespx

namespace SmbCreateResp

def size : Nat := 71
def fid (p : Mem) : UInt16 := p.u16 6
def created (p : Mem) : UInt64 := p.u64 12
def accessed (p : Mem) : UInt64 := p.u64 20
def written (p : Mem) : UInt64 := p.u64 28
def changed (p : Mem) : UInt64 := p.u64 36
def attr (p : Mem) : UInt32 := p.u32 44
def allocSize (p : Mem) : UInt64 := p.u64 48
def fileSize (p : Mem) : UInt64 := p.u64 56
def isDir (p : Mem) : UInt8 := p 68

end SmbCreateResp

namespace SmbReadResp

def size : Nat := 27
def dataLen (p : Mem) : UInt16 := p.u16 11
def dataOffset (p : Mem) : UInt16 := p.u16 13

end SmbReadResp

namespace SmbWriteResp

def size : Nat := 15
def dataLen (p : Mem) : UInt16 := p.u16 5

end SmbWriteResp

namespace SmbTrans2Resp

def size : Nat := 24
def totalDataCount (p : Mem) : UInt16 := p.u16 3
def dataCount (p : Mem) : UInt16 := p.u16 13
def dataDisplacement (p : Mem) : UInt16 := p.u16 17

end SmbTrans2Resp

namespace SmbTr2Findfirst2Params

def size : Nat := 12
def id (p : Mem) : UInt16 := p.u16 0
def count (p : Mem) : UInt16 := p.u16 2
def eos (p : Mem) : UInt16 := p.u16 4
def eaErrorOffset (p : Mem) : UInt16 := p.u16 6
def lastNameOffset (p : Mem) : UInt16 := p.u16 8

end SmbTr2Findfirst2Params

namespace SmbTr2Findnext2Params

def size : Nat := 8
def count (p : Mem) : UInt16 := p.u16 0
def eos (p : Mem) : UInt16 := p.u16 2
def eaErrorOffset (p : Mem) : UInt16 := p.u16 4
def lastNameOffset (p : Mem) : UInt16 := p.u16 6

end SmbTr2Findnext2Params

namespace SmbTr2Find2Entry

def size : Nat := 94
def nextEntry (p : Mem) : UInt32 := p.u32 0
def created (p : Mem) : UInt64 := p.u64 8
def accessed (p : Mem) : UInt64 := p.u64 16
def written (p : Mem) : UInt64 := p.u64 24
def changed (p : Mem) : UInt64 := p.u64 32
def fileSize (p : Mem) : UInt64 := p.u64 40
def allocSize (p : Mem) : UInt64 := p.u64 48
def attr (p : Mem) : UInt32 := p.u32 56
def nameLen (p : Mem) : UInt32 := p.u32 60

end SmbTr2Find2Entry

namespace SmbTr2PathInfo

def size : Nat := 72
def created (p : Mem) : UInt64 := p.u64 0
def accessed (p : Mem) : UInt64 := p.u64 8
def written (p : Mem) : UInt64 := p.u64 16
def changed (p : Mem) : UInt64 := p.u64 24
def attr (p : Mem) : UInt32 := p.u32 32
def allocSize (p : Mem) : UInt64 := p.u64 40
def fileSize (p : Mem) : UInt64 := p.u64 48
def isDir (p : Mem) : UInt8 := p 61
def nameLen (p : Mem) : UInt32 := p.u32 68

end SmbTr2PathInfo

end Libdsm
