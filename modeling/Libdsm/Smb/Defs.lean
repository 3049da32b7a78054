import Libdsm.Netbios.Utils

/-!
# SMB constants (`src/smb_defs.h`, `include/bdsm/smb_defs.h`)
-/

namespace Libdsm

/-- `SMB_OS` and `SMB_LANMAN`. -/
def smbOs : List UInt8 := ascii "Unix"
def smbLanman : List UInt8 := ascii "liBDSM"

/-- `SMB_MAGIC`. -/
def smbMagic : List UInt8 := [0xff, 0x53, 0x4d, 0x42]

/-- `SMB_DIALECTS`, each with its leading format byte. -/
def smbDialects : List (List UInt8) := [2 :: ascii "Samba", 2 :: ascii "NT LM 0.12"]

/-- `SMB_DEFAULT_BUFSIZE`, `SMB_CREDS_MAXLEN` and `SMB_SESSION_MAX_BUFFER`. -/
def smbDefaultBufsize : Nat := 8192
def smbCredsMaxlen : Nat := 128
def smbSessionMaxBuffer : UInt16 := 0xffff

/-! ## Commands -/

def smbCmdMkdir : UInt8 := 0x00
def smbCmdRmdir : UInt8 := 0x01
def smbCmdClose : UInt8 := 0x04
def smbCmdRmfile : UInt8 := 0x06
def smbCmdMove : UInt8 := 0x07
def smbCmdTrans : UInt8 := 0x25
def smbCmdRead : UInt8 := 0x2e
def smbCmdWrite : UInt8 := 0x2f
def smbCmdTrans2 : UInt8 := 0x32
def smbCmdTreeDisconnect : UInt8 := 0x71
def smbCmdNegotiate : UInt8 := 0x72
def smbCmdSetup : UInt8 := 0x73
def smbCmdLogoff : UInt8 := 0x74
def smbCmdTreeConnect : UInt8 := 0x75
def smbCmdCreate : UInt8 := 0xa2

def smbTr2FindFirst : UInt16 := 0x0001
def smbTr2FindNext : UInt16 := 0x0002
def smbTr2QueryPath : UInt16 := 0x0005

/-! ## Flags -/

def smbFlags2LongNames : UInt16 := 0x0001

def smbFind2InterestBothDirectoryInfo : UInt16 := 0x0104
def smbFind2QueryFileAllInfo : UInt16 := 0x0107

def smbImpersonationSecImpersonate : UInt32 := 2
def smbSecurityNoTracking : UInt8 := 0

def smbAttrHidden : UInt16 := 0x2
def smbAttrSys : UInt16 := 0x4
def smbAttrDir : UInt32 := 0x10

def smbShareRead : UInt32 := 0x1
def smbShareWrite : UInt32 := 0x2

def smbDispositionFileSupersede : UInt32 := 0
def smbDispositionFileOpen : UInt32 := 0x1
def smbCreateoptWriteThrough : UInt32 := 0x2

def smbWritemodeWritethrough : UInt16 := 0x1

/-- `SMB_FIND2_ATTR_DEFAULT`: read-only, hidden and system files, and directories. -/
def smbFind2AttrDefault : UInt16 := 0x01 ||| 0x02 ||| 0x04 ||| 0x10

def smbFind2FlagCloseEos : UInt16 := 0x2
def smbFind2FlagResume : UInt16 := 0x4
def smbFind2FlagContinue : UInt16 := 0x8

/-- `SMB_CAPS_XSEC`. -/
def smbCapsXsec : UInt32 := 0x80000000

/-- `SMB_MOD_READ`, `SMB_MOD_WRITE` and `SMB_MOD_RW`. -/
def smbModRead : UInt32 := 0x1
def smbModWrite : UInt32 := 0x2
def smbModRw : UInt32 :=
  smbModRead ||| smbModWrite ||| 0x04 ||| 0x08 ||| 0x10 ||| 0x80 ||| 0x100 ||| 0x20000

/-! ## Status codes -/

def ntStatusSuccess : UInt32 := 0x00000000
def ntStatusMoreProcessingRequired : UInt32 := 0xc0000016

/-- The `DSM_` codes the operations return. -/
inductive DsmCode where
  | success
  | errorGeneric
  | errorNt
  | errorNetwork
  | errorCharset
  deriving DecidableEq, Repr

/-- The number a code stands for. -/
def DsmCode.toInt : DsmCode → Int
  | .success => 0
  | .errorGeneric => -1
  | .errorNt => -2
  | .errorNetwork => -3
  | .errorCharset => -4

end Libdsm
