import Libdsm.Smb.Message

/-!
# SMB sessions (`src/smb_types.h`)

The record of a session and the state monad its operations live in. A C string is the list of its
bytes without the terminator; `none` is a `NULL` pointer.
-/

namespace Libdsm

/-- `smb_file`. The `next` pointers are the lists the files are kept in. -/
structure SmbFile where
  name : Option (List UInt8) := none
  fid : UInt16 := 0
  tid : UInt16 := 0
  nameLen : Nat := 0
  created : UInt64 := 0
  accessed : UInt64 := 0
  written : UInt64 := 0
  changed : UInt64 := 0
  allocSize : UInt64 := 0
  size : UInt64 := 0
  attr : UInt32 := 0
  offset : Int := 0
  isDir : UInt32 := 0
  deriving DecidableEq, Repr

/-- `smb_share`. -/
structure SmbShare where
  files : List SmbFile := []
  tid : UInt16 := 0
  opts : UInt16 := 0
  rights : UInt16 := 0
  guestRights : UInt16 := 0
  deriving DecidableEq, Repr

/-- `sizeof(srv->name)`. -/
def smbSrvNameSize : Nat := 16

/-- `smb_srv_info`. -/
structure SmbSrvInfo where
  name : List UInt8 := []
  dialect : UInt16 := 0
  securityMode : UInt16 := 0
  uid : UInt16 := 0
  sessionKey : UInt32 := 0
  caps : UInt32 := 0
  challenge : UInt64 := 0
  ts : UInt64 := 0
  deriving DecidableEq, Repr

/-- The name has room in `char name[16]`, with its terminator. `smb_session_connect` copies a name without
looking at its length, and a longer one runs over the fields behind it: what becomes of the session then
is not modelled. -/
def NameFits (name : List UInt8) : Prop := name.length < smbSrvNameSize

/-- `smb_creds`. -/
structure SmbCreds where
  domain : Option (List UInt8) := none
  login : Option (List UInt8) := none
  password : Option (List UInt8) := none
  deriving DecidableEq, Repr

/-- The transports of `smb_transport.c`. -/
inductive SmbTransportKind where
  | tcp
  | nbt
  deriving DecidableEq, Repr

/-- `smb_transport`. The function pointers of both transports differ in `connect` alone, and `kind`
is `none` as long as they are `NULL`. -/
structure SmbTransport where
  kind : Option SmbTransportKind := none
  session : NetbiosSession

/-- `smb_session`. Of the ASN.1 tree only its presence matters. -/
structure SmbSession where
  logged : Bool := false
  guest : Bool := false
  srv : SmbSrvInfo := {}
  spnegoAsn1 : Bool := false
  xsecTarget : List UInt8 := []
  creds : SmbCreds := {}
  transport : SmbTransport
  shares : List SmbShare := []
  ntStatus : UInt32 := 0

/-- An operation on a session. -/
abbrev SmbM := StateM SmbSession

/-- The connection of a session. -/
def SmbSession.tcp (s : SmbSession) : Tcp := s.transport.session.tcp

end Libdsm
