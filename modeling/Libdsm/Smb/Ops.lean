import Libdsm.Smb.Session
import Libdsm.Smb.Share
import Libdsm.Smb.Trans2

/-!
# The public operations

`SmbOp` lists the calls a program makes on a session, with their arguments, and `SmbOp.exec` runs
one. A run is a list of them, performed one after the other; `SmbSession.events` is what a call did
on the network.
-/

namespace Libdsm

/-- A call of one of the public operations. -/
inductive SmbOp where
  | setCreds (domain user password : Option (List UInt8))
  | connect (name : List UInt8) (transport : Option SmbTransportKind)
  | login (nonces : SmbNonces)
  | logoff
  | treeConnect (name : List UInt8)
  | treeDisconnect (tid : UInt16)
  | fopen (tid : UInt16) (path : List UInt8) (oFlags : UInt32)
  | fclose (fd : UInt32)
  | fread (fd : UInt32) (copy : Bool) (bufSize : Nat)
  | fwrite (fd : UInt32) (buf : List UInt8)
  | fseek (fd : UInt32) (offset : Int) (whence : Option SmbSeek)
  | fileRm (tid : UInt16) (path : List UInt8)
  | fileMv (tid : UInt16) (oldPath newPath : List UInt8)
  | directoryRm (tid : UInt16) (path : List UInt8)
  | directoryCreate (tid : UInt16) (path : List UInt8)
  | find (tid : UInt16) (pattern : List UInt8)
  | fstat (tid : UInt16) (path : List UInt8)
  | shareGetList

/-- What a call returns, and stores through the pointers it is given. -/
inductive SmbResult where
  | done
  | code (code : DsmCode)
  | tree (code : DsmCode) (tid : Option UInt16)
  | file (code : DsmCode) (fd : Option UInt32)
  | read (res : Int) (buf : Option (List UInt8))
  | size (res : Int)
  | list (files : List SmbFile)
  | stat (file : Option SmbFile)
  | shares (code : DsmCode) (list : Option SmbShareList)
  deriving DecidableEq

/-- The call reports success: a code that is not negative, or a pointer that is not `NULL`. -/
def SmbResult.isSuccess : SmbResult → Bool
  | .done => true
  | .code c | .tree c _ | .file c _ | .shares c _ => c = .success
  | .read res _ | .size res => 0 ≤ res
  | .list files => files ≠ []
  | .stat f => f.isSome

/-- The call. -/
def SmbOp.exec (P : Platform) : SmbOp → SmbM SmbResult
  | .setCreds domain user password => do smbSessionSetCreds domain user password; return .done
  | .connect name transport => return .code (← smbSessionConnect P name transport)
  | .login nonces => return .code (← smbSessionLogin P nonces)
  | .logoff => return .code (← smbSessionLogoff P)
  | .treeConnect name => do let (code, tid) ← smbTreeConnect P name; return .tree code tid
  | .treeDisconnect tid => return .code (← smbTreeDisconnect P tid)
  | .fopen tid path oFlags => do
    let (code, fd) ← smbFopen P tid path oFlags; return .file code fd
  | .fclose fd => do smbFclose P fd; return .done
  | .fread fd copy bufSize => do
    let (res, buf) ← smbFread P fd copy bufSize; return .read res buf
  | .fwrite fd buf => return .size (← smbFwrite P fd buf)
  | .fseek fd offset whence => return .size (← smbFseek fd offset whence)
  | .fileRm tid path => return .code (← smbFileRm P tid path)
  | .fileMv tid oldPath newPath => return .code (← smbFileMv P tid oldPath newPath)
  | .directoryRm tid path => return .code (← smbDirectoryRm P tid path)
  | .directoryCreate tid path => return .code (← smbDirectoryCreate P tid path)
  | .find tid pattern => return .list (← smbFind P tid pattern)
  | .fstat tid path => return .stat (← smbFstat P tid path)
  | .shareGetList => do let (code, list) ← smbShareGetList P; return .shares code list

/-- The session after the call. -/
def SmbOp.run (P : Platform) (s : SmbSession) (op : SmbOp) : SmbSession := (op.exec P s).2

/-- What the call returned. -/
def SmbOp.result (P : Platform) (s : SmbSession) (op : SmbOp) : SmbResult := (op.exec P s).1

/-- What the call did on the network: its part of the log. -/
def SmbOp.events (P : Platform) (s : SmbSession) (op : SmbOp) : List NetEvent :=
  (op.run P s).tcp.log.drop s.tcp.log.length

end Libdsm
