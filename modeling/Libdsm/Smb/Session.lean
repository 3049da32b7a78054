import Libdsm.Smb.Fd
import Libdsm.Smb.Ntlm
import Libdsm.Smb.SessionMsg

/-!
# Sessions (`src/smb_session.c`) and the SPNEGO exchange (`src/smb_spnego.c`)

Connecting, logging in by either path, and logging off. A function of the source that may fail
early returns at the same points here.
-/

namespace Libdsm

/-- `smb_session_new`. -/
def smbSessionNew (P : Platform) (tcp : Tcp) : SmbSession where
  transport := { session := netbiosSessionNew P.heap tcp smbDefaultBufsize }

/-- `smb_session_set_creds`; `none` is a `NULL` argument. -/
def smbSessionSetCreds (domain login password : Option (List UInt8)) : SmbM Unit :=
  modify fun s => { s with creds :=
    { domain := (domain.map (·.take smbCredsMaxlen)).or s.creds.domain
      login := (login.map (·.take smbCredsMaxlen)).or s.creds.login
      password := (password.map (·.take smbCredsMaxlen)).or s.creds.password } }

/-- `smb_session_supports(s, SMB_SESSION_XSEC)`. -/
def SmbSession.supportsXsec (s : SmbSession) : Bool := s.srv.caps &&& smbCapsXsec ≠ 0

/-- `smb_session_is_guest`. -/
def smbSessionIsGuest (s : SmbSession) : Int :=
  if !s.logged then -1 else if s.guest then 1 else 0

/-! ## Connecting -/

/-- The request of `smb_negotiate`. -/
def smbNegotiateReq (P : Platform) : SmbMessage :=
  let msg := smbMessagePut8 (smbMessageNew P smbCmdNegotiate) 0
  let msg := smbMessagePut16 msg 0
  let msg := smbDialects.foldl (fun msg d => smbMessageAppend msg (cString d)) msg
  msg.poke 1 (le16 (UInt16.ofNat (msg.cursor - 3)))

/-- `smb_negotiate`. -/
def smbNegotiate (P : Platform) : SmbM DsmCode := do
  if !(← smbSessionSendMsg (smbNegotiateReq P)) then return .errorNetwork
  let some answer ← smbSessionRecvMsg | return .errorNetwork
  if answer.payloadSize < SmbNegoResp.size then return .errorNetwork
  let nego := answer.payload
  if !(← smbSessionCheckNtStatus answer) then return .errorNt
  if SmbNegoResp.wct nego ≠ 0x11 then return .errorNetwork
  modify fun s => { s with srv := { s.srv with
    dialect := SmbNegoResp.dialectIndex nego
    securityMode := (SmbNegoResp.securityMode nego).toUInt16
    caps := SmbNegoResp.caps nego
    ts := SmbNegoResp.ts nego
    sessionKey := SmbNegoResp.sessionKey nego } }
  if !(← get).supportsXsec then
    modify fun s => { s with srv := { s.srv with challenge := SmbNegoResp.challenge nego } }
  return .success

/-- `s->transport.disconnect`, where a transport has been chosen. -/
def smbTransportDisconnect : SmbM Unit :=
  modify fun s =>
    if s.transport.kind.isSome then
      { s with transport :=
        { s.transport with session := netbiosSessionDisconnect s.transport.session } }
    else s

/-- `s->transport.connect` of the transport chosen. -/
def smbTransportConnect (name : List UInt8) (kind : SmbTransportKind) : SmbM Bool := fun s =>
  let r := netbiosSessionConnect s.transport.session name (kind = .tcp)
  (r.1, { s with transport := { s.transport with session := r.2 } })

/-- `smb_session_connect`; `none` is a transport number that is neither of the two. -/
def smbSessionConnect (P : Platform) (name : List UInt8) (transport : Option SmbTransportKind) :
    SmbM DsmCode := do
  smbTransportDisconnect
  let some kind := transport | return .errorGeneric
  modify fun s => { s with transport := { s.transport with kind := some kind } }
  if !(← smbTransportConnect name kind) then return .errorNetwork
  modify fun s => { s with srv := { s.srv with name := name } }
  smbNegotiate P

/-! ## Logging in with NTLM -/

/-- The request of `smb_session_login_ntlm`. -/
def smbSessionLoginNtlmReq (P : Platform) (nonces : SmbNonces) (srv : SmbSrvInfo)
    (domain user password : List UInt8) : SmbMessage :=
  let msg := smbMessageAdvance (smbMessageNew P smbCmdSetup) SmbSessionReq.size
  let hashV2 := smbNtlm2Hash P user password domain
  let msg := smbMessageAppend msg (smbLm2Response P hashV2 srv.challenge nonces.userChallenge)
  -- the padding test divides the cursor where it should take it modulo two
  let msg := if msg.cursor / 2 ≠ 0 then smbMessagePut8 msg 0 else msg
  let msg := smbMessagePut16 (smbMessagePutUtf16 P msg user) 0
  let msg := smbMessagePut16 (smbMessagePutUtf16 P msg domain) 0
  let msg := smbMessagePut16 (smbMessagePutUtf16 P msg smbOs) 0
  let msg := smbMessagePut16 (smbMessagePutUtf16 P msg smbLanman) 0
  let req : SmbSessionReq :=
    { wct := 13
      maxBuffer := smbSessionMaxBuffer
      mpxCount := 16
      vcCount := 1
      caps := srv.caps
      oemPassLen := 16 + 8
      uniPassLen := 0
      payloadSize := UInt16.ofNat (msg.cursor - SmbSessionReq.size) }
  smbMessageInsert msg 0 req.bytes

/-- The end of a successful login, from the reply that completes it. -/
def smbSessionLoggedIn (action uid : UInt16) : SmbM Unit := do
  if action &&& 0x0001 ≠ 0 then modify fun s => { s with guest := true }
  modify fun s => { s with srv := { s.srv with uid := uid }, logged := true }

/-- `smb_session_login_ntlm`. -/
def smbSessionLoginNtlm (P : Platform) (nonces : SmbNonces) (domain user password : List UInt8) :
    SmbM DsmCode := do
  let s ← get
  let msg := smbSessionLoginNtlmReq P nonces s.srv domain user password
  if !(← smbSessionSendMsg msg) then return .errorNetwork
  let some answer ← smbSessionRecvMsg | return .errorNetwork
  if answer.payloadSize < SmbSessionResp.size then return .errorNetwork
  if !(← smbSessionCheckNtStatus answer) then return .errorNt
  smbSessionLoggedIn (SmbSessionResp.action answer.payload) answer.uid
  return .success

/-! ## Logging in with SPNEGO -/

/-- The Session Setup message that carries a DER token, for `negotiate` and `auth`. -/
def smbSessionXsecReq (P : Platform) (srv : SmbSrvInfo) (der : List UInt8) (align : Bool) :
    SmbMessage :=
  let msg := smbMessageAdvance (smbMessageNew P smbCmdSetup) SmbSessionXsecReq.size
  let msg := smbMessageAppend msg der
  let msg := if align && msg.cursor % 2 ≠ 0 then smbMessagePut8 msg 0 else msg
  let msg := smbMessagePut16 (smbMessagePutUtf16 P msg smbOs) 0
  let msg := smbMessagePut16 (smbMessagePutUtf16 P msg smbLanman) 0
  let msg := smbMessagePut16 msg 0
  let req : SmbSessionXsecReq :=
    { wct := 12
      maxBuffer := smbSessionMaxBuffer
      mpxCount := 16
      vcCount := 1
      caps := srv.caps
      sessionKey := srv.sessionKey
      xsecBlobSize := UInt16.ofNat der.length
      payloadSize := UInt16.ofNat (msg.cursor - SmbSessionXsecReq.size) }
  smbMessageInsert msg 0 req.bytes

/-- `asn1_der_coding` into a buffer of `size` bytes. -/
def derCoding (der : Option (List UInt8)) (size : Nat) : Option (List UInt8) :=
  der.filter fun bs => bs.length ≤ size

/-- `init_asn1`. -/
def initAsn1 (P : Platform) : SmbM DsmCode := do
  if (← get).spnegoAsn1 then return .errorGeneric
  if !P.asn1Tree then return .errorGeneric
  modify fun s => { s with spnegoAsn1 := true }
  return .success

/-- `clean_asn1`. -/
def cleanAsn1 : SmbM Unit := modify fun s => { s with spnegoAsn1 := false }

/-- `negotiate`. -/
def spnegoNegotiate (P : Platform) (domain : List UInt8) : SmbM DsmCode := do
  let s ← get
  let some der := derCoding (P.negTokenInit (smbNtlmsspNegotiate P domain domain)) 128
    | return .errorGeneric
  if !(← smbSessionSendMsg (smbSessionXsecReq P s.srv der false)) then return .errorNetwork
  return .success

/-- `challenge`. The response token is read into a buffer of 512 bytes. -/
def spnegoChallenge (P : Platform) : SmbM DsmCode := do
  let some msg ← smbSessionRecvMsg | return .errorNetwork
  if msg.status ≠ ntStatusMoreProcessingRequired then return .errorGeneric
  if msg.payloadSize < SmbSessionXsecResp.size then return .errorNetwork
  let blobSize := (SmbSessionXsecResp.xsecBlobSize msg.payload).toNat
  let blob := (SmbSessionXsecResp.payload msg.payload).read 0 blobSize
  let some token := derCoding (P.responseToken blob) 512 | return .errorGeneric
  -- `smb_ntlmssp_challenge` laid over the buffer
  let respToken := P.stack.write 0 token
  let tgtLen := (respToken.u16 40).toNat
  let tgtOffset := (respToken.u32 44).toNat
  modify fun s => { s with
    xsecTarget := respToken.read tgtOffset tgtLen
    srv := { s.srv with challenge := respToken.u64 24, uid := msg.uid } }
  return .success

/-- `auth`. -/
def spnegoAuth (P : Platform) (nonces : SmbNonces) (domain user password : List UInt8) :
    SmbM DsmCode := do
  let s ← get
  let ntlm := smbNtlmsspResponse P nonces s.srv.challenge (s.srv.ts - 4200) domain domain user
    password s.xsecTarget
  let some der := derCoding (P.negTokenResp ntlm) 512 | return .errorGeneric
  if !(← smbSessionSendMsg (smbSessionXsecReq P s.srv der true)) then return .errorNetwork
  let some resp ← smbSessionRecvMsg | return .errorNetwork
  if !(← smbSessionCheckNtStatus resp) then return .errorNt
  if resp.payloadSize < SmbSessionXsecResp.size then return .errorNetwork
  smbSessionLoggedIn (SmbSessionXsecResp.action resp.payload) resp.uid
  return .success

/-- The exchange of `smb_session_login_spnego` between `init_asn1` and `clean_asn1`. -/
def spnegoExchange (P : Platform) (nonces : SmbNonces) (domain user password : List UInt8) :
    SmbM DsmCode := do
  let res ← spnegoNegotiate P domain
  if res ≠ .success then return res
  let res ← spnegoChallenge P
  if res ≠ .success then return res
  spnegoAuth P nonces domain user password

/-- `smb_session_login_spnego`. -/
def smbSessionLoginSpnego (P : Platform) (nonces : SmbNonces)
    (domain user password : List UInt8) : SmbM DsmCode := do
  modify fun s => { s with srv := { s.srv with uid := 0 } }
  if (← initAsn1 P) ≠ .success then return .errorGeneric
  let res ← spnegoExchange P nonces domain user password
  cleanAsn1
  return res

/-! ## Logging in and off -/

/-- `smb_session_login`. -/
def smbSessionLogin (P : Platform) (nonces : SmbNonces) : SmbM DsmCode := do
  let s ← get
  match s.creds.domain, s.creds.login, s.creds.password with
  | some domain, some login, some password =>
    if s.supportsXsec then smbSessionLoginSpnego P nonces domain login password
    else smbSessionLoginNtlm P nonces domain login password
  | _, _, _ => return .errorGeneric

/-- The request of `smb_session_logoff`. -/
def smbSessionLogoffReq (P : Platform) : SmbMessage :=
  let msg := smbMessagePut8 (smbMessageNew P smbCmdLogoff) 0x02
  let msg := smbMessagePut8 msg 0xff
  let msg := smbMessagePut8 msg 0
  let msg := smbMessagePut16 msg 0
  smbMessagePut16 msg 0

/-- `smb_session_logoff`, which does not wait for the reply. -/
def smbSessionLogoff (P : Platform) : SmbM DsmCode := do
  if !(← smbSessionSendMsg (smbSessionLogoffReq P)) then return .errorNetwork
  modify fun s => { s with srv := { s.srv with uid := 0 }, logged := false, guest := false }
  return .success

end Libdsm
