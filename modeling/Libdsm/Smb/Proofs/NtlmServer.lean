import Libdsm.Contrib.Proofs.Digests
import Libdsm.Smb.Proofs.Challenge
import Libdsm.Smb.Proofs.Peer
import Libdsm.Smb.Proofs.Setup

/-!
# The server's side of an extended login

A server that knows the NT hashes of its users sends a challenge, reads the token of the client by the
fields in its header, recomputes the proof with the digests of RFC 1320 and RFC 1321, and decrypts the
session key. The client computes with the digests of `contrib/mdx`. This module puts the two together:
the login of a user with the right password succeeds, and both ends hold the same session key.
-/

namespace Libdsm

/-! ## The digests of the library -/

/-- The platform with `MD4` and `MD5` as they are in `contrib/mdx`; `stack` is what the contexts hold
before they are initialised. -/
def Platform.mdx (P : Platform) (stack : Mem) : Platform :=
  { P with
    md4 := fun msg => (md4Final (md4Update (md4Init stack) msg)).1
    md5 := fun msg => (md5Final (md5Update (md5Init stack) msg)).1 }

theorem mdx_md4 (P : Platform) (stack : Mem) : (P.mdx stack).md4 = rfc1320 := by
  funext msg
  have h := md4_streamed stack [msg]
  rw [List.flatten_singleton] at h
  exact h

theorem mdx_md5 (P : Platform) (stack : Mem) : (P.mdx stack).md5 = rfc1321 := by
  funext msg
  have h := md5_streamed stack [msg]
  rw [List.flatten_singleton] at h
  exact h

/-! ## The server -/

/-- Upper case of a text in UCS-2LE, as far as it is ASCII. -/
def upperUtf16 : List UInt8 → List UInt8
  | lo :: hi :: rest => (if hi = 0 then toupper lo else lo) :: hi :: upperUtf16 rest
  | bs => bs

/-- The NT hashes by user, in upper case, and domain. -/
abbrev NtAccounts := List UInt8 → List UInt8 → Option (List UInt8)

/-- The authentication of a user by the token that answers a challenge: both responses have to be keyed
digests of the challenge and what follows them. The result is the session key. -/
def ntlmServer (accounts : NtAccounts) (challenge : UInt64) (token : List UInt8) :
    Option (List UInt8) := do
  let user := upperUtf16 (bufferSlice token 36)
  let domain := bufferSlice token 28
  let hashV1 ← accounts user domain
  let hashV2 := hmac rfc1321 64 hashV1 (user ++ domain)
  let proof (blob : List UInt8) := hmac rfc1321 64 hashV2 (le64 challenge ++ blob)
  let lm2 := bufferSlice token 12
  let ntlm2 := bufferSlice token 20
  if lm2.take 16 = proof (lm2.drop 16) ∧ ntlm2.take 16 = proof (ntlm2.drop 16) then
    some (rc4Crypt (rc4Init (hmac rfc1321 64 hashV2 (ntlm2.take 16))) (bufferSlice token 52))
  else none

/-- What the client relies on when it converts text: ASCII characters become one unit each, and no text
takes more than two bytes for each of its own. -/
structure Platform.ConvertsAscii (P : Platform) : Prop where
  ascii : ∀ str : List UInt8, (∀ b ∈ str, b < 128) → smbToUtf16 P str = str.flatMap fun b => [b, 0]
  length : ∀ str, (smbToUtf16 P str).length ≤ 2 * str.length

theorem upperUtf16_ascii {P : Platform} (hP : P.ConvertsAscii) {user : List UInt8}
    (huser : ∀ b ∈ user, b < 128) :
    upperUtf16 (smbToUtf16 P user) = smbToUtf16 P (user.map toupper) := by
  have hupper : ∀ b ∈ user.map toupper, b < 128 := by
    intro b hb
    obtain ⟨c, hc, rfl⟩ := List.mem_map.mp hb
    exact toupper_ascii (huser c hc)
  rw [hP.ascii _ huser, hP.ascii _ hupper]
  clear huser hupper
  induction user with
  | nil => rfl
  | cons b user ih =>
    rw [List.flatMap_cons, List.map_cons, List.flatMap_cons, ← ih]
    rfl

section

variable {P : Platform} (nonces : SmbNonces) (srvChallenge srvTs : UInt64)
variable (host : List UInt8) {domain user password target : List UInt8}

/-- The hash that the server computes from that of the account is the one of the client. -/
theorem serverHash_eq (hmd4 : P.md4 = rfc1320) (hmd5 : P.md5 = rfc1321) (huser : user.length ≤ 63)
    (password domain : List UInt8) :
    hmac rfc1321 64 (rfc1320 (smbToUtf16 P password))
      (smbToUtf16 P (user.map toupper) ++ smbToUtf16 P domain) = smbNtlm2Hash P user password domain := by
  have hmd4' : ∀ bs, (P.md4 bs).length = 16 := by
    rw [hmd4]
    exact mdHash_length _
  rw [ntlm2Hash_short P huser password domain hmd4', ntlm2Reference, hmd4, hmd5]

theorem serverProof_eq (hmd5 : P.md5 = rfc1321) (user password domain msg : List UInt8) :
    hmac rfc1321 64 (smbNtlm2Hash P user password domain) msg =
      hmacMd5 P (smbNtlm2Hash P user password domain) msg := by
  have hlength : (smbNtlm2Hash P user password domain).length ≤ 64 := by
    rw [smbNtlm2Hash, hmacMd5, hmd5, rfc1321, mdHash_length]
    omega
  rw [hmacMd5_eq_hmac P hlength, hmd5]

/-- A response of the client is the digest that the server expects, with what was digested behind it. -/
theorem response_proved (hmd5 : P.md5 = rfc1321) (srvChallenge : UInt64)
    (user password domain blob : List UInt8) :
    (smbNtlm2Response P (smbNtlm2Hash P user password domain) srvChallenge blob).take 16 =
      hmac rfc1321 64 (smbNtlm2Hash P user password domain) (le64 srvChallenge ++
        (smbNtlm2Response P (smbNtlm2Hash P user password domain) srvChallenge blob).drop 16) := by
  have hmd5' : ∀ bs, (P.md5 bs).length = 16 := by
    rw [hmd5]
    exact mdHash_length _
  rw [serverProof_eq hmd5, ntlm2Response_take P hmd5', ntlm2Response_drop P hmd5']

/-- The server accepts the token of a user it knows, and finds the key that the client has drawn. -/
theorem response_accepted (hmd4 : P.md4 = rfc1320) (hmd5 : P.md5 = rfc1321) (hP : P.ConvertsAscii)
    {accounts : NtAccounts} (hhost : host.length ≤ 128) (hdomain : domain.length ≤ 128)
    (huser : user.length ≤ 63) (hascii : ∀ b ∈ user, b < 128) (htarget : target.length ≤ 512)
    (hknown : ¬ (domain = [] ∧ user = [] ∧ password = []))
    (haccount : accounts (smbToUtf16 P (user.map toupper)) (smbToUtf16 P domain) =
      some (rfc1320 (smbToUtf16 P password))) :
    ntlmServer accounts srvChallenge
      (smbNtlmsspResponse P nonces srvChallenge srvTs host domain user password target) =
      some nonces.xkey := by
  have hmd5' : ∀ bs, (P.md5 bs).length = 16 := by
    rw [hmd5]
    exact mdHash_length _
  have hslices := response_slices P nonces srvChallenge srvTs host domain user password target hmd5'
    hP.length hhost hdomain (by omega) htarget
  rw [authBuffers] at hslices
  obtain ⟨hlm, hntlm, hdom, husr, -, hkey, -⟩ := hslices
  -- the hash of the server is the one of the client
  have hhash := serverHash_eq hmd4 hmd5 huser password domain
  have hproof := serverProof_eq hmd5 user password domain
  have hresponse := response_proved hmd5 srvChallenge user password domain
  rw [ntlmServer, husr.slice, hdom.slice, hlm.slice, hntlm.slice, hkey.slice, if_neg hknown,
    if_neg hknown, upperUtf16_ascii hP hascii, haccount, Option.bind_eq_bind, Option.bind_some, hhash]
  dsimp only
  rw [if_pos ⟨hresponse _, hresponse _⟩, hproof, smbNtlm2SessionKey, rc4Crypt_rc4Crypt]

end

/-! ## The exchange -/

/-- The `responseToken` of a `negTokenResp` that has nothing else. -/
def negTokenRespToken (der : List UInt8) : Option (List UInt8) := do
  let resp ← derContent 0xa1 der
  let sequence ← derContent 0x30 resp
  let field ← derContent 0xa2 sequence
  derContent 0x04 field

/-- The NTLMSSP token in a Session Setup request. -/
def xsecToken (request : List UInt8) : Option (List UInt8) :=
  negTokenRespToken ((request.drop xsecFields.payload).take (replyU16 request xsecFields.blobSize).toNat)

/-- A server with its accounts, the NTLMSSP challenge it sends, and its replies. -/
structure XsecServer where
  accounts : NtAccounts
  token : List UInt8
  challengeReply : List UInt8
  acceptReply : List UInt8
  refuseReply : List UInt8

namespace XsecServer

variable (v : XsecServer)

/-- The eight random bytes in the challenge, and the target information. -/
def challenge : UInt64 := UInt64.ofNat (leNat ((v.token.drop 24).take 8))
def target : List UInt8 := (v.token.drop (tgtOffset v.token)).take (tgtLen v.token)

/-- The session key of a request, if the server accepts it. -/
def sessionKey (request : List UInt8) : Option (List UInt8) := do
  let token ← xsecToken request
  ntlmServer v.accounts v.challenge token

/-- A challenge to whatever comes first, and then the verdict. -/
def answers : List Answer :=
  [fun _ => [v.challengeReply],
    fun request => [if (v.sessionKey request).isSome then v.acceptReply else v.refuseReply]]

/-- The blob of the first reply. -/
def blob : List UInt8 :=
  (v.challengeReply.drop (smbHeaderSize + SmbSessionXsecResp.size)).take
    (replyU16 v.challengeReply (smbHeaderSize + 7)).toNat

/-- The replies are what the protocol wants of them: the first carries the challenge, all of which lies
inside of it, and the second has the status of success. -/
structure WellFormed (P : Platform) : Prop where
  challengeStatus : replyStatus v.challengeReply = ntStatusMoreProcessingRequired
  blobInside : smbHeaderSize + SmbSessionXsecResp.size +
    (replyU16 v.challengeReply (smbHeaderSize + 7)).toNat ≤ v.challengeReply.length
  decodes : P.responseToken v.blob = some v.token
  tokenHeader : ntlmsspChallengeSize ≤ v.token.length
  tokenFits : v.token.length ≤ 512
  targetInside : tgtOffset v.token + tgtLen v.token ≤ v.token.length
  acceptStatus : replyStatus v.acceptReply = ntStatusSuccess
  acceptSize : smbHeaderSize + SmbSessionXsecResp.size ≤ v.acceptReply.length

end XsecServer

theorem negTokenRespToken_der {token : List UInt8} (hlen : (derNegTokenResp token).length ≤ 512) :
    negTokenRespToken (derNegTokenResp token) = some token := by
  have hlarge : ∀ tag content, (derTlv tag content).length ≤ 512 →
      derContent tag (derTlv tag content) = some content ∧ content.length ≤ 512 := by
    intro tag content hle
    rw [derTlv_length] at hle
    have hsmall : content.length ≤ 512 := by omega
    exact ⟨derContent_derTlv tag (Nat.lt_of_le_of_lt hsmall (by decide)), hsmall⟩
  have hfirst : UInt8.ofNat (0xa0 + 1) = 0xa1 := rfl
  have hsecond : UInt8.ofNat (0xa0 + 2) = 0xa2 := rfl
  rw [derNegTokenResp, derExplicit, derExplicit, derSequence, derOctetString, hfirst, hsecond] at hlen ⊢
  obtain ⟨hresp, hlen⟩ := hlarge _ _ hlen
  obtain ⟨hsequence, hlen⟩ := hlarge _ _ hlen
  obtain ⟨hfield, hlen⟩ := hlarge _ _ hlen
  obtain ⟨htoken, -⟩ := hlarge _ _ hlen
  simp only [negTokenRespToken, hresp, hsequence, hfield, htoken, Option.bind_eq_bind,
    Option.bind_some]

section

variable {P : Platform} {s s' s'' : SmbSession} {msg : SmbMessage} {domain user password : List UInt8}

theorem negotiate_run {der : List UInt8}
    (hder : derCoding (P.negTokenInit (smbNtlmsspNegotiate P domain domain)) 128 = some der)
    (hsend : smbSessionSendMsg (smbSessionXsecReq P s.srv der false) s = (true, s')) :
    spnegoNegotiate P domain s = (.success, s') := by
  rw [spnegoNegotiate, get_bind_run, hder]
  dsimp only
  rw [bind_run hsend]
  rfl

/-- What `challenge` keeps of a reply. -/
def SmbSession.challenged (s : SmbSession) (uid : UInt16) (challenge : UInt64) (target : List UInt8) :
    SmbSession :=
  { s with xsecTarget := target, srv := { s.srv with challenge := challenge, uid := uid } }

theorem challenge_run {v : XsecServer} (hv : v.WellFormed P) (hmsg : msg.Holds v.challengeReply)
    (hrecv : smbSessionRecvMsg s = (some msg, s')) :
    spnegoChallenge P s = (.success, s'.challenged msg.uid v.challenge v.target) := by
  have hblob := hv.blobInside
  have hheader := hv.tokenHeader
  have hlength := hmsg.length
  rw [SmbSessionXsecResp.size] at hblob
  rw [ntlmsspChallengeSize] at hheader
  have hstatus : ¬ msg.status ≠ ntStatusMoreProcessingRequired := by
    rw [hmsg.status_eq, hv.challengeStatus]
    exact fun h => h rfl
  have hsize : ¬ msg.payloadSize < SmbSessionXsecResp.size := by
    rw [SmbSessionXsecResp.size]
    omega
  have hcount : SmbSessionXsecResp.xsecBlobSize msg.payload =
      replyU16 v.challengeReply (smbHeaderSize + 7) := hmsg.payload_u16_eq (by omega)
  have hread : (SmbSessionXsecResp.payload msg.payload).read 0
      (replyU16 v.challengeReply (smbHeaderSize + 7)).toNat = v.blob := by
    rw [SmbSessionXsecResp.payload, SmbMessage.payload, Mem.read_shift, Mem.read_shift, Nat.add_zero,
      hmsg.read_eq (by omega)]
    rfl
  have htoken : derCoding (P.responseToken v.blob) 512 = some v.token := by
    rw [hv.decodes, derCoding, Option.filter_eq_some_iff]
    exact ⟨rfl, by simpa using hv.tokenFits⟩
  have hlen : (P.stack.write 0 v.token).u16 40 = replyU16 v.token 40 := by
    rw [Mem.u16, Mem.read_write_part _ (by omega), replyU16]
  have hoffset : (P.stack.write 0 v.token).u32 44 = replyU32 v.token 44 := by
    rw [Mem.u32, Mem.read_write_part _ (by omega), replyU32]
  have hchallenge : (P.stack.write 0 v.token).u64 24 = v.challenge := by
    rw [Mem.u64, Mem.read_write_part _ (by omega), XsecServer.challenge]
  have htarget : (P.stack.write 0 v.token).read (replyU32 v.token 44).toNat
      (replyU16 v.token 40).toNat = v.target := Mem.read_write_part _ hv.targetInside
  rw [spnegoChallenge, bind_run hrecv]
  dsimp only
  rw [if_neg hstatus, if_neg hsize, hcount, hread, htoken]
  dsimp only
  rw [hlen, hoffset, hchallenge, htarget]
  rfl

/-- The end of a login, in one step. -/
def SmbSession.loggedIn (s : SmbSession) (action uid : UInt16) : SmbSession :=
  { s with
    guest := if action &&& 0x0001 ≠ 0 then true else s.guest
    srv := { s.srv with uid := uid }
    logged := true }

theorem loggedIn_run (action uid : UInt16) (s : SmbSession) :
    smbSessionLoggedIn action uid s = ((), s.loggedIn action uid) := by
  rw [smbSessionLoggedIn, SmbSession.loggedIn]
  by_cases h : action &&& 0x0001 ≠ 0
  · rw [if_pos h, if_pos h]
    rfl
  · rw [if_neg h, if_neg h]
    rfl

theorem auth_run {nonces : SmbNonces} {der : List UInt8}
    (hder : derCoding (P.negTokenResp (spnegoResponse P nonces domain user password s)) 512 = some der)
    (hsend : smbSessionSendMsg (smbSessionXsecReq P s.srv der true) s = (true, s'))
    (hrecv : smbSessionRecvMsg s' = (some msg, s'')) (hstatus : msg.status = ntStatusSuccess)
    (hsize : SmbSessionXsecResp.size ≤ msg.payloadSize) :
    spnegoAuth P nonces domain user password s =
      (.success, s''.loggedIn (SmbSessionXsecResp.action msg.payload) msg.uid) := by
  have hcheck : smbSessionCheckNtStatus msg s'' = (true, s'') := by
    rw [smbSessionCheckNtStatus, if_neg (fun h => h hstatus)]
    rfl
  rw [spnegoAuth, get_bind_run, ← spnegoResponse, hder]
  dsimp only
  rw [bind_run hsend]
  rw [if_neg (by decide), bind_run hrecv]
  dsimp only
  rw [bind_run hcheck]
  rw [if_neg (by decide), if_neg (Nat.not_lt.mpr hsize), bind_run (loggedIn_run _ _ _)]
  rfl

end

/-- A request with a token is of a few thousand bytes. -/
theorem xsecReq_length {P : Platform} (hconv : P.ConvertsText) (srv : SmbSrvInfo) (uid : UInt16)
    {der : List UInt8} (hder : der.length ≤ 512) (align : Bool) :
    (smbRequestBytes uid (smbSessionXsecReq P srv der align)).length ≤ 6400 := by
  have hbuilt : ∃ r : SmbSessionXsecReq, smbSessionXsecReq P srv der align =
      smbMessageInsert (setupMessage P 27 der (fun cursor => align && cursor % 2 ≠ 0)
        (textCalls [smbOs, smbLanman] ++ [.put16 0])) 0 r.bytes := ⟨_, rfl⟩
  obtain ⟨r, hreq⟩ := hbuilt
  obtain ⟨front, middle, hbytes, hfront, hmiddle⟩ := xsecReq_split r
  have hcalls : builtContent P (textCalls [smbOs, smbLanman] ++ [.put16 0]) =
      (xsecTexts.map (setupString P)).flatten.map some := by
    rw [← textCalls_content]
    rfl
  have hstrings := strings_length hconv xsecTexts_fit
  have htexts : xsecTexts.length = 3 := rfl
  have hheader : r.bytes.length = 27 := by
    rw [hbytes]
    simp only [List.length_append, le16_length]
    omega
  have hpad := setupPad_length_le 27 der fun cursor => align && cursor % 2 ≠ 0
  have hbuilds := setupMessage_insert P 27 der (fun cursor => align && cursor % 2 ≠ 0) hcalls
    (by omega) hheader (by omega)
  rw [← hreq] at hbuilds
  rw [requestBytes_length, hbuilds.cursor, smbHeaderSize]
  simp only [List.length_map, List.length_append]
  omega

/-- Sending a token to a server. -/
theorem Peer.sendToken {P : Platform} (hconv : P.ConvertsText) {s : SmbSession}
    {pending : List (List UInt8)} {answer : Answer} {answers : List Answer}
    (h : Peer 8192 s pending (answer :: answers)) {der : List UInt8} (hder : der.length ≤ 512)
    (align : Bool) :
    ∃ nb frame, smbSessionSendMsg (smbSessionXsecReq P s.srv der align) s =
        (true, s.withNetbios nb) ∧
      nb.tcp.log = s.tcp.log ++ [.sent frame] ∧
      frame.drop netbiosHeaderSize = smbRequestBytes s.srv.uid (smbSessionXsecReq P s.srv der align) ∧
      Peer 8192 (s.withNetbios nb) (pending ++ answer (smbRequestBytes s.srv.uid
        (smbSessionXsecReq P s.srv der align))) answers := by
  have hlength := xsecReq_length hconv s.srv s.srv.uid hder align
  exact h.send (by omega) (by rw [netbiosHeaderSize]; omega)

/-- A platform that encodes tokens by the rules and converts ASCII, and has the types of SPNEGO. -/
structure Platform.Encodes (P : Platform) : Prop where
  text : P.ConvertsText
  ascii : P.ConvertsAscii
  tree : P.asn1Tree = true
  init : ∀ token, P.negTokenInit token = some (derNegTokenInit token)
  resp : ∀ token, P.negTokenResp token = some (derNegTokenResp token)

/-- Credentials for which the tokens of a login fit their buffers, of a user whose name fits the buffer
of `smb_ntlm2_hash`. -/
structure LoginFits (domain user password target : List UInt8) : Prop where
  shortDomain : domain.length ≤ 31
  shortUser : user.length ≤ 63
  asciiUser : ∀ b ∈ user, b < 128
  named : ¬ (domain = [] ∧ user = [] ∧ password = [])
  tokenFits : 4 * domain.length + 2 * user.length + target.length ≤ 348

/-- The exchange with a server that knows the user: two requests go out, the server finds the key of the
client in the second, and the login is accepted. -/
theorem exchange_accepted {P : Platform} (hP : P.Encodes) (hmd4 : P.md4 = rfc1320)
    (hmd5 : P.md5 = rfc1321) {v : XsecServer} (hv : v.WellFormed P) (nonces : SmbNonces)
    {domain user password : List UInt8} (hfits : LoginFits domain user password v.target)
    (haccount : v.accounts (smbToUtf16 P (user.map toupper)) (smbToUtf16 P domain) =
      some (rfc1320 (smbToUtf16 P password))) {s : SmbSession} (hpeer : Peer 8192 s [] v.answers) :
    ∃ s' first challenge frame verdict,
      spnegoExchange P nonces domain user password s = (.success, s') ∧
      s'.logged = true ∧ s'.srv.uid = replyUid v.acceptReply ∧
      s'.tcp.log = s.tcp.log ++ [.sent first, challenge, .sent frame, verdict] ∧
      v.sessionKey (frame.drop netbiosHeaderSize) = some nonces.xkey := by
  obtain ⟨hdomain, huser, hascii, hknown, hsum⟩ := hfits
  -- the first request goes out and is answered by the challenge
  obtain ⟨init, hinit, hinit128⟩ : ∃ der,
      derCoding (P.negTokenInit (smbNtlmsspNegotiate P domain domain)) 128 = some der ∧
        der.length ≤ 128 := by
    have hle : (derNegTokenInit (smbNtlmsspNegotiate P domain domain)).length ≤ 128 := by
      rw [negTokenInit_fits_iff, negotiateToken_length]
      omega
    refine ⟨_, ?_, hle⟩
    rw [hP.init, derCoding, Option.filter_eq_some_iff]
    exact ⟨rfl, by simpa using hle⟩
  obtain ⟨nb₁, frame₁, hsend₁, hlog₁, -, hpeer₁⟩ := hpeer.sendToken hP.text
    (Nat.le_trans hinit128 (by decide)) false
  rw [List.nil_append] at hpeer₁
  have hlong : smbHeaderSize < v.challengeReply.length := by
    have h := hv.blobInside
    rw [SmbSessionXsecResp.size] at h
    omega
  obtain ⟨msg₂, nb₂, event₂, hrecv₂, hholds₂, hlog₂, hpeer₂⟩ := hpeer₁.recv hlong
  have hchallenge := challenge_run hv hholds₂ hrecv₂
  generalize hs₃ : ((s.withNetbios nb₁).withNetbios nb₂).challenged msg₂.uid v.challenge v.target = s₃
    at hchallenge
  have hpeer₃ := hpeer₂.of_transport (show s₃.transport = _ by rw [← hs₃]; rfl)
  have hkept : s₃.srv.challenge = v.challenge ∧ s₃.xsecTarget = v.target := by
    rw [← hs₃]
    exact ⟨rfl, rfl⟩
  have hlog₃ : s₃.tcp.log = s.tcp.log ++ [.sent frame₁, event₂] := by
    rw [← hs₃]
    show nb₂.tcp.log = _
    rw [hlog₂, withNetbios_tcp, hlog₁, List.append_assoc]
    rfl
  -- the second one carries the responses to it
  have htarget : v.target.length ≤ 512 := by omega
  obtain ⟨resp, hresp, hresp512, hder⟩ : ∃ der,
      derCoding (P.negTokenResp (spnegoResponse P nonces domain user password s₃)) 512 = some der ∧
        der.length ≤ 512 ∧ der = derNegTokenResp (spnegoResponse P nonces domain user password s₃) := by
    have hbytes := responseToken_length P nonces s₃.srv.challenge (s₃.srv.ts - 4200) domain user password
      s₃.xsecTarget
    rw [← spnegoResponse, hkept.2] at hbytes
    obtain ⟨-, halign⟩ := alignWord_le (148 + 4 * domain.length + 2 * user.length + v.target.length)
    have heven : alignWord (148 + 4 * domain.length + 2 * user.length + v.target.length) ≤ 496 := by
      rw [alignWord]
      split <;> omega
    have hle : (derNegTokenResp (spnegoResponse P nonces domain user password s₃)).length ≤ 512 := by
      rw [negTokenResp_fits_iff (by omega)]
      omega
    refine ⟨_, ?_, hle, rfl⟩
    rw [hP.resp, derCoding, Option.filter_eq_some_iff]
    exact ⟨rfl, by simpa using hle⟩
  obtain ⟨nb₄, frame₄, hsend₄, hlog₄, hframe₄, hpeer₄⟩ := hpeer₃.sendToken hP.text hresp512 true
  have hkey : v.sessionKey (smbRequestBytes s₃.srv.uid (smbSessionXsecReq P s₃.srv resp true)) =
      some nonces.xkey := by
    have hconsistent := (xsecReq_consistent_iff hP.text s₃.srv s₃.srv.uid hresp512 true).mpr (.inl rfl)
    have htoken : xsecToken (smbRequestBytes s₃.srv.uid (smbSessionXsecReq P s₃.srv resp true)) =
        some (spnegoResponse P nonces domain user password s₃) := by
      rw [xsecToken, hconsistent.carried, hder]
      exact negTokenRespToken_der (hder ▸ hresp512)
    rw [XsecServer.sessionKey, htoken]
    show ntlmServer v.accounts v.challenge _ = _
    rw [spnegoResponse, hkept.1, hkept.2]
    exact response_accepted nonces v.challenge (s₃.srv.ts - 4200) domain hmd4 hmd5 hP.ascii (by omega)
      (by omega) huser hascii htarget hknown haccount
  rw [hkey, Option.isSome_some, if_pos rfl, List.nil_append] at hpeer₄
  have haccept := hv.acceptSize
  rw [SmbSessionXsecResp.size] at haccept
  obtain ⟨msg₅, nb₅, event₅, hrecv₅, hholds₅, hlog₅, -⟩ := hpeer₄.recv (by omega)
  have hstatus : msg₅.status = ntStatusSuccess := by rw [hholds₅.status_eq, hv.acceptStatus]
  have hsize : SmbSessionXsecResp.size ≤ msg₅.payloadSize := by
    have h := hholds₅.length
    rw [SmbSessionXsecResp.size]
    omega
  have hauth := auth_run hresp hsend₄ hrecv₅ hstatus hsize
  refine ⟨((s₃.withNetbios nb₄).withNetbios nb₅).loggedIn (SmbSessionXsecResp.action msg₅.payload)
    msg₅.uid, frame₁, event₂, frame₄, event₅, ?_, rfl, hholds₅.uid_eq, ?_, by rw [hframe₄, hkey]⟩
  · rw [spnegoExchange, bind_run (negotiate_run hinit hsend₁), if_neg (by decide),
      bind_run hchallenge, if_neg (by decide)]
    exact hauth
  · show nb₅.tcp.log = _
    rw [hlog₅, withNetbios_tcp, hlog₄, hlog₃, List.append_assoc, List.append_assoc]
    rfl

/-- The login around the exchange. -/
theorem login_accepted {P : Platform} (hP : P.Encodes) (hmd4 : P.md4 = rfc1320)
    (hmd5 : P.md5 = rfc1321) {v : XsecServer} (hv : v.WellFormed P) (nonces : SmbNonces)
    {domain user password : List UInt8} {s : SmbSession}
    (hcreds : s.creds = ⟨some domain, some user, some password⟩) (hxsec : s.supportsXsec = true)
    (hasn1 : s.spnegoAsn1 = false) (hfits : LoginFits domain user password v.target)
    (haccount : v.accounts (smbToUtf16 P (user.map toupper)) (smbToUtf16 P domain) =
      some (rfc1320 (smbToUtf16 P password)))
    (hpeer : Peer 8192 s [] v.answers) :
    ∃ s', smbSessionLogin P nonces s = (.success, s') ∧ s'.logged = true ∧
      s'.srv.uid = replyUid v.acceptReply ∧
      ∃ first challenge frame verdict,
        s'.tcp.log = s.tcp.log ++ [.sent first, challenge, .sent frame, verdict] ∧
        v.sessionKey (frame.drop netbiosHeaderSize) = some nonces.xkey := by
  have hpeer' : Peer 8192 { s with srv := { s.srv with uid := 0 }, spnegoAsn1 := true } [] v.answers :=
    hpeer.of_transport rfl
  obtain ⟨s', first, challenge, frame, verdict, hrun, hlogged, huid, hlog, hkey⟩ :=
    exchange_accepted hP hmd4 hmd5 hv nonces hfits haccount hpeer'
  have hinit : initAsn1 P { s with srv := { s.srv with uid := 0 } } =
      (.success, { s with srv := { s.srv with uid := 0 }, spnegoAsn1 := true }) := by
    rw [initAsn1, get_bind_run, hasn1, if_neg (by decide), hP.tree, if_neg (by decide)]
    rfl
  have hstart : (modify fun s => { s with srv := { s.srv with uid := 0 } } : SmbM PUnit) s =
      (⟨⟩, { s with srv := { s.srv with uid := 0 } }) := rfl
  refine ⟨{ s' with spnegoAsn1 := false }, ?_, hlogged, huid, first, challenge, frame, verdict, hlog, hkey⟩
  rw [smbSessionLogin, get_bind_run, hcreds]
  dsimp only
  rw [if_pos hxsec, smbSessionLoginSpnego, bind_run hstart, bind_run hinit, if_neg (by decide), bind_run hrun]
  rfl

/-- The digests are not what conversions and encodings depend on. -/
theorem Platform.Encodes.mdx {P : Platform} (h : P.Encodes) (stack : Mem) : (P.mdx stack).Encodes :=
  ⟨h.text, ⟨h.ascii.ascii, h.ascii.length⟩, h.tree, h.init, h.resp⟩

theorem XsecServer.WellFormed.mdx {P : Platform} {v : XsecServer} (h : v.WellFormed P) (stack : Mem) :
    v.WellFormed (P.mdx stack) :=
  ⟨h.challengeStatus, h.blobInside, h.decodes, h.tokenHeader, h.tokenFits, h.targetInside,
    h.acceptStatus, h.acceptSize⟩

/-- The login of a user that the server knows, with the digests that come with the library: it succeeds
after two requests, the session has the id that the server gave it, and the key that the server finds in
the second request is the one that the client drew. -/
theorem login_authenticates (P : Platform) (stack : Mem) (hP : P.Encodes) (v : XsecServer)
    (hv : v.WellFormed P) (nonces : SmbNonces) (s : SmbSession) (domain user password : List UInt8)
    (hcreds : s.creds = ⟨some domain, some user, some password⟩) (hxsec : s.supportsXsec = true)
    (hasn1 : s.spnegoAsn1 = false) (hfits : LoginFits domain user password v.target)
    (haccount : v.accounts (smbToUtf16 P (user.map toupper)) (smbToUtf16 P domain) =
      some (rfc1320 (smbToUtf16 P password)))
    (hpeer : Peer 8192 s [] v.answers) :
    let r := smbSessionLogin (P.mdx stack) nonces s
    r.1 = .success ∧ r.2.logged = true ∧ r.2.srv.uid = replyUid v.acceptReply ∧
      ∃ first challenge frame verdict,
        r.2.tcp.log = s.tcp.log ++ [.sent first, challenge, .sent frame, verdict] ∧
        v.sessionKey (frame.drop netbiosHeaderSize) = some nonces.xkey := by
  obtain ⟨s', hlogin, hlogged, huid, hsent⟩ := login_accepted (hP.mdx stack) (mdx_md4 P stack)
    (mdx_md5 P stack) (hv.mdx stack) nonces hcreds hxsec hasn1 hfits haccount hpeer
  intro r
  have hr : r = (.success, s') := hlogin
  rw [hr]
  exact ⟨rfl, hlogged, huid, hsent⟩

/-- A platform that encodes and decodes by the rules. -/
def Platform.spnegoDer : Platform := { Platform.der with responseToken := negTokenRespToken }

theorem spnegoDer_encodes : Platform.spnegoDer.Encodes where
  text := der_convertsText
  ascii := ⟨fun _ h => toUtf16_ascii rfl h, toUtf16_ascii_le rfl⟩
  tree := rfl
  init _ := rfl
  resp _ := rfl

/-- A server with one user, `u` of the domain `D` with the password `p`, and a zero challenge. -/
def XsecServer.sample : XsecServer where
  accounts user domain :=
    if user = ['U'.toUInt8, 0] ∧ domain = ['D'.toUInt8, 0] then some (rfc1320 ['p'.toUInt8, 0]) else none
  token := bareToken 0 48
  challengeReply := replyBytes ntStatusMoreProcessingRequired 0 7 (List.replicate 7 0 ++ le16 56 ++ [0, 0] ++
    derNegTokenResp (bareToken 0 48))
  acceptReply := setupReply 0 7 0
  refuseReply := setupReply 0xc000006d 0 0

theorem sample_wellFormed : XsecServer.sample.WellFormed .spnegoDer where
  challengeStatus := by decide +kernel
  blobInside := by decide +kernel
  decodes := by decide +kernel
  tokenHeader := by decide +kernel
  tokenFits := by decide +kernel
  targetInside := by decide +kernel
  acceptStatus := by decide +kernel
  acceptSize := by decide +kernel

theorem sample_fits : LoginFits (ascii "D") (ascii "u") (ascii "p") XsecServer.sample.target where
  shortDomain := by decide
  shortUser := by decide
  asciiUser := by
    intro b hb
    obtain rfl : b = 'u'.toUInt8 := List.mem_singleton.mp hb
    decide
  named := by decide
  tokenFits := by decide +kernel

theorem sample_account : XsecServer.sample.accounts (smbToUtf16 .spnegoDer ((ascii "u").map toupper))
    (smbToUtf16 .spnegoDer (ascii "D")) = some (rfc1320 (smbToUtf16 .spnegoDer (ascii "p"))) := by
  have huser : smbToUtf16 .spnegoDer ((ascii "u").map toupper) = ['U'.toUInt8, 0] := by decide +kernel
  have hdomain : smbToUtf16 .spnegoDer (ascii "D") = ['D'.toUInt8, 0] := by decide +kernel
  have hpassword : smbToUtf16 .spnegoDer (ascii "p") = ['p'.toUInt8, 0] := by decide +kernel
  rw [huser, hdomain, hpassword]
  dsimp only [XsecServer.sample]
  exact if_pos ⟨rfl, rfl⟩

/-- A session with the credentials of the user, connected to the server. -/
def XsecServer.sampleSession : SmbSession where
  transport := .obeyed XsecServer.sample.answers
  creds := ⟨some (ascii "D"), some (ascii "u"), some (ascii "p")⟩
  srv := { caps := smbCapsXsec }

theorem login_authenticates_sample :
    let r := smbSessionLogin (Platform.spnegoDer.mdx fun _ => 0xaa) {} XsecServer.sampleSession
    r.1 = .success ∧ r.2.logged = true ∧ r.2.srv.uid = 7 := by
  have hshort : ∀ answer ∈ XsecServer.sample.answers, ∀ request, ∀ m ∈ answer request,
      m.length < 65536 := by
    intro answer hanswer request m hm
    simp only [XsecServer.answers, List.mem_cons, List.not_mem_nil, or_false] at hanswer
    obtain rfl | rfl := hanswer
    · obtain rfl := List.mem_singleton.mp hm
      decide +kernel
    · obtain rfl := List.mem_singleton.mp hm
      split <;> decide +kernel
  have hlogin := login_authenticates .spnegoDer (fun _ => 0xaa) spnegoDer_encodes .sample
    sample_wellFormed {} XsecServer.sampleSession (ascii "D") (ascii "u") (ascii "p") rfl
    (by decide +kernel) rfl sample_fits sample_account (peer_obeyed hshort (by omega) rfl)
  have huid : replyUid XsecServer.sample.acceptReply = 7 := by decide +kernel
  exact ⟨hlogin.1, hlogin.2.1, hlogin.2.2.1.trans huid⟩

end Libdsm
