import Libdsm.Smb.Proofs.Connect
import Libdsm.Smb.Proofs.NtlmServer

/-!
# Establishing a session

A server with or without extended security, from the connection to the login. The one without sends its
challenge in the answer to the negotiation and checks the LM2 response of a plain Session Setup request;
the other is that of `NtlmServer`. `session_established` has the three calls a program makes.
-/

namespace Libdsm

/-! ## A plain login -/

/-- The bytes of a string without its terminator. -/
def utf16Text (utf : List UInt8) : List UInt8 := utf.take (utf.length - 2)

/-- The verdict of a server on a plain Session Setup request: the response has to be a keyed digest of the
challenge and what follows it, by the hash of the user whom the strings name. -/
def lmServer (accounts : NtAccounts) (challenge : UInt64) (request : List UInt8) : Option Bool := do
  let lm2 := (request.drop sessionFields.payload).take (replyU16 request sessionFields.blobSize).toNat
  -- the strings start at an even offset
  let start := sessionFields.payload + lm2.length
  let (login, rest) ← takeUtf16z (request.drop (start + start % 2))
  let (domain, _) ← takeUtf16z rest
  let user := upperUtf16 (utf16Text login)
  let hashV1 ← accounts user (utf16Text domain)
  let hashV2 := hmac rfc1321 64 hashV1 (user ++ utf16Text domain)
  return lm2.take 16 = hmac rfc1321 64 hashV2 (le64 challenge ++ lm2.drop 16)

theorem utf16Text_setupString (P : Platform) (str : List UInt8) :
    utf16Text (setupString P str) = smbToUtf16 P str := by
  rw [utf16Text, setupString, List.length_append, le16_length, Nat.add_sub_cancel, List.take_left]

theorem takeUtf16z_setupString {P : Platform} (hconv : P.ConvertsText) {str : List UInt8} (hstr : 0 ∉ str)
    (rest : List UInt8) :
    takeUtf16z (setupString P str ++ rest) = some (setupString P str, rest) := by
  obtain ⟨-, units, hunits, hutf⟩ := setupString_spec hconv hstr
  rw [hutf]
  exact takeUtf16z_utf16z hunits rest

section Plain

variable {P : Platform} (nonces : SmbNonces) (srv : SmbSrvInfo) (uid : UInt16)
variable {domain user : List UInt8} (password : List UInt8)

/-- What a plain request has behind its structure. -/
theorem loginNtlmReq_content (hconv : P.ConvertsText) (hmd5 : ∀ bs, (P.md5 bs).length = 16)
    (hdomain : 0 ∉ domain ∧ domain.length ≤ smbCredsMaxlen)
    (huser : 0 ∉ user ∧ user.length ≤ smbCredsMaxlen) :
    let request := smbRequestBytes uid (smbSessionLoginNtlmReq P nonces srv domain user password)
    let lm2 := smbLm2Response P (smbNtlm2Hash P user password domain) srv.challenge nonces.userChallenge
    request.length ≤ 7776 ∧
      (request.drop sessionFields.payload).take (replyU16 request sessionFields.blobSize).toNat = lm2 ∧
      request.drop 86 = ([user, domain, smbOs, smbLanman].map (setupString P)).flatten := by
  intro request lm2
  have hlm2 : lm2.length = 24 := lm2Response_length P hmd5 _ _ _
  have hconsistent := loginNtlmReq_consistent hconv hmd5 nonces srv uid password hdomain huser
  have htexts : ∀ text ∈ [user, domain, smbOs, smbLanman], 0 ∉ text ∧ text.length ≤ smbCredsMaxlen := by
    intro text htext
    simp only [List.mem_cons, List.not_mem_nil, or_false] at htext
    obtain rfl | rfl | rfl | rfl := htext
    · exact huser
    · exact hdomain
    · decide
    · decide
  have hstrings := strings_length hconv htexts
  rw [List.length_cons, List.length_cons, List.length_cons, List.length_singleton] at hstrings
  have hbuilt : ∃ r : SmbSessionReq, smbSessionLoginNtlmReq P nonces srv domain user password =
      smbMessageInsert (setupMessage P 29 lm2 (fun cursor => cursor / 2 ≠ 0)
        (textCalls [user, domain, smbOs, smbLanman])) 0 r.bytes := ⟨_, rfl⟩
  obtain ⟨r, hreq⟩ := hbuilt
  have hheader : r.bytes.length = 29 := by
    obtain ⟨front, middle, hbytes, hfront, hmiddle⟩ := sessionReq_split r
    rw [hbytes]
    simp only [List.length_append, le16_length]
    omega
  have hbuilds := setupMessage_insert P 29 lm2 (fun cursor => cursor / 2 ≠ 0)
    (textCalls_content P [user, domain, smbOs, smbLanman]) (by omega) hheader (by omega)
  have hpad : setupPad 29 lm2 (fun cursor => cursor / 2 ≠ 0) = [0] := by
    rw [setupPad, hlm2]
    rfl
  rw [← hreq, hpad] at hbuilds
  obtain ⟨sent, hsent, hbuilds⟩ := hbuilds.request uid
  have hrequest : request = sent.bytes := hsent
  generalize ([user, domain, smbOs, smbLanman].map (setupString P)).flatten = strings at hstrings hbuilds ⊢
  have hfront : (r.bytes ++ (lm2 ++ [0])).length = 54 := by
    simp only [List.length_append, List.length_singleton]
    omega
  refine ⟨?_, hconsistent.carried, ?_⟩
  · rw [hrequest, hbuilds.bytes_length]
    simp only [List.length_append, List.length_singleton, smbHeaderSize]
    omega
  · rw [hrequest, show 86 = smbHeaderSize + 54 from rfl, ← List.drop_drop, hbuilds.bytes_drop,
      ← List.append_assoc, List.drop_left' hfront]

/-- The server accepts the request of a user it knows. -/
theorem loginNtlmReq_accepted (hconv : P.ConvertsText) (hP : P.ConvertsAscii) (hmd4 : P.md4 = rfc1320)
    (hmd5 : P.md5 = rfc1321) (hdomain : 0 ∉ domain ∧ domain.length ≤ smbCredsMaxlen)
    (hzero : 0 ∉ user) (huser : user.length ≤ 63) (hascii : ∀ b ∈ user, b < 128) {accounts : NtAccounts}
    (haccount : accounts (smbToUtf16 P (user.map toupper)) (smbToUtf16 P domain) =
      some (rfc1320 (smbToUtf16 P password))) :
    lmServer accounts srv.challenge
      (smbRequestBytes uid (smbSessionLoginNtlmReq P nonces srv domain user password)) = some true := by
  have hmd5' : ∀ bs, (P.md5 bs).length = 16 := by
    rw [hmd5]
    exact mdHash_length _
  obtain ⟨-, hlm2, hstrings⟩ := loginNtlmReq_content nonces srv uid password hconv hmd5' hdomain
    ⟨hzero, by rw [smbCredsMaxlen]; omega⟩
  have hlength : (smbLm2Response P (smbNtlm2Hash P user password domain) srv.challenge
      nonces.userChallenge).length = 24 := lm2Response_length P hmd5' _ _ _
  have hproved := response_proved hmd5 srv.challenge user password domain (le64 nonces.userChallenge)
  rw [List.map_cons, List.flatten_cons, List.map_cons, List.flatten_cons] at hstrings
  rw [lmServer, hlm2]
  dsimp only
  rw [hlength, show sessionFields.payload + 24 + (sessionFields.payload + 24) % 2 = 86 from rfl, hstrings,
    takeUtf16z_setupString hconv hzero, Option.bind_eq_bind, Option.bind_some]
  dsimp only
  rw [takeUtf16z_setupString hconv hdomain.1, Option.bind_some]
  dsimp only
  rw [utf16Text_setupString, utf16Text_setupString, upperUtf16_ascii hP hascii, haccount, Option.bind_eq_bind,
    Option.bind_some, serverHash_eq hmd4 hmd5 huser]
  simp only [smbLm2Response, hproved, decide_true]
  rfl

/-- The run of a login that the server accepts. -/
theorem loginNtlm_run {s s' s'' : SmbSession} {msg : SmbMessage}
    (hsend : smbSessionSendMsg (smbSessionLoginNtlmReq P nonces s.srv domain user password) s = (true, s'))
    (hrecv : smbSessionRecvMsg s' = (some msg, s'')) (hstatus : msg.status = ntStatusSuccess)
    (hsize : SmbSessionResp.size ≤ msg.payloadSize) :
    smbSessionLoginNtlm P nonces domain user password s =
      (.success, s''.loggedIn (SmbSessionResp.action msg.payload) msg.uid) := by
  rw [smbSessionLoginNtlm, get_bind_run, bind_run hsend, if_neg (by decide), bind_run hrecv]
  dsimp only
  rw [if_neg (Nat.not_lt.mpr hsize), bind_run (checkNtStatus_success hstatus s''), if_neg (by decide),
    bind_run (loggedIn_run _ _ _)]
  rfl

end Plain

/-! ## From the connection to the login -/

/-- A server that negotiates and authenticates. -/
structure LoginServer where
  nego : NegoServer
  xsec : XsecServer

/-- The answers after the negotiation: those of an extended login if the server has said that it can do
that, else the verdict on a plain request. -/
def LoginServer.answers (v : LoginServer) : List Answer :=
  if v.nego.caps &&& smbCapsXsec ≠ 0 then v.xsec.answers
  else [fun request =>
    [if lmServer v.xsec.accounts v.nego.challenge request = some true then v.xsec.acceptReply
      else v.xsec.refuseReply]]

/-- A plain login with a server that knows the user. -/
theorem plainLogin_accepted {P : Platform} (hP : P.Encodes) (hmd4 : P.md4 = rfc1320) (hmd5 : P.md5 = rfc1321)
    {v : XsecServer} (hv : v.WellFormed P) (nonces : SmbNonces) {domain user password : List UInt8}
    {s : SmbSession} (hcreds : s.creds = ⟨some domain, some user, some password⟩)
    (hplain : s.supportsXsec = false) (hfits : LoginFits domain user password v.target)
    (hdomain : 0 ∉ domain) (huser : 0 ∉ user)
    (haccount : v.accounts (smbToUtf16 P (user.map toupper)) (smbToUtf16 P domain) =
      some (rfc1320 (smbToUtf16 P password)))
    (hpeer : Peer 8192 s [] [fun request =>
      [if lmServer v.accounts s.srv.challenge request = some true then v.acceptReply else v.refuseReply]]) :
    ∃ s', smbSessionLogin P nonces s = (.success, s') ∧ s'.logged = true ∧
      s'.srv.uid = replyUid v.acceptReply := by
  have hshort : domain.length ≤ smbCredsMaxlen := Nat.le_trans hfits.shortDomain (by decide)
  have hlogin : user.length ≤ smbCredsMaxlen := Nat.le_trans hfits.shortUser (by decide)
  have hmd5' : ∀ bs, (P.md5 bs).length = 16 := by
    rw [hmd5]
    exact mdHash_length _
  obtain ⟨hlength, -, -⟩ := loginNtlmReq_content nonces s.srv s.srv.uid password hP.text hmd5'
    ⟨hdomain, hshort⟩ ⟨huser, hlogin⟩
  have haccepted := loginNtlmReq_accepted nonces s.srv s.srv.uid password hP.text hP.ascii hmd4 hmd5
    ⟨hdomain, hshort⟩ huser hfits.shortUser hfits.asciiUser haccount
  generalize hmsg : smbSessionLoginNtlmReq P nonces s.srv domain user password = request
    at hlength haccepted
  obtain ⟨nb₁, frame, hsend, -, -, hpeer₁⟩ := @Peer.send _ _ _ _ _ hpeer request (by omega)
    (by rw [netbiosHeaderSize]; omega)
  rw [List.nil_append, if_pos haccepted] at hpeer₁
  have hsize := hv.acceptSize
  rw [smbHeaderSize, SmbSessionXsecResp.size] at hsize
  obtain ⟨msg, nb₂, -, hrecv, hholds, -, -⟩ := hpeer₁.recv (by rw [smbHeaderSize]; omega)
  have hstatus : msg.status = ntStatusSuccess := by rw [hholds.status_eq, hv.acceptStatus]
  have hpayload : SmbSessionResp.size ≤ msg.payloadSize := by
    have hwhole := hholds.length
    rw [smbHeaderSize] at hwhole
    rw [SmbSessionResp.size]
    omega
  refine ⟨((s.withNetbios nb₁).withNetbios nb₂).loggedIn (SmbSessionResp.action msg.payload) msg.uid, ?_, rfl,
    hholds.uid_eq⟩
  rw [smbSessionLogin, get_bind_run, hcreds]
  dsimp only
  rw [if_neg (by rw [hplain]; decide)]
  rw [← hmsg] at hsend
  exact loginNtlm_run nonces password hsend hrecv hstatus hpayload

/-- The three calls that establish a session: with the credentials of a user the server knows, as far as
they fit the buffers of a login, the connection to a server that listens under this name and speaks a
dialect of the client is made, and the login succeeds, by whichever of the two ways the server has
offered. -/
theorem session_established (P : Platform) (stack : Mem) (hP : P.Encodes) (v : LoginServer)
    (hv : v.xsec.WellFormed P) (kind : SmbTransportKind) (name : List UInt8) (hname : NameFits name)
    (hcalled : kind = .tcp ∨ normalName name = normalName v.nego.name)
    (hchosen : (v.nego.choose (smbDialects.map (·.drop 1))).isSome) (nonces : SmbNonces) (s : SmbSession)
    (hasn1 : s.spnegoAsn1 = false) (h : Listening v.nego kind s.tcp v.answers)
    (domain user password : List UInt8) (hfits : LoginFits domain user password v.xsec.target)
    (hdomain : 0 ∉ domain) (huser : 0 ∉ user) (hpassword : password.length ≤ smbCredsMaxlen)
    (haccount : v.xsec.accounts (smbToUtf16 P (user.map toupper)) (smbToUtf16 P domain) =
      some (rfc1320 (smbToUtf16 P password))) :
    let creds := smbSessionSetCreds (some domain) (some user) (some password) s
    let connect := smbSessionConnect (P.mdx stack) name (some kind) creds.2
    let login := smbSessionLogin (P.mdx stack) nonces connect.2
    connect.1 = .success ∧ NameFits connect.2.srv.name ∧ login.1 = .success ∧ login.2.logged = true ∧
      login.2.srv.uid = replyUid v.xsec.acceptReply := by
  intro creds connect login
  obtain ⟨index, hindex⟩ := Option.isSome_iff_exists.mp hchosen
  have hstored : creds.2.creds = ⟨some domain, some user, some password⟩ := by
    have hshort : domain.length ≤ smbCredsMaxlen := Nat.le_trans hfits.shortDomain (by decide)
    have hlogin : user.length ≤ smbCredsMaxlen := Nat.le_trans hfits.shortUser (by decide)
    show SmbCreds.mk (some (domain.take _)) (some (user.take _)) (some (password.take _)) = _
    rw [List.take_of_length_le hshort, List.take_of_length_le hlogin, List.take_of_length_le hpassword]
  obtain ⟨nb, hconnect, hpeer⟩ := @Listening.connected v.nego kind v.answers creds.2 h (P.mdx stack) name
  obtain ⟨nb', hnego, -, hpeer'⟩ := @Peer.negotiate v.nego v.answers
    { creds.2.on kind nb with srv := { creds.2.srv with name } } ((hpeer hcalled).of_transport rfl)
    (P.mdx stack)
  have hconnected := (hconnect.trans (if_pos hcalled)).trans (hnego index hindex)
  generalize hs₁ : ({ ({ creds.2.on kind nb with srv := { creds.2.srv with name } } : SmbSession).withNetbios nb'
    with srv := v.nego.learned { creds.2.srv with name } index } : SmbSession) = s₁ at hconnected
  have hc : connect = (.success, s₁) := hconnected
  have hpeer₁ : Peer 8192 s₁ [] v.answers := hpeer'.of_transport (by rw [← hs₁])
  have hcreds₁ : s₁.creds = ⟨some domain, some user, some password⟩ := by
    rw [← hs₁]
    exact hstored
  have hasn1₁ : s₁.spnegoAsn1 = false := by
    rw [← hs₁]
    exact hasn1
  have hsrv₁ : s₁.srv = v.nego.learned { creds.2.srv with name } index := by rw [← hs₁]
  clear hs₁ hconnected
  have hl : login = smbSessionLogin (P.mdx stack) nonces s₁ := by
    show smbSessionLogin (P.mdx stack) nonces connect.2 = _
    rw [hc]
  rw [hl, hc]
  have hfitsName : NameFits s₁.srv.name := by
    rw [hsrv₁]
    exact hname
  refine ⟨rfl, hfitsName, ?_⟩
  by_cases hxsec : v.nego.caps &&& smbCapsXsec ≠ 0
  · rw [LoginServer.answers, if_pos hxsec] at hpeer₁
    have hsupports : s₁.supportsXsec = true := by
      rw [SmbSession.supportsXsec, hsrv₁]
      exact decide_eq_true hxsec
    obtain ⟨s', hlogin, hlogged, huid, -⟩ := login_accepted (hP.mdx stack) (mdx_md4 P stack)
      (mdx_md5 P stack) (hv.mdx stack) nonces hcreds₁ hsupports hasn1₁ hfits haccount hpeer₁
    rw [hlogin]
    exact ⟨rfl, hlogged, huid⟩
  · rw [LoginServer.answers, if_neg hxsec] at hpeer₁
    have hsupports : s₁.supportsXsec = false := by
      rw [SmbSession.supportsXsec, hsrv₁]
      exact decide_eq_false hxsec
    -- the challenge of the negotiation is the one the response is made for
    have hchallenge : s₁.srv.challenge = v.nego.challenge := by
      rw [hsrv₁]
      exact if_neg hxsec
    rw [← hchallenge] at hpeer₁
    obtain ⟨s', hlogin, hlogged, huid⟩ := plainLogin_accepted (hP.mdx stack) (mdx_md4 P stack)
      (mdx_md5 P stack) (hv.mdx stack) nonces hcreds₁ hsupports hfits hdomain huser haccount hpeer₁
    rw [hlogin]
    exact ⟨rfl, hlogged, huid⟩

/-- A server named `SRV` without extended security, and with the user `u`. -/
def LoginServer.sample : LoginServer where
  nego := .sample
  xsec := .sample

theorem session_established_sample :
    let s := smbSessionNew .spnegoDer (.listening .sample LoginServer.sample.answers)
    let creds := smbSessionSetCreds (some (ascii "D")) (some (ascii "u")) (some (ascii "p")) s
    let connect := smbSessionConnect (Platform.spnegoDer.mdx fun _ => 0xaa) (ascii "srv") (some .nbt) creds.2
    let login := smbSessionLogin (Platform.spnegoDer.mdx fun _ => 0xaa) {} connect.2
    connect.1 = .success ∧ login.1 = .success ∧ login.2.logged = true ∧ login.2.srv.uid = 7 := by
  intro s
  have hshort : ∀ answer ∈ NegoServer.sample.negotiated :: LoginServer.sample.answers, ∀ request,
      ∀ m ∈ answer request, m.length < 65536 := by
    intro answer hanswer request m hm
    rcases List.mem_cons.mp hanswer with rfl | hanswer
    · exact sample_negotiated_short request m hm
    · rw [LoginServer.answers, if_neg (by decide)] at hanswer
      obtain rfl := List.mem_singleton.mp hanswer
      obtain rfl := List.mem_singleton.mp hm
      split <;> decide +kernel
  have hname : normalName (ascii "srv") = normalName NegoServer.sample.name := by decide +kernel
  have hchosen : (NegoServer.sample.choose (smbDialects.map (·.drop 1))).isSome := by decide +kernel
  have hfits : NameFits (ascii "srv") := by
    show 3 < smbSrvNameSize
    decide
  obtain ⟨hconnect, -, hlogin⟩ := session_established .spnegoDer (fun _ => 0xaa)
    spnegoDer_encodes .sample sample_wellFormed .nbt (ascii "srv") hfits (.inr hname) hchosen {} s rfl
    (listening_answers hshort) (ascii "D") (ascii "u") (ascii "p") sample_fits (by decide) (by decide)
    (by decide) sample_account
  have hseven : replyUid LoginServer.sample.xsec.acceptReply = 7 := by decide +kernel
  rw [hseven] at hlogin
  exact ⟨hconnect, hlogin⟩

end Libdsm
