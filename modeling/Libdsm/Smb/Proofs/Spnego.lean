import Libdsm.Misc.Der
import Libdsm.Smb.Proofs.NegotiateToken
import Libdsm.Smb.Session

/-!
# The SPNEGO tokens

`negotiate` and `auth` wrap their NTLMSSP tokens in the types of `contrib/spnego/spnego.asn1` and have
the encoding written into a buffer of fixed size, 128 bytes for the first and 512 for the second. The
token of the first holds the domain twice, that of the second the domain twice and the user once in two
bytes a character, and what the server sent of itself. Credentials of a length that
`smb_session_set_creds` stores are refused where these do not fit.
-/

namespace Libdsm

/-! ## The encodings -/

/-- `spnego_oid` and `ntlmssp_oid`. -/
def spnegoOid : List Nat := [1, 3, 6, 1, 5, 5, 2]
def ntlmsspOid : List Nat := [1, 3, 6, 1, 4, 1, 311, 2, 2, 10]

/-- The `GSSAPIContextToken` of `negotiate`: `thisMech`, and a `negTokenInit` with `mechTypes` and
`mechToken`. -/
def derNegTokenInit (mechToken : List UInt8) : List UInt8 :=
  derApplication 0 (derOid spnegoOid ++
    derExplicit 0 (derSequence
      (derExplicit 0 (derSequence (derOid ntlmsspOid)) ++ derExplicit 2 (derOctetString mechToken))))

/-- The `NegotiationToken` of `auth`: a `negTokenResp` with `responseToken` alone. -/
def derNegTokenResp (responseToken : List UInt8) : List UInt8 :=
  derExplicit 1 (derSequence (derExplicit 2 (derOctetString responseToken)))

theorem derOid_spnego : derOid spnegoOid = [0x06, 6, 0x2b, 6, 1, 5, 5, 2] := by
  simp [derOid, spnegoOid, derTlv, derLength, derArc]

theorem derOid_ntlmssp :
    derOid ntlmsspOid = [0x06, 10, 0x2b, 6, 1, 4, 1, 0x82, 0x37, 2, 2, 10] := by
  simp [derOid, ntlmsspOid, derTlv, derLength, derArc]

/-- What stands before `mechToken`: the two identifiers and the types around the second. -/
theorem mechTypes_length :
    (derOid spnegoOid).length = 8 ∧ (derExplicit 0 (derSequence (derOid ntlmsspOid))).length = 16 := by
  have hoid : (derOid ntlmsspOid).length = 12 := by rw [derOid_ntlmssp]; rfl
  have hseq : (derSequence (derOid ntlmsspOid)).length = 14 := by
    rw [derSequence, derTlv_short _ (by omega), hoid]
  constructor
  · rw [derOid_spnego]
    rfl
  · rw [derExplicit, derTlv_short _ (by omega), hseq]

/-- The types around the token of `negotiate` take 34 bytes or more, and 34 as long as the whole fits
its buffer. -/
theorem negTokenInit_length (mechToken : List UInt8) :
    mechToken.length + 34 ≤ (derNegTokenInit mechToken).length ∧
      (mechToken.length ≤ 94 → (derNegTokenInit mechToken).length = mechToken.length + 34) := by
  obtain ⟨hthis, hmech⟩ := mechTypes_length
  rw [derNegTokenInit]
  generalize derOid spnegoOid = thisMech at hthis
  generalize derExplicit 0 (derSequence (derOid ntlmsspOid)) = mechTypes at hmech
  -- from the token outwards, each type by its size alone
  have htoken := @derTlv_small 0x04 mechToken
  rw [← derOctetString] at htoken
  generalize derOctetString mechToken = token at htoken
  have hfield := @derTlv_small (UInt8.ofNat (0xa0 + 2)) token
  rw [← derExplicit] at hfield
  generalize derExplicit 2 token = field at hfield
  have hsequence := @derTlv_small 0x30 (mechTypes ++ field)
  rw [← derSequence, List.length_append, hmech] at hsequence
  generalize derSequence (mechTypes ++ field) = sequence at hsequence
  have hinit := @derTlv_small (UInt8.ofNat (0xa0 + 0)) sequence
  rw [← derExplicit] at hinit
  generalize derExplicit 0 sequence = init at hinit
  have hall := @derTlv_small (UInt8.ofNat (0x60 + 0)) (thisMech ++ init)
  rw [← derApplication, List.length_append, hthis] at hall
  omega

theorem negTokenInit_fits_iff (mechToken : List UInt8) :
    (derNegTokenInit mechToken).length ≤ 128 ↔ mechToken.length ≤ 94 := by
  obtain ⟨hge, heq⟩ := negTokenInit_length mechToken
  omega

/-- The four types around the token of `auth` take 16 bytes where the whole comes near the size of its
buffer. -/
theorem negTokenResp_fits_iff {responseToken : List UInt8} (h : responseToken.length < 65000) :
    (derNegTokenResp responseToken).length ≤ 512 ↔ responseToken.length ≤ 496 := by
  rw [derNegTokenResp]
  have htoken := @derTlv_large 0x04 responseToken
  rw [← derOctetString] at htoken
  generalize derOctetString responseToken = token at htoken
  have hfield := @derTlv_large (UInt8.ofNat (0xa0 + 2)) token
  rw [← derExplicit] at hfield
  generalize derExplicit 2 token = field at hfield
  have hsequence := @derTlv_large 0x30 field
  rw [← derSequence] at hsequence
  generalize derSequence field = sequence at hsequence
  have hall := @derTlv_large (UInt8.ofNat (0xa0 + 1)) sequence
  rw [← derExplicit] at hall
  omega

/-! ## The tokens of a login -/

theorem negotiateToken_length (P : Platform) (domain : List UInt8) :
    (smbNtlmsspNegotiate P domain domain).length = 32 + 2 * domain.length := by
  rw [negotiate_length, negotiateSize, alignWord, if_neg (by omega)]
  omega

theorem responseToken_length (P : Platform) (nonces : SmbNonces) (srvChallenge srvTs : UInt64)
    (domain user password target : List UInt8) :
    (smbNtlmsspResponse P nonces srvChallenge srvTs domain domain user password target).length =
      alignWord (148 + 4 * domain.length + 2 * user.length + target.length) := by
  rw [ntlmsspResponse_eq, Mem.read_length, authSize, makeBlob_length]
  congr 1
  omega

/-- A token fits if its encoding is no longer than the buffer. -/
theorem derCoding_isSome_iff (der : List UInt8) (size : Nat) :
    (derCoding (some der) size).isSome ↔ der.length ≤ size := by
  rw [derCoding, Option.isSome_filter]
  simp

/-- `negotiate` refuses a token that does not fit, and nothing else. -/
theorem spnegoNegotiate_refused_iff (P : Platform) (domain : List UInt8) (s : SmbSession) :
    (spnegoNegotiate P domain s).1 ≠ .errorGeneric ↔
      (derCoding (P.negTokenInit (smbNtlmsspNegotiate P domain domain)) 128).isSome := by
  rw [spnegoNegotiate, get_bind_run]
  cases hder : derCoding (P.negTokenInit (smbNtlmsspNegotiate P domain domain)) 128 with
  | none => exact iff_of_false (fun h => h rfl) (by decide)
  | some der =>
    refine iff_of_true ((?_ : Returns (· ≠ DsmCode.errorGeneric) _) s) rfl
    exact .bind fun _ => .ite (.pure (by decide)) (.pure (by decide))

/-- What `auth` has encoded. -/
def spnegoResponse (P : Platform) (nonces : SmbNonces) (domain user password : List UInt8)
    (s : SmbSession) : List UInt8 :=
  smbNtlmsspResponse P nonces s.srv.challenge (s.srv.ts - 4200) domain domain user password s.xsecTarget

theorem spnegoAuth_refused_iff (P : Platform) (nonces : SmbNonces) (domain user password : List UInt8)
    (s : SmbSession) :
    (spnegoAuth P nonces domain user password s).1 ≠ .errorGeneric ↔
      (derCoding (P.negTokenResp (spnegoResponse P nonces domain user password s)) 512).isSome := by
  rw [spnegoAuth, get_bind_run, ← spnegoResponse]
  cases hder : derCoding (P.negTokenResp (spnegoResponse P nonces domain user password s)) 512 with
  | none => exact iff_of_false (fun h => h rfl) (by decide)
  | some der =>
    refine iff_of_true ((?_ : Returns (· ≠ DsmCode.errorGeneric) _) s) rfl
    refine .bind fun _ => .ite (.pure (by decide)) (.bind fun resp => ?_)
    cases resp with
    | none => exact .pure (by decide)
    | some resp =>
      exact .bind fun _ => .ite (.pure (by decide)) (.ite (.pure (by decide))
        (.bind fun _ => .pure (by decide)))

/-! ## When the tokens fit -/

/-- Both encodings fit their buffers, and neither step of the login is refused for its token. -/
structure TokensFit (P : Platform) (nonces : SmbNonces) (s : SmbSession)
    (domain user password : List UInt8) : Prop where
  init : (derCoding (P.negTokenInit (smbNtlmsspNegotiate P domain domain)) 128).isSome
  resp : (derCoding (P.negTokenResp (spnegoResponse P nonces domain user password s)) 512).isSome
  negotiate : (spnegoNegotiate P domain s).1 ≠ .errorGeneric
  auth : (spnegoAuth P nonces domain user password s).1 ≠ .errorGeneric

/-- For credentials and a target of any length that can occur, the tokens fit exactly if the domain has
no more than 31 bytes, and four times its length, twice that of the user and the length of the target
are no more than 348. -/
theorem tokensFit_iff (P : Platform) (nonces : SmbNonces) (s : SmbSession)
    (domain user password : List UInt8)
    (hinit : ∀ token, P.negTokenInit token = some (derNegTokenInit token))
    (hresp : ∀ token, P.negTokenResp token = some (derNegTokenResp token))
    (hdomain : domain.length ≤ smbCredsMaxlen) (huser : user.length ≤ smbCredsMaxlen)
    (htarget : s.xsecTarget.length ≤ 512) :
    TokensFit P nonces s domain user password ↔
      domain.length ≤ 31 ∧ 4 * domain.length + 2 * user.length + s.xsecTarget.length ≤ 348 := by
  rw [smbCredsMaxlen] at hdomain huser
  have hlength := responseToken_length P nonces s.srv.challenge (s.srv.ts - 4200) domain user password
    s.xsecTarget
  rw [← spnegoResponse] at hlength
  obtain ⟨hge, hle⟩ := alignWord_le (148 + 4 * domain.length + 2 * user.length + s.xsecTarget.length)
  have hfirst : (derCoding (P.negTokenInit (smbNtlmsspNegotiate P domain domain)) 128).isSome ↔
      domain.length ≤ 31 := by
    rw [hinit, derCoding_isSome_iff, negTokenInit_fits_iff, negotiateToken_length]
    omega
  have hsecond : (derCoding (P.negTokenResp (spnegoResponse P nonces domain user password s))
      512).isSome ↔ 4 * domain.length + 2 * user.length + s.xsecTarget.length ≤ 348 := by
    rw [hresp, derCoding_isSome_iff, negTokenResp_fits_iff (by omega), hlength, alignWord]
    split <;> omega
  constructor
  · intro h
    exact ⟨hfirst.mp h.init, hsecond.mp h.resp⟩
  · rintro ⟨hshort, hsum⟩
    have hdone := hfirst.mpr hshort
    have hdone' := hsecond.mpr hsum
    exact ⟨hdone, hdone', (spnegoNegotiate_refused_iff P domain s).mpr hdone,
      (spnegoAuth_refused_iff P nonces domain user password s).mpr hdone'⟩

/-- A platform that encodes by the rules. -/
def Platform.der : Platform :=
  { Platform.ascii with
    negTokenInit := fun token => some (derNegTokenInit token)
    negTokenResp := fun token => some (derNegTokenResp token) }

/-- A session that has got this target from its server. -/
def sessionWithTarget (target : List UInt8) : SmbSession :=
  { smbSessionNew .der (.answering []) with xsecTarget := target }

/-- A short domain and a short user, with a target of 200 bytes. -/
theorem tokensFit_short :
    TokensFit .der {} (sessionWithTarget (List.replicate 200 0)) (ascii "WORKGROUP") (ascii "guest") [] := by
  have htarget : (sessionWithTarget (List.replicate 200 0)).xsecTarget.length = 200 :=
    List.length_replicate
  apply (tokensFit_iff .der {} (sessionWithTarget (List.replicate 200 0)) (ascii "WORKGROUP")
    (ascii "guest") [] (fun _ => rfl) (fun _ => rfl) (by decide) (by decide) (by omega)).mpr
  rw [htarget]
  decide

/-- A domain of 32 bytes is stored, and its first token has 131 bytes. -/
theorem tokensFit_long_domain :
    ¬ ∀ (P : Platform) (nonces : SmbNonces) (s : SmbSession) (domain user password : List UInt8),
      (∀ token, P.negTokenInit token = some (derNegTokenInit token)) →
      (∀ token, P.negTokenResp token = some (derNegTokenResp token)) →
      domain.length ≤ smbCredsMaxlen → user.length ≤ smbCredsMaxlen →
      password.length ≤ smbCredsMaxlen → s.xsecTarget.length ≤ 512 →
      TokensFit P nonces s domain user password := by
  intro h
  have hfit := (h .der {} (sessionWithTarget []) (List.replicate 32 0x61) [] [] (fun _ => rfl)
    (fun _ => rfl) (by decide) (by decide) (by decide) (by decide)).init
  have hinit : Platform.der.negTokenInit (smbNtlmsspNegotiate .der (List.replicate 32 0x61)
      (List.replicate 32 0x61)) = some (derNegTokenInit (smbNtlmsspNegotiate .der
        (List.replicate 32 0x61) (List.replicate 32 0x61))) := rfl
  rw [hinit, derCoding_isSome_iff, negTokenInit_fits_iff, negotiateToken_length,
    List.length_replicate] at hfit
  exact absurd hfit (by decide)

end Libdsm
