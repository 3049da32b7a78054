import Libdsm.Smb.Proofs.Exchange

/-!
# The challenge of an extended login

The reply that `challenge` takes names three lengths of its own: of the blob behind its header, of
the target information in the token that the blob decodes to, and the offset of that information.
What `challenge` keeps is what the server sent exactly if they lie inside one another, which it does
not check.
-/

namespace Libdsm

/-! ## The reply -/

/-- `resp->payload`, as long as the reply says it is. -/
def challengeBlob (msg : SmbMessage) : List UInt8 :=
  (SmbSessionXsecResp.payload msg.payload).read 0 (SmbSessionXsecResp.xsecBlobSize msg.payload).toNat

/-- The response token that `challenge` goes on with, if it does. -/
def challengeToken (P : Platform) (msg : SmbMessage) : Option (List UInt8) :=
  if msg.status ≠ ntStatusMoreProcessingRequired then none
  else if msg.payloadSize < SmbSessionXsecResp.size then none
  else derCoding (P.responseToken (challengeBlob msg)) 512

/-- `sizeof(smb_ntlmssp_challenge)`. -/
def ntlmsspChallengeSize : Nat := 48

/-- `tgt_len` and `tgt_offset` of a token. -/
def tgtLen (token : List UInt8) : Nat := (replyU16 token 40).toNat
def tgtOffset (token : List UInt8) : Nat := (replyU32 token 44).toNat

/-- The blob lies inside the payload, and the header of the token and its target information inside
the token. -/
structure ChallengeInside (msg : SmbMessage) (token : List UInt8) : Prop where
  blob : SmbSessionXsecResp.size + (challengeBlob msg).length ≤ msg.payloadSize
  header : ntlmsspChallengeSize ≤ token.length
  target : tgtOffset token + tgtLen token ≤ token.length

/-! ## What is kept of it -/

section

variable (P : Platform) {s : SmbSession} {msg : SmbMessage}

theorem challenge_unreceived (h : (smbSessionRecvMsg s).1 = none) :
    (spnegoChallenge P s).1 ≠ .success := by
  rw [spnegoChallenge, bind_run (run_eq h)]
  intro hsuccess
  cases hsuccess

theorem challenge_refused (h : (smbSessionRecvMsg s).1 = some msg)
    (htoken : challengeToken P msg = none) : (spnegoChallenge P s).1 ≠ .success := by
  intro hsuccess
  rw [spnegoChallenge, bind_run (run_eq h)] at hsuccess
  dsimp only at hsuccess
  rw [challengeToken] at htoken
  by_cases hstatus : msg.status ≠ ntStatusMoreProcessingRequired
  · rw [if_pos hstatus] at hsuccess
    cases hsuccess
  · rw [if_neg hstatus] at hsuccess htoken
    by_cases hsize : msg.payloadSize < SmbSessionXsecResp.size
    · rw [if_pos hsize] at hsuccess
      cases hsuccess
    · rw [if_neg hsize] at hsuccess htoken
      rw [challengeBlob] at htoken
      rw [htoken] at hsuccess
      cases hsuccess

/-- A token that is taken is read through the structure laid over the buffer. -/
theorem challenge_taken {token : List UInt8} (h : (smbSessionRecvMsg s).1 = some msg)
    (htoken : challengeToken P msg = some token) :
    (spnegoChallenge P s).1 = .success ∧ (spnegoChallenge P s).2.xsecTarget =
      (P.stack.write 0 token).read ((P.stack.write 0 token).u32 44).toNat
        ((P.stack.write 0 token).u16 40).toNat := by
  rw [spnegoChallenge, bind_run (run_eq h)]
  dsimp only
  rw [challengeToken] at htoken
  by_cases hstatus : msg.status ≠ ntStatusMoreProcessingRequired
  · rw [if_pos hstatus] at htoken
    cases htoken
  · rw [if_neg hstatus] at htoken ⊢
    by_cases hsize : msg.payloadSize < SmbSessionXsecResp.size
    · rw [if_pos hsize] at htoken
      cases htoken
    · rw [if_neg hsize] at htoken ⊢
      rw [challengeBlob] at htoken
      rw [htoken]
      exact ⟨rfl, rfl⟩

/-- Where the token lies inside itself, what is kept is its target information. -/
theorem challenge_target {token : List UInt8} (h : (smbSessionRecvMsg s).1 = some msg)
    (htoken : challengeToken P msg = some token) (hinside : ChallengeInside msg token) :
    (spnegoChallenge P s).2.xsecTarget = (token.drop (tgtOffset token)).take (tgtLen token) := by
  have hheader := hinside.header
  rw [ntlmsspChallengeSize] at hheader
  have hlen : (P.stack.write 0 token).u16 40 = replyU16 token 40 := by
    rw [Mem.u16, Mem.read_write_part _ (by omega), replyU16]
  have hoffset : (P.stack.write 0 token).u32 44 = replyU32 token 44 := by
    rw [Mem.u32, Mem.read_write_part _ (by omega), replyU32]
  rw [(challenge_taken P h htoken).2, hlen, hoffset]
  exact Mem.read_write_part _ hinside.target

end

/-- `challenge` fails, or keeps the target information of the token that the blob of the reply decodes
to, each lying inside what it is taken from. -/
def ChallengeSound (P : Platform) (s : SmbSession) : Prop :=
  (spnegoChallenge P s).1 = .success →
    ∃ msg token, (smbSessionRecvMsg s).1 = some msg ∧ P.responseToken (challengeBlob msg) = some token ∧
      ChallengeInside msg token ∧
      (spnegoChallenge P s).2.xsecTarget = (token.drop (tgtOffset token)).take (tgtLen token)

theorem challengeToken_decodes {P : Platform} {msg : SmbMessage} {token : List UInt8}
    (h : challengeToken P msg = some token) : P.responseToken (challengeBlob msg) = some token := by
  rw [challengeToken] at h
  split at h
  · cases h
  · split at h
    · cases h
    · exact (Option.filter_eq_some_iff.mp h).1

/-- `challenge` keeps only what the server sent if and only if the lengths of a reply that it accepts lie
inside one another. -/
theorem challengeSound_iff (P : Platform) (s : SmbSession) :
    ChallengeSound P s ↔ ∀ msg token, (smbSessionRecvMsg s).1 = some msg →
      challengeToken P msg = some token → ChallengeInside msg token := by
  constructor
  · intro h msg token hmsg htoken
    obtain ⟨msg', token', hmsg', hdecodes, hinside, -⟩ := h (challenge_taken P hmsg htoken).1
    obtain rfl : msg = msg' := Option.some.inj (hmsg.symm.trans hmsg')
    obtain rfl : token = token' :=
      Option.some.inj ((challengeToken_decodes htoken).symm.trans hdecodes)
    exact hinside
  · intro h hsuccess
    cases hmsg : (smbSessionRecvMsg s).1 with
    | none => exact absurd hsuccess (challenge_unreceived P hmsg)
    | some msg =>
      cases htoken : challengeToken P msg with
      | none => exact absurd hsuccess (challenge_refused P hmsg htoken)
      | some token =>
        have hinside := h msg token hmsg htoken
        exact ⟨msg, token, rfl, challengeToken_decodes htoken, hinside,
          challenge_target P hmsg htoken hinside⟩

/-- The DER encoding of a `negTokenResp` with a short response token and nothing else. -/
def negTokenRespDer (token : List UInt8) : List UInt8 :=
  let len (n : Nat) : UInt8 := UInt8.ofNat (token.length + n)
  [0xa1, len 6, 0x30, len 4, 0xa2, len 2, 0x04, len 0] ++ token

/-- A platform that decodes such encodings. -/
def Platform.spnego : Platform :=
  { Platform.ascii with
    responseToken := fun blob =>
      if blob = negTokenRespDer (blob.drop 8) then some (blob.drop 8) else none }

/-- A token of the header alone, with these target fields. -/
def bareToken (len : UInt16) (offset : UInt32) : List UInt8 :=
  smbNtlmsspId ++ le32 2 ++ List.replicate 28 0 ++ le16 len ++ le16 len ++ le32 offset

/-- A session to which the server has sent a challenge with this token. -/
def challengedWith (token : List UInt8) : SmbSession :=
  let blob := negTokenRespDer token
  let reply := replyBytes ntStatusMoreProcessingRequired 0 0
    (List.replicate 7 0 ++ le16 (UInt16.ofNat blob.length) ++ [0, 0] ++ blob)
  { transport :=
    { kind := some .tcp
      session := netbiosSessionOn (fun _ => 0)
        (.silent [] [[0, 0] ++ htons reply.length ++ reply]) smbDefaultBufsize } }

/-- A token of 48 bytes whose target information is said to be the four bytes from 200 on. -/
theorem challenge_unsound :
    (spnegoChallenge .spnego (challengedWith (bareToken 4 200))).1 = .success ∧
      ¬ ChallengeSound .spnego (challengedWith (bareToken 4 200)) := by
  have hsuccess : (spnegoChallenge .spnego (challengedWith (bareToken 4 200))).1 = .success := by
    decide +kernel
  refine ⟨hsuccess, fun h => ?_⟩
  obtain ⟨msg, token, hmsg, hdecodes, hinside, -⟩ := h hsuccess
  have hsent : ((smbSessionRecvMsg (challengedWith (bareToken 4 200))).1.bind fun msg =>
      Platform.spnego.responseToken (challengeBlob msg)) = some (bareToken 4 200) := by
    decide +kernel
  rw [hmsg, Option.bind_some, hdecodes] at hsent
  have htarget := hinside.target
  rw [Option.some.inj hsent] at htarget
  revert htarget
  decide +kernel

end Libdsm
