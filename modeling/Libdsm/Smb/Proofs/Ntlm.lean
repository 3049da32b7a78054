import Libdsm.Misc.Cipher
import Libdsm.Smb.Session

/-!
# Both sides of NTLMv2

What a server that holds the hash makes of the responses: it splits off the proof, recomputes it over
the challenge it sent and the rest, and decrypts the session key with a key it derives from the
proof. MD5 is any digest of sixteen bytes. The hash itself is the one of the protocol for the user
names that the buffer of `smb_ntlm2_hash` has room for.
-/

namespace Libdsm

variable (P : Platform)

/-- For the keys that fit a block, `HMAC_MD5` is HMAC: the truncation it has in place of hashing a
long key does nothing. -/
theorem hmacMd5_eq_hmac {key : List UInt8} (hkey : key.length ≤ 64) (msg : List UInt8) :
    hmacMd5 P key msg = hmac P.md5 64 key msg := by
  have hxor (pad : UInt8) : (fun b : UInt8 => pad ^^^ b) = (fun b => b ^^^ pad) := by
    funext b
    exact UInt8.xor_comm pad b
  unfold hmacMd5 hmac
  rw [if_neg (Nat.not_lt.mpr hkey), List.take_of_length_le hkey, hxor 0x5c, hxor 0x36]

/-- One turn of `rc4_crypt`: the byte of the keystream and the state after it. -/
def rc4Next (st : Rc4State) : UInt8 × Rc4State :=
  let index1 := st.index1 + 1
  let index2 := st.index2 + st.perm index1
  let perm := rc4Swap st.perm index1 index2
  (perm (perm index1 + perm index2), { perm, index1, index2 })

theorem rc4Crypt_eq_crypt (st : Rc4State) (bs : List UInt8) :
    rc4Crypt st bs = Stream.crypt rc4Next st bs := by
  induction bs generalizing st with
  | nil => rfl
  | cons b bs ih =>
    rw [rc4Crypt, Stream.crypt]
    exact congrArg _ (ih _)

theorem rc4Crypt_length (st : Rc4State) (bs : List UInt8) : (rc4Crypt st bs).length = bs.length := by
  rw [rc4Crypt_eq_crypt, Stream.crypt_eq, List.length_zipWith, Stream.keystream_length, Nat.min_self]

/-- RC4 from the same state undoes itself. -/
theorem rc4Crypt_rc4Crypt (st : Rc4State) (bs : List UInt8) :
    rc4Crypt st (rc4Crypt st bs) = bs := by
  rw [rc4Crypt_eq_crypt, rc4Crypt_eq_crypt, Stream.crypt_crypt]

/-- Two places of a permutation are exchanged by exchanging them first. -/
theorem rc4Swap_eq (perm : Equiv.Perm UInt8) (i j : UInt8) :
    rc4Swap perm i j = (Equiv.swap i j).trans perm := by
  funext k
  rw [rc4Swap, Equiv.trans_apply, Equiv.swap_apply_def]
  split_ifs <;> rfl

theorem rc4Init_perm (key : List UInt8) :
    rc4Init key = ⟨(Rc4.state key 0).1, 0, 0⟩ := by
  let step (st : (UInt8 → UInt8) × UInt8) (i : Nat) : (UInt8 → UInt8) × UInt8 :=
    let j := st.2 + st.1 (UInt8.ofNat i) + key.getD (i % key.length) 0
    (rc4Swap st.1 (UInt8.ofNat i) j, j)
  have hsteps : ∀ n, (List.range n).foldl step (id, 0) =
      (⇑(Rc4.schedule key n).1, (Rc4.schedule key n).2) := by
    intro n
    induction n with
    | zero => rfl
    | succ n ih =>
      rw [List.range_succ, List.foldl_append, ih, List.foldl_cons, List.foldl_nil, Rc4.schedule]
      show (rc4Swap _ _ _, _) = _
      rw [rc4Swap_eq]
  rw [rc4Init, Rc4.state]
  generalize 256 = n
  exact congrArg (fun st : (UInt8 → UInt8) × UInt8 => (⟨st.1, 0, 0⟩ : Rc4State)) (hsteps n)

/-- `rc4.c` is RC4, from any byte of the keystream on. -/
theorem rc4Crypt_from (key bs : List UInt8) (n : Nat) :
    rc4Crypt ⟨(Rc4.state key n).1, UInt8.ofNat n, (Rc4.state key n).2⟩ bs =
      bs.mapIdx fun k b => b ^^^ Rc4.keystream key (n + k) := by
  induction bs generalizing n with
  | nil => rfl
  | cons b bs ih =>
    have hindex : UInt8.ofNat n + 1 = UInt8.ofNat (n + 1) := (UInt8.ofNat_add n 1).symm
    have hnext := ih (n + 1)
    simp only [Nat.add_right_comm n 1] at hnext
    rw [rc4Crypt, List.mapIdx_cons]
    dsimp only
    rw [hindex, rc4Swap_eq]
    exact congrArg₂ List.cons rfl hnext

theorem rc4_agrees (key bs : List UInt8) : rc4Crypt (rc4Init key) bs = Rc4.crypt key bs := by
  have hfrom := rc4Crypt_from key bs 0
  simp only [Nat.zero_add] at hfrom
  rw [rc4Init_perm]
  exact hfrom

section

variable (hmd5 : ∀ msg, (P.md5 msg).length = 16)

include hmd5

theorem ntlm2Response_drop (hashV2 : List UInt8) (srvChallenge : UInt64) (blob : List UInt8) :
    (smbNtlm2Response P hashV2 srvChallenge blob).drop 16 = blob :=
  List.drop_left' (hmd5 _)

theorem ntlm2Response_take (hashV2 : List UInt8) (srvChallenge : UInt64) (blob : List UInt8) :
    (smbNtlm2Response P hashV2 srvChallenge blob).take 16 =
      hmacMd5 P hashV2 (le64 srvChallenge ++ blob) :=
  List.take_left' (hmd5 _)

end

/-- The response splits into the proof and the blob, the proof is that of the blob, and the session
key decrypts; likewise for the LM response with the client's challenge as its blob. `HMAC_MD5` is
HMAC wherever the key fits a block, and `rc4.c` is RC4. -/
theorem ntlm2_agrees (hmd5 : ∀ msg, (P.md5 msg).length = 16) (hashV2 : List UInt8)
    (srvChallenge clientChallenge : UInt64) (blob xkey : List UInt8) :
    let response := smbNtlm2Response P hashV2 srvChallenge blob
    let lm := smbLm2Response P hashV2 srvChallenge clientChallenge
    response.drop 16 = blob ∧
      response.take 16 = hmacMd5 P hashV2 (le64 srvChallenge ++ response.drop 16) ∧
      rc4Crypt (rc4Init (hmacMd5 P hashV2 (response.take 16)))
        (smbNtlm2SessionKey P hashV2 response xkey) = xkey ∧
      lm.drop 16 = le64 clientChallenge ∧
      lm.take 16 = hmacMd5 P hashV2 (le64 srvChallenge ++ lm.drop 16) ∧
      (∀ key msg, key.length ≤ 64 → hmacMd5 P key msg = hmac P.md5 64 key msg) ∧
      ∀ key text, rc4Crypt (rc4Init key) text = Rc4.crypt key text := by
  intro response lm
  have hblob : response.drop 16 = blob := ntlm2Response_drop P hmd5 hashV2 srvChallenge blob
  have hclient : lm.drop 16 = le64 clientChallenge :=
    ntlm2Response_drop P hmd5 hashV2 srvChallenge (le64 clientChallenge)
  refine ⟨hblob, ?_, ?_, hclient, ?_, fun key msg hkey => hmacMd5_eq_hmac P hkey msg, rc4_agrees⟩
  · rw [hblob]
    exact ntlm2Response_take P hmd5 hashV2 srvChallenge blob
  · exact rc4Crypt_rc4Crypt _ xkey
  · rw [hclient]
    exact ntlm2Response_take P hmd5 hashV2 srvChallenge (le64 clientChallenge)

/-- A platform whose MD5 is right on the texts that a login with a zero hash, zero challenges and an
empty blob hashes. -/
def Platform.zeroLogin : Platform :=
  let inner := List.replicate 64 (0x36 : UInt8)
  let outer := List.replicate 64 (0x5c : UInt8)
  let digests : List (List UInt8 × Nat) :=
    [(inner ++ le64 0, 0x0b5e02738171775f3e8eec685465dfb8),
      (outer ++ leBytes 16 0x0b5e02738171775f3e8eec685465dfb8, 0x123075d6262b8bc5191a0a63463b8518),
      (inner ++ leBytes 16 0x123075d6262b8bc5191a0a63463b8518, 0x0e4b96b07e7cff94cbeb6b880a5fa0e7),
      (outer ++ leBytes 16 0x0e4b96b07e7cff94cbeb6b880a5fa0e7, 0x9067aab0f8de020f7fe8e1fc7753ab51),
      (inner ++ le64 0 ++ le64 0, 0x33297c88e8a4d4eea0521be9a4baa098),
      (outer ++ leBytes 16 0x33297c88e8a4d4eea0521be9a4baa098, 0xae531750fafed81a099201a0a7edf0d8)]
  { Platform.ascii with md5 := fun msg => leBytes 16 ((digests.lookup msg).getD 0) }

/-- The responses of that login. -/
theorem ntlm2_agrees_zero :
    let P := Platform.zeroLogin
    let hashV2 := List.replicate 16 0
    let response := smbNtlm2Response P hashV2 0 []
    response = leBytes 16 0x123075d6262b8bc5191a0a63463b8518 ∧
      rc4Crypt (rc4Init (hmacMd5 P hashV2 (response.take 16)))
        (smbNtlm2SessionKey P hashV2 response (List.replicate 16 7)) = List.replicate 16 7 := by
  intro P hashV2 response
  have h := ntlm2_agrees P (fun _ => leBytes_length 16 _) hashV2 0 0 [] (List.replicate 16 7)
  exact ⟨by decide +kernel, h.2.2.1⟩

/-! ## The hash of a user -/

/-- The NTLMv2 hash as the protocol defines it. -/
def ntlm2Reference (user password domain : List UInt8) : List UInt8 :=
  hmac P.md5 64 (P.md4 (smbToUtf16 P password))
    (smbToUtf16 P (user.map toupper) ++ smbToUtf16 P domain)

/-- Conversion of ASCII text on a platform that converts ASCII. -/
theorem toUtf16_ascii {P : Platform} (hP : P.iconv .ucs2le .locale = some asciiToUcs2)
    {str : List UInt8} (h : ∀ b ∈ str, b < 128) :
    smbToUtf16 P str = str.flatMap fun b => [b, 0] := by
  by_cases hempty : str = []
  · rw [hempty]
    rfl
  · have hany : ¬ (str.any fun b => 128 ≤ b) = true := by
      intro hmem
      obtain ⟨b, hb, hle⟩ := List.any_eq_true.mp hmem
      have hlt := h b hb
      rw [UInt8.lt_iff_toNat_lt] at hlt
      rw [decide_eq_true_eq, UInt8.le_iff_toNat_le] at hle
      omega
    have hroom : ¬ 4 * str.length < 2 * str.length := by omega
    have hdone : asciiToUcs2 str (4 * str.length) = .done (str.flatMap fun b => [b, 0]) := by
      rw [asciiToUcs2, if_neg hany, if_neg hroom]
    rw [smbToUtf16, smbIconv, if_neg hempty, hP]
    show smbIconvLoop asciiToUcs2 str (4 :: List.range' 5 11) = _
    rw [smbIconvLoop, hdone]

theorem toUtf16_ascii_length {P : Platform} (hP : P.iconv .ucs2le .locale = some asciiToUcs2)
    {str : List UInt8} (h : ∀ b ∈ str, b < 128) : (smbToUtf16 P str).length = 2 * str.length := by
  rw [toUtf16_ascii hP h]
  simp [Nat.mul_comm]

/-- Whatever the text is, its conversion takes two bytes for each of its own at most. -/
theorem toUtf16_ascii_le {P : Platform} (hP : P.iconv .ucs2le .locale = some asciiToUcs2)
    (str : List UInt8) : (smbToUtf16 P str).length ≤ 2 * str.length := by
  by_cases h : ∀ b ∈ str, b < 128
  · rw [toUtf16_ascii_length hP h]
  · have hany : (str.any fun b => 128 ≤ b) = true := by
      simpa [List.any_eq_true] using h
    have hinvalid : asciiToUcs2 str (4 * str.length) = .invalid := by rw [asciiToUcs2, if_pos hany]
    have hempty : str ≠ [] := by
      rintro rfl
      cases hany
    rw [smbToUtf16, smbIconv, if_neg hempty, hP]
    show (smbIconvLoop asciiToUcs2 str (4 :: List.range' 5 11)).length ≤ _
    rw [smbIconvLoop, hinvalid]
    exact Nat.zero_le _

theorem toupper_ascii {b : UInt8} (h : b < 128) : toupper b < 128 := by
  rw [toupper]
  split
  · rename_i hrange
    rw [UInt8.lt_iff_toNat_lt] at h ⊢
    have hsub : (b - 32).toNat = b.toNat - 32 :=
      UInt8.toNat_sub_of_le b 32 (by rw [UInt8.le_iff_toNat_le]; have := hrange.1; simp at this ⊢; omega)
    rw [hsub]
    omega
  · exact h

/-- What the hash is computed from the strings that `smb_session_set_creds` keeps is the hash of the
protocol, whatever the two digests are. -/
def HashAgrees (creds : SmbCreds) : Prop :=
  ∀ P : Platform, (∀ bs, (P.md4 bs).length = 16) → (∀ bs, (P.md5 bs).length = 16) →
    ∀ domain user password, creds = ⟨some domain, some user, some password⟩ →
      smbNtlm2Hash P user password domain = ntlm2Reference P user password domain

/-- The credentials that are kept of three strings. -/
theorem setCreds_creds (s : SmbSession) (domain login password : List UInt8) :
    (smbSessionSetCreds (some domain) (some login) (some password) s).2.creds =
      ⟨some (domain.take smbCredsMaxlen), some (login.take smbCredsMaxlen),
        some (password.take smbCredsMaxlen)⟩ := rfl

/-- The name goes through the buffer unchanged if it fits. -/
theorem ntlm2Hash_short {user : List UInt8} (h : user.length ≤ 63) (password domain : List UInt8)
    (hmd4 : ∀ bs, (P.md4 bs).length = 16) :
    smbNtlm2Hash P user password domain = ntlm2Reference P user password domain := by
  have hkey : (smbNtlmHash P password).length ≤ 64 := by
    rw [smbNtlmHash, hmd4]
    omega
  rw [smbNtlm2Hash, ntlm2Reference, List.take_of_length_le h, hmacMd5_eq_hmac P hkey, smbNtlmHash]

/-- For a name that does not fit there are digests for which the hash is another one. -/
theorem ntlm2Hash_long {user : List UInt8} (hascii : ∀ b ∈ user, b < 128) (h : 63 < user.length)
    (password domain : List UInt8) :
    ∃ P : Platform, (∀ bs, (P.md4 bs).length = 16) ∧ (∀ bs, (P.md5 bs).length = 16) ∧
      smbNtlm2Hash P user password domain ≠ ntlm2Reference P user password domain := by
  obtain ⟨text, htext⟩ : ∃ f : List UInt8 → List UInt8, smbToUtf16 .ascii = f := ⟨_, rfl⟩
  have hupper : ∀ b ∈ user.map toupper, b < 128 := by
    intro b hb
    obtain ⟨c, hc, rfl⟩ := List.mem_map.mp hb
    exact toupper_ascii (hascii c hc)
  have hne : text (user.map toupper) ++ text domain ≠
      text ((user.take 63).map toupper) ++ text domain := by
    intro heq
    have hlen := congrArg List.length (List.append_cancel_right heq)
    have hkept : ∀ b ∈ (user.take 63).map toupper, b < 128 := by
      intro b hb
      rw [List.map_take] at hb
      exact hupper b (List.mem_of_mem_take hb)
    rw [← htext, toUtf16_ascii_length rfl hupper, toUtf16_ascii_length rfl hkept, List.length_map,
      List.length_map, List.length_take] at hlen
    omega
  obtain ⟨digest, hdigest, hsep⟩ := @hmac_separates 64 16 (List.replicate 16 0) _ _ (by omega)
    (by omega) (by simp) hne
  refine ⟨{ Platform.ascii with md5 := digest }, fun _ => List.length_replicate, hdigest, fun heq => ?_⟩
  rw [smbNtlm2Hash, hmacMd5_eq_hmac _ (by show (List.replicate 16 (0 : UInt8)).length ≤ 64; simp)] at heq
  subst htext
  exact hsep heq.symm

/-- The hash of the credentials that are kept is the one of the protocol, for every ASCII user name, if
and only if the name has at most 63 bytes. -/
theorem hashAgrees_iff (s : SmbSession) (domain login password : List UInt8)
    (hascii : ∀ b ∈ login, b < 128) :
    HashAgrees (smbSessionSetCreds (some domain) (some login) (some password) s).2.creds ↔
      login.length ≤ 63 := by
  rw [setCreds_creds]
  constructor
  · intro h
    by_contra hlong
    have hkept : 63 < (login.take smbCredsMaxlen).length := by
      rw [List.length_take, smbCredsMaxlen]
      omega
    obtain ⟨P, hmd4, hmd5, hne⟩ := ntlm2Hash_long (fun b hb => hascii b (List.mem_of_mem_take hb)) hkept
      (password.take smbCredsMaxlen) (domain.take smbCredsMaxlen)
    exact hne (h P hmd4 hmd5 _ _ _ rfl)
  · intro hshort P hmd4 _ domain' user' password' heq
    obtain ⟨hdomain, huser, hpassword⟩ := SmbCreds.mk.inj heq
    rw [← Option.some.inj huser]
    exact ntlm2Hash_short P (by rw [List.length_take]; omega) _ _ hmd4

/-- A user name of four letters. -/
theorem hashAgrees_short :
    HashAgrees (smbSessionSetCreds (some (ascii "D")) (some (ascii "user")) (some (ascii "secret"))
        (smbSessionNew .ascii (.silent [] []))).2.creds ↔ (ascii "user").length ≤ 63 :=
  hashAgrees_iff _ _ _ _ (by decide +kernel)

/-- A user name of 64 letters loses its last one on the way into the hash. -/
theorem hashAgrees_truncates :
    ¬ HashAgrees (smbSessionSetCreds (some (ascii "D")) (some (List.replicate 64 'a'.toUInt8))
      (some (ascii "secret")) (smbSessionNew .ascii (.silent [] []))).2.creds := by
  rw [setCreds_creds]
  intro h
  obtain ⟨P, hmd4, hmd5, hne⟩ := @ntlm2Hash_long (List.replicate 64 'a'.toUInt8) (by decide +kernel)
    (by decide) (ascii "secret") (ascii "D")
  exact hne (h P hmd4 hmd5 _ _ _ (by decide))

end Libdsm
