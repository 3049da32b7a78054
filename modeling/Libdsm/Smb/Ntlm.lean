import Libdsm.Smb.Types

/-!
# NTLM authentication (`src/smb_ntlm.c`, `src/hmac_md5.c`, `contrib/rc4/rc4.c`)

The digests MD4 and MD5 are the platform's. Random numbers are passed in: `SmbNonces` are the ones
one login draws, in the order it draws them.
-/

namespace Libdsm

/-! ## Keyed digests and RC4 -/

/-- `HMAC_MD5`, which truncates a key of more than 64 bytes. -/
def hmacMd5 (P : Platform) (key msg : List UInt8) : List UInt8 :=
  let key := key.take 64
  let keyPad := key ++ List.replicate (64 - key.length) 0
  let oKeyPad := keyPad.map (0x5c ^^^ ·)
  let iKeyPad := keyPad.map (0x36 ^^^ ·)
  P.md5 (oKeyPad ++ P.md5 (iKeyPad ++ msg))

/-- `struct rc4_state`. -/
structure Rc4State where
  perm : UInt8 → UInt8
  index1 : UInt8
  index2 : UInt8

/-- `swap_bytes` on two places of the permutation. -/
def rc4Swap (perm : UInt8 → UInt8) (i j : UInt8) : UInt8 → UInt8 :=
  fun k => if k = i then perm j else if k = j then perm i else perm k

/-- `rc4_init`. -/
def rc4Init (key : List UInt8) : Rc4State :=
  let step (st : (UInt8 → UInt8) × UInt8) (i : Nat) : (UInt8 → UInt8) × UInt8 :=
    let j := st.2 + st.1 (UInt8.ofNat i) + key.getD (i % key.length) 0
    (rc4Swap st.1 (UInt8.ofNat i) j, j)
  { perm := ((List.range 256).foldl step (id, 0)).1, index1 := 0, index2 := 0 }

/-- `rc4_crypt`. -/
def rc4Crypt : Rc4State → List UInt8 → List UInt8
  | _, [] => []
  | st, b :: bs =>
    let index1 := st.index1 + 1
    let index2 := st.index2 + st.perm index1
    let perm := rc4Swap st.perm index1 index2
    (b ^^^ perm (perm index1 + perm index2)) :: rc4Crypt { perm, index1, index2 } bs

/-! ## Hashes and responses -/

/-- The random numbers of one login. -/
structure SmbNonces where
  userChallenge : UInt64 := 0
  xkey0 : UInt64 := 0
  xkey1 : UInt64 := 0
  lmChallenge : UInt64 := 0

/-- `smb_ntlm_generate_xkey`. -/
def SmbNonces.xkey (n : SmbNonces) : List UInt8 := le64 n.xkey0 ++ le64 n.xkey1

/-- `smb_ntlm_hash`. -/
def smbNtlmHash (P : Platform) (password : List UInt8) : List UInt8 :=
  P.md4 (smbToUtf16 P password)

/-- `smb_ntlm2_hash`. The user name is upper-cased in a buffer of 64 bytes. -/
def smbNtlm2Hash (P : Platform) (user password dest : List UInt8) : List UInt8 :=
  let userUpper := (user.take 63).map toupper
  hmacMd5 P (smbNtlmHash P password) (smbToUtf16 P userUpper ++ smbToUtf16 P dest)

/-- `smb_ntlm2_response`. -/
def smbNtlm2Response (P : Platform) (hashV2 : List UInt8) (srvChallenge : UInt64)
    (blob : List UInt8) : List UInt8 :=
  hmacMd5 P hashV2 (le64 srvChallenge ++ blob) ++ blob

/-- `smb_lm2_response`. -/
def smbLm2Response (P : Platform) (hashV2 : List UInt8) (srvChallenge userChallenge : UInt64) :
    List UInt8 :=
  smbNtlm2Response P hashV2 srvChallenge (le64 userChallenge)

/-- `smb_ntlm_make_blob`. -/
def smbNtlmMakeBlob (ts userChallenge : UInt64) (target : List UInt8) : List UInt8 :=
  le32 0x101 ++ le32 0 ++ le64 ts ++ le64 userChallenge ++ le32 0 ++ target

/-- `smb_ntlm2_session_key`. -/
def smbNtlm2SessionKey (P : Platform) (hashV2 ntlm2 xkey : List UInt8) : List UInt8 :=
  rc4Crypt (rc4Init (hmacMd5 P hashV2 (ntlm2.take 16))) xkey

/-! ## NTLMSSP tokens -/

/-- `nego->flags` and `auth->flags`. -/
def smbNtlmsspFlags : UInt32 := 0x60088215

def smbNtlmsspId : List UInt8 := cString (ascii "NTLMSSP")

/-- `token->size` rounded up to a word. -/
def alignWord (size : Nat) : Nat := if size % 2 ≠ 0 then size + 1 else size

/-- An `_NTLMSSP_FIELD`: length, maximal length and offset. -/
def ntlmsspField (len offset : Nat) : List UInt8 :=
  le16 (UInt16.ofNat len) ++ le16 (UInt16.ofNat len) ++ le32 (UInt32.ofNat offset)

/-- `smb_ntlmssp_negotiate`. Both names copied into the token are the domain. -/
def smbNtlmsspNegotiate (P : Platform) (host domain : List UInt8) : List UInt8 :=
  let size := alignWord (32 + host.length + domain.length)
  let nego := P.heap.write 8 (le32 0x01)
  let nego := nego.write 12 (le32 smbNtlmsspFlags)
  let nego := nego.write 16 (ntlmsspField domain.length 32)
  let nego := nego.write 24 (ntlmsspField host.length (32 + domain.length))
  let nego := nego.write 0 smbNtlmsspId
  let nego := nego.write 32 domain
  let nego := nego.write (32 + domain.length) domain
  nego.read 0 size

/-- `__AUTH_APPEND`: the value at the cursor, and the field at `off` that describes it. -/
def authAppend (off : Nat) (value : List UInt8) (st : Mem × Nat) : Mem × Nat :=
  let auth := st.1.write (64 + st.2) value
  (auth.write off (ntlmsspField value.length (64 + st.2)), st.2 + value.length)

/-- `__AUTH_APPEND` of a string's conversion, unless the string is empty. -/
def authAppendUtf16 (P : Platform) (off : Nat) (str : List UInt8) (st : Mem × Nat) : Mem × Nat :=
  if str = [] then st else authAppend off (smbToUtf16 P str) st

/-- `smb_ntlmssp_response`. -/
def smbNtlmsspResponse (P : Platform) (nonces : SmbNonces) (srvChallenge srvTs : UInt64)
    (host domain user password target : List UInt8) : List UInt8 :=
  let hashV2 := smbNtlm2Hash P user password domain
  let blob := smbNtlmMakeBlob srvTs nonces.userChallenge target
  let lm2 := smbLm2Response P hashV2 srvChallenge nonces.lmChallenge
  let ntlm2 := smbNtlm2Response P hashV2 srvChallenge blob
  let xkeyCrypt := smbNtlm2SessionKey P hashV2 ntlm2 nonces.xkey
  let size := alignWord (64 + host.length * 2 + domain.length * 2 + user.length * 2 +
    blob.length + 16 + 8 + 16 + 16)
  let auth := P.heap.write 0 (List.replicate size 0)
  let auth := auth.write 0 smbNtlmsspId
  let auth := auth.write 8 (le32 0x03)
  let auth := auth.write 60 (le32 smbNtlmsspFlags)
  let st : Mem × Nat := (auth, 0)
  let st :=
    if domain ≠ [] ∨ user ≠ [] ∨ password ≠ [] then
      authAppend 20 ntlm2 (authAppend 12 lm2 st)
    else st
  let st := authAppendUtf16 P 28 domain st
  let st := authAppendUtf16 P 36 user st
  let st := authAppendUtf16 P 44 host st
  let st := authAppend 52 xkeyCrypt st
  st.1.read 0 size

end Libdsm
