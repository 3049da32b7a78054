import Libdsm.Misc.Mem
import Libdsm.Netbios.Session

/-!
# The platform and character conversion (`src/smb_utils.c`)

`Platform` is what the library takes from outside its sources: the C library, libtasn1 and the two
digests. `smb_iconv` calls `iconv` with growing output buffers until the text fits.
-/

namespace Libdsm

/-- The encodings the library converts between; `locale` is `current_encoding()`. -/
inductive Encoding where
  | ucs2le
  | locale
  deriving DecidableEq, Repr

/-- What a call of `iconv` on the whole input comes to: the converted bytes, `E2BIG` for want of
room, or any other failure. -/
inductive IconvResult where
  | done (out : List UInt8)
  | tooBig
  | invalid
  deriving DecidableEq, Repr

structure Platform where
  /-- What fresh memory from `malloc` holds. -/
  heap : Mem
  /-- What uninitialised automatic variables hold. -/
  stack : Mem
  /-- `getpid()`, as far as the header has room for it. -/
  pid : UInt16
  /-- `iconv_open(to, from)`; the converter is given the input and the room for the output. -/
  iconv : Encoding → Encoding → Option (List UInt8 → Nat → IconvResult)
  md4 : List UInt8 → List UInt8
  md5 : List UInt8 → List UInt8
  /-- Whether `asn1_array2tree` accepts the SPNEGO definitions. -/
  asn1Tree : Bool
  /-- The DER encoding of a `negTokenInit` with the given `mechToken`, if there is one. -/
  negTokenInit : List UInt8 → Option (List UInt8)
  /-- The DER encoding of a `negTokenResp` with the given `responseToken`, if there is one. -/
  negTokenResp : List UInt8 → Option (List UInt8)
  /-- `asn1_der_decoding` of a `NegotiationToken` and its `negTokenResp.responseToken`. -/
  responseToken : List UInt8 → Option (List UInt8)

/-- The loop of `smb_iconv` over the factors `muls`. -/
def smbIconvLoop (ic : List UInt8 → Nat → IconvResult) (src : List UInt8) :
    List Nat → List UInt8
  | [] => []
  | mul :: muls =>
    match ic src (mul * src.length) with
    | .done out => out
    | .tooBig => smbIconvLoop ic src muls
    | .invalid => []

/-- `smb_iconv`. The empty list stands for `0` with `*dst` set to `NULL`. -/
def smbIconv (P : Platform) (src : List UInt8) (srcEnc dstEnc : Encoding) : List UInt8 :=
  if src = [] then []
  else
    match P.iconv dstEnc srcEnc with
    | none => []
    | some ic => smbIconvLoop ic src (List.range' 4 12)

/-- `smb_to_utf16`. -/
def smbToUtf16 (P : Platform) (src : List UInt8) : List UInt8 := smbIconv P src .locale .ucs2le

/-- `smb_from_utf16`. -/
def smbFromUtf16 (P : Platform) (src : List UInt8) : List UInt8 := smbIconv P src .ucs2le .locale

/-! ## An ASCII platform -/

/-- `iconv` from ASCII to UCS-2LE. -/
def asciiToUcs2 (src : List UInt8) (room : Nat) : IconvResult :=
  if src.any fun b => 128 ≤ b then .invalid
  else if room < 2 * src.length then .tooBig
  else .done (src.flatMap fun b => [b, 0])

/-- `iconv` from UCS-2LE to ASCII. -/
def ucs2ToAscii (src : List UInt8) (room : Nat) : IconvResult :=
  match chars src with
  | none => .invalid
  | some out => if room < out.length then .tooBig else .done out
where
  /-- The characters, if all of them are ASCII. -/
  chars : List UInt8 → Option (List UInt8)
    | [] => some []
    | lo :: hi :: rest => if hi = 0 ∧ lo < 128 then (lo :: ·) <$> chars rest else none
    | [_] => none

/-- A platform in an ASCII locale on which fresh memory is zero. Its digests are zero as well, and
the tokens of SPNEGO stand for themselves. -/
def Platform.ascii : Platform where
  heap := fun _ => 0
  stack := fun _ => 0
  pid := 1
  iconv
    | .ucs2le, .locale => some asciiToUcs2
    | .locale, .ucs2le => some ucs2ToAscii
    | _, _ => none
  md4 := fun _ => List.replicate 16 0
  md5 := fun _ => List.replicate 16 0
  asn1Tree := true
  negTokenInit := some
  negTokenResp := some
  responseToken := some

end Libdsm
