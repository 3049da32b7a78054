import Mathlib.Data.List.Basic

/-!
# NetBIOS names (`src/netbios_utils.c`)

First-level encoding of a NetBIOS name: each of the sixteen characters becomes two letters from
`'A'` on, one for each half of its code.
-/

namespace Libdsm

/-- `NETBIOS_NAME_LENGTH`. -/
def netbiosNameLength : Nat := 15

/-- The value of a plain `char`, which is signed. -/
def charValue (c : UInt8) : Int := (c.toNat : Int).bmod 256

/-- `toupper` of a `char`: only the ASCII letters change. -/
def toupper (c : UInt8) : UInt8 :=
  if 'a'.toNat ≤ c.toNat ∧ c.toNat ≤ 'z'.toNat then c - 32 else c

/-- `nibble_encode`, as the high and the low byte of the `short` it returns. The shift of a
negative `char` rounds down. -/
def nibbleEncode (c : UInt8) : UInt8 × UInt8 :=
  (UInt8.ofInt (charValue (toupper c) / 16 + 'A'.toNat),
    UInt8.ofInt (charValue (toupper c) % 16 + 'A'.toNat))

/-- `netbios_name_level1_encode`: fifteen characters of the name, spaces after its end, then the
type, and a final NUL. -/
def netbiosNameLevel1Encode (name : List UInt8) (type : UInt8) : List UInt8 :=
  let pair (p : UInt8 × UInt8) : List UInt8 := [p.1, p.2]
  let chars := (name.take netbiosNameLength).flatMap fun c => pair (nibbleEncode c)
  let spaces := (List.replicate (netbiosNameLength - name.length) ()).flatMap fun _ =>
    ['C'.toUInt8, 'A'.toUInt8]
  chars ++ spaces ++ pair (nibbleEncode type) ++ [0]

/-- `nibble_decode`. The shift of a negative difference multiplies it as that of another. -/
def nibbleDecode (c1 c2 : UInt8) : UInt8 :=
  UInt8.ofInt ((charValue c1 - 'A'.toNat) * 16 + (charValue c2 - 'A'.toNat))

/-- `netbios_name_level1_decode`: fifteen characters and a final NUL. The encoded name is one of
thirty-two bytes at least. -/
def netbiosNameLevel1Decode (encodedName : List UInt8) : List UInt8 :=
  (List.range netbiosNameLength).map (fun i =>
    nibbleDecode (encodedName.getD (2 * i) 0) (encodedName.getD (2 * i + 1) 0)) ++ [0]

/-- `netbios_name_encode`: the length byte, the encoded name and its terminator. -/
def netbiosNameEncode (name : List UInt8) (type : UInt8) : List UInt8 :=
  32 :: netbiosNameLevel1Encode name type

/-- The bytes of a string literal. -/
def ascii (s : String) : List UInt8 := s.toList.map Char.toUInt8

/-- The bytes of a C string up to and with its terminator, as `strlen(s) + 1` counts them. -/
def cString (bs : List UInt8) : List UInt8 := bs.takeWhile (· ≠ 0) ++ [0]

end Libdsm
