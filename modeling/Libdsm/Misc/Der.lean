import Mathlib.Data.Nat.Digits.Lemmas

/-!
# Distinguished encodings of ASN.1

A value is encoded as a tag, the number of its content octets and the content. The number is one octet
below 128; from there on it is as many octets as the number needs, with one before them that says how
many these are. The lemmas give the size of an encoding: two octets more than its content has, then
three, then four, as the content grows. `derContent` reads the content back.
-/

namespace Libdsm

/-- A number in base 256, the most significant digit first. -/
def derOctets (n : Nat) : List UInt8 := (Nat.digits 256 n).reverse.map UInt8.ofNat

/-- The length octets. -/
def derLength (n : Nat) : List UInt8 :=
  if n < 128 then [UInt8.ofNat n] else UInt8.ofNat (128 + (derOctets n).length) :: derOctets n

/-- A tag, the length and the content. -/
def derTlv (tag : UInt8) (content : List UInt8) : List UInt8 :=
  tag :: derLength content.length ++ content

/-- A component of an object identifier in base 128, a bit set in every octet but the last. -/
def derArc (n : Nat) : List UInt8 :=
  ((Nat.digits 128 (n / 128)).reverse.map fun d => UInt8.ofNat (128 + d)) ++ [UInt8.ofNat (n % 128)]

/-- An object identifier, whose first two components share an octet. -/
def derOid : List Nat → List UInt8
  | first :: second :: arcs => derTlv 0x06 (((40 * first + second) :: arcs).flatMap derArc)
  | _ => []

def derSequence (content : List UInt8) : List UInt8 := derTlv 0x30 content
def derOctetString (content : List UInt8) : List UInt8 := derTlv 0x04 content

/-- An explicit tag of the context. -/
def derExplicit (n : Nat) (content : List UInt8) : List UInt8 := derTlv (UInt8.ofNat (0xa0 + n)) content

/-- An implicit tag of the application on a sequence. -/
def derApplication (n : Nat) (content : List UInt8) : List UInt8 := derTlv (UInt8.ofNat (0x60 + n)) content

/-! ## Sizes -/

theorem derOctets_length (n : Nat) : (derOctets n).length = (Nat.digits 256 n).length := by
  rw [derOctets, List.length_map, List.length_reverse]

theorem derLength_short {n : Nat} (h : n < 128) : (derLength n).length = 1 := by
  rw [derLength, if_pos h, List.length_singleton]

theorem derLength_pos (n : Nat) : 1 ≤ (derLength n).length := by
  rw [derLength]
  split
  · exact Nat.le_refl 1
  · rw [List.length_cons]
    exact Nat.le_add_left 1 _

/-- Two octets are enough for a number below 65536. -/
theorem derLength_le {n : Nat} (h : n < 65536) : (derLength n).length ≤ 3 := by
  have hdigits : (Nat.digits 256 n).length ≤ 2 := (Nat.digits_length_le_iff (by decide) n).mpr h
  rw [derLength]
  split
  · rw [List.length_singleton]
    omega
  · rw [List.length_cons, derOctets_length]
    omega

/-- One octet is not enough from 256 on. -/
theorem derLength_ge {n : Nat} (h : 256 ≤ n) : 3 ≤ (derLength n).length := by
  have hdigits : 1 < (Nat.digits 256 n).length := (Nat.lt_digits_length_iff (by decide) n).mpr h
  rw [derLength, if_neg (by omega), List.length_cons, derOctets_length]
  omega

section

variable (tag : UInt8) {content : List UInt8}

theorem derTlv_length :
    (derTlv tag content).length = 1 + (derLength content.length).length + content.length := by
  rw [derTlv, List.length_append, List.length_cons]
  omega

theorem derTlv_short (h : content.length < 128) : (derTlv tag content).length = content.length + 2 := by
  rw [derTlv_length, derLength_short h]
  omega

/-- Two octets more than the content, exactly so for a short one. -/
theorem derTlv_small : content.length + 2 ≤ (derTlv tag content).length ∧
    (content.length < 128 → (derTlv tag content).length = content.length + 2) := by
  have hpos := derLength_pos content.length
  refine ⟨?_, derTlv_short tag⟩
  rw [derTlv_length]
  omega

/-- Four octets more at most, and at least so from 256 on. -/
theorem derTlv_large :
    (content.length < 65536 → (derTlv tag content).length ≤ content.length + 4) ∧
      (256 ≤ content.length → content.length + 4 ≤ (derTlv tag content).length) := by
  rw [derTlv_length]
  constructor
  · intro h
    have hle := derLength_le h
    omega
  · intro h
    have hge := derLength_ge h
    omega

end

/-! ## Decoding -/

/-- The number that octets stand for. -/
def derNumber (octets : List UInt8) : Nat := Nat.ofDigits 256 (octets.reverse.map UInt8.toNat)

/-- The content of a value with this tag, if the value is whole. -/
def derContent (tag : UInt8) : List UInt8 → Option (List UInt8)
  | t :: n :: bs =>
    let k := if n < 128 then 0 else n.toNat - 128
    let len := if n < 128 then n.toNat else derNumber (bs.take k)
    if t = tag ∧ k + len ≤ bs.length then some ((bs.drop k).take len) else none
  | _ => none

theorem derNumber_octets (n : Nat) : derNumber (derOctets n) = n := by
  have hsmall : ((Nat.digits 256 n).map UInt8.ofNat).map UInt8.toNat = Nat.digits 256 n := by
    rw [List.map_map]
    conv_rhs => rw [← List.map_id (Nat.digits 256 n)]
    apply List.map_congr_left
    intro d hd
    exact UInt8.toNat_ofNat_of_lt' (Nat.digits_lt_base (by decide) hd)
  rw [derNumber, derOctets, ← List.map_reverse, List.reverse_reverse, hsmall, Nat.ofDigits_digits]

/-- What was encoded is decoded. -/
theorem derContent_derTlv (tag : UInt8) {content : List UInt8} (h : content.length < 256 ^ 127) :
    derContent tag (derTlv tag content) = some content := by
  rw [derTlv, derLength]
  by_cases hshort : content.length < 128
  · have hn : (UInt8.ofNat content.length).toNat = content.length :=
      UInt8.toNat_ofNat_of_lt' (by show _ < 256; omega)
    have hlt : UInt8.ofNat content.length < 128 := by
      rw [UInt8.lt_iff_toNat_lt, hn]
      exact hshort
    rw [if_pos hshort, List.cons_append, List.singleton_append, derContent]
    simp [hlt, hn]
  · have hoctets : (derOctets content.length).length ≤ 127 := by
      rw [derOctets_length]
      exact (Nat.digits_length_le_iff (by decide) _).mpr h
    have hn : (UInt8.ofNat (128 + (derOctets content.length).length)).toNat =
        128 + (derOctets content.length).length := UInt8.toNat_ofNat_of_lt' (by show _ < 256; omega)
    have hge : ¬ UInt8.ofNat (128 + (derOctets content.length).length) < 128 := by
      rw [UInt8.lt_iff_toNat_lt, hn]
      show ¬ 128 + _ < 128
      omega
    rw [if_neg hshort, List.cons_append, List.cons_append, derContent]
    simp only [hge, if_false, hn, Nat.add_sub_cancel_left, List.take_left, List.drop_left,
      derNumber_octets, List.length_append, Nat.le_refl, and_self, if_true, List.take_length]

end Libdsm
