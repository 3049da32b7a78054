import Libdsm.Netbios.Ns

/-!
# The NetBIOS name codec

The first-level encoding writes each character as two letters, and only the first fifteen
characters of a name are written, in upper case and filled up with spaces: that is the name's
normal form. The decoder gives the normal form back for every byte value, so two names have one
encoding only when they have one normal form, and a name query always has the same size.
-/

namespace Libdsm

/-- What is left of a name in its encoding: fifteen characters, in upper case, with spaces after
the end of a shorter name. -/
def normalName (name : List UInt8) : List UInt8 :=
  (name.take netbiosNameLength).map toupper ++
    List.replicate (netbiosNameLength - name.length) ' '.toUInt8

@[simp] theorem normalName_length (name : List UInt8) :
    (normalName name).length = netbiosNameLength := by
  simp only [normalName, List.length_append, List.length_map, List.length_take,
    List.length_replicate]
  omega

/-! ## One character -/

theorem charValue_bounds (c : UInt8) : -128 ≤ charValue c ∧ charValue c < 128 := by
  have hlow := @Int.le_bmod (c.toNat : Int) 256 (by decide)
  have hhigh := @Int.bmod_lt (c.toNat : Int) 256 (by decide)
  unfold charValue
  constructor <;> omega

/-- A number is cut to a `char` by taking its low eight bits. -/
theorem toNat_ofInt8 (x : Int) : ((UInt8.ofInt x).toNat : Int) = x % 256 := by
  have hlow := Int.emod_nonneg x (show (256 : Int) ≠ 0 by decide)
  have hhigh := Int.emod_lt_of_pos x (show (0 : Int) < 256 by decide)
  have h : (UInt8.ofInt x).toNat = (x % 256).toNat % 256 := UInt8.toNat_ofNat'
  omega

theorem charValue_ofInt {x : Int} (hlow : -128 ≤ x) (hhigh : x < 128) :
    charValue (UInt8.ofInt x) = x := by
  have hcut : charValue (UInt8.ofInt x) = (x % 256).bmod 256 :=
    congrArg (fun n : Int => n.bmod 256) (toNat_ofInt8 x)
  have hmod : (x % 256).bmod 256 = x.bmod 256 := Int.emod_bmod x 256
  rw [hcut, hmod]
  apply Int.bmod_eq_of_le
  · omega
  · omega

theorem ofInt_charValue (c : UInt8) : UInt8.ofInt (charValue c) = c := by
  have hc := c.toNat_lt
  have hmod : charValue c % 256 = (c.toNat : Int) % 256 := Int.bmod_emod (x := c.toNat) (m := 256)
  have hnat := toNat_ofInt8 (charValue c)
  apply UInt8.toNat_inj.mp
  omega

theorem toupper_toupper (c : UInt8) : toupper (toupper c) = toupper c := by
  have hc := c.toNat_lt
  by_cases h : 'a'.toNat ≤ c.toNat ∧ c.toNat ≤ 'z'.toNat
  · have hup : toupper c = c - 32 := if_pos h
    have hnat : (c - 32).toNat = c.toNat - 32 := by
      rw [UInt8.toNat_sub_of_le]
      · rfl
      · exact UInt8.le_iff_toNat_le.mpr (le_trans (by decide) h.1)
    rw [hup, toupper, if_neg]
    rw [hnat]
    have ha : 'a'.toNat = 97 := rfl
    have hz : 'z'.toNat = 122 := rfl
    omega
  · have hsame : toupper c = c := if_neg h
    rw [hsame, hsame]

/-- The first letter is from `'A' - 8` to `'A' + 7`, the sign of the character being kept. -/
theorem nibbleEncode_values (c : UInt8) :
    charValue (nibbleEncode c).1 = charValue (toupper c) / 16 + 65 ∧
      charValue (nibbleEncode c).2 = charValue (toupper c) % 16 + 65 := by
  have hc := charValue_bounds (toupper c)
  have hA : ('A'.toNat : Int) = 65 := rfl
  constructor
  · exact charValue_ofInt (by omega) (by omega)
  · exact charValue_ofInt (by omega) (by omega)

theorem nibbleEncode_toupper (c : UInt8) : nibbleEncode (toupper c) = nibbleEncode c := by
  simp only [nibbleEncode, toupper_toupper]

theorem nibbleEncode_ne_zero (c : UInt8) : (nibbleEncode c).1 ≠ 0 ∧ (nibbleEncode c).2 ≠ 0 := by
  have hc := charValue_bounds (toupper c)
  have hvalues := nibbleEncode_values c
  have hzero : charValue 0 = 0 := by decide +kernel
  constructor
  · intro h
    rw [h, hzero] at hvalues
    omega
  · intro h
    rw [h, hzero] at hvalues
    omega

/-- The decoder undoes both halves, for every byte. -/
theorem nibbleDecode_nibbleEncode (c : UInt8) :
    nibbleDecode (nibbleEncode c).1 (nibbleEncode c).2 = toupper c := by
  obtain ⟨hhigh, hlow⟩ := nibbleEncode_values c
  have hA : ('A'.toNat : Int) = 65 := rfl
  have hsum : (charValue (toupper c) / 16 + 65 - 65) * 16 + (charValue (toupper c) % 16 + 65 - 65) =
      charValue (toupper c) := by
    omega
  rw [nibbleDecode, hhigh, hlow, hA, hsum, ofInt_charValue]

/-! ## A whole name -/

/-- The two letters of a character. -/
def letters (c : UInt8) : List UInt8 := [(nibbleEncode c).1, (nibbleEncode c).2]

theorem letters_toupper (c : UInt8) : letters (toupper c) = letters c := by
  rw [letters, letters, nibbleEncode_toupper]

theorem letters_space : letters ' '.toUInt8 = ['C'.toUInt8, 'A'.toUInt8] := by
  decide +kernel

theorem flatMap_letters_length (chars : List UInt8) :
    (chars.flatMap letters).length = 2 * chars.length := by
  induction chars with
  | nil => rfl
  | cons c chars ih =>
    rw [List.flatMap_cons, List.length_append, ih, List.length_cons]
    simp only [letters, List.length_cons, List.length_nil]
    omega

theorem flatMap_letters_ne_zero (chars : List UInt8) : ∀ b ∈ chars.flatMap letters, b ≠ 0 := by
  intro b hb
  obtain ⟨c, -, hc⟩ := List.mem_flatMap.mp hb
  have hne := nibbleEncode_ne_zero c
  simp only [letters, List.mem_cons, List.not_mem_nil, or_false] at hc
  rcases hc with rfl | rfl
  · exact hne.1
  · exact hne.2

/-- The encoded name is that of the normal form: a space is written as the padding is. -/
theorem netbiosNameLevel1Encode_eq (name : List UInt8) (type : UInt8) :
    netbiosNameLevel1Encode name type =
      (normalName name).flatMap letters ++ letters type ++ [0] := by
  have hchars : ((name.take netbiosNameLength).map toupper).flatMap letters =
      (name.take netbiosNameLength).flatMap letters := by
    rw [List.flatMap_map]
    simp only [letters_toupper]
  have hspaces : ∀ n : Nat, (List.replicate n ' '.toUInt8).flatMap letters =
      (List.replicate n ()).flatMap fun _ => ['C'.toUInt8, 'A'.toUInt8] := by
    intro n
    induction n with
    | zero => rfl
    | succ n ih =>
      rw [List.replicate_succ, List.replicate_succ, List.flatMap_cons, List.flatMap_cons, ih,
        letters_space]
  rw [normalName, List.flatMap_append, hchars, hspaces]
  rfl

/-- The letters of the character at `i` stand at `2 * i`. -/
theorem letters_getD (chars rest : List UInt8) (i : Nat) (h : i < chars.length) :
    (chars.flatMap letters ++ rest).getD (2 * i) 0 = (nibbleEncode (chars[i])).1 ∧
      (chars.flatMap letters ++ rest).getD (2 * i + 1) 0 = (nibbleEncode (chars[i])).2 := by
  induction chars generalizing i with
  | nil => simp at h
  | cons c chars ih =>
    have hcons : (c :: chars).flatMap letters ++ rest =
        (nibbleEncode c).1 :: (nibbleEncode c).2 :: (chars.flatMap letters ++ rest) := rfl
    rw [hcons]
    cases i with
    | zero => exact ⟨rfl, rfl⟩
    | succ i => exact ih i (by simpa using h)

theorem netbiosNameLevel1Decode_letters (chars rest : List UInt8)
    (h : chars.length = netbiosNameLength) :
    netbiosNameLevel1Decode (chars.flatMap letters ++ rest) = chars.map toupper ++ [0] := by
  have hchars : (List.range netbiosNameLength).map (fun i =>
      nibbleDecode ((chars.flatMap letters ++ rest).getD (2 * i) 0)
        ((chars.flatMap letters ++ rest).getD (2 * i + 1) 0)) = chars.map toupper := by
    apply List.ext_getElem
    · simp [h]
    · intro i hi hi'
      obtain ⟨hfirst, hsecond⟩ := letters_getD chars rest i (by simpa using hi')
      simp only [List.getElem_map, List.getElem_range, hfirst, hsecond,
        nibbleDecode_nibbleEncode]
  rw [netbiosNameLevel1Decode, hchars]

theorem normalName_toupper (name : List UInt8) :
    (normalName name).map toupper = normalName name := by
  have hspace : toupper ' '.toUInt8 = ' '.toUInt8 := by decide
  simp [normalName, toupper_toupper, hspace, Function.comp_def]

/-- The thirty-two bytes between the length and the terminator. -/
def encodedBody (name : List UInt8) (type : UInt8) : List UInt8 :=
  (normalName name).flatMap letters ++ letters type

theorem encodedBody_length (name : List UInt8) (type : UInt8) :
    (encodedBody name type).length = 32 := by
  rw [encodedBody, List.length_append, flatMap_letters_length, normalName_length]
  rfl

theorem encodedBody_ne_zero (name : List UInt8) (type : UInt8) :
    ∀ b ∈ encodedBody name type, b ≠ 0 := by
  have hbody : encodedBody name type = (normalName name ++ [type]).flatMap letters := by
    simp [encodedBody]
  rw [hbody]
  exact flatMap_letters_ne_zero _

theorem netbiosNameEncode_eq (name : List UInt8) (type : UInt8) :
    netbiosNameEncode name type = 32 :: (encodedBody name type ++ [0]) := by
  rw [netbiosNameEncode, netbiosNameLevel1Encode_eq, encodedBody]

theorem netbiosNameLevel1Decode_body (name : List UInt8) (type : UInt8) :
    netbiosNameLevel1Decode (encodedBody name type) = normalName name ++ [0] := by
  rw [encodedBody, netbiosNameLevel1Decode_letters _ _ (normalName_length name),
    normalName_toupper]

/-- Names of one normal form are the only ones that share an encoding. -/
theorem netbiosNameEncode_inj (name name' : List UInt8) (type : UInt8) :
    netbiosNameEncode name type = netbiosNameEncode name' type ↔
      normalName name = normalName name' := by
  rw [netbiosNameEncode_eq, netbiosNameEncode_eq]
  constructor
  · intro h
    have hbody : encodedBody name type = encodedBody name' type :=
      List.append_cancel_right (List.cons.inj h).2
    have hdecode := netbiosNameLevel1Decode_body name type
    rw [hbody, netbiosNameLevel1Decode_body] at hdecode
    exact (List.append_cancel_right hdecode).symm
  · intro h
    rw [encodedBody, encodedBody, h]

/-! ## The query for a name -/

/-- Appends one after the other, with what each returned. -/
def netbiosQueryAppends : NetbiosQuery → List (List UInt8) → List Int × NetbiosQuery
  | q, [] => ([], q)
  | q, data :: rest =>
    let r := netbiosQueryAppend q data
    let rs := netbiosQueryAppends r.2 rest
    (r.1 :: rs.1, rs.2)

/-- Data that fit in the room left are all taken. -/
theorem netbiosQueryAppends_fit (q : NetbiosQuery) (pieces : List (List UInt8))
    (h : q.payload.length + pieces.flatten.length ≤ q.payloadSize) :
    netbiosQueryAppends q pieces =
      (pieces.map fun _ => 0, { q with payload := q.payload ++ pieces.flatten }) := by
  induction pieces generalizing q with
  | nil => simp [netbiosQueryAppends]
  | cons data rest ih =>
    rw [List.flatten_cons, List.length_append] at h
    have hone : netbiosQueryAppend q data = (0, { q with payload := q.payload ++ data }) := by
      rw [netbiosQueryAppend, if_neg (by omega)]
    have hrest := ih { q with payload := q.payload ++ data } (by
      simp only [List.length_append]
      omega)
    rw [netbiosQueryAppends, hone, hrest]
    simp

/-- The new query of `netbios_ns_send_name_query`, before anything is appended. -/
def nameQueryStart (queryFlag : UInt16) : NetbiosQuery :=
  let q := netbiosQueryNew (34 + 4) true netbiosOpNameQuery
  if queryFlag ≠ 0 then netbiosQuerySetFlag q queryFlag true else q

theorem nameQueryStart_payload (queryFlag : UInt16) :
    (nameQueryStart queryFlag).payload = [] ∧ (nameQueryStart queryFlag).payloadSize = 38 := by
  unfold nameQueryStart
  split
  · exact ⟨rfl, rfl⟩
  · exact ⟨rfl, rfl⟩

theorem nameQueryPacket_eq (ns : NetbiosNs) (queryType : NameQueryType) (name : List UInt8)
    (queryFlag : UInt16) :
    nameQueryPacket ns queryType name queryFlag =
      { (netbiosQueryAppends (nameQueryStart queryFlag)
          [cString name, le16 queryType.queryType, le16 queryClassIn]).2 with
        queries := 1, trnId := UInt16.ofNat (ns.lastTrnId.toNat + 1) } := by
  simp only [nameQueryPacket, nameQueryStart, netbiosQueryAppends]

/-- An encoded name is a C string of thirty-four bytes: `strlen` finds its last one. -/
theorem cString_netbiosNameEncode (name : List UInt8) (type : UInt8) :
    cString (netbiosNameEncode name type) = netbiosNameEncode name type := by
  have hne : ∀ b ∈ (32 :: encodedBody name type), decide (b ≠ 0) = true := by
    intro b hb
    rcases List.mem_cons.mp hb with rfl | hb
    · decide
    · exact decide_eq_true (encodedBody_ne_zero name type b hb)
  rw [netbiosNameEncode_eq, ← List.cons_append, cString,
    List.takeWhile_append_of_pos hne, List.takeWhile_cons_of_neg (by decide), List.append_nil]

theorem netbiosNameEncode_length (name : List UInt8) (type : UInt8) :
    (netbiosNameEncode name type).length = 34 := by
  rw [netbiosNameEncode_eq, List.length_cons, List.length_append, encodedBody_length]
  rfl

theorem NetbiosQuery.bytes_length (q : NetbiosQuery) :
    q.bytes.length = queryHeaderSize + q.payload.length := by
  simp [NetbiosQuery.bytes, htons, queryHeaderSize]
  omega

/-- Every name is encoded in thirty-four bytes, from which its normal form and no more can be had
back, and they always fill the room a name query has for them. -/
theorem netbiosName_codec (name : List UInt8) (type : UInt32) :
    (∃ body, netbiosNameEncode name type.toUInt8 = 0x20 :: (body ++ [0]) ∧ body.length = 32 ∧
      (∀ b ∈ body, b ≠ 0) ∧ netbiosNameLevel1Decode body = normalName name ++ [0]) ∧
    (∀ name', netbiosNameEncode name type.toUInt8 = netbiosNameEncode name' type.toUInt8 ↔
      normalName name = normalName name') ∧
    ∀ (ns : NetbiosNs) (queryType : NameQueryType) (queryFlag : UInt16), ∃ q,
      netbiosQueryAppends (nameQueryStart queryFlag)
          [cString (netbiosNameEncode name type.toUInt8), le16 queryType.queryType,
            le16 queryClassIn] = ([0, 0, 0], q) ∧
        nameQueryPacket ns queryType (netbiosNameEncode name type.toUInt8) queryFlag =
          { q with queries := 1, trnId := UInt16.ofNat (ns.lastTrnId.toNat + 1) } ∧
        (nameQueryPacket ns queryType (netbiosNameEncode name type.toUInt8)
          queryFlag).bytes.length = 50 := by
  generalize type.toUInt8 = type
  refine ⟨⟨encodedBody name type, netbiosNameEncode_eq name type, encodedBody_length name type,
    encodedBody_ne_zero name type, netbiosNameLevel1Decode_body name type⟩,
    fun name' => netbiosNameEncode_inj name name' type, ?_⟩
  intro ns queryType queryFlag
  obtain ⟨hpayload, hroom⟩ := nameQueryStart_payload queryFlag
  have hlength : [cString (netbiosNameEncode name type), le16 queryType.queryType,
      le16 queryClassIn].flatten.length = 38 := by
    simp [cString_netbiosNameEncode, netbiosNameEncode_length]
  have hfit := netbiosQueryAppends_fit (nameQueryStart queryFlag)
    [cString (netbiosNameEncode name type), le16 queryType.queryType, le16 queryClassIn] (by
      rw [hpayload, hroom, hlength]
      decide)
  have hpacket := nameQueryPacket_eq ns queryType (netbiosNameEncode name type) queryFlag
  rw [hfit] at hpacket
  refine ⟨_, hfit, hpacket, ?_⟩
  rw [NetbiosQuery.bytes_length, hpacket, List.length_append, hpayload, hlength]
  rfl

end Libdsm
