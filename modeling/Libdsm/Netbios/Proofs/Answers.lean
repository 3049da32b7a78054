import Libdsm.Netbios.Ns
import Mathlib.Data.List.DropRight

/-!
# Answers of the name service

What a datagram says, read off its own bytes: its transaction id, the type of its record and the
names of an NBSTAT record. `handleQuery_datagram` is the specification of
`netbios_ns_handle_query` in these terms: it accepts exactly the datagrams that are `Accepted`,
whatever older datagrams have left in the buffer behind them, and a datagram it does not accept
leaves the result structure as it was.
-/

namespace Libdsm

/-! ## What a datagram says -/

/-- The big-endian number at `off`. -/
def be16At (d : List UInt8) (off : Nat) : Nat :=
  (d.getD off 0).toNat * 256 + (d.getD (off + 1) 0).toNat

def trnIdOf (d : List UInt8) : Nat := be16At d 0

/-- The type of the record, two bytes in the order of the wire. -/
def recordTypeOf (d : List UInt8) : List UInt8 := (d.drop 46).take 2

/-- The length of the record's data. -/
def dataLengthOf (d : List UInt8) : Nat := be16At d 54

/-- The number of names an NBSTAT record announces. -/
def nameCountOf (d : List UInt8) : Nat := (d.getD 56 0).toNat

/-- The fifteen characters of its `i`-th name. -/
def nameFieldOf (d : List UInt8) (i : Nat) : List UInt8 := (d.drop (57 + i * 18)).take 15

/-- The byte after them, the type of the name. -/
def nameTypeOf (d : List UInt8) (i : Nat) : UInt8 := d.getD (57 + i * 18 + 15) 0

def recordNb : List UInt8 := [0x00, 0x20]
def recordNbstat : List UInt8 := [0x00, 0x21]

/-- One record under a name of the usual form, its data complete. -/
def IsRecord (d : List UInt8) : Prop :=
  d.getD 12 0 = 0x20 ∧ 56 + dataLengthOf d ≤ d.length

/-- An NB record. -/
def IsNb (d : List UInt8) : Prop := IsRecord d ∧ recordTypeOf d = recordNb

/-- An NBSTAT record whose names fit its data. -/
def IsNbstat (d : List UInt8) : Prop :=
  IsRecord d ∧ recordTypeOf d = recordNbstat ∧ 1 ≤ dataLengthOf d ∧
    nameCountOf d * 18 ≤ dataLengthOf d

/-- A datagram that is well formed, and answers query `id` if there is one to answer. -/
def Accepted (id : Option UInt16) (d : List UInt8) : Prop :=
  IsRecord d ∧ (recordTypeOf d = recordNbstat → IsNbstat d) ∧ ∀ i ∈ id, trnIdOf d = i.toNat

/-- `field` is one of the names of an NBSTAT answer. -/
def NbstatField (d field : List UInt8) : Prop :=
  IsNbstat d ∧ ∃ i < nameCountOf d, field = nameFieldOf d i

/-- `field` is one of its names that belongs to a file server. -/
def NbstatName (d field : List UInt8) : Prop :=
  IsNbstat d ∧ ∃ i < nameCountOf d, field = nameFieldOf d i ∧ nameTypeOf d i = netbiosFileserver

instance (d : List UInt8) : Decidable (IsRecord d) :=
  inferInstanceAs (Decidable (_ ∧ _))

instance (d : List UInt8) : Decidable (IsNb d) :=
  inferInstanceAs (Decidable (_ ∧ _))

instance (d : List UInt8) : Decidable (IsNbstat d) :=
  inferInstanceAs (Decidable (_ ∧ _ ∧ _ ∧ _))

instance (id : Option UInt16) (d : List UInt8) : Decidable (Accepted id d) :=
  inferInstanceAs (Decidable (_ ∧ _ ∧ _))

theorem NbstatName.field {d field : List UInt8} (h : NbstatName d field) : NbstatField d field := by
  obtain ⟨hd, i, hi, hfield, -⟩ := h
  exact ⟨hd, i, hi, hfield⟩

/-! ## The datagram in the buffer -/

section Buffer

variable {m : Mem} {d : List UInt8}

theorem buffer_byte {i : Nat} (h : i < d.length) : m.write 0 d i = d.getD i 0 := by
  simp [Mem.write, h]

theorem buffer_ntohs {off : Nat} (h : off + 1 < d.length) :
    (m.write 0 d).ntohs off = be16At d off := by
  rw [Mem.ntohs, be16At, buffer_byte (by omega), buffer_byte h]

/-- The type as the code reads it, a little-endian number. -/
theorem buffer_type (h : 48 ≤ d.length) (x : UInt16) :
    (m.write 0 d).u16 46 = x ↔ recordTypeOf d = le16 x := by
  have hread : (m.write 0 d).read 46 2 = recordTypeOf d := Mem.read_write_part m h
  have hlen : (recordTypeOf d).length = 2 := by rw [← hread, Mem.read_length]
  constructor
  · rintro rfl
    rw [Mem.u16, hread, le16_ofNat_leNat hlen]
  · intro hx
    exact Mem.u16_eq (hread.trans hx)

/-- A name that the search finds, as a field of the datagram. -/
theorem findName_field {p : Nat → Bool} {name : Nat} (hd : IsNbstat d)
    (h : findName p 57 (nameCountOf d) = some name) :
    ∃ i < nameCountOf d, name = 57 + i * 18 ∧ p name ∧
      (m.write 0 d).read name 15 = nameFieldOf d i := by
  obtain ⟨⟨-, hfits⟩, -, -, hcount⟩ := hd
  have hp : p name := List.find?_some h
  have hmem := List.mem_of_find?_eq_some h
  obtain ⟨i, hi, rfl⟩ := List.mem_map.mp hmem
  rw [List.mem_range] at hi
  have hinside : 57 + i * 18 + 15 ≤ d.length := by omega
  exact ⟨i, hi, rfl, hp, Mem.read_write_part m hinside⟩

end Buffer

/-! ## The parser -/

/-- What the result structure says is what the datagram says. -/
def Tells (m : Mem) (sender : UInt32) (d : List UInt8) : NetbiosNsNameQuery → Prop
  | .invalid => ¬ IsNb d
  | .nb ip => IsNb d ∧ ip = sender
  | .nbstat name group _ =>
    NbstatName d (m.read name netbiosNameLength) ∧
      ∀ g ∈ group, NbstatField d (m.read g netbiosNameLength)

/-- The transaction id a datagram has to carry. -/
def NetbiosNs.expects (ns : NetbiosNs) (checkTrnId : Bool) : Option UInt16 :=
  if checkTrnId then some ns.lastTrnId else none

section Parser

variable {ns : NetbiosNs} {m : Mem} {d : List UInt8} {checkTrnId : Bool} {sender : UInt32}
variable {out : NetbiosNsNameQuery}

/-- The parser on a complete record that answers the right query. -/
theorem handleQuery_record (hbuf : ns.buffer = m.write 0 d)
    (hid : ∀ i ∈ ns.expects checkTrnId, trnIdOf d = i.toNat) (hrec : IsRecord d) :
    netbiosNsHandleQuery ns d.length checkTrnId sender out =
      if recordTypeOf d = recordNb then (0, .nb sender)
      else if recordTypeOf d = recordNbstat then
        if dataLengthOf d < 1 then (-1, out)
        else if dataLengthOf d < nameCountOf d * 18 then (-1, out)
        else (0, searchNames ns.buffer 57 (nameCountOf d) out)
      else (0, out) := by
  obtain ⟨hsize, hfits⟩ := hrec
  have htrn : (checkTrnId && ns.buffer.ntohs 0 != ns.lastTrnId.toNat) = false := by
    cases checkTrnId with
    | false => rfl
    | true =>
      have hmatch : trnIdOf d = ns.lastTrnId.toNat := hid _ rfl
      rw [hbuf, buffer_ntohs (by omega)]
      simpa [trnIdOf] using hmatch
  have hname : (ns.buffer queryHeaderSize).toNat = 0x20 := by
    rw [hbuf, queryHeaderSize, buffer_byte (by omega), hsize]
    rfl
  have hlen : ns.buffer.ntohs 54 = dataLengthOf d := by
    rw [hbuf, buffer_ntohs (by omega), dataLengthOf]
  have hnb : ns.buffer.u16 46 = queryTypeNb ↔ recordTypeOf d = recordNb := by
    rw [hbuf]
    exact buffer_type (by omega) queryTypeNb
  have hnbstat : ns.buffer.u16 46 = queryTypeNbstat ↔ recordTypeOf d = recordNbstat := by
    rw [hbuf]
    exact buffer_type (by omega) queryTypeNbstat
  have hcount (h : ¬ dataLengthOf d < 1) : (ns.buffer 56).toNat = nameCountOf d := by
    rw [hbuf, buffer_byte (by omega), nameCountOf]
  rw [netbiosNsHandleQuery, if_neg (by rw [queryHeaderSize]; omega), htrn,
    if_neg Bool.false_ne_true, if_neg (by rw [queryHeaderSize]; omega)]
  simp only [hname]
  rw [if_neg (by simp), if_neg (by rw [queryHeaderSize]; omega)]
  simp only [queryHeaderSize, hlen, hnb, hnbstat]
  rw [if_neg (by omega)]
  split_ifs with h1 h2 h3 h4 h5 <;> simp_all

/-- The result is not a refusal, or it has left the result structure alone. -/
def RefusesCleanly (out : NetbiosNsNameQuery) (r : Int × NetbiosNsNameQuery) : Prop :=
  r.1 = -1 → r = (-1, out)

theorem RefusesCleanly.ite {c : Prop} [Decidable c] {r r' : Int × NetbiosNsNameQuery}
    (h : RefusesCleanly out r) (h' : RefusesCleanly out r') :
    RefusesCleanly out (if c then r else r') := by
  split
  · exact h
  · exact h'

/-- A refusal leaves the result structure as it was. -/
theorem handleQuery_keeps (size : Nat) :
    RefusesCleanly out (netbiosNsHandleQuery ns size checkTrnId sender out) := by
  have hrefused : RefusesCleanly out (-1, out) := fun _ => rfl
  have haccepted (q : NetbiosNsNameQuery) : RefusesCleanly out (0, q) := by
    intro (h : (0 : Int) = -1)
    exact absurd h (by decide)
  have hnbstat (c c' : Prop) [Decidable c] [Decidable c'] (q : NetbiosNsNameQuery) :
      RefusesCleanly out (if c then (-1, out) else if c' then (-1, out) else (0, q)) :=
    hrefused.ite (hrefused.ite (haccepted q))
  exact hrefused.ite <| hrefused.ite <| hrefused.ite <| hrefused.ite <| hrefused.ite <|
    hrefused.ite <| (haccepted _).ite <| (hnbstat _ _ _).ite (haccepted _)

/-- The tests of the header let only complete records through, and of these only answers to the
query. -/
theorem handleQuery_isRecord (hbuf : ns.buffer = m.write 0 d)
    (h : (netbiosNsHandleQuery ns d.length checkTrnId sender out).1 ≠ -1) :
    IsRecord d ∧ ∀ i ∈ ns.expects checkTrnId, trnIdOf d = i.toNat := by
  rw [netbiosNsHandleQuery, queryHeaderSize] at h
  dsimp only at h
  by_cases hheader : d.length < 12
  · rw [if_pos hheader] at h
    exact absurd rfl h
  rw [if_neg hheader] at h
  by_cases htrn : (checkTrnId && ns.buffer.ntohs 0 != ns.lastTrnId.toNat) = true
  · rw [if_pos htrn] at h
    exact absurd rfl h
  rw [if_neg htrn] at h
  by_cases hpayload : d.length < 12 + 1
  · rw [if_pos hpayload] at h
    exact absurd rfl h
  rw [if_neg hpayload] at h
  by_cases hname : (ns.buffer 12).toNat ≠ 0x20
  · rw [if_pos hname] at h
    exact absurd rfl h
  rw [if_neg hname] at h
  rw [not_not] at hname
  by_cases hrecord : d.length < 12 + (ns.buffer 12).toNat + 11
  · rw [if_pos hrecord] at h
    exact absurd rfl h
  rw [if_neg hrecord, hname] at h
  by_cases hdata : d.length < 56 + ns.buffer.ntohs 54
  · rw [if_pos hdata] at h
    exact absurd rfl h
  have hlen : ns.buffer.ntohs 54 = dataLengthOf d := by
    rw [hbuf, buffer_ntohs (by omega), dataLengthOf]
  refine ⟨⟨?_, by omega⟩, ?_⟩
  · rw [hbuf, buffer_byte (by omega)] at hname
    exact UInt8.toNat_inj.mp hname
  · intro i hi
    cases checkTrnId with
    | false => cases hi
    | true =>
      cases hi
      rw [hbuf, buffer_ntohs (by omega)] at htrn
      simpa [trnIdOf] using htrn

/-- A datagram that is not accepted is refused, and leaves the result structure as it was. -/
theorem handleQuery_rejected (hbuf : ns.buffer = m.write 0 d)
    (h : ¬ Accepted (ns.expects checkTrnId) d) :
    netbiosNsHandleQuery ns d.length checkTrnId sender out = (-1, out) := by
  apply handleQuery_keeps
  by_contra hne
  obtain ⟨hrec, hid⟩ := handleQuery_isRecord hbuf hne
  have hbad : ¬ (recordTypeOf d = recordNbstat → IsNbstat d) := fun hok => h ⟨hrec, hok, hid⟩
  obtain ⟨htype, hnot⟩ := Classical.not_imp.mp hbad
  have hother : recordTypeOf d ≠ recordNb := by
    rw [htype]
    decide
  rw [handleQuery_record hbuf hid hrec, if_neg hother, if_pos htype] at hne
  by_cases hempty : dataLengthOf d < 1
  · simp [hempty] at hne
  by_cases hnames : dataLengthOf d < nameCountOf d * 18
  · simp [hempty, hnames] at hne
  exact hnot ⟨hrec, htype, by omega, by omega⟩

/-- A datagram that is accepted leaves in the result structure what it says. -/
theorem handleQuery_accepted (sender : UInt32) (hbuf : ns.buffer = m.write 0 d)
    (h : Accepted (ns.expects checkTrnId) d) :
    (netbiosNsHandleQuery ns d.length checkTrnId sender .invalid).1 = 0 ∧
      Tells ns.buffer sender d
        (netbiosNsHandleQuery ns d.length checkTrnId sender .invalid).2 := by
  obtain ⟨hrec, hok, hid⟩ := h
  rw [handleQuery_record hbuf hid hrec]
  by_cases hnb : recordTypeOf d = recordNb
  · rw [if_pos hnb]
    exact ⟨rfl, ⟨hrec, hnb⟩, rfl⟩
  rw [if_neg hnb]
  have hinvalid : ¬ IsNb d := fun h => hnb h.2
  by_cases htype : recordTypeOf d = recordNbstat
  swap
  · rw [if_neg htype]
    exact ⟨rfl, hinvalid⟩
  obtain ⟨-, -, hdata, hnames⟩ := hok htype
  rw [if_pos htype, if_neg (by omega), if_neg (by omega)]
  refine ⟨rfl, ?_⟩
  rw [searchNames]
  cases hfound : findName (isFileserver ns.buffer) 57 (nameCountOf d) with
  | none => exact hinvalid
  | some name =>
    refine ⟨⟨hok htype, ?_⟩, ?_⟩
    · obtain ⟨i, hi, rfl, hserver, hfield⟩ := findName_field (m := m) (hok htype) hfound
      have hlast : 57 + i * 18 + 15 < d.length := by
        have := hrec.2
        omega
      rw [isFileserver, hbuf, buffer_byte hlast, Bool.and_eq_true, beq_iff_eq] at hserver
      exact ⟨i, hi, by rw [hbuf]; exact hfield, hserver.2⟩
    · intro g hg
      obtain ⟨i, hi, rfl, -, hfield⟩ := findName_field (m := m) (hok htype) hg
      exact ⟨hok htype, i, hi, by rw [hbuf]; exact hfield⟩

end Parser

/-! ## Names in the cache -/

/-- A field without its trailing run of spaces; the first byte stays even if it is one. -/
def withoutSpaces (field : List UInt8) : List UInt8 :=
  field.take 1 ++ (field.drop 1).rdropWhile (· = 0x20)

/-- The field as the cache keeps it: NULs in place of the trailing spaces, and one more after. -/
def trimmedName (field : List UInt8) : List UInt8 :=
  withoutSpaces field ++ List.replicate (field.length - (withoutSpaces field).length) 0 ++ [0]

theorem withoutSpaces_length_le (field : List UInt8) :
    (withoutSpaces field).length ≤ field.length := by
  have h := (List.rdropWhile_prefix (· = (0x20 : UInt8)) (field.drop 1)).length_le
  simp only [withoutSpaces, List.length_append, List.length_take, List.length_drop] at h ⊢
  omega

theorem trimmedName_length (field : List UInt8) :
    (trimmedName field).length = field.length + 1 := by
  have h := withoutSpaces_length_le field
  simp only [trimmedName, List.length_append, List.length_replicate, List.length_singleton]
  omega

/-- The loop of `netbios_ns_copy_name`, at a field that begins the buffer and ends where the loop
starts. -/
theorem trimSpaces_append (i : Nat) (field rest : List UInt8) (h : field.length = i + 1) :
    trimSpaces i (field ++ rest) =
      withoutSpaces field ++ List.replicate (field.length - (withoutSpaces field).length) 0 ++
        rest := by
  induction i generalizing field rest with
  | zero =>
    obtain ⟨a, rfl⟩ := List.length_eq_one_iff.mp h
    simp [trimSpaces, withoutSpaces]
  | succ i ih =>
    -- split off the byte that the loop looks at
    obtain ⟨init, b, rfl⟩ : ∃ init b, field = init ++ [b] := by
      rcases List.eq_nil_or_concat field with rfl | ⟨init, b, rfl⟩
      · simp at h
      · exact ⟨init, b, by simp⟩
    have hinit : init.length = i + 1 := by simpa using h
    have hbyte : (init ++ [b] ++ rest)[i + 1]? = some b := by
      simp [← hinit]
    have hdrop : (init ++ [b]).drop 1 = init.drop 1 ++ [b] := List.drop_append_of_le_length (by omega)
    have htake : (init ++ [b]).take 1 = init.take 1 := List.take_append_of_le_length (by omega)
    rw [trimSpaces, hbyte]
    by_cases hb : b = 0x20
    · have hset : (init ++ [b] ++ rest).set (i + 1) 0 = init ++ ([0] ++ rest) := by
        simp [← hinit]
      have hkept : withoutSpaces (init ++ [b]) = withoutSpaces init := by
        rw [withoutSpaces, hdrop, htake, List.rdropWhile_concat_pos _ _ _ (by simp [hb]),
          withoutSpaces]
      have hle := withoutSpaces_length_le init
      rw [if_pos (by rw [hb]), hset, ih init _ hinit, hkept, List.length_append,
        List.length_singleton, Nat.succ_sub hle, List.replicate_succ']
      simp
    · have hkept : withoutSpaces (init ++ [b]) = init ++ [b] := by
        rw [withoutSpaces, hdrop, htake, List.rdropWhile_concat_neg _ _ _ (by simp [hb]),
          ← List.append_assoc, List.take_append_drop]
      rw [if_neg (by simp [hb]), hkept]
      simp

theorem copyName_eq (m : Mem) (src : Nat) :
    netbiosNsCopyName m src = trimmedName (m.read src netbiosNameLength) :=
  trimSpaces_append _ _ _ (by simp [netbiosNameLength])

/-! ## Answers as a host sends them -/

/-- One answer record under the wildcard name. -/
def answerBytes (trnId : UInt16) (type data : List UInt8) : List UInt8 :=
  htons trnId.toNat ++ [0x85, 0x00, 0, 0, 0, 1, 0, 0, 0, 0] ++ cString nameQueryBroadcast ++ type ++
    le16 queryClassIn ++ [0, 0, 0, 0] ++ htons data.length ++ data

/-- The answer to an NB query: flags and an address. -/
def nbAnswer (trnId : UInt16) : List UInt8 := answerBytes trnId recordNb [0, 0, 10, 0, 0, 1]

/-- The answer to an NBSTAT query of a file server with one name. -/
def nbstatAnswer (trnId : UInt16) (name : List UInt8) : List UInt8 :=
  answerBytes trnId recordNbstat
    ([1] ++ name ++ List.replicate (15 - name.length) 0x20 ++ [netbiosFileserver, 0x04, 0x00])

end Libdsm
