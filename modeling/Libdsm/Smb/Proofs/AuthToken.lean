import Libdsm.Smb.Proofs.Exchange
import Libdsm.Smb.Proofs.Ntlm

/-!
# The token of an extended login

`smb_ntlmssp_response` computes the size of its token from the lengths of the strings before it
converts them, and then appends up to six values behind the header, each with a field of the header
that says where it is. This module reads the token back: every field leads to its value, and the values
lie one behind the other inside the token.
-/

namespace Libdsm

/-! ## Security buffers -/

/-- The length and the offset that the field at `field` of a token holds. -/
def bufferLen (token : List UInt8) (field : Nat) : Nat := (replyU16 token field).toNat
def bufferOffset (token : List UInt8) (field : Nat) : Nat := (replyU32 token (field + 4)).toNat

/-- The bytes of the token that a field describes. -/
def bufferSlice (token : List UInt8) (field : Nat) : List UInt8 :=
  (token.drop (bufferOffset token field)).take (bufferLen token field)

/-- The field describes the value, which lies at `start` behind the header. An empty value may be
anywhere. -/
structure SecurityBuffer (token : List UInt8) (field start : Nat) (value : List UInt8) : Prop where
  len : bufferLen token field = value.length
  offset : value ≠ [] → bufferOffset token field = start
  slice : bufferSlice token field = value
  inside : 64 ≤ start ∧ start + value.length ≤ token.length

/-- The fields describe the values, which lie one behind the other from `start` on. -/
def LaidOut (token : List UInt8) : Nat → List (Nat × List UInt8) → Prop
  | _, [] => True
  | start, (field, value) :: rest =>
    SecurityBuffer token field start value ∧ LaidOut token (start + value.length) rest

/-! ## Appending -/

/-- `__AUTH_APPEND` of a value, if there is one to append. -/
def authStep (st : Mem × Nat) (part : Nat × Option (List UInt8)) : Mem × Nat :=
  match part.2 with
  | none => st
  | some value => authAppend part.1 value st

section

variable {st : Mem × Nat} {field : Nat} {value : List UInt8}

theorem ntlmsspField_length (len offset : Nat) : (ntlmsspField len offset).length = 8 := by
  simp [ntlmsspField]

/-- The header outside the field stays as it is. -/
theorem authAppend_header {off k : Nat} (hoff : off + k ≤ 64) (h : off + k ≤ field ∨ field + 8 ≤ off) :
    (authAppend field value st).1.read off k = st.1.read off k := by
  rw [authAppend, Mem.read_write_disjoint _ _ (by rw [ntlmsspField_length]; omega),
    Mem.read_write_disjoint _ _ (by omega)]

theorem authAppend_field :
    (authAppend field value st).1.read field 8 = ntlmsspField value.length (64 + st.2) := by
  have h := Mem.read_write (st.1.write (64 + st.2) value) field (ntlmsspField value.length (64 + st.2))
  rw [ntlmsspField_length] at h
  exact h

theorem authAppend_data (hfield : field + 8 ≤ 64) :
    (authAppend field value st).1.read 64 (st.2 + value.length) = st.1.read 64 st.2 ++ value := by
  rw [authAppend, Mem.read_write_disjoint _ _ (by rw [ntlmsspField_length]; omega),
    Mem.read_write_end]

end

/-- The value of a part. -/
def partValue (part : Nat × Option (List UInt8)) : List UInt8 := part.2.getD []

theorem authStep_cursor (st : Mem × Nat) (part : Nat × Option (List UInt8)) :
    (authStep st part).2 = st.2 + (partValue part).length := by
  rw [authStep, partValue]
  cases part.2 with
  | none => rfl
  | some value => rfl

theorem authStep_header (st : Mem × Nat) {part : Nat × Option (List UInt8)} {off k : Nat}
    (hoff : off + k ≤ 64) (h : off + k ≤ part.1 ∨ part.1 + 8 ≤ off) :
    (authStep st part).1.read off k = st.1.read off k := by
  rw [authStep]
  cases part.2 with
  | none => rfl
  | some value => exact authAppend_header hoff h

theorem authStep_data (st : Mem × Nat) {part : Nat × Option (List UInt8)} (hpart : part.1 + 8 ≤ 64) :
    (authStep st part).1.read 64 (authStep st part).2 = st.1.read 64 st.2 ++ partValue part := by
  rw [authStep_cursor, authStep, partValue]
  cases part.2 with
  | none => exact (List.append_nil _).symm
  | some value => exact authAppend_data hpart

/-- Fields of the header: inside it, and apart from each other. -/
structure AuthFields (parts : List (Nat × Option (List UInt8))) : Prop where
  inside : ∀ part ∈ parts, part.1 + 8 ≤ 64
  apart : parts.Pairwise fun a b => a.1 + 8 ≤ b.1

/-- What the parts that are appended leave alone of the header. -/
theorem authSteps_header (parts : List (Nat × Option (List UInt8))) {off k : Nat} (hoff : off + k ≤ 64) :
    ∀ st : Mem × Nat, (∀ part ∈ parts, off + k ≤ part.1 ∨ part.1 + 8 ≤ off) →
      (parts.foldl authStep st).1.read off k = st.1.read off k := by
  induction parts with
  | nil =>
    intro st _
    rfl
  | cons part parts ih =>
    intro st hparts
    rw [List.foldl_cons, ih _ fun p hp => hparts p (List.mem_cons_of_mem _ hp)]
    exact authStep_header st hoff (hparts part (by simp))

/-- The values end up one behind the other. -/
theorem authSteps_data (parts : List (Nat × Option (List UInt8))) :
    ∀ st : Mem × Nat, (∀ part ∈ parts, part.1 + 8 ≤ 64) →
      (parts.foldl authStep st).2 = st.2 + (parts.flatMap partValue).length ∧
      (parts.foldl authStep st).1.read 64 (parts.foldl authStep st).2 =
        st.1.read 64 st.2 ++ parts.flatMap partValue := by
  induction parts with
  | nil =>
    intro st _
    exact ⟨rfl, (List.append_nil _).symm⟩
  | cons part parts ih =>
    intro st hparts
    obtain ⟨hcursor, hdata⟩ := ih (authStep st part) fun p hp => hparts p (List.mem_cons_of_mem _ hp)
    rw [List.foldl_cons, List.flatMap_cons]
    refine ⟨?_, ?_⟩
    · rw [hcursor, authStep_cursor, List.length_append, Nat.add_assoc]
    · rw [hdata, authStep_data st (hparts part (by simp)), List.append_assoc]

/-! ## Reading the token -/

section

variable {m : Mem} {size field start : Nat} {value : List UInt8}

/-- A field that was written, or one that is still zero, describes its value. -/
theorem securityBuffer_of_read (hlen : m.read field 2 = le16 (UInt16.ofNat value.length))
    (hoffset : value ≠ [] → m.read (field + 4) 4 = le32 (UInt32.ofNat start))
    (hdata : m.read start value.length = value) (hstart : 64 ≤ start)
    (hinside : start + value.length ≤ size) (hsize : size < 2 ^ 16) (hfield : field + 8 ≤ 64) :
    SecurityBuffer (m.read 0 size) field start value := by
  have hread : ∀ off k, off + k ≤ size → ((m.read 0 size).drop off).take k = m.read off k := by
    intro off k h
    rw [Mem.read_sub m h, Nat.zero_add]
  have hlength : bufferLen (m.read 0 size) field = value.length := by
    rw [bufferLen, replyU16, hread field 2 (by omega), hlen, le16, leNat_leBytes]
    simp
    omega
  have hplace : value ≠ [] → bufferOffset (m.read 0 size) field = start := by
    intro hne
    rw [bufferOffset, replyU32, hread (field + 4) 4 (by omega), hoffset hne, le32, leNat_leBytes]
    simp
    omega
  refine ⟨hlength, hplace, ?_, hstart, by rw [Mem.read_length]; exact hinside⟩
  rw [bufferSlice, hlength]
  by_cases hne : value = []
  · rw [hne, List.length_nil, List.take_zero]
  · rw [hplace hne, hread start _ hinside, hdata]

end

/-- A field that was written, as its three members. -/
theorem ntlmsspField_read {m : Mem} {field len offset : Nat}
    (h : m.read field 8 = ntlmsspField len offset) :
    m.read field 2 = le16 (UInt16.ofNat len) ∧ m.read (field + 4) 4 = le32 (UInt32.ofNat offset) := by
  have hlen := ntlmsspField_length len offset
  rw [← hlen] at h
  have hfirst := Mem.read_part (i := 0) (k := 2) h (by omega)
  have hlast := Mem.read_part (i := 4) (k := 4) h (by omega)
  refine ⟨?_, ?_⟩
  · rw [Nat.add_zero, List.drop_zero, ntlmsspField, List.append_assoc] at hfirst
    rw [hfirst]
    exact List.take_left' (le16_length _)
  · rw [hlast, ntlmsspField, List.drop_left' (by simp)]
    exact List.take_of_length_le (by simp)

/-- The field of a part, which is still zero if nothing is appended. -/
theorem authStep_field (st : Mem × Nat) {part : Nat × Option (List UInt8)}
    (hzero : st.1.read part.1 8 = List.replicate 8 0) :
    ∃ offset, (authStep st part).1.read part.1 8 = ntlmsspField (partValue part).length offset ∧
      (partValue part ≠ [] → offset = 64 + st.2) := by
  rw [authStep, partValue]
  cases part.2 with
  | none => exact ⟨0, hzero.trans (by decide), fun h => absurd rfl h⟩
  | some value => exact ⟨64 + st.2, authAppend_field, fun _ => rfl⟩

/-- What the parts leave in memory: a zeroed header gets a field for each part that is appended. -/
theorem authSteps_laidOut {size : Nat} (hsize : size < 2 ^ 16) :
    ∀ (parts : List (Nat × Option (List UInt8))) (st : Mem × Nat), AuthFields parts →
      (∀ part ∈ parts, st.1.read part.1 8 = List.replicate 8 0) →
      64 + (parts.foldl authStep st).2 ≤ size →
      LaidOut ((parts.foldl authStep st).1.read 0 size) (64 + st.2)
        (parts.map fun part => (part.1, partValue part)) := by
  intro parts
  induction parts with
  | nil =>
    intro st _ _ _
    trivial
  | cons part parts ih =>
    intro st hfields hzero hcursor
    obtain ⟨hlater, hapart⟩ := List.pairwise_cons.mp hfields.apart
    have hinside := hfields.inside part (by simp)
    obtain ⟨hend, hdata⟩ := authSteps_data (part :: parts) st hfields.inside
    rw [List.flatMap_cons, List.length_append] at hend
    rw [hend, List.flatMap_cons, Mem.read_add] at hdata
    have hrest := (List.append_inj hdata (by simp)).2
    rw [Mem.read_add] at hrest
    have hvalue := (List.append_inj hrest (by simp)).1
    have hheader := authSteps_header parts hinside (authStep st part) fun p hp => .inl (hlater p hp)
    rw [List.foldl_cons] at hcursor hend hvalue ⊢
    rw [List.map_cons]
    refine ⟨?_, ?_⟩
    · obtain ⟨offset, hfield, hoffset⟩ := authStep_field st (hzero part (by simp))
      obtain ⟨hlen, hplace⟩ := ntlmsspField_read (hheader.trans hfield)
      refine securityBuffer_of_read hlen (fun hne => ?_) hvalue (by omega) (by omega) hsize hinside
      rw [hplace, hoffset hne]
    · have hih := ih (authStep st part) ⟨fun p hp => hfields.inside p (List.mem_cons_of_mem _ hp), hapart⟩
        (fun p hp => ?_) hcursor
      · rw [authStep_cursor, ← Nat.add_assoc] at hih
        exact hih
      · have hp' := List.mem_cons_of_mem part hp
        rw [authStep_header st (hfields.inside p hp') (.inr (hlater p hp))]
        exact hzero p hp'

/-! ## The order of the values -/

theorem LaidOut.after {token : List UInt8} :
    ∀ {buffers : List (Nat × List UInt8)} {start : Nat}, LaidOut token start buffers →
      ∀ b ∈ buffers, b.2 ≠ [] → start ≤ bufferOffset token b.1 := by
  intro buffers
  induction buffers with
  | nil =>
    intro start _ b hb
    cases hb
  | cons buffer buffers ih =>
    intro start h b hb hne
    rcases List.mem_cons.mp hb with rfl | hb
    · exact Nat.le_of_eq (h.1.offset hne).symm
    · have hlater := ih h.2 b hb hne
      omega

/-- Values laid out one behind the other do not overlap. -/
theorem LaidOut.pairwise {token : List UInt8} :
    ∀ {buffers : List (Nat × List UInt8)} {start : Nat}, LaidOut token start buffers →
      buffers.Pairwise fun a b => a.2 ≠ [] → b.2 ≠ [] →
        bufferOffset token a.1 + bufferLen token a.1 ≤ bufferOffset token b.1 := by
  intro buffers
  induction buffers with
  | nil =>
    intro start _
    exact .nil
  | cons buffer buffers ih =>
    intro start h
    refine .cons (fun b hb hne hne' => ?_) (ih h.2)
    rw [h.1.offset hne, h.1.len]
    exact h.2.after b hb hne'

/-! ## The response -/

section

variable (P : Platform) (nonces : SmbNonces) (srvChallenge srvTs : UInt64)
variable (host domain user password target : List UInt8)

/-- The values of a token by the offsets of their fields, as the protocol has them: the two responses,
unless the user is anonymous, the names and the session key. -/
def authBuffers : List (Nat × List UInt8) :=
  let hashV2 := smbNtlm2Hash P user password domain
  let lm2 := smbLm2Response P hashV2 srvChallenge nonces.lmChallenge
  let ntlm2 := smbNtlm2Response P hashV2 srvChallenge
    (smbNtlmMakeBlob srvTs nonces.userChallenge target)
  let anonymous := domain = [] ∧ user = [] ∧ password = []
  [(12, if anonymous then [] else lm2), (20, if anonymous then [] else ntlm2),
    (28, smbToUtf16 P domain), (36, smbToUtf16 P user), (44, smbToUtf16 P host),
    (52, smbNtlm2SessionKey P hashV2 ntlm2 nonces.xkey)]

/-- What `smb_ntlmssp_response` appends. -/
def authParts : List (Nat × Option (List UInt8)) :=
  let hashV2 := smbNtlm2Hash P user password domain
  let lm2 := smbLm2Response P hashV2 srvChallenge nonces.lmChallenge
  let ntlm2 := smbNtlm2Response P hashV2 srvChallenge
    (smbNtlmMakeBlob srvTs nonces.userChallenge target)
  let creds := domain ≠ [] ∨ user ≠ [] ∨ password ≠ []
  let name (str : List UInt8) := if str = [] then none else some (smbToUtf16 P str)
  [(12, if creds then some lm2 else none), (20, if creds then some ntlm2 else none),
    (28, name domain), (36, name user), (44, name host),
    (52, some (smbNtlm2SessionKey P hashV2 ntlm2 nonces.xkey))]

/-- The size of the token, and the header before anything is appended. -/
def authSize : Nat :=
  alignWord (64 + host.length * 2 + domain.length * 2 + user.length * 2 +
    (smbNtlmMakeBlob srvTs nonces.userChallenge target).length + 16 + 8 + 16 + 16)

def authHeader (size : Nat) : Mem :=
  (((P.heap.write 0 (List.replicate size 0)).write 0 smbNtlmsspId).write 8 (le32 0x03)).write 60
    (le32 smbNtlmsspFlags)

theorem authAppendUtf16_eq (off : Nat) (str : List UInt8) (st : Mem × Nat) :
    authAppendUtf16 P off str st =
      authStep st (off, if str = [] then none else some (smbToUtf16 P str)) := by
  rw [authAppendUtf16]
  by_cases h : str = []
  · rw [if_pos h, if_pos h]
    rfl
  · rw [if_neg h, if_neg h]
    rfl

theorem ntlmsspResponse_eq :
    smbNtlmsspResponse P nonces srvChallenge srvTs host domain user password target =
      ((authParts P nonces srvChallenge srvTs host domain user password target).foldl authStep
        (authHeader P (authSize nonces srvTs host domain user target), 0)).1.read 0
          (authSize nonces srvTs host domain user target) := by
  rw [smbNtlmsspResponse, authParts, authSize, authHeader]
  dsimp only [List.foldl_cons, List.foldl_nil]
  rw [authAppendUtf16_eq, authAppendUtf16_eq, authAppendUtf16_eq]
  by_cases h : domain ≠ [] ∨ user ≠ [] ∨ password ≠ []
  · rw [if_pos h, if_pos h, if_pos h]
    rfl
  · rw [if_neg h, if_neg h, if_neg h]
    rfl

theorem authParts_buffers :
    (authParts P nonces srvChallenge srvTs host domain user password target).map
        (fun part => (part.1, partValue part)) =
      authBuffers P nonces srvChallenge srvTs host domain user password target := by
  have hname : ∀ off str, partValue (off, if str = [] then none else some (smbToUtf16 P str)) =
      smbToUtf16 P str := by
    intro off str
    by_cases h : str = []
    · rw [if_pos h, h]
      rfl
    · rw [if_neg h]
      rfl
  rw [authParts, authBuffers]
  simp only [List.map_cons, List.map_nil, hname]
  by_cases h : domain ≠ [] ∨ user ≠ [] ∨ password ≠ []
  · have hnot : ¬ (domain = [] ∧ user = [] ∧ password = []) := by tauto
    rw [if_pos h, if_pos h, if_neg hnot, if_neg hnot]
    rfl
  · have hanonymous : domain = [] ∧ user = [] ∧ password = [] := by tauto
    rw [if_neg h, if_neg h, if_pos hanonymous, if_pos hanonymous]
    rfl

theorem authParts_fields :
    AuthFields (authParts P nonces srvChallenge srvTs host domain user password target) := by
  constructor
  · simp [authParts]
  · simp [authParts]

theorem authParts_range :
    ∀ part ∈ authParts P nonces srvChallenge srvTs host domain user password target,
      12 ≤ part.1 ∧ part.1 + 8 ≤ 60 := by
  simp [authParts]

theorem authHeader_zero {size field : Nat} (hsize : 64 ≤ size) (hlow : 12 ≤ field) (hhigh : field + 8 ≤ 60) :
    (authHeader P size).read field 8 = List.replicate 8 0 := by
  rw [authHeader, Mem.read_write_disjoint _ _ (.inl hhigh),
    Mem.read_write_disjoint _ _ (.inr (by rw [le32_length]; omega)),
    Mem.read_write_disjoint _ _ (.inr (by show 8 ≤ field; omega)),
    Mem.read_write_part _ (by rw [List.length_replicate]; omega), List.drop_replicate,
    List.take_replicate]
  congr 1
  omega

theorem makeBlob_length (ts userChallenge : UInt64) :
    (smbNtlmMakeBlob ts userChallenge target).length = 28 + target.length := by
  simp [smbNtlmMakeBlob]
  omega

theorem ntlm2Response_length (hmd5 : ∀ bs, (P.md5 bs).length = 16) (hashV2 : List UInt8) (challenge : UInt64)
    (blob : List UInt8) : (smbNtlm2Response P hashV2 challenge blob).length = 16 + blob.length := by
  rw [smbNtlm2Response, List.length_append]
  exact congrArg (· + _) (hmd5 _)

theorem lm2Response_length (hmd5 : ∀ bs, (P.md5 bs).length = 16) (hashV2 : List UInt8)
    (challenge userChallenge : UInt64) :
    (smbLm2Response P hashV2 challenge userChallenge).length = 24 := by
  rw [smbLm2Response, ntlm2Response_length P hmd5, le64_length]

theorem alignWord_le (n : Nat) : n ≤ alignWord n ∧ alignWord n ≤ n + 1 := by
  rw [alignWord]
  split <;> omega

theorem authBuffers_length (hmd5 : ∀ bs, (P.md5 bs).length = 16)
    (hutf : ∀ str, (smbToUtf16 P str).length ≤ 2 * str.length) :
    64 + ((authBuffers P nonces srvChallenge srvTs host domain user password target).flatMap
      Prod.snd).length ≤ authSize nonces srvTs host domain user target := by
  have hlm : ∀ hash, (smbLm2Response P hash srvChallenge nonces.lmChallenge).length = 24 :=
    fun hash => lm2Response_length P hmd5 hash srvChallenge nonces.lmChallenge
  have hntlm : ∀ hash, (smbNtlm2Response P hash srvChallenge
      (smbNtlmMakeBlob srvTs nonces.userChallenge target)).length = 44 + target.length := by
    intro hash
    rw [ntlm2Response_length P hmd5, makeBlob_length]
    omega
  have hkey : ∀ hash ntlm2, (smbNtlm2SessionKey P hash ntlm2 nonces.xkey).length = 16 := by
    intro hash ntlm2
    rw [smbNtlm2SessionKey, rc4Crypt_length]
    simp [SmbNonces.xkey]
  have hunless : ∀ value : List UInt8,
      (if domain = [] ∧ user = [] ∧ password = [] then [] else value).length ≤ value.length := by
    intro value
    split
    · exact Nat.zero_le _
    · exact Nat.le_refl _
  have hdomain := hutf domain
  have huser := hutf user
  have hhost := hutf host
  have hlm' := hunless (smbLm2Response P (smbNtlm2Hash P user password domain) srvChallenge
    nonces.lmChallenge)
  have hntlm' := hunless (smbNtlm2Response P (smbNtlm2Hash P user password domain) srvChallenge
    (smbNtlmMakeBlob srvTs nonces.userChallenge target))
  rw [hlm] at hlm'
  rw [hntlm] at hntlm'
  refine Nat.le_trans ?_ (alignWord_le _).1
  rw [authBuffers, makeBlob_length]
  simp only [List.flatMap_cons, List.flatMap_nil, List.length_append, List.length_nil, hkey]
  omega

/-- The token is a few hundred bytes. -/
theorem authSize_small (hhost : host.length ≤ 128) (hdomain : domain.length ≤ 128)
    (huser : user.length ≤ 128) (htarget : target.length ≤ 512) :
    authSize nonces srvTs host domain user target < 2 ^ 16 := by
  rw [authSize, alignWord, makeBlob_length]
  split <;> omega

/-- The values of a token, each where its field says. -/
theorem response_slices (hmd5 : ∀ bs, (P.md5 bs).length = 16)
    (hutf : ∀ str, (smbToUtf16 P str).length ≤ 2 * str.length) (hhost : host.length ≤ 128)
    (hdomain : domain.length ≤ 128) (huser : user.length ≤ 128) (htarget : target.length ≤ 512) :
    LaidOut (smbNtlmsspResponse P nonces srvChallenge srvTs host domain user password target) 64
      (authBuffers P nonces srvChallenge srvTs host domain user password target) := by
  have hfields := authParts_fields P nonces srvChallenge srvTs host domain user password target
  have hbuffers := authParts_buffers P nonces srvChallenge srvTs host domain user password target
  have hlength := authBuffers_length P nonces srvChallenge srvTs host domain user password target hmd5
    hutf
  have hcursor := (authSteps_data _ (authHeader P (authSize nonces srvTs host domain user target), 0)
    hfields.inside).1
  rw [← hbuffers, List.flatMap_map] at hlength
  rw [ntlmsspResponse_eq, ← hbuffers]
  refine authSteps_laidOut (authSize_small nonces srvTs host domain user target hhost hdomain huser
    htarget) _ (authHeader P _, 0) hfields (fun part hpart => ?_)
    (by rw [hcursor, Nat.zero_add]; exact hlength)
  obtain ⟨hlow, hhigh⟩ := authParts_range P nonces srvChallenge srvTs host domain user password target
    part hpart
  exact authHeader_zero P (by omega) hlow hhigh

end

/-- The token of every login reads back: from 64 on its values lie one behind the other and inside it, in
the order of their fields, and each field leads to its value; an empty string has an empty buffer, and
so have the responses of an anonymous user. -/
theorem ntlmsspResponse_decodes (P : Platform) (nonces : SmbNonces) (srvChallenge srvTs : UInt64)
    (host domain user password target : List UInt8) (hmd5 : ∀ bs, (P.md5 bs).length = 16)
    (hutf : ∀ str, (smbToUtf16 P str).length ≤ 2 * str.length) (hhost : host.length ≤ 128)
    (hdomain : domain.length ≤ 128) (huser : user.length ≤ 128) (htarget : target.length ≤ 512) :
    let token := smbNtlmsspResponse P nonces srvChallenge srvTs host domain user password target
    let buffers := authBuffers P nonces srvChallenge srvTs host domain user password target
    LaidOut token 64 buffers ∧
      (buffers.Pairwise fun a b => a.2 ≠ [] → b.2 ≠ [] →
        bufferOffset token a.1 + bufferLen token a.1 ≤ bufferOffset token b.1) ∧
      (domain = [] → bufferLen token 28 = 0) ∧ (user = [] → bufferLen token 36 = 0) ∧
      (host = [] → bufferLen token 44 = 0) ∧
      (domain = [] → user = [] → password = [] → bufferLen token 12 = 0 ∧ bufferLen token 20 = 0) := by
  intro token buffers
  have hlaid : LaidOut token 64 buffers := response_slices P nonces srvChallenge srvTs host domain user
    password target hmd5 hutf hhost hdomain huser htarget
  obtain ⟨hlm, hntlm, hdom, husr, hhst, -⟩ := id hlaid
  refine ⟨hlaid, hlaid.pairwise, ?_, ?_, ?_, ?_⟩
  · rintro rfl
    exact hdom.len
  · rintro rfl
    exact husr.len
  · rintro rfl
    exact hhst.len
  · rintro rfl rfl rfl
    exact ⟨hlm.len, hntlm.len⟩

/-- The two digests of a keyed one. -/
def hmacDigests (key msg : List UInt8) (inner outer : Nat) : List (List UInt8 × Nat) :=
  let pad (x : UInt8) : List UInt8 := (key ++ List.replicate (64 - key.length) 0).map (x ^^^ ·)
  [(pad 0x36 ++ msg, inner), (pad 0x5c ++ leBytes 16 inner, outer)]

/-- A platform whose digests are right on the texts that a login of the user `u` of the domain `D` with
the password `p` and zero challenges hashes. -/
def Platform.sampleLogin : Platform :=
  let hashV1 := leBytes 16 0xe8983d5192276ba0056066f466c46824
  let hashV2 := leBytes 16 0xc06eead0b44d6b047cb9b165b5c82dc4
  let ntlm2 := 0x4510a42462a5fc2756d0a9fac6444600
  let digests : List (List UInt8 × Nat) :=
    hmacDigests hashV1 ['U'.toUInt8, 0, 'D'.toUInt8, 0] 0x2631900a71769d7884ce5de780abd3f1
      0xc06eead0b44d6b047cb9b165b5c82dc4 ++
    hmacDigests hashV2 (List.replicate 16 0) 0xefb320fa28d063e786b31b31bc070cd4
      0xf01dbd45c6f6cf9da1999416206dcba1 ++
    hmacDigests hashV2 (le64 0 ++ smbNtlmMakeBlob 0 0 []) 0x39b9dde1f4f3c2d2030dd603f7806704 ntlm2 ++
    hmacDigests hashV2 (leBytes 16 ntlm2) 0x155d6b7ecfb99bbb9184a48dd2116d92
      0xbd11da92261d92820c756717ce6cc91f
  { Platform.ascii with
    md4 := fun msg => if msg = ['p'.toUInt8, 0] then hashV1 else List.replicate 16 0
    md5 := fun msg => leBytes 16 ((digests.lookup msg).getD 0) }

/-- The token of that login, without a host name. -/
theorem ntlmsspResponse_decodes_sample :
    let P := Platform.sampleLogin
    let token := smbNtlmsspResponse P {} 0 0 [] (ascii "D") (ascii "u") (ascii "p") []
    LaidOut token 64 (authBuffers P {} 0 0 [] (ascii "D") (ascii "u") (ascii "p") []) ∧
      bufferSlice token 12 = leBytes 16 0xf01dbd45c6f6cf9da1999416206dcba1 ++ le64 0 ∧
      bufferSlice token 20 =
        leBytes 16 0x4510a42462a5fc2756d0a9fac6444600 ++ smbNtlmMakeBlob 0 0 [] ∧
      bufferLen token 44 = 0 := by
  intro P token
  have h := ntlmsspResponse_decodes P {} 0 0 [] (ascii "D") (ascii "u") (ascii "p") []
    (fun _ => leBytes_length 16 _) (toUtf16_ascii_le rfl) (by decide) (by decide) (by decide)
    (by decide)
  refine ⟨h.1, ?_, ?_, h.2.2.2.2.1 rfl⟩
  · rw [h.1.1.slice]
    decide +kernel
  · rw [h.1.2.1.slice]
    decide +kernel

end Libdsm
