import Libdsm.Smb.Proofs.AuthToken

/-!
# The first token of an extended login

`smb_ntlmssp_negotiate` puts a host and a domain into its token, with a field of the header for each. It
copies the domain to both places, so that the field of the host leads to the domain, and the copy takes
as many bytes as the domain has where the token has room for the host.
-/

namespace Libdsm

/-! ## The writes -/

/-- What `smb_ntlmssp_negotiate` writes into the memory it allocates, in this order. -/
def negotiateWrites (host domain : List UInt8) : List (Nat × List UInt8) :=
  [(8, le32 0x01), (12, le32 smbNtlmsspFlags), (16, ntlmsspField domain.length 32),
    (24, ntlmsspField host.length (32 + domain.length)), (0, smbNtlmsspId), (32, domain),
    (32 + domain.length, domain)]

def negotiateSize (host domain : List UInt8) : Nat := alignWord (32 + host.length + domain.length)

theorem negotiate_eq (P : Platform) (host domain : List UInt8) :
    smbNtlmsspNegotiate P host domain =
      (P.heap.writes (negotiateWrites host domain)).read 0 (negotiateSize host domain) := rfl

theorem negotiateId_length : smbNtlmsspId.length = 8 := rfl

/-- The fields of the two names. -/
def domainField : Nat := 16
def hostField : Nat := 24

/-- The token leads to both names, which lie inside it and apart from each other, and nothing is written
behind its end. -/
structure NegotiateRoundTrip (host domain token : List UInt8) : Prop where
  domainSlice : bufferSlice token domainField = domain
  hostSlice : bufferSlice token hostField = host
  inside : ∀ field ∈ [domainField, hostField],
    bufferOffset token field + bufferLen token field ≤ token.length
  apart : bufferOffset token domainField + bufferLen token domainField ≤ bufferOffset token hostField
  written : ∀ w ∈ negotiateWrites host domain, w.1 + w.2.length ≤ token.length

/-! ## What the fields lead to -/

section

variable (P : Platform) {host domain : List UInt8}
variable (hhost : host.length ≤ 128) (hdomain : domain.length ≤ 128)

theorem negotiate_length : (smbNtlmsspNegotiate P host domain).length = negotiateSize host domain := by
  rw [negotiate_eq, Mem.read_length]

include hhost hdomain

/-- A field that was written, as it is read from the token. -/
theorem negotiate_field {field len offset : Nat} (hfield : field + 8 ≤ 32) (hlen : len ≤ 128)
    (hoffset : offset ≤ 256)
    (h : (P.heap.writes (negotiateWrites host domain)).read field 8 = ntlmsspField len offset) :
    bufferLen (smbNtlmsspNegotiate P host domain) field = len ∧
      bufferOffset (smbNtlmsspNegotiate P host domain) field = offset := by
  have hsize := (alignWord_le (32 + host.length + domain.length)).1
  obtain ⟨hfirst, hlast⟩ := ntlmsspField_read h
  have hread : ∀ off k, off + k ≤ 32 → ((smbNtlmsspNegotiate P host domain).drop off).take k =
      (P.heap.writes (negotiateWrites host domain)).read off k := by
    intro off k hk
    rw [negotiate_eq, Mem.read_sub _ (by rw [negotiateSize]; omega), Nat.zero_add]
  constructor
  · rw [bufferLen, replyU16, hread field 2 (by omega), hfirst, le16, leNat_leBytes]
    simp
    omega
  · rw [bufferOffset, replyU32, hread (field + 4) 4 (by omega), hlast, le32, leNat_leBytes]
    simp
    omega

theorem negotiate_domain_field :
    bufferLen (smbNtlmsspNegotiate P host domain) domainField = domain.length ∧
      bufferOffset (smbNtlmsspNegotiate P host domain) domainField = 32 := by
  apply negotiate_field P hhost hdomain (by decide) hdomain (by decide)
  have hread := P.heap.read_writes [(8, le32 0x01), (12, le32 smbNtlmsspFlags)]
    [(24, ntlmsspField host.length (32 + domain.length)), (0, smbNtlmsspId), (32, domain),
      (32 + domain.length, domain)] 16 (ntlmsspField domain.length 32)
  rw [ntlmsspField_length] at hread
  apply hread
  simp only [List.forall_mem_cons, ntlmsspField_length, negotiateId_length]
  exact ⟨.inl (by omega), .inr (by omega), .inl (by omega), .inl (by omega), fun _ h => by cases h⟩

theorem negotiate_host_field :
    bufferLen (smbNtlmsspNegotiate P host domain) hostField = host.length ∧
      bufferOffset (smbNtlmsspNegotiate P host domain) hostField = 32 + domain.length := by
  apply negotiate_field P hhost hdomain (by decide) hhost (by omega)
  have hread := P.heap.read_writes [(8, le32 0x01), (12, le32 smbNtlmsspFlags),
    (16, ntlmsspField domain.length 32)] [(0, smbNtlmsspId), (32, domain),
      (32 + domain.length, domain)] 24 (ntlmsspField host.length (32 + domain.length))
  rw [ntlmsspField_length] at hread
  apply hread
  simp only [List.forall_mem_cons, negotiateId_length]
  exact ⟨.inr (by omega), .inl (by omega), .inl (by omega), fun _ h => by cases h⟩

/-- The field of the domain leads to it. -/
theorem negotiate_domain_slice :
    bufferSlice (smbNtlmsspNegotiate P host domain) domainField = domain := by
  obtain ⟨hlen, hoffset⟩ := negotiate_domain_field P hhost hdomain
  have hsize := (alignWord_le (32 + host.length + domain.length)).1
  have hread := P.heap.read_writes [(8, le32 0x01), (12, le32 smbNtlmsspFlags),
    (16, ntlmsspField domain.length 32), (24, ntlmsspField host.length (32 + domain.length)),
    (0, smbNtlmsspId)] [(32 + domain.length, domain)] 32 domain
    (by simp)
  rw [bufferSlice, hlen, hoffset, negotiate_eq, Mem.read_sub _ (by rw [negotiateSize]; omega)]
  exact hread

/-- The field of the host leads to the second copy of the domain, and behind that to what the memory
held. -/
theorem negotiate_host_slice :
    bufferSlice (smbNtlmsspNegotiate P host domain) hostField =
      (P.heap.write (32 + domain.length) domain).read (32 + domain.length) host.length := by
  obtain ⟨hlen, hoffset⟩ := negotiate_host_field P hhost hdomain
  have hsize := (alignWord_le (32 + host.length + domain.length)).1
  rw [bufferSlice, hlen, hoffset, negotiate_eq, Mem.read_sub _ (by rw [negotiateSize]; omega),
    Nat.zero_add]
  apply Mem.read_congr
  intro i hi
  -- the writes before the last one end where it begins
  have hbefore : P.heap.writes (negotiateWrites host domain).dropLast (32 + domain.length + i) =
      P.heap (32 + domain.length + i) := by
    apply Mem.writes_of_ge
    simp only [negotiateWrites, List.dropLast_cons_cons, List.dropLast_singleton,
      List.forall_mem_cons, ntlmsspField_length, negotiateId_length, le32_length]
    exact ⟨by omega, by omega, by omega, by omega, by omega, by omega, fun _ h => by cases h⟩
  rw [Mem.write, ← hbefore]
  rfl

end

/-! ## When the host is read back -/

/-- The second copy ends inside the token if the domain is at most a byte longer than the host, which
the alignment then makes up for. -/
theorem copy_inside_iff (host domain : List UInt8) :
    32 + domain.length + domain.length ≤ negotiateSize host domain ↔
      domain.length ≤ host.length + 1 := by
  rw [negotiateSize, alignWord]
  split <;> omega

/-- A prefix that is at most a byte shorter. -/
theorem startsWith_iff (host domain : List UInt8) :
    host <+: domain ∧ domain.length ≤ host.length + 1 ↔
      host = domain ∨ ∃ c, domain = host ++ [c] := by
  constructor
  · rintro ⟨⟨rest, rfl⟩, hlen⟩
    cases rest with
    | nil => exact .inl (List.append_nil host).symm
    | cons c rest =>
      rw [List.length_append, List.length_cons] at hlen
      have hnil : rest = [] := List.length_eq_zero_iff.mp (by omega)
      exact .inr ⟨c, by rw [hnil]⟩
  · rintro (rfl | ⟨c, rfl⟩)
    · exact ⟨List.prefix_refl _, Nat.le_succ _⟩
    · exact ⟨List.prefix_append _ _, by rw [List.length_append, List.length_singleton]⟩

/-- A platform whose fresh memory holds one byte everywhere. -/
def Platform.filled (b : UInt8) : Platform := { Platform.ascii with heap := fun _ => b }

/-- Where the host is longer than the domain, its field leads to what the memory held. -/
theorem filled_host_slice {host domain : List UInt8} (hlong : domain.length < host.length) (b : UInt8)
    (h : ((Platform.filled b).heap.write (32 + domain.length) domain).read (32 + domain.length)
      host.length = host) :
    host[domain.length]? = some b := by
  rw [← h, Mem.read_getElem? _ _ _ _ hlong, Mem.write_of_ge _ _ (Nat.le_refl _)]
  rfl

theorem host_starts_of_roundTrip {host domain : List UInt8} (hhost : host.length ≤ 128)
    (hdomain : domain.length ≤ 128)
    (h : ∀ P, NegotiateRoundTrip host domain (smbNtlmsspNegotiate P host domain)) :
    host <+: domain := by
  have hslice : ∀ P : Platform, (P.heap.write (32 + domain.length) domain).read (32 + domain.length)
      host.length = host := by
    intro P
    rw [← negotiate_host_slice P hhost hdomain]
    exact (h P).hostSlice
  by_cases hlong : domain.length < host.length
  · -- no host agrees with two memories
    have hzero := filled_host_slice hlong 0 (hslice _)
    have hone := filled_host_slice hlong 1 (hslice _)
    rw [hzero] at hone
    exact absurd (Option.some.inj hone) (by decide)
  · have hcopy := Mem.read_write Platform.ascii.heap (32 + domain.length) domain
    have hpart := Mem.read_part (i := 0) (k := host.length) hcopy (by omega)
    rw [Nat.add_zero, hslice, List.drop_zero] at hpart
    rw [hpart]
    exact List.take_prefix _ _

theorem roundTrip_of_starts {host domain : List UInt8} (hhost : host.length ≤ 128)
    (hdomain : domain.length ≤ 128) (hpre : host <+: domain)
    (hlen : domain.length ≤ host.length + 1) (P : Platform) :
    NegotiateRoundTrip host domain (smbNtlmsspNegotiate P host domain) := by
  obtain ⟨hdomainLen, hdomainOffset⟩ := negotiate_domain_field P hhost hdomain
  obtain ⟨hhostLen, hhostOffset⟩ := negotiate_host_field P hhost hdomain
  have hsize : 32 + host.length + domain.length ≤ negotiateSize host domain := (alignWord_le _).1
  have hcopied := (copy_inside_iff host domain).mpr hlen
  refine ⟨negotiate_domain_slice P hhost hdomain, ?_, ?_, ?_, ?_⟩
  · have hcopy := Mem.read_write P.heap (32 + domain.length) domain
    have hpart := Mem.read_part (i := 0) (k := host.length) hcopy (by have := hpre.length_le; omega)
    rw [Nat.add_zero, List.drop_zero, ← List.prefix_iff_eq_take.mp hpre] at hpart
    rw [negotiate_host_slice P hhost hdomain, hpart]
  · simp only [List.forall_mem_cons]
    rw [hdomainLen, hdomainOffset, hhostLen, hhostOffset, negotiate_length]
    exact ⟨by omega, by omega, fun _ h => by cases h⟩
  · rw [hdomainLen, hdomainOffset, hhostOffset]
  · rw [negotiate_length]
    simp only [negotiateWrites, List.forall_mem_cons, ntlmsspField_length, negotiateId_length,
      le32_length]
    exact ⟨by omega, by omega, by omega, by omega, by omega, by omega, hcopied,
      fun _ h => by cases h⟩

/-- `smb_ntlmssp_negotiate` gives a token that leads to both names, whatever the memory held that it
allocates, exactly if the host is the domain or the domain without its last byte. -/
theorem negotiate_roundTrip_iff (host domain : List UInt8) (hhost : host.length ≤ 128)
    (hdomain : domain.length ≤ 128) :
    (∀ P, NegotiateRoundTrip host domain (smbNtlmsspNegotiate P host domain)) ↔
      host = domain ∨ ∃ c, domain = host ++ [c] := by
  rw [← startsWith_iff]
  constructor
  · intro h
    refine ⟨host_starts_of_roundTrip hhost hdomain h, (copy_inside_iff host domain).mp ?_⟩
    have hwritten := (h .ascii).written (32 + domain.length, domain) (by simp [negotiateWrites])
    rw [negotiate_length] at hwritten
    exact hwritten
  · rintro ⟨hpre, hlen⟩ P
    exact roundTrip_of_starts hhost hdomain hpre hlen P

/-- A host that is the domain. -/
theorem negotiate_roundTrip_same :
    (ascii "WG").length ≤ 128 ∧ NegotiateRoundTrip (ascii "WG") (ascii "WG")
      (smbNtlmsspNegotiate .ascii (ascii "WG") (ascii "WG")) := by
  have hlen : (ascii "WG").length ≤ 128 := by decide
  exact ⟨hlen, (negotiate_roundTrip_iff (ascii "WG") (ascii "WG") hlen hlen).mpr (.inl rfl) .ascii⟩

/-- The host `a` in the domain `b` is read back as `b`. -/
theorem negotiate_host_lost :
    ¬ ∀ (P : Platform) (host domain : List UInt8), host.length ≤ 128 → domain.length ≤ 128 →
      NegotiateRoundTrip host domain (smbNtlmsspNegotiate P host domain) := by
  intro h
  have hslice := (h .ascii (ascii "a") (ascii "b") (by decide) (by decide)).hostSlice
  revert hslice
  decide +kernel

end Libdsm
