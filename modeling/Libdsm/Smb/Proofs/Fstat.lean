import Libdsm.Smb.Proofs.Listing
import Mathlib.Data.List.TakeDrop

/-!
# The name that `smb_fstat` reports

`smb_fstat` converts the name of its reply into a buffer and ends the string in it at half the length
the name had before the conversion. The name it reports is the whole converted one only where the
conversion gives one byte for each character, or comes out even with what the buffer happened to hold;
and a name that does not convert has no buffer to store the end into.
-/

namespace Libdsm

/-- The string at the start of a buffer. -/
def cStringOf (bytes : List UInt8) : List UInt8 := bytes.takeWhile (· ≠ 0)

/-- What a string becomes when it is cut at `n` bytes, or runs on into what lies behind it. -/
theorem cStringOf_cut_iff (heap : Mem) (name : List UInt8) (n : Nat) :
    cStringOf ((heap.write 0 name).read 0 n) = cStringOf name ↔
      (cStringOf name).length ≤ n ∧
        ((cStringOf name).length = name.length → name.length < n → heap name.length = 0) := by
  by_cases hlong : n ≤ name.length
  · -- the buffer is cut inside the name
    have hread : (heap.write 0 name).read 0 n = name.take n := by
      have hwhole := Mem.read_write heap 0 name
      have hpart := Mem.read_part (i := 0) (k := n) hwhole (by omega)
      rw [Nat.add_zero, List.drop_zero] at hpart
      exact hpart
    have htake : cStringOf (name.take n) = (cStringOf name).take n := List.take_takeWhile.symm
    rw [hread, htake, List.take_eq_self_iff]
    constructor
    · exact fun h => ⟨h, fun _ hlt => absurd hlt (Nat.not_lt.mpr hlong)⟩
    · exact fun h => h.1
  · -- behind the name is what was there before
    have hlt : name.length < n := Nat.lt_of_not_le hlong
    obtain ⟨k, rfl⟩ := Nat.exists_eq_add_of_lt hlt
    have hread : (heap.write 0 name).read 0 (name.length + k + 1) =
        name ++ heap name.length :: heap.read (name.length + 1) k := by
      rw [Nat.add_assoc, Mem.read_add, Mem.read_write, Nat.zero_add,
        Mem.read_write_disjoint _ _ (.inr (by omega)), Mem.read_succ]
    have hle : (cStringOf name).length ≤ name.length := (List.takeWhile_sublist _).length_le
    have hsplit : ∀ rest, cStringOf (name ++ rest) =
        if (cStringOf name).length = name.length then name ++ cStringOf rest else cStringOf name :=
      fun rest => List.takeWhile_append
    rw [hread, hsplit]
    by_cases hfull : (cStringOf name).length = name.length
    · have hself : cStringOf name = name := (List.takeWhile_sublist _).eq_of_length hfull
      rw [if_pos hfull, hself]
      constructor
      · intro h
        refine ⟨by omega, fun _ _ => ?_⟩
        by_contra hne
        rw [cStringOf, List.takeWhile_cons_of_pos (by simpa using hne)] at h
        simp at h
      · rintro ⟨-, hzero⟩
        rw [cStringOf, List.takeWhile_cons_of_neg (by simpa using hzero rfl (by omega)),
          List.append_nil]
    · rw [if_neg hfull]
      exact ⟨fun _ => ⟨by omega, fun h => absurd h hfull⟩, fun _ => rfl⟩

/-! ## The reply -/

/-- Where the `smb_tr2_path_info` of a reply begins: behind the TRANS2 header and four bytes. -/
def fstatAt : Nat := smbHeaderSize + 28

/-- The length and the conversion of the name in a reply. -/
def fstatNameLen (reply : List UInt8) : Nat := (replyU32 reply (fstatAt + 68)).toNat

def fstatName (P : Platform) (reply : List UInt8) : List UInt8 :=
  smbFromUtf16 P ((reply.drop (fstatAt + 72)).take (fstatNameLen reply))

/-- The structure and the name lie inside the reply. -/
def FstatFits (reply : List UInt8) : Prop := fstatAt + 72 + fstatNameLen reply ≤ reply.length

instance (reply : List UInt8) : Decidable (FstatFits reply) := Nat.decLe _ _

/-- The file shows the times, the sizes, the attributes and the kind that stand in the reply, each at its
place in the structure. -/
structure FstatFields (reply : List UInt8) (file : SmbFile) : Prop where
  created : file.created = replyU64 reply fstatAt
  accessed : file.accessed = replyU64 reply (fstatAt + 8)
  written : file.written = replyU64 reply (fstatAt + 16)
  changed : file.changed = replyU64 reply (fstatAt + 24)
  attr : file.attr = replyU32 reply (fstatAt + 32)
  allocSize : file.allocSize = replyU64 reply (fstatAt + 40)
  size : file.size = replyU64 reply (fstatAt + 48)
  isDir : file.isDir = (reply.getD (fstatAt + 61) 0).toUInt32

/-- What `smb_fstat` should return for a reply: nothing, or the file whose fields stand in the reply, with
the name a search would show. -/
def FstatFaithful (P : Platform) (reply : List UInt8) (result : Option SmbFile) : Prop :=
  result = none ∨ ∃ file, result = some file ∧ FstatFits reply ∧ FstatFields reply file ∧
    file.name = some (cStringOf (fstatName P reply))

/-- The reply is too short for a file; or its name converts to a string of at most half the bytes, and
if that fills the conversion and is shorter, the fresh memory behind it is zero. -/
def FstatClear (P : Platform) (reply : List UInt8) : Prop :=
  FstatFits reply →
    fstatName P reply ≠ [] ∧
      (cStringOf (fstatName P reply)).length ≤ fstatNameLen reply / 2 ∧
      ((cStringOf (fstatName P reply)).length = (fstatName P reply).length →
        (fstatName P reply).length < fstatNameLen reply / 2 →
          P.heap (fstatName P reply).length = 0)

/-! ## What `smb_fstat` reads of it -/

/-- The structure, as the code lays it over the message. -/
def fstatInfo (msg : SmbMessage) : Mem := msg.payload.shift smbFstatInfo

section

variable {msg : SmbMessage} {reply : List UInt8} (h : msg.Holds reply)

include h

/-- It is read where it stands in the reply. -/
theorem fstatInfo_read {off k : Nat} (hoff : 28 + off + k ≤ msg.payloadSize) :
    (fstatInfo msg).read off k = (reply.drop (fstatAt + off)).take k := by
  rw [fstatInfo, Mem.read_shift, smbFstatInfo, SmbTrans2Resp.size, h.payload_read_eq (by omega), fstatAt,
    Nat.add_assoc smbHeaderSize]

theorem fstatInfo_u32 {off : Nat} (hoff : 28 + off + 4 ≤ msg.payloadSize) :
    (fstatInfo msg).u32 off = replyU32 reply (fstatAt + off) := by
  rw [Mem.u32, fstatInfo_read h hoff, replyU32]

theorem fstatInfo_u64 {off : Nat} (hoff : 28 + off + 8 ≤ msg.payloadSize) :
    (fstatInfo msg).u64 off = replyU64 reply (fstatAt + off) := by
  rw [Mem.u64, fstatInfo_read h hoff, replyU64]

/-- The check of the code, which reads the length of the name before it knows whether that is inside. -/
theorem fstatFits_iff : FstatFits reply ↔
    smbFstatInfo + SmbTr2PathInfo.size + (SmbTr2PathInfo.nameLen (fstatInfo msg)).toNat ≤
      msg.payloadSize := by
  have hlength := h.length
  rw [FstatFits, fstatNameLen, fstatAt, smbFstatInfo, SmbTrans2Resp.size, SmbTr2PathInfo.size,
    SmbTr2PathInfo.nameLen]
  by_cases hlong : 100 ≤ msg.payloadSize
  · rw [fstatInfo_u32 h (by omega), fstatAt]
    omega
  · omega

variable (hfits : FstatFits reply)

include hfits

theorem fstat_long : 100 + fstatNameLen reply ≤ msg.payloadSize := by
  have hlength := h.length
  rw [FstatFits, fstatAt] at hfits
  omega

theorem fstatFile_nameLen : (SmbTr2PathInfo.nameLen (fstatInfo msg)).toNat = fstatNameLen reply := by
  have hlong := fstat_long h hfits
  rw [SmbTr2PathInfo.nameLen, fstatInfo_u32 h (by omega), fstatNameLen]

theorem fstatFile_fields (P : Platform) : FstatFields reply (smbFstatFile P (fstatInfo msg)) := by
  have hlong := fstat_long h hfits
  constructor
  · exact fstatInfo_u64 h (by omega)
  · exact fstatInfo_u64 h (by omega)
  · exact fstatInfo_u64 h (by omega)
  · exact fstatInfo_u64 h (by omega)
  · exact fstatInfo_u32 h (by omega)
  · exact fstatInfo_u64 h (by omega)
  · exact fstatInfo_u64 h (by omega)
  · show (msg.payload (28 + 61)).toUInt32 = _
    rw [h.payload_eq (by omega), fstatAt]

/-- The name of the file `smb_fstat` makes. -/
theorem fstatFile_name (P : Platform) :
    (smbFstatFile P (fstatInfo msg)).name =
      if fstatName P reply = [] then none
      else some (cStringOf ((P.heap.write 0 (fstatName P reply)).read 0 (fstatNameLen reply / 2))) := by
  have hlong := fstat_long h hfits
  have hname : smbFromUtf16 P ((fstatInfo msg).read SmbTr2PathInfo.size (fstatNameLen reply)) =
      fstatName P reply := by
    rw [SmbTr2PathInfo.size, fstatInfo_read h (by omega), fstatName]
  have hcut : ((P.heap.write 0 (fstatName P reply)).write (fstatNameLen reply / 2) [0]).read 0
      (fstatNameLen reply / 2) =
        (P.heap.write 0 (fstatName P reply)).read 0 (fstatNameLen reply / 2) :=
    Mem.read_write_disjoint _ _ (.inl (by omega))
  rw [← hcut, smbFstatFile, fstatFile_nameLen h hfits, hname]
  rfl

theorem fstatFile_faithful_iff (P : Platform) :
    FstatFaithful P reply (some (smbFstatFile P (fstatInfo msg))) ↔ FstatClear P reply := by
  have hname := fstatFile_name h hfits P
  constructor
  · rintro (hnone | ⟨file, hsome, -, -, hfile⟩)
    · cases hnone
    · intro _
      rw [← Option.some.inj hsome, hname] at hfile
      by_cases hconv : fstatName P reply = []
      · rw [if_pos hconv] at hfile
        cases hfile
      · rw [if_neg hconv, Option.some.injEq, cStringOf_cut_iff] at hfile
        exact ⟨hconv, hfile⟩
  · intro hclear
    obtain ⟨hconv, hcut⟩ := hclear hfits
    refine .inr ⟨_, rfl, hfits, fstatFile_fields h hfits P, ?_⟩
    rw [hname, if_neg hconv, (cStringOf_cut_iff _ _ _).mpr hcut]

end

/-- `smb_fstat` on a reply with status success. -/
theorem fstat_reply (P : Platform) {tid : UInt16} {path : List UInt8} {s s' s'' : SmbSession}
    {msg : SmbMessage} (hpath : smbToUtf16 P (path ++ [0]) ≠ [])
    (hsend : smbSessionSendMsg (smbFstatReq P tid (smbToUtf16 P (path ++ [0]))) s = (true, s'))
    (hrecv : smbSessionRecvMsg s' = (some msg, s''))
    (hstatus : msg.status = ntStatusSuccess) {reply : List UInt8} (h : msg.Holds reply) :
    (smbFstat P tid path s).1 =
      if FstatFits reply then some (smbFstatFile P (fstatInfo msg)) else none := by
  have hcheck : smbSessionCheckNtStatus msg s'' = (true, s'') := by
    rw [smbSessionCheckNtStatus, if_neg (not_not_intro hstatus)]
    rfl
  have hiff := fstatFits_iff h
  rw [smbFstat, if_neg hpath, bind_run hsend]
  show ((smbSessionRecvMsg >>= _) s').1 = _
  rw [bind_run hrecv]
  show ((smbSessionCheckNtStatus msg >>= _) s'').1 = _
  rw [bind_run hcheck]
  show ((if msg.payloadSize < SmbTr2PathInfo.size then pure none
    else if msg.payloadSize < smbFstatInfo + SmbTr2PathInfo.size +
      (SmbTr2PathInfo.nameLen (fstatInfo msg)).toNat then pure none
    else pure (some (smbFstatFile P (fstatInfo msg))) : SmbM (Option SmbFile)) s'').1 = _
  by_cases hfits : FstatFits reply
  · have hinside := hiff.mp hfits
    have hshort : ¬ msg.payloadSize < SmbTr2PathInfo.size := by omega
    rw [if_pos hfits, if_neg hshort, if_neg (Nat.not_lt.mpr hinside)]
    rfl
  · rw [if_neg hfits, if_pos (Nat.lt_of_not_le fun hle => hfits (hiff.mpr hle))]
    split <;> rfl

/-- For a reply with status success `smb_fstat` returns nothing, or the file whose fields stand in the
reply, with the complete name, if and only if the reply is too short or the converted name ends where the
code ends it. -/
theorem fstat_faithful_iff (P : Platform) (tid : UInt16) (path : List UInt8)
    (s s' s'' : SmbSession) (msg : SmbMessage) (hpath : smbToUtf16 P (path ++ [0]) ≠ [])
    (hsend : smbSessionSendMsg (smbFstatReq P tid (smbToUtf16 P (path ++ [0]))) s = (true, s'))
    (hrecv : smbSessionRecvMsg s' = (some msg, s''))
    (hstatus : msg.status = ntStatusSuccess) :
    FstatFaithful P s''.lastReply (smbFstat P tid path s).1 ↔ FstatClear P s''.lastReply := by
  have hholds : msg.Holds s''.lastReply := by
    have hlast := @recvMsg_lastReply s' msg (by rw [hrecv])
    rwa [hrecv] at hlast
  rw [fstat_reply P hpath hsend hrecv hstatus hholds]
  by_cases hfits : FstatFits s''.lastReply
  · rw [if_pos hfits]
    exact fstatFile_faithful_iff hholds hfits P
  · rw [if_neg hfits]
    exact ⟨fun _ h => absurd h hfits, fun _ => .inl rfl⟩

/-! ## Two replies -/

/-- A reply with this name, everything else zero. -/
def fstatReply (name : List UInt8) : List UInt8 :=
  replyBytes 0 0 0 (List.replicate 96 0 ++ le32 (UInt32.ofNat name.length) ++ name)

/-- A session whose server answers with this reply, and what it gets. -/
def fstatSession (name : List UInt8) : SmbSession := servedBy [[fstatReply name]]

def fstatSent (name : List UInt8) : Bool × SmbSession :=
  smbSessionSendMsg (smbFstatReq .ascii 1 (smbToUtf16 .ascii (ascii "f" ++ [0]))) (fstatSession name)

def fstatReceived (name : List UInt8) : Option SmbMessage × SmbSession :=
  smbSessionRecvMsg (fstatSent name).2

theorem fstat_faithful_iff_ascii :
    (fstatReceived [102, 0]).2.lastReply = fstatReply [102, 0] ∧
      FstatFaithful .ascii (fstatReceived [102, 0]).2.lastReply
        (smbFstat .ascii 1 (ascii "f") (fstatSession [102, 0])).1 := by
  have hsent : (fstatSent [102, 0]).1 = true := by decide +kernel
  have hsome : (fstatReceived [102, 0]).1.isSome = true := by decide +kernel
  have hstatus : (fstatReceived [102, 0]).1.map SmbMessage.status = some ntStatusSuccess := by
    decide +kernel
  have hlast : (fstatReceived [102, 0]).2.lastReply = fstatReply [102, 0] := by decide +kernel
  have hclear : FstatClear .ascii (fstatReply [102, 0]) := by
    have hname : fstatName .ascii (fstatReply [102, 0]) = [102] := by decide +kernel
    have hlength : fstatNameLen (fstatReply [102, 0]) = 2 := by decide +kernel
    intro _
    rw [hname, hlength]
    exact ⟨by decide, by decide, fun _ h => absurd h (by decide)⟩
  obtain ⟨msg, hmsg⟩ := Option.isSome_iff_exists.mp hsome
  rw [hmsg, Option.map_some, Option.some.injEq] at hstatus
  refine ⟨hlast, ?_⟩
  refine (fstat_faithful_iff .ascii 1 (ascii "f") _ _ _ msg (by decide +kernel) (run_eq hsent)
    (run_eq hmsg) hstatus).mpr ?_
  exact hlast.symm ▸ hclear

/-- For a reply with an empty name there is no buffer, and the end of the string is stored through a
`NULL` pointer. -/
theorem fstat_stores_null :
    (fstatReceived []).2.lastReply = fstatReply [] ∧
      (fstatReceived []).1.map SmbMessage.status = some ntStatusSuccess ∧
      ¬ FstatFaithful .ascii (fstatReceived []).2.lastReply
        (smbFstat .ascii 1 (ascii "f") (fstatSession [])).1 := by
  have hresult : (smbFstat .ascii 1 (ascii "f") (fstatSession [])).1.map SmbFile.name =
      some none := by decide +kernel
  refine ⟨by decide +kernel, by decide +kernel, ?_⟩
  rintro (hnone | ⟨file, hfile, -, -, hname⟩)
  · rw [hnone] at hresult
    cases hresult
  · rw [hfile, Option.map_some, hname] at hresult
    cases hresult

end Libdsm
