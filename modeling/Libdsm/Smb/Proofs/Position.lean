import Libdsm.Smb.Proofs.Request
import Libdsm.Smb.Proofs.Transfer
import Mathlib.Logic.Function.Basic

/-!
# File positions

Over a run of opens, seeks, reads and writes the position of every open file is told by the calls
alone: where it was opened, where it was set, and by how much the calls on its descriptor say they
moved it. Each read or write request then carries the tid and the fid of its descriptor, and the
position in its two offset fields.
-/

namespace Libdsm

variable (P : Platform)

/-! ## The offset of a request -/

theorem toNat_ofInt_eq (p : Int) : ((UInt32.ofInt p).toNat : Int) = p % 2 ^ 32 := by
  have hnonneg : 0 ≤ p % 2 ^ 32 := Int.emod_nonneg _ (by decide)
  have hlt : p % 2 ^ 32 < 2 ^ 32 := Int.emod_lt_of_pos _ (by decide)
  rw [UInt32.ofInt, UInt32.toNat_ofNat']
  omega

/-- The two halves of an offset, put together. -/
def joinOffset (high low : UInt32) : UInt64 := high.toUInt64 <<< 32 ||| low.toUInt64

theorem joinOffset_toNat (high low : UInt32) :
    (joinOffset high low).toNat = high.toNat * 2 ^ 32 + low.toNat := by
  have hhigh := high.toNat_lt
  have hlow := low.toNat_lt
  have hshift : (32 : UInt64).toNat % 64 = 32 := rfl
  have hfits : high.toNat <<< 32 < 2 ^ 64 := by
    rw [Nat.shiftLeft_eq]
    omega
  rw [joinOffset, UInt64.toNat_or, UInt64.toNat_shiftLeft, UInt32.toNat_toUInt64,
    UInt32.toNat_toUInt64, hshift, Nat.mod_eq_of_lt hfits, ← Nat.shiftLeft_add_eq_or_of_lt hlow,
    Nat.shiftLeft_eq]

/-- A position of 64 bits survives the split into two fields. -/
theorem joinOffset_split {p : Int} (hlow : -2 ^ 63 ≤ p) (hhigh : p < 2 ^ 63) :
    (joinOffset (UInt32.ofInt (p >>> (32 : Nat))) (UInt32.ofInt p)).toInt64.toInt = p := by
  have hjoin : ((joinOffset (UInt32.ofInt (p >>> (32 : Nat))) (UInt32.ofInt p)).toNat : Int) =
      p % 2 ^ 64 := by
    rw [joinOffset_toNat, Int.natCast_add, Int.natCast_mul, toNat_ofInt_eq, toNat_ofInt_eq,
      Int.shiftRight_eq_div_pow]
    omega
  generalize joinOffset (UInt32.ofInt (p >>> (32 : Nat))) (UInt32.ofInt p) = x at hjoin ⊢
  show x.toBitVec.toInt = p
  rw [BitVec.toInt_eq_toNat_bmod, UInt64.toNat_toBitVec, hjoin, Int.bmod_def]
  omega

/-! ## What the requests carry -/

/-- The fields of a read or write request; `high` is the place of the offset's upper half. -/
def requestFid (request : List UInt8) : UInt16 := replyU16 request (smbHeaderSize + 5)
def requestOffset (high : Nat) (request : List UInt8) : UInt64 :=
  joinOffset (replyU32 request (smbHeaderSize + high)) (replyU32 request (smbHeaderSize + 7))

def readOffsetHigh : Nat := 21
def writeOffsetHigh : Nat := 25

/-- The frame is a request of this command for the file of a descriptor, at a position. -/
structure RequestAt (cmd : UInt8) (high : Nat) (fd : UInt32) (position : Int) (frame : List UInt8) :
    Prop where
  command : requestCommand (frameMessage frame) = cmd
  file : smbFd (replyTid (frameMessage frame)) (requestFid (frameMessage frame)) = fd
  offset : (requestOffset high (frameMessage frame)).toInt64.toInt = position

section

variable {fd : UInt32} {file : SmbFile} (htid : file.tid = smbFdTid fd) (hfid : file.fid = smbFdFid fd)
variable (hlow : -2 ^ 63 ≤ file.offset) (hhigh : file.offset < 2 ^ 63)

include htid hfid hlow hhigh

/-- A request is at its file's position if the three fields are. -/
theorem Carries.requestAt {msg : SmbMessage} {cmd : UInt8} {content : List UInt8}
    (h : Carries msg cmd file.tid content) (s : SmbSession) {high : Nat}
    (hlen : smbHeaderSize + content.length < 65536)
    (hfidField : (content.drop 5).take 2 = le16 file.fid)
    (hoffset : (content.drop 7).take 4 = le32 (UInt32.ofInt file.offset))
    (hoffsetHigh : (content.drop high).take 4 = le32 (UInt32.ofInt (file.offset >>> (32 : Nat)))) :
    RequestAt cmd high fd file.offset (s.requestFrame msg) := by
  obtain ⟨hcommand, hmtid, hcontent⟩ := h.frame s hlen
  refine ⟨hcommand, ?_, ?_⟩
  · have hmfid : requestFid (frameMessage (s.requestFrame msg)) = file.fid :=
      replyU16_payload _ 5 (by rw [hcontent]; exact hfidField)
    rw [hmtid, hmfid, htid, hfid, smbFd_parts]
  · rw [requestOffset, replyU32_payload _ high (by rw [hcontent]; exact hoffsetHigh),
      replyU32_payload _ 7 (by rw [hcontent]; exact hoffset)]
    exact joinOffset_split hlow hhigh

theorem freadReq_at (s : SmbSession) (bufSize : Nat) :
    RequestAt smbCmdRead readOffsetHigh fd file.offset
      (s.requestFrame (smbFreadReq P file bufSize)) := by
  have hbuilt : ∃ r : SmbReadReq, smbFreadReq P file bufSize =
        smbMessageAppend ((smbMessageNew P smbCmdRead).setTid file.tid) r.bytes ∧
      r.fid = file.fid ∧ r.offset = UInt32.ofInt file.offset ∧
      r.offsetHigh = UInt32.ofInt (file.offset >>> (32 : Nat)) :=
    ⟨_, rfl, rfl, rfl, rfl⟩
  obtain ⟨r, hreq, hrfid, hroffset, hrhigh⟩ := hbuilt
  have hlength : r.bytes.length = 27 := by simp [SmbReadReq.bytes, smbAndxMembers]
  have hcarries := (Carries.new P smbCmdRead file.tid).append r.bytes (by rw [hlength]; decide)
  rw [List.nil_append] at hcarries
  rw [hreq]
  apply hcarries.requestAt htid hfid hlow hhigh s
  · rw [hlength]
    decide
  · rw [← hrfid]
    rfl
  · rw [← hroffset]
    rfl
  · rw [← hrhigh]
    rfl

theorem fwriteReq_at (s : SmbSession) (buf : List UInt8) :
    RequestAt smbCmdWrite writeOffsetHigh fd file.offset
      (s.requestFrame (smbFwriteReq P file buf)) := by
  have hbuilt : ∃ r : SmbWriteReq, smbFwriteReq P file buf =
        smbMessageAppend (smbMessageAppend ((smbMessageNew P smbCmdWrite).setTid file.tid) r.bytes)
          (buf.take (min smbMaxWrite buf.length)) ∧
      r.fid = file.fid ∧ r.offset = UInt32.ofInt file.offset ∧
      r.offsetHigh = UInt32.ofInt (file.offset >>> (32 : Nat)) :=
    ⟨_, rfl, rfl, rfl, rfl⟩
  obtain ⟨r, hreq, hrfid, hroffset, hrhigh⟩ := hbuilt
  have hlength : r.bytes.length = 32 := by simp [SmbWriteReq.bytes, smbAndxMembers]
  have hmax : smbMaxWrite = 65471 := rfl
  have hdata : (buf.take (min smbMaxWrite buf.length)).length ≤ 65471 := by
    rw [List.length_take]
    omega
  generalize buf.take (min smbMaxWrite buf.length) = data at hreq hdata
  have hcarries := (Carries.new P smbCmdWrite file.tid).append r.bytes (by rw [hlength]; decide)
  rw [List.nil_append] at hcarries
  rw [hreq]
  apply (hcarries.append data (by omega)).requestAt htid hfid hlow hhigh s
  · rw [List.length_append, hlength, smbHeaderSize]
    omega
  · rw [← hrfid, field_append (by rw [hlength]; decide)]
    rfl
  · rw [← hroffset, field_append (by rw [hlength]; decide)]
    rfl
  · rw [← hrhigh, field_append (by rw [hlength]; decide)]
    rfl

end

/-! ## Positions by the history of the calls -/

/-- The positions of the open files, by descriptor. -/
abbrev Positions := UInt32 → Option Int

/-- The positions after a call on `fd` has returned `res`. -/
def moved (pos : Positions) (fd : UInt32) (res : Int) : Positions :=
  if 0 ≤ res then Function.update pos fd ((pos fd).map (· + res)) else pos

/-- The positions after one more call, by what the call returned. -/
def positionsAfter (pos : Positions) (op : SmbOp) (r : SmbResult) : Positions :=
  match op, r with
  | .fopen .., .file .success (some fd) => Function.update pos fd (some 0)
  | .fseek fd offset whence, _ =>
    Function.update pos fd ((pos fd).map fun position => seekTo position offset whence)
  | .fread fd .., .read res _ => moved pos fd res
  | .fwrite fd _, .size res => moved pos fd res
  | _, _ => pos

/-- The session and the positions, one call on. -/
def positionStep (st : SmbSession × Positions) (op : SmbOp) : SmbSession × Positions :=
  (op.run P st.1, positionsAfter st.2 op (op.result P st.1))

/-- The calls that open files and move in them. -/
def SmbOp.isPositionOp : SmbOp → Bool
  | .fopen .. | .fseek .. | .fread .. | .fwrite .. => true
  | _ => false

/-- What a run is given: a file that is opened gets a descriptor that is not zero and that no open
file has, and no position leaves the range of 64 bits. -/
structure PositionPromise (st : SmbSession × Positions) (op : SmbOp) : Prop where
  positionOp : op.isPositionOp = true
  fresh : ∀ fd, op.result P st.1 = .file .success (some fd) →
    fd ≠ 0 ∧ smbSessionFileGet st.1 fd = none
  range : ∀ fd position, (positionStep P st op).2 fd = some position →
    -2 ^ 63 ≤ position ∧ position < 2 ^ 63

/-- Each read or write request of the call is for its descriptor, at the descriptor's position. -/
def RequestsAtPosition (st : SmbSession × Positions) (op : SmbOp) : Prop :=
  match op with
  | .fread fd _ _ => ∀ frame ∈ op.offered P st.1, ∃ position, st.2 fd = some position ∧
      RequestAt smbCmdRead readOffsetHigh fd position frame
  | .fwrite fd _ => ∀ frame ∈ op.offered P st.1, ∃ position, st.2 fd = some position ∧
      RequestAt smbCmdWrite writeOffsetHigh fd position frame
  | _ => True

/-! ## Invariant -/

/-- The table holds the positions of the history, in the range of 64 bits. -/
structure PositionInv (st : SmbSession × Positions) : Prop where
  position : ∀ fd, st.2 fd = st.1.position fd
  tids : TidsMatch st.1
  range : ∀ fd position, st.2 fd = some position → -2 ^ 63 ≤ position ∧ position < 2 ^ 63

theorem TidsMatch.seek {s : SmbSession} (h : TidsMatch s) {fd : UInt32} (hfd : fd ≠ 0)
    (position : Int) : TidsMatch (s.seek fd position) := by
  intro other file hfile
  rw [SmbSession.seek, fileGet_fileUpdate s hfd] at hfile
  case hf => exact fun file => rfl
  split at hfile
  · rename_i heq
    obtain ⟨file', hfile', rfl⟩ := Option.map_eq_some_iff.mp hfile
    rw [heq]
    exact h fd file' hfile'
  · exact h other file hfile

/-- What a transfer does to the table and on the wire, by what it returned. -/
theorem transfer_step {s : SmbSession} {pos : Positions} (h : PositionInv (s, pos)) {op : SmbOp}
    {fd : UInt32} {file : SmbFile} (hopen : smbSessionFileGet s fd = some file) {req : SmbMessage}
    {accepted : List UInt8 → Prop} {res : Int}
    (hend : (res < 0 ∧ TransferFailed s req accepted (op.run P s)) ∨
      ∃ (reply : List UInt8) (n : Nat), res = n ∧ TransferDone s fd req file.offset reply n (op.run P s)) :
    (∀ other, moved pos fd res other = (op.run P s).position other) ∧ TidsMatch (op.run P s) ∧
      ∀ frame ∈ op.offered P s, frame = s.requestFrame req := by
  have hfd := fileGet_ne_zero hopen
  have hsingle : op.offered P s = (if s.transport.session.ready then [s.requestFrame req] else []) →
      ∀ frame ∈ op.offered P s, frame = s.requestFrame req := by
    intro hoffered frame hframe
    rw [hoffered] at hframe
    split at hframe
    · exact List.mem_singleton.mp hframe
    · cases hframe
  rcases hend with ⟨hneg, hfailed⟩ | ⟨reply, n, rfl, hdone⟩
  · have honly := hsingle hfailed.offered_eq
    obtain ⟨got, hexchanged, -⟩ := hfailed
    refine ⟨fun other => ?_, h.tids.congr hexchanged.shares, honly⟩
    rw [moved, if_neg (by omega), position_congr hexchanged.shares]
    exact h.position other
  · have honly := hsingle hdone.offered_eq
    obtain ⟨opcode, s₁, hexchanged, hrun⟩ := hdone
    refine ⟨fun other => ?_, ?_, honly⟩
    · rw [moved, if_pos (by omega), hrun, position_seek hfd, position_congr hexchanged.shares]
      by_cases heq : other = fd
      · subst heq
        have hposition : pos other = some file.offset := by
          rw [show pos other = s.position other from h.position other, SmbSession.position, hopen]
          rfl
        rw [Function.update_self, if_pos rfl, hposition, SmbSession.position, hopen]
        rfl
      · rw [Function.update_of_ne heq, if_neg heq, position_congr hexchanged.shares]
        exact h.position other
    · rw [hrun]
      exact (h.tids.congr hexchanged.shares).seek hfd _

section

variable {st : SmbSession × Positions} (h : PositionInv st)

include h

/-- The position of an open file is in the range of 64 bits, and its request is at it. -/
theorem PositionInv.open_file {fd : UInt32} {file : SmbFile}
    (hopen : smbSessionFileGet st.1 fd = some file) :
    st.2 fd = some file.offset ∧ file.tid = smbFdTid fd ∧ file.fid = smbFdFid fd ∧
      -2 ^ 63 ≤ file.offset ∧ file.offset < 2 ^ 63 := by
  have hposition : st.2 fd = some file.offset := by
    rw [h.position, SmbSession.position, hopen]
    rfl
  exact ⟨hposition, h.tids fd file hopen, fileGet_fid hopen, h.range fd _ hposition⟩

/-- Without an open file a transfer changes nothing and sends nothing. -/
theorem closed_step {op : SmbOp} (hrun : op.run P st.1 = st.1) :
    (∀ fd, st.2 fd = (op.run P st.1).position fd) ∧ TidsMatch (op.run P st.1) ∧
      ∀ frame, frame ∉ op.offered P st.1 := by
  rw [offered_of_unchanged hrun, hrun]
  exact ⟨h.position, h.tids, fun _ => List.not_mem_nil⟩

theorem fread_step (fd : UInt32) (copy : Bool) (bufSize : Nat) :
    let op := SmbOp.fread fd copy bufSize
    (∀ other, positionsAfter st.2 op (op.result P st.1) other = (op.run P st.1).position other) ∧
      TidsMatch (op.run P st.1) ∧ RequestsAtPosition P st op := by
  intro op
  cases hopen : smbSessionFileGet st.1 fd with
  | none =>
    obtain ⟨hres, hrun⟩ := exec_spec (fread_closed P hopen copy bufSize) rfl
    obtain ⟨hposition, htids, hnone⟩ := closed_step P h hrun
    rw [hres]
    exact ⟨hposition, htids, fun frame hframe => absurd hframe (hnone frame)⟩
  | some file =>
    obtain ⟨hposition, htid, hfid, hlow, hhigh⟩ := h.open_file hopen
    have hend := exec_spec (fread_exec P hopen copy bufSize) rfl
    have hcases : ∃ res buf, op.result P st.1 = .read res buf ∧
        ((res < 0 ∧ TransferFailed st.1 (smbFreadReq P file bufSize) ReadAccepted
            (op.run P st.1)) ∨
          ∃ (reply : List UInt8) (n : Nat), res = n ∧
            TransferDone st.1 fd (smbFreadReq P file bufSize) file.offset reply n
              (op.run P st.1)) := by
      rcases hend with ⟨res, hres, hneg, hfailed⟩ | ⟨reply, -, hdone, hres⟩
      · exact ⟨res, none, hres, .inl ⟨hneg, hfailed⟩⟩
      · exact ⟨_, _, hres, .inr ⟨reply, _, rfl, hdone⟩⟩
    obtain ⟨res, buf, hres, hcases⟩ := hcases
    obtain ⟨hmoved, htids, hoffered⟩ := transfer_step P h hopen hcases
    rw [hres]
    refine ⟨hmoved, htids, fun frame hframe => ⟨file.offset, hposition, ?_⟩⟩
    rw [hoffered frame hframe]
    exact freadReq_at P htid hfid hlow hhigh st.1 bufSize

theorem fwrite_step (fd : UInt32) (buf : List UInt8) :
    let op := SmbOp.fwrite fd buf
    (∀ other, positionsAfter st.2 op (op.result P st.1) other = (op.run P st.1).position other) ∧
      TidsMatch (op.run P st.1) ∧ RequestsAtPosition P st op := by
  intro op
  cases hopen : smbSessionFileGet st.1 fd with
  | none =>
    obtain ⟨hres, hrun⟩ := exec_spec (fwrite_closed P hopen buf) rfl
    obtain ⟨hposition, htids, hnone⟩ := closed_step P h hrun
    rw [hres]
    exact ⟨hposition, htids, fun frame hframe => absurd hframe (hnone frame)⟩
  | some file =>
    obtain ⟨hposition, htid, hfid, hlow, hhigh⟩ := h.open_file hopen
    have hend := exec_spec (fwrite_exec P hopen buf) rfl
    have hcases : ∃ res, op.result P st.1 = .size res ∧
        ((res < 0 ∧ TransferFailed st.1 (smbFwriteReq P file buf) WriteAccepted
            (op.run P st.1)) ∨
          ∃ (reply : List UInt8) (n : Nat), res = n ∧
            TransferDone st.1 fd (smbFwriteReq P file buf) file.offset reply n
              (op.run P st.1)) := by
      rcases hend with ⟨res, hres, hneg, hfailed⟩ | ⟨reply, -, hdone, hres⟩
      · exact ⟨res, hres, .inl ⟨hneg, hfailed⟩⟩
      · exact ⟨_, hres, .inr ⟨reply, _, rfl, hdone⟩⟩
    obtain ⟨res, hres, hcases⟩ := hcases
    obtain ⟨hmoved, htids, hoffered⟩ := transfer_step P h hopen hcases
    rw [hres]
    refine ⟨hmoved, htids, fun frame hframe => ⟨file.offset, hposition, ?_⟩⟩
    rw [hoffered frame hframe]
    exact fwriteReq_at P htid hfid hlow hhigh st.1 buf

theorem fseek_step (fd : UInt32) (offset : Int) (whence : Option SmbSeek) (r : SmbResult) :
    let op := SmbOp.fseek fd offset whence
    (∀ other, positionsAfter st.2 op r other = (op.run P st.1).position other) ∧
      TidsMatch (op.run P st.1) := by
  intro op
  have hrun : op.run P st.1 = (smbFseek fd offset whence st.1).2 := rfl
  have hafter : positionsAfter st.2 op r =
      Function.update st.2 fd ((st.2 fd).map fun position => seekTo position offset whence) := rfl
  rw [hafter]
  cases hopen : smbSessionFileGet st.1 fd with
  | none =>
    have hnone : st.2 fd = none := by
      rw [h.position, SmbSession.position, hopen]
      rfl
    rw [hrun, fseek_closed hopen, hnone, Option.map_none, ← hnone, Function.update_eq_self]
    exact ⟨h.position, h.tids⟩
  | some file =>
    have hfd := fileGet_ne_zero hopen
    have hposition := (h.open_file hopen).1
    rw [hrun, fseek_open hopen, hposition, Option.map_some]
    refine ⟨fun other => ?_, h.tids.seek hfd _⟩
    rw [position_seek hfd]
    by_cases heq : other = fd
    · rw [heq, Function.update_self, if_pos rfl, ← h.position, hposition, Option.map_some]
    · rw [Function.update_of_ne heq, if_neg heq]
      exact h.position other

theorem fopen_step {tid : UInt16} {path : List UInt8} {oFlags : UInt32}
    (hp : PositionPromise P st (.fopen tid path oFlags)) :
    let op := SmbOp.fopen tid path oFlags
    (∀ other, positionsAfter st.2 op (op.result P st.1) other = (op.run P st.1).position other) ∧
      TidsMatch (op.run P st.1) := by
  intro op
  have hfresh := hp.fresh
  have hend : FileOpened st.1.shares tid (op.result P st.1) (op.run P st.1) :=
    exec_spec (fopen_exec P tid path oFlags) rfl
  rcases hend with ⟨file, hres, hmem, hfile, hshares⟩ | ⟨code, hres, hshares⟩
  · obtain ⟨hfd, hnone⟩ := hfresh _ hres
    rw [fileGet_eq _ hfd, smbFdTid_smbFd, smbFdFid_smbFd] at hnone
    have hget := fileGet_fileAdd hfd hmem hnone hshares
    have htid : file.tid = tid := by rw [hfile]; rfl
    have hoffset : file.offset = 0 := by rw [hfile]; rfl
    rw [hres]
    refine ⟨fun other => ?_, fun other file' hfile => ?_⟩
    · rw [SmbSession.position, hget, positionsAfter]
      by_cases heq : other = smbFd tid file.fid
      · rw [heq, Function.update_self, if_pos rfl, Option.map_some, hoffset]
      · rw [Function.update_of_ne heq, if_neg heq]
        exact h.position other
    · rw [hget] at hfile
      split at hfile
      · rename_i heq
        rw [Option.some.injEq] at hfile
        rw [heq, smbFdTid_smbFd, ← hfile, htid]
      · exact h.tids other file' hfile
  · have hafter : positionsAfter st.2 op (.file code none) = st.2 := by
      cases code <;> rfl
    rw [hres, hafter]
    refine ⟨fun other => ?_, h.tids.congr hshares⟩
    rw [position_congr hshares]
    exact h.position other

/-- One call keeps the invariant, and its requests are at their positions. -/
theorem PositionInv.step {op : SmbOp} (hp : PositionPromise P st op) :
    PositionInv (positionStep P st op) ∧ RequestsAtPosition P st op := by
  have hop := hp.positionOp
  suffices hstep : (∀ fd, (positionStep P st op).2 fd = (op.run P st.1).position fd) ∧
      TidsMatch (op.run P st.1) ∧ RequestsAtPosition P st op from
    ⟨⟨hstep.1, hstep.2.1, hp.range⟩, hstep.2.2⟩
  cases op with
  | fopen tid path oFlags =>
    obtain ⟨hposition, htids⟩ := fopen_step P h hp
    exact ⟨hposition, htids, trivial⟩
  | fseek fd offset whence =>
    obtain ⟨hposition, htids⟩ := fseek_step P h fd offset whence
      (SmbOp.result P st.1 (.fseek fd offset whence))
    exact ⟨hposition, htids, trivial⟩
  | fread fd copy bufSize => exact fread_step P h fd copy bufSize
  | fwrite fd buf => exact fwrite_step P h fd buf
  | _ => exact absurd hop Bool.false_ne_true

end

/-- Over every run of opens, seeks, reads and writes from a session without open files, against any
server: each read or write request is for its descriptor and at its position. -/
theorem requests_atPosition (s : SmbSession) (hempty : ∀ share ∈ s.shares, share.files = [])
    (ops : List SmbOp)
    (hpromise : Along (positionStep P) (PositionPromise P) (s, fun _ => none) ops) :
    Along (positionStep P) (RequestsAtPosition P) (s, fun _ => none) ops := by
  have hnone := fileGet_of_empty hempty
  have hstart : PositionInv (s, fun _ => none) := by
    refine ⟨fun fd => ?_, fun fd file hfile => ?_, fun _ _ hsome => by cases hsome⟩
    · rw [SmbSession.position, hnone]
      rfl
    · rw [hnone] at hfile
      cases hfile
  exact (Along.of_invariant (fun _ _ hinv hp => hinv.step P hp) hstart hpromise).1

/-- A position set in the range of 64 bits. -/
theorem update_range {pos : Positions} (fd : UInt32) (new : Int)
    (hpos : ∀ other position, pos other = some position → -2 ^ 63 ≤ position ∧ position < 2 ^ 63)
    (hlow : -2 ^ 63 ≤ new) (hhigh : new < 2 ^ 63) (other : UInt32) (position : Int)
    (h : Function.update pos fd (some new) other = some position) :
    -2 ^ 63 ≤ position ∧ position < 2 ^ 63 := by
  by_cases heq : other = fd
  · rw [heq, Function.update_self, Option.some.injEq] at h
    omega
  · rw [Function.update_of_ne heq] at h
    exact hpos other position h

/-- A run of an open, a seek and a read keeps its promises if the calls return this. -/
theorem promise_of_results {s : SmbSession} {tid : UInt16} {path : List UInt8} {fd : UInt32}
    {position : Int} {n : Nat} (bytes : Option (List UInt8)) (hfd : fd ≠ 0)
    (hfree : smbSessionFileGet s fd = none) (hlow : -2 ^ 63 ≤ position)
    (hhigh : position + n < 2 ^ 63)
    (hopen : SmbOp.result P s (.fopen tid path 0) = .file .success (some fd))
    (hseek : SmbOp.result P (SmbOp.run P s (.fopen tid path 0)) (.fseek fd position (some .set)) =
      .size position)
    (hread : SmbOp.result P (SmbOp.run P (SmbOp.run P s (.fopen tid path 0))
      (.fseek fd position (some .set))) (.fread fd true n) = .read n bytes) :
    Along (positionStep P) (PositionPromise P) (s, fun _ => none)
      [.fopen tid path 0, .fseek fd position (some .set), .fread fd true n] := by
  have hnone : ∀ (other : UInt32) (p : Int), (fun _ => none : Positions) other = some p →
      -2 ^ 63 ≤ p ∧ p < 2 ^ 63 := fun _ _ h => by cases h
  have hopened := update_range fd 0 hnone (by decide) (by decide)
  have hsought := update_range fd position hopened hlow (by omega)
  have hmoved := update_range fd (position + n) hsought (by omega) hhigh
  -- the positions as the three results tell them
  have hpos₁ : positionsAfter (fun _ => none) (.fopen tid path 0) (.file .success (some fd)) =
      Function.update (fun _ => none) fd (some 0) := rfl
  have hpos₂ : ∀ pos : Positions, positionsAfter (Function.update pos fd (some 0))
      (.fseek fd position (some .set)) (.size position) =
        Function.update (Function.update pos fd (some 0)) fd (some position) := by
    intro pos
    rw [positionsAfter, Function.update_self]
    rfl
  have hpos₃ : ∀ pos : Positions, positionsAfter (Function.update pos fd (some position))
      (.fread fd true n) (.read n bytes) =
        Function.update (Function.update pos fd (some position)) fd (some (position + n)) := by
    intro pos
    rw [positionsAfter, moved, if_pos (by omega), Function.update_self]
    rfl
  simp only [Along, positionStep, hopen, hseek, hpos₁, hpos₂]
  refine ⟨⟨rfl, fun fd' h => ?_, ?_⟩, ⟨rfl, fun fd' h => ?_, ?_⟩, ⟨rfl, fun fd' h => ?_, ?_⟩, trivial⟩
  · rw [hopen] at h
    cases h
    exact ⟨hfd, hfree⟩
  · rw [positionStep, hopen, hpos₁]
    exact hopened
  · rw [hseek] at h
    cases h
  · rw [positionStep, hseek, hpos₂]
    exact hsought
  · rw [hread] at h
    cases h
  · rw [positionStep, hread, hpos₃]
    exact hmoved

/-- A file opened, moved behind 4 GiB and read. -/
theorem requests_atPosition_read :
    let s := SmbOp.run .ascii (connectedTo [treeReply 5, createReply 7, readReply [1, 2]])
      (.treeConnect (ascii "x"))
    let ops : List SmbOp :=
      [.fopen 5 (ascii "f") 0, .fseek (smbFd 5 7) 5000000000 (some .set), .fread (smbFd 5 7) true 2]
    Along (positionStep .ascii) (PositionPromise .ascii) (s, fun _ => none) ops ∧
      Along (positionStep .ascii) (RequestsAtPosition .ascii) (s, fun _ => none) ops := by
  intro s ops
  have hempty : ∀ share ∈ s.shares, share.files = [] := by decide +kernel
  have hpromise : Along (positionStep .ascii) (PositionPromise .ascii) (s, fun _ => none) ops :=
    promise_of_results .ascii (some [1, 2]) (by decide) (by decide +kernel) (by decide) (by decide)
      (by decide +kernel) (by decide +kernel) (by decide +kernel)
  exact ⟨hpromise, requests_atPosition .ascii s hempty ops hpromise⟩

end Libdsm
