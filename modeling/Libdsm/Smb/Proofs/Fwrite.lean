import Libdsm.Smb.Proofs.Layout
import Libdsm.Smb.Proofs.Transfer

/-!
# The request of `smb_fwrite`

The number of bytes that `smb_fwrite` sends is computed in a `uint16_t` from two structure sizes and a
`size_t`, stored into three fields and, two layers below, counted again by the header of the frame.
Whatever the size of the buffer is, all of these agree with the bytes that are sent.
-/

namespace Libdsm

variable (P : Platform)

/-! ## The number of bytes -/

/-- `max_write` as the source computes it: a `uint16_t`, compared with `buf_size` as a `size_t`. -/
def smbFwriteMaxWrite (bufSize : Nat) : UInt16 :=
  let maxWrite := UInt16.ofNat (0xffff - smbHeaderSize - SmbWriteReq.size)
  if maxWrite.toNat < bufSize then maxWrite else UInt16.ofNat bufSize

/-- Where the cast of `buf_size` would cut it, the other branch is taken. -/
theorem maxWrite_eq (bufSize : Nat) :
    smbFwriteMaxWrite bufSize = UInt16.ofNat (min smbMaxWrite bufSize) := by
  have hmax : (UInt16.ofNat (0xffff - smbHeaderSize - SmbWriteReq.size)).toNat = smbMaxWrite := by
    decide
  rw [smbFwriteMaxWrite, hmax]
  by_cases hlarge : smbMaxWrite < bufSize
  · rw [if_pos hlarge, Nat.min_eq_left (Nat.le_of_lt hlarge)]
    rfl
  · rw [if_neg hlarge, Nat.min_eq_right (Nat.le_of_not_lt hlarge)]

theorem maxWrite_toNat (bufSize : Nat) : (smbFwriteMaxWrite bufSize).toNat = min bufSize 65471 := by
  have hmax : smbMaxWrite = 65471 := rfl
  rw [maxWrite_eq, UInt16.toNat_ofNat', hmax, Nat.min_comm]
  exact Nat.mod_eq_of_lt (by omega)

/-! ## The frame -/

/-- Behind the padding byte are the data. -/
theorem HoldsBlock.write_data {request data : List UInt8} {length offset bct : UInt16} {padding : UInt8}
    (h : HoldsBlock request writeFields length offset bct ([padding] ++ data)) :
    request.drop 64 = data := by
  have hbehind := congrArg (List.drop 1) h.behind
  rw [List.drop_drop] at hbehind
  exact hbehind

/-- The length in the header of a frame. -/
def frameLength (frame : List UInt8) : Nat := (frame.getD 2 0).toNat * 256 + (frame.getD 3 0).toNat

theorem Frame.encode_frameLength (f : Frame) (hlt : f.payload.length < 65536) :
    frameLength f.encode = f.payload.length := by
  have hhigh : (UInt8.ofNat (f.payload.length / 256)).toNat = f.payload.length / 256 := by
    rw [UInt8.toNat_ofNat']
    omega
  have hlow : (UInt8.ofNat f.payload.length).toNat = f.payload.length % 256 := UInt8.toNat_ofNat'
  rw [frameLength, Frame.encode, htons]
  simp only [List.cons_append, List.nil_append, List.getD_cons_succ, List.getD_cons_zero, hhigh, hlow]
  omega

/-- The header of a frame counts the request inside it. -/
theorem requestFrame_frameLength (s : SmbSession) (msg : SmbMessage)
    (hlt : (smbRequestBytes s.srv.uid msg).length < 65536) :
    frameLength (s.requestFrame msg) = (smbRequestBytes s.srv.uid msg).length := by
  obtain ⟨f, -, hpayload, hframe⟩ := requestFrame_eq s msg hlt
  rw [hframe, ← hpayload]
  exact f.encode_frameLength (by rw [hpayload]; exact hlt)

/-- For every buffer the request of `smb_fwrite` announces the first 65471 bytes of it, or all of it if
it is no larger; these are the bytes at the offset it announces, and they end the message; and the
message fits the length field of the frame, which is exact. -/
theorem fwrite_request_exact (s : SmbSession) (fd : UInt32) (buf frame : List UInt8)
    (hframe : frame ∈ SmbOp.offered P s (.fwrite fd buf)) :
    let request := frameMessage frame
    let dataLen := (replyU16 request writeFields.length).toNat
    let dataOffset := (replyU16 request writeFields.offset).toNat
    dataLen = min buf.length 65471 ∧ dataLen = (smbFwriteMaxWrite buf.length).toNat ∧
      (request.drop dataOffset).take dataLen = buf.take dataLen ∧
      dataOffset + dataLen = request.length ∧ request.length ≤ 65535 ∧
      frameLength frame = request.length := by
  intro request dataLen dataOffset
  obtain ⟨msg, s', ⟨file, -, rfl⟩, rfl⟩ := (fwrite_offers P fd buf s).offered hframe
  obtain ⟨r, hbuilds, hlen, hoffset, -, -⟩ := fwriteReq_builds P file buf
  obtain ⟨sent, hsent, hbuilds⟩ := hbuilds.request s'.srv.uid
  obtain ⟨hlength, hholds⟩ := writeMsg_holds hbuilds
  rw [← maxWrite_eq] at hlen
  have hmax := maxWrite_toNat buf.length
  have hconst : smbMaxWrite = 65471 := rfl
  have hdata : (buf.take (min smbMaxWrite buf.length)).length = min buf.length 65471 := by
    rw [List.length_take]
    omega
  rw [hdata, smbHeaderSize, SmbWriteReq.size] at hlength
  have hrequest : request = sent.bytes := by
    rw [← hsent]
    exact requestFrame_message s' _ (by rw [hsent, hlength]; omega)
  have hdataLen : dataLen = min buf.length 65471 := by
    show (replyU16 request writeFields.length).toNat = _
    rw [hrequest, hholds.length, hlen, hmax]
  have hdataOffset : dataOffset = 64 := by
    show (replyU16 request writeFields.offset).toNat = _
    rw [hrequest, hholds.offset, hoffset]
    rfl
  refine ⟨hdataLen, hdataLen.trans hmax.symm, ?_, ?_, ?_, ?_⟩
  · have hcut : min (min buf.length 65471) (min smbMaxWrite buf.length) = min buf.length 65471 := by
      omega
    rw [hdataOffset, hrequest, hholds.write_data, hdataLen, List.take_take, hcut]
  · rw [hdataOffset, hdataLen, hrequest, hlength]
  · rw [hrequest, hlength]
    omega
  · rw [requestFrame_frameLength s' _ (by rw [hsent, hlength]; omega), hsent, hrequest]

/-- Three bytes written to an open file. -/
theorem fwrite_request_exact_three :
    ∃ frame ∈ SmbOp.offered .ascii (openedFile (writeReply 3)) (.fwrite (smbFd 5 7) [1, 2, 3]),
      (replyU16 (frameMessage frame) writeFields.length).toNat = 3 ∧
        frameLength frame = (frameMessage frame).length := by
  let s := openedFile (writeReply 3)
  have hone : (SmbOp.offered .ascii s (.fwrite (smbFd 5 7) [1, 2, 3])).length = 1 := by decide +kernel
  obtain ⟨frame, hframes⟩ := List.length_eq_one_iff.mp hone
  have hframe : frame ∈ SmbOp.offered .ascii s (.fwrite (smbFd 5 7) [1, 2, 3]) := by
    rw [hframes]
    exact List.mem_singleton_self frame
  obtain ⟨hlen, -, -, -, -, hexact⟩ :=
    fwrite_request_exact .ascii s (smbFd 5 7) [1, 2, 3] frame hframe
  exact ⟨frame, hframe, hlen, hexact⟩

end Libdsm
