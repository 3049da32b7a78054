import Libdsm.Smb.File
import Libdsm.Smb.Proofs.Offers
import Libdsm.Smb.Proofs.Trans2
import Libdsm.Smb.Share

/-!
# Byte counts and strings of a request

Behind its parameters a request has a 16-bit byte count, and the bytes it counts: padding, strings
and blocks, each laid out by hand. This module reads a request back from the bytes of its message.
-/

namespace Libdsm

/-! ## The bytes of a message -/

section

variable {msg : SmbMessage} {content : List UInt8}

theorem Builds.bytes_length (h : Builds msg (content.map some)) :
    msg.bytes.length = smbHeaderSize + content.length := by
  have hcursor : msg.cursor = content.length := by simpa using h.cursor
  rw [SmbMessage.bytes, Mem.read_length, hcursor]

theorem Builds.bytes_drop (h : Builds msg (content.map some)) :
    msg.bytes.drop smbHeaderSize = content := by
  rw [SmbMessage.bytes, Mem.read_add, List.drop_left' (Mem.read_length ..), Nat.zero_add]
  exact h.read_eq

/-- A field of the header is outside the payload. -/
theorem Builds.setHeader {content : List (Option UInt8)} (h : Builds msg content) {off : Nat}
    {bs : List UInt8} (hoff : off + bs.length ≤ smbHeaderSize) :
    Builds (msg.setHeader off bs) content := by
  refine ⟨h.cursor, h.room, h.slack, ?_⟩
  intro i b hi
  have hpayload : (msg.setHeader off bs).payload = msg.payload :=
    Mem.shift_write_of_le msg.packet bs hoff
  rw [hpayload]
  exact h.bytes i b hi

/-- What `smb_session_send_msg` hands to the transport has the content of the message. -/
theorem Builds.request {content : List (Option UInt8)} (h : Builds msg content) (uid : UInt16) :
    ∃ sent : SmbMessage, smbRequestBytes uid msg = sent.bytes ∧ Builds sent content :=
  ⟨_, rfl, ((h.setHeader (by decide)).setHeader (by decide)).setHeader (by simp [smbHeaderUid, smbHeaderSize])⟩

end

/-- What `smb_session_send_msg` changes is in the header. -/
theorem requestBytes_drop (uid : UInt16) (msg : SmbMessage) {off : Nat} (h : smbHeaderSize ≤ off) :
    (smbRequestBytes uid msg).drop off = msg.bytes.drop off := by
  have hread := requestBytes_read uid msg smbHeaderSize msg.cursor
    (Nat.le_refl _) (.inr ⟨by decide, .inr (by decide)⟩)
  rw [List.take_of_length_le (by rw [List.length_drop, requestBytes_length]; omega)] at hread
  have hbytes : msg.bytes.drop smbHeaderSize = msg.packet.read smbHeaderSize msg.cursor := by
    rw [SmbMessage.bytes, Mem.read_add, List.drop_left' (Mem.read_length ..), Nat.zero_add]
  obtain ⟨k, rfl⟩ := Nat.exists_eq_add_of_le h
  rw [← List.drop_drop, ← List.drop_drop, hread, hbytes]

theorem requestBytes_command (uid : UInt16) (msg : SmbMessage) :
    requestCommand (smbRequestBytes uid msg) = msg.command := by
  have hread := requestBytes_read uid msg smbHeaderCommand 1
    (by simp only [smbHeaderCommand, smbHeaderSize]; omega) (.inl (by decide))
  have hbyte := congrArg (·[0]?) hread
  rw [List.getElem?_take_of_succ, List.getElem?_drop, Mem.read_getElem? _ _ _ _ (by decide)] at hbyte
  rw [requestCommand, List.getD_eq_getElem?_getD]
  exact congrArg (·.getD 0) hbyte

theorem requestBytes_replyU16 (uid : UInt16) (msg : SmbMessage) {off : Nat} (h : smbHeaderSize ≤ off) :
    replyU16 (smbRequestBytes uid msg) off = replyU16 msg.bytes off := by
  rw [replyU16, replyU16, requestBytes_drop uid msg h]

/-- A message whose content is split at its byte count. -/
theorem Builds.counted {msg : SmbMessage} {front body : List UInt8} {bct : UInt16}
    (h : Builds msg ((front ++ le16 bct ++ body).map some)) {off : Nat}
    (hoff : off = smbHeaderSize + front.length) :
    replyU16 msg.bytes off = bct ∧ msg.bytes.drop (off + 2) = body := by
  subst hoff
  have hdrop := h.bytes_drop
  constructor
  · apply replyU16_payload
    rw [hdrop, List.append_assoc, List.drop_left, List.take_left' (le16_length bct)]
  · have hsum : smbHeaderSize + front.length + 2 = smbHeaderSize + (front ++ le16 bct).length := by
      rw [List.length_append, le16_length]
      omega
    rw [hsum, ← List.drop_drop, hdrop, List.drop_left]

/-! ## Requests with padding behind the count

The structures of TRANS2 and of WRITE end with padding that the byte count has to cover. -/

/-- Where a message has its byte count, and the offset and the length of its block. -/
structure BlockFields where
  bct : Nat
  offset : Nat
  length : Nat

/-- `bct`, `param_offset` and `param_count` of `smb_trans2_req`. -/
def trans2Fields : BlockFields where
  bct := smbHeaderSize + 31
  offset := smbHeaderSize + 21
  length := smbHeaderSize + 19

/-- `bct`, `data_offset` and `data_len` of `smb_write_req`. -/
def writeFields : BlockFields where
  bct := smbHeaderSize + 29
  offset := smbHeaderSize + 23
  length := smbHeaderSize + 21

/-- The count is that of the bytes behind it, and the block lies among them. -/
structure Counted (request : List UInt8) (fields : BlockFields) : Prop where
  count : (replyU16 request fields.bct).toNat = (request.drop (fields.bct + 2)).length
  start : fields.bct + 2 ≤ (replyU16 request fields.offset).toNat
  stop : (replyU16 request fields.offset).toNat + (replyU16 request fields.length).toNat ≤
    fields.bct + 2 + (replyU16 request fields.bct).toNat

/-- The message on its way counts what it counts when it is handed over. -/
theorem counted_sent (uid : UInt16) (msg : SmbMessage) {fields : BlockFields}
    (hbct : smbHeaderSize ≤ fields.bct) (hoffset : smbHeaderSize ≤ fields.offset)
    (hlength : smbHeaderSize ≤ fields.length) :
    Counted (smbRequestBytes uid msg) fields ↔ Counted msg.bytes fields := by
  have hcount := requestBytes_replyU16 uid msg hbct
  have hstart := requestBytes_replyU16 uid msg hoffset
  have hlen := requestBytes_replyU16 uid msg hlength
  have hbehind := requestBytes_drop uid msg (Nat.le_add_right_of_le (k := 2) hbct)
  constructor
  · rintro ⟨h, h', h''⟩
    rw [hcount, hbehind] at h
    rw [hstart] at h'
    rw [hstart, hlen, hcount] at h''
    exact ⟨h, h', h''⟩
  · rintro ⟨h, h', h''⟩
    refine ⟨?_, ?_, ?_⟩
    · rw [hcount, hbehind]
      exact h
    · rw [hstart]
      exact h'
    · rw [hstart, hlen, hcount]
      exact h''

/-- What the fields of a message hold, and the bytes its count has to count. -/
structure HoldsBlock (request : List UInt8) (fields : BlockFields) (length offset bct : UInt16)
    (behind : List UInt8) : Prop where
  length : replyU16 request fields.length = length
  offset : replyU16 request fields.offset = offset
  bct : replyU16 request fields.bct = bct
  behind : request.drop (fields.bct + 2) = behind

theorem HoldsBlock.counted_iff {request behind : List UInt8} {fields : BlockFields}
    {length offset bct : UInt16} (h : HoldsBlock request fields length offset bct behind) :
    Counted request fields ↔ bct.toNat = behind.length ∧ fields.bct + 2 ≤ offset.toNat ∧
      offset.toNat + length.toNat ≤ fields.bct + 2 + bct.toNat := by
  constructor
  · intro hcounted
    have hcount := hcounted.count
    have hstart := hcounted.start
    have hstop := hcounted.stop
    rw [h.bct, h.behind] at hcount
    rw [h.offset] at hstart
    rw [h.offset, h.length, h.bct] at hstop
    exact ⟨hcount, hstart, hstop⟩
  · rintro ⟨hcount, hstart, hstop⟩
    refine ⟨?_, ?_, ?_⟩
    · rw [h.bct, h.behind]
      exact hcount
    · rw [h.offset]
      exact hstart
    · rw [h.offset, h.length, h.bct]
      exact hstop

/-- Both structures have the length and the offset of the block side by side, and the count later. -/
theorem Builds.holdsBlock {msg : SmbMessage} {front middle behind : List UInt8}
    {length offset bct : UInt16} {fields : BlockFields}
    (h : Builds msg ((front ++ (le16 length ++ (le16 offset ++ (middle ++
      (le16 bct ++ behind))))).map some))
    (hlength : fields.length = smbHeaderSize + front.length)
    (hoffset : fields.offset = fields.length + 2)
    (hbct : fields.bct = fields.offset + 2 + middle.length) :
    HoldsBlock msg.bytes fields length offset bct behind := by
  refine ⟨?_, ?_, ?_, ?_⟩
  · rw [← List.append_assoc] at h
    exact (h.counted hlength).1
  · have hsplit : front ++ (le16 length ++ (le16 offset ++ (middle ++ (le16 bct ++ behind)))) =
        front ++ le16 length ++ le16 offset ++ (middle ++ (le16 bct ++ behind)) := by
      simp only [List.append_assoc]
    rw [hsplit] at h
    refine (h.counted ?_).1
    rw [hoffset, hlength, List.length_append, le16_length]
    omega
  all_goals
    have hsplit : front ++ (le16 length ++ (le16 offset ++ (middle ++ (le16 bct ++ behind)))) =
        front ++ le16 length ++ le16 offset ++ middle ++ le16 bct ++ behind := by
      simp only [List.append_assoc]
    rw [hsplit] at h
    have hplace : fields.bct =
        smbHeaderSize + (front ++ le16 length ++ le16 offset ++ middle).length := by
      simp only [hbct, hoffset, hlength, List.length_append, le16_length]
      omega
  · exact (h.counted hplace).1
  · exact (h.counted hplace).2

/-! ### TRANS2 -/

theorem trans2Req_split (tr2 : SmbTrans2Req) : ∃ front middle : List UInt8,
    tr2.bytes = front ++ (le16 tr2.paramCount ++ (le16 tr2.paramOffset ++ (middle ++
      (le16 tr2.bct ++ [0, 0, 0])))) ∧ front.length = 19 ∧ middle.length = 8 := by
  refine ⟨[tr2.wct] ++ le16 tr2.totalParamCount ++ le16 tr2.totalDataCount ++
    le16 tr2.maxParamCount ++ le16 tr2.maxDataCount ++ [tr2.maxSetupCount] ++ [tr2.reserved] ++
    le16 tr2.flags ++ le32 tr2.timeout ++ le16 tr2.reserve2,
    le16 tr2.dataCount ++ le16 tr2.dataOffset ++ [tr2.setupCount] ++ [tr2.reserved3] ++
    le16 tr2.cmd, ?_, ?_, ?_⟩
  · delta SmbTrans2Req.bytes
    simp only [List.append_assoc]
  · simp only [List.length_append, List.length_cons, List.length_nil, le16_length, le32_length]
  · simp only [List.length_append, List.length_cons, List.length_nil, le16_length]

/-- A TRANS2 request that fits a frame. -/
theorem trans2Msg_holds (P : Platform) (tid : UInt16) (tr2 : SmbTrans2Req)
    {params utf : List UInt8} {padding : Nat}
    (hlen : smbHeaderSize + SmbTrans2Req.size + params.length + utf.length + padding ≤ 65535) :
    (smbTrans2Msg P tid tr2 params utf padding).bytes.length =
        smbHeaderSize + SmbTrans2Req.size + params.length + utf.length + padding ∧
      HoldsBlock (smbTrans2Msg P tid tr2 params utf padding).bytes trans2Fields tr2.paramCount
        tr2.paramOffset tr2.bct ([0, 0, 0] ++ params ++ utf ++ List.replicate padding 0) := by
  have hsize := trans2Req_length tr2
  obtain ⟨front, middle, hbytes, hfront, hmiddle⟩ := trans2Req_split tr2
  have hbuilds := trans2Msg_builds P tid tr2 params utf padding (by rw [hsize]; omega)
  constructor
  · rw [hbuilds.bytes_length]
    simp only [List.length_append, List.length_replicate, hsize]
    omega
  · rw [hbytes] at hbuilds
    simp only [List.append_assoc] at hbuilds
    simp only [List.append_assoc]
    exact hbuilds.holdsBlock (by rw [hfront]; rfl) rfl (by rw [hmiddle]; rfl)

/-- The parameters start right behind the padding, so a right count covers them. -/
theorem trans2Msg_counted_iff (P : Platform) (tid : UInt16) {tr2 : SmbTrans2Req}
    {params utf : List UInt8} {padding : Nat} (hoffset : tr2.paramOffset = 68)
    (hcount : tr2.paramCount = UInt16.ofNat (params.length + utf.length))
    (hlen : smbHeaderSize + SmbTrans2Req.size + params.length + utf.length + padding ≤ 65535) :
    Counted (smbTrans2Msg P tid tr2 params utf padding).bytes trans2Fields ↔
      tr2.bct.toNat = 3 + params.length + utf.length + padding := by
  rw [smbHeaderSize, SmbTrans2Req.size] at hlen
  have hparams : tr2.paramCount.toNat = params.length + utf.length := by
    rw [hcount, UInt16.toNat_ofNat', Nat.mod_eq_of_lt (by omega)]
  have hstart : tr2.paramOffset.toNat = 68 := by rw [hoffset]; rfl
  have hbct : trans2Fields.bct = 63 := rfl
  rw [(trans2Msg_holds P tid tr2 hlen).2.counted_iff, hparams, hstart, hbct]
  simp only [List.length_append, List.length_replicate, List.length_cons, List.length_nil]
  omega

/-- A search request for the pattern `utf`: the two searches differ in their parameters only. -/
def FindMsg (P : Platform) (tid : UInt16) (utf : List UInt8) (msg : SmbMessage) : Prop :=
  ∃ (tr2 : SmbTrans2Req) (params : List UInt8),
    msg = smbTrans2Msg P tid tr2 params utf (smbTr2Padding (params.length + utf.length + 3)) ∧
      params.length = 12 ∧ tr2.paramOffset = 68 ∧
      tr2.paramCount = UInt16.ofNat (params.length + utf.length) ∧
      tr2.bct = UInt16.ofNat (params.length + utf.length + 3 +
        smbTr2Padding (params.length + utf.length + 3))

theorem findFirstReq_find (P : Platform) (tid : UInt16) (utf : List UInt8) :
    FindMsg P tid utf (smbTrans2FindFirstReq P tid utf) :=
  ⟨_, _, rfl, rfl, rfl, rfl, rfl⟩

theorem findNextReq_find (P : Platform) (tid resumeKey sid : UInt16) (utf : List UInt8) :
    FindMsg P tid utf (smbTrans2FindNextReq P tid resumeKey sid utf) :=
  ⟨_, _, rfl, rfl, rfl, rfl, rfl⟩

/-- The size of a search request. -/
def findSize (utf : List UInt8) : Nat :=
  smbHeaderSize + SmbTrans2Req.size + 12 + utf.length + smbTr2Padding (12 + utf.length + 3)

/-- A search counts the three bytes, and the padding that it adds itself. -/
theorem FindMsg.counted {P : Platform} {tid : UInt16} {utf : List UInt8} {msg : SmbMessage}
    (h : FindMsg P tid utf msg) (hsize : findSize utf ≤ 65535) :
    msg.bytes.length = findSize utf ∧ Counted msg.bytes trans2Fields := by
  obtain ⟨tr2, params, rfl, hparams, hoffset, hcount, hbct⟩ := h
  rw [findSize, ← hparams] at hsize ⊢
  refine ⟨(trans2Msg_holds P tid tr2 hsize).1, ?_⟩
  apply (trans2Msg_counted_iff P tid hoffset hcount hsize).mpr
  rw [smbHeaderSize, SmbTrans2Req.size] at hsize
  rw [hbct, UInt16.toNat_ofNat', Nat.mod_eq_of_lt (by omega)]
  omega

/-- `padding` of `smb_fstat`, for a path of this length. -/
def fstatPadding (n : Nat) : Nat := (4 - (SmbTrans2Req.size + SmbTr2Query.size + n) % 4) % 4

/-- The size of the request of `smb_fstat`. -/
def fstatSize (utf : List UInt8) : Nat :=
  smbHeaderSize + SmbTrans2Req.size + 6 + utf.length + fstatPadding utf.length

/-- The count of `smb_fstat` leaves out the three bytes. -/
theorem fstatReq_not_counted (P : Platform) (tid : UInt16) (utf : List UInt8)
    (hsize : fstatSize utf ≤ 65535) :
    (smbFstatReq P tid utf).bytes.length = fstatSize utf ∧
      ¬ Counted (smbFstatReq P tid utf).bytes trans2Fields := by
  have hbuilt : ∃ (tr2 : SmbTrans2Req) (params : List UInt8),
      smbFstatReq P tid utf = smbTrans2Msg P tid tr2 params utf (fstatPadding utf.length) ∧
      params.length = 6 ∧ tr2.paramOffset = 68 ∧
      tr2.paramCount = UInt16.ofNat (utf.length + 6) ∧
      tr2.bct = UInt16.ofNat (6 + utf.length + fstatPadding utf.length) :=
    ⟨_, _, rfl, rfl, rfl, rfl, rfl⟩
  obtain ⟨tr2, params, hreq, hparams, hoffset, hcount, hbct⟩ := hbuilt
  rw [Nat.add_comm, ← hparams] at hcount
  rw [fstatSize, ← hparams] at hsize ⊢
  rw [hreq, trans2Msg_counted_iff P tid hoffset hcount hsize]
  refine ⟨(trans2Msg_holds P tid tr2 hsize).1, ?_⟩
  rw [smbHeaderSize, SmbTrans2Req.size] at hsize
  rw [hbct, UInt16.toNat_ofNat', Nat.mod_eq_of_lt (by omega)]
  omega

/-! ### WRITE -/

theorem writeReq_split (r : SmbWriteReq) : ∃ front middle : List UInt8,
    r.bytes = front ++ (le16 r.dataLen ++ (le16 r.dataOffset ++ (middle ++
      (le16 r.bct ++ [r.padding])))) ∧ front.length = 21 ∧ middle.length = 4 := by
  refine ⟨[r.wct] ++ smbAndxMembers ++ le16 r.fid ++ le32 r.offset ++ le32 r.timeout ++
    le16 r.writeMode ++ le16 r.remaining ++ le16 r.reserved, le32 r.offsetHigh, ?_, ?_, ?_⟩
  · delta SmbWriteReq.bytes
    simp only [List.append_assoc]
  · simp only [List.length_append, List.length_cons, List.length_nil, le16_length, le32_length,
      smbAndxMembers]
  · exact le32_length _

/-- A WRITE request: the structure, the padding byte at its end, and the data. -/
theorem writeMsg_holds {msg : SmbMessage} {r : SmbWriteReq} {data : List UInt8}
    (h : Builds msg ((r.bytes ++ data).map some)) :
    msg.bytes.length = smbHeaderSize + SmbWriteReq.size + data.length ∧
      HoldsBlock msg.bytes writeFields r.dataLen r.dataOffset r.bct ([r.padding] ++ data) := by
  obtain ⟨front, middle, hbytes, hfront, hmiddle⟩ := writeReq_split r
  constructor
  · rw [h.bytes_length, List.length_append, hbytes, SmbWriteReq.size]
    simp only [List.length_append, hfront, hmiddle, le16_length, List.length_singleton]
    omega
  · rw [hbytes] at h
    simp only [List.append_assoc] at h
    exact h.holdsBlock (by rw [hfront]; rfl) rfl (by rw [hmiddle]; rfl)

/-- The request of `smb_fwrite`: the data are as much of the buffer as fits a frame, and the count is
that of the data. -/
theorem fwriteReq_builds (P : Platform) (file : SmbFile) (buf : List UInt8) :
    ∃ r : SmbWriteReq,
      Builds (smbFwriteReq P file buf) ((r.bytes ++ buf.take (min smbMaxWrite buf.length)).map some) ∧
        r.dataLen = UInt16.ofNat (min smbMaxWrite buf.length) ∧ r.dataOffset = 64 ∧
        r.bct = UInt16.ofNat (min smbMaxWrite buf.length) ∧ r.padding = 0 := by
  have hbuilt : ∃ r : SmbWriteReq, smbFwriteReq P file buf =
        smbMessageAppend (smbMessageAppend ((smbMessageNew P smbCmdWrite).setTid file.tid) r.bytes)
          (buf.take (min smbMaxWrite buf.length)) ∧
      r.dataLen = UInt16.ofNat (min smbMaxWrite buf.length) ∧ r.dataOffset = 64 ∧
      r.bct = UInt16.ofNat (min smbMaxWrite buf.length) ∧ r.padding = 0 :=
    ⟨_, rfl, rfl, rfl, rfl, rfl⟩
  obtain ⟨r, hreq, hfields⟩ := hbuilt
  obtain ⟨front, middle, hbytes, hfront, hmiddle⟩ := writeReq_split r
  have hsize : r.bytes.length = 32 := by
    rw [hbytes]
    simp [hfront, hmiddle]
  have hmax : smbMaxWrite = 65471 := rfl
  have hdata : (buf.take (min smbMaxWrite buf.length)).length ≤ 65471 := by
    rw [List.length_take]
    omega
  have hcarries := ((Carries.new P smbCmdWrite file.tid).append r.bytes
    (by rw [hsize]; decide)).append (buf.take (min smbMaxWrite buf.length))
    (by rw [List.nil_append, hsize]; omega)
  rw [← hreq, List.nil_append] at hcarries
  exact ⟨r, hcarries.builds, hfields⟩

/-- The count of `smb_fwrite` is that of the data, and the padding byte comes before them. -/
theorem fwriteReq_holds (P : Platform) (file : SmbFile) (buf : List UInt8) :
    (smbFwriteReq P file buf).bytes.length =
        smbHeaderSize + SmbWriteReq.size + min smbMaxWrite buf.length ∧
      HoldsBlock (smbFwriteReq P file buf).bytes writeFields
        (UInt16.ofNat (min smbMaxWrite buf.length)) 64
        (UInt16.ofNat (min smbMaxWrite buf.length))
        ([0] ++ buf.take (min smbMaxWrite buf.length)) := by
  obtain ⟨r, hbuilds, hlen, hoffset, hbct, hpadding⟩ := fwriteReq_builds P file buf
  obtain ⟨hlength, hholds⟩ := writeMsg_holds hbuilds
  rw [hlen, hoffset, hbct, hpadding] at hholds
  refine ⟨?_, hholds⟩
  rw [hlength, List.length_take]
  omega

/-! ### The four operations -/

/-- A call that builds such a request; for a write, `file` is the one of the descriptor. -/
inductive PaddedRequest where
  | findFirst (tid : UInt16) (pattern : List UInt8)
  | findNext (tid resumeKey sid : UInt16) (pattern : List UInt8)
  | fstat (tid : UInt16) (path : List UInt8)
  | fwrite (file : SmbFile) (buf : List UInt8)

namespace PaddedRequest

variable (P : Platform)

/-- What the call hands to `smb_session_send_msg`: nothing if its text does not convert. -/
def handed : PaddedRequest → Option SmbMessage
  | findFirst tid pattern =>
    let utf := smbToUtf16 P (pattern ++ [0])
    if utf = [] then none else some (smbTrans2FindFirstReq P tid utf)
  | findNext tid resumeKey sid pattern =>
    let utf := smbToUtf16 P (pattern ++ [0])
    if utf = [] then none else some (smbTrans2FindNextReq P tid resumeKey sid utf)
  | fstat tid path =>
    let utf := smbToUtf16 P (path ++ [0])
    if utf = [] then none else some (smbFstatReq P tid utf)
  | fwrite file buf => some (smbFwriteReq P file buf)

/-- The size of the message: its fixed parts, the text or the data, and the padding at the end. -/
def size : PaddedRequest → Nat
  | findFirst _ pattern | findNext _ _ _ pattern => findSize (smbToUtf16 P (pattern ++ [0]))
  | fstat _ path => fstatSize (smbToUtf16 P (path ++ [0]))
  | fwrite _ buf => smbHeaderSize + SmbWriteReq.size + min smbMaxWrite buf.length

def fields : PaddedRequest → BlockFields
  | fwrite .. => writeFields
  | _ => trans2Fields

/-- The call is one of the two searches. -/
def isFind : PaddedRequest → Bool
  | findFirst .. | findNext .. => true
  | _ => false

end PaddedRequest

/-- The call sends requests like this one; those of a search differ in where they go on from. -/
def PaddedRequest.SentBy (s : SmbSession) : PaddedRequest → SmbOp → Prop
  | findFirst tid pattern, op | findNext tid _ _ pattern, op => op = .find tid pattern
  | fstat tid path, op => op = .fstat tid path
  | fwrite file buf, op => ∃ fd, smbSessionFileGet s fd = some file ∧ op = .fwrite fd buf

/-- The calls that send such requests. -/
def SmbOp.sendsPadded : SmbOp → Bool
  | .find .. | .fstat .. | .fwrite .. => true
  | _ => false

/-- What these calls offer to the socket are frames of such requests. -/
theorem padded_offered (P : Platform) {s : SmbSession} {op : SmbOp} {frame : List UInt8}
    (hop : op.sendsPadded = true) (hframe : frame ∈ op.offered P s) :
    ∃ (r : PaddedRequest) (msg : SmbMessage) (s' : SmbSession),
      r.SentBy s op ∧ r.handed P = some msg ∧ frame = s'.requestFrame msg := by
  cases op with
  | find tid pattern =>
    obtain ⟨msg, s', ⟨hutf, hmsg⟩, rfl⟩ := (find_offers P tid pattern s).offered hframe
    rcases hmsg with rfl | ⟨resumeKey, sid, rfl⟩
    · exact ⟨.findFirst tid pattern, _, s', rfl, if_neg hutf, rfl⟩
    · exact ⟨.findNext tid resumeKey sid pattern, _, s', rfl, if_neg hutf, rfl⟩
  | fstat tid path =>
    obtain ⟨msg, s', ⟨hutf, rfl⟩, rfl⟩ := (fstat_offers P tid path s).offered hframe
    exact ⟨.fstat tid path, _, s', rfl, if_neg hutf, rfl⟩
  | fwrite fd buf =>
    obtain ⟨msg, s', ⟨file, hfile, rfl⟩, rfl⟩ := (fwrite_offers P fd buf s).offered hframe
    exact ⟨.fwrite file buf, _, s', ⟨fd, hfile, rfl⟩, rfl, rfl⟩
  | _ => exact absurd hop Bool.false_ne_true

theorem fwriteReq_not_counted (P : Platform) (file : SmbFile) (buf : List UInt8) :
    ¬ Counted (smbFwriteReq P file buf).bytes writeFields := by
  have hmax : smbMaxWrite = 65471 := rfl
  rw [(fwriteReq_holds P file buf).2.counted_iff, UInt16.toNat_ofNat', Nat.mod_eq_of_lt (by omega)]
  rintro ⟨hcount, -, -⟩
  rw [List.length_append, List.length_take, List.length_singleton] at hcount
  omega

theorem PaddedRequest.counted_iff (P : Platform) (r : PaddedRequest) (msg : SmbMessage)
    (hmsg : r.handed P = some msg) (hsize : r.size P ≤ 65535) :
    msg.bytes.length = r.size P ∧ (Counted msg.bytes r.fields ↔ r.isFind = true) := by
  cases r with
  | findFirst tid pattern =>
    simp only [PaddedRequest.handed] at hmsg
    split at hmsg
    · cases hmsg
    · obtain rfl := Option.some.inj hmsg
      obtain ⟨hlength, hcounted⟩ := (findFirstReq_find P tid _).counted hsize
      exact ⟨hlength, iff_of_true hcounted rfl⟩
  | findNext tid resumeKey sid pattern =>
    simp only [PaddedRequest.handed] at hmsg
    split at hmsg
    · cases hmsg
    · obtain rfl := Option.some.inj hmsg
      obtain ⟨hlength, hcounted⟩ := (findNextReq_find P tid resumeKey sid _).counted hsize
      exact ⟨hlength, iff_of_true hcounted rfl⟩
  | fstat tid path =>
    simp only [PaddedRequest.handed] at hmsg
    split at hmsg
    · cases hmsg
    · obtain rfl := Option.some.inj hmsg
      obtain ⟨hlength, hcounted⟩ := fstatReq_not_counted P tid _ hsize
      exact ⟨hlength, iff_of_false hcounted Bool.false_ne_true⟩
  | fwrite file buf =>
    obtain rfl := Option.some.inj hmsg
    refine ⟨(fwriteReq_holds P file buf).1, ?_⟩
    exact iff_of_false (fwriteReq_not_counted P file buf) Bool.false_ne_true

/-- In the frame of the message as well. -/
theorem PaddedRequest.frame_counted_iff (P : Platform) (r : PaddedRequest) (msg : SmbMessage)
    (hmsg : r.handed P = some msg) (hsize : r.size P ≤ 65535) (s : SmbSession) :
    (frameMessage (s.requestFrame msg)).length = r.size P ∧
      (Counted (frameMessage (s.requestFrame msg)) r.fields ↔ r.isFind = true) := by
  obtain ⟨hlength, hcounted⟩ := r.counted_iff P msg hmsg hsize
  have hsent : (smbRequestBytes s.srv.uid msg).length = r.size P := by
    rw [← hlength, requestBytes_length, SmbMessage.bytes, Mem.read_length]
  have hfields : smbHeaderSize ≤ r.fields.bct ∧ smbHeaderSize ≤ r.fields.offset ∧
      smbHeaderSize ≤ r.fields.length := by
    cases r <;> simp [PaddedRequest.fields, trans2Fields, writeFields]
  rw [requestFrame_message s _ (by omega), counted_sent _ _ hfields.1 hfields.2.1 hfields.2.2]
  exact ⟨hsent, hcounted⟩

/-- Of the four requests the searches count their bytes right, and the other two on no input: in the
message that is handed over, and in every frame that a call offers to the socket. -/
theorem paddedRequest_counted_iff (P : Platform) :
    (∀ (r : PaddedRequest) (msg : SmbMessage), r.handed P = some msg → r.size P ≤ 65535 →
      msg.bytes.length = r.size P ∧ (Counted msg.bytes r.fields ↔ r.isFind = true)) ∧
    ∀ (s : SmbSession) (op : SmbOp), op.sendsPadded = true → ∀ frame ∈ op.offered P s,
      ∃ r : PaddedRequest, r.SentBy s op ∧ (r.size P ≤ 65535 →
        (frameMessage frame).length = r.size P ∧
          (Counted (frameMessage frame) r.fields ↔ r.isFind = true)) := by
  refine ⟨fun r msg => r.counted_iff P msg, fun s op hop frame hframe => ?_⟩
  obtain ⟨r, msg, s', hsent, hmsg, rfl⟩ := padded_offered P hop hframe
  exact ⟨r, hsent, fun hsize => r.frame_counted_iff P msg hmsg hsize s'⟩

/-- A search for everything in a directory. -/
theorem paddedRequest_counted_find :
    let r : PaddedRequest := .findFirst 1 (ascii "\\*")
    ∃ msg, r.handed .ascii = some msg ∧ r.size .ascii ≤ 65535 ∧ Counted msg.bytes r.fields := by
  have hmsg : (PaddedRequest.findFirst 1 (ascii "\\*")).handed .ascii =
      some (smbTrans2FindFirstReq .ascii 1 (smbToUtf16 .ascii (ascii "\\*" ++ [0]))) := by
    simp only [PaddedRequest.handed]
    exact if_neg (by decide +kernel)
  have hsize : (PaddedRequest.findFirst 1 (ascii "\\*")).size .ascii ≤ 65535 := by
    decide +kernel
  exact ⟨_, hmsg, hsize, ((paddedRequest_counted_iff .ascii).1 _ _ hmsg hsize).2.mpr rfl⟩

/-- The query of a path of one letter: twelve bytes are counted, and fifteen follow. -/
theorem paddedRequest_miscounted :
    ¬ ∀ (P : Platform) (r : PaddedRequest) (msg : SmbMessage),
      r.handed P = some msg → r.size P ≤ 65535 → Counted msg.bytes r.fields := by
  intro h
  have hmsg : (PaddedRequest.fstat 1 (ascii "a")).handed .ascii =
      some (smbFstatReq .ascii 1 (smbToUtf16 .ascii (ascii "a" ++ [0]))) := by
    simp only [PaddedRequest.handed]
    exact if_neg (by decide +kernel)
  have hcount := (h .ascii _ _ hmsg (by decide +kernel)).count
  revert hcount
  decide +kernel

end Libdsm
