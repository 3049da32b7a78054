import Libdsm.Smb.Proofs.Entries
import Libdsm.Smb.Proofs.Gather

/-!
# The placement of an answer's parts

A message of a TRANS2 answer says at which offsets its parameters and its data are, with any padding
before them. `smb_tr2_recv` and the two parsers look at neither offset: they take the parameters one
byte behind the byte count, the entries where the structure of the parameters ends, and the data of a
later message one byte behind its byte count. Here is an encoder for every placement, and which of them
are read like the one the code expects.
-/

namespace Libdsm

/-! ## Encodings -/

/-- The two answers of a search. -/
inductive FindKind where
  | first
  | next

namespace FindKind

/-- The bytes of the parameters. -/
def paramSize : FindKind → Nat
  | first => 10
  | next => 8

/-- The padding that the structure of the source has behind the parameters. -/
def gap : FindKind → Nat
  | first => 2
  | next => 0

/-- Where the count is in the parameters. -/
def countAt : FindKind → Nat
  | first => 2
  | next => 0

/-- Where the code takes the first entry to be. -/
def start (kind : FindKind) : Nat := SmbTrans2Resp.size + kind.paramSize + kind.gap

/-- `smb_find_first_parse` or `smb_find_next_parse`. -/
def parse (P : Platform) : FindKind → SmbMessage → List SmbFile
  | first, msg => smbFindFirstParse P msg []
  | next, msg => smbFindNextParse P msg []

end FindKind

/-- The bytes of the structure `smb_trans2_resp` before its padding. -/
def tr2FieldsSize : Nat := 23

/-- A message of a TRANS2 answer with these paddings before its parameters and its data. -/
def tr2Message (totalParams total displacement : Nat) (pad params gap piece : List UInt8) :
    List UInt8 :=
  let paramOffset := smbHeaderSize + tr2FieldsSize + pad.length
  let dataOffset := paramOffset + params.length + gap.length
  let bct := pad.length + params.length + gap.length + piece.length
  replyBytes 0 0 0 ([10] ++ (le16 (.ofNat totalParams) ++ (le16 (.ofNat total) ++ ([0, 0] ++
    (le16 (.ofNat params.length) ++ (le16 (.ofNat paramOffset) ++ ([0, 0] ++
      (le16 (.ofNat piece.length) ++ (le16 (.ofNat dataOffset) ++
        (le16 (.ofNat displacement) ++ ([0, 0] ++ (le16 (.ofNat bct) ++
          (pad ++ (params ++ (gap ++ piece)))))))))))))))

/-- The paddings of an answer: before the parameters and before the data of its first message, and
before the data of the others. The offsets they lead to are 16-bit numbers. -/
structure Tr2Pads (kind : FindKind) where
  params : List UInt8
  data : List UInt8
  later : List (List UInt8)
  data_fits : smbHeaderSize + tr2FieldsSize + params.length + kind.paramSize + data.length < 65536
  later_fit : ∀ pad ∈ later, smbHeaderSize + tr2FieldsSize + pad.length < 65536

/-- The parts are where the code takes them to be. -/
structure Tr2Pads.Fixed {kind : FindKind} (pads : Tr2Pads kind) : Prop where
  params : pads.params.length = 1
  data : pads.data.length = kind.gap
  later : ∀ pad ∈ pads.later, pad.length = 1

/-- The parameters and the data of an answer, and how the data are cut: a last message brings data. -/
structure FindContent (kind : FindKind) where
  params : List UInt8
  piece : List UInt8
  later : List (List UInt8)
  params_length : params.length = kind.paramSize
  fits : (piece ++ later.flatten).length < 65536
  complete : ∀ last, later.getLast? = some last → last ≠ []

/-- The messages after the first. -/
def encodeLater (totalParams total : Nat) :
    Nat → List (List UInt8) → List (List UInt8) → List (List UInt8)
  | displacement, pad :: pads, piece :: pieces =>
    tr2Message totalParams total displacement pad [] [] piece ::
      encodeLater totalParams total (displacement + piece.length) pads pieces
  | _, _, _ => []

variable {kind : FindKind}

/-- The length of the data. -/
def FindContent.total (content : FindContent kind) : Nat :=
  (content.piece ++ content.later.flatten).length

/-- The first message. -/
def encodeFirst (pads : Tr2Pads kind) (content : FindContent kind) : List UInt8 :=
  tr2Message kind.paramSize content.total 0 pads.params content.params pads.data content.piece

/-- The messages of an answer. -/
def encodeAnswer (pads : Tr2Pads kind) (content : FindContent kind) : List (List UInt8) :=
  encodeFirst pads content ::
    encodeLater kind.paramSize content.total content.piece.length pads.later content.later

/-! ## The fields of a message -/

theorem replyBytes_drop (status : UInt32) (tid uid : UInt16) (payload : List UInt8) (off : Nat) :
    (replyBytes status tid uid payload).drop (smbHeaderSize + off) = payload.drop off := by
  have hheader : (smbMagic ++ [0] ++ le32 status ++ List.replicate 15 0 ++ le16 tid ++ [0, 0] ++
      le16 uid ++ [0, 0]).length = smbHeaderSize := rfl
  rw [replyBytes, ← hheader, List.drop_append, Nat.add_sub_cancel_left,
    List.drop_of_length_le (Nat.le_add_right _ _), List.nil_append]

theorem replyBytes_length (status : UInt32) (tid uid : UInt16) (payload : List UInt8) :
    (replyBytes status tid uid payload).length = smbHeaderSize + payload.length := by
  rw [replyBytes, List.length_append]
  rfl

/-- A field of the payload. -/
theorem replyU16_field {status : UInt32} {tid uid : UInt16} {payload : List UInt8} {off n : Nat}
    (h : (payload.drop off).take 2 = le16 (.ofNat n)) (hn : n < 65536) :
    (replyU16 (replyBytes status tid uid payload) (smbHeaderSize + off)).toNat = n := by
  have hx : (UInt16.ofNat n).toNat % 256 ^ 2 = (UInt16.ofNat n).toNat :=
    Nat.mod_eq_of_lt (UInt16.toNat_lt _)
  rw [replyU16, replyBytes_drop, h, le16, leNat_leBytes, hx, UInt16.ofNat_toNat,
    UInt16.toNat_ofNat_of_lt' hn]

section Message

variable (totalParams total displacement : Nat) (pad params gap piece : List UInt8)

theorem tr2Message_length :
    (tr2Message totalParams total displacement pad params gap piece).length =
      smbHeaderSize + tr2FieldsSize + (pad.length + params.length + gap.length + piece.length) := by
  rw [tr2Message, replyBytes_length, tr2FieldsSize]
  simp only [List.length_append, le16_length, List.length_cons, List.length_nil]
  omega

theorem tr2Message_body :
    (tr2Message totalParams total displacement pad params gap piece).drop
      (smbHeaderSize + tr2FieldsSize) = pad ++ (params ++ (gap ++ piece)) := by
  rw [tr2Message, replyBytes_drop]
  rfl

theorem tr2Message_total (h : total < 65536) :
    (replyU16 (tr2Message totalParams total displacement pad params gap piece)
      (smbHeaderSize + 3)).toNat = total := by
  rw [tr2Message]
  exact replyU16_field rfl h

theorem tr2Message_count (h : piece.length < 65536) :
    (replyU16 (tr2Message totalParams total displacement pad params gap piece)
      (smbHeaderSize + 13)).toNat = piece.length := by
  rw [tr2Message]
  exact replyU16_field rfl h

theorem tr2Message_displacement (h : displacement < 65536) :
    (replyU16 (tr2Message totalParams total displacement pad params gap piece)
      (smbHeaderSize + 17)).toNat = displacement := by
  rw [tr2Message]
  exact replyU16_field rfl h

end Message

section Held

variable {totalParams total displacement : Nat} {pad params gap piece : List UInt8}
variable {msg : SmbMessage}
variable (h : msg.Holds (tr2Message totalParams total displacement pad params gap piece))

include h

theorem held_size :
    msg.payloadSize = tr2FieldsSize + (pad.length + params.length + gap.length + piece.length) := by
  have hlen := h.length
  rw [tr2Message_length] at hlen
  omega

/-- What the message has behind its fields. -/
theorem held_body :
    msg.payload.read tr2FieldsSize (pad.length + params.length + gap.length + piece.length) =
      pad ++ (params ++ (gap ++ piece)) := by
  have hsize := held_size h
  rw [SmbMessage.payload, Mem.read_shift, h.read_eq (by omega), tr2Message_body]
  apply List.take_of_length_le
  simp only [List.length_append]
  omega

theorem held_byte {j : Nat} {b : UInt8}
    (hj : (pad ++ (params ++ (gap ++ piece)))[j]? = some b) :
    msg.payload (tr2FieldsSize + j) = b := by
  obtain ⟨hlt, -⟩ := List.getElem?_eq_some_iff.mp hj
  simp only [List.length_append] at hlt
  rw [← held_body h, Mem.read_getElem? _ _ _ _ (by omega), Option.some.injEq] at hj
  exact hj

variable (htotal : total < 65536)

include htotal

theorem held_total : tr2Total msg = total := by
  have hsize := held_size h
  rw [tr2FieldsSize] at hsize
  rw [tr2Total, SmbTrans2Resp.totalDataCount, h.payload_u16_eq (by omega)]
  exact tr2Message_total _ _ _ _ _ _ _ htotal

variable (hpiece : displacement + piece.length ≤ total)

include hpiece

theorem held_count : tr2Count msg = piece.length := by
  have hsize := held_size h
  rw [tr2FieldsSize] at hsize
  rw [tr2Count, SmbTrans2Resp.dataCount, h.payload_u16_eq (by omega)]
  exact tr2Message_count _ _ _ _ _ _ _ (by omega)

theorem held_remaining :
    smbTr2Remaining msg.payload = (total - (displacement + piece.length) : Nat) := by
  have hsize := held_size h
  rw [tr2FieldsSize] at hsize
  have hdisp : (SmbTrans2Resp.dataDisplacement msg.payload).toNat = displacement := by
    rw [SmbTrans2Resp.dataDisplacement, h.payload_u16_eq (by omega)]
    exact tr2Message_displacement _ _ _ _ _ _ _ (by omega)
  have htot := held_total h htotal
  have hcount := held_count h htotal hpiece
  rw [tr2Total] at htot
  rw [tr2Count] at hcount
  rw [smbTr2Remaining, htot, hcount, hdisp]
  omega

end Held

/-! ## Reading an answer -/

/-- The messages that wait are the next to come. -/
theorem Talks.incoming {room : Nat} {s : SmbSession} {pending : List (List UInt8)}
    (h : Talks room s pending []) (hlong : ∀ m ∈ pending, smbHeaderSize < m.length) :
    ∃ msgs more, s.incoming = msgs ++ more ∧ List.Forall₂ SmbMessage.Holds msgs pending := by
  induction pending generalizing s with
  | nil => exact ⟨[], s.incoming, rfl, .nil⟩
  | cons m pending ih =>
    obtain ⟨msg, s', hrecv, hholds, htalks⟩ := h.recv (hlong m List.mem_cons_self)
    obtain ⟨msgs, more, hin, hall⟩ := ih htalks fun m hm => hlong m (List.mem_cons_of_mem _ hm)
    refine ⟨msg :: msgs, more, ?_, .cons hholds hall⟩
    rw [incoming_some hrecv, hin]
    rfl

theorem flatten_ne_nil {pieces : List (List UInt8)} (hne : pieces ≠ [])
    (h : ∀ last, pieces.getLast? = some last → last ≠ []) : pieces.flatten ≠ [] := by
  intro hnil
  have hlast := List.getLast?_eq_some_getLast hne
  exact h _ hlast (List.flatten_eq_nil_iff.mp hnil _ (List.getLast_mem hne))

/-- The loop takes all of the later messages. -/
theorem tr2Taken_later {totalParams total displacement : Nat} {pads pieces : List (List UInt8)}
    (hpads : pads.length = pieces.length) (htotal : total < 65536)
    (hdata : displacement + pieces.flatten.length = total)
    (hcomplete : ∀ last, pieces.getLast? = some last → last ≠ [])
    {msgs : List SmbMessage}
    (h : List.Forall₂ SmbMessage.Holds msgs
      (encodeLater totalParams total displacement pads pieces)) :
    (∀ more, tr2Taken (pieces.flatten.length : Int) (msgs ++ more) = msgs) ∧
      msgs.map tr2Count = pieces.map List.length := by
  induction pieces generalizing displacement pads msgs with
  | nil =>
    rw [List.length_nil, List.length_eq_zero_iff] at hpads
    subst hpads
    cases h
    exact ⟨fun more => tr2Taken_nil (by simp) more, rfl⟩
  | cons piece pieces ih =>
    cases pads with
    | nil => cases hpads
    | cons pad pads =>
      cases h with
      | @cons msg _ msgs _ hholds hrest =>
        rw [List.flatten_cons, List.length_append] at hdata ⊢
        have hpos : 0 < piece.length + pieces.flatten.length := by
          have hlen := List.length_pos_iff.mpr (flatten_ne_nil (List.cons_ne_nil _ _) hcomplete)
          rwa [List.flatten_cons, List.length_append] at hlen
        have hremaining := held_remaining hholds htotal (by omega)
        have hleft : total - (displacement + piece.length) = pieces.flatten.length := by omega
        have htail : ∀ last, pieces.getLast? = some last → last ≠ [] := by
          intro last hlast
          refine hcomplete last ?_
          rw [List.getLast?_cons, hlast, Option.getD_some]
        obtain ⟨htaken, hcounts⟩ := ih (by simpa using hpads) (by omega) htail hrest
        refine ⟨?_, ?_⟩
        · intro more
          rw [List.cons_append, tr2Taken, if_pos (by omega), hremaining, hleft, htaken]
        · rw [List.map_cons, List.map_cons, hcounts, held_count hholds htotal (by omega)]

theorem encodeLater_long {totalParams total displacement : Nat} {pads pieces : List (List UInt8)}
    {m : List UInt8} (h : m ∈ encodeLater totalParams total displacement pads pieces) :
    smbHeaderSize < m.length := by
  induction pieces generalizing displacement pads with
  | nil => cases pads <;> exact absurd h List.not_mem_nil
  | cons piece pieces ih =>
    cases pads with
    | nil => exact absurd h List.not_mem_nil
    | cons pad pads =>
      rcases List.mem_cons.mp h with rfl | hrest
      · rw [tr2Message_length, tr2FieldsSize]
        omega
      · exact ih hrest

theorem FindContent.total_eq (content : FindContent kind) :
    content.total = content.piece.length + content.later.flatten.length := List.length_append

/-- What `smb_tr2_recv` makes of an encoding: the first message as it came, and behind it what the loop
reads of the others. -/
theorem tr2Recv_encoded (P : Platform) {s : SmbSession} {pads : Tr2Pads kind}
    {content : FindContent kind} (hlater : pads.later.length = content.later.length)
    (h : Talks 0 s (encodeAnswer pads content) []) :
    ∃ taken msg, (smbTr2Recv P s).1 = some msg ∧
      List.Forall₂ SmbMessage.Holds taken (encodeLater kind.paramSize content.total
        content.piece.length pads.later content.later) ∧
      taken.map tr2Count = content.later.map List.length ∧
      msg.payload = (P.heap.shift smbHeaderSize).write 0
        ((encodeFirst pads content).drop smbHeaderSize ++ taken.flatMap fun recv =>
          recv.payload.read SmbTrans2Resp.size (tr2Count recv)) ∧
      msg.payloadSize = tr2FieldsSize + (pads.params.length + content.params.length +
        pads.data.length + content.piece.length) + content.later.flatten.length +
          tr2Room content.later.flatten.length (content.later.map List.length) := by
  have hlong : ∀ m ∈ encodeAnswer pads content, smbHeaderSize < m.length := by
    intro m hm
    rcases List.mem_cons.mp hm with rfl | hm
    · rw [encodeFirst, tr2Message_length, tr2FieldsSize]
      omega
    · exact encodeLater_long hm
  obtain ⟨msgs, more, hin, hall⟩ := h.incoming hlong
  cases hall with
  | @cons first _ taken _ hfirst htaken =>
    rw [List.cons_append] at hin
    have htotal : content.total < 65536 := content.fits
    have hparts := content.total_eq
    have hcount := held_count hfirst htotal (by omega)
    have hfirstTotal := held_total hfirst htotal
    have hsize := held_size hfirst
    have hremaining := held_remaining hfirst htotal (by omega)
    have hleft : content.total - (0 + content.piece.length) = content.later.flatten.length := by
      omega
    rw [hleft] at hremaining
    obtain ⟨hloop, hcounts⟩ := tr2Taken_later hlater htotal (by omega) content.complete htaken
    have hsmall : first.payloadSize < 131072 :=
      incoming_small (by rw [hin]; exact List.mem_cons_self)
    have hsum : (taken.map tr2Count).sum = content.later.flatten.length := by
      rw [hcounts, List.length_flatten]
    obtain ⟨grown, hgrow, hgrown, hgathered⟩ := @gathered_grown P first (by omega)
      (by rw [← tr2Count, ← tr2Total, hcount, hfirstTotal]; omega)
    have hcopied : ({ grown with cursor := first.payloadSize } : SmbMessage).payload =
        (P.heap.shift smbHeaderSize).write 0 (first.payload.read 0 first.payloadSize) :=
      (grow_some hgrow).2
    have hheld : first.payload.read 0 first.payloadSize =
        (encodeFirst pads content).drop smbHeaderSize := hfirst.payload_read
    have hpayload := @appended_payload _ _ hgathered _ hcopied taken
      (by rw [Mem.read_length]; omega)
    have hroom := (@gathered_appended _ _ hgathered taken (by rw [Mem.read_length]; omega)).2
    refine ⟨taken, taken.foldl tr2Append { grown with cursor := first.payloadSize }, ?_, htaken,
      hcounts, ?_, ?_⟩
    · rw [tr2Recv_some P hin, hgrow, hremaining, hloop more, Option.map_some]
    · rw [hpayload, hheld]
    · rw [hroom, Mem.read_length, hsum, hcounts, hsize]
      congr 2
      show grown.payloadSize - _ = _
      rw [hgrown, ← tr2Count, ← tr2Total, hcount, hfirstTotal]
      omega

/-! ## Parsing -/

/-- The parsers are one, at the places of the kind. -/
theorem FindKind.parse_eq (P : Platform) (kind : FindKind) (msg : SmbMessage) :
    kind.parse P msg = smbTr2Find2ParseEntries P msg.payload msg.payloadSize
      ((smbTr2Params msg).u16 kind.countAt).toNat kind.start [] := by
  cases kind <;> rfl

/-- The walk looks at nothing before its start. -/
theorem parseEntries_congr (P : Platform) {payload payload' : Mem} (eod count : Nat) {iter : Nat}
    (files : List SmbFile) (h : payload.shift iter = payload'.shift iter) :
    smbTr2Find2ParseEntries P payload eod count iter files =
      smbTr2Find2ParseEntries P payload' eod count iter files := by
  induction count generalizing iter files with
  | zero => rfl
  | succ count ih =>
    rw [smbTr2Find2ParseEntries, smbTr2Find2ParseEntries, h]
    dsimp only
    split
    · split
      · rfl
      · apply ih
        funext i
        have hat := congrFun h ((SmbTr2Find2Entry.nextEntry (payload'.shift iter)).toNat + i)
        rw [Mem.shift_apply, Mem.shift_apply] at hat
        rw [Mem.shift_apply, Mem.shift_apply, Nat.add_assoc]
        exact hat
    · rfl

/-- The file that is listed last is that of the first entry. -/
theorem FindKind.parse_getLast? (P : Platform) (kind : FindKind) (msg : SmbMessage) :
    (kind.parse P msg).getLast? =
      if ((smbTr2Params msg).u16 kind.countAt).toNat ≠ 0 ∧ kind.start < msg.payloadSize then
        entryFile P msg.payload kind.start
      else none := by
  rw [FindKind.parse_eq, parseEntries_visited, List.append_nil, List.getLast?_reverse]
  cases ((smbTr2Params msg).u16 kind.countAt).toNat with
  | zero => rfl
  | succ count =>
    by_cases hstart : kind.start < msg.payloadSize
    · rw [if_pos ⟨Nat.succ_ne_zero _, hstart⟩]
      by_cases hname : EntryConverts P msg.payload kind.start
      · obtain ⟨file, hfile⟩ := entryFile_some hname
        rw [entriesVisited_go hstart hname, List.filterMap_cons_some hfile, hfile]
        rfl
      · rw [entriesVisited_stop hstart hname, List.filterMap_cons_none (entryFile_none hname),
          entryFile_none hname]
        rfl
    · rw [if_neg (fun h => hstart h.2), entriesVisited, if_neg hstart]
      rfl

/-- What the code lists for an answer that arrives on a session. -/
def findListed (P : Platform) (kind : FindKind) (s : SmbSession) : Option (List SmbFile) :=
  (smbTr2Recv P s).1.map (kind.parse P)

/-! ## The placement that the code expects -/

theorem later_read {totalParams total displacement : Nat} {pads pieces : List (List UInt8)}
    (hpads : ∀ pad ∈ pads, pad.length = 1) (hlater : pads.length = pieces.length)
    (htotal : total < 65536) (hdata : displacement + pieces.flatten.length = total)
    {taken : List SmbMessage}
    (h : List.Forall₂ SmbMessage.Holds taken
      (encodeLater totalParams total displacement pads pieces)) :
    (taken.flatMap fun recv => recv.payload.read SmbTrans2Resp.size (tr2Count recv)) =
      pieces.flatten := by
  induction pieces generalizing displacement pads taken with
  | nil =>
    rw [List.length_nil, List.length_eq_zero_iff] at hlater
    subst hlater
    cases h
    rfl
  | cons piece pieces ih =>
    cases pads with
    | nil => cases hlater
    | cons pad pads =>
      cases h with
      | @cons recv _ taken _ hholds hrest =>
        rw [List.flatten_cons, List.length_append] at hdata
        have hpad := hpads pad List.mem_cons_self
        have hbody := held_body hholds
        have hcount := held_count hholds htotal (by omega)
        rw [hpad, List.length_nil, Nat.add_zero, Mem.read_add] at hbody
        obtain ⟨-, hread⟩ := List.append_inj hbody (by rw [Mem.read_length, hpad])
        rw [List.flatMap_cons, List.flatten_cons, hcount,
          ih (fun pad h => hpads pad (List.mem_cons_of_mem _ h)) (by simpa using hlater) (by omega)
            hrest]
        congr 1

/-- The message made of an encoding at the expected places, from the parameters on. -/
theorem tr2Recv_fixed (P : Platform) {s : SmbSession} {pads : Tr2Pads kind} (hfixed : pads.Fixed)
    {content : FindContent kind} (hlater : pads.later.length = content.later.length)
    (h : Talks 0 s (encodeAnswer pads content) []) :
    ∃ msg, (smbTr2Recv P s).1 = some msg ∧
      smbTr2Params msg = (P.heap.shift (smbHeaderSize + SmbTrans2Resp.size)).write 0
        (content.params ++ (pads.data ++ (content.piece ++ content.later.flatten))) ∧
      msg.payloadSize = kind.start + content.total +
        tr2Room content.later.flatten.length (content.later.map List.length) := by
  obtain ⟨taken, msg, hrecv, hall, hcounts, hpayload, hsize⟩ := tr2Recv_encoded P hlater h
  have hparts := content.total_eq
  have hread := later_read hfixed.later hlater content.fits hparts.symm hall
  refine ⟨msg, hrecv, ?_, ?_⟩
  · have hbody := tr2Message_body kind.paramSize content.total 0 pads.params content.params
      pads.data content.piece
    have hpad := hfixed.params
    have hfront : (((encodeFirst pads content).drop smbHeaderSize).take SmbTrans2Resp.size).length =
        SmbTrans2Resp.size := by
      rw [List.length_take, List.length_drop, encodeFirst, tr2Message_length, hpad, tr2FieldsSize,
        SmbTrans2Resp.size]
      omega
    have hrest : ((encodeFirst pads content).drop smbHeaderSize).drop SmbTrans2Resp.size =
        content.params ++ (pads.data ++ content.piece) := by
      have hone : (pads.params ++ (content.params ++ (pads.data ++ content.piece))).drop 1 =
          content.params ++ (pads.data ++ content.piece) := List.drop_left' hpad
      rw [← hone, ← hbody, List.drop_drop, List.drop_drop]
      rfl
    have hsplit := List.take_append_drop SmbTrans2Resp.size
      ((encodeFirst pads content).drop smbHeaderSize)
    rw [hrest] at hsplit
    rw [hread, ← hsplit, List.append_assoc, List.append_assoc, List.append_assoc] at hpayload
    have hshift := Mem.shift_write_append (P.heap.shift smbHeaderSize)
      (((encodeFirst pads content).drop smbHeaderSize).take SmbTrans2Resp.size)
      (content.params ++ (pads.data ++ (content.piece ++ content.later.flatten)))
    rw [← hpayload, hfront] at hshift
    rw [smbTr2Params, hshift]
    congr 1
    funext i
    rw [Mem.shift_apply, Mem.shift_apply, Mem.shift_apply, Nat.add_assoc]
  · have hparams := content.params_length
    rw [hsize, hfixed.params, hfixed.data, hparams, FindKind.start, tr2FieldsSize,
      SmbTrans2Resp.size]
    omega

theorem write_u16 (m : Mem) {xs : List UInt8} (ys : List UInt8) {off : Nat}
    (h : off + 2 ≤ xs.length) : (m.write 0 (xs ++ ys)).u16 off = replyU16 xs off := by
  have hread := Mem.read_write m 0 (xs ++ ys)
  have hpart := @Mem.read_part _ 0 off 2 _ hread (by rw [List.length_append]; omega)
  rw [Nat.zero_add, List.drop_append_of_le_length (by omega),
    List.take_append_of_le_length (by rw [List.length_drop]; omega)] at hpart
  rw [Mem.u16, hpart, replyU16]

theorem FindKind.countAt_le (kind : FindKind) : kind.countAt + 2 ≤ kind.paramSize := by
  cases kind <;> decide

/-- What is behind the parameters and the padding of their structure. -/
theorem payload_shift_start {msg : SmbMessage} {m : Mem} {params gap data : List UInt8}
    (h : smbTr2Params msg = m.write 0 (params ++ (gap ++ data)))
    (hparams : params.length = kind.paramSize) (hgap : gap.length = kind.gap) :
    msg.payload.shift kind.start = (m.shift (kind.paramSize + kind.gap)).write 0 data := by
  have hlen : (params ++ gap).length = kind.paramSize + kind.gap := by
    rw [List.length_append, hparams, hgap]
  have hshift := Mem.shift_write_append m (params ++ gap) data
  rw [List.append_assoc, ← h, hlen] at hshift
  rw [← hshift]
  funext i
  rw [smbTr2Params, Mem.shift_apply, Mem.shift_apply, Mem.shift_apply, FindKind.start]
  congr 1
  omega

/-- Encodings at the expected places are read alike. -/
theorem fixed_agree (P : Platform) {pads pads' : Tr2Pads kind} (hfixed : pads.Fixed)
    (hfixed' : pads'.Fixed) {content : FindContent kind}
    (hlater : pads.later.length = content.later.length)
    (hlater' : pads'.later.length = content.later.length) {s s' : SmbSession}
    (h : Talks 0 s (encodeAnswer pads content) [])
    (h' : Talks 0 s' (encodeAnswer pads' content) []) :
    findListed P kind s = findListed P kind s' := by
  obtain ⟨msg, hrecv, hparams, hsize⟩ := tr2Recv_fixed P hfixed hlater h
  obtain ⟨msg', hrecv', hparams', hsize'⟩ := tr2Recv_fixed P hfixed' hlater' h'
  have hlen := content.params_length
  have hcount := kind.countAt_le
  rw [findListed, findListed, hrecv, hrecv', Option.map_some, Option.map_some, FindKind.parse_eq,
    FindKind.parse_eq, hsize, hsize', hparams, hparams', write_u16 _ _ (by omega),
    write_u16 _ _ (by omega)]
  congr 1
  apply parseEntries_congr
  rw [payload_shift_start hparams hlen hfixed.data, payload_shift_start hparams' hlen hfixed'.data]

/-! ## Other placements -/

/-- Messages of any length that a frame has can arrive. -/
theorem delivers_exists {msgs : List (List UInt8)} (h : ∀ m ∈ msgs, m.length < 131072) :
    ∃ inbox, Delivers inbox msgs := by
  induction msgs with
  | nil => exact ⟨[], by simp [Chunks.Live], [], rfl, rfl⟩
  | cons m msgs ih =>
    obtain ⟨inbox, hinbox⟩ := ih fun m hm => h m (List.mem_cons_of_mem _ hm)
    have hm := h m List.mem_cons_self
    have hflag : m.length / 65536 = (UInt8.ofNat (m.length / 65536)).toNat % 2 := by
      rw [UInt8.toNat_ofNat']
      omega
    have hone : Delivers [Frame.encode ⟨0, UInt8.ofNat (m.length / 65536), m, hflag⟩] [m] :=
      @Delivers.frame ⟨0, _, m, hflag⟩ rfl
    exact ⟨_, hone.append hinbox⟩

/-- A session whose stream has these chunks. -/
def holding (inbox : List Chunk) : SmbSession where
  transport := { session := netbiosSessionOn (fun _ => 0) { Tcp.serving [] with inbox } 8192 }

theorem talks_holding {inbox : List Chunk} {msgs : List (List UInt8)} (h : Delivers inbox msgs) :
    Talks 0 (holding inbox) msgs [] := by
  refine ⟨rfl, h, ?_, ?_⟩
  · intro k reply hk
    rw [List.getElem?_nil] at hk
    cases hk
  · exact fun k hk => absurd hk (Nat.not_lt_zero k)

theorem encodeLater_short {totalParams total displacement : Nat} {pads pieces : List (List UInt8)}
    (hpads : ∀ pad ∈ pads, smbHeaderSize + tr2FieldsSize + pad.length < 65536)
    (hpieces : pieces.flatten.length < 65536) {m : List UInt8}
    (h : m ∈ encodeLater totalParams total displacement pads pieces) : m.length < 131072 := by
  induction pieces generalizing displacement pads with
  | nil => cases pads <;> exact absurd h List.not_mem_nil
  | cons piece pieces ih =>
    rw [List.flatten_cons, List.length_append] at hpieces
    cases pads with
    | nil => exact absurd h List.not_mem_nil
    | cons pad pads =>
      rcases List.mem_cons.mp h with rfl | hrest
      · have hpad := hpads pad List.mem_cons_self
        rw [tr2Message_length, List.length_nil]
        omega
      · exact ih (fun pad hpad => hpads pad (List.mem_cons_of_mem _ hpad)) (by omega) hrest

/-- Every encoding can arrive. -/
theorem arrives (pads : Tr2Pads kind) (content : FindContent kind) :
    ∃ s, Talks 0 s (encodeAnswer pads content) [] := by
  have hfits := content.fits
  rw [List.length_append] at hfits
  have hshort : ∀ m ∈ encodeAnswer pads content, m.length < 131072 := by
    intro m hm
    rcases List.mem_cons.mp hm with rfl | hm
    · have hdata := pads.data_fits
      have hparams := content.params_length
      rw [encodeFirst, tr2Message_length]
      omega
    · exact encodeLater_short pads.later_fit (by omega) hm
  obtain ⟨inbox, hinbox⟩ := delivers_exists hshort
  exact ⟨holding inbox, talks_holding hinbox⟩

/-- The expected placement, for an answer with `n` messages after the first. -/
def fixedPads (kind : FindKind) (n : Nat) : Tr2Pads kind where
  params := [0]
  data := List.replicate kind.gap 0
  later := List.replicate n [0]
  data_fits := by cases kind <;> decide
  later_fit := by
    intro pad hpad
    rw [(List.mem_replicate.mp hpad).2]
    decide

theorem fixedPads_fixed (kind : FindKind) (n : Nat) : (fixedPads kind n).Fixed where
  params := rfl
  data := List.length_replicate
  later := by
    intro pad hpad
    rw [(List.mem_replicate.mp hpad).2]
    rfl

/-- An entry with the name `a`, whose creation time has this low byte, everything else zero. -/
def createdTail : List UInt8 := List.replicate 51 0 ++ [2, 0, 0, 0] ++ List.replicate 30 0 ++ [97, 0]

def createdEntry (x : UInt8) : List UInt8 := List.replicate 8 0 ++ x :: createdTail

theorem createdEntry_length (x : UInt8) : (createdEntry x).length = 96 := rfl

/-- Parameters with this count, everything else zero. -/
def countParams (kind : FindKind) (lo hi : UInt8) : List UInt8 :=
  List.replicate kind.countAt 0 ++ [lo, hi] ++
    List.replicate (kind.paramSize - kind.countAt - 2) 0

theorem countParams_length (kind : FindKind) (lo hi : UInt8) :
    (countParams kind lo hi).length = kind.paramSize := by
  cases kind <;> rfl

/-- The creation time of a file is read off its entry. -/
theorem entryFile_created {P : Platform} {payload : Mem} {off : Nat} {file : SmbFile}
    (h : entryFile P payload off = some file) : file.created.toUInt8 = payload (off + 8) := by
  rw [entryFile] at h
  split at h
  · cases h
  · rw [← Option.some.inj h]
    show (UInt64.ofNat (leNat ((payload.shift off).read 8 8))).toUInt8 = _
    rw [Mem.read_succ, leNat, Mem.shift_apply]
    apply UInt8.toNat_inj.mp
    have hbyte := (payload (off + 8)).toNat_lt
    rw [UInt64.toNat_toUInt8, UInt64.toNat_ofNat']
    omega

/-- The entry converts where it stands at the start. -/
theorem createdEntry_converts {P : Platform} (hname : smbFromUtf16 P [97, 0] ≠ []) {payload : Mem}
    {off : Nat} {x : UInt8}
    (h : (payload.shift off).read 0 (createdEntry x).length = createdEntry x) :
    EntryConverts P payload off := by
  have hnameLen : SmbTr2Find2Entry.nameLen (payload.shift off) = 2 := by
    have hpart := @Mem.read_part _ 0 60 4 _ h (by rw [createdEntry_length]; omega)
    rw [Nat.zero_add] at hpart
    rw [SmbTr2Find2Entry.nameLen, Mem.u32, hpart]
    rfl
  have hread : (payload.shift off).read SmbTr2Find2Entry.size 2 = [97, 0] := by
    have hpart := @Mem.read_part _ 0 94 2 _ h (by rw [createdEntry_length])
    rw [Nat.zero_add] at hpart
    exact hpart
  rw [EntryConverts, entryName, hnameLen]
  show smbFromUtf16 P ((payload.shift off).read SmbTr2Find2Entry.size 2) ≠ []
  rw [hread]
  exact hname

/-- A message without a count, or with another byte where the code takes the creation time to be, is
not listed as one with the entry. -/
theorem parse_ne (P : Platform) (hname : smbFromUtf16 P [97, 0] ≠ []) {msg msg' : SmbMessage}
    {x : UInt8}
    (hentry : (msg'.payload.shift kind.start).read 0 (createdEntry x).length = createdEntry x)
    (hcount : ((smbTr2Params msg').u16 kind.countAt).toNat ≠ 0)
    (hsize : kind.start < msg'.payloadSize)
    (h : ((smbTr2Params msg).u16 kind.countAt).toNat = 0 ∨ msg.payload (kind.start + 8) ≠ x) :
    kind.parse P msg ≠ kind.parse P msg' := by
  intro heq
  have hlast := congrArg List.getLast? heq
  obtain ⟨file, hfile⟩ := entryFile_some (createdEntry_converts hname hentry)
  have hbyte : msg'.payload (kind.start + 8) = x := by
    have hpart := @Mem.read_part _ 0 8 1 _ hentry (by rw [createdEntry_length]; omega)
    rw [Nat.zero_add, Mem.read_shift, Mem.read_succ, Mem.read_zero] at hpart
    exact (List.cons.inj hpart).1
  have hlisted : (kind.parse P msg').getLast? = some file := by
    rw [FindKind.parse_getLast?, if_pos ⟨hcount, hsize⟩, hfile]
  rw [hlisted, FindKind.parse_getLast?] at hlast
  split at hlast
  · rename_i hcond
    rcases h with hzero | hother
    · exact hcond.1 hzero
    · exact hother ((entryFile_created hlast).symm.trans ((entryFile_created hfile).trans hbyte))
  · cases hlast

/-- Pieces of which the last has a byte and the others are empty. -/
def lastByte : Nat → List (List UInt8)
  | 0 => []
  | n + 1 => List.replicate n [] ++ [[0]]

theorem lastByte_length (n : Nat) : (lastByte n).length = n := by
  cases n with
  | zero => rfl
  | succ n => simp [lastByte]

theorem lastByte_flatten_le (n : Nat) : (lastByte n).flatten.length ≤ 1 := by
  cases n with
  | zero => exact Nat.zero_le _
  | succ n => simp [lastByte]

theorem lastByte_complete (n : Nat) {last : List UInt8} (h : (lastByte n).getLast? = some last) :
    last ≠ [] := by
  cases n with
  | zero => cases h
  | succ n =>
    rw [lastByte, List.getLast?_concat, Option.some.injEq] at h
    rw [← h]
    exact List.cons_ne_nil _ _

/-- An answer whose first message has the entry. -/
def entryFirst (kind : FindKind) (lo hi x : UInt8) (n : Nat) : FindContent kind where
  params := countParams kind lo hi
  piece := createdEntry x
  later := lastByte n
  params_length := countParams_length kind lo hi
  fits := by
    have hlast := lastByte_flatten_le n
    rw [List.length_append, createdEntry_length]
    omega
  complete := fun _ h => lastByte_complete n h

/-- An answer whose entry is cut before its creation time, which comes in the message behind `k` empty
ones. -/
def entryLater (kind : FindKind) (x : UInt8) (k n : Nat) : FindContent kind where
  params := countParams kind 1 0
  piece := List.replicate 8 0
  later := List.replicate k [] ++ (x :: createdTail) :: lastByte n
  params_length := countParams_length kind 1 0
  fits := by
    have hlast := lastByte_flatten_le n
    have htail : createdTail.length = 87 := rfl
    simp only [List.length_append, List.flatten_append, List.flatten_cons, List.length_replicate,
      List.flatten_replicate_nil, List.length_nil, List.length_cons, htail]
    omega
  complete := by
    intro last h
    rw [List.getLast?_append, List.getLast?_cons, Option.some_or, Option.some.injEq] at h
    cases hlast : (lastByte n).getLast? with
    | none =>
      rw [hlast, Option.getD_none] at h
      rw [← h]
      exact List.cons_ne_nil _ _
    | some piece =>
      rw [hlast, Option.getD_some] at h
      rw [← h]
      exact lastByte_complete n hlast

/-- On every answer the placement leads to the same files as the expected one. -/
def AgreesWithFixed (P : Platform) (pads : Tr2Pads kind) : Prop :=
  ∀ (pads' : Tr2Pads kind) (content : FindContent kind), pads'.Fixed →
    pads.later.length = content.later.length → pads'.later.length = content.later.length →
      ∀ s s', Talks 0 s (encodeAnswer pads content) [] →
        Talks 0 s' (encodeAnswer pads' content) [] → findListed P kind s = findListed P kind s'

/-- The entry is listed from the expected placement. An answer that this placement hides it in tells the
two apart. -/
theorem not_agrees (P : Platform) (hname : smbFromUtf16 P [97, 0] ≠ []) {pads : Tr2Pads kind}
    {content : FindContent kind} (hlater : pads.later.length = content.later.length)
    {lo hi x : UInt8} {rest : List UInt8} (hparams : content.params = countParams kind lo hi)
    (hcount : replyU16 (countParams kind lo hi) kind.countAt ≠ 0)
    (hdata : content.piece ++ content.later.flatten = createdEntry x ++ rest)
    (hother : ∀ s msg, Talks 0 s (encodeAnswer pads content) [] → (smbTr2Recv P s).1 = some msg →
      ((smbTr2Params msg).u16 kind.countAt).toNat = 0 ∨ msg.payload (kind.start + 8) ≠ x) :
    ¬ AgreesWithFixed P pads := by
  intro hagrees
  have hfixed := fixedPads_fixed kind content.later.length
  have hlater' : (fixedPads kind content.later.length).later.length = content.later.length :=
    List.length_replicate
  obtain ⟨s, hs⟩ := arrives pads content
  obtain ⟨s', hs'⟩ := arrives (fixedPads kind content.later.length) content
  obtain ⟨-, msg, hrecv, -⟩ := tr2Recv_encoded P hlater hs
  obtain ⟨msg', hrecv', hpayload, hsize⟩ := tr2Recv_fixed P hfixed hlater' hs'
  have hlisted := hagrees _ content hfixed hlater hlater' s s' hs hs'
  rw [findListed, findListed, hrecv, hrecv', Option.map_some, Option.map_some,
    Option.some.injEq] at hlisted
  have hlen := content.params_length
  refine parse_ne P hname ?_ ?_ ?_ (hother s msg hs hrecv) hlisted
  · rw [payload_shift_start hpayload hlen hfixed.data, hdata, Mem.read_write_prefix]
  · rw [hpayload, write_u16 _ _ (by rw [hlen]; exact kind.countAt_le), hparams]
    exact fun hzero => hcount (UInt16.toNat_inj.mp hzero)
  · have htotal : content.total = (createdEntry x ++ rest).length := congrArg List.length hdata
    rw [List.length_append, createdEntry_length] at htotal
    omega

/-- A byte of the result that comes from the first message. -/
theorem encoded_byte (pads : Tr2Pads kind) (content : FindContent kind) (reads : List UInt8)
    {j : Nat} (hj : j < pads.params.length + content.params.length + pads.data.length +
      content.piece.length) :
    ((encodeFirst pads content).drop smbHeaderSize ++ reads)[tr2FieldsSize + j]? =
      (pads.params ++ (content.params ++ (pads.data ++ content.piece)))[j]? := by
  have hlen : (encodeFirst pads content).length = _ := tr2Message_length _ _ _ _ _ _ _
  have hbody : (encodeFirst pads content).drop _ = _ := tr2Message_body _ _ _ _ _ _ _
  rw [List.getElem?_append_left (by rw [List.length_drop]; omega), ← hbody, List.getElem?_drop,
    List.getElem?_drop, Nat.add_assoc]

/-- A byte behind or before the one that is changed. -/
theorem getElem?_other (xs zs : List UInt8) (x y : UInt8) {j : Nat} (h : j ≠ xs.length) :
    (xs ++ x :: zs)[j]? = (xs ++ y :: zs)[j]? := by
  by_cases hlt : j < xs.length
  · rw [List.getElem?_append_left hlt, List.getElem?_append_left hlt]
  · obtain ⟨k, rfl⟩ := Nat.exists_eq_add_of_lt (Nat.lt_of_le_of_ne (Nat.le_of_not_lt hlt) h.symm)
    rw [List.getElem?_append_right (by omega), List.getElem?_append_right (by omega),
      Nat.add_assoc, Nat.add_sub_cancel_left, List.getElem?_cons_succ, List.getElem?_cons_succ]

/-- There is a byte other than a given one. -/
theorem exists_ne_byte (b : UInt8) : ∃ x : UInt8, b ≠ x := by
  by_cases h : b = 0
  · exact ⟨1, by rw [h]; decide⟩
  · exact ⟨0, h⟩

/-- A byte of the result that the first message has behind its fields. -/
theorem payload_first (P : Platform) {pads : Tr2Pads kind} {content : FindContent kind}
    (hlater : pads.later.length = content.later.length) {s : SmbSession} {msg : SmbMessage}
    (hs : Talks 0 s (encodeAnswer pads content) []) (hrecv : (smbTr2Recv P s).1 = some msg)
    {j : Nat} {b : UInt8}
    (h : (pads.params ++ (content.params ++ (pads.data ++ content.piece)))[j]? = some b) :
    msg.payload (tr2FieldsSize + j) = b := by
  obtain ⟨taken, msg', hrecv', -, -, hpayload, -⟩ := tr2Recv_encoded P hlater hs
  rw [hrecv, Option.some.injEq] at hrecv'
  subst hrecv'
  obtain ⟨hlt, -⟩ := List.getElem?_eq_some_iff.mp h
  simp only [List.length_append] at hlt
  rw [hpayload, Mem.write, if_pos (Nat.zero_le _), Nat.sub_zero,
    encoded_byte pads content _ (by omega), h, Option.getD_some]

/-- Data that are not where the code takes them to be. -/
theorem not_agrees_shifted (P : Platform) (hname : smbFromUtf16 P [97, 0] ≠ [])
    {pads : Tr2Pads kind} (h : pads.params.length + pads.data.length ≠ 1 + kind.gap) :
    ¬ AgreesWithFixed P pads := by
  have hparams := countParams_length kind 1 0
  have hother : ∀ x y : UInt8,
      (pads.params ++ (countParams kind 1 0 ++ (pads.data ++ createdEntry x)))[kind.paramSize +
        kind.gap + 9]? =
      (pads.params ++ (countParams kind 1 0 ++ (pads.data ++ createdEntry y)))[kind.paramSize +
        kind.gap + 9]? := by
    intro x y
    have hbytes := @getElem?_other (pads.params ++ (countParams kind 1 0 ++ (pads.data ++
      List.replicate 8 0))) createdTail x y (kind.paramSize + kind.gap + 9)
      (by simp only [List.length_append, List.length_replicate, hparams]; omega)
    simpa only [createdEntry, List.append_assoc] using hbytes
  obtain ⟨b, hb⟩ : ∃ b, (pads.params ++ (countParams kind 1 0 ++ (pads.data ++
      createdEntry 0)))[kind.paramSize + kind.gap + 9]? = some b := by
    have hlt : kind.paramSize + kind.gap + 9 < (pads.params ++ (countParams kind 1 0 ++
        (pads.data ++ createdEntry 0))).length := by
      have hgap : kind.gap ≤ 2 := by cases kind <;> decide
      simp only [List.length_append, createdEntry_length, hparams]
      omega
    exact ⟨_, List.getElem?_eq_getElem hlt⟩
  -- the byte that is taken for the creation time does not depend on it
  obtain ⟨x, hx⟩ := exists_ne_byte b
  refine @not_agrees kind P hname pads (entryFirst kind 1 0 x pads.later.length)
    (lastByte_length _).symm 1 0 x _ rfl (by cases kind <;> decide) rfl ?_
  intro s msg hs hrecv
  have hplace : kind.start + 8 = tr2FieldsSize + (kind.paramSize + kind.gap + 9) := by
    rw [FindKind.start, SmbTrans2Resp.size, tr2FieldsSize]
    omega
  rw [hplace, payload_first P (lastByte_length _).symm hs hrecv ((hother x 0).trans hb)]
  exact .inr hx

/-- Parameters with zeros where the code takes the count to be. -/
theorem not_agrees_count (P : Platform) (hname : smbFromUtf16 P [97, 0] ≠ [])
    {pads : Tr2Pads kind} {lo hi : UInt8}
    (hcount : replyU16 (countParams kind lo hi) kind.countAt ≠ 0)
    (hlow : (pads.params ++ (countParams kind lo hi ++ (pads.data ++
      createdEntry 0)))[1 + kind.countAt]? = some 0)
    (hhigh : (pads.params ++ (countParams kind lo hi ++ (pads.data ++
      createdEntry 0)))[2 + kind.countAt]? = some 0) :
    ¬ AgreesWithFixed P pads := by
  refine @not_agrees kind P hname pads (entryFirst kind lo hi 0 pads.later.length)
    (lastByte_length _).symm lo hi 0 _ rfl hcount rfl ?_
  intro s msg hs hrecv
  have hbyte := payload_first P (lastByte_length _).symm hs hrecv hlow
  have hbyte' := payload_first P (lastByte_length _).symm hs hrecv hhigh
  have hplace : ∀ j, (smbTr2Params msg) (kind.countAt + j) =
      msg.payload (tr2FieldsSize + (1 + j + kind.countAt)) := by
    intro j
    rw [smbTr2Params, Mem.shift_apply, SmbTrans2Resp.size, tr2FieldsSize]
    congr 1
    omega
  have hread : (smbTr2Params msg).read kind.countAt 2 = [0, 0] := by
    rw [Mem.read_succ, Mem.read_succ, Mem.read_zero]
    exact congrArg₂ (fun a b => [a, b]) ((hplace 0).trans hbyte) ((hplace 1).trans hbyte')
  rw [Mem.u16, hread]
  exact .inl rfl

/-- Parameters that are not where the code takes them to be, the data being there. -/
theorem not_agrees_params (P : Platform) (hname : smbFromUtf16 P [97, 0] ≠ [])
    {pads : Tr2Pads kind} (h : pads.params.length + pads.data.length = 1 + kind.gap)
    (hparams : pads.params.length ≠ 1) : ¬ AgreesWithFixed P pads := by
  cases kind with
  | next =>
    have hnil : pads.params = [] := by
      rw [FindKind.gap] at h
      exact List.length_eq_zero_iff.mp (by omega)
    refine @not_agrees_count _ P hname pads 1 0 (by decide) ?_ ?_ <;> rw [hnil] <;> rfl
  | first =>
    rw [FindKind.gap] at h
    have hcases : pads.params.length = 0 ∨ pads.params.length = 2 ∨ pads.params.length = 3 := by
      omega
    obtain hlen | hlen | hlen := hcases
    · rw [List.length_eq_zero_iff] at hlen
      refine @not_agrees_count _ P hname pads 1 0 (by decide) ?_ ?_ <;> rw [hlen] <;> rfl
    · obtain ⟨a, b, hpad⟩ := List.length_eq_two.mp hlen
      refine @not_agrees_count _ P hname pads 0 1 (by decide) ?_ ?_ <;> rw [hpad] <;> rfl
    · obtain ⟨a, b, c, hpad⟩ := List.length_eq_three.mp hlen
      refine @not_agrees_count _ P hname pads 1 0 (by decide) ?_ ?_ <;> rw [hpad] <;> rfl

/-- The first byte that the loop reads where the messages before are empty. -/
theorem later_first_byte {totalParams total : Nat} {bad mid : List UInt8}
    {rest more : List (List UInt8)} (htotal : total < 65536) (hmid : 0 < mid.length) {b : UInt8}
    (hb : (bad ++ mid)[1]? = some b) :
    ∀ {ok : List (List UInt8)} {displacement : Nat} {taken : List SmbMessage},
      displacement + mid.length ≤ total →
      List.Forall₂ SmbMessage.Holds taken (encodeLater totalParams total displacement
        (ok ++ bad :: rest) (List.replicate ok.length [] ++ mid :: more)) →
      (taken.flatMap fun recv =>
        recv.payload.read SmbTrans2Resp.size (tr2Count recv))[0]? = some b := by
  intro ok
  induction ok with
  | nil =>
    intro displacement taken hle h
    cases h with
    | @cons recv _ taken _ hholds hrest =>
      have hcount := held_count hholds htotal hle
      obtain ⟨n, hn⟩ := Nat.exists_eq_succ_of_ne_zero (Nat.ne_of_gt hmid)
      rw [List.flatMap_cons, hcount, hn, Mem.read_succ]
      exact congrArg some (held_byte hholds hb)
  | cons pad ok ih =>
    intro displacement taken hle h
    cases h with
    | @cons recv _ taken _ hholds hrest =>
      have hcount : tr2Count recv = 0 := held_count hholds htotal (by rw [List.length_nil]; omega)
      rw [List.flatMap_cons, hcount, Mem.read_zero, List.nil_append]
      exact ih hle hrest

/-- Data of a later message that are not where the code takes them to be. -/
theorem not_agrees_later (P : Platform) (hname : smbFromUtf16 P [97, 0] ≠ [])
    {pads : Tr2Pads kind} (hparams : pads.params.length = 1) (hdata : pads.data.length = kind.gap)
    {bad : List UInt8} (hbad : bad ∈ pads.later) (h : bad.length ≠ 1) :
    ¬ AgreesWithFixed P pads := by
  obtain ⟨ok, rest, hpads⟩ := List.append_of_mem hbad
  have hother : ∀ x y : UInt8, (bad ++ x :: createdTail)[1]? = (bad ++ y :: createdTail)[1]? :=
    fun x y => getElem?_other bad createdTail x y h.symm
  obtain ⟨b, hb⟩ : ∃ b, (bad ++ 0 :: createdTail)[1]? = some b := by
    have hlt : 1 < (bad ++ 0 :: createdTail).length := by
      have htail : createdTail.length = 87 := rfl
      rw [List.length_append, List.length_cons, htail]
      omega
    exact ⟨_, List.getElem?_eq_getElem hlt⟩
  obtain ⟨x, hx⟩ := exists_ne_byte b
  have hlater : pads.later.length = (entryLater kind x ok.length rest.length).later.length := by
    rw [hpads, entryLater, List.length_append, List.length_append, List.length_replicate,
      List.length_cons, List.length_cons, lastByte_length]
  have hsplit : (entryLater kind x ok.length rest.length).piece ++
      (entryLater kind x ok.length rest.length).later.flatten =
        createdEntry x ++ (lastByte rest.length).flatten := by
    simp [entryLater, createdEntry]
  refine @not_agrees kind P hname pads (entryLater kind x ok.length rest.length) hlater 1 0 x
    (lastByte rest.length).flatten rfl (by cases kind <;> decide) hsplit ?_
  · intro s msg hs hrecv
    obtain ⟨taken, msg', hrecv', hall, -, hpayload, -⟩ := tr2Recv_encoded P hlater hs
    rw [hrecv, Option.some.injEq] at hrecv'
    subst hrecv'
    have hroom : 8 + (x :: createdTail).length ≤
        (entryLater kind x ok.length rest.length).total := by
      have hlen : (entryLater kind x ok.length rest.length).total =
          (createdEntry x ++ (lastByte rest.length).flatten).length := congrArg List.length hsplit
      have hmid : (x :: createdTail).length = 88 := rfl
      rw [hlen, hmid, List.length_append, createdEntry_length]
      omega
    have hbyte : (taken.flatMap fun recv =>
        recv.payload.read SmbTrans2Resp.size (tr2Count recv))[0]? = some b := by
      rw [hpads] at hall
      exact later_first_byte (entryLater kind x ok.length rest.length).fits
        (List.length_pos_iff.mpr (List.cons_ne_nil x createdTail)) ((hother x 0).trans hb) hroom hall
    have hfirst : ((encodeFirst pads (entryLater kind x ok.length rest.length)).drop
        smbHeaderSize).length = kind.start + 8 := by
      have hlen : (entryLater kind x ok.length rest.length).params.length = kind.paramSize :=
        countParams_length kind 1 0
      have hpiece : (entryLater kind x ok.length rest.length).piece.length = 8 := rfl
      rw [List.length_drop, encodeFirst, tr2Message_length, hparams, hdata, hlen, hpiece,
        FindKind.start, SmbTrans2Resp.size, tr2FieldsSize]
      omega
    right
    rw [hpayload, Mem.write, if_pos (Nat.zero_le _), Nat.sub_zero,
      List.getElem?_append_right (by omega), hfirst, Nat.sub_self, hbyte]
    exact hx

/-- A placement is read like the one the code expects, on every answer, if and only if it is such a one
itself. -/
theorem placement_agrees_iff (P : Platform) (hname : smbFromUtf16 P [97, 0] ≠ []) (kind : FindKind)
    (pads : Tr2Pads kind) : AgreesWithFixed P pads ↔ pads.Fixed := by
  constructor
  · intro hagrees
    by_cases hshift : pads.params.length + pads.data.length = 1 + kind.gap
    · by_cases hparams : pads.params.length = 1
      · have hdata : pads.data.length = kind.gap := by omega
        refine ⟨hparams, hdata, fun pad hpad => ?_⟩
        by_contra hlen
        exact not_agrees_later P hname hparams hdata hpad hlen hagrees
      · exact absurd hagrees (not_agrees_params P hname hshift hparams)
    · exact absurd hagrees (not_agrees_shifted P hname hshift)
  · intro hfixed pads' content hfixed' hlater hlater' s s' hs hs'
    exact fixed_agree P hfixed hfixed' hlater hlater' hs hs'

/-- The names that are ASCII convert. -/
theorem placement_agrees_iff_ascii :
    smbFromUtf16 .ascii [97, 0] ≠ [] ∧ AgreesWithFixed .ascii (fixedPads .first 0) :=
  ⟨by decide +kernel,
    (placement_agrees_iff .ascii (by decide +kernel) .first (fixedPads .first 0)).mpr
      (fixedPads_fixed .first 0)⟩

/-- The data right behind the parameters. -/
def tightPads : Tr2Pads .first where
  params := [0]
  data := []
  later := []
  data_fits := by decide
  later_fit := by decide

/-- A session on whose stream these messages are, a chunk for each. -/
def heldMessages (msgs : List (List UInt8)) : SmbSession :=
  holding (msgs.map fun m => [0, 0] ++ htons m.length ++ m)

/-- An answer with one entry, which is not listed where its data come right behind its parameters. -/
theorem placement_differs :
    let content := entryFirst .first 1 0 1 0
    let s := heldMessages (encodeAnswer tightPads content)
    let s' := heldMessages (encodeAnswer (fixedPads .first 0) content)
    Talks 0 s (encodeAnswer tightPads content) [] ∧
      Talks 0 s' (encodeAnswer (fixedPads .first 0) content) [] ∧
      findListed .ascii .first s ≠ findListed .ascii .first s' := by
  intro content s s'
  have hlisted : (findListed .ascii .first s).map List.length = some 0 := by decide +kernel
  have hlisted' : (findListed .ascii .first s').map List.length = some 1 := by decide +kernel
  refine ⟨talks_holding (delivers_frames (by decide +kernel)),
    talks_holding (delivers_frames (by decide +kernel)), fun heq => ?_⟩
  rw [heq, hlisted'] at hlisted
  cases hlisted

end Libdsm
