import Libdsm.Smb.Proofs.Listing

/-!
# Reassembly against any server

`smb_tr2_recv` on whatever arrives. The messages that the coming receives hand out decide the run: the
first one, and behind it those that the loop takes before the counters say that the answer is complete
or a receive fails. What is returned is the grown copy of the first message with the data of the others
appended to it.
-/

namespace Libdsm

/-! ## What arrives -/

/-- Receive until a receive hands out no message. -/
def recvMsgs : Nat → SmbM (List SmbMessage)
  | 0 => return []
  | fuel + 1 => do
    let some msg ← smbSessionRecvMsg | return []
    return msg :: (← recvMsgs fuel)

/-- The messages that the coming receives hand out, up to the first that hands out none. Each of them
takes bytes off the stream, which bounds their number. -/
def SmbSession.incoming (s : SmbSession) : List SmbMessage :=
  (recvMsgs (s.tcp.inbox.flatten.length + 1) s).1

/-- A message that is received has taken bytes off the stream, and fits a frame. -/
theorem recvMsg_some {s s' : SmbSession} {msg : SmbMessage}
    (h : smbSessionRecvMsg s = (some msg, s')) :
    msg.payloadSize < 131072 ∧
      s'.tcp.inbox.flatten.length < s.tcp.inbox.flatten.length := by
  rw [recvMsg_eq, Prod.mk.injEq] at h
  obtain ⟨hmsg, rfl⟩ := h
  cases hsize : (netbiosSessionPacketRecv s.transport.session).1 with
  | none =>
    rw [hsize, Option.getD_none, receivedMessage, if_pos (Nat.zero_le _)] at hmsg
    cases hmsg
  | some size =>
    obtain ⟨hlt, hlen⟩ := packetRecv_some hsize
    rw [hsize, Option.getD_some] at hmsg
    have hholds := (receivedMessage_holds hmsg).length
    rw [Mem.read_length] at hholds
    exact ⟨by omega, hlen⟩

theorem recvMsgs_none {s s' : SmbSession} (h : smbSessionRecvMsg s = (none, s')) (fuel : Nat) :
    (recvMsgs (fuel + 1) s).1 = [] := by
  rw [recvMsgs, bind_run h]
  rfl

theorem recvMsgs_some {s s' : SmbSession} {msg : SmbMessage}
    (h : smbSessionRecvMsg s = (some msg, s')) (fuel : Nat) :
    (recvMsgs (fuel + 1) s).1 = msg :: (recvMsgs fuel s').1 := by
  rw [recvMsgs, bind_run h]
  rfl

/-- Turns beyond the bytes of the stream change nothing. -/
theorem recvMsgs_fuel {fuel : Nat} {s : SmbSession} (h : s.tcp.inbox.flatten.length < fuel) :
    ∀ {fuel' : Nat}, s.tcp.inbox.flatten.length < fuel' →
      (recvMsgs fuel s).1 = (recvMsgs fuel' s).1 := by
  induction fuel generalizing s with
  | zero => exact absurd h (Nat.not_lt_zero _)
  | succ fuel ih =>
    intro fuel' h'
    cases fuel' with
    | zero => exact absurd h' (Nat.not_lt_zero _)
    | succ fuel' =>
      cases hgot : (smbSessionRecvMsg s).1 with
      | none => rw [recvMsgs_none (run_eq hgot), recvMsgs_none (run_eq hgot)]
      | some msg =>
        obtain ⟨-, hlen⟩ := recvMsg_some (run_eq hgot)
        have hrest : (recvMsgs fuel (smbSessionRecvMsg s).2).1 =
            (recvMsgs fuel' (smbSessionRecvMsg s).2).1 := ih (by omega) (by omega)
        rw [recvMsgs_some (run_eq hgot), recvMsgs_some (run_eq hgot), hrest]

theorem incoming_none {s s' : SmbSession} (h : smbSessionRecvMsg s = (none, s')) :
    s.incoming = [] := recvMsgs_none h _

theorem incoming_some {s s' : SmbSession} {msg : SmbMessage}
    (h : smbSessionRecvMsg s = (some msg, s')) : s.incoming = msg :: s'.incoming := by
  obtain ⟨-, hlen⟩ := recvMsg_some h
  rw [SmbSession.incoming, recvMsgs_some h, SmbSession.incoming,
    recvMsgs_fuel hlen (Nat.lt_succ_self _)]

/-- What arrives fits frames, and there is a byte of the stream for each message. -/
theorem recvMsgs_bounds (fuel : Nat) (s : SmbSession) :
    (∀ msg ∈ (recvMsgs fuel s).1, msg.payloadSize < 131072) ∧
      (recvMsgs fuel s).1.length ≤ s.tcp.inbox.flatten.length := by
  induction fuel generalizing s with
  | zero => exact ⟨fun msg h => absurd h List.not_mem_nil, Nat.zero_le _⟩
  | succ fuel ih =>
    cases hgot : (smbSessionRecvMsg s).1 with
    | none =>
      rw [recvMsgs_none (run_eq hgot)]
      exact ⟨fun msg h => absurd h List.not_mem_nil, Nat.zero_le _⟩
    | some msg =>
      obtain ⟨hsize, hlen⟩ := recvMsg_some (run_eq hgot)
      obtain ⟨hsizes, hcount⟩ := ih (smbSessionRecvMsg s).2
      rw [recvMsgs_some (run_eq hgot)]
      refine ⟨?_, ?_⟩
      · intro other hother
        rcases List.mem_cons.mp hother with rfl | hother
        · exact hsize
        · exact hsizes other hother
      · rw [List.length_cons]
        omega

theorem incoming_small {s : SmbSession} {msg : SmbMessage} (h : msg ∈ s.incoming) :
    msg.payloadSize < 131072 := (recvMsgs_bounds _ s).1 msg h

theorem incoming_length_le (s : SmbSession) : s.incoming.length ≤ s.tcp.inbox.flatten.length :=
  (recvMsgs_bounds _ s).2

/-! ## What the loop takes -/

/-- The messages that the loop of `smb_tr2_recv` takes: it goes on as long as the counters of the last
one leave something. -/
def tr2Taken : Int → List SmbMessage → List SmbMessage
  | _, [] => []
  | remaining, msg :: msgs =>
    if 0 < remaining then msg :: tr2Taken (smbTr2Remaining msg.payload) msgs else []

/-- What the loop makes of a message. -/
def tr2Append (res recv : SmbMessage) : SmbMessage :=
  smbMessageAppend res
    (recv.payload.read SmbTrans2Resp.size (SmbTrans2Resp.dataCount recv.payload).toNat)

theorem tr2Taken_nil {remaining : Int} (h : ¬ 0 < remaining) (msgs : List SmbMessage) :
    tr2Taken remaining msgs = [] := by
  cases msgs with
  | nil => rfl
  | cons msg msgs => rw [tr2Taken, if_neg h]

theorem tr2RecvLoop_eq {fuel : Nat} {s : SmbSession} (h : s.tcp.inbox.flatten.length < fuel)
    (remaining : Int) (res : SmbMessage) :
    (smbTr2RecvLoop fuel remaining res s).1 =
      (tr2Taken remaining s.incoming).foldl tr2Append res := by
  induction fuel generalizing s remaining res with
  | zero => exact absurd h (Nat.not_lt_zero _)
  | succ fuel ih =>
    rw [smbTr2RecvLoop]
    by_cases hgo : 0 < remaining
    · rw [if_neg (not_not_intro hgo)]
      cases hgot : (smbSessionRecvMsg s).1 with
      | none =>
        rw [bind_run (run_eq hgot), incoming_none (run_eq hgot), tr2Taken]
        rfl
      | some msg =>
        obtain ⟨-, hlen⟩ := recvMsg_some (run_eq hgot)
        rw [bind_run (run_eq hgot), incoming_some (run_eq hgot), tr2Taken, if_pos hgo,
          List.foldl_cons]
        exact ih (by omega) _ _
    · rw [if_pos hgo, tr2Taken_nil hgo]
      rfl

/-- `smb_tr2_recv` on what arrives. -/
theorem tr2Recv_none (P : Platform) {s : SmbSession} (h : s.incoming = []) :
    (smbTr2Recv P s).1 = none := by
  cases hgot : (smbSessionRecvMsg s).1 with
  | none =>
    rw [smbTr2Recv, bind_run (run_eq hgot)]
    rfl
  | some msg =>
    rw [incoming_some (run_eq hgot)] at h
    cases h

theorem tr2Recv_some (P : Platform) {s : SmbSession} {first : SmbMessage} {rest : List SmbMessage}
    (h : s.incoming = first :: rest) :
    (smbTr2Recv P s).1 = (smbMessageGrow P first (smbTr2Growth first.payload)).map fun grown =>
      (tr2Taken (smbTr2Remaining first.payload) rest).foldl tr2Append
        { grown with cursor := first.payloadSize } := by
  cases hgot : (smbSessionRecvMsg s).1 with
  | none =>
    rw [incoming_none (run_eq hgot)] at h
    cases h
  | some msg =>
    rw [incoming_some (run_eq hgot), List.cons.injEq] at h
    obtain ⟨rfl, rfl⟩ := h
    rw [smbTr2Recv, bind_run (run_eq hgot)]
    show (smbTr2Gather msg (smbMessageGrow P msg (smbTr2Growth msg.payload)) _).1 = _
    generalize smbMessageGrow P msg (smbTr2Growth msg.payload) = grown
    cases grown with
    | none => rfl
    | some grown =>
      rw [smbTr2Gather, get_bind_run, bind_pure_fst, tr2RecvLoop_eq (Nat.lt_succ_self _)]
      rfl

/-! ## Sizes -/

/-- `total_data_count` and `data_count` of a message. -/
def tr2Total (msg : SmbMessage) : Nat := (SmbTrans2Resp.totalDataCount msg.payload).toNat

def tr2Count (msg : SmbMessage) : Nat := (SmbTrans2Resp.dataCount msg.payload).toNat

/-- The block for the grown copy: where the message declares more data than the answer, the growth is
negative, and the sum wraps once or twice. -/
theorem growBlock_eq {first : SmbMessage} (hsmall : first.payloadSize < 131072) :
    smbMessageGrowBlock first (smbTr2Growth first.payload) =
      if tr2Total first + first.payloadSize + smbHeaderSize < tr2Count first then
        2 ^ 64 + (tr2Total first + first.payloadSize + smbHeaderSize) - tr2Count first
      else tr2Total first + first.payloadSize + smbHeaderSize - tr2Count first := by
  have htotal := UInt16.toNat_lt (SmbTrans2Resp.totalDataCount first.payload)
  have hcount := UInt16.toNat_lt (SmbTrans2Resp.dataCount first.payload)
  rw [smbMessageGrowBlock, smbTr2Growth, tr2Total, tr2Count, sizeSub, sizeT, sizeT, sizeT,
    smbHeaderSize]
  split <;> omega

/-- The copy that `smb_message_grow` makes. -/
theorem grow_some {P : Platform} {msg grown : SmbMessage} {size : Nat}
    (h : smbMessageGrow P msg size = some grown) :
    grown.payloadSize = sizeT (msg.payloadSize + size) ∧
      grown.payload =
        (P.heap.shift smbHeaderSize).write 0 (msg.payload.read 0 msg.payloadSize) := by
  rw [smbMessageGrow] at h
  split at h
  · cases h
  · rw [Option.some.injEq] at h
    subst h
    exact ⟨rfl, grown_payload P.heap msg⟩

/-- The copy is refused if and only if the sum wraps twice. -/
theorem tr2Grow_isSome_iff (P : Platform) {first : SmbMessage}
    (hsmall : first.payloadSize < 131072) :
    (smbMessageGrow P first (smbTr2Growth first.payload)).isSome = true ↔
      ¬ tr2Total first + first.payloadSize + smbHeaderSize < tr2Count first := by
  have htotal : tr2Total first < 65536 := UInt16.toNat_lt _
  have hcount : tr2Count first < 65536 := UInt16.toNat_lt _
  have hblock := growBlock_eq hsmall
  rw [smbMessageGrow]
  by_cases hwrap : tr2Total first + first.payloadSize + smbHeaderSize < tr2Count first
  · rw [if_pos hwrap] at hblock
    have hrefused : ptrdiffMax < smbMessageGrowBlock first (smbTr2Growth first.payload) := by
      rw [hblock, ptrdiffMax]
      omega
    rw [if_pos hrefused]
    exact ⟨fun h => absurd h (by decide), fun h => absurd hwrap h⟩
  · rw [if_neg hwrap] at hblock
    have hgranted : ¬ ptrdiffMax < smbMessageGrowBlock first (smbTr2Growth first.payload) := by
      rw [hblock, ptrdiffMax, smbHeaderSize]
      omega
    rw [if_neg hgranted]
    exact ⟨fun _ => hwrap, fun _ => rfl⟩

/-- The positions of a message that the loop's `smb_message_append` reads. -/
def tr2AppendReads (recv : SmbMessage) : List Nat :=
  List.range' SmbTrans2Resp.size (tr2Count recv)

theorem tr2AppendReads_inside_iff (recv : SmbMessage) :
    (∀ i ∈ tr2AppendReads recv, i < recv.payloadSize) ↔
      tr2Count recv ≤ recv.payloadSize - SmbTrans2Resp.size := by
  constructor
  · intro h
    by_contra hlong
    have hlast := h (SmbTrans2Resp.size + (recv.payloadSize - SmbTrans2Resp.size))
      (List.mem_range'_1.mpr ⟨by omega, by omega⟩)
    omega
  · intro h i hi
    have hrange := List.mem_range'_1.mp hi
    omega

/-- What an append reads are the bytes at these positions. -/
theorem tr2Append_reads (res recv : SmbMessage) :
    tr2Append res recv = smbMessageAppend res ((tr2AppendReads recv).map recv.payload) := by
  rw [tr2AppendReads, List.range'_eq_map_range, List.map_map]
  rfl

/-- The sizes of a run of `smb_tr2_recv` are sound: a block that is granted has room for what is
copied into it, and the appends of the loop, of which the result is made, read inside the messages
received. -/
def Tr2SizesSound (P : Platform) (s : SmbSession) : Prop :=
  ∀ first rest grown, s.incoming = first :: rest →
    smbMessageGrow P first (smbTr2Growth first.payload) = some grown →
      let taken := tr2Taken (smbTr2Remaining first.payload) rest
      first.payloadSize + smbHeaderSize ≤
          smbMessageGrowBlock first (smbTr2Growth first.payload) ∧
        (smbTr2Recv P s).1 = some (taken.foldl
          (fun res recv => smbMessageAppend res ((tr2AppendReads recv).map recv.payload))
          { grown with cursor := first.payloadSize }) ∧
        ∀ recv ∈ taken, ∀ i ∈ tr2AppendReads recv, i < recv.payloadSize

/-- The sizes are sound if and only if the first message declares no more data than the answer, and
every message the loop takes carries the data it declares; or the first message declares so much that
no heap has room for the copy. -/
theorem tr2SizesSound_iff (P : Platform) (s : SmbSession) :
    Tr2SizesSound P s ↔ ∀ first rest, s.incoming = first :: rest →
      tr2Total first + first.payloadSize + smbHeaderSize < tr2Count first ∨
        tr2Count first ≤ tr2Total first ∧
          ∀ recv ∈ tr2Taken (smbTr2Remaining first.payload) rest,
            tr2Count recv ≤ recv.payloadSize - SmbTrans2Resp.size := by
  have hsound : Tr2SizesSound P s ↔ ∀ first rest, s.incoming = first :: rest →
      (smbMessageGrow P first (smbTr2Growth first.payload)).isSome = true →
        first.payloadSize + smbHeaderSize ≤
            smbMessageGrowBlock first (smbTr2Growth first.payload) ∧
          ∀ recv ∈ tr2Taken (smbTr2Remaining first.payload) rest,
            ∀ i ∈ tr2AppendReads recv, i < recv.payloadSize := by
    constructor
    · intro h first rest hin hsome
      obtain ⟨grown, hgrown⟩ := Option.isSome_iff_exists.mp hsome
      obtain ⟨hroom, -, hreads⟩ := h first rest grown hin hgrown
      exact ⟨hroom, hreads⟩
    · intro h first rest grown hin hgrown
      obtain ⟨hroom, hreads⟩ := h first rest hin (by rw [hgrown]; rfl)
      have hresult := tr2Recv_some P hin
      rw [hgrown, Option.map_some, funext₂ tr2Append_reads] at hresult
      exact ⟨hroom, hresult, hreads⟩
  rw [hsound]
  refine forall_congr' fun first => forall_congr' fun rest => forall_congr' fun hin => ?_
  have hsmall : first.payloadSize < 131072 :=
    incoming_small (by rw [hin]; exact List.mem_cons_self)
  rw [tr2Grow_isSome_iff P hsmall, growBlock_eq hsmall]
  simp only [tr2AppendReads_inside_iff]
  by_cases hwrap : tr2Total first + first.payloadSize + smbHeaderSize < tr2Count first
  · exact ⟨fun _ => .inl hwrap, fun _ hnot => absurd hwrap hnot⟩
  · have hroom : first.payloadSize + smbHeaderSize ≤
        tr2Total first + first.payloadSize + smbHeaderSize - tr2Count first ↔
          tr2Count first ≤ tr2Total first := by omega
    rw [if_neg hwrap, hroom]
    exact ⟨fun h => .inr (h hwrap), fun h _ => h.resolve_left hwrap⟩

/-- A session that has asked for `*`, on whose stream these messages are. -/
def askedFor (msgs : List (List UInt8)) : SmbSession :=
  (smbSessionSendMsg (smbTrans2FindFirstReq .ascii 1 (smbToUtf16 .ascii (ascii "*" ++ [0])))
    (servedBy [msgs])).2

/-- An answer without data, whose only message declares a byte of them. -/
theorem tr2SizesSound_wraps : ¬ Tr2SizesSound .ascii (askedFor [tr2Reply 0 1 0 [0]]) := by
  have hin : (askedFor [tr2Reply 0 1 0 [0]]).incoming.map
      (fun m => (m.payloadSize, tr2Total m, tr2Count m)) = [(25, 0, 1)] := by decide +kernel
  obtain ⟨first, rest, hcons, hfirst, -⟩ := List.map_eq_cons_iff.mp hin
  rw [Prod.mk.injEq, Prod.mk.injEq] at hfirst
  obtain ⟨hsize, htotal, hcount⟩ := hfirst
  have hsmall : first.payloadSize < 131072 := by omega
  intro hsound
  have hblock := growBlock_eq hsmall
  rw [hsize, htotal, hcount, if_neg (by decide)] at hblock
  have hsome := (tr2Grow_isSome_iff .ascii hsmall).mpr (by rw [hsize, htotal, hcount]; decide)
  obtain ⟨grown, hgrown⟩ := Option.isSome_iff_exists.mp hsome
  have hroom := (hsound first rest grown hcons hgrown).1
  rw [hblock, hsize] at hroom
  exact absurd hroom (by decide)

/-! ## All or nothing -/

/-- The bytes that the payload of the result is made of, each as the message it was taken from and its
position there: the whole first message, and what the appends read. -/
def tr2Sources (first : SmbMessage) (taken : List SmbMessage) : List (SmbMessage × Nat) :=
  (List.range first.payloadSize).map (first, ·) ++
    taken.flatMap fun recv => (tr2AppendReads recv).map (recv, ·)

/-- The byte at a position of a message. -/
def tr2SourceByte (source : SmbMessage × Nat) : UInt8 := source.1.payload source.2

/-- The room behind the cursor after an append of `count` bytes: one that is empty or does not fit makes
the message longer by whole blocks. -/
def tr2RoomStep (room count : Nat) : Nat :=
  if 0 < count ∧ count ≤ room then room - count
  else payloadBlockSize - sizeSub count room % payloadBlockSize

/-- The room after appends of these lengths. -/
def tr2Room (room : Nat) (counts : List Nat) : Nat := counts.foldl tr2RoomStep room

theorem Gathered.append_size {msg : SmbMessage} {content : List UInt8} (h : Gathered msg content)
    (data : List UInt8) (hlen : content.length + data.length < 2 ^ 61) :
    (smbMessageAppend msg data).payloadSize = content.length + data.length +
      tr2RoomStep (msg.payloadSize - content.length) data.length := by
  have hroom := h.room
  have hsmall := h.small
  rw [h.append_expands]
  unfold smbMessageExpandPayload tr2RoomStep sizeSub sizeT payloadBlockSize
  split
  · dsimp only
    rw [if_neg (by omega)]
    omega
  · rw [if_pos (by omega)]
    omega

theorem tr2Piece_length (recv : SmbMessage) :
    (recv.payload.read SmbTrans2Resp.size (tr2Count recv)).length = tr2Count recv :=
  Mem.read_length _ _ _

/-- One turn of the loop. -/
theorem Gathered.tr2Append {res : SmbMessage} {content : List UInt8} (h : Gathered res content)
    (recv : SmbMessage) (hlen : content.length + tr2Count recv < 2 ^ 61) :
    Gathered (tr2Append res recv)
      (content ++ recv.payload.read SmbTrans2Resp.size (tr2Count recv)) :=
  h.append (recv.payload.read SmbTrans2Resp.size (tr2Count recv))
    (by rw [tr2Piece_length]; exact hlen)

/-- The message after the loop: its bytes are those the sources say, and its length is theirs and the
room that is left. -/
theorem gathered_appended {res : SmbMessage} {content : List UInt8} (h : Gathered res content)
    {taken : List SmbMessage} (hlen : content.length + (taken.map tr2Count).sum < 2 ^ 61) :
    Gathered (taken.foldl tr2Append res) (content ++ taken.flatMap fun recv =>
        recv.payload.read SmbTrans2Resp.size (tr2Count recv)) ∧
      (taken.foldl tr2Append res).payloadSize = content.length + (taken.map tr2Count).sum +
        tr2Room (res.payloadSize - content.length) (taken.map tr2Count) := by
  induction taken generalizing res content with
  | nil =>
    have hroom := h.room
    rw [List.flatMap_nil, List.append_nil, List.map_nil, List.sum_nil]
    exact ⟨h, by rw [tr2Room, List.foldl_nil, List.foldl_nil]; omega⟩
  | cons recv taken ih =>
    rw [List.map_cons, List.sum_cons] at hlen
    have hsize : (tr2Append res recv).payloadSize = _ :=
      h.append_size (recv.payload.read SmbTrans2Resp.size (tr2Count recv))
        (by rw [tr2Piece_length]; omega)
    obtain ⟨hgathered, hroom⟩ := ih (h.tr2Append recv (by omega))
      (by rw [List.length_append, tr2Piece_length]; omega)
    rw [hsize, List.length_append, tr2Piece_length, Nat.add_sub_cancel_left] at hroom
    rw [List.append_assoc] at hgathered
    refine ⟨hgathered, ?_⟩
    rw [List.map_cons, List.sum_cons, tr2Room, List.foldl_cons, ← tr2Room, ← Nat.add_assoc]
    exact hroom

/-- The loop writes what it appends behind what is there. -/
theorem appended_payload {res : SmbMessage} {content : List UInt8} (h : Gathered res content)
    {base : Mem} (hpayload : res.payload = base.write 0 content) {taken : List SmbMessage}
    (hlen : content.length + (taken.map tr2Count).sum < 2 ^ 61) :
    (taken.foldl tr2Append res).payload = base.write 0 (content ++ taken.flatMap fun recv =>
      recv.payload.read SmbTrans2Resp.size (tr2Count recv)) := by
  induction taken generalizing res content with
  | nil =>
    rw [List.flatMap_nil, List.append_nil]
    exact hpayload
  | cons recv taken ih =>
    rw [List.map_cons, List.sum_cons] at hlen
    have hwritten : (tr2Append res recv).payload = base.write 0
        (content ++ recv.payload.read SmbTrans2Resp.size (tr2Count recv)) := by
      have hadjacent := Mem.write_append base 0 content
        (recv.payload.read SmbTrans2Resp.size (tr2Count recv))
      rw [Nat.zero_add] at hadjacent
      rw [tr2Append, append_payload, h.cursor, hpayload]
      exact hadjacent
    rw [List.flatMap_cons, ← List.append_assoc, List.foldl_cons]
    exact ih (h.tr2Append recv (by omega)) hwritten
      (by rw [List.length_append, tr2Piece_length]; omega)

theorem tr2Sources_length (first : SmbMessage) (taken : List SmbMessage) :
    (tr2Sources first taken).length = first.payloadSize + (taken.map tr2Count).sum := by
  rw [tr2Sources, List.length_append, List.length_map, List.length_range, List.length_flatMap]
  congr 2
  apply List.map_congr_left
  intro recv _
  rw [List.length_map, tr2AppendReads, List.length_range']

theorem tr2Sources_bytes (first : SmbMessage) (taken : List SmbMessage) :
    (tr2Sources first taken).map tr2SourceByte = first.payload.read 0 first.payloadSize ++
      taken.flatMap fun recv => recv.payload.read SmbTrans2Resp.size (tr2Count recv) := by
  rw [tr2Sources, List.map_append, List.map_map, List.map_flatMap]
  congr 1
  · rw [Mem.read]
    apply List.map_congr_left
    intro i _
    rw [Nat.zero_add]
    rfl
  · congr 1
    funext recv
    rw [tr2AppendReads, List.range'_eq_map_range, List.map_map, List.map_map]
    rfl

theorem tr2Sources_inside_iff (first : SmbMessage) (taken : List SmbMessage) :
    (∀ source ∈ tr2Sources first taken, source.2 < source.1.payloadSize) ↔
      ∀ recv ∈ taken, tr2Count recv ≤ recv.payloadSize - SmbTrans2Resp.size := by
  constructor
  · intro h recv hrecv
    refine (tr2AppendReads_inside_iff recv).mp fun i hi => ?_
    refine h (recv, i) (List.mem_append_right _ (List.mem_flatMap.mpr ⟨recv, hrecv, ?_⟩))
    exact List.mem_map.mpr ⟨i, hi, rfl⟩
  · intro h source hsource
    rcases List.mem_append.mp hsource with hfirst | hlater
    · obtain ⟨i, hi, rfl⟩ := List.mem_map.mp hfirst
      exact List.mem_range.mp hi
    · obtain ⟨recv, hrecv, hread⟩ := List.mem_flatMap.mp hlater
      obtain ⟨i, hi, rfl⟩ := List.mem_map.mp hread
      exact (tr2AppendReads_inside_iff recv).mpr (h recv hrecv) i hi

/-- The result holds up to `payload_size` only bytes that were received, and the last message received
reaches the declared total. -/
structure Tr2Whole (first : SmbMessage) (taken : List SmbMessage) (msg : SmbMessage) : Prop where
  reached : smbTr2Remaining (taken.getLastD first).payload ≤ 0
  size : msg.payloadSize ≤ (tr2Sources first taken).length
  bytes : msg.payload.read 0 msg.payloadSize =
    ((tr2Sources first taken).take msg.payloadSize).map tr2SourceByte
  received : ∀ source ∈ (tr2Sources first taken).take msg.payloadSize,
    source.2 < source.1.payloadSize

/-- `smb_tr2_recv` returns a whole answer or nothing. -/
def AllOrNothing (P : Platform) (s : SmbSession) : Prop :=
  ∀ msg, (smbTr2Recv P s).1 = some msg → ∃ first rest, s.incoming = first :: rest ∧
    Tr2Whole first (tr2Taken (smbTr2Remaining first.payload) rest) msg

/-- The stream carries a whole answer: its messages reach the declared total, carry the data they
declare, and use up the room that the first one makes. -/
structure Tr2Complete (first : SmbMessage) (taken : List SmbMessage) : Prop where
  reached : smbTr2Remaining (taken.getLastD first).payload ≤ 0
  carried : ∀ recv ∈ taken, tr2Count recv ≤ recv.payloadSize - SmbTrans2Resp.size
  filled : tr2Room (tr2Total first - tr2Count first) (taken.map tr2Count) = 0

theorem allOrNothing_iff_whole (P : Platform) {s : SmbSession} {first : SmbMessage}
    {rest : List SmbMessage} (hin : s.incoming = first :: rest) :
    AllOrNothing P s ↔ ∀ msg, (smbTr2Recv P s).1 = some msg →
      Tr2Whole first (tr2Taken (smbTr2Remaining first.payload) rest) msg := by
  constructor
  · intro h msg hmsg
    obtain ⟨first', rest', hin', hwhole⟩ := h msg hmsg
    rw [hin, List.cons.injEq] at hin'
    obtain ⟨rfl, rfl⟩ := hin'
    exact hwhole
  · exact fun h msg hmsg => ⟨first, rest, hin, h msg hmsg⟩

/-- Where the first message declares no more data than the answer, the loop fills the copy made of it. -/
theorem whole_appended_iff {first res : SmbMessage} {taken : List SmbMessage}
    (hgathered : Gathered res (first.payload.read 0 first.payloadSize))
    (hsize : res.payloadSize = first.payloadSize + (tr2Total first - tr2Count first))
    (hsmall : first.payloadSize < 131072) (hsum : (taken.map tr2Count).sum < 2 ^ 60) :
    Tr2Whole first taken (taken.foldl tr2Append res) ↔ Tr2Complete first taken := by
  obtain ⟨hres, hroom⟩ := @gathered_appended _ _ hgathered taken
    (by rw [Mem.read_length]; omega)
  rw [← tr2Sources_bytes] at hres
  rw [Mem.read_length, hsize, Nat.add_sub_cancel_left, ← tr2Sources_length] at hroom
  generalize taken.foldl tr2Append res = msg at hres hroom
  constructor
  · intro h
    have hle := h.size
    have hfilled : tr2Room (tr2Total first - tr2Count first) (taken.map tr2Count) = 0 := by omega
    have hreceived := h.received
    rw [List.take_of_length_le (by omega)] at hreceived
    exact ⟨h.reached, (tr2Sources_inside_iff first taken).mp hreceived, hfilled⟩
  · intro h
    have hfull : msg.payloadSize = (tr2Sources first taken).length := by
      rw [hroom, h.filled, Nat.add_zero]
    refine ⟨h.reached, Nat.le_of_eq hfull, ?_, ?_⟩
    · have hbytes := hres.bytes
      rw [List.length_map] at hbytes
      rw [hfull, List.take_length]
      exact hbytes
    · rw [hfull, List.take_length]
      exact (tr2Sources_inside_iff first taken).mpr h.carried

theorem allOrNothing_declared_iff (P : Platform) {s : SmbSession} {first : SmbMessage}
    {rest : List SmbMessage} (hin : s.incoming = first :: rest)
    (hcount : tr2Count first ≤ tr2Total first)
    (hsum : ((tr2Taken (smbTr2Remaining first.payload) rest).map tr2Count).sum < 2 ^ 60) :
    AllOrNothing P s ↔ Tr2Complete first (tr2Taken (smbTr2Remaining first.payload) rest) := by
  have hsmall : first.payloadSize < 131072 :=
    incoming_small (by rw [hin]; exact List.mem_cons_self)
  obtain ⟨grown, hgrow, hsize, hgathered⟩ :=
    @gathered_grown P first (Nat.lt_trans hsmall (by decide)) hcount
  rw [allOrNothing_iff_whole P hin, tr2Recv_some P hin, hgrow, Option.map_some,
    ← whole_appended_iff hgathered hsize hsmall hsum]
  constructor
  · exact fun h => h _ rfl
  · intro h msg hmsg
    rw [← Option.some.inj hmsg]
    exact h

/-- A first message that declares more data than the answer has nothing behind it, and the copy made
of it is too short; a negative length is taken to be a huge one. -/
theorem allOrNothing_overdeclared_iff (P : Platform) {s : SmbSession} {first : SmbMessage}
    {rest : List SmbMessage} (hin : s.incoming = first :: rest)
    (hcount : tr2Total first < tr2Count first) :
    AllOrNothing P s ↔ tr2Count first ≤ tr2Total first + first.payloadSize ∨
      tr2Total first + first.payloadSize + smbHeaderSize < tr2Count first := by
  have hsmall : first.payloadSize < 131072 :=
    incoming_small (by rw [hin]; exact List.mem_cons_self)
  have htotal : tr2Total first < 65536 := UInt16.toNat_lt _
  have hlt : tr2Count first < 65536 := UInt16.toNat_lt _
  have hremaining : smbTr2Remaining first.payload ≤ 0 := by
    have hdef : smbTr2Remaining first.payload = (tr2Total first : Int) -
      ((SmbTrans2Resp.dataDisplacement first.payload).toNat + tr2Count first : Nat) := rfl
    omega
  rw [allOrNothing_iff_whole P hin, tr2Recv_some P hin, tr2Taken_nil (by omega)]
  by_cases hwrap : tr2Total first + first.payloadSize + smbHeaderSize < tr2Count first
  · have hnone : smbMessageGrow P first (smbTr2Growth first.payload) = none := by
      rw [← Option.not_isSome_iff_eq_none, tr2Grow_isSome_iff P hsmall]
      exact not_not_intro hwrap
    rw [hnone]
    exact ⟨fun _ => .inr hwrap, fun _ msg hmsg => absurd hmsg (by simp)⟩
  · have hsome := (tr2Grow_isSome_iff P hsmall).mpr hwrap
    obtain ⟨grown, hgrown⟩ := Option.isSome_iff_exists.mp hsome
    obtain ⟨hsize, hpayload⟩ := grow_some hgrown
    have hcopied := Mem.read_write (P.heap.shift smbHeaderSize) 0
      (first.payload.read 0 first.payloadSize)
    rw [← hpayload, Mem.read_length] at hcopied
    rw [smbTr2Growth, ← tr2Total, ← tr2Count, sizeSub, sizeT, sizeT] at hsize
    rw [hgrown, Option.map_some, List.foldl_nil]
    constructor
    · intro h
      have hle := (h _ rfl).size
      rw [tr2Sources_length, List.map_nil, List.sum_nil] at hle
      change grown.payloadSize ≤ first.payloadSize + 0 at hle
      omega
    · rintro (hcount' | hcount')
      · intro msg hmsg
        rw [← Option.some.inj hmsg]
        have hle : grown.payloadSize ≤ first.payloadSize := by omega
        refine ⟨hremaining, ?_, ?_, ?_⟩
        · rw [tr2Sources_length]
          exact Nat.le_add_right_of_le hle
        · show grown.payload.read 0 grown.payloadSize = _
          have hpart := @Mem.read_sub grown.payload 0 first.payloadSize 0 grown.payloadSize
            (by omega)
          rw [List.map_take, tr2Sources_bytes, List.flatMap_nil, List.append_nil, ← hcopied,
            ← hpart, List.drop_zero]
        · intro source hsource
          refine (tr2Sources_inside_iff first []).mpr ?_ source (List.mem_of_mem_take hsource)
          exact fun recv h => absurd h List.not_mem_nil
      · exact absurd hcount' hwrap

theorem tr2Taken_length_le (remaining : Int) (msgs : List SmbMessage) :
    (tr2Taken remaining msgs).length ≤ msgs.length := by
  induction msgs generalizing remaining with
  | nil => exact Nat.le_refl _
  | cons msg msgs ih =>
    rw [tr2Taken]
    split
    · exact Nat.succ_le_succ (ih _)
    · exact Nat.zero_le _

/-- What the messages of a stream declare is bounded by the bytes they take. -/
theorem tr2Counts_sum_le (msgs : List SmbMessage) :
    (msgs.map tr2Count).sum ≤ 65536 * msgs.length := by
  induction msgs with
  | nil => exact Nat.le_refl _
  | cons msg msgs ih =>
    have hcount : tr2Count msg < 65536 := UInt16.toNat_lt _
    rw [List.map_cons, List.sum_cons, List.length_cons]
    omega

/-- The stream carries a whole answer that no `size_t` is too small for; or its first message declares
more data than the answer, but not more than it carries, or so much more that no heap has room for the
copy. -/
def Tr2Delivered (s : SmbSession) : Prop :=
  ∀ first rest, s.incoming = first :: rest →
    tr2Count first ≤ tr2Total first ∧
        ((tr2Taken (smbTr2Remaining first.payload) rest).map tr2Count).sum < 2 ^ 60 ∧
        Tr2Complete first (tr2Taken (smbTr2Remaining first.payload) rest) ∨
      tr2Total first < tr2Count first ∧
        (tr2Count first ≤ tr2Total first + first.payloadSize ∨
          tr2Total first + first.payloadSize + smbHeaderSize < tr2Count first)

/-- `smb_tr2_recv` returns a whole answer or nothing where the stream carries a whole answer, and only
there: the bound on the stream keeps the lengths from wrapping. -/
theorem tr2Recv_allOrNothing_iff (P : Platform) (s : SmbSession) :
    (Tr2Delivered s → AllOrNothing P s) ∧
      (s.tcp.inbox.flatten.length < 2 ^ 44 → AllOrNothing P s → Tr2Delivered s) := by
  constructor
  · intro h
    cases hin : s.incoming with
    | nil =>
      intro msg hmsg
      rw [tr2Recv_none P hin] at hmsg
      cases hmsg
    | cons first rest =>
      rcases h first rest hin with ⟨hcount, hsum, hcomplete⟩ | ⟨hcount, hover⟩
      · exact (allOrNothing_declared_iff P hin hcount hsum).mpr hcomplete
      · exact (allOrNothing_overdeclared_iff P hin hcount).mpr hover
  · intro hstream h first rest hin
    by_cases hcount : tr2Count first ≤ tr2Total first
    · have hlen := incoming_length_le s
      have htaken := tr2Taken_length_le (smbTr2Remaining first.payload) rest
      have hsum := tr2Counts_sum_le (tr2Taken (smbTr2Remaining first.payload) rest)
      rw [hin, List.length_cons] at hlen
      have hsmall : ((tr2Taken (smbTr2Remaining first.payload) rest).map tr2Count).sum <
          2 ^ 60 := by omega
      exact .inl ⟨hcount, hsmall, (allOrNothing_declared_iff P hin hcount hsmall).mp h⟩
    · have hover := Nat.lt_of_not_le hcount
      exact .inr ⟨hover, (allOrNothing_overdeclared_iff P hin hover).mp h⟩

/-- An answer of two bytes, of which the second never arrives, is returned. -/
theorem tr2Recv_returns_half : ¬ AllOrNothing .ascii (askedFor [tr2Reply 2 1 0 [7]]) := by
  have hin : (askedFor [tr2Reply 2 1 0 [7]]).incoming.map
      (fun m => (tr2Total m, tr2Count m, smbTr2Remaining m.payload)) = [(2, 1, 1)] := by
    decide +kernel
  obtain ⟨first, rest, hcons, hfirst, hrest⟩ := List.map_eq_cons_iff.mp hin
  rw [Prod.mk.injEq, Prod.mk.injEq] at hfirst
  obtain ⟨htotal, hcount, hremaining⟩ := hfirst
  rw [List.map_eq_nil_iff] at hrest
  subst hrest
  rw [allOrNothing_declared_iff .ascii hcons (by omega) (by rw [tr2Taken]; decide)]
  intro h
  have hreached := h.reached
  rw [tr2Taken, List.getLastD_nil, hremaining] at hreached
  exact absurd hreached (by decide)

end Libdsm
