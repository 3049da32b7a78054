import Libdsm.Smb.Message

/-!
# The message builder as a byte list

A message under construction stands for the list of the bytes put into it so far; a byte that
`smb_message_advance` skipped is not known. The payload has room for the whole list at every point,
although its size is computed modulo `2^64` and an append of no bytes makes the computation wrap.
-/

namespace Libdsm

/-- A message received with this payload, in memory that is zero elsewhere. -/
def SmbMessage.ofPayload (payload : List UInt8) : SmbMessage where
  payloadSize := payload.length
  cursor := 0
  packet := Mem.write (fun _ => 0) smbHeaderSize payload

/-! ## Growth -/

/-- The size of the payload after `smb_message_expand_payload`: what was asked for fits, and at most
a block more than that has been added. -/
theorem expandPayload_size (msg : SmbMessage) {cursor dataSize : Nat}
    (hcursor : cursor ≤ msg.payloadSize) (hsize : msg.payloadSize < 2 ^ 63 + 2 ^ 62)
    (hdata : cursor + dataSize < 2 ^ 63) :
    cursor + dataSize ≤ (smbMessageExpandPayload msg cursor dataSize).payloadSize ∧
      (smbMessageExpandPayload msg cursor dataSize).payloadSize ≤
        max msg.payloadSize (cursor + dataSize + payloadBlockSize) := by
  unfold smbMessageExpandPayload sizeSub sizeT payloadBlockSize
  split
  · -- the difference wraps when there is room already, and the sum wraps it back
    dsimp only
    omega
  · omega

/-- The payload changes by whole blocks, whichever way the computation wraps. -/
theorem expandPayload_blocks (msg : SmbMessage) (cursor dataSize : Nat) :
    (payloadBlockSize : Int) ∣
      (smbMessageExpandPayload msg cursor dataSize).payloadSize - msg.payloadSize := by
  unfold smbMessageExpandPayload sizeSub sizeT payloadBlockSize
  split
  · -- `2^64` is itself a number of blocks
    dsimp only
    omega
  · simp

/-- `smb_message_expand_payload` makes room for what was asked, a request for no bytes included: the
payload changes by whole blocks and stays below `2^63`, and so does the block that is reallocated. -/
theorem expandPayload_growth (msg : SmbMessage) (cursor dataSize : Nat)
    (hcursor : cursor ≤ msg.payloadSize) (hsize : msg.payloadSize < 2 ^ 63)
    (hdata : cursor + dataSize + 512 < 2 ^ 63) :
    let size := (smbMessageExpandPayload msg cursor dataSize).payloadSize
    cursor + dataSize ≤ size ∧ (256 : Int) ∣ size - msg.payloadSize ∧ size < 2 ^ 63 ∧
      sizeT (smbHeaderSize + size) = smbHeaderSize + size := by
  intro size
  have hasked : cursor + dataSize < 2 ^ 63 := by omega
  obtain ⟨hfit, hmax⟩ := expandPayload_size msg hcursor (by omega) hasked
  have hlt : size < 2 ^ 63 := by
    rw [payloadBlockSize] at hmax
    omega
  refine ⟨hfit, expandPayload_blocks msg cursor dataSize, hlt, ?_⟩
  exact Nat.mod_eq_of_lt (by rw [smbHeaderSize]; omega)

/-- A request for no bytes far below the capacity gives blocks back. -/
theorem expandPayload_growth_shrinks :
    (smbMessageExpandPayload { payloadSize := 1000, cursor := 100, packet := fun _ => 0 }
      100 0).payloadSize = 232 ∧ 100 + 0 ≤ 232 ∧ (256 : Int) ∣ (232 : Nat) - (1000 : Nat) := by
  have hshrunk : (smbMessageExpandPayload { payloadSize := 1000, cursor := 100, packet := fun _ => 0 }
      100 0).payloadSize = 232 := by decide
  have hgrowth := expandPayload_growth { payloadSize := 1000, cursor := 100, packet := fun _ => 0 }
    100 0 (by decide) (by decide) (by decide)
  rw [hshrunk] at hgrowth
  exact ⟨hshrunk, hgrowth.1, hgrowth.2.1⟩

@[simp] theorem expandPayload_packet (msg : SmbMessage) (cursor dataSize : Nat) :
    (smbMessageExpandPayload msg cursor dataSize).packet = msg.packet := by
  unfold smbMessageExpandPayload
  split <;> rfl

@[simp] theorem expandPayload_cursor (msg : SmbMessage) (cursor dataSize : Nat) :
    (smbMessageExpandPayload msg cursor dataSize).cursor = msg.cursor := by
  unfold smbMessageExpandPayload
  split <;> rfl

/-! ## The list a message stands for -/

/-- The message holds the bytes of `content`; a byte that was skipped may be anything. -/
structure Builds (msg : SmbMessage) (content : List (Option UInt8)) : Prop where
  cursor : msg.cursor = content.length
  room : content.length ≤ msg.payloadSize
  slack : msg.payloadSize ≤ content.length + payloadBlockSize
  bytes : ∀ i b, content[i]? = some (some b) → msg.payload i = b

theorem Builds.new (P : Platform) (cmd : UInt8) : Builds (smbMessageNew P cmd) [] := by
  have hempty : (0 : Nat) + 0 < 2 ^ 63 := by decide
  have hsize := (expandPayload_size { payloadSize := 0, cursor := 0, packet := P.heap }
    (Nat.zero_le 0) (Nat.lt_trans hempty (by decide)) hempty).2
  refine ⟨?_, Nat.zero_le _, ?_, ?_⟩
  · exact expandPayload_cursor _ 0 0
  · exact hsize
  · intro i b h
    simp at h

/-- The payload after bytes were written at `off`. -/
theorem payload_poke (msg : SmbMessage) (off : Nat) (bs : List UInt8) :
    (msg.poke off bs).payload = msg.payload.write off bs :=
  Mem.shift_write msg.packet smbHeaderSize off bs

/-- What `smb_message_append` does to the payload and to the cursor. -/
theorem append_payload (msg : SmbMessage) (data : List UInt8) :
    (smbMessageAppend msg data).payload = msg.payload.write msg.cursor data := by
  have hpoke := payload_poke (smbMessageExpandPayload msg msg.cursor data.length) msg.cursor data
  rw [SmbMessage.payload, SmbMessage.payload, expandPayload_packet] at hpoke
  rw [SmbMessage.payload, smbMessageAppend, expandPayload_cursor]
  exact hpoke

theorem append_cursor (msg : SmbMessage) (data : List UInt8) :
    (smbMessageAppend msg data).cursor = sizeT (msg.cursor + data.length) := by
  rw [smbMessageAppend, expandPayload_cursor]

/-- Growing a message keeps the list, and makes room for what comes next. -/
theorem Builds.expand {msg : SmbMessage} {content : List (Option UInt8)} (h : Builds msg content)
    {n : Nat} (hn : content.length + n < 2 ^ 63) :
    content.length + n ≤ (smbMessageExpandPayload msg msg.cursor n).payloadSize ∧
      (smbMessageExpandPayload msg msg.cursor n).payloadSize ≤
        content.length + n + payloadBlockSize := by
  have hroom := h.room
  have hslack := h.slack
  rw [h.cursor]
  have hbound : msg.payloadSize < 2 ^ 63 + 2 ^ 62 := by
    rw [payloadBlockSize] at hslack
    omega
  obtain ⟨hfit, hmax⟩ := expandPayload_size msg hroom hbound hn
  exact ⟨hfit, by omega⟩

/-- Appending data. -/
theorem Builds.append {msg : SmbMessage} {content : List (Option UInt8)} (h : Builds msg content)
    (data : List UInt8) (hlen : content.length + data.length < 2 ^ 63) :
    Builds (smbMessageAppend msg data) (content ++ data.map some) := by
  obtain ⟨hfit, hslack⟩ := h.expand hlen
  refine ⟨?_, ?_, ?_, ?_⟩
  · rw [append_cursor, h.cursor, List.length_append, List.length_map]
    exact Nat.mod_eq_of_lt (by omega)
  · rw [List.length_append, List.length_map]
    exact hfit
  · rw [List.length_append, List.length_map]
    exact hslack
  · intro i b hi
    rw [append_payload, h.cursor]
    by_cases hold : i < content.length
    · rw [List.getElem?_append_left hold] at hi
      rw [Mem.write_of_lt _ _ hold]
      exact h.bytes i b hi
    · obtain ⟨j, rfl⟩ := Nat.exists_eq_add_of_le (Nat.le_of_not_lt hold)
      rw [List.getElem?_append_right (Nat.le_add_right _ _), Nat.add_sub_cancel_left,
        List.getElem?_map, Option.map_eq_some_iff] at hi
      obtain ⟨b', hb', hsome⟩ := hi
      obtain ⟨hj, rfl⟩ := List.getElem?_eq_some_iff.mp hb'
      rw [Mem.write_inside _ _ _ _ hj]
      exact Option.some.inj hsome

/-- Skipping bytes. -/
theorem Builds.advance {msg : SmbMessage} {content : List (Option UInt8)} (h : Builds msg content)
    (n : Nat) (hlen : content.length + n < 2 ^ 63) :
    Builds (smbMessageAdvance msg n) (content ++ List.replicate n none) := by
  obtain ⟨hfit, hslack⟩ := h.expand hlen
  refine ⟨?_, ?_, ?_, ?_⟩
  · have hcursor : (smbMessageAdvance msg n).cursor = sizeT (msg.cursor + n) := by
      rw [smbMessageAdvance, expandPayload_cursor]
    rw [hcursor, h.cursor, List.length_append, List.length_replicate]
    exact Nat.mod_eq_of_lt (by omega)
  · rw [List.length_append, List.length_replicate]
    exact hfit
  · rw [List.length_append, List.length_replicate]
    exact hslack
  · intro i b hi
    have hpayload : (smbMessageAdvance msg n).payload = msg.payload := by
      rw [SmbMessage.payload, smbMessageAdvance, expandPayload_packet, SmbMessage.payload]
    rw [hpayload]
    by_cases hold : i < content.length
    · rw [List.getElem?_append_left hold] at hi
      exact h.bytes i b hi
    · rw [List.getElem?_append_right (Nat.le_of_not_lt hold), List.getElem?_replicate] at hi
      split at hi <;> simp at hi

/-- Appending a conversion, of which nothing is appended if it is empty. -/
theorem Builds.appendUtf16 {msg : SmbMessage} {content : List (Option UInt8)}
    (h : Builds msg content) (utf : List UInt8) (hlen : content.length + utf.length < 2 ^ 63) :
    Builds (smbMessageAppendUtf16 msg utf) (content ++ utf.map some) := by
  unfold smbMessageAppendUtf16
  by_cases hutf : utf = []
  · subst hutf
    rw [if_pos rfl, List.map_nil, List.append_nil]
    exact h
  · rw [if_neg hutf]
    exact h.append utf hlen

/-- A run of one-byte appends. -/
theorem Builds.put8s {msg : SmbMessage} {content : List (Option UInt8)} (h : Builds msg content)
    (bs : List UInt8) (hlen : content.length + bs.length < 2 ^ 63) :
    Builds (bs.foldl smbMessagePut8 msg) (content ++ bs.map some) := by
  induction bs generalizing msg content with
  | nil =>
    rw [List.map_nil, List.append_nil]
    exact h
  | cons b bs ih =>
    rw [List.length_cons] at hlen
    have hone : Builds (smbMessagePut8 msg b) (content ++ [some b]) :=
      h.append [b] (by rw [List.length_singleton]; omega)
    have hrest := ih hone (by rw [List.length_append, List.length_singleton]; omega)
    rw [List.append_assoc] at hrest
    exact hrest

/-! ## Runs of calls -/

/-- The calls that build a message. -/
inductive BuilderCall where
  | append (data : List UInt8)
  | put8 (data : UInt8)
  | put16 (data : UInt16)
  | put32 (data : UInt32)
  | put64 (data : UInt64)
  | putUtf16 (str : List UInt8)
  | putUuid (a : UInt32) (b c : UInt16) (d : List UInt8)
  | advance (size : Nat)

/-- The call on a message. -/
def BuilderCall.run (P : Platform) (msg : SmbMessage) : BuilderCall → SmbMessage
  | append data => smbMessageAppend msg data
  | put8 data => smbMessagePut8 msg data
  | put16 data => smbMessagePut16 msg data
  | put32 data => smbMessagePut32 msg data
  | put64 data => smbMessagePut64 msg data
  | putUtf16 str => smbMessagePutUtf16 P msg str
  | putUuid a b c d => smbMessagePutUuid msg a b c d
  | advance size => smbMessageAdvance msg size

/-- What the call adds to the list. -/
def BuilderCall.chunk (P : Platform) : BuilderCall → List (Option UInt8)
  | append data => data.map some
  | put8 data => [some data]
  | put16 data => (le16 data).map some
  | put32 data => (le32 data).map some
  | put64 data => (le64 data).map some
  | putUtf16 str => (smbToUtf16 P str).map some
  | putUuid a b c d => (le32 a ++ le16 b ++ le16 c ++ d).map some
  | advance size => List.replicate size none

variable (P : Platform)

theorem Builds.run {msg : SmbMessage} {content : List (Option UInt8)} (h : Builds msg content)
    (call : BuilderCall) (hlen : content.length + (call.chunk P).length < 2 ^ 63) :
    Builds (call.run P msg) (content ++ call.chunk P) := by
  cases call with
  | append data => exact h.append data (by simpa [BuilderCall.chunk] using hlen)
  | put8 data => exact h.append [data] (by simpa [BuilderCall.chunk] using hlen)
  | put16 data => exact h.append (le16 data) (by simpa [BuilderCall.chunk] using hlen)
  | put32 data => exact h.append (le32 data) (by simpa [BuilderCall.chunk] using hlen)
  | put64 data => exact h.append (le64 data) (by simpa [BuilderCall.chunk] using hlen)
  | putUtf16 str => exact h.appendUtf16 _ (by simpa [BuilderCall.chunk] using hlen)
  | putUuid a b c d =>
    simp only [BuilderCall.chunk, List.length_map, List.length_append, le32_length,
      le16_length] at hlen
    have ha := h.append (le32 a) (by rw [le32_length]; omega)
    have hb := ha.append (le16 b) (by simp; omega)
    have hc := hb.append (le16 c) (by simp; omega)
    have hd := hc.put8s d (by simp; omega)
    simp only [BuilderCall.run, BuilderCall.chunk, List.map_append, smbMessagePutUuid]
    simp only [List.append_assoc] at hd ⊢
    exact hd
  | advance size => exact h.advance size (by simpa [BuilderCall.chunk] using hlen)

/-- The message after a run of calls on `smb_message_new`, and the list it stands for. -/
def builtMessage (cmd : UInt8) (calls : List BuilderCall) : SmbMessage :=
  calls.foldl (BuilderCall.run P) (smbMessageNew P cmd)

def builtContent (calls : List BuilderCall) : List (Option UInt8) :=
  calls.flatMap (BuilderCall.chunk P)

theorem Builds.runs {msg : SmbMessage} {content : List (Option UInt8)} (h : Builds msg content)
    (calls : List BuilderCall) (hlen : content.length + (builtContent P calls).length < 2 ^ 63) :
    Builds (calls.foldl (BuilderCall.run P) msg) (content ++ builtContent P calls) := by
  induction calls generalizing msg content with
  | nil =>
    rw [builtContent, List.flatMap_nil, List.append_nil]
    exact h
  | cons call calls ih =>
    rw [builtContent, List.flatMap_cons, List.length_append] at hlen
    rw [builtContent, List.flatMap_cons, ← List.append_assoc]
    apply ih (h.run P call (by omega))
    rw [List.length_append, builtContent]
    omega

/-! ## Filling in the front -/

/-- The list with its front replaced. -/
def overwrite (content : List (Option UInt8)) (data : List UInt8) : List (Option UInt8) :=
  data.map some ++ content.drop data.length

/-- An insert at the front of data that the list covers does not grow the message. -/
theorem insert_front_eq (msg : SmbMessage) {data : List UInt8} (hdata : data ≠ [])
    (hfit : data.length ≤ msg.payloadSize) (hsize : msg.payloadSize < 2 ^ 64) :
    smbMessageInsert msg 0 data = msg.poke 0 data := by
  have hpos : 0 < data.length := List.length_pos_iff.mpr hdata
  have hkeep : smbMessageExpandPayload msg 0 data.length = msg := by
    unfold smbMessageExpandPayload sizeSub sizeT
    rw [if_neg (by omega)]
  rw [smbMessageInsert, hkeep]

theorem Builds.insert_front {msg : SmbMessage} {content : List (Option UInt8)}
    (h : Builds msg content) (hlen : content.length < 2 ^ 63) {data : List UInt8} (hdata : data ≠ [])
    (hfit : data.length ≤ content.length) :
    Builds (smbMessageInsert msg 0 data) (overwrite content data) ∧
      ∀ i, data.length ≤ i → (smbMessageInsert msg 0 data).payload i = msg.payload i := by
  have hroom := h.room
  have hslack := h.slack
  rw [payloadBlockSize] at hslack
  have heq := insert_front_eq msg hdata (by omega) (by omega)
  have hpayload : (smbMessageInsert msg 0 data).payload = msg.payload.write 0 data := by
    rw [heq, payload_poke]
  have hbehind : ∀ i, data.length ≤ i → (smbMessageInsert msg 0 data).payload i = msg.payload i := by
    intro i hi
    rw [hpayload]
    exact Mem.write_of_ge _ _ (by omega)
  have hover : (overwrite content data).length = content.length := by
    rw [overwrite, List.length_append, List.length_map, List.length_drop]
    omega
  refine ⟨⟨?_, ?_, ?_, ?_⟩, hbehind⟩
  · rw [hover, heq]
    exact h.cursor
  · rw [hover, heq]
    exact hroom
  · rw [hover, heq]
    exact hslack
  · intro i b hi
    by_cases hfront : i < data.length
    · rw [overwrite, List.getElem?_append_left (by simpa using hfront), List.getElem?_map,
        List.getElem?_eq_getElem hfront] at hi
      have hread := Mem.write_inside msg.payload 0 i data hfront
      rw [Nat.zero_add] at hread
      rw [hpayload, hread]
      simpa using hi
    · have hge := Nat.le_of_not_lt hfront
      rw [overwrite, List.getElem?_append_right (by simpa using hge), List.length_map,
        List.getElem?_drop, Nat.add_sub_cancel' hge] at hi
      rw [hbehind i hge]
      exact h.bytes i b hi

/-- After every run of calls on a new message the cursor is inside the payload and the payload below
it is the list of what was put in; and an insert at the front of a chunk that the list covers
replaces exactly the front of the list. -/
theorem message_builds (cmd : UInt8) (calls : List BuilderCall)
    (hlen : (builtContent P calls).length < 2 ^ 63) :
    let msg := builtMessage P cmd calls
    let content := builtContent P calls
    msg.cursor ≤ msg.payloadSize ∧ msg.cursor = content.length ∧
      (∀ i b, content[i]? = some (some b) → msg.payload i = b) ∧
      ∀ data : List UInt8, data ≠ [] → data.length ≤ msg.cursor →
        let inserted := smbMessageInsert msg 0 data
        inserted.cursor = msg.cursor ∧ inserted.payload.read 0 data.length = data ∧
          ∀ i, data.length ≤ i → inserted.payload i = msg.payload i := by
  intro msg content
  have hbuilds : Builds msg content := by
    have hruns := (Builds.new P cmd).runs P calls (by rw [List.length_nil]; omega)
    rw [List.nil_append] at hruns
    exact hruns
  refine ⟨?_, hbuilds.cursor, hbuilds.bytes, ?_⟩
  · rw [hbuilds.cursor]
    exact hbuilds.room
  · intro data hdata hfit inserted
    rw [hbuilds.cursor] at hfit
    obtain ⟨hins, hbehind⟩ := hbuilds.insert_front hlen hdata hfit
    refine ⟨?_, ?_, hbehind⟩
    · rw [hins.cursor, hbuilds.cursor, overwrite, List.length_append, List.length_map,
        List.length_drop]
      omega
    · apply List.ext_getElem
      · rw [Mem.read_length]
      · intro i hi hi'
        have hget : (overwrite content data)[i]? = some (some data[i]) := by
          rw [overwrite, List.getElem?_append_left (by simpa using hi'), List.getElem?_map,
            List.getElem?_eq_getElem hi']
          rfl
        have hbyte := hins.bytes i data[i] hget
        simpa [Mem.read] using hbyte

/-- A header skipped and filled in last, with an empty append in between. -/
theorem message_builds_header :
    let calls := [.advance 3, .append [], .put16 0x0201, .putUtf16 (ascii "a")]
    let msg := builtMessage .ascii smbCmdSetup calls
    (builtContent .ascii calls).length < 2 ^ 63 ∧ msg.cursor = 7 ∧ msg.payload 3 = 1 ∧
      (smbMessageInsert msg 0 [7, 8, 9]).payload.read 0 3 = [7, 8, 9] := by
  intro calls msg
  have hlen : (builtContent .ascii calls).length < 2 ^ 63 := by decide +kernel
  obtain ⟨-, hcursor, hbytes, hinsert⟩ := message_builds .ascii smbCmdSetup calls hlen
  have hseven : msg.cursor = 7 := hcursor.trans (by decide +kernel)
  refine ⟨hlen, hseven, hbytes 3 1 (by decide +kernel), ?_⟩
  exact (hinsert [7, 8, 9] (by simp) (by rw [hseven]; decide)).2.1

end Libdsm
