import Libdsm.Smb.Proofs.Trans2
import Mathlib.Data.List.Forall2
import Mathlib.Data.Nat.Bitwise

/-!
# Directory listings

`smb_find` against a server that lists a directory. The server has a list of entries, hands them out
in batches, one for the FIND_FIRST request and one for each FIND_NEXT request, and cuts the answer of
each batch into messages as it likes. What `smb_find` returns is the list of the entries, the last
one first, whatever the batches and the cuts are.
-/

namespace Libdsm

/-! ## Entries -/

/-- A directory entry as the server sends it, with the bytes it puts behind the name. -/
structure DirEntry where
  index : UInt32
  created : UInt64
  accessed : UInt64
  written : UInt64
  changed : UInt64
  size : UInt64
  allocSize : UInt64
  attr : UInt32
  eaListLen : UInt32
  shortNameLen : UInt8
  reserved : UInt8
  shortName : List UInt8
  /-- The name in UCS-2LE. -/
  name : List UInt8
  padding : List UInt8
  shortName_length : shortName.length = 24

namespace DirEntry

/-- The fields before the name (`smb_tr2_find2_entry`). -/
def header (e : DirEntry) (next : Nat) : List UInt8 :=
  le32 (UInt32.ofNat next) ++ le32 e.index ++ le64 e.created ++ le64 e.accessed ++ le64 e.written ++
    le64 e.changed ++ le64 e.size ++ le64 e.allocSize ++ le32 e.attr ++
    le32 (UInt32.ofNat e.name.length) ++ le32 e.eaListLen ++ [e.shortNameLen] ++ [e.reserved] ++
    e.shortName

/-- The entry, `next` being the distance to the one after it. -/
def bytes (e : DirEntry) (next : Nat) : List UInt8 := e.header next ++ e.name ++ e.padding

/-- The length of the entry. -/
def extent (e : DirEntry) : Nat := SmbTr2Find2Entry.size + e.name.length + e.padding.length

theorem header_length (e : DirEntry) (next : Nat) :
    (e.header next).length = SmbTr2Find2Entry.size := by
  simp [header, e.shortName_length, SmbTr2Find2Entry.size]

theorem bytes_length (e : DirEntry) (next : Nat) : (e.bytes next).length = e.extent := by
  rw [bytes, List.length_append, List.length_append, header_length, extent]

/-- What a listing shows of the entry: its converted name, its times, sizes and attributes, and
whether the directory bit is set. -/
structure ListedAs (P : Platform) (e : DirEntry) (file : SmbFile) : Prop where
  name : file.name = some (smbFromUtf16 P e.name)
  nameLen : file.nameLen = (smbFromUtf16 P e.name).length
  created : file.created = e.created
  accessed : file.accessed = e.accessed
  written : file.written = e.written
  changed : file.changed = e.changed
  size : file.size = e.size
  allocSize : file.allocSize = e.allocSize
  attr : file.attr = e.attr
  isDir : file.isDir ≠ 0 ↔ e.attr.toNat.testBit 4 = true

end DirEntry

/-- The data of a batch: each entry holds the distance to the next, the last one zero. -/
def encodeEntries : List DirEntry → List UInt8
  | [] => []
  | [e] => e.bytes 0
  | e :: next :: es => e.bytes e.extent ++ encodeEntries (next :: es)

/-! ## Parsing a batch -/

/-- The directory bit, as the code tests it. -/
theorem attrDir_iff (attr : UInt32) : attr &&& smbAttrDir ≠ 0 ↔ attr.toNat.testBit 4 = true := by
  have hbit : (attr &&& smbAttrDir).toNat = attr.toNat &&& 2 ^ 4 := by
    rw [UInt32.toNat_and]
    rfl
  rw [ne_eq, ← UInt32.toNat_inj, hbit, Nat.and_two_pow]
  cases attr.toNat.testBit 4 with
  | false => simp
  | true => simp

section Fields

variable {m : Mem} {e : DirEntry} {next : Nat}
variable (h : m.read 0 (e.bytes next).length = e.bytes next)

include h

/-- A range of the entry. -/
theorem entry_read {off k : Nat} (hoff : off + k ≤ e.extent) :
    m.read off k = ((e.bytes next).drop off).take k := by
  have hlen : off + k ≤ (e.bytes next).length := by
    rw [DirEntry.bytes_length]
    exact hoff
  rw [← Mem.read_part h hlen, Nat.zero_add]

/-- A range of the fields before the name. -/
theorem entry_read_header {off k : Nat} (hoff : off + k ≤ SmbTr2Find2Entry.size) :
    m.read off k = ((e.header next).drop off).take k := by
  have hext : SmbTr2Find2Entry.size ≤ e.extent := by
    rw [DirEntry.extent]
    omega
  rw [entry_read h (by omega), DirEntry.bytes, List.append_assoc,
    field_append (by rw [DirEntry.header_length]; exact hoff)]

theorem entry_nextEntry : SmbTr2Find2Entry.nextEntry m = UInt32.ofNat next := by
  apply Mem.u32_eq
  rw [entry_read_header h (by decide)]
  simp [DirEntry.header]

theorem entry_nameLen : SmbTr2Find2Entry.nameLen m = UInt32.ofNat e.name.length := by
  apply Mem.u32_eq
  rw [entry_read_header h (by decide)]
  simp [DirEntry.header, List.drop_append, List.drop_of_length_le]

theorem entry_name : m.read SmbTr2Find2Entry.size e.name.length = e.name := by
  have hext : SmbTr2Find2Entry.size + e.name.length ≤ e.extent := by
    rw [DirEntry.extent]
    omega
  rw [entry_read h hext, DirEntry.bytes, List.append_assoc,
    List.drop_left' (DirEntry.header_length e next), List.take_left' rfl]

/-- The file made of an entry shows it. -/
theorem find2File_listed (P : Platform) :
    e.ListedAs P (smbTr2Find2File m (smbFromUtf16 P e.name)) := by
  have hattr : SmbTr2Find2Entry.attr m = e.attr := by
    apply Mem.u32_eq
    rw [entry_read_header h (by decide)]
    simp [DirEntry.header, List.drop_append, List.drop_of_length_le]
  have htime : ∀ (off : Nat) (x : UInt64), off + 8 ≤ SmbTr2Find2Entry.size →
      ((e.header next).drop off).take 8 = le64 x → m.u64 off = x := by
    intro off x hoff hfield
    apply Mem.u64_eq
    rw [entry_read_header h hoff]
    exact hfield
  refine ⟨rfl, rfl, ?_, ?_, ?_, ?_, ?_, ?_, hattr, ?_⟩
  · apply htime 8 e.created (by decide)
    simp [DirEntry.header, List.drop_append, List.drop_of_length_le]
  · apply htime 16 e.accessed (by decide)
    simp [DirEntry.header, List.drop_append, List.drop_of_length_le]
  · apply htime 24 e.written (by decide)
    simp [DirEntry.header, List.drop_append, List.drop_of_length_le]
  · apply htime 32 e.changed (by decide)
    simp [DirEntry.header, List.drop_append, List.drop_of_length_le]
  · apply htime 40 e.size (by decide)
    simp [DirEntry.header, List.drop_append, List.drop_of_length_le]
  · apply htime 48 e.allocSize (by decide)
    simp [DirEntry.header, List.drop_append, List.drop_of_length_le]
  · show SmbTr2Find2Entry.attr m &&& smbAttrDir ≠ 0 ↔ _
    rw [hattr]
    exact attrDir_iff e.attr

end Fields

/-- The entry at the front of a batch, and where the next one is. -/
theorem encodeEntries_cons (e : DirEntry) (es : List DirEntry) :
    ∃ next, encodeEntries (e :: es) = e.bytes next ++ encodeEntries es ∧
      (es ≠ [] → next = e.extent) := by
  cases es with
  | nil =>
    refine ⟨0, ?_, fun h => absurd rfl h⟩
    rw [encodeEntries, encodeEntries, List.append_nil]
  | cons e' es => exact ⟨e.extent, rfl, fun _ => rfl⟩

/-- `smb_tr2_find2_parse_entries` on a batch, with its number of entries: each of them goes to the
front of the list. -/
theorem parseEntries_batch (P : Platform) (payload : Mem) (eod : Nat) :
    ∀ (es : List DirEntry) (iter : Nat) (files : List SmbFile),
      payload.read iter (encodeEntries es).length = encodeEntries es →
      iter + (encodeEntries es).length ≤ eod → (encodeEntries es).length < 2 ^ 32 →
      (∀ e ∈ es, smbFromUtf16 P e.name ≠ []) →
      ∃ listed, smbTr2Find2ParseEntries P payload eod es.length iter files = listed ++ files ∧
        List.Forall₂ (DirEntry.ListedAs P) es.reverse listed := by
  intro es
  induction es with
  | nil =>
    intro iter files _ _ _ _
    exact ⟨[], rfl, .nil⟩
  | cons e es ih =>
    intro iter files hread heod hlt hconv
    obtain ⟨next, hbytes, hnext⟩ := encodeEntries_cons e es
    rw [hbytes, List.length_append, Mem.read_add, e.bytes_length] at hread
    rw [hbytes, List.length_append, e.bytes_length] at heod hlt
    obtain ⟨hentry, hrest⟩ := List.append_inj hread (by rw [Mem.read_length, e.bytes_length])
    have hpos : SmbTr2Find2Entry.size + e.name.length ≤ e.extent := by
      rw [DirEntry.extent]
      omega
    rw [SmbTr2Find2Entry.size] at hpos
    have hshift : (payload.shift iter).read 0 (e.bytes next).length = e.bytes next := by
      rw [Mem.read_shift, e.bytes_length]
      exact hentry
    have hnameLen : (SmbTr2Find2Entry.nameLen (payload.shift iter)).toNat = e.name.length := by
      rw [entry_nameLen hshift]
      exact UInt32.toNat_ofNat_of_lt' (by rw [UInt32.size]; omega)
    obtain ⟨listed, hparse, hlisted⟩ : ∃ listed,
        smbTr2Find2ParseEntries P payload eod es.length
          (iter + (SmbTr2Find2Entry.nextEntry (payload.shift iter)).toNat)
          (smbTr2Find2File (payload.shift iter) (smbFromUtf16 P e.name) :: files) =
            listed ++ smbTr2Find2File (payload.shift iter) (smbFromUtf16 P e.name) :: files ∧
        List.Forall₂ (DirEntry.ListedAs P) es.reverse listed := by
      by_cases hes : es = []
      · -- the last entry leads nowhere, and no turn is left
        subst hes
        exact ⟨[], rfl, .nil⟩
      · have hstep : (SmbTr2Find2Entry.nextEntry (payload.shift iter)).toNat = e.extent := by
          rw [entry_nextEntry hshift, hnext hes]
          exact UInt32.toNat_ofNat_of_lt' (by rw [UInt32.size]; omega)
        rw [hstep]
        exact ih _ _ hrest (by omega) (by omega) fun x hx => hconv x (List.mem_cons_of_mem _ hx)
    refine ⟨listed ++ [smbTr2Find2File (payload.shift iter) (smbFromUtf16 P e.name)], ?_, ?_⟩
    · rw [List.length_cons, smbTr2Find2ParseEntries, if_pos (by omega)]
      simp only [hnameLen, entry_name hshift]
      rw [if_neg (hconv e (by simp)), hparse, List.append_assoc]
      rfl
    · rw [List.reverse_cons]
      exact List.rel_append hlisted (.cons (find2File_listed hshift P) .nil)

/-! ## The answers of a server -/

/-- The parameters of an answer with these entries, whose count is at `base`. The end of the search
is marked on the last answer only. -/
structure FindParams (base : Nat) (es : List DirEntry) (last : Bool) (params : List UInt8) :
    Prop where
  count : (replyU16 params base).toNat = es.length
  eos : replyU16 params (base + 2) ≠ 0 ↔ last = true
  eaErrorOffset : replyU16 params (base + 4) = 0

/-- An answer with `size` bytes of parameters, cut into these messages. -/
def FindReply (size base : Nat) (es : List DirEntry) (last : Bool) (reply : List (List UInt8)) :
    Prop :=
  ∃ params, params.length = size ∧ FindParams base es last params ∧
    Tr2Answer params (encodeEntries es) reply

/-- The answer to a FIND_FIRST request. -/
def FindFirstReply : List DirEntry → Bool → List (List UInt8) → Prop :=
  FindReply SmbTr2Findfirst2Params.size 2

/-- The answer to a FIND_NEXT request. -/
def FindNextReply : List DirEntry → Bool → List (List UInt8) → Prop :=
  FindReply SmbTr2Findnext2Params.size 0

/-- The answers to the FIND_NEXT requests, one for each batch. -/
inductive FindNextReplies : List (List DirEntry) → List (List (List UInt8)) → Prop where
  | done : FindNextReplies [] []
  | next {batch : List DirEntry} {batches : List (List DirEntry)} {reply : List (List UInt8)}
      {replies : List (List (List UInt8))} :
      FindNextReply batch batches.isEmpty reply → FindNextReplies batches replies →
      FindNextReplies (batch :: batches) (reply :: replies)

theorem Tr2Answer.length_lt {params data : List UInt8} {reply : List (List UInt8)}
    (h : Tr2Answer params data reply) : data.length < 65536 := by
  obtain ⟨-, hfragment, -, -⟩ := h
  rw [← hfragment.total]
  exact UInt16.toNat_lt _

namespace Assembled

variable {msg : SmbMessage} {params data : List UInt8} (h : Assembled msg params data)

include h

theorem param_u16 {off : Nat} (hoff : off + 2 ≤ params.length) :
    (smbTr2Params msg).u16 off = replyU16 params off := by
  rw [Mem.u16, replyU16, ← Mem.read_part h.params_eq hoff, Nat.zero_add]

end Assembled

/-- The entries of an answer that was put together. -/
theorem Assembled.parse {msg : SmbMessage} {params : List UInt8} {es : List DirEntry}
    (h : Assembled msg params (encodeEntries es)) (hlt : (encodeEntries es).length < 65536)
    {P : Platform} (hconv : ∀ e ∈ es, smbFromUtf16 P e.name ≠ []) (files : List SmbFile) :
    ∃ listed, smbTr2Find2ParseEntries P msg.payload msg.payloadSize es.length
        (SmbTrans2Resp.size + params.length) files = listed ++ files ∧
      List.Forall₂ (DirEntry.ListedAs P) es.reverse listed :=
  parseEntries_batch P msg.payload msg.payloadSize es _ files h.data_eq h.size (by omega) hconv

/-! ## Requests -/

/-- The room a search request needs on the socket. -/
def findRoom (utfPattern : List UInt8) : Nat := 128 + utfPattern.length

theorem trans2Frame_length (P : Platform) (s : SmbSession) (tid : UInt16) (tr2 : SmbTrans2Req)
    {params utf : List UInt8} {padding : Nat} (hparams : params.length = 12) (hpadding : padding < 4)
    (hroom : findRoom utf < 2 ^ 32) :
    (s.requestFrame (smbTrans2Msg P tid tr2 params utf padding)).length ≤ findRoom utf := by
  have htr2 : tr2.bytes.length = 36 := trans2Req_length tr2
  rw [findRoom] at hroom ⊢
  have hcursor := trans2Msg_cursor P tid tr2 params utf padding (by omega)
  rw [requestFrame_length s _ (by rw [hcursor, smbHeaderSize]; omega), hcursor, netbiosHeaderSize,
    smbHeaderSize]
  omega

theorem tr2Padding_lt (bct : Nat) : smbTr2Padding bct < 4 := Nat.mod_lt _ (by decide)

theorem findFirstReq_length (P : Platform) (s : SmbSession) (tid : UInt16) {utf : List UInt8}
    (hroom : findRoom utf < 2 ^ 32) :
    (s.requestFrame (smbTrans2FindFirstReq P tid utf)).length ≤ findRoom utf :=
  trans2Frame_length P s tid _ (by simp [SmbTr2Findfirst2.bytes]) (tr2Padding_lt _) hroom

theorem findNextReq_length (P : Platform) (s : SmbSession) (tid resumeKey sid : UInt16)
    {utf : List UInt8} (hroom : findRoom utf < 2 ^ 32) :
    (s.requestFrame (smbTrans2FindNextReq P tid resumeKey sid utf)).length ≤ findRoom utf :=
  trans2Frame_length P s tid _ (by simp [SmbTr2Findnext2.bytes]) (tr2Padding_lt _) hroom

/-! ## The search -/

section Search

variable {P : Platform} {pattern : List UInt8} {room : Nat} {s : SmbSession}
variable {reply : List (List UInt8)} {replies : List (List (List UInt8))} {params data : List UInt8}
variable (hpattern : smbToUtf16 P (pattern ++ [0]) ≠ [])
variable (hlt : findRoom (smbToUtf16 P (pattern ++ [0])) < 2 ^ 32)
variable (hroom : findRoom (smbToUtf16 P (pattern ++ [0])) ≤ room)

include hpattern hlt hroom

theorem findFirst_answer (tid : UInt16) (h : Talks room s [] (reply :: replies))
    (hanswer : Tr2Answer params data reply) (hparams : params.length < 65536) :
    ∃ msg s', smbTrans2FindFirst P tid pattern s = (some msg, s') ∧ Assembled msg params data ∧
      Talks room s' [] replies := by
  have hlen := findFirstReq_length P s tid hlt
  obtain ⟨msg, s', s'', hsend, hrecv, hmsg, htalks⟩ :=
    h.trans2 P hanswer hparams (Nat.le_trans hlen hroom) (Nat.lt_of_le_of_lt hlen hlt)
  refine ⟨msg, s'', ?_, hmsg, htalks⟩
  rw [smbTrans2FindFirst, if_neg hpattern, bind_run hsend]
  exact hrecv

theorem findNext_answer (tid resumeKey sid : UInt16) (h : Talks room s [] (reply :: replies))
    (hanswer : Tr2Answer params data reply) (hparams : params.length < 65536) :
    ∃ msg s', smbTrans2FindNext P tid resumeKey sid pattern s = (some msg, s') ∧
      Assembled msg params data ∧ Talks room s' [] replies := by
  have hlen := findNextReq_length P s tid resumeKey sid hlt
  obtain ⟨msg, s', s'', hsend, hrecv, hmsg, htalks⟩ :=
    h.trans2 P hanswer hparams (Nat.le_trans hlen hroom) (Nat.lt_of_le_of_lt hlen hlt)
  refine ⟨msg, s'', ?_, hmsg, htalks⟩
  rw [smbTrans2FindNext, if_neg hpattern, bind_run hsend]
  exact hrecv

/-- The FIND_NEXT loop lists the batches that are left. -/
theorem findLoop_lists (tid sid : UInt16) {batches : List (List DirEntry)}
    (hreplies : FindNextReplies batches replies)
    (hconv : ∀ e ∈ batches.flatten, smbFromUtf16 P e.name ≠ []) :
    ∀ {s : SmbSession} {fuel : Nat} (resumeKey : UInt16) {files : List SmbFile},
      Talks room s [] replies → replies.length < fuel → files ≠ [] →
      ∃ listed s', smbFindLoop P tid sid pattern fuel batches.isEmpty resumeKey 0 files s =
          (listed ++ files, s') ∧
        List.Forall₂ (DirEntry.ListedAs P) batches.flatten.reverse listed ∧
        Talks room s' [] [] := by
  induction hreplies with
  | done =>
    intro s fuel resumeKey files htalks hfuel hfiles
    cases fuel with
    | zero => simp at hfuel
    | succ fuel =>
      refine ⟨[], s, ?_, .nil, htalks⟩
      rw [smbFindLoop]
      rfl
  | @next batch batches reply replies hreply hreplies ih =>
    intro s fuel resumeKey files htalks hfuel hfiles
    obtain ⟨params, hsize, hparams, hanswer⟩ := hreply
    rw [SmbTr2Findnext2Params.size] at hsize
    cases fuel with
    | zero => simp at hfuel
    | succ fuel =>
      obtain ⟨msg, s', hnext, hmsg, htalks'⟩ :=
        findNext_answer hpattern hlt hroom tid resumeKey sid htalks hanswer (by omega)
      rw [List.flatten_cons] at hconv ⊢
      obtain ⟨listed, hparse, hlisted⟩ := hmsg.parse hanswer.length_lt
        (fun e he => hconv e (List.mem_append_left _ he)) files
      have hcount : (SmbTr2Findnext2Params.count (smbTr2Params msg)).toNat = batch.length := by
        rw [SmbTr2Findnext2Params.count, hmsg.param_u16 (by omega), hparams.count]
      have heos : SmbTr2Findnext2Params.eos (smbTr2Params msg) ≠ 0 ↔ batches.isEmpty = true := by
        rw [SmbTr2Findnext2Params.eos, hmsg.param_u16 (by omega)]
        exact hparams.eos
      have herror : SmbTr2Findnext2Params.eaErrorOffset (smbTr2Params msg) = 0 := by
        rw [SmbTr2Findnext2Params.eaErrorOffset, hmsg.param_u16 (by omega)]
        exact hparams.eaErrorOffset
      have hfiles' : listed ++ files ≠ [] := by
        simp [hfiles]
      have hparsed : smbFindNextParse P msg files = listed ++ files := by
        rw [smbFindNextParse, hcount, ← hparse, hsize]
        rfl
      have hless : replies.length < fuel := by
        rw [List.length_cons] at hfuel
        omega
      obtain ⟨listed', s'', hloop, hlisted', htalks''⟩ :=
        ih (fun e he => hconv e (List.mem_append_right _ he))
          (SmbTr2Findnext2Params.lastNameOffset (smbTr2Params msg)) htalks' hless hfiles'
      refine ⟨listed' ++ listed, s'', ?_, ?_, htalks''⟩
      · have hgo : ¬ ((batch :: batches).isEmpty = true ∨ (0 : UInt16) ≠ 0) := by simp
        have hend : decide (SmbTr2Findnext2Params.eos (smbTr2Params msg) ≠ 0 ∨
            listed ++ files = []) = batches.isEmpty := by
          rw [Bool.eq_iff_iff, decide_eq_true_iff, heos]
          simp [hfiles']
        rw [smbFindLoop, if_neg hgo, bind_run hnext]
        dsimp only
        rw [hparsed, herror, hend, hloop, List.append_assoc]
      · rw [List.reverse_append]
        exact List.rel_append hlisted' hlisted

end Search

/-- A search that a server answers with at least one entry returns the entries, each once and the
last one first, however the server groups them into answers and cuts the answers into messages. -/
theorem smbFind_lists (P : Platform) (tid : UInt16) (pattern : List UInt8) (s : SmbSession)
    (batch : List DirEntry) (batches : List (List DirEntry)) (reply : List (List UInt8))
    (replies : List (List (List UInt8)))
    (hpattern : smbToUtf16 P (pattern ++ [0]) ≠ [])
    (hlt : findRoom (smbToUtf16 P (pattern ++ [0])) < 2 ^ 32)
    (htalks : Talks (findRoom (smbToUtf16 P (pattern ++ [0]))) s [] (reply :: replies))
    (hfirst : FindFirstReply batch batches.isEmpty reply) (hnext : FindNextReplies batches replies)
    (hbatch : batch ≠ [])
    (hconv : ∀ e ∈ batch ++ batches.flatten, smbFromUtf16 P e.name ≠ []) :
    List.Forall₂ (DirEntry.ListedAs P) (batch ++ batches.flatten).reverse
      (smbFind P tid pattern s).1 := by
  obtain ⟨params, hsize, hparams, hanswer⟩ := hfirst
  rw [SmbTr2Findfirst2Params.size] at hsize
  obtain ⟨msg, s', hfind, hmsg, htalks'⟩ :=
    findFirst_answer hpattern hlt (Nat.le_refl _) tid htalks hanswer (by omega)
  obtain ⟨listed, hparse, hlisted⟩ := hmsg.parse hanswer.length_lt
    (fun e he => hconv e (List.mem_append_left _ he)) []
  rw [List.append_nil] at hparse
  have hcount : (SmbTr2Findfirst2Params.count (smbTr2Params msg)).toNat = batch.length := by
    rw [SmbTr2Findfirst2Params.count, hmsg.param_u16 (by omega), hparams.count]
  have heos : decide (SmbTr2Findfirst2Params.eos (smbTr2Params msg) ≠ 0) = batches.isEmpty := by
    rw [SmbTr2Findfirst2Params.eos, hmsg.param_u16 (by omega), Bool.eq_iff_iff, decide_eq_true_iff]
    exact hparams.eos
  have herror : SmbTr2Findfirst2Params.eaErrorOffset (smbTr2Params msg) = 0 := by
    rw [SmbTr2Findfirst2Params.eaErrorOffset, hmsg.param_u16 (by omega)]
    exact hparams.eaErrorOffset
  have hparsed : smbFindFirstParse P msg [] = listed := by
    rw [smbFindFirstParse, hcount, ← hparse, hsize]
    rfl
  have hfiles : listed ≠ [] := by
    intro hnil
    rw [hnil, List.forall₂_nil_right_iff, List.reverse_eq_nil_iff] at hlisted
    exact hbatch hlisted
  have hfuel : replies.length < s'.tcp.sends.length + 1 :=
    Nat.lt_succ_of_le (htalks'.length_le (by rw [findRoom]; omega))
  obtain ⟨listed', s'', hloop, hlisted', -⟩ :=
    findLoop_lists hpattern hlt (Nat.le_refl _) tid (SmbTr2Findfirst2Params.id (smbTr2Params msg))
      hnext (fun e he => hconv e (List.mem_append_right _ he))
      (SmbTr2Findfirst2Params.lastNameOffset (smbTr2Params msg)) htalks' hfuel hfiles
  have hresult : (smbFind P tid pattern s).1 = listed' ++ listed := by
    rw [smbFind, bind_run hfind]
    dsimp only
    rw [hparsed, if_neg hfiles, get_bind_run, heos, herror, hloop]
  rw [hresult, List.reverse_append]
  exact List.rel_append hlisted' hlisted

/-! ## A server with two files -/

/-- A message of a TRANS2 answer with these counters. -/
def tr2Reply (total count displacement : UInt16) (body : List UInt8) : List UInt8 :=
  replyBytes 0 0 0 (List.replicate 3 0 ++ le16 total ++ List.replicate 8 0 ++ le16 count ++ [0, 0] ++
    le16 displacement ++ List.replicate 5 0 ++ body)

/-- A peer that answers the `k`-th request with the messages of the `k`-th reply, a chunk for each. -/
def Tcp.serving (replies : List (List (List UInt8))) : Tcp where
  connects := []
  sends := replies.map fun _ => 65539
  server := fun k _ => (replies.getD k []).map fun m => [0, 0] ++ htons m.length ++ m
  served := 0
  inbox := []
  wire := []
  log := []

/-- A session connected to such a peer. -/
def servedBy (replies : List (List (List UInt8))) : SmbSession where
  transport := { session := netbiosSessionOn (fun _ => 0) (.serving replies) 8192 }

theorem delivers_frames {msgs : List (List UInt8)} (h : ∀ m ∈ msgs, m.length < 65536) :
    Delivers (msgs.map fun m => [0, 0] ++ htons m.length ++ m) msgs := by
  induction msgs with
  | nil => exact ⟨by simp [Chunks.Live], [], rfl, rfl⟩
  | cons m msgs ih =>
    have hm : m.length / 65536 = (0 : UInt8).toNat % 2 := Nat.div_eq_of_lt (h m (by simp))
    have hone : Delivers [[0, 0] ++ htons m.length ++ m] [m] := @Delivers.frame ⟨0, 0, m, hm⟩ rfl
    exact hone.append (ih fun x hx => h x (List.mem_cons_of_mem _ hx))

theorem talks_servedBy {replies : List (List (List UInt8))}
    (h : ∀ reply ∈ replies, ∀ m ∈ reply, m.length < 65536) {room : Nat} (hroom : room ≤ 65539) :
    Talks room (servedBy replies) [] replies := by
  refine ⟨rfl, ⟨by simp [Chunks.Live, servedBy, netbiosSessionOn, netbiosSessionNew, Tcp.serving,
    SmbSession.tcp], [], rfl, rfl⟩, ?_, ?_⟩
  · intro k reply hk frame
    have hget : replies.getD (0 + k) [] = reply := by
      rw [Nat.zero_add, List.getD_eq_getElem?_getD, hk, Option.getD_some]
    show Delivers ((replies.getD (0 + k) []).map fun m => [0, 0] ++ htons m.length ++ m) reply
    rw [hget]
    exact delivers_frames (h reply (List.mem_of_getElem? hk))
  · intro k hk
    show room ≤ (replies.map fun _ => 65539).getD k 0
    simp [List.getD_eq_getElem?_getD, hk, hroom]

/-- A file and a directory, with other fields zero. -/
def sampleEntry (name : String) (attr : UInt32) : DirEntry where
  index := 0
  created := 1
  accessed := 2
  written := 3
  changed := 4
  size := 5
  allocSize := 6
  attr := attr
  eaListLen := 0
  shortNameLen := 0
  reserved := 0
  shortName := List.replicate 24 0
  name := (ascii name).flatMap fun b => [b, 0]
  padding := [0, 0]
  shortName_length := rfl

/-- The first answer is one message, the second one is cut inside the entry. -/
def sampleFirst : List (List UInt8) :=
  [tr2Reply 98 98 0 ([7, 0, 1, 0] ++ List.replicate 8 0 ++ encodeEntries [sampleEntry "a" 0x20])]

def sampleNext : List (List UInt8) :=
  let data := encodeEntries [sampleEntry "b" 0x10]
  [tr2Reply 98 10 0 ([1, 0, 1, 0] ++ List.replicate 4 0 ++ data.take 10),
    tr2Reply 98 88 10 (data.drop 10)]

theorem smbFind_lists_two :
    let a := sampleEntry "a" 0x20
    let b := sampleEntry "b" 0x10
    let s := servedBy [sampleFirst, sampleNext]
    Talks (findRoom (smbToUtf16 .ascii (ascii "*" ++ [0]))) s [] [sampleFirst, sampleNext] ∧
      List.Forall₂ (DirEntry.ListedAs .ascii) [b, a] (smbFind .ascii 1 (ascii "*") s).1 := by
  intro a b s
  have hshort : ∀ reply ∈ [sampleFirst, sampleNext], ∀ m ∈ reply, m.length < 65536 := by
    decide +kernel
  have htalks : Talks (findRoom (smbToUtf16 .ascii (ascii "*" ++ [0]))) s []
      [sampleFirst, sampleNext] := talks_servedBy hshort (by decide +kernel)
  have hfirst : FindFirstReply [a] [[b]].isEmpty sampleFirst := by
    refine ⟨[7, 0, 1, 0] ++ List.replicate 8 0, rfl, ⟨by decide +kernel, by decide +kernel,
      by decide +kernel⟩, ?_⟩
    exact @Tr2Answer.intro _ _ (encodeEntries [a]) [] _ _ (by decide +kernel)
      ⟨by decide +kernel, by decide +kernel, by decide +kernel, by decide +kernel⟩
      (by decide +kernel) .done
  have hnext : FindNextReply [b] ([] : List (List DirEntry)).isEmpty sampleNext := by
    refine ⟨[1, 0, 1, 0] ++ List.replicate 4 0, rfl, ⟨by decide +kernel, by decide +kernel,
      by decide +kernel⟩, ?_⟩
    have hlast : Tr2Rest (encodeEntries [b]).length ((encodeEntries [b]).drop 10 ++ [])
        [tr2Reply 98 88 10 ((encodeEntries [b]).drop 10)] :=
      .more (by decide +kernel)
        ⟨by decide +kernel, by decide +kernel, by decide +kernel, by decide +kernel⟩
        ⟨[], by decide +kernel⟩ .done
    rw [List.append_nil] at hlast
    exact @Tr2Answer.intro _ _ ((encodeEntries [b]).take 10) ((encodeEntries [b]).drop 10) _ _
      (List.take_append_drop 10 _).symm
      ⟨by decide +kernel, by decide +kernel, by decide +kernel, by decide +kernel⟩
      (by decide +kernel) hlast
  have hconv : ∀ e ∈ [a] ++ [[b]].flatten, smbFromUtf16 .ascii e.name ≠ [] := by
    intro e he
    rcases List.mem_cons.mp he with rfl | he
    · decide +kernel
    · rw [List.mem_singleton.mp he]
      decide +kernel
  exact ⟨htalks, smbFind_lists .ascii 1 (ascii "*") s [a] [[b]] sampleFirst [sampleNext]
    (by decide +kernel) (by decide +kernel) htalks hfirst (.next hnext .done) (by simp) hconv⟩

end Libdsm
