import Libdsm.Misc.Pieces
import Libdsm.Smb.Proofs.Layout

/-!
# Requests that carry paths

Six operations send paths as UTF-16 strings behind the byte count of their request, among padding and
bytes that say what comes next. A server that knows the layout of each command, and nothing of the
arguments, finds every string at an even offset and reads from it what was converted.
-/

namespace Libdsm

/-! ## Converted strings -/

/-- Units of UTF-16 with their terminator, as bytes. -/
def utf16z (units : List UInt16) : List UInt8 := units.flatMap le16 ++ [0, 0]

/-- The bytes are a UTF-16 string with its terminator. -/
def Utf16z (utf : List UInt8) : Prop := ∃ units : List UInt16, 0 ∉ units ∧ utf = utf16z units

/-- What the library relies on when it converts a string to UCS-2LE: the characters become units, and
the terminator becomes the only one that is zero. -/
def Platform.ConvertsStrings (P : Platform) : Prop :=
  ∀ ic src room out, P.iconv .ucs2le .locale = some ic → 0 ∉ src →
    ic (src ++ [0]) room = .done out → Utf16z out

theorem smbIconvLoop_done {ic : List UInt8 → Nat → IconvResult} {src : List UInt8}
    (muls : List Nat) (hne : smbIconvLoop ic src muls ≠ []) :
    ∃ mul ∈ muls, ic src (mul * src.length) = .done (smbIconvLoop ic src muls) := by
  induction muls with
  | nil => exact absurd rfl hne
  | cons mul muls ih =>
    rw [smbIconvLoop] at hne ⊢
    split at hne
    · rename_i out hout
      exact ⟨mul, List.mem_cons_self, hout⟩
    · obtain ⟨mul', hmem, hout⟩ := ih hne
      exact ⟨mul', List.mem_cons_of_mem _ hmem, hout⟩
    · exact absurd rfl hne

/-- A path that converts does so with its terminator. -/
theorem toUtf16_utf16z {P : Platform} (hconv : P.ConvertsStrings) {path : List UInt8}
    (hpath : 0 ∉ path) (hne : smbToUtf16 P (path ++ [0]) ≠ []) :
    Utf16z (smbToUtf16 P (path ++ [0])) := by
  rw [smbToUtf16, smbIconv, if_neg (by simp)] at hne ⊢
  cases hic : P.iconv .ucs2le .locale with
  | none =>
    rw [hic] at hne
    exact absurd rfl hne
  | some ic =>
    rw [hic] at hne
    obtain ⟨mul, -, hdone⟩ := smbIconvLoop_done _ hne
    exact hconv ic path _ _ hic hpath hdone

theorem utf16z_length (units : List UInt16) : (utf16z units).length = 2 * units.length + 2 := by
  have hbytes : (units.flatMap le16).length = 2 * units.length := by
    induction units with
    | nil => rfl
    | cons u units ih =>
      rw [List.flatMap_cons, List.length_append, le16_length, ih, List.length_cons]
      omega
  rw [utf16z, List.length_append, hbytes]
  rfl

theorem Utf16z.even {utf : List UInt8} (h : Utf16z utf) : utf.length % 2 = 0 := by
  obtain ⟨units, -, rfl⟩ := h
  rw [utf16z_length]
  omega

/-- The bytes up to the first zero unit, and those behind it. -/
def takeUtf16z : List UInt8 → Option (List UInt8 × List UInt8)
  | lo :: hi :: rest =>
    if lo = 0 ∧ hi = 0 then some ([0, 0], rest)
    else (takeUtf16z rest).map fun r => (lo :: hi :: r.1, r.2)
  | _ => none

theorem takeUtf16z_utf16z {units : List UInt16} (h : 0 ∉ units) (rest : List UInt8) :
    takeUtf16z (utf16z units ++ rest) = some (utf16z units, rest) := by
  induction units with
  | nil => rfl
  | cons u units ih =>
    obtain ⟨hu, hunits⟩ : u ≠ 0 ∧ 0 ∉ units := by
      simpa [eq_comm] using h
    obtain ⟨lo, hi, hbytes⟩ : ∃ lo hi, le16 u = [lo, hi] := ⟨_, _, rfl⟩
    have hcons : utf16z (u :: units) = lo :: hi :: utf16z units := by
      rw [utf16z, List.flatMap_cons, hbytes]
      rfl
    have hne : ¬ (lo = 0 ∧ hi = 0) := by
      rintro ⟨rfl, rfl⟩
      apply hu
      have hzero : leNat (le16 u) = 0 := by rw [hbytes]; rfl
      have hsmall : u.toNat % 256 ^ 2 = u.toNat := Nat.mod_eq_of_lt u.toNat_lt
      rw [le16, leNat_leBytes, hsmall] at hzero
      exact UInt16.toNat_inj.mp hzero
    rw [hcons, List.cons_append, List.cons_append, takeUtf16z, if_neg hne, ih hunits]
    rfl

/-! ## Layouts -/

/-- What may stand behind a byte count: a byte of a fixed value, a UTF-16 string up to its
terminator, one whose length is also in the field at `length`, or a string of single bytes. -/
inductive BodyField where
  | byte (value : UInt8)
  | utf16
  | sized (length : Nat)
  | oem
  deriving DecidableEq

namespace BodyField

/-- The bytes of the field at the front of a body. -/
def take (request : List UInt8) : BodyField → List UInt8 → Option (List UInt8 × List UInt8)
  | byte value, body => if body.head? = some value then some ([value], body.drop 1) else none
  | utf16, body => takeUtf16z body
  | sized length, body =>
    (takeUtf16z body).filter fun r => r.1.length = (replyU16 request length).toNat
  | oem, body =>
    if 0 ∈ body then some (cString body, body.drop (cString body).length) else none

def isUtf16 : BodyField → Bool
  | utf16 | sized _ => true
  | _ => false

def isString : BodyField → Bool
  | byte _ => false
  | _ => true

end BodyField

/-- Where a command has its byte count, and what comes behind it. -/
structure BodyLayout where
  bct : Nat
  fields : List BodyField

/-- A byte for the password, the path and the service. -/
def treeConnectLayout : BodyLayout := ⟨smbHeaderSize + 9, [.byte 0, .utf16, .oem]⟩

/-- Padding and the path, of which `path_length` has the length. -/
def createLayout : BodyLayout := ⟨smbHeaderSize + 49, [.byte 0, .sized (smbHeaderSize + 6)]⟩

/-- A buffer format and the path. -/
def rmfileLayout : BodyLayout := ⟨smbHeaderSize + 3, [.byte 4, .utf16]⟩
def directoryLayout : BodyLayout := ⟨smbHeaderSize + 1, [.byte 4, .utf16]⟩

/-- Two paths with their buffer formats; the padding stands before the second format. -/
def moveLayout : BodyLayout :=
  ⟨smbHeaderSize + 3, [.byte 4, .utf16, .byte 0, .byte 4, .utf16]⟩

/-- The layouts by command. -/
def layoutOf (cmd : UInt8) : Option BodyLayout :=
  if cmd = smbCmdTreeConnect then some treeConnectLayout
  else if cmd = smbCmdCreate then some createLayout
  else if cmd = smbCmdRmfile then some rmfileLayout
  else if cmd = smbCmdMove then some moveLayout
  else if cmd = smbCmdRmdir ∨ cmd = smbCmdMkdir then some directoryLayout
  else none

theorem layoutOf_treeConnect : layoutOf smbCmdTreeConnect = some treeConnectLayout := rfl
theorem layoutOf_create : layoutOf smbCmdCreate = some createLayout := rfl
theorem layoutOf_rmfile : layoutOf smbCmdRmfile = some rmfileLayout := rfl
theorem layoutOf_move : layoutOf smbCmdMove = some moveLayout := rfl

/-- The body of a request, read by a layout. -/
def readBody (request : List UInt8) (layout : BodyLayout) : Option (List (Piece BodyField UInt8)) :=
  readPieces (BodyField.take request) (layout.bct + 2) layout.fields
    (request.drop (layout.bct + 2))

/-- The request carries these strings: its byte count is that of the bytes behind it, and the
layout of its command reads the strings from them, those of UTF-16 at even offsets. -/
def CarriesStrings (request : List UInt8) (strings : List (List UInt8)) : Prop :=
  ∃ layout pieces, layoutOf (requestCommand request) = some layout ∧
    (replyU16 request layout.bct).toNat = (request.drop (layout.bct + 2)).length ∧
    readBody request layout = some pieces ∧
    (∀ piece ∈ pieces, piece.field.isUtf16 = true → piece.offset % 2 = 0) ∧
    (pieces.filter fun piece => piece.field.isString).map Piece.bytes = strings

/-- All that a layout looks at is behind the header. -/
theorem layoutOf_behind {cmd : UInt8} {layout : BodyLayout} (h : layoutOf cmd = some layout) :
    smbHeaderSize ≤ layout.bct ∧ ∀ length, .sized length ∈ layout.fields → smbHeaderSize ≤ length := by
  unfold layoutOf at h
  repeat' split at h
  all_goals cases h
  all_goals simp [treeConnectLayout, createLayout, rmfileLayout, moveLayout, directoryLayout]

/-! ## Reading a message -/

/-- The field takes the whole part, whatever comes behind it. -/
def Recognised (request : List UInt8) (part : BodyField × List UInt8) : Prop :=
  ∀ rest, part.1.take request (part.2 ++ rest) = some (part.2, rest)

section

variable {request : List UInt8}

theorem recognised_byte (value : UInt8) : Recognised request (.byte value, [value]) := by
  intro rest
  simp [BodyField.take]

theorem recognised_utf16 {utf : List UInt8} (h : Utf16z utf) : Recognised request (.utf16, utf) := by
  obtain ⟨units, hunits, rfl⟩ := h
  exact takeUtf16z_utf16z hunits

theorem recognised_sized {utf : List UInt8} (h : Utf16z utf) {length : Nat}
    (hlength : (replyU16 request length).toNat = utf.length) :
    Recognised request (.sized length, utf) := by
  intro rest
  have htake := @recognised_utf16 request utf h rest
  simp only [BodyField.take] at htake ⊢
  rw [htake, Option.filter_some, if_pos (by simpa using hlength.symm)]

theorem recognised_oem {text : List UInt8} (h : 0 ∉ text) :
    Recognised request (.oem, text ++ [0]) := by
  intro rest
  have hchars : ∀ b ∈ text, decide (b ≠ 0) = true := by
    intro b hb
    apply decide_eq_true
    rintro rfl
    exact h hb
  have hstring : cString (text ++ [0] ++ rest) = text ++ [0] := by
    rw [cString, List.append_assoc, List.takeWhile_append_of_pos hchars, List.singleton_append,
      List.takeWhile_cons_of_neg (by decide), List.append_nil]
  simp only [BodyField.take]
  rw [if_pos (by simp), hstring, List.drop_left]

end

/-- The command of a message, as it is read from its bytes. -/
theorem bytes_command (msg : SmbMessage) : requestCommand msg.bytes = msg.command := by
  have hlt : smbHeaderCommand < smbHeaderSize + msg.cursor := by
    rw [smbHeaderCommand, smbHeaderSize]
    omega
  rw [requestCommand, SmbMessage.bytes, List.getD_eq_getElem?_getD, Mem.read_getElem? _ _ _ _ hlt,
    Nat.zero_add]
  rfl

/-- A message carries on its way what it carries when it is handed over. -/
theorem CarriesStrings.sent (uid : UInt16) {msg : SmbMessage} {strings : List (List UInt8)}
    (h : CarriesStrings msg.bytes strings) : CarriesStrings (smbRequestBytes uid msg) strings := by
  obtain ⟨layout, pieces, hlayout, hcount, hbody, heven, hstrings⟩ := h
  obtain ⟨hbct, hsized⟩ := layoutOf_behind hlayout
  have htake : ∀ field ∈ layout.fields,
      BodyField.take (smbRequestBytes uid msg) field = BodyField.take msg.bytes field := by
    intro field hfield
    funext body
    cases field with
    | sized length => simp only [BodyField.take, requestBytes_replyU16 uid msg (hsized length hfield)]
    | _ => rfl
  have hbehind := requestBytes_drop uid msg (Nat.le_add_right_of_le (k := 2) hbct)
  refine ⟨layout, pieces, ?_, ?_, ?_, heven, hstrings⟩
  · rw [requestBytes_command, ← bytes_command]
    exact hlayout
  · rw [requestBytes_replyU16 uid msg hbct, hbehind]
    exact hcount
  · rw [← hbody, readBody, readBody, hbehind, readPieces_congr layout.fields htake]

/-- A run of appends. -/
theorem Builds.puts {msg : SmbMessage} {content : List UInt8} (h : Builds msg (content.map some))
    (puts : List (List UInt8)) (hlen : content.length + puts.flatten.length < 2 ^ 63) :
    Builds (smbMessagePuts msg puts) ((content ++ puts.flatten).map some) := by
  induction puts generalizing msg content with
  | nil =>
    rw [List.flatten_nil, List.append_nil]
    exact h
  | cons data puts ih =>
    rw [List.flatten_cons, List.length_append] at hlen
    have hone := h.append data (by rw [List.length_map]; omega)
    rw [← List.map_append] at hone
    have hrest := ih hone (by rw [List.length_append]; omega)
    rw [List.append_assoc] at hrest
    exact hrest

/-- What is put into an empty message are the parts of its command's layout, behind a structure that
ends with their number. -/
structure PutsLayout (base : SmbMessage) (puts : List (List UInt8)) (front : List UInt8)
    (layout : BodyLayout) (parts : List (BodyField × List UInt8)) : Prop where
  empty : Builds base []
  command : layoutOf base.command = some layout
  start : layout.bct = smbHeaderSize + front.length
  fields : layout.fields = parts.map Prod.fst
  content : puts.flatten = front ++ le16 (UInt16.ofNat (joined parts).length) ++ joined parts
  size : layout.bct + 2 + (joined parts).length ≤ 65535

namespace PutsLayout

variable {base : SmbMessage} {puts : List (List UInt8)} {front : List UInt8} {layout : BodyLayout}
variable {parts : List (BodyField × List UInt8)} (h : PutsLayout base puts front layout parts)

include h

theorem builds : Builds (smbMessagePuts base puts)
    ((front ++ le16 (UInt16.ofNat (joined parts).length) ++ joined parts).map some) := by
  have hplace := h.start
  have hsize := h.size
  have hcontent := h.content
  have hbuilds := @Builds.puts base [] h.empty puts (by
    rw [hcontent, List.length_append, List.length_append, le16_length, List.length_nil]
    omega)
  rw [List.nil_append, hcontent] at hbuilds
  exact hbuilds

/-- The message carries the strings among the parts if each part is recognised, and each UTF-16 string
lies at an even offset. -/
theorem carries (hparts : ∀ part ∈ parts, Recognised (smbMessagePuts base puts).bytes part)
    (heven : ∀ piece ∈ place (layout.bct + 2) parts,
      piece.field.isUtf16 = true → piece.offset % 2 = 0) :
    (smbMessagePuts base puts).bytes.length = layout.bct + 2 + (joined parts).length ∧
      CarriesStrings (smbMessagePuts base puts).bytes
        ((parts.filter fun part => part.1.isString).map Prod.snd) := by
  have hsize := h.size
  obtain ⟨hcount, hbody⟩ := h.builds.counted h.start
  refine ⟨?_, layout, _, ?_, ?_, ?_, heven, place_filter _ _ _⟩
  · rw [h.builds.bytes_length, List.length_append, List.length_append, le16_length, h.start]
    omega
  · rw [bytes_command, command_puts, h.command]
  · rw [hcount, hbody, UInt16.toNat_ofNat', Nat.mod_eq_of_lt (by omega)]
  · rw [readBody, h.fields, hbody]
    exact readPieces_place parts hparts _

end PutsLayout

/-- A request with one path: behind the count comes one byte and then the path. -/
theorem PutsLayout.carries_path {base : SmbMessage} {puts : List (List UInt8)}
    {front utf : List UInt8} {layout : BodyLayout} {value : UInt8} {field : BodyField}
    (h : PutsLayout base puts front layout [(.byte value, [value]), (field, utf)])
    (hodd : layout.bct % 2 = 1) (hstring : field.isString = true)
    (hutf : Recognised (smbMessagePuts base puts).bytes (field, utf)) :
    (smbMessagePuts base puts).bytes.length = layout.bct + 3 + utf.length ∧
      CarriesStrings (smbMessagePuts base puts).bytes [utf] := by
  obtain ⟨hlength, hcarries⟩ := h.carries (by
      intro part hpart
      rcases List.mem_cons.mp hpart with rfl | hpart
      · exact recognised_byte value
      · rw [List.mem_singleton.mp hpart]
        exact hutf) (by
      intro piece hpiece hwide
      simp only [place, List.mem_cons, List.not_mem_nil, or_false] at hpiece
      rcases hpiece with rfl | rfl
      · cases hwide
      · simp only [List.length_singleton]
        omega)
  constructor
  · rw [hlength]
    simp [joined]
    omega
  · have hbyte : (BodyField.byte value).isString = false := rfl
    simpa [hstring, hbyte] using hcarries

/-- A new message for a tree. -/
theorem Builds.forTree (P : Platform) (cmd : UInt8) (tid : UInt16) :
    Builds ((smbMessageNew P cmd).setTid tid) [] :=
  (Carries.new P cmd tid).builds

/-- A new message for a tree, with the flags of long names. -/
theorem Builds.forNames (P : Platform) (cmd : UInt8) (tid : UInt16) :
    Builds (((smbMessageNew P cmd).setTid tid).setHeader smbHeaderFlags2 (le16 smbFlags2LongNames))
      [] :=
  (Builds.forTree P cmd tid).setHeader (by decide)

section

variable (P : Platform) (tid : UInt16) {utf : List UInt8} (hutf : Utf16z utf)

include hutf

theorem fileRmReq_carries (hsize : smbHeaderSize + 6 + utf.length ≤ 65535) :
    (smbFileRmReq P tid utf).bytes.length = smbHeaderSize + 6 + utf.length ∧
      CarriesStrings (smbFileRmReq P tid utf).bytes [utf] := by
  have hbuilt : ∃ r : SmbFileRmReq, smbFileRmReq P tid utf =
        smbMessagePuts (((smbMessageNew P smbCmdRmfile).setTid tid).setHeader smbHeaderFlags2
          (le16 smbFlags2LongNames)) [r.bytes, utf] ∧
      r.bct = UInt16.ofNat (utf.length + 1) ∧ r.bufferFormat = 4 :=
    ⟨_, rfl, rfl, rfl⟩
  obtain ⟨r, hreq, hbct, hformat⟩ := hbuilt
  have hputs : PutsLayout (((smbMessageNew P smbCmdRmfile).setTid tid).setHeader smbHeaderFlags2
      (le16 smbFlags2LongNames)) [r.bytes, utf] ([r.wct] ++ le16 r.searchAttributes) rmfileLayout
      [(.byte 4, [4]), (.utf16, utf)] := by
    refine ⟨Builds.forNames P smbCmdRmfile tid, ?_, ?_, rfl, ?_, ?_⟩
    · simp [layoutOf_rmfile]
    · simp [rmfileLayout]
    · simp [joined, SmbFileRmReq.bytes, hbct, hformat]
    · simp [joined, rmfileLayout]
      omega
  rw [hreq]
  exact hputs.carries_path rfl rfl (recognised_utf16 hutf)

theorem directoryReq_carries {cmd : UInt8} (hcmd : layoutOf cmd = some directoryLayout)
    (hsize : smbHeaderSize + 4 + utf.length ≤ 65535) :
    (smbDirectoryReq P cmd tid utf).bytes.length = smbHeaderSize + 4 + utf.length ∧
      CarriesStrings (smbDirectoryReq P cmd tid utf).bytes [utf] := by
  have hbuilt : ∃ r : SmbDirectoryReq, smbDirectoryReq P cmd tid utf =
        smbMessagePuts ((smbMessageNew P cmd).setTid tid) [r.bytes, utf] ∧
      r.bct = UInt16.ofNat (utf.length + 1) ∧ r.bufferFormat = 4 :=
    ⟨_, rfl, rfl, rfl⟩
  obtain ⟨r, hreq, hbct, hformat⟩ := hbuilt
  have hputs : PutsLayout ((smbMessageNew P cmd).setTid tid) [r.bytes, utf] [r.wct] directoryLayout
      [(.byte 4, [4]), (.utf16, utf)] := by
    refine ⟨Builds.forTree P cmd tid, ?_, ?_, rfl, ?_, ?_⟩
    · simp [hcmd]
    · simp [directoryLayout]
    · simp [joined, SmbDirectoryReq.bytes, hbct, hformat]
    · simp [joined, directoryLayout]
      omega
  rw [hreq]
  exact hputs.carries_path rfl rfl (recognised_utf16 hutf)

theorem fopenReq_carries (oFlags : UInt32) (hsize : smbHeaderSize + 52 + utf.length ≤ 65535) :
    (smbFopenReq P tid utf oFlags).bytes.length = smbHeaderSize + 52 + utf.length ∧
      CarriesStrings (smbFopenReq P tid utf oFlags).bytes [utf] := by
  have hbuilt : ∃ r : SmbCreateReq, smbFopenReq P tid utf oFlags =
        smbMessagePuts ((smbMessageNew P smbCmdCreate).setTid tid) [r.bytes, [0], utf] ∧
      r.bct = UInt16.ofNat (utf.length + 1) ∧ r.pathLength = UInt16.ofNat utf.length :=
    ⟨_, rfl, rfl, rfl⟩
  obtain ⟨r, hreq, hbct, hpath⟩ := hbuilt
  obtain ⟨start, rest, hbytes, hstart, hrest⟩ : ∃ start rest : List UInt8,
      r.bytes = start ++ le16 r.pathLength ++ rest ++ le16 r.bct ∧
        start.length = 6 ∧ rest.length = 41 := by
    refine ⟨[r.wct] ++ smbAndxMembers ++ [r.reserved2], le32 r.flags ++ le32 r.rootFid ++
      le32 r.accessMask ++ le64 r.allocSize ++ le32 r.fileAttr ++ le32 r.shareAccess ++
      le32 r.disposition ++ le32 r.createOpts ++ le32 r.impersonation ++ [r.securityFlags],
      ?_, ?_, ?_⟩
    · delta SmbCreateReq.bytes
      simp only [List.append_assoc]
    · simp [smbAndxMembers]
    · simp
  have hputs : PutsLayout ((smbMessageNew P smbCmdCreate).setTid tid) [r.bytes, [0], utf]
      (start ++ le16 (UInt16.ofNat utf.length) ++ rest) createLayout
      [(.byte 0, [0]), (.sized (smbHeaderSize + 6), utf)] := by
    refine ⟨Builds.forTree P smbCmdCreate tid, ?_, ?_, rfl, ?_, ?_⟩
    · simp [layoutOf_create]
    · simp [createLayout, hstart, hrest]
    · simp [joined, hbytes, hbct, hpath]
    · simp [joined, createLayout]
      omega
  -- `path_length` stands before the byte count
  have hlength : ∀ request, (smbMessagePuts ((smbMessageNew P smbCmdCreate).setTid tid)
      [r.bytes, [0], utf]).bytes = request →
      (replyU16 request (smbHeaderSize + 6)).toNat = utf.length := by
    rintro request rfl
    have hsplit := hputs.builds
    simp only [List.append_assoc] at hsplit
    rw [← List.append_assoc] at hsplit
    rw [(hsplit.counted (by rw [hstart])).1, UInt16.toNat_ofNat', Nat.mod_eq_of_lt (by omega)]
  rw [hreq]
  exact hputs.carries_path rfl rfl (recognised_sized hutf (hlength _ rfl))

end

/-- The second path of a move starts where the first one, the padding and the format end. -/
theorem fileMvReq_carries (P : Platform) (tid : UInt16) {utfOld utfNew : List UInt8}
    (hold : Utf16z utfOld) (hnew : Utf16z utfNew)
    (hsize : smbHeaderSize + 8 + utfOld.length + utfNew.length ≤ 65535) :
    (smbFileMvReq P tid utfOld utfNew).bytes.length =
        smbHeaderSize + 8 + utfOld.length + utfNew.length ∧
      CarriesStrings (smbFileMvReq P tid utfOld utfNew).bytes [utfOld, utfNew] := by
  have hbuilt : ∃ r : SmbFileMvReq, smbFileMvReq P tid utfOld utfNew =
        smbMessagePuts (((smbMessageNew P smbCmdMove).setTid tid).setHeader smbHeaderFlags2
          (le16 smbFlags2LongNames)) [r.bytes, [4], utfOld, [0], [4], utfNew] ∧
      r.bct = UInt16.ofNat (utfOld.length + utfNew.length + 3) :=
    ⟨_, rfl, rfl⟩
  obtain ⟨r, hreq, hbct⟩ := hbuilt
  let parts : List (BodyField × List UInt8) :=
    [(.byte 4, [4]), (.utf16, utfOld), (.byte 0, [0]), (.byte 4, [4]), (.utf16, utfNew)]
  have hjoined : (joined parts).length = utfOld.length + utfNew.length + 3 := by
    simp [parts, joined]
    omega
  have hplace : moveLayout.bct = 35 := rfl
  rw [smbHeaderSize] at hsize
  have hputs : PutsLayout (((smbMessageNew P smbCmdMove).setTid tid).setHeader smbHeaderFlags2
      (le16 smbFlags2LongNames)) [r.bytes, [4], utfOld, [0], [4], utfNew]
      ([r.wct] ++ le16 r.searchAttributes) moveLayout parts := by
    refine ⟨Builds.forNames P smbCmdMove tid, ?_, ?_, rfl, ?_, ?_⟩
    · simp [layoutOf_move]
    · simp [moveLayout]
    · rw [hjoined]
      simp [parts, joined, SmbFileMvReq.bytes, hbct]
    · omega
  have heven := hold.even
  obtain ⟨hlength, hcarries⟩ := hputs.carries (by
      intro part hpart
      simp only [parts, List.mem_cons, List.not_mem_nil, or_false] at hpart
      rcases hpart with rfl | rfl | rfl | rfl | rfl
      · exact recognised_byte 4
      · exact recognised_utf16 hold
      · exact recognised_byte 0
      · exact recognised_byte 4
      · exact recognised_utf16 hnew) (by
      intro piece hpiece hwide
      simp only [parts, place, List.mem_cons, List.not_mem_nil, or_false, hplace] at hpiece
      rcases hpiece with rfl | rfl | rfl | rfl | rfl
      · cases hwide
      · simp
      · cases hwide
      · cases hwide
      · simp only [List.length_singleton]
        omega)
  rw [hreq]
  refine ⟨?_, hcarries⟩
  rw [hlength, hjoined, hplace, smbHeaderSize]
  omega

/-- The andx members of an empty message are written over by the first append. -/
theorem Builds.setAndxMembers {msg : SmbMessage} (h : Builds msg []) :
    Builds (smbMessageSetAndxMembers msg) [] :=
  ⟨h.cursor, h.room, h.slack, fun i b hi => by simp at hi⟩

theorem treeConnectReq_carries (P : Platform) (srvName name : List UInt8) {utf : List UInt8}
    (hutf : Utf16z utf)
    (hpath : smbToUtf16 P (ascii "\\\\" ++ srvName ++ ascii "\\" ++ name ++ [0]) = utf)
    (hsize : smbHeaderSize + 12 + (utf.length + 6) ≤ 65535) :
    (smbTreeConnectReq P srvName name).bytes.length = smbHeaderSize + 12 + (utf.length + 6) ∧
      CarriesStrings (smbTreeConnectReq P srvName name).bytes [utf, cString (ascii "?????")] := by
  have hne : utf ≠ [] := by
    obtain ⟨units, -, rfl⟩ := hutf
    simp [utf16z]
  let base := smbMessageSetAndxMembers ((smbMessageNew P smbCmdTreeConnect).setTid 0xffff)
  let service := cString (ascii "?????")
  have hservice : service.length = 6 := by decide
  have hbuilt : ∃ r : SmbTreeConnectReq, smbTreeConnectReq P srvName name =
        smbMessageAppend (smbMessageAppendUtf16 (smbMessagePuts base [r.bytes, [0]]) utf) service ∧
      r.bct = UInt16.ofNat (utf.length + 7) := by
    subst hpath
    exact ⟨_, rfl, rfl⟩
  obtain ⟨r, hreq, hbct⟩ := hbuilt
  rw [smbMessageAppendUtf16, if_neg hne] at hreq
  have hmessage : smbTreeConnectReq P srvName name =
      smbMessagePuts base [r.bytes, [0], utf, service] := hreq
  let parts : List (BodyField × List UInt8) := [(.byte 0, [0]), (.utf16, utf), (.oem, service)]
  have hjoined : (joined parts).length = utf.length + 7 := by
    simp [parts, joined, hservice]
  have hplace : treeConnectLayout.bct = 41 := rfl
  rw [smbHeaderSize] at hsize
  have hputs : PutsLayout base [r.bytes, [0], utf, service]
      ([r.wct] ++ smbAndxMembers ++ le16 r.flags ++ le16 r.passwdLen) treeConnectLayout parts := by
    refine ⟨(Builds.forTree P smbCmdTreeConnect 0xffff).setAndxMembers, ?_, ?_, rfl, ?_, ?_⟩
    · simp [base, smbMessageSetAndxMembers, layoutOf_treeConnect]
    · simp [treeConnectLayout, smbAndxMembers]
    · rw [hjoined]
      simp [parts, joined, SmbTreeConnectReq.bytes, hbct]
    · omega
  obtain ⟨hlength, hcarries⟩ := hputs.carries (by
      intro part hpart
      simp only [parts, List.mem_cons, List.not_mem_nil, or_false] at hpart
      rcases hpart with rfl | rfl | rfl
      · exact recognised_byte 0
      · exact recognised_utf16 hutf
      · exact @recognised_oem _ (ascii "?????") (by decide)) (by
      intro piece hpiece hwide
      simp only [parts, place, List.mem_cons, List.not_mem_nil, or_false, hplace] at hpiece
      rcases hpiece with rfl | rfl | rfl
      · cases hwide
      · simp
      · cases hwide)
  rw [hmessage]
  refine ⟨?_, hcarries⟩
  rw [hlength, hjoined, hplace, smbHeaderSize]
  omega

/-! ## Requests -/

/-- A call that sends paths. -/
inductive PathRequest where
  | treeConnect (srvName name : List UInt8)
  | fopen (tid : UInt16) (path : List UInt8) (oFlags : UInt32)
  | fileRm (tid : UInt16) (path : List UInt8)
  | fileMv (tid : UInt16) (oldPath newPath : List UInt8)
  | directoryRm (tid : UInt16) (path : List UInt8)
  | directoryCreate (tid : UInt16) (path : List UInt8)

namespace PathRequest

variable (P : Platform)

/-- The paths that are sent. -/
def paths : PathRequest → List (List UInt8)
  | treeConnect srvName name => [ascii "\\\\" ++ srvName ++ ascii "\\" ++ name]
  | fopen _ path _ => [path]
  | fileRm _ path => [path]
  | fileMv _ oldPath newPath => [oldPath, newPath]
  | directoryRm _ path => [path]
  | directoryCreate _ path => [path]

/-- The strings of the request: the converted paths, and the service of a tree. -/
def strings (r : PathRequest) : List (List UInt8) :=
  r.paths.map (fun path => smbToUtf16 P (path ++ [0])) ++
    match r with
    | treeConnect .. => [cString (ascii "?????")]
    | _ => []

/-- The message of the call. -/
def message : PathRequest → SmbMessage
  | treeConnect srvName name => smbTreeConnectReq P srvName name
  | fopen tid path oFlags => smbFopenReq P tid (smbToUtf16 P (path ++ [0])) oFlags
  | fileRm tid path => smbFileRmReq P tid (smbToUtf16 P (path ++ [0]))
  | fileMv tid oldPath newPath =>
    smbFileMvReq P tid (smbToUtf16 P (oldPath ++ [0])) (smbToUtf16 P (newPath ++ [0]))
  | directoryRm tid path => smbDirectoryReq P smbCmdRmdir tid (smbToUtf16 P (path ++ [0]))
  | directoryCreate tid path => smbDirectoryReq P smbCmdMkdir tid (smbToUtf16 P (path ++ [0]))

/-- The bytes of the message that are none of a string: header, structure, and single bytes. -/
def fixedSize : PathRequest → Nat
  | treeConnect .. => smbHeaderSize + 11 + 1
  | fopen .. => smbHeaderSize + 51 + 1
  | fileRm .. => smbHeaderSize + 6
  | fileMv .. => smbHeaderSize + 5 + 3
  | directoryRm .. | directoryCreate .. => smbHeaderSize + 4

/-- The size of the message. -/
def size (r : PathRequest) : Nat := r.fixedSize + (r.strings P).flatten.length

variable {P}

theorem size_one {r : PathRequest} {utf : List UInt8} (h : r.strings P = [utf]) :
    r.size P = r.fixedSize + utf.length := by
  rw [size, h, List.flatten_singleton]

theorem size_two {r : PathRequest} {utf utf' : List UInt8} (h : r.strings P = [utf, utf']) :
    r.size P = r.fixedSize + (utf.length + utf'.length) := by
  rw [size, h, List.flatten_cons, List.flatten_singleton, List.length_append]

/-- The call sends the request. -/
def SentBy (s : SmbSession) : PathRequest → SmbOp → Prop
  | treeConnect srvName name, op => srvName = s.srv.name ∧ op = .treeConnect name
  | fopen tid path oFlags, op => op = .fopen tid path oFlags
  | fileRm tid path, op => op = .fileRm tid path
  | fileMv tid oldPath newPath, op => op = .fileMv tid oldPath newPath
  | directoryRm tid path, op => op = .directoryRm tid path
  | directoryCreate tid path, op => op = .directoryCreate tid path

/-- The call offers frames of its request to the socket, and no others. -/
theorem SentBy.offers {s : SmbSession} {r : PathRequest} {op : SmbOp} (h : r.SentBy s op) :
    OffersOnly (· = r.message P) s (op.run P s) := by
  cases r with
  | treeConnect srvName name =>
    obtain ⟨rfl, rfl⟩ := h
    rw [message, SmbOp.run, SmbOp.exec]
    exact (treeConnect_offers P name s).bind fun _ => .pure .refl _
  | fopen tid path oFlags =>
    obtain rfl : op = .fopen tid path oFlags := h
    have hmoves : Moves (OffersOnly (· = (fopen tid path oFlags).message P))
        (SmbOp.exec P (.fopen tid path oFlags)) :=
      .bind .trans (fopen_offers P tid path oFlags) fun _ => .pure .refl _
    exact hmoves s
  | fileRm tid path =>
    obtain rfl : op = .fileRm tid path := h
    exact fileRm_offers P tid path s
  | fileMv tid oldPath newPath =>
    obtain rfl : op = .fileMv tid oldPath newPath := h
    exact fileMv_offers P tid oldPath newPath s
  | directoryRm tid path =>
    obtain rfl : op = .directoryRm tid path := h
    exact directoryOp_offers P smbCmdRmdir tid path s
  | directoryCreate tid path =>
    obtain rfl : op = .directoryCreate tid path := h
    exact directoryOp_offers P smbCmdMkdir tid path s

end PathRequest

/-- The message of a call carries its strings. -/
theorem PathRequest.carries (P : Platform) (hconv : P.ConvertsStrings) (r : PathRequest)
    (hpaths : ∀ path ∈ r.paths, 0 ∉ path ∧ smbToUtf16 P (path ++ [0]) ≠ [])
    (hsize : r.size P ≤ 65535) :
    (r.message P).bytes.length = r.size P ∧
      CarriesStrings (r.message P).bytes (r.strings P) := by
  have hutf : ∀ path ∈ r.paths, Utf16z (smbToUtf16 P (path ++ [0])) := fun path hpath =>
    toUtf16_utf16z hconv (hpaths path hpath).1 (hpaths path hpath).2
  cases r with
  | treeConnect srvName name =>
    have hpath := hutf _ List.mem_cons_self
    have hflat : (PathRequest.treeConnect srvName name).size P = smbHeaderSize + 12 +
        ((smbToUtf16 P (ascii "\\\\" ++ srvName ++ ascii "\\" ++ name ++ [0])).length + 6) := by
      have hservice : (cString (ascii "?????")).length = 6 := by decide
      rw [← hservice]
      exact PathRequest.size_two rfl
    rw [hflat] at hsize ⊢
    exact treeConnectReq_carries P srvName name hpath rfl hsize
  | fopen tid path oFlags =>
    have hpath := hutf path List.mem_cons_self
    have hflat : (PathRequest.fopen tid path oFlags).size P =
        smbHeaderSize + 52 + (smbToUtf16 P (path ++ [0])).length := PathRequest.size_one rfl
    rw [hflat] at hsize ⊢
    exact fopenReq_carries P tid hpath oFlags hsize
  | fileRm tid path =>
    have hpath := hutf path List.mem_cons_self
    have hflat : (PathRequest.fileRm tid path).size P =
        smbHeaderSize + 6 + (smbToUtf16 P (path ++ [0])).length := PathRequest.size_one rfl
    rw [hflat] at hsize ⊢
    exact fileRmReq_carries P tid hpath hsize
  | fileMv tid oldPath newPath =>
    have hold := hutf oldPath List.mem_cons_self
    have hnew := hutf newPath (List.mem_cons_of_mem _ List.mem_cons_self)
    have hflat : (PathRequest.fileMv tid oldPath newPath).size P = smbHeaderSize + 8 +
        (smbToUtf16 P (oldPath ++ [0])).length + (smbToUtf16 P (newPath ++ [0])).length := by
      rw [Nat.add_assoc]
      exact PathRequest.size_two rfl
    rw [hflat] at hsize ⊢
    exact fileMvReq_carries P tid hold hnew hsize
  | directoryRm tid path =>
    have hpath := hutf path List.mem_cons_self
    have hflat : (PathRequest.directoryRm tid path).size P =
        smbHeaderSize + 4 + (smbToUtf16 P (path ++ [0])).length := PathRequest.size_one rfl
    rw [hflat] at hsize ⊢
    exact directoryReq_carries P tid hpath rfl hsize
  | directoryCreate tid path =>
    have hpath := hutf path List.mem_cons_self
    have hflat : (PathRequest.directoryCreate tid path).size P =
        smbHeaderSize + 4 + (smbToUtf16 P (path ++ [0])).length := PathRequest.size_one rfl
    rw [hflat] at hsize ⊢
    exact directoryReq_carries P tid hpath rfl hsize

/-- A server that reads a request by the layout of its command finds the paths as they were
converted, and in a tree connect the service behind the path: in the message that the call hands over,
and in every frame that it offers to the socket. -/
theorem pathRequest_decodes (P : Platform) (hconv : P.ConvertsStrings) (r : PathRequest)
    (hpaths : ∀ path ∈ r.paths, 0 ∉ path ∧ smbToUtf16 P (path ++ [0]) ≠ [])
    (hsize : r.size P ≤ 65535) :
    ((r.message P).bytes.length = r.size P ∧
      CarriesStrings (r.message P).bytes (r.strings P)) ∧
    ∀ s op, r.SentBy s op → ∀ frame ∈ op.offered P s, (frameMessage frame).length = r.size P ∧
      CarriesStrings (frameMessage frame) (r.strings P) := by
  obtain ⟨hlength, hcarries⟩ := r.carries P hconv hpaths hsize
  refine ⟨⟨hlength, hcarries⟩, fun s op hsent frame hframe => ?_⟩
  obtain ⟨msg, s', rfl, rfl⟩ := hsent.offers.offered hframe
  have hsize' : (smbRequestBytes s'.srv.uid (r.message P)).length = r.size P := by
    rw [← hlength, requestBytes_length, SmbMessage.bytes, Mem.read_length]
  rw [requestFrame_message s' _ (by omega)]
  exact ⟨hsize', hcarries.sent _⟩

/-- A letter of ASCII is the unit of the same number. -/
theorem asciiToUcs2_done {src out : List UInt8} {room : Nat} (h : asciiToUcs2 src room = .done out) :
    out.length ≤ room ∧ out = (src.map UInt8.toUInt16).flatMap le16 := by
  have hunit : ∀ b : UInt8, le16 b.toUInt16 = [b, 0] := by
    intro b
    have hb := b.toNat_lt
    have hhigh : b.toNat / 256 = 0 := by omega
    simp [le16, leBytes, hhigh]
  unfold asciiToUcs2 at h
  split at h
  · cases h
  · split at h
    · cases h
    · rename_i hroom
      cases h
      refine ⟨?_, by rw [List.flatMap_map]; simp [hunit]⟩
      rw [List.length_flatMap]
      simp
      omega

theorem toUInt16_nonzero {src : List UInt8} (h : 0 ∉ src) : 0 ∉ src.map UInt8.toUInt16 := by
  intro hzero
  obtain ⟨b, hb, hb0⟩ := List.mem_map.mp hzero
  have hbnat := congrArg UInt16.toNat hb0
  rw [UInt8.toNat_toUInt16] at hbnat
  exact h ((UInt8.toNat_inj.mp hbnat : b = 0) ▸ hb)

theorem ascii_convertsStrings : Platform.ascii.ConvertsStrings := by
  intro ic src room out hic hsrc hdone
  obtain rfl : asciiToUcs2 = ic := Option.some.inj hic
  refine ⟨src.map UInt8.toUInt16, toUInt16_nonzero hsrc, ?_⟩
  rw [(asciiToUcs2_done hdone).2, List.map_append, List.flatMap_append]
  rfl

/-- A file is moved from one name to another. -/
theorem pathRequest_decodes_move :
    let r : PathRequest := .fileMv 1 (ascii "\\a") (ascii "\\b.c")
    let s := connectedTo []
    let offered := SmbOp.offered .ascii s (.fileMv 1 (ascii "\\a") (ascii "\\b.c"))
    r.size .ascii = 56 ∧ offered.length = 1 ∧
      ∀ frame ∈ offered, CarriesStrings (frameMessage frame) (r.strings .ascii) := by
  intro r s offered
  have hsize : r.size .ascii = 56 := by decide +kernel
  have hpaths : ∀ path ∈ r.paths, 0 ∉ path ∧ smbToUtf16 .ascii (path ++ [0]) ≠ [] := by
    decide +kernel
  have hdecodes := pathRequest_decodes .ascii ascii_convertsStrings r hpaths
    (hsize.trans_le (by decide))
  exact ⟨hsize, by decide +kernel, fun frame hframe => (hdecodes.2 s _ rfl frame hframe).2⟩

end Libdsm
