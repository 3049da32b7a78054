import Libdsm.Smb.Proofs.Connect
import Libdsm.Smb.Proofs.NtlmServer
import Libdsm.Smb.Proofs.RemotePaths

/-!
# Requests for the service of the shares

`smb_share_get_list` writes its two packets for the pipe `srvsvc` by hand, into TRANS requests. Here is
what a server reads from them: it takes the packet from where the fields of the request say it is, and
looks at its length, its type and what it asks for.
-/

namespace Libdsm

/-! ## Packets for a pipe -/

/-- ASCII text in UTF-16. -/
def wideAscii (str : List UInt8) : List UInt8 := str.flatMap fun b => [b, 0]

theorem wideAscii_length (str : List UInt8) : (wideAscii str).length = 2 * str.length := by
  rw [wideAscii, List.length_flatMap]
  simp only [List.length_cons, List.length_nil, List.map_const', List.sum_replicate, Nat.nsmul_eq_mul]
  omega

-- over the bytes of the text, and not over every byte
theorem forall_ascii {str : List UInt8} (h : str.all (fun b => decide (b < 128)) = true) :
    ∀ b ∈ str, b < 128 := by
  intro b hb
  exact of_decide_eq_true (List.all_eq_true.mp h b hb)

/-- Behind the structure of a TRANS request: the name of the pipe between padding, and the packet. -/
def transBody (packet : List UInt8) : List UInt8 :=
  [0] ++ wideAscii (cString (ascii "\\PIPE\\")) ++ [0, 0] ++ packet

/-- The file that a TRANS request is for, its function, and the packet where its fields say it is. -/
def transFid (request : List UInt8) : UInt16 := replyU16 request (smbHeaderSize + 31)
def transFunction (request : List UInt8) : UInt16 := replyU16 request (smbHeaderSize + 29)
def transPacket (request : List UInt8) : List UInt8 :=
  (request.drop (replyU16 request (smbHeaderSize + 25)).toNat).take
    (replyU16 request (smbHeaderSize + 23)).toNat

/-- The fields that are read, among the others. -/
theorem transReq_split (r : SmbTransReq) : ∃ front : List UInt8, front.length = 23 ∧
    r.bytes = front ++ (le16 r.dataCount ++ (le16 r.dataOffset ++ ([r.setupCount] ++
      ([r.reserved3] ++ (le16 r.pipeFunction ++ (le16 r.fid ++ le16 r.bct)))))) := by
  refine ⟨[r.wct] ++ le16 r.totalParamCount ++ le16 r.totalDataCount ++ le16 r.maxParamCount ++
    le16 r.maxDataCount ++ [r.maxSetupCount] ++ [r.reserved] ++ le16 r.flags ++ le32 r.timeout ++
    le16 r.reserved2 ++ le16 r.paramCount ++ le16 r.paramOffset, ?_, ?_⟩
  · simp only [List.length_append, List.length_singleton, le16_length, le32_length]
  · delta SmbTransReq.bytes
    simp only [List.append_assoc]

theorem transReq_length (r : SmbTransReq) : r.bytes.length = 35 := by
  delta SmbTransReq.bytes
  simp only [List.length_append, List.length_singleton, le16_length, le32_length]

theorem transBody_length (packet : List UInt8) : (transBody packet).length = 17 + packet.length := by
  have hname : (wideAscii (cString (ascii "\\PIPE\\"))).length = 14 := by decide
  simp only [transBody, List.length_append, hname, List.length_cons, List.length_nil]

/-- A request with this structure and packet, as the server reads it. -/
theorem Builds.transRead {msg : SmbMessage} {r : SmbTransReq} {packet : List UInt8}
    (h : Builds msg ((r.bytes ++ transBody packet).map some)) (hoffset : r.dataOffset = 84)
    (hcount : r.dataCount.toNat = packet.length) (uid : UInt16) :
    (smbRequestBytes uid msg).length = 84 + packet.length ∧
      transFid (smbRequestBytes uid msg) = r.fid ∧
      transFunction (smbRequestBytes uid msg) = r.pipeFunction ∧
      transPacket (smbRequestBytes uid msg) = packet := by
  obtain ⟨front, hfront, hbytes⟩ := transReq_split r
  have hsize := transReq_length r
  have hname : (wideAscii (cString (ascii "\\PIPE\\"))).length = 14 := by decide
  have hcontent : (smbRequestBytes uid msg).drop smbHeaderSize = r.bytes ++ transBody packet := by
    rw [requestBytes_drop uid msg (Nat.le_refl _), h.bytes_drop]
  have hfield : ∀ {off : Nat} {x : UInt16}, off + 2 ≤ 35 → (r.bytes.drop off).take 2 = le16 x →
      replyU16 (smbRequestBytes uid msg) (smbHeaderSize + off) = x := by
    intro off x hoff hx
    apply replyU16_payload
    rw [hcontent, field_append (by omega), hx]
  have hlength : (smbRequestBytes uid msg).length = 84 + packet.length := by
    have hcursor := h.bytes_length
    rw [SmbMessage.bytes, Mem.read_length] at hcursor
    rw [requestBytes_length, hcursor, List.length_append, hsize, transBody_length, smbHeaderSize]
    omega
  have hdataCount := hfield (by decide) (field_between hbytes hfront (le16_length _))
  have hdataOffset := @hfield 25 r.dataOffset (by decide) (by
    rw [← List.append_assoc] at hbytes
    exact field_between hbytes (by rw [List.length_append, hfront, le16_length]) (le16_length _))
  have hfunction := @hfield 29 r.pipeFunction (by decide) (by
    rw [← List.append_assoc, ← List.append_assoc, ← List.append_assoc, ← List.append_assoc] at hbytes
    exact field_between hbytes (by
      simp only [List.length_append, hfront, le16_length, List.length_cons, List.length_nil])
      (le16_length _))
  have hfid := @hfield 31 r.fid (by decide) (by
    rw [← List.append_assoc, ← List.append_assoc, ← List.append_assoc, ← List.append_assoc,
      ← List.append_assoc] at hbytes
    exact field_between hbytes (by
      simp only [List.length_append, hfront, le16_length, List.length_cons, List.length_nil])
      (le16_length _))
  refine ⟨hlength, hfid, hfunction, ?_⟩
  rw [transPacket, hdataOffset, hdataCount, hoffset, hcount]
  have hbehind : (smbRequestBytes uid msg).drop 84 = packet := by
    have hdrop := congrArg (List.drop 52) hcontent
    rw [List.drop_drop, transBody, ← List.append_assoc, ← List.append_assoc, ← List.append_assoc,
      List.drop_left' (by simp only [List.length_append, hsize, hname, List.length_cons, List.length_nil])]
      at hdrop
    exact hdrop
  show ((smbRequestBytes uid msg).drop 84).take _ = _
  rw [hbehind, List.take_length]

/-! ## The service -/

/-- The interface of the service. -/
def srvsvcUuid : List UInt8 :=
  le32 0x4b324fc8 ++ le16 0x1670 ++ le16 0x01d3 ++ [0x12, 0x78, 0x5a, 0x47, 0xbf, 0x6e, 0xe1, 0x88]

/-- The packet has this type, and its fragment length is its length. -/
def IsPacket (type : UInt8) (packet : List UInt8) : Prop :=
  packet.getD 2 0 = type ∧ (replyU16 packet 8).toNat = packet.length

/-- The packet binds to the service. -/
def BindsSrvsvc (packet : List UInt8) : Prop :=
  IsPacket 0x0b packet ∧ (packet.drop 32).take 16 = srvsvcUuid

/-- The packet is a `NetShareEnumAll` of level 1 for this server: the name is marshalled with its
terminator, and the level stands behind it at a multiple of four. -/
def AsksShares (name packet : List UInt8) : Prop :=
  IsPacket 0 packet ∧ replyU16 packet 22 = 15 ∧
    (replyU32 packet 28).toNat = name.length + 1 ∧
    (packet.drop 40).take (2 * (name.length + 1)) = wideAscii (name ++ [0]) ∧
    replyU32 packet (40 + 2 * (name.length + 1 + (name.length + 1) % 2)) = 1

instance (type : UInt8) (packet : List UInt8) : Decidable (IsPacket type packet) :=
  inferInstanceAs (Decidable (_ ∧ _))

instance (packet : List UInt8) : Decidable (BindsSrvsvc packet) := inferInstanceAs (Decidable (_ ∧ _))

instance (name packet : List UInt8) : Decidable (AsksShares name packet) :=
  inferInstanceAs (Decidable (_ ∧ _))

/-- The bind of `smb_share_get_list`. -/
def bindPacket : List UInt8 :=
  [[5, 0, 0x0b, 3], le32 0x10, le16 72, le16 0, le32 19, le16 0xffff, le16 0xffff, le32 0, le32 1, le16 0,
    le16 1, srvsvcUuid, le16 3, le16 0, le32 0x8a885d04, le16 0x1ceb, le16 0x11c9,
    [0x9f, 0xe8, 0x08, 0x00, 0x2b, 0x10, 0x48, 0x60], le32 2].flatten

theorem bindPacket_binds : BindsSrvsvc bindPacket := by decide +kernel

theorem pipeName_converts {P : Platform} (hP : P.ConvertsAscii) :
    smbToUtf16 P (cString (ascii "\\PIPE\\")) = wideAscii (cString (ascii "\\PIPE\\")) :=
  hP.ascii _ (forall_ascii (by decide))

/-- The structure of its request, and the calls that put it together. -/
def bindTrans (fid : UInt16) : SmbTransReq where
  wct := 16
  totalDataCount := 72
  maxDataCount := 0xffff
  paramOffset := 84
  dataCount := 72
  dataOffset := 84
  setupCount := 2
  pipeFunction := 0x26
  fid := fid
  bct := 89

def bindCalls (fid : UInt16) : List BuilderCall :=
  [.append (bindTrans fid).bytes, .put8 0, .putUtf16 (cString (ascii "\\PIPE\\")), .put16 0, .append [5],
    .append [0], .append [0x0b], .append [0x03], .append (le32 0x10), .append (le16 72),
    .append (le16 0), .append (le32 19), .append (le16 0xffff), .append (le16 0xffff),
    .append (le32 0), .append (le32 1), .append (le16 0), .append (le16 1),
    .putUuid 0x4b324fc8 0x1670 0x01d3 [0x12, 0x78, 0x5a, 0x47, 0xbf, 0x6e, 0xe1, 0x88],
    .append (le16 3), .append (le16 0),
    .putUuid 0x8a885d04 0x1ceb 0x11c9 [0x9f, 0xe8, 0x08, 0x00, 0x2b, 0x10, 0x48, 0x60],
    .put32 2]

theorem shareBindReq_eq (P : Platform) (tid fid : UInt16) : smbShareBindReq P tid fid =
    (bindCalls fid).foldl (BuilderCall.run P) ((smbMessageNew P smbCmdTrans).setTid tid) := rfl

theorem shareBindReq_reads {P : Platform} (hP : P.ConvertsAscii) (tid fid uid : UInt16) :
    (smbRequestBytes uid (smbShareBindReq P tid fid)).length = 156 ∧
      transFid (smbRequestBytes uid (smbShareBindReq P tid fid)) = fid ∧
      transFunction (smbRequestBytes uid (smbShareBindReq P tid fid)) = 0x26 ∧
      transPacket (smbRequestBytes uid (smbShareBindReq P tid fid)) = bindPacket := by
  have hcontent : builtContent P (bindCalls fid) =
      ((bindTrans fid).bytes ++ transBody bindPacket).map some := by
    simp only [builtContent, bindCalls, List.flatMap_cons, List.flatMap_nil, BuilderCall.chunk,
      pipeName_converts hP, transBody, bindPacket, srvsvcUuid, List.flatten_cons, List.flatten_nil,
      List.map_append, List.append_assoc, List.append_nil]
    rfl
  have hbind : bindPacket.length = 72 := by decide
  have hbuilds := Builds.runs P (Builds.forTree P smbCmdTrans tid) (bindCalls fid) (by
    rw [hcontent, List.length_map, List.length_append, transReq_length, transBody_length, hbind,
      List.length_nil]
    omega)
  rw [← shareBindReq_eq, hcontent, List.nil_append] at hbuilds
  obtain ⟨hlength, hread⟩ := hbuilds.transRead rfl (by rw [hbind]; rfl) uid
  exact ⟨by rw [hlength, hbind], hread⟩

/-- The enumeration, up to its fragment length and behind it. -/
def enumFront : List UInt8 := [5] ++ [0] ++ [0] ++ [3] ++ le32 0x10

def enumBack (name : List UInt8) : List UInt8 :=
  [le16 0, le32 12, le32 64, le16 0, le16 15, le32 0x00020000, le32 (UInt32.ofNat (name.length + 1)),
    le32 0, le32 (UInt32.ofNat (name.length + 1)), wideAscii (name ++ [0]),
    if name.length % 2 = 0 then le16 0 else [], le32 1, le32 1, le32 0x00020004, le64 0,
    le32 0xffffffff, le32 0x00020008, le32 0].flatten

/-- The length of the packet. -/
def enumSize (name : List UInt8) : Nat := 72 + 2 * (name.length + 1 + (name.length + 1) % 2)

def enumPacket (name : List UInt8) : List UInt8 :=
  enumFront ++ le16 (UInt16.ofNat (enumSize name)) ++ enumBack name

theorem enumBack_length (name : List UInt8) : (enumBack name).length + 10 = enumSize name := by
  have hpad : (if name.length % 2 = 0 then le16 0 else []).length = 2 * ((name.length + 1) % 2) := by
    split
    · rw [le16_length]
      omega
    · rw [List.length_nil]
      omega
  simp only [enumBack, List.flatten_cons, List.flatten_nil, List.length_append, le16_length,
    le32_length, le64_length, hpad, wideAscii_length, List.length_singleton, List.length_nil, enumSize]
  omega

/-- The calls up to the fragment length, and those behind it. -/
def enumCallsFront : List BuilderCall :=
  [.advance SmbTransReq.size, .put8 0, .putUtf16 (cString (ascii "\\PIPE\\")), .put16 0, .append [5],
    .append [0], .append [0], .append [0x03], .append (le32 0x10)]

def enumCallsBack (name : List UInt8) : List BuilderCall :=
  [.append (le16 0), .append (le16 0), .append (le32 12), .append (le32 64), .append (le16 0),
    .append (le16 15), .append (le32 0x00020000), .append (le32 (UInt32.ofNat (name.length + 1))),
    .append (le32 0), .append (le32 (UInt32.ofNat (name.length + 1))), .putUtf16 (name ++ [0])] ++
  ((if name.length % 2 = 0 then [.put16 0] else []) ++
  [.append (le32 1), .append (le32 1), .append (le32 0x00020004), .append (le64 0),
    .append (le32 0xffffffff), .append (le32 0x00020008), .append (le32 0)])

def enumTrans (fid bct : UInt16) : SmbTransReq where
  wct := 16
  maxDataCount := 4280
  setupCount := 2
  pipeFunction := 0x26
  fid := fid
  bct := bct
  dataCount := bct - 17
  totalDataCount := bct - 17
  dataOffset := 84
  paramOffset := 84

theorem shareEnumReq_eq (P : Platform) (name : List UInt8) (tid fid : UInt16) {front back : SmbMessage}
    (hfront : enumCallsFront.foldl (BuilderCall.run P) ((smbMessageNew P smbCmdTrans).setTid tid) = front)
    (hback : (enumCallsBack name).foldl (BuilderCall.run P) front = back) :
    let bct := UInt16.ofNat (back.cursor - SmbTransReq.size)
    smbShareEnumReq P name tid fid =
      (smbMessageInsert back 0 (enumTrans fid bct).bytes).poke front.cursor [(bct - 17).toUInt8] := by
  have hpad : ∀ msg, (if name.length % 2 = 0 then smbMessagePut16 msg 0 else msg) =
      (if name.length % 2 = 0 then [BuilderCall.put16 0] else []).foldl (BuilderCall.run P) msg := by
    intro msg
    split <;> rfl
  subst hback hfront
  rw [enumCallsBack, List.foldl_append, List.foldl_append, ← hpad]
  rfl

theorem enumPacket_length (name : List UInt8) : (enumPacket name).length = enumSize name := by
  have hback := enumBack_length name
  simp only [enumPacket, enumFront, List.length_append, le16_length, le32_length, List.length_singleton]
  omega

/-- The packet asks for what it should, for a name as long as `smb_srv_info` has room for. -/
theorem enumPacket_asks {name : List UInt8} (hname : name.length ≤ 15) :
    AsksShares name (enumPacket name) := by
  have hlength := enumPacket_length name
  have hsize : enumSize name ≤ 104 := by
    rw [enumSize]
    omega
  have hwide : (wideAscii (name ++ [0])).length = 2 * (name.length + 1) := by
    rw [wideAscii_length, List.length_append, List.length_singleton]
  have hpad : (if name.length % 2 = 0 then le16 0 else []).length = 2 * ((name.length + 1) % 2) := by
    split
    · rw [le16_length]
      omega
    · rw [List.length_nil]
      omega
  have hfront : enumFront.length = 8 := rfl
  have hcount : (UInt32.ofNat (name.length + 1)).toNat = name.length + 1 :=
    UInt32.toNat_ofNat_of_lt' (by show _ < 4294967296; omega)
  refine ⟨⟨rfl, ?_⟩, ?_, ?_, ?_, ?_⟩
  · have hfrag : replyU16 (enumPacket name) 8 = UInt16.ofNat (enumSize name) :=
      replyU16_at (field_between (by rw [enumPacket, List.append_assoc]) hfront (le16_length _))
    rw [hfrag, hlength, UInt16.toNat_ofNat', Nat.mod_eq_of_lt (by omega)]
  · apply replyU16_at
    apply @field_between _ (enumFront ++ le16 (UInt16.ofNat (enumSize name)) ++ (le16 0 ++ le32 12 ++
      le32 64 ++ le16 0))
    · simp only [enumPacket, enumBack, List.flatten_cons, List.append_assoc]
      rfl
    · simp only [List.length_append, hfront, le16_length, le32_length]
    · exact le16_length _
  · rw [← hcount]
    apply congrArg
    apply replyU32_at
    apply @field_between _ (enumFront ++ le16 (UInt16.ofNat (enumSize name)) ++ (le16 0 ++ le32 12 ++
      le32 64 ++ le16 0 ++ le16 15 ++ le32 0x00020000))
    · simp only [enumPacket, enumBack, List.flatten_cons, List.append_assoc]
      rfl
    · simp only [List.length_append, hfront, le16_length, le32_length]
    · exact le32_length _
  · apply @field_between _ (enumFront ++ le16 (UInt16.ofNat (enumSize name)) ++ (le16 0 ++ le32 12 ++
      le32 64 ++ le16 0 ++ le16 15 ++ le32 0x00020000 ++ le32 (UInt32.ofNat (name.length + 1)) ++ le32 0 ++
      le32 (UInt32.ofNat (name.length + 1))))
    · simp only [enumPacket, enumBack, List.flatten_cons, List.append_assoc]
      rfl
    · simp only [List.length_append, hfront, le16_length, le32_length]
    · exact hwide
  · apply replyU32_at
    apply @field_between _ (enumFront ++ le16 (UInt16.ofNat (enumSize name)) ++ (le16 0 ++ le32 12 ++
      le32 64 ++ le16 0 ++ le16 15 ++ le32 0x00020000 ++ le32 (UInt32.ofNat (name.length + 1)) ++ le32 0 ++
      le32 (UInt32.ofNat (name.length + 1)) ++ wideAscii (name ++ [0]) ++
      (if name.length % 2 = 0 then le16 0 else [])))
    · simp only [enumPacket, enumBack, List.flatten_cons, List.append_assoc]
      rfl
    · simp only [List.length_append, hfront, le16_length, le32_length, hwide, hpad]
      omega
    · exact le32_length _

/-- The one byte that is set of the fragment length is enough for it. -/
theorem le16_small {n : Nat} (h : n < 256) : le16 (UInt16.ofNat n) = [(UInt16.ofNat n).toUInt8, 0] := by
  have hn : (UInt16.ofNat n).toNat = n := by
    rw [UInt16.toNat_ofNat', Nat.mod_eq_of_lt (by omega)]
  have hhigh : n / 256 = 0 := by omega
  have hlow : (UInt16.ofNat n).toUInt8 = UInt8.ofNat n := by
    rw [UInt16.toUInt8, hn]
  rw [hlow, le16, hn]
  simp [leBytes, hhigh]

theorem le16_zero : le16 0 = [0] ++ [0] := rfl

/-- The enumeration as the server reads it. -/
theorem shareEnumReq_reads {P : Platform} (hP : P.ConvertsAscii) {name : List UInt8}
    (hascii : ∀ b ∈ name, b < 128) (hname : name.length ≤ 15) (tid fid uid : UInt16) :
    (smbRequestBytes uid (smbShareEnumReq P name tid fid)).length = 84 + enumSize name ∧
      transFid (smbRequestBytes uid (smbShareEnumReq P name tid fid)) = fid ∧
      transFunction (smbRequestBytes uid (smbShareEnumReq P name tid fid)) = 0x26 ∧
      transPacket (smbRequestBytes uid (smbShareEnumReq P name tid fid)) = enumPacket name := by
  have hsize : enumSize name ≤ 104 := by
    rw [enumSize]
    omega
  have hback := enumBack_length name
  have hfrontLength : enumFront.length = 8 := rfl
  have hwide : smbToUtf16 P (name ++ [0]) = wideAscii (name ++ [0]) := by
    apply hP.ascii
    intro b hb
    rcases List.mem_append.mp hb with hb | hb
    · exact hascii b hb
    · rw [List.mem_singleton.mp hb]
      decide
  generalize hM : (smbMessageNew P smbCmdTrans).setTid tid = base
  have hbase : Builds base [] := hM ▸ Builds.forTree P smbCmdTrans tid
  have hcallsFront : builtContent P enumCallsFront =
      List.replicate 35 none ++ (transBody enumFront).map some := by
    simp only [builtContent, enumCallsFront, List.flatMap_cons, List.flatMap_nil, BuilderCall.chunk,
      pipeName_converts hP, transBody, enumFront, List.map_append, List.append_assoc, List.append_nil]
    rfl
  have hcallsBack : builtContent P (enumCallsBack name) = (le16 0 ++ enumBack name).map some := by
    have hpad : (if name.length % 2 = 0 then [BuilderCall.put16 0] else []).flatMap (BuilderCall.chunk P) =
        (if name.length % 2 = 0 then le16 0 else []).map some := by
      split <;> rfl
    simp only [builtContent, enumCallsBack, List.flatMap_append, List.flatMap_cons, List.flatMap_nil,
      BuilderCall.chunk, hwide, hpad, enumBack, List.flatten_cons, List.flatten_nil, List.map_append,
      List.append_assoc, List.append_nil]
  have hfrontBuilds := Builds.runs P hbase enumCallsFront (by
    rw [hcallsFront, List.length_append, List.length_replicate, List.length_map, transBody_length,
      hfrontLength, List.length_nil]
    omega)
  have hbackBuilds := Builds.runs P hfrontBuilds (enumCallsBack name) (by
    rw [List.nil_append, hcallsFront, hcallsBack, List.length_append, List.length_replicate,
      List.length_map, List.length_map, transBody_length, hfrontLength, List.length_append, le16_length]
    omega)
  have hreq := shareEnumReq_eq P name tid fid rfl rfl
  rw [hM] at hreq
  generalize enumCallsFront.foldl (BuilderCall.run P) base = front at hfrontBuilds hbackBuilds hreq
  generalize (enumCallsBack name).foldl (BuilderCall.run P) front = back at hbackBuilds hreq
  rw [List.nil_append, hcallsFront] at hfrontBuilds
  rw [List.nil_append, hcallsFront, hcallsBack] at hbackBuilds
  have hfrontCursor : front.cursor = 60 := by
    rw [hfrontBuilds.cursor, List.length_append, List.length_replicate, List.length_map, transBody_length,
      hfrontLength]
  have hbackCursor : back.cursor - SmbTransReq.size = enumSize name + 17 := by
    rw [hbackBuilds.cursor, SmbTransReq.size]
    simp only [List.length_append, List.length_replicate, List.length_map, transBody_length,
      hfrontLength, le16_length]
    omega
  have hcount : UInt16.ofNat (enumSize name + 17) - 17 = UInt16.ofNat (enumSize name) := by
    rw [UInt16.ofNat_add]
    exact UInt16.add_sub_cancel _ _
  dsimp only at hreq
  rw [hbackCursor, hcount, hfrontCursor] at hreq
  generalize htrans : enumTrans fid (UInt16.ofNat (enumSize name + 17)) = r at hreq
  have hlength := transReq_length r
  have hne : r.bytes ≠ [] := List.length_pos_iff.mp (by omega)
  obtain ⟨hinsert, -⟩ := hbackBuilds.insert_front (by
    simp only [List.length_append, List.length_replicate, List.length_map, transBody_length,
      hfrontLength, le16_length]
    omega) hne (by
    rw [List.append_assoc, List.length_append, List.length_replicate]
    omega)
  rw [overwrite, List.append_assoc, List.drop_left' (by rw [List.length_replicate, hlength]),
    ← List.map_append, ← List.map_append, ← List.append_assoc, le16_zero, ← List.append_assoc,
    ← List.append_assoc _ [0] [0], List.append_assoc _ [0] (enumBack name)] at hinsert
  have hplace : (r.bytes ++ transBody enumFront).length = 60 := by
    rw [List.length_append, hlength, transBody_length, hfrontLength]
  have hone : [(UInt16.ofNat (enumSize name)).toUInt8].length = [(0 : UInt8)].length := rfl
  have hpoke := hinsert.poke hone
  rw [hplace, ← hreq] at hpoke
  have hcontent : r.bytes ++ transBody enumFront ++ [(UInt16.ofNat (enumSize name)).toUInt8] ++
      ([0] ++ enumBack name) = r.bytes ++ transBody (enumPacket name) := by
    rw [enumPacket, le16_small (by omega), transBody, transBody]
    simp only [List.append_assoc, List.cons_append, List.nil_append]
  rw [hcontent] at hpoke
  obtain ⟨hsent, hread⟩ := hpoke.transRead (by rw [← htrans]; rfl) (by
    rw [← htrans, enumPacket_length]
    show (UInt16.ofNat (enumSize name + 17) - 17).toNat = _
    rw [hcount, UInt16.toNat_ofNat', Nat.mod_eq_of_lt (by omega)]) uid
  rw [enumPacket_length] at hsent
  rw [← htrans] at hread
  exact ⟨hsent, hread⟩

/-! ## Headers -/

@[simp] theorem tid_poke (msg : SmbMessage) (off : Nat) (bs : List UInt8) :
    (msg.poke off bs).tid = msg.tid := by
  have hbefore : smbHeaderTid + 2 ≤ smbHeaderSize := by decide
  exact Mem.u16_congr (Mem.read_write_disjoint _ _ (.inl (by omega)))

@[simp] theorem tid_expandPayload (msg : SmbMessage) (cursor dataSize : Nat) :
    (smbMessageExpandPayload msg cursor dataSize).tid = msg.tid := by
  rw [SmbMessage.tid, expandPayload_packet, SmbMessage.tid]

@[simp] theorem tid_insert (msg : SmbMessage) (cursor : Nat) (data : List UInt8) :
    (smbMessageInsert msg cursor data).tid = msg.tid :=
  (tid_poke _ _ _).trans (tid_expandPayload _ _ _)

theorem tid_foldl {α : Type} {f : SmbMessage → α → SmbMessage} (hf : ∀ msg a, (f msg a).tid = msg.tid)
    (l : List α) (msg : SmbMessage) : (l.foldl f msg).tid = msg.tid := by
  induction l generalizing msg with
  | nil => rfl
  | cons a l ih => exact (ih (f msg a)).trans (hf msg a)

/-- No call of the builder touches the tid or the command. -/
theorem tid_run (P : Platform) (msg : SmbMessage) (call : BuilderCall) :
    (call.run P msg).tid = msg.tid := by
  cases call with
  | putUtf16 str =>
    show (smbMessageAppendUtf16 msg _).tid = _
    unfold smbMessageAppendUtf16
    split
    · rfl
    · exact tid_append _ _
  | putUuid a b c d =>
    show (d.foldl smbMessagePut8 (smbMessagePut16 (smbMessagePut16 (smbMessagePut32 msg a) b) c)).tid = _
    rw [tid_foldl tid_put8]
    exact (tid_append _ _).trans ((tid_append _ _).trans (tid_append _ _))
  | advance size => exact tid_expandPayload _ _ _
  | _ => exact tid_append _ _

theorem command_run (P : Platform) (msg : SmbMessage) (call : BuilderCall) :
    (call.run P msg).command = msg.command := by
  cases call with
  | putUtf16 str => exact command_putUtf16 _ _ _
  | putUuid a b c d => exact command_putUuid _ _ _ _ _
  | advance size => exact command_advance _ _
  | _ => exact command_append _ _

end Libdsm
