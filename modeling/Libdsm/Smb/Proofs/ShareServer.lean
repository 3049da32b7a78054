import Libdsm.Smb.Proofs.ShareList
import Libdsm.Smb.Proofs.Srvsvc

/-!
# The shares of a server

`smb_share_get_list` connects to `IPC$`, opens the pipe of the `srvsvc` service, binds to it, asks for the
shares and closes the pipe. `ShareServer` is a server of that service: it reads each request from its
bytes, down to the packets for the pipe, and refuses what does not ask for the right thing.
-/

namespace Libdsm

/-! ## A server -/

theorem wideAscii_utf16z {str : List UInt8} (h : 0 ∉ str) : Utf16z (wideAscii (str ++ [0])) := by
  refine ⟨str.map UInt8.toUInt16, toUInt16_nonzero h, ?_⟩
  have hunit : ∀ b : UInt8, le16 b.toUInt16 = [b, 0] := by
    intro b
    have hb := b.toNat_lt
    have hhigh : b.toNat / 256 = 0 := by omega
    simp [le16, leBytes, hhigh]
  rw [wideAscii, List.flatMap_append, utf16z, List.flatMap_map]
  simp only [hunit]
  rfl

/-- The name of a server, the tree and the file that it gives to who asks for its service, and its
shares. -/
structure ShareServer where
  name : List UInt8
  tid : UInt16
  fid : UInt16
  shares : List ShareInfo

namespace ShareServer

variable (v : ShareServer)

/-- The tree that is asked for. -/
def treePath : List UInt8 := ascii "\\\\" ++ v.name ++ ascii "\\" ++ ascii "IPC$"

/-- `STATUS_ACCESS_DENIED`. -/
def denied : List UInt8 := replyBytes 0xc0000022 0 0 [0, 0, 0]

/-- The answers to what the service is asked for: it is bound, these are the shares, the pipe is closed. -/
def bound : List UInt8 := replyBytes 0 v.tid 0 (List.replicate 72 0)
def listed : List UInt8 := replyBytes 0 v.tid 0 (enumPayload v.shares)
def closed : List UInt8 := replyBytes 0 v.tid 0 [0, 0, 0]

/-- The answer to a packet on the pipe. -/
def pipe (request : List UInt8) : List UInt8 :=
  if transFid request = v.fid ∧ transFunction request = 0x26 then
    if BindsSrvsvc (transPacket request) then v.bound
    else if AsksShares v.name (transPacket request) then v.listed
    else denied
  else denied

/-- The answer to a request. -/
def reply (request : List UInt8) : List UInt8 :=
  if requestCommand request = smbCmdTreeConnect then
    if requestStrings request = some [wideAscii (v.treePath ++ [0]), cString (ascii "?????")] then
      treeReply v.tid
    else denied
  else if replyTid request ≠ v.tid then denied
  else if requestCommand request = smbCmdCreate then
    if requestStrings request = some [wideAscii (ascii "\\srvsvc" ++ [0])] then createReply v.fid
    else denied
  else if requestCommand request = smbCmdTrans then v.pipe request
  else if requestCommand request = smbCmdClose ∧ replyU16 request (smbHeaderSize + 1) = v.fid then v.closed
  else denied

/-- The name is one that `smb_srv_info` has room for, and the shares fit one message. -/
structure WellFormed : Prop where
  ascii : ∀ b ∈ v.name, b < 128
  nonzero : 0 ∉ v.name
  short : v.name.length ≤ 15
  few : smbHeaderSize + (enumPayload v.shares).length < 65536
  handle : smbFd v.tid v.fid ≠ 0

end ShareServer

/-! ## The requests -/

section

variable {P : Platform} (hP : P.ConvertsAscii) {v : ShareServer}

include hP

theorem treeConnect_answered (hv : v.WellFormed) (uid : UInt16) :
    (smbRequestBytes uid (smbTreeConnectReq P v.name (ascii "IPC$"))).length < 65536 ∧
      v.reply (smbRequestBytes uid (smbTreeConnectReq P v.name (ascii "IPC$"))) = treeReply v.tid := by
  have hascii : ∀ b ∈ v.treePath ++ [0], b < 128 := by
    intro b hb
    simp only [ShareServer.treePath, List.mem_append] at hb
    rcases hb with (((hb | hb) | hb) | hb) | hb
    · exact forall_ascii (by decide) b hb
    · exact hv.ascii b hb
    · exact forall_ascii (by decide) b hb
    · exact forall_ascii (by decide) b hb
    · exact forall_ascii (by decide) b hb
  have hnonzero : 0 ∉ v.treePath := by
    have hname := hv.nonzero
    simp only [ShareServer.treePath, List.mem_append, not_or]
    exact ⟨⟨⟨by decide, hname⟩, by decide⟩, by decide⟩
  have hlength : (wideAscii (v.treePath ++ [0])).length ≤ 46 := by
    have hshort := hv.short
    have hfour : (ascii "\\\\").length = 2 ∧ (ascii "\\").length = 1 ∧ (ascii "IPC$").length = 4 := by decide
    rw [wideAscii_length]
    simp only [ShareServer.treePath, List.length_append, List.length_singleton, hfour]
    omega
  obtain ⟨hsize, hcarries⟩ := treeConnectReq_carries P v.name (ascii "IPC$") (wideAscii_utf16z hnonzero)
    (hP.ascii _ hascii) (by rw [smbHeaderSize]; omega)
  rw [SmbMessage.bytes, Mem.read_length, smbHeaderSize] at hsize
  have hcommand : (smbTreeConnectReq P v.name (ascii "IPC$")).command = smbCmdTreeConnect := by
    simp [smbTreeConnectReq, smbMessageSetAndxMembers]
  constructor
  · rw [requestBytes_length, smbHeaderSize]
    omega
  · rw [ShareServer.reply, requestBytes_command, hcommand, if_pos rfl, requestStrings_sent uid hcarries,
      if_pos rfl]

theorem create_answered (oFlags : UInt32) (uid : UInt16) :
    (smbRequestBytes uid (smbFopenReq P v.tid (smbToUtf16 P (ascii "\\srvsvc" ++ [0])) oFlags)).length
        < 65536 ∧
      v.reply (smbRequestBytes uid (smbFopenReq P v.tid (smbToUtf16 P (ascii "\\srvsvc" ++ [0])) oFlags)) =
        createReply v.fid := by
  have hpath : smbToUtf16 P (ascii "\\srvsvc" ++ [0]) = wideAscii (ascii "\\srvsvc" ++ [0]) :=
    hP.ascii _ (forall_ascii (by decide))
  have hlength : (wideAscii (ascii "\\srvsvc" ++ [0])).length = 16 := by decide
  obtain ⟨hsize, hcarries⟩ := fopenReq_carries P v.tid (@wideAscii_utf16z (ascii "\\srvsvc") (by decide)) oFlags
    (by rw [hlength]; decide)
  rw [hpath]
  rw [SmbMessage.bytes, Mem.read_length, smbHeaderSize, hlength] at hsize
  have hcommand : ∀ utf, (smbFopenReq P v.tid utf oFlags).command = smbCmdCreate := by
    intro utf
    simp [smbFopenReq]
  have htid : ∀ utf, (smbFopenReq P v.tid utf oFlags).tid = v.tid := by
    intro utf
    simp [smbFopenReq]
  constructor
  · rw [requestBytes_length, smbHeaderSize]
    omega
  · rw [ShareServer.reply, requestBytes_command, hcommand, if_neg (by decide), requestBytes_tid, htid,
      if_neg (fun hne => hne rfl), if_pos rfl, requestStrings_sent uid hcarries, if_pos rfl]

omit hP in
/-- A request on the pipe, by its packet. -/
theorem trans_answered {msg : SmbMessage} (hcommand : msg.command = smbCmdTrans) (htid : msg.tid = v.tid)
    {uid : UInt16} (hfid : transFid (smbRequestBytes uid msg) = v.fid)
    (hfunction : transFunction (smbRequestBytes uid msg) = 0x26) :
    v.reply (smbRequestBytes uid msg) =
      if BindsSrvsvc (transPacket (smbRequestBytes uid msg)) then v.bound
      else if AsksShares v.name (transPacket (smbRequestBytes uid msg)) then v.listed
      else ShareServer.denied := by
  rw [ShareServer.reply, requestBytes_command, hcommand, if_neg (by decide), requestBytes_tid, htid,
    if_neg (fun hne => hne rfl), if_neg (by decide), if_pos rfl, ShareServer.pipe,
    if_pos ⟨hfid, hfunction⟩]

theorem bind_answered (uid : UInt16) :
    (smbRequestBytes uid (smbShareBindReq P v.tid v.fid)).length < 65536 ∧
      v.reply (smbRequestBytes uid (smbShareBindReq P v.tid v.fid)) = v.bound := by
  obtain ⟨hlength, hfid, hfunction, hpacket⟩ := shareBindReq_reads hP v.tid v.fid uid
  have hcommand : (smbShareBindReq P v.tid v.fid).command = smbCmdTrans := by
    rw [shareBindReq_eq, command_foldl (command_run P), command_setTid, command_new]
  have htid : (smbShareBindReq P v.tid v.fid).tid = v.tid := by
    rw [shareBindReq_eq, tid_foldl (tid_run P), tid_setTid]
  refine ⟨by omega, ?_⟩
  rw [trans_answered hcommand htid hfid hfunction, hpacket, if_pos bindPacket_binds]

theorem enum_answered (hv : v.WellFormed) (uid : UInt16) :
    (smbRequestBytes uid (smbShareEnumReq P v.name v.tid v.fid)).length < 65536 ∧
      v.reply (smbRequestBytes uid (smbShareEnumReq P v.name v.tid v.fid)) = v.listed := by
  have hshort := hv.short
  obtain ⟨hlength, hfid, hfunction, hpacket⟩ :=
    shareEnumReq_reads hP hv.ascii hshort v.tid v.fid uid
  have hcommand : (smbShareEnumReq P v.name v.tid v.fid).command = smbCmdTrans := by
    rw [shareEnumReq_eq P v.name v.tid v.fid rfl rfl]
    simp only [command_poke, command_insert, command_foldl (command_run P), command_setTid, command_new]
  have htid : (smbShareEnumReq P v.name v.tid v.fid).tid = v.tid := by
    rw [shareEnumReq_eq P v.name v.tid v.fid rfl rfl]
    simp only [tid_poke, tid_insert, tid_foldl (tid_run P), tid_setTid]
  have hnot : ¬ BindsSrvsvc (enumPacket v.name) := fun h => absurd h.1.1 (by
    rw [(enumPacket_asks hshort).1.1]
    decide)
  have hsize : enumSize v.name ≤ 104 := by
    rw [enumSize]
    omega
  refine ⟨by omega, ?_⟩
  rw [trans_answered hcommand htid hfid hfunction, hpacket, if_neg hnot, if_pos (enumPacket_asks hshort)]

omit hP in
theorem close_answered (P : Platform) (uid : UInt16) :
    (smbRequestBytes uid (smbFcloseReq P (smbFd v.tid v.fid))).length < 65536 ∧
      v.reply (smbRequestBytes uid (smbFcloseReq P (smbFd v.tid v.fid))) = v.closed := by
  have hbuilt : ∃ r : SmbCloseReq, smbFcloseReq P (smbFd v.tid v.fid) =
        smbMessageAppend ((smbMessageNew P smbCmdClose).setTid (smbFdTid (smbFd v.tid v.fid))) r.bytes ∧
      r.fid = smbFdFid (smbFd v.tid v.fid) := ⟨_, rfl, rfl⟩
  obtain ⟨r, hreq, hfid⟩ := hbuilt
  rw [smbFdTid_smbFd] at hreq
  rw [smbFdFid_smbFd] at hfid
  have hlength : r.bytes.length = 9 := by simp [SmbCloseReq.bytes]
  have hbuilds := (Builds.forTree P smbCmdClose v.tid).append r.bytes (by rw [hlength, List.length_nil]; omega)
  rw [List.nil_append, ← hreq] at hbuilds
  have hcontent : (smbRequestBytes uid (smbFcloseReq P (smbFd v.tid v.fid))).drop smbHeaderSize = r.bytes := by
    rw [requestBytes_drop uid _ (Nat.le_refl _), hbuilds.bytes_drop]
  have hsize := hbuilds.bytes_length
  rw [SmbMessage.bytes, Mem.read_length, hlength, smbHeaderSize] at hsize
  have hfield : replyU16 (smbRequestBytes uid (smbFcloseReq P (smbFd v.tid v.fid))) (smbHeaderSize + 1) =
      v.fid := by
    apply replyU16_payload
    rw [hcontent, ← hfid]
    exact @field_between _ [r.wct] (le16 r.fid) (le32 r.lastWrite ++ le16 r.bct)
      (by simp only [SmbCloseReq.bytes, List.append_assoc]) 1 2 rfl (le16_length _)
  have hcommand : (smbFcloseReq P (smbFd v.tid v.fid)).command = smbCmdClose := by rw [hreq]; simp
  have htid : (smbFcloseReq P (smbFd v.tid v.fid)).tid = v.tid := by rw [hreq]; simp
  constructor
  · rw [requestBytes_length, smbHeaderSize]
    omega
  · rw [ShareServer.reply, requestBytes_command, hcommand, if_neg (by decide), requestBytes_tid, htid,
      if_neg (fun hne => hne rfl), if_neg (by decide), if_neg (by decide), if_pos ⟨rfl, hfield⟩]

end

/-! ## One exchange -/

/-- The server that answers the next requests. -/
def ShareServer.answers (v : ShareServer) (n : Nat) : List Answer :=
  List.replicate n fun request => [v.reply request]

/-- Between the two states the server has given these answers. -/
def ShareServer.Answered (v : ShareServer) (s s' : SmbSession) (replies : List (List UInt8)) : Prop :=
  ∃ events, s'.tcp.log = s.tcp.log ++ events ∧
    (events.filterMap NetEvent.offered).map (fun frame => v.reply (frameMessage frame)) = replies

theorem ShareServer.Answered.trans {v : ShareServer} {s s' s'' : SmbSession}
    {replies replies' : List (List UInt8)} (h : v.Answered s s' replies) (h' : v.Answered s' s'' replies') :
    v.Answered s s'' (replies ++ replies') := by
  obtain ⟨events, hlog, hreplies⟩ := h
  obtain ⟨events', hlog', hreplies'⟩ := h'
  refine ⟨events ++ events', ?_, ?_⟩
  · rw [hlog', hlog, List.append_assoc]
  · rw [List.filterMap_append, List.map_append, hreplies, hreplies']

theorem ShareServer.Answered.of_transport {v : ShareServer} {s s' s'' : SmbSession}
    {replies : List (List UInt8)} (h : v.Answered s s' replies) (ht : s''.transport = s'.transport) :
    v.Answered s s'' replies := by
  obtain ⟨events, hlog, hreplies⟩ := h
  refine ⟨events, ?_, hreplies⟩
  rw [SmbSession.tcp, ht]
  exact hlog

/-- A request that the server answers. -/
theorem ShareServer.exchange {v : ShareServer} {n : Nat} {s : SmbSession}
    (h : Peer 65539 s [] (v.answers (n + 1))) {msg : SmbMessage} {reply : List UInt8}
    (hrequest : (smbRequestBytes s.srv.uid msg).length < 65536 ∧
      v.reply (smbRequestBytes s.srv.uid msg) = reply)
    (hlong : smbHeaderSize < reply.length) :
    ∃ s₁ resp nb, smbSessionSendMsg msg s = (true, s₁) ∧
      smbSessionRecvMsg s₁ = (some resp, s.withNetbios nb) ∧ resp.Holds reply ∧
      v.Answered s (s.withNetbios nb) [reply] ∧ Peer 65539 (s.withNetbios nb) [] (v.answers n) := by
  obtain ⟨hlt, hreply⟩ := hrequest
  rw [ShareServer.answers, List.replicate_succ] at h
  obtain ⟨nb₁, nb₂, resp, frame, event, hsend, hrecv, hholds, hlog, hevent, hframe, hpeer⟩ :=
    h.exchange (congrArg (fun m => [m]) hreply) hlt (by rw [netbiosHeaderSize]; omega) hlong
  refine ⟨s.withNetbios nb₁, resp, nb₂, hsend, hrecv, hholds, ⟨_, hlog, ?_⟩, hpeer⟩
  have hsent : (NetEvent.sent frame).offered = some frame := rfl
  rw [List.filterMap_cons_some hsent, List.filterMap_cons_none hevent, List.filterMap_nil, List.map_cons,
    List.map_nil, frameMessage, hframe, hreply]

/-- A message that is received is what the variable holds. -/
theorem recvInto_of_recvMsg {s s' : SmbSession} {resp : SmbMessage}
    (h : smbSessionRecvMsg s = (some resp, s')) (msg : SmbMessage) :
    smbSessionRecvInto msg s = ((resp.payloadSize, resp), s') ∧ resp.payloadSize ≠ 0 := by
  obtain ⟨r, hr⟩ : ∃ r, netbiosSessionPacketRecv s.transport.session = r := ⟨_, rfl⟩
  have hinto : ∀ m, smbSessionRecvInto m s = ((r.1.getD 0 - smbHeaderSize,
      if r.1.getD 0 < smbHeaderSize then { m with packet := r.2.packet.bytes.shift netbiosHeaderSize }
      else { payloadSize := r.1.getD 0 - smbHeaderSize, cursor := 0
             packet := r.2.packet.bytes.shift netbiosHeaderSize }), s.withNetbios r.2) := by
    intro m
    rw [← hr]
    rfl
  rw [smbSessionRecvMsg, bind_run (hinto _)] at h
  dsimp only at h
  split at h
  · cases h
  · rename_i hsize
    have hge : ¬ r.1.getD 0 < smbHeaderSize := by omega
    rw [if_neg hge] at h
    obtain ⟨hresp, hs⟩ := Prod.mk.inj h
    obtain rfl := Option.some.inj hresp
    refine ⟨?_, hsize⟩
    rw [hinto, if_neg hge, ← hs]

/-! ## The calls -/

section

variable {P : Platform} {s s₁ s₂ : SmbSession} {resp : SmbMessage}
variable (hrecv : smbSessionRecvMsg s₁ = (some resp, s₂))

include hrecv

theorem treeConnect_run {tid : UInt16} (hholds : resp.Holds (treeReply tid)) {name : List UInt8}
    (hsend : smbSessionSendMsg (smbTreeConnectReq P s.srv.name name) s = (true, s₁)) :
    ∃ share : SmbShare, share.tid = tid ∧ share.files = [] ∧
      smbTreeConnect P name s = ((.success, some tid), smbSessionShareAdd s₂ share) := by
  have hstatus : resp.status = ntStatusSuccess := by
    rw [hholds.status_eq, treeReply, replyBytes_status]
    rfl
  have hshare : (smbTreeConnectShare resp).isSome = true := by
    rw [treeConnectShare_reply hholds]
    rfl
  obtain ⟨share, hshare⟩ := Option.isSome_iff_exists.mp hshare
  obtain ⟨htid, hfiles⟩ := treeConnectShare_spec hshare
  rw [hholds.tid_eq, treeReply, replyBytes_tid] at htid
  refine ⟨share, htid, hfiles, ?_⟩
  rw [smbTreeConnect, get_bind_run, bind_run hsend, if_neg (by decide), bind_run hrecv]
  dsimp only
  rw [bind_run (checkNtStatus_success hstatus s₂), if_neg (by decide), hshare]
  dsimp only
  rw [htid]
  rfl

theorem fopen_run {tid fid : UInt16} (hholds : resp.Holds (createReply fid)) {path : List UInt8}
    {oFlags : UInt32} {share : SmbShare} (hshare : smbSessionShareGet s tid = some share)
    (hpath : smbToUtf16 P (path ++ [0]) ≠ [])
    (hsend : smbSessionSendMsg (smbFopenReq P tid (smbToUtf16 P (path ++ [0])) oFlags) s = (true, s₁)) :
    ∃ file : SmbFile, file.fid = fid ∧
      smbFopen P tid path oFlags s = ((.success, some (smbFd tid fid)), smbSessionFileAdd s₂ tid file) := by
  have hstatus : resp.status = ntStatusSuccess := by
    rw [hholds.status_eq, createReply, replyBytes_status]
    rfl
  have hsize : resp.payloadSize = 71 := by
    have hlength := hholds.length
    rw [createReply, replyBytes_length] at hlength
    simp only [List.length_append, List.length_replicate, le16_length] at hlength
    omega
  have hfid : (smbFopenFile tid resp.payload).fid = fid := by
    show resp.payload.u16 6 = fid
    rw [hholds.payload_u16_eq (by omega), createReply]
    apply replyU16_payload
    rw [← Nat.add_zero smbHeaderSize, replyBytes_drop, List.drop_zero]
    exact field_between (by rw [List.append_assoc]) List.length_replicate (le16_length _)
  refine ⟨_, hfid, ?_⟩
  rw [smbFopen, get_bind_run, hshare]
  dsimp only
  rw [if_neg hpath, bind_run hsend, if_neg (by decide), bind_run hrecv]
  dsimp only
  rw [bind_run (checkNtStatus_success hstatus s₂), if_neg (by decide),
    if_neg (by rw [hsize]; decide), hfid]
  rfl

theorem fclose_run {fd : UInt32} {file : SmbFile} (hfd : fd ≠ 0) {s₀ : SmbSession}
    (hremove : smbSessionFileRemove s₀ fd = (some file, s))
    (hsend : smbSessionSendMsg (smbFcloseReq P fd) s = (true, s₁)) :
    smbFclose P fd s₀ = ((), s₂) := by
  rw [smbFclose, if_neg hfd, get_bind_run, hremove]
  dsimp only
  have hset : (set s : SmbM Unit) s₀ = ((), s) := rfl
  rw [bind_run hset, bind_run hsend, bind_run hrecv]
  rfl

end

/-! ## The list -/

theorem enumPayload_length (shares : List ShareInfo) : (enumPayload shares).length =
    72 + 12 * shares.length + (shares.flatMap ShareInfo.bytes).length := by
  simp only [enumPayload, List.length_append, List.length_replicate, le32_length]
  omega

/-- What the server says about its shares is a reply that the library can read. -/
theorem enumReply_listed {v : ShareServer} (hv : v.WellFormed) {resp : SmbMessage}
    (h : resp.Holds v.listed) : EnumReply resp v.shares := by
  have hfew := hv.few
  have hlength := enumPayload_length v.shares
  have hsize : resp.payloadSize = (enumPayload v.shares).length := by
    have hholds := h.length
    rw [ShareServer.listed, replyBytes_length] at hholds
    omega
  have hread : resp.payload.read 0 (enumPayload v.shares).length = enumPayload v.shares := by
    have hpayload := h.payload_read
    rwa [hsize, ShareServer.listed, ← Nat.add_zero smbHeaderSize, replyBytes_drop, List.drop_zero]
      at hpayload
  refine ⟨?_, ?_, ?_, ?_, ?_⟩
  · have hcount := @Mem.read_part resp.payload 0 60 4 (enumPayload v.shares) hread (by omega)
    rw [Nat.zero_add] at hcount
    rw [hcount]
    exact @field_between _ (List.replicate 60 0) _ (List.replicate (8 + 12 * v.shares.length) 0 ++
      v.shares.flatMap ShareInfo.bytes) (by simp only [enumPayload, List.append_assoc]) 60 4
      List.length_replicate (le32_length _)
  · omega
  · have hstrings := @Mem.read_part resp.payload 0 (72 + 12 * v.shares.length)
      (v.shares.flatMap ShareInfo.bytes).length (enumPayload v.shares) hread (by omega)
    rw [Nat.zero_add] at hstrings
    have hfront : (List.replicate 60 (0 : UInt8) ++ le32 (UInt32.ofNat v.shares.length) ++
        List.replicate (8 + 12 * v.shares.length) 0).length = 72 + 12 * v.shares.length := by
      simp only [List.length_append, List.length_replicate, le32_length]
      omega
    rw [hstrings, enumPayload, List.drop_left' hfront, List.take_length]
  · omega
  · intro share hshare
    obtain ⟨before, after, hshares⟩ := List.append_of_mem hshare
    have hparts : (v.shares.flatMap ShareInfo.bytes).length = (before.flatMap ShareInfo.bytes).length +
        (12 + share.name.extent + (12 + share.comment.extent) + (after.flatMap ShareInfo.bytes).length) := by
      rw [hshares, List.flatMap_append, List.flatMap_cons, List.length_append, List.length_append,
        ShareInfo.bytes, List.length_append, share.name.bytes_length, share.comment.bytes_length]
    constructor <;> omega

theorem parseEnum_listed {P : Platform} {v : ShareServer} {resp : SmbMessage}
    (h : EnumReply resp v.shares) (hconv : ∀ share ∈ v.shares, smbFromUtf16 P share.name.chars ≠ []) :
    smbShareParseEnum P resp = v.shares.map fun share => some (smbFromUtf16 P share.name.chars) := by
  have hdescriptors := h.descriptors
  have hcount : (smbShareCount resp).toNat = v.shares.length := by
    rw [smbShareCount, Mem.u32_eq h.count]
    exact UInt32.toNat_ofNat_of_lt' (by rw [UInt32.size]; omega)
  have hstart : (smbShareCount resp * 12).toNat = 12 * v.shares.length := by
    rw [UInt32.toNat_mul, hcount]
    show v.shares.length * 12 % 2 ^ 32 = _
    omega
  rw [smbShareParseEnum, hcount, hstart]
  exact parseEnumLoop_shares P resp.payload resp.payloadSize v.shares _ h.strings h.inside h.small hconv

/-- The two packets on the open pipe. -/
theorem shareEnum_run {P : Platform} (hP : P.ConvertsAscii) {v : ShareServer} (hv : v.WellFormed) {n : Nat}
    {s : SmbSession} (hname : s.srv.name = v.name)
    (hconv : ∀ share ∈ v.shares, smbFromUtf16 P share.name.chars ≠ [])
    (h : Peer 65539 s [] (v.answers (n + 2))) :
    ∃ nb, smbShareEnum P v.tid (smbFd v.tid v.fid) s = ((.success,
        some (v.shares.map fun share => some (smbFromUtf16 P share.name.chars))), s.withNetbios nb) ∧
      v.Answered s (s.withNetbios nb) [v.bound, v.listed] ∧
      Peer 65539 (s.withNetbios nb) [] (v.answers n) := by
  have hbound : v.bound.length = smbHeaderSize + 72 := by
    rw [ShareServer.bound, replyBytes_length, List.length_replicate]
  have hlisted : v.listed.length = smbHeaderSize + (enumPayload v.shares).length := by
    rw [ShareServer.listed, replyBytes_length]
  have hpayload := enumPayload_length v.shares
  obtain ⟨s₁, resp₁, nb₁, hsend₁, hrecv₁, hholds₁, hanswered₁, hpeer₁⟩ :=
    ShareServer.exchange h (bind_answered hP s.srv.uid) (by omega)
  obtain ⟨s₂, resp₂, nb₂, hsend₂, hrecv₂, hholds₂, hanswered₂, hpeer₂⟩ :=
    ShareServer.exchange hpeer₁ (enum_answered hP hv s.srv.uid) (by omega)
  obtain ⟨hinto₁, hsome₁⟩ := recvInto_of_recvMsg hrecv₁
    { payloadSize := (P.stack.u64 0).toNat, cursor := 0, packet := P.stack }
  obtain ⟨hinto₂, hsome₂⟩ := recvInto_of_recvMsg hrecv₂ resp₁
  have hsize₁ : resp₁.payloadSize = 72 := by
    have hlength := hholds₁.length
    omega
  have hsize₂ : ¬ resp₂.payloadSize < 4 := by
    have hlength := hholds₂.length
    omega
  have hzero : resp₁.payload 68 = 0 := by
    rw [hholds₁.payload_eq (by omega)]
    rfl
  refine ⟨nb₂, ?_, hanswered₁.trans hanswered₂, hpeer₂⟩
  have hlist := parseEnum_listed (enumReply_listed hv hholds₂) hconv
  rw [smbShareEnum, smbFdFid_smbFd]
  dsimp only
  rw [bind_run hsend₁, if_neg (by decide), bind_run hinto₁]
  dsimp only
  rw [if_neg (by omega), if_neg (by rw [hzero]; simpa using hsome₁), get_bind_run]
  have hname₁ : (s.withNetbios nb₁).srv.name = v.name := hname
  rw [hname₁, bind_run hsend₂, if_neg (by decide), bind_run hinto₂]
  dsimp only
  rw [if_neg hsize₂, if_neg (fun hlost => hsome₂ hlost.1), hlist]
  rfl

theorem shareGet_last {s : SmbSession} {before : List SmbShare} {share : SmbShare} {tid : UInt16}
    (h : s.shares = before ++ [share]) (hbefore : ∀ other ∈ before, other.tid ≠ tid)
    (htid : share.tid = tid) : smbSessionShareGet s tid = some share := by
  rw [smbSessionShareGet, h, List.find?_append, List.find?_eq_none.mpr (by simpa using hbefore),
    List.find?_cons_of_pos (by simpa using htid)]
  rfl

/-- The one file of the last share is taken out. -/
theorem fileRemove_last {s : SmbSession} {before : List SmbShare} {share : SmbShare} {file : SmbFile}
    {tid fid : UInt16} (h : s.shares = before ++ [share]) (hbefore : ∀ other ∈ before, other.tid ≠ tid)
    (htid : share.tid = tid) (hfiles : share.files = [file]) (hfid : file.fid = fid)
    (hfd : smbFd tid fid ≠ 0) :
    ∃ s', smbSessionFileRemove s (smbFd tid fid) = (some file, s') ∧ s'.transport = s.transport ∧
      s'.shares = before ++ [{ share with files := [] }] := by
  have hremoved : removeFile (smbFd tid fid) share.files = (some file, []) := by
    rw [hfiles, removeFile, smbFdFid_smbFd, if_pos hfid]
  refine ⟨{ s with shares := before ++ [{ share with files := [] }] }, ?_, rfl, rfl⟩
  rw [smbSessionFileRemove, if_neg hfd, smbFdTid_smbFd, shareGet_last h hbefore htid]
  dsimp only
  rw [hremoved, h, updateShare_first _ hbefore htid]

/-! ## The conversation -/

section

variable {P : Platform} {v : ShareServer} {n : Nat} {s : SmbSession}

/-- The tree of `IPC$` is the last share of the session. -/
theorem ShareServer.treeConnected (hP : P.ConvertsAscii) (hv : v.WellFormed) (hname : s.srv.name = v.name)
    (h : Peer 65539 s [] (v.answers (n + 1))) :
    ∃ s' share, smbTreeConnect P (ascii "IPC$") s = ((.success, some v.tid), s') ∧ share.tid = v.tid ∧
      share.files = [] ∧ s'.shares = s.shares ++ [share] ∧ s'.srv = s.srv ∧
      v.Answered s s' [treeReply v.tid] ∧ Peer 65539 s' [] (v.answers n) := by
  have hrequest := treeConnect_answered hP hv s.srv.uid
  rw [← hname] at hrequest
  obtain ⟨s₁, resp, nb, hsend, hrecv, hholds, hanswered, hpeer⟩ :=
    ShareServer.exchange h hrequest (by rw [treeReply, replyBytes_length]; decide)
  obtain ⟨share, htid, hfiles, hrun⟩ := treeConnect_run hrecv hholds hsend
  exact ⟨_, share, hrun, htid, hfiles, rfl, rfl, hanswered.of_transport rfl, hpeer.of_transport rfl⟩

variable {before : List SmbShare} {share : SmbShare} (hbefore : ∀ other ∈ before, other.tid ≠ v.tid)
variable (htid : share.tid = v.tid)

include hbefore htid

/-- The pipe is opened, as the only file of the tree. -/
theorem ShareServer.pipeOpened (hP : P.ConvertsAscii) (hshares : s.shares = before ++ [share])
    (hfiles : share.files = []) (h : Peer 65539 s [] (v.answers (n + 1))) :
    ∃ s' file, smbFopen P v.tid (ascii "\\srvsvc") (smbModRead ||| smbModWrite) s =
        ((.success, some (smbFd v.tid v.fid)), s') ∧ file.fid = v.fid ∧
      s'.shares = before ++ [{ share with files := [file] }] ∧ s'.srv = s.srv ∧
      v.Answered s s' [createReply v.fid] ∧ Peer 65539 s' [] (v.answers n) := by
  have hpath : smbToUtf16 P (ascii "\\srvsvc" ++ [0]) ≠ [] := by
    rw [hP.ascii _ (forall_ascii (by decide))]
    decide
  obtain ⟨s₁, resp, nb, hsend, hrecv, hholds, hanswered, hpeer⟩ :=
    ShareServer.exchange h (create_answered hP (smbModRead ||| smbModWrite) s.srv.uid)
      (by rw [createReply, replyBytes_length]; exact Nat.lt_add_of_pos_right (by simp))
  obtain ⟨file, hfid, hrun⟩ := fopen_run hrecv hholds (shareGet_last hshares hbefore htid) hpath hsend
  refine ⟨_, file, hrun, hfid, ?_, rfl, hanswered.of_transport rfl, hpeer.of_transport rfl⟩
  show updateShare v.tid _ s.shares = _
  rw [hshares, updateShare_first _ hbefore htid, hfiles]
  rfl

/-- The pipe is closed, and the tree has no file again. -/
theorem ShareServer.pipeClosed (hv : v.WellFormed) {file : SmbFile} (hfid : file.fid = v.fid)
    (hshares : s.shares = before ++ [share]) (hfiles : share.files = [file])
    (h : Peer 65539 s [] (v.answers (n + 1))) :
    ∃ s', smbFclose P (smbFd v.tid v.fid) s = ((), s') ∧
      s'.shares = before ++ [{ share with files := [] }] ∧ v.Answered s s' [v.closed] := by
  obtain ⟨s₀, hremove, htransport, hremoved⟩ := fileRemove_last hshares hbefore htid hfiles hfid hv.handle
  obtain ⟨s₁, resp, nb, hsend, hrecv, -, ⟨events, hlog, hreplies⟩, -⟩ :=
    ShareServer.exchange (h.of_transport htransport) (close_answered P s₀.srv.uid)
      (by rw [ShareServer.closed, replyBytes_length]; exact Nat.lt_add_of_pos_right (by simp))
  refine ⟨_, fclose_run hrecv hv.handle hremove hsend, hremoved, events, ?_, hreplies⟩
  rw [hlog, SmbSession.tcp, htransport]
  rfl

end

/-- `smb_share_get_list` against a server of the service: it lists the names of the shares as they
convert, the server answers all five requests as asked, and of the conversation only the tree is left in
the session, without a file. -/
theorem shares_listed (P : Platform) (hP : P.ConvertsAscii) (v : ShareServer) (hv : v.WellFormed)
    (hconv : ∀ share ∈ v.shares, smbFromUtf16 P share.name.chars ≠ []) (s : SmbSession)
    (hname : s.srv.name = v.name) (hfresh : ∀ share ∈ s.shares, share.tid ≠ v.tid)
    (hpeer : Peer 65539 s [] (v.answers 5)) :
    SmbOp.result P s .shareGetList =
        .shares .success (some (v.shares.map fun share => some (smbFromUtf16 P share.name.chars))) ∧
      (SmbOp.offered P s .shareGetList).map (fun frame => v.reply (frameMessage frame)) =
        [treeReply v.tid, createReply v.fid, v.bound, v.listed, v.closed] ∧
      ∃ share : SmbShare, share.tid = v.tid ∧ share.files = [] ∧
        (SmbOp.run P s .shareGetList).shares = s.shares ++ [share] := by
  obtain ⟨s₁, share, htree, htid, hfiles, hshares₁, hsrv₁, hanswered₁, hpeer₁⟩ :=
    ShareServer.treeConnected hP hv hname hpeer
  obtain ⟨s₂, file, hopen, hfid, hshares₂, hsrv₂, hanswered₂, hpeer₂⟩ :=
    ShareServer.pipeOpened hfresh htid hP hshares₁ hfiles hpeer₁
  have hname₂ : s₂.srv.name = v.name := by rw [hsrv₂, hsrv₁, hname]
  obtain ⟨nb, henum, hanswered₃, hpeer₃⟩ := shareEnum_run hP hv hname₂ hconv hpeer₂
  have hshares₃ : (s₂.withNetbios nb).shares = s.shares ++ [{ share with files := [file] }] := hshares₂
  have htid₃ : ({ share with files := [file] } : SmbShare).tid = v.tid := htid
  obtain ⟨s₄, hclose, hshares₄, hanswered₄⟩ :=
    @ShareServer.pipeClosed P v 0 _ _ _ hfresh htid₃ hv file hfid hshares₃ rfl hpeer₃
  have hexec : SmbOp.exec P .shareGetList s = (.shares .success (some (v.shares.map fun share =>
      some (smbFromUtf16 P share.name.chars))), s₄) := by
    have hrun : smbShareGetList P s = ((.success, some (v.shares.map fun share =>
        some (smbFromUtf16 P share.name.chars))), s₄) := by
      rw [smbShareGetList, bind_run htree]
      dsimp only
      rw [bind_run hopen]
      dsimp only
      rw [bind_run henum, bind_run hclose]
      rfl
    rw [SmbOp.exec, bind_run hrun]
    rfl
  have hrun : SmbOp.run P s .shareGetList = s₄ := by rw [SmbOp.run, hexec]
  obtain ⟨events, hlog, hreplies⟩ :=
    ((hanswered₁.trans hanswered₂).trans hanswered₃).trans hanswered₄
  refine ⟨by rw [SmbOp.result, hexec], ?_, { share with files := [] }, htid, rfl, ?_⟩
  · have hevents : SmbOp.events P s .shareGetList = events := events_eq (by rw [hrun, hlog])
    rw [SmbOp.offered, hevents]
    exact hreplies
  · rw [hrun]
    exact hshares₄

theorem ShareServer.reply_short {v : ShareServer} (hv : v.WellFormed) (request : List UInt8) :
    (v.reply request).length < 65536 := by
  have hfew := hv.few
  have htree : (treeReply v.tid).length < 65536 := by
    rw [treeReply, replyBytes_length]
    decide
  have hcreate : (createReply v.fid).length < 65536 := by
    rw [createReply, replyBytes_length]
    simp only [List.length_append, List.length_replicate, le16_length]
    decide
  have hbound : v.bound.length < 65536 := by
    rw [ShareServer.bound, replyBytes_length, List.length_replicate]
    decide
  have hlisted : v.listed.length < 65536 := by
    rw [ShareServer.listed, replyBytes_length]
    exact hfew
  have hclosed : v.closed.length < 65536 := by
    rw [ShareServer.closed, replyBytes_length]
    decide
  have hdenied : ShareServer.denied.length < 65536 := by decide
  unfold ShareServer.reply ShareServer.pipe
  repeat' split
  all_goals simp only [htree, hcreate, hbound, hlisted, hclosed, hdenied]

/-- A server with two shares. -/
def ShareServer.sample : ShareServer where
  name := ascii "S"
  tid := 5
  fid := 7
  shares := sampleShares

theorem shareServer_sample_wellFormed : ShareServer.sample.WellFormed where
  ascii b hb := by
    rw [List.mem_singleton.mp hb]
    decide
  nonzero := by decide
  short := by decide
  few := by decide +kernel
  handle := by decide

/-- Its two shares are found. -/
theorem shares_listed_sample :
    let s : SmbSession :=
      { srv := { name := ascii "S" }
        transport := .obeyed (ShareServer.sample.answers 5) }
    SmbOp.result .spnegoDer s .shareGetList =
      .shares .success (some [some (cString (ascii "C$")), some (cString (ascii "pub"))]) := by
  intro s
  have hpeer : Peer 65539 s [] (ShareServer.sample.answers 5) := by
    refine peer_obeyed (fun answer hanswer request m hm => ?_) (Nat.le_refl _) rfl
    rw [List.eq_of_mem_replicate hanswer] at hm
    obtain rfl := List.mem_singleton.mp hm
    exact ShareServer.reply_short shareServer_sample_wellFormed request
  have hconv : ∀ share ∈ ShareServer.sample.shares, smbFromUtf16 .spnegoDer share.name.chars ≠ [] := by
    decide +kernel
  have hlist := (shares_listed .spnegoDer spnegoDer_encodes.ascii .sample shareServer_sample_wellFormed hconv s rfl
    (fun share hshare => absurd hshare List.not_mem_nil) hpeer).1
  rw [hlist]
  decide +kernel

end Libdsm
