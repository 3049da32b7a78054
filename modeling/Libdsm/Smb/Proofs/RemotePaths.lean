import Libdsm.Smb.Proofs.Paths
import Libdsm.Smb.Proofs.Peer
import Libdsm.Smb.Proofs.Placement
import Libdsm.Smb.Proofs.Transfer

/-!
# Calls on paths as calls of the file system

A file system is given by what a call on paths does to it and the status it has: `PathSystem`. A server
reads the call from the bytes of a request, runs it, and answers with the status. `smb_file_rm`,
`smb_file_mv`, `smb_directory_rm` and `smb_directory_create` against such a server are the calls of the file
system, over whole runs.
-/

namespace Libdsm

/-! ## Reading a request -/

/-- The strings of a request, by the layout of its command. -/
def requestStrings (request : List UInt8) : Option (List (List UInt8)) := do
  let layout ← layoutOf (requestCommand request)
  let pieces ← readBody request layout
  return (pieces.filter fun piece => piece.field.isString).map Piece.bytes

theorem requestBytes_tid (uid : UInt16) (msg : SmbMessage) :
    replyTid (smbRequestBytes uid msg) = msg.tid := by
  rw [replyTid, replyU16, requestBytes_read, SmbMessage.tid, Mem.u16]
  all_goals simp [smbHeaderTid, smbHeaderSize, smbHeaderFlags, smbHeaderFlags2, smbHeaderUid]
  omega

/-- The server finds the strings that the message carries. -/
theorem requestStrings_sent (uid : UInt16) {msg : SmbMessage} {strings : List (List UInt8)}
    (h : CarriesStrings msg.bytes strings) : requestStrings (smbRequestBytes uid msg) = some strings := by
  obtain ⟨layout, pieces, hlayout, -, hbody, -, hstrings⟩ := h.sent uid
  rw [requestStrings, hlayout, Option.bind_eq_bind, Option.bind_some, hbody, Option.bind_eq_bind,
    Option.bind_some, hstrings]
  rfl

/-! ## Trees

The tid of a message stays what `smb_message_new`'s callers set. -/

@[simp] theorem tid_setTid (msg : SmbMessage) (tid : UInt16) : (msg.setTid tid).tid = tid :=
  Mem.u16_eq (Mem.read_write _ smbHeaderTid (le16 tid))

@[simp] theorem tid_setFlags2 (msg : SmbMessage) (flags : UInt16) :
    (msg.setHeader smbHeaderFlags2 (le16 flags)).tid = msg.tid :=
  Mem.u16_congr (Mem.read_write_disjoint _ _ (.inr (by rw [le16_length]; decide)))

@[simp] theorem tid_append (msg : SmbMessage) (data : List UInt8) :
    (smbMessageAppend msg data).tid = msg.tid := by
  have hbefore : smbHeaderTid + 2 ≤ smbHeaderSize := by decide
  apply Mem.u16_congr
  rw [← expandPayload_packet msg msg.cursor data.length]
  exact Mem.read_write_disjoint _ _ (.inl (by omega))

@[simp] theorem tid_put8 (msg : SmbMessage) (data : UInt8) : (smbMessagePut8 msg data).tid = msg.tid :=
  tid_append _ _

/-! ## File systems -/

/-- A call on paths as a server sees it: the command, the tree, and the strings of the request. -/
structure PathCall where
  command : UInt8
  tid : UInt16
  strings : List (List UInt8)

/-- The call that a request stands for. -/
def requestCall (request : List UInt8) : Option PathCall :=
  (requestStrings request).map fun strings => ⟨requestCommand request, replyTid request, strings⟩

/-- The calls of a program that only name paths, and what they ask for. -/
def SmbOp.pathCall (P : Platform) : SmbOp → Option PathCall
  | .fileRm tid path => some ⟨smbCmdRmfile, tid, [smbToUtf16 P (path ++ [0])]⟩
  | .fileMv tid oldPath newPath =>
    some ⟨smbCmdMove, tid, [smbToUtf16 P (oldPath ++ [0]), smbToUtf16 P (newPath ++ [0])]⟩
  | .directoryRm tid path => some ⟨smbCmdRmdir, tid, [smbToUtf16 P (path ++ [0])]⟩
  | .directoryCreate tid path => some ⟨smbCmdMkdir, tid, [smbToUtf16 P (path ++ [0])]⟩
  | _ => none

/-- Their requests. -/
def SmbOp.pathRequest : SmbOp → Option PathRequest
  | .fileRm tid path => some (.fileRm tid path)
  | .fileMv tid oldPath newPath => some (.fileMv tid oldPath newPath)
  | .directoryRm tid path => some (.directoryRm tid path)
  | .directoryCreate tid path => some (.directoryCreate tid path)
  | _ => none

/-- What a call does to a file system, and the status with which it ends. -/
abbrev PathSystem (σ : Type) := PathCall → σ → UInt32 × σ

namespace PathSystem

variable {σ : Type} (fs : PathSystem σ) (P : Platform)

/-- A call of the program, made on the file system itself. A path that does not convert is not looked
for. -/
def step (state : σ) (op : SmbOp) : SmbResult × σ :=
  match op.pathCall P with
  | none => (.done, state)
  | some call =>
    if [] ∈ call.strings then (.code .errorCharset, state)
    else (.code (if (fs call state).1 = ntStatusSuccess then .success else .errorNt), (fs call state).2)

/-- What a server of the file system answers: `STATUS_INVALID_PARAMETER` to what it cannot read. -/
def reply (state : σ) (request : List UInt8) : List UInt8 :=
  match requestCall request with
  | none => replyBytes 0xc000000d 0 0 [0, 0, 0]
  | some call => replyBytes (fs call state).1 0 0 [0, 0, 0]

/-- What becomes of the file system. -/
def serve (state : σ) (request : List UInt8) : σ :=
  match requestCall request with
  | none => state
  | some call => (fs call state).2

/-- A call, and what the server makes of the frames that it sends. -/
def remoteStep (st : SmbSession × σ) (op : SmbOp) : SmbSession × σ :=
  (op.run P st.1, (op.offered P st.1).foldl (fun state frame => fs.serve state (frameMessage frame)) st.2)

/-- What a run is given: the paths are strings whose request has at most 65535 bytes, the socket takes
its frame, and the peer answers it as the server does. -/
structure Promise (st : SmbSession × σ) (op : SmbOp) : Prop where
  request : ∃ r, op.pathRequest = some r ∧ (∀ path ∈ r.paths, 0 ∉ path) ∧ r.size P ≤ 65535
  sends : 65539 ≤ st.1.tcp.sends.headD 0
  server : ∀ frame, Delivers (st.1.tcp.server st.1.tcp.served frame)
    [fs.reply st.2 (frameMessage frame)]

/-- The call returns what it returns on the file system and does to it what it does there. A refusal
leaves its status in the session. -/
structure ActsLocally (st : SmbSession × σ) (op : SmbOp) : Prop where
  result : op.result P st.1 = (fs.step P st.2 op).1
  state : (fs.remoteStep P st op).2 = (fs.step P st.2 op).2
  status : op.result P st.1 = .code .errorNt →
    ∀ call, op.pathCall P = some call → (op.run P st.1).ntStatus = (fs call st.2).1

end PathSystem

/-! ## Requests -/

/-- A request and the reply that says how it went. -/
def pathExchange (msg : SmbMessage) : SmbM SmbResult := do
  let _ ← smbSessionSendMsg msg
  return .code (← smbSimpleReply)

/-- A call with one path sends nothing if the path does not convert. -/
theorem onePath_exec (utf : List UInt8) (msg : SmbMessage) (s : SmbSession) :
    ((do if utf = [] then return .errorCharset
         let _ ← smbSessionSendMsg msg
         smbSimpleReply : SmbM DsmCode) >>= fun code => pure (.code code)) s =
      if [] ∈ [utf] then (SmbResult.code .errorCharset, s) else pathExchange msg s := by
  by_cases hutf : utf = []
  · rw [if_pos hutf, if_pos (by rw [hutf]; exact List.mem_cons_self)]
    rfl
  · rw [if_neg hutf, if_neg (by simpa using Ne.symm hutf), pathExchange, bind_assoc]

section

variable {P : Platform} {op : SmbOp} {r : PathRequest} (hr : op.pathRequest = some r)

include hr

/-- The four calls run alike. -/
theorem pathOp_exec (s : SmbSession) : op.exec P s =
    if [] ∈ r.strings P then (.code .errorCharset, s) else pathExchange (r.message P) s := by
  cases op with
  | fileRm tid path =>
    obtain rfl := Option.some.inj hr
    exact onePath_exec _ _ s
  | fileMv tid oldPath newPath =>
    obtain rfl := Option.some.inj hr
    have hstrings : (PathRequest.fileMv tid oldPath newPath).strings P =
        [smbToUtf16 P (oldPath ++ [0]), smbToUtf16 P (newPath ++ [0])] := rfl
    rw [hstrings, SmbOp.exec, smbFileMv]
    by_cases hold : smbToUtf16 P (oldPath ++ [0]) = []
    · rw [if_pos hold, if_pos (by rw [hold]; exact List.mem_cons_self)]
      rfl
    · have hmem : [] ∈ [smbToUtf16 P (oldPath ++ [0]), smbToUtf16 P (newPath ++ [0])] ↔
          [] ∈ [smbToUtf16 P (newPath ++ [0])] := by
        rw [List.mem_cons, or_iff_right (Ne.symm hold)]
      rw [if_neg hold, if_congr hmem rfl rfl]
      exact onePath_exec _ _ s
  | directoryRm tid path =>
    obtain rfl := Option.some.inj hr
    exact onePath_exec _ _ s
  | directoryCreate tid path =>
    obtain rfl := Option.some.inj hr
    exact onePath_exec _ _ s
  | _ => cases hr

/-- What the call asks for, and the strings of its request. -/
theorem pathCall_of_request :
    ∃ call, op.pathCall P = some call ∧ call.strings = r.strings P ∧
      (r.message P).command = call.command ∧ (r.message P).tid = call.tid := by
  cases op with
  | fileRm tid path =>
    obtain rfl := Option.some.inj hr
    refine ⟨_, rfl, rfl, ?_, ?_⟩ <;> simp [PathRequest.message, smbFileRmReq]
  | fileMv tid oldPath newPath =>
    obtain rfl := Option.some.inj hr
    refine ⟨_, rfl, rfl, ?_, ?_⟩ <;> simp [PathRequest.message, smbFileMvReq]
  | directoryRm tid path =>
    obtain rfl := Option.some.inj hr
    refine ⟨_, rfl, rfl, ?_, ?_⟩ <;> simp [PathRequest.message, smbDirectoryReq]
  | directoryCreate tid path =>
    obtain rfl := Option.some.inj hr
    refine ⟨_, rfl, rfl, ?_, ?_⟩ <;> simp [PathRequest.message, smbDirectoryReq]
  | _ => cases hr

/-- The request of the call carries its strings. -/
theorem pathOp_carries (hutf : ∀ path ∈ r.paths, Utf16z (smbToUtf16 P (path ++ [0])))
    (hsize : r.size P ≤ 65535) :
    (r.message P).bytes.length = r.size P ∧ CarriesStrings (r.message P).bytes (r.strings P) := by
  cases op with
  | fileRm tid path =>
    obtain rfl := Option.some.inj hr
    rw [PathRequest.size_one rfl] at hsize ⊢
    exact fileRmReq_carries P tid (hutf path List.mem_cons_self) hsize
  | fileMv tid oldPath newPath =>
    obtain rfl := Option.some.inj hr
    rw [PathRequest.size_two rfl, ← Nat.add_assoc] at hsize ⊢
    exact fileMvReq_carries P tid (hutf oldPath List.mem_cons_self)
      (hutf newPath (List.mem_cons_of_mem _ List.mem_cons_self)) hsize
  | directoryRm tid path =>
    obtain rfl := Option.some.inj hr
    rw [PathRequest.size_one rfl] at hsize ⊢
    exact directoryReq_carries P tid (hutf path List.mem_cons_self) rfl hsize
  | directoryCreate tid path =>
    obtain rfl := Option.some.inj hr
    rw [PathRequest.size_one rfl] at hsize ⊢
    exact directoryReq_carries P tid (hutf path List.mem_cons_self) rfl hsize
  | _ => cases hr

end

/-! ## Fields -/

theorem field_between {l front field rest : List UInt8} (h : l = front ++ (field ++ rest)) {off k : Nat}
    (hoff : front.length = off) (hk : field.length = k) : (l.drop off).take k = field := by
  rw [h, List.drop_left' hoff, List.take_left' hk]

theorem replyU16_at {l : List UInt8} {off : Nat} {x : UInt16} (h : (l.drop off).take 2 = le16 x) :
    replyU16 l off = x := by
  have hx : x.toNat % 256 ^ 2 = x.toNat := Nat.mod_eq_of_lt x.toNat_lt
  rw [replyU16, h, le16, leNat_leBytes, hx, UInt16.ofNat_toNat]

theorem replyU32_at {l : List UInt8} {off : Nat} {x : UInt32} (h : (l.drop off).take 4 = le32 x) :
    replyU32 l off = x := by
  have hx : x.toNat % 256 ^ 4 = x.toNat := Nat.mod_eq_of_lt x.toNat_lt
  rw [replyU32, h, le32, leNat_leBytes, hx, UInt32.ofNat_toNat]

theorem replyBytes_status (status : UInt32) (tid uid : UInt16) (payload : List UInt8) :
    replyStatus (replyBytes status tid uid payload) = status := by
  apply replyU32_at
  apply @field_between _ (smbMagic ++ [0])
  · simp only [replyBytes, List.append_assoc]
    rfl
  · rfl
  · exact le32_length _

theorem replyBytes_tid (status : UInt32) (tid uid : UInt16) (payload : List UInt8) :
    replyTid (replyBytes status tid uid payload) = tid := by
  apply replyU16_at
  apply @field_between _ (smbMagic ++ [0] ++ le32 status ++ List.replicate 15 0)
  · simp only [replyBytes, List.append_assoc]
    rfl
  · rfl
  · exact le16_length _

/-! ## Replies -/

section

variable {resp : SmbMessage} {status : UInt32} (h : resp.Holds (replyBytes status 0 0 [0, 0, 0]))

include h

theorem simpleReply_size : resp.payloadSize = 3 := by
  have hlength := h.length
  rw [replyBytes_length] at hlength
  exact (Nat.add_left_cancel hlength).symm

theorem simpleReply_payload : resp.payload.read 0 3 = [0, 0, 0] := by
  have hread := h.payload_read
  rw [simpleReply_size h, ← Nat.add_zero smbHeaderSize, replyBytes_drop] at hread
  exact hread

theorem simpleReply_counts :
    SmbSimpleStruct.readWct resp.payload = 0 ∧ SmbSimpleStruct.readBct resp.payload = 0 := by
  have hpayload := simpleReply_payload h
  constructor
  · have hbyte := Mem.read_getElem? resp.payload 0 3 0 (by decide)
    rw [hpayload] at hbyte
    exact (Option.some.inj hbyte).symm
  · have hlast := @Mem.read_part resp.payload 0 1 2 [0, 0, 0] hpayload (by decide)
    rw [Nat.zero_add] at hlast
    rw [SmbSimpleStruct.readBct, Mem.u16, hlast]
    decide

/-- What the server says about a call is what the call returns. -/
theorem simpleReply_run {s₁ s₂ : SmbSession} (hrecv : smbSessionRecvMsg s₁ = (some resp, s₂)) :
    smbSimpleReply s₁ = if status = ntStatusSuccess then (.success, s₂)
      else (.errorNt, { s₂ with ntStatus := status }) := by
  have hstatus : resp.status = status := by
    rw [h.status_eq, replyBytes_status]
  obtain ⟨hwct, hbct⟩ := simpleReply_counts h
  have hsize := simpleReply_size h
  clear h
  rw [smbSimpleReply, bind_run hrecv]
  dsimp only
  by_cases hok : status = ntStatusSuccess
  · have hcheck : smbSessionCheckNtStatus resp s₂ = (true, s₂) := by
      rw [smbSessionCheckNtStatus, hstatus, if_neg (fun hne => hne hok)]
      rfl
    have hcounts : ¬ (SmbSimpleStruct.readWct resp.payload ≠ 0 ∨
        SmbSimpleStruct.readBct resp.payload ≠ 0) := by
      rw [hwct, hbct]
      decide
    rw [if_pos hok, bind_run hcheck, if_neg (by decide), if_neg (by rw [hsize]; decide), if_neg hcounts]
    rfl
  · have hcheck : smbSessionCheckNtStatus resp s₂ = (false, { s₂ with ntStatus := status }) := by
      rw [smbSessionCheckNtStatus, hstatus, if_pos hok]
      rfl
    rw [if_neg hok, bind_run hcheck, if_pos (by decide)]
    rfl

end

/-! ## One call -/

/-- The connection is up, and nothing waits to be read. -/
structure PathInv (s : SmbSession) : Prop where
  ready : s.transport.session.ready = true
  drained : Delivers s.tcp.inbox []

section

variable {σ : Type} {fs : PathSystem σ} {P : Platform} {s : SmbSession} {state : σ} {op : SmbOp}
variable {r : PathRequest} (hr : op.pathRequest = some r)

include hr

/-- A path that does not convert is not sent. -/
theorem PathInv.unconverted (h : PathInv s) (hmem : [] ∈ r.strings P) :
    PathInv (fs.remoteStep P (s, state) op).1 ∧ fs.ActsLocally P (s, state) op := by
  have hexec : op.exec P s = (.code .errorCharset, s) := by rw [pathOp_exec hr, if_pos hmem]
  have hresult : op.result P s = .code .errorCharset := congrArg Prod.fst hexec
  have hrun : op.run P s = s := congrArg Prod.snd hexec
  have hstep : fs.remoteStep P (s, state) op = (s, state) := by
    rw [PathSystem.remoteStep, offered_of_unchanged hrun, hrun]
    rfl
  obtain ⟨call, hcall, hstrings, -, -⟩ := @pathCall_of_request P op r hr
  have hlocal : fs.step P state op = (.code .errorCharset, state) := by
    rw [PathSystem.step, hcall]
    dsimp only
    rw [if_pos (by rw [hstrings]; exact hmem)]
  rw [hstep]
  refine ⟨h, ?_, ?_, fun herror => ?_⟩
  · rw [hresult, hlocal]
  · rw [hstep, hlocal]
  · rw [hresult] at herror
    cases herror

/-- The server reads from the request what the call asks for. -/
theorem requestCall_sent (hconv : P.ConvertsStrings) (hpaths : ∀ path ∈ r.paths, 0 ∉ path)
    (hsize : r.size P ≤ 65535) (hmem : [] ∉ r.strings P) (uid : UInt16) {call : PathCall}
    (hcall : op.pathCall P = some call) :
    (smbRequestBytes uid (r.message P)).length = r.size P ∧
      requestCall (smbRequestBytes uid (r.message P)) = some call := by
  have hutf : ∀ path ∈ r.paths, Utf16z (smbToUtf16 P (path ++ [0])) := by
    intro path hpath
    refine toUtf16_utf16z hconv (hpaths path hpath) fun hnil => hmem ?_
    exact List.mem_append_left _ (List.mem_map.mpr ⟨path, hpath, hnil⟩)
  obtain ⟨hlength, hcarries⟩ := pathOp_carries hr hutf hsize
  obtain ⟨call', hcall', hstrings, hcommand, htid⟩ := @pathCall_of_request P op r hr
  obtain rfl : call' = call := Option.some.inj (hcall'.symm.trans hcall)
  constructor
  · rw [requestBytes_length, ← hlength, SmbMessage.bytes, Mem.read_length]
  · rw [requestCall, requestStrings_sent uid hcarries, requestBytes_command, requestBytes_tid, hcommand,
      htid, ← hstrings]
    rfl

/-- A call whose paths convert: one request, and the server's word on it. -/
theorem PathInv.converted (hconv : P.ConvertsStrings) (h : PathInv s) (hp : fs.Promise P (s, state) op)
    (hpaths : ∀ path ∈ r.paths, 0 ∉ path) (hsize : r.size P ≤ 65535) (hmem : [] ∉ r.strings P) :
    PathInv (fs.remoteStep P (s, state) op).1 ∧ fs.ActsLocally P (s, state) op := by
  obtain ⟨call, hcall, hstrings, -, -⟩ := @pathCall_of_request P op r hr
  obtain ⟨hlength, hread⟩ := requestCall_sent hr hconv hpaths hsize hmem s.srv.uid hcall
  have hreply : fs.reply state (smbRequestBytes s.srv.uid (r.message P)) =
      replyBytes (fs call state).1 0 0 [0, 0, 0] := by
    rw [PathSystem.reply, hread]
  have hserve : fs.serve state (smbRequestBytes s.srv.uid (r.message P)) = (fs call state).2 := by
    rw [PathSystem.serve, hread]
  have hlocal : fs.step P state op = (.code (if (fs call state).1 = ntStatusSuccess then .success
      else .errorNt), (fs call state).2) := by
    rw [PathSystem.step, hcall]
    dsimp only
    rw [if_neg (by rw [hstrings]; exact hmem)]
  generalize hstatus : (fs call state).1 = status at hreply hlocal
  have hpeer : Peer 65539 s [] [fun request => [fs.reply state request]] :=
    .next h.ready h.drained hp.sends hp.server
  obtain ⟨nb₁, nb₂, resp, frame, event, hsend, hrecv, hholds, hlog, hevent, hframe, hpeer'⟩ :=
    hpeer.exchange (congrArg (fun m => [m]) hreply) (by omega) (by rw [netbiosHeaderSize]; omega)
      (by rw [replyBytes_length]; exact Nat.lt_add_of_pos_right (by decide))
  -- the reply changes the session at most in its status
  obtain ⟨s', hsimple, htransport, hnt⟩ : ∃ s', smbSimpleReply (s.withNetbios nb₁) =
        (if status = ntStatusSuccess then .success else .errorNt, s') ∧
      s'.transport = (s.withNetbios nb₂).transport ∧
      (status ≠ ntStatusSuccess → s'.ntStatus = status) := by
    have hrun := simpleReply_run hholds hrecv
    by_cases hok : status = ntStatusSuccess
    · rw [if_pos hok] at hrun
      exact ⟨_, by rw [if_pos hok, hrun], rfl, fun hne => absurd hok hne⟩
    · rw [if_neg hok] at hrun
      exact ⟨{ s.withNetbios nb₂ with ntStatus := status }, by rw [if_neg hok, hrun], rfl, fun _ => rfl⟩
  have hexec : op.exec P s =
      (.code (if status = ntStatusSuccess then .success else .errorNt), s') := by
    rw [pathOp_exec hr, if_neg hmem, pathExchange, bind_run hsend, bind_run hsimple]
    rfl
  have hresult := congrArg Prod.fst hexec
  have hrun : op.run P s = s' := congrArg Prod.snd hexec
  have hoffered : op.offered P s = [frame] := by
    have hevents : op.events P s = [.sent frame, event] := by
      apply events_eq
      rw [hrun, SmbSession.tcp, htransport]
      exact hlog
    have hsent : (NetEvent.sent frame).offered = some frame := rfl
    rw [SmbOp.offered, hevents, List.filterMap_cons_some hsent, List.filterMap_cons_none hevent,
      List.filterMap_nil]
  have hstep : fs.remoteStep P (s, state) op = (s', (fs call state).2) := by
    rw [PathSystem.remoteStep, hoffered, hrun, List.foldl_cons, List.foldl_nil, frameMessage, hframe,
      hserve]
  have hinv : Peer 65539 s' [] [] := hpeer'.of_transport htransport
  rw [hstep]
  refine ⟨⟨hinv.ready, hinv.inbox⟩, ?_, ?_, ?_⟩
  · rw [hlocal]
    exact hresult
  · rw [hstep, hlocal]
  · intro herror call' hcall'
    obtain rfl : call = call' := Option.some.inj (hcall.symm.trans hcall')
    rw [hrun, hstatus]
    apply hnt
    intro hok
    have hcode := hresult.symm.trans herror
    rw [if_pos hok] at hcode
    cases hcode

end

/-- Over every run of removals, moves and creations, against a server that reads the paths from the
requests and performs them on any file system: each call returns what it returns on the file system
itself, and at the end the file system is the same. -/
theorem paths_actLocally {σ : Type} (fs : PathSystem σ) (P : Platform) (hconv : P.ConvertsStrings)
    (st : SmbSession × σ) (ops : List SmbOp) (hst : PathInv st.1)
    (hpromise : Along (fs.remoteStep P) (fs.Promise P) st ops) :
    Along (fs.remoteStep P) (fs.ActsLocally P) st ops ∧
      (ops.foldl (fs.remoteStep P) st).2 = ops.foldl (fun state op => (fs.step P state op).2) st.2 := by
  have hstep : ∀ st op, PathInv st.1 → fs.Promise P st op →
      PathInv (fs.remoteStep P st op).1 ∧ fs.ActsLocally P st op := by
    rintro ⟨s, state⟩ op h hp
    obtain ⟨r, hr, hpaths, hsize⟩ := hp.request
    by_cases hmem : [] ∈ r.strings P
    · exact h.unconverted hr hmem
    · exact h.converted hr hconv hp hpaths hsize hmem
  have hacts := (Along.of_invariant hstep hst hpromise).1
  refine ⟨hacts, ?_⟩
  clear hpromise hst
  induction ops generalizing st with
  | nil => rfl
  | cons op ops ih =>
    rw [List.foldl_cons, List.foldl_cons, ← hacts.1.state]
    exact ih _ hacts.2

/-- A file system of names: two strings rename a file, one removes it. A name that is not there is
`STATUS_OBJECT_NAME_NOT_FOUND`. -/
def nameSystem : PathSystem (List (List UInt8)) := fun call names =>
  match call.strings with
  | [name] =>
    if name ∈ names then (0, names.filter (· ≠ name)) else (0xc0000034, names)
  | [old, new] =>
    if old ∈ names then (0, names.map fun name => if name = old then new else name)
    else (0xc0000034, names)
  | _ => (0xc000000d, names)

/-- A file is given another name. -/
theorem paths_actLocally_move :
    let names := [utf16z [92, 97]]
    let s : SmbSession := { transport := .obeyed [fun request => [nameSystem.reply names request]] }
    ([SmbOp.fileMv 1 (ascii "\\a") (ascii "\\b")].foldl (nameSystem.remoteStep .ascii) (s, names)).2 =
      [utf16z [92, 98]] := by
  intro names s
  have hpeer : Peer 65539 s [] [fun request => [nameSystem.reply names request]] := by
    refine peer_obeyed (fun answer hanswer request m hm => ?_) (Nat.le_refl _) rfl
    obtain rfl := List.mem_singleton.mp hanswer
    obtain rfl := List.mem_singleton.mp hm
    rw [PathSystem.reply]
    cases requestCall request with
    | none => exact (by decide : 35 < 65536)
    | some call =>
      dsimp only
      rw [replyBytes_length]
      exact (by decide : 35 < 65536)
  have hrequest : ∃ r, SmbOp.pathRequest (.fileMv 1 (ascii "\\a") (ascii "\\b")) = some r ∧
      (∀ path ∈ r.paths, 0 ∉ path) ∧ r.size .ascii ≤ 65535 :=
    ⟨_, rfl, by decide +kernel, by decide +kernel⟩
  have hpromise : Along (nameSystem.remoteStep .ascii) (nameSystem.Promise .ascii) (s, names)
      [.fileMv 1 (ascii "\\a") (ascii "\\b")] :=
    ⟨⟨hrequest, Nat.le_refl _, hpeer.server 0 _ rfl⟩, trivial⟩
  rw [(paths_actLocally nameSystem .ascii ascii_convertsStrings (s, names) _ ⟨hpeer.ready, hpeer.inbox⟩
    hpromise).2]
  decide +kernel

end Libdsm
