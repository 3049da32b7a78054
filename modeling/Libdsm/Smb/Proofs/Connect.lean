import Libdsm.Netbios.Proofs.Names
import Libdsm.Smb.Proofs.Layout
import Libdsm.Smb.Proofs.Peer

/-!
# Connecting to a server

`smb_session_connect` against a server that listens on one of the ports, answers to its NetBIOS name
and chooses a dialect of those it is offered. `connect_negotiates` says when the connection is made
and what the session has then learned of the server.
-/

namespace Libdsm

/-! ## Sockets -/

/-- The number of ports a transport tries. -/
def SmbTransportKind.ports : SmbTransportKind → Nat
  | .tcp => 2
  | .nbt => 1

/-- The number of frames a transport sends before the first message. -/
def SmbTransportKind.hello : SmbTransportKind → Nat
  | .tcp => 0
  | .nbt => 1

/-- The connection once the first `refused` ports have been found closed. -/
def Tcp.opened (t : Tcp) (refused : Nat) (inbox : List Chunk) (rest : List (Option (List Chunk))) : Tcp :=
  { t with
    connects := rest
    inbox
    wire := []
    log := t.log ++ List.replicate refused .connectFailed ++ [.connected] }

theorem openSocket_opened {refused ports : Nat} (hports : refused < ports) {nb : NetbiosSession}
    {inbox : List Chunk} {rest : List (Option (List Chunk))}
    (hconnects : nb.tcp.connects = List.replicate refused none ++ some inbox :: rest) :
    openSocketAndConnect ports nb =
      (true, { nb with socketOpen := true, tcp := nb.tcp.opened refused inbox rest }) := by
  induction refused generalizing ports nb with
  | zero =>
    cases ports with
    | zero => omega
    | succ ports =>
      rw [List.replicate_zero, List.nil_append] at hconnects
      rw [openSocketAndConnect, Tcp.connect, hconnects]
      simp [Tcp.opened]
  | succ refused ih =>
    cases ports with
    | zero => omega
    | succ ports =>
      rw [List.replicate_succ, List.cons_append] at hconnects
      have hrest := @ih ports (by omega)
        { nb with
          socketOpen := true
          tcp := { nb.tcp with
            connects := List.replicate refused none ++ some inbox :: rest
            inbox := []
            log := nb.tcp.log ++ [.connectFailed] } } rfl
      rw [openSocketAndConnect, Tcp.connect, hconnects]
      dsimp only
      rw [if_neg (by decide), hrest]
      simp [Tcp.opened, List.replicate_succ]

/-! ## The session request -/

/-- The frame of a session request: the name that is called and the name of the caller. -/
def sessionRequestFrame (name : List UInt8) : List UInt8 :=
  netbiosOpSessionReq :: 0 :: htons 68 ++
    (netbiosNameEncode name netbiosFileserver ++ netbiosNameEncode (ascii "LIBDSM") netbiosWorkstation)

theorem packetAppend_cursor (nb : NetbiosSession) (data : List UInt8) :
    (netbiosSessionPacketAppend nb data).packetCursor = sizeT (nb.packetCursor + data.length) := by
  unfold netbiosSessionPacketAppend sessionBufferRealloc
  split <;> rfl

theorem sessionRequest_eq (nb : NetbiosSession) (name : List UInt8) :
    (netbiosSessionRequest nb name).frame = sessionRequestFrame name := by
  have hcalled := netbiosNameEncode_length name netbiosFileserver
  have hcalling := netbiosNameEncode_length (ascii "LIBDSM") netbiosWorkstation
  unfold netbiosSessionRequest sessionRequestFrame
  rw [cString_netbiosNameEncode, cString_netbiosNameEncode]
  generalize netbiosNameEncode name netbiosFileserver = called at hcalled
  generalize netbiosNameEncode (ascii "LIBDSM") netbiosWorkstation = calling at hcalling
  let start : NetbiosSession := { netbiosSessionPacketInit nb with
    packet := (netbiosSessionPacketInit nb).packet.write 0 [netbiosOpSessionReq] }
  show (netbiosSessionPacketAppend (netbiosSessionPacketAppend start called) calling).frame = _
  have hzero : start.packetCursor = 0 := rfl
  have hfirst : (netbiosSessionPacketAppend start called).packetCursor = 34 := by
    rw [packetAppend_cursor, hzero, hcalled]
    rfl
  have hsecond : (netbiosSessionPacketAppend (netbiosSessionPacketAppend start called)
      calling).packetCursor = 68 := by
    rw [packetAppend_cursor, hfirst, hcalling]
    rfl
  have hbytes : (netbiosSessionPacketAppend (netbiosSessionPacketAppend start called)
      calling).packet.bytes = (start.packet.bytes.write 4 called).write (4 + 34) calling := by
    rw [packetAppend_bytes, hfirst, packetAppend_bytes, hzero]
    rfl
  have hhead : start.packet.bytes 0 = netbiosOpSessionReq ∧ start.packet.bytes 1 = 0 := by
    constructor
    · exact Mem.write_inside (netbiosSessionPacketInit nb).packet.bytes 0 0 [netbiosOpSessionReq]
        (by decide)
    · have hflags := (Building.init nb).flags
      exact (@Mem.write_of_ge (netbiosSessionPacketInit nb).packet.bytes 0 1 [netbiosOpSessionReq]
        (by decide)).trans hflags
  generalize start.packet.bytes = m at hbytes hhead
  have hsum : netbiosHeaderSize + 68 = 2 + ((htons 68).length + (34 + calling.length)) := by
    rw [hcalling]
    rfl
  rw [NetbiosSession.frame, hsecond, hbytes, hsum, Mem.read_add, Mem.read_add, Nat.zero_add,
    Mem.read_write, Mem.read_write_disjoint _ _ (.inl (by decide)),
    Mem.read_write_disjoint _ _ (.inl (by decide)), Mem.read_write_disjoint _ _ (.inl (by decide)),
    Mem.read_write_disjoint _ _ (.inr (by decide))]
  have htwo : m.read 0 2 = [netbiosOpSessionReq, 0] := by
    simp [Mem.read_succ, hhead]
  have hcalls : (m.write 4 called).read 4 34 = called := by
    have hread := Mem.read_write m 4 called
    rwa [hcalled] at hread
  rw [htwo, show 2 + (htons 68).length = 4 from rfl, Mem.read_write_end, hcalls]
  rfl

theorem packetAppend_socketOpen (nb : NetbiosSession) (data : List UInt8) :
    (netbiosSessionPacketAppend nb data).socketOpen = nb.socketOpen := by
  unfold netbiosSessionPacketAppend sessionBufferRealloc
  split <;> rfl

theorem sessionRequest_kept (nb : NetbiosSession) (name : List UInt8) :
    (netbiosSessionRequest nb name).tcp = nb.tcp ∧
      (netbiosSessionRequest nb name).socketOpen = nb.socketOpen := by
  unfold netbiosSessionRequest
  generalize cString (netbiosNameEncode name netbiosFileserver) = called
  generalize cString (netbiosNameEncode (ascii "LIBDSM") netbiosWorkstation) = calling
  constructor
  · rw [packetAppend_tcp, packetAppend_tcp]
    rfl
  · rw [packetAppend_socketOpen, packetAppend_socketOpen]
    rfl

/-- The chunks carry one frame, with keepalives before and after it. -/
structure BringsFrame (chunks : List Chunk) (f : Frame) : Prop where
  live : Chunks.Live chunks
  stream : ∃ pre post : List Frame, (∀ g ∈ pre ++ post, g.isKeepalive = true) ∧
    chunks.flatten = (pre ++ f :: post).flatMap Frame.encode

/-- The fifteen characters of the name in a session request, and its type. -/
def calledName (frame : List UInt8) : List UInt8 :=
  (netbiosNameLevel1Decode (frame.drop (netbiosHeaderSize + 1))).take netbiosNameLength

def calledType (frame : List UInt8) : UInt8 :=
  let encoded := frame.drop (netbiosHeaderSize + 1)
  nibbleDecode (encoded.getD 30 0) (encoded.getD 31 0)

theorem sessionRequestFrame_body (name : List UInt8) :
    ∃ rest, (sessionRequestFrame name).drop (netbiosHeaderSize + 1) =
      (normalName name ++ [netbiosFileserver]).flatMap letters ++ rest := by
  refine ⟨0 :: netbiosNameEncode (ascii "LIBDSM") netbiosWorkstation, ?_⟩
  rw [sessionRequestFrame, netbiosNameEncode_eq, encodedBody, List.flatMap_append]
  simp [htons, netbiosHeaderSize]

theorem calledName_request (name : List UInt8) :
    calledName (sessionRequestFrame name) = normalName name := by
  obtain ⟨rest, hbody⟩ := sessionRequestFrame_body name
  rw [calledName, hbody, List.flatMap_append, List.append_assoc,
    netbiosNameLevel1Decode_letters _ _ (normalName_length name), normalName_toupper,
    List.take_left' (normalName_length name)]

theorem calledType_request (name : List UInt8) :
    calledType (sessionRequestFrame name) = netbiosFileserver := by
  obtain ⟨rest, hbody⟩ := sessionRequestFrame_body name
  have hlength : (normalName name).length = 15 := normalName_length name
  obtain ⟨hhigh, hlow⟩ := letters_getD (normalName name ++ [netbiosFileserver]) rest 15
    (by rw [List.length_append, hlength]; decide)
  rw [List.getElem_concat_length hlength.symm, ← hbody] at hhigh hlow
  rw [calledType, hhigh, hlow, nibbleDecode_nibbleEncode]
  decide

/-! ## The server -/

/-- A server: its NetBIOS name, how it chooses among the dialects it is offered, and what it says of
itself in the answer. -/
structure NegoServer where
  name : List UInt8
  choose : List (List UInt8) → Option Nat
  header : List UInt8
  securityMode : UInt8
  /-- The limits on requests and buffers. -/
  limits : List UInt8
  sessionKey : UInt32
  caps : UInt32
  ts : UInt64
  /-- The time zone, the length of the key and the byte count. -/
  zone : List UInt8
  challenge : UInt64
  rest : List UInt8
  header_length : header.length = smbHeaderSize
  header_status : replyStatus header = ntStatusSuccess
  limits_length : limits.length = 12
  zone_length : zone.length = 5

namespace NegoServer

variable (v : NegoServer)

/-- The answer to a session request: positive if the server is called by its name. -/
def sessionReply (frame : List UInt8) : Frame :=
  if calledName frame = normalName v.name ∧ calledType frame = netbiosFileserver then
    ⟨netbiosOpSessionReqOk, 0, [], rfl⟩
  else ⟨0x83, 0, [0x82], rfl⟩

/-- The answer that chooses the dialect `index`. -/
def negoBody (index : Nat) : List UInt8 :=
  [0x11] ++ le16 (UInt16.ofNat index) ++ [v.securityMode] ++ v.limits ++ le32 v.sessionKey ++
    le32 v.caps ++ le64 v.ts ++ v.zone ++ le64 v.challenge ++ v.rest

/-- The answer that refuses all dialects. -/
def refuseBody : List UInt8 := [1, 0xff, 0xff, 0, 0]

end NegoServer

/-- The dialects in the request of a negotiation. -/
def offeredDialects (request : List UInt8) : List (List UInt8) :=
  let body := (request.drop (smbHeaderSize + 3)).take (replyU16 request (smbHeaderSize + 1)).toNat
  (body.splitOn 0).dropLast.map (·.drop 1)

/-- The answer to the request of a negotiation. -/
def NegoServer.negotiated (v : NegoServer) : Answer := fun request =>
  match v.choose (offeredDialects request) with
  | some index => [v.header ++ v.negoBody index]
  | none => [v.header ++ NegoServer.refuseBody]

/-- The server listens for this transport and has answers for what comes after the negotiation. -/
structure Listening (v : NegoServer) (kind : SmbTransportKind) (t : Tcp) (answers : List Answer) :
    Prop where
  accepts : ∃ refused inbox rest, t.connects = List.replicate refused none ++ some inbox :: rest ∧
    refused < kind.ports ∧ Delivers inbox []
  session : kind = .nbt → ∀ frame, BringsFrame (t.server t.served frame) (v.sessionReply frame)
  requests : ∀ k answer, (v.negotiated :: answers)[k]? = some answer → ∀ frame,
    Delivers (t.server (t.served + kind.hello + k) frame) (answer (frame.drop netbiosHeaderSize))
  sends : ∀ k < kind.hello + 1 + answers.length, 8192 ≤ t.sends.getD k 0

theorem sessionReply_request (v : NegoServer) (name : List UInt8) :
    (v.sessionReply (sessionRequestFrame name)).opcode =
      if normalName name = normalName v.name then netbiosOpSessionReqOk else 0x83 := by
  rw [NegoServer.sessionReply, calledName_request, calledType_request]
  by_cases hname : normalName name = normalName v.name
  · rw [if_pos ⟨hname, rfl⟩, if_pos hname]
  · rw [if_neg fun h => hname h.1, if_neg hname]

/-! ## The connection -/

section Connection

variable {v : NegoServer} {nb : NetbiosSession} {name : List UInt8}

theorem BringsFrame.recv {f : Frame} (h : BringsFrame nb.tcp.inbox f) (hready : nb.ready = true)
    (hf : f.isKeepalive = false) :
    ∃ size nb', netbiosSessionPacketRecv nb = (some size, nb') ∧ nb'.packet.bytes 0 = f.opcode ∧
      nb'.socketOpen = nb.socketOpen ∧ Delivers nb'.tcp.inbox [] ∧ nb'.tcp.server = nb.tcp.server ∧
      nb'.tcp.served = nb.tcp.served ∧ nb'.tcp.sends = nb.tcp.sends := by
  obtain ⟨pre, post, hkeep, hstream⟩ := h.stream
  have hat : StreamAt nb (pre ++ f :: post) [] := ⟨hready, h.live, by rw [List.append_nil, hstream]⟩
  have hnext : nextFrame (pre ++ f :: post) = some (f, post) := by
    rw [nextFrame_keepalives (fun g hg => hkeep g (List.mem_append_left _ hg)), nextFrame,
      if_neg (by rw [hf]; decide)]
  have hquiet : messages post = [] := by
    rw [messages, List.map_eq_nil_iff, List.filter_eq_nil_iff]
    intro g hg
    simp [hkeep g (List.mem_append_right _ hg)]
  obtain ⟨m, inbox, nb', heq, hread, hat', -⟩ := packetRecv_frame hat hnext
  refine ⟨_, _, heq, hread.opcode, hread.socketOpen, ⟨hat'.live, post, ?_, hquiet⟩, ?_⟩
  · rw [hat'.stream, List.append_nil]
  · simp [NetbiosSession.note, hread.tcp]

theorem BringsFrame.after {inbox chunks : List Chunk} {f : Frame} (hinbox : Delivers inbox [])
    (h : BringsFrame chunks f) : BringsFrame (inbox ++ chunks) f := by
  obtain ⟨fs, hfs, hquiet⟩ := hinbox.frames
  obtain ⟨pre, post, hkeep, hstream⟩ := h.stream
  rw [messages, List.map_eq_nil_iff, List.filter_eq_nil_iff] at hquiet
  refine ⟨hinbox.live.append h.live, fs ++ pre, post, ?_, ?_⟩
  · intro g hg
    rw [List.append_assoc] at hg
    rcases List.mem_append.mp hg with hg | hg
    · simpa using hquiet g hg
    · exact hkeep g hg
  · rw [List.flatten_append, hfs, hstream]
    simp only [List.flatMap_append, List.append_assoc]

theorem sessionConnect_answered {nb₁ request : NetbiosSession}
    (hopen : openSocketAndConnect 1 nb = (true, nb₁)) (hrequest : netbiosSessionRequest nb₁ name = request)
    (hsent : (netbiosSessionPacketSend { request with state := .connecting }).1 ≠ 0) {size : Nat}
    {nb₂ : NetbiosSession}
    (hrecv : netbiosSessionPacketRecv (netbiosSessionPacketSend { request with state := .connecting }).2 =
      (some size, nb₂)) :
    netbiosSessionConnect nb name false =
      if nb₂.packet.bytes 0 = netbiosOpSessionReqOk then (true, { nb₂ with state := .connected })
      else (false, { nb₂ with state := .refused }) := by
  unfold netbiosSessionConnect
  simp only [Bool.false_eq_true, if_false, hopen, Bool.not_true, hrequest, hsent, hrecv]

/-- A connection over NetBIOS is made if the server is called by its name. -/
theorem sessionConnect_nbt {refused : Nat} {inbox : List Chunk} {rest : List (Option (List Chunk))}
    (hconnects : nb.tcp.connects = List.replicate refused none ++ some inbox :: rest)
    (hrefused : refused < 1) (hinbox : Delivers inbox [])
    (hsession : ∀ frame, BringsFrame (nb.tcp.server nb.tcp.served frame) (v.sessionReply frame))
    (hsends : 8192 ≤ nb.tcp.sends.headD 0) :
    ∃ nb', netbiosSessionConnect nb name false = (decide (normalName name = normalName v.name), nb') ∧
      (normalName name = normalName v.name → nb'.ready = true) ∧ Delivers nb'.tcp.inbox [] ∧
      nb'.tcp.server = nb.tcp.server ∧ nb'.tcp.served = nb.tcp.served + 1 ∧
      nb'.tcp.sends = nb.tcp.sends.tail := by
  have hopen := openSocket_opened hrefused hconnects
  generalize hnb₁ : ({ nb with socketOpen := true, tcp := nb.tcp.opened refused inbox rest } :
    NetbiosSession) = nb₁ at hopen
  have htcp₁ : nb₁.tcp = nb.tcp.opened refused inbox rest := by rw [← hnb₁]
  have hsocket₁ : nb₁.socketOpen = true := by rw [← hnb₁]
  -- the request goes out
  obtain ⟨request, hrequest, hframe, htcp, hsocket⟩ : ∃ request, netbiosSessionRequest nb₁ name = request ∧
      request.frame = sessionRequestFrame name ∧ request.tcp = nb₁.tcp ∧
      request.socketOpen = nb₁.socketOpen := ⟨_, rfl, sessionRequest_eq nb₁ name, sessionRequest_kept nb₁ name⟩
  have hreply := sessionReply_request v name
  have hlength : (sessionRequestFrame name).length = 72 := by
    rw [sessionRequestFrame, List.length_append, List.length_append, netbiosNameEncode_length,
      netbiosNameEncode_length]
    rfl
  generalize sessionRequestFrame name = frame at hframe hreply hlength
  generalize hnb₂ : ({ request with state := .connecting } : NetbiosSession) = nb₂
  have hframe₂ : nb₂.frame = frame := by
    rw [← hnb₂, ← hframe]
    rfl
  have htcp₂ : nb₂.tcp = nb.tcp.opened refused inbox rest := by
    rw [← hnb₂, ← htcp₁, ← htcp]
  have hready₂ : nb₂.ready = true := by
    rw [← hnb₂]
    show (request.socketOpen && _) = true
    rw [hsocket, hsocket₁]
    rfl
  have hsends₂ : nb₂.frame.length ≤ nb₂.tcp.sends.headD 0 := by
    rw [hframe₂, hlength, htcp₂]
    exact Nat.le_trans (by decide) hsends
  have hsend := packetSend_full hready₂ hsends₂
  have hsent : (netbiosSessionPacketSend nb₂).1 ≠ 0 := by
    have hsize : ((72 : Nat) : Int).bmod (2 ^ 32) ≠ 0 := bmod_ne_zero (by omega) (by omega)
    rw [hsend, ← nb₂.frame_length, hframe₂, hlength]
    exact hsize
  have hready₃ : (netbiosSessionPacketSend nb₂).2.ready = true := by rw [packetSend_ready, hready₂]
  have htcp₃ : (netbiosSessionPacketSend nb₂).2.tcp =
      (nb.tcp.opened refused inbox rest).delivered frame := by
    rw [hsend, NetbiosSession.afterSend, htcp₂, hframe₂]
  -- and the answer comes
  have hbrings : BringsFrame (netbiosSessionPacketSend nb₂).2.tcp.inbox (v.sessionReply frame) := by
    rw [htcp₃]
    exact (hsession frame).after hinbox
  have hdata : (v.sessionReply frame).isKeepalive = false := by
    rw [Frame.isKeepalive, hreply]
    split <;> decide
  obtain ⟨size, nb₄, hrecv, hopcode, hsocket₄, hinbox₄, hserver₄, hserved₄, hsends₄⟩ :=
    hbrings.recv hready₃ hdata
  rw [htcp₃] at hserver₄ hserved₄ hsends₄
  have hsocket₃ : nb₄.socketOpen = true := by
    rw [NetbiosSession.ready, Bool.and_eq_true] at hready₃
    rw [hsocket₄, hready₃.1]
  rw [sessionConnect_answered hopen hrequest (by rw [hnb₂]; exact hsent) (by rw [hnb₂]; exact hrecv), hopcode,
    hreply]
  by_cases hname : normalName name = normalName v.name
  · rw [if_pos hname, if_pos rfl, decide_eq_true hname]
    refine ⟨_, rfl, fun _ => ?_, hinbox₄, hserver₄, hserved₄, hsends₄⟩
    show (nb₄.socketOpen && _) = true
    rw [hsocket₃]
    rfl
  · rw [if_neg hname, if_neg (by decide), decide_eq_false hname]
    exact ⟨_, rfl, fun h => absurd h hname, hinbox₄, hserver₄, hserved₄, hsends₄⟩

theorem sessionConnect_tcp {refused : Nat} {inbox : List Chunk} {rest : List (Option (List Chunk))}
    (hconnects : nb.tcp.connects = List.replicate refused none ++ some inbox :: rest)
    (hrefused : refused < 2) :
    netbiosSessionConnect nb name true = (true, { nb with
      socketOpen := true, state := .connected, tcp := nb.tcp.opened refused inbox rest }) := by
  have hopen := openSocket_opened hrefused hconnects
  unfold netbiosSessionConnect
  simp only [if_true, hopen, Bool.not_true, Bool.false_eq_true, if_false]

end Connection

namespace Listening

variable {v : NegoServer} {kind : SmbTransportKind} {answers : List Answer}

/-- Closing the connection before keeps what the server will do. -/
theorem of_eq {t t' : Tcp} (h : Listening v kind t answers) (hconnects : t'.connects = t.connects)
    (hserver : t'.server = t.server) (hserved : t'.served = t.served) (hsends : t'.sends = t.sends) :
    Listening v kind t' answers := by
  refine ⟨?_, ?_, ?_, ?_⟩
  · rw [hconnects]
    exact h.accepts
  · rw [hserver, hserved]
    exact h.session
  · rw [hserver, hserved]
    exact h.requests
  · rw [hsends]
    exact h.sends

/-- A connection that is made is one to a peer that negotiates first. -/
theorem peer {s : SmbSession} {nb : NetbiosSession} (h : Listening v kind s.tcp answers)
    (hready : nb.ready = true) (hinbox : Delivers nb.tcp.inbox []) (hserver : nb.tcp.server = s.tcp.server)
    (hserved : nb.tcp.served = s.tcp.served + kind.hello) (hsends : nb.tcp.sends = s.tcp.sends.drop kind.hello) :
    Peer 8192 (s.withNetbios nb) [] (v.negotiated :: answers) := by
  constructor
  · rw [withNetbios_session]
    exact hready
  · exact hinbox
  · rw [withNetbios_tcp, hserver, hserved]
    exact h.requests
  · intro k hk
    have hroom := h.sends (kind.hello + k) (by rw [List.length_cons] at hk; omega)
    rw [withNetbios_tcp, hsends, List.getD_eq_getElem?_getD, List.getElem?_drop,
      ← List.getD_eq_getElem?_getD]
    exact hroom

/-- The transport connects unless NetBIOS is asked for another name. -/
theorem connect {s : SmbSession} (h : Listening v kind s.tcp answers) (name : List UInt8) :
    ∃ nb, smbTransportConnect name kind s =
        (decide (kind = .tcp ∨ normalName name = normalName v.name), s.withNetbios nb) ∧
      (kind = .tcp ∨ normalName name = normalName v.name →
        Peer 8192 (s.withNetbios nb) [] (v.negotiated :: answers)) := by
  obtain ⟨refused, inbox, rest, hconnects, hrefused, hinbox⟩ := h.accepts
  cases kind with
  | tcp =>
    have hconnect := @sessionConnect_tcp s.transport.session name refused inbox rest hconnects hrefused
    refine ⟨{ s.transport.session with
      socketOpen := true, state := .connected, tcp := s.tcp.opened refused inbox rest }, ?_,
      fun _ => h.peer ?_ ?_ ?_ ?_ ?_⟩
    · rw [smbTransportConnect, decide_eq_true rfl, hconnect]
      simp [SmbSession.withNetbios, SmbSession.tcp]
    · rfl
    · exact hinbox
    · rfl
    · rfl
    · rfl
  | nbt =>
    have hroom : 8192 ≤ s.tcp.sends.headD 0 := by
      have hzero := h.sends 0 (by simp [SmbTransportKind.hello])
      rwa [List.getD_eq_getElem?_getD, ← List.head?_eq_getElem?, ← List.headD_eq_head?_getD] at hzero
    obtain ⟨nb, hconnect, hready, hinbox', hserver, hserved, hsends⟩ :=
      @sessionConnect_nbt v s.transport.session name refused inbox rest hconnects hrefused hinbox
        (h.session rfl) hroom
    refine ⟨nb, ?_, fun hname => h.peer (hready ?_) hinbox' hserver hserved ?_⟩
    · have hkind : decide (SmbTransportKind.nbt = .tcp) = false := rfl
      rw [smbTransportConnect, hkind, hconnect]
      simp [SmbSession.withNetbios]
    · exact hname.resolve_left (by decide)
    · rw [hsends, SmbTransportKind.hello, List.drop_one]
      rfl

end Listening

/-! ## The negotiation -/

/-- A write over bytes that the message has. -/
theorem Builds.poke {msg : SmbMessage} {front old rest : List UInt8}
    (h : Builds msg ((front ++ old ++ rest).map some)) {data : List UInt8}
    (hdata : data.length = old.length) :
    Builds (msg.poke front.length data) ((front ++ data ++ rest).map some) := by
  have hsame : ((front ++ data ++ rest).map some).length = ((front ++ old ++ rest).map some).length := by
    simp [hdata]
  refine ⟨h.cursor.trans hsame.symm, hsame ▸ h.room, hsame ▸ h.slack, ?_⟩
  intro i b hi
  rw [payload_poke]
  rw [List.getElem?_map, Option.map_eq_some_iff] at hi
  obtain ⟨b', hi, hb⟩ := hi
  obtain rfl : b' = b := Option.some.inj hb
  by_cases hbefore : i < front.length
  · rw [Mem.write_of_lt _ _ hbefore]
    apply h.bytes
    rw [List.append_assoc, List.getElem?_append_left hbefore] at hi
    rw [List.append_assoc, List.getElem?_map, List.getElem?_append_left hbefore, hi, Option.map_some]
  · by_cases hbehind : i < front.length + data.length
    · obtain ⟨j, rfl⟩ : ∃ j, i = front.length + j := ⟨i - front.length, by omega⟩
      have hj : j < data.length := by omega
      rw [Mem.write_inside _ _ _ _ hj]
      rw [List.append_assoc, List.getElem?_append_right (by omega),
        List.getElem?_append_left (by omega), Nat.add_sub_cancel_left,
        List.getElem?_eq_getElem hj] at hi
      exact Option.some.inj hi
    · rw [Mem.write_of_ge _ _ (by omega)]
      apply h.bytes
      rw [List.getElem?_append_right (by rw [List.length_append]; omega), List.length_append, hdata] at hi
      rw [List.getElem?_map, List.getElem?_append_right (by rw [List.length_append]; omega),
        List.length_append, hi, Option.map_some]

/-- The dialects as they stand in the request. -/
def dialectStrings : List UInt8 := smbDialects.flatMap cString

theorem negotiateReq_builds (P : Platform) :
    Builds (smbNegotiateReq P) (([0] ++ le16 19 ++ dialectStrings).map some) := by
  have hnew := (Builds.new P smbCmdNegotiate).append [0] (by decide)
  have hcount := hnew.append (le16 0) (by simp)
  have hsamba := hcount.append (cString (2 :: ascii "Samba")) (by decide +kernel)
  have hlanman := hsamba.append (cString (2 :: ascii "NT LM 0.12")) (by decide +kernel)
  have hmsg : ∃ msg, smbNegotiateReq P = msg.poke 1 (le16 (UInt16.ofNat (msg.cursor - 3))) ∧
      Builds msg (([0] ++ le16 0 ++ dialectStrings).map some) := ⟨_, rfl, hlanman⟩
  obtain ⟨msg, hreq, hbuilds⟩ := hmsg
  have hcursor : msg.cursor = 22 := hbuilds.cursor
  rw [hreq, hcursor]
  exact hbuilds.poke rfl

/-- The server finds the dialects in the request. -/
theorem offeredDialects_request (P : Platform) (uid : UInt16) :
    offeredDialects (smbRequestBytes uid (smbNegotiateReq P)) = smbDialects.map (·.drop 1) := by
  obtain ⟨sent, hsent, hbuilds⟩ := (negotiateReq_builds P).request uid
  obtain ⟨hbct, hbody⟩ := @Builds.counted _ _ _ _ hbuilds (smbHeaderSize + 1) rfl
  rw [hsent, offeredDialects, hbct, hbody]
  decide +kernel

theorem negoReq_length (P : Platform) (uid : UInt16) :
    (smbRequestBytes uid (smbNegotiateReq P)).length = smbHeaderSize + 22 := by
  rw [requestBytes_length, (negotiateReq_builds P).cursor]
  rfl

namespace NegoServer

variable (v : NegoServer)

/-- What a session knows of the server once the negotiation has chosen the dialect `index`. -/
def learned (srv : SmbSrvInfo) (index : Nat) : SmbSrvInfo :=
  { srv with
    dialect := UInt16.ofNat index
    securityMode := v.securityMode.toUInt16
    sessionKey := v.sessionKey
    caps := v.caps
    ts := v.ts
    challenge := if v.caps &&& smbCapsXsec ≠ 0 then srv.challenge else v.challenge }

variable {v} {msg : SmbMessage} {index : Nat}

theorem reply_status (body : List UInt8) : replyStatus (v.header ++ body) = ntStatusSuccess := by
  have hlength := v.header_length
  have hfield := @field_append v.header smbHeaderStatus 4 (by rw [hlength]; decide) body
  rw [← v.header_status, replyStatus, replyU32, hfield]
  rfl

/-- A field of the answer, by what stands before it. -/
theorem reply_field {body : List UInt8} (h : msg.Holds (v.header ++ body)) (front field rest : List UInt8)
    (hbody : body = front ++ (field ++ rest)) {off k : Nat} (hoff : front.length = off)
    (hk : field.length = k) : msg.payload.read off k = field := by
  subst hoff hk
  have hread := h.payload_read
  rw [List.drop_left' v.header_length] at hread
  have hsize : msg.payloadSize = body.length := by
    have hlength := h.length
    rw [List.length_append, v.header_length] at hlength
    omega
  rw [hsize] at hread
  have hpart := @Mem.read_part msg.payload 0 front.length field.length body hread (by simp [hbody])
  rw [Nat.zero_add, hbody, List.drop_left, List.take_left] at hpart
  exact hpart

theorem negoBody_length : (v.negoBody index).length = SmbNegoResp.size + v.rest.length := by
  simp [negoBody, v.limits_length, v.zone_length, SmbNegoResp.size]
  omega

/-- The fields of the answer are those of the server. -/
theorem nego_fields (h : msg.Holds (v.header ++ v.negoBody index)) :
    SmbNegoResp.wct msg.payload = 0x11 ∧ SmbNegoResp.dialectIndex msg.payload = UInt16.ofNat index ∧
      SmbNegoResp.securityMode msg.payload = v.securityMode ∧
      SmbNegoResp.sessionKey msg.payload = v.sessionKey ∧ SmbNegoResp.caps msg.payload = v.caps ∧
      SmbNegoResp.ts msg.payload = v.ts ∧ SmbNegoResp.challenge msg.payload = v.challenge := by
  have hlimits := v.limits_length
  have hzone := v.zone_length
  have hone : ∀ {off : Nat} {b : UInt8}, msg.payload.read off 1 = [b] → msg.payload off = b := by
    intro off b hread
    simpa [Mem.read_succ] using hread
  refine ⟨hone ?_, Mem.u16_eq ?_, hone ?_, Mem.u32_eq ?_, Mem.u32_eq ?_, Mem.u64_eq ?_, Mem.u64_eq ?_⟩
  · exact reply_field h [] [0x11] _ (by simp only [negoBody, List.append_assoc, List.nil_append]; rfl) rfl rfl
  · exact reply_field h [0x11] _ _ (by simp only [negoBody, List.append_assoc]; rfl) rfl (le16_length _)
  · exact reply_field h ([0x11] ++ le16 (UInt16.ofNat index)) _ _
      (by simp only [negoBody, List.append_assoc]; rfl) (by simp) rfl
  · exact reply_field h ([0x11] ++ le16 (UInt16.ofNat index) ++ [v.securityMode] ++ v.limits) _ _
      (by simp only [negoBody, List.append_assoc]; rfl) (by simp [hlimits]) (le32_length _)
  · exact reply_field h ([0x11] ++ le16 (UInt16.ofNat index) ++ [v.securityMode] ++ v.limits ++
      le32 v.sessionKey) _ _ (by simp only [negoBody, List.append_assoc]; rfl) (by simp [hlimits])
      (le32_length _)
  · exact reply_field h ([0x11] ++ le16 (UInt16.ofNat index) ++ [v.securityMode] ++ v.limits ++
      le32 v.sessionKey ++ le32 v.caps) _ _ (by simp only [negoBody, List.append_assoc]; rfl)
      (by simp [hlimits]) (le64_length _)
  · exact reply_field h ([0x11] ++ le16 (UInt16.ofNat index) ++ [v.securityMode] ++ v.limits ++
      le32 v.sessionKey ++ le32 v.caps ++ le64 v.ts ++ v.zone) _ _
      (by simp only [negoBody, List.append_assoc]; rfl) (by simp [hlimits, hzone]) (le64_length _)

end NegoServer

section Negotiation

variable {P : Platform} {v : NegoServer} {s s₁ s₂ : SmbSession} {msg : SmbMessage}

theorem checkNtStatus_success (hstatus : msg.status = ntStatusSuccess) (s : SmbSession) :
    smbSessionCheckNtStatus msg s = (true, s) := by
  rw [smbSessionCheckNtStatus, if_neg (by rw [hstatus]; exact fun h => h rfl)]
  rfl

theorem negotiate_chosen (hsend : smbSessionSendMsg (smbNegotiateReq P) s = (true, s₁))
    (hrecv : smbSessionRecvMsg s₁ = (some msg, s₂)) {index : Nat}
    (hholds : msg.Holds (v.header ++ v.negoBody index)) :
    smbNegotiate P s = (.success, { s₂ with srv := v.learned s₂.srv index }) := by
  obtain ⟨hwct, hdialect, hmode, hkey, hcaps, hts, hchallenge⟩ := NegoServer.nego_fields hholds
  have hsize : ¬ msg.payloadSize < SmbNegoResp.size := by
    have hlength := hholds.length
    rw [List.length_append, v.header_length, NegoServer.negoBody_length] at hlength
    omega
  have hstatus : msg.status = ntStatusSuccess := by
    rw [hholds.status_eq]
    exact NegoServer.reply_status _
  have hlearned : ∀ s : SmbSession, (modify fun s : SmbSession => { s with srv := { s.srv with
      dialect := SmbNegoResp.dialectIndex msg.payload
      securityMode := (SmbNegoResp.securityMode msg.payload).toUInt16
      caps := SmbNegoResp.caps msg.payload
      ts := SmbNegoResp.ts msg.payload
      sessionKey := SmbNegoResp.sessionKey msg.payload } } : SmbM PUnit) s =
      (⟨⟩, { s with srv := { v.learned s.srv index with challenge := s.srv.challenge } }) := by
    intro s
    rw [hdialect, hmode, hcaps, hts, hkey]
    rfl
  have hxsec : ({ s₂ with srv := { v.learned s₂.srv index with challenge := s₂.srv.challenge } } :
      SmbSession).supportsXsec = decide (v.caps &&& smbCapsXsec ≠ 0) := rfl
  rw [smbNegotiate, bind_run hsend, if_neg (by decide), bind_run hrecv]
  dsimp only
  rw [if_neg hsize, bind_run (checkNtStatus_success hstatus s₂)]
  rw [if_neg (by decide), if_neg (by rw [hwct]; exact fun h => h rfl), bind_run (hlearned s₂), get_bind_run,
    hxsec]
  by_cases hcap : v.caps &&& smbCapsXsec ≠ 0
  · rw [decide_eq_true hcap, if_neg (by decide), NegoServer.learned, if_pos hcap]
    rfl
  · rw [decide_eq_false hcap, if_pos (by decide), hchallenge, NegoServer.learned, if_neg hcap]
    rfl

theorem negotiate_refused (hsend : smbSessionSendMsg (smbNegotiateReq P) s = (true, s₁))
    (hrecv : smbSessionRecvMsg s₁ = (some msg, s₂))
    (hholds : msg.Holds (v.header ++ NegoServer.refuseBody)) :
    smbNegotiate P s = (.errorNetwork, s₂) := by
  have hsize : msg.payloadSize < SmbNegoResp.size := by
    have hlength := hholds.length
    rw [List.length_append, v.header_length] at hlength
    have hshort : NegoServer.refuseBody.length = 5 := rfl
    rw [SmbNegoResp.size]
    omega
  rw [smbNegotiate, bind_run hsend, if_neg (by decide), bind_run hrecv]
  dsimp only
  rw [if_pos hsize]
  rfl

end Negotiation

/-! ## The whole of it -/

/-- The session on a connection of this kind. -/
def SmbSession.on (s : SmbSession) (kind : SmbTransportKind) (nb : NetbiosSession) : SmbSession :=
  { s with transport := { kind := some kind, session := nb } }

theorem transportDisconnect_run (s : SmbSession) :
    ∃ nb, smbTransportDisconnect s = (⟨⟩, s.withNetbios nb) ∧ nb.tcp.connects = s.tcp.connects ∧
      nb.tcp.server = s.tcp.server ∧ nb.tcp.served = s.tcp.served ∧ nb.tcp.sends = s.tcp.sends := by
  have hrun : smbTransportDisconnect s = (⟨⟩, if s.transport.kind.isSome then
      s.withNetbios (netbiosSessionDisconnect s.transport.session) else s) := rfl
  rw [hrun]
  split
  · refine ⟨_, rfl, ?_⟩
    rw [netbiosSessionDisconnect]
    split <;> exact ⟨rfl, rfl, rfl, rfl⟩
  · exact ⟨s.transport.session, rfl, rfl, rfl, rfl, rfl⟩

section Connecting

variable {v : NegoServer} {kind : SmbTransportKind} {answers : List Answer} {s : SmbSession}

/-- Up to the negotiation. -/
theorem Listening.connected (h : Listening v kind s.tcp answers) (P : Platform) (name : List UInt8) :
    ∃ nb, smbSessionConnect P name (some kind) s =
        (if kind = .tcp ∨ normalName name = normalName v.name then
          smbNegotiate P { s.on kind nb with srv := { s.srv with name } }
        else (.errorNetwork, s.on kind nb)) ∧
      (kind = .tcp ∨ normalName name = normalName v.name →
        Peer 8192 (s.on kind nb) [] (v.negotiated :: answers)) := by
  obtain ⟨nb, hclose, hconnects, hserver, hserved, hsends⟩ := transportDisconnect_run s
  obtain ⟨nb', hconnect, hpeer⟩ := @Listening.connect v kind answers (s.on kind nb)
    (h.of_eq hconnects hserver hserved hsends) name
  have hkind : (modify fun s : SmbSession => { s with transport := { s.transport with kind := some kind } } :
      SmbM PUnit) (s.withNetbios nb) = (⟨⟩, s.on kind nb) := rfl
  have hname : ∀ s : SmbSession, (modify fun s : SmbSession => { s with srv := { s.srv with name := name } } :
      SmbM PUnit) s = (⟨⟩, { s with srv := { s.srv with name } }) := fun _ => rfl
  refine ⟨nb', ?_, hpeer⟩
  rw [smbSessionConnect, bind_run hclose]
  dsimp only
  rw [bind_run hkind, bind_run hconnect]
  by_cases hcalled : kind = .tcp ∨ normalName name = normalName v.name
  · rw [decide_eq_true hcalled, if_neg (by decide), bind_run (hname _), if_pos hcalled]
    rfl
  · rw [decide_eq_false hcalled, if_pos (by decide), if_neg hcalled]
    rfl

/-- The negotiation, with the server that was reached. -/
theorem Peer.negotiate (h : Peer 8192 s [] (v.negotiated :: answers)) (P : Platform) :
    ∃ nb, (∀ index, v.choose (smbDialects.map (·.drop 1)) = some index →
        smbNegotiate P s = (.success, { s.withNetbios nb with srv := v.learned s.srv index })) ∧
      (v.choose (smbDialects.map (·.drop 1)) = none →
        smbNegotiate P s = (.errorNetwork, s.withNetbios nb)) ∧
      Peer 8192 (s.withNetbios nb) [] answers := by
  have hlength := negoReq_length P s.srv.uid
  obtain ⟨nb₁, frame, hsend, -, -, hpeer₁⟩ := h.send (by rw [hlength]; decide)
    (by rw [hlength]; decide)
  rw [List.nil_append, NegoServer.negotiated, offeredDialects_request] at hpeer₁
  cases hchosen : v.choose (smbDialects.map (·.drop 1)) with
  | none =>
    rw [hchosen] at hpeer₁
    obtain ⟨msg, nb₂, -, hrecv, hholds, -, hpeer₂⟩ := hpeer₁.recv (by
      rw [List.length_append, v.header_length]
      decide)
    refine ⟨nb₂, fun _ hsome => (by cases hsome), fun _ => ?_, hpeer₂⟩
    exact negotiate_refused hsend hrecv hholds
  | some index =>
    rw [hchosen] at hpeer₁
    obtain ⟨msg, nb₂, -, hrecv, hholds, -, hpeer₂⟩ := hpeer₁.recv (by
      rw [List.length_append, v.header_length, NegoServer.negoBody_length, SmbNegoResp.size]
      omega)
    refine ⟨nb₂, fun index' hsome => ?_, fun hnone => (by cases hnone), hpeer₂⟩
    obtain rfl := Option.some.inj hsome
    exact negotiate_chosen hsend hrecv hholds

end Connecting

/-- A server on the NetBIOS port that goes on by these answers. -/
def Tcp.listening (v : NegoServer) (answers : List Answer) : Tcp where
  connects := [some []]
  sends := 65539 :: (v.negotiated :: answers).map fun _ => 65539
  server := fun k frame =>
    if k = 0 then [(v.sessionReply frame).encode]
    else ((v.negotiated :: answers).getD (k - 1) (fun _ => []) (frame.drop netbiosHeaderSize)).map
      fun m => [0, 0] ++ htons m.length ++ m
  served := 0
  inbox := []
  wire := []
  log := []

theorem listening_answers {v : NegoServer} {answers : List Answer}
    (h : ∀ answer ∈ v.negotiated :: answers, ∀ request, ∀ m ∈ answer request, m.length < 65536) :
    Listening v .nbt (.listening v answers) answers := by
  refine ⟨⟨0, [], [], rfl, by decide, by simp [Chunks.Live], [], rfl, rfl⟩, ?_, ?_, ?_⟩
  · intro _ frame
    refine ⟨by simp [Chunks.Live, Tcp.listening, Frame.encode], [], [], by simp, ?_⟩
    simp [Tcp.listening]
  · intro k answer hk frame
    have hplace : (Tcp.listening v answers).served + SmbTransportKind.nbt.hello + k = k + 1 := by
      show 0 + 1 + k = k + 1
      omega
    have hget : (v.negotiated :: answers).getD k (fun _ => []) = answer := by
      rw [List.getD_eq_getElem?_getD, hk, Option.getD_some]
    rw [hplace, Tcp.listening]
    dsimp only
    rw [if_neg (by omega), Nat.add_sub_cancel, hget]
    exact delivers_frames (h answer (List.mem_of_getElem? hk) _)
  · intro k hk
    have hall : ∀ n ∈ (Tcp.listening v answers).sends, 8192 ≤ n := by
      intro n hn
      simp only [Tcp.listening, List.mem_cons, List.mem_map] at hn
      rcases hn with rfl | ⟨_, _, rfl⟩ <;> omega
    have hlt : k < (Tcp.listening v answers).sends.length := by
      simp [Tcp.listening, SmbTransportKind.hello] at hk ⊢
      omega
    rw [List.getD_eq_getElem?_getD, List.getElem?_eq_getElem hlt, Option.getD_some]
    exact hall _ (List.getElem_mem hlt)

/-- A server named `SRV` that takes the last dialect it is offered. -/
def NegoServer.sample : NegoServer where
  name := ascii "SRV"
  choose dialects := if dialects = [] then none else some (dialects.length - 1)
  header := List.replicate 32 0
  securityMode := 3
  limits := List.replicate 12 0
  sessionKey := 5
  caps := 0
  ts := 6
  zone := List.replicate 5 0
  challenge := 7
  rest := []
  header_length := rfl
  header_status := rfl
  limits_length := rfl
  zone_length := rfl

theorem sample_negotiated_short (request : List UInt8) :
    ∀ m ∈ NegoServer.sample.negotiated request, m.length < 65536 := by
  have hheader : NegoServer.sample.header.length = 32 := rfl
  intro m hm
  rw [NegoServer.negotiated] at hm
  split at hm
  · obtain rfl := List.mem_singleton.mp hm
    rw [List.length_append, hheader, NegoServer.negoBody_length]
    decide
  · obtain rfl := List.mem_singleton.mp hm
    rw [List.length_append, hheader]
    decide

end Libdsm
