import Libdsm.Smb.Proofs.Exchange

/-!
# What the operations ask

The frames that a call offers to the socket are those of the messages it builds, and of no others:
`OffersOnly` is kept by a receive and by everything a call does to the session beside the transport, and
a send adds the frame of its message.
-/

namespace Libdsm

/-- The frame is that of one of these messages. -/
def FrameOf (A : SmbMessage → Prop) (frame : List UInt8) : Prop :=
  ∃ (msg : SmbMessage) (s : SmbSession), A msg ∧ frame = s.requestFrame msg

/-- From `s` to `s'` the socket was offered nothing but frames of these messages. -/
def OffersOnly (A : SmbMessage → Prop) (s s' : SmbSession) : Prop :=
  ∃ events, s'.tcp.log = s.tcp.log ++ events ∧
    ∀ frame ∈ events.filterMap NetEvent.offered, FrameOf A frame

/-- The frames that a call has offered. -/
theorem OffersOnly.offered {A : SmbMessage → Prop} {P : Platform} {s : SmbSession} {op : SmbOp}
    (h : OffersOnly A s (op.run P s)) {frame : List UInt8} (hframe : frame ∈ op.offered P s) :
    FrameOf A frame := by
  obtain ⟨events, hlog, hframes⟩ := h
  rw [SmbOp.offered, events_eq hlog] at hframe
  exact hframes frame hframe

section

variable {A : SmbMessage → Prop}

/-- A step that leaves the connection alone offers nothing. -/
theorem OffersOnly.of_tcp {s s' : SmbSession} (h : s'.tcp = s.tcp) : OffersOnly A s s' :=
  ⟨[], by rw [h, List.append_nil], fun frame hframe => absurd hframe List.not_mem_nil⟩

theorem OffersOnly.refl (s : SmbSession) : OffersOnly A s s := .of_tcp rfl

theorem OffersOnly.trans {a b c : SmbSession} (h : OffersOnly A a b) (h' : OffersOnly A b c) :
    OffersOnly A a c := by
  obtain ⟨events, hlog, hframes⟩ := h
  obtain ⟨events', hlog', hframes'⟩ := h'
  refine ⟨events ++ events', by rw [hlog', hlog, List.append_assoc], fun frame hframe => ?_⟩
  rw [List.filterMap_append] at hframe
  rcases List.mem_append.mp hframe with hfirst | hsecond
  · exact hframes frame hfirst
  · exact hframes' frame hsecond

theorem OffersOnly.mono {B : SmbMessage → Prop} {s s' : SmbSession} (h : OffersOnly A s s')
    (hAB : ∀ msg, A msg → B msg) : OffersOnly B s s' := by
  obtain ⟨events, hlog, hframes⟩ := h
  refine ⟨events, hlog, fun frame hframe => ?_⟩
  obtain ⟨msg, s₁, hmsg, heq⟩ := hframes frame hframe
  exact ⟨msg, s₁, hAB msg hmsg, heq⟩

theorem OffersOnly.bind {α β : Type} {m : SmbM α} {k : α → SmbM β} {s : SmbSession}
    (h : OffersOnly A s (m s).2) (hk : ∀ a, Moves (OffersOnly A) (k a)) :
    OffersOnly A s ((m >>= k) s).2 :=
  h.trans (hk _ _)

/-! ## The steps of a call -/

theorem sendMsg_offers {msg : SmbMessage} (h : A msg) :
    Moves (OffersOnly A) (smbSessionSendMsg msg) := by
  intro s
  obtain ⟨events, hlog, -, hoffered⟩ := sendMsg_offered s msg
  refine ⟨events, hlog, fun frame hframe => ?_⟩
  rw [hoffered] at hframe
  split at hframe
  · exact ⟨msg, s, h, List.mem_singleton.mp hframe⟩
  · exact absurd hframe List.not_mem_nil

theorem recvMsg_offers : Moves (OffersOnly A) smbSessionRecvMsg := by
  intro s
  obtain ⟨inbox, event, htcp, hevent⟩ := recvMsg_tcp s
  refine ⟨[event], by rw [htcp], fun frame hframe => ?_⟩
  obtain ⟨-, rfl | ⟨opcode, reply, rfl, -⟩⟩ | ⟨msg, opcode, reply, -, rfl, -⟩ := hevent
  all_goals exact absurd hframe List.not_mem_nil

theorem checked_offers {α : Type} {resp : SmbMessage} {m n : SmbM α} (hm : Moves (OffersOnly A) m)
    (hn : Moves (OffersOnly A) n) :
    Moves (OffersOnly A) (do if !(← smbSessionCheckNtStatus resp) then m else n) := by
  refine .bind .trans ?_ fun _ => .ite hm hn
  exact .ite (.bind .trans (.modify fun _ => .of_tcp rfl) fun _ => .pure .refl _) (.pure .refl _)

/-- A request and the reply to it, which is checked before anything else is done. -/
theorem asked_offers {α : Type} {fail fail' : α} {k : SmbMessage → SmbM α}
    (hk : ∀ resp, Moves (OffersOnly A) (k resp)) :
    Moves (OffersOnly A) (do
      let some resp ← smbSessionRecvMsg | return fail
      if !(← smbSessionCheckNtStatus resp) then return fail'
      k resp) := by
  refine .bind .trans recvMsg_offers fun resp => ?_
  cases resp with
  | none => exact .pure .refl _
  | some resp => exact checked_offers (.pure .refl _) (hk resp)

theorem simpleReply_offers : Moves (OffersOnly A) smbSimpleReply :=
  asked_offers fun _ => .ite (.pure .refl _) (.ite (.pure .refl _) (.pure .refl _))

theorem sendSimple_offers {msg : SmbMessage} (h : A msg) :
    Moves (OffersOnly A) (do let _ ← smbSessionSendMsg msg; smbSimpleReply) :=
  .bind .trans (sendMsg_offers h) fun _ => simpleReply_offers

theorem fseek_offers (fd : UInt32) (offset : Int) (whence : Option SmbSeek) :
    Moves (OffersOnly A) (smbFseek fd offset whence) := by
  refine .get_bind fun s => ?_
  cases smbSessionFileGet s fd with
  | none => exact .refl s
  | some file => exact .of_tcp rfl

end

/-! ## The calls -/

variable (P : Platform)

theorem treeConnect_offers (name : List UInt8) (s : SmbSession) :
    OffersOnly (· = smbTreeConnectReq P s.srv.name name) s (smbTreeConnect P name s).2 := by
  rw [smbTreeConnect, get_bind_run]
  generalize smbTreeConnectReq P s.srv.name name = req
  revert s
  show Moves _ _
  refine .bind .trans (sendMsg_offers rfl) fun _ => .ite (.pure .refl _) (asked_offers fun resp => ?_)
  cases smbTreeConnectShare resp with
  | none => exact .pure .refl _
  | some share => exact .bind .trans (.modify fun _ => .of_tcp rfl) fun _ => .pure .refl _

theorem fopen_offers (tid : UInt16) (path : List UInt8) (oFlags : UInt32) :
    Moves (OffersOnly (· = smbFopenReq P tid (smbToUtf16 P (path ++ [0])) oFlags))
      (smbFopen P tid path oFlags) := by
  refine .bind .trans (.get .refl) fun s => ?_
  cases smbSessionShareGet s tid with
  | none => exact .pure .refl _
  | some share =>
    refine .ite (.pure .refl _) (.bind .trans (sendMsg_offers rfl) fun _ => ?_)
    refine .ite (.pure .refl _) (asked_offers fun resp => .ite (.pure .refl _) ?_)
    exact .bind .trans (.modify fun _ => .of_tcp rfl) fun _ => .pure .refl _

theorem fileRm_offers (tid : UInt16) (path : List UInt8) :
    Moves (OffersOnly (· = smbFileRmReq P tid (smbToUtf16 P (path ++ [0])))) (smbFileRm P tid path) :=
  .ite (.pure .refl _) (sendSimple_offers rfl)

theorem fileMv_offers (tid : UInt16) (oldPath newPath : List UInt8) :
    Moves (OffersOnly (· = smbFileMvReq P tid (smbToUtf16 P (oldPath ++ [0]))
      (smbToUtf16 P (newPath ++ [0])))) (smbFileMv P tid oldPath newPath) :=
  .ite (.pure .refl _) (.ite (.pure .refl _) (sendSimple_offers rfl))

theorem directoryOp_offers (cmd : UInt8) (tid : UInt16) (path : List UInt8) :
    Moves (OffersOnly (· = smbDirectoryReq P cmd tid (smbToUtf16 P (path ++ [0]))))
      (smbDirectoryOp P cmd tid path) :=
  .ite (.pure .refl _) (sendSimple_offers rfl)

/-- The requests of a search: FIND_FIRST, and FIND_NEXT from wherever the answers lead. -/
def FindRequest (tid : UInt16) (pattern : List UInt8) (msg : SmbMessage) : Prop :=
  smbToUtf16 P (pattern ++ [0]) ≠ [] ∧
    (msg = smbTrans2FindFirstReq P tid (smbToUtf16 P (pattern ++ [0])) ∨
      ∃ resumeKey sid, msg = smbTrans2FindNextReq P tid resumeKey sid (smbToUtf16 P (pattern ++ [0])))

/-- A request that is answered in several messages. -/
theorem trans2_offers {A : SmbMessage → Prop} {msg : SmbMessage} (h : A msg) :
    Moves (OffersOnly A) (do
      if !(← smbSessionSendMsg msg) then return none
      smbTr2Recv P) :=
  .bind .trans (sendMsg_offers h) fun _ =>
    .ite (.pure .refl _) (.tr2Recv .refl .trans recvMsg_offers P)

theorem findFirst_offers (tid : UInt16) (pattern : List UInt8) :
    Moves (OffersOnly (FindRequest P tid pattern)) (smbTrans2FindFirst P tid pattern) := by
  rw [smbTrans2FindFirst]
  by_cases hutf : smbToUtf16 P (pattern ++ [0]) = []
  · rw [if_pos hutf]
    exact .pure .refl _
  · rw [if_neg hutf]
    exact trans2_offers P ⟨hutf, .inl rfl⟩

theorem findNext_offers (tid resumeKey sid : UInt16) (pattern : List UInt8) :
    Moves (OffersOnly (FindRequest P tid pattern)) (smbTrans2FindNext P tid resumeKey sid pattern) := by
  rw [smbTrans2FindNext]
  by_cases hutf : smbToUtf16 P (pattern ++ [0]) = []
  · rw [if_pos hutf]
    exact .pure .refl _
  · rw [if_neg hutf]
    exact trans2_offers P ⟨hutf, .inr ⟨resumeKey, sid, rfl⟩⟩

theorem find_offers (tid : UInt16) (pattern : List UInt8) :
    Moves (OffersOnly (FindRequest P tid pattern)) (smbFind P tid pattern) := by
  have hloop : ∀ sid fuel endOfSearch resumeKey errorOffset files,
      Moves (OffersOnly (FindRequest P tid pattern))
        (smbFindLoop P tid sid pattern fuel endOfSearch resumeKey errorOffset files) := by
    intro sid fuel
    induction fuel with
    | zero => exact fun _ _ _ _ => .pure .refl _
    | succ fuel ih =>
      intro endOfSearch resumeKey errorOffset files
      refine .ite (.pure .refl _) (.bind .trans (findNext_offers P _ _ _ _) fun msg => ?_)
      cases msg with
      | none => exact .pure .refl _
      | some msg => exact ih _ _ _ _
  refine .bind .trans (findFirst_offers P tid pattern) fun msg => ?_
  cases msg with
  | none => exact .pure .refl _
  | some msg => exact .ite (.pure .refl _) (.bind .trans (.get .refl) fun _ => hloop _ _ _ _ _ _)

theorem fstat_offers (tid : UInt16) (path : List UInt8) :
    Moves (OffersOnly fun msg => smbToUtf16 P (path ++ [0]) ≠ [] ∧
      msg = smbFstatReq P tid (smbToUtf16 P (path ++ [0]))) (smbFstat P tid path) := by
  rw [smbFstat]
  by_cases hutf : smbToUtf16 P (path ++ [0]) = []
  · rw [if_pos hutf]
    exact .pure .refl _
  · rw [if_neg hutf]
    refine .bind .trans (sendMsg_offers ⟨hutf, rfl⟩) fun _ => .ite (.pure .refl _) ?_
    exact asked_offers fun _ => .ite (.pure .refl _) (.ite (.pure .refl _) (.pure .refl _))

theorem fwrite_offers (fd : UInt32) (buf : List UInt8) (s : SmbSession) :
    OffersOnly (fun msg => ∃ file, smbSessionFileGet s fd = some file ∧
      msg = smbFwriteReq P file buf) s (smbFwrite P fd buf s).2 := by
  rw [smbFwrite, get_bind_run]
  cases hopen : smbSessionFileGet s fd with
  | none => exact .refl s
  | some file =>
    refine OffersOnly.mono (A := (· = smbFwriteReq P file buf)) ?_ fun msg hmsg => ⟨file, rfl, hmsg⟩
    clear hopen
    revert s
    show Moves _ _
    refine .bind .trans (sendMsg_offers rfl) fun _ => .ite (.pure .refl _) ?_
    refine asked_offers fun resp => .ite (.pure .refl _) ?_
    exact .bind .trans (fseek_offers _ _ _) fun _ => .pure .refl _

end Libdsm
