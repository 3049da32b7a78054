import Libdsm.Smb.Proofs.Entries
import Libdsm.Smb.Proofs.Listing

/-!
# Progress of a search

The FIND_NEXT requests of `smb_find` against any server. The loop goes on as long as an answer has
neither mark set, whether the answer added a file or not: the test for an empty list looks at all the
files found, and those of FIND_FIRST are among them. A request that fails gives up the whole list. The
requests are the frames that the call's log shows; each has one of the answers that the loop goes by.
-/

namespace Libdsm

/-! ## The answers of a search -/

/-- The answer makes the loop of `smb_find` go on. -/
def FindGoesOn (msg : SmbMessage) : Prop :=
  SmbTr2Findnext2Params.eos (smbTr2Params msg) = 0 ∧
    SmbTr2Findnext2Params.eaErrorOffset (smbTr2Params msg) = 0

/-- The answers to the FIND_NEXT requests of the loop of `smb_find`, in order; a request that fails has
none. -/
def findNextAnswers (P : Platform) (tid sid : UInt16) (pattern : List UInt8) :
    Nat → Bool → UInt16 → UInt16 → List SmbFile → SmbM (List (Option SmbMessage))
  | 0, _, _, _, _ => return []
  | fuel + 1, endOfSearch, resumeKey, errorOffset, files => do
    if endOfSearch ∨ errorOffset ≠ 0 then return []
    let some msg ← smbTrans2FindNext P tid resumeKey sid pattern | return [none]
    let params := smbTr2Params msg
    let files := smbFindNextParse P msg files
    let endOfSearch := SmbTr2Findnext2Params.eos params ≠ 0 ∨ files = []
    return some msg :: (← findNextAnswers P tid sid pattern fuel endOfSearch
      (SmbTr2Findnext2Params.lastNameOffset params)
      (SmbTr2Findnext2Params.eaErrorOffset params) files)

/-- The answers to the FIND_NEXT requests of a search. -/
def smbFindAnswers (P : Platform) (tid : UInt16) (pattern : List UInt8) :
    SmbM (List (Option SmbMessage)) := do
  let some msg ← smbTrans2FindFirst P tid pattern | return []
  let files := smbFindFirstParse P msg []
  if files = [] then return []
  let params := smbTr2Params msg
  let s ← get
  findNextAnswers P tid (SmbTr2Findfirst2Params.id params) pattern (s.tcp.sends.length + 1)
    (SmbTr2Findfirst2Params.eos params ≠ 0) (SmbTr2Findfirst2Params.lastNameOffset params)
    (SmbTr2Findfirst2Params.eaErrorOffset params) files

/-- The files after these answers. -/
def findFiles (P : Platform) : List SmbFile → List (Option SmbMessage) → List SmbFile
  | files, [] => files
  | _, none :: _ => []
  | files, some msg :: answers => findFiles P (smbFindNextParse P msg files) answers

/-- The loop returns the files of its answers, and has done to the session what getting them does. -/
theorem findLoop_run (P : Platform) (tid sid : UInt16) (pattern : List UInt8) (fuel : Nat)
    (endOfSearch : Bool) (resumeKey errorOffset : UInt16) (files : List SmbFile) (s : SmbSession) :
    let answers := findNextAnswers P tid sid pattern fuel endOfSearch resumeKey errorOffset files s
    smbFindLoop P tid sid pattern fuel endOfSearch resumeKey errorOffset files s =
      (findFiles P files answers.1, answers.2) := by
  induction fuel generalizing endOfSearch resumeKey errorOffset files s with
  | zero => rfl
  | succ fuel ih =>
    intro answers
    rw [smbFindLoop]
    have hanswers : answers = findNextAnswers P tid sid pattern (fuel + 1) endOfSearch resumeKey
      errorOffset files s := rfl
    rw [findNextAnswers] at hanswers
    by_cases hend : endOfSearch = true ∨ errorOffset ≠ 0
    · rw [hanswers, if_pos hend, if_pos hend]
      rfl
    · rw [if_neg hend] at hanswers ⊢
      cases hgot : (smbTrans2FindNext P tid resumeKey sid pattern s).1 with
      | none =>
        rw [hanswers, bind_run (run_eq hgot), bind_run (run_eq hgot)]
        rfl
      | some msg =>
        rw [hanswers, bind_run (run_eq hgot), bind_run (run_eq hgot)]
        dsimp only
        rw [bind_pure_fst, bind_pure_snd, findFiles]
        exact ih _ _ _ _ _

/-- A search whose FIND_FIRST is answered returns the files of its answers, and has done to the session
what getting them does. -/
theorem find_run (P : Platform) (tid : UInt16) (pattern : List UInt8) (s : SmbSession)
    {msg : SmbMessage} {s' : SmbSession}
    (hfind : smbTrans2FindFirst P tid pattern s = (some msg, s')) :
    smbFind P tid pattern s =
      (findFiles P (smbFindFirstParse P msg []) (smbFindAnswers P tid pattern s).1,
        (smbFindAnswers P tid pattern s).2) := by
  rw [smbFind, smbFindAnswers, bind_run hfind, bind_run hfind]
  dsimp only
  by_cases hfiles : smbFindFirstParse P msg [] = []
  · rw [if_pos hfiles, if_pos hfiles, hfiles]
    rfl
  · rw [if_neg hfiles, if_neg hfiles, get_bind_run, get_bind_run]
    exact findLoop_run _ _ _ _ _ _ _ _ _ _

/-! ## The requests of a search -/

/-- From `s` to `s'` the socket was offered `n` frames, and is open or closed as before. -/
structure Offered (n : Nat) (s s' : SmbSession) : Prop where
  ready : s'.transport.session.ready = s.transport.session.ready
  log : ∃ events, s'.tcp.log = s.tcp.log ++ events ∧ (events.filterMap NetEvent.offered).length = n

theorem Offered.refl (s : SmbSession) : Offered 0 s s := ⟨rfl, [], (List.append_nil _).symm, rfl⟩

theorem Offered.trans {m n : Nat} {a b c : SmbSession} (h : Offered m a b) (h' : Offered n b c) :
    Offered (m + n) a c := by
  obtain ⟨events, hlog, hlen⟩ := h.log
  obtain ⟨events', hlog', hlen'⟩ := h'.log
  refine ⟨h'.ready.trans h.ready, events ++ events', ?_, ?_⟩
  · rw [hlog', hlog, List.append_assoc]
  · rw [List.filterMap_append, List.length_append, hlen, hlen']

theorem sendMsg_counted {s : SmbSession} (hready : s.transport.session.ready = true)
    (msg : SmbMessage) : Offered 1 s (smbSessionSendMsg msg s).2 := by
  obtain ⟨events, hlog, -, hoffered⟩ := sendMsg_offered s msg
  refine ⟨sendMsg_ready s msg, events, hlog, ?_⟩
  rw [hoffered, if_pos hready]
  rfl

theorem recvMsg_counted : Moves (Offered 0) smbSessionRecvMsg := by
  intro s
  obtain ⟨inbox, event, htcp, hevent⟩ := recvMsg_tcp s
  refine ⟨recvMsg_keeps ready_framed s, [event], by rw [htcp], ?_⟩
  obtain ⟨-, rfl | ⟨opcode, reply, rfl, -⟩⟩ | ⟨msg, opcode, reply, -, rfl, -⟩ := hevent
  · rfl
  · rfl
  · rfl

/-- A request that is answered in several messages offers its own frame. -/
theorem asked_counted (P : Platform) (req : SmbMessage) {s : SmbSession}
    (hready : s.transport.session.ready = true) :
    Offered 1 s ((do
      if !(← smbSessionSendMsg req) then return none
      smbTr2Recv P : SmbM (Option SmbMessage)) s).2 := by
  have hsend := sendMsg_counted hready req
  cases hsent : (smbSessionSendMsg req s).1 with
  | false =>
    rw [bind_run (run_eq hsent), if_pos (by decide)]
    exact hsend
  | true =>
    rw [bind_run (run_eq hsent), if_neg (by decide)]
    exact hsend.trans (Moves.tr2Recv Offered.refl Offered.trans recvMsg_counted P _)

/-- Every answer of the loop is that to a request of its own. -/
theorem findNextAnswers_counted (P : Platform) (tid sid : UInt16) {pattern : List UInt8}
    (hpattern : smbToUtf16 P (pattern ++ [0]) ≠ []) (fuel : Nat) (endOfSearch : Bool)
    (resumeKey errorOffset : UInt16) (files : List SmbFile) {s : SmbSession}
    (hready : s.transport.session.ready = true) :
    let answers := findNextAnswers P tid sid pattern fuel endOfSearch resumeKey errorOffset files s
    Offered answers.1.length s answers.2 := by
  induction fuel generalizing endOfSearch resumeKey errorOffset files s with
  | zero => exact .refl s
  | succ fuel ih =>
    rw [findNextAnswers]
    by_cases hend : endOfSearch = true ∨ errorOffset ≠ 0
    · rw [if_pos hend]
      exact .refl s
    · rw [if_neg hend]
      have hasked : Offered 1 s (smbTrans2FindNext P tid resumeKey sid pattern s).2 := by
        rw [smbTrans2FindNext, if_neg hpattern]
        exact asked_counted P _ hready
      cases hgot : (smbTrans2FindNext P tid resumeKey sid pattern s).1 with
      | none =>
        rw [bind_run (run_eq hgot)]
        exact hasked
      | some msg =>
        rw [bind_run (run_eq hgot)]
        dsimp only
        rw [bind_pure_fst, bind_pure_snd, List.length_cons, Nat.add_comm]
        exact hasked.trans (ih _ _ _ _ (hasked.ready.trans hready))

/-- The frames that a search offers to the socket after that of FIND_FIRST. -/
def findNextRequests (P : Platform) (tid : UInt16) (pattern : List UInt8) (s : SmbSession) :
    List (List UInt8) :=
  (SmbOp.offered P s (.find tid pattern)).tail

theorem Offered.findNextRequests_length {P : Platform} {tid : UInt16} {pattern : List UInt8}
    {s : SmbSession} {n : Nat} (h : Offered n s (smbFind P tid pattern s).2) :
    (findNextRequests P tid pattern s).length = n - 1 := by
  obtain ⟨events, hlog, hlen⟩ := h.log
  have hevents : SmbOp.events P s (.find tid pattern) = events := events_eq hlog
  rw [findNextRequests, List.length_tail, SmbOp.offered, hevents, hlen]

/-- There is a FIND_NEXT request for every answer. -/
theorem findNextRequests_length (P : Platform) (tid : UInt16) (pattern : List UInt8)
    (s : SmbSession) :
    (findNextRequests P tid pattern s).length = (smbFindAnswers P tid pattern s).1.length := by
  by_cases hpattern : smbToUtf16 P (pattern ++ [0]) = []
  · have hfirst : smbTrans2FindFirst P tid pattern s = (none, s) := by
      rw [smbTrans2FindFirst, if_pos hpattern]
      rfl
    have hoffered : Offered 0 s (smbFind P tid pattern s).2 := by
      rw [smbFind, bind_run hfirst]
      exact .refl s
    rw [hoffered.findNextRequests_length, smbFindAnswers, bind_run hfirst]
    rfl
  · cases hready : s.transport.session.ready with
    | false =>
      obtain ⟨hsent, htcp⟩ : (smbSessionSendMsg (smbTrans2FindFirstReq P tid
          (smbToUtf16 P (pattern ++ [0]))) s).1 = false ∧ (smbSessionSendMsg
            (smbTrans2FindFirstReq P tid (smbToUtf16 P (pattern ++ [0]))) s).2.tcp = s.tcp := by
        obtain ⟨hsent, htcp, -⟩ | ⟨-, -, -, hopen⟩ | ⟨-, hopen, -⟩ := sendMsg_cases s
          (smbTrans2FindFirstReq P tid (smbToUtf16 P (pattern ++ [0])))
        · exact ⟨hsent, htcp⟩
        · exact absurd hopen (by rw [hready]; decide)
        · exact absurd hopen (by rw [hready]; decide)
      have hfirst : smbTrans2FindFirst P tid pattern s = (none, (smbSessionSendMsg
          (smbTrans2FindFirstReq P tid (smbToUtf16 P (pattern ++ [0]))) s).2) := by
        rw [smbTrans2FindFirst, if_neg hpattern, bind_run (run_eq hsent)]
        rfl
      have hoffered : Offered 0 s (smbFind P tid pattern s).2 := by
        rw [smbFind, bind_run hfirst]
        exact ⟨sendMsg_ready s _, [], by rw [List.append_nil]; exact congrArg Tcp.log htcp, rfl⟩
      rw [hoffered.findNextRequests_length, smbFindAnswers, bind_run hfirst]
      rfl
    | true =>
      have hasked : Offered 1 s (smbTrans2FindFirst P tid pattern s).2 := by
        rw [smbTrans2FindFirst, if_neg hpattern]
        exact asked_counted P _ hready
      cases hfind : (smbTrans2FindFirst P tid pattern s).1 with
      | none =>
        have hoffered : Offered 1 s (smbFind P tid pattern s).2 := by
          rw [smbFind, bind_run (run_eq hfind)]
          exact hasked
        rw [hoffered.findNextRequests_length, smbFindAnswers, bind_run (run_eq hfind)]
        rfl
      | some msg =>
        have hoffered : Offered (1 + (smbFindAnswers P tid pattern s).1.length) s
            (smbFind P tid pattern s).2 := by
          rw [find_run P tid pattern s (run_eq hfind), smbFindAnswers, bind_run (run_eq hfind)]
          refine hasked.trans ?_
          dsimp only
          by_cases hfiles : smbFindFirstParse P msg [] = []
          · rw [if_pos hfiles]
            exact .refl _
          · rw [if_neg hfiles, get_bind_run]
            exact findNextAnswers_counted P tid _ hpattern _ _ _ _ _ (hasked.ready.trans hready)
        rw [hoffered.findNextRequests_length, Nat.add_sub_cancel_left]

/-! ## The course of the loop -/

/-- A send that is reported has used one of the sends to come. -/
theorem sendMsg_sends {s s' : SmbSession} {msg : SmbMessage}
    (h : smbSessionSendMsg msg s = (true, s')) : s'.tcp.sends.length < s.tcp.sends.length := by
  have hframe : 0 < (s.requestFrame msg).length := by
    rw [SmbSession.requestFrame, NetbiosSession.frame_length, netbiosHeaderSize]
    omega
  have hcases := sendMsg_cases s msg
  rw [h] at hcases
  obtain ⟨hfalse, -⟩ | ⟨hfalse, -⟩ | ⟨hsession, -, hroom, -⟩ := hcases
  · cases hfalse
  · cases hfalse
  · have htcp : s'.tcp = s.tcp.delivered (s.requestFrame msg) := by
      show s'.transport.session.tcp = _
      rw [hsession, NetbiosSession.afterSend]
    rw [htcp]
    show s.tcp.sends.tail.length < s.tcp.sends.length
    cases hsends : s.tcp.sends with
    | nil =>
      rw [hsends, List.headD_nil] at hroom
      omega
    | cons n sends => exact Nat.lt_succ_self _

theorem recvMsg_sends : Keeps (fun s : SmbSession => s.tcp.sends) smbSessionRecvMsg := by
  intro s
  obtain ⟨inbox, htcp⟩ := packetRecv_tcp s.transport.session
  rw [recvMsg_eq]
  show (netbiosSessionPacketRecv s.transport.session).2.tcp.sends = _
  rw [htcp]
  rfl

theorem asked_sends {P : Platform} {req msg : SmbMessage} {s s' : SmbSession}
    (h : (do
      if !(← smbSessionSendMsg req) then return none
      smbTr2Recv P : SmbM (Option SmbMessage)) s = (some msg, s')) :
    s'.tcp.sends.length < s.tcp.sends.length := by
  cases hsent : (smbSessionSendMsg req s).1 with
  | false =>
    rw [bind_run (run_eq hsent)] at h
    cases h
  | true =>
    rw [bind_run (run_eq hsent), if_neg (by decide)] at h
    have hkept := tr2Recv_keeps recvMsg_sends P (smbSessionSendMsg req s).2
    rw [h] at hkept
    dsimp only at hkept
    rw [hkept]
    exact sendMsg_sends (run_eq hsent)

theorem findNext_sends {P : Platform} {tid resumeKey sid : UInt16} {pattern : List UInt8}
    {s s' : SmbSession} {msg : SmbMessage}
    (h : smbTrans2FindNext P tid resumeKey sid pattern s = (some msg, s')) :
    s'.tcp.sends.length < s.tcp.sends.length := by
  rw [smbTrans2FindNext] at h
  by_cases hpattern : smbToUtf16 P (pattern ++ [0]) = []
  · rw [if_pos hpattern] at h
    cases h
  · rw [if_neg hpattern] at h
    exact asked_sends h

/-- The answers of a loop that has a request to send: those before the last make it go on, and the last
one ends it or is missing. -/
inductive FindRun : List (Option SmbMessage) → Prop where
  | failed : FindRun [none]
  | ended {msg : SmbMessage} : ¬ FindGoesOn msg → FindRun [some msg]
  | next {msg : SmbMessage} {answers : List (Option SmbMessage)} :
      FindGoesOn msg → FindRun answers → FindRun (some msg :: answers)

/-- What an answer adds comes before what was there. -/
theorem findNextParse_append (P : Platform) (msg : SmbMessage) (files : List SmbFile) :
    smbFindNextParse P msg files = smbFindNextParse P msg [] ++ files := by
  rw [smbFindNextParse, smbFindNextParse, parseEntries_visited, parseEntries_visited,
    List.append_nil]

theorem findNextAnswers_run (P : Platform) (tid sid : UInt16) (pattern : List UInt8) (fuel : Nat)
    (endOfSearch : Bool) (resumeKey errorOffset : UInt16) {files : List SmbFile} (s : SmbSession)
    (hfiles : files ≠ []) (hfuel : s.tcp.sends.length < fuel)
    (hgo : ¬ (endOfSearch = true ∨ errorOffset ≠ 0)) :
    FindRun (findNextAnswers P tid sid pattern fuel endOfSearch resumeKey errorOffset files s).1 := by
  induction fuel generalizing endOfSearch resumeKey errorOffset files s with
  | zero => exact absurd hfuel (Nat.not_lt_zero _)
  | succ fuel ih =>
    rw [findNextAnswers, if_neg hgo]
    cases hgot : (smbTrans2FindNext P tid resumeKey sid pattern s).1 with
    | none =>
      rw [bind_run (run_eq hgot)]
      exact .failed
    | some msg =>
      rw [bind_run (run_eq hgot)]
      dsimp only
      rw [bind_pure_fst]
      have hsends := findNext_sends (run_eq hgot)
      have hmore : smbFindNextParse P msg files ≠ [] := by
        rw [findNextParse_append]
        simp [hfiles]
      by_cases hnext : FindGoesOn msg
      · refine .next hnext (ih _ _ _ _ hmore (by omega) ?_)
        simp [hmore, hnext.1, hnext.2]
      · have hstop : (findNextAnswers P tid sid pattern fuel
            (decide (SmbTr2Findnext2Params.eos (smbTr2Params msg) ≠ 0 ∨
              smbFindNextParse P msg files = []))
            (SmbTr2Findnext2Params.lastNameOffset (smbTr2Params msg))
            (SmbTr2Findnext2Params.eaErrorOffset (smbTr2Params msg))
            (smbFindNextParse P msg files)
            (smbTrans2FindNext P tid resumeKey sid pattern s).2).1 = [] := by
          cases fuel with
          | zero => rfl
          | succ fuel =>
            rw [findNextAnswers, if_pos]
            · rfl
            · rw [decide_eq_true_iff]
              by_contra hnot
              push Not at hnot
              exact hnext ⟨hnot.1.1, hnot.2⟩
        rw [hstop]
        exact .ended hnext

/-- The answers that another request follows are those that make the loop go on. -/
theorem FindRun.mem_dropLast_iff {answers : List (Option SmbMessage)} (h : FindRun answers)
    (msg : SmbMessage) :
    some msg ∈ answers.dropLast ↔ some msg ∈ answers ∧ FindGoesOn msg := by
  induction h with
  | failed => simp
  | @ended last hend =>
    rw [List.dropLast_singleton, List.mem_singleton, Option.some.injEq]
    constructor
    · exact fun h => absurd h List.not_mem_nil
    · rintro ⟨rfl, hgo⟩
      exact absurd hgo hend
  | @next head answers hgo hrun ih =>
    have hne : answers ≠ [] := by
      rintro rfl
      cases hrun
    rw [List.dropLast_cons_of_ne_nil hne, List.mem_cons, List.mem_cons, ih, Option.some.injEq]
    constructor
    · rintro (rfl | ⟨hmem, hmsg⟩)
      · exact ⟨.inl rfl, hgo⟩
      · exact ⟨.inr hmem, hmsg⟩
    · rintro ⟨rfl | hmem, hmsg⟩
      · exact .inl rfl
      · exact .inr ⟨hmem, hmsg⟩

theorem mem_dropLast_iff_getElem? {α : Type} {xs : List α} {x : α} :
    x ∈ xs.dropLast ↔ ∃ k, xs[k]? = some x ∧ k + 1 < xs.length := by
  rw [List.mem_iff_getElem?]
  refine exists_congr fun k => ?_
  rw [List.getElem?_dropLast]
  split
  · exact ⟨fun h => ⟨h, by omega⟩, fun h => h.1⟩
  · exact ⟨fun h => (Option.some_ne_none _ h.symm).elim, fun h => by omega⟩

/-- A missing answer loses the files. -/
theorem findFiles_none (P : Platform) {answers : List (Option SmbMessage)} (h : none ∈ answers)
    (files : List SmbFile) : findFiles P files answers = [] := by
  induction answers generalizing files with
  | nil => exact absurd h List.not_mem_nil
  | cons answer answers ih =>
    cases answer with
    | none => rfl
    | some msg =>
      refine ih ?_ _
      rcases List.mem_cons.mp h with hhead | htail
      · cases hhead
      · exact htail

/-- Files that were found are lost to a missing answer alone. -/
theorem findFiles_nil_iff (P : Platform) (answers : List (Option SmbMessage)) {files : List SmbFile}
    (hfiles : files ≠ []) : findFiles P files answers = [] ↔ none ∈ answers := by
  induction answers generalizing files with
  | nil => simp [findFiles, hfiles]
  | cons answer answers ih =>
    cases answer with
    | none => simp [findFiles]
    | some msg =>
      have hmore : smbFindNextParse P msg files ≠ [] := by
        rw [findNextParse_append]
        simp [hfiles]
      rw [findFiles, ih hmore, List.mem_cons]
      simp

/-! ## Progress -/

/-- The answer adds a file to whatever list it is parsed into. -/
def AddsFile (P : Platform) (msg : SmbMessage) : Prop :=
  ∀ files, files.length < (smbFindNextParse P msg files).length

/-- A FIND_NEXT answer that another FIND_NEXT request follows adds a file, and there are no more of
these requests than files and one. -/
structure FindProgress (P : Platform) (tid : UInt16) (pattern : List UInt8) (s : SmbSession) :
    Prop where
  adds : ∀ k msg, (smbFindAnswers P tid pattern s).1[k]? = some (some msg) →
    k + 1 < (findNextRequests P tid pattern s).length → AddsFile P msg
  bounded : (findNextRequests P tid pattern s).length ≤ (smbFind P tid pattern s).1.length + 1

/-- The offset of the first entry of a FIND_FIRST answer, and of a FIND_NEXT answer. -/
def findFirstStart : Nat := SmbTrans2Resp.size + SmbTr2Findfirst2Params.size
def findNextStart : Nat := SmbTrans2Resp.size + SmbTr2Findnext2Params.size

/-- An answer announces an entry, has a byte where the entry starts, and the entry's name converts. -/
structure EntryAt (P : Platform) (msg : SmbMessage) (announced : UInt16) (off : Nat) : Prop where
  count : announced ≠ 0
  start : off < msg.payloadSize
  converts : EntryConverts P msg.payload off

/-- The FIND_FIRST answer has an entry. -/
def FirstHasEntry (P : Platform) (msg : SmbMessage) : Prop :=
  EntryAt P msg (SmbTr2Findfirst2Params.count (smbTr2Params msg)) findFirstStart

/-- The FIND_NEXT answer has an entry. -/
def HasEntry (P : Platform) (msg : SmbMessage) : Prop :=
  EntryAt P msg (SmbTr2Findnext2Params.count (smbTr2Params msg)) findNextStart

/-- Every FIND_NEXT answer without a mark has an entry, and only the first request may fail. -/
structure FindAnswered (P : Platform) (answers : List (Option SmbMessage)) : Prop where
  entry : ∀ msg, some msg ∈ answers → FindGoesOn msg → HasEntry P msg
  answered : none ∈ answers → answers.length ≤ 1

/-- The first entry decides whether a walk makes files. -/
theorem entryAt_iff (P : Platform) (msg : SmbMessage) (count : UInt16) (off : Nat) :
    EntryAt P msg count off ↔ (entriesVisited P msg.payload msg.payloadSize count.toNat
      off).filterMap (entryFile P msg.payload) ≠ [] := by
  have hcount : count ≠ 0 ↔ count.toNat ≠ 0 := not_congr (by rw [← UInt16.toNat_inj]; rfl)
  rw [visited_files_ne_nil_iff, ← hcount]
  exact ⟨fun h => ⟨h.count, h.start, h.converts⟩, fun h => ⟨h.1, h.2.1, h.2.2⟩⟩

theorem addsFile_iff (P : Platform) (msg : SmbMessage) : AddsFile P msg ↔ HasEntry P msg := by
  have hparse : ∀ files, smbFindNextParse P msg files =
      ((entriesVisited P msg.payload msg.payloadSize
        (SmbTr2Findnext2Params.count (smbTr2Params msg)).toNat findNextStart).filterMap
          (entryFile P msg.payload)).reverse ++ files :=
    fun files => parseEntries_visited P msg.payload msg.payloadSize _ _ files
  rw [HasEntry, entryAt_iff, ← List.length_pos_iff]
  simp only [AddsFile, hparse, List.length_append, List.length_reverse]
  exact ⟨fun h => by have hnil := h []; simpa using hnil, fun h files => by omega⟩

/-- FIND_FIRST finds nothing if its answer has no entry. -/
theorem findFirstParse_nil_iff (P : Platform) (msg : SmbMessage) :
    smbFindFirstParse P msg [] = [] ↔ ¬ FirstHasEntry P msg := by
  rw [FirstHasEntry, entryAt_iff, not_not, smbFindFirstParse, parseEntries_visited, List.append_nil,
    List.reverse_eq_nil_iff, findFirstStart]

/-- A search hands out no file if FIND_FIRST gets no answer or one without an entry, or if a FIND_NEXT
request gets no answer. -/
theorem find_nil_iff (P : Platform) (tid : UInt16) (pattern : List UInt8) (s : SmbSession) :
    (smbFind P tid pattern s).1 = [] ↔
      ∀ msg, (smbTrans2FindFirst P tid pattern s).1 = some msg → FirstHasEntry P msg →
        none ∈ (smbFindAnswers P tid pattern s).1 := by
  cases hfind : (smbTrans2FindFirst P tid pattern s).1 with
  | none =>
    rw [smbFind, bind_run (run_eq hfind)]
    exact ⟨fun _ msg hmsg => absurd hmsg (by simp), fun _ => rfl⟩
  | some msg =>
    simp only [Option.some.injEq, forall_eq', find_run P tid pattern s (run_eq hfind)]
    by_cases hentry : FirstHasEntry P msg
    · have hfiles : smbFindFirstParse P msg [] ≠ [] :=
        fun h => (findFirstParse_nil_iff P msg).mp h hentry
      rw [findFiles_nil_iff P _ hfiles]
      exact ⟨fun h _ => h, fun h => h hentry⟩
    · have hfiles := (findFirstParse_nil_iff P msg).mpr hentry
      have hanswers : (smbFindAnswers P tid pattern s).1 = [] := by
        rw [smbFindAnswers, bind_run (run_eq hfind)]
        dsimp only
        rw [if_pos hfiles]
        rfl
      rw [hanswers, hfiles]
      exact ⟨fun _ h => absurd h hentry, fun _ => rfl⟩

/-- Answers that all arrive, and of which those before the last add files. -/
theorem findFiles_length (P : Platform) {answers : List (Option SmbMessage)} (h : FindRun answers)
    (hnone : none ∉ answers) (hadds : ∀ msg, some msg ∈ answers.dropLast → AddsFile P msg)
    (files : List SmbFile) :
    files.length + answers.length ≤ (findFiles P files answers).length + 1 := by
  induction h generalizing files with
  | failed => exact absurd List.mem_cons_self hnone
  | @ended last hend =>
    rw [findFiles, findFiles, findNextParse_append, List.length_append, List.length_singleton]
    omega
  | @next head answers hgo hrun ih =>
    have hne : answers ≠ [] := by
      rintro rfl
      cases hrun
    rw [List.dropLast_cons_of_ne_nil hne] at hadds
    have hhead := hadds head List.mem_cons_self files
    have hrest := ih (fun h => hnone (List.mem_cons_of_mem _ h))
      (fun msg h => hadds msg (List.mem_cons_of_mem _ h)) (smbFindNextParse P head files)
    rw [findFiles, List.length_cons]
    omega

/-- A search that is over after FIND_FIRST has no FIND_NEXT answers; any other has those of a loop that
has a request to send. -/
theorem findAnswers_cases (P : Platform) (tid : UInt16) (pattern : List UInt8) (s : SmbSession) :
    (smbFindAnswers P tid pattern s).1 = [] ∨
      FindRun (smbFindAnswers P tid pattern s).1 ∧ ∃ files,
        (smbFind P tid pattern s).1 = findFiles P files (smbFindAnswers P tid pattern s).1 := by
  cases hfind : (smbTrans2FindFirst P tid pattern s).1 with
  | none =>
    rw [smbFindAnswers, bind_run (run_eq hfind)]
    exact .inl rfl
  | some msg =>
    have hfiles := congrArg Prod.fst (find_run P tid pattern s (run_eq hfind))
    rw [hfiles, smbFindAnswers, bind_run (run_eq hfind)]
    dsimp only
    by_cases hempty : smbFindFirstParse P msg [] = []
    · rw [if_pos hempty]
      exact .inl rfl
    · rw [if_neg hempty, get_bind_run]
      by_cases hend : decide (SmbTr2Findfirst2Params.eos (smbTr2Params msg) ≠ 0) = true ∨
          SmbTr2Findfirst2Params.eaErrorOffset (smbTr2Params msg) ≠ 0
      · rw [findNextAnswers, if_pos hend]
        exact .inl rfl
      · exact .inr ⟨findNextAnswers_run P tid _ pattern _ _ _ _ _ hempty (Nat.lt_succ_self _) hend,
          _, rfl⟩

/-- A search makes progress if and only if every FIND_NEXT answer that does not end it has an entry, and
no FIND_NEXT request but the first fails. -/
theorem findProgress_iff (P : Platform) (tid : UInt16) (pattern : List UInt8) (s : SmbSession) :
    FindProgress P tid pattern s ↔ FindAnswered P (smbFindAnswers P tid pattern s).1 := by
  have hlen := findNextRequests_length P tid pattern s
  obtain hnil | ⟨hrun, files, hfiles⟩ := findAnswers_cases P tid pattern s
  · constructor
    · intro _
      rw [hnil]
      exact ⟨fun _ h => absurd h List.not_mem_nil, fun h => absurd h List.not_mem_nil⟩
    · intro _
      rw [hnil] at hlen
      refine ⟨fun k msg _ hk => ?_, ?_⟩
      · rw [hlen] at hk
        exact absurd hk (Nat.not_lt_zero _)
      · rw [hlen]
        exact Nat.zero_le _
  · constructor
    · intro h
      refine ⟨fun msg hmem hgo => ?_, fun hnone => ?_⟩
      · obtain ⟨k, hk, hnext⟩ := mem_dropLast_iff_getElem?.mp
          ((hrun.mem_dropLast_iff msg).mpr ⟨hmem, hgo⟩)
        exact (addsFile_iff P msg).mp (h.adds k msg hk (by rw [hlen]; exact hnext))
      · have hbounded := h.bounded
        rw [hlen, hfiles, findFiles_none P hnone] at hbounded
        exact hbounded
    · intro h
      have hadds : ∀ msg, some msg ∈ (smbFindAnswers P tid pattern s).1.dropLast →
          AddsFile P msg := by
        intro msg hmem
        obtain ⟨hin, hgo⟩ := (hrun.mem_dropLast_iff msg).mp hmem
        exact (addsFile_iff P msg).mpr (h.entry msg hin hgo)
      refine ⟨fun k msg hk hnext => ?_, ?_⟩
      · rw [hlen] at hnext
        exact hadds msg (mem_dropLast_iff_getElem?.mpr ⟨k, hk, hnext⟩)
      · rw [hlen]
        by_cases hnone : none ∈ (smbFindAnswers P tid pattern s).1
        · have hone := h.answered hnone
          omega
        · have hbound := findFiles_length P hrun hnone hadds files
          rw [hfiles]
          omega

/-- A server whose first FIND_NEXT answer is empty and does not end the search. -/
def stallingServer : SmbSession :=
  servedBy [sampleFirst, [tr2Reply 0 0 0 (List.replicate 8 0)],
    [tr2Reply 0 0 0 ([0, 0, 1, 0] ++ List.replicate 4 0)]]

theorem findProgress_stalls : ¬ FindProgress .ascii 1 (ascii "*") stallingServer := by
  have hanswers : (smbFindAnswers .ascii 1 (ascii "*") stallingServer).1.map
      (Option.map fun msg => SmbTr2Findnext2Params.count (smbTr2Params msg)) =
        [some 0, some 0] := by decide +kernel
  obtain ⟨first, rest, hcons, hfirst, hrest⟩ := List.map_eq_cons_iff.mp hanswers
  obtain ⟨msg, rfl, hcount⟩ := Option.map_eq_some_iff.mp hfirst
  obtain ⟨second, rest, rfl, -, -⟩ := List.map_eq_cons_iff.mp hrest
  have hrequests : (findNextRequests .ascii 1 (ascii "*") stallingServer).length = 2 := by
    decide +kernel
  intro h
  have hadds := h.adds 0 msg (by rw [hcons]; rfl) (by rw [hrequests]; decide)
  exact ((addsFile_iff .ascii msg).mp hadds).count hcount

end Libdsm
