import Libdsm.Netbios.Proofs.Discovery

/-!
# Stopping and restarting discovery

`netbios_ns_discover_stop` ends the thread through the abort flag, and nothing clears the flag
again. Without a call of `netbios_ns_abort` the flag says exactly whether a stop has succeeded
before, so that only the first discovery runs.
-/

namespace Libdsm

/-! ## The abort flag -/

/-- `netbios_ns_abort` is called, by the main thread or by another one during the action. -/
def NsAction.raises : NsAction → Prop
  | .resolve _ _ env events | .inverse _ env events => env.raises ∨ .abort ∈ events
  | .thread env => env.raises
  | .abort => True
  | .discoverStart .. | .discoverStop | .joined => False

/-- A call of `netbios_ns_discover_stop` that will return `0`. -/
def StopSucceeds (s : NsSystem) (a : NsAction) : Prop :=
  a = .discoverStop ∧ s.stopping = false ∧ (netbiosNsDiscoverStop s).1 = true

/-- An abort is noticed during the action. -/
def Observes (s : NsSystem) (a : NsAction) : Prop :=
  (s.step a).ns.log.count .abortSeen ≠ s.ns.log.count .abortSeen

/-- The abort flag is kept, and noticed only if it is set. -/
structure FlagOnly (raised : Prop) (ns ns' : NetbiosNs) : Prop where
  keep : ns.aborted = true → ns'.aborted = true
  raised : ns'.aborted = true → ns.aborted = true ∨ raised
  count : ns'.aborted = false → ns'.log.count .abortSeen = ns.log.count .abortSeen

section FlagOnly

variable {raised : Prop} {ns ns' ns'' : NetbiosNs}

theorem FlagOnly.of_eq (habort : ns'.aborted = ns.aborted)
    (hlog : ns'.log.count .abortSeen = ns.log.count .abortSeen) : FlagOnly raised ns ns' where
  keep h := habort.trans h
  raised h := Or.inl (habort.symm.trans h)
  count _ := hlog

theorem FlagOnly.refl : FlagOnly raised ns ns := .of_eq rfl rfl

theorem FlagOnly.mono {raised' : Prop} (h : FlagOnly raised ns ns') (himp : raised → raised') :
    FlagOnly raised' ns ns' :=
  { h with raised := fun ha => (h.raised ha).imp_right himp }

theorem FlagOnly.trans_eq (h : FlagOnly raised ns ns') (habort : ns''.aborted = ns'.aborted)
    (hlog : ns''.log.count .abortSeen = ns'.log.count .abortSeen) : FlagOnly raised ns ns'' where
  keep ha := habort.trans (h.keep ha)
  raised ha := h.raised (habort.symm.trans ha)
  count ha := hlog.trans (h.count (habort.symm.trans ha))

theorem Waits.flagOnly (h : Waits raised ns ns') : FlagOnly raised ns ns' := by
  refine ⟨h.keep, h.raised, ?_⟩
  intro hrun
  obtain ⟨events, heq, hall⟩ := h.log
  have hnone : .abortSeen ∉ events := by
    intro hmem
    exact absurd ((hall _ hmem).symm.trans hrun) (by decide)
  rw [heq, List.count_append, List.count_eq_zero_of_not_mem hnone, Nat.add_zero]

theorem received_flagOnly (ns : NetbiosNs) (sender : UInt32) (d : List UInt8) :
    FlagOnly raised ns (ns.received sender d) :=
  (received_waits ns sender d).flagOnly

theorem expire_count (ns : NetbiosNs) (now : Int) :
    (discoverExpire ns now).log.count .abortSeen = ns.log.count .abortSeen := by
  have hnone : .abortSeen ∉
      (ns.entryQueue.filter fun e => ns.expired now e && e.validName).map NsEvent.entryRemoved := by
    simp
  rw [discoverExpire, List.count_append, List.count_eq_zero_of_not_mem hnone, Nat.add_zero]

theorem discoverNbstat_log (ns : NetbiosNs) (addr : UInt32) (name : Nat) (group : Option Nat)
    (type : UInt8) (now : Int) :
    (discoverNbstat ns addr name group type now).2.log = ns.log ∨
      ∃ e, (discoverNbstat ns addr name group type now).2.log = ns.log ++ [.entryAdded e] := by
  rw [discoverNbstat]
  cases netbiosNsEntryFindIp ns addr with
  | none => exact Or.inl rfl
  | some e =>
    dsimp only
    split
    · exact Or.inl rfl
    · exact Or.inr ⟨_, rfl⟩

theorem discoverNbstat_count (ns : NetbiosNs) (addr : UInt32) (name : Nat) (group : Option Nat)
    (type : UInt8) (now : Int) :
    (discoverNbstat ns addr name group type now).2.log.count .abortSeen =
      ns.log.count .abortSeen := by
  rcases discoverNbstat_log ns addr name group type now with h | ⟨e, h⟩
  · rw [h]
  · rw [h, List.count_append]
    simp

end FlagOnly

theorem thread_flagOnly {s : NsSystem} (h : NsInv s) (env : ThreadEnv) :
    FlagOnly env.raises s.ns (s.step (.thread env)).ns := by
  have hstep := discoverThread_cases s.ns env h.clean
  rw [NsSystem.step]
  generalize netbiosNsDiscoverThread s.thread s.ns env = r at hstep ⊢
  cases hstep with
  | waits hclean hwaits => exact hwaits.flagOnly
  | expire => exact .of_eq rfl (expire_count s.ns env.now)
  | @nb sender bytes =>
    obtain ⟨hlog, habort, -⟩ :=
      discoverNb_frame (s.ns.received sender (inBuffer bytes)) sender env.now
    exact (received_flagOnly s.ns sender (inBuffer bytes)).trans_eq habort (by rw [hlog])
  | @nbstat sender bytes name group type =>
    obtain ⟨habort, -⟩ := discoverNbstat_frame (s.ns.received sender (inBuffer bytes))
      sender name group type env.now
    exact (received_flagOnly s.ns sender (inBuffer bytes)).trans_eq habort
      (discoverNbstat_count _ _ _ _ _ _)

theorem inverse_flagOnly (ns : NetbiosNs) (env : QueryEnv) (events : List RecvEvent) {ip : UInt32}
    (hip : ip ≠ 0) :
    FlagOnly (env.raises ∨ .abort ∈ events) ns (netbiosNsInverse ns ip env events).2 := by
  rw [netbiosNsInverse]
  rcases inverse_cases ns env events hip with ⟨cached, -, heq⟩ | ⟨-, -, hwaits⟩ |
    ⟨-, ns', bytes, name, group, type, hwaits, -, -, -, heq⟩
  · rw [heq]
    exact .refl
  · exact hwaits.flagOnly
  · rw [heq]
    exact hwaits.flagOnly.trans_eq rfl rfl

/-- What an action does with the abort flag. -/
theorem step_flagOnly {s : NsSystem} (h : NsInv s) (a : NsAction) :
    FlagOnly (a.raises ∨ StopSucceeds s a) s.ns (s.step a).ns := by
  cases a with
  | thread env => exact (thread_flagOnly h env).mono Or.inl
  | resolve name type env events =>
    rw [NsSystem.step]
    split_ifs
    · exact .refl
    · exact (resolve_waits s.ns name type env events).flagOnly.mono Or.inl
  | inverse ip env events =>
    rw [NsSystem.step]
    split_ifs with hcall
    · exact .refl
    · exact (inverse_flagOnly s.ns env events fun hip => hcall (Or.inl hip)).mono Or.inl
  | discoverStart broadcastTimeout callbacks created =>
    rw [NsSystem.step, netbiosNsDiscoverStart]
    split_ifs <;> exact .of_eq rfl rfl
  | discoverStop =>
    rw [NsSystem.step]
    split_ifs with hwait
    · exact .refl
    by_cases hstarted : s.ns.discoverStarted = true
    · have hsucceeds : StopSucceeds s .discoverStop := by
        refine ⟨rfl, by simpa using hwait, ?_⟩
        rw [netbiosNsDiscoverStop, if_pos hstarted]
      rw [netbiosNsDiscoverStop, if_pos hstarted]
      exact ⟨fun _ => rfl, fun _ => Or.inr (Or.inr hsucceeds), by intro h; cases h⟩
    · rw [netbiosNsDiscoverStop, if_neg hstarted]
      exact .refl
  | joined =>
    rw [NsSystem.step, netbiosNsDiscoverJoined]
    split_ifs <;> exact .of_eq rfl rfl
  | abort => exact ⟨fun _ => rfl, fun _ => Or.inr (Or.inl trivial), by intro h; cases h⟩

/-- A stop that succeeds sets the flag. -/
theorem StopSucceeds.aborted {s : NsSystem} {a : NsAction} (h : StopSucceeds s a) :
    (s.step a).ns.aborted = true := by
  obtain ⟨rfl, hwait, hstop⟩ := h
  rw [NsSystem.step, if_neg (by simp [hwait])]
  rw [netbiosNsDiscoverStop] at hstop ⊢
  split_ifs at hstop ⊢
  rfl

/-- Without a call of `netbios_ns_abort`, the flag is set by the stops that succeed and by nothing
else. -/
theorem step_aborted_iff {s : NsSystem} (h : NsInv s) {a : NsAction} (hquiet : ¬ a.raises) :
    (s.step a).ns.aborted = true ↔ s.ns.aborted = true ∨ StopSucceeds s a := by
  have hflag := step_flagOnly h a
  constructor
  · intro habort
    rcases hflag.raised habort with hold | hraised | hstop
    · exact Or.inl hold
    · exact absurd hraised hquiet
    · exact Or.inr hstop
  · rintro (hold | hstop)
    · exact hflag.keep hold
    · exact hstop.aborted

theorem run_aborted_iff {s : NsSystem} (h : NsInv s) {as : List NsAction}
    (hquiet : ∀ a ∈ as, ¬ a.raises) :
    (as.foldl NsSystem.step s).ns.aborted = false ↔
      s.ns.aborted = false ∧ Along NsSystem.step (fun s a => ¬ StopSucceeds s a) s as := by
  induction as generalizing s with
  | nil => simp [Along]
  | cons a as ih =>
    rw [List.forall_mem_cons] at hquiet
    have hone : (s.step a).ns.aborted = false ↔ s.ns.aborted = false ∧ ¬ StopSucceeds s a := by
      rw [← Bool.not_eq_true, step_aborted_iff h hquiet.1, not_or, Bool.not_eq_true]
    rw [List.foldl_cons, ih (h.step a) hquiet.2, hone, Along, and_assoc]

/-! ## The thread at work -/

/-- The thread does its work: from the head of its loop it goes on to the broadcast, the broadcast
goes out on every interface that takes it, and what arrives is received. A `select` that fails at
the head of the loop counts as an abort in the code and is set apart. -/
structure Proceeds (s : NsSystem) (env : ThreadEnv) : Prop where
  top : s.thread = .top → env.selectFails = false → (s.step (.thread env)).thread = .broadcast
  broadcast : s.thread = .broadcast → ∀ a ip ret, (a, .sendto ret) ∈ env.query.ifaddrs →
    a.target = some ip → 0 ≤ ret →
    .query ip (nameQueryPacket s.ns .nb nameQueryBroadcast 0).bytes ∈ (s.step (.thread env)).ns.log
  recv : ∀ out sender bytes, s.thread = .recv out → env.recv = .datagram sender bytes →
    .datagram sender (inBuffer bytes) ∈ (s.step (.thread env)).ns.log

/-- Packets already sent stay sent. -/
theorem Sends.log_subset {packet : List UInt8} {raised : Prop} {ns ns' : NetbiosNs}
    (h : Sends packet raised ns ns') : ns.log ⊆ ns'.log := h.waits.log_subset

theorem broadcastPacket_sent {q : NetbiosQuery} {ifaddrs : List (Ifaddr × SendEvent)}
    {ns : NetbiosNs} (hrun : ns.aborted = false) (hquiet : ¬ ∃ p ∈ ifaddrs, p.2 = .abort)
    {a : Ifaddr} {ip : UInt32} {ret : Int} (hmem : (a, .sendto ret) ∈ ifaddrs)
    (htarget : a.target = some ip) (hret : 0 ≤ ret) :
    .query ip q.bytes ∈ (netbiosNsBroadcastPacket ns q ifaddrs).log := by
  induction ifaddrs generalizing ns with
  | nil => cases hmem
  | cons p rest ih =>
    obtain ⟨b, event⟩ := p
    have hrest : ¬ ∃ p ∈ rest, p.2 = SendEvent.abort := by
      rintro ⟨p, hp, h⟩
      exact hquiet ⟨p, List.mem_cons_of_mem _ hp, h⟩
    rw [netbiosNsBroadcastPacket]
    rcases List.mem_cons.mp hmem with heq | hmem
    · cases heq
      rw [htarget]
      dsimp only
      have hsent : .query ip q.bytes ∈ (netbiosNsSendPacket ns q ip (.sendto ret)).2.log := by
        rw [netbiosNsSendPacket, if_neg (by simp [hrun]), if_pos hret]
        simp [NetbiosNs.note]
      exact (broadcastPacket_sends q rest _).log_subset hsent
    · cases b.target with
      | none => exact ih hrun hrest hmem
      | some ip' =>
        apply ih _ hrest hmem
        obtain ⟨events, aborted, heq, -, hraised, -⟩ := sendPacket_sends ns q ip' event
        rw [heq]
        by_contra habort
        rcases hraised (by simpa using habort) with h | h
        · rw [hrun] at h
          cases h
        · exact hquiet ⟨(b, event), List.mem_cons_self, h⟩

theorem proceeds_broadcast {s : NsSystem} (hrun : s.ns.aborted = false) {env : ThreadEnv}
    (hquiet : ¬ env.raises) (hpc : s.thread = .broadcast) {a : Ifaddr} {ip : UInt32} {ret : Int}
    (hmem : (a, .sendto ret) ∈ env.query.ifaddrs) (htarget : a.target = some ip)
    (hret : 0 ≤ ret) :
    .query ip (nameQueryPacket s.ns .nb nameQueryBroadcast 0).bytes ∈
      (s.step (.thread env)).ns.log := by
  have hifs : ¬ ∃ p ∈ env.query.ifaddrs, p.2 = SendEvent.abort :=
    fun h => hquiet (Or.inl (Or.inr h))
  have hsent := broadcastPacket_sent (q := nameQueryPacket s.ns .nb nameQueryBroadcast 0) hrun hifs
    hmem htarget hret
  rw [NsSystem.step, hpc, netbiosNsDiscoverThread, netbiosNsSendNameQuery, if_neg (by simp)]
  exact hsent

theorem discoverAnswer_log (ns : NetbiosNs) (query : NetbiosNsNameQuery) (addr : UInt32)
    (now : Int) : ns.log ⊆ (discoverAnswer ns query addr now).2.log := by
  cases query with
  | invalid => exact List.Subset.refl _
  | nb ip =>
    rw [discoverAnswer, (discoverNb_frame ns ip now).1]
    exact List.Subset.refl _
  | nbstat name group type =>
    rw [discoverAnswer]
    rcases discoverNbstat_log ns addr name group type now with h | ⟨e, h⟩
    · rw [h]
      exact List.Subset.refl _
    · rw [h]
      exact List.subset_append_left _ _

theorem proceeds_recv {s : NsSystem} (hinv : NsInv s) (hrun : s.ns.aborted = false)
    {env : ThreadEnv} {out : NetbiosNsNameQuery} {sender : UInt32} {bytes : List UInt8}
    (hpc : s.thread = .recv out) (hevent : env.recv = .datagram sender bytes) :
    .datagram sender (inBuffer bytes) ∈ (s.step (.thread env)).ns.log := by
  have hclean := hinv.clean
  rw [hpc] at hclean
  obtain rfl : out = .invalid := hclean
  have hturn := recvTurn_cases s.ns (s.ns.discoverBroadcastTimeout == 0) false 0 env.recv
  have hlogged : .datagram sender (inBuffer bytes) ∈
      (s.ns.received sender (inBuffer bytes)).log := by simp [NetbiosNs.received, NetbiosNs.note]
  rw [NsSystem.step, hpc, netbiosNsDiscoverThread]
  generalize netbiosNsRecvTurn s.ns _ false 0 .invalid env.recv = t at hturn ⊢
  cases hturn with
  | quit _ _ _ _ _ hcause => exact absurd hevent (hcause.resolve_left (by simp [hrun]) _ _)
  | timeout htimeout => simp [hevent] at htimeout
  | idle htimeout => simp [hevent] at htimeout
  | rejected _ _ hevent' =>
    rw [hevent] at hevent'
    cases hevent'
    exact hlogged
  | accepted _ _ query _ hevent' =>
    rw [hevent] at hevent'
    cases hevent'
    dsimp only
    split
    · exact hlogged
    · split
      · exact hlogged
      · exact discoverAnswer_log _ _ _ _ hlogged

theorem proceeds_of_not_aborted {s : NsSystem} (hinv : NsInv s) (hrun : s.ns.aborted = false)
    {env : ThreadEnv} (hquiet : ¬ env.raises) : Proceeds s env where
  top hpc hselect := by
    rw [NsSystem.step, hpc, netbiosNsDiscoverThread, if_neg (by simp [hselect]),
      if_neg (by simp [hrun])]
  broadcast hpc _ _ _ hmem htarget hret :=
    proceeds_broadcast hrun hquiet hpc hmem htarget hret
  recv _ _ _ hpc hevent := proceeds_recv hinv hrun hpc hevent

/-! ## Restarting -/

/-- No abort is noticed, and the thread does its work. -/
def Undisturbed (s : NsSystem) (a : NsAction) : Prop :=
  ¬ Observes s a ∧ ∀ env, a = .thread env → Proceeds s env

/-- What may happen before the next stop: anything but a stop or an abort. -/
def NsAction.keepsGoing (a : NsAction) : Prop := ¬ a.raises ∧ a ≠ .discoverStop

theorem undisturbed_run {s : NsSystem} (hinv : NsInv s) (hrun : s.ns.aborted = false)
    {as : List NsAction} (has : ∀ a ∈ as, a.keepsGoing) :
    Along NsSystem.step Undisturbed s as := by
  induction as generalizing s with
  | nil => trivial
  | cons a as ih =>
    rw [List.forall_mem_cons] at has
    obtain ⟨⟨hquiet, hstop⟩, hrest⟩ := has
    have hnext : (s.step a).ns.aborted = false := by
      rw [← Bool.not_eq_true, step_aborted_iff hinv hquiet]
      rintro (h | h)
      · rw [hrun] at h
        cases h
      · exact hstop h.1
    refine ⟨⟨?_, ?_⟩, ih (hinv.step a) hnext hrest⟩
    · exact fun hobs => hobs ((step_flagOnly hinv a).count hnext)
    · rintro env rfl
      exact proceeds_of_not_aborted hinv hrun hquiet

/-- A step of the thread at the head of its loop, with nothing to hear. -/
def ThreadEnv.idle : ThreadEnv where
  selectFails := false
  now := 0
  query := .up
  recv := .timeout

theorem idle_quiet : ¬ ThreadEnv.idle.raises := by
  rintro ((h | ⟨p, hp, h⟩) | h)
  · cases h
  · have hp' : p = (⟨true, true, true, some 0xff00000a⟩, .sendto 50) := by
      simpa [ThreadEnv.idle, QueryEnv.up] using hp
    rw [hp'] at h
    cases h
  · cases h

/-- A thread that starts with the flag set sees it at once. -/
theorem observes_at_start {s : NsSystem} (hpc : s.thread = .top) (habort : s.ns.aborted = true) :
    Observes s (.thread .idle) := by
  rw [Observes, NsSystem.step, hpc, netbiosNsDiscoverThread, if_neg (by simp [ThreadEnv.idle]),
    if_pos habort]
  simp [NetbiosNs.note]

/-- For every history without `netbios_ns_abort` and every start that returns `0` after it, the new
thread works undisturbed up to the next stop exactly if no stop has succeeded before. -/
theorem restart_undisturbed_iff (rand : UInt16) (as : List NsAction) (broadcastTimeout : UInt32)
    (hquiet : ∀ a ∈ as, ¬ a.raises)
    (hidle : (as.foldl NsSystem.step (NsSystem.new rand)).stopping = false)
    (hstart : (netbiosNsDiscoverStart (as.foldl NsSystem.step (NsSystem.new rand))
      broadcastTimeout true true).1 = true) :
    (∀ bs : List NsAction, (∀ b ∈ bs, b.keepsGoing) →
      Along NsSystem.step Undisturbed ((as.foldl NsSystem.step (NsSystem.new rand)).step
        (.discoverStart broadcastTimeout true true)) bs) ↔
    Along NsSystem.step (fun s a => ¬ StopSucceeds s a) (NsSystem.new rand) as := by
  have hinv : NsInv (as.foldl NsSystem.step (NsSystem.new rand)) := .run rand as
  have hflag := run_aborted_iff (.new rand) hquiet
  generalize as.foldl NsSystem.step (NsSystem.new rand) = s at *
  have hinv' := hinv.step (.discoverStart broadcastTimeout true true)
  have hstarted : (s.step (.discoverStart broadcastTimeout true true)).thread = .top ∧
      (s.step (.discoverStart broadcastTimeout true true)).ns.aborted = s.ns.aborted := by
    rw [NsSystem.step, if_neg (by simp [hidle])]
    rw [netbiosNsDiscoverStart] at hstart ⊢
    split_ifs at hstart ⊢
    exact ⟨rfl, rfl⟩
  obtain ⟨hpc, habort⟩ := hstarted
  constructor
  · intro hall
    refine (hflag.mp ?_).2
    by_contra hset
    have hidleRun : ∀ b ∈ [NsAction.thread .idle], b.keepsGoing := by
      simp only [List.mem_singleton, forall_eq]
      exact ⟨idle_quiet, by simp⟩
    have hfirst := (hall _ hidleRun).1.1
    exact hfirst (observes_at_start hpc (habort.trans (by simpa using hset)))
  · intro hnone bs hbs
    exact undisturbed_run hinv' (habort.trans (hflag.mpr ⟨rfl, hnone⟩)) hbs

/-- The first start of a fresh `netbios_ns`. -/
theorem restart_undisturbed_first :
    (netbiosNsDiscoverStart (NsSystem.new 0) 1 true true).1 = true ∧
      ∀ bs : List NsAction, (∀ b ∈ bs, b.keepsGoing) →
        Along NsSystem.step Undisturbed
          ((NsSystem.new 0).step (.discoverStart 1 true true)) bs :=
  ⟨rfl, (restart_undisturbed_iff 0 [] 1 (by simp) rfl rfl).mpr trivial⟩

/-- Discovery started, stopped and started again: both calls return `0`, and the second thread
sees the abort of the stop and ends without a broadcast. -/
theorem restart_sees_abort :
    let s := [.discoverStart 1 true true, .discoverStop, .thread .idle, .joined].foldl
      NsSystem.step (NsSystem.new 0)
    let restarted := s.step (.discoverStart 1 true true)
    (netbiosNsDiscoverStart s 1 true true).1 = true ∧ restarted.stopping = false ∧
      Observes restarted (.thread .idle) ∧ (restarted.step (.thread .idle)).thread = .ended := by
  refine ⟨by decide +kernel, by decide +kernel, ?_, by decide +kernel⟩
  exact observes_at_start (by decide +kernel) (by decide +kernel)

end Libdsm
