import Libdsm.Netbios.Proofs.Answers

/-!
# Replies are tied to the query

What one query and the wait for its answer do to the state, and from it where the results of
`netbios_ns_resolve` and `netbios_ns_inverse` come from. `settling` is the first event of a wait
that is not a datagram to be skipped; `recv_cases` says that this event decides the wait.
-/

namespace Libdsm

/-! ## What a wait may change -/

/-- An event of the socket, not of the cache: an abort, a query or a datagram. -/
def NsEvent.ofSocket (aborted : Bool) : NsEvent → Prop
  | .abortSeen => aborted = true
  | .query _ _ | .datagram _ _ => True
  | .entryAdded _ | .entryRemoved _ => False

/-- Queries and waits may have changed the id, the buffer, the log and the abort flag. -/
structure Waits (raised : Prop) (ns ns' : NetbiosNs) : Prop where
  entryQueue : ns'.entryQueue = ns.entryQueue
  timeout : ns'.discoverBroadcastTimeout = ns.discoverBroadcastTimeout
  started : ns'.discoverStarted = ns.discoverStarted
  keep : ns.aborted = true → ns'.aborted = true
  raised : ns'.aborted = true → ns.aborted = true ∨ raised
  log : ∃ events, ns'.log = ns.log ++ events ∧ ∀ e ∈ events, e.ofSocket ns'.aborted

namespace Waits

variable {raised raised' : Prop} {ns ns' ns'' : NetbiosNs}

theorem refl : Waits raised ns ns :=
  ⟨rfl, rfl, rfl, id, Or.inl, [], by simp, by simp⟩

theorem mono (h : Waits raised ns ns') (himp : raised → raised') : Waits raised' ns ns' :=
  { h with raised := fun ha => (h.raised ha).imp_right himp }

theorem trans (h : Waits raised ns ns') (h' : Waits raised ns' ns'') : Waits raised ns ns'' := by
  refine ⟨h'.entryQueue.trans h.entryQueue, h'.timeout.trans h.timeout,
    h'.started.trans h.started, fun ha => h'.keep (h.keep ha), ?_, ?_⟩
  · intro ha
    rcases h'.raised ha with ha | ha
    · exact h.raised ha
    · exact Or.inr ha
  · obtain ⟨events, heq, hall⟩ := h.log
    obtain ⟨events', heq', hall'⟩ := h'.log
    refine ⟨events ++ events', by rw [heq', heq, List.append_assoc], ?_⟩
    intro e he
    rcases List.mem_append.mp he with he | he
    · have hsocket := hall e he
      cases e with
      | abortSeen => exact h'.keep hsocket
      | query | datagram => trivial
      | entryAdded | entryRemoved => exact hsocket
    · exact hall' e he

end Waits

/-! ## Sending -/

/-- Nothing but the log has changed, and the abort flag if an abort was raised: what was logged
are the copies of one packet that went out and the aborts noticed. -/
def Sends (packet : List UInt8) (raised : Prop) (ns ns' : NetbiosNs) : Prop :=
  ∃ events aborted, ns' = { ns with log := ns.log ++ events, aborted } ∧
    (ns.aborted = true → aborted = true) ∧ (aborted = true → ns.aborted = true ∨ raised) ∧
    ∀ e ∈ events, (e = .abortSeen ∧ aborted = true) ∨ ∃ ip, e = .query ip packet

namespace Sends

variable {packet : List UInt8} {raised raised' : Prop} {ns ns' ns'' : NetbiosNs}

theorem refl : Sends packet raised ns ns :=
  ⟨[], ns.aborted, by simp, id, Or.inl, by simp⟩

theorem trans (h : Sends packet raised ns ns') (h' : Sends packet raised ns' ns'') :
    Sends packet raised ns ns'' := by
  obtain ⟨events, aborted, rfl, hkeep, hraised, hlog⟩ := h
  obtain ⟨events', aborted', rfl, hkeep', hraised', hlog'⟩ := h'
  refine ⟨events ++ events', aborted', by simp, fun h => hkeep' (hkeep h), ?_, ?_⟩
  · intro h
    rcases hraised' h with h | h
    · exact hraised h
    · exact Or.inr h
  · intro e he
    rcases List.mem_append.mp he with he | he
    · rcases hlog e he with ⟨rfl, h⟩ | h
      · exact Or.inl ⟨rfl, hkeep' h⟩
      · exact Or.inr h
    · exact hlog' e he

theorem mono (h : Sends packet raised ns ns') (himp : raised → raised') :
    Sends packet raised' ns ns' := by
  obtain ⟨events, aborted, heq, hkeep, hraised, hlog⟩ := h
  exact ⟨events, aborted, heq, hkeep, fun h => (hraised h).imp_right himp, hlog⟩

end Sends

theorem Sends.waits {packet : List UInt8} {raised : Prop} {ns ns' : NetbiosNs}
    (h : Sends packet raised ns ns') : Waits raised ns ns' := by
  obtain ⟨events, aborted, rfl, hkeep, hraised, hlog⟩ := h
  refine ⟨rfl, rfl, rfl, hkeep, hraised, events, rfl, ?_⟩
  intro e he
  rcases hlog e he with ⟨rfl, habort⟩ | ⟨ip, rfl⟩
  · exact habort
  · trivial

theorem sendPacket_sends (ns : NetbiosNs) (q : NetbiosQuery) (ip : UInt32) (event : SendEvent) :
    Sends q.bytes (event = .abort) ns (netbiosNsSendPacket ns q ip event).2 := by
  cases event with
  | selectError => exact .refl
  | abort => exact ⟨[.abortSeen], true, rfl, fun _ => rfl, fun _ => Or.inr rfl, by simp⟩
  | sendto ret =>
    rw [netbiosNsSendPacket]
    by_cases habort : ns.aborted = true
    · rw [if_pos habort]
      exact ⟨[.abortSeen], ns.aborted, rfl, id, Or.inl, by simp [habort]⟩
    rw [if_neg habort]
    by_cases hret : 0 ≤ ret
    · rw [if_pos hret]
      exact ⟨[.query ip q.bytes], ns.aborted, rfl, id, Or.inl, by simp⟩
    · rw [if_neg hret]
      exact .refl

/-- Another thread aborts during a query. -/
def QueryEnv.raises (env : QueryEnv) : Prop :=
  env.send = .abort ∨ ∃ p ∈ env.ifaddrs, p.2 = .abort

theorem broadcastPacket_sends (q : NetbiosQuery) (ifaddrs : List (Ifaddr × SendEvent))
    (ns : NetbiosNs) :
    Sends q.bytes (∃ p ∈ ifaddrs, p.2 = .abort) ns (netbiosNsBroadcastPacket ns q ifaddrs) := by
  induction ifaddrs generalizing ns with
  | nil => exact .refl
  | cons p rest ih =>
    obtain ⟨a, event⟩ := p
    have hrest (ns : NetbiosNs) := (ih ns).mono fun ⟨p, hp, h⟩ =>
      (⟨p, List.mem_cons_of_mem _ hp, h⟩ : ∃ p ∈ (a, event) :: rest, p.2 = SendEvent.abort)
    rw [netbiosNsBroadcastPacket]
    cases a.target with
    | none => exact hrest ns
    | some ip =>
      have hfirst := (sendPacket_sends ns q ip event).mono fun h =>
        (⟨(a, event), List.mem_cons_self, h⟩ : ∃ p ∈ (a, event) :: rest, p.2 = SendEvent.abort)
      exact hfirst.trans (hrest _)

section Query

variable (ns : NetbiosNs) (ip : UInt32) (type : NameQueryType) (name : List UInt8)
variable (queryFlag : UInt16) (env : QueryEnv)

/-- A query fails and changes nothing but the log, or it succeeds and counts. -/
theorem sendNameQuery_cases :
    ∃ ns', Sends (nameQueryPacket ns type name queryFlag).bytes env.raises ns ns' ∧
      (netbiosNsSendNameQuery ns ip type name queryFlag env = (-1, ns') ∨
        netbiosNsSendNameQuery ns ip type name queryFlag env =
          (0, { ns' with lastTrnId := ns.lastTrnId + 1 })) := by
  rw [netbiosNsSendNameQuery]
  dsimp only
  by_cases hip : ip ≠ 0
  · rw [if_pos hip]
    have hsends := sendPacket_sends ns (nameQueryPacket ns type name queryFlag) ip env.send
    refine ⟨_, hsends.mono Or.inl, ?_⟩
    obtain ⟨events, aborted, heq, -⟩ := hsends
    rw [heq]
    split
    · exact Or.inl rfl
    · exact Or.inr rfl
  · rw [if_neg hip]
    have hsends := broadcastPacket_sends (nameQueryPacket ns type name queryFlag) env.ifaddrs ns
    refine ⟨_, hsends.mono Or.inr, Or.inr ?_⟩
    obtain ⟨events, aborted, heq, -⟩ := hsends
    rw [heq]

theorem sendNameQuery_waits :
    Waits env.raises ns (netbiosNsSendNameQuery ns ip type name queryFlag env).2 := by
  obtain ⟨ns', hsends, heq | heq⟩ := sendNameQuery_cases ns ip type name queryFlag env
  · rw [heq]
    exact hsends.waits
  · rw [heq]
    exact { hsends.waits with }

/-- The counter moves with the queries that succeed. -/
theorem sendNameQuery_trnId :
    ((netbiosNsSendNameQuery ns ip type name queryFlag env).1 = -1 ∧
      (netbiosNsSendNameQuery ns ip type name queryFlag env).2.lastTrnId = ns.lastTrnId) ∨
    ((netbiosNsSendNameQuery ns ip type name queryFlag env).1 = 0 ∧
      (netbiosNsSendNameQuery ns ip type name queryFlag env).2.lastTrnId = ns.lastTrnId + 1) := by
  obtain ⟨ns', hsends, heq | heq⟩ := sendNameQuery_cases ns ip type name queryFlag env
  · obtain ⟨events, aborted, rfl, -⟩ := hsends
    rw [heq]
    exact Or.inl ⟨rfl, rfl⟩
  · rw [heq]
    exact Or.inr ⟨rfl, rfl⟩

/-- The packet carries the next transaction id, which wraps after `0xffff`. -/
theorem nameQueryPacket_trnId :
    trnIdOf (nameQueryPacket ns type name queryFlag).bytes =
      (ns.lastTrnId.toNat + 1) % 2 ^ 16 := by
  have hid : (nameQueryPacket ns type name queryFlag).trnId.toNat =
      (ns.lastTrnId.toNat + 1) % 2 ^ 16 := UInt16.toNat_ofNat'
  generalize nameQueryPacket ns type name queryFlag = q at hid
  rw [← hid, trnIdOf, NetbiosQuery.bytes, htons]
  simp [be16At]
  have := q.trnId.toNat_lt
  omega

end Query

/-! ## Receiving -/

/-- `recvfrom` puts `d` into the buffer, over the start of what was there. -/
def NetbiosNs.received (ns : NetbiosNs) (sender : UInt32) (d : List UInt8) : NetbiosNs :=
  { ns with buffer := ns.buffer.write 0 d }.note (.datagram sender d)

theorem received_waits {raised : Prop} (ns : NetbiosNs) (sender : UInt32) (d : List UInt8) :
    Waits raised ns (ns.received sender d) :=
  ⟨rfl, rfl, rfl, id, Or.inl, [.datagram sender d], rfl, by simp [NsEvent.ofSocket]⟩

/-- The part of a datagram that fits the buffer. -/
def inBuffer (bytes : List UInt8) : List UInt8 := bytes.take recvBufferSize

/-- A datagram to be skipped: from another host than the one waited for, or not accepted. -/
def rejects (id : Option UInt16) (waitIp : UInt32) : RecvEvent → Bool
  | .datagram sender bytes =>
    (waitIp ≠ 0 ∧ waitIp ≠ sender) ∨ ¬ Accepted id (inBuffer bytes)
  | _ => false

/-- What ends a wait: the first event that is not a datagram to be skipped, at last the timeout. -/
def settling (id : Option UInt16) (waitIp : UInt32) (events : List RecvEvent) : RecvEvent :=
  (events.find? fun e => !rejects id waitIp e).getD .timeout

theorem rejects_of_not_datagram {id : Option UInt16} {waitIp : UInt32} {event : RecvEvent}
    (h : ∀ sender bytes, event ≠ .datagram sender bytes) : rejects id waitIp event = false := by
  cases event with
  | datagram sender bytes => exact absurd rfl (h sender bytes)
  | selectError | abort | timeout | recvError => rfl

theorem settling_cons_of_not_rejects {id : Option UInt16} {waitIp : UInt32} {event : RecvEvent}
    (events : List RecvEvent) (h : rejects id waitIp event = false) :
    settling id waitIp (event :: events) = event := by
  simp [settling, h]

theorem settling_cons_of_rejects {id : Option UInt16} {waitIp : UInt32} {event : RecvEvent}
    (events : List RecvEvent) (h : rejects id waitIp event = true) :
    settling id waitIp (event :: events) = settling id waitIp events := by
  simp [settling, h]

/-- The outcomes of one turn of the receive loop, the result structure being `INVALID` before. -/
inductive TurnOf (ns : NetbiosNs) (blocking checkTrnId : Bool) (waitIp : UInt32)
    (event : RecvEvent) : Option RecvResult × NetbiosNsNameQuery × NetbiosNs → Prop
  /-- An error or an abort. -/
  | quit (events : List NsEvent) (aborted : Bool)
      (hlog : ∀ e ∈ events, e = .abortSeen ∧ aborted = true)
      (hkeep : ns.aborted = true → aborted = true)
      (hraised : aborted = true → ns.aborted = true ∨ event = .abort)
      (hcause : ns.aborted = true ∨ ∀ sender bytes, event ≠ .datagram sender bytes) :
      TurnOf ns blocking checkTrnId waitIp event
        (some ⟨-1, 0⟩, .invalid, { ns with log := ns.log ++ events, aborted })
  | timeout (hevent : event = .timeout) (hblock : blocking = false) :
      TurnOf ns blocking checkTrnId waitIp event (some ⟨0, 0⟩, .invalid, ns)
  /-- A wait without a timeout goes on. -/
  | idle (hevent : event = .timeout) (hblock : blocking = true) :
      TurnOf ns blocking checkTrnId waitIp event (none, .invalid, ns)
  | rejected (sender : UInt32) (bytes : List UInt8) (hevent : event = .datagram sender bytes)
      (hreject : rejects (ns.expects checkTrnId) waitIp event = true) :
      TurnOf ns blocking checkTrnId waitIp event
        (none, .invalid, ns.received sender (inBuffer bytes))
  | accepted (sender : UInt32) (bytes : List UInt8) (query : NetbiosNsNameQuery)
      (hrun : ns.aborted = false) (hevent : event = .datagram sender bytes)
      (haccept : rejects (ns.expects checkTrnId) waitIp event = false)
      (htells : Tells (ns.buffer.write 0 (inBuffer bytes)) sender (inBuffer bytes) query) :
      TurnOf ns blocking checkTrnId waitIp event
        (some ⟨(inBuffer bytes).length, sender⟩, query, ns.received sender (inBuffer bytes))

section Turn

variable (ns : NetbiosNs) (blocking checkTrnId : Bool) (waitIp : UInt32)

theorem TurnOf.abortSeen {event : RecvEvent} (h : ns.aborted = true) :
    TurnOf ns blocking checkTrnId waitIp event (some ⟨-1, 0⟩, .invalid, ns.note .abortSeen) :=
  .quit [.abortSeen] ns.aborted (by simp [h]) id Or.inl (Or.inl h)

theorem TurnOf.error {event : RecvEvent} (hcause : ∀ sender bytes, event ≠ .datagram sender bytes) :
    TurnOf ns blocking checkTrnId waitIp event (some ⟨-1, 0⟩, .invalid, ns) := by
  have h : TurnOf ns blocking checkTrnId waitIp event
      (some ⟨-1, 0⟩, .invalid, { ns with log := ns.log ++ [], aborted := ns.aborted }) :=
    .quit [] ns.aborted (by simp) id Or.inl (Or.inr hcause)
  simpa using h

/-- A datagram that `recvfrom` has put into the buffer. -/
theorem recvTurn_datagram (h : ns.aborted = false) (sender : UInt32) (bytes : List UInt8) :
    TurnOf ns blocking checkTrnId waitIp (.datagram sender bytes)
      (netbiosNsRecvTurn ns blocking checkTrnId waitIp .invalid (.datagram sender bytes)) := by
  have hbuf : (ns.received sender (inBuffer bytes)).buffer = ns.buffer.write 0 (inBuffer bytes) :=
    rfl
  have hid : (ns.received sender (inBuffer bytes)).expects checkTrnId = ns.expects checkTrnId :=
    rfl
  have hturn : netbiosNsRecvTurn ns blocking checkTrnId waitIp .invalid (.datagram sender bytes) =
      if waitIp ≠ 0 ∧ waitIp ≠ sender then
        (none, .invalid, ns.received sender (inBuffer bytes))
      else
        let r := netbiosNsHandleQuery (ns.received sender (inBuffer bytes)) (inBuffer bytes).length
          checkTrnId sender .invalid
        if r.1 = -1 then (none, r.2, ns.received sender (inBuffer bytes))
        else (some ⟨(inBuffer bytes).length, sender⟩, r.2, ns.received sender (inBuffer bytes)) := by
    rw [netbiosNsRecvTurn, if_neg (by simp [h])]
    rfl
  rw [hturn]
  by_cases hip : waitIp ≠ 0 ∧ waitIp ≠ sender
  · rw [if_pos hip]
    exact .rejected sender bytes rfl (by simp [rejects, hip])
  rw [if_neg hip]
  by_cases hacc : Accepted (ns.expects checkTrnId) (inBuffer bytes)
  · obtain ⟨hret, htells⟩ := handleQuery_accepted sender hbuf (hid ▸ hacc)
    dsimp only
    rw [if_neg (by rw [hret]; decide)]
    exact .accepted sender bytes _ h rfl (by simp only [rejects]; simp [hip, hacc]) htells
  · rw [handleQuery_rejected hbuf (hid ▸ hacc)]
    dsimp only
    rw [if_pos rfl]
    exact .rejected sender bytes rfl (by simp [rejects, hacc])

theorem recvTurn_cases (event : RecvEvent) :
    TurnOf ns blocking checkTrnId waitIp event
      (netbiosNsRecvTurn ns blocking checkTrnId waitIp .invalid event) := by
  by_cases habort : ns.aborted = true
  · cases event with
    | selectError => exact .error ns blocking checkTrnId waitIp (by simp)
    | abort =>
      exact .quit [.abortSeen] true (by simp) (fun _ => rfl) (fun _ => Or.inr rfl) (by simp)
    | timeout | recvError | datagram =>
      rw [netbiosNsRecvTurn, if_pos habort]
      exact .abortSeen ns blocking checkTrnId waitIp habort
  · rw [Bool.not_eq_true] at habort
    cases event with
    | selectError => exact .error ns blocking checkTrnId waitIp (by simp)
    | abort =>
      exact .quit [.abortSeen] true (by simp) (fun _ => rfl) (fun _ => Or.inr rfl) (by simp)
    | recvError =>
      rw [netbiosNsRecvTurn, if_neg (by simp [habort])]
      exact .error ns blocking checkTrnId waitIp (by simp)
    | timeout =>
      rw [netbiosNsRecvTurn, if_neg (by simp [habort])]
      cases blocking with
      | true => exact .idle rfl rfl
      | false => exact .timeout rfl rfl
    | datagram sender bytes => exact recvTurn_datagram ns blocking checkTrnId waitIp habort _ _

theorem TurnOf.waits {ns : NetbiosNs} {blocking checkTrnId : Bool} {waitIp : UInt32}
    {event : RecvEvent} {t : Option RecvResult × NetbiosNsNameQuery × NetbiosNs}
    (h : TurnOf ns blocking checkTrnId waitIp event t) : Waits (event = .abort) ns t.2.2 := by
  cases h with
  | quit events aborted hlog hkeep hraised =>
    refine ⟨rfl, rfl, rfl, hkeep, hraised, events, rfl, ?_⟩
    intro e he
    obtain ⟨rfl, habort⟩ := hlog e he
    exact habort
  | timeout | idle => exact .refl
  | rejected sender bytes => exact received_waits ns sender (inBuffer bytes)
  | accepted sender bytes => exact received_waits ns sender (inBuffer bytes)

/-- The whole wait: datagrams to be skipped, which change nothing that the last turn looks at, and
the turn that ends it. -/
theorem recv_cases (events : List RecvEvent) :
    ∃ ns' event, Waits False ns ns' ∧ ns'.lastTrnId = ns.lastTrnId ∧
      (event = .timeout ∨ event ∈ events) ∧
      (ns'.aborted = false → event = settling (ns.expects checkTrnId) waitIp events) ∧
      TurnOf ns' false checkTrnId waitIp event
        (some (netbiosNsRecv ns checkTrnId waitIp events).1,
          (netbiosNsRecv ns checkTrnId waitIp events).2) := by
  simp only [netbiosNsRecv]
  induction events generalizing ns with
  | nil =>
    refine ⟨ns, .timeout, .refl, rfl, Or.inl rfl, fun _ => rfl, ?_⟩
    have hturn := recvTurn_cases ns false checkTrnId waitIp .timeout
    rw [netbiosNsRecvLoop]
    generalize netbiosNsRecvTurn ns false checkTrnId waitIp .invalid .timeout = t at hturn ⊢
    cases hturn with
    | quit log aborted hlog hkeep hraised hcause => exact .quit log aborted hlog hkeep hraised hcause
    | timeout hevent hblock => exact .timeout hevent hblock
    | idle _ hblock => cases hblock
    | rejected _ _ hevent => cases hevent
    | accepted _ _ _ _ hevent => cases hevent
  | cons event events ih =>
    have hturn := recvTurn_cases ns false checkTrnId waitIp event
    have hhead : event ∈ event :: events := List.mem_cons_self
    rw [netbiosNsRecvLoop]
    generalize netbiosNsRecvTurn ns false checkTrnId waitIp .invalid event = t at hturn ⊢
    cases hturn with
    | quit log aborted hlog hkeep hraised hcause =>
      refine ⟨ns, event, .refl, rfl, Or.inr hhead, ?_, .quit log aborted hlog hkeep hraised hcause⟩
      intro h
      have hnot := hcause.resolve_left (by simp [h])
      rw [settling_cons_of_not_rejects events (rejects_of_not_datagram hnot)]
    | timeout hevent hblock =>
      subst hevent
      exact ⟨ns, .timeout, .refl, rfl, Or.inl rfl, fun _ => rfl, .timeout rfl hblock⟩
    | idle _ hblock => cases hblock
    | rejected sender bytes hevent hreject =>
      subst hevent
      obtain ⟨ns', last, hwaits, hid, hlast, hsettle, hrest⟩ :=
        ih (ns.received sender (inBuffer bytes))
      refine ⟨ns', last, (received_waits ns sender _).trans hwaits, hid,
        hlast.imp_right (List.mem_cons_of_mem _), ?_, hrest⟩
      intro h
      rw [settling_cons_of_rejects events hreject]
      exact hsettle h
    | accepted sender bytes query hrun hevent haccept htells =>
      refine ⟨ns, event, .refl, rfl, Or.inr hhead, ?_,
        .accepted sender bytes query hrun hevent haccept htells⟩
      intro h
      rw [settling_cons_of_not_rejects events haccept]

end Turn

/-! ## A query and its answer -/

theorem recv_waits (ns : NetbiosNs) (checkTrnId : Bool) (waitIp : UInt32)
    (events : List RecvEvent) :
    Waits (.abort ∈ events) ns (netbiosNsRecv ns checkTrnId waitIp events).2.2 := by
  obtain ⟨ns', event, hskip, -, hevent, -, hturn⟩ := recv_cases ns checkTrnId waitIp events
  apply (hskip.mono False.elim).trans
  apply hturn.waits.mono
  rintro rfl
  exact hevent.resolve_left (by simp)

/-- A datagram that ended a wait: it has arrived, and it is the answer waited for. -/
theorem settling_datagram {id : Option UInt16} {waitIp sender : UInt32} {events : List RecvEvent}
    {bytes : List UInt8} (h : settling id waitIp events = .datagram sender bytes) :
    .datagram sender bytes ∈ events ∧ (waitIp ≠ 0 → sender = waitIp) ∧
      Accepted id (inBuffer bytes) := by
  rw [settling] at h
  cases hfind : events.find? (fun e => !rejects id waitIp e) with
  | none => simp [hfind] at h
  | some e =>
    have he : e = .datagram sender bytes := by simpa [hfind] using h
    subst he
    have hnot : rejects id waitIp (.datagram sender bytes) = false := by
      simpa using List.find?_some hfind
    simp only [rejects, decide_eq_false_iff_not, not_or, not_and, not_not] at hnot
    exact ⟨List.mem_of_find?_eq_some hfind, fun h => (hnot.1 h).symm, hnot.2⟩

section Calls

variable {ns : NetbiosNs} {env : QueryEnv} {events : List RecvEvent}

/-- An answer that `netbios_ns_resolve` gets from the network. -/
theorem resolve_answer {name : List UInt8} {type : UInt8} {ip : UInt32}
    (hnone : netbiosNsEntryFindName ns name = none)
    (h : (netbiosNsResolve ns name type env events).1 = some ip) :
    ∃ bytes, settling (some (ns.lastTrnId + 1)) 0 events = .datagram ip bytes ∧
      IsNb (inBuffer bytes) ∧
      .datagram ip (inBuffer bytes) ∈ (netbiosNsResolve ns name type env events).2.log := by
  have hid := sendNameQuery_trnId ns 0 .nb (netbiosNameEncode name type)
    (netbiosFlagRecursive ||| netbiosFlagBroadcast) env
  simp only [netbiosNsResolve, hnone] at h ⊢
  generalize netbiosNsSendNameQuery ns 0 .nb _ _ env = sent at h hid ⊢
  rcases hid with ⟨hfail, -⟩ | ⟨hok, hid⟩
  · simp [hfail] at h
  rw [if_neg (by rw [hok]; decide)] at h ⊢
  obtain ⟨ns', event, hskip, hid', -, hsettle, hturn⟩ := recv_cases sent.2 true 0 events
  generalize netbiosNsRecv sent.2 true 0 events = r at hturn h ⊢
  obtain ⟨r, out, ns''⟩ := r
  cases hturn with
  | quit => simp at h
  | timeout => simp at h
  | accepted sender bytes _ hrun hevent haccept htells =>
    have hlen : ¬ ((inBuffer bytes).length : Int) < 0 := by omega
    rw [if_neg hlen] at h ⊢
    cases out with
    | invalid => simp at h
    | nbstat => simp at h
    | nb addr =>
      obtain ⟨hnb, rfl⟩ := htells
      cases h
      rw [← hid]
      refine ⟨bytes, (hsettle hrun).symm.trans hevent, hnb, ?_⟩
      simp [NetbiosNs.received, NetbiosNs.note]

/-- Resolving a name changes neither the queue nor what the callbacks have seen. -/
theorem resolve_waits (ns : NetbiosNs) (name : List UInt8) (type : UInt8) (env : QueryEnv)
    (events : List RecvEvent) :
    Waits (env.raises ∨ .abort ∈ events) ns (netbiosNsResolve ns name type env events).2 := by
  have hsent := (sendNameQuery_waits ns 0 .nb (netbiosNameEncode name type)
    (netbiosFlagRecursive ||| netbiosFlagBroadcast) env).mono
    (Or.inl : env.raises → env.raises ∨ .abort ∈ events)
  have hrecv := (recv_waits (netbiosNsSendNameQuery ns 0 .nb (netbiosNameEncode name type)
    (netbiosFlagRecursive ||| netbiosFlagBroadcast) env).2 true 0 events).mono
    (Or.inr : _ → env.raises ∨ .abort ∈ events)
  rw [netbiosNsResolve]
  cases netbiosNsEntryFindName ns name with
  | some cached => exact .refl
  | none =>
    dsimp only
    split
    · exact hsent
    · split
      · exact hsent.trans hrecv
      · split <;> exact hsent.trans hrecv

/-- The entry that an inverse lookup makes of an answer. -/
def inverseEntry (m : Mem) (ip : UInt32) (name : Nat) (group : Option Nat) (type : UInt8) :
    NetbiosNsEntry :=
  netbiosNsEntrySetName m (netbiosNsEntryNew ip) (some name) group type

/-- An inverse lookup finds its entry in the queue, fails, or adds the entry of an answer. -/
theorem inverse_cases (ns : NetbiosNs) (env : QueryEnv) (events : List RecvEvent) {ip : UInt32}
    (hip : ip ≠ 0) :
    (∃ cached, netbiosNsEntryFindIp ns ip = some cached ∧
      netbiosNsInverseInternal ns ip env events = (some cached, ns)) ∨
    (netbiosNsEntryFindIp ns ip = none ∧
      (netbiosNsInverseInternal ns ip env events).1 = none ∧
      Waits (env.raises ∨ .abort ∈ events) ns (netbiosNsInverseInternal ns ip env events).2) ∨
    (netbiosNsEntryFindIp ns ip = none ∧ ∃ ns' bytes name group type,
      Waits (env.raises ∨ .abort ∈ events) ns ns' ∧
      settling (some (ns.lastTrnId + 1)) ip events = .datagram ip bytes ∧
      .datagram ip (inBuffer bytes) ∈ ns'.log ∧
      Tells ns'.buffer ip (inBuffer bytes) (.nbstat name group type) ∧
      netbiosNsInverseInternal ns ip env events =
        (some (inverseEntry ns'.buffer ip name group type),
          netbiosNsEntryAdd ns' (inverseEntry ns'.buffer ip name group type))) := by
  cases hfind : netbiosNsEntryFindIp ns ip with
  | some cached =>
    refine Or.inl ⟨cached, rfl, ?_⟩
    simp only [netbiosNsInverseInternal, hfind]
  | none =>
    refine Or.inr ?_
    have hid := sendNameQuery_trnId ns ip .nbstat nameQueryBroadcast 0 env
    have hsent := (sendNameQuery_waits ns ip .nbstat nameQueryBroadcast 0 env).mono
      (Or.inl : env.raises → env.raises ∨ .abort ∈ events)
    simp only [netbiosNsInverseInternal, hfind, true_and]
    generalize netbiosNsSendNameQuery ns ip .nbstat _ _ env = sent at hid hsent ⊢
    rcases hid with ⟨hfail, -⟩ | ⟨hok, hid⟩
    · rw [if_pos hfail]
      exact Or.inl ⟨rfl, hsent⟩
    rw [if_neg (by rw [hok]; decide)]
    obtain ⟨ns', event, hskip, hid', -, hsettle, hturn⟩ := recv_cases sent.2 true ip events
    have hall := hsent.trans ((recv_waits sent.2 true ip events).mono
      (Or.inr : _ → env.raises ∨ .abort ∈ events))
    generalize netbiosNsRecv sent.2 true ip events = r at hturn hall ⊢
    obtain ⟨r, out, ns''⟩ := r
    cases hturn with
    | quit => exact Or.inl ⟨rfl, hall⟩
    | timeout => exact Or.inl ⟨rfl, hall⟩
    | accepted sender bytes _ hrun hevent haccept htells =>
      have hanswer : settling (some (ns.lastTrnId + 1)) ip events = .datagram sender bytes := by
        rw [← hid]
        exact (hsettle hrun).symm.trans hevent
      obtain ⟨-, hsender, hrec, -⟩ := settling_datagram hanswer
      obtain rfl := hsender hip
      have hlen : ¬ ((inBuffer bytes).length : Int) ≤ 0 := by
        have := hrec.2
        omega
      rw [if_neg hlen]
      cases out with
      | invalid => exact Or.inl ⟨rfl, hall⟩
      | nb => exact Or.inl ⟨rfl, hall⟩
      | nbstat name group type =>
        refine Or.inr ⟨_, bytes, name, group, type, hall, hanswer, ?_, htells, rfl⟩
        simp [NetbiosNs.received, NetbiosNs.note]

theorem inverseEntry_name (m : Mem) (ip : UInt32) (name : Nat) (group : Option Nat)
    (type : UInt8) :
    (inverseEntry m ip name group type).name = trimmedName (m.read name netbiosNameLength) :=
  copyName_eq m name

/-- An entry that `netbios_ns_inverse` adds. -/
theorem inverse_added {ip : UInt32} (hip : ip ≠ 0)
    (h : (netbiosNsInverse ns ip env events).2.entryQueue ≠ ns.entryQueue) :
    ∃ entry bytes field,
      (netbiosNsInverse ns ip env events).2.entryQueue = entry :: ns.entryQueue ∧
      (netbiosNsInverse ns ip env events).1 = some entry.name ∧ entry.address = ip ∧
      settling (some (ns.lastTrnId + 1)) ip events = .datagram ip bytes ∧
      NbstatName (inBuffer bytes) field ∧ entry.name = trimmedName field := by
  rw [netbiosNsInverse] at h ⊢
  rcases inverse_cases ns env events hip with ⟨cached, -, heq⟩ | ⟨-, -, hwaits⟩ |
    ⟨-, ns', bytes, name, group, type, hwaits, hsettle, -, htells, heq⟩
  · rw [heq] at h
    exact absurd rfl h
  · exact absurd hwaits.entryQueue h
  · rw [heq]
    refine ⟨inverseEntry ns'.buffer ip name group type, bytes, _, ?_, rfl, rfl, hsettle, htells.1,
      inverseEntry_name ns'.buffer ip name group type⟩
    rw [netbiosNsEntryAdd, hwaits.entryQueue]

/-- An inverse lookup that is not answered from the queue, and what it returns. -/
theorem inverse_answer {ip : UInt32} {name : List UInt8} (hip : ip ≠ 0)
    (hnone : netbiosNsEntryFindIp ns ip = none)
    (h : (netbiosNsInverse ns ip env events).1 = some name) :
    ∃ bytes, settling (some (ns.lastTrnId + 1)) ip events = .datagram ip bytes ∧
      IsNbstat (inBuffer bytes) := by
  rw [netbiosNsInverse] at h
  rcases inverse_cases ns env events hip with ⟨cached, hsome, -⟩ | ⟨-, heq, -⟩ |
    ⟨-, ns', bytes, name, group, type, -, hsettle, -, htells, -⟩
  · rw [hnone] at hsome
    cases hsome
  · rw [heq] at h
    cases h
  · exact ⟨bytes, hsettle, htells.1.1⟩

end Calls

/-- A wait that ends without the answer it is for: at the timeout, or with an answer that is not
of kind `kind`. -/
def SettlesOtherwise (kind : List UInt8 → Prop) (event : RecvEvent) : Prop :=
  event = .timeout ∨ ∃ sender bytes, event = .datagram sender bytes ∧ ¬ kind (inBuffer bytes)

theorem settlesOtherwise_datagram {kind : List UInt8 → Prop} {sender : UInt32}
    {bytes : List UInt8} (h : SettlesOtherwise kind (.datagram sender bytes)) :
    ¬ kind (inBuffer bytes) := by
  rcases h with h | ⟨sender', bytes', h, hnot⟩
  · cases h
  · cases h
    exact hnot

/-- Replies are tied to the query, in every state and whatever arrives. The id of a query is the
successor of the last one modulo `2^16`, in the packet as in the counter; a datagram that is
skipped leaves the result structure `INVALID`; an address from the network is the sender of an NB
datagram with the id of this call's query; a new cache entry has its name from an NBSTAT datagram
with that id, sent by the host asked; a timeout and an answer of another type are failures. -/
theorem replies_tied (ns : NetbiosNs) :
    (∀ ip type name queryFlag env,
      let r := netbiosNsSendNameQuery ns ip type name queryFlag env
      (r.1 = 0 → r.2.lastTrnId.toNat = (ns.lastTrnId.toNat + 1) % 2 ^ 16) ∧
      (r.1 ≠ 0 → r.2.lastTrnId = ns.lastTrnId) ∧
      ∃ events, r.2.log = ns.log ++ events ∧ ∀ dest packet, .query dest packet ∈ events →
        trnIdOf packet = (ns.lastTrnId.toNat + 1) % 2 ^ 16) ∧
    (∀ blocking checkTrnId waitIp event,
      (netbiosNsRecvTurn ns blocking checkTrnId waitIp .invalid event).1 = none →
      (netbiosNsRecvTurn ns blocking checkTrnId waitIp .invalid event).2.1 = .invalid) ∧
    (∀ name type env events, netbiosNsEntryFindName ns name = none →
      (∀ ip, (netbiosNsResolve ns name type env events).1 = some ip →
        ∃ bytes, .datagram ip bytes ∈ events ∧ IsNb (inBuffer bytes) ∧
          trnIdOf (inBuffer bytes) = (ns.lastTrnId.toNat + 1) % 2 ^ 16) ∧
      (SettlesOtherwise IsNb (settling (some (ns.lastTrnId + 1)) 0 events) →
        (netbiosNsResolve ns name type env events).1 = none)) ∧
    (∀ ip env events, ip ≠ 0 →
      ((netbiosNsInverse ns ip env events).2.entryQueue ≠ ns.entryQueue →
        ∃ entry bytes field,
          (netbiosNsInverse ns ip env events).2.entryQueue = entry :: ns.entryQueue ∧
          entry.address = ip ∧ .datagram ip bytes ∈ events ∧
          trnIdOf (inBuffer bytes) = (ns.lastTrnId.toNat + 1) % 2 ^ 16 ∧
          NbstatName (inBuffer bytes) field ∧ entry.name = trimmedName field) ∧
      (netbiosNsEntryFindIp ns ip = none →
        SettlesOtherwise IsNbstat (settling (some (ns.lastTrnId + 1)) ip events) →
        (netbiosNsInverse ns ip env events).1 = none)) := by
  have hnext : (ns.lastTrnId + 1).toNat = (ns.lastTrnId.toNat + 1) % 2 ^ 16 :=
    UInt16.toNat_add _ _
  refine ⟨?_, ?_, ?_, ?_⟩
  · intro ip type name queryFlag env r
    obtain ⟨ns', ⟨events, aborted, rfl, -, -, hlog⟩, heq⟩ :=
      sendNameQuery_cases ns ip type name queryFlag env
    have hpackets : ∀ dest packet, .query dest packet ∈ events →
        trnIdOf packet = (ns.lastTrnId.toNat + 1) % 2 ^ 16 := by
      intro dest packet hmem
      rcases hlog _ hmem with ⟨h, -⟩ | ⟨ip', h⟩
      · cases h
      · cases h
        exact nameQueryPacket_trnId ns type name queryFlag
    have hr : r = _ ∨ r = _ := heq
    rcases hr with hr | hr
    · rw [hr]
      exact ⟨fun h => by simp at h, fun _ => rfl, events, rfl, hpackets⟩
    · rw [hr]
      exact ⟨fun _ => hnext, fun h => absurd rfl h, events, rfl, hpackets⟩
  · intro blocking checkTrnId waitIp event hskip
    have hturn := recvTurn_cases ns blocking checkTrnId waitIp event
    generalize netbiosNsRecvTurn ns blocking checkTrnId waitIp .invalid event = t at hturn hskip ⊢
    cases hturn with
    | quit | timeout | accepted => cases hskip
    | idle | rejected => rfl
  · intro name type env events hnone
    constructor
    · intro ip h
      obtain ⟨bytes, hsettle, hnb, -⟩ := resolve_answer hnone h
      obtain ⟨hmem, -, -, -, hid⟩ := settling_datagram hsettle
      exact ⟨bytes, hmem, hnb, (hid _ rfl).trans hnext⟩
    · intro hother
      rw [Option.eq_none_iff_forall_ne_some]
      intro ip h
      obtain ⟨bytes, hsettle, hnb, -⟩ := resolve_answer hnone h
      rw [hsettle] at hother
      exact settlesOtherwise_datagram hother hnb
  · intro ip env events hip
    constructor
    · intro hadded
      obtain ⟨entry, bytes, field, hqueue, -, haddr, hsettle, hfield, hname⟩ :=
        inverse_added hip hadded
      obtain ⟨hmem, -, -, -, hid⟩ := settling_datagram hsettle
      exact ⟨entry, bytes, field, hqueue, haddr, hmem, (hid _ rfl).trans hnext, hfield, hname⟩
    · intro hnone hother
      rw [Option.eq_none_iff_forall_ne_some]
      intro name h
      obtain ⟨bytes, hsettle, hnbstat⟩ := inverse_answer hip hnone h
      rw [hsettle] at hother
      exact settlesOtherwise_datagram hother hnbstat

/-- A network that takes every packet. -/
def QueryEnv.up : QueryEnv where
  ifaddrs := [(⟨true, true, true, some 0xff00000a⟩, .sendto 50)]
  send := .sendto 50

/-- At the id `0xffff`: an answer with the old id is skipped, one with the id `0` is taken. -/
theorem replies_tied_wraps :
    let ns := netbiosNsNew 0xffff
    let events := [.datagram 7 (nbAnswer 0xffff), .datagram 9 (nbAnswer 0)]
    (netbiosNsResolve ns (ascii "NAS") 0x20 .up events).1 = some 9 ∧
      ∃ bytes, .datagram 9 bytes ∈ events ∧ IsNb (inBuffer bytes) ∧
        trnIdOf (inBuffer bytes) = 0 := by
  have hanswer : (netbiosNsResolve (netbiosNsNew 0xffff) (ascii "NAS") 0x20 .up
      [.datagram 7 (nbAnswer 0xffff), .datagram 9 (nbAnswer 0)]).1 = some 9 := by
    decide +kernel
  refine ⟨hanswer, ?_⟩
  exact ((replies_tied (netbiosNsNew 0xffff)).2.2.1 (ascii "NAS") 0x20 .up _ rfl).1 9 hanswer

end Libdsm
