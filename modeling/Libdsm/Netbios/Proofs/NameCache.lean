import Libdsm.Misc.Runs
import Libdsm.Netbios.Proofs.Replies
import Mathlib.Data.List.Nodup

/-!
# The name cache

The entry queue is shared by the inverse lookups, which add entries with a name, and by the
discovery thread, which adds entries without one, names them later and takes them out.
`DiscoverOf` says once what a step of the thread can do; `CacheInv` is what every operation keeps:
one entry for each address, and no name that was not received from that address.
-/

namespace Libdsm

/-! ## What a step of the thread can do -/

/-- Between two calls of `netbios_ns_recv` the result structure is `INVALID`. -/
def DiscoverPc.clean : DiscoverPc → Prop
  | .recv out => out = .invalid
  | .top | .broadcast | .query _ | .ended => True

/-- Another thread aborts during a step of the discovery thread. -/
def ThreadEnv.raises (env : ThreadEnv) : Prop := env.query.raises ∨ env.recv = .abort

/-- The outcomes of a step of the discovery thread. -/
inductive DiscoverOf (pc : DiscoverPc) (ns : NetbiosNs) (env : ThreadEnv) :
    DiscoverPc × NetbiosNs → Prop
  /-- Nothing happens to the queue. -/
  | waits {pc' : DiscoverPc} {ns' : NetbiosNs} (hclean : pc'.clean)
      (hwaits : Waits env.raises ns ns')
      (htop : pc = .top → env.selectFails = true ∨ ns.aborted = true) :
      DiscoverOf pc ns env (pc', ns')
  | expire (hpc : pc = .top) (hrun : ns.aborted = false) (hselect : env.selectFails = false) :
      DiscoverOf pc ns env (.broadcast, discoverExpire ns env.now)
  | nb {sender : UInt32} {bytes : List UInt8} (hrun : ns.aborted = false)
      (hevent : env.recv = .datagram sender bytes) (hnb : IsNb (inBuffer bytes)) :
      DiscoverOf pc ns env (discoverNb (ns.received sender (inBuffer bytes)) sender env.now)
  | nbstat {sender : UInt32} {bytes : List UInt8} {name : Nat} {group : Option Nat} {type : UInt8}
      (hrun : ns.aborted = false) (hevent : env.recv = .datagram sender bytes)
      (htells : Tells (ns.received sender (inBuffer bytes)).buffer sender (inBuffer bytes)
        (.nbstat name group type)) :
      DiscoverOf pc ns env
        (discoverNbstat (ns.received sender (inBuffer bytes)) sender name group type env.now)

/-- A query of the thread, by broadcast or to one host. -/
theorem discoverQuery_cases {pc : DiscoverPc} {ns : NetbiosNs} {env : ThreadEnv} (ip : UInt32)
    (type : NameQueryType) (hpc : pc ≠ .top) :
    let sent := netbiosNsSendNameQuery ns ip type nameQueryBroadcast 0 env.query
    DiscoverOf pc ns env
      (if sent.1 = -1 then (.ended, sent.2) else (.recv .invalid, sent.2)) := by
  have hwaits := (sendNameQuery_waits ns ip type nameQueryBroadcast 0 env.query).mono
    (Or.inl : _ → env.raises)
  dsimp only
  split
  · exact .waits trivial hwaits fun h => absurd h hpc
  · exact .waits rfl hwaits fun h => absurd h hpc

theorem discoverThread_cases {pc : DiscoverPc} (ns : NetbiosNs) (env : ThreadEnv)
    (hclean : pc.clean) : DiscoverOf pc ns env (netbiosNsDiscoverThread pc ns env) := by
  cases pc with
  | top =>
    rw [netbiosNsDiscoverThread]
    by_cases hselect : env.selectFails = true
    · rw [if_pos hselect]
      exact .waits trivial .refl fun _ => Or.inl hselect
    rw [if_neg hselect]
    by_cases habort : ns.aborted = true
    · rw [if_pos habort]
      refine .waits trivial ?_ fun _ => Or.inr habort
      refine ⟨rfl, rfl, rfl, id, Or.inl, [.abortSeen], rfl, ?_⟩
      rintro e he
      rw [List.mem_singleton] at he
      subst he
      exact habort
    · rw [if_neg habort]
      exact .expire rfl (by simpa using habort) (by simpa using hselect)
  | broadcast => exact discoverQuery_cases 0 .nb (by simp)
  | query ip => exact discoverQuery_cases ip .nbstat (by simp)
  | ended => exact .waits trivial .refl (by simp)
  | recv out =>
    cases hclean
    have hturn := recvTurn_cases ns (ns.discoverBroadcastTimeout == 0) false 0 env.recv
    have hwaits := hturn.waits.mono (Or.inr : _ → env.raises)
    rw [netbiosNsDiscoverThread]
    generalize netbiosNsRecvTurn ns _ false 0 .invalid env.recv = t at hturn hwaits ⊢
    cases hturn with
    | quit => exact .waits trivial hwaits (by simp)
    | timeout =>
      dsimp only
      rw [if_neg (by decide), if_pos rfl]
      refine .waits ?_ hwaits (by simp)
      split <;> trivial
    | idle => exact .waits rfl hwaits (by simp)
    | rejected => exact .waits rfl hwaits (by simp)
    | accepted sender bytes query hrun hevent haccept htells =>
      have hrec : IsRecord (inBuffer bytes) := by
        rw [hevent] at haccept
        simp only [rejects, decide_eq_false_iff_not, not_or, not_not] at haccept
        exact haccept.2.1
      have hlen : 56 ≤ (inBuffer bytes).length := by
        have := hrec.2
        omega
      dsimp only
      rw [if_neg (by omega), if_neg (by omega)]
      cases query with
      | invalid => exact .waits rfl hwaits (by simp)
      | nb ip =>
        obtain ⟨hnb, rfl⟩ := htells
        exact .nb hrun hevent hnb
      | nbstat name group type => exact .nbstat hrun hevent htells

/-! ## The queue -/

section UpdateFirst

variable {α β : Type*} {p : α → Bool} {f : α → α}

theorem map_updateFirst {g : α → β} {as : List α}
    (h : ∀ a, as.find? p = some a → g (f a) = g a) : (updateFirst p f as).map g = as.map g := by
  induction as with
  | nil => rfl
  | cons a as ih =>
    rw [updateFirst]
    by_cases ha : p a = true
    · rw [if_pos ha, List.map_cons, h a (by simp [ha]), List.map_cons]
    · rw [if_neg ha, List.map_cons, ih fun b hb => h b (by simp [ha, hb]), List.map_cons]

theorem mem_updateFirst {a : α} {as : List α} (h : a ∈ updateFirst p f as) :
    a ∈ as ∨ ∃ b, as.find? p = some b ∧ a = f b := by
  induction as with
  | nil => exact Or.inl h
  | cons b as ih =>
    rw [updateFirst] at h
    by_cases hb : p b = true
    · rw [if_pos hb] at h
      rcases List.mem_cons.mp h with rfl | h
      · exact Or.inr ⟨b, by simp [hb], rfl⟩
      · exact Or.inl (List.mem_cons_of_mem _ h)
    · rw [if_neg hb] at h
      rcases List.mem_cons.mp h with rfl | h
      · exact Or.inl List.mem_cons_self
      · rcases ih h with h | ⟨c, hc, rfl⟩
        · exact Or.inl (List.mem_cons_of_mem _ h)
        · exact Or.inr ⟨c, by simp [hb, hc], rfl⟩

/-- What stood in the list still does, but for the element that was changed. -/
theorem mem_updateFirst_of_mem {a : α} {as : List α} (h : a ∈ as) :
    a ∈ updateFirst p f as ∨ as.find? p = some a := by
  induction as with
  | nil => cases h
  | cons b as ih =>
    rw [updateFirst]
    by_cases hb : p b = true
    · rw [if_pos hb]
      rcases List.mem_cons.mp h with rfl | h
      · exact Or.inr (by simp [hb])
      · exact Or.inl (List.mem_cons_of_mem _ h)
    · rw [if_neg hb]
      rcases List.mem_cons.mp h with rfl | h
      · exact Or.inl List.mem_cons_self
      · rcases ih h with h | h
        · exact Or.inl (List.mem_cons_of_mem _ h)
        · exact Or.inr (by simp [hb, h])

theorem updateFirst_mem {a : α} {as : List α} (h : as.find? p = some a) :
    f a ∈ updateFirst p f as := by
  induction as with
  | nil => cases h
  | cons b as ih =>
    rw [updateFirst]
    by_cases hb : p b = true
    · rw [List.find?_cons_of_pos hb] at h
      cases h
      rw [if_pos hb]
      exact List.mem_cons_self
    · rw [List.find?_cons_of_neg hb] at h
      rw [if_neg hb]
      exact List.mem_cons_of_mem _ (ih h)

end UpdateFirst

/-- The addresses in the queue, the one added last first. -/
def NetbiosNs.addresses (ns : NetbiosNs) : List UInt32 :=
  ns.entryQueue.map NetbiosNsEntry.address

/-- The entry found for an address. -/
theorem findIp_some {ns : NetbiosNs} {ip : UInt32} {e : NetbiosNsEntry}
    (h : netbiosNsEntryFindIp ns ip = some e) : e ∈ ns.entryQueue ∧ e.address = ip := by
  have hp : e.hasIp ip = true := List.find?_some h
  rw [NetbiosNsEntry.hasIp, Bool.and_eq_true, beq_iff_eq] at hp
  exact ⟨List.mem_of_find?_eq_some h, hp.2⟩

/-! ## The invariant -/

/-- What the cache keeps in an array of sixteen bytes for `ip`: nothing yet, or a field of an
NBSTAT answer from `ip`. -/
def Learned (log : List NsEvent) (ip : UInt32) (bytes : List UInt8) : Prop :=
  bytes = List.replicate (netbiosNameLength + 1) 0 ∨
    ∃ d field, .datagram ip d ∈ log ∧ NbstatField d field ∧ bytes = trimmedName field

/-- The name of a file server in an NBSTAT answer from `ip`. -/
def LearnedName (log : List NsEvent) (ip : UInt32) (bytes : List UInt8) : Prop :=
  ∃ d field, .datagram ip d ∈ log ∧ NbstatName d field ∧ bytes = trimmedName field

/-- What every operation keeps of the cache. -/
structure CacheInv (ns : NetbiosNs) : Prop where
  nodup : ns.addresses.Nodup
  validIp : ∀ e ∈ ns.entryQueue, e.validIp = true
  name : ∀ e ∈ ns.entryQueue, Learned ns.log e.address e.name
  group : ∀ e ∈ ns.entryQueue, Learned ns.log e.address e.group
  named : ∀ e ∈ ns.entryQueue, e.validName = true → LearnedName ns.log e.address e.name

section Invariant

variable {ns ns' : NetbiosNs}

theorem LearnedName.learned {log : List NsEvent} {ip : UInt32} {bytes : List UInt8}
    (h : LearnedName log ip bytes) : Learned log ip bytes := by
  obtain ⟨d, field, hmem, hname, heq⟩ := h
  exact Or.inr ⟨d, field, hmem, hname.field, heq⟩

theorem Learned.mono {log log' : List NsEvent} {ip : UInt32} {bytes : List UInt8}
    (h : Learned log ip bytes) (hsub : log ⊆ log') : Learned log' ip bytes := by
  rcases h with h | ⟨d, field, hmem, hrest⟩
  · exact Or.inl h
  · exact Or.inr ⟨d, field, hsub hmem, hrest⟩

theorem LearnedName.mono {log log' : List NsEvent} {ip : UInt32} {bytes : List UInt8}
    (h : LearnedName log ip bytes) (hsub : log ⊆ log') : LearnedName log' ip bytes := by
  obtain ⟨d, field, hmem, hrest⟩ := h
  exact ⟨d, field, hsub hmem, hrest⟩

/-- A queue that lost entries, under a log that grew. -/
theorem CacheInv.of_sublist (h : CacheInv ns) (hqueue : ns'.entryQueue.Sublist ns.entryQueue)
    (hlog : ns.log ⊆ ns'.log) : CacheInv ns' where
  nodup := h.nodup.sublist (hqueue.map _)
  validIp e he := h.validIp e (hqueue.subset he)
  name e he := (h.name e (hqueue.subset he)).mono hlog
  group e he := (h.group e (hqueue.subset he)).mono hlog
  named e he hvalid := (h.named e (hqueue.subset he) hvalid).mono hlog

/-- The same queue under a log that grew. -/
theorem CacheInv.of_eq (h : CacheInv ns) (hqueue : ns'.entryQueue = ns.entryQueue)
    (hlog : ns.log ⊆ ns'.log) : CacheInv ns' :=
  h.of_sublist (by rw [hqueue]) hlog

theorem Waits.log_subset {raised : Prop} (h : Waits raised ns ns') : ns.log ⊆ ns'.log := by
  obtain ⟨events, heq, -⟩ := h.log
  rw [heq]
  exact List.subset_append_left _ _

theorem CacheInv.waits {raised : Prop} (h : CacheInv ns) (hwaits : Waits raised ns ns') :
    CacheInv ns' :=
  h.of_eq hwaits.entryQueue hwaits.log_subset

/-- Only addresses without an entry are not found. -/
theorem CacheInv.findIp_none (h : CacheInv ns) {ip : UInt32}
    (hnone : netbiosNsEntryFindIp ns ip = none) : ip ∉ ns.addresses := by
  intro hmem
  obtain ⟨e, he, rfl⟩ := List.mem_map.mp hmem
  have hnot := List.find?_eq_none.mp hnone e he
  simp [NetbiosNsEntry.hasIp, h.validIp e he] at hnot

/-- The entry found for an address is the only one with that address. -/
theorem CacheInv.findIp_unique (h : CacheInv ns) {ip : UInt32} {e e' : NetbiosNsEntry}
    (hfind : netbiosNsEntryFindIp ns ip = some e) (he' : e' ∈ ns.entryQueue)
    (haddr : e'.address = ip) : e' = e := by
  obtain ⟨he, heip⟩ := findIp_some hfind
  exact List.inj_on_of_nodup_map h.nodup he' he (haddr.trans heip.symm)

theorem CacheInv.add (h : CacheInv ns) {e : NetbiosNsEntry} (hfresh : e.address ∉ ns.addresses)
    (hip : e.validIp = true) (hname : Learned ns.log e.address e.name)
    (hgroup : Learned ns.log e.address e.group)
    (hnamed : e.validName = true → LearnedName ns.log e.address e.name) :
    CacheInv (netbiosNsEntryAdd ns e) where
  nodup := List.nodup_cons.mpr ⟨hfresh, h.nodup⟩
  validIp := List.forall_mem_cons.mpr ⟨hip, h.validIp⟩
  name := List.forall_mem_cons.mpr ⟨hname, h.name⟩
  group := List.forall_mem_cons.mpr ⟨hgroup, h.group⟩
  named := List.forall_mem_cons.mpr ⟨hnamed, h.named⟩

/-- A change of the entry found for `ip` that respects the invariant. -/
theorem CacheInv.update (h : CacheInv ns) {ip : UInt32} {f : NetbiosNsEntry → NetbiosNsEntry}
    (haddr : ∀ e, (f e).address = e.address) (hip : ∀ e, (f e).validIp = e.validIp)
    (hf : ∀ e, netbiosNsEntryFindIp ns ip = some e → Learned ns.log ip (f e).name ∧
      Learned ns.log ip (f e).group ∧
      ((f e).validName = true → LearnedName ns.log ip (f e).name)) :
    CacheInv (ns.updateEntry ip f) := by
  -- every entry of the new queue is an old one or the changed one
  have hmem (e) (he : e ∈ (ns.updateEntry ip f).entryQueue) :
      e ∈ ns.entryQueue ∨ ∃ b, netbiosNsEntryFindIp ns ip = some b ∧ e = f b := mem_updateFirst he
  refine ⟨?_, ?_, ?_, ?_, ?_⟩
  · have heq : (ns.updateEntry ip f).addresses = ns.addresses :=
      map_updateFirst fun e _ => haddr e
    rw [heq]
    exact h.nodup
  · intro e he
    rcases hmem e he with he | ⟨b, hb, rfl⟩
    · exact h.validIp e he
    · rw [hip]
      exact h.validIp b (findIp_some hb).1
  · intro e he
    rcases hmem e he with he | ⟨b, hb, rfl⟩
    · exact h.name e he
    · rw [haddr, (findIp_some hb).2]
      exact (hf b hb).1
  · intro e he
    rcases hmem e he with he | ⟨b, hb, rfl⟩
    · exact h.group e he
    · rw [haddr, (findIp_some hb).2]
      exact (hf b hb).2.1
  · intro e he hvalid
    rcases hmem e he with he | ⟨b, hb, rfl⟩
    · exact h.named e he hvalid
    · rw [haddr, (findIp_some hb).2]
      exact (hf b hb).2.2 hvalid

/-! ## The operations keep it -/

theorem CacheInv.new (rand : UInt16) : CacheInv (netbiosNsNew rand) := by
  constructor <;> simp [netbiosNsNew, NetbiosNs.addresses]

theorem CacheInv.received (h : CacheInv ns) (sender : UInt32) (d : List UInt8) :
    CacheInv (ns.received sender d) :=
  h.of_eq rfl (List.subset_append_left _ _)

theorem CacheInv.expire (h : CacheInv ns) (now : Int) : CacheInv (discoverExpire ns now) :=
  h.of_sublist List.filter_sublist (List.subset_append_left _ _)

theorem CacheInv.entryNew (h : CacheInv ns) {ip : UInt32}
    (hnone : netbiosNsEntryFindIp ns ip = none) :
    CacheInv (netbiosNsEntryAdd ns (netbiosNsEntryNew ip)) :=
  h.add (h.findIp_none hnone) rfl (Or.inl rfl) (Or.inl rfl) (by intro h; cases h)

/-- The clock of an entry is none of the invariant's business. -/
theorem CacheInv.touch (h : CacheInv ns) (ip : UInt32) (now : Int) :
    CacheInv (ns.updateEntry ip fun e => { e with lastTimeSeen := now }) := by
  apply h.update
  · intro e
    rfl
  · intro e
    rfl
  · intro e hfind
    obtain ⟨he, rfl⟩ := findIp_some hfind
    exact ⟨h.name e he, h.group e he, h.named e he⟩

theorem CacheInv.discoverNb (h : CacheInv ns) (ip : UInt32) (now : Int) :
    CacheInv (discoverNb ns ip now).2 := by
  have hadded : CacheInv (if (netbiosNsEntryFindIp ns ip).isNone then
      netbiosNsEntryAdd ns ((netbiosNsEntryFindIp ns ip).getD (netbiosNsEntryNew ip)) else ns) := by
    cases hfind : netbiosNsEntryFindIp ns ip with
    | none => exact h.entryNew hfind
    | some e => exact h
  rw [Libdsm.discoverNb]
  split
  · exact hadded.touch ip now
  · exact hadded.touch ip now

section SetName

variable {ip : UInt32} {d : List UInt8} {name : Nat} {group : Option Nat} {type : UInt8}
variable (hmem : .datagram ip d ∈ ns.log)
variable (htells : Tells ns.buffer ip d (.nbstat name group type))

include hmem htells in
/-- The names that an NBSTAT answer gives to an entry of its sender. -/
theorem setName_learned {e : NetbiosNsEntry} (hgroup : Learned ns.log ip e.group) :
    LearnedName ns.log ip (netbiosNsEntrySetName ns.buffer e (some name) group type).name ∧
      Learned ns.log ip (netbiosNsEntrySetName ns.buffer e (some name) group type).group := by
  constructor
  · exact ⟨d, _, hmem, htells.1, copyName_eq ns.buffer name⟩
  · cases group with
    | none => exact hgroup
    | some g => exact Or.inr ⟨d, _, hmem, htells.2 g rfl, copyName_eq ns.buffer g⟩

include hmem htells in
theorem CacheInv.discoverNbstat (h : CacheInv ns) (now : Int) :
    CacheInv (discoverNbstat ns ip name group type now).2 := by
  rw [Libdsm.discoverNbstat]
  cases hfind : netbiosNsEntryFindIp ns ip with
  | none => exact h
  | some entry =>
    have hupdate : CacheInv (ns.updateEntry ip fun e =>
        netbiosNsEntrySetName ns.buffer { e with lastTimeSeen := now } (some name) group type) := by
      apply h.update
      · intro e
        rfl
      · intro e
        rfl
      · intro e hfind
        obtain ⟨he, rfl⟩ := findIp_some hfind
        obtain ⟨hname, hgroup⟩ := setName_learned hmem htells
          (show Learned ns.log e.address { e with lastTimeSeen := now }.group from h.group e he)
        exact ⟨hname.learned, hgroup, fun _ => hname⟩
    dsimp only
    split
    · exact hupdate
    · exact hupdate.of_eq rfl (List.subset_append_left _ _)

end SetName

theorem CacheInv.inverse (h : CacheInv ns) (env : QueryEnv) (events : List RecvEvent)
    {ip : UInt32} (hip : ip ≠ 0) : CacheInv (netbiosNsInverse ns ip env events).2 := by
  rw [netbiosNsInverse]
  rcases inverse_cases ns env events hip with ⟨cached, -, heq⟩ | ⟨-, -, hwaits⟩ |
    ⟨hnone, ns', bytes, name, group, type, hwaits, -, hmem, htells, heq⟩
  · rw [heq]
    exact h
  · exact h.waits hwaits
  · rw [heq]
    obtain ⟨hname, hgroup⟩ := setName_learned hmem htells
      (show Learned ns'.log ip (netbiosNsEntryNew ip).group from Or.inl rfl)
    apply (h.waits hwaits).add _ rfl hname.learned hgroup (fun _ => hname)
    have hsame : ns'.addresses = ns.addresses := by
      rw [NetbiosNs.addresses, hwaits.entryQueue, NetbiosNs.addresses]
    rw [hsame]
    exact h.findIp_none hnone

end Invariant

/-! ## Runs -/

/-- The invariant of the whole system. -/
structure NsInv (s : NsSystem) : Prop where
  cache : CacheInv s.ns
  clean : s.thread.clean

theorem discoverNb_clean (ns : NetbiosNs) (ip : UInt32) (now : Int) :
    (discoverNb ns ip now).1.clean := by
  rw [discoverNb]
  split
  · rfl
  · trivial

theorem discoverNbstat_pc (ns : NetbiosNs) (addr : UInt32) (name : Nat) (group : Option Nat)
    (type : UInt8) (now : Int) :
    (discoverNbstat ns addr name group type now).1 = .recv .invalid := by
  rw [discoverNbstat]
  split
  · rfl
  · dsimp only
    split
    · rfl
    · rfl

theorem NsInv.thread {s : NsSystem} (h : NsInv s) (env : ThreadEnv) :
    NsInv (s.step (.thread env)) := by
  have hstep := discoverThread_cases s.ns env h.clean
  rw [NsSystem.step]
  generalize netbiosNsDiscoverThread s.thread s.ns env = r at hstep ⊢
  cases hstep with
  | waits hclean hwaits => exact ⟨h.cache.waits hwaits, hclean⟩
  | expire => exact ⟨h.cache.expire env.now, trivial⟩
  | @nb sender bytes =>
    have hreceived := h.cache.received sender (inBuffer bytes)
    exact ⟨hreceived.discoverNb sender env.now, discoverNb_clean _ _ _⟩
  | @nbstat sender bytes name group type hrun hevent htells =>
    have hreceived := h.cache.received sender (inBuffer bytes)
    have hmem : .datagram sender (inBuffer bytes) ∈ (s.ns.received sender (inBuffer bytes)).log :=
      by simp [NetbiosNs.received, NetbiosNs.note]
    refine ⟨hreceived.discoverNbstat hmem htells env.now, ?_⟩
    rw [discoverNbstat_pc]
    rfl

theorem NsInv.step {s : NsSystem} (h : NsInv s) (a : NsAction) : NsInv (s.step a) := by
  cases a with
  | thread env => exact h.thread env
  | resolve name type env events =>
    rw [NsSystem.step]
    split
    · exact h
    · exact ⟨h.cache.waits (resolve_waits s.ns name type env events), h.clean⟩
  | inverse ip env events =>
    rw [NsSystem.step]
    split
    · exact h
    · next hcall =>
      exact ⟨h.cache.inverse env events fun hip => hcall (Or.inl hip), h.clean⟩
  | discoverStart broadcastTimeout callbacks created =>
    rw [NsSystem.step, netbiosNsDiscoverStart]
    split_ifs
    · exact h
    · exact h
    · exact ⟨h.cache.of_eq rfl (List.Subset.refl _), trivial⟩
    · exact ⟨h.cache.of_eq rfl (List.Subset.refl _), h.clean⟩
  | discoverStop =>
    rw [NsSystem.step, netbiosNsDiscoverStop]
    split_ifs
    · exact h
    · exact ⟨h.cache.of_eq rfl (List.Subset.refl _), h.clean⟩
    · exact h
  | joined =>
    rw [NsSystem.step, netbiosNsDiscoverJoined]
    split_ifs
    · exact ⟨h.cache.of_eq rfl (List.Subset.refl _), h.clean⟩
    · exact h
  | abort => exact ⟨h.cache.of_eq rfl (List.Subset.refl _), h.clean⟩

theorem NsInv.new (rand : UInt16) : NsInv (NsSystem.new rand) := ⟨.new rand, trivial⟩

/-- The invariant holds in every state that a run reaches. -/
theorem NsInv.run (rand : UInt16) (as : List NsAction) :
    NsInv (as.foldl NsSystem.step (NsSystem.new rand)) := by
  induction as using List.reverseRecOn with
  | nil => exact .new rand
  | append_singleton as a ih =>
    rw [List.foldl_append]
    exact ih.step a

/-! ## The order of the queue -/

/-- Entries may have left the queue, or one for a new address has come in at its head. -/
def Grows (ns ns' : NetbiosNs) : Prop :=
  ns'.addresses.Sublist ns.addresses ∨
    ∃ ip, ip ∉ ns.addresses ∧ ns'.addresses = ip :: ns.addresses

theorem Grows.of_eq {ns ns' : NetbiosNs} (h : ns'.entryQueue = ns.entryQueue) : Grows ns ns' := by
  refine Or.inl ?_
  rw [NetbiosNs.addresses, h, NetbiosNs.addresses]

theorem updateEntry_addresses (ns : NetbiosNs) (ip : UInt32)
    {f : NetbiosNsEntry → NetbiosNsEntry} (h : ∀ e, (f e).address = e.address) :
    (ns.updateEntry ip f).addresses = ns.addresses :=
  map_updateFirst fun e _ => h e

theorem discoverNb_grows {ns : NetbiosNs} (h : CacheInv ns) (ip : UInt32) (now : Int) :
    Grows ns (discoverNb ns ip now).2 := by
  have htouch (ns' : NetbiosNs) :
      (ns'.updateEntry ip fun e => { e with lastTimeSeen := now }).addresses = ns'.addresses :=
    updateEntry_addresses ns' ip fun e => rfl
  have hqueue : (discoverNb ns ip now).2.addresses =
      (if (netbiosNsEntryFindIp ns ip).isNone then
        netbiosNsEntryAdd ns ((netbiosNsEntryFindIp ns ip).getD (netbiosNsEntryNew ip))
        else ns).addresses := by
    rw [discoverNb]
    split
    · exact htouch _
    · exact htouch _
  rw [Grows, hqueue]
  cases hfind : netbiosNsEntryFindIp ns ip with
  | none => exact Or.inr ⟨ip, h.findIp_none hfind, rfl⟩
  | some e => exact Or.inl (List.Sublist.refl _)

theorem discoverNbstat_grows (ns : NetbiosNs) (addr : UInt32) (name : Nat) (group : Option Nat)
    (type : UInt8) (now : Int) : Grows ns (discoverNbstat ns addr name group type now).2 := by
  refine Or.inl ?_
  rw [discoverNbstat]
  split
  · exact List.Sublist.refl _
  · have hupdate : (ns.updateEntry addr fun e =>
        netbiosNsEntrySetName ns.buffer { e with lastTimeSeen := now } (some name) group
          type).addresses.Sublist ns.addresses := by
      rw [updateEntry_addresses]
      intro e
      rfl
    dsimp only
    split
    · exact hupdate
    · exact hupdate

theorem inverse_grows {ns : NetbiosNs} (h : CacheInv ns) (env : QueryEnv)
    (events : List RecvEvent) {ip : UInt32} (hip : ip ≠ 0) :
    Grows ns (netbiosNsInverse ns ip env events).2 := by
  rw [netbiosNsInverse]
  rcases inverse_cases ns env events hip with ⟨cached, -, heq⟩ | ⟨-, -, hwaits⟩ |
    ⟨hnone, ns', bytes, name, group, type, hwaits, -, hmem, htells, heq⟩
  · rw [heq]
    exact .of_eq rfl
  · exact .of_eq hwaits.entryQueue
  · rw [heq]
    refine Or.inr ⟨ip, h.findIp_none hnone, ?_⟩
    rw [NetbiosNs.addresses, netbiosNsEntryAdd, hwaits.entryQueue]
    rfl

theorem step_grows {s : NsSystem} (h : NsInv s) (a : NsAction) : Grows s.ns (s.step a).ns := by
  cases a with
  | thread env =>
    have hstep := discoverThread_cases s.ns env h.clean
    rw [NsSystem.step]
    generalize netbiosNsDiscoverThread s.thread s.ns env = r at hstep ⊢
    cases hstep with
    | waits hclean hwaits => exact .of_eq hwaits.entryQueue
    | expire => exact Or.inl (List.filter_sublist.map _)
    | nb => exact discoverNb_grows (h.cache.received _ _) _ env.now
    | nbstat => exact discoverNbstat_grows _ _ _ _ _ _
  | resolve name type env events =>
    rw [NsSystem.step]
    split
    · exact .of_eq rfl
    · exact .of_eq (resolve_waits s.ns name type env events).entryQueue
  | inverse ip env events =>
    rw [NsSystem.step]
    split
    · exact .of_eq rfl
    · next hcall => exact inverse_grows h.cache env events fun hip => hcall (Or.inl hip)
  | discoverStart broadcastTimeout callbacks created =>
    rw [NsSystem.step, netbiosNsDiscoverStart]
    split_ifs <;> exact .of_eq rfl
  | discoverStop =>
    rw [NsSystem.step, netbiosNsDiscoverStop]
    split_ifs <;> exact .of_eq rfl
  | joined =>
    rw [NsSystem.step, netbiosNsDiscoverJoined]
    split_ifs <;> exact .of_eq rfl
  | abort => exact .of_eq rfl

/-- The addresses that an action brings into the queue. -/
def NsSystem.addition (s : NsSystem) (a : NsAction) : List UInt32 :=
  (s.step a).ns.addresses.filter (· ∉ s.ns.addresses)

/-- The addresses brought into the queue over a run, the last one first. -/
def additions : NsSystem → List NsAction → List UInt32
  | _, [] => []
  | s, a :: as => additions (s.step a) as ++ s.addition a

theorem step_addresses {s : NsSystem} (h : NsInv s) (a : NsAction) :
    (s.step a).ns.addresses.Sublist (s.addition a ++ s.ns.addresses) := by
  rcases step_grows h a with hsub | ⟨ip, hfresh, heq⟩
  · exact hsub.trans (List.sublist_append_right _ _)
  · have hadd : s.addition a = [ip] := by
      rw [NsSystem.addition, heq, List.filter_cons_of_pos (by simpa using hfresh),
        List.filter_eq_nil_iff.mpr (by simp)]
    rw [heq, hadd]
    exact List.Sublist.refl _

/-- The queue is in the order in which its entries were added. -/
theorem run_addresses {s : NsSystem} (h : NsInv s) (as : List NsAction) :
    (as.foldl NsSystem.step s).ns.addresses.Sublist (additions s as ++ s.ns.addresses) := by
  induction as generalizing s with
  | nil => exact List.Sublist.refl _
  | cons a as ih =>
    rw [List.foldl_cons, additions, List.append_assoc]
    exact (ih (h.step a)).trans ((List.Sublist.refl _).append (step_addresses h a))

/-! ## The cache in every reachable state -/

theorem nameFieldOf_length {d : List UInt8} {i : Nat} (hd : IsNbstat d) (hi : i < nameCountOf d) :
    (nameFieldOf d i).length = netbiosNameLength := by
  obtain ⟨⟨-, hfits⟩, -, -, hcount⟩ := hd
  simp only [nameFieldOf, List.length_take, List.length_drop, netbiosNameLength]
  omega

theorem Learned.terminated {log : List NsEvent} {ip : UInt32} {bytes : List UInt8}
    (h : Learned log ip bytes) :
    bytes.length = netbiosNameLength + 1 ∧ bytes.getLast? = some 0 := by
  rcases h with rfl | ⟨d, field, -, ⟨hd, i, hi, rfl⟩, rfl⟩
  · exact ⟨List.length_replicate, by decide⟩
  · exact ⟨by rw [trimmedName_length, nameFieldOf_length hd hi], by simp [trimmedName]⟩

/-- An NBSTAT answer from a host without an entry. -/
theorem unknown_nbstat {s : NsSystem} (h : NsInv s) {out : NetbiosNsNameQuery} {env : ThreadEnv}
    {sender : UInt32} {bytes : List UInt8} (hpc : s.thread = .recv out)
    (hrun : s.ns.aborted = false) (hevent : env.recv = .datagram sender bytes)
    (hnbstat : IsNbstat (inBuffer bytes)) (hnone : netbiosNsEntryFindIp s.ns sender = none) :
    s.step (.thread env) = { s with ns := s.ns.received sender (inBuffer bytes) } := by
  obtain ⟨ns, thread, stopping⟩ := s
  dsimp only at hpc hrun hnone
  subst hpc
  obtain rfl : out = .invalid := h.clean
  have hturn := recvTurn_cases ns (ns.discoverBroadcastTimeout == 0) false 0 env.recv
  have haccept : rejects (ns.expects false) 0 env.recv = false := by
    rw [hevent]
    have hacc : Accepted none (inBuffer bytes) := ⟨hnbstat.1, fun _ => hnbstat, by simp⟩
    simp only [rejects]
    simpa [NetbiosNs.expects] using hacc
  rw [NsSystem.step, netbiosNsDiscoverThread]
  generalize netbiosNsRecvTurn ns _ false 0 .invalid env.recv = t at hturn ⊢
  cases hturn with
  | quit _ _ _ _ _ hcause => exact absurd hevent (hcause.resolve_left (by simp [hrun]) _ _)
  | timeout htimeout => simp [hevent] at htimeout
  | idle htimeout => simp [hevent] at htimeout
  | rejected _ _ _ hreject => simp [haccept] at hreject
  | accepted _ _ query _ hevent' _ htells =>
    rw [hevent] at hevent'
    cases hevent'
    have hlen : 56 ≤ (inBuffer bytes).length := by
      have := hnbstat.1.2
      omega
    dsimp only
    rw [if_neg (by omega), if_neg (by omega)]
    cases query with
    | invalid => rfl
    | nb ip => exact absurd (hnbstat.2.1.symm.trans htells.1.2) (by decide)
    | nbstat name group type =>
      have hnone' : netbiosNsEntryFindIp (ns.received sender (inBuffer bytes)) sender = none :=
        hnone
      rw [discoverAnswer, discoverNbstat, hnone']

/-- The cache in every state that a run of the public calls and of the discovery thread reaches:
one entry for each address, its names empty or received from that address and terminated, the
queue in the order of addition; an NBSTAT answer from an unknown host changes nothing but the
receive buffer; and a name held by an entry is resolved to the entry added last, without a
query. -/
theorem name_cache (rand : UInt16) (as : List NsAction) :
    let s := as.foldl NsSystem.step (NsSystem.new rand)
    s.ns.addresses.Nodup ∧ s.ns.addresses.Sublist (additions (NsSystem.new rand) as) ∧
    (∀ e ∈ s.ns.entryQueue, ∀ bytes ∈ [e.name, e.group],
      bytes.length = netbiosNameLength + 1 ∧ bytes.getLast? = some 0 ∧
      (bytes = List.replicate (netbiosNameLength + 1) 0 ∨ ∃ d field,
        .datagram e.address d ∈ s.ns.log ∧ NbstatField d field ∧ bytes = trimmedName field)) ∧
    (∀ out env sender bytes, s.thread = .recv out → s.ns.aborted = false →
      env.recv = .datagram sender bytes → IsNbstat (inBuffer bytes) → sender ∉ s.ns.addresses →
      s.step (.thread env) = { s with ns := s.ns.received sender (inBuffer bytes) }) ∧
    (∀ name type env events, (∃ e ∈ s.ns.entryQueue, e.hasName name = true) →
      ∃ newer e older, s.ns.entryQueue = newer ++ e :: older ∧ e.hasName name = true ∧
        (∀ e' ∈ newer, e'.hasName name = false) ∧
        netbiosNsResolve s.ns name type env events = (some e.address, s.ns)) := by
  intro s
  have hinv : NsInv s := .run rand as
  have horder := run_addresses (.new rand) as
  have hempty : (NsSystem.new rand).ns.addresses = [] := rfl
  rw [hempty, List.append_nil] at horder
  refine ⟨hinv.cache.nodup, horder, ?_, ?_, ?_⟩
  · intro e he bytes hbytes
    have hlearned : Learned s.ns.log e.address bytes := by
      rcases List.mem_pair.mp hbytes with rfl | rfl
      · exact hinv.cache.name e he
      · exact hinv.cache.group e he
    exact ⟨hlearned.terminated.1, hlearned.terminated.2, hlearned⟩
  · intro out env sender bytes hpc hrun hevent hnbstat hunknown
    apply unknown_nbstat hinv hpc hrun hevent hnbstat
    rw [netbiosNsEntryFindIp, List.find?_eq_none]
    intro e he hip
    rw [NetbiosNsEntry.hasIp, Bool.and_eq_true, beq_iff_eq] at hip
    exact hunknown (hip.2 ▸ List.mem_map_of_mem he)
  · intro name type env events ⟨e, he, hname⟩
    have hsome : (netbiosNsEntryFindName s.ns name).isSome = true :=
      List.find?_isSome.mpr ⟨e, he, hname⟩
    obtain ⟨e, hfind⟩ := Option.isSome_iff_exists.mp hsome
    obtain ⟨hholds, newer, older, hqueue, hnewer⟩ := List.find?_eq_some_iff_append.mp hfind
    refine ⟨newer, e, older, hqueue, hholds, by simpa using hnewer, ?_⟩
    rw [netbiosNsResolve, hfind]

/-- Two hosts of one name: it is resolved to the one that was looked up last. -/
example :
    let as : List NsAction := [.inverse 9 .up [.datagram 9 (nbstatAnswer 1 (ascii "NAS"))],
      .inverse 8 .up [.datagram 8 (nbstatAnswer 2 (ascii "NAS"))]]
    let s := as.foldl NsSystem.step (NsSystem.new 0)
    s.ns.addresses = [8, 9] ∧
      (netbiosNsResolve s.ns (ascii "NAS") netbiosFileserver .up []).1 = some 8 := by
  decide +kernel

/-! ## Names handed out -/

/-- A call of `netbios_ns_inverse` that the assertions allow. -/
def NsSystem.inverts (s : NsSystem) (a : NsAction) (ip : UInt32) (env : QueryEnv)
    (events : List RecvEvent) : Prop :=
  a = .inverse ip env events ∧ ip ≠ 0 ∧ s.ns.discoverStarted = false

/-- What is handed out for an address is a name that the address has sent in an NBSTAT answer, and
an entry that has no name yet is not reported as having one. -/
def HandsOutLearned (s : NsSystem) (a : NsAction) : Prop :=
  ∀ ip env events, s.inverts a ip env events →
    (∀ name, (netbiosNsInverse s.ns ip env events).1 = some name →
      LearnedName (s.step a).ns.log ip name) ∧
    (∀ e, netbiosNsEntryFindIp s.ns ip = some e → e.validName = false →
      (netbiosNsInverse s.ns ip env events).1 = none)

/-- The entry that the cache holds for the address, if any, has its name. -/
def CachedHasName (s : NsSystem) (a : NsAction) : Prop :=
  ∀ ip env events, s.inverts a ip env events →
    ∀ e, netbiosNsEntryFindIp s.ns ip = some e → e.validName = true

theorem inverse_learned {ns : NetbiosNs} (h : CacheInv ns) {ip : UInt32} (hip : ip ≠ 0)
    (env : QueryEnv) (events : List RecvEvent)
    (hcached : ∀ e, netbiosNsEntryFindIp ns ip = some e → e.validName = true) {name : List UInt8}
    (hname : (netbiosNsInverse ns ip env events).1 = some name) :
    LearnedName (netbiosNsInverse ns ip env events).2.log ip name := by
  rw [netbiosNsInverse] at hname ⊢
  rcases inverse_cases ns env events hip with ⟨cached, hfind, heq⟩ | ⟨-, heq, -⟩ |
    ⟨-, ns', bytes, nameOff, group, type, -, -, hmem, htells, heq⟩
  · rw [heq] at hname ⊢
    cases hname
    obtain ⟨hcache, rfl⟩ := findIp_some hfind
    exact h.named cached hcache (hcached cached hfind)
  · rw [heq] at hname
    cases hname
  · rw [heq] at hname ⊢
    cases hname
    exact ⟨inBuffer bytes, _, hmem, htells.1, inverseEntry_name ns'.buffer ip nameOff group type⟩

theorem inverse_cached {ns : NetbiosNs} {ip : UInt32} {e : NetbiosNsEntry}
    (hfind : netbiosNsEntryFindIp ns ip = some e) (env : QueryEnv) (events : List RecvEvent) :
    netbiosNsInverse ns ip env events = (some e.name, ns) := by
  rw [netbiosNsInverse, netbiosNsInverseInternal, hfind]
  rfl

theorem handsOutLearned_iff {s : NsSystem} (h : NsInv s) (a : NsAction) :
    HandsOutLearned s a ↔ CachedHasName s a := by
  constructor
  · intro hout ip env events hcall e hfind
    by_contra hnot
    have hnull := (hout ip env events hcall).2 e hfind (by simpa using hnot)
    rw [inverse_cached hfind] at hnull
    cases hnull
  · rintro hcached ip env events ⟨rfl, hip, hstarted⟩
    have hhas := hcached ip env events ⟨rfl, hip, hstarted⟩
    refine ⟨?_, ?_⟩
    · intro name hname
      rw [NsSystem.step, if_neg (by simp [hip, hstarted])]
      exact inverse_learned h.cache hip env events hhas hname
    · intro e hfind hvalid
      rw [hhas e hfind] at hvalid
      cases hvalid

/-- In every run, the names that the inverse lookups hand out are learned exactly if no lookup
meets an entry that has no name. -/
theorem handsOut_learned_iff (rand : UInt16) (as : List NsAction) :
    Along NsSystem.step HandsOutLearned (NsSystem.new rand) as ↔
      Along NsSystem.step CachedHasName (NsSystem.new rand) as :=
  along_congr (fun _ a h => handsOutLearned_iff h a) (fun _ a h _ => h.step a) (.new rand)

/-- A step of the thread in which only the datagram from `sender` matters. -/
def ThreadEnv.hearing (sender : UInt32) (bytes : List UInt8) (now : Int) : ThreadEnv where
  selectFails := false
  now := now
  query := .up
  recv := .datagram sender bytes

/-- Discovery hears an NB answer of host `9`, and is stopped before the host tells its name. -/
def nbOnlyRun : List NsAction :=
  [.discoverStart 1 true true, .thread (.hearing 9 (nbAnswer 1) 100),
    .thread (.hearing 9 (nbAnswer 1) 100), .thread (.hearing 9 (nbAnswer 1) 100), .discoverStop,
    .thread (.hearing 9 (nbAnswer 1) 100), .joined]

/-- A lookup of that host then hands out the empty string, although nothing but the NB answer was
ever received from it. -/
theorem nbOnly_handed_out :
    (netbiosNsInverse (nbOnlyRun.foldl NsSystem.step (NsSystem.new 0)).ns 9 .up []).1 =
        some (List.replicate 16 0) ∧
      ¬ Along NsSystem.step HandsOutLearned (NsSystem.new 0)
        (nbOnlyRun ++ [.inverse 9 .up []]) := by
  have hname : (netbiosNsInverse (nbOnlyRun.foldl NsSystem.step (NsSystem.new 0)).ns 9 .up []).1 =
      some (List.replicate 16 0) := by decide +kernel
  have hidle : (nbOnlyRun.foldl NsSystem.step (NsSystem.new 0)).ns.discoverStarted = false := by
    decide +kernel
  have hlog : ((nbOnlyRun.foldl NsSystem.step (NsSystem.new 0)).step (.inverse 9 .up [])).ns.log =
      [.query 0xff00000a (nameQueryPacket (netbiosNsNew 0) .nb nameQueryBroadcast 0).bytes,
        .datagram 9 (nbAnswer 1), .abortSeen] := by decide +kernel
  refine ⟨hname, ?_⟩
  intro hrun
  obtain ⟨d, field, hmem, hnbstat, -⟩ :=
    (hrun.last 9 .up [] ⟨rfl, by decide, hidle⟩).1 _ hname
  rw [hlog] at hmem
  have hd : d = nbAnswer 1 := by simpa using hmem
  have hnot : ¬ IsNbstat (nbAnswer 1) := by decide +kernel
  exact hnot (hd ▸ hnbstat.1)

end Libdsm
