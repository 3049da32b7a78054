import Libdsm.Netbios.Proofs.NameCache

/-!
# Discovery callbacks

For each address the callbacks should alternate, `pf_on_entry_added` first. The thread takes "has
a name" for "was announced", which is wrong of the entries that inverse lookups have left in the
queue before discovery started: `Announced` is the invariant with these addresses set apart, and
it survives as long as none of their entries expires.
-/

namespace Libdsm

/-! ## Alternating callbacks -/

/-- The sequence alternates, with `next` at its start. -/
def Alternates : Bool → List Bool → Prop
  | _, [] => True
  | next, b :: bs => b = next ∧ Alternates (!next) bs

/-- What an alternating sequence goes on with. -/
def nextOf : Bool → List Bool → Bool
  | next, [] => next
  | _, b :: bs => nextOf (!b) bs

theorem alternates_concat (next : Bool) (bs : List Bool) (b : Bool) :
    Alternates next (bs ++ [b]) ↔ Alternates next bs ∧ b = nextOf next bs := by
  induction bs generalizing next with
  | nil => simp [Alternates, nextOf]
  | cons c bs ih =>
    rw [List.cons_append, Alternates, Alternates, nextOf, ih, and_assoc]
    apply and_congr_right
    rintro rfl
    rfl

theorem nextOf_concat (next : Bool) (bs : List Bool) (b : Bool) :
    nextOf next (bs ++ [b]) = !b := by
  induction bs generalizing next with
  | nil => rfl
  | cons c bs ih => exact ih _

/-- The callback of an event for `ip`: `true` for `pf_on_entry_added`, `false` for
`pf_on_entry_removed`. -/
def callbackOf (ip : UInt32) : NsEvent → Option Bool
  | .entryAdded e => if e.address = ip then some true else none
  | .entryRemoved e => if e.address = ip then some false else none
  | .query _ _ | .datagram _ _ | .abortSeen => none

/-- The callbacks for `ip`, in order. -/
def callbacksFor (ip : UInt32) (log : List NsEvent) : List Bool := log.filterMap (callbackOf ip)

theorem callbacksFor_append (ip : UInt32) (log log' : List NsEvent) :
    callbacksFor ip (log ++ log') = callbacksFor ip log ++ callbacksFor ip log' :=
  List.filterMap_append

/-- Nothing that the socket does is a callback. -/
theorem callbacksFor_ofSocket {events : List NsEvent} {aborted : Bool}
    (h : ∀ e ∈ events, e.ofSocket aborted) (ip : UInt32) : callbacksFor ip events = [] := by
  rw [callbacksFor, List.filterMap_eq_nil_iff]
  intro e he
  cases e with
  | abortSeen | query | datagram => rfl
  | entryAdded | entryRemoved => exact absurd (h _ he) id

theorem Waits.callbacksFor {raised : Prop} {ns ns' : NetbiosNs} (h : Waits raised ns ns')
    (ip : UInt32) : callbacksFor ip ns'.log = callbacksFor ip ns.log := by
  obtain ⟨events, heq, hall⟩ := h.log
  rw [heq, callbacksFor_append, callbacksFor_ofSocket hall, List.append_nil]

/-- The removals of entries with different addresses. -/
theorem callbacksFor_removed {entries : List NetbiosNsEntry}
    (h : (entries.map NetbiosNsEntry.address).Nodup) (ip : UInt32) :
    callbacksFor ip (entries.map .entryRemoved) =
      if ip ∈ entries.map NetbiosNsEntry.address then [false] else [] := by
  induction entries with
  | nil => rfl
  | cons e entries ih =>
    rw [List.map_cons, List.nodup_cons] at h
    have hrest := ih h.2
    rw [callbacksFor] at hrest ⊢
    rw [List.map_cons, List.filterMap_cons, hrest, callbackOf]
    by_cases heq : e.address = ip
    · subst heq
      simp [h.1]
    · have hne : ip ≠ e.address := fun h => heq h.symm
      simp [heq, hne]

/-! ## Announced entries -/

/-- The entries with what the thread knows of them. -/
def NetbiosNs.marks (ns : NetbiosNs) : List (UInt32 × Bool) :=
  ns.entryQueue.map fun e => (e.address, e.validName)

/-- An entry for `ip` has a name. -/
def NetbiosNs.Named (ns : NetbiosNs) (ip : UInt32) : Prop := (ip, true) ∈ ns.marks

theorem named_iff {ns : NetbiosNs} {ip : UInt32} :
    ns.Named ip ↔ ∃ e ∈ ns.entryQueue, e.address = ip ∧ e.validName = true := by
  simp [NetbiosNs.Named, NetbiosNs.marks]

theorem CacheInv.not_named {ns : NetbiosNs} (h : CacheInv ns) {ip : UInt32} {e : NetbiosNsEntry}
    (hfind : netbiosNsEntryFindIp ns ip = some e) (hnot : e.validName = false) :
    ¬ ns.Named ip := by
  rw [named_iff]
  rintro ⟨e', he', haddr, hvalid⟩
  rw [h.findIp_unique hfind he' haddr, hnot] at hvalid
  cases hvalid

/-- The callbacks so far alternate for every address, and the addresses announced and not yet
withdrawn have a name in the queue and are not among the inherited ones. While the thread runs
these are all such addresses. -/
structure Announced (inherited : List UInt32) (ns : NetbiosNs) : Prop where
  alternates : ∀ ip, Alternates true (callbacksFor ip ns.log)
  announced : ∀ ip, nextOf true (callbacksFor ip ns.log) = false →
    ns.Named ip ∧ ip ∉ inherited
  complete : ns.aborted = false → ∀ ip, ns.Named ip → ip ∉ inherited →
    nextOf true (callbacksFor ip ns.log) = false
  inherited : ∀ ip ∈ inherited, ns.Named ip

section Announced

variable {inherited : List UInt32} {ns ns' : NetbiosNs}

/-- The queue has the same names and no callback was made. -/
theorem Announced.of_marks (h : Announced inherited ns) (hmarks : ∀ ip, ns'.Named ip ↔ ns.Named ip)
    (hlog : ∀ ip, callbacksFor ip ns'.log = callbacksFor ip ns.log)
    (hkeep : ns.aborted = true → ns'.aborted = true) : Announced inherited ns' where
  alternates ip := hlog ip ▸ h.alternates ip
  announced ip := by
    rw [hlog, hmarks]
    exact h.announced ip
  complete hrun ip := by
    rw [hlog, hmarks]
    apply h.complete
    by_contra habort
    rw [hkeep (by simpa using habort)] at hrun
    cases hrun
  inherited ip hip := (hmarks ip).mpr (h.inherited ip hip)

theorem Announced.waits {raised : Prop} (h : Announced inherited ns) (hwaits : Waits raised ns ns') :
    Announced inherited ns' := by
  apply h.of_marks _ hwaits.callbacksFor hwaits.keep
  intro ip
  rw [NetbiosNs.Named, NetbiosNs.marks, hwaits.entryQueue, NetbiosNs.Named, NetbiosNs.marks]

theorem Announced.received (h : Announced inherited ns) (sender : UInt32) (d : List UInt8) :
    Announced inherited (ns.received sender d) := by
  have hwaits : Waits False ns (ns.received sender d) := received_waits ns sender d
  exact h.waits hwaits

/-- The addresses whose removal an expiry reports. -/
def NetbiosNs.withdrawn (ns : NetbiosNs) (now : Int) : List UInt32 :=
  (ns.entryQueue.filter fun e => ns.expired now e && e.validName).map NetbiosNsEntry.address

theorem mem_withdrawn {now : Int} {ip : UInt32} :
    ip ∈ ns.withdrawn now ↔ ∃ e ∈ ns.entryQueue, ns.expired now e = true ∧ e.validName = true ∧
      e.address = ip := by
  simp [NetbiosNs.withdrawn, and_assoc]

theorem expire_callbacksFor (h : CacheInv ns) (now : Int) (ip : UInt32) :
    callbacksFor ip (discoverExpire ns now).log =
      callbacksFor ip ns.log ++ if ip ∈ ns.withdrawn now then [false] else [] := by
  have hnodup : (ns.withdrawn now).Nodup := h.nodup.sublist (List.filter_sublist.map _)
  rw [discoverExpire, callbacksFor_append, callbacksFor_removed hnodup, NetbiosNs.withdrawn]

theorem expire_named {now : Int} {ip : UInt32} :
    (discoverExpire ns now).Named ip ↔
      ∃ e ∈ ns.entryQueue, ns.expired now e = false ∧ e.address = ip ∧ e.validName = true := by
  rw [named_iff]
  simp [discoverExpire, and_assoc]

/-- An expiry that takes no inherited entry with a name. -/
theorem Announced.expire (h : Announced inherited ns) (hcache : CacheInv ns)
    (hrun : ns.aborted = false) {now : Int} (hstay : ∀ ip ∈ ns.withdrawn now, ip ∉ inherited) :
    Announced inherited (discoverExpire ns now) := by
  have hopen (ip) (hip : ip ∈ ns.withdrawn now) : nextOf true (callbacksFor ip ns.log) = false := by
    obtain ⟨e, he, -, hvalid, haddr⟩ := mem_withdrawn.mp hip
    exact h.complete hrun ip (named_iff.mpr ⟨e, he, haddr, hvalid⟩) (hstay ip hip)
  have hgone (ip) (hip : ip ∈ ns.withdrawn now) : ¬ (discoverExpire ns now).Named ip := by
    obtain ⟨e, he, hexp, -, haddr⟩ := mem_withdrawn.mp hip
    rw [expire_named]
    rintro ⟨e', he', hnot, haddr', -⟩
    have heq : e' = e := List.inj_on_of_nodup_map hcache.nodup he' he (haddr'.trans haddr.symm)
    rw [heq, hexp] at hnot
    cases hnot
  have hkept (ip) (hip : ip ∉ ns.withdrawn now) :
      (discoverExpire ns now).Named ip ↔ ns.Named ip := by
    rw [expire_named, named_iff]
    constructor
    · rintro ⟨e, he, -, haddr, hvalid⟩
      exact ⟨e, he, haddr, hvalid⟩
    · rintro ⟨e, he, haddr, hvalid⟩
      refine ⟨e, he, ?_, haddr, hvalid⟩
      by_contra hexp
      exact hip (mem_withdrawn.mpr ⟨e, he, by simpa using hexp, hvalid, haddr⟩)
  refine ⟨?_, ?_, ?_, ?_⟩
  · intro ip
    rw [expire_callbacksFor hcache]
    by_cases hip : ip ∈ ns.withdrawn now
    · rw [if_pos hip, alternates_concat]
      exact ⟨h.alternates ip, (hopen ip hip).symm⟩
    · rw [if_neg hip, List.append_nil]
      exact h.alternates ip
  · intro ip
    rw [expire_callbacksFor hcache]
    by_cases hip : ip ∈ ns.withdrawn now
    · rw [if_pos hip, nextOf_concat]
      intro hclosed
      cases hclosed
    · rw [if_neg hip, List.append_nil, hkept ip hip]
      exact h.announced ip
  · intro _ ip hnamed hnot
    have hip : ip ∉ ns.withdrawn now := fun hip => hgone ip hip hnamed
    rw [expire_callbacksFor hcache, if_neg hip, List.append_nil]
    exact h.complete hrun ip ((hkept ip hip).mp hnamed) hnot
  · intro ip hinh
    have hip : ip ∉ ns.withdrawn now := fun hip => hstay ip hip hinh
    exact (hkept ip hip).mpr (h.inherited ip hinh)

theorem discoverNb_frame (ns : NetbiosNs) (ip : UInt32) (now : Int) :
    (discoverNb ns ip now).2.log = ns.log ∧ (discoverNb ns ip now).2.aborted = ns.aborted ∧
      (discoverNb ns ip now).2.discoverStarted = ns.discoverStarted := by
  rw [discoverNb]
  cases netbiosNsEntryFindIp ns ip with
  | none => exact ⟨rfl, rfl, rfl⟩
  | some e =>
    split
    · exact ⟨rfl, rfl, rfl⟩
    · exact ⟨rfl, rfl, rfl⟩

/-- An NB answer names nobody. -/
theorem discoverNb_named (ns : NetbiosNs) (ip : UInt32) (now : Int) (x : UInt32) :
    (discoverNb ns ip now).2.Named x ↔ ns.Named x := by
  have htouch (ns' : NetbiosNs) :
      (ns'.updateEntry ip fun e => { e with lastTimeSeen := now }).marks = ns'.marks :=
    map_updateFirst fun e _ => rfl
  have hmarks : (discoverNb ns ip now).2.marks =
      (if (netbiosNsEntryFindIp ns ip).isNone then
        netbiosNsEntryAdd ns ((netbiosNsEntryFindIp ns ip).getD (netbiosNsEntryNew ip))
        else ns).marks := by
    rw [discoverNb]
    split
    · exact htouch _
    · exact htouch _
  rw [NetbiosNs.Named, hmarks]
  cases netbiosNsEntryFindIp ns ip with
  | none => simp [netbiosNsEntryAdd, NetbiosNs.marks, NetbiosNs.Named, netbiosNsEntryNew]
  | some e => exact Iff.rfl

theorem Announced.discoverNb (h : Announced inherited ns) (ip : UInt32) (now : Int) :
    Announced inherited (discoverNb ns ip now).2 := by
  obtain ⟨hlog, habort, -⟩ := discoverNb_frame ns ip now
  apply h.of_marks (discoverNb_named ns ip now)
  · intro x
    rw [hlog]
  · intro h
    rw [habort]
    exact h

section Naming

variable {ip : UInt32} {e : NetbiosNsEntry} {f : NetbiosNsEntry → NetbiosNsEntry}
variable (hfind : netbiosNsEntryFindIp ns ip = some e)
variable (haddr : ∀ e, (f e).address = e.address) (hvalid : ∀ e, (f e).validName = true)

include hfind haddr hvalid in
/-- A new name for an entry that has one. -/
theorem Announced.rename (h : Announced inherited ns) (hnamed : e.validName = true) :
    Announced inherited (ns.updateEntry ip f) := by
  have hmarks : (ns.updateEntry ip f).marks = ns.marks := by
    apply map_updateFirst
    intro e' hfind'
    have heq : e' = e := Option.some.inj (hfind'.symm.trans hfind)
    rw [heq, haddr, hvalid, hnamed]
  apply h.of_marks (fun x => by rw [NetbiosNs.Named, hmarks, NetbiosNs.Named])
  · intro x
    rfl
  · exact id

include hfind haddr hvalid in
/-- The entries with a name after one more got its name. -/
theorem updateEntry_named (x : UInt32) :
    (ns.updateEntry ip f).Named x ↔ ns.Named x ∨ x = ip := by
  have hip := (findIp_some hfind).2
  have hchanged : f e ∈ (ns.updateEntry ip f).entryQueue := updateFirst_mem hfind
  constructor
  · intro hx
    obtain ⟨e', he', haddr', hvalid'⟩ := named_iff.mp hx
    rcases mem_updateFirst he' with hold | ⟨b, hb, rfl⟩
    · exact Or.inl (named_iff.mpr ⟨e', hold, haddr', hvalid'⟩)
    · refine Or.inr ?_
      rw [← haddr', haddr, (findIp_some hb).2]
  · rintro (hx | rfl)
    · obtain ⟨e', he', haddr', hvalid'⟩ := named_iff.mp hx
      rcases mem_updateFirst_of_mem he' with hnew | hsame
      · exact named_iff.mpr ⟨e', hnew, haddr', hvalid'⟩
      · obtain rfl : e' = e := Option.some.inj (hsame.symm.trans hfind)
        exact named_iff.mpr ⟨f e', hchanged, (haddr e').trans haddr', hvalid e'⟩
    · exact named_iff.mpr ⟨f e, hchanged, (haddr e).trans hip, hvalid e⟩

include hfind haddr hvalid in
/-- A first name, and the callback for it. -/
theorem Announced.announce (h : Announced inherited ns) (hcache : CacheInv ns)
    (hnot : e.validName = false) :
    Announced inherited ((ns.updateEntry ip f).note (.entryAdded (f e))) := by
  have hunnamed : ¬ ns.Named ip := hcache.not_named hfind hnot
  have hfresh : ip ∉ inherited := fun hip => hunnamed (h.inherited ip hip)
  have hclosed : nextOf true (callbacksFor ip ns.log) = true := by
    by_contra hopen
    exact hunnamed (h.announced ip (by simpa using hopen)).1
  have hnamed (x) : ((ns.updateEntry ip f).note (.entryAdded (f e))).Named x ↔
      ns.Named x ∨ x = ip := updateEntry_named hfind haddr hvalid x
  have hself : callbacksFor ip ((ns.updateEntry ip f).note (.entryAdded (f e))).log =
      callbacksFor ip ns.log ++ [true] := by
    have hip : (f e).address = ip := (haddr e).trans (findIp_some hfind).2
    rw [NetbiosNs.note, callbacksFor_append]
    simp [callbacksFor, callbackOf, hip, NetbiosNs.updateEntry]
  have hother (x) (hx : x ≠ ip) :
      callbacksFor x ((ns.updateEntry ip f).note (.entryAdded (f e))).log =
        callbacksFor x ns.log := by
    have hip : (f e).address ≠ x := by
      rw [haddr, (findIp_some hfind).2]
      exact fun h => hx h.symm
    rw [NetbiosNs.note, callbacksFor_append]
    simp [callbacksFor, callbackOf, hip, NetbiosNs.updateEntry]
  refine ⟨?_, ?_, ?_, ?_⟩
  · intro x
    by_cases hx : x = ip
    · subst hx
      rw [hself, alternates_concat]
      exact ⟨h.alternates x, hclosed.symm⟩
    · rw [hother x hx]
      exact h.alternates x
  · intro x hopen
    rw [hnamed]
    by_cases hx : x = ip
    · subst hx
      exact ⟨Or.inr rfl, hfresh⟩
    · rw [hother x hx] at hopen
      exact ⟨Or.inl (h.announced x hopen).1, (h.announced x hopen).2⟩
  · intro hrun x hx hnotinh
    by_cases heq : x = ip
    · subst heq
      rw [hself, nextOf_concat]
      rfl
    · rw [hother x heq]
      exact h.complete hrun x (((hnamed x).mp hx).resolve_right heq) hnotinh
  · intro x hx
    exact (hnamed x).mpr (Or.inl (h.inherited x hx))

end Naming

theorem Announced.discoverNbstat (h : Announced inherited ns) (hcache : CacheInv ns)
    (addr : UInt32) (name : Nat) (group : Option Nat) (type : UInt8) (now : Int) :
    Announced inherited (discoverNbstat ns addr name group type now).2 := by
  rw [Libdsm.discoverNbstat]
  cases hfind : netbiosNsEntryFindIp ns addr with
  | none => exact h
  | some e =>
    dsimp only
    by_cases hnamed : e.validName = true
    · rw [if_pos hnamed]
      exact h.rename hfind (fun _ => rfl) (fun _ => rfl) hnamed
    · rw [if_neg hnamed]
      exact h.announce hfind (fun _ => rfl) (fun _ => rfl) hcache (by simpa using hnamed)

theorem discoverNbstat_frame (ns : NetbiosNs) (addr : UInt32) (name : Nat) (group : Option Nat)
    (type : UInt8) (now : Int) :
    (discoverNbstat ns addr name group type now).2.aborted = ns.aborted ∧
      (discoverNbstat ns addr name group type now).2.discoverStarted = ns.discoverStarted := by
  rw [discoverNbstat]
  cases netbiosNsEntryFindIp ns addr with
  | none => exact ⟨rfl, rfl⟩
  | some e =>
    dsimp only
    split
    · exact ⟨rfl, rfl⟩
    · exact ⟨rfl, rfl⟩

/-- An inverse lookup after an abort may name what it likes: no entry expires any more. -/
theorem Announced.inverse (h : Announced inherited ns) (habort : ns.aborted = true)
    (env : QueryEnv) (events : List RecvEvent) {ip : UInt32} (hip : ip ≠ 0) :
    Announced inherited (netbiosNsInverse ns ip env events).2 := by
  rw [netbiosNsInverse]
  rcases inverse_cases ns env events hip with ⟨cached, -, heq⟩ | ⟨-, -, hwaits⟩ |
    ⟨-, ns', bytes, name, group, type, hwaits, -, -, -, heq⟩
  · rw [heq]
    exact h
  · exact h.waits hwaits
  · rw [heq]
    have h' := h.waits hwaits
    have hnamed (x) (hx : ns'.Named x) :
        (netbiosNsEntryAdd ns' (inverseEntry ns'.buffer ip name group type)).Named x :=
      List.mem_cons_of_mem _ hx
    refine ⟨h'.alternates, ?_, ?_, ?_⟩
    · intro x hopen
      exact ⟨hnamed x (h'.announced x hopen).1, (h'.announced x hopen).2⟩
    · intro hrun
      exact absurd ((hwaits.keep habort).symm.trans hrun) (by decide)
    · intro x hx
      exact hnamed x (h'.inherited x hx)

theorem inverse_aborted (ns : NetbiosNs) (env : QueryEnv) (events : List RecvEvent) {ip : UInt32}
    (hip : ip ≠ 0) (habort : ns.aborted = true) :
    (netbiosNsInverse ns ip env events).2.aborted = true := by
  rw [netbiosNsInverse]
  rcases inverse_cases ns env events hip with ⟨cached, -, heq⟩ | ⟨-, -, hwaits⟩ |
    ⟨-, ns', bytes, name, group, type, hwaits, -, -, -, heq⟩
  · rw [heq]
    exact habort
  · exact hwaits.keep habort
  · rw [heq]
    exact hwaits.keep habort

end Announced

/-! ## Runs of discovery -/

/-- The callbacks made so far, this action's included, alternate for every address. -/
def CallbacksAlternate (s : NsSystem) (a : NsAction) : Prop :=
  ∀ ip, Alternates true (callbacksFor ip (s.step a).ns.log)

/-- No entry of an inherited address expires with a name. -/
def InheritedStay (inherited : List UInt32) (s : NsSystem) (a : NsAction) : Prop :=
  ∀ env, a = .thread env → s.thread = .top → env.selectFails = false → s.ns.aborted = false →
    ∀ ip ∈ s.ns.withdrawn env.now, ip ∉ inherited

/-- The invariant of a run with discovery: whoever finds discovery not running finds the abort
flag set. -/
structure DiscoveryInv (inherited : List UInt32) (s : NsSystem) : Prop where
  inv : NsInv s
  announced : Announced inherited s.ns
  active : s.ns.discoverStarted = true ∨ s.ns.aborted = true
  stopping : s.stopping = true → s.ns.aborted = true

section DiscoveryInv

variable {inherited : List UInt32} {s : NsSystem}

theorem DiscoveryInv.thread (h : DiscoveryInv inherited s) {env : ThreadEnv}
    (hstay : InheritedStay inherited s (.thread env)) :
    DiscoveryInv inherited (s.step (.thread env)) := by
  have hinv := h.inv.thread env
  have hstep := discoverThread_cases s.ns env h.inv.clean
  rw [NsSystem.step] at hinv ⊢
  generalize netbiosNsDiscoverThread s.thread s.ns env = r at hinv hstep ⊢
  cases hstep with
  | waits hclean hwaits =>
    refine ⟨hinv, h.announced.waits hwaits, ?_, fun hs => hwaits.keep (h.stopping hs)⟩
    exact h.active.imp (hwaits.started.trans ·) hwaits.keep
  | expire hpc hrun hselect =>
    have hcond := hstay env rfl hpc hselect hrun
    exact ⟨hinv, h.announced.expire h.inv.cache hrun hcond, h.active, h.stopping⟩
  | @nb sender bytes =>
    obtain ⟨-, habort, hstarted⟩ :=
      discoverNb_frame (s.ns.received sender (inBuffer bytes)) sender env.now
    have hreceived := h.announced.received sender (inBuffer bytes)
    refine ⟨hinv, hreceived.discoverNb sender env.now, ?_, ?_⟩
    · exact h.active.imp (hstarted.trans ·) (habort.trans ·)
    · exact fun hs => habort.trans (h.stopping hs)
  | @nbstat sender bytes name group type =>
    obtain ⟨habort, hstarted⟩ := discoverNbstat_frame (s.ns.received sender (inBuffer bytes))
      sender name group type env.now
    have hreceived := h.announced.received sender (inBuffer bytes)
    refine ⟨hinv, hreceived.discoverNbstat (h.inv.cache.received _ _) _ _ _ _ _, ?_, ?_⟩
    · exact h.active.imp (hstarted.trans ·) (habort.trans ·)
    · exact fun hs => habort.trans (h.stopping hs)

/-- A change of flags that no callback depends on. -/
theorem Announced.of_flags {ns ns' : NetbiosNs} (h : Announced inherited ns)
    (hqueue : ns'.entryQueue = ns.entryQueue) (hlog : ns'.log = ns.log)
    (hkeep : ns.aborted = true → ns'.aborted = true) : Announced inherited ns' := by
  apply h.of_marks _ _ hkeep
  · intro ip
    rw [NetbiosNs.Named, NetbiosNs.marks, hqueue, NetbiosNs.Named, NetbiosNs.marks]
  · intro ip
    rw [hlog]

theorem DiscoveryInv.step (h : DiscoveryInv inherited s) {a : NsAction}
    (hstay : InheritedStay inherited s a) : DiscoveryInv inherited (s.step a) := by
  have hinv := h.inv.step a
  cases a with
  | thread env => exact h.thread hstay
  | resolve name type env events =>
    have hwaits := resolve_waits s.ns name type env events
    rw [NsSystem.step] at hinv ⊢
    split_ifs at hinv ⊢
    · exact h
    · refine ⟨hinv, h.announced.waits hwaits, ?_, fun hs => hwaits.keep (h.stopping hs)⟩
      exact h.active.imp (hwaits.started.trans ·) hwaits.keep
  | inverse ip env events =>
    rw [NsSystem.step] at hinv ⊢
    split_ifs at hinv ⊢ with hcall
    · exact h
    · rw [not_or, Bool.not_eq_true] at hcall
      have habort : s.ns.aborted = true := h.active.resolve_left (by simp [hcall.2])
      have hkeep := inverse_aborted s.ns env events hcall.1 habort
      exact ⟨hinv, h.announced.inverse habort env events hcall.1, Or.inr hkeep, fun _ => hkeep⟩
  | discoverStart broadcastTimeout callbacks created =>
    rw [NsSystem.step, netbiosNsDiscoverStart] at hinv ⊢
    split_ifs at hinv ⊢
    · exact h
    · exact h
    · exact ⟨hinv, h.announced.of_flags rfl rfl id, Or.inl rfl, h.stopping⟩
    · exact ⟨hinv, h.announced.of_flags rfl rfl id, h.active, h.stopping⟩
  | discoverStop =>
    rw [NsSystem.step, netbiosNsDiscoverStop] at hinv ⊢
    split_ifs at hinv ⊢
    · exact h
    · exact ⟨hinv, h.announced.of_flags rfl rfl fun _ => rfl, Or.inr rfl, fun _ => rfl⟩
    · exact h
  | joined =>
    rw [NsSystem.step, netbiosNsDiscoverJoined] at hinv ⊢
    split_ifs at hinv ⊢ with hjoin
    · have habort : s.ns.aborted = true := by
        apply h.stopping
        simp only [Bool.and_eq_true] at hjoin
        exact hjoin.1
      exact ⟨hinv, h.announced.of_flags rfl rfl id, Or.inr habort, fun _ => habort⟩
    · exact h
  | abort => exact ⟨hinv, h.announced.of_flags rfl rfl fun _ => rfl, Or.inr rfl, fun _ => rfl⟩

/-- An expiry that takes an inherited entry reports the removal of what was never announced. -/
theorem inheritedStay_of_alternate (h : DiscoveryInv inherited s) {a : NsAction}
    (halt : CallbacksAlternate s a) : InheritedStay inherited s a := by
  rintro env rfl hpc hselect hrun ip hip hinh
  have hlog : (s.step (.thread env)).ns = discoverExpire s.ns env.now := by
    rw [NsSystem.step, hpc, netbiosNsDiscoverThread, if_neg (by simp [hselect]),
      if_neg (by simp [hrun])]
  have hlast := halt ip
  rw [hlog, expire_callbacksFor h.inv.cache, if_pos hip, alternates_concat] at hlast
  exact (h.announced.announced ip hlast.2.symm).2 hinh

end DiscoveryInv

/-! ## Lookups before discovery -/

/-- A call of `netbios_ns_resolve` or `netbios_ns_inverse`. -/
def NsAction.isLookup : NsAction → Bool
  | .resolve .. | .inverse .. => true
  | .discoverStart .. | .discoverStop | .joined | .abort | .thread _ => false

/-- Before discovery nothing is announced. -/
structure Unannounced (s : NsSystem) : Prop where
  inv : NsInv s
  callbacks : ∀ ip, callbacksFor ip s.ns.log = []
  started : s.ns.discoverStarted = false
  stopping : s.stopping = false

theorem Unannounced.inverse {s : NsSystem} (h : Unannounced s) (env : QueryEnv) (events : List RecvEvent)
    {ip : UInt32} (hip : ip ≠ 0) :
    (∀ x, callbacksFor x (netbiosNsInverse s.ns ip env events).2.log = []) ∧
      (netbiosNsInverse s.ns ip env events).2.discoverStarted = false := by
  rw [netbiosNsInverse]
  rcases inverse_cases s.ns env events hip with ⟨cached, -, heq⟩ | ⟨-, -, hwaits⟩ |
    ⟨-, ns', bytes, name, group, type, hwaits, -, -, -, heq⟩
  · rw [heq]
    exact ⟨h.callbacks, h.started⟩
  · exact ⟨fun x => (hwaits.callbacksFor x).trans (h.callbacks x), hwaits.started.trans h.started⟩
  · rw [heq]
    exact ⟨fun x => (hwaits.callbacksFor x).trans (h.callbacks x), hwaits.started.trans h.started⟩

theorem Unannounced.step {s : NsSystem} (h : Unannounced s) {a : NsAction} (ha : a.isLookup = true) :
    Unannounced (s.step a) := by
  have hinv := h.inv.step a
  cases a with
  | resolve name type env events =>
    have hwaits := resolve_waits s.ns name type env events
    rw [NsSystem.step, if_neg (by simp [h.started])] at hinv ⊢
    exact ⟨hinv, fun ip => (hwaits.callbacksFor ip).trans (h.callbacks ip),
      hwaits.started.trans h.started, h.stopping⟩
  | inverse ip env events =>
    rw [NsSystem.step] at hinv ⊢
    split_ifs at hinv ⊢ with hcall
    · exact h
    · rw [not_or] at hcall
      obtain ⟨hcallbacks, hstarted⟩ := h.inverse env events hcall.1
      exact ⟨hinv, hcallbacks, hstarted, h.stopping⟩
  | discoverStart | discoverStop | joined | abort | thread => cases ha

theorem Unannounced.run {s : NsSystem} (h : Unannounced s) {lookups : List NsAction}
    (hlookups : ∀ a ∈ lookups, a.isLookup = true) : Unannounced (lookups.foldl NsSystem.step s) := by
  induction lookups generalizing s with
  | nil => exact h
  | cons a lookups ih =>
    rw [List.forall_mem_cons] at hlookups
    exact ih (h.step hlookups.1) hlookups.2

/-- The addresses that have a name in the queue. -/
def NetbiosNs.namedAddresses (ns : NetbiosNs) : List UInt32 :=
  (ns.entryQueue.filter NetbiosNsEntry.validName).map NetbiosNsEntry.address

theorem mem_namedAddresses {ns : NetbiosNs} {ip : UInt32} :
    ip ∈ ns.namedAddresses ↔ ns.Named ip := by
  rw [named_iff, NetbiosNs.namedAddresses, List.mem_map]
  constructor
  · rintro ⟨e, he, haddr⟩
    rw [List.mem_filter] at he
    exact ⟨e, he.1, haddr, he.2⟩
  · rintro ⟨e, he, haddr, hvalid⟩
    exact ⟨e, List.mem_filter.mpr ⟨he, hvalid⟩, haddr⟩

/-- The start of discovery: the addresses named by then are the inherited ones. -/
theorem Unannounced.discoverStart {s : NsSystem} (h : Unannounced s) (broadcastTimeout : UInt32) :
    DiscoveryInv s.ns.namedAddresses (s.step (.discoverStart broadcastTimeout true true)) := by
  have hinv := h.inv.step (.discoverStart broadcastTimeout true true)
  rw [NsSystem.step, netbiosNsDiscoverStart, if_neg (by simp [h.stopping]),
    if_neg (by simp [h.started]), if_pos rfl] at hinv ⊢
  refine ⟨hinv, ?_, Or.inl rfl, fun hs => absurd (hs.symm.trans h.stopping) (by decide)⟩
  have hflags : Announced s.ns.namedAddresses s.ns := by
    refine ⟨?_, ?_, ?_, ?_⟩
    · intro ip
      rw [h.callbacks]
      trivial
    · intro ip hopen
      rw [h.callbacks] at hopen
      cases hopen
    · intro _ ip hnamed hnot
      exact absurd (mem_namedAddresses.mpr hnamed) hnot
    · intro ip hip
      exact mem_namedAddresses.mp hip
  exact hflags.of_flags rfl rfl id

/-- After any lookups, in every run of discovery the callbacks for each address alternate, the
first being `pf_on_entry_added`, exactly if no entry that the lookups had named expires. -/
theorem callbacks_alternate_iff (rand : UInt16) (broadcastTimeout : UInt32)
    (lookups as : List NsAction) (hlookups : ∀ a ∈ lookups, a.isLookup = true) :
    let s := lookups.foldl NsSystem.step (NsSystem.new rand)
    let started := s.step (.discoverStart broadcastTimeout true true)
    Along NsSystem.step CallbacksAlternate started as ↔
      Along NsSystem.step (InheritedStay s.ns.namedAddresses) started as := by
  intro s started
  have hnew : Unannounced (NsSystem.new rand) := ⟨.new rand, fun _ => rfl, rfl, rfl⟩
  have hstart : DiscoveryInv s.ns.namedAddresses started :=
    (hnew.run hlookups).discoverStart broadcastTimeout
  refine along_congr (I := DiscoveryInv s.ns.namedAddresses) ?_ ?_ hstart
  · intro s' a h
    constructor
    · exact inheritedStay_of_alternate h
    · exact fun hstay => (h.step hstay).announced.alternates
  · intro s' a h hstay
    exact h.step hstay

theorem inheritedStay_of_withdrawn {inherited : List UInt32} {s : NsSystem} {env : ThreadEnv}
    (h : s.ns.withdrawn env.now = []) : InheritedStay inherited s (.thread env) := by
  rintro _ ⟨⟩ - - - ip hip
  rw [h] at hip
  cases hip

/-- Host `9` answers an inverse lookup with its name. -/
def lookupNas : NsAction := .inverse 9 .up [.datagram 9 (nbstatAnswer 1 (ascii "NAS"))]

/-- With a timeout of one second and the clock at `3` the name found by the lookup does not expire:
there is no callback for it, and those for another host alternate. -/
theorem callbacks_alternate_kept :
    let s := (NsSystem.new 0).step lookupNas
    let started := s.step (.discoverStart 1 true true)
    let as : List NsAction := [.thread (.hearing 7 (nbAnswer 1) 3),
      .thread (.hearing 7 (nbAnswer 1) 3), .thread (.hearing 7 (nbAnswer 1) 3),
      .thread (.hearing 7 (nbAnswer 1) 3),
      .thread (.hearing 7 (nbstatAnswer 1 (ascii "PRINTER")) 3)]
    callbacksFor 7 (as.foldl NsSystem.step started).ns.log = [true] ∧
      Along NsSystem.step CallbacksAlternate started as := by
  refine ⟨by decide +kernel, ?_⟩
  refine (callbacks_alternate_iff 0 1 [lookupNas] _ (by decide +kernel)).mpr ?_
  exact ⟨inheritedStay_of_withdrawn (by decide +kernel),
    inheritedStay_of_withdrawn (by decide +kernel), inheritedStay_of_withdrawn (by decide +kernel),
    inheritedStay_of_withdrawn (by decide +kernel), inheritedStay_of_withdrawn (by decide +kernel),
    trivial⟩

/-- Host `9` is found by an inverse lookup; discovery then reports its removal without ever having
announced it. -/
theorem callbacks_removed_only :
    let s := (NsSystem.new 0).step lookupNas
    let started := s.step (.discoverStart 1 true true)
    let a : NsAction := .thread (.hearing 9 (nbAnswer 1) 100)
    callbacksFor 9 (started.step a).ns.log = [false] ∧
      ¬ Along NsSystem.step CallbacksAlternate started [a] := by
  have hcallbacks : callbacksFor 9 ((((NsSystem.new 0).step lookupNas).step
      (.discoverStart 1 true true)).step (.thread (.hearing 9 (nbAnswer 1) 100))).ns.log =
        [false] := by decide +kernel
  refine ⟨hcallbacks, ?_⟩
  intro hrun
  have halt := hrun.1 9
  rw [hcallbacks] at halt
  exact absurd halt.1 (by decide)

end Libdsm
