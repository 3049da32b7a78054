import Libdsm.Netbios.Proofs.Answers
import Mathlib.Data.Nat.Bitwise

/-!
# The names of an NBSTAT answer

`netbios_ns_handle_query` goes twice through the names of an NBSTAT answer, for a group and for a file
server, and makes the flags of a name from two signed characters. Here the answer is a list of names
with any flags: the module says which names are reported, when these are the ones the flags stand for,
and when the result depends on a byte behind the datagram.
-/

namespace Libdsm

/-! ## Searches -/

/-- Two searches of which one finds less than the other come to the same place if and only if what the
wider one finds first satisfies the narrower one. -/
theorem findIdx?_eq_iff {α : Type} {p q : α → Bool} (hpq : ∀ x, p x = true → q x = true) (l : List α) :
    l.findIdx? p = l.findIdx? q ↔ ∀ x, l.find? q = some x → p x = true := by
  induction l with
  | nil => simp
  | cons a l ih =>
    rw [List.findIdx?_cons, List.findIdx?_cons]
    cases hq : q a with
    | true =>
      rw [List.find?_cons_of_pos hq, if_pos rfl]
      cases hp : p a with
      | true =>
        rw [if_pos rfl]
        exact ⟨fun _ x hx => by rw [← Option.some.inj hx]; exact hp, fun _ => rfl⟩
      | false =>
        rw [if_neg Bool.false_ne_true]
        refine ⟨fun h => ?_, fun h => absurd (h a rfl) (by rw [hp]; exact Bool.false_ne_true)⟩
        cases hfound : l.findIdx? p <;> rw [hfound] at h <;> cases h
    | false =>
      have hp : p a = false := by
        by_contra h
        rw [hpq a (Bool.eq_true_of_not_eq_false h)] at hq
        cases hq
      rw [List.find?_cons_of_neg (by rw [hq]; exact Bool.false_ne_true), if_neg Bool.false_ne_true, hp,
        if_neg Bool.false_ne_true, ← ih]
      exact ⟨fun h => Option.map_injective (fun _ _ => Nat.succ.inj) h, fun h => by rw [h]⟩

/-- The search through names of 18 bytes is the search through the list they stand for. -/
theorem findName_eq {α : Type} {p : Nat → Bool} {q : α → Bool} :
    ∀ {l : List α} {names : Nat}, (∀ i (hi : i < l.length), p (names + i * 18) = q l[i]) →
      findName p names l.length = (l.findIdx? q).map fun i => names + i * 18 := by
  intro l
  induction l with
  | nil =>
    intro names _
    rfl
  | cons a l ih =>
    intro names h
    have hfirst := h 0 (by simp)
    rw [Nat.zero_mul, Nat.add_zero, List.getElem_cons_zero] at hfirst
    have hrest : findName p (names + 18) l.length = (l.findIdx? q).map fun i => names + 18 + i * 18 := by
      apply ih
      intro i hi
      have hnext := h (i + 1) (by simpa using hi)
      rw [List.getElem_cons_succ] at hnext
      rw [← hnext]
      congr 1
      omega
    have hshift : ((List.range l.length).map Nat.succ).map (fun i => names + i * 18) =
        (List.range l.length).map fun i => names + 18 + i * 18 := by
      rw [List.map_map]
      apply List.map_congr_left
      intro i _
      show names + (i + 1) * 18 = names + 18 + i * 18
      omega
    rw [findName, List.length_cons, List.range_succ_eq_map, List.map_cons, hshift, Nat.zero_mul,
      Nat.add_zero, List.findIdx?_cons]
    cases hq : q a with
    | true =>
      rw [List.find?_cons_of_pos (by rw [hfirst, hq]), if_pos rfl, Option.map_some, Nat.zero_mul,
        Nat.add_zero]
    | false =>
      rw [List.find?_cons_of_neg (by rw [hfirst, hq]; exact Bool.false_ne_true),
        if_neg Bool.false_ne_true, Option.map_map]
      rw [findName] at hrest
      rw [hrest]
      apply Option.map_congr
      intro i _
      show names + 18 + i * 18 = names + (i + 1) * 18
      omega

/-! ## Names with flags -/

/-- A name of a node as an answer carries it. -/
structure NodeName where
  name : List UInt8
  type : UInt8
  flags : UInt16
  name_length : name.length = 15

namespace NodeName

def bytes (node : NodeName) : List UInt8 := node.name ++ [node.type] ++ htons node.flags.toNat

theorem bytes_length (node : NodeName) : node.bytes.length = 18 := by
  simp [bytes, node.name_length, htons]

/-- The group bit of the flags. -/
def group (node : NodeName) : Bool := node.flags &&& netbiosNameFlagGroup ≠ 0

/-- A file server, and no group. -/
def server (node : NodeName) : Bool := !node.group && node.type == netbiosFileserver

/-- The low byte of the flags is negative as a `char`. -/
def negative (node : NodeName) : Bool := 128 ≤ node.flags.toNat % 256

/-- What the code takes for a group, and for a file server. -/
def seenGroup (node : NodeName) : Bool := node.group || node.negative
def seenServer (node : NodeName) : Bool := !node.seenGroup && node.type == netbiosFileserver

end NodeName

theorem charFlags_high (n : Nat) (h : n < 256) :
    (UInt16.ofInt (charValue (UInt8.ofNat n)) <<< 8) &&& netbiosNameFlagGroup =
      if 128 ≤ n then netbiosNameFlagGroup else 0 := by
  revert n
  decide +kernel

theorem charFlags_low (n : Nat) (h : n < 256) :
    UInt16.ofInt (charValue (UInt8.ofNat n)) &&& netbiosNameFlagGroup =
      if 128 ≤ n then netbiosNameFlagGroup else 0 := by
  revert n
  decide +kernel

/-- Either of the two bytes can make a name a group. -/
theorem isGroup_iff (m : Mem) (name : Nat) :
    isGroup m name = true ↔ 128 ≤ (m (name + 16)).toNat ∨ 128 ≤ (m (name + 17)).toNat := by
  have hhigh := charFlags_high (m (name + 16)).toNat (m (name + 16)).toNat_lt
  have hlow := charFlags_low (m (name + 17)).toNat (m (name + 17)).toNat_lt
  rw [UInt8.ofNat_toNat] at hhigh hlow
  have hbits : currentFlags m name &&& netbiosNameFlagGroup =
      (if 128 ≤ (m (name + 16)).toNat then netbiosNameFlagGroup else 0) |||
        (if 128 ≤ (m (name + 17)).toNat then netbiosNameFlagGroup else 0) := by
    rw [currentFlags, ← hhigh, ← hlow]
    apply UInt16.toNat_inj.mp
    rw [UInt16.toNat_and, UInt16.toNat_or, UInt16.toNat_or, UInt16.toNat_and, UInt16.toNat_and]
    exact Nat.and_or_distrib_right ..
  rw [isGroup, hbits, decide_eq_true_eq]
  by_cases hh : 128 ≤ (m (name + 16)).toNat <;> by_cases hl : 128 ≤ (m (name + 17)).toNat <;>
    simp [hh, hl, netbiosNameFlagGroup]

/-- The group bit of the flags is the top bit of their first byte. -/
theorem group_iff (node : NodeName) : node.group = true ↔ 128 ≤ node.flags.toNat / 256 := by
  have hlt := node.flags.toNat_lt
  have hbit : (node.flags &&& netbiosNameFlagGroup).toNat = node.flags.toNat / 2 ^ 15 % 2 * 2 ^ 15 := by
    rw [UInt16.toNat_and]
    show node.flags.toNat &&& 2 ^ 15 = _
    rw [Nat.and_two_pow, Nat.testBit_eq_decide_div_mod_eq]
    rcases Nat.mod_two_eq_zero_or_one (node.flags.toNat / 2 ^ 15) with h | h <;> rw [h] <;> rfl
  rw [NodeName.group, decide_eq_true_eq, ne_eq, ← UInt16.toNat_inj, hbit]
  show ¬ _ = 0 ↔ _
  omega

/-! ## The names in memory -/

/-- The names lie one behind the other from `names` on. -/
theorem names_read {m : Mem} :
    ∀ {nodes : List NodeName} {names : Nat},
      m.read names (18 * nodes.length) = nodes.flatMap NodeName.bytes →
      ∀ i (hi : i < nodes.length), m.read (names + i * 18) 18 = nodes[i].bytes := by
  intro nodes
  induction nodes with
  | nil =>
    intro names _ i hi
    exact absurd hi (Nat.not_lt_zero i)
  | cons node nodes ih =>
    intro names h i hi
    rw [List.length_cons, Nat.mul_succ, Nat.add_comm, Mem.read_add, List.flatMap_cons] at h
    obtain ⟨hfirst, hrest⟩ := List.append_inj h (by rw [Mem.read_length, node.bytes_length])
    cases i with
    | zero =>
      rw [Nat.zero_mul, Nat.add_zero]
      exact hfirst
    | succ i =>
      have hnext := ih hrest i (by simpa using hi)
      rw [List.getElem_cons_succ, ← hnext]
      congr 1
      omega

section

variable {m : Mem} {off : Nat} {node : NodeName} (h : m.read off 18 = node.bytes)

include h

theorem node_byte {k : Nat} (hk : k < 18) : m (off + k) = node.bytes.getD k 0 := by
  have hget := Mem.read_getElem? m off 18 k hk
  rw [h] at hget
  rw [List.getD_eq_getElem?_getD, hget, Option.getD_some]

theorem node_type : m (off + 15) = node.type := by
  rw [node_byte h (by omega), NodeName.bytes, List.append_assoc, List.getD_append_right _ _ _ _ (by
    rw [node.name_length]), node.name_length]
  rfl

theorem node_isGroup : isGroup m off = node.seenGroup := by
  have hflags : ∀ k, node.bytes.getD (16 + k) 0 = (htons node.flags.toNat).getD k 0 := by
    intro k
    rw [NodeName.bytes, List.getD_append_right _ _ _ _ (by simp [node.name_length])]
    simp [node.name_length]
  have hlt := node.flags.toNat_lt
  rw [Bool.eq_iff_iff, isGroup_iff, NodeName.seenGroup, Bool.or_eq_true, group_iff, NodeName.negative,
    decide_eq_true_eq, node_byte h (by omega), node_byte h (by omega), hflags 0, hflags 1]
  show 128 ≤ (UInt8.ofNat (node.flags.toNat / 256)).toNat ∨
    128 ≤ (UInt8.ofNat node.flags.toNat).toNat ↔ _
  rw [UInt8.toNat_ofNat', UInt8.toNat_ofNat']
  omega

theorem node_isFileserver : isFileserver m off = node.seenServer := by
  rw [isFileserver, node_isGroup h, node_type h, NodeName.seenServer]

end

/-! ## What is reported -/

/-- A complete NBSTAT answer with these names: anything may be in its header and behind the names. -/
structure NbstatAnswer (d : List UInt8) (nodes : List NodeName) : Prop where
  record : IsRecord d
  type : recordTypeOf d = recordNbstat
  complete : 1 + 18 * nodes.length ≤ dataLengthOf d
  count : nameCountOf d = nodes.length
  names : (d.drop 57).take (18 * nodes.length) = nodes.flatMap NodeName.bytes

/-- Where in the datagram the name stands that a result reports, and the group. -/
def NetbiosNsNameQuery.nameAt : NetbiosNsNameQuery → Option Nat
  | .nbstat name _ _ => some name
  | .invalid | .nb _ => none

def NetbiosNsNameQuery.groupAt : NetbiosNsNameQuery → Option Nat
  | .nbstat _ group _ => group
  | .invalid | .nb _ => none

/-- Where the first name stands that passes a test. -/
def firstAt (test : NodeName → Bool) (nodes : List NodeName) : Option Nat :=
  (nodes.findIdx? test).map fun i => 57 + i * 18

/-- The report of the names of an answer: the first file server, if there is one, and the first group, if
there is one, whether or not there is the other. -/
structure ReportsNames (nodes : List NodeName) (r : NetbiosNsNameQuery) : Prop where
  name : r.nameAt = firstAt NodeName.server nodes
  group : r.groupAt = firstAt NodeName.group nodes

/-- The report that the parser makes: the group goes with the name. -/
def seenReport (nodes : List NodeName) : NetbiosNsNameQuery :=
  match firstAt NodeName.seenServer nodes with
  | some name => .nbstat name (firstAt NodeName.seenGroup nodes) netbiosFileserver
  | none => .invalid

section

variable {d : List UInt8} {nodes : List NodeName} {ns : NetbiosNs} {m : Mem} {checkTrnId : Bool}
variable {sender : UInt32}

/-- The parser reports the names that it sees as a file server and as a group. -/
theorem handleQuery_nodes (hd : NbstatAnswer d nodes) (hbuf : ns.buffer = m.write 0 d)
    (hid : ∀ i ∈ ns.expects checkTrnId, trnIdOf d = i.toNat) :
    netbiosNsHandleQuery ns d.length checkTrnId sender .invalid =
      (0, seenReport nodes) := by
  have hcomplete := hd.complete
  have hfits := hd.record.2
  have hread : (m.write 0 d).read 57 (18 * nodes.length) = nodes.flatMap NodeName.bytes := by
    rw [Mem.read_write_part m (by omega), hd.names]
  have hserver : findName (isFileserver ns.buffer) 57 nodes.length =
      (nodes.findIdx? NodeName.seenServer).map fun i => 57 + i * 18 := by
    rw [hbuf]
    exact findName_eq fun i hi => node_isFileserver (names_read hread i hi)
  have hgroup : findName (isGroup ns.buffer) 57 nodes.length =
      (nodes.findIdx? NodeName.seenGroup).map fun i => 57 + i * 18 := by
    rw [hbuf]
    exact findName_eq fun i hi => node_isGroup (names_read hread i hi)
  have hother : recordTypeOf d ≠ recordNb := by
    rw [hd.type]
    decide
  have hsearch : searchNames ns.buffer 57 nodes.length .invalid = seenReport nodes := by
    cases hfound : nodes.findIdx? NodeName.seenServer with
    | none => simp [searchNames, hserver, seenReport, firstAt, hfound]
    | some i => simp [searchNames, hserver, hgroup, seenReport, firstAt, hfound]
  rw [handleQuery_record hbuf hid hd.record, if_neg hother, if_pos hd.type, if_neg (by omega),
    if_neg (by rw [hd.count]; omega), hd.count, hsearch]

end

/-- The flags do not mislead the searches: the first file server has a low byte that is not negative,
and what is first taken for a group is one. Where there is no file server there is no group either, which
would not be reported. -/
def FlagsPlain (nodes : List NodeName) : Prop :=
  match nodes.find? NodeName.server with
  | some node =>
    node.negative = false ∧ ∀ g, nodes.find? NodeName.seenGroup = some g → g.group = true
  | none => ∀ node ∈ nodes, node.group = false

theorem seenServer_server {node : NodeName} (h : node.seenServer = true) : node.server = true := by
  rw [NodeName.seenServer, NodeName.seenGroup, Bool.not_or, Bool.and_assoc, Bool.and_eq_true,
    Bool.and_eq_true] at h
  rw [NodeName.server, Bool.and_eq_true]
  exact ⟨h.1, h.2.2⟩

theorem group_seenGroup {node : NodeName} (h : node.group = true) : node.seenGroup = true := by
  rw [NodeName.seenGroup, h, Bool.true_or]

theorem seenServer_of_server {node : NodeName} (h : node.server = true) :
    node.seenServer = true ↔ node.negative = false := by
  rw [NodeName.server, Bool.and_eq_true] at h
  rw [NodeName.seenServer, NodeName.seenGroup, h.2, Bool.and_true, Bool.not_or, h.1, Bool.true_and,
    Bool.not_eq_true']

theorem firstAt_eq_iff {p q : NodeName → Bool} (nodes : List NodeName) :
    firstAt p nodes = firstAt q nodes ↔ nodes.findIdx? p = nodes.findIdx? q := by
  have hinj : Function.Injective fun j => 57 + j * 18 := by
    intro a b hab
    dsimp only at hab
    omega
  exact ⟨fun h => Option.map_injective hinj h, fun h => by rw [firstAt, firstAt, h]⟩

theorem firstAt_eq_none_iff {p : NodeName → Bool} (nodes : List NodeName) :
    firstAt p nodes = none ↔ ∀ node ∈ nodes, p node = false := by
  rw [firstAt, Option.map_eq_none_iff, List.findIdx?_eq_none_iff]

/-- What is taken for a file server first is the first one, if that is not taken for a group. -/
theorem firstAt_server_iff (nodes : List NodeName) :
    firstAt NodeName.seenServer nodes = firstAt NodeName.server nodes ↔
      ∀ node, nodes.find? NodeName.server = some node → node.negative = false := by
  rw [firstAt_eq_iff, findIdx?_eq_iff fun _ => seenServer_server]
  constructor
  · exact fun h node hfound => (seenServer_of_server (List.find?_some hfound)).mp (h node hfound)
  · exact fun h node hfound => (seenServer_of_server (List.find?_some hfound)).mpr (h node hfound)

theorem firstAt_group_iff (nodes : List NodeName) :
    firstAt NodeName.seenGroup nodes = firstAt NodeName.group nodes ↔
      ∀ g, nodes.find? NodeName.seenGroup = some g → g.group = true := by
  rw [eq_comm, firstAt_eq_iff, findIdx?_eq_iff fun _ => group_seenGroup]

/-- The report that the parser makes is the right one. -/
theorem seenReport_iff (nodes : List NodeName) : ReportsNames nodes (seenReport nodes) ↔ FlagsPlain nodes := by
  have hserver := firstAt_server_iff nodes
  have hnone := @firstAt_eq_none_iff NodeName.server nodes
  rw [FlagsPlain]
  cases hfound : nodes.find? NodeName.server with
  | none =>
    have hno : firstAt NodeName.server nodes = none :=
      hnone.mpr (by simpa using List.find?_eq_none.mp hfound)
    have hseen : firstAt NodeName.seenServer nodes = none := by
      rw [hserver.mpr (fun node hnode => by rw [hfound] at hnode; cases hnode), hno]
    rw [seenReport, hseen]
    dsimp only
    rw [← firstAt_eq_none_iff]
    exact ⟨fun h => h.group.symm, fun h => ⟨hno.symm, h.symm⟩⟩
  | some node =>
    have hmem : firstAt NodeName.server nodes ≠ none := by
      intro hno
      have hnode := hnone.mp hno node (List.mem_of_find?_eq_some hfound)
      rw [List.find?_some hfound] at hnode
      cases hnode
    have hplain : firstAt NodeName.seenServer nodes = firstAt NodeName.server nodes ↔
        node.negative = false := by
      rw [hserver, hfound]
      exact ⟨fun h => h node rfl, fun h x hx => by rw [← Option.some.inj hx]; exact h⟩
    dsimp only
    rw [← hplain, ← firstAt_group_iff]
    cases hseen : firstAt NodeName.seenServer nodes with
    | none =>
      rw [seenReport, hseen]
      exact ⟨fun h => absurd h.name.symm hmem, fun h => absurd h.1.symm hmem⟩
    | some name =>
      rw [seenReport, hseen]
      exact ⟨fun h => ⟨h.name, h.group⟩, fun h => ⟨h.1, h.2⟩⟩

/-- For every list of names with any flags, in any complete NBSTAT answer, the parser reports the first
file server and the first group, each if there is one, if and only if the flags do not mislead it and no
group is without a file server. -/
theorem nbstat_selects_iff (ns : NetbiosNs) (m : Mem) (d : List UInt8) (nodes : List NodeName)
    (checkTrnId : Bool) (sender : UInt32) (hd : NbstatAnswer d nodes)
    (hid : ∀ i ∈ ns.expects checkTrnId, trnIdOf d = i.toNat) :
    let r := netbiosNsHandleQuery { ns with buffer := m.write 0 d } d.length checkTrnId sender .invalid
    (r.1 = 0 ∧ ReportsNames nodes r.2) ↔ FlagsPlain nodes := by
  intro r
  have hnodes : r = (0, seenReport nodes) := handleQuery_nodes hd rfl hid
  rw [hnodes, ← seenReport_iff]
  exact ⟨fun h => h.2, fun h => ⟨rfl, h⟩⟩

/-- The answer of a node with these names. -/
def nodeAnswer (trnId : UInt16) (nodes : List NodeName) : List UInt8 :=
  answerBytes trnId recordNbstat (UInt8.ofNat nodes.length :: nodes.flatMap NodeName.bytes)

/-- A workgroup and a file server, the latter with the low byte of its flags given. -/
def sampleNodes (low : UInt16) : List NodeName :=
  [⟨ascii "WORKGROUP      ", 0, 0x8400, rfl⟩,
    ⟨ascii "SERVER         ", netbiosFileserver, 0x0400 + low, rfl⟩]

theorem nodeAnswer_sample (low : UInt16) (hlow : low = 0 ∨ low = 0x80) :
    NbstatAnswer (nodeAnswer 1 (sampleNodes low)) (sampleNodes low) := by
  rcases hlow with rfl | rfl <;>
    exact ⟨by decide +kernel, by decide +kernel, by decide +kernel, by decide +kernel, by decide +kernel⟩

theorem nodeAnswer_expected : ∀ i ∈ (netbiosNsNew 1).expects true,
    trnIdOf (nodeAnswer 1 (sampleNodes 0)) = i.toNat := by
  intro i hi
  have hid : (netbiosNsNew 1).expects true = some 1 := by decide +kernel
  rw [hid] at hi
  obtain rfl := Option.some.inj hi
  decide +kernel

/-- A workgroup and a file server, both reported. -/
theorem nbstat_selects_sample :
    let d := nodeAnswer 1 (sampleNodes 0)
    let r := netbiosNsHandleQuery { netbiosNsNew 1 with buffer := Mem.write (fun _ => 0) 0 d } d.length true
      7 .invalid
    r.1 = 0 ∧ ReportsNames (sampleNodes 0) r.2 := by
  have hplain : FlagsPlain (sampleNodes 0) := by
    refine ⟨by decide, fun g hg => ?_⟩
    rw [← Option.some.inj hg]
    decide
  exact (nbstat_selects_iff (netbiosNsNew 1) _ _ _ _ _ (nodeAnswer_sample 0 (.inl rfl))
    nodeAnswer_expected).mpr hplain

/-- A file server with the flags `0x0480` is taken for a group, and no name is reported. -/
theorem nbstat_misses_server :
    let d := nodeAnswer 1 (sampleNodes 0x80)
    let r := netbiosNsHandleQuery { netbiosNsNew 1 with buffer := Mem.write (fun _ => 0) 0 d } d.length true
      7 .invalid
    NbstatAnswer d (sampleNodes 0x80) ∧ r.2.nameAt = none ∧
      firstAt NodeName.server (sampleNodes 0x80) = some 75 ∧ ¬ ReportsNames (sampleNodes 0x80) r.2 := by
  intro d r
  have hmissed : r.2.nameAt = none := by decide +kernel
  have hthere : firstAt NodeName.server (sampleNodes 0x80) = some 75 := by decide +kernel
  refine ⟨nodeAnswer_sample 0x80 (.inr rfl), hmissed, hthere, fun h => ?_⟩
  rw [h.name, hthere] at hmissed
  cases hmissed

/-! ## The byte behind the datagram -/

/-- What a result structure says, its pointers followed into the buffer. -/
inductive NameReport where
  | invalid
  | nb (ip : UInt32)
  | nbstat (name : List UInt8) (group : Option (List UInt8)) (type : UInt8)
  deriving DecidableEq, Repr

def NetbiosNsNameQuery.report (m : Mem) : NetbiosNsNameQuery → NameReport
  | .invalid => .invalid
  | .nb ip => .nb ip
  | .nbstat name group type =>
    .nbstat (m.read name netbiosNameLength) (group.map fun g => m.read g netbiosNameLength) type

/-- The return value and the report for a datagram, in a buffer that held `m` before it. -/
def parsed (ns : NetbiosNs) (checkTrnId : Bool) (recvIp : UInt32) (d : List UInt8) (m : Mem) :
    Int × NameReport :=
  let r := netbiosNsHandleQuery { ns with buffer := m.write 0 d } d.length checkTrnId recvIp .invalid
  (r.1, r.2.report (m.write 0 d))

theorem findName_succ (p : Nat → Bool) (names n : Nat) :
    findName p names (n + 1) =
      (findName p names n).or (if p (names + n * 18) then some (names + n * 18) else none) := by
  rw [findName, List.range_succ, List.map_append, List.find?_append, List.map_singleton,
    List.find?_singleton, findName]

/-- Names that are tested alike are found alike. -/
theorem findName_congr {p q : Nat → Bool} {names n : Nat}
    (h : ∀ i < n, p (names + i * 18) = q (names + i * 18)) : findName p names n = findName q names n := by
  induction n with
  | zero => rfl
  | succ n ih =>
    rw [findName_succ, findName_succ, ih fun i hi => h i (by omega), h n (by omega)]

section

variable {d : List UInt8} {m m' : Mem}

/-- A name inside the datagram is what it is whatever was in the buffer. -/
theorem isGroup_inside {name : Nat} (h : name + 18 ≤ d.length) :
    isGroup (m.write 0 d) name = isGroup (m'.write 0 d) name := by
  rw [isGroup, isGroup, currentFlags, currentFlags, buffer_byte (by omega), buffer_byte (by omega),
    buffer_byte (by omega), buffer_byte (by omega)]

theorem isFileserver_inside {name : Nat} (h : name + 18 ≤ d.length) :
    isFileserver (m.write 0 d) name = isFileserver (m'.write 0 d) name := by
  rw [isFileserver, isFileserver, isGroup_inside h, buffer_byte (by omega), buffer_byte (by omega)]

theorem findGroup_inside {n : Nat} (h : 57 + n * 18 ≤ d.length) :
    findName (isGroup (m.write 0 d)) 57 n = findName (isGroup (m'.write 0 d)) 57 n :=
  findName_congr fun i hi => isGroup_inside (by omega)

theorem findServer_inside {n : Nat} (h : 57 + n * 18 ≤ d.length) :
    findName (isFileserver (m.write 0 d)) 57 n = findName (isFileserver (m'.write 0 d)) 57 n :=
  findName_congr fun i hi => isFileserver_inside (by omega)

/-- The fifteen bytes of a name that is found are inside the datagram. -/
theorem found_read {p : Nat → Bool} {name : Nat} (hd : IsNbstat d)
    (h : findName p 57 (nameCountOf d) = some name) :
    (m.write 0 d).read name netbiosNameLength = (m'.write 0 d).read name netbiosNameLength := by
  obtain ⟨i, -, rfl, -, hread⟩ := findName_field (m := m) hd h
  obtain ⟨j, -, hij, -, hread'⟩ := findName_field (m := m') hd h
  obtain rfl : i = j := by omega
  exact hread.trans hread'.symm

/-- Where both buffers lead to the same pointers, they lead to the same report. -/
theorem searchNames_report (hd : IsNbstat d)
    (h : searchNames (m.write 0 d) 57 (nameCountOf d) .invalid =
      searchNames (m'.write 0 d) 57 (nameCountOf d) .invalid) :
    (searchNames (m.write 0 d) 57 (nameCountOf d) .invalid).report (m.write 0 d) =
      (searchNames (m'.write 0 d) 57 (nameCountOf d) .invalid).report (m'.write 0 d) := by
  rw [← h, searchNames]
  cases hserver : findName (isFileserver (m.write 0 d)) 57 (nameCountOf d) with
  | none => rfl
  | some name =>
    dsimp only [NetbiosNsNameQuery.report]
    rw [@found_read d m m' _ _ hd hserver]
    cases hgroup : findName (isGroup (m.write 0 d)) 57 (nameCountOf d) with
    | none => rfl
    | some g => rw [Option.map_some, Option.map_some, @found_read d m m' _ _ hd hgroup]

end

section

variable {ns : NetbiosNs} {checkTrnId : Bool} {recvIp : UInt32} {d : List UInt8}

theorem parsed_nbstat (hid : ∀ i ∈ ns.expects checkTrnId, trnIdOf d = i.toNat) (hd : IsNbstat d) (m : Mem) :
    parsed ns checkTrnId recvIp d m =
      (0, (searchNames (m.write 0 d) 57 (nameCountOf d) .invalid).report (m.write 0 d)) := by
  obtain ⟨hrec, htype, hdata, hnames⟩ := id hd
  have hother : recordTypeOf d ≠ recordNb := by
    rw [htype]
    decide
  have hresult : netbiosNsHandleQuery { ns with buffer := m.write 0 d } d.length checkTrnId recvIp
      .invalid = (0, searchNames (m.write 0 d) 57 (nameCountOf d) .invalid) := by
    refine (@handleQuery_record { ns with buffer := m.write 0 d } m d _ _ _ rfl hid hrec).trans ?_
    rw [if_neg hother, if_pos htype, if_neg (by omega), if_neg (by omega)]
  rw [parsed, hresult]

/-- On a datagram that is not an NBSTAT record it accepts, the parser looks at nothing else. -/
theorem parsed_other (h : ¬ (Accepted (ns.expects checkTrnId) d ∧ IsNbstat d)) (m m' : Mem) :
    parsed ns checkTrnId recvIp d m = parsed ns checkTrnId recvIp d m' := by
  by_cases hacc : Accepted (ns.expects checkTrnId) d
  · obtain ⟨hrec, hok, hid⟩ := id hacc
    have htype : recordTypeOf d ≠ recordNbstat := fun htype => h ⟨hacc, hok htype⟩
    have hresult : ∀ m : Mem, netbiosNsHandleQuery { ns with buffer := m.write 0 d } d.length checkTrnId
        recvIp .invalid = if recordTypeOf d = recordNb then (0, .nb recvIp) else (0, .invalid) := by
      intro m
      refine (@handleQuery_record { ns with buffer := m.write 0 d } m d _ _ _ rfl hid hrec).trans ?_
      rw [if_neg htype]
    rw [parsed, parsed, hresult, hresult]
    split
    · rfl
    · rfl
  · have hresult : ∀ m : Mem, netbiosNsHandleQuery { ns with buffer := m.write 0 d } d.length checkTrnId
        recvIp .invalid = (-1, .invalid) := fun m => handleQuery_rejected rfl hacc
    rw [parsed, parsed, hresult, hresult]
    rfl

end

/-- The datagram with zeros behind it. -/
def zeroFilled (d : List UInt8) : Mem := Mem.write (fun _ => 0) 0 d

/-- The last name of the datagram lacks the low byte of its flags, and that byte decides: the name is
the only group there can be beside a file server, or the only file server. -/
structure StaleDecides (d : List UInt8) (last : Nat) : Prop where
  count : nameCountOf d = last + 1
  short : d.length = 56 + nameCountOf d * 18
  clear : (d.getD (57 + last * 18 + 16) 0).toNat < 128
  decides : findName (isFileserver (zeroFilled d)) 57 last ≠ none ∧
        findName (isGroup (zeroFilled d)) 57 last = none ∨
      findName (isFileserver (zeroFilled d)) 57 last = none ∧ nameTypeOf d last = netbiosFileserver

section

variable {d : List UInt8} {last : Nat} (hlast : nameCountOf d = last + 1)
variable (hshort : d.length = 56 + nameCountOf d * 18) (m : Mem)

include hlast hshort

theorem isGroup_last :
    isGroup (m.write 0 d) (57 + last * 18) = true ↔
      128 ≤ (d.getD (57 + last * 18 + 16) 0).toNat ∨ 128 ≤ (m d.length).toNat := by
  have hstale : (m.write 0 d) (57 + last * 18 + 17) = m d.length := by
    rw [Mem.write_of_ge m d (by omega)]
    congr 1
    omega
  rw [isGroup_iff, hstale, buffer_byte (by omega)]

theorem findGroup_last :
    findName (isGroup (m.write 0 d)) 57 (nameCountOf d) =
      (findName (isGroup (zeroFilled d)) 57 last).or
        (if isGroup (m.write 0 d) (57 + last * 18) then some (57 + last * 18) else none) := by
  rw [hlast, findName_succ, zeroFilled, findGroup_inside (by omega)]

theorem findServer_last :
    findName (isFileserver (m.write 0 d)) 57 (nameCountOf d) =
      (findName (isFileserver (zeroFilled d)) 57 last).or
        (if isFileserver (m.write 0 d) (57 + last * 18) then some (57 + last * 18) else none) := by
  rw [hlast, findName_succ, zeroFilled, findServer_inside (by omega)]

theorem isFileserver_last :
    isFileserver (m.write 0 d) (57 + last * 18) =
      (!isGroup (m.write 0 d) (57 + last * 18) && nameTypeOf d last == netbiosFileserver) := by
  rw [isFileserver, buffer_byte (by omega), nameTypeOf]

end

/-- Where the byte decides, a zero and a negative one lead to different reports. -/
theorem report_stale {d : List UInt8} {last : Nat} (h : StaleDecides d last) :
    (searchNames (zeroFilled d) 57 (nameCountOf d) .invalid).report (zeroFilled d) ≠
      (searchNames (Mem.write (fun _ => 0x80) 0 d) 57 (nameCountOf d) .invalid).report
        (Mem.write (fun _ => 0x80) 0 d) := by
  obtain ⟨hcount, hshort, hclear, hdecides⟩ := h
  have hzero : isGroup (zeroFilled d) (57 + last * 18) = false := by
    rw [← Bool.not_eq_true, zeroFilled, isGroup_last hcount hshort]
    exact not_or_intro (Nat.not_le.mpr hclear) (by decide)
  have hnegative : isGroup (Mem.write (fun _ => 0x80) 0 d) (57 + last * 18) = true :=
    (isGroup_last hcount hshort _).mpr (.inr (by decide))
  have hserver : findName (isFileserver (zeroFilled d)) 57 (nameCountOf d) =
      (findName (isFileserver (zeroFilled d)) 57 last).or
        (if nameTypeOf d last == netbiosFileserver then some (57 + last * 18) else none) := by
    have h := findServer_last hcount hshort fun _ => 0
    rw [isFileserver_last hcount hshort] at h
    rw [← zeroFilled, hzero, Bool.not_false, Bool.true_and] at h
    exact h
  have hserver' := findServer_last hcount hshort fun _ => 0x80
  rw [isFileserver_last hcount hshort, hnegative, Bool.not_true, Bool.false_and,
    if_neg Bool.false_ne_true, Option.or_none] at hserver'
  have hgroup := findGroup_last hcount hshort fun _ => 0
  rw [← zeroFilled, hzero, if_neg Bool.false_ne_true, Option.or_none] at hgroup
  have hgroup' := findGroup_last hcount hshort fun _ => 0x80
  rw [hnegative, if_pos rfl] at hgroup'
  rw [searchNames, searchNames, hserver, hserver', hgroup, hgroup']
  rcases hdecides with ⟨hfound, hnone⟩ | ⟨hnone, htype⟩
  · obtain ⟨name, hname⟩ := Option.ne_none_iff_exists'.mp hfound
    rw [hname, hnone]
    intro heq
    exact absurd (NameReport.nbstat.inj heq).2.1 (by simp)
  · rw [hnone, htype, beq_self_eq_true, if_pos rfl]
    intro heq
    cases heq

/-- Where it does not, the searches come to the same pointers. -/
theorem searchNames_stale {d : List UInt8} {last : Nat} (hcount : nameCountOf d = last + 1)
    (hshort : d.length = 56 + nameCountOf d * 18) (h : ¬ StaleDecides d last) (m m' : Mem) :
    searchNames (m.write 0 d) 57 (nameCountOf d) .invalid =
      searchNames (m'.write 0 d) 57 (nameCountOf d) .invalid := by
  rw [searchNames, searchNames, findServer_last hcount hshort, findServer_last hcount hshort,
    findGroup_last hcount hshort, findGroup_last hcount hshort, isFileserver_last hcount hshort,
    isFileserver_last hcount hshort]
  by_cases hclear : (d.getD (57 + last * 18 + 16) 0).toNat < 128
  · cases hserver : findName (isFileserver (zeroFilled d)) 57 last with
    | none =>
      have htype : (nameTypeOf d last == netbiosFileserver) = false := by
        rw [beq_eq_false_iff_ne]
        exact fun htype => h ⟨hcount, hshort, hclear, .inr ⟨hserver, htype⟩⟩
      rw [htype, Bool.and_false, Bool.and_false, if_neg Bool.false_ne_true]
      rfl
    | some name =>
      cases hgroup : findName (isGroup (zeroFilled d)) 57 last with
      | none => exact absurd ⟨hcount, hshort, hclear, .inl ⟨by rw [hserver]; simp, hgroup⟩⟩ h
      | some g => simp only [Option.some_or]
  · have hgroup : ∀ m : Mem, isGroup (m.write 0 d) (57 + last * 18) = true :=
      fun m => (isGroup_last hcount hshort m).mpr (.inl (Nat.not_lt.mp hclear))
    rw [hgroup, hgroup]

/-- For every datagram and every id-checking mode: the parser gives the same value and the same report
for any two buffers that hold it if and only if the byte behind the datagram does not decide. -/
theorem parsed_congruent_iff (ns : NetbiosNs) (checkTrnId : Bool) (recvIp : UInt32) (d : List UInt8) :
    (∀ m m', parsed ns checkTrnId recvIp d m = parsed ns checkTrnId recvIp d m') ↔
      ¬ (Accepted (ns.expects checkTrnId) d ∧ IsNbstat d ∧ ∃ last, StaleDecides d last) := by
  constructor
  · rintro h ⟨hacc, hd, last, hstale⟩
    have heq := h (fun _ => 0) fun _ => 0x80
    rw [parsed_nbstat hacc.2.2 hd, parsed_nbstat hacc.2.2 hd] at heq
    exact report_stale hstale (Prod.mk.inj heq).2
  · intro h m m'
    by_cases hnbstat : Accepted (ns.expects checkTrnId) d ∧ IsNbstat d
    · obtain ⟨hacc, hd⟩ := hnbstat
      rw [parsed_nbstat hacc.2.2 hd, parsed_nbstat hacc.2.2 hd]
      have hfits := hd.1.2
      obtain ⟨hdata, hnames⟩ := hd.2.2
      rw [@searchNames_report d m m' hd]
      by_cases hcomplete : 57 + nameCountOf d * 18 ≤ d.length
      · rw [searchNames, searchNames, @findGroup_inside d m m' _ hcomplete,
          @findServer_inside d m m' _ hcomplete]
      · obtain ⟨last, hlast⟩ : ∃ last, nameCountOf d = last + 1 := ⟨nameCountOf d - 1, by omega⟩
        exact searchNames_stale hlast (by omega) (fun hstale => h ⟨hacc, hd, last, hstale⟩) m m'
    · exact parsed_other hnbstat m m'

/-- An answer with one name, whose record ends before the last byte of it. -/
def cutAnswer : List UInt8 :=
  answerBytes 1 recordNbstat ([1] ++ ascii "SERVER         " ++ [netbiosFileserver, 0x04])

/-- What an earlier datagram left behind this one decides whether it has a name. -/
theorem parsed_stale_byte :
    parsed (netbiosNsNew 1) true 7 cutAnswer (fun _ => 0) =
        (0, .nbstat (ascii "SERVER         ") none netbiosFileserver) ∧
      parsed (netbiosNsNew 1) true 7 cutAnswer (fun _ => 0x80) = (0, .invalid) ∧
      ¬ ∀ m m', parsed (netbiosNsNew 1) true 7 cutAnswer m = parsed (netbiosNsNew 1) true 7 cutAnswer m' := by
  have hzero : parsed (netbiosNsNew 1) true 7 cutAnswer (fun _ => 0) =
      (0, .nbstat (ascii "SERVER         ") none netbiosFileserver) := by decide +kernel
  have hnegative : parsed (netbiosNsNew 1) true 7 cutAnswer (fun _ => 0x80) = (0, .invalid) := by
    decide +kernel
  refine ⟨hzero, hnegative, fun h => ?_⟩
  have heq := h (fun _ => 0) fun _ => 0x80
  rw [hzero, hnegative] at heq
  exact absurd heq (by decide)

end Libdsm
