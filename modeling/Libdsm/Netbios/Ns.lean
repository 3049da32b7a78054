import Libdsm.Netbios.Query

/-!
# The name service (`src/netbios_ns.c`)

`NetbiosNs` is the state of one `netbios_ns`. What the kernel and the network do during a call is
its argument: the result of each `select` and of the call it was waiting for. A statement over
every argument is one over every behaviour of the network, hostile datagrams included.

The discovery thread is a program counter that moves one system call at a time, so that the calls
of the main thread may fall between any two of its steps. The two threads share the abort flag
only: the assertions keep the main thread from the queue and the buffer while discovery runs.

Allocation succeeds throughout. `recvfrom` reports full IPv4 addresses.
-/

namespace Libdsm

/-! ## Data -/

/-- `netbios_ns_entry`. The two bits of `flag` are `validIp` and `validName`; the arrays have
`NETBIOS_NAME_LENGTH + 1` bytes. -/
structure NetbiosNsEntry where
  address : UInt32
  name : List UInt8
  group : List UInt8
  type : UInt8
  validIp : Bool
  validName : Bool
  lastTimeSeen : Int
  deriving DecidableEq, Repr

/-- `netbios_ns_name_query`, the type and the member of the union it selects. A name is a pointer
into the receive buffer, here its offset. -/
inductive NetbiosNsNameQuery where
  | invalid
  | nb (ip : UInt32)
  | nbstat (name : Nat) (group : Option Nat) (type : UInt8)
  deriving DecidableEq, Repr

/-- What happened on the socket and which callbacks were made, in order. -/
inductive NsEvent where
  /-- A packet `sendto` took. -/
  | query (ip : UInt32) (packet : List UInt8)
  /-- What one `recvfrom` put into the buffer. -/
  | datagram (sender : UInt32) (bytes : List UInt8)
  /-- `pf_on_entry_added`. -/
  | entryAdded (entry : NetbiosNsEntry)
  /-- `pf_on_entry_removed`. -/
  | entryRemoved (entry : NetbiosNsEntry)
  /-- An abort noticed, by `select` or by `netbios_abort_ctx_is_aborted`. -/
  | abortSeen
  deriving DecidableEq, Repr

/-- `netbios_ns`; the head of the queue is the entry added last. `aborted` is the byte in the pipe
of `abort_ctx`, which nothing ever takes out again. -/
structure NetbiosNs where
  lastTrnId : UInt16
  entryQueue : List NetbiosNsEntry
  buffer : Mem
  aborted : Bool
  discoverBroadcastTimeout : UInt32
  discoverStarted : Bool
  log : List NsEvent

/-- The state with an event added to its log. -/
def NetbiosNs.note (ns : NetbiosNs) (event : NsEvent) : NetbiosNs :=
  { ns with log := ns.log ++ [event] }

/-- `netbios_ns_new`, with the number `rand()` gave. -/
def netbiosNsNew (rand : UInt16) : NetbiosNs where
  lastTrnId := rand
  entryQueue := []
  buffer := fun _ => 0
  aborted := false
  discoverBroadcastTimeout := 0
  discoverStarted := false
  log := []

/-- `netbios_ns_abort`. -/
def netbiosNsAbort (ns : NetbiosNs) : NetbiosNs := { ns with aborted := true }

/-! ## Sending queries -/

/-- How a wait for the socket to take a packet ends. -/
inductive SendEvent where
  | selectError
  /-- Another thread calls `netbios_ns_abort`. -/
  | abort
  /-- The socket is writable and `sendto` returns `ret`. -/
  | sendto (ret : Int)
  deriving DecidableEq, Repr

/-- `netbios_ns_send_packet`. Without a timeout `select` returns only with something to report, so
one turn of the loop is all. -/
def netbiosNsSendPacket (ns : NetbiosNs) (q : NetbiosQuery) (ip : UInt32) (event : SendEvent) :
    Int × NetbiosNs :=
  match event with
  | .selectError => (-1, ns)
  | .abort => (-1, (netbiosNsAbort ns).note .abortSeen)
  | .sendto ret =>
    if ns.aborted then (-1, ns.note .abortSeen)
    else if 0 ≤ ret then (ret, ns.note (.query ip q.bytes))
    else (ret, ns)

/-- One interface as `getifaddrs` lists it. -/
structure Ifaddr where
  broadcast : Bool
  up : Bool
  inet : Bool
  broadaddr : Option UInt32
  deriving DecidableEq, Repr

/-- The address to broadcast to, for the interfaces that are not skipped. -/
def Ifaddr.target (a : Ifaddr) : Option UInt32 :=
  if a.broadcast && a.up && a.inet then a.broadaddr else none

/-- What the kernel does for one query: the interfaces, with what sending on each of them does,
and what sending to a single host does. -/
structure QueryEnv where
  ifaddrs : List (Ifaddr × SendEvent)
  send : SendEvent
  deriving DecidableEq, Repr

/-- `netbios_ns_broadcast_packet`: a failure is reported nowhere. An empty list is also what a
failing `getifaddrs` amounts to. -/
def netbiosNsBroadcastPacket (ns : NetbiosNs) (q : NetbiosQuery) :
    List (Ifaddr × SendEvent) → NetbiosNs
  | [] => ns
  | (a, event) :: rest =>
    match a.target with
    | none => netbiosNsBroadcastPacket ns q rest
    | some ip => netbiosNsBroadcastPacket (netbiosNsSendPacket ns q ip event).2 q rest

/-- The record types a query asks for; `netbios_ns_send_name_query` refuses any other. -/
inductive NameQueryType where
  | nb
  | nbstat
  deriving DecidableEq, Repr

def queryTypeNb : UInt16 := 0x2000
def queryTypeNbstat : UInt16 := 0x2100
def queryClassIn : UInt16 := 0x0100

def NameQueryType.queryType : NameQueryType → UInt16
  | .nb => queryTypeNb
  | .nbstat => queryTypeNbstat

/-- `name_query_broadcast`, up to its terminator. -/
def nameQueryBroadcast : List UInt8 := 32 :: ascii "CKAAAAAAAAAAAAAAAAAAAAAAAAAAAAAA"

/-- The packet `netbios_ns_send_name_query` prepares. The sum is an `int`, which `htons` cuts to
sixteen bits. -/
def nameQueryPacket (ns : NetbiosNs) (type : NameQueryType) (name : List UInt8)
    (queryFlag : UInt16) : NetbiosQuery :=
  let q := netbiosQueryNew (34 + 4) true netbiosOpNameQuery
  let q := if queryFlag ≠ 0 then netbiosQuerySetFlag q queryFlag true else q
  let q := (netbiosQueryAppend q (cString name)).2
  let q := (netbiosQueryAppend q (le16 type.queryType)).2
  let q := (netbiosQueryAppend q (le16 queryClassIn)).2
  { q with queries := 1, trnId := UInt16.ofNat (ns.lastTrnId.toNat + 1) }

/-- `netbios_ns_send_name_query`, by broadcast for address `0`. -/
def netbiosNsSendNameQuery (ns : NetbiosNs) (ip : UInt32) (type : NameQueryType)
    (name : List UInt8) (queryFlag : UInt16) (env : QueryEnv) : Int × NetbiosNs :=
  let q := nameQueryPacket ns type name queryFlag
  if ip ≠ 0 then
    let r := netbiosNsSendPacket ns q ip env.send
    if r.1 < 0 then (-1, r.2)
    else (0, { r.2 with lastTrnId := r.2.lastTrnId + 1 })
  else
    let ns := netbiosNsBroadcastPacket ns q env.ifaddrs
    (0, { ns with lastTrnId := ns.lastTrnId + 1 })

/-! ## Receiving answers -/

/-- `RECV_BUFFER_SIZE`. -/
def recvBufferSize : Nat := 1500

/-- `ntohs` of the two bytes at `off`. -/
def Mem.ntohs (m : Mem) (off : Nat) : Nat := (m off).toNat * 256 + (m (off + 1)).toNat

/-- `NETBIOS_NAME_FLAG_GROUP`. -/
def netbiosNameFlagGroup : UInt16 := 0x8000

/-- `(current_name[16] << 8) | current_name[17]`, of signed characters: a low byte from `0x80` on
sets the high byte too. -/
def currentFlags (m : Mem) (name : Nat) : UInt16 :=
  (UInt16.ofInt (charValue (m (name + 16))) <<< 8) ||| UInt16.ofInt (charValue (m (name + 17)))

def isGroup (m : Mem) (name : Nat) : Bool := currentFlags m name &&& netbiosNameFlagGroup ≠ 0

def isFileserver (m : Mem) (name : Nat) : Bool :=
  !isGroup m name && m (name + 15) == netbiosFileserver

/-- The first of the `count` names at `names` with property `p`. -/
def findName (p : Nat → Bool) (names count : Nat) : Option Nat :=
  ((List.range count).map fun i => names + i * 18).find? p

/-- The two searches through the names of an NBSTAT answer: for a group, and for a file server,
without which the result stays as it is. -/
def searchNames (m : Mem) (names nameCount : Nat) (out : NetbiosNsNameQuery) :
    NetbiosNsNameQuery :=
  let group := findName (isGroup m) names nameCount
  match findName (isFileserver m) names nameCount with
  | some name => .nbstat name group netbiosFileserver
  | none => out

/-- `netbios_ns_handle_query` on the first `size` bytes of the buffer. The length field may lie
one byte past them: the test before it counts eleven bytes, not twelve. -/
def netbiosNsHandleQuery (ns : NetbiosNs) (size : Nat) (checkTrnId : Bool) (recvIp : UInt32)
    (out : NetbiosNsNameQuery) : Int × NetbiosNsNameQuery :=
  if size < queryHeaderSize then (-1, out)
  else if checkTrnId && ns.buffer.ntohs 0 != ns.lastTrnId.toNat then (-1, out)
  else if size < queryHeaderSize + 1 then (-1, out)
  else
    let nameSize := (ns.buffer queryHeaderSize).toNat
    if nameSize ≠ 0x20 then (-1, out)
    else if size < queryHeaderSize + nameSize + 11 then (-1, out)
    else
      let type := ns.buffer.u16 (queryHeaderSize + nameSize + 2)
      let dataLength := ns.buffer.ntohs (queryHeaderSize + nameSize + 10)
      if size < queryHeaderSize + nameSize + 12 + dataLength then (-1, out)
      else
        let data := queryHeaderSize + nameSize + 12
        if type = queryTypeNb then (0, .nb recvIp)
        else if type = queryTypeNbstat then
          if dataLength < 1 then (-1, out)
          else
            let nameCount := (ns.buffer data).toNat
            let names := data + 1
            if dataLength < nameCount * 18 then (-1, out)
            else (0, searchNames ns.buffer names nameCount out)
        else (0, out)

/-- How a wait for a datagram ends. -/
inductive RecvEvent where
  /-- `select` fails, or reports an error of the socket. -/
  | selectError
  /-- Another thread calls `netbios_ns_abort`. -/
  | abort
  | timeout
  /-- The socket is readable and `recvfrom` fails. -/
  | recvError
  | datagram (sender : UInt32) (bytes : List UInt8)
  deriving DecidableEq, Repr

/-- What `netbios_ns_recv` returns, in `out_addr` as well. -/
structure RecvResult where
  ret : Int
  addr : UInt32
  deriving DecidableEq, Repr

/-- One turn of the loop of `netbios_ns_recv`; `none` is `continue`. With `blocking` there is no
timeout and `select` goes on waiting. -/
def netbiosNsRecvTurn (ns : NetbiosNs) (blocking checkTrnId : Bool) (waitIp : UInt32)
    (out : NetbiosNsNameQuery) (event : RecvEvent) :
    Option RecvResult × NetbiosNsNameQuery × NetbiosNs :=
  match event with
  | .selectError => (some ⟨-1, 0⟩, out, ns)
  | .abort => (some ⟨-1, 0⟩, out, (netbiosNsAbort ns).note .abortSeen)
  | .timeout =>
    if ns.aborted then (some ⟨-1, 0⟩, out, ns.note .abortSeen)
    else if blocking then (none, out, ns)
    else (some ⟨0, 0⟩, out, ns)
  | .recvError =>
    if ns.aborted then (some ⟨-1, 0⟩, out, ns.note .abortSeen)
    else (some ⟨-1, 0⟩, out, ns)
  | .datagram sender bytes =>
    if ns.aborted then (some ⟨-1, 0⟩, out, ns.note .abortSeen)
    else
      let bytes := bytes.take recvBufferSize
      let ns := { ns with buffer := ns.buffer.write 0 bytes }.note (.datagram sender bytes)
      if waitIp ≠ 0 ∧ waitIp ≠ sender then (none, out, ns)
      else
        let r := netbiosNsHandleQuery ns bytes.length checkTrnId sender out
        if r.1 = -1 then (none, r.2, ns) else (some ⟨bytes.length, sender⟩, r.2, ns)

/-- The loop of `netbios_ns_recv` with a timeout, which strikes when nothing more happens. -/
def netbiosNsRecvLoop (ns : NetbiosNs) (checkTrnId : Bool) (waitIp : UInt32)
    (out : NetbiosNsNameQuery) : List RecvEvent → RecvResult × NetbiosNsNameQuery × NetbiosNs
  | [] =>
    let r := netbiosNsRecvTurn ns false checkTrnId waitIp out .timeout
    (r.1.getD ⟨0, 0⟩, r.2)
  | event :: events =>
    match netbiosNsRecvTurn ns false checkTrnId waitIp out event with
    | (some r, out, ns) => (r, out, ns)
    | (none, out, ns) => netbiosNsRecvLoop ns checkTrnId waitIp out events

/-- `netbios_ns_recv` with a timeout. -/
def netbiosNsRecv (ns : NetbiosNs) (checkTrnId : Bool) (waitIp : UInt32)
    (events : List RecvEvent) : RecvResult × NetbiosNsNameQuery × NetbiosNs :=
  netbiosNsRecvLoop ns checkTrnId waitIp .invalid events

/-! ## The entry queue -/

/-- The loop of `netbios_ns_copy_name` from `dest[i]` down to `dest[1]`. -/
def trimSpaces : Nat → List UInt8 → List UInt8
  | 0, dest => dest
  | i + 1, dest => if dest[i + 1]? = some 0x20 then trimSpaces i (dest.set (i + 1) 0) else dest

/-- `netbios_ns_copy_name` of the fifteen bytes at `src`. -/
def netbiosNsCopyName (m : Mem) (src : Nat) : List UInt8 :=
  trimSpaces (netbiosNameLength - 1) (m.read src netbiosNameLength ++ [0])

/-- `netbios_ns_entry_set_name`, the names read through their pointers. -/
def netbiosNsEntrySetName (m : Mem) (entry : NetbiosNsEntry) (name group : Option Nat)
    (type : UInt8) : NetbiosNsEntry :=
  { entry with
    name := (name.map (netbiosNsCopyName m)).getD entry.name
    group := (group.map (netbiosNsCopyName m)).getD entry.group
    type := type
    validName := true }

/-- The entry `netbios_ns_entry_add` allocates, zero but for its address. -/
def netbiosNsEntryNew (ip : UInt32) : NetbiosNsEntry where
  address := ip
  name := List.replicate (netbiosNameLength + 1) 0
  group := List.replicate (netbiosNameLength + 1) 0
  type := 0
  validIp := true
  validName := false
  lastTimeSeen := 0

/-- `netbios_ns_entry_add`. -/
def netbiosNsEntryAdd (ns : NetbiosNs) (entry : NetbiosNsEntry) : NetbiosNs :=
  { ns with entryQueue := entry :: ns.entryQueue }

/-- What `strncmp` compares of a string: at most `n` characters, up to the terminator. -/
def strnPrefix (n : Nat) (s : List UInt8) : List UInt8 := (s.take n).takeWhile (· ≠ 0)

/-- The test of `netbios_ns_entry_find` by name. -/
def NetbiosNsEntry.hasName (byName : List UInt8) (e : NetbiosNsEntry) : Bool :=
  e.validName && strnPrefix netbiosNameLength byName == strnPrefix netbiosNameLength e.name

/-- The test of `netbios_ns_entry_find` by address. -/
def NetbiosNsEntry.hasIp (ip : UInt32) (e : NetbiosNsEntry) : Bool :=
  e.validIp && e.address == ip

def netbiosNsEntryFindName (ns : NetbiosNs) (name : List UInt8) : Option NetbiosNsEntry :=
  ns.entryQueue.find? (NetbiosNsEntry.hasName name)

def netbiosNsEntryFindIp (ns : NetbiosNs) (ip : UInt32) : Option NetbiosNsEntry :=
  ns.entryQueue.find? (NetbiosNsEntry.hasIp ip)

/-- A change through a pointer to the first element with property `p`. -/
def updateFirst {α : Type*} (p : α → Bool) (f : α → α) : List α → List α
  | [] => []
  | a :: as => if p a then f a :: as else a :: updateFirst p f as

/-- A change of the entry that `netbios_ns_entry_find` gives for `ip`. -/
def NetbiosNs.updateEntry (ns : NetbiosNs) (ip : UInt32) (f : NetbiosNsEntry → NetbiosNsEntry) :
    NetbiosNs :=
  { ns with entryQueue := updateFirst (NetbiosNsEntry.hasIp ip) f ns.entryQueue }

/-! ## Resolving -/

/-- `netbios_ns_resolve` of a name without a terminator inside it; `none` is `-1`. -/
def netbiosNsResolve (ns : NetbiosNs) (name : List UInt8) (type : UInt8) (env : QueryEnv)
    (events : List RecvEvent) : Option UInt32 × NetbiosNs :=
  match netbiosNsEntryFindName ns name with
  | some cached => (some cached.address, ns)
  | none =>
    let sent := netbiosNsSendNameQuery ns 0 .nb (netbiosNameEncode name type)
      (netbiosFlagRecursive ||| netbiosFlagBroadcast) env
    if sent.1 = -1 then (none, sent.2)
    else
      let r := netbiosNsRecv sent.2 true 0 events
      if r.1.ret < 0 then (none, r.2.2)
      else
        match r.2.1 with
        | .nb ip => (some ip, r.2.2)
        | .invalid | .nbstat _ _ _ => (none, r.2.2)

/-- `netbios_ns_inverse_internal`. -/
def netbiosNsInverseInternal (ns : NetbiosNs) (ip : UInt32) (env : QueryEnv)
    (events : List RecvEvent) : Option NetbiosNsEntry × NetbiosNs :=
  match netbiosNsEntryFindIp ns ip with
  | some cached => (some cached, ns)
  | none =>
    let sent := netbiosNsSendNameQuery ns ip .nbstat nameQueryBroadcast 0 env
    if sent.1 = -1 then (none, sent.2)
    else
      let r := netbiosNsRecv sent.2 true ip events
      if r.1.ret ≤ 0 then (none, r.2.2)
      else
        match r.2.1 with
        | .nbstat name group type =>
          let entry :=
            netbiosNsEntrySetName r.2.2.buffer (netbiosNsEntryNew ip) (some name) group type
          (some entry, netbiosNsEntryAdd r.2.2 entry)
        | .invalid | .nb _ => (none, r.2.2)

/-- `netbios_ns_inverse`; `none` is `NULL`. -/
def netbiosNsInverse (ns : NetbiosNs) (ip : UInt32) (env : QueryEnv) (events : List RecvEvent) :
    Option (List UInt8) × NetbiosNs :=
  let r := netbiosNsInverseInternal ns ip env events
  (r.1.map NetbiosNsEntry.name, r.2)

/-! ## The discovery thread -/

/-- Where `netbios_ns_discover_thread` is: at the head of its loop, before the broadcast, in the
loop of `netbios_ns_recv` with the result structure as it stands, before an NBSTAT query, or at
its end. -/
inductive DiscoverPc where
  | top
  | broadcast
  | recv (out : NetbiosNsNameQuery)
  | query (ip : UInt32)
  | ended
  deriving DecidableEq, Repr

/-- What the kernel does for one step of the thread: whether the `select` of
`netbios_abort_ctx_is_aborted` fails, which counts as an abort, the clock, and the waits. -/
structure ThreadEnv where
  selectFails : Bool
  now : Int
  query : QueryEnv
  recv : RecvEvent
  deriving DecidableEq, Repr

/-- `remove_timeout`, an `int` from an `unsigned` product. -/
def NetbiosNs.removeTimeout (ns : NetbiosNs) : Int :=
  ((5 * ns.discoverBroadcastTimeout).toNat : Int).bmod (2 ^ 32)

/-- The test of the expiry loop. -/
def NetbiosNs.expired (ns : NetbiosNs) (now : Int) (e : NetbiosNsEntry) : Bool :=
  now - e.lastTimeSeen > ns.removeTimeout

/-- The expiry loop: it goes through the queue in order, reports the entries that have a name and
takes out the others silently. -/
def discoverExpire (ns : NetbiosNs) (now : Int) : NetbiosNs :=
  { ns with
    entryQueue := ns.entryQueue.filter fun e => !ns.expired now e
    log := ns.log ++
      (ns.entryQueue.filter fun e => ns.expired now e && e.validName).map .entryRemoved }

/-- The thread's work on an NB answer that names `ip`. -/
def discoverNb (ns : NetbiosNs) (ip : UInt32) (now : Int) : DiscoverPc × NetbiosNs :=
  let found := netbiosNsEntryFindIp ns ip
  let entry := found.getD (netbiosNsEntryNew ip)
  let ns := if found.isNone then netbiosNsEntryAdd ns entry else ns
  let ns := ns.updateEntry ip fun e => { e with lastTimeSeen := now }
  if entry.validName then (.recv .invalid, ns) else (.query ip, ns)

/-- The thread's work on an NBSTAT answer from `addr`. -/
def discoverNbstat (ns : NetbiosNs) (addr : UInt32) (name : Nat) (group : Option Nat)
    (type : UInt8) (now : Int) : DiscoverPc × NetbiosNs :=
  match netbiosNsEntryFindIp ns addr with
  | none => (.recv .invalid, ns)
  | some entry =>
    let update (e : NetbiosNsEntry) : NetbiosNsEntry :=
      netbiosNsEntrySetName ns.buffer { e with lastTimeSeen := now } (some name) group type
    let ns := ns.updateEntry addr update
    if entry.validName then (.recv .invalid, ns)
    else (.recv .invalid, ns.note (.entryAdded (update entry)))

/-- The thread's work on a datagram that `netbios_ns_recv` has accepted. -/
def discoverAnswer (ns : NetbiosNs) (query : NetbiosNsNameQuery) (addr : UInt32) (now : Int) :
    DiscoverPc × NetbiosNs :=
  match query with
  | .nb ip => discoverNb ns ip now
  | .nbstat name group type => discoverNbstat ns addr name group type now
  | .invalid => (.recv .invalid, ns)

/-- One step of `netbios_ns_discover_thread`. -/
def netbiosNsDiscoverThread (pc : DiscoverPc) (ns : NetbiosNs) (env : ThreadEnv) :
    DiscoverPc × NetbiosNs :=
  match pc with
  | .top =>
    if env.selectFails then (.ended, ns)
    else if ns.aborted then (.ended, ns.note .abortSeen)
    else (.broadcast, discoverExpire ns env.now)
  | .broadcast =>
    let sent := netbiosNsSendNameQuery ns 0 .nb nameQueryBroadcast 0 env.query
    if sent.1 = -1 then (.ended, sent.2) else (.recv .invalid, sent.2)
  | .recv out =>
    let blocking := ns.discoverBroadcastTimeout == 0
    match netbiosNsRecvTurn ns blocking false 0 out env.recv with
    | (none, out, ns) => (.recv out, ns)
    | (some r, out, ns) =>
      if r.ret = -1 then (.ended, ns)
      else if r.ret = 0 then (if blocking then .ended else .top, ns)
      else discoverAnswer ns out r.addr env.now
  | .query ip =>
    let sent := netbiosNsSendNameQuery ns ip .nbstat nameQueryBroadcast 0 env.query
    if sent.1 = -1 then (.ended, sent.2) else (.recv .invalid, sent.2)
  | .ended => (.ended, ns)

/-! ## The public calls -/

/-- A `netbios_ns` with its discovery thread; `stopping` while `netbios_ns_discover_stop` waits in
`pthread_join`. -/
structure NsSystem where
  ns : NetbiosNs
  thread : DiscoverPc
  stopping : Bool

/-- A call of the main thread, a step of the discovery thread, or the return of `pthread_join`. -/
inductive NsAction where
  | resolve (name : List UInt8) (type : UInt8) (env : QueryEnv) (events : List RecvEvent)
  | inverse (ip : UInt32) (env : QueryEnv) (events : List RecvEvent)
  /-- `callbacks` is whether the pointer is not `NULL`, `created` whether `pthread_create`
  succeeds. -/
  | discoverStart (broadcastTimeout : UInt32) (callbacks created : Bool)
  | discoverStop
  | joined
  | abort
  | thread (env : ThreadEnv)
  deriving DecidableEq, Repr

/-- `netbios_ns_discover_start`. The result is whether it returns `0`. -/
def netbiosNsDiscoverStart (s : NsSystem) (broadcastTimeout : UInt32) (callbacks created : Bool) :
    Bool × NsSystem :=
  if s.ns.discoverStarted || !callbacks then (false, s)
  else
    let ns := { s.ns with discoverBroadcastTimeout := broadcastTimeout }
    if created then
      (true, { s with ns := { ns with discoverStarted := true }, thread := .top })
    else (false, { s with ns })

/-- `netbios_ns_discover_stop` up to `pthread_join`; `false` is the return of `-1`. -/
def netbiosNsDiscoverStop (s : NsSystem) : Bool × NsSystem :=
  if s.ns.discoverStarted then (true, { s with ns := netbiosNsAbort s.ns, stopping := true })
  else (false, s)

/-- `netbios_ns_discover_stop` after `pthread_join`, which returns once the thread has ended. -/
def netbiosNsDiscoverJoined (s : NsSystem) : NsSystem :=
  if s.stopping && s.thread = .ended then
    { s with ns := { s.ns with discoverStarted := false }, stopping := false }
  else s

/-- One action. The main thread makes no call while it waits in `pthread_join`, and a call that
breaks an assertion stops the program; here such a call does nothing. -/
def NsSystem.step (s : NsSystem) (a : NsAction) : NsSystem :=
  match a with
  | .resolve name type env events =>
    if s.ns.discoverStarted then s
    else { s with ns := (netbiosNsResolve s.ns name type env events).2 }
  | .inverse ip env events =>
    if ip = 0 ∨ s.ns.discoverStarted then s
    else { s with ns := (netbiosNsInverse s.ns ip env events).2 }
  | .discoverStart broadcastTimeout callbacks created =>
    if s.stopping then s else (netbiosNsDiscoverStart s broadcastTimeout callbacks created).2
  | .discoverStop => if s.stopping then s else (netbiosNsDiscoverStop s).2
  | .joined => netbiosNsDiscoverJoined s
  | .abort => { s with ns := netbiosNsAbort s.ns }
  | .thread env =>
    let r := netbiosNsDiscoverThread s.thread s.ns env
    { s with thread := r.1, ns := r.2 }

/-- A fresh `netbios_ns`, without a thread. -/
def NsSystem.new (rand : UInt16) : NsSystem where
  ns := netbiosNsNew rand
  thread := .ended
  stopping := false

end Libdsm
