import Mathlib.Data.List.TakeWhile
import Libdsm.Smb.Proofs.ShareEnum
import Libdsm.Smb.Proofs.ShareTable
import Libdsm.Smb.Proofs.Status

/-!
# Listing the shares

`smb_share_get_list` receives two replies of its own, to the bind request and to the enumeration, and
makes its list of the second. This module says what the call returns for any two replies, when that
is a list of a reply that was received and reports no error, and when the list has as many elements
as it is said to have.
-/

namespace Libdsm

/-! ## The replies of a call -/

/-- On the open pipe, up to the bind reply: the value of that receive, and what `resp` then holds. -/
def pipeBind (P : Platform) (ipcTid : UInt16) (srvsvcFd : UInt32) :
    SmbM (Option (Nat × SmbMessage)) := do
  if !(← smbSessionSendMsg (smbShareBindReq P ipcTid (smbFdFid srvsvcFd))) then return none
  let uninit : SmbMessage := { payloadSize := (P.stack.u64 0).toNat, cursor := 0, packet := P.stack }
  let reply ← smbSessionRecvInto uninit
  return some reply

/-- What the code asks of the bind reply before it goes on. -/
def BindAccepted (reply : Nat × SmbMessage) : Prop :=
  71 ≤ reply.2.payloadSize ∧ reply.1 ≠ 0 ∧ reply.2.payload 68 = 0

instance (reply : Nat × SmbMessage) : Decidable (BindAccepted reply) :=
  inferInstanceAs (Decidable (_ ∧ _))

/-- On the open pipe, up to the enumeration reply. -/
def pipeEnum (P : Platform) (ipcTid : UInt16) (srvsvcFd : UInt32) :
    SmbM (Option (Nat × SmbMessage)) := do
  let some reply ← pipeBind P ipcTid srvsvcFd | return none
  if ¬ BindAccepted reply then return none
  let s ← get
  if !(← smbSessionSendMsg (smbShareEnumReq P s.srv.name ipcTid (smbFdFid srvsvcFd))) then
    return none
  let reply ← smbSessionRecvInto reply.2
  return some reply

/-- What a call of `smb_share_get_list` does on its pipe, if it gets that far. -/
def onPipe (P : Platform) (step : UInt16 → UInt32 → SmbM (Option (Nat × SmbMessage))) :
    SmbM (Option (Nat × SmbMessage)) := do
  let (_, ipcTid) ← smbTreeConnect P (ascii "IPC$")
  let some ipcTid := ipcTid | return none
  let (_, srvsvcFd) ← smbFopen P ipcTid (ascii "\\srvsvc") (smbModRead ||| smbModWrite)
  let some srvsvcFd := srvsvcFd | return none
  step ipcTid srvsvcFd

/-- A call up to its bind reply, and up to its enumeration reply. -/
def bindReply (P : Platform) : SmbM (Option (Nat × SmbMessage)) := onPipe P (pipeBind P)
def enumReply (P : Platform) : SmbM (Option (Nat × SmbMessage)) := onPipe P (pipeEnum P)

/-- The test on the enumeration reply. -/
def EnumRefused (reply : Nat × SmbMessage) : Prop :=
  reply.2.payloadSize < 4 ∨ reply.1 = 0 ∧ reply.2.payload (reply.2.payloadSize - 4) ≠ 0

instance (reply : Nat × SmbMessage) : Decidable (EnumRefused reply) :=
  inferInstanceAs (Decidable (_ ∨ _))

/-! ## What a call returns -/

/-- A result with nothing in it reports an error. -/
def Reported {α : Type} (r : DsmCode × Option α) : Prop := r.2 = none → r.1 ≠ .success

theorem Opened.reported {α : Type} {shares : List SmbShare} {Added : α → SmbSession → Prop}
    {r : DsmCode × Option α} {s : SmbSession} (h : Opened shares Added r s) : Reported r := by
  obtain ⟨id, rfl, -⟩ | ⟨hcode, -, -⟩ := h
  · exact fun hnone => absurd hnone (Option.some_ne_none id)
  · exact fun _ => hcode

theorem treeConnect_reported (P : Platform) (name : List UInt8) :
    Returns Reported (smbTreeConnect P name) :=
  fun s => (treeConnect_opened P name s rfl).reported

theorem fopen_reported (P : Platform) (tid : UInt16) (path : List UInt8) (oFlags : UInt32) :
    Returns Reported (smbFopen P tid path oFlags) :=
  fun s => (fopen_opened P tid path oFlags s rfl).reported

/-- What a call returns: an error if it does not get to the enumeration reply, and after that what the
test on the reply says. -/
structure ListResult (P : Platform) (reply : Option (Nat × SmbMessage))
    (res : DsmCode × Option SmbShareList) : Prop where
  unanswered : reply = none → res.1 ≠ .success ∧ res.2 = none
  answered : ∀ r, reply = some r → res =
    if EnumRefused r then (.errorNetwork, none) else (.success, some (smbShareParseEnum P r.2))

theorem listResult_error (P : Platform) {code : DsmCode} (h : code ≠ .success) :
    ListResult P none (code, none) :=
  ⟨fun _ => ⟨h, rfl⟩, fun r hr => absurd hr (by simp)⟩

theorem listResult_answer (P : Platform) (reply : Nat × SmbMessage) :
    ListResult P (some reply)
      (if EnumRefused reply then (.errorNetwork, none)
        else (.success, some (smbShareParseEnum P reply.2))) := by
  refine ⟨fun h => absurd h (by simp), fun r hr => ?_⟩
  rw [Option.some.inj hr]

theorem shareEnum_result (P : Platform) (ipcTid : UInt16) (srvsvcFd : UInt32) (s : SmbSession) :
    ListResult P (pipeEnum P ipcTid srvsvcFd s).1 (smbShareEnum P ipcTid srvsvcFd s).1 := by
  have herr : ListResult P none (.errorNetwork, none) := listResult_error P (by decide)
  have hsent : ¬ (!true) = true := by decide
  have hfailed : (!false) = true := rfl
  rw [pipeEnum, pipeBind, smbShareEnum, bind_assoc]
  refine bind_rel (fun ok s => ?_) s
  cases ok with
  | false =>
    dsimp only
    rw [if_pos hfailed, if_pos hfailed, pure_bind]
    exact herr
  | true =>
    dsimp only
    rw [if_neg hsent, if_neg hsent, bind_assoc]
    refine bind_rel (fun reply s => ?_) s
    rw [pure_bind]
    dsimp only
    by_cases hbind : BindAccepted reply
    · rw [if_neg (not_not_intro hbind), if_neg (Nat.not_lt.mpr hbind.1),
        if_neg (not_or_intro hbind.2.1 (not_not_intro hbind.2.2))]
      rw [get_bind_run, get_bind_run]
      generalize smbShareEnumReq P s.srv.name ipcTid (smbFdFid srvsvcFd) = req
      refine bind_rel (fun ok s => ?_) s
      cases ok with
      | false =>
        rw [if_pos hfailed, if_pos hfailed]
        exact herr
      | true =>
        rw [if_neg hsent, if_neg hsent]
        refine bind_rel (fun reply s => ?_) s
        have hanswer := listResult_answer P reply
        by_cases hlen : reply.2.payloadSize < 4
        · rw [if_pos hlen]
          rw [if_pos (.inl hlen)] at hanswer
          exact hanswer
        · rw [if_neg hlen]
          by_cases hlost : reply.1 = 0 ∧ reply.2.payload (reply.2.payloadSize - 4) ≠ 0
          · rw [if_pos hlost]
            rw [if_pos (.inr hlost)] at hanswer
            exact hanswer
          · have htaken : ¬ EnumRefused reply := not_or_intro hlen hlost
            rw [if_neg hlost]
            rw [if_neg htaken] at hanswer
            exact hanswer
    · rw [if_pos hbind]
      by_cases hlen : reply.2.payloadSize < 71
      · rw [if_pos hlen]
        exact herr
      · rw [if_neg hlen, if_pos]
        · exact herr
        · by_contra hrest
          obtain ⟨hres, hbyte⟩ := not_or.mp hrest
          exact hbind ⟨Nat.not_lt.mp hlen, hres, not_not.mp hbyte⟩

theorem shareGetList_result (P : Platform) (s : SmbSession) :
    ListResult P (enumReply P s).1 (smbShareGetList P s).1 := by
  rw [enumReply, onPipe, smbShareGetList]
  refine (treeConnect_reported P _).bind_rel (fun a s htree => ?_) s
  obtain ⟨ret, ipcTid⟩ := a
  cases ipcTid with
  | none => exact listResult_error P (htree rfl)
  | some ipcTid =>
    dsimp only
    refine (fopen_reported P _ _ _).bind_rel (fun a s hopen => ?_) s
    obtain ⟨ret, srvsvcFd⟩ := a
    cases srvsvcFd with
    | none => exact listResult_error P (hopen rfl)
    | some srvsvcFd =>
      dsimp only
      rw [bind_after_fst]
      exact shareEnum_result P ipcTid srvsvcFd s

/-- A call that gets to its enumeration reply has accepted a bind reply. -/
def BoundFirst (enum bind : Option (Nat × SmbMessage)) : Prop :=
  enum = none ∨ ∃ reply, bind = some reply ∧ BindAccepted reply

theorem pipeEnum_bound (P : Platform) (ipcTid : UInt16) (srvsvcFd : UInt32) (s : SmbSession) :
    BoundFirst (pipeEnum P ipcTid srvsvcFd s).1 (pipeBind P ipcTid srvsvcFd s).1 := by
  rw [pipeEnum]
  refine bind_rel_fst (fun reply s => ?_) s
  cases reply with
  | none => exact .inl rfl
  | some reply =>
    dsimp only
    by_cases hbind : BindAccepted reply
    · exact .inr ⟨reply, rfl, hbind⟩
    · rw [if_pos hbind]
      exact .inl rfl

theorem enumReply_bound (P : Platform) (s : SmbSession) :
    BoundFirst (enumReply P s).1 (bindReply P s).1 := by
  rw [enumReply, bindReply, onPipe, onPipe]
  refine bind_rel (fun a s => ?_) s
  obtain ⟨ret, ipcTid⟩ := a
  cases ipcTid with
  | none => exact .inl rfl
  | some ipcTid =>
    dsimp only
    refine bind_rel (fun a s => ?_) s
    obtain ⟨ret, srvsvcFd⟩ := a
    cases srvsvcFd with
    | none => exact .inl rfl
    | some srvsvcFd => exact pipeEnum_bound P ipcTid srvsvcFd s

/-! ## Lists of replies that were received -/

/-- A call that succeeds has received both of its replies: the server accepted the bind, the status
that ends the enumeration reply is zero, and the list is made of that reply. A call that does not
succeed has no list. -/
structure ListsReceived (P : Platform) (s : SmbSession) : Prop where
  received : (smbShareGetList P s).1.1 = .success →
    ∃ bind enum, (bindReply P s).1 = some bind ∧ (enumReply P s).1 = some enum ∧
      bind.1 ≠ 0 ∧ bind.2.payload 68 = 0 ∧ enum.1 ≠ 0 ∧ 4 ≤ enum.2.payloadSize ∧
      enum.2.payload.u32 (enum.2.payloadSize - 4) = 0 ∧
      (smbShareGetList P s).1.2 = some (smbShareParseEnum P enum.2)
  failed : (smbShareGetList P s).1.1 ≠ .success → (smbShareGetList P s).1.2 = none

/-- What an enumeration reply has to be: one that is received ends in a zero status, and one that is
lost leaves a byte other than zero where the low byte of its status would be. -/
def EnumReported (reply : Nat × SmbMessage) : Prop :=
  4 ≤ reply.2.payloadSize →
    if reply.1 = 0 then reply.2.payload (reply.2.payloadSize - 4) ≠ 0
    else reply.2.payload.u32 (reply.2.payloadSize - 4) = 0

/-- `smb_share_get_list` succeeds only on replies it has received and that report no error, if and only
if the enumeration reply, where the call gets to it, is such a one. -/
theorem listsReceived_iff (P : Platform) (s : SmbSession) :
    ListsReceived P s ↔ ∀ reply, (enumReply P s).1 = some reply → EnumReported reply := by
  have hresult := shareGetList_result P s
  have hbound := enumReply_bound P s
  constructor
  · intro h reply hreply hlen
    have hres := hresult.answered reply hreply
    by_cases hrefused : EnumRefused reply
    · obtain ⟨hlost, hbyte⟩ := hrefused.resolve_left (Nat.not_lt.mpr hlen)
      rw [if_pos hlost]
      exact hbyte
    · rw [if_neg hrefused] at hres
      obtain ⟨bind, enum, -, henum, -, -, hreceived, -, hstatus, -⟩ := h.received (by rw [hres])
      obtain rfl : reply = enum := Option.some.inj (hreply.symm.trans henum)
      rw [if_neg hreceived]
      exact hstatus
  · intro h
    cases hreply : (enumReply P s).1 with
    | none =>
      obtain ⟨hcode, hlist⟩ := hresult.unanswered hreply
      exact ⟨fun hsuccess => absurd hsuccess hcode, fun _ => hlist⟩
    | some reply =>
      have hres := hresult.answered reply hreply
      by_cases hrefused : EnumRefused reply
      · rw [if_pos hrefused] at hres
        refine ⟨fun hsuccess => ?_, fun _ => by rw [hres]⟩
        rw [hres] at hsuccess
        cases hsuccess
      · rw [if_neg hrefused] at hres
        have hlen : 4 ≤ reply.2.payloadSize := Nat.not_lt.mp fun hlt => hrefused (.inl hlt)
        obtain ⟨bind, hbind, -, hbound, hbyte⟩ := hbound.resolve_left (by rw [hreply]; simp)
        have hreported := h reply hreply hlen
        -- a lost reply would have been refused
        have hreceived : reply.1 ≠ 0 := by
          intro hlost
          rw [if_pos hlost] at hreported
          exact hrefused (.inr ⟨hlost, hreported⟩)
        rw [if_neg hreceived] at hreported
        refine ⟨fun _ => ?_, fun hfailed => absurd (by rw [hres]) hfailed⟩
        exact ⟨bind, reply, hbind, hreply, hbound, hbyte, hreceived, hlen, hreported, by rw [hres]⟩

/-- A session whose calls on the pipe of the shares are answered with this enumeration. -/
def sharesOf (payload : List UInt8) : SmbSession :=
  connectedTo [treeReply 5, pipeReply 0, pipeReply 0, replyBytes 0 0 0 payload, pipeReply 0]

/-- An enumeration that fails with the status `ERROR_ACCESS_DENIED` is taken for an empty list. -/
theorem listsReceived_denied :
    let s := sharesOf (List.replicate 72 0 ++ le32 5)
    (smbShareGetList .ascii s).1 = (.success, some []) ∧ ¬ ListsReceived .ascii s := by
  intro s
  have hres : (smbShareGetList .ascii s).1 = (.success, some []) := by decide +kernel
  refine ⟨hres, fun h => ?_⟩
  obtain ⟨bind, enum, -, henum, -, -, -, -, hstatus, -⟩ := h.received (by rw [hres])
  have hsent : (enumReply .ascii s).1.map (fun reply =>
      reply.2.payload.u32 (reply.2.payloadSize - 4)) = some 5 := by decide +kernel
  rw [henum, Option.map_some, hstatus] at hsent
  exact absurd hsent (by decide)

/-! ## The count of a list -/

/-- The names the loop of `smb_share_parse_enum` gets to, as they were sent. -/
def enumNames (payload : Mem) (eod : Nat) : Nat → Nat → List (List UInt8)
  | 0, _ => []
  | count + 1, data =>
    if ¬ data < eod then []
    else if eod < data + 4 then []
    else
      let nameLen := payload.u32 data
      let data := data + 12
      if eod < data + 4 + twice32 nameLen + 4 then []
      else
        let next := data + twice32 (even32 nameLen)
        payload.read data (twice32 nameLen) ::
          enumNames payload eod count (next + 12 + twice32 (even32 (payload.u32 next)))

/-- The names a reply carries. -/
def sentNames (msg : SmbMessage) : List (List UInt8) :=
  enumNames msg.payload msg.payloadSize (smbShareCount msg).toNat
    (72 + (smbShareCount msg * 12).toNat)

/-- What is stored of a name: `NULL` if nothing comes of the conversion. -/
def storedName (P : Platform) (name : List UInt8) : Option (List UInt8) :=
  if smbFromUtf16 P name = [] then none else some (smbFromUtf16 P name)

theorem parseEnumLoop_names (P : Platform) (payload : Mem) (eod : Nat) :
    ∀ count data, smbShareParseEnumLoop P payload eod count data =
      (enumNames payload eod count data).map (storedName P) := by
  intro count
  induction count with
  | zero =>
    intro data
    rfl
  | succ count ih =>
    intro data
    rw [smbShareParseEnumLoop, enumNames]
    by_cases hdata : data < eod
    · rw [if_neg (not_not_intro hdata), if_neg (not_not_intro hdata)]
      by_cases hlen : eod < data + 4
      · rw [if_pos hlen, if_pos hlen, List.map_nil]
      · rw [if_neg hlen, if_neg hlen]
        dsimp only
        by_cases hname : eod < data + 12 + 4 + twice32 (payload.u32 data) + 4
        · rw [if_pos hname, if_pos hname, List.map_nil]
        · rw [if_neg hname, if_neg hname, List.map_cons, ← ih, storedName]
    · rw [if_pos hdata, if_pos hdata, List.map_nil]

theorem parseEnum_names (P : Platform) (msg : SmbMessage) :
    smbShareParseEnum P msg = (sentNames msg).map (storedName P) :=
  parseEnumLoop_names P _ _ _ _

/-- `smb_share_list_count` finds as many elements in the list as `*pcount` says, all of them strings
that a zero byte ends. -/
structure CountAgrees (P : Platform) (msg : SmbMessage) (list : SmbShareList) : Prop where
  count : smbShareListCount list = list.length
  ended : smbShareListElem P msg list.length = some none
  strings : ∀ i < list.length, ∃ str, smbShareListElem P msg i = some (some str) ∧ 0 ∈ str

/-- A name whose conversion has a zero byte is stored. -/
theorem storedName_of_terminated {P : Platform} {name : List UInt8} (h : 0 ∈ smbFromUtf16 P name) :
    storedName P name = some (smbFromUtf16 P name) :=
  if_neg (List.ne_nil_of_mem h)

/-- The element of a name the reply carries, if it is inside the list. -/
theorem shareListElem_name (P : Platform) {msg : SmbMessage} {i : Nat} (hi : i < (sentNames msg).length)
    (hsize : i < smbShareListSize msg) :
    smbShareListElem P msg i = some (storedName P (sentNames msg)[i]) := by
  rw [smbShareListElem, if_pos hsize, parseEnum_names, List.getD_eq_getElem?_getD, List.getElem?_map,
    List.getElem?_eq_getElem hi]
  rfl

theorem countAgrees_iff (P : Platform) (msg : SmbMessage) :
    CountAgrees P msg (smbShareParseEnum P msg) ↔
      smbShareCount msg ≠ 0xffffffff ∧ ∀ name ∈ sentNames msg, 0 ∈ smbFromUtf16 P name := by
  have hnames := parseEnum_names P msg
  have hlength : (smbShareParseEnum P msg).length = (sentNames msg).length := by
    rw [hnames, List.length_map]
  constructor
  · intro h
    have hcount : smbShareCount msg ≠ 0xffffffff := by
      intro hmax
      have hended := h.ended
      rw [shareListElem_wrapped P hmax] at hended
      cases hended
    refine ⟨hcount, fun name hname => ?_⟩
    have hle := parseEnum_length P msg
    have hsize := shareListSize_eq hcount
    obtain ⟨i, hi, rfl⟩ := List.mem_iff_getElem.mp hname
    obtain ⟨str, helem, hzero⟩ := h.strings i (by omega)
    rw [shareListElem_name P hi (by omega), Option.some.injEq, storedName] at helem
    split at helem
    · cases helem
    · rw [Option.some.inj helem]
      exact hzero
  · rintro ⟨hcount, hzero⟩
    have hle := parseEnum_length P msg
    have hsize := shareListSize_eq hcount
    have hstored : smbShareParseEnum P msg = (sentNames msg).map fun name => some (smbFromUtf16 P name) := by
      rw [hnames]
      exact List.map_congr_left fun name hname => storedName_of_terminated (hzero name hname)
    refine ⟨?_, shareListElem_end P (by omega), fun i hi => ?_⟩
    · have hall : ∀ elem ∈ smbShareParseEnum P msg, elem.isSome = true := by
        rw [hstored]
        intro elem helem
        obtain ⟨name, -, rfl⟩ := List.mem_map.mp helem
        rfl
      rw [smbShareListCount, List.takeWhile_eq_self_iff.mpr hall]
    · have hmem : (sentNames msg)[i] ∈ sentNames msg := List.getElem_mem (by omega)
      refine ⟨_, ?_, hzero _ hmem⟩
      rw [shareListElem_name P (by omega) (by omega), storedName_of_terminated (hzero _ hmem)]

/-- Whenever `smb_share_get_list` succeeds, the list has as many elements as `*pcount` says if and only
if every name of the enumeration reply converts to a string with a zero byte, and the number of shares
it announces is not the largest one. -/
theorem shareGetList_counts (P : Platform) (s : SmbSession) (list : SmbShareList)
    (h : (smbShareGetList P s).1 = (.success, some list)) :
    ∃ reply, (enumReply P s).1 = some reply ∧ list = smbShareParseEnum P reply.2 ∧
      (CountAgrees P reply.2 list ↔
        smbShareCount reply.2 ≠ 0xffffffff ∧
          ∀ name ∈ sentNames reply.2, 0 ∈ smbFromUtf16 P name) := by
  have hresult := shareGetList_result P s
  cases hreply : (enumReply P s).1 with
  | none =>
    have hcode := (hresult.unanswered hreply).1
    rw [h] at hcode
    exact absurd rfl hcode
  | some reply =>
    have hres := hresult.answered reply hreply
    rw [h] at hres
    by_cases hrefused : EnumRefused reply
    · rw [if_pos hrefused] at hres
      cases hres
    · rw [if_neg hrefused] at hres
      obtain rfl : list = smbShareParseEnum P reply.2 := Option.some.inj (Prod.mk.inj hres).2
      exact ⟨reply, rfl, rfl, countAgrees_iff P reply.2⟩

/-- Two shares whose names are sent with the zero that ends them. -/
theorem shareGetList_counts_two :
    let list : SmbShareList := [some (cString (ascii "C$")), some (cString (ascii "pub"))]
    ∃ reply, (enumReply .ascii (sharesOf (enumPayload sampleShares ++ le32 0))).1 = some reply ∧
      list = smbShareParseEnum .ascii reply.2 ∧
      (CountAgrees .ascii reply.2 list ↔ smbShareCount reply.2 ≠ 0xffffffff ∧
        ∀ name ∈ sentNames reply.2, 0 ∈ smbFromUtf16 .ascii name) :=
  shareGetList_counts .ascii _ _ (by decide +kernel)

/-- Three shares, the second of which has an empty name. -/
def namelessShares : List ShareInfo :=
  [⟨ndrAscii (cString (ascii "a")), ndrAscii []⟩, ⟨ndrAscii [], ndrAscii []⟩,
    ⟨ndrAscii (cString (ascii "b")), ndrAscii []⟩]

/-- A share without a name hides the share behind it. -/
theorem shareGetList_miscounts :
    let s := sharesOf (enumPayload namelessShares ++ le32 0)
    let list : SmbShareList := [some (cString (ascii "a")), none, some (cString (ascii "b"))]
    (smbShareGetList .ascii s).1 = (.success, some list) ∧ smbShareListCount list = 1 ∧
      ∃ reply, (enumReply .ascii s).1 = some reply ∧ ¬ CountAgrees .ascii reply.2 list := by
  intro s list
  have hanswered : (enumReply .ascii s).1.isSome = true := by decide +kernel
  obtain ⟨reply, hreply⟩ := Option.isSome_iff_exists.mp hanswered
  refine ⟨by decide +kernel, by decide +kernel, reply, hreply, fun h => ?_⟩
  have hcount := h.count
  revert hcount
  decide +kernel

end Libdsm
