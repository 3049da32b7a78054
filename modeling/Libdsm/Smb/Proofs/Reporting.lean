import Libdsm.Smb.Proofs.Search
import Libdsm.Smb.Proofs.ShareList

/-!
# Error replies to the listings

`smb_find` looks at the status of none of its replies, and `smb_share_get_list` at none after those of
the operations it calls. Where either hands out something, an error status among its replies has gone
unnoticed; where the replies give it nothing to hand out, it is refused all the same. With the
operations that check, this says for every call when no error reply is reported as a success.
-/

namespace Libdsm

/-- Only a login has a reply whose status may be an error. -/
theorem statusSound_iff {P : Platform} {s : SmbSession} {op : SmbOp}
    (hlogin : ∀ nonces, op ≠ .login nonces) :
    StatusSound P s op ↔ ((op.result P s).isRefusal = false → NoError (op.events P s)) := by
  constructor
  · intro h hres opcode reply hmem herr
    obtain ⟨before, after, hev⟩ := List.append_of_mem hmem
    have hrefused := h before opcode reply after hev herr fun hc =>
      hc.1.elim fun nonces hop => hlogin nonces hop
    rw [hres] at hrefused
    cases hrefused
  · intro h before opcode reply after hev herr _
    by_contra hres
    rw [Bool.not_eq_true] at hres
    exact h hres opcode reply (by rw [hev]; simp) herr

/-- No error reply to the call goes unnoticed. A search hands out files, whatever the status of its
replies, if its FIND_FIRST answer has an entry and every FIND_NEXT request is answered; a listing of the
shares a list, if it gets to an enumeration reply and accepts it. The other operations check. -/
def SmbOp.StatusClear (P : Platform) (s : SmbSession) : SmbOp → Prop
  | .find tid pattern =>
    ∀ msg, (smbTrans2FindFirst P tid pattern s).1 = some msg → FirstHasEntry P msg →
      none ∉ (smbFindAnswers P tid pattern s).1 → NoError (SmbOp.events P s (.find tid pattern))
  | .shareGetList =>
    ∀ reply, (enumReply P s).1 = some reply → ¬ EnumRefused reply →
      NoError (SmbOp.events P s .shareGetList)
  | _ => True

theorem find_sound_iff (P : Platform) (s : SmbSession) (tid : UInt16) (pattern : List UInt8) :
    StatusSound P s (.find tid pattern) ↔ SmbOp.StatusClear P s (.find tid pattern) := by
  have hrefusal : (SmbOp.result P s (.find tid pattern)).isRefusal = false ↔
      ∃ msg, (smbTrans2FindFirst P tid pattern s).1 = some msg ∧ FirstHasEntry P msg ∧
        none ∉ (smbFindAnswers P tid pattern s).1 := by
    have hnil := find_nil_iff P tid pattern s
    show decide ((smbFind P tid pattern s).1 = []) = false ↔ _
    rw [decide_eq_false_iff_not, hnil]
    push Not
    rfl
  rw [statusSound_iff (by simp), hrefusal, SmbOp.StatusClear]
  exact ⟨fun h msg hmsg hentry hall => h ⟨msg, hmsg, hentry, hall⟩,
    fun h ⟨msg, hmsg, hentry, hall⟩ => h msg hmsg hentry hall⟩

/-- The result of a listing of the shares. -/
theorem shareGetList_exec (P : Platform) (s : SmbSession) :
    Triple (· = s) (SmbOp.exec P .shareGetList) fun r _ =>
      r = .shares (smbShareGetList P s).1.1 (smbShareGetList P s).1.2 := by
  have hcall : Triple (· = s) (smbShareGetList P) fun r _ => r = (smbShareGetList P s).1 := by
    rintro _ rfl
    rfl
  exact hcall.bind fun r => .pure fun _ hr => by rw [hr]

theorem shareGetList_sound_iff (P : Platform) (s : SmbSession) :
    StatusSound P s .shareGetList ↔ SmbOp.StatusClear P s .shareGetList := by
  have hresult := shareGetList_result P s
  have hrefusal : (SmbOp.result P s .shareGetList).isRefusal = false ↔
      ∃ reply, (enumReply P s).1 = some reply ∧ ¬ EnumRefused reply := by
    have hexec := exec_spec (shareGetList_exec P s) rfl
    rw [hexec, SmbResult.isRefusal, decide_eq_false_iff_not]
    cases hreply : (enumReply P s).1 with
    | none =>
      exact ⟨fun h => absurd (hresult.unanswered hreply) h, fun ⟨reply, h, _⟩ => absurd h (by simp)⟩
    | some reply =>
      rw [hresult.answered reply hreply]
      by_cases hrefused : EnumRefused reply
      · simp [hrefused]
      · simp [hrefused]
  rw [statusSound_iff (by simp), hrefusal, SmbOp.StatusClear]
  exact ⟨fun h reply hreply haccepted => h ⟨reply, hreply, haccepted⟩,
    fun h ⟨reply, hreply, haccepted⟩ => h reply hreply haccepted⟩

/-- A call reports no success from an error reply if and only if none of the replies on which it would
succeed unchecked is one. -/
theorem reporting_sound_iff (P : Platform) (s : SmbSession) (op : SmbOp)
    (hreports : op.reports = true) : StatusSound P s op ↔ op.StatusClear P s := by
  cases op with
  | find tid pattern => exact find_sound_iff P s tid pattern
  | shareGetList => exact shareGetList_sound_iff P s
  | _ => exact iff_of_true (statusSound_of_reports hreports (by simp) (by simp)) trivial

/-- A search that is refused with no entry behind the header. -/
theorem reporting_sound_bodyless :
    StatusSound .ascii (connectedTo [replyBytes ntStatusAccessDenied 0 0 (List.replicate 36 0)])
      (.find 0 (ascii "*")) := by
  refine (reporting_sound_iff .ascii _ (.find 0 (ascii "*")) rfl).mpr fun msg hmsg hentry => ?_
  have hsize : (smbTrans2FindFirst .ascii 0 (ascii "*") (connectedTo
      [replyBytes ntStatusAccessDenied 0 0 (List.replicate 36 0)])).1.map SmbMessage.payloadSize =
      some findFirstStart := by decide +kernel
  rw [hmsg] at hsize
  exact absurd hentry.start (by rw [Option.some.inj hsize]; exact Nat.lt_irrefl _)

/-- A call that is not refused although one of its events is an error reply. -/
theorem not_sound {s : SmbSession} {op : SmbOp} (n : Nat) (opcode : UInt8) (reply : List UInt8)
    (hlogin : ∀ nonces, op ≠ .login nonces)
    (hev : (op.events .ascii s)[n]? = some (.received opcode reply))
    (herr : ErrorReply reply) (hres : (op.result .ascii s).isRefusal = false) :
    ¬ StatusSound .ascii s op := by
  rw [statusSound_iff hlogin]
  exact fun h => h hres opcode reply (List.mem_of_getElem? hev) herr

/-- A search and an enumeration that the server refuses, with the bytes of a listing behind the header,
succeed. -/
theorem reporting_unsound :
    let s := connectedTo [findReply ntStatusAccessDenied]
    let s' := connectedTo [treeReply 5, pipeReply 0, pipeReply 0, pipeReply ntStatusAccessDenied,
      pipeReply 0]
    (¬ StatusSound .ascii s (.find 0 (ascii "*")) ∧
      (SmbOp.result .ascii s (.find 0 (ascii "*"))).isSuccess = true) ∧
    ¬ StatusSound .ascii s' .shareGetList ∧ (SmbOp.result .ascii s' .shareGetList).isSuccess = true := by
  refine ⟨⟨?_, by decide +kernel⟩, ?_, by decide +kernel⟩
  · exact not_sound 1 0 (findReply ntStatusAccessDenied) (by simp)
      (by decide +kernel) (by decide +kernel) (by decide +kernel)
  · exact not_sound 7 0 (pipeReply ntStatusAccessDenied) (by simp)
      (by decide +kernel) (by decide +kernel) (by decide +kernel)

end Libdsm
