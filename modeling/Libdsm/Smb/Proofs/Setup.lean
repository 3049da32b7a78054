import Libdsm.Smb.Proofs.AuthToken
import Libdsm.Smb.Proofs.Paths
import Libdsm.Smb.Proofs.Spnego

/-!
# Session Setup requests

The three requests of a login are built alike: a gap for the structure, the security blob, padding,
the strings, and the structure last. Each decides in its own way whether a padding byte is due. This
module reads the requests back from their bytes, and finds for which blobs the strings are aligned.
-/

namespace Libdsm

/-! ## The strings -/

/-- What the library relies on when it converts text to UCS-2LE: the output keeps to the room it was
given, and the characters become units of which none is zero. -/
def Platform.ConvertsText (P : Platform) : Prop :=
  ∀ ic src room out, P.iconv .ucs2le .locale = some ic → 0 ∉ src → ic src room = .done out →
    out.length ≤ room ∧ ∃ units : List UInt16, 0 ∉ units ∧ out = units.flatMap le16

/-- A string of a request: what the text converts to, and the terminator put behind it. -/
def setupString (P : Platform) (str : List UInt8) : List UInt8 := smbToUtf16 P str ++ le16 0

/-- The largest factor that `smb_iconv` tries is fifteen. -/
theorem setupString_spec {P : Platform} (hconv : P.ConvertsText) {str : List UInt8}
    (hstr : 0 ∉ str) :
    (setupString P str).length ≤ 15 * str.length + 2 ∧ Utf16z (setupString P str) := by
  by_cases hne : smbToUtf16 P str = []
  · rw [setupString, hne]
    exact ⟨by rw [List.nil_append, le16_length]; omega, [], by simp, rfl⟩
  rw [setupString, List.length_append, le16_length]
  rw [smbToUtf16, smbIconv] at hne ⊢
  split at hne
  · exact absurd rfl hne
  cases hic : P.iconv .ucs2le .locale with
  | none =>
    rw [hic] at hne
    exact absurd rfl hne
  | some ic =>
    rw [hic] at hne
    obtain ⟨mul, hmul, hdone⟩ := smbIconvLoop_done _ hne
    obtain ⟨hroom, units, hunits, hout⟩ := hconv ic str _ _ hic hstr hdone
    rw [if_neg ‹_›]
    have hfactor : mul * str.length ≤ 15 * str.length := by
      apply Nat.mul_le_mul_right
      obtain ⟨i, hi, rfl⟩ := List.mem_range'.mp hmul
      omega
    exact ⟨by simp only; omega, units, hunits, by simp only [utf16z, hout]; rfl⟩

/-! ## Reading a request back -/

/-- Where a request has the length of its security blob, and `payload_size`. -/
structure SetupFields where
  blobSize : Nat
  payloadSize : Nat

/-- `oem_pass_len` and `payload_size` of `smb_session_req`. -/
def sessionFields : SetupFields where
  blobSize := smbHeaderSize + 15
  payloadSize := smbHeaderSize + 27

/-- `xsec_blob_size` and `payload_size` of `smb_session_xsec_req`. -/
def xsecFields : SetupFields where
  blobSize := smbHeaderSize + 15
  payloadSize := smbHeaderSize + 25

/-- The first byte that `payload_size` counts. -/
def SetupFields.payload (fields : SetupFields) : Nat := fields.payloadSize + 2

/-- The request counts the bytes behind `payload_size`; the blob is the first of them, as many as its
length says; and the strings at the end are terminated and start at even offsets from the header. -/
structure SetupConsistent (request : List UInt8) (fields : SetupFields) (blob : List UInt8)
    (strings : List (List UInt8)) : Prop where
  count : (replyU16 request fields.payloadSize).toNat = (request.drop fields.payload).length
  carried : (request.drop fields.payload).take (replyU16 request fields.blobSize).toNat = blob
  aligned : ∃ start, fields.payload + blob.length ≤ start ∧ request.drop start = strings.flatten ∧
    ∀ n < strings.length, (start + (strings.take n).flatten.length) % 2 = 0
  terminated : ∀ s ∈ strings, Utf16z s

/-- The length of strings that are all terminated is even. -/
theorem flatten_even {strings : List (List UInt8)} (h : ∀ s ∈ strings, Utf16z s) :
    strings.flatten.length % 2 = 0 := by
  induction strings with
  | nil => rfl
  | cons s strings ih =>
    have hs := (h s List.mem_cons_self).even
    have hrest := ih fun s' hs' => h s' (List.mem_cons_of_mem _ hs')
    rw [List.flatten_cons, List.length_append]
    omega

/-- A request with the right counts is consistent if and only if the padding aligns its strings. -/
theorem Builds.setupConsistent_iff {msg : SmbMessage} {front middle blob pad : List UInt8}
    {strings : List (List UInt8)} {blobSize count : UInt16} {fields : SetupFields}
    (h : Builds msg ((front ++ le16 blobSize ++ middle ++ le16 count ++
      (blob ++ pad ++ strings.flatten)).map some))
    (hfront : fields.blobSize = smbHeaderSize + front.length)
    (hmiddle : fields.payloadSize = fields.blobSize + 2 + middle.length)
    (hblob : blobSize.toNat = blob.length)
    (hcount : count.toNat = (blob ++ pad ++ strings.flatten).length)
    (hne : strings ≠ []) (hstrings : ∀ s ∈ strings, Utf16z s) :
    SetupConsistent msg.bytes fields blob strings ↔
      (fields.payload + blob.length + pad.length) % 2 = 0 := by
  have hplace : fields.payloadSize =
      smbHeaderSize + (front ++ le16 blobSize ++ middle).length := by
    simp only [List.length_append, le16_length]
    omega
  obtain ⟨hcounted, hbehind⟩ := h.counted hplace
  have hsize : replyU16 msg.bytes fields.blobSize = blobSize := by
    rw [List.append_assoc (front ++ le16 blobSize), List.append_assoc (front ++ le16 blobSize)] at h
    exact (h.counted hfront).1
  have hlength : msg.bytes.length = fields.payload + (blob ++ pad ++ strings.flatten).length := by
    rw [h.bytes_length, List.length_append, SetupFields.payload, hplace,
      List.length_append, le16_length]
    omega
  rw [← SetupFields.payload] at hbehind
  have heven : ∀ n, (strings.take n).flatten.length % 2 = 0 := fun n =>
    flatten_even fun s hs => hstrings s (List.mem_of_mem_take hs)
  constructor
  · intro hcons
    obtain ⟨start, hstart, hdrop, haligned⟩ := hcons.aligned
    -- the strings end the request, so their length says where they start
    have hwhere := congrArg List.length hdrop
    rw [List.length_drop, hlength, List.length_append, List.length_append] at hwhere
    have hsome : 2 ≤ strings.flatten.length := by
      obtain ⟨s, rest, rfl⟩ := List.exists_cons_of_ne_nil hne
      obtain ⟨units, -, rfl⟩ := hstrings _ List.mem_cons_self
      rw [List.flatten_cons, List.length_append, utf16z_length]
      omega
    have hzero := haligned 0 (List.length_pos_iff.mpr hne)
    rw [List.take_zero, List.flatten_nil, List.length_nil] at hzero
    omega
  · intro haligned
    refine ⟨?_, ?_, ⟨fields.payload + (blob ++ pad).length, ?_, ?_, ?_⟩, hstrings⟩
    · rw [hcounted, hbehind, hcount]
    · rw [hbehind, hsize, hblob, List.append_assoc, List.take_left]
    · rw [List.length_append]
      omega
    · rw [← List.drop_drop, hbehind, List.drop_left]
    · intro n _
      have hn := heven n
      rw [List.length_append]
      omega

/-! ## Building a request -/

/-- A text and its terminator, for each of the texts. -/
def textCalls (texts : List (List UInt8)) : List BuilderCall :=
  texts.flatMap fun text => [.putUtf16 text, .put16 0]

theorem textCalls_content (P : Platform) (texts : List (List UInt8)) :
    builtContent P (textCalls texts) = (texts.map (setupString P)).flatten.map some := by
  induction texts with
  | nil => rfl
  | cons text texts ih =>
    have hcons : builtContent P (textCalls (text :: texts)) =
        (smbToUtf16 P text).map some ++ ((le16 0).map some ++ builtContent P (textCalls texts)) :=
      rfl
    rw [hcons, ih, List.map_cons, List.flatten_cons, setupString, List.map_append, List.map_append,
      List.append_assoc]

/-- Texts that fit the credentials of a session. -/
theorem strings_length {P : Platform} (hconv : P.ConvertsText) {texts : List (List UInt8)}
    (h : ∀ text ∈ texts, 0 ∉ text ∧ text.length ≤ smbCredsMaxlen) :
    (texts.map (setupString P)).flatten.length ≤ 1922 * texts.length := by
  induction texts with
  | nil => exact Nat.zero_le _
  | cons text texts ih =>
    obtain ⟨hzero, hlen⟩ := h text List.mem_cons_self
    have hfirst := (setupString_spec hconv hzero).1
    have hrest := ih fun text' h' => h text' (List.mem_cons_of_mem _ h')
    rw [smbCredsMaxlen] at hlen
    rw [List.map_cons, List.flatten_cons, List.length_append, List.length_cons]
    omega

/-- A byte of padding, if it is due. -/
theorem Builds.padded {msg : SmbMessage} {content : List (Option UInt8)} (h : Builds msg content)
    (c : Prop) [Decidable c] (hlen : content.length + 1 < 2 ^ 63) :
    Builds (if c then smbMessagePut8 msg 0 else msg)
      (content ++ (if c then [0] else ([] : List UInt8)).map some) := by
  split
  · exact h.append [0] hlen
  · rw [List.map_nil, List.append_nil]
    exact h

section

variable (P : Platform) (size : Nat) (blob : List UInt8) (pads : Nat → Prop) [DecidablePred pads]
  (calls : List BuilderCall)

/-- The message before its structure is filled in. Whether it is padded depends on the cursor behind
the blob. -/
def setupMessage : SmbMessage :=
  let msg := smbMessageAppend (smbMessageAdvance (smbMessageNew P smbCmdSetup) size) blob
  calls.foldl (BuilderCall.run P) (if pads msg.cursor then smbMessagePut8 msg 0 else msg)

/-- The padding behind the blob. -/
def setupPad : List UInt8 := if pads (size + blob.length) then [0] else []

theorem setupPad_length_le : (setupPad size blob pads).length ≤ 1 := by
  rw [setupPad]
  split <;> decide

variable {calls}

theorem setupMessage_builds {body : List UInt8} (hcalls : builtContent P calls = body.map some)
    (hlen : size + blob.length + body.length < 65535) :
    Builds (setupMessage P size blob pads calls)
      (List.replicate size none ++ (blob ++ setupPad size blob pads ++ body).map some) := by
  have hpad := setupPad_length_le size blob pads
  have hblob := ((Builds.new P smbCmdSetup).advance size (by rw [List.length_nil]; omega)).append blob
    (by rw [List.length_append, List.length_replicate, List.length_nil]; omega)
  rw [List.nil_append] at hblob
  have hcursor : (smbMessageAppend (smbMessageAdvance (smbMessageNew P smbCmdSetup) size)
      blob).cursor = size + blob.length := by
    rw [hblob.cursor, List.length_append, List.length_replicate, List.length_map]
  have hpadded := hblob.padded (pads (size + blob.length)) (by
    rw [List.length_append, List.length_replicate, List.length_map]
    omega)
  rw [← setupPad] at hpadded
  have hruns := hpadded.runs P calls (by
    rw [hcalls]
    simp only [List.length_append, List.length_replicate, List.length_map]
    omega)
  rw [hcalls] at hruns
  rw [setupMessage, hcursor]
  simpa only [List.map_append, List.append_assoc] using hruns

/-- The structure goes into the gap, and the rest of the message stays. -/
theorem setupMessage_insert {body header : List UInt8}
    (hcalls : builtContent P calls = body.map some)
    (hlen : size + blob.length + body.length < 65535) (hheader : header.length = size)
    (hpos : 0 < size) :
    Builds (smbMessageInsert (setupMessage P size blob pads calls) 0 header)
      ((header ++ (blob ++ setupPad size blob pads ++ body)).map some) := by
  have hpad := setupPad_length_le size blob pads
  have hbuilds := setupMessage_builds P size blob pads hcalls hlen
  have hne : header ≠ [] := List.length_pos_iff.mp (by omega)
  obtain ⟨hinsert, -⟩ := hbuilds.insert_front (by
    simp only [List.length_append, List.length_replicate, List.length_map]
    omega) hne (by
    rw [List.length_append, List.length_replicate]
    omega)
  rw [overwrite, List.drop_left' (by rw [List.length_replicate, hheader]), ← List.map_append] at hinsert
  exact hinsert

end

/-- A request is consistent if and only if its strings are aligned, once the two lengths in its
structure are those of the message it was filled into. -/
theorem setupConsistent_iff {P : Platform} (hconv : P.ConvertsText) (uid : UInt16) {size : Nat}
    {blob : List UInt8} {pads : Nat → Prop} [DecidablePred pads] {calls : List BuilderCall}
    {texts : List (List UInt8)} {front middle : List UInt8} {blobSize count : UInt16}
    {fields : SetupFields}
    (hcalls : builtContent P calls = (texts.map (setupString P)).flatten.map some)
    (htexts : ∀ text ∈ texts, 0 ∉ text ∧ text.length ≤ smbCredsMaxlen)
    (hne : texts ≠ []) (hfew : texts.length ≤ 4) (hlen : size + blob.length ≤ 1024)
    (hfront : fields.blobSize = smbHeaderSize + front.length)
    (hmiddle : fields.payloadSize = fields.blobSize + 2 + middle.length)
    (hsize : fields.payload = smbHeaderSize + size)
    (hblob : blobSize.toNat = blob.length)
    (hcount : count = UInt16.ofNat ((setupMessage P size blob pads calls).cursor - size)) :
    SetupConsistent (smbRequestBytes uid (smbMessageInsert (setupMessage P size blob pads calls) 0
      (front ++ le16 blobSize ++ middle ++ le16 count))) fields blob (texts.map (setupString P)) ↔
      (smbHeaderSize + size + blob.length + (setupPad size blob pads).length) % 2 = 0 := by
  have hpad := setupPad_length_le size blob pads
  have hstrings := strings_length hconv htexts
  have hbody : size + blob.length + (texts.map (setupString P)).flatten.length < 65535 := by omega
  have hheader : (front ++ le16 blobSize ++ middle ++ le16 count).length = size := by
    rw [SetupFields.payload] at hsize
    simp only [List.length_append, le16_length]
    omega
  have hbuilds := setupMessage_insert P size blob pads hcalls hbody hheader (by
    rw [← hheader, List.length_append, le16_length]
    omega)
  have hcounted : count.toNat =
      (blob ++ setupPad size blob pads ++ (texts.map (setupString P)).flatten).length := by
    have hcursor := (setupMessage_builds P size blob pads hcalls hbody).cursor
    rw [List.length_append, List.length_replicate, List.length_map] at hcursor
    rw [hcount, hcursor, Nat.add_sub_cancel_left, UInt16.toNat_ofNat', Nat.mod_eq_of_lt]
    simp only [List.length_append]
    omega
  obtain ⟨sent, hsent, hbuilds⟩ := hbuilds.request uid
  rw [hsent, ← hsize]
  apply hbuilds.setupConsistent_iff hfront hmiddle hblob hcounted
  · rw [ne_eq, List.map_eq_nil_iff]
    exact hne
  · intro s hs
    obtain ⟨text, htext, rfl⟩ := List.mem_map.mp hs
    exact (setupString_spec hconv (htexts text htext).1).2

/-! ## The three requests -/

theorem sessionReq_split (r : SmbSessionReq) : ∃ front middle : List UInt8,
    r.bytes = front ++ le16 r.oemPassLen ++ middle ++ le16 r.payloadSize ∧ front.length = 15 ∧
      middle.length = 10 := by
  refine ⟨[r.wct] ++ smbAndxMembers ++ le16 r.maxBuffer ++ le16 r.mpxCount ++ le16 r.vcCount ++
    le32 r.sessionKey, le16 r.uniPassLen ++ le32 r.reserved2 ++ le32 r.caps, ?_, ?_, ?_⟩
  · delta SmbSessionReq.bytes
    simp only [List.append_assoc]
  · simp only [List.length_append, List.length_cons, List.length_nil, le16_length, le32_length,
      smbAndxMembers]
  · simp only [List.length_append, le16_length, le32_length]

theorem xsecReq_split (r : SmbSessionXsecReq) : ∃ front middle : List UInt8,
    r.bytes = front ++ le16 r.xsecBlobSize ++ middle ++ le16 r.payloadSize ∧ front.length = 15 ∧
      middle.length = 8 := by
  refine ⟨[r.wct] ++ smbAndxMembers ++ le16 r.maxBuffer ++ le16 r.mpxCount ++ le16 r.vcCount ++
    le32 r.sessionKey, le32 r.reserved2 ++ le32 r.caps, ?_, ?_, ?_⟩
  · delta SmbSessionXsecReq.bytes
    simp only [List.append_assoc]
  · simp only [List.length_append, List.length_cons, List.length_nil, le16_length, le32_length,
      smbAndxMembers]
  · simp only [List.length_append, le32_length]

/-- The texts that end both requests with a DER token; the last is the empty name of a domain
controller. -/
def xsecTexts : List (List UInt8) := [smbOs, smbLanman, []]

theorem xsecTexts_fit : ∀ text ∈ xsecTexts, 0 ∉ text ∧ text.length ≤ smbCredsMaxlen := by decide

/-- With a DER token, the strings are aligned if the padding is asked for, and else if the token has
an odd number of bytes. -/
theorem xsecReq_consistent_iff {P : Platform} (hconv : P.ConvertsText) (srv : SmbSrvInfo)
    (uid : UInt16) {der : List UInt8} (hder : der.length ≤ 512) (align : Bool) :
    SetupConsistent (smbRequestBytes uid (smbSessionXsecReq P srv der align)) xsecFields der
      (xsecTexts.map (setupString P)) ↔ align = true ∨ der.length % 2 = 1 := by
  have hbuilt : ∃ r : SmbSessionXsecReq, smbSessionXsecReq P srv der align =
      smbMessageInsert (setupMessage P 27 der (fun cursor => align && cursor % 2 ≠ 0)
        (textCalls [smbOs, smbLanman] ++ [.put16 0])) 0 r.bytes ∧
      r.xsecBlobSize = UInt16.ofNat der.length ∧
      r.payloadSize = UInt16.ofNat ((setupMessage P 27 der (fun cursor => align && cursor % 2 ≠ 0)
        (textCalls [smbOs, smbLanman] ++ [.put16 0])).cursor - 27) :=
    ⟨_, rfl, rfl, rfl⟩
  obtain ⟨r, hreq, hblob, hcount⟩ := hbuilt
  obtain ⟨front, middle, hbytes, hfront, hmiddle⟩ := xsecReq_split r
  have hcalls : builtContent P (textCalls [smbOs, smbLanman] ++ [.put16 0]) =
      (xsecTexts.map (setupString P)).flatten.map some := by
    rw [← textCalls_content]
    rfl
  have hsize : r.xsecBlobSize.toNat = der.length := by
    rw [hblob, UInt16.toNat_ofNat', Nat.mod_eq_of_lt (by omega)]
  rw [hreq, hbytes, setupConsistent_iff hconv uid hcalls xsecTexts_fit (by decide) (by decide)
    (by omega) (by rw [hfront]; rfl) (by rw [hmiddle]; rfl) rfl hsize hcount]
  have hpad : (setupPad 27 der fun cursor => align && cursor % 2 ≠ 0).length =
      if align = true ∧ der.length % 2 = 0 then 1 else 0 := by
    have hodd : (27 + der.length) % 2 ≠ 0 ↔ der.length % 2 = 0 := by omega
    rw [setupPad]
    simp only [Bool.and_eq_true, decide_eq_true_eq, hodd]
    split <;> rfl
  rw [hpad, smbHeaderSize]
  cases align with
  | false =>
    simp only [Bool.false_eq_true, false_and, if_false, false_or]
    omega
  | true =>
    simp only [true_and, true_or, iff_true]
    split <;> omega

/-- The LM2 response has 24 bytes, so that the padding test, which divides, is right by chance. -/
theorem loginNtlmReq_consistent {P : Platform} (hconv : P.ConvertsText)
    (hmd5 : ∀ bs, (P.md5 bs).length = 16) (nonces : SmbNonces) (srv : SmbSrvInfo) (uid : UInt16)
    {domain user : List UInt8} (password : List UInt8)
    (hdomain : 0 ∉ domain ∧ domain.length ≤ smbCredsMaxlen)
    (huser : 0 ∉ user ∧ user.length ≤ smbCredsMaxlen) :
    SetupConsistent (smbRequestBytes uid (smbSessionLoginNtlmReq P nonces srv domain user password))
      sessionFields (smbLm2Response P (smbNtlm2Hash P user password domain) srv.challenge
        nonces.userChallenge) ([user, domain, smbOs, smbLanman].map (setupString P)) := by
  have hlm2 : (smbLm2Response P (smbNtlm2Hash P user password domain) srv.challenge
      nonces.userChallenge).length = 24 := lm2Response_length P hmd5 _ _ _
  have hbuilt : ∃ r : SmbSessionReq, smbSessionLoginNtlmReq P nonces srv domain user password =
      smbMessageInsert (setupMessage P 29 (smbLm2Response P (smbNtlm2Hash P user password domain)
        srv.challenge nonces.userChallenge) (fun cursor => cursor / 2 ≠ 0)
        (textCalls [user, domain, smbOs, smbLanman])) 0 r.bytes ∧
      r.oemPassLen = 24 ∧
      r.payloadSize = UInt16.ofNat ((setupMessage P 29 (smbLm2Response P
        (smbNtlm2Hash P user password domain) srv.challenge nonces.userChallenge)
        (fun cursor => cursor / 2 ≠ 0) (textCalls [user, domain, smbOs, smbLanman])).cursor - 29) :=
    ⟨_, rfl, rfl, rfl⟩
  obtain ⟨r, hreq, hblob, hcount⟩ := hbuilt
  obtain ⟨front, middle, hbytes, hfront, hmiddle⟩ := sessionReq_split r
  have htexts : ∀ text ∈ [user, domain, smbOs, smbLanman],
      0 ∉ text ∧ text.length ≤ smbCredsMaxlen := by
    intro text htext
    simp only [List.mem_cons, List.not_mem_nil, or_false] at htext
    obtain rfl | rfl | rfl | rfl := htext
    · exact huser
    · exact hdomain
    · decide
    · decide
  rw [hreq, hbytes, setupConsistent_iff hconv uid (textCalls_content P _) htexts (by simp) (by simp)
    (by omega) (by rw [hfront]; rfl) (by rw [hmiddle]; rfl) rfl (by rw [hblob, hlm2]; rfl) hcount]
  rw [setupPad, hlm2]
  decide

/-- A request of a login. Those of `negotiate` and of `auth` are given by the DER token that was
written into the buffer of the function. -/
inductive SetupRequest where
  | ntlm (nonces : SmbNonces) (domain user password : List UInt8)
  | negotiate (der : List UInt8)
  | auth (der : List UInt8)

namespace SetupRequest

def message (P : Platform) (srv : SmbSrvInfo) : SetupRequest → SmbMessage
  | ntlm nonces domain user password => smbSessionLoginNtlmReq P nonces srv domain user password
  | negotiate der => smbSessionXsecReq P srv der false
  | auth der => smbSessionXsecReq P srv der true

def fields : SetupRequest → SetupFields
  | ntlm .. => sessionFields
  | negotiate _ | auth _ => xsecFields

/-- The security blob: the LM2 response or the DER token. -/
def blob (P : Platform) (srv : SmbSrvInfo) : SetupRequest → List UInt8
  | ntlm nonces domain user password =>
    smbLm2Response P (smbNtlm2Hash P user password domain) srv.challenge nonces.userChallenge
  | negotiate der | auth der => der

def texts : SetupRequest → List (List UInt8)
  | ntlm _ domain user _ => [user, domain, smbOs, smbLanman]
  | negotiate _ | auth _ => xsecTexts

/-- The credentials are strings that `smb_session_set_creds` stores whole, and a token is inside its
buffer. -/
def Accepted : SetupRequest → Prop
  | ntlm _ domain user _ =>
    (0 ∉ domain ∧ domain.length ≤ smbCredsMaxlen) ∧ 0 ∉ user ∧ user.length ≤ smbCredsMaxlen
  | negotiate der => der.length ≤ 128
  | auth der => der.length ≤ 512

/-- `negotiate` does not pad, so that its token has to end at an odd offset. -/
def Aligned : SetupRequest → Prop
  | negotiate der => der.length % 2 = 1
  | _ => True

end SetupRequest

/-- Of the three requests only that of `negotiate` can be inconsistent, and it is so for the tokens of
an even number of bytes. -/
theorem setupRequest_consistent_iff (P : Platform) (hconv : P.ConvertsText)
    (hmd5 : ∀ bs, (P.md5 bs).length = 16) (srv : SmbSrvInfo) (uid : UInt16) (r : SetupRequest)
    (hr : r.Accepted) :
    SetupConsistent (smbRequestBytes uid (r.message P srv)) r.fields (r.blob P srv)
      (r.texts.map (setupString P)) ↔ r.Aligned := by
  cases r with
  | ntlm nonces domain user password =>
    exact iff_of_true
      (loginNtlmReq_consistent hconv hmd5 nonces srv uid password hr.1 hr.2) trivial
  | negotiate der =>
    have hder : der.length ≤ 512 := Nat.le_trans hr (by decide)
    apply (xsecReq_consistent_iff hconv srv uid hder false).trans
    rw [SetupRequest.Aligned]
    simp
  | auth der => exact iff_of_true ((xsecReq_consistent_iff hconv srv uid hr true).mpr (.inl rfl)) trivial

theorem der_convertsText : Platform.der.ConvertsText := by
  intro ic src room out hic hsrc hdone
  obtain rfl : asciiToUcs2 = ic := Option.some.inj hic
  obtain ⟨hroom, hout⟩ := asciiToUcs2_done hdone
  exact ⟨hroom, _, toUInt16_nonzero hsrc, hout⟩

/-- The second token of a login, of eighty bytes. -/
theorem setupRequest_consistent_auth :
    let r : SetupRequest := .auth (List.replicate 80 1)
    r.Accepted ∧ SetupConsistent (smbRequestBytes 2 (r.message .der {})) r.fields (r.blob .der {})
      (r.texts.map (setupString .der)) := by
  have hr : (SetupRequest.auth (List.replicate 80 1)).Accepted := by
    rw [SetupRequest.Accepted, List.length_replicate]
    decide
  exact ⟨hr, (setupRequest_consistent_iff .der der_convertsText (fun _ => List.length_replicate) {} 2 _
    hr).mpr trivial⟩

/-- Where tokens are encoded by the rules that of `negotiate` has 66 bytes and two more for each of the
domain, so its strings are at odd offsets in every login. -/
theorem spnegoNegotiate_misaligned {P : Platform} (hconv : P.ConvertsText)
    (hinit : ∀ token, P.negTokenInit token = some (derNegTokenInit token)) (srv : SmbSrvInfo)
    (uid : UInt16) {domain der : List UInt8}
    (hder : derCoding (P.negTokenInit (smbNtlmsspNegotiate P domain domain)) 128 = some der) :
    ¬ SetupConsistent (smbRequestBytes uid (smbSessionXsecReq P srv der false)) xsecFields der
      (xsecTexts.map (setupString P)) := by
  rw [hinit, derCoding, Option.filter_eq_some_iff] at hder
  obtain ⟨hsome, hfits⟩ := hder
  obtain rfl := Option.some.inj hsome
  have hle : (derNegTokenInit (smbNtlmsspNegotiate P domain domain)).length ≤ 128 := by simpa using hfits
  have hlength := (negTokenInit_length _).2 ((negTokenInit_fits_iff _).mp hle)
  rw [negotiateToken_length] at hlength
  rw [xsecReq_consistent_iff hconv srv uid (by omega) false]
  rintro (h | h)
  · cases h
  · omega

/-- The first token of a login to the domain `WG`, of seventy bytes. -/
theorem setupRequest_misaligned :
    let der := derNegTokenInit (smbNtlmsspNegotiate .der (ascii "WG") (ascii "WG"))
    derCoding (Platform.der.negTokenInit (smbNtlmsspNegotiate .der (ascii "WG") (ascii "WG"))) 128 =
        some der ∧
      ¬ ∀ (P : Platform) (srv : SmbSrvInfo) (uid : UInt16) (r : SetupRequest), P.ConvertsText →
        (∀ bs, (P.md5 bs).length = 16) → r.Accepted →
        SetupConsistent (smbRequestBytes uid (r.message P srv)) r.fields (r.blob P srv)
          (r.texts.map (setupString P)) := by
  intro der
  have hle : der.length ≤ 128 := by
    rw [negTokenInit_fits_iff, negotiateToken_length]
    decide
  have hder : derCoding (Platform.der.negTokenInit
      (smbNtlmsspNegotiate .der (ascii "WG") (ascii "WG"))) 128 = some der := by
    rw [derCoding, Option.filter_eq_some_iff]
    exact ⟨rfl, by simpa using hle⟩
  refine ⟨hder, fun h => ?_⟩
  exact spnegoNegotiate_misaligned der_convertsText (fun _ => rfl) {} 0 hder
    (h .der {} 0 (.negotiate der) der_convertsText (fun _ => List.length_replicate) hle)

end Libdsm
