import Libdsm.Smb.Proofs.Message
import Libdsm.Smb.Share

/-!
# Share enumeration

The reply to `NetShareEnumAll` holds the number of shares, a descriptor for each, and then for each
its name and its comment as strings of the marshalling format: three counters, the characters, and
padding to an even number of them. `smb_share_parse_enum` reads the names off such a reply, whatever
the lengths are; and it stores them inside the list it allocated unless the number of shares is the
largest a `uint32_t` holds.
-/

namespace Libdsm

/-! ## The format -/

/-- A string as it is marshalled: `count` characters of two bytes each. -/
structure NdrString where
  count : Nat
  offset : UInt32
  actualCount : UInt32
  chars : List UInt8
  padding : List UInt8
  chars_length : chars.length = 2 * count
  padding_length : padding.length = 2 * (count % 2)

namespace NdrString

def bytes (str : NdrString) : List UInt8 :=
  le32 (UInt32.ofNat str.count) ++ le32 str.offset ++ le32 str.actualCount ++ str.chars ++ str.padding

/-- The characters with their padding take this many bytes. -/
def extent (str : NdrString) : Nat := 2 * (str.count + str.count % 2)

theorem bytes_length (str : NdrString) : str.bytes.length = 12 + str.extent := by
  simp only [bytes, List.length_append, le32_length, str.chars_length, str.padding_length, extent]
  omega

end NdrString

/-- A share of the reply. -/
structure ShareInfo where
  name : NdrString
  comment : NdrString

def ShareInfo.bytes (share : ShareInfo) : List UInt8 := share.name.bytes ++ share.comment.bytes

/-- A reply with these shares: their number, their descriptors and their strings lie inside the
payload, and no count that the code doubles exceeds 32 bits. -/
structure EnumReply (msg : SmbMessage) (shares : List ShareInfo) : Prop where
  count : msg.payload.read 60 4 = le32 (UInt32.ofNat shares.length)
  descriptors : 12 * shares.length < 2 ^ 32
  strings : msg.payload.read (72 + 12 * shares.length) (shares.flatMap ShareInfo.bytes).length =
    shares.flatMap ShareInfo.bytes
  inside : 72 + 12 * shares.length + (shares.flatMap ShareInfo.bytes).length ≤ msg.payloadSize
  small : ∀ share ∈ shares, share.name.extent < 2 ^ 32 ∧ share.comment.extent < 2 ^ 32

/-! ## Reading a string -/

section Strings

variable {payload : Mem} {data : Nat} {str : NdrString}
variable (h : payload.read data str.bytes.length = str.bytes)

include h

theorem string_count : payload.u32 data = UInt32.ofNat str.count := by
  have hlen := str.bytes_length
  have hread := Mem.read_part (i := 0) (k := 4) h (by omega)
  apply Mem.u32_eq
  rw [Nat.add_zero] at hread
  rw [hread, NdrString.bytes, List.drop_zero, List.append_assoc, List.append_assoc, List.append_assoc]
  exact List.take_left' (le32_length _)

theorem string_chars : payload.read (data + 12) (2 * str.count) = str.chars := by
  have hlen := str.bytes_length
  rw [NdrString.extent] at hlen
  have hread := Mem.read_part (i := 12) (k := 2 * str.count) h (by omega)
  rw [hread, NdrString.bytes, List.append_assoc, List.drop_left' (by simp)]
  exact List.take_left' str.chars_length

end Strings

/-- What the code takes a count to be in bytes. -/
theorem twice32_count {n : Nat} (h : 2 * (n + n % 2) < 2 ^ 32) : twice32 (UInt32.ofNat n) = 2 * n := by
  rw [twice32, UInt32.toNat_mul, UInt32.toNat_ofNat_of_lt' (by rw [UInt32.size]; omega)]
  show n * 2 % 2 ^ 32 = 2 * n
  omega

theorem twice32_even32 {n : Nat} (h : 2 * (n + n % 2) < 2 ^ 32) :
    twice32 (even32 (UInt32.ofNat n)) = 2 * (n + n % 2) := by
  have hn : (UInt32.ofNat n).toNat = n := UInt32.toNat_ofNat_of_lt' (by rw [UInt32.size]; omega)
  have hmod : (UInt32.ofNat n % 2).toNat = n % 2 := by
    rw [UInt32.toNat_mod, hn]
    rfl
  rw [twice32, even32]
  by_cases hodd : n % 2 = 0
  · have hzero : UInt32.ofNat n % 2 = 0 := by
      rw [← UInt32.toNat_inj, hmod, hodd]
      rfl
    rw [if_neg (not_not_intro hzero), UInt32.toNat_mul, hn]
    show n * 2 % 2 ^ 32 = _
    omega
  · have hone : UInt32.ofNat n % 2 ≠ 0 := by
      intro heq
      rw [heq] at hmod
      exact hodd hmod.symm
    rw [if_pos hone, UInt32.toNat_mul, UInt32.toNat_add, hn]
    show (n + 1) % 2 ^ 32 * 2 % 2 ^ 32 = _
    omega

/-! ## The loop -/

/-- The loop on the strings of the shares that are left. -/
theorem parseEnumLoop_shares (P : Platform) (payload : Mem) (eod : Nat) :
    ∀ (shares : List ShareInfo) (data : Nat),
      payload.read data (shares.flatMap ShareInfo.bytes).length = shares.flatMap ShareInfo.bytes →
      data + (shares.flatMap ShareInfo.bytes).length ≤ eod →
      (∀ share ∈ shares, share.name.extent < 2 ^ 32 ∧ share.comment.extent < 2 ^ 32) →
      (∀ share ∈ shares, smbFromUtf16 P share.name.chars ≠ []) →
      smbShareParseEnumLoop P payload eod shares.length data =
        shares.map fun share => some (smbFromUtf16 P share.name.chars) := by
  intro shares
  induction shares with
  | nil =>
    intro data _ _ _ _
    rfl
  | cons share shares ih =>
    intro data hread heod hsmall hconv
    obtain ⟨hname, hcomment⟩ := hsmall share (by simp)
    have hnameLen := share.name.bytes_length
    have hcommentLen := share.comment.bytes_length
    rw [List.flatMap_cons, ShareInfo.bytes, List.append_assoc] at hread heod
    rw [List.length_append, List.length_append] at hread heod
    rw [Mem.read_add, Mem.read_add] at hread
    obtain ⟨hreadName, hreadRest⟩ := List.append_inj hread (Mem.read_length _ _ _)
    obtain ⟨hreadComment, hreadShares⟩ := List.append_inj hreadRest (Mem.read_length _ _ _)
    have hcount := string_count hreadName
    have hchars := string_chars hreadName
    have htwice := twice32_count hname
    have heven := twice32_even32 hname
    have hcomCount := string_count hreadComment
    have hcomEven := twice32_even32 hcomment
    have hplace : data + share.name.bytes.length =
        data + 12 + twice32 (even32 (payload.u32 data)) := by
      rw [hcount, heven, hnameLen, NdrString.extent, Nat.add_assoc]
    rw [hplace] at hcomCount hreadShares
    rw [NdrString.extent] at hnameLen hcommentLen
    have hnext : data + 12 + twice32 (even32 (payload.u32 data)) + 12 +
        twice32 (even32 (payload.u32 (data + 12 + twice32 (even32 (payload.u32 data))))) =
          data + 12 + twice32 (even32 (payload.u32 data)) + share.comment.bytes.length := by
      rw [hcomCount, hcomEven]
      omega
    have hrest := ih (data + 12 + twice32 (even32 (payload.u32 data)) +
        share.comment.bytes.length) hreadShares (by omega)
      (fun x hx => hsmall x (List.mem_cons_of_mem _ hx))
      (fun x hx => hconv x (List.mem_cons_of_mem _ hx))
    rw [List.length_cons, smbShareParseEnumLoop, if_neg (by omega), if_neg (by omega)]
    dsimp only
    rw [if_neg (by rw [hcount, htwice]; omega), hnext, hrest]
    rw [hcount, htwice, hchars, if_neg (hconv share (by simp)), List.map_cons]

theorem parseEnumLoop_length (P : Platform) (payload : Mem) (eod : Nat) :
    ∀ count data, (smbShareParseEnumLoop P payload eod count data).length ≤ count := by
  intro count
  induction count with
  | zero =>
    intro data
    exact Nat.le_refl 0
  | succ count ih =>
    intro data
    rw [smbShareParseEnumLoop]
    by_cases hdata : data < eod
    · rw [if_neg (not_not_intro hdata)]
      by_cases hlen : eod < data + 4
      · rw [if_pos hlen]
        exact Nat.zero_le _
      · rw [if_neg hlen]
        dsimp only
        by_cases hname : eod < data + 12 + 4 + twice32 (payload.u32 data) + 4
        · rw [if_pos hname]
          exact Nat.zero_le _
        · rw [if_neg hname, List.length_cons]
          exact Nat.succ_le_succ (ih _)
    · rw [if_pos hdata]
      exact Nat.zero_le _

/-- No more elements are stored than the reply announces. -/
theorem parseEnum_length (P : Platform) (msg : SmbMessage) :
    (smbShareParseEnum P msg).length ≤ (smbShareCount msg).toNat :=
  parseEnumLoop_length P msg.payload msg.payloadSize _ _

/-- The list has an element more than the reply announces shares, unless that number wraps. -/
theorem shareListSize_eq {msg : SmbMessage} (h : smbShareCount msg ≠ 0xffffffff) :
    smbShareListSize msg = (smbShareCount msg).toNat + 1 := by
  have hlt := (smbShareCount msg).toNat_lt
  have hne : (smbShareCount msg).toNat ≠ 2 ^ 32 - 1 := by
    intro heq
    exact h (UInt32.toNat_inj.mp heq)
  rw [smbShareListSize, UInt32.toNat_add]
  show ((smbShareCount msg).toNat + 1) % 2 ^ 32 = _
  omega

/-- The element behind the last one stored. -/
theorem shareListElem_end (P : Platform) {msg : SmbMessage}
    (h : (smbShareParseEnum P msg).length < smbShareListSize msg) :
    smbShareListElem P msg (smbShareParseEnum P msg).length = some none := by
  rw [smbShareListElem, if_pos h, List.getD_eq_getElem?_getD, List.getElem?_eq_none (Nat.le_refl _)]
  rfl

/-- On a reply with any shares whose names convert, `smb_share_parse_enum` returns their number and a
list of their names in order, which a `NULL` ends. -/
theorem shareParseEnum_decodes (P : Platform) (msg : SmbMessage) (shares : List ShareInfo)
    (hreply : EnumReply msg shares) (hconv : ∀ share ∈ shares, smbFromUtf16 P share.name.chars ≠ []) :
    smbShareParseEnum P msg = shares.map (fun share => some (smbFromUtf16 P share.name.chars)) ∧
      (smbShareParseEnum P msg).length = shares.length ∧
      smbShareListElem P msg shares.length = some none := by
  have hdescriptors := hreply.descriptors
  have hcount : (smbShareCount msg).toNat = shares.length := by
    rw [smbShareCount, Mem.u32_eq hreply.count]
    exact UInt32.toNat_ofNat_of_lt' (by rw [UInt32.size]; omega)
  have hstart : (smbShareCount msg * 12).toNat = 12 * shares.length := by
    rw [UInt32.toNat_mul, hcount]
    show shares.length * 12 % 2 ^ 32 = _
    omega
  have hparse : smbShareParseEnum P msg =
      shares.map fun share => some (smbFromUtf16 P share.name.chars) := by
    rw [smbShareParseEnum, hcount, hstart]
    exact parseEnumLoop_shares P msg.payload msg.payloadSize shares _ hreply.strings hreply.inside
      hreply.small hconv
  have hlength : (smbShareParseEnum P msg).length = shares.length := by
    rw [hparse, List.length_map]
  refine ⟨hparse, hlength, ?_⟩
  have hwrap : smbShareCount msg ≠ 0xffffffff := by
    intro heq
    rw [heq] at hcount
    have hmax : (0xffffffff : UInt32).toNat = 2 ^ 32 - 1 := rfl
    omega
  have hfit : (smbShareParseEnum P msg).length < smbShareListSize msg := by
    rw [shareListSize_eq hwrap]
    exact Nat.lt_succ_of_le (parseEnum_length P msg)
  have hend := shareListElem_end P hfit
  rw [hlength] at hend
  exact hend

/-- A string of ASCII characters, the last of them a zero, without the counters that are not read. -/
def ndrAscii (str : List UInt8) : NdrString where
  count := str.length
  offset := 0
  actualCount := 0
  chars := str.flatMap fun b => [b, 0]
  padding := List.replicate (2 * (str.length % 2)) 0
  chars_length := by simp [Nat.mul_comm]
  padding_length := List.length_replicate

/-- The reply with these shares. -/
def enumPayload (shares : List ShareInfo) : List UInt8 :=
  List.replicate 60 0 ++ le32 (UInt32.ofNat shares.length) ++
    List.replicate (8 + 12 * shares.length) 0 ++ shares.flatMap ShareInfo.bytes

/-- Two shares, with names of an odd and of an even number of characters. -/
def sampleShares : List ShareInfo :=
  [⟨ndrAscii (cString (ascii "C$")), ndrAscii (cString [])⟩,
    ⟨ndrAscii (cString (ascii "pub")), ndrAscii (cString (ascii "x"))⟩]

theorem shareParseEnum_decodes_two :
    EnumReply (.ofPayload (enumPayload sampleShares)) sampleShares ∧
      smbShareParseEnum .ascii (.ofPayload (enumPayload sampleShares)) =
        [some (cString (ascii "C$")), some (cString (ascii "pub"))] := by
  have hreply : EnumReply (.ofPayload (enumPayload sampleShares)) sampleShares :=
    ⟨by decide +kernel, by decide +kernel, by decide +kernel, by decide +kernel, by decide +kernel⟩
  refine ⟨hreply, ?_⟩
  rw [(shareParseEnum_decodes .ascii _ sampleShares hreply (by decide +kernel)).1]
  decide +kernel

/-! ## The reads of the loop -/

/-- An iteration of the loop: where `data` stands when it begins, and the reads it makes. -/
structure EnumIteration where
  data : Nat
  reads : List MemRead

/-- The loop of `smb_share_parse_enum` with a log of its iterations. -/
def smbShareParseEnumLog (P : Platform) (payload : Mem) (eod : Nat) :
    Nat → Nat → SmbShareList × List EnumIteration
  | 0, _ => ([], [])
  | count + 1, data =>
    if ¬ data < eod then ([], [])
    else if eod < data + 4 then ([], [⟨data, []⟩])
    else
      let nameLen := payload.u32 data
      let name := data + 12
      if eod < name + 4 + twice32 nameLen + 4 then ([], [⟨data, [⟨data, 4⟩]⟩])
      else
        let utf := smbFromUtf16 P (payload.read name (twice32 nameLen))
        let comment := name + twice32 (even32 nameLen)
        let comLen := payload.u32 comment
        let rest := smbShareParseEnumLog P payload eod count (comment + 12 + twice32 (even32 comLen))
        ((if utf = [] then none else some utf) :: rest.1,
          ⟨data, [⟨data, 4⟩, ⟨name, twice32 nameLen⟩, ⟨comment, 4⟩]⟩ :: rest.2)

section Log

variable (P : Platform) (payload : Mem) (eod : Nat)

/-- The counter of the comment of the share at `data`, and where the share behind it begins. -/
def enumComment (data : Nat) : Nat := data + 12 + twice32 (even32 (payload.u32 data))

def enumNext (data : Nat) : Nat :=
  enumComment payload data + 12 + twice32 (even32 (payload.u32 (enumComment payload data)))

/-- The loop where shares are left: its condition fails, one of its two tests fails, or it stores a
name and goes on behind the comment. -/
theorem parseEnumLog_succ (count data : Nat) :
    eod ≤ data ∧ smbShareParseEnumLog P payload eod (count + 1) data = ([], []) ∨
    (data < eod ∧ eod < data + 4 ∧
      smbShareParseEnumLog P payload eod (count + 1) data = ([], [⟨data, []⟩])) ∨
    (data + 4 ≤ eod ∧
      smbShareParseEnumLog P payload eod (count + 1) data = ([], [⟨data, [⟨data, 4⟩]⟩])) ∨
    ∃ name, data + 12 + twice32 (payload.u32 data) + 8 ≤ eod ∧
      smbShareParseEnumLog P payload eod (count + 1) data =
        (name :: (smbShareParseEnumLog P payload eod count (enumNext payload data)).1,
          ⟨data, [⟨data, 4⟩, ⟨data + 12, twice32 (payload.u32 data)⟩,
            ⟨enumComment payload data, 4⟩]⟩ ::
            (smbShareParseEnumLog P payload eod count (enumNext payload data)).2) := by
  rw [smbShareParseEnumLog]
  by_cases hdata : data < eod
  · rw [if_neg (not_not_intro hdata)]
    by_cases hlen : eod < data + 4
    · exact Or.inr (Or.inl ⟨hdata, hlen, if_pos hlen⟩)
    · rw [if_neg hlen]
      dsimp only
      by_cases hname : eod < data + 12 + 4 + twice32 (payload.u32 data) + 4
      · exact Or.inr (Or.inr (Or.inl ⟨Nat.le_of_not_lt hlen, if_pos hname⟩))
      · rw [if_neg hname]
        exact Or.inr (Or.inr (Or.inr ⟨_, by omega, rfl⟩))
  · exact Or.inl ⟨Nat.le_of_not_lt hdata, if_pos hdata⟩

/-- The log changes nothing of what the loop stores. -/
theorem parseEnumLog_fst (count data : Nat) :
    (smbShareParseEnumLog P payload eod count data).1 =
      smbShareParseEnumLoop P payload eod count data := by
  induction count generalizing data with
  | zero => rfl
  | succ count ih =>
    rw [smbShareParseEnumLog, smbShareParseEnumLoop]
    dsimp only
    rw [← ih]
    split_ifs <;> rfl

end Log

/-- Rounding a count up to an even one adds at most a character, where it does not wrap to nothing. -/
theorem twice32_even32_le (n : UInt32) : twice32 (even32 n) ≤ twice32 n + 2 := by
  rw [even32]
  split
  · rw [twice32, twice32, UInt32.toNat_mul, UInt32.toNat_mul, UInt32.toNat_add]
    show (n.toNat + 1) % 2 ^ 32 * 2 % 2 ^ 32 ≤ n.toNat * 2 % 2 ^ 32 + 2
    omega
  · omega

/-- The comment's counter lies inside when the test on the name has passed. -/
theorem enumComment_inside {payload : Mem} {eod data : Nat}
    (h : data + 12 + twice32 (payload.u32 data) + 8 ≤ eod) :
    data ≤ enumComment payload data ∧ enumComment payload data + 4 ≤ eod := by
  have heven := twice32_even32_le (payload.u32 data)
  rw [enumComment]
  omega

/-- An iteration that goes on moves `data` by the six counters at least. -/
theorem enumNext_ge (payload : Mem) (data : Nat) : data + 24 ≤ enumNext payload data := by
  rw [enumNext, enumComment]
  omega

/-- Every iteration begins at or behind the start and reads between its `data` and the end. -/
theorem parseEnumLog_inside (P : Platform) (payload : Mem) (eod count data : Nat) :
    ∀ iteration ∈ (smbShareParseEnumLog P payload eod count data).2,
      data ≤ iteration.data ∧ ∀ read ∈ iteration.reads,
        iteration.data ≤ read.offset ∧ read.offset + read.length ≤ eod := by
  induction count generalizing data with
  | zero =>
    intro iteration hmem
    cases hmem
  | succ count ih =>
    intro iteration hmem
    obtain ⟨-, heq⟩ | ⟨-, -, heq⟩ | ⟨hlen, heq⟩ | ⟨name, htest, heq⟩ :=
      parseEnumLog_succ P payload eod count data
    · rw [heq] at hmem
      cases hmem
    · rw [heq, List.mem_singleton] at hmem
      subst hmem
      simp
    · rw [heq, List.mem_singleton] at hmem
      subst hmem
      simpa using hlen
    · rw [heq, List.mem_cons] at hmem
      rcases hmem with rfl | hmem
      · have hcomment := enumComment_inside htest
        simp only [List.forall_mem_cons]
        refine ⟨Nat.le_refl _, by omega, by omega, hcomment, ?_⟩
        intro read hread
        cases hread
      · obtain ⟨hstart, hreads⟩ := ih (enumNext payload data) iteration hmem
        have hnext := enumNext_ge payload data
        exact ⟨by omega, hreads⟩

/-- Every iteration but the last takes the 24 bytes of the counters from what is left. -/
theorem parseEnumLog_iterations (P : Platform) (payload : Mem) (eod count data : Nat) :
    24 * (smbShareParseEnumLog P payload eod count data).2.length ≤ eod - data + 23 := by
  induction count generalizing data with
  | zero =>
    rw [smbShareParseEnumLog]
    exact Nat.zero_le _
  | succ count ih =>
    obtain ⟨-, heq⟩ | ⟨hdata, -, heq⟩ | ⟨hlen, heq⟩ | ⟨name, htest, heq⟩ :=
      parseEnumLog_succ P payload eod count data
    · rw [heq]
      exact Nat.zero_le _
    · rw [heq, List.length_singleton]
      omega
    · rw [heq, List.length_singleton]
      omega
    · have hrest := ih (enumNext payload data)
      have hnext := enumNext_ge payload data
      rw [heq, List.length_cons]
      omega

/-- The loop depends on nothing before its start or behind the end. -/
theorem parseEnumLog_congr (P : Platform) {payload other : Mem} {eod : Nat} (count : Nat) {data : Nat}
    (h : ∀ i, data ≤ i → i < eod → other i = payload i) :
    smbShareParseEnumLog P other eod count data = smbShareParseEnumLog P payload eod count data := by
  induction count generalizing data with
  | zero => rfl
  | succ count ih =>
    have hread : ∀ off len, data ≤ off → off + len ≤ eod → other.read off len = payload.read off len := by
      intro off len hoff hend
      apply Mem.read_congr
      intro i hi
      exact h (off + i) (by omega) (by omega)
    rw [smbShareParseEnumLog, smbShareParseEnumLog]
    by_cases hlen : eod < data + 4
    · rw [if_pos hlen, if_pos hlen]
    · have hname : other.u32 data = payload.u32 data :=
        Mem.u32_congr (hread data 4 (Nat.le_refl _) (by omega))
      rw [if_neg hlen, if_neg hlen]
      dsimp only
      rw [hname]
      by_cases htest : eod < data + 12 + 4 + twice32 (payload.u32 data) + 4
      · rw [if_pos htest, if_pos htest]
      · obtain ⟨hbefore, hinside⟩ := @enumComment_inside payload eod data (by omega)
        have hcomment := Mem.u32_congr (hread (enumComment payload data) 4 hbefore hinside)
        rw [enumComment] at hcomment
        have hchars := hread (data + 12) (twice32 (payload.u32 data)) (by omega) (by omega)
        have hnext := enumNext_ge payload data
        have hrest := @ih (enumNext payload data) (fun i hi hend => h i (by omega) hend)
        rw [enumNext, enumComment] at hrest
        rw [if_neg htest, if_neg htest, hcomment, hchars, hrest]

/-- Whatever the payload holds and wherever `data` stands, the loop of `smb_share_parse_enum` reads only
between `data` and the end of the payload, its result depends on nothing else, and it ends after at
most `payload_size / 24 + 1` iterations. -/
theorem parseEnum_reads_inside (P : Platform) (payload : Mem) (payloadSize count data : Nat) :
    let log := smbShareParseEnumLog P payload payloadSize count data
    log.1 = smbShareParseEnumLoop P payload payloadSize count data ∧
      (∀ iteration ∈ log.2, data ≤ iteration.data ∧ ∀ read ∈ iteration.reads,
        iteration.data ≤ read.offset ∧ read.offset + read.length ≤ payloadSize) ∧
      (∀ other : Mem, (∀ i, data ≤ i → i < payloadSize → other i = payload i) →
        smbShareParseEnumLoop P other payloadSize count data = log.1) ∧
      log.2.length ≤ payloadSize / 24 + 1 := by
  intro log
  refine ⟨parseEnumLog_fst P payload payloadSize count data,
    parseEnumLog_inside P payload payloadSize count data, ?_, ?_⟩
  · intro other hother
    rw [← parseEnumLog_fst, parseEnumLog_congr P count hother]
  · have hcount : 24 * log.2.length ≤ payloadSize - data + 23 :=
      parseEnumLog_iterations P payload payloadSize count data
    omega

/-! ## The list that is allocated -/

/-- Every element is stored inside the list, and the one behind the last is there and `NULL`. -/
structure StoresInList (P : Platform) (msg : SmbMessage) : Prop where
  inside : ∀ i < (smbShareParseEnum P msg).length, i < smbShareListSize msg
  ended : smbShareListElem P msg (smbShareParseEnum P msg).length = some none

/-- For the largest number of shares nothing is allocated. -/
theorem shareListElem_wrapped (P : Platform) {msg : SmbMessage}
    (h : smbShareCount msg = 0xffffffff) (i : Nat) : smbShareListElem P msg i = none := by
  have hzero : smbShareListSize msg = 0 := by
    rw [smbShareListSize, h]
    rfl
  rw [smbShareListElem, hzero, if_neg (Nat.not_lt_zero i)]

/-- `smb_share_parse_enum` stays inside its list, and ends it, if and only if the number of shares that
the reply announces is not the largest one. -/
theorem storesInList_iff (P : Platform) (msg : SmbMessage) :
    StoresInList P msg ↔ smbShareCount msg ≠ 0xffffffff := by
  constructor
  · intro h hmax
    have hended := h.ended
    rw [shareListElem_wrapped P hmax] at hended
    cases hended
  · intro h
    have hlength := parseEnum_length P msg
    have hsize := shareListSize_eq h
    exact ⟨fun i hi => by omega, shareListElem_end P (by omega)⟩

/-- A reply that announces `0xffffffff` shares. -/
theorem storesInList_wraps :
    ¬ StoresInList .ascii (.ofPayload (List.replicate 60 0 ++ le32 0xffffffff)) := by
  intro h
  have hmax : smbShareCount (.ofPayload (List.replicate 60 0 ++ le32 0xffffffff)) = 0xffffffff := by
    decide +kernel
  have hended := h.ended
  rw [shareListElem_wrapped .ascii hmax] at hended
  cases hended

end Libdsm
