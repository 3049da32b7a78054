import Libdsm.Smb.Proofs.Message
import Libdsm.Smb.Trans2

/-!
# The walk over directory entries

`smb_tr2_find2_parse_entries` on any bytes. The walk follows the chain of the entries as long as there
are turns, the entry starts before the end of the data and its name converts; it looks neither at the
end of an entry nor at the mark on the last one. Here are the entries it visits, what the parsers of
the answers read, when all of it lies inside the payload, and when the walk makes one file of each
entry.
-/

namespace Libdsm

section Walk

variable (P : Platform) (payload : Mem)

/-- The converted name of the entry at `off`. -/
def entryName (off : Nat) : List UInt8 :=
  smbFromUtf16 P ((payload.shift off).read SmbTr2Find2Entry.size
    (SmbTr2Find2Entry.nameLen (payload.shift off)).toNat)

/-- The bytes that the entry at `off` takes, its name included. -/
def entryExtent (off : Nat) : Nat :=
  SmbTr2Find2Entry.size + (SmbTr2Find2Entry.nameLen (payload.shift off)).toNat

/-- The entry that the one at `off` leads to. -/
def entryNext (off : Nat) : Nat := off + (SmbTr2Find2Entry.nextEntry (payload.shift off)).toNat

/-- The file made of the entry at `off`, if its name converts. -/
def entryFile (off : Nat) : Option SmbFile :=
  if entryName P payload off = [] then none
  else some (smbTr2Find2File (payload.shift off) (entryName P payload off))

/-- The entries that the walk reads, with `count` turns to go. -/
def entriesVisited (eod : Nat) : Nat → Nat → List Nat
  | 0, _ => []
  | count + 1, iter =>
    if iter < eod then
      if entryName P payload iter = [] then [iter]
      else iter :: entriesVisited eod count (entryNext payload iter)
    else []

/-- The walk makes files of the entries it visits, and of no others. -/
theorem parseEntries_visited (eod : Nat) :
    ∀ (count iter : Nat) (files : List SmbFile),
      smbTr2Find2ParseEntries P payload eod count iter files =
        ((entriesVisited P payload eod count iter).filterMap (entryFile P payload)).reverse ++
          files := by
  intro count
  induction count with
  | zero =>
    intro iter files
    rfl
  | succ count ih =>
    intro iter files
    rw [smbTr2Find2ParseEntries, entriesVisited]
    by_cases hiter : iter < eod
    · rw [if_pos hiter, if_pos hiter]
      by_cases hname : entryName P payload iter = []
      · have hfile : entryFile P payload iter = none := if_pos hname
        rw [if_pos hname, List.filterMap_cons_none hfile]
        exact if_pos hname
      · have hfile : entryFile P payload iter =
            some (smbTr2Find2File (payload.shift iter) (entryName P payload iter)) := if_neg hname
        rw [if_neg hname, List.filterMap_cons_some hfile, List.reverse_cons, List.append_assoc]
        refine Eq.trans (if_neg hname) ?_
        exact ih (entryNext payload iter) (_ :: files)
    · rw [if_neg hiter, if_neg hiter]
      rfl

/-! ## Reads inside the payload -/

/-- Where the `k`-th entry of the chain from `start` is. -/
def chainAt (start : Nat) : Nat → Nat
  | 0 => start
  | k + 1 => chainAt (entryNext payload start) k

/-- The chain leads the walk to its `k`-th entry: there is a turn for it, it and the ones before it
start inside the data, and the names before it convert. -/
structure ChainReaches (eod count start k : Nat) : Prop where
  turn : k < count
  starts : ∀ j ≤ k, chainAt payload start j < eod
  names : ∀ j < k, entryName P payload (chainAt payload start j) ≠ []

variable {P payload} in
theorem ChainReaches.succ_iff {eod count start k : Nat} :
    ChainReaches P payload eod (count + 1) start (k + 1) ↔
      start < eod ∧ entryName P payload start ≠ [] ∧
        ChainReaches P payload eod count (entryNext payload start) k := by
  constructor
  · intro h
    refine ⟨h.starts 0 (Nat.zero_le _), h.names 0 (Nat.succ_pos _), ?_, ?_, ?_⟩
    · exact Nat.lt_of_succ_lt_succ h.turn
    · exact fun j hj => h.starts (j + 1) (Nat.succ_le_succ hj)
    · exact fun j hj => h.names (j + 1) (Nat.succ_lt_succ hj)
  · rintro ⟨hstart, hname, h⟩
    refine ⟨Nat.succ_lt_succ h.turn, ?_, ?_⟩
    · intro j hj
      cases j with
      | zero => exact hstart
      | succ j => exact h.starts j (Nat.le_of_succ_le_succ hj)
    · intro j hj
      cases j with
      | zero => exact hname
      | succ j => exact h.names j (Nat.lt_of_succ_lt_succ hj)

theorem mem_entriesVisited (eod : Nat) {off : Nat} :
    ∀ count start, off ∈ entriesVisited P payload eod count start ↔
      ∃ k, ChainReaches P payload eod count start k ∧ off = chainAt payload start k := by
  intro count
  induction count with
  | zero =>
    intro start
    constructor
    · intro h
      cases h
    · rintro ⟨k, h, -⟩
      exact absurd h.turn (Nat.not_lt_zero k)
  | succ count ih =>
    intro start
    rw [entriesVisited]
    by_cases hstart : start < eod
    · have hfirst : ChainReaches P payload eod (count + 1) start 0 := by
        refine ⟨Nat.succ_pos _, ?_, ?_⟩
        · intro j hj
          rw [Nat.le_zero.mp hj]
          exact hstart
        · exact fun j hj => absurd hj (Nat.not_lt_zero j)
      rw [if_pos hstart]
      by_cases hname : entryName P payload start = []
      · rw [if_pos hname, List.mem_singleton]
        constructor
        · exact fun h => ⟨0, hfirst, h⟩
        · rintro ⟨k, h, rfl⟩
          cases k with
          | zero => rfl
          | succ k => exact absurd hname (ChainReaches.succ_iff.mp h).2.1
      · rw [if_neg hname, List.mem_cons, ih]
        constructor
        · rintro (rfl | ⟨k, h, hoff⟩)
          · exact ⟨0, hfirst, rfl⟩
          · exact ⟨k + 1, ChainReaches.succ_iff.mpr ⟨hstart, hname, h⟩, hoff⟩
        · rintro ⟨k, h, hoff⟩
          cases k with
          | zero => exact .inl hoff
          | succ k => exact .inr ⟨k, (ChainReaches.succ_iff.mp h).2.2, hoff⟩
    · rw [if_neg hstart]
      constructor
      · intro h
        cases h
      · rintro ⟨k, h, -⟩
        exact absurd (h.starts 0 (Nat.zero_le _)) hstart

end Walk

/-! ### The parsers with a log of their reads -/

/-- `smb_tr2_find2_parse_entries` with a log of its reads. Of an entry it knows nothing but the copies
of its fixed part and of its name. -/
def smbTr2Find2ParseEntriesLog (P : Platform) (payload : Mem) (eod : Nat) :
    Nat → Nat → List SmbFile → List SmbFile × List MemRead
  | 0, _, files => (files, [])
  | count + 1, iter, files =>
    if iter < eod then
      let entry := Mem.write (fun _ => 0) 0 (payload.read iter SmbTr2Find2Entry.size)
      let nameLen := (SmbTr2Find2Entry.nameLen entry).toNat
      let name := smbFromUtf16 P (payload.read (iter + SmbTr2Find2Entry.size) nameLen)
      let reads := [⟨iter, SmbTr2Find2Entry.size⟩, ⟨iter + SmbTr2Find2Entry.size, nameLen⟩]
      if name = [] then (files, reads)
      else
        let rest := smbTr2Find2ParseEntriesLog P payload eod count
          (iter + (SmbTr2Find2Entry.nextEntry entry).toNat) (smbTr2Find2File entry name :: files)
        (rest.1, reads ++ rest.2)
    else (files, [])

/-- `smb_find_first_parse` with a log of its reads, of which the parameters are the first. -/
def smbFindFirstParseLog (P : Platform) (msg : SmbMessage) (files : List SmbFile) :
    List SmbFile × List MemRead :=
  let params := Mem.write (fun _ => 0) 0
    (msg.payload.read SmbTrans2Resp.size SmbTr2Findfirst2Params.size)
  let log := smbTr2Find2ParseEntriesLog P msg.payload msg.payloadSize
    (SmbTr2Findfirst2Params.count params).toNat
    (SmbTrans2Resp.size + SmbTr2Findfirst2Params.size) files
  (log.1, ⟨SmbTrans2Resp.size, SmbTr2Findfirst2Params.size⟩ :: log.2)

/-- `smb_find_next_parse` with a log of its reads. -/
def smbFindNextParseLog (P : Platform) (msg : SmbMessage) (files : List SmbFile) :
    List SmbFile × List MemRead :=
  let params := Mem.write (fun _ => 0) 0
    (msg.payload.read SmbTrans2Resp.size SmbTr2Findnext2Params.size)
  let log := smbTr2Find2ParseEntriesLog P msg.payload msg.payloadSize
    (SmbTr2Findnext2Params.count params).toNat
    (SmbTrans2Resp.size + SmbTr2Findnext2Params.size) files
  (log.1, ⟨SmbTrans2Resp.size, SmbTr2Findnext2Params.size⟩ :: log.2)

/-- A copy of a part of memory holds what the memory holds there. -/
theorem copy_read (m : Mem) {off size i k : Nat} (h : i + k ≤ size) :
    (Mem.write (fun _ => 0) 0 (m.read off size)).read i k = m.read (off + i) k := by
  rw [Mem.read_write_part _ (by rw [Mem.read_length]; exact h), Mem.read_sub m h]

/-- Of an entry its fixed part alone matters. -/
theorem entry_congr {entry other : Mem}
    (h : ∀ off len, off + len ≤ SmbTr2Find2Entry.size → entry.read off len = other.read off len) :
    SmbTr2Find2Entry.nameLen entry = SmbTr2Find2Entry.nameLen other ∧
      SmbTr2Find2Entry.nextEntry entry = SmbTr2Find2Entry.nextEntry other ∧
      ∀ name, smbTr2Find2File entry name = smbTr2Find2File other name := by
  have hu64 : ∀ off, off + 8 ≤ SmbTr2Find2Entry.size → entry.u64 off = other.u64 off :=
    fun off hoff => Mem.u64_congr (h off 8 hoff)
  have hu32 : ∀ off, off + 4 ≤ SmbTr2Find2Entry.size → entry.u32 off = other.u32 off :=
    fun off hoff => Mem.u32_congr (h off 4 hoff)
  refine ⟨hu32 60 (by decide), hu32 0 (by decide), fun name => ?_⟩
  rw [smbTr2Find2File, smbTr2Find2File, SmbTr2Find2Entry.created, SmbTr2Find2Entry.accessed,
    SmbTr2Find2Entry.written, SmbTr2Find2Entry.changed, SmbTr2Find2Entry.fileSize,
    SmbTr2Find2Entry.allocSize, SmbTr2Find2Entry.attr, hu64 8 (by decide), hu64 16 (by decide),
    hu64 24 (by decide), hu64 32 (by decide), hu64 40 (by decide), hu64 48 (by decide),
    hu32 56 (by decide)]
  rfl

section Log

variable (P : Platform) (payload : Mem)

/-- What is read of the entry at `off`: its fixed part and its name. -/
def entryReads (off : Nat) : List MemRead :=
  [⟨off, SmbTr2Find2Entry.size⟩,
    ⟨off + SmbTr2Find2Entry.size, (SmbTr2Find2Entry.nameLen (payload.shift off)).toNat⟩]

/-- A turn of the parser with the log, in terms of the entry itself. -/
theorem parseEntriesLog_succ (eod count iter : Nat) (files : List SmbFile) :
    smbTr2Find2ParseEntriesLog P payload eod (count + 1) iter files =
      if iter < eod then
        if entryName P payload iter = [] then (files, entryReads payload iter)
        else
          let rest := smbTr2Find2ParseEntriesLog P payload eod count (entryNext payload iter)
            (smbTr2Find2File (payload.shift iter) (entryName P payload iter) :: files)
          (rest.1, entryReads payload iter ++ rest.2)
      else (files, []) := by
  have hcopy : ∀ off len, off + len ≤ SmbTr2Find2Entry.size →
      (Mem.write (fun _ => 0) 0 (payload.read iter SmbTr2Find2Entry.size)).read off len =
        (payload.shift iter).read off len := by
    intro off len hoff
    rw [copy_read payload hoff, Mem.read_shift]
  obtain ⟨hlen, hnext, hfile⟩ := entry_congr hcopy
  rw [smbTr2Find2ParseEntriesLog]
  simp only [hlen, hnext, hfile, entryName, entryNext, entryReads, Mem.read_shift]

/-- The log changes nothing of what is parsed, and holds the reads of the entries visited. -/
theorem parseEntriesLog_eq (eod count iter : Nat) (files : List SmbFile) :
    smbTr2Find2ParseEntriesLog P payload eod count iter files =
      (smbTr2Find2ParseEntries P payload eod count iter files,
        (entriesVisited P payload eod count iter).flatMap (entryReads payload)) := by
  induction count generalizing iter files with
  | zero => rfl
  | succ count ih =>
    rw [parseEntriesLog_succ, entriesVisited]
    by_cases hiter : iter < eod
    · rw [if_pos hiter, if_pos hiter]
      by_cases hname : entryName P payload iter = []
      · rw [if_pos hname, if_pos hname, List.flatMap_singleton, parseEntries_visited, entriesVisited,
          if_pos hiter, if_pos hname]
        simp [entryFile, hname]
      · have hparse : smbTr2Find2ParseEntries P payload eod (count + 1) iter files =
            smbTr2Find2ParseEntries P payload eod count (entryNext payload iter)
              (smbTr2Find2File (payload.shift iter) (entryName P payload iter) :: files) := by
          rw [smbTr2Find2ParseEntries, if_pos hiter]
          exact if_neg hname
        rw [if_neg hname, if_neg hname, ih, hparse, List.flatMap_cons]
    · rw [if_neg hiter, if_neg hiter, smbTr2Find2ParseEntries, if_neg hiter]
      rfl

/-- The parser with the log depends on nothing but its reads. -/
theorem parseEntriesLog_congr {payload other : Mem} {eod count iter : Nat} {files : List SmbFile}
    (h : AgreeOn (smbTr2Find2ParseEntriesLog P payload eod count iter files).2 payload other) :
    smbTr2Find2ParseEntriesLog P other eod count iter files =
      smbTr2Find2ParseEntriesLog P payload eod count iter files := by
  induction count generalizing iter files with
  | zero => rfl
  | succ count ih =>
    rw [smbTr2Find2ParseEntriesLog] at h ⊢
    rw [smbTr2Find2ParseEntriesLog]
    by_cases hiter : iter < eod
    · rw [if_pos hiter] at h ⊢
      rw [if_pos hiter]
      dsimp only at h ⊢
      generalize hname : smbFromUtf16 P (payload.read (iter + SmbTr2Find2Entry.size)
        (SmbTr2Find2Entry.nameLen (Mem.write (fun _ => 0) 0
          (payload.read iter SmbTr2Find2Entry.size))).toNat) = name at h ⊢
      -- the reads of this entry are logged whether it converts or not
      have hreads : AgreeOn [⟨iter, SmbTr2Find2Entry.size⟩, ⟨iter + SmbTr2Find2Entry.size,
          (SmbTr2Find2Entry.nameLen (Mem.write (fun _ => 0) 0
            (payload.read iter SmbTr2Find2Entry.size))).toNat⟩] payload other := by
        intro read hread
        apply h
        split
        · exact hread
        · exact List.mem_append_left _ hread
      have hfixed := hreads _ List.mem_cons_self
      have hchars := hreads _ (List.mem_cons_of_mem _ List.mem_cons_self)
      dsimp only at hfixed hchars
      rw [hfixed, hchars, hname]
      by_cases hconv : name = []
      · rw [if_pos hconv, if_pos hconv]
      · rw [if_neg hconv] at h ⊢
        rw [if_neg hconv, ih fun read hread => h read (List.mem_append_right _ hread)]
    · rw [if_neg hiter, if_neg hiter]

end Log

/-- `log` is `parse` with a log of its reads: it parses what `parse` parses, and `parse` makes the same
of every message of this size that looks the same to the reads. -/
structure LogsReads (parse : SmbMessage → List SmbFile → List SmbFile)
    (log : SmbMessage → List SmbFile → List SmbFile × List MemRead) : Prop where
  result : ∀ msg files, (log msg files).1 = parse msg files
  depends : ∀ msg other files, other.payloadSize = msg.payloadSize →
    AgreeOn (log msg files).2 msg.payload other.payload → parse other files = parse msg files

/-- The count in a copy of the parameters. -/
theorem firstCount_copy (msg : SmbMessage) :
    SmbTr2Findfirst2Params.count (Mem.write (fun _ => 0) 0
      (msg.payload.read SmbTrans2Resp.size SmbTr2Findfirst2Params.size)) =
        SmbTr2Findfirst2Params.count (smbTr2Params msg) := by
  apply Mem.u16_congr
  rw [copy_read _ (by decide), smbTr2Params, Mem.read_shift]

theorem nextCount_copy (msg : SmbMessage) :
    SmbTr2Findnext2Params.count (Mem.write (fun _ => 0) 0
      (msg.payload.read SmbTrans2Resp.size SmbTr2Findnext2Params.size)) =
        SmbTr2Findnext2Params.count (smbTr2Params msg) := by
  apply Mem.u16_congr
  rw [copy_read _ (by decide), smbTr2Params, Mem.read_shift]

theorem findFirstParse_logsReads (P : Platform) :
    LogsReads (smbFindFirstParse P) (smbFindFirstParseLog P) := by
  have hresult : ∀ msg files, (smbFindFirstParseLog P msg files).1 = smbFindFirstParse P msg files := by
    intro msg files
    rw [smbFindFirstParseLog, smbFindFirstParse]
    dsimp only
    rw [firstCount_copy, parseEntriesLog_eq]
  refine ⟨hresult, fun msg other files hsize hagree => ?_⟩
  have hparams := hagree _ List.mem_cons_self
  have hentries := parseEntriesLog_congr P fun read hread => hagree read (List.mem_cons_of_mem _ hread)
  dsimp only at hparams
  rw [← hresult, ← hresult, smbFindFirstParseLog, smbFindFirstParseLog, hparams, hsize]
  dsimp only
  rw [hentries]

theorem findNextParse_logsReads (P : Platform) :
    LogsReads (smbFindNextParse P) (smbFindNextParseLog P) := by
  have hresult : ∀ msg files, (smbFindNextParseLog P msg files).1 = smbFindNextParse P msg files := by
    intro msg files
    rw [smbFindNextParseLog, smbFindNextParse]
    dsimp only
    rw [nextCount_copy, parseEntriesLog_eq]
  refine ⟨hresult, fun msg other files hsize hagree => ?_⟩
  have hparams := hagree _ List.mem_cons_self
  have hentries := parseEntriesLog_congr P fun read hread => hagree read (List.mem_cons_of_mem _ hread)
  dsimp only at hparams
  rw [← hresult, ← hresult, smbFindNextParseLog, smbFindNextParseLog, hparams, hsize]
  dsimp only
  rw [hentries]

/-- The message is long enough for the parameters, and no entry that the chain leads to goes beyond
the end of the data. -/
def ChainInside (P : Platform) (msg : SmbMessage) (paramSize : Nat) (count : UInt16) : Prop :=
  SmbTrans2Resp.size + paramSize ≤ msg.payloadSize ∧
    ∀ k, ChainReaches P msg.payload msg.payloadSize count.toNat (SmbTrans2Resp.size + paramSize) k →
      chainAt msg.payload (SmbTrans2Resp.size + paramSize) k + entryExtent msg.payload
        (chainAt msg.payload (SmbTrans2Resp.size + paramSize) k) ≤ msg.payloadSize

/-- The reads of an entry lie inside when the entry does. -/
theorem entryReads_inside_iff (payload : Mem) (size off : Nat) :
    ReadsInside size (entryReads payload off) ↔ off + entryExtent payload off ≤ size := by
  simp only [ReadsInside, entryReads, List.forall_mem_cons, entryExtent]
  constructor
  · rintro ⟨-, hname, -⟩
    omega
  · intro h
    exact ⟨by omega, by omega, fun _ hread => absurd hread List.not_mem_nil⟩

/-- The reads of a parser whose parameters take `paramSize` bytes. -/
theorem readsInside_iff (P : Platform) (msg : SmbMessage) (paramSize : Nat) (count : UInt16) :
    ReadsInside msg.payloadSize (⟨SmbTrans2Resp.size, paramSize⟩ ::
        (entriesVisited P msg.payload msg.payloadSize count.toNat
          (SmbTrans2Resp.size + paramSize)).flatMap (entryReads msg.payload)) ↔
      ChainInside P msg paramSize count := by
  have hentries : ReadsInside msg.payloadSize ((entriesVisited P msg.payload msg.payloadSize
      count.toNat (SmbTrans2Resp.size + paramSize)).flatMap (entryReads msg.payload)) ↔
        ∀ off ∈ entriesVisited P msg.payload msg.payloadSize count.toNat
          (SmbTrans2Resp.size + paramSize),
            off + entryExtent msg.payload off ≤ msg.payloadSize := by
    simp only [← entryReads_inside_iff, ReadsInside, List.mem_flatMap]
    exact ⟨fun h off hoff read hread => h read ⟨off, hoff, hread⟩,
      fun h read ⟨off, hoff, hread⟩ => h off hoff read hread⟩
  rw [ReadsInside, List.forall_mem_cons, ← ReadsInside, hentries, ChainInside, and_congr_right_iff]
  intro _
  constructor
  · exact fun h k hk => h _ ((mem_entriesVisited _ _ _ _ _).mpr ⟨k, hk, rfl⟩)
  · intro h off hoff
    obtain ⟨k, hk, rfl⟩ := (mem_entriesVisited _ _ _ _ _).mp hoff
    exact h k hk

/-- The parsers of both answers, which depend on nothing but the reads logged, read inside the payload
if and only if the chain of the entries ends inside it. -/
theorem findParse_readsInside_iff (P : Platform) :
    (LogsReads (smbFindFirstParse P) (smbFindFirstParseLog P) ∧
      ∀ msg files, ReadsInside msg.payloadSize (smbFindFirstParseLog P msg files).2 ↔
        ChainInside P msg SmbTr2Findfirst2Params.size
          (SmbTr2Findfirst2Params.count (smbTr2Params msg))) ∧
    (LogsReads (smbFindNextParse P) (smbFindNextParseLog P) ∧
      ∀ msg files, ReadsInside msg.payloadSize (smbFindNextParseLog P msg files).2 ↔
        ChainInside P msg SmbTr2Findnext2Params.size
          (SmbTr2Findnext2Params.count (smbTr2Params msg))) := by
  refine ⟨⟨findFirstParse_logsReads P, fun msg files => ?_⟩,
    ⟨findNextParse_logsReads P, fun msg files => ?_⟩⟩
  · rw [← readsInside_iff, smbFindFirstParseLog]
    dsimp only
    rw [firstCount_copy, parseEntriesLog_eq]
  · rw [← readsInside_iff, smbFindNextParseLog]
    dsimp only
    rw [nextCount_copy, parseEntriesLog_eq]

/-- A FIND_FIRST answer that announces an entry and has one byte of it, with `behind` in the memory
after it. -/
def shortFirst (behind : List UInt8) : SmbMessage :=
  { SmbMessage.ofPayload (List.replicate 26 0 ++ [1, 0] ++ List.replicate 9 0 ++ behind) with
    payloadSize := 37 }

/-- The parser reads an entry out of the memory behind the answer. -/
theorem findParse_reads_beyond :
    let named := shortFirst (List.replicate 59 0 ++ le32 2 ++ List.replicate 30 0 ++ [97, 0])
    ¬ ReadsInside (shortFirst []).payloadSize (smbFindFirstParseLog .ascii (shortFirst []) []).2 ∧
      named.payloadSize = (shortFirst []).payloadSize ∧
      named.payload.read 0 37 = (shortFirst []).payload.read 0 37 ∧
      (smbFindFirstParse .ascii (shortFirst []) []).length = 0 ∧
      (smbFindFirstParse .ascii named []).length = 1 := by
  intro named
  refine ⟨?_, rfl, by decide +kernel, by decide +kernel, by decide +kernel⟩
  intro h
  -- the fixed part of the entry
  have hread : ⟨36, SmbTr2Find2Entry.size⟩ ∈
      (smbFindFirstParseLog .ascii (shortFirst []) []).2 := .tail _ (.head _)
  exact absurd (h _ hread) (by decide)

/-! ## One file per entry -/

/-- A chain of entries inside the data, at these offsets: every entry leads to the next one, and the
last one leads nowhere. -/
inductive EntryChain (payload : Mem) (eod : Nat) : Nat → List Nat → Prop where
  | last {iter : Nat} :
      iter + entryExtent payload iter ≤ eod →
      SmbTr2Find2Entry.nextEntry (payload.shift iter) = 0 →
      EntryChain payload eod iter [iter]
  | next {iter : Nat} {rest : List Nat} :
      iter + entryExtent payload iter ≤ eod →
      SmbTr2Find2Entry.nextEntry (payload.shift iter) ≠ 0 →
      EntryChain payload eod (entryNext payload iter) rest →
      EntryChain payload eod iter (iter :: rest)

theorem lt_of_extent {payload : Mem} {eod iter : Nat} (h : iter + entryExtent payload iter ≤ eod) :
    iter < eod := by
  rw [entryExtent, SmbTr2Find2Entry.size] at h
  omega

section Chain

variable (P : Platform) (payload : Mem)

/-- The name of the entry converts. -/
def EntryConverts (off : Nat) : Prop := entryName P payload off ≠ []

/-- The walk over a chain makes one file of each entry: of the first `count` those whose name
converts, and nothing else. -/
def OneFileEach (eod count iter : Nat) (chain : List Nat) (files : List SmbFile) : Prop :=
  smbTr2Find2ParseEntries P payload eod count iter files =
    ((chain.take count).filterMap (entryFile P payload)).reverse ++ files

/-- Among the first `count` entries those whose name converts come first, and if the count goes beyond
the chain there is a name that does not convert. -/
def ConvertFirst (count : Nat) (chain : List Nat) : Prop :=
  (chain.take count).Pairwise (fun a b => EntryConverts P payload b → EntryConverts P payload a) ∧
    (chain.length < count → ∃ off ∈ chain, ¬ EntryConverts P payload off)

variable {P payload}

theorem entryFile_none {off : Nat} (h : ¬ EntryConverts P payload off) :
    entryFile P payload off = none := if_pos (not_not.mp h)

theorem entryFile_some {off : Nat} (h : EntryConverts P payload off) :
    ∃ file, entryFile P payload off = some file := ⟨_, if_neg h⟩

/-- The entries visited from one whose name does not convert: itself. -/
theorem entriesVisited_stop {eod count iter : Nat} (hiter : iter < eod)
    (h : ¬ EntryConverts P payload iter) :
    entriesVisited P payload eod (count + 1) iter = [iter] := by
  rw [entriesVisited, if_pos hiter, if_pos (not_not.mp h)]

theorem entriesVisited_go {eod count iter : Nat} (hiter : iter < eod)
    (h : EntryConverts P payload iter) :
    entriesVisited P payload eod (count + 1) iter =
      iter :: entriesVisited P payload eod count (entryNext payload iter) := by
  rw [entriesVisited, if_pos hiter, if_neg h]

/-- The walk makes a file if it has a turn for an entry that starts inside the data and whose name
converts. -/
theorem visited_files_ne_nil_iff {eod count iter : Nat} :
    (entriesVisited P payload eod count iter).filterMap (entryFile P payload) ≠ [] ↔
      count ≠ 0 ∧ iter < eod ∧ EntryConverts P payload iter := by
  cases count with
  | zero =>
    rw [entriesVisited, List.filterMap_nil]
    exact ⟨fun h => absurd rfl h, fun h => absurd rfl h.1⟩
  | succ count =>
    by_cases hiter : iter < eod
    · by_cases hname : EntryConverts P payload iter
      · obtain ⟨file, hfile⟩ := entryFile_some hname
        rw [entriesVisited_go hiter hname, List.filterMap_cons_some hfile]
        exact ⟨fun _ => ⟨Nat.succ_ne_zero _, hiter, hname⟩, fun _ => List.cons_ne_nil _ _⟩
      · rw [entriesVisited_stop hiter hname, List.filterMap_cons_none (entryFile_none hname)]
        exact ⟨fun h => absurd rfl h, fun h => absurd h.2.2 hname⟩
    · rw [entriesVisited, if_neg hiter]
      exact ⟨fun h => absurd rfl h, fun h => absurd h.2.1 hiter⟩

/-- An entry that leads nowhere is visited in every turn. -/
theorem entriesVisited_last {eod iter : Nat} (hiter : iter < eod)
    (hnext : SmbTr2Find2Entry.nextEntry (payload.shift iter) = 0)
    (h : EntryConverts P payload iter) (count : Nat) :
    entriesVisited P payload eod count iter = List.replicate count iter := by
  have hstay : entryNext payload iter = iter := by
    rw [entryNext, hnext]
    rfl
  induction count with
  | zero => rfl
  | succ count ih => rw [entriesVisited_go hiter h, hstay, ih, List.replicate_succ]

theorem convertFirst_nil (count : Nat) : ConvertFirst P payload count [] ↔ count = 0 := by
  simp [ConvertFirst]

/-- An entry whose name converts does not matter for the condition. -/
theorem convertFirst_cons {off : Nat} (h : EntryConverts P payload off) (count : Nat)
    (rest : List Nat) :
    ConvertFirst P payload (count + 1) (off :: rest) ↔ ConvertFirst P payload count rest := by
  rw [ConvertFirst, ConvertFirst, List.take_succ_cons, List.pairwise_cons, List.length_cons,
    Nat.add_lt_add_iff_right]
  constructor
  · rintro ⟨⟨-, hpairs⟩, hbeyond⟩
    refine ⟨hpairs, fun hlt => ?_⟩
    obtain ⟨off', hmem, hnot⟩ := hbeyond hlt
    rcases List.mem_cons.mp hmem with rfl | hmem
    · exact absurd h hnot
    · exact ⟨off', hmem, hnot⟩
  · rintro ⟨hpairs, hbeyond⟩
    refine ⟨⟨fun _ _ _ => h, hpairs⟩, fun hlt => ?_⟩
    obtain ⟨off', hmem, hnot⟩ := hbeyond hlt
    exact ⟨off', List.mem_cons_of_mem _ hmem, hnot⟩

/-- After one whose name does not convert no file may follow. -/
theorem convertFirst_stop {off : Nat} (h : ¬ EntryConverts P payload off) (count : Nat)
    (rest : List Nat) :
    ConvertFirst P payload (count + 1) (off :: rest) ↔
      (rest.take count).filterMap (entryFile P payload) = [] := by
  rw [ConvertFirst, List.take_succ_cons, List.pairwise_cons, List.filterMap_eq_nil_iff]
  constructor
  · rintro ⟨⟨hpairs, -⟩, -⟩ off' hoff
    apply entryFile_none
    exact fun hyes => h (hpairs off' hoff hyes)
  · intro hempty
    have hnone : ∀ off' ∈ rest.take count, ¬ EntryConverts P payload off' := by
      intro off' hoff hyes
      obtain ⟨file, hfile⟩ := entryFile_some hyes
      rw [hempty off' hoff] at hfile
      cases hfile
    refine ⟨⟨fun off' hoff hyes => absurd hyes (hnone off' hoff), ?_⟩,
      fun _ => ⟨off, List.mem_cons_self, h⟩⟩
    apply List.pairwise_of_forall_mem_list
    exact fun a _ b hb hyes => absurd hyes (hnone b hb)

/-- The files of the entries visited are those of the chain under the condition alone. -/
theorem visited_files_iff {eod iter : Nat} {chain : List Nat}
    (hchain : EntryChain payload eod iter chain) :
    ∀ count, (entriesVisited P payload eod count iter).filterMap (entryFile P payload) =
        (chain.take count).filterMap (entryFile P payload) ↔ ConvertFirst P payload count chain := by
  induction hchain with
  | @last iter hfit hnext =>
    intro count
    have hiter := lt_of_extent hfit
    cases count with
    | zero => simp [entriesVisited, ConvertFirst]
    | succ count =>
      have htake : [iter].take (count + 1) = [iter] := by simp
      rw [htake]
      by_cases hconv : EntryConverts P payload iter
      · obtain ⟨file, hfile⟩ := entryFile_some hconv
        rw [entriesVisited_last hiter hnext hconv, convertFirst_cons hconv, convertFirst_nil]
        constructor
        · intro heq
          have hlen := congrArg List.length heq
          simpa [hfile] using hlen
        · rintro rfl
          rfl
      · rw [entriesVisited_stop hiter hconv, convertFirst_stop hconv, List.take_nil]
        exact iff_of_true rfl rfl
  | @next iter rest hfit hnext hrest ih =>
    intro count
    have hiter := lt_of_extent hfit
    cases count with
    | zero => simp [entriesVisited, ConvertFirst]
    | succ count =>
      rw [List.take_succ_cons]
      by_cases hconv : EntryConverts P payload iter
      · obtain ⟨file, hfile⟩ := entryFile_some hconv
        rw [entriesVisited_go hiter hconv, List.filterMap_cons_some hfile,
          List.filterMap_cons_some hfile, List.cons_inj_right, ih count, convertFirst_cons hconv]
      · rw [entriesVisited_stop hiter hconv, List.filterMap_cons_none (entryFile_none hconv),
          List.filterMap_cons_none (entryFile_none hconv), convertFirst_stop hconv, eq_comm]
        rfl

end Chain

/-- The walk over a chain makes one file of each entry if and only if the names that convert come
first and the count does not go beyond a chain of such names. -/
theorem parseEntries_oneFileEach_iff (P : Platform) (payload : Mem) (eod iter count : Nat)
    (chain : List Nat) (files : List SmbFile) (hchain : EntryChain payload eod iter chain) :
    OneFileEach P payload eod count iter chain files ↔ ConvertFirst P payload count chain := by
  rw [OneFileEach, parseEntries_visited, List.append_cancel_right_eq, List.reverse_inj]
  exact visited_files_iff hchain count

/-- An entry with this name, everything else zero. -/
def plainEntry (next : UInt32) (name : List UInt8) : List UInt8 :=
  le32 next ++ List.replicate 56 0 ++ le32 (UInt32.ofNat name.length) ++ List.replicate 30 0 ++ name

/-- Two entries with the names `a` and `b`. -/
def plainPair : SmbMessage := .ofPayload (plainEntry 96 [97, 0] ++ plainEntry 0 [98, 0])

theorem plainPair_chain : EntryChain plainPair.payload plainPair.payloadSize 0 [0, 96] :=
  .next (by decide +kernel) (by decide +kernel) (.last (by decide +kernel) (by decide +kernel))

theorem parseEntries_oneFileEach_pair :
    EntryChain plainPair.payload plainPair.payloadSize 0 [0, 96] ∧
      OneFileEach .ascii plainPair.payload plainPair.payloadSize 2 0 [0, 96] [] := by
  refine ⟨plainPair_chain, ?_⟩
  refine (parseEntries_oneFileEach_iff .ascii _ _ 0 2 [0, 96] [] plainPair_chain).mpr ⟨?_, ?_⟩
  · have hfirst : EntryConverts .ascii plainPair.payload 0 := by
      rw [EntryConverts]
      decide +kernel
    simp [hfirst]
  · intro hlt
    simp at hlt

/-- With a count of three the second entry is listed twice. -/
theorem parseEntries_repeats_last :
    EntryChain plainPair.payload plainPair.payloadSize 0 [0, 96] ∧
      ¬ OneFileEach .ascii plainPair.payload plainPair.payloadSize 3 0 [0, 96] [] := by
  refine ⟨plainPair_chain, ?_⟩
  rw [OneFileEach]
  decide +kernel

end Libdsm
