import Libdsm.Smb.Heap
import Libdsm.Smb.Proofs.Entries

/-!
# Listings in memory

A search builds its list by linking a new cell before the head for every entry it parses, and hands it
out; the caller counts it, takes elements of it and destroys it (`smb_stat.c`). `Listing h₀ h list cells`
says that the heap `h` is `h₀` with the cells of the list, and their names, added.
-/

namespace Libdsm

/-- The file that a cell stands for. -/
def StatHeap.fileOf (h : StatHeap) (cell : SmbFileCell) : SmbFile :=
  { cell.members with name := cell.name.bind h.names }

theorem StatHeap.fileOf_statGet (h : StatHeap) (cell : SmbFileCell) (what : Option SmbStatWhat) :
    (h.fileOf cell).statGet what = cell.members.statGet what := by
  rcases what with _ | ⟨_ | _⟩ <;> rfl

/-- The heap holds a list on top of what `h₀` holds. -/
structure Listing (h₀ h : StatHeap) (list : Option Nat) (cells : List (Nat × SmbFileCell))
    (names : List Nat) : Prop where
  chain : Cells.Chain h.fileCells list cells
  named : cells.map (fun c => c.2.name) = names.map some
  apart : names.Nodup
  texts : ∀ b ∈ names, (h.names b).isSome
  freeCells : ∀ a ∈ cells.map Prod.fst, h₀.fileCells a = none
  freeNames : ∀ b ∈ names, h₀.names b = none
  sameCells : ∀ a ∉ cells.map Prod.fst, h.fileCells a = h₀.fileCells a
  sameNames : ∀ b ∉ names, h.names b = h₀.names b

namespace Listing

variable {h₀ h : StatHeap} {list : Option Nat} {cells : List (Nat × SmbFileCell)} {names : List Nat}

theorem empty (h : StatHeap) : Listing h h none [] [] where
  chain := .nil none
  named := rfl
  apart := List.nodup_nil
  texts := by simp
  freeCells := by simp
  freeNames := by simp
  sameCells _ _ := rfl
  sameNames _ _ := rfl

/-- Linking a cell before the head. -/
theorem push (hl : Listing h₀ h list cells names) {a b : Nat} (ha : h₀.fileCells a = none)
    (ha' : a ∉ cells.map Prod.fst) (hb : h₀.names b = none) (hb' : b ∉ names) (file : SmbFile)
    (name : List UInt8) :
    Listing h₀ ⟨Function.update h.fileCells a (some ⟨⟨some b, file⟩, list⟩),
      Function.update h.names b (some name)⟩ (some a) ((a, ⟨some b, file⟩) :: cells) (b :: names) where
  chain := .cons (Function.update_self _ _ _) (hl.chain.update_of_notMem ha')
  named := by
    rw [List.map_cons, List.map_cons, hl.named]
  apart := List.nodup_cons.mpr ⟨hb', hl.apart⟩
  texts := by
    intro c hc
    by_cases hcb : c = b
    · subst hcb
      simp
    · dsimp only
      rw [Function.update_of_ne hcb]
      exact hl.texts c ((List.mem_cons.mp hc).resolve_left hcb)
  freeCells := by
    rw [List.map_cons, List.forall_mem_cons]
    exact ⟨ha, hl.freeCells⟩
  freeNames := List.forall_mem_cons.mpr ⟨hb, hl.freeNames⟩
  sameCells := by
    intro c hc
    rw [List.map_cons, List.mem_cons, not_or] at hc
    dsimp only
    rw [Function.update_of_ne hc.1]
    exact hl.sameCells c hc.2
  sameNames := by
    intro c hc
    rw [List.mem_cons, not_or] at hc
    dsimp only
    rw [Function.update_of_ne hc.1]
    exact hl.sameNames c hc.2

/-- The files on the list stay what they are when another is pushed. -/
theorem fileOf_push (hl : Listing h₀ h list cells names) {b : Nat} (hb : b ∉ names) (name : List UInt8)
    (fileCells : Cells SmbFileCell) :
    cells.map (fun c => StatHeap.fileOf ⟨fileCells, Function.update h.names b (some name)⟩ c.2) =
      cells.map fun c => h.fileOf c.2 := by
  apply List.map_congr_left
  intro c hc
  have hname : c.2.name ∈ names.map some := by
    rw [← hl.named]
    exact List.mem_map_of_mem hc
  obtain ⟨d, hd, hdc⟩ := List.mem_map.mp hname
  have hne : d ≠ b := ne_of_mem_of_not_mem hd hb
  simp only [StatHeap.fileOf, ← hdc, Option.bind_some, Function.update_of_ne hne]

theorem count (hl : Listing h₀ h list cells names) {fuel : Nat} (hfuel : cells.length < fuel) :
    smbStatListCount h fuel list = some cells.length := by
  simp only [smbStatListCount, hl.chain.collect hfuel, Option.bind_eq_bind, Option.bind_some]

/-- The element at an index, as `smb_stat_name` and `smb_stat_get` show it. -/
theorem at_index (hl : Listing h₀ h list cells names) (i : Nat) :
    ∃ q p, smbStatListAt h list i = some q ∧ (q.isSome ↔ i < cells.length) ∧
      smbStatName h q = some p ∧
      p.bind h.names = (cells.map fun c => h.fileOf c.2)[i]?.bind SmbFile.name ∧
      ∀ what, smbStatGet h q what =
        some (((cells.map fun c => h.fileOf c.2)[i]?.map fun f => f.statGet what).getD 0) := by
  refine ⟨cells[i]?.map Prod.fst, cells[i]?.bind fun c => c.2.name, hl.chain.advance i, ?_⟩
  rw [List.getElem?_map]
  cases hc : cells[i]? with
  | none =>
    have hlen := List.getElem?_eq_none_iff.mp hc
    exact ⟨by simp [hlen], rfl, rfl, fun _ => rfl⟩
  | some c =>
    have hlen := (List.getElem?_eq_some_iff.mp hc).1
    obtain ⟨pre, post, hsplit⟩ := List.append_of_mem (List.mem_of_getElem? hc)
    have hchain := hl.chain
    rw [hsplit] at hchain
    obtain ⟨next, hcell, -⟩ := Cells.Chain.cell hchain
    refine ⟨by simp [hlen], ?_, rfl, fun what => ?_⟩
    · simp [smbStatName, hcell]
    · simp [smbStatGet, hcell, StatHeap.fileOf_statGet]

/-- Freeing names that are all allocated. -/
theorem freeNames_all {cells : List (Nat × SmbFileCell)} {names : List Nat} (texts : Names)
    (hnamed : cells.map (fun c => c.2.name) = names.map some) (hapart : names.Nodup)
    (htexts : ∀ b ∈ names, (texts b).isSome) :
    cells.foldlM (fun s c => freeFileName c.2 s) texts =
      some fun b => if b ∈ names then none else texts b := by
  induction cells generalizing names texts with
  | nil =>
    obtain rfl : names = [] := by simpa using hnamed.symm
    simp
  | cons c cells ih =>
    cases names with
    | nil => cases hnamed
    | cons b names =>
      rw [List.map_cons, List.map_cons, List.cons.injEq] at hnamed
      rw [List.forall_mem_cons] at htexts
      rw [List.nodup_cons] at hapart
      have hfree : freeFileName c.2 texts = some (Function.update texts b none) := by
        rw [freeFileName, hnamed.1, freeName]
        exact if_pos htexts.1
      have hrest : ∀ d ∈ names, (Function.update texts b none d).isSome := by
        intro d hd
        rw [Function.update_of_ne (ne_of_mem_of_not_mem hd hapart.1)]
        exact htexts.2 d hd
      rw [List.foldlM_cons, hfree, Option.bind_eq_bind, Option.bind_some,
        ih _ hnamed.2 hapart.2 hrest]
      refine congrArg some (funext fun d => ?_)
      by_cases hd : d = b
      · simp [hd]
      · simp [hd]

/-- Destroying the list gives back the heap from before. -/
theorem destroy (hl : Listing h₀ h list cells names) {fuel : Nat} (hfuel : cells.length < fuel) :
    smbStatListDestroy h fuel list = some h₀ := by
  have hnames := freeNames_all h.names hl.named hl.apart hl.texts
  have hcells : h.fileCells.without (cells.map Prod.fst) = h₀.fileCells := by
    funext a
    by_cases ha : a ∈ cells.map Prod.fst
    · rw [Cells.without, if_pos ha, hl.freeCells a ha]
    · rw [Cells.without, if_neg ha, hl.sameCells a ha]
  have htexts : (fun b => if b ∈ names then none else h.names b) = h₀.names := by
    funext b
    by_cases hb : b ∈ names
    · rw [if_pos hb, hl.freeNames b hb]
    · rw [if_neg hb, hl.sameNames b hb]
  rw [smbStatListDestroy, Cells.Chain.drain freeFileName hl.chain hfuel hnames, hcells, htexts]
  rfl

end Listing

/-! ## Searches -/

/-- Addresses for files and names that are neither allocated in `h₀` nor on the list. -/
structure Spare (h₀ : StatHeap) (cells names : List Nat) (addrs : List (Nat × Nat)) : Prop where
  nodupCells : (addrs.map Prod.fst).Nodup
  nodupNames : (addrs.map Prod.snd).Nodup
  cell : ∀ c ∈ addrs, h₀.fileCells c.1 = none ∧ c.1 ∉ cells
  name : ∀ c ∈ addrs, h₀.names c.2 = none ∧ c.2 ∉ names

namespace Spare

variable {h₀ : StatHeap} {cells names : List Nat}

/-- Using the first of them. -/
theorem tail {a b : Nat} {addrs : List (Nat × Nat)} (h : Spare h₀ cells names ((a, b) :: addrs)) :
    Spare h₀ (a :: cells) (b :: names) addrs := by
  have hcells := List.nodup_cons.mp h.nodupCells
  have hnames := List.nodup_cons.mp h.nodupNames
  refine ⟨hcells.2, hnames.2, fun c hc => ?_, fun c hc => ?_⟩
  · have hne : c.1 ≠ a := ne_of_mem_of_not_mem (List.mem_map_of_mem hc) hcells.1
    have hold := h.cell c (List.mem_cons_of_mem _ hc)
    exact ⟨hold.1, by simp [hne, hold.2]⟩
  · have hne : c.2 ≠ b := ne_of_mem_of_not_mem (List.mem_map_of_mem hc) hnames.1
    have hold := h.name c (List.mem_cons_of_mem _ hc)
    exact ⟨hold.1, by simp [hne, hold.2]⟩

/-- Leaving the first ones unused. -/
theorem suffix {addrs rest : List (Nat × Nat)} (h : Spare h₀ cells names (addrs ++ rest)) :
    Spare h₀ cells names rest := by
  refine ⟨?_, ?_, fun c hc => h.cell c (List.mem_append_right _ hc),
    fun c hc => h.name c (List.mem_append_right _ hc)⟩
  · have hnodup := h.nodupCells
    rw [List.map_append] at hnodup
    exact (List.nodup_append.mp hnodup).2.1
  · have hnodup := h.nodupNames
    rw [List.map_append] at hnodup
    exact (List.nodup_append.mp hnodup).2.1

end Spare

/-- A heap that holds a list of files, with addresses to spare for more. -/
def Holding (h₀ : StatHeap) (st : StatHeap × Option Nat) (files : List SmbFile)
    (spare : List (Nat × Nat)) : Prop :=
  ∃ cells names, Listing h₀ st.1 st.2 cells names ∧ (cells.map fun c => st.1.fileOf c.2) = files ∧
    Spare h₀ (cells.map Prod.fst) names spare

/-- The entries of one answer leave a list of the files that they stand for before the list from
before. -/
theorem Holding.parseEntries (P : Platform) (payload : Mem) (eod : Nat) {h₀ : StatHeap}
    (rest : List (Nat × Nat)) (count iter : Nat) (addrs : List (Nat × Nat)) (h : StatHeap)
    (list : Option Nat) (files : List SmbFile) (hlen : count ≤ addrs.length)
    (hh : Holding h₀ (h, list) files (addrs ++ rest)) :
    Holding h₀ (StatHeap.smbTr2Find2ParseEntries P payload eod count iter addrs h list)
      (smbTr2Find2ParseEntries P payload eod count iter files) rest := by
  -- on the turns to go: a turn ends the loop, or pushes one cell and uses one pair of addresses
  have hstop : Holding h₀ (h, list) files rest := by
    obtain ⟨cells, names, hl, hfiles, hspare⟩ := hh
    exact ⟨cells, names, hl, hfiles, hspare.suffix⟩
  induction count generalizing iter addrs h list files with
  | zero =>
    rw [StatHeap.smbTr2Find2ParseEntries, smbTr2Find2ParseEntries]
    · exact hstop
    · simp
  | succ count ih =>
    obtain _ | ⟨⟨a, b⟩, addrs⟩ := addrs
    · simp at hlen
    rw [StatHeap.smbTr2Find2ParseEntries, smbTr2Find2ParseEntries]
    by_cases hiter : iter < eod
    · rw [if_pos hiter, if_pos hiter]
      dsimp only
      generalize payload.shift iter = entry
      generalize smbFromUtf16 P _ = name
      by_cases hname : name = []
      · rw [if_pos hname, if_pos hname]
        exact hstop
      · rw [if_neg hname, if_neg hname]
        have hnext : Holding h₀ (⟨Function.update h.fileCells a
            (some ⟨⟨some b, smbTr2Find2File entry name⟩, list⟩),
            Function.update h.names b (some name)⟩, some a)
            (smbTr2Find2File entry name :: files) (addrs ++ rest) := by
          obtain ⟨cells, names, hl, hfiles, hspare⟩ := hh
          have ha := hspare.cell (a, b) (List.mem_cons_self)
          have hb := hspare.name (a, b) (List.mem_cons_self)
          refine ⟨_, _, hl.push ha.1 ha.2 hb.1 hb.2 _ name, ?_, hspare.tail⟩
          rw [List.map_cons, hl.fileOf_push hb.2, hfiles]
          congr 1
          simp [StatHeap.fileOf, smbTr2Find2File]
        refine ih _ addrs _ _ _ (by simpa using hlen) hnext ?_
        obtain ⟨cells, names, hl, hfiles, hspare⟩ := hnext
        exact ⟨cells, names, hl, hfiles, hspare.suffix⟩
    · rw [if_neg hiter, if_neg hiter]
      exact hstop

/-- The entries of one answer, and the addresses that their files and names get. -/
structure EntryBlock where
  payload : Mem
  eod : Nat
  count : Nat
  iter : Nat
  addrs : List (Nat × Nat)

/-- `smb_tr2_find2_parse_entries` on an answer, in memory. -/
def EntryBlock.parse (P : Platform) (st : StatHeap × Option Nat) (e : EntryBlock) :
    StatHeap × Option Nat :=
  StatHeap.smbTr2Find2ParseEntries P e.payload e.eod e.count e.iter e.addrs st.1 st.2

/-- The same on a list of files. -/
def EntryBlock.files (P : Platform) (files : List SmbFile) (e : EntryBlock) : List SmbFile :=
  smbTr2Find2ParseEntries P e.payload e.eod e.count e.iter files

/-- Any number of answers. -/
theorem Holding.parseBlocks (P : Platform) {h₀ : StatHeap} (blocks : List EntryBlock)
    (st : StatHeap × Option Nat) (files : List SmbFile)
    (hlen : ∀ e ∈ blocks, e.count ≤ e.addrs.length)
    (hh : Holding h₀ st files (blocks.flatMap fun e => e.addrs)) :
    Holding h₀ (blocks.foldl (EntryBlock.parse P) st) (blocks.foldl (EntryBlock.files P) files) [] := by
  induction blocks generalizing st files with
  | nil => exact hh
  | cons e blocks ih =>
    rw [List.forall_mem_cons] at hlen
    rw [List.flatMap_cons] at hh
    exact ih _ _ hlen.2 (Holding.parseEntries P e.payload e.eod _ e.count e.iter e.addrs st.1 st.2 files
      hlen.1 hh)

/-- The answers of a search, parsed one after the other from an empty list with memory that is free,
leave a list in memory that the functions of `smb_stat.c` count, index and read as the list of the parsed
files. Destroying it frees what the search allocated, each cell and each name once, and nothing else. -/
theorem listing_inMemory (P : Platform) (h₀ : StatHeap) (blocks : List EntryBlock) (fuel : Nat)
    (haddrs : Spare h₀ [] [] (blocks.flatMap fun e => e.addrs))
    (hlen : ∀ e ∈ blocks, e.count ≤ e.addrs.length)
    (hfuel : (blocks.foldl (EntryBlock.files P) []).length < fuel) :
    let files := blocks.foldl (EntryBlock.files P) []
    let st := blocks.foldl (EntryBlock.parse P) (h₀, none)
    smbStatListCount st.1 fuel st.2 = some files.length ∧
      (∀ i, ∃ q p, smbStatListAt st.1 st.2 i = some q ∧ (q.isSome ↔ i < files.length) ∧
        smbStatName st.1 q = some p ∧ p.bind st.1.names = files[i]?.bind SmbFile.name ∧
        ∀ what, smbStatGet st.1 q what = some ((files[i]?.map fun f => f.statGet what).getD 0)) ∧
      smbStatListDestroy st.1 fuel st.2 = some h₀ := by
  obtain ⟨cells, names, hl, hfiles, -⟩ := Holding.parseBlocks P blocks (h₀, none) [] hlen
    ⟨[], [], Listing.empty h₀, rfl, haddrs⟩
  rw [← hfiles, List.length_map] at hfuel
  intro files st
  have heq : files = cells.map fun c => st.1.fileOf c.2 := hfiles.symm
  rw [heq, List.length_map]
  exact ⟨hl.count hfuel, hl.at_index, hl.destroy hfuel⟩

/-- Two entries, with their files at 1 and 2 and their names at 10 and 11. -/
def plainBlock : EntryBlock where
  payload := plainPair.payload
  eod := plainPair.payloadSize
  count := 2
  iter := 0
  addrs := [(1, 10), (2, 11)]

theorem listing_inMemory_pair :
    let st := plainBlock.parse .ascii (⟨fun _ => none, fun _ => none⟩, none)
    smbStatListCount st.1 3 st.2 = some 2 ∧
      smbStatListDestroy st.1 3 st.2 = some ⟨fun _ => none, fun _ => none⟩ := by
  have hfiles : ([plainBlock].foldl (EntryBlock.files .ascii) []).length = 2 := by decide +kernel
  have hfuel : ([plainBlock].foldl (EntryBlock.files .ascii) []).length < 3 := by
    rw [hfiles]
    decide
  have hrun := listing_inMemory .ascii ⟨fun _ => none, fun _ => none⟩ [plainBlock] 3
    ⟨by decide, by decide, fun _ _ => ⟨rfl, List.not_mem_nil⟩, fun _ _ => ⟨rfl, List.not_mem_nil⟩⟩
    (by decide) hfuel
  dsimp only at hrun
  rw [hfiles, List.foldl_cons, List.foldl_nil] at hrun
  exact ⟨hrun.1, hrun.2.2⟩

end Libdsm
