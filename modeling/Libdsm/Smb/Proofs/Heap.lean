import Libdsm.Misc.Runs
import Libdsm.Smb.Heap
import Libdsm.Smb.Proofs.FileTable
import Libdsm.Smb.Proofs.Moves
import Libdsm.Smb.Proofs.Transfer

/-!
# The table of a session in memory

The functions of `smb_fd.c` work on links between cells; the rest of this development sees a list of
shares, each with the list of its files. This module relates the two. `FdTable.Holds t nodes` says that
the heap holds the lists `nodes` and nothing else: the links are right, no cell is shared, and every
cell that is allocated is on a list.
-/

namespace Libdsm

/-- A share in memory with the files linked to it. -/
structure ShareNode where
  addr : Nat
  cell : SmbShareCell
  files : List (Nat × SmbFileCell)

/-- The file that a cell of a table stands for: the names of open files are `NULL`. -/
def openFile (f : Nat × SmbFileCell) : SmbFile := { f.2.members with name := none }

namespace ShareNode

/-- The share a node stands for. -/
def share (n : ShareNode) : SmbShare where
  files := n.files.map openFile
  tid := n.cell.tid
  opts := n.cell.opts
  rights := n.cell.rights
  guestRights := n.cell.guestRights

/-- The node with other files. -/
def withFiles (n : ShareNode) (head : Option Nat) (files : List (Nat × SmbFileCell)) : ShareNode where
  addr := n.addr
  cell := { n.cell with files := head }
  files := files

end ShareNode

/-- The addresses of the files of some shares. -/
def fileAddrs (nodes : List ShareNode) : List Nat := nodes.flatMap fun n => n.files.map Prod.fst

/-- The number of cells. -/
def cellCount (nodes : List ShareNode) : Nat := nodes.length + (fileAddrs nodes).length

/-- The memory holds these shares and files and nothing else. -/
structure FdTable.Holds (t : FdTable) (nodes : List ShareNode) : Prop where
  shares : Cells.Chain t.shareCells t.shares (nodes.map fun n => (n.addr, n.cell))
  files : ∀ n ∈ nodes, Cells.Chain t.fileCells n.cell.files n.files
  apart : (fileAddrs nodes).Nodup
  unnamed : ∀ n ∈ nodes, ∀ f ∈ n.files, f.2.name = none
  ownShares : ∀ a, t.shareCells a ≠ none → a ∈ nodes.map ShareNode.addr
  ownFiles : ∀ a, t.fileCells a ≠ none → a ∈ fileAddrs nodes
  ownNames : t.names = fun _ => none

namespace FdTable.Holds

variable {t : FdTable} {nodes : List ShareNode} {fuel : Nat}

theorem fileAddrs_append (front back : List ShareNode) :
    fileAddrs (front ++ back) = fileAddrs front ++ fileAddrs back := List.flatMap_append

theorem fileAddrs_cons (n : ShareNode) (nodes : List ShareNode) :
    fileAddrs (n :: nodes) = n.files.map Prod.fst ++ fileAddrs nodes := List.flatMap_cons

theorem empty : FdTable.empty.Holds [] where
  shares := .nil none
  files := by simp
  apart := List.nodup_nil
  unnamed := by simp
  ownShares a h := absurd rfl h
  ownFiles a h := absurd rfl h
  ownNames := rfl

theorem fuel_shares (hfuel : cellCount nodes < fuel) : nodes.length < fuel := by
  unfold cellCount at hfuel
  omega

theorem fuel_files (hfuel : cellCount nodes < fuel) {n : ShareNode} (hn : n ∈ nodes) :
    n.files.length < fuel := by
  obtain ⟨front, back, rfl⟩ := List.append_of_mem hn
  simp only [cellCount, fileAddrs_append, fileAddrs_cons, List.length_append, List.length_map] at hfuel
  omega

/-- The lookup of a share. -/
theorem shareGet (h : t.Holds nodes) (hfuel : cellCount nodes < fuel) (tid : UInt16) :
    t.smbSessionShareGet fuel tid =
      some ((nodes.find? fun n => n.cell.tid = tid).map ShareNode.addr) := by
  have hlen : (nodes.map fun n => (n.addr, n.cell)).length < fuel := by
    rw [List.length_map]
    exact fuel_shares hfuel
  rw [smbSessionShareGet, h.shares.seek _ hlen, List.find?_map, Option.map_map]
  rfl

/-- The same on the list of shares. -/
theorem share_find (s : SmbSession) (hs : s.shares = nodes.map ShareNode.share) (tid : UInt16) :
    Libdsm.smbSessionShareGet s tid = (nodes.find? fun n => n.cell.tid = tid).map ShareNode.share := by
  rw [Libdsm.smbSessionShareGet, hs, List.find?_map]
  rfl

/-- The files of one share replaced: what is not on its lists keeps its contents, what is new comes
from free memory, and what is gone is freed. -/
theorem replace {front back : List ShareNode} {n : ShareNode} (h : t.Holds (front ++ n :: back))
    {head : Option Nat} {files : List (Nat × SmbFileCell)} {fileCells : Cells SmbFileCell}
    (hchain : Cells.Chain fileCells head files) (hunnamed : ∀ f ∈ files, f.2.name = none)
    (hframe : ∀ a, a ∉ n.files.map Prod.fst → a ∉ files.map Prod.fst → fileCells a = t.fileCells a)
    (hnew : ∀ a ∈ files.map Prod.fst, a ∈ n.files.map Prod.fst ∨ t.fileCells a = none)
    (hgone : ∀ a ∈ n.files.map Prod.fst, a ∉ files.map Prod.fst → fileCells a = none) :
    ∃ link, t.shareCells n.addr = some ⟨n.cell, link⟩ ∧
      Holds { t with
        fileCells
        shareCells := Function.update t.shareCells n.addr
          (some ⟨{ n.cell with files := head }, link⟩) }
        (front ++ n.withFiles head files :: back) := by
  have hshares := h.shares
  rw [List.map_append, List.map_cons] at hshares
  obtain ⟨link, hcell, -⟩ := Cells.Chain.cell hshares
  have hapart := h.apart
  rw [fileAddrs_append, fileAddrs_cons, List.nodup_append, List.nodup_append] at hapart
  obtain ⟨hfront, ⟨-, hback, hnback⟩, hrest⟩ := hapart
  -- the files of the other shares are neither on the old list nor on the new one
  have hother : ∀ m ∈ front ++ back, ∀ a ∈ m.files.map Prod.fst,
      a ∉ n.files.map Prod.fst ∧ a ∉ files.map Prod.fst := by
    intro m hm a ha
    have hold : a ∉ n.files.map Prod.fst := by
      intro hmem
      rcases List.mem_append.mp hm with hm | hm
      · exact hrest a (List.mem_flatMap.mpr ⟨m, hm, ha⟩) a (List.mem_append_left _ hmem) rfl
      · exact hnback a hmem a (List.mem_flatMap.mpr ⟨m, hm, ha⟩) rfl
    refine ⟨hold, fun hmem => ?_⟩
    rcases hnew a hmem with hin | hfree
    · exact hold hin
    · have hm' : m ∈ front ++ n :: back := by
        rcases List.mem_append.mp hm with hm | hm <;> simp [hm]
      exact (h.files m hm').allocated a ha hfree
  have houter : ∀ a ∈ fileAddrs front ++ fileAddrs back, a ∉ files.map Prod.fst := by
    intro a ha
    rw [← fileAddrs_append] at ha
    obtain ⟨m, hm, ham⟩ := List.mem_flatMap.mp ha
    exact (hother m hm a ham).2
  refine ⟨link, hcell, ?_, ?_, ?_, ?_, ?_, ?_, h.ownNames⟩
  · rw [List.map_append, List.map_cons]
    exact Cells.Chain.assign hshares hcell
  · intro m hm
    rcases List.mem_append.mp hm with hm | hm
    · exact (h.files m (by simp [hm])).congr fun a ha =>
        hframe a (hother m (by simp [hm]) a ha).1 (hother m (by simp [hm]) a ha).2
    · rcases List.mem_cons.mp hm with rfl | hm
      · exact hchain
      · exact (h.files m (by simp [hm])).congr fun a ha =>
          hframe a (hother m (by simp [hm]) a ha).1 (hother m (by simp [hm]) a ha).2
  · rw [fileAddrs_append, fileAddrs_cons, List.nodup_append, List.nodup_append]
    refine ⟨hfront, ⟨Cells.Chain.nodup hchain, hback, ?_⟩, ?_⟩
    · rintro a ha b hb rfl
      exact houter a (List.mem_append_right _ hb) ha
    · rintro a ha b hb rfl
      rcases List.mem_append.mp hb with hb | hb
      · exact houter a (List.mem_append_left _ ha) hb
      · exact hrest a ha a (List.mem_append_right _ hb) rfl
  · intro m hm
    rcases List.mem_append.mp hm with hm | hm
    · exact h.unnamed m (by simp [hm])
    · rcases List.mem_cons.mp hm with rfl | hm
      · exact hunnamed
      · exact h.unnamed m (by simp [hm])
  · intro a ha
    have hsame : (front ++ n.withFiles head files :: back).map ShareNode.addr =
        (front ++ n :: back).map ShareNode.addr := by
      simp [ShareNode.withFiles]
    rw [hsame]
    by_cases han : a = n.addr
    · subst han
      simp
    · exact h.ownShares a (by rwa [← Function.update_of_ne (f := t.shareCells) han])
  · intro a ha
    rw [fileAddrs_append, fileAddrs_cons, List.mem_append, List.mem_append]
    by_cases hin : a ∈ files.map Prod.fst
    · exact .inr (.inl hin)
    by_cases hold : a ∈ n.files.map Prod.fst
    · exact absurd (hgone a hold hin) ha
    · have hmem := h.ownFiles a (by rw [← hframe a hold hin]; exact ha)
      rw [fileAddrs_append, fileAddrs_cons, List.mem_append, List.mem_append] at hmem
      rcases hmem with hmem | hmem | hmem
      · exact .inl hmem
      · exact absurd hmem hold
      · exact .inr (.inr hmem)

/-! ## The operations -/

/-- The shares before the one that a lookup finds have other ids. -/
theorem split_found {tid : UInt16} {n : ShareNode}
    (hfind : nodes.find? (fun n => n.cell.tid = tid) = some n) :
    n.cell.tid = tid ∧ ∃ front back, nodes = front ++ n :: back ∧ ∀ m ∈ front, m.cell.tid ≠ tid := by
  obtain ⟨htid, front, back, hnodes, hfront⟩ := List.find?_eq_some_iff_append.mp hfind
  exact ⟨by simpa using htid, front, back, hnodes, fun m hm => by simpa using hfront m hm⟩

/-- What becomes of the list of shares when the files of one are replaced. -/
theorem updateShare_map {tid : UInt16} {front back : List ShareNode} {n : ShareNode}
    (htid : n.cell.tid = tid) (hfront : ∀ m ∈ front, m.cell.tid ≠ tid) {head : Option Nat}
    {files : List (Nat × SmbFileCell)} {f : SmbShare → SmbShare}
    (hf : f n.share = (n.withFiles head files).share) :
    updateShare tid f ((front ++ n :: back).map ShareNode.share) =
      (front ++ n.withFiles head files :: back).map ShareNode.share := by
  have hfront' : ∀ x ∈ front.map ShareNode.share, x.tid ≠ tid := by
    intro x hx
    obtain ⟨m, hm, rfl⟩ := List.mem_map.mp hx
    exact hfront m hm
  rw [List.map_append, List.map_cons, updateShare_first f hfront' htid, hf, List.map_append,
    List.map_cons]

theorem connect (h : t.Holds nodes) (hfuel : cellCount nodes < fuel) {a : Nat}
    (hfresh : t.shareCells a = none) (tid opts rights guestRights : UInt16) :
    ∃ t', t.connect fuel a tid opts rights guestRights = some t' ∧
      t'.Holds (nodes ++ [⟨a, ⟨none, tid, opts, rights, guestRights⟩, []⟩]) := by
  have hnot : a ∉ (nodes.map fun n => (n.addr, n.cell)).map Prod.fst :=
    fun hmem => h.shares.allocated a hmem hfresh
  have haddrs : (nodes.map fun n => (n.addr, n.cell)).map Prod.fst = nodes.map ShareNode.addr := by
    rw [List.map_map]
    rfl
  obtain ⟨head, shareCells, happend, hchain, hframe, hsome⟩ :=
    Cells.Chain.append (h.shares.update_of_notMem hnot)
      (Function.update_self a (some ⟨⟨none, tid, opts, rights, guestRights⟩, none⟩) t.shareCells) hnot
      (by rw [List.length_map]; exact fuel_shares hfuel)
  refine ⟨{ t with shares := head, shareCells }, ?_, ?_, ?_, ?_, ?_, ?_, ?_, h.ownNames⟩
  · simp only [FdTable.connect, smbSessionShareAdd, happend, Option.bind_eq_bind, Option.bind_some]
  · rw [List.map_append]
    exact hchain
  · intro n hn
    rcases List.mem_append.mp hn with hn | hn
    · exact h.files n hn
    · rw [List.mem_singleton.mp hn]
      exact .nil none
  · rw [fileAddrs_append]
    simpa [fileAddrs] using h.apart
  · intro n hn
    rcases List.mem_append.mp hn with hn | hn
    · exact h.unnamed n hn
    · rw [List.mem_singleton.mp hn]
      simp
  · intro b hb
    rw [List.map_append, List.mem_append]
    by_cases hba : b = a
    · exact .inr (by simp [hba])
    · left
      apply h.ownShares
      have hsame := hsome b
      rw [Function.update_of_ne hba] at hsame
      rw [ne_eq, ← Option.isNone_iff_eq_none, ← Option.not_isSome] at hb ⊢
      rwa [← hsame]
  · intro b hb
    rw [fileAddrs_append, List.mem_append]
    exact .inl (h.ownFiles b hb)

theorem fopen (h : t.Holds nodes) (hfuel : cellCount nodes < fuel) {a : Nat}
    (hfresh : t.fileCells a = none) (tid : UInt16) (file : SmbFile) {s : SmbSession}
    (hs : s.shares = nodes.map ShareNode.share) :
    ∃ t' nodes', t.fopen fuel a tid file = some t' ∧ t'.Holds nodes' ∧
      cellCount nodes' ≤ cellCount nodes + 1 ∧
      (Libdsm.smbSessionFileAdd s tid { file with name := none }).shares =
        nodes'.map ShareNode.share := by
  have hget := h.shareGet hfuel tid
  cases hfind : nodes.find? (fun n => n.cell.tid = tid) with
  | none =>
    refine ⟨t, nodes, ?_, h, Nat.le_succ _, ?_⟩
    · simp only [FdTable.fopen, hget, hfind, Option.map_none, Option.bind_eq_bind, Option.bind_some]
    · rw [Libdsm.smbSessionFileAdd, ← hs]
      apply updateShare_absent
      have hnone := share_find s hs tid
      rwa [hfind] at hnone
  | some n =>
    obtain ⟨htid, front, back, rfl, hfront⟩ := split_found hfind
    have hn : n ∈ front ++ n :: back := by simp
    have hnot : a ∉ n.files.map Prod.fst := fun hmem => (h.files n hn).allocated a hmem hfresh
    have hcell : Function.update t.fileCells a (some ⟨⟨none, file⟩, none⟩) a =
        some ⟨⟨none, file⟩, none⟩ := Function.update_self _ _ _
    obtain ⟨head, fileCells, happend, hchain, hframe, hsome⟩ :=
      Cells.Chain.append ((h.files n hn).update_of_notMem hnot) hcell hnot (fuel_files hfuel hn)
    have hunnamed : ∀ f ∈ n.files ++ [(a, ⟨none, file⟩)], f.2.name = none := by
      intro f hf
      rcases List.mem_append.mp hf with hf | hf
      · exact h.unnamed n hn f hf
      · rw [List.mem_singleton.mp hf]
    obtain ⟨link, hshare, hholds⟩ := h.replace hchain hunnamed
      (fun b hb hb' => by
        rw [hframe b hb, Function.update_of_ne]
        rintro rfl
        simp at hb')
      (fun b hb => by
        rw [List.map_append, List.mem_append] at hb
        rcases hb with hb | hb
        · exact .inl hb
        · exact .inr (by rw [List.mem_singleton.mp hb]; exact hfresh))
      (fun b hb hb' => absurd (by rw [List.map_append]; exact List.mem_append_left _ hb) hb')
    have hget' : ({ t with fileCells := Function.update t.fileCells a (some ⟨⟨none, file⟩, none⟩) } :
        FdTable).smbSessionShareGet fuel tid = some (some n.addr) := by
      rw [smbSessionShareGet] at hget ⊢
      rw [hget, hfind]
      rfl
    refine ⟨_, _, ?_, hholds, ?_, ?_⟩
    · simp only [FdTable.fopen, smbSessionFileAdd, hget, hget', hfind, hshare, happend,
        Option.map_some, Option.bind_eq_bind, Option.bind_some]
    · simp only [cellCount, fileAddrs_append, fileAddrs_cons, ShareNode.withFiles, List.length_append,
        List.length_cons, List.length_map, List.length_nil]
      omega
    · rw [Libdsm.smbSessionFileAdd, hs]
      apply updateShare_map htid hfront
      simp [ShareNode.share, ShareNode.withFiles, openFile]

theorem removeFile_map (fd : UInt32) (files : List (Nat × SmbFileCell)) :
    removeFile fd (files.map openFile) =
      ((Cells.unlinkCells (fun file => file.members.fid = smbFdFid fd)
          (fun file => file.members.fid = smbFdTid fd) files).1.map openFile,
        (Cells.unlinkCells (fun file => file.members.fid = smbFdFid fd)
          (fun file => file.members.fid = smbFdTid fd) files).2.map openFile) := by
  cases files with
  | nil => rfl
  | cons f files =>
    have hfid : (openFile f).fid = f.2.members.fid := rfl
    by_cases hf : f.2.members.fid = smbFdFid fd
    · simp only [List.map_cons, removeFile, Cells.unlinkCells, hfid, hf, decide_true, if_true,
        Option.map_some]
    · simp only [List.map_cons, removeFile, Cells.unlinkCells, hfid, hf, decide_false,
        Bool.false_eq_true, if_false, List.find?_map, List.eraseP_map]
      rfl

theorem fclose (h : t.Holds nodes) (hfuel : cellCount nodes < fuel) (fd : UInt32) {s : SmbSession}
    (hs : s.shares = nodes.map ShareNode.share) :
    ∃ t' nodes', t.fclose fuel fd = some t' ∧ t'.Holds nodes' ∧ cellCount nodes' ≤ cellCount nodes ∧
      (Libdsm.smbSessionFileRemove s fd).2.shares = nodes'.map ShareNode.share := by
  by_cases hfd : fd = 0
  · refine ⟨t, nodes, ?_, h, Nat.le_refl _, ?_⟩
    · simp only [FdTable.fclose, smbSessionFileRemove, if_pos hfd, Option.bind_eq_bind, Option.bind_some]
    · rw [Libdsm.smbSessionFileRemove, if_pos hfd, hs]
  have hget := h.shareGet hfuel (smbFdTid fd)
  cases hfind : nodes.find? (fun n => n.cell.tid = smbFdTid fd) with
  | none =>
    refine ⟨t, nodes, ?_, h, Nat.le_refl _, ?_⟩
    · simp only [FdTable.fclose, smbSessionFileRemove, if_neg hfd, hget, hfind, Option.map_none,
        Option.bind_eq_bind, Option.bind_some]
    · rw [Libdsm.smbSessionFileRemove, if_neg hfd, share_find s hs, hfind, ← hs]
      rfl
  | some n =>
    obtain ⟨htid, front, back, rfl, hfront⟩ := split_found hfind
    have hn : n ∈ front ++ n :: back := by simp
    obtain ⟨head, fileCells, hunlink, hchain, hframe, hvals⟩ := Cells.Chain.unlink (h.files n hn)
      (fun file => file.members.fid = smbFdFid fd) (fun file => file.members.fid = smbFdTid fd)
      (fuel_files hfuel hn)
    have hperm := Cells.unlinkCells_perm (fun file => decide (file.members.fid = smbFdFid fd))
      (fun file => decide (file.members.fid = smbFdTid fd)) n.files
    have hlist := removeFile_map fd n.files
    generalize Cells.unlinkCells (fun file : SmbFileCell => decide (file.members.fid = smbFdFid fd))
      (fun file => decide (file.members.fid = smbFdTid fd)) n.files = unlinked at *
    obtain ⟨found, files⟩ := unlinked
    have hunnamed : ∀ f ∈ files, f.2.name = none := by
      intro f hf
      exact h.unnamed n hn f (hperm.mem_iff.mpr (List.mem_append_right _ hf))
    have hshares : (Libdsm.smbSessionFileRemove s fd).2.shares =
        (front ++ n.withFiles head files :: back).map ShareNode.share := by
      rw [Libdsm.smbSessionFileRemove, if_neg hfd, share_find s hs, hfind, hs]
      apply updateShare_map htid hfront
      show { n.share with files := (removeFile fd (n.files.map openFile)).2 } = _
      rw [hlist]
      rfl
    have hcount : cellCount (front ++ n.withFiles head files :: back) ≤
        cellCount (front ++ n :: back) := by
      have hlen := hperm.length_eq
      simp only [cellCount, fileAddrs_append, fileAddrs_cons, ShareNode.withFiles, List.length_append,
        List.length_cons, List.length_map] at hlen ⊢
      omega
    cases found with
    | none =>
      rw [Option.toList_none, List.nil_append] at hperm
      obtain ⟨link, hshare, hholds⟩ := h.replace hchain hunnamed (fun b hb _ => hframe b hb)
        (fun b hb => .inl ((hperm.map Prod.fst).mem_iff.mpr hb))
        (fun b hb hb' => absurd ((hperm.map Prod.fst).mem_iff.mp hb) hb')
      refine ⟨_, _, ?_, hholds, hcount, hshares⟩
      simp only [FdTable.fclose, smbSessionFileRemove, if_neg hfd, hget, hfind, hshare, hunlink,
        Option.map_some, Option.map_none, Option.bind_eq_bind, Option.bind_some]
    | some c =>
      obtain ⟨a, file⟩ := c
      rw [Option.toList_some, List.singleton_append] at hperm
      have haddrs := hperm.map Prod.fst
      rw [List.map_cons] at haddrs
      have hnodup := haddrs.nodup_iff.mp (Cells.Chain.nodup (h.files n hn))
      rw [List.nodup_cons] at hnodup
      -- the cell is still there, and its name is `NULL`
      obtain ⟨rest, hcell⟩ : ∃ rest, fileCells a = some ⟨file, rest⟩ := by
        obtain ⟨pre, post, hsplit⟩ := List.append_of_mem (hperm.mem_iff.mpr (List.mem_cons_self))
        have hfiles := h.files n hn
        rw [hsplit] at hfiles
        obtain ⟨rest, hold, -⟩ := Cells.Chain.cell hfiles
        have hval := hvals a
        rw [hold, Option.map_some, Option.map_eq_some_iff] at hval
        obtain ⟨c, hc, hcv⟩ := hval
        exact ⟨c.next, by rw [hc, ← show c.val = file from hcv]⟩
      have hname : file.name = none := h.unnamed n hn (a, file) (hperm.mem_iff.mpr List.mem_cons_self)
      obtain ⟨link, hshare, hholds⟩ := h.replace
        (hchain.update_of_notMem (c := none) hnodup.1) hunnamed
        (fun b hb _ => by
          rw [Function.update_of_ne, hframe b hb]
          rintro rfl
          exact hb (haddrs.mem_iff.mpr List.mem_cons_self))
        (fun b hb => .inl (haddrs.mem_iff.mpr (List.mem_cons_of_mem _ hb)))
        (fun b hb hb' => by
          rcases List.mem_cons.mp (haddrs.mem_iff.mp hb) with rfl | hmem
          · exact Function.update_self _ _ _
          · exact absurd hmem hb')
      refine ⟨_, _, ?_, hholds, hcount, hshares⟩
      simp only [FdTable.fclose, smbSessionFileRemove, if_neg hfd, hget, hfind, hshare, hunlink, hcell,
        hname, freeName, Option.map_some, Option.bind_eq_bind, Option.bind_some]

theorem updateFile_map (fid : UInt16) (offset : Int) {pre post : List (Nat × SmbFileCell)} {a : Nat}
    {cell : SmbFileCell} (hpre : ∀ f ∈ pre, f.2.members.fid ≠ fid) (hcell : cell.members.fid = fid) :
    updateFile fid (fun file => { file with offset })
        ((pre ++ (a, cell) :: post).map openFile) =
      (pre ++ (a, { cell with members := { cell.members with offset } }) :: post).map openFile := by
  induction pre with
  | nil =>
    have hfid : (openFile (a, cell)).fid = fid := hcell
    rw [List.nil_append, List.map_cons, updateFile, if_pos hfid]
    rfl
  | cons f pre ih =>
    rw [List.forall_mem_cons] at hpre
    have hfid : (openFile f).fid ≠ fid := hpre.1
    rw [List.cons_append, List.map_cons, updateFile, if_neg hfid, ih hpre.2]
    rfl

theorem fseek (h : t.Holds nodes) (hfuel : cellCount nodes < fuel) (fd : UInt32) (offset : Int)
    {s : SmbSession} (hs : s.shares = nodes.map ShareNode.share) :
    ∃ t' nodes', t.fseek fuel fd offset = some t' ∧ t'.Holds nodes' ∧
      cellCount nodes' = cellCount nodes ∧
      (if (Libdsm.smbSessionFileGet s fd).isSome then
          smbSessionFileUpdate s fd fun file => { file with offset }
        else s).shares = nodes'.map ShareNode.share := by
  by_cases hfd : fd = 0
  · refine ⟨t, nodes, ?_, h, rfl, ?_⟩
    · simp only [FdTable.fseek, smbSessionFileGet, if_pos hfd, Option.bind_eq_bind, Option.bind_some]
    · rw [Libdsm.smbSessionFileGet, if_pos hfd, ← hs]
      rfl
  have hget := h.shareGet hfuel (smbFdTid fd)
  cases hfind : nodes.find? (fun n => n.cell.tid = smbFdTid fd) with
  | none =>
    refine ⟨t, nodes, ?_, h, rfl, ?_⟩
    · simp only [FdTable.fseek, smbSessionFileGet, if_neg hfd, hget, hfind, Option.map_none,
        Option.bind_eq_bind, Option.bind_some]
    · rw [Libdsm.smbSessionFileGet, if_neg hfd, share_find s hs, hfind, ← hs]
      rfl
  | some n =>
    obtain ⟨htid, front, back, rfl, hfront⟩ := split_found hfind
    have hn : n ∈ front ++ n :: back := by simp
    obtain ⟨link, hshare, -⟩ := h.replace (h.files n hn) (h.unnamed n hn) (fun _ _ _ => rfl)
      (fun _ hb => .inl hb) (fun _ hb hb' => absurd hb hb')
    have hseek := (h.files n hn).seek (fun file => decide (file.members.fid = smbFdFid fd))
      (fuel_files hfuel hn)
    have hlist : Libdsm.smbSessionFileGet s fd =
        (n.files.find? fun f => f.2.members.fid = smbFdFid fd).map openFile := by
      rw [Libdsm.smbSessionFileGet, if_neg hfd, share_find s hs, hfind]
      show (n.files.map openFile).find? _ = _
      rw [List.find?_map]
      rfl
    cases hfile : n.files.find? (fun f => f.2.members.fid = smbFdFid fd) with
    | none =>
      refine ⟨t, front ++ n :: back, ?_, h, rfl, ?_⟩
      · simp only [FdTable.fseek, smbSessionFileGet, if_neg hfd, hget, hfind, hshare, hseek, hfile,
          Option.map_some, Option.map_none, Option.bind_eq_bind, Option.bind_some]
      · rw [hlist, hfile, ← hs]
        rfl
    | some c =>
      obtain ⟨a, cell⟩ := c
      obtain ⟨hfid, pre, post, hfiles, hpre⟩ := List.find?_eq_some_iff_append.mp hfile
      rw [decide_eq_true_eq] at hfid
      have hchain := h.files n hn
      rw [hfiles] at hchain
      obtain ⟨next, hcell, -⟩ := Cells.Chain.cell hchain
      have hassign := Cells.Chain.assign
        (y := { cell with members := { cell.members with offset } }) hchain hcell
      have haddrs : (pre ++ (a, { cell with members := { cell.members with offset } }) :: post).map
          Prod.fst = n.files.map Prod.fst := by
        rw [hfiles]
        simp
      have hmem : a ∈ n.files.map Prod.fst := by
        rw [hfiles]
        simp
      have hunnamed : ∀ f ∈ pre ++ (a, { cell with members := { cell.members with offset } }) :: post,
          f.2.name = none := by
        have hold := h.unnamed n hn
        rw [hfiles] at hold
        intro f hf
        rcases List.mem_append.mp hf with hf | hf
        · exact hold f (List.mem_append_left _ hf)
        · rcases List.mem_cons.mp hf with rfl | hf
          · exact hold (a, cell) (by simp)
          · exact hold f (by simp [hf])
      obtain ⟨link', hshare', hholds⟩ := h.replace hassign hunnamed
        (fun b hb _ => by
          rw [Function.update_of_ne]
          rintro rfl
          exact hb hmem)
        (fun b hb => .inl (haddrs ▸ hb)) (fun b hb hb' => absurd (haddrs ▸ hb) hb')
      -- the share itself stays as it is
      have hsame : Function.update t.shareCells n.addr (some ⟨{ n.cell with files := n.cell.files }, link'⟩) =
          t.shareCells := by
        rw [← hshare', Function.update_eq_self]
      refine ⟨_, _, ?_, hsame ▸ hholds, ?_, ?_⟩
      · simp only [FdTable.fseek, smbSessionFileGet, if_neg hfd, hget, hfind, hshare, hseek, hfile,
          hcell, Option.map_some, Option.bind_eq_bind, Option.bind_some]
      · simp only [cellCount, fileAddrs_append, fileAddrs_cons, ShareNode.withFiles, haddrs,
          List.length_append, List.length_cons]
      · rw [hlist, hfile, Option.map_some, Option.isSome_some, if_pos rfl, smbSessionFileUpdate, hs]
        apply updateShare_map htid hfront
        have hold : n.share.files = (pre ++ (a, cell) :: post).map openFile := by
          rw [← hfiles]
          rfl
        rw [hold, updateFile_map _ offset (fun f hf => by simpa using hpre f hf) hfid]
        rfl

/-! ## Clearing -/

/-- The inner loops free the files of one share after the other. -/
theorem freeFiles_all {fileCells : Cells SmbFileCell} (names : Names)
    (hfiles : ∀ n ∈ nodes, Cells.Chain fileCells n.cell.files n.files) (hapart : (fileAddrs nodes).Nodup)
    (hunnamed : ∀ n ∈ nodes, ∀ f ∈ n.files, f.2.name = none) (hfuel : ∀ n ∈ nodes, n.files.length < fuel) :
    (nodes.map fun n => (n.addr, n.cell)).foldlM (fun s c => freeFiles fuel c.2 s) (fileCells, names) =
      some (fileCells.without (fileAddrs nodes), names) := by
  induction nodes generalizing fileCells with
  | nil => rfl
  | cons n nodes ih =>
    rw [List.forall_mem_cons] at hfiles hunnamed hfuel
    rw [fileAddrs_cons, List.nodup_append] at hapart
    have hnames : n.files.foldlM (fun s c => freeFileName c.2 s) names = some names := by
      have hnone := hunnamed.1
      generalize n.files = files at hnone
      induction files with
      | nil => rfl
      | cons f files ihf =>
        rw [List.forall_mem_cons] at hnone
        rw [List.foldlM_cons, freeFileName, hnone.1]
        exact ihf hnone.2
    have hfirst : freeFiles fuel n.cell (fileCells, names) =
        some (fileCells.without (n.files.map Prod.fst), names) :=
      Cells.Chain.drain freeFileName hfiles.1 hfuel.1 hnames
    have hchains : ∀ m ∈ nodes,
        Cells.Chain (fileCells.without (n.files.map Prod.fst)) m.cell.files m.files := by
      intro m hm
      refine (hfiles.2 m hm).congr fun a ha => if_neg fun hmem => ?_
      exact hapart.2.2 a hmem a (List.mem_flatMap.mpr ⟨m, hm, ha⟩) rfl
    rw [List.map_cons, List.foldlM_cons, hfirst, Option.bind_eq_bind, Option.bind_some,
      ih hchains hapart.2.1 hunnamed.2 hfuel.2, Cells.without_without, fileAddrs_cons]

/-- Every cell is freed once, and none is left. -/
theorem clear (h : t.Holds nodes) (hfuel : cellCount nodes < fuel) :
    t.smbSessionShareClear fuel = some { FdTable.empty with shares := t.shares } := by
  have hfree := freeFiles_all t.names h.files h.apart h.unnamed fun n hn => fuel_files hfuel hn
  have hdrain := Cells.Chain.drain (freeFiles fuel) h.shares
    (by rw [List.length_map]; exact fuel_shares hfuel) hfree
  have haddrs : (nodes.map fun n => (n.addr, n.cell)).map Prod.fst = nodes.map ShareNode.addr := by
    rw [List.map_map]
    rfl
  rw [haddrs, Cells.without_all h.ownShares, Cells.without_all h.ownFiles, h.ownNames] at hdrain
  rw [smbSessionShareClear, h.ownNames, hdrain]
  rfl

/-! ## Reading the table -/

theorem fileAt_eq {n : ShareNode} (hchain : Cells.Chain t.fileCells n.cell.files n.files)
    (hunnamed : ∀ f ∈ n.files, f.2.name = none) {f : Nat × SmbFileCell} (hf : f ∈ n.files) :
    t.fileAt f.1 = some (openFile f) := by
  have hname := hunnamed f hf
  obtain ⟨pre, post, hsplit⟩ := List.append_of_mem hf
  rw [hsplit] at hchain
  obtain ⟨next, hcell, -⟩ := Cells.Chain.cell hchain
  simp only [fileAt, hcell, hname, openFile, Option.bind_eq_bind, Option.bind_some, Option.bind_none]

theorem mapM_some {α β : Type} {f : α → Option β} {g : α → β} {l : List α} (h : ∀ x ∈ l, f x = some (g x)) :
    l.mapM f = some (l.map g) := by
  induction l with
  | nil => rfl
  | cons x l ih =>
    rw [List.forall_mem_cons] at h
    rw [List.mapM_cons, h.1, ih h.2]
    rfl

theorem contents_eq (hshares : Cells.Chain t.shareCells t.shares (nodes.map fun n => (n.addr, n.cell)))
    (hfiles : ∀ n ∈ nodes, Cells.Chain t.fileCells n.cell.files n.files)
    (hunnamed : ∀ n ∈ nodes, ∀ f ∈ n.files, f.2.name = none) (hfuel : cellCount nodes < fuel) :
    t.contents fuel = some (nodes.map ShareNode.share) := by
  have hlen : (nodes.map fun n => (n.addr, n.cell)).length < fuel := by
    rw [List.length_map]
    exact fuel_shares hfuel
  rw [contents, hshares.collect hlen, Option.bind_eq_bind, Option.bind_some, List.mapM_map]
  apply mapM_some
  intro n hn
  have hread : n.files.mapM (fun cell => t.fileAt cell.1) = some (n.files.map openFile) :=
    mapM_some fun f hf => fileAt_eq (hfiles n hn) (hunnamed n hn) hf
  simp only [Function.comp_apply, (hfiles n hn).collect (fuel_files hfuel hn), hread,
    Option.bind_eq_bind, Option.bind_some]
  rfl

end FdTable.Holds

/-! ## Runs -/

/-- The same operations on the list of shares. -/
def SmbSession.fdStep (s : SmbSession) : FdOp → SmbSession
  | .connect tid opts rights guestRights =>
    smbSessionShareAdd s { tid, opts, rights, guestRights }
  | .fopen tid file => smbSessionFileAdd s tid { file with name := none }
  | .fclose fd => (smbSessionFileRemove s fd).2
  | .fseek fd offset =>
    if (smbSessionFileGet s fd).isSome then
      smbSessionFileUpdate s fd fun file => { file with offset }
    else s

/-- `calloc` returns memory that is not in use. -/
def FdTable.Fresh (t : Option FdTable) (op : FdOp × Nat) : Prop :=
  ∀ t' ∈ t, t'.shareCells op.2 = none ∧ t'.fileCells op.2 = none

/-- The table in memory is the list of shares: its links lead through the shares and their files, the
lookups find the file that the list has, a share is taken out as from the list, and clearing leaves
nothing allocated. -/
structure FdTable.Agrees (fuel : Nat) (t : FdTable) (s : SmbSession) : Prop where
  contents : t.contents fuel = some s.shares
  fileGet : ∀ fd, ∃ p, t.smbSessionFileGet fuel fd = some p ∧
    p.bind t.fileAt = Libdsm.smbSessionFileGet s fd
  shareRemove : ∀ tid, ∃ p t', t.smbSessionShareRemove fuel tid = some (p, t') ∧
    p.isSome = (Libdsm.smbSessionShareRemove s tid).1.isSome ∧
    t'.contents fuel = some (Libdsm.smbSessionShareRemove s tid).2.shares
  clear : t.smbSessionShareClear fuel = some { FdTable.empty with shares := t.shares }

namespace FdTable.Holds

variable {t : FdTable} {nodes : List ShareNode} {fuel : Nat} {s : SmbSession}

/-- A lookup of a file leads to the cell of the file on the list. -/
theorem fileGet (h : t.Holds nodes) (hfuel : cellCount nodes < fuel)
    (hs : s.shares = nodes.map ShareNode.share) (fd : UInt32) :
    ∃ p, t.smbSessionFileGet fuel fd = some p ∧
      p.bind t.fileAt = Libdsm.smbSessionFileGet s fd := by
  by_cases hfd : fd = 0
  · refine ⟨none, ?_, ?_⟩
    · rw [smbSessionFileGet, if_pos hfd]
    · rw [Libdsm.smbSessionFileGet, if_pos hfd]
      rfl
  have hget := h.shareGet hfuel (smbFdTid fd)
  cases hfind : nodes.find? (fun n => n.cell.tid = smbFdTid fd) with
  | none =>
    refine ⟨none, ?_, ?_⟩
    · simp only [smbSessionFileGet, if_neg hfd, hget, hfind, Option.map_none, Option.bind_eq_bind,
        Option.bind_some]
    · rw [Libdsm.smbSessionFileGet, if_neg hfd, share_find s hs, hfind]
      rfl
  | some n =>
    have hn : n ∈ nodes := List.mem_of_find?_eq_some hfind
    obtain ⟨pre, post, hsplit⟩ := List.append_of_mem hn
    have hshares := h.shares
    rw [hsplit, List.map_append, List.map_cons] at hshares
    obtain ⟨link, hshare, -⟩ := Cells.Chain.cell hshares
    have hseek := (h.files n hn).seek (fun file => decide (file.members.fid = smbFdFid fd))
      (fuel_files hfuel hn)
    refine ⟨(n.files.find? fun f => f.2.members.fid = smbFdFid fd).map Prod.fst, ?_, ?_⟩
    · simp only [smbSessionFileGet, if_neg hfd, hget, hfind, hshare, hseek, Option.map_some,
        Option.bind_eq_bind, Option.bind_some]
    · have hlist : Libdsm.smbSessionFileGet s fd =
          (n.files.find? fun f => f.2.members.fid = smbFdFid fd).map openFile := by
        rw [Libdsm.smbSessionFileGet, if_neg hfd, share_find s hs, hfind]
        show (n.files.map openFile).find? _ = _
        rw [List.find?_map]
        rfl
      rw [hlist]
      cases hfile : n.files.find? (fun f => f.2.members.fid = smbFdFid fd) with
      | none => rfl
      | some f => exact fileAt_eq (h.files n hn) (h.unnamed n hn) (List.mem_of_find?_eq_some hfile)

theorem shareRemove (h : t.Holds nodes) (hfuel : cellCount nodes < fuel)
    (hs : s.shares = nodes.map ShareNode.share) (tid : UInt16) :
    ∃ p t', t.smbSessionShareRemove fuel tid = some (p, t') ∧
      p.isSome = (Libdsm.smbSessionShareRemove s tid).1.isSome ∧
      t'.contents fuel = some (Libdsm.smbSessionShareRemove s tid).2.shares := by
  have hlen : (nodes.map fun n => (n.addr, n.cell)).length < fuel := by
    rw [List.length_map]
    exact fuel_shares hfuel
  obtain ⟨head, shareCells, hunlink, hchain, -, -⟩ := Cells.Chain.unlink h.shares
    (fun share => share.tid = tid) (fun share => share.tid = tid) hlen
  rw [Cells.unlinkCells_self, List.find?_map, Option.map_map] at hunlink
  rw [Cells.unlinkCells_self, List.eraseP_map] at hchain
  have hkept : ∀ n ∈ nodes.eraseP (fun n => n.cell.tid = tid), n ∈ nodes :=
    fun n hn => List.mem_of_mem_eraseP hn
  have hcount : cellCount (nodes.eraseP fun n => n.cell.tid = tid) ≤ cellCount nodes := by
    have hperm := Cells.find?_perm (fun n : ShareNode => decide (n.cell.tid = tid)) nodes
    have hfiles := (hperm.flatMap_right fun n => n.files.map Prod.fst).length_eq
    rw [List.flatMap_append, List.length_append] at hfiles
    have hnodes := List.length_eraseP_le (p := fun n : ShareNode => decide (n.cell.tid = tid)) (l := nodes)
    unfold cellCount fileAddrs
    omega
  refine ⟨(nodes.find? fun n => n.cell.tid = tid).map ShareNode.addr,
    { t with shares := head, shareCells }, ?_, ?_, ?_⟩
  · simp only [smbSessionShareRemove, hunlink, Option.bind_eq_bind, Option.bind_some]
    rfl
  · rw [Libdsm.smbSessionShareRemove, share_find s hs, Option.isSome_map, Option.isSome_map]
  · rw [Libdsm.smbSessionShareRemove, hs, List.eraseP_map]
    exact contents_eq hchain (fun n hn => h.files n (hkept n hn))
      (fun n hn => h.unnamed n (hkept n hn)) (Nat.lt_of_le_of_lt hcount hfuel)

theorem agrees (h : t.Holds nodes) (hfuel : cellCount nodes < fuel)
    (hs : s.shares = nodes.map ShareNode.share) : t.Agrees fuel s where
  contents := by
    rw [hs]
    exact contents_eq h.shares h.files h.unnamed hfuel
  fileGet := h.fileGet hfuel hs
  shareRemove := h.shareRemove hfuel hs
  clear := h.clear hfuel

/-- Each operation does in memory what it does to the list. -/
theorem step (h : t.Holds nodes) (hfuel : cellCount nodes < fuel) {op : FdOp} {a : Nat}
    (hfresh : FdTable.Fresh (some t) (op, a)) (hs : s.shares = nodes.map ShareNode.share) :
    ∃ t' nodes', t.step fuel op a = some t' ∧ t'.Holds nodes' ∧
      cellCount nodes' ≤ cellCount nodes + 1 ∧ (s.fdStep op).shares = nodes'.map ShareNode.share := by
  obtain ⟨hshare, hfile⟩ := hfresh t rfl
  cases op with
  | connect tid opts rights guestRights =>
    obtain ⟨t', hstep, hholds⟩ := h.connect hfuel hshare tid opts rights guestRights
    refine ⟨t', _, hstep, hholds, ?_, ?_⟩
    · have hnone : fileAddrs [⟨a, ⟨none, tid, opts, rights, guestRights⟩, []⟩] = [] := rfl
      simp only [cellCount, fileAddrs_append, hnone, List.append_nil, List.length_append,
        List.length_cons, List.length_nil]
      omega
    · rw [SmbSession.fdStep, Libdsm.smbSessionShareAdd, hs, List.map_append]
      rfl
  | fopen tid file => exact h.fopen hfuel hfile tid file hs
  | fclose fd =>
    obtain ⟨t', nodes', hstep, hholds, hcount, hshares⟩ := h.fclose hfuel fd hs
    exact ⟨t', nodes', hstep, hholds, Nat.le_succ_of_le hcount, hshares⟩
  | fseek fd offset =>
    obtain ⟨t', nodes', hstep, hholds, hcount, hshares⟩ := h.fseek hfuel fd offset hs
    exact ⟨t', nodes', hstep, hholds, by omega, hshares⟩

/-- A whole run, wherever the cells are placed. -/
theorem run (h : t.Holds nodes) (ops : List FdOp) (addrs : List Nat) (haddrs : addrs.length = ops.length)
    (hfuel : cellCount nodes + ops.length < fuel)
    (hfresh : Along (FdTable.run fuel) FdTable.Fresh (some t) (ops.zip addrs))
    (hs : s.shares = nodes.map ShareNode.share) :
    ∃ t' nodes', (ops.zip addrs).foldl (FdTable.run fuel) (some t) = some t' ∧ t'.Holds nodes' ∧
      cellCount nodes' < fuel ∧ (ops.foldl SmbSession.fdStep s).shares = nodes'.map ShareNode.share := by
  induction ops generalizing t nodes s addrs with
  | nil => exact ⟨t, nodes, rfl, h, hfuel, hs⟩
  | cons op ops ih =>
    cases addrs with
    | nil => cases haddrs
    | cons a addrs =>
      rw [List.length_cons] at hfuel
      have hroom : cellCount nodes < fuel := by omega
      obtain ⟨t', nodes', hstep, hholds, hcount, hshares⟩ := h.step hroom hfresh.1 hs
      have hrun : FdTable.run fuel (some t) (op, a) = some t' := hstep
      have hrest := hfresh.2
      rw [hrun] at hrest
      rw [List.zip_cons_cons, List.foldl_cons, List.foldl_cons, hrun]
      exact ih hholds addrs (Nat.succ.inj haddrs) (by omega) hrest hshares

end FdTable.Holds

/-! ## Where the cells can be -/

/-- The table has no cell at this address. -/
def FdTable.FreeAt (t : FdTable) (b : Nat) : Prop := t.shareCells b = none ∧ t.fileCells b = none

section

variable {t t' : FdTable} {fuel b : Nat}

theorem FdTable.FreeAt.shareAdd {share : Nat} (hfree : t.FreeAt b)
    (hadd : t.smbSessionShareAdd fuel share = some t') : t'.FreeAt b := by
  simp only [smbSessionShareAdd, Option.bind_eq_bind, Option.bind_eq_some_iff, Option.some.injEq] at hadd
  obtain ⟨r, happend, rfl⟩ := hadd
  exact ⟨Cells.append_free happend hfree.1, hfree.2⟩

theorem FdTable.FreeAt.fileAdd {tid : UInt16} {f : Nat} {r : Bool × FdTable} (hfree : t.FreeAt b)
    (hadd : t.smbSessionFileAdd fuel tid f = some r) : r.2.FreeAt b := by
  simp only [smbSessionFileAdd, Option.bind_eq_bind, Option.bind_eq_some_iff] at hadd
  obtain ⟨found, -, hrest⟩ := hadd
  cases found with
  | none =>
    obtain rfl := Option.some.inj hrest
    exact hfree
  | some a =>
    simp only [Option.bind_eq_some_iff, Option.some.injEq] at hrest
    obtain ⟨share, hcell, files, happend, rfl⟩ := hrest
    exact ⟨Cells.update_free hcell hfree.1, Cells.append_free happend hfree.2⟩

theorem FdTable.FreeAt.fileRemove {fd : UInt32} {r : Option Nat × FdTable} (hfree : t.FreeAt b)
    (hremove : t.smbSessionFileRemove fuel fd = some r) : r.2.FreeAt b := by
  rw [smbSessionFileRemove] at hremove
  split at hremove
  · obtain rfl := Option.some.inj hremove
    exact hfree
  · simp only [Option.bind_eq_bind, Option.bind_eq_some_iff] at hremove
    obtain ⟨found, -, hrest⟩ := hremove
    cases found with
    | none =>
      obtain rfl := Option.some.inj hrest
      exact hfree
    | some a =>
      simp only [Option.bind_eq_some_iff, Option.some.injEq] at hrest
      obtain ⟨share, hcell, unlinked, hunlink, rfl⟩ := hrest
      exact ⟨Cells.update_free hcell hfree.1, Cells.unlink_free hunlink hfree.2⟩

/-- An operation allocates at the address that `calloc` returns and nowhere else. -/
theorem FdTable.FreeAt.step {op : FdOp} {a : Nat} (hfree : t.FreeAt b) (hne : b ≠ a)
    (hstep : t.step fuel op a = some t') : t'.FreeAt b := by
  cases op with
  | connect tid opts rights guestRights =>
    rw [FdTable.step, FdTable.connect] at hstep
    refine FdTable.FreeAt.shareAdd ?_ hstep
    exact ⟨(Function.update_of_ne hne _ _).trans hfree.1, hfree.2⟩
  | fopen tid file =>
    simp only [FdTable.step, FdTable.fopen, Option.bind_eq_bind, Option.bind_eq_some_iff] at hstep
    obtain ⟨found, -, hrest⟩ := hstep
    cases found with
    | none =>
      obtain rfl := Option.some.inj hrest
      exact hfree
    | some _ =>
      simp only [Option.bind_eq_some_iff, Option.some.injEq] at hrest
      obtain ⟨r, hadd, rfl⟩ := hrest
      refine FdTable.FreeAt.fileAdd ?_ hadd
      exact ⟨hfree.1, (Function.update_of_ne hne _ _).trans hfree.2⟩
  | fclose fd =>
    simp only [FdTable.step, FdTable.fclose, Option.bind_eq_bind, Option.bind_eq_some_iff] at hstep
    obtain ⟨⟨found, t₁⟩, hremove, hrest⟩ := hstep
    have hfree₁ := hfree.fileRemove hremove
    cases found with
    | none =>
      obtain rfl := Option.some.inj hrest
      exact hfree₁
    | some _ =>
      simp only [Option.bind_eq_some_iff, Option.some.injEq] at hrest
      obtain ⟨file, hcell, names, -, rfl⟩ := hrest
      exact ⟨hfree₁.1, Cells.update_free hcell hfree₁.2⟩
  | fseek fd offset =>
    simp only [FdTable.step, FdTable.fseek, Option.bind_eq_bind, Option.bind_eq_some_iff] at hstep
    obtain ⟨found, -, hrest⟩ := hstep
    cases found with
    | none =>
      obtain rfl := Option.some.inj hrest
      exact hfree
    | some _ =>
      simp only [Option.bind_eq_some_iff, Option.some.injEq] at hrest
      obtain ⟨file, hcell, rfl⟩ := hrest
      exact ⟨hfree.1, Cells.update_free hcell hfree.2⟩

/-- Addresses that are not in use and used once each are addresses that `calloc` can return. -/
theorem FdTable.fresh_of_nodup {t : Option FdTable} (fuel : Nat) (ops : List FdOp) (addrs : List Nat)
    (hnodup : addrs.Nodup) (hfree : ∀ a ∈ addrs, ∀ t' ∈ t, t'.FreeAt a) :
    Along (FdTable.run fuel) FdTable.Fresh t (ops.zip addrs) := by
  induction addrs generalizing t ops with
  | nil =>
    rw [List.zip_nil_right]
    trivial
  | cons a addrs ih =>
    cases ops with
    | nil => trivial
    | cons op ops =>
      rw [List.nodup_cons] at hnodup
      refine ⟨hfree a List.mem_cons_self, ih ops hnodup.2 fun b hb t' ht' => ?_⟩
      obtain ⟨t, rfl, hstep⟩ := Option.bind_eq_some_iff.mp ht'
      refine (hfree b (List.mem_cons_of_mem _ hb) t rfl).step ?_ hstep
      rintro rfl
      exact hnodup.1 hb

end

/-! ## Runs of a session -/

theorem fdStep_congr {s s' : SmbSession} (h : s.shares = s'.shares) (op : FdOp) :
    (s.fdStep op).shares = (s'.fdStep op).shares := by
  cases op with
  | connect tid opts rights guestRights =>
    show s.shares ++ _ = s'.shares ++ _
    rw [h]
  | fopen tid file =>
    show updateShare tid _ s.shares = updateShare tid _ s'.shares
    rw [h]
  | fclose fd =>
    have hget : smbSessionShareGet s (smbFdTid fd) = smbSessionShareGet s' (smbFdTid fd) := by
      rw [smbSessionShareGet, h, smbSessionShareGet]
    simp only [SmbSession.fdStep, smbSessionFileRemove, hget, h]
    split
    · exact h
    · split
      · exact h
      · rfl
  | fseek fd offset =>
    have hget := fileGet_congr h fd
    simp only [SmbSession.fdStep, smbSessionFileUpdate, hget, h]
    split
    · rfl
    · exact h

theorem fdSteps_congr {s s' : SmbSession} (h : s.shares = s'.shares) (ops : List FdOp) :
    (ops.foldl SmbSession.fdStep s).shares = (ops.foldl SmbSession.fdStep s').shares := by
  induction ops generalizing s s' with
  | nil => exact h
  | cons op ops ih => exact ih (fdStep_congr h op)

/-- The shares change by operations on the table alone. -/
def Tabled (s s' : SmbSession) : Prop :=
  ∃ ops : List FdOp, s'.shares = (ops.foldl SmbSession.fdStep s).shares

theorem tabled_tracked : Tracked Tabled where
  refl s := ⟨[], rfl⟩
  trans := by
    rintro a b c ⟨ops, hops⟩ ⟨ops', hops'⟩
    refine ⟨ops ++ ops', ?_⟩
    rw [hops', List.foldl_append]
    exact fdSteps_congr hops ops'
  transport s _ := ⟨[], rfl⟩
  ntStatus s _ := ⟨[], rfl⟩
  server s _ := ⟨[], rfl⟩
  login s _ _ := ⟨[], rfl⟩
  asn1 s _ := ⟨[], rfl⟩
  challenge s _ _ := ⟨[], rfl⟩
  setCreds _ _ _ s := ⟨[], rfl⟩
  shareAdd s share hfiles := by
    refine ⟨[.connect share.tid share.opts share.rights share.guestRights], ?_⟩
    show s.shares ++ [share] = s.shares ++ [{ share with files := [] }]
    rw [← hfiles]
  fileAdd s tid file hname := by
    refine ⟨[.fopen tid file], ?_⟩
    show _ = (smbSessionFileAdd s tid { file with name := none }).shares
    rw [← hname]
  fileRemove s fd := ⟨[.fclose fd], rfl⟩
  fileSeek s fd offset hfile := by
    refine ⟨[.fseek fd offset], ?_⟩
    rw [List.foldl_cons, List.foldl_nil, SmbSession.fdStep, if_pos hfile]

/-- What the calls of a run do to the table, call by call. -/
theorem run_tabled (P : Platform) (s : SmbSession) (ops : List SmbOp) :
    ∃ calls : List (List FdOp), calls.length = ops.length ∧ ∀ k,
      ((ops.take k).foldl (SmbOp.run P) s).shares =
        ((calls.take k).flatten.foldl SmbSession.fdStep s).shares := by
  induction ops generalizing s with
  | nil => exact ⟨[], rfl, fun k => by simp⟩
  | cons op ops ih =>
    obtain ⟨call, hcall⟩ := exec_moves tabled_tracked P op s
    obtain ⟨calls, hlen, hcalls⟩ := ih (op.run P s)
    refine ⟨call :: calls, by rw [List.length_cons, hlen, List.length_cons], fun k => ?_⟩
    cases k with
    | zero => rfl
    | succ k =>
      rw [List.take_succ_cons, List.foldl_cons, List.take_succ_cons, List.flatten_cons,
        List.foldl_append, hcalls k]
      exact fdSteps_congr hcall _

/-- The table of a session in memory, at every point of every run of public operations and whatever the
server answers: there are table operations for each call such that, wherever `calloc` places the cells,
the functions of `smb_fd.c` end, touch live cells alone and have the lists of the session in memory; when
the session is destroyed there, every cell is freed exactly once and none is left. -/
theorem session_table_inMemory (P : Platform) (tcp : Tcp) (ops : List SmbOp) :
    ∃ calls : List (List FdOp), calls.length = ops.length ∧
      ∀ (k : Nat) (addrs : List Nat) (fuel : Nat), addrs.length = (calls.take k).flatten.length →
        addrs.length < fuel →
        Along (FdTable.run fuel) FdTable.Fresh (some FdTable.empty) ((calls.take k).flatten.zip addrs) →
        ∃ t, ((calls.take k).flatten.zip addrs).foldl (FdTable.run fuel) (some FdTable.empty) = some t ∧
          t.Agrees fuel ((ops.take k).foldl (SmbOp.run P) (smbSessionNew P tcp)) := by
  obtain ⟨calls, hlen, hcalls⟩ := run_tabled P (smbSessionNew P tcp) ops
  refine ⟨calls, hlen, fun k addrs fuel haddrs hfuel hfresh => ?_⟩
  have hsize : cellCount [] + (calls.take k).flatten.length < fuel := by
    show 0 + 0 + _ < fuel
    omega
  obtain ⟨t, nodes, hrun, hholds, hcount, hshares⟩ :=
    FdTable.Holds.empty.run _ addrs haddrs hsize hfresh (s := smbSessionNew P tcp) rfl
  exact ⟨t, hrun, hholds.agrees hcount ((hcalls k).trans hshares)⟩

/-- A tree and two files on it, with `calloc` counting up. -/
theorem session_table_inMemory_counted :
    let tcp := Tcp.answering [negotiateReply 0, treeReply 5, createReply 7, createReply 8]
    let ops : List SmbOp := [.connect (ascii "host") (some .tcp), .treeConnect (ascii "x"),
      .fopen 5 (ascii "f") 0, .fopen 5 (ascii "g") 0]
    let s := ops.foldl (SmbOp.run .ascii) (smbSessionNew .ascii tcp)
    s.shares.map (·.files.map SmbFile.fid) = [[7, 8]] ∧
      ∃ (calls : List FdOp) (t : FdTable), (calls.zip (List.range calls.length)).foldl
          (FdTable.run (calls.length + 1)) (some FdTable.empty) = some t ∧
        t.Agrees (calls.length + 1) s := by
  intro tcp ops s
  refine ⟨by decide +kernel, ?_⟩
  obtain ⟨calls, hlen, hcalls⟩ := session_table_inMemory .ascii tcp ops
  obtain ⟨t, hrun, hagrees⟩ := hcalls 4 (List.range (calls.take 4).flatten.length)
    ((calls.take 4).flatten.length + 1) List.length_range (by rw [List.length_range]; omega)
    (FdTable.fresh_of_nodup _ _ _ List.nodup_range fun a _ t ht => by
      obtain rfl := Option.some.inj ht
      exact ⟨rfl, rfl⟩)
  exact ⟨(calls.take 4).flatten, t, hrun, hagrees⟩

end Libdsm
