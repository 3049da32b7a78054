import Mathlib.Algebra.Order.Ring.Nat
import Mathlib.Data.List.Basic
import Mathlib.Tactic.SplitIfs

/-!
# Byte memory

A memory is a total function from addresses to bytes. A read of a range gives the list of its
bytes, a write of a list changes exactly the addresses it covers, and the lemmas below say how
reads see earlier writes. Addresses are natural numbers, so a range never wraps.
-/

namespace Libdsm

/-- The contents of a memory, address by address. -/
abbrev Mem := Nat → UInt8

namespace Mem

/-- The `len` bytes from address `off` on. -/
def read (m : Mem) (off len : Nat) : List UInt8 :=
  (List.range len).map fun i => m (off + i)

/-- `memcpy (m + off, bs, bs.length)`. -/
def write (m : Mem) (off : Nat) (bs : List UInt8) : Mem :=
  fun i => if off ≤ i then bs[i - off]?.getD (m i) else m i

/-- The memory seen through a pointer `off` bytes into it. -/
def shift (m : Mem) (off : Nat) : Mem := fun i => m (off + i)

@[simp] theorem shift_apply (m : Mem) (off i : Nat) : m.shift off i = m (off + i) := rfl

@[simp] theorem read_length (m : Mem) (off len : Nat) : (m.read off len).length = len := by
  simp [read]

@[simp] theorem read_zero (m : Mem) (off : Nat) : m.read off 0 = [] := rfl

@[simp] theorem read_shift (m : Mem) (base off len : Nat) :
    (m.shift base).read off len = m.read (base + off) len := by
  simp [read, Nat.add_assoc]

theorem read_getElem? (m : Mem) (off len i : Nat) (h : i < len) :
    (m.read off len)[i]? = some (m (off + i)) := by
  simp [read, h]

/-- A range splits into two adjacent ranges. -/
theorem read_add (m : Mem) (off a b : Nat) :
    m.read off (a + b) = m.read off a ++ m.read (off + a) b := by
  simp [read, List.range_add, Function.comp_def, Nat.add_assoc]

theorem read_succ (m : Mem) (off len : Nat) :
    m.read off (len + 1) = m off :: m.read (off + 1) len := by
  rw [Nat.add_comm, read_add]
  simp [read]

/-- A range inside a range. -/
theorem read_sub (m : Mem) {off len i k : Nat} (h : i + k ≤ len) :
    ((m.read off len).drop i).take k = m.read (off + i) k := by
  obtain ⟨rest, rfl⟩ := Nat.exists_eq_add_of_le h
  rw [Nat.add_assoc, read_add, read_add, List.drop_left' (by simp), List.take_left' (by simp)]

/-- A range inside a range whose contents are known. -/
theorem read_part {m : Mem} {off i k : Nat} {l : List UInt8} (h : m.read off l.length = l)
    (hik : i + k ≤ l.length) : m.read (off + i) k = (l.drop i).take k := by
  rw [← read_sub m hik, h]

/-- Memories that agree on a range read the same there. -/
theorem read_congr {m m' : Mem} {off len : Nat} (h : ∀ i < len, m (off + i) = m' (off + i)) :
    m.read off len = m'.read off len := by
  apply List.map_congr_left
  intro i hi
  exact h i (List.mem_range.mp hi)

theorem write_of_lt (m : Mem) {off i : Nat} (bs : List UInt8) (h : i < off) :
    m.write off bs i = m i := by
  simp [write, Nat.not_le.mpr h]

theorem write_of_ge (m : Mem) {off i : Nat} (bs : List UInt8) (h : off + bs.length ≤ i) :
    m.write off bs i = m i := by
  have hn : bs[i - off]? = none := List.getElem?_eq_none (by omega)
  simp [write, hn]

theorem write_inside (m : Mem) (off i : Nat) (bs : List UInt8) (h : i < bs.length) :
    m.write off bs (off + i) = bs[i] := by
  simp [write, h]

@[simp] theorem write_nil (m : Mem) (off : Nat) : m.write off [] = m := by
  funext i
  simp [write]

/-- What was written is read back. -/
theorem read_write (m : Mem) (off : Nat) (bs : List UInt8) :
    (m.write off bs).read off bs.length = bs := by
  apply List.ext_getElem
  · simp
  · intro i _ hi
    simp [read, write_inside m off i bs hi]

theorem read_write_prefix (m : Mem) (xs ys : List UInt8) :
    (m.write 0 (xs ++ ys)).read 0 xs.length = xs := by
  have h := read_write m 0 (xs ++ ys)
  rw [List.length_append, read_add] at h
  exact (List.append_inj h (read_length _ _ _)).1

/-- A range inside what was written. -/
theorem read_write_part (m : Mem) {bs : List UInt8} {off k : Nat} (h : off + k ≤ bs.length) :
    (m.write 0 bs).read off k = (bs.drop off).take k := by
  rw [← read_part (read_write m 0 bs) h, Nat.zero_add]

/-- A write leaves the ranges before and after it alone. -/
theorem read_write_disjoint (m : Mem) {off len woff : Nat} (bs : List UInt8)
    (h : off + len ≤ woff ∨ woff + bs.length ≤ off) :
    (m.write woff bs).read off len = m.read off len := by
  apply read_congr
  intro i hi
  rcases h with h | h
  · exact write_of_lt m bs (by omega)
  · exact write_of_ge m bs (by omega)

/-- A write seen through a pointer. -/
theorem shift_write (m : Mem) (base off : Nat) (bs : List UInt8) :
    (m.write (base + off) bs).shift base = (m.shift base).write off bs := by
  funext i
  rw [shift_apply, write, write]
  by_cases h : off ≤ i
  · rw [if_pos (by omega), if_pos h, Nat.add_sub_add_left, shift_apply]
  · rw [if_neg (by omega), if_neg h, shift_apply]

/-- A write before the pointer is not seen. -/
theorem shift_write_of_le (m : Mem) {base off : Nat} (bs : List UInt8)
    (h : off + bs.length ≤ base) : (m.write off bs).shift base = m.shift base := by
  funext i
  exact write_of_ge m bs (by omega)

/-- Writing two adjacent lists is writing their concatenation. -/
theorem write_append (m : Mem) (off : Nat) (xs ys : List UInt8) :
    (m.write off xs).write (off + xs.length) ys = m.write off (xs ++ ys) := by
  funext i
  by_cases h1 : i < off + xs.length
  · rw [write_of_lt _ _ h1]
    by_cases h0 : i < off
    · rw [write_of_lt _ _ h0, write_of_lt _ _ h0]
    · have hx : i - off < xs.length := by omega
      simp [write, List.getElem?_append_left hx]
  · have hx : xs.length ≤ i - off := by omega
    have e : i - off - xs.length = i - (off + xs.length) := by omega
    rw [write, if_pos (by omega), write_of_ge _ _ (by omega), write, if_pos (by omega),
      List.getElem?_append_right hx, e]

/-- The second of two lists written, seen through a pointer to its start. -/
theorem shift_write_append (m : Mem) (xs ys : List UInt8) :
    (m.write 0 (xs ++ ys)).shift xs.length = (m.shift xs.length).write 0 ys := by
  have hsecond := shift_write (m.write 0 xs) xs.length 0 ys
  have hsplit := write_append m 0 xs ys
  rw [shift_write_of_le m xs (by omega), Nat.add_zero] at hsecond
  rw [Nat.zero_add] at hsplit
  rw [← hsplit, hsecond]

/-- A read that ends where the last write ended: what was there before, then the new bytes. -/
theorem read_write_end (m : Mem) (off n : Nat) (bs : List UInt8) :
    (m.write (off + n) bs).read off (n + bs.length) = m.read off n ++ bs := by
  rw [read_add, read_write, read_write_disjoint _ _ (Or.inl (Nat.le_refl _))]

/-! ## Runs of writes -/

/-- The writes of a list, one after the other. -/
def writes (m : Mem) (ws : List (Nat × List UInt8)) : Mem := ws.foldl (fun m w => m.write w.1 w.2) m

/-- The memory behind all writes. -/
theorem writes_of_ge (m : Mem) {ws : List (Nat × List UInt8)} {i : Nat}
    (h : ∀ w ∈ ws, w.1 + w.2.length ≤ i) : m.writes ws i = m i := by
  induction ws generalizing m with
  | nil => rfl
  | cons w ws ih =>
    have hrest := ih (m.write w.1 w.2) fun v hv => h v (List.mem_cons_of_mem _ hv)
    exact hrest.trans (write_of_ge m w.2 (h w (by simp)))

/-- A range that no write touches. -/
theorem read_writes_disjoint (m : Mem) {ws : List (Nat × List UInt8)} {off len : Nat}
    (h : ∀ w ∈ ws, off + len ≤ w.1 ∨ w.1 + w.2.length ≤ off) :
    (m.writes ws).read off len = m.read off len := by
  induction ws generalizing m with
  | nil => rfl
  | cons w ws ih =>
    have hrest := ih (m.write w.1 w.2) fun v hv => h v (List.mem_cons_of_mem _ hv)
    exact hrest.trans (read_write_disjoint m w.2 (h w (by simp)))

/-- The last write that touches a range. -/
theorem read_writes (m : Mem) (pre post : List (Nat × List UInt8)) (off : Nat) (bs : List UInt8)
    (h : ∀ w ∈ post, off + bs.length ≤ w.1 ∨ w.1 + w.2.length ≤ off) :
    (m.writes (pre ++ (off, bs) :: post)).read off bs.length = bs := by
  rw [writes, List.foldl_append, List.foldl_cons]
  exact (read_writes_disjoint _ h).trans (read_write _ off bs)

end Mem

/-! ## Logs of reads -/

/-- A read of `length` bytes at an offset. -/
structure MemRead where
  offset : Nat
  length : Nat

/-- All of the reads lie below `size`. -/
def ReadsInside (size : Nat) (reads : List MemRead) : Prop :=
  ∀ read ∈ reads, read.offset + read.length ≤ size

/-- Two memories look the same to these reads. -/
def AgreeOn (reads : List MemRead) (m m' : Mem) : Prop :=
  ∀ read ∈ reads, m'.read read.offset read.length = m.read read.offset read.length

end Libdsm
