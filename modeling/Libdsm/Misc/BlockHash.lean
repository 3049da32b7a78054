import Mathlib.Algebra.Order.Ring.Nat
import Mathlib.Data.List.Basic

/-!
# Hashing block by block

An iterated hash takes a text into its state one block of `n` elements at a time (`absorb`). A
streaming implementation sees the text in pieces and keeps the part that does not fill a block in a
buffer: `Streamed m s buf` says that it holds state `s` and buffer `buf` after the text `m`. The
rules say how the three moves of such an implementation keep it: buffer a piece that fits
(`extend`), complete the buffered block (`fill`), take whole blocks with an empty buffer (`blocks`).
-/

namespace Libdsm

section

variable {σ α : Type*} (compress : σ → List α → σ) (n : Nat)

/-- `k` blocks from the front of a text. -/
def blockFold : Nat → σ → List α → σ
  | 0, s, _ => s
  | k + 1, s, bs => blockFold k (compress s (bs.take n)) (bs.drop n)

/-- The whole blocks of a text. -/
def absorb (s : σ) (bs : List α) : σ := blockFold compress n (bs.length / n) s bs

/-- State and buffer after the text `m`, from the state `iv`. -/
structure Streamed (iv : σ) (m : List α) (s : σ) (buf : List α) : Prop where
  short : buf.length < n
  split : ∃ k whole, m = whole ++ buf ∧ whole.length = k * n ∧ s = blockFold compress n k iv whole

end

section

variable {σ α : Type*} {compress : σ → List α → σ} {n : Nat}

/-- What stands behind the blocks is not looked at. -/
theorem blockFold_take (k : Nat) (s : σ) (xs ys : List α) (h : xs.length = k * n) :
    blockFold compress n k s (xs ++ ys) = blockFold compress n k s xs := by
  induction k generalizing s xs with
  | zero => rfl
  | succ k ih =>
    have hn : n ≤ xs.length := by
      rw [h, Nat.succ_mul]
      omega
    rw [blockFold, blockFold, List.take_append_of_le_length hn, List.drop_append_of_le_length hn]
    apply ih
    rw [List.length_drop, h, Nat.succ_mul, Nat.add_sub_cancel]

theorem blockFold_append (k j : Nat) (s : σ) (xs ys : List α) (h : xs.length = k * n) :
    blockFold compress n (k + j) s (xs ++ ys) =
      blockFold compress n j (blockFold compress n k s xs) ys := by
  induction k generalizing s xs with
  | zero =>
    have hnil : xs = [] := List.eq_nil_of_length_eq_zero (by omega)
    rw [hnil, Nat.zero_add, List.nil_append, blockFold]
  | succ k ih =>
    have hn : n ≤ xs.length := by
      rw [h, Nat.succ_mul]
      omega
    rw [Nat.succ_add, blockFold, blockFold, List.take_append_of_le_length hn,
      List.drop_append_of_le_length hn]
    apply ih
    rw [List.length_drop, h, Nat.succ_mul, Nat.add_sub_cancel]

/-- A text of whole blocks. -/
theorem absorb_eq {k : Nat} {s : σ} {bs : List α} (hn : 0 < n) (h : bs.length = k * n) :
    absorb compress n s bs = blockFold compress n k s bs := by
  rw [absorb, h, Nat.mul_div_cancel _ hn]

namespace Streamed

variable {iv s : σ} {m buf xs : List α}

theorem nil (hn : 0 < n) : Streamed compress n iv [] iv [] :=
  ⟨hn, 0, [], rfl, by simp, rfl⟩

/-- The buffer holds what does not fill a block. -/
theorem length_eq (h : Streamed compress n iv m s buf) : buf.length = m.length % n := by
  obtain ⟨k, whole, rfl, hlen, -⟩ := h.split
  rw [List.length_append, hlen, Nat.mul_add_mod_self_right, Nat.mod_eq_of_lt h.short]

theorem extend (h : Streamed compress n iv m s buf) (hxs : (buf ++ xs).length < n) :
    Streamed compress n iv (m ++ xs) s (buf ++ xs) := by
  obtain ⟨k, whole, rfl, hlen, hs⟩ := h.split
  exact ⟨hxs, k, whole, List.append_assoc _ _ _, hlen, hs⟩

/-- Whole blocks with an empty buffer before them. -/
theorem blocks (h : Streamed compress n iv m s []) (j : Nat) (hxs : xs.length = j * n) :
    Streamed compress n iv (m ++ xs) (blockFold compress n j s xs) [] := by
  obtain ⟨k, whole, rfl, hlen, rfl⟩ := h.split
  refine ⟨h.short, k + j, whole ++ xs, by simp, ?_, ?_⟩
  · rw [List.length_append, hlen, hxs, Nat.add_mul]
  · exact (blockFold_append k j iv whole xs hlen).symm

theorem fill (h : Streamed compress n iv m s buf) (hxs : (buf ++ xs).length = n) :
    Streamed compress n iv (m ++ xs) (compress s (buf ++ xs)) [] := by
  obtain ⟨k, whole, rfl, hlen, rfl⟩ := h.split
  have hn : 0 < n := Nat.lt_of_le_of_lt (Nat.zero_le _) h.short
  refine ⟨hn, k + 1, whole ++ (buf ++ xs), by simp, ?_, ?_⟩
  · rw [List.length_append, hlen, hxs, Nat.succ_mul]
  · rw [blockFold_append k 1 iv whole _ hlen, blockFold, blockFold, List.take_of_length_le hxs.le]

/-- With an empty buffer the whole text is in the state. -/
theorem absorb_eq (h : Streamed compress n iv m s []) : absorb compress n iv m = s := by
  obtain ⟨k, whole, rfl, hlen, rfl⟩ := h.split
  rw [List.append_nil]
  exact Libdsm.absorb_eq h.short hlen

end Streamed

end

end Libdsm
