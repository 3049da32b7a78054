import Mathlib.Algebra.Order.Ring.Nat
import Mathlib.Data.List.Basic

/-!
# Chunked streams

A stream socket hands its bytes over in pieces of its own choosing. A chunk list fixes the choice:
one receive of at most `len` elements gets the first chunk, or its first `len` elements if it is
longer, and what it leaves of that chunk comes first the next time. An empty chunk is a receive
that fails.

`readN` is the loop that asks again until it has `need` elements. Where no chunk is empty, what it
reads depends on the concatenation of the chunks alone (`readN_complete`, `readN_short`).
-/

namespace Libdsm.Chunks

variable {α : Type*}

/-- One receive of at most `len` elements, and the chunks left after it. -/
def recv (len : Nat) : List (List α) → List α × List (List α)
  | [] => ([], [])
  | c :: cs => if c.length ≤ len then (c, cs) else (c.take len, c.drop len :: cs)

/-- Receive until `need` elements have arrived: the elements received, whether they are all there,
and the chunks left. Every turn but a failing one receives something, so `need` turns suffice. -/
def readN : Nat → Nat → List (List α) → List α × Bool × List (List α)
  | _, 0, cs => ([], true, cs)
  | 0, _ + 1, cs => ([], false, cs)
  | fuel + 1, need + 1, cs =>
    let r := recv (need + 1) cs
    if r.1.isEmpty then ([], false, r.2)
    else
      let t := readN fuel (need + 1 - r.1.length) r.2
      (r.1 ++ t.1, t.2)

/-- No receive fails. -/
def Live (cs : List (List α)) : Prop := ∀ c ∈ cs, c ≠ []

theorem Live.append {xs ys : List (List α)} (hx : Live xs) (hy : Live ys) : Live (xs ++ ys) := by
  intro c hc
  rcases List.mem_append.mp hc with h | h
  · exact hx c h
  · exact hy c h

/-- A receive takes a prefix of the stream. -/
theorem recv_flatten (len : Nat) (cs : List (List α)) :
    (recv len cs).1 ++ (recv len cs).2.flatten = cs.flatten := by
  cases cs with
  | nil => rfl
  | cons c cs =>
    simp only [recv]
    split
    · rfl
    · rw [List.flatten_cons, List.flatten_cons, ← List.append_assoc, List.take_append_drop]

theorem recv_length_le (len : Nat) (cs : List (List α)) : (recv len cs).1.length ≤ len := by
  cases cs with
  | nil => simp [recv]
  | cons c cs =>
    simp only [recv]
    split
    · assumption
    · exact (List.length_take_le _ _)

theorem recv_live {len : Nat} {cs : List (List α)} (h : Live cs) : Live (recv len cs).2 := by
  cases cs with
  | nil => simp [recv, Live]
  | cons c cs =>
    have ht : Live cs := fun x hx => h x (List.mem_cons_of_mem _ hx)
    simp only [recv]
    split
    · exact ht
    · rename_i hlong
      intro x hx
      rcases List.mem_cons.mp hx with rfl | hx
      · simp; omega
      · exact ht x hx

theorem recv_ne_nil {len : Nat} {cs : List (List α)} (h : Live cs) (hcs : cs.flatten ≠ []) :
    (recv (len + 1) cs).1 ≠ [] := by
  cases cs with
  | nil => simp at hcs
  | cons c cs =>
    have hc := h c (by simp)
    simp only [recv]
    split
    · exact hc
    · simpa using hc

/-- What `readN` has received and what it leaves are the stream, whether or not it is complete. -/
theorem readN_flatten (fuel need : Nat) (cs : List (List α)) :
    (readN fuel need cs).1 ++ (readN fuel need cs).2.2.flatten = cs.flatten := by
  induction fuel, need, cs using readN.induct with
  | case1 => simp [readN]
  | case2 => simp [readN]
  | case3 fuel need cs r hr =>
    have hf := recv_flatten (need + 1) cs
    rw [List.isEmpty_iff.mp hr, List.nil_append] at hf
    rw [readN, if_pos hr]
    exact hf
  | case4 fuel need cs r hr ih =>
    rw [readN, if_neg hr, List.append_assoc]
    change r.1 ++ ((readN fuel (need + 1 - r.1.length) r.2).1 ++
      (readN fuel (need + 1 - r.1.length) r.2).2.2.flatten) = _
    rw [ih]
    exact recv_flatten (need + 1) cs

theorem readN_length_le (fuel need : Nat) (cs : List (List α)) :
    (readN fuel need cs).1.length ≤ need := by
  induction fuel, need, cs using readN.induct with
  | case1 => simp [readN]
  | case2 => simp [readN]
  | case3 fuel need cs r hr => simp [readN, r, hr]
  | case4 fuel need cs r hr ih =>
    have hlen : r.1.length ≤ need + 1 := recv_length_le (need + 1) cs
    rw [readN, if_neg hr, List.length_append]
    change r.1.length + (readN fuel (need + 1 - r.1.length) r.2).1.length ≤ _
    omega

/-- A complete read has received exactly `need` elements. -/
theorem readN_length_eq {fuel need : Nat} {cs : List (List α)}
    (h : (readN fuel need cs).2.1 = true) : (readN fuel need cs).1.length = need := by
  induction fuel, need, cs using readN.induct with
  | case1 => simp [readN]
  | case2 => simp [readN] at h
  | case3 fuel need cs r hr =>
    rw [readN, if_pos hr] at h
    simp at h
  | case4 fuel need cs r hr ih =>
    have hlen : r.1.length ≤ need + 1 := recv_length_le (need + 1) cs
    rw [readN, if_neg hr] at h
    rw [readN, if_neg hr, List.length_append]
    change r.1.length + (readN fuel (need + 1 - r.1.length) r.2).1.length = _
    have := ih h
    omega

theorem readN_live {fuel need : Nat} {cs : List (List α)} (h : Live cs) :
    Live (readN fuel need cs).2.2 := by
  induction fuel, need, cs using readN.induct with
  | case1 => simpa [readN] using h
  | case2 => simpa [readN] using h
  | case3 fuel need cs r hr =>
    rw [readN, if_pos hr]
    exact recv_live h
  | case4 fuel need cs r hr ih =>
    rw [readN, if_neg hr]
    exact ih (recv_live h)

/-- Too short a stream never completes the read. -/
theorem readN_short {fuel need : Nat} {cs : List (List α)} (h : cs.flatten.length < need) :
    (readN fuel need cs).2.1 = false := by
  have hf := congrArg List.length (readN_flatten fuel need cs)
  rw [List.length_append] at hf
  by_contra hc
  have hlen := readN_length_eq (by simpa using hc)
  omega

/-- A read that completes takes exactly the first `need` elements of the stream and leaves the rest,
however the stream is cut. -/
theorem readN_exact {fuel need : Nat} {cs : List (List α)}
    (hok : (readN fuel need cs).2.1 = true) :
    (readN fuel need cs).1 = cs.flatten.take need ∧
      (readN fuel need cs).2.2.flatten = cs.flatten.drop need := by
  have hlen := readN_length_eq hok
  have hsplit := readN_flatten fuel need cs
  refine ⟨?_, ?_⟩
  · rw [← hsplit, List.take_append_of_le_length (by omega), List.take_of_length_le (by omega)]
  · rw [← hsplit, List.drop_append_of_le_length (by omega), List.drop_of_length_le (by omega),
      List.nil_append]

/-- A live stream that is long enough completes it. -/
theorem readN_complete {fuel need : Nat} {cs : List (List α)} (h : Live cs)
    (hneed : need ≤ cs.flatten.length) (hfuel : need ≤ fuel) :
    (readN fuel need cs).2.1 = true ∧ (readN fuel need cs).1 = cs.flatten.take need ∧
      (readN fuel need cs).2.2.flatten = cs.flatten.drop need := by
  have hok : (readN fuel need cs).2.1 = true := by
    induction fuel, need, cs using readN.induct with
    | case1 => simp [readN]
    | case2 => omega
    | case3 fuel need cs r hr =>
      have hne : cs.flatten ≠ [] := by
        intro h0
        simp [h0] at hneed
      exact absurd (List.isEmpty_iff.mp hr) (recv_ne_nil h hne)
    | case4 fuel need cs r hr ih =>
      have hpos : 0 < r.1.length := List.length_pos_iff.mpr (by simpa using hr)
      have hlen := congrArg List.length (recv_flatten (need + 1) cs)
      rw [List.length_append] at hlen
      rw [readN, if_neg hr]
      refine ih (recv_live h) ?_ (by omega)
      change need + 1 - (recv (need + 1) cs).1.length ≤ (recv (need + 1) cs).2.flatten.length
      omega
  exact ⟨hok, readN_exact hok⟩

end Libdsm.Chunks
