import Mathlib.Data.List.Basic

/-!
# Runs of a step function

A run is a list of actions performed one after the other from a start state. `Along step P s as`
says that `P` holds at each of them, of the state before it and the action; with `P` about
`step s a` it speaks of the states reached. `Along.of_invariant` is the induction over runs:
an invariant that every permitted action keeps, and from which `P` follows there.
-/

namespace Libdsm

variable {σ α : Type*} (step : σ → α → σ)

/-- `P` holds at every action of the run, of the state before it. -/
def Along (P : σ → α → Prop) : σ → List α → Prop
  | _, [] => True
  | s, a :: as => P s a ∧ Along P (step s a) as

variable {step}

/-- What holds along a run holds at its last action. -/
theorem Along.last {P : σ → α → Prop} {s : σ} {as : List α} {a : α}
    (h : Along step P s (as ++ [a])) : P (as.foldl step s) a := by
  induction as generalizing s with
  | nil => exact h.1
  | cons b as ih => exact ih h.2

/-- Induction over runs: `I` holds at the start, and every action that meets `C` keeps `I` and
has `P`. -/
theorem Along.of_invariant {I : σ → Prop} {C P : σ → α → Prop}
    (h : ∀ s a, I s → C s a → I (step s a) ∧ P s a) {s : σ} {as : List α} (hs : I s)
    (hC : Along step C s as) : Along step P s as ∧ I (as.foldl step s) := by
  induction as generalizing s with
  | nil => exact ⟨trivial, hs⟩
  | cons a as ih =>
    obtain ⟨hI, hP⟩ := h s a hs hC.1
    obtain ⟨hrest, hend⟩ := ih hI hC.2
    exact ⟨⟨hP, hrest⟩, hend⟩

/-- Where the invariant makes `P` and `C` the same, they hold along the same runs: the run leaves
the invariant no sooner than it breaks both. `A` is what the environment promises. -/
theorem along_congr_under {I : σ → Prop} {A C P : σ → α → Prop}
    (hiff : ∀ s a, I s → A s a → (P s a ↔ C s a))
    (hstep : ∀ s a, I s → A s a → C s a → I (step s a)) {s : σ} {as : List α} (hs : I s)
    (hA : Along step A s as) : Along step P s as ↔ Along step C s as := by
  induction as generalizing s with
  | nil => exact Iff.rfl
  | cons a as ih =>
    rw [Along, Along, hiff s a hs hA.1]
    exact and_congr_right fun hC => ih (hstep s a hs hA.1 hC) hA.2

/-- The same in an environment that promises nothing. -/
theorem along_congr {I : σ → Prop} {C P : σ → α → Prop} (hiff : ∀ s a, I s → (P s a ↔ C s a))
    (hstep : ∀ s a, I s → C s a → I (step s a)) {s : σ} {as : List α} (hs : I s) :
    Along step P s as ↔ Along step C s as := by
  have htrue : Along step (fun _ _ => True) s as := by
    clear hs
    induction as generalizing s with
    | nil => trivial
    | cons a as ih => exact ⟨trivial, ih⟩
  exact along_congr_under (fun s a h _ => hiff s a h) (fun s a h _ => hstep s a h) hs htrue

end Libdsm
