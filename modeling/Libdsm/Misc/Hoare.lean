import Mathlib.Data.List.Basic

/-!
# Pre- and postconditions of stateful programs

`Triple P m Q` says that from every state with `P` the program `m` ends in a state, and with a
result, that have `Q`; a program of the state monad always ends. `Keeps f m` says that `m` leaves
what `f` sees of the state as it was, `Moves R m` that it takes the state along `R`, and `Returns A m`
that every result of `m` has `A`. The rules follow the constructs of a `do` block, so that a proof
goes through a program in the order it is written.
-/

namespace Libdsm

universe u v

variable {σ α β : Type u} {γ : Type v}

/-- A program that wraps up the result of another. -/
theorem bind_pure_fst (m : StateM σ α) (g : α → β) (s : σ) :
    ((m >>= fun a => pure (g a) : StateM σ β) s).1 = g (m s).1 := rfl

theorem bind_pure_snd (m : StateM σ α) (g : α → β) (s : σ) :
    ((m >>= fun a => pure (g a) : StateM σ β) s).2 = (m s).2 := rfl

/-- A program that tidies up after another and returns its result. -/
theorem bind_after_fst (m : StateM σ α) (n : StateM σ β) (s : σ) :
    ((m >>= fun a => n >>= fun _ => pure a : StateM σ α) s).1 = (m s).1 := rfl

/-- A run is its result and the state it ends in. -/
theorem run_eq {m : StateM σ α} {s : σ} {a : α} (h : (m s).1 = a) : m s = (a, (m s).2) :=
  Prod.ext h rfl

/-- A program that goes on from what another has come to. -/
theorem bind_run {m : StateM σ α} {s s' : σ} {a : α} (h : m s = (a, s')) (k : α → StateM σ β) :
    (m >>= k) s = k a s' := by
  show k (m s).1 (m s).2 = k a s'
  rw [h]

/-- A program that goes on with the state it has read. -/
theorem get_bind_run (k : σ → StateM σ α) (s : σ) :
    ((MonadState.get : StateM σ σ) >>= k) s = k s s := rfl

/-- Two programs that begin with the same one. -/
theorem bind_rel {β' : Type u} {R : β → β' → Prop} {m : StateM σ α} {k : α → StateM σ β}
    {k' : α → StateM σ β'} (h : ∀ a s, R (k a s).1 (k' a s).1) (s : σ) :
    R ((m >>= k) s).1 ((m >>= k') s).1 :=
  h (m s).1 (m s).2

/-- A program against the one it begins with. -/
theorem bind_rel_fst {R : β → α → Prop} {m : StateM σ α} {k : α → StateM σ β}
    (h : ∀ a s, R (k a s).1 a) (s : σ) : R ((m >>= k) s).1 (m s).1 :=
  h (m s).1 (m s).2

/-- From `P` the program `m` leads to `Q`, which may speak of the result. -/
def Triple (P : σ → Prop) (m : StateM σ α) (Q : α → σ → Prop) : Prop :=
  ∀ s, P s → Q (m s).1 (m s).2

namespace Triple

variable {P P' : σ → Prop} {m n : StateM σ α} {k : α → StateM σ β} {Q Q' : α → σ → Prop}
variable {R : β → σ → Prop} {c : Prop} [Decidable c]

theorem pure {a : α} (h : ∀ s, P s → Q a s) : Triple P (Pure.pure a : StateM σ α) Q := h

theorem bind (hm : Triple P m Q) (hk : ∀ a, Triple (Q a) (k a) R) : Triple P (m >>= k) R :=
  fun s hs => hk _ _ (hm s hs)

theorem ite (ht : c → Triple P m Q) (he : ¬ c → Triple P n Q) :
    Triple P (if c then m else n) Q := by
  split
  · exact ht ‹_›
  · exact he ‹_›

theorem conseq (h : Triple P m Q) (hP : ∀ s, P' s → P s) (hQ : ∀ a s, Q a s → Q' a s) :
    Triple P' m Q' :=
  fun s hs => hQ _ _ (h s (hP s hs))

theorem post (h : Triple P m Q) (hQ : ∀ a s, Q a s → Q' a s) : Triple P m Q' :=
  h.conseq (fun _ hs => hs) hQ

/-- What is read is the state. -/
theorem get : Triple P (MonadState.get : StateM σ σ) (fun a s => a = s ∧ P s) :=
  fun _ hs => ⟨rfl, hs⟩

/-- A program that goes on with the state it has read. -/
theorem get_bind {k : σ → StateM σ α} (h : ∀ s, P s → Q (k s s).1 (k s s).2) :
    Triple P ((MonadState.get : StateM σ σ) >>= k) Q := h

/-- A program that goes on with the state it has read, from one state. -/
theorem get_bind_at {s : σ} {k : σ → StateM σ α} (h : Triple (· = s) (k s) Q) :
    Triple (· = s) ((MonadState.get : StateM σ σ) >>= k) Q := by
  rintro _ rfl
  exact h _ rfl

theorem modify {f : σ → σ} {Q : PUnit → σ → Prop} (h : ∀ s, P s → Q ⟨⟩ (f s)) :
    Triple P (modify f : StateM σ PUnit) Q := h

end Triple

/-- The program leaves what `f` sees of the state alone. -/
def Keeps (f : σ → γ) (m : StateM σ α) : Prop := ∀ s, f (m s).2 = f s

namespace Keeps

variable {f : σ → γ} {m n : StateM σ α} {k : α → StateM σ β} {c : Prop} [Decidable c]

theorem pure (a : α) : Keeps f (Pure.pure a : StateM σ α) := fun _ => rfl

theorem bind (hm : Keeps f m) (hk : ∀ a, Keeps f (k a)) : Keeps f (m >>= k) :=
  fun s => (hk _ _).trans (hm s)

theorem ite (ht : Keeps f m) (he : Keeps f n) : Keeps f (if c then m else n) := by
  split
  · exact ht
  · exact he

theorem get : Keeps f (MonadState.get : StateM σ σ) := fun _ => rfl

/-- A program that goes on with the state it has read. -/
theorem get_bind {k : σ → StateM σ β} (h : ∀ s, f (k s s).2 = f s) :
    Keeps f ((MonadState.get : StateM σ σ) >>= k) := h

/-- A program that goes on from another state, in which `f` sees the same. -/
theorem set_bind {s s' : σ} {k : PUnit → StateM σ β} (hk : Keeps f (k ⟨⟩)) (h : f s' = f s) :
    f ((set s' >>= k : StateM σ β) s).2 = f s :=
  (hk s').trans h

theorem modify {g : σ → σ} (h : ∀ s, f (g s) = f s) :
    Keeps f (modify g : StateM σ PUnit) := h

end Keeps

/-- Whatever the state it starts in, the result of `m` has `A`. -/
def Returns (A : α → Prop) (m : StateM σ α) : Prop := ∀ s, A (m s).1

namespace Returns

variable {A : α → Prop} {B : β → Prop} {m n : StateM σ α} {k : α → StateM σ β}

theorem pure {a : α} (h : A a) : Returns A (Pure.pure a : StateM σ α) := fun _ => h

theorem bind (hk : ∀ a, Returns B (k a)) : Returns B (m >>= k) := fun s => hk (m s).1 (m s).2

theorem ite {c : Prop} [Decidable c] (ht : Returns A m) (he : Returns A n) :
    Returns A (if c then m else n) := by
  split
  · exact ht
  · exact he

/-- Two programs that begin with the same one, of whose result something is known. -/
theorem bind_rel {β' : Type u} {R : β → β' → Prop} {k' : α → StateM σ β'} (hm : Returns A m)
    (h : ∀ a s, A a → R (k a s).1 (k' a s).1) (s : σ) : R ((m >>= k) s).1 ((m >>= k') s).1 :=
  h (m s).1 (m s).2 (hm s)

end Returns

/-- Every run of `m` takes the state along `R`. -/
def Moves (R : σ → σ → Prop) (m : StateM σ α) : Prop := ∀ s, R s (m s).2

namespace Moves

variable {R : σ → σ → Prop} {m n : StateM σ α} {k : α → StateM σ β} {c : Prop} [Decidable c]

section

variable (hR : ∀ s, R s s)

include hR

theorem pure (a : α) : Moves R (Pure.pure a : StateM σ α) := fun s => hR s

theorem get : Moves R (MonadState.get : StateM σ σ) := fun s => hR s

end

theorem bind (hR : ∀ {a b c}, R a b → R b c → R a c) (hm : Moves R m)
    (hk : ∀ a, Moves R (k a)) : Moves R (m >>= k) :=
  fun s => hR (hm s) (hk _ _)

theorem ite (ht : Moves R m) (he : Moves R n) : Moves R (if c then m else n) := by
  split
  · exact ht
  · exact he

/-- A program that goes on with the state it has read. -/
theorem get_bind {k : σ → StateM σ β} (h : ∀ s, R s (k s s).2) :
    Moves R ((MonadState.get : StateM σ σ) >>= k) := h

/-- A program that goes on from another state. -/
theorem set_bind (hR : ∀ {a b c}, R a b → R b c → R a c) {s s' : σ} {k : PUnit → StateM σ β}
    (hk : Moves R (k ⟨⟩)) (h : R s s') : R s ((set s' >>= k : StateM σ β) s).2 :=
  hR h (hk s')

theorem modify {g : σ → σ} (h : ∀ s, R s (g s)) : Moves R (modify g : StateM σ PUnit) := h

end Moves

end Libdsm
