import Mathlib.Data.List.Basic
import Mathlib.Logic.Function.Basic

/-!
# Linked lists in a heap

A heap of cells, each a value and a link to the next cell, with the loops that C code runs over it:
looking for a cell, appending behind the last one, unlinking one, freeing all of them. A pointer is
an address or null. The loops have fuel and fail where they read a cell that is not allocated, so
that a result says both that the loop ends and that it touches live cells alone.

`Seg h p cells q` says that the links from `p` lead through `cells` to `q`. The rules relate each
loop to the list of cells, and say which cells of the heap it leaves alone.
-/

namespace Libdsm

/-- A node of a list. -/
structure Cell (α : Type) where
  val : α
  next : Option Nat

/-- The cells that are allocated. -/
abbrev Cells (α : Type) := Nat → Option (Cell α)

namespace Cells

variable {α σ : Type}

/-! ## Loops -/

/-- `while (iter != NULL && !p (iter)) iter = iter->next;` -/
def seek (h : Cells α) (p : α → Bool) : Nat → Option Nat → Option (Option Nat)
  | 0, _ => none
  | _ + 1, none => some none
  | fuel + 1, some a => do
    let c ← h a
    if p c.val then some (some a) else seek h p fuel c.next

/-- `while (iter->next != NULL) iter = iter->next;` -/
def seekLast (h : Cells α) : Nat → Nat → Option Nat
  | 0, _ => none
  | fuel + 1, a => do
    let c ← h a
    match c.next with
    | none => some a
    | some b => seekLast h fuel b

/-- `while (iter->next != NULL && !p (iter->next)) iter = iter->next;` -/
def seekBefore (h : Cells α) (p : α → Bool) : Nat → Nat → Option Nat
  | 0, _ => none
  | fuel + 1, a => do
    let c ← h a
    match c.next with
    | none => some a
    | some b => do
      let d ← h b
      if p d.val then some a else seekBefore h p fuel b

/-- Linking the cell `n` behind the last one of the list at `head`: the head and the heap. -/
def append (h : Cells α) (fuel : Nat) (head : Option Nat) (n : Nat) : Option (Option Nat × Cells α) :=
  match head with
  | none => some (some n, h)
  | some a => do
    let last ← h.seekLast fuel a
    let c ← h last
    some (some a, Function.update h last (some { c with next := some n }))

/-- Unlinking the first cell behind the one at `a` that has `p`: the cell unlinked and the heap. -/
def unlinkBehind (h : Cells α) (p : α → Bool) (fuel : Nat) (a : Nat) :
    Option (Option Nat × Cells α) := do
  let before ← h.seekBefore p fuel a
  let c ← h before
  match c.next with
  | none => some (none, h)
  | some b => do
    let d ← h b
    some (some b, Function.update h before (some { c with next := d.next }))

/-- Unlinking the head if it has `p`, and otherwise the first cell behind it that has `q`: the cell
unlinked, the head and the heap. -/
def unlink (h : Cells α) (p q : α → Bool) (fuel : Nat) (head : Option Nat) :
    Option (Option Nat × Option Nat × Cells α) :=
  match head with
  | none => some (none, none, h)
  | some a => do
    let c ← h a
    if p c.val then some (some a, c.next, h)
    else do
      let (found, h') ← h.unlinkBehind q fuel a
      some (found, some a, h')

/-- `while (iter != NULL) { tmp = iter; iter = iter->next; .. free (tmp); }`, where `free` is what
becomes of the rest of a cell. -/
def drain (free : α → σ → Option σ) : Nat → Cells α → Option Nat → σ → Option (Cells α × σ)
  | 0, _, _, _ => none
  | _ + 1, h, none, s => some (h, s)
  | fuel + 1, h, some a, s => do
    let c ← h a
    let s' ← free c.val s
    drain free fuel (Function.update h a none) c.next s'

/-- `while (iter != NULL) iter = iter->next;`, with the cells it passes. -/
def collect (h : Cells α) : Nat → Option Nat → Option (List (Nat × α))
  | 0, _ => none
  | _ + 1, none => some []
  | fuel + 1, some a => do
    let c ← h a
    let rest ← collect h fuel c.next
    some ((a, c.val) :: rest)

/-- `while (iter != NULL && pos < index) { iter = iter->next; pos++; }`, with `k` turns to go. -/
def advance (h : Cells α) : Nat → Option Nat → Option (Option Nat)
  | _, none => some none
  | 0, some a => some (some a)
  | k + 1, some a => do
    let c ← h a
    advance h k c.next

/-- The heap without some of its cells. -/
def without (h : Cells α) (as : List Nat) : Cells α := fun a => if a ∈ as then none else h a

theorem update_without (h : Cells α) (a : Nat) (as : List Nat) :
    without (Function.update h a none) as = h.without (a :: as) := by
  funext b
  by_cases hb : b = a
  · simp [without, hb]
  · simp [without, hb]

theorem without_without (h : Cells α) (as bs : List Nat) :
    without (h.without as) bs = h.without (as ++ bs) := by
  funext b
  by_cases hb : b ∈ bs
  · simp [without, hb]
  · simp [without, hb]

/-- Nothing is left when every cell is among those taken out. -/
theorem without_all {h : Cells α} {as : List Nat} (hall : ∀ a, h a ≠ none → a ∈ as) :
    h.without as = fun _ => none := by
  funext a
  by_cases ha : a ∈ as
  · exact if_pos ha
  · rw [without, if_neg ha]
    exact not_not.mp (mt (hall a) ha)

/-! ## Addresses that are not in use -/

section

variable {h : Cells α} {fuel b : Nat} {head : Option Nat}

/-- An assignment to a cell allocates nothing. -/
theorem update_free {a : Nat} {c : Cell α} {c' : Option (Cell α)} (hcell : h a = some c)
    (hfree : h b = none) : Function.update h a c' b = none := by
  rw [Function.update_of_ne, hfree]
  rintro rfl
  rw [hcell] at hfree
  cases hfree

theorem append_free {n : Nat} {r : Option Nat × Cells α} (happend : h.append fuel head n = some r)
    (hfree : h b = none) : r.2 b = none := by
  cases head with
  | none =>
    obtain rfl := Option.some.inj happend
    exact hfree
  | some a =>
    simp only [append, Option.bind_eq_bind, Option.bind_eq_some_iff, Option.some.injEq] at happend
    obtain ⟨last, -, c, hcell, rfl⟩ := happend
    exact update_free hcell hfree

theorem unlinkBehind_free {p : α → Bool} {a : Nat} {r : Option Nat × Cells α}
    (hunlink : h.unlinkBehind p fuel a = some r) (hfree : h b = none) : r.2 b = none := by
  simp only [unlinkBehind, Option.bind_eq_bind, Option.bind_eq_some_iff] at hunlink
  obtain ⟨before, -, c, hcell, hrest⟩ := hunlink
  split at hrest
  · obtain rfl := Option.some.inj hrest
    exact hfree
  · simp only [Option.bind_eq_some_iff, Option.some.injEq] at hrest
    obtain ⟨d, -, rfl⟩ := hrest
    exact update_free hcell hfree

theorem unlink_free {p q : α → Bool} {r : Option Nat × Option Nat × Cells α}
    (hunlink : h.unlink p q fuel head = some r) (hfree : h b = none) : r.2.2 b = none := by
  cases head with
  | none =>
    obtain rfl := Option.some.inj hunlink
    exact hfree
  | some a =>
    simp only [unlink, Option.bind_eq_bind, Option.bind_eq_some_iff] at hunlink
    obtain ⟨c, -, hrest⟩ := hunlink
    split at hrest
    · obtain rfl := Option.some.inj hrest
      exact hfree
    · simp only [Option.bind_eq_some_iff, Option.some.injEq] at hrest
      obtain ⟨⟨found, h'⟩, hbehind, rfl⟩ := hrest
      exact unlinkBehind_free (r := (found, h')) hbehind hfree

end

/-! ## Segments -/

/-- From `p` the links lead through `cells` to `q`. -/
inductive Seg (h : Cells α) : Option Nat → List (Nat × α) → Option Nat → Prop
  | nil (p : Option Nat) : Seg h p [] p
  | cons {a : Nat} {x : α} {next q : Option Nat} {cells : List (Nat × α)} (hcell : h a = some ⟨x, next⟩)
      (hrest : Seg h next cells q) : Seg h (some a) ((a, x) :: cells) q

/-- A list: the links end. -/
abbrev Chain (h : Cells α) (p : Option Nat) (cells : List (Nat × α)) : Prop := Seg h p cells none

namespace Seg

variable {h h' : Cells α} {p q r : Option Nat} {a : Nat} {x : α} {cells cells' : List (Nat × α)}

theorem nil_inv (hs : Seg h p [] q) : p = q := by
  cases hs
  rfl

theorem cons_inv (hs : Seg h p ((a, x) :: cells) q) :
    p = some a ∧ ∃ next, h a = some ⟨x, next⟩ ∧ Seg h next cells q := by
  cases hs with
  | cons hcell hrest => exact ⟨rfl, _, hcell, hrest⟩

theorem append (hs : Seg h p cells q) (hs' : Seg h q cells' r) : Seg h p (cells ++ cells') r := by
  induction hs with
  | nil => exact hs'
  | cons hcell _ ih => exact .cons hcell (ih hs')

theorem split (hs : Seg h p (cells ++ cells') r) : ∃ q, Seg h p cells q ∧ Seg h q cells' r := by
  induction cells generalizing p with
  | nil => exact ⟨p, .nil p, hs⟩
  | cons c cells ih =>
    obtain ⟨rfl, next, hcell, hrest⟩ := cons_inv hs
    obtain ⟨q, hfirst, hsecond⟩ := ih hrest
    exact ⟨q, .cons hcell hfirst, hsecond⟩

/-- Cells elsewhere do not matter. -/
theorem congr (hs : Seg h p cells q) (heq : ∀ a ∈ cells.map Prod.fst, h' a = h a) :
    Seg h' p cells q := by
  induction hs with
  | nil p => exact .nil p
  | cons hcell _ ih =>
    rw [List.map_cons, List.forall_mem_cons] at heq
    exact .cons (heq.1.trans hcell) (ih heq.2)

theorem update_of_notMem (hs : Seg h p cells q) {c : Option (Cell α)} (ha : a ∉ cells.map Prod.fst) :
    Seg (Function.update h a c) p cells q := by
  apply hs.congr
  intro b hb
  exact Function.update_of_ne (ne_of_mem_of_not_mem hb ha) _ _

theorem allocated (hs : Seg h p cells q) : ∀ a ∈ cells.map Prod.fst, h a ≠ none := by
  induction hs with
  | nil => simp
  | cons hcell _ ih =>
    rw [List.map_cons, List.forall_mem_cons]
    exact ⟨by rw [hcell]; simp, ih⟩

end Seg

namespace Chain

variable {h : Cells α} {p : Option Nat} {a : Nat} {cells cells' : List (Nat × α)}

/-- The heap determines the cells of a list. -/
theorem unique (hs : Chain h p cells) (hs' : Chain h p cells') : cells = cells' := by
  induction cells generalizing p cells' with
  | nil =>
    obtain rfl := hs.nil_inv
    cases hs'
    rfl
  | cons c cells ih =>
    obtain ⟨rfl, next, hcell, hrest⟩ := hs.cons_inv
    cases hs' with
    | cons hcell' hrest' =>
      obtain ⟨rfl, rfl⟩ : _ ∧ _ := Cell.mk.inj (Option.some.inj (hcell.symm.trans hcell'))
      rw [ih hrest hrest']

/-- A list that ends visits no cell twice. -/
theorem nodup (hs : Chain h p cells) : (cells.map Prod.fst).Nodup := by
  induction cells generalizing p with
  | nil => exact List.nodup_nil
  | cons c cells ih =>
    obtain ⟨rfl, next, hcell, hrest⟩ := hs.cons_inv
    refine List.nodup_cons.mpr ⟨fun hmem => ?_, ih hrest⟩
    -- from the second visit on the list would be the one from the first visit on
    obtain ⟨d, hd, hda⟩ := List.mem_map.mp hmem
    obtain ⟨front, back, rfl⟩ := List.append_of_mem hd
    obtain ⟨q, -, hback⟩ := hrest.split
    obtain ⟨rfl, -⟩ := id hback.cons_inv
    rw [hda] at hback
    have hlen := congrArg List.length (unique hs hback)
    simp only [List.length_cons, List.length_append] at hlen
    omega

theorem head_eq (hs : Chain h p cells) : p = cells.head?.map Prod.fst := by
  cases hs <;> rfl

end Chain

/-! ## Rules -/

variable {h : Cells α} {p : Option Nat} {cells : List (Nat × α)}

/-- The loop stops at the first cell that has the property. -/
theorem Chain.seek (hs : Chain h p cells) (f : α → Bool) {fuel : Nat} (hfuel : cells.length < fuel) :
    h.seek f fuel p = some ((cells.find? fun c => f c.2).map Prod.fst) := by
  induction cells generalizing p fuel with
  | nil =>
    obtain rfl := hs.nil_inv
    obtain ⟨fuel, rfl⟩ := Nat.exists_eq_succ_of_ne_zero (Nat.ne_zero_of_lt hfuel)
    rfl
  | cons c cells ih =>
    obtain ⟨rfl, next, hcell, hrest⟩ := hs.cons_inv
    obtain ⟨fuel, rfl⟩ := Nat.exists_eq_succ_of_ne_zero (Nat.ne_zero_of_lt hfuel)
    have hfuel' : cells.length < fuel := Nat.lt_of_succ_lt_succ hfuel
    rw [Cells.seek, hcell, Option.bind_eq_bind, Option.bind_some, List.find?_cons, ih hrest hfuel']
    cases f c.2 <;> rfl

/-- The loop passes the cells of the list and no others. -/
theorem Chain.collect (hs : Chain h p cells) {fuel : Nat} (hfuel : cells.length < fuel) :
    h.collect fuel p = some cells := by
  induction cells generalizing p fuel with
  | nil =>
    obtain rfl := hs.nil_inv
    obtain ⟨fuel, rfl⟩ := Nat.exists_eq_succ_of_ne_zero (Nat.ne_zero_of_lt hfuel)
    rfl
  | cons c cells ih =>
    obtain ⟨rfl, next, hcell, hrest⟩ := hs.cons_inv
    obtain ⟨fuel, rfl⟩ := Nat.exists_eq_succ_of_ne_zero (Nat.ne_zero_of_lt hfuel)
    have hloop := ih hrest (Nat.lt_of_succ_lt_succ hfuel)
    simp only [Cells.collect, hcell, hloop, Option.bind_eq_bind, Option.bind_some]

theorem Chain.advance (hs : Chain h p cells) (k : Nat) :
    h.advance k p = some (cells[k]?.map Prod.fst) := by
  induction k generalizing p cells with
  | zero =>
    cases hs with
    | nil => rfl
    | cons hcell hrest => rfl
  | succ k ih =>
    cases hs with
    | nil => rfl
    | cons hcell hrest =>
      simp only [Cells.advance, hcell, Option.bind_eq_bind, Option.bind_some, ih hrest,
        List.getElem?_cons_succ]

theorem Chain.seekLast {last : Nat × α} {a : Nat} (hs : Chain h (some a) (cells ++ [last])) {fuel : Nat}
    (hfuel : cells.length < fuel) :
    h.seekLast fuel a = some last.1 ∧ h last.1 = some ⟨last.2, none⟩ := by
  induction cells generalizing a fuel with
  | nil =>
    obtain ⟨hptr, next, hcell, hrest⟩ := hs.cons_inv
    obtain rfl := Option.some.inj hptr
    obtain rfl := hrest.nil_inv
    obtain ⟨fuel, rfl⟩ := Nat.exists_eq_succ_of_ne_zero (Nat.ne_zero_of_lt hfuel)
    refine ⟨?_, hcell⟩
    rw [Cells.seekLast, hcell]
    rfl
  | cons c cells ih =>
    obtain ⟨hptr, next, hcell, hrest⟩ := hs.cons_inv
    obtain rfl := Option.some.inj hptr
    obtain ⟨fuel, rfl⟩ := Nat.exists_eq_succ_of_ne_zero (Nat.ne_zero_of_lt hfuel)
    have hnext : ∃ b, next = some b := by
      cases cells with
      | nil => exact ⟨_, hrest.cons_inv.1⟩
      | cons d cells => exact ⟨_, hrest.cons_inv.1⟩
    obtain ⟨b, rfl⟩ := hnext
    obtain ⟨hlast, hcell'⟩ := ih hrest (Nat.lt_of_succ_lt_succ hfuel)
    refine ⟨?_, hcell'⟩
    rw [Cells.seekLast, hcell]
    exact hlast

/-- The new cell ends up behind the others; cells off the list keep their contents. -/
theorem Chain.append (hs : Chain h p cells) {n : Nat} {x : α} (hn : h n = some ⟨x, none⟩)
    (hfresh : n ∉ cells.map Prod.fst) {fuel : Nat} (hfuel : cells.length < fuel) :
    ∃ head h', h.append fuel p n = some (head, h') ∧ Chain h' head (cells ++ [(n, x)]) ∧
      (∀ a ∉ cells.map Prod.fst, h' a = h a) ∧ ∀ a, (h' a).isSome = (h a).isSome := by
  rcases List.eq_nil_or_concat cells with rfl | ⟨front, last, rfl⟩
  · obtain rfl := hs.nil_inv
    exact ⟨some n, h, rfl, .cons hn (.nil none), fun _ _ => rfl, fun _ => rfl⟩
  · rw [List.concat_eq_append] at *
    obtain ⟨a, rfl⟩ : ∃ a, p = some a := by
      rw [hs.head_eq]
      cases front with
      | nil => exact ⟨_, rfl⟩
      | cons c front => exact ⟨_, rfl⟩
    have hlen : front.length < fuel := by
      rw [List.length_append, List.length_singleton] at hfuel
      omega
    obtain ⟨hlast, hcell⟩ := Chain.seekLast hs hlen
    have hnodup := Chain.nodup hs
    rw [List.map_append, List.map_singleton, List.nodup_append] at hnodup
    rw [List.map_append, List.map_singleton] at hfresh ⊢
    have hoff : last.1 ∉ front.map Prod.fst := fun hmem => hnodup.2.2 _ hmem _ (by simp) rfl
    have hne : n ≠ last.1 := fun heq => hfresh (by simp [heq])
    refine ⟨some a, Function.update h last.1 (some ⟨last.2, some n⟩), ?_, ?_, ?_, ?_⟩
    · simp only [Cells.append, hlast, hcell, Option.bind_eq_bind, Option.bind_some]
    · obtain ⟨q, hfront, hback⟩ := hs.split
      obtain ⟨rfl, -⟩ := hback.cons_inv
      have hend : Chain (Function.update h last.1 (some ⟨last.2, some n⟩)) (some last.1)
          [last, (n, x)] := by
        refine .cons (Function.update_self _ _ _) (.cons ?_ (.nil none))
        rw [Function.update_of_ne hne]
        exact hn
      rw [List.append_assoc]
      exact (hfront.update_of_notMem hoff).append hend
    · intro b hb
      exact Function.update_of_ne (fun heq => hb (by simp [heq])) _ _
    · intro b
      by_cases hb : b = last.1
      · subst hb
        rw [Function.update_self, hcell]
        rfl
      · rw [Function.update_of_ne hb]

/-- The cell at a place of a list, and the list behind it. -/
theorem Chain.cell {a : Nat} {x : α} {front back : List (Nat × α)}
    (hs : Chain h p (front ++ (a, x) :: back)) : ∃ next, h a = some ⟨x, next⟩ ∧ Chain h next back := by
  obtain ⟨q, -, hback⟩ := hs.split
  exact hback.cons_inv.2

/-- An assignment to a value of the list. -/
theorem Chain.assign {a : Nat} {x y : α} {next : Option Nat} {front back : List (Nat × α)}
    (hs : Chain h p (front ++ (a, x) :: back)) (hcell : h a = some ⟨x, next⟩) :
    Chain (Function.update h a (some ⟨y, next⟩)) p (front ++ (a, y) :: back) := by
  have hnodup := Chain.nodup hs
  rw [List.map_append, List.map_cons, List.nodup_append, List.nodup_cons] at hnodup
  have hfront : a ∉ front.map Prod.fst := fun hmem => hnodup.2.2 _ hmem _ (by simp) rfl
  obtain ⟨q, hfirst, hrest⟩ := hs.split
  obtain ⟨rfl, next', hcell', hback⟩ := hrest.cons_inv
  obtain ⟨-, rfl⟩ : _ ∧ _ := Cell.mk.inj (Option.some.inj (hcell.symm.trans hcell'))
  exact (hfirst.update_of_notMem hfront).append
    (.cons (Function.update_self _ _ _) (hback.update_of_notMem hnodup.2.1.1))

/-- The loop stops before the first cell behind the head that has the property, or at the end. -/
theorem Chain.seekBefore (q : α → Bool) {a : Nat} {x : α} (hs : Chain h (some a) ((a, x) :: cells))
    {fuel : Nat} (hfuel : cells.length < fuel) :
    ∃ front d back, (a, x) :: cells = front ++ d :: back ∧ h.seekBefore q fuel a = some d.1 ∧
      (∀ c ∈ (front ++ [d]).tail, q c.2 = false) ∧ ∀ c ∈ back.head?, q c.2 = true := by
  induction cells generalizing a x fuel with
  | nil =>
    obtain ⟨-, next, hcell, hrest⟩ := hs.cons_inv
    obtain rfl := hrest.nil_inv
    obtain ⟨fuel, rfl⟩ := Nat.exists_eq_succ_of_ne_zero (Nat.ne_zero_of_lt hfuel)
    refine ⟨[], (a, x), [], rfl, ?_, by simp, by simp⟩
    rw [Cells.seekBefore, hcell]
    rfl
  | cons c cells ih =>
    obtain ⟨b, y⟩ := c
    obtain ⟨-, next, hcell, hrest⟩ := hs.cons_inv
    obtain ⟨rfl, next', hcell', -⟩ := id hrest.cons_inv
    obtain ⟨fuel, rfl⟩ := Nat.exists_eq_succ_of_ne_zero (Nat.ne_zero_of_lt hfuel)
    have hloop : h.seekBefore q (fuel + 1) a = if q y then some a else h.seekBefore q fuel b := by
      simp only [Cells.seekBefore, hcell, hcell', Option.bind_eq_bind, Option.bind_some]
    rw [hloop]
    cases hy : q y with
    | true => exact ⟨[], (a, x), (b, y) :: cells, rfl, if_pos rfl, by simp, by simpa using hy⟩
    | false =>
      obtain ⟨front, d, back, heq, hbefore, hnone, hfound⟩ := ih hrest (Nat.lt_of_succ_lt_succ hfuel)
      refine ⟨(a, x) :: front, d, back, by rw [heq]; rfl, by simpa using hbefore, ?_, hfound⟩
      -- the first of the cells passed is the one just looked at
      have hfirst : front ++ [d] = (b, y) :: (front ++ [d]).tail := by
        cases front with
        | nil => rw [(List.cons.inj heq).1.symm]; rfl
        | cons e front => rw [(List.cons.inj heq).1.symm]; rfl
      rw [List.cons_append, List.tail_cons, hfirst, List.forall_mem_cons]
      exact ⟨hy, hnone⟩

theorem Chain.unlinkBehind (q : α → Bool) {a : Nat} {x : α} (hs : Chain h (some a) ((a, x) :: cells))
    {fuel : Nat} (hfuel : cells.length < fuel) :
    ∃ h', h.unlinkBehind q fuel a = some ((cells.find? fun c => q c.2).map Prod.fst, h') ∧
      Chain h' (some a) ((a, x) :: cells.eraseP fun c => q c.2) ∧
      (∀ b ∉ ((a, x) :: cells).map Prod.fst, h' b = h b) ∧
      ∀ b, (h' b).map Cell.val = (h b).map Cell.val := by
  obtain ⟨front, d, back, heq, hbefore, hnone, hfound⟩ := Chain.seekBefore q hs hfuel
  have hcells : cells = (front ++ [d]).tail ++ back := by
    cases front with
    | nil => exact (List.cons.inj heq).2
    | cons e front =>
      rw [(List.cons.inj heq).2]
      simp
  have hpassed : ∀ c ∈ (front ++ [d]).tail, ¬ q c.2 = true := by
    intro c hc
    rw [hnone c hc]
    exact Bool.false_ne_true
  have hpassed' : (front ++ [d]).tail.find? (fun c => q c.2) = none :=
    List.find?_eq_none.mpr hpassed
  rw [heq] at hs
  obtain ⟨next, hcell, hback⟩ := Chain.cell hs
  cases back with
  | nil =>
    obtain rfl := hback.nil_inv
    have hnotin : cells.find? (fun c => q c.2) = none := by
      rw [hcells, List.append_nil, hpassed']
    have hkept : cells.eraseP (fun c => q c.2) = cells := by
      rw [hcells, List.append_nil]
      exact List.eraseP_of_forall_not hpassed
    refine ⟨h, ?_, ?_, fun _ _ => rfl, fun _ => rfl⟩
    · simp only [Cells.unlinkBehind, hbefore, hcell, hnotin, Option.bind_eq_bind, Option.bind_some,
        Option.map_none]
    · rw [hkept, heq]
      exact hs
  | cons e back =>
    obtain ⟨b, y⟩ := e
    obtain ⟨rfl, next', hcell', hrest⟩ := hback.cons_inv
    have hfirst : cells.find? (fun c => q c.2) = some (b, y) := by
      rw [hcells, List.find?_append, hpassed', Option.none_or, List.find?_cons_of_pos]
      exact hfound (b, y) rfl
    have herased : cells.eraseP (fun c => q c.2) = (front ++ [d]).tail ++ back := by
      rw [hcells, List.eraseP_append_right _ hpassed, List.eraseP_cons_of_pos]
      exact hfound (b, y) rfl
    have hnew : (a, x) :: ((front ++ [d]).tail ++ back) = front ++ d :: back := by
      cases front with
      | nil =>
        rw [(List.cons.inj heq).1]
        rfl
      | cons c front =>
        rw [(List.cons.inj heq).1]
        simp
    have hnodup := Chain.nodup hs
    rw [List.map_append, List.map_cons, List.map_cons, List.nodup_append, List.nodup_cons] at hnodup
    have hfront : d.1 ∉ front.map Prod.fst := fun hmem => hnodup.2.2 _ hmem _ (by simp) rfl
    have hrear : d.1 ∉ back.map Prod.fst := fun hmem => hnodup.2.1.1 (List.mem_cons_of_mem _ hmem)
    refine ⟨Function.update h d.1 (some ⟨d.2, next'⟩), ?_, ?_, ?_, ?_⟩
    · simp only [Cells.unlinkBehind, hbefore, hcell, hcell', hfirst, Option.bind_eq_bind,
        Option.bind_some, Option.map_some]
    · obtain ⟨r, hstart, hend⟩ := hs.split
      obtain ⟨rfl, -⟩ := hend.cons_inv
      rw [herased, hnew]
      exact (hstart.update_of_notMem hfront).append
        (.cons (Function.update_self _ _ _) (hrest.update_of_notMem hrear))
    · intro c hc
      refine Function.update_of_ne (fun hcd => hc ?_) _ _
      rw [heq, hcd]
      simp
    · intro c
      by_cases hc : c = d.1
      · subst hc
        rw [Function.update_self, hcell]
        rfl
      · rw [Function.update_of_ne hc]

/-- The cell unlinked and those that stay. -/
def unlinkCells (p q : α → Bool) : List (Nat × α) → Option (Nat × α) × List (Nat × α)
  | [] => (none, [])
  | c :: cells =>
    if p c.2 then (some c, cells)
    else (cells.find? fun d => q d.2, c :: cells.eraseP fun d => q d.2)

theorem find?_perm {β : Type} (q : β → Bool) (l : List β) :
    l.Perm ((l.find? q).toList ++ l.eraseP q) := by
  induction l with
  | nil => exact .nil
  | cons x l ih =>
    cases hx : q x with
    | true => rw [List.find?_cons_of_pos hx, List.eraseP_cons_of_pos hx]; exact .refl _
    | false =>
      rw [List.find?_cons_of_neg (by simp [hx]), List.eraseP_cons_of_neg (by simp [hx])]
      exact (ih.cons x).trans List.perm_middle.symm

theorem unlinkCells_self (p : α → Bool) (cells : List (Nat × α)) :
    unlinkCells p p cells = (cells.find? fun c => p c.2, cells.eraseP fun c => p c.2) := by
  cases cells with
  | nil => rfl
  | cons c cells =>
    rw [unlinkCells]
    by_cases hc : p c.2 = true
    · simp [hc]
    · simp [hc]

/-- The cells are the one unlinked and those that stay. -/
theorem unlinkCells_perm (p q : α → Bool) (cells : List (Nat × α)) :
    cells.Perm ((unlinkCells p q cells).1.toList ++ (unlinkCells p q cells).2) := by
  cases cells with
  | nil => exact .nil
  | cons c cells =>
    rw [unlinkCells]
    by_cases hc : p c.2 = true
    · rw [if_pos hc]
      exact .refl _
    · rw [if_neg hc]
      exact ((find?_perm _ cells).cons c).trans List.perm_middle.symm

/-- One cell is unlinked and stays allocated; only a link of another cell of the list changes. -/
theorem Chain.unlink (hs : Chain h p cells) (f g : α → Bool) {fuel : Nat}
    (hfuel : cells.length < fuel) :
    ∃ head h', h.unlink f g fuel p = some ((unlinkCells f g cells).1.map Prod.fst, head, h') ∧
      Chain h' head (unlinkCells f g cells).2 ∧ (∀ a ∉ cells.map Prod.fst, h' a = h a) ∧
      ∀ a, (h' a).map Cell.val = (h a).map Cell.val := by
  cases cells with
  | nil =>
    obtain rfl := hs.nil_inv
    exact ⟨none, h, rfl, .nil none, fun _ _ => rfl, fun _ => rfl⟩
  | cons c cells =>
    obtain ⟨a, x⟩ := c
    obtain ⟨rfl, next, hcell, hrest⟩ := hs.cons_inv
    have hlen : cells.length < fuel := Nat.lt_of_succ_lt hfuel
    by_cases hx : f x = true
    · refine ⟨next, h, ?_, ?_, fun _ _ => rfl, fun _ => rfl⟩
      · simp only [Cells.unlink, unlinkCells, hcell, Option.bind_eq_bind, Option.bind_some, if_pos hx,
          Option.map_some]
      · simp only [unlinkCells, if_pos hx]
        exact hrest
    · obtain ⟨h', hloop, hchain, hframe, hvals⟩ := Chain.unlinkBehind g hs hlen
      refine ⟨some a, h', ?_, ?_, hframe, hvals⟩
      · simp only [Cells.unlink, unlinkCells, hcell, Option.bind_eq_bind, Option.bind_some, if_neg hx,
          hloop]
      · simp only [unlinkCells, if_neg hx]
        exact hchain

/-- The cells of the list are freed one after the other, with what hangs on them. -/
theorem Chain.drain (free : α → σ → Option σ) (hs : Chain h p cells) {s s' : σ} {fuel : Nat}
    (hfuel : cells.length < fuel) (hfree : cells.foldlM (fun s c => free c.2 s) s = some s') :
    Cells.drain free fuel h p s = some (h.without (cells.map Prod.fst), s') := by
  induction cells generalizing h p fuel s with
  | nil =>
    obtain rfl := hs.nil_inv
    obtain ⟨fuel, rfl⟩ := Nat.exists_eq_succ_of_ne_zero (Nat.ne_zero_of_lt hfuel)
    rw [List.foldlM_nil] at hfree
    rw [Cells.drain, ← Option.some.inj hfree]
    rfl
  | cons c cells ih =>
    obtain ⟨a, x⟩ := c
    have hnodup := List.nodup_cons.mp (Chain.nodup hs)
    obtain ⟨rfl, next, hcell, hrest⟩ := hs.cons_inv
    obtain ⟨fuel, rfl⟩ := Nat.exists_eq_succ_of_ne_zero (Nat.ne_zero_of_lt hfuel)
    rw [List.foldlM_cons, Option.bind_eq_bind, Option.bind_eq_some_iff] at hfree
    obtain ⟨s₁, hfirst, hfree⟩ := hfree
    have hrest' := hrest.update_of_notMem (c := none) hnodup.1
    have hloop := ih hrest' (Nat.lt_of_succ_lt_succ hfuel) hfree
    simp only [Cells.drain, hcell, Option.bind_eq_bind, Option.bind_some, hfirst, hloop]
    rw [update_without]
    rfl

end Cells

end Libdsm
