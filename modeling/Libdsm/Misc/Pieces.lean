import Mathlib.Data.List.Basic

/-!
# Sequences of fields

A body is read field by field: each field takes its elements off the front of what is left, and a
body is accepted if nothing is left behind the last one. `readPieces` keeps with each field where its
elements were. What was put together from parts that their fields recognise is read back as these
parts (`readPieces_place`).
-/

namespace Libdsm

variable {F α : Type*}

/-- The elements a field took, and where they start. -/
structure Piece (F α : Type*) where
  field : F
  offset : Nat
  bytes : List α

/-- The fields one after the other, the first one at `offset`. `take` gives the elements of a field
and those behind them. -/
def readPieces (take : F → List α → Option (List α × List α)) :
    Nat → List F → List α → Option (List (Piece F α))
  | _, [], [] => some []
  | _, [], _ :: _ => none
  | offset, field :: fields, body =>
    (take field body).bind fun r =>
      (readPieces take (offset + r.1.length) fields r.2).map (⟨field, offset, r.1⟩ :: ·)

/-- Only what `take` does for the fields of the body matters. -/
theorem readPieces_congr {take take' : F → List α → Option (List α × List α)} (fields : List F)
    (h : ∀ field ∈ fields, take field = take' field) (offset : Nat) (body : List α) :
    readPieces take offset fields body = readPieces take' offset fields body := by
  induction fields generalizing offset body with
  | nil => cases body <;> rfl
  | cons field fields ih =>
    have hrest := fun offset body => ih (fun f hf => h f (List.mem_cons_of_mem _ hf)) offset body
    simp only [readPieces, h field List.mem_cons_self, hrest]

/-- Parts with their fields, laid out one after the other from `offset` on. -/
def place : Nat → List (F × List α) → List (Piece F α)
  | _, [] => []
  | offset, part :: parts => ⟨part.1, offset, part.2⟩ :: place (offset + part.2.length) parts

/-- The elements of all parts. -/
def joined (parts : List (F × List α)) : List α := (parts.map Prod.snd).flatten

theorem joined_cons (part : F × List α) (parts : List (F × List α)) :
    joined (part :: parts) = part.2 ++ joined parts := rfl

theorem readPieces_place {take : F → List α → Option (List α × List α)}
    (parts : List (F × List α))
    (hparts : ∀ part ∈ parts, ∀ rest, take part.1 (part.2 ++ rest) = some (part.2, rest))
    (offset : Nat) :
    readPieces take offset (parts.map Prod.fst) (joined parts) = some (place offset parts) := by
  induction parts generalizing offset with
  | nil => rfl
  | cons part parts ih =>
    have hpart := hparts part List.mem_cons_self (joined parts)
    have hrest := ih (fun q hq => hparts q (List.mem_cons_of_mem _ hq)) (offset + part.2.length)
    rw [List.map_cons, joined_cons, readPieces, hpart, Option.bind_some, hrest, Option.map_some,
      place]

/-- Laying parts out leaves those of a kind as they are. -/
theorem place_filter (p : F → Bool) (parts : List (F × List α)) (offset : Nat) :
    ((place offset parts).filter fun piece => p piece.field).map Piece.bytes =
      (parts.filter fun part => p part.1).map Prod.snd := by
  induction parts generalizing offset with
  | nil => rfl
  | cons part parts ih =>
    rw [place, List.filter_cons, List.filter_cons]
    split
    · rw [List.map_cons, List.map_cons, ih]
    · exact ih _

end Libdsm
