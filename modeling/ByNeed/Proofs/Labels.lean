/-
**Labels of cells.**

A proof may follow a run with labels on some of the cells of its store: what a cell is for, or what it
will come to. A label is given when the cell is added and stays as it is, so the labels of a later
store go on from those of an earlier one.

* `Labels.of`: the label of a cell;
* `Labels.of_mono`: **a label stays**;
* `Labels.of_append_cases`: with a new cell, a label is an old one or that of the new cell.
-/

import ByNeed.Proofs.Evolution

namespace ByNeed

/-- The labels of the cells, in the order of the cells. -/
abbrev Labels (α : Type) := List (Option α)

namespace Labels

variable {α : Type} {labels later : Labels α} {x : CellId} {a b : α} {store : Store}

/-- The label of a cell. -/
def of (labels : Labels α) (x : CellId) : Option α :=
  labels.getD x.index none

theorem lt_length (labelled : labels.of x = some a) : x.index < labels.length := by
  rcases Nat.lt_or_ge x.index labels.length with inside | outside
  · exact inside
  · simp [of, List.getD_eq_getElem?_getD, List.getElem?_eq_none outside] at labelled

theorem of_isPrefix (grown : labels <+: later) (inside : x.index < labels.length) :
    later.of x = labels.of x := by
  obtain ⟨more, rfl⟩ := grown
  simp [of, List.getElem?_append_left inside]

/-- **A label stays.** -/
theorem of_mono (labelled : labels.of x = some a) (grown : labels <+: later) :
    later.of x = some a := by
  rwa [of_isPrefix grown (lt_length labelled)]

/-- A new cell has the last label. -/
theorem of_alloc (length : labels.length = store.cells.size) (c : Cell) (label : Option α) :
    Labels.of (labels ++ [label]) (store.alloc c).1 = label := by
  have place : (store.alloc c).1 = ⟨labels.length⟩ := by
    rw [length]
    rfl
  simp [place, of]

/-- **A cell with a label** was there with it, or is the new cell. -/
theorem of_append_cases {label : Option α} (length : labels.length = store.cells.size) (c : Cell)
    (labelled : Labels.of (labels ++ [label]) x = some a) :
    store.Has x ∧ labels.of x = some a ∨ x = (store.alloc c).1 ∧ label = some a := by
  have grown : labels <+: labels ++ [label] := List.prefix_append labels [label]
  by_cases there : store.Has x
  · have inside : x.index < labels.length := by
      rw [length]
      exact there
    rw [of_isPrefix grown inside] at labelled
    exact Or.inl ⟨there, labelled⟩
  · have inside := lt_length labelled
    rw [List.length_append, length] at inside
    have new : x = (store.alloc c).1 :=
      ((Store.has_alloc_iff store c).mp (by simpa [Store.Has, Store.alloc] using inside)).resolve_left
        there
    rw [new, of_alloc length] at labelled
    exact Or.inr ⟨new, labelled⟩

end Labels

end ByNeed
