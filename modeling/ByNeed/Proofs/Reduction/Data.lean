/-
**Data of call-by-name terms.**

The tree of a term is found by demanding the term and then, if it is a pair, the data of its first
half and of its second. A pair whose second half is a list is a longer list.

* `Term.Shows`: a term has a tree, so every part of it that is demanded has an answer;
* `Term.ShowFails`: the demands end in a mistake, the first one on the way;
* `Shows.unique`, `ShowFails.unique`, `Shows.not_showFails`: there is at most one outcome;
* `Shows.of_reduces`, `ShowFails.of_reduces`: early reduction does not change it.
-/

import ByNeed.Proofs.Reduction.Early
import ByNeed.Tree

namespace ByNeed

/-- The tree of a pair, given the trees of its halves. -/
def Tree.prepend (first : Tree) : Tree → Tree
  | .list elems => .list (first :: elems)
  | rest => .pair first rest

namespace Reduction

open Reduction.Action

/-- A weak head normal form is a function. -/
def Whnf.IsFunction : Whnf → Prop
  | .num _ => False
  | .nil => False
  | .pair _ _ => False
  | _ => True

theorem Whnf.Reduces.isFunction {defs : Glossary} {w w' : Whnf} (reduces : w.Reduces defs w')
    (function : w'.IsFunction) : w.IsFunction := by
  cases reduces <;> exact function

namespace Term

/-- **A term has a tree.** -/
inductive Shows (defs : Glossary) : Term → Tree → Prop
  | num {t : Term} {m : Nat} {n : Int} : Yields defs t.action m (.num n) → Shows defs t (.num n)
  | nil {t : Term} {m : Nat} : Yields defs t.action m .nil → Shows defs t (.list [])
  | pair {t head tail : Term} {m : Nat} {first rest : Tree} :
      Yields defs t.action m (.pair head tail) → Shows defs head first → Shows defs tail rest →
      Shows defs t (first.prepend rest)

/-- **The demands for the tree of a term end in a mistake** of a category. -/
inductive ShowFails (defs : Glossary) : Term → Category → Prop
  | fails {t : Term} {c : Category} : Fails defs t.action c → ShowFails defs t c
  | function {t : Term} {m : Nat} {w : Whnf} :
      Yields defs t.action m w → w.IsFunction → ShowFails defs t .notAList
  | head {t head tail : Term} {m : Nat} {c : Category} :
      Yields defs t.action m (.pair head tail) → ShowFails defs head c → ShowFails defs t c
  | tail {t head tail : Term} {m : Nat} {first : Tree} {c : Category} :
      Yields defs t.action m (.pair head tail) → Shows defs head first →
      ShowFails defs tail c → ShowFails defs t c

variable {defs : Glossary} {t u : Term} {tree other : Tree} {c d : Category}

/-! ### There is at most one outcome -/

/-- **A term has at most one tree.** -/
theorem Shows.unique (first : Shows defs t tree) (second : Shows defs t other) : tree = other := by
  induction first generalizing other with
  | num yields =>
    cases second with
    | num again =>
      cases (yields.unique again).2
      rfl
    | nil again => cases (yields.unique again).2
    | pair again => cases (yields.unique again).2
  | nil yields =>
    cases second with
    | num again => cases (yields.unique again).2
    | nil => rfl
    | pair again => cases (yields.unique again).2
  | pair yields _ _ ihHead ihTail =>
    cases second with
    | num again => cases (yields.unique again).2
    | nil again => cases (yields.unique again).2
    | pair again head tail =>
      cases (yields.unique again).2
      rw [ihHead head, ihTail tail]

/-- A term that has a tree does not fail to have one. -/
theorem Shows.not_showFails (shows : Shows defs t tree) (fails : ShowFails defs t c) : False := by
  induction shows generalizing c with
  | num yields =>
    cases fails with
    | fails fails => exact yields.not_fails fails
    | function again function =>
      cases (yields.unique again).2
      exact function
    | head again => cases (yields.unique again).2
    | tail again => cases (yields.unique again).2
  | nil yields =>
    cases fails with
    | fails fails => exact yields.not_fails fails
    | function again function =>
      cases (yields.unique again).2
      exact function
    | head again => cases (yields.unique again).2
    | tail again => cases (yields.unique again).2
  | pair yields _ _ ihHead ihTail =>
    cases fails with
    | fails fails => exact yields.not_fails fails
    | function again function =>
      cases (yields.unique again).2
      exact function
    | head again fails =>
      cases (yields.unique again).2
      exact ihHead fails
    | tail again _ fails =>
      cases (yields.unique again).2
      exact ihTail fails

/-- **The demands for a tree end in at most one mistake.** -/
theorem ShowFails.unique (first : ShowFails defs t c) (second : ShowFails defs t d) : c = d := by
  induction first generalizing d with
  | fails fails =>
    cases second with
    | fails again => exact fails.unique again
    | function yields => exact (yields.not_fails fails).elim
    | head yields => exact (yields.not_fails fails).elim
    | tail yields => exact (yields.not_fails fails).elim
  | function yields function =>
    cases second with
    | fails fails => exact (yields.not_fails fails).elim
    | function => rfl
    | head again =>
      cases (yields.unique again).2
      exact function.elim
    | tail again =>
      cases (yields.unique again).2
      exact function.elim
  | head yields fails ih =>
    cases second with
    | fails fails => exact (yields.not_fails fails).elim
    | function again function =>
      cases (yields.unique again).2
      exact function.elim
    | head again rest =>
      cases (yields.unique again).2
      exact ih rest
    | tail again shows =>
      cases (yields.unique again).2
      exact (shows.not_showFails fails).elim
  | tail yields shows _ ih =>
    cases second with
    | fails fails => exact (yields.not_fails fails).elim
    | function again function =>
      cases (yields.unique again).2
      exact function.elim
    | head again fails =>
      cases (yields.unique again).2
      exact (shows.not_showFails fails).elim
    | tail again _ rest =>
      cases (yields.unique again).2
      exact ih rest

/-! ### Early reduction -/

/-- A term that reduces early to one with a tree has that tree. -/
theorem Shows.of_reduces (shows : Shows defs u tree) (reduces : t.Reduces defs u) :
    Shows defs t tree := by
  induction shows generalizing t with
  | num yields =>
    obtain ⟨n, w, -, yields, related⟩ := reduces.yields yields
    cases related
    exact .num yields
  | nil yields =>
    obtain ⟨n, w, -, yields, related⟩ := reduces.yields yields
    cases related
    exact .nil yields
  | pair yields _ _ ihHead ihTail =>
    obtain ⟨n, w, -, yields, related⟩ := reduces.yields yields
    cases related with
    | pair head tail => exact .pair yields (ihHead head) (ihTail tail)

/-- A term that reduces early to one whose tree ends in a mistake ends in that mistake. -/
theorem ShowFails.of_reduces (fails : ShowFails defs u c) (reduces : t.Reduces defs u) :
    ShowFails defs t c := by
  induction fails generalizing t with
  | fails fails => exact .fails (reduces.fails fails)
  | function yields function =>
    obtain ⟨n, w, -, yields, related⟩ := reduces.yields yields
    exact .function yields (related.isFunction function)
  | head yields _ ih =>
    obtain ⟨n, w, -, yields, related⟩ := reduces.yields yields
    cases related with
    | pair head tail => exact .head yields (ih head)
  | tail yields shows _ ih =>
    obtain ⟨n, w, -, yields, related⟩ := reduces.yields yields
    cases related with
    | pair head tail => exact .tail yields (shows.of_reduces head) (ih tail)

end Term

end Reduction

end ByNeed
