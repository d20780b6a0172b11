/-
**The order of answers.**

A term whose answer is found in fewer steps than that of an action precedes the action. A demand is
preceded by the term it demands and by all that precedes this term, so what is demanded on the way
to an answer never is the term itself (`Precedes.irrefl`): a term that demanded itself would have no
answer.

* `Precedes.passes`, `Precedes.reduces`: what precedes a later action, or one that an action reduces
  early to, precedes the action;
* `precedes_continued`, `precedes_demanded`: what an action goes on as or demands precedes it.
-/

import ByNeed.Proofs.Reduction.Early

namespace ByNeed.Reduction

open Reduction.Action

variable {defs : Glossary} {a a' b : Action} {t u : Term} {k : Frame} {m n : Nat} {v w : Whnf}

/-- **A term has its answer in fewer steps than an action**, if the action has one. -/
def Precedes (defs : Glossary) (t : Term) (a : Action) : Prop :=
  ∃ m v, Yields defs t.action m v ∧ ∀ n w, Yields defs a n w → m < n

/-- **A term does not precede itself.** -/
theorem Precedes.irrefl : ¬ Precedes defs t t.action := by
  rintro ⟨m, v, yields, fewer⟩
  exact Nat.lt_irrefl m (fewer m v yields)

/-- What precedes a term precedes what the term precedes. -/
theorem Precedes.trans (first : Precedes defs t u.action) (second : Precedes defs u a) :
    Precedes defs t a := by
  obtain ⟨m, v, yields, fewer⟩ := first
  obtain ⟨m', v', again, fewer'⟩ := second
  have less := fewer m' v' again
  exact ⟨m, v, yields, fun n' w' whole => Nat.lt_trans less (fewer' n' w' whole)⟩

theorem Precedes.passes (passes : Passes defs a b) (precedes : Precedes defs t b) :
    Precedes defs t a := by
  obtain ⟨m, v, yields, fewer⟩ := precedes
  refine ⟨m, v, yields, fun n w whole => ?_⟩
  obtain ⟨n', le, rest⟩ := passes.yields_later whole
  have below := fewer n' w rest
  omega

/-- Early reduction saves steps, so what precedes its result precedes the original. -/
theorem Precedes.reduces (reduces : a.Reduces defs a') (precedes : Precedes defs t a') :
    Precedes defs t a := by
  obtain ⟨m, v, yields, fewer⟩ := precedes
  refine ⟨m, v, yields, fun n w whole => ?_⟩
  obtain ⟨n', w', le, later, -⟩ := reduces.yields_later whole
  have below := fewer n' w' later
  omega

/-- What precedes an early reduction of the term that an action goes on as precedes the action. -/
theorem Precedes.continued {s : Term} (continues : Continues defs a t) (reduces : t.Reduces defs u)
    (precedes : Precedes defs s u.action) : Precedes defs s a := by
  obtain ⟨m, v, yields, fewer⟩ := precedes
  refine ⟨m, v, yields, fun n w whole => ?_⟩
  cases whole with
  | answer => cases continues
  | demand => cases continues
  | step again rest =>
    obtain rfl := continues.unique again
    obtain ⟨n', w', le, later, -⟩ := reduces.yields_later rest
    have below := fewer n' w' later
    omega

/-- What precedes a demanded term precedes the demand. -/
theorem Precedes.demanded (precedes : Precedes defs t u.action) :
    Precedes defs t (.demand u k) := by
  obtain ⟨m, v, yields, fewer⟩ := precedes
  refine ⟨m, v, yields, fun n' w' whole => ?_⟩
  cases whole with
  | step continues => cases continues
  | demand first rest =>
    have below := fewer _ _ first
    omega

/-- A demanded term precedes the demand. -/
theorem precedes_demanded (answers : Yields defs u.action n w) : Precedes defs u (.demand u k) := by
  refine ⟨n, w, answers, fun n' w' whole => ?_⟩
  cases whole with
  | step continues => cases continues
  | demand first rest =>
    obtain ⟨rfl, -⟩ := answers.unique first
    omega

/-- The result of an early reduction of the term that an action goes on as precedes the action. -/
theorem precedes_continued (continues : Continues defs a t) (reduces : t.Reduces defs u)
    (answers : Yields defs u.action n w) : Precedes defs u a := by
  refine ⟨n, w, answers, fun n' w' whole => ?_⟩
  obtain ⟨n'', w'', le, yields, -⟩ := reduces.yields answers
  obtain ⟨rfl, -⟩ := whole.unique (.step continues yields)
  omega

end ByNeed.Reduction
