/-
**Evaluating a text again.**

An evaluation leaves values in the cells of the environment, so that evaluating the same text again
applies at once what it suspended before. Applying at once can fail where the result would never have
been asked for, and then the two evaluations differ (`eval_again_differs`). In every other case they
agree: both answer the same text, or both fail with errors of one class (`eval_again`).

The reason is that a text has at most one outcome under given definitions, which an evaluation that
does not fail early must find: `Misread.errorClass_eq` for reading it, `Refuses.errorClass_eq` and
`Refuses.not_shows` for the demands after that.
-/

import ByNeed.Proofs.History

namespace ByNeed

open Reduction

/-! ### Classes of errors -/

/-- The classes of failures: one for each family of faults, one for numbers beyond the limit on
digits, and one for nesting too deeply. -/
inductive ErrorClass
  | fault (category : Category)
  | digitLimit
  | nesting
deriving DecidableEq

/-- The class of a failure. -/
def Failure.errorClass : Failure → ErrorClass
  | .fault reason => .fault reason.category
  | .oversizeNumeral _ => .digitLimit
  | .oversizeNumber => .digitLimit
  | .depthExhausted => .nesting

/-- Tokens are misread in one way. -/
theorem Misread.errorClass_eq {tokens : List Token} {first second : Failure}
    (once : Misread tokens first) (again : Misread tokens second) :
    first.errorClass = second.errorClass := by
  cases once with
  | ends begins readable =>
    cases again with
    | ends _ _ => rfl
    | beyond found unreadable => exact (unreadable (readable _ (by simp [found]))).elim
    | exceeds _ _ => rfl
  | beyond found unreadable =>
    cases again with
    | ends _ readable => exact (unreadable (readable _ (by simp [found]))).elim
    | beyond _ _ => rfl
    | exceeds listed readable =>
      exact (Expression.Opened.not_listing readable unreadable (found.symm.trans listed)).elim
  | exceeds listed readable =>
    cases again with
    | ends _ _ => rfl
    | beyond found unreadable =>
      exact (Expression.Opened.not_listing readable unreadable (found.symm.trans listed)).elim
    | exceeds _ _ => rfl

namespace Interpreter

variable {defs : Glossary} {code : String} {first second : Failure}

/-- A text is refused in one way, unless it is refused early. -/
theorem Refuses.errorClass_eq (once : Refuses defs code first) (again : Refuses defs code second)
    (late : first.isEarly = false) (late' : second.isEarly = false) :
    first.errorClass = second.errorClass := by
  rcases once with early | misread | ⟨e, reason, listed, readable, rfl, fails⟩
  · rw [late] at early
    cases early
  · rcases again with early | misread' | ⟨e', reason', listed', readable', -, -⟩
    · rw [late'] at early
      cases early
    · exact misread.errorClass_eq misread'
    · exact (misread.not_listing listed' readable').elim
  · rcases again with early | misread' | ⟨e', reason', listed', -, rfl, fails'⟩
    · rw [late'] at early
      cases early
    · exact (misread'.not_listing listed readable).elim
    · obtain rfl := Expression.listing_injective (listed.symm.trans listed')
      show ErrorClass.fault _ = ErrorClass.fault _
      rw [fails.unique fails']

/-- A text whose expression has a tree is refused early or not at all. -/
theorem Refuses.not_shows {e : Expression} {tree : Tree} (refuses : Refuses defs code first)
    (late : first.isEarly = false) (listed : lex code = e.listing)
    (readable : ∀ token ∈ lex code, token.Readable) : ¬ (e.term home).Shows defs tree := by
  intro shows
  rcases refuses with early | misread | ⟨e', reason, listed', -, -, fails⟩
  · rw [late] at early
    cases early
  · exact misread.not_listing listed readable
  · obtain rfl := Expression.listing_injective (listed.symm.trans listed')
    exact shows.not_showFails fails

/-! ### Twice in a row -/

/-- An evaluation ended in a failure that an early reduction can end in. -/
def EndsEarly (verdict : Except Failure String) : Prop :=
  ∃ failure, verdict = .error failure ∧ failure.isEarly = true

theorem endsEarly_or_late (failure : Failure) :
    EndsEarly (.error failure) ∨ failure.isEarly = false := by
  cases early : failure.isEarly with
  | true => exact Or.inl ⟨failure, rfl, early⟩
  | false => exact Or.inr rfl

/-- **A text that is evaluated twice in a row has the same answer both times**, or errors of one
class, unless one of the two evaluations fails as an early reduction can. -/
theorem eval_again (calls : List (Nat × Call)) (depth depth' : Nat) (code : String) :
    let once := (eval depth home code).verdict (reached calls)
    let again := (eval depth' home code).verdict ((eval depth home code).after (reached calls))
    once.mapError Failure.errorClass = again.mapError Failure.errorClass ∨
      EndsEarly once ∨ EndsEarly again := by
  intro once again
  obtain ⟨terms, knows⟩ := knows_reached calls
  rcases (eval_ensures depth code knows).verdict with
    ⟨s, answered, ⟨terms₁, known⟩, e, tree, listed, readable, shows, same⟩ |
      ⟨failure, failed, ⟨terms₁, known⟩, refuses⟩
  · rcases (eval_ensures depth' code known).verdict with
      ⟨s', answered', -, e', tree', listed', -, shows', same'⟩ | ⟨failure', failed', -, refuses'⟩
    · left
      obtain rfl := Expression.listing_injective (listed.symm.trans listed')
      obtain rfl := shows.unique shows'
      rw [show once = .ok s from answered, show again = .ok s' from answered', ← same, same']
    · rcases endsEarly_or_late failure' with early | late
      · exact Or.inr (Or.inr ((show again = .error failure' from failed') ▸ early))
      · exact (refuses'.not_shows late listed readable shows).elim
  · rcases endsEarly_or_late failure with early | late
    · exact Or.inr (Or.inl ((show once = .error failure from failed) ▸ early))
    · rcases (eval_ensures depth' code known).verdict with
        ⟨s', -, -, e', tree', listed', readable', shows', -⟩ | ⟨failure', failed', -, refuses'⟩
      · exact (refuses.not_shows late listed' readable' shows').elim
      · rcases endsEarly_or_late failure' with early' | late'
        · exact Or.inr (Or.inr ((show again = .error failure' from failed') ▸ early'))
        · left
          rw [show once = .error failure from failed, show again = .error failure' from failed']
          show Except.error failure.errorClass = Except.error failure'.errorClass
          rw [refuses.errorClass_eq refuses' late late']

/-- **Evaluating a text again can fail, and can succeed.** The first evaluation of the first text
leaves a number in the cell that `g` is bound to, so that the second applies it while it reads the
operand that is never asked for. The first evaluation of the second text knows `h` only when it has
found that `ap inc 4` is a number, which it then applies; the second knows `h` from the start, and
suspends the application of `ap inc 4`, which is never asked for. -/
theorem eval_again_differs :
    (let calls : List (Nat × Call) := [(20, .define "g = ap inc 4")]
      let code := "ap ap add g ap ap t 7 ap g 1"
      (eval 20 home code).verdict (reached calls) = .ok "12" ∧
        (eval 20 home code).verdict ((eval 20 home code).after (reached calls)) =
          .error (.fault (.appliedNumber 5))) ∧
      (let calls : List (Nat × Call) := [(20, .define "h = ap k 0\nk = ap t ap b ap t 7")]
        let code := "ap ap ap s add ap ap c h 1 ap inc 4"
        (eval 20 home code).verdict (reached calls) = .error (.fault (.appliedNumber 5)) ∧
          (eval 20 home code).verdict ((eval 20 home code).after (reached calls)) = .ok "12") := by
  decide +kernel

end Interpreter

end ByNeed
