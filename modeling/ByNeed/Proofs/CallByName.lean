/-
**Evaluation is call-by-name reduction.**

An interpreter remembers the values of the cells it has forced, resolves names when it meets them or
when their values are asked for, and applies what it can before the result is asked for. None of this
shows in the texts it answers: whatever was defined and evaluated before, an evaluation that answers
a text answers that of the tree which plain call-by-name reduction finds for the expression, where
each name unfolds to the body of its definition and nothing is remembered or reduced early
(`eval_shows`).
-/

import ByNeed.Proofs.History

namespace ByNeed.Interpreter

open Reduction

/-- **An evaluation that answers a text answers that of call-by-name reduction.** After any calls, the
text evaluated lists an expression, every demand for the data of its term has an answer under the
definitions made so far, and the tree found is shown as the text answered. -/
theorem eval_shows {calls : List (Nat × Call)} {depth : Nat} {code s : String} {later : Store}
    (returned : eval depth home code (reached calls) = .ok s later) :
    ∃ e tree, lex code = Expression.listing e ∧
      (e.term home).Shows (definitions calls) tree ∧ tree.text = s := by
  obtain ⟨terms, knows⟩ := knows_reached calls
  obtain ⟨-, e, tree, listed, -, shows, same⟩ := (eval_ensures depth code knows).ok returned
  exact ⟨e, tree, listed, shows, same⟩

/-- Names are used before they are defined, a batch fails after two of its lines, a call nests too
deeply, another applies a number, and a name stands for itself; what is answered later is that of
call-by-name reduction. -/
theorem eval_shows_after_failures :
    let calls : List (Nat × Call) :=
      [(20, .define "x = ap inc y\nrest = ap ap b cdr i\nz = ap 1 2\nw = 4"), (20, .eval "ap car x"),
        (20, .define "y = ap ap add 3 4\nloop = ap ap s i i"), (3, .eval "x"), (20, .eval "ap x loop")]
    let code := "ap ap cons x ap car ap rest ap ap cons loop ap ap cons 2 w"
    (eval 20 home code).verdict (reached calls) = .ok "(8 . 2)" ∧
      ∃ e tree, lex code = Expression.listing e ∧
        (e.term home).Shows (definitions calls) tree ∧ tree.text = "(8 . 2)" := by
  intro calls code
  have answered : (eval 20 home code).verdict (reached calls) = .ok "(8 . 2)" := by decide +kernel
  exact ⟨answered, eval_shows (Eval.eq_ok_of_verdict answered)⟩

end ByNeed.Interpreter
