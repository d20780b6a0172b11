/-
**Reading expressions.**

An expression is a numeral, a name, or `ap` followed by two expressions. The reader goes through the
tokens once and keeps, for every `ap` it is inside of, whether the operator has been read already
(`Pending`). An application is built as soon as its operand is complete, so building follows the
order of the text.

* `readExpr`: reads one expression from a sequence of tokens and also answers the tokens that are
  left, whether it succeeds or fails;
* `readFrom`: does the same with the tokens of a stream, taken one by one (`readFrom_left`);
* `parse`: reads a text that is one expression and nothing more.
-/

import ByNeed.Apply
import ByNeed.Environment
import ByNeed.TokenStream

namespace ByNeed.Reader

/-- The applications being read, the innermost first, each with its operator if that is complete. -/
abbrev Pending := List (Option CellId)

/-- What a complete expression leads to. -/
inductive Progress
  /-- More has to be read. -/
  | waiting (pending : Pending)
  /-- The outermost expression is complete. -/
  | complete (x : CellId)

/-- Hand a complete expression to the innermost application, and go on with that one if it is
complete with it. -/
def settle (depth : Nat) : Pending → CellId → Eval Progress
  | [], x => pure (.complete x)
  | none :: pending, x => pure (.waiting (some x :: pending))
  | some f :: pending, x => do settle depth pending (← apply depth f x)

/-- Take in one token. -/
def step (depth : Nat) (env : TableId) (pending : Pending) : Token → Eval Progress
  | .ap => pure (.waiting (none :: pending))
  | .number numeral => do
    let n ← Eval.ofExcept numeral.read
    settle depth pending (← Eval.value (.num n))
  | .symbol name => do settle depth pending (← Environment.reference env name)

/-- Read one expression, and answer what came of it with the tokens that are left. -/
def readExpr (depth : Nat) (env : TableId) :
    Pending → List Token → Eval (Except Failure CellId × List Token)
  | _, [] => pure (.error (.fault .unexpectedEnd), [])
  | pending, token :: rest => do
    match ← Eval.outcome (step depth env pending token) with
    | .error failure => pure (.error failure, rest)
    | .ok (.complete x) => pure (.ok x, rest)
    | .ok (.waiting pending) => readExpr depth env pending rest

/-- Read one expression from a stream, taking its tokens one by one, and answer what came of it with
the stream as it is then. -/
def readFrom (depth : Nat) (env : TableId) (pending : Pending) (stream : TokenStream) :
    Eval (Except Failure CellId × TokenStream) :=
  match _ : stream.advance with
  | (none, later) => pure (.error (.fault .unexpectedEnd), later)
  | (some token, later) => do
    match ← Eval.outcome (step depth env pending token) with
    | .error failure => pure (.error failure, later)
    | .ok (.complete x) => pure (.ok x, later)
    | .ok (.waiting pending) => readFrom depth env pending later
termination_by stream.left.length
decreasing_by exact TokenStream.length_left_lt ‹_›

/-- **Reading from a stream is reading the tokens that are left in it.** -/
theorem readFrom_left (depth : Nat) (env : TableId) (pending : Pending) (stream : TokenStream) :
    (readFrom depth env pending stream >>= fun read => pure (read.1, read.2.left)) =
      readExpr depth env pending stream.left := by
  fun_induction readFrom depth env pending stream with
  | case1 pending stream later taken =>
    obtain ⟨rfl, done⟩ := TokenStream.advance_eq_none taken
    rw [pure_bind, done, readExpr]
  | case2 pending stream token later taken ih =>
    rw [(TokenStream.advance_eq_some taken).1, readExpr, bind_assoc]
    congr 1
    funext result
    rcases result with failure | progress
    · rfl
    · cases progress with
      | complete x => rfl
      | waiting pending => exact ih pending

/-- Refuse tokens after the end. -/
def expectEnd : List Token → Eval Unit
  | [] => pure ()
  | token :: _ => Eval.fault (.excessiveToken token.text)

/-- Read a text that is one expression. -/
def parse (depth : Nat) (env : TableId) (code : String) : Eval CellId := do
  match ← readExpr depth env [] (lex code) with
  | (.error failure, _) => throw failure
  | (.ok x, rest) =>
    expectEnd rest
    pure x

/-- **Reading a text is reading from a stream of its tokens**, and expecting the end of the stream. -/
theorem parse_eq_readFrom (depth : Nat) (env : TableId) (code : String) :
    parse depth env code = (do
      let read ← readFrom depth env [] (.ofText code)
      let x ← Eval.ofExcept read.1
      Eval.ofExcept (read.2.expectEnd.1.mapError .fault)
      pure x) := by
  rw [parse, ← TokenStream.left_ofText, ← readFrom_left, bind_assoc]
  congr 1
  funext read
  rcases read with ⟨failure | x, stream⟩
  · rfl
  · rw [TokenStream.fst_expectEnd]
    cases stream.left with
    | nil => rfl
    | cons token rest => rfl

end ByNeed.Reader
