/-
**Definitions.**

A batch of definitions is a text of lines `name = expression`. Blank lines are skipped, the name is
one word, and the separator, an equals sign with a space on either side, stands in a line once. The
lines take effect one by one, so a batch that fails keeps the definitions before the failing line.
-/

import ByNeed.Reader
import ByNeed.Text.Lines

namespace ByNeed.Definitions

/-- The parts of a line between separators. -/
def parts : List Char → List (List Char)
  | [] => [[]]
  | ' ' :: '=' :: ' ' :: rest => [] :: parts rest
  | c :: rest => Text.joinFirst c (parts rest)

/-- What a line is. -/
inductive Line
  | blank
  | definition (name body : List Char)
deriving DecidableEq

/-- What the line of the given number is, counted from one. -/
def Line.ofChars (number : Nat) (line : List Char) : Except Fault Line :=
  if Text.words line = [] then .ok .blank
  else match parts line with
    | [left, body] =>
      match Text.words left with
      | [name] => .ok (.definition name body)
      | _ => .error (.invalidName number left)
    | _ => .error (.malformedLine number line)

/-- Carry out one line, and answer how many names it defines. -/
def defineLine (depth : Nat) (env : TableId) (number : Nat) (line : List Char) : Eval Nat := do
  match Line.ofChars number line with
  | .error reason => Eval.fault reason
  | .ok .blank => pure 0
  | .ok (.definition name body) =>
    let x ← Reader.parse depth env (String.ofList body)
    Environment.define env (String.ofList name) x
    pure 1

/-- Carry out lines, the first of which has the given number, adding the names they define to
`count`. -/
def defineLines (depth : Nat) (env : TableId) : Nat → Nat → List (List Char) → Eval Nat
  | _, count, [] => pure count
  | number, count, line :: rest => do
    let defined ← defineLine depth env number line
    defineLines depth env (number + 1) (count + defined) rest

/-- Carry out a batch of definitions, and answer how many names it defines. -/
def load (depth : Nat) (env : TableId) (code : String) : Eval Nat :=
  defineLines depth env 1 0 (Text.lines code.toList)

end ByNeed.Definitions
