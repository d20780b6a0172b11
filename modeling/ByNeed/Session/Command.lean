/-
**Commands and replies.**

A session is driven by commands, which name the registers they read and write. A step is a command
with the names of an environment and an evaluator; both must be set, also for a command that needs
neither. A reply describes what came of a command without forcing anything further.
-/

import ByNeed.Fault
import ByNeed.Token
import ByNeed.Tree
import ByNeed.Value

namespace ByNeed.Session

/-! ### Commands -/

/-- Ways to build a cell. -/
inductive Construction
  /-- Read an expression. -/
  | parse (code : String)
  | number (numeral : Numeral)
  | nil
  | truth (flag : Bool)
  | pair (head tail : String)
  /-- A pair of two integers. -/
  | point (x y : Numeral)
  | function (f : BareFunc)
  /-- A cell that leaves a label in the trace when it is forced, and then forces another. -/
  | probe (x label : String)
  /-- Apply a cell to several. -/
  | apply (f : String) (args : List String)
  | half (side : Half) (x : String)
  /-- Apply a program to its state and to a pair of two integers. -/
  | interact (program state : String) (x y : Numeral)
  /-- Read an expression from a stream of tokens. -/
  | streamExpr (stream : String)

/-- Work on environments and their definitions. -/
inductive EnvironmentCommand
  | create (target : String) (builtins : Bool)
  /-- A second name for the same table of definitions. -/
  | clone (target : String)
  /-- Carry out a batch of definitions. -/
  | load (code : String)
  | define (name x : String)
  | defineAll (items : List (String × String))
  /-- The cell that a name is bound to, kept in a register if one is named. -/
  | lookup (target : Option String) (name : String)
  | contains (name : String)
  | names
  | showBindings
  | showEnvironment

/-- Looking at cells and trees without forcing anything. -/
inductive Inspection
  | view (x : String)
  /-- Whether two registers have the very same cell. -/
  | same (x y : String)
  | showCell (x : String)
  | equalTrees (x y : String)

/-- Asking for values. -/
inductive Demand
  | force (x : String)
  /-- The integer of a cell; the operation is named if it has none. -/
  | integer (x operation : String)
  /-- Whether two cells are equal numbers or both the empty list. -/
  | equalNumbers (x y : String)
  | isNil (x : String)
  /-- The elements of a list, kept in numbered registers if a name for them is given. -/
  | elements (target : Option String) (x : String)
  | render (x : String)
  | source (x : String)
  | materialize (target : Option String) (x : String)
  /-- The text of the tree of an expression. -/
  | eval (code : String)
  /-- The tree of an expression. -/
  | materializeCode (code : String)

/-- Work on streams of tokens. -/
inductive StreamCommand
  | start (target code : String)
  | peek (stream : String)
  | advance (stream : String)
  | expectEnd (stream : String)

/-- What a session can be told to do. -/
inductive Command
  /-- Build a cell, and keep it in a register if one is named. -/
  | build (target : Option String) (construction : Construction)
  | environment (command : EnvironmentCommand)
  | newEvaluator (target : String)
  | inspect (inspection : Inspection)
  | demand (demand : Demand)
  | stream (command : StreamCommand)

/-- A command with the names of the environment and the evaluator it is given. -/
structure Step where
  env : String
  evaluator : String
  command : Command

/-! ### Replies -/

/-- A value as it is described: of the halves of a pair, only whether they hold values. -/
inductive ValueView
  | number (n : Int)
  | nil
  | pair (head tail : Bool)
  | function (name : Option String)
deriving DecidableEq

/-- A cell as it is described. -/
inductive CellView
  | suspended
  | value (view : ValueView)
deriving DecidableEq

/-- What came of a command. -/
inductive Reply
  | done
  | defined (count : Nat)
  | notFound
  | found (view : CellView)
  | contains (answer : Bool)
  | names (names : List String)
  | text (text : String)
  | cell (view : CellView)
  | same (answer : Bool)
  | value (view : ValueView)
  | integer (n : Int)
  | equal (answer : Bool)
  | isNil (answer : Bool)
  | elements (views : List CellView)
  | tree (tree : Tree)
  | token (token : Option Token)

/-- Why a command was not carried out. -/
inductive Refusal
  /-- A register, environment, evaluator or stream that it reads is not set. -/
  | unset (name : String)
  | failed (failure : Failure)

/-- The answer to a step: its outcome, the count of its evaluator after it, if there is such an
evaluator, and the labels of the probes that were run. -/
structure Answer where
  outcome : Except Refusal Reply
  count : Option Nat
  trace : List String

end ByNeed.Session
