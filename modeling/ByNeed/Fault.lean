/-
**Faults and failures.**

A fault is a mistake of the program that is being read or run; each constructor is one cause, and
`Fault.message` says it in words. A failure is any way a computation can end without an answer: a
fault, a number beyond the limit on digits, or a nesting deeper than the depth it was given. Only
faults can be the cause of other faults.
-/

import ByNeed.Numeral
import ByNeed.Text.Quoted
import ByNeed.Value

namespace ByNeed

/-- The families of faults. -/
inductive Category
  | notApplicable
  | notAPair
  | notANumber
  | notAList
  | divisionByZero
  | duplicateSymbol
  | undefinedSymbol
  | malformedText
deriving DecidableEq

/-- A mistake of the program that is being read or run. -/
inductive Fault
  /-- A number stands where a function should. -/
  | appliedNumber (n : Int)
  /-- A half is taken of a value that is not a pair. -/
  | halfOf (side : Half) (kind : Kind)
  /-- An operation meets a value that is not a number. -/
  | notANumber (operation : String) (kind : Kind)
  /-- A number is asked whether it is the empty list. -/
  | isNilOfNumber
  /-- A function that is asked whether it is the empty list answers neither way. -/
  | isNilOfFunction (name : Option String)
  /-- A function that is asked whether it is the empty list fails on the question. -/
  | isNilFailed (name : Option String) (cause : Fault)
  /-- A list ends in a number. -/
  | listEndsInNumber (n : Int)
  /-- A list ends in a function. -/
  | listEndsInFunction
  /-- A function is part of data that is to be shown. -/
  | functionInTree
  /-- A function is part of data that is to be written as source. -/
  | functionInSource
  | divisionByZero
  | duplicateSymbol (name : String)
  | undefinedSymbol (name : String)
  /-- The text ends inside an expression. -/
  | unexpectedEnd
  /-- A token stands after the end of the expression. -/
  | excessiveToken (text : String)
  /-- A line is not a name and a body around one separator. -/
  | malformedLine (number : Nat) (line : List Char)
  /-- What a line defines is not one word. -/
  | invalidName (number : Nat) (name : List Char)
deriving DecidableEq

/-- How a function is shown: by its name, if it has one that is not empty. -/
def showFunc (name : Option String) : String :=
  match name with
  | none => "<func>"
  | some name => if name = "" then "<func>" else "<func " ++ name ++ ">"

namespace Fault

/-- The family of a fault. -/
def category : Fault → Category
  | .appliedNumber _ => .notApplicable
  | .halfOf _ _ => .notAPair
  | .notANumber _ _ => .notANumber
  | .isNilOfNumber => .notAPair
  | .isNilOfFunction _ => .notAPair
  | .isNilFailed _ _ => .notAPair
  | .listEndsInNumber _ => .notAList
  | .listEndsInFunction => .notAList
  | .functionInTree => .notAList
  | .functionInSource => .notAList
  | .divisionByZero => .divisionByZero
  | .duplicateSymbol _ => .duplicateSymbol
  | .undefinedSymbol _ => .undefinedSymbol
  | .unexpectedEnd => .malformedText
  | .excessiveToken _ => .malformedText
  | .malformedLine _ _ => .malformedText
  | .invalidName _ _ => .malformedText

/-- A fault in words. -/
def message : Fault → String
  | .appliedNumber n => "apply: not a function: " ++ decimal n
  | .halfOf side kind => side.name ++ ": not a pair: " ++ kind.word
  | .notANumber operation kind => operation ++ ": not a number: " ++ kind.word
  | .isNilOfNumber => "isnil: not a nil/cons: " ++ Kind.number.word
  | .isNilOfFunction name => "isnil: not a nil/cons: " ++ showFunc name
  | .isNilFailed name _ => "isnil: not a nil/cons: " ++ showFunc name
  | .listEndsInNumber n => "Not a list: reached number " ++ decimal n
  | .listEndsInFunction => "Not a list: reached " ++ Kind.function.word
  | .functionInTree => "Cannot materialize a " ++ Kind.function.word
  | .functionInSource => "Cannot render a " ++ Kind.function.word ++ " as source"
  | .divisionByZero => "div: division by zero"
  | .duplicateSymbol name => "Duplicated symbol: " ++ name
  | .undefinedSymbol name => "Undefined symbol " ++ name
  | .unexpectedEnd => "Unexpected end of input"
  | .excessiveToken text => "Excessive token " ++ text
  | .malformedLine number line =>
    "line " ++ decimal number ++ ": expected '<name> = <expr>': " ++
      String.ofList (Text.quoted line)
  | .invalidName number name =>
    "line " ++ decimal number ++ ": invalid name " ++ String.ofList (Text.quoted name)

/-- The fault that led to this one. -/
def cause? : Fault → Option Fault
  | .isNilFailed _ cause => some cause
  | _ => none

end Fault

/-- A way a computation can end without an answer. -/
inductive Failure
  | fault (reason : Fault)
  /-- A numeral to be read has more digits than the limit. -/
  | oversizeNumeral (digits : Nat)
  /-- A number to be written has more digits than the limit. -/
  | oversizeNumber
  /-- The computation nests deeper than the depth it was given, or a loop takes more rounds. -/
  | depthExhausted
deriving DecidableEq

/-- A failure in words. There are none for a depth that is exhausted. -/
def Failure.message : Failure → String
  | .fault reason => reason.message
  | .oversizeNumeral digits =>
    "Exceeds the limit (" ++ decimal digitLimit ++
      " digits) for integer string conversion: value has " ++ decimal digits ++
      " digits; use sys.set_int_max_str_digits() to increase the limit"
  | .oversizeNumber =>
    "Exceeds the limit (" ++ decimal digitLimit ++
      " digits) for integer string conversion; " ++
      "use sys.set_int_max_str_digits() to increase the limit"
  | .depthExhausted => ""

/-- The integer of a numeral within the limit. -/
def Numeral.read (numeral : Numeral) : Except Failure Int :=
  if numeral.readable then .ok numeral.toInt
  else .error (.oversizeNumeral numeral.digits.length)

end ByNeed
