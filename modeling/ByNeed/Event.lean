/-
**Events.**

What happens beside the answers and is kept on record: that the builtins were defined, that a batch
of definitions was read to its end, that the nesting limit was raised.
-/

import ByNeed.Numeral

namespace ByNeed

/-- What is kept on record. -/
inductive Event
  | registeredBuiltins (count : Nat)
  | parsedDefinitions (count : Nat)
  | raisedLimit (before after : Int)
deriving DecidableEq

/-- An event in words. -/
def Event.message : Event → String
  | .registeredBuiltins count => "registered " ++ decimal count ++ " builtins"
  | .parsedDefinitions count => "parsed " ++ decimal count ++ " definitions"
  | .raisedLimit before after =>
    "raising recursion limit from " ++ decimal before ++ " to " ++ decimal after

end ByNeed
