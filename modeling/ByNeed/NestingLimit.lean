/-
**The nesting limit.**

An evaluator asks its host to allow a certain nesting of calls. The host's limit is raised to what
is asked for and never lowered. What an evaluator asks for is given to it, or comes from a setting,
or is the default.

* `wanted`: what an evaluator asks for;
* `ensure`, `ensureAll`: the limit after one demand, and after each of several;
* `le_ensure`, `asked_le_ensure`: a demand lowers no limit, and is met.
-/

import ByNeed.Event
import ByNeed.Numeral.Setting

namespace ByNeed.NestingLimit

/-- The limit that is asked for when nothing else says. -/
def default : Int := 20000

/-- The limit that a setting asks for. -/
def ofSetting (setting : Option String) : Int :=
  settingOr default setting

/-- The limit that an evaluator asks for: the one it is given, unless that is zero, or the
setting's. -/
def wanted (given : Option Int) (setting : Option String) : Int :=
  match given with
  | some limit => if limit = 0 then ofSetting setting else limit
  | none => ofSetting setting

/-- Raise a limit to at least what is asked for, and tell whether that changed it. -/
def ensure (current asked : Int) : Int × List Event :=
  if current < asked then (asked, [.raisedLimit current asked]) else (current, [])

/-- A demand lowers no limit. -/
theorem le_ensure (current asked : Int) : current ≤ (ensure current asked).1 := by
  unfold ensure
  split <;> simp only <;> omega

/-- A demand is met. -/
theorem asked_le_ensure (current asked : Int) : asked ≤ (ensure current asked).1 := by
  unfold ensure
  split <;> simp only <;> omega

/-- The limits after each of several demands, and the changes, in order. -/
def ensureAll (current : Int) : List Int → List Int × List Event
  | [] => ([], [])
  | asked :: rest =>
    let (limit, events) := ensure current asked
    let (limits, later) := ensureAll limit rest
    (limit :: limits, events ++ later)

end ByNeed.NestingLimit
