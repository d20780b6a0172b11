/-
**Integers in settings.**

A setting is an integer written more freely than in source text: blanks around it, a plus or a minus
sign, the decimal digits of any script, and single underscores between digits. Text that is not such
an integer, or that has more digits than the limit, leaves the default:

* `digitOf?`: the value of a decimal digit of any script, as one of the ten digits;
* `Numeral.ofSetting?`: the numeral that a setting spells;
* `settingOr`: the integer of a setting, with a default.
-/

import ByNeed.Numeral
import ByNeed.Text.Blank

namespace ByNeed

/-! ### Decimal digits of every script -/

/-- The code points of the digits zero; each is followed by the digits one to nine of its script. -/
def zeros : List Nat :=
  [0x30, 0x660, 0x6F0, 0x7C0, 0x966, 0x9E6, 0xA66, 0xAE6, 0xB66, 0xBE6, 0xC66, 0xCE6, 0xD66, 0xDE6,
    0xE50, 0xED0, 0xF20, 0x1040, 0x1090, 0x17E0, 0x1810, 0x1946, 0x19D0, 0x1A80, 0x1A90, 0x1B50,
    0x1BB0, 0x1C40, 0x1C50, 0xA620, 0xA8D0, 0xA900, 0xA9D0, 0xA9F0, 0xAA50, 0xABF0, 0xFF10, 0x104A0,
    0x10D30, 0x11066, 0x110F0, 0x11136, 0x111D0, 0x112F0, 0x11450, 0x114D0, 0x11650, 0x116C0,
    0x11730, 0x118E0, 0x11950, 0x11C50, 0x11D50, 0x11DA0, 0x16A60, 0x16AC0, 0x16B50, 0x1D7CE,
    0x1D7D8, 0x1D7E2, 0x1D7EC, 0x1D7F6, 0x1E140, 0x1E2F0, 0x1E950, 0x1FBF0]

/-- A decimal digit of any script as one of the ten digits. -/
def digitOf? (c : Char) : Option Char :=
  (zeros.find? fun start => start ≤ c.toNat && c.toNat < start + 10).map fun start =>
    Nat.digitChar (c.toNat - start)

/-! ### Settings -/

/-- The digits of a run in which single underscores may stand between digits. -/
def groupedDigits? : List Char → Option (List Char)
  | [] => none
  | [c] => (digitOf? c).map fun digit => [digit]
  | c :: '_' :: rest => do
    let digit ← digitOf? c
    let digits ← groupedDigits? rest
    pure (digit :: digits)
  | c :: rest => do
    let digit ← digitOf? c
    let digits ← groupedDigits? rest
    pure (digit :: digits)

/-- The numeral that one word of a setting spells. -/
def Numeral.ofWord? : List Char → Option Numeral
  | '-' :: run => (groupedDigits? run).map fun digits => ⟨true, digits⟩
  | '+' :: run => (groupedDigits? run).map fun digits => ⟨false, digits⟩
  | run => (groupedDigits? run).map fun digits => ⟨false, digits⟩

/-- The numeral that a setting spells: its only word does. -/
def Numeral.ofSetting? (text : String) : Option Numeral :=
  match Text.words text.toList with
  | [word] => Numeral.ofWord? word
  | _ => none

/-- The integer of a setting, or the default if it is absent, spells none or exceeds the limit. -/
def settingOr (default : Int) (setting : Option String) : Int :=
  match setting.bind Numeral.ofSetting? with
  | some numeral => if numeral.readable then numeral.toInt else default
  | none => default

end ByNeed
