/-
**Numerals.**

An integer is written with an optional minus sign and decimal digits. A numeral keeps its digits, so
leading zeros and a minus before zero are part of it, while its value forgets them. Numbers of more
than `digitLimit` digits are neither read nor written:

* `Numeral.ofChars?`: the numeral a text spells, if it spells one;
* `Numeral.ofInt`, `Numeral.toInt`: the shortest numeral of an integer, and the value of a numeral;
* `Numeral.toInt_ofInt`: the shortest numeral has the integer as its value;
* `writable_iff`: a number is writable exactly if its shortest numeral is within the limit.
-/

namespace ByNeed

/-- A minus sign or none, and decimal digits, the most significant first. -/
structure Numeral where
  negative : Bool
  digits : List Char
deriving DecidableEq

namespace Numeral

/-! ### Spelling -/

/-- The characters of a numeral. -/
def chars (numeral : Numeral) : List Char :=
  if numeral.negative then '-' :: numeral.digits else numeral.digits

/-- The text of a numeral. -/
def text (numeral : Numeral) : String :=
  String.ofList numeral.chars

/-- A non-empty run of the ten digits. -/
def isDigitRun (chars : List Char) : Bool :=
  !chars.isEmpty && chars.all Char.isDigit

/-- The numeral that a text spells: at most a minus sign, then one digit or more, and no more. -/
def ofChars? (chars : List Char) : Option Numeral :=
  match chars with
  | '-' :: digits => if isDigitRun digits then some ⟨true, digits⟩ else none
  | digits => if isDigitRun digits then some ⟨false, digits⟩ else none

/-! ### Values -/

/-- The integer that a numeral stands for. -/
def toInt (numeral : Numeral) : Int :=
  if numeral.negative then -(Nat.ofDigitChars 10 numeral.digits 0 : Int)
  else (Nat.ofDigitChars 10 numeral.digits 0 : Int)

/-- The shortest numeral of an integer. -/
def ofInt (n : Int) : Numeral :=
  ⟨n < 0, Nat.toDigits 10 n.natAbs⟩

/-- The shortest numeral of an integer has the integer as its value. -/
theorem toInt_ofInt (n : Int) : (ofInt n).toInt = n := by
  simp only [ofInt, toInt, Nat.ofDigitChars_ten_toDigits, decide_eq_true_eq]
  split <;> omega

end Numeral

/-! ### The limit on digits -/

/-- The most digits a number may have when it is read or written. -/
def digitLimit : Nat := 4300

/-- The least number of more than `digits` digits. -/
def leastBeyond (digits : Nat) : Nat := Nat.pow 10 digits

/-- The least number with more digits than the limit. -/
def digitBound : Nat := leastBeyond digitLimit

/-- A numeral within the limit can be read; leading zeros count. -/
def Numeral.readable (numeral : Numeral) : Bool :=
  numeral.digits.length ≤ digitLimit

/-- A number within the limit can be written. -/
def writable (n : Int) : Bool :=
  n.natAbs < digitBound

/-- A number has at most `digits` digits exactly if it is below the least that has more. -/
theorem lt_leastBeyond_iff (n : Nat) {digits : Nat} (positive : 0 < digits) :
    n < leastBeyond digits ↔ (Nat.toDigits 10 n).length ≤ digits :=
  (Nat.length_toDigits_le_iff (show 1 < 10 by decide) positive).symm

/-- A number is writable exactly if its shortest numeral is within the limit. -/
theorem writable_iff (n : Int) : writable n = true ↔ (Numeral.ofInt n).readable = true := by
  unfold writable Numeral.readable
  rw [decide_eq_true_iff, decide_eq_true_iff]
  exact lt_leastBeyond_iff n.natAbs (show 0 < digitLimit by decide)

/-- The text of an integer. -/
def decimal (n : Int) : String :=
  (Numeral.ofInt n).text

end ByNeed
