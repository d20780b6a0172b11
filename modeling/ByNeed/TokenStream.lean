/-
**Streams of tokens.**

A stream hands out the tokens of a text, one after the other. The next token can be looked at before
it is taken; it is then held in a buffer, and the buffer is emptied first. The tokens that were taken
are kept on record and decide nothing.

* `TokenStream.peek`, `TokenStream.advance`: look at the next token, and take it;
* `TokenStream.left`: the tokens that are still to be taken;
* `left_peek`, `advance_eq_some`, `advance_eq_none`: what looking at a token and taking it do to them.
-/

import ByNeed.Fault
import ByNeed.Token

namespace ByNeed

/-- The tokens of a text, in the course of being taken. -/
structure TokenStream where
  /-- The token that has been looked at and not been taken. -/
  buffer : Option Token
  /-- The tokens that have not been looked at. -/
  unread : List Token
  /-- The tokens that have been taken, the latest first. -/
  taken : List Token
deriving DecidableEq

namespace TokenStream

/-- A stream of the tokens of a text. -/
def ofText (code : String) : TokenStream :=
  ⟨none, lex code, []⟩

/-- The next token, which stays in the stream. -/
def peek (stream : TokenStream) : Option Token × TokenStream :=
  match stream.buffer, stream.unread with
  | some token, _ => (some token, stream)
  | none, [] => (none, stream)
  | none, token :: rest => (some token, { stream with buffer := some token, unread := rest })

/-- The next token, which is taken out of the stream. -/
def advance (stream : TokenStream) : Option Token × TokenStream :=
  match stream.buffer, stream.unread with
  | some token, _ => (some token, { stream with buffer := none, taken := token :: stream.taken })
  | none, [] => (none, stream)
  | none, token :: rest =>
    (some token, { stream with unread := rest, taken := token :: stream.taken })

/-- Refuse a token that is left, by looking at it. -/
def expectEnd (stream : TokenStream) : Except Fault Unit × TokenStream :=
  match stream.peek with
  | (none, later) => (.ok (), later)
  | (some token, later) => (.error (.excessiveToken token.text), later)

/-- The tokens that are still to be taken, in order. -/
def left (stream : TokenStream) : List Token :=
  stream.buffer.toList ++ stream.unread

/-- The tokens that have been taken, in order. -/
def consumed (stream : TokenStream) : List Token :=
  stream.taken.reverse

@[simp]
theorem left_ofText (code : String) : (ofText code).left = lex code :=
  rfl

@[simp]
theorem consumed_ofText (code : String) : (ofText code).consumed = [] :=
  rfl

theorem fst_peek (stream : TokenStream) : stream.peek.1 = stream.left.head? := by
  rcases stream with ⟨_ | token, _ | ⟨next, rest⟩, taken⟩ <;> rfl

@[simp]
theorem left_peek (stream : TokenStream) : stream.peek.2.left = stream.left := by
  rcases stream with ⟨_ | token, _ | ⟨next, rest⟩, taken⟩ <;> rfl

@[simp]
theorem consumed_peek (stream : TokenStream) : stream.peek.2.consumed = stream.consumed := by
  rcases stream with ⟨_ | token, _ | ⟨next, rest⟩, taken⟩ <;> rfl

theorem fst_expectEnd (stream : TokenStream) :
    stream.expectEnd.1 =
      match stream.left with
      | [] => .ok ()
      | token :: _ => .error (.excessiveToken token.text) := by
  rcases stream with ⟨_ | token, _ | ⟨next, rest⟩, taken⟩ <;> rfl

theorem snd_expectEnd (stream : TokenStream) : stream.expectEnd.2 = stream.peek.2 := by
  unfold expectEnd
  split <;> simp_all

/-- The token that is taken is the first of those that were left. -/
theorem advance_eq_some {stream later : TokenStream} {token : Token}
    (taken : stream.advance = (some token, later)) :
    stream.left = token :: later.left ∧ later.consumed = stream.consumed ++ [token] := by
  rcases stream with ⟨_ | held, _ | ⟨next, rest⟩, before⟩ <;> cases taken
  all_goals exact ⟨rfl, List.reverse_cons⟩

theorem fst_advance (stream : TokenStream) : stream.advance.1 = stream.left.head? := by
  rcases stream with ⟨_ | token, _ | ⟨next, rest⟩, taken⟩ <;> rfl

/-- Taking a token moves it from those that are left to those taken. -/
theorem advance_split (stream : TokenStream) :
    stream.advance.1.toList ++ stream.advance.2.left = stream.left ∧
      stream.advance.2.consumed = stream.consumed ++ stream.advance.1.toList := by
  rcases stream with ⟨_ | token, _ | ⟨next, rest⟩, taken⟩ <;>
    simp [advance, left, consumed]

theorem length_left_lt {stream later : TokenStream} {token : Token}
    (taken : stream.advance = (some token, later)) : later.left.length < stream.left.length := by
  rw [(advance_eq_some taken).1]
  exact Nat.lt_succ_self _

/-- Where no token is taken, none is left. -/
theorem advance_eq_none {stream later : TokenStream} (taken : stream.advance = (none, later)) :
    later = stream ∧ stream.left = [] := by
  rcases stream with ⟨_ | held, _ | ⟨next, rest⟩, before⟩ <;> cases taken
  exact ⟨rfl, rfl⟩

end TokenStream

end ByNeed
