/-
**Batches of definitions compose.**

A text that is made of two texts with a line feed between them has the lines of the one and then the
lines of the other, whatever breaks the first ends in and the second begins with; at most there is a
blank line more, which defines nothing. So carrying it out comes to carrying out the first text and,
if that succeeds, the second.

* `Text.exists_lines_append`: the lines of the joined text;
* `Failure.lowered`: the same failure, with the line that it names further down;
* `parse_unnumbered`: reading a body names no line;
* `defineLines_append`, `defineLines_lowered`: lines after other lines, and lines further down;
* `batches_compose`: **the joined text does what the two texts do**, one after the other.
-/

import ByNeed.Proofs.Bindings.Log
import ByNeed.Proofs.Grammar
import ByNeed.Proofs.NilQuestion
import ByNeed.Proofs.Repetition

namespace ByNeed

/-! ### Lines -/

namespace Text

/-- A break ends the line it starts, unless it is a carriage return that a line feed follows. -/
theorem lines_cons_of_break {c : Char} {text : List Char} (breaks : isBreak c = true)
    (alone : ∀ rest, c = '\r' → text = '\n' :: rest → False) :
    lines (c :: text) = [] :: lines text := by
  rw [lines.eq_3 c text alone, if_pos breaks]

/-- Any other character joins the first line of the rest. -/
theorem lines_cons_of_not_break {c : Char} (joins : isBreak c = false) (text : List Char) :
    lines (c :: text) = joinFirst c (lines text) := by
  have alone : ∀ rest, c = '\r' → text = '\n' :: rest → False := by
    rintro rest rfl -
    exact nomatch joins.symm.trans (show isBreak '\r' = true by decide)
  rw [lines.eq_3 c text alone, if_neg (by simp [joins])]

theorem lines_cons_ne_nil (c : Char) (text : List Char) : lines (c :: text) ≠ [] := by
  by_cases merged : c = '\r' ∧ ∃ rest, text = '\n' :: rest
  · obtain ⟨rfl, rest, rfl⟩ := merged
    exact List.cons_ne_nil _ _
  · rw [lines.eq_3 c text fun rest same begins => merged ⟨same, rest, begins⟩]
    split
    · exact List.cons_ne_nil _ _
    · cases lines text <;> exact List.cons_ne_nil _ _

/-- **The lines of two texts with a line feed between them**: those of the first, those of the second,
and between them a blank line at most. -/
theorem exists_lines_append (first : List Char) :
    ∃ between : List (List Char), (between = [] ∨ between = [[]]) ∧ ∀ second,
      lines (first ++ '\n' :: second) = lines first ++ between ++ lines second := by
  fun_induction lines first with
  | case1 => exact ⟨[[]], Or.inr rfl, lines_lineFeed⟩
  | case2 rest ih =>
    obtain ⟨between, blank, joined⟩ := ih
    refine ⟨between, blank, fun second => ?_⟩
    simp only [List.cons_append, lines, joined]
  | case3 c rest alone breaks ih =>
    by_cases merged : c = '\r' ∧ rest = []
    -- The line feed belongs to the carriage return that the first text ends in.
    · obtain ⟨rfl, rfl⟩ := merged
      exact ⟨[], Or.inl rfl, fun second => by simp [lines]⟩
    · obtain ⟨between, blank, joined⟩ := ih
      refine ⟨between, blank, fun second => ?_⟩
      have apart : ∀ more, c = '\r' → rest ++ '\n' :: second = '\n' :: more → False := by
        rintro more rfl begins
        cases rest with
        | nil => exact merged ⟨rfl, rfl⟩
        | cons d rest =>
          obtain ⟨rfl, -⟩ := List.cons.inj begins
          exact alone rest rfl rfl
      rw [List.cons_append, lines_cons_of_break breaks apart, joined]
      rfl
  | case4 c rest alone joins ih =>
    have joins : isBreak c = false := by simpa using joins
    simp only [List.cons_append, lines_cons_of_not_break joins]
    cases rest with
    -- The line feed ends the line that the first text ends in.
    | nil => exact ⟨[], Or.inl rfl, fun second => by rw [List.nil_append, lines_lineFeed]; rfl⟩
    | cons d rest =>
      obtain ⟨between, blank, joined⟩ := ih
      obtain ⟨line, more, split⟩ := List.exists_cons_of_ne_nil (lines_cons_ne_nil d rest)
      exact ⟨between, blank, fun second => by rw [joined, split]; rfl⟩

end Text

/-! ### Failures that name a line -/

/-- The same fault, with the line that it names further down by a number of lines. -/
def Fault.lowered (above : Nat) : Fault → Fault
  | .malformedLine number line => .malformedLine (above + number) line
  | .invalidName number name => .invalidName (above + number) name
  | reason => reason

/-- **The same failure, with the line that it names further down** by a number of lines. -/
def Failure.lowered (above : Nat) : Failure → Failure
  | .fault reason => .fault (reason.lowered above)
  | failure => failure

/-- A failure is of the same class wherever its line is. -/
theorem Failure.errorClass_lowered (above : Nat) (failure : Failure) :
    (failure.lowered above).errorClass = failure.errorClass := by
  cases failure with
  | fault reason => cases reason <;> rfl
  | _ => rfl

/-- **A computation names no line** in its failures. -/
def Unnumbered {α : Type} (computation : Eval α) : Prop :=
  ∀ store, computation.Ensures store (fun _ _ => True) fun failure _ =>
    ∀ above, failure.lowered above = failure

section Unnumbered

variable {α β : Type} {depth : Nat} {env : TableId}

theorem Unnumbered.pure (a : α) : Unnumbered (pure a) :=
  fun _ => trivial

theorem Unnumbered.bind {computation : Eval α} {next : α → Eval β} (first : Unnumbered computation)
    (rest : ∀ a, Unnumbered (next a)) : Unnumbered (computation >>= next) :=
  fun store => (first store).bind (fun a later _ => rest a later) fun _ _ named => named

theorem apply_unnumbered (depth : Nat) (f x : CellId) : Unnumbered (apply depth f x) := by
  intro store
  refine (apply_blames depth f x store).mono (fun _ _ holds => holds) ?_
  intro failure later blamed above
  cases blamed <;> rfl

theorem reference_unnumbered (env : TableId) (name : String) :
    Unnumbered (Environment.reference env name) := by
  intro store
  cases found : (store.table env).lookup name with
  | some x =>
    unfold Eval.Ensures
    rw [reference_of_bound found]
    trivial
  | none =>
    unfold Eval.Ensures
    rw [reference_of_unbound found]
    trivial

theorem build_unnumbered (e : Expression) : Unnumbered (e.build depth env) := by
  induction e with
  | number numeral =>
    have read : Unnumbered (Eval.ofExcept numeral.read) := by
      intro store
      unfold Numeral.read
      split
      · trivial
      · exact fun _ => rfl
    exact read.bind fun n store => trivial
  | symbol name => exact reference_unnumbered env name
  | ap operator operand ihOperator ihOperand =>
    exact ihOperator.bind fun f => ihOperand.bind fun x => apply_unnumbered depth f x

theorem opened_unnumbered (opened : Expression.Opened) : Unnumbered (opened.build depth env) := by
  induction opened with
  | nil => exact .pure _
  | cons frame outer ih =>
    cases frame with
    | none => exact ih.bind fun pending => .pure _
    | some operator =>
      exact ih.bind fun pending => (build_unnumbered operator).bind fun f => .pure _

/-- **Reading an expression names no line.** -/
theorem parse_unnumbered (depth : Nat) (env : TableId) (code : String) :
    Unnumbered (Reader.parse depth env code) := by
  have fault : ∀ reason : Fault, (∀ above, reason.lowered above = reason) →
      Unnumbered (Eval.fault reason : Eval CellId) :=
    fun reason same _ above => congrArg Failure.fault (same above)
  obtain ⟨phrase, listed⟩ := Phrase.exists_tokens (lex code)
  rw [Reader.parse_eq_build listed]
  cases phrase with
  | whole e => exact build_unnumbered e
  | unfinished opened => exact (opened_unnumbered opened).bind fun _ => fault _ fun _ => rfl
  | followed e token rest => exact (build_unnumbered e).bind fun _ => fault _ fun _ => rfl

/-- Binding a name names no line. -/
theorem define_unnumbered (env : TableId) (name : String) (x : CellId) :
    Unnumbered (Environment.define env name x) := by
  intro store
  unfold Eval.Ensures
  cases found : (store.table env).lookup name with
  | some y =>
    rw [define_of_bound found]
    exact fun _ => rfl
  | none =>
    rw [define_of_unbound found]
    trivial

end Unnumbered

/-! ### Lines further down -/

open Definitions (Line defineLine defineLines)

/-- The outcome of lines that stand below others, whose number and whose definitions are given. -/
def lowered (above before : Nat) :
    EStateM.Result Failure Store Nat → EStateM.Result Failure Store Nat
  | .ok count later => .ok (before + count) later
  | .error failure later => .error (failure.lowered above) later

variable (depth : Nat) (env : TableId)

theorem Unnumbered.lowered_eq {computation : Eval Nat} (unnumbered : Unnumbered computation)
    (above : Nat) (store : Store) : lowered above 0 (computation store) = computation store := by
  cases ended : computation store with
  | ok count later => rw [lowered, Nat.zero_add]
  | error failure later => rw [lowered, (unnumbered store).error ended above]

/-- What a line is does not depend on its number. -/
theorem ofChars_lowered (above number : Nat) (line : List Char) :
    Line.ofChars (above + number) line =
      (Line.ofChars number line).mapError (Fault.lowered above) := by
  unfold Line.ofChars
  split
  · rfl
  · split
    · split <;> rfl
    · rfl

/-- **A line further down** does the same, and a failure names it further down. -/
theorem defineLine_lowered (above number : Nat) (line : List Char) (store : Store) :
    defineLine depth env (above + number) line store =
      lowered above 0 (defineLine depth env number line store) := by
  unfold defineLine
  rw [ofChars_lowered]
  cases Line.ofChars number line with
  | error reason => rfl
  | ok content =>
    cases content with
    | blank => rfl
    | definition name body =>
      have unnumbered : Unnumbered (do
          let x ← Reader.parse depth env (String.ofList body)
          Environment.define env (String.ofList name) x
          pure 1 : Eval Nat) :=
        (parse_unnumbered depth env _).bind fun x => (define_unnumbered env _ x).bind fun _ => .pure 1
      exact (unnumbered.lowered_eq above store).symm

/-- **Lines further down** do the same, and add to the definitions before them. -/
theorem defineLines_lowered (above before number count : Nat) (lines : List (List Char))
    (store : Store) :
    defineLines depth env (above + number) (before + count) lines store =
      lowered above before (defineLines depth env number count lines store) := by
  induction lines generalizing number count store with
  | nil => rfl
  | cons line rest ih =>
    rw [defineLines, defineLines]
    have first := defineLine_lowered depth env above number line store
    cases ended : defineLine depth env number line store with
    | error failure later =>
      rw [ended] at first
      rw [bind_of_error ended, bind_of_error first]
      rfl
    | ok defined later =>
      rw [ended, lowered, Nat.zero_add] at first
      rw [bind_of_ok ended, bind_of_ok first, Nat.add_assoc above, Nat.add_assoc before]
      exact ih (number + 1) (count + defined) later

/-- **Lines after other lines.** -/
theorem defineLines_append (number count : Nat) (first second : List (List Char)) :
    defineLines depth env number count (first ++ second) = (do
      let total ← defineLines depth env number count first
      defineLines depth env (number + first.length) total second) := by
  induction first generalizing number count with
  | nil => rfl
  | cons line rest ih =>
    rw [List.cons_append, defineLines, defineLines, bind_assoc]
    refine bind_congr fun defined => ?_
    rw [ih, List.length_cons, Nat.add_assoc, Nat.add_comm 1]

/-- A blank line defines nothing. -/
theorem defineLines_blank {between : List (List Char)} (blank : between = [] ∨ between = [[]])
    (number count : Nat) (lines : List (List Char)) :
    defineLines depth env number count (lines ++ between) =
      defineLines depth env number count lines := by
  rw [defineLines_append]
  rcases blank with rfl | rfl
  · exact bind_pure _
  · exact bind_pure _

/-- **Batches of definitions compose.** Carrying out two texts with a line feed between them is
carrying out the first text, and if that succeeds, the second, in the store that the first has left:
the store after it is the same, with the same cells and the same bindings in the same order, the names
that it defines are counted together, and it fails as the one that fails does. Only, where the second
text fails in a line that is not a definition, the line is named with its number in the whole text; the
class of the failure is the same. -/
theorem batches_compose (first second : String) (store : Store) :
    (Definitions.load depth env (first ++ "\n" ++ second) store =
      match Definitions.load depth env first store with
      | .error failure later => .error failure later
      | .ok m later =>
        match Definitions.load depth env second later with
        | .error failure last =>
          .error (failure.lowered (Text.lines (first ++ "\n").toList).length) last
        | .ok n last => .ok (m + n) last) ∧
      ∀ above failure, (Failure.lowered above failure).errorClass = failure.errorClass := by
  refine ⟨?_, Failure.errorClass_lowered⟩
  obtain ⟨between, blank, joined⟩ := Text.exists_lines_append first.toList
  have ended : Text.lines (first ++ "\n").toList = Text.lines first.toList ++ between := by
    rw [String.toList_append]
    exact (joined []).trans (List.append_nil _)
  have whole : Text.lines (first ++ "\n" ++ second).toList =
      Text.lines first.toList ++ between ++ Text.lines second.toList := by
    rw [String.toList_append, String.toList_append, List.append_assoc]
    exact joined second.toList
  unfold Definitions.load
  rw [whole, defineLines_append, defineLines_blank depth env blank, ← ended]
  cases carried : defineLines depth env 1 0 (Text.lines first.toList) store with
  | error failure later => exact bind_of_error carried
  | ok m later =>
    rw [bind_of_ok carried, Nat.add_comm 1]
    have further := defineLines_lowered depth env (Text.lines (first ++ "\n").toList).length m 1 0
      (Text.lines second.toList) later
    cases ending : defineLines depth env 1 0 (Text.lines second.toList) later with
    | error failure last =>
      simp only [ending]
      rwa [ending] at further
    | ok n last =>
      simp only [ending]
      rwa [ending] at further

end ByNeed
