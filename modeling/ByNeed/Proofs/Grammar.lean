/-
**The grammar of expressions.**

The reader goes through the tokens once, with a list of the applications that it is inside of. What
it does is what the grammar says: it builds the operator of an application, then the operand, and
then applies the one to the other (`Expression.build`). Where the tokens are no expression it does as
much of this as they say, and then refuses them.

* `Opened.build`: what has been built for the applications that are being read; building any
  expression that begins with the same tokens begins in the same way (`Opened.build_begins`);
* `Phrase`: every sequence of tokens is an expression, or the beginning of one, or an expression with
  more tokens after it (`Phrase.exists_tokens`);
* `parse_eq_build`: reading a text is building the phrase that its tokens are;
* `parse_grammar`: **the reader follows the grammar**.
-/

import ByNeed.Proofs.Computation
import ByNeed.Proofs.Expression
import ByNeed.Reader

namespace ByNeed

/-! ### Building -/

/-- The cell for a name that is bound. -/
theorem reference_of_bound {store : Store} {env : TableId} {name : String} {x : CellId}
    (found : (store.table env).lookup name = some x) :
    Environment.reference env name store = (pure x : Eval CellId) store := by
  have read : Environment.lookup env name store = .ok (some x) store := by
    rw [← found]
    rfl
  exact bind_of_ok read

/-- The cell for a name that is not bound. -/
theorem reference_of_unbound {store : Store} {env : TableId} {name : String}
    (missing : (store.table env).lookup name = none) :
    Environment.reference env name store = Eval.suspend (.lookup env name) store := by
  have read : Environment.lookup env name store = .ok none store := by
    rw [← missing]
    rfl
  exact bind_of_ok read

namespace Expression

/-- Build an expression: the operator, then the operand, then their application. -/
def build (depth : Nat) (env : TableId) : Expression → Eval CellId
  | .number numeral => do Eval.value (.num (← Eval.ofExcept numeral.read))
  | .symbol name => Environment.reference env name
  | .ap operator operand => do
    let f ← operator.build depth env
    let x ← operand.build depth env
    apply depth f x

/-- Build the operators of the applications that are being read, the outermost first. -/
def Opened.build (depth : Nat) (env : TableId) : Opened → Eval Reader.Pending
  | [] => pure []
  | none :: outer => do
    let pending ← Opened.build depth env outer
    pure (none :: pending)
  | some operator :: outer => do
    let pending ← Opened.build depth env outer
    let f ← operator.build depth env
    pure (some f :: pending)

end Expression

open Expression (Opened)

/-- What a sequence of tokens is. -/
inductive Phrase
  | whole (e : Expression)
  /-- The beginning of an expression. -/
  | unfinished (opened : Opened)
  /-- An expression with a token and maybe more after it. -/
  | followed (e : Expression) (token : Token) (rest : List Token)

namespace Phrase

/-- The tokens of a phrase. -/
def tokens : Phrase → List Token
  | .whole e => e.listing
  | .unfinished opened => opened.listing
  | .followed e token rest => e.listing ++ token :: rest

/-- Build what can be built of a phrase, and refuse it if it is not an expression. -/
def build (depth : Nat) (env : TableId) : Phrase → Eval CellId
  | .whole e => e.build depth env
  | .unfinished opened => do
    let _ ← opened.build depth env
    Eval.fault .unexpectedEnd
  | .followed e token _ => do
    let _ ← e.build depth env
    Eval.fault (.excessiveToken token.text)

end Phrase

/-! ### Every sequence of tokens is a phrase -/

/-- An expression after the tokens of opened applications completes the innermost ones that have
their operators, or the operator of the next. -/
theorem Expression.Opened.exists_closed (opened : Opened) (e : Expression) :
    (∃ whole : Expression, opened.listing ++ e.listing = whole.listing) ∨
      ∃ further : Opened, opened.listing ++ e.listing = further.listing := by
  induction opened generalizing e with
  | nil => exact Or.inl ⟨e, rfl⟩
  | cons frame outer ih =>
    cases frame with
    | none => exact Or.inr ⟨some e :: outer, by simp [Opened.listing]⟩
    | some operator =>
      have closed : Opened.listing (some operator :: outer) ++ e.listing =
          Opened.listing outer ++ (Expression.ap operator e).listing := by
        simp [Opened.listing, Expression.listing]
      rw [closed]
      exact ih (.ap operator e)

/-- A token is the word for an application, or an expression of its own. -/
theorem Token.eq_ap_or_listing (token : Token) :
    token = .ap ∨ ∃ e : Expression, e.listing = [token] := by
  cases token with
  | ap => exact Or.inl rfl
  | number numeral => exact Or.inr ⟨.number numeral, rfl⟩
  | symbol name => exact Or.inr ⟨.symbol name, rfl⟩

/-- Tokens after those of opened applications complete them, or leave some open. -/
theorem Expression.Opened.exists_reading (opened : Opened) (tokens : List Token) :
    (∃ (e : Expression) (rest : List Token), opened.listing ++ tokens = e.listing ++ rest) ∨
      ∃ further : Opened, opened.listing ++ tokens = further.listing := by
  induction tokens generalizing opened with
  | nil => exact Or.inr ⟨opened, List.append_nil _⟩
  | cons token rest ih =>
    have onward : opened.listing ++ token :: rest = (opened.listing ++ [token]) ++ rest := by simp
    rw [onward]
    rcases token.eq_ap_or_listing with rfl | ⟨e, listed⟩
    · exact ih (none :: opened)
    · rw [← listed]
      rcases opened.exists_closed e with ⟨whole, closed⟩ | ⟨further, closed⟩
      · rw [closed]
        exact Or.inl ⟨whole, rest, rfl⟩
      · rw [closed]
        exact ih further

/-- **Every sequence of tokens is a phrase.** -/
theorem Phrase.exists_tokens (tokens : List Token) : ∃ phrase : Phrase, tokens = phrase.tokens := by
  rcases Expression.Opened.exists_reading [] tokens with ⟨e, rest, same⟩ | ⟨opened, same⟩
  · rw [Opened.listing, List.nil_append] at same
    cases rest with
    | nil => exact ⟨.whole e, by rw [same, List.append_nil]; rfl⟩
    | cons token rest => exact ⟨.followed e token rest, same⟩
  · exact ⟨.unfinished opened, same⟩

/-! ### Reading is building -/

namespace Reader

variable {depth : Nat} {env : TableId}

/-- End as the reading of an expression has ended, and refuse tokens that are left. -/
def conclude : Except Failure CellId × List Token → Eval CellId
  | (.error failure, _) => throw failure
  | (.ok x, rest) => do
    expectEnd rest
    pure x

/-- Read one expression to the end of the tokens, inside of the applications that are pending. -/
def readAll (depth : Nat) (env : TableId) (pending : Pending) (tokens : List Token) : Eval CellId :=
  readExpr depth env pending tokens >>= conclude

/-- Go on with the tokens that are left. -/
def proceed (depth : Nat) (env : TableId) (rest : List Token) : Progress → Eval CellId
  | .complete x => conclude (.ok x, rest)
  | .waiting pending => readAll depth env pending rest

theorem parse_eq_readAll (code : String) :
    parse depth env code = readAll depth env [] (lex code) :=
  rfl

theorem readAll_nil (pending : Pending) :
    readAll depth env pending [] = Eval.fault .unexpectedEnd :=
  rfl

/-- A token leads to progress, or fails and ends the reading. -/
theorem readAll_cons (pending : Pending) (token : Token) (rest : List Token) :
    readAll depth env pending (token :: rest) =
      step depth env pending token >>= proceed depth env rest := by
  funext store
  show (readExpr depth env pending (token :: rest) >>= conclude) store = _
  rw [readExpr, bind_assoc]
  cases ended : step depth env pending token store with
  | error failure later =>
    have outcome := Eval.outcome_of_error ended
    rw [bind_of_ok outcome, bind_of_error ended]
    rfl
  | ok progress later =>
    have outcome := Eval.outcome_of_ok ended
    rw [bind_of_ok outcome, bind_of_ok ended]
    cases progress with
    | complete x => rfl
    | waiting pending => rfl

/-- **Reading an expression** builds it, and hands it to the innermost pending application. -/
theorem readAll_listing (e : Expression) (pending : Pending) (rest : List Token) :
    readAll depth env pending (e.listing ++ rest) =
      e.build depth env >>= fun x => settle depth pending x >>= proceed depth env rest := by
  induction e generalizing pending rest with
  | number numeral =>
    rw [Expression.listing, List.singleton_append, readAll_cons]
    simp only [step, Expression.build, bind_assoc]
  | symbol name =>
    rw [Expression.listing, List.singleton_append, readAll_cons]
    simp only [step, Expression.build, bind_assoc]
  | ap operator operand ihOperator ihOperand =>
    have opens : ∀ tokens, readAll depth env pending (.ap :: tokens) =
        readAll depth env (none :: pending) tokens := fun tokens => readAll_cons pending .ap tokens
    have waits : ∀ f, (settle depth (none :: pending) f >>=
        proceed depth env (operand.listing ++ rest)) =
        readAll depth env (some f :: pending) (operand.listing ++ rest) := fun f => rfl
    have applies : ∀ f x, settle depth (some f :: pending) x =
        apply depth f x >>= settle depth pending := fun f x => rfl
    rw [Expression.listing, List.cons_append, List.append_assoc, opens, ihOperator]
    simp only [waits, ihOperand, applies, Expression.build, bind_assoc]

/-- **Reading what has been read of opened applications** builds it, and leaves it pending. -/
theorem readAll_opened (opened : Opened) (rest : List Token) :
    readAll depth env [] (opened.listing ++ rest) =
      opened.build depth env >>= fun pending => readAll depth env pending rest := by
  induction opened generalizing rest with
  | nil => rfl
  | cons frame outer ih =>
    cases frame with
    | none =>
      rw [Opened.listing, List.append_assoc, ih]
      simp only [Opened.build, List.singleton_append, readAll_cons, step, bind_assoc, pure_bind,
        proceed]
    | some operator =>
      have waits : ∀ f pending, (settle depth (none :: pending) f >>= proceed depth env rest) =
          readAll depth env (some f :: pending) rest := fun f pending => rfl
      rw [Opened.listing, List.append_assoc, ih]
      simp only [Opened.build, List.cons_append, readAll_cons, step, bind_assoc, pure_bind, proceed,
        readAll_listing, waits]

/-- Reading the listing of an expression is building it. -/
theorem readAll_whole (e : Expression) : readAll depth env [] e.listing = e.build depth env := by
  rw [← List.append_nil e.listing, readAll_listing]
  exact bind_pure _

/-- **Reading a text is building the phrase that its tokens are.** -/
theorem parse_eq_build {code : String} {phrase : Phrase} (listed : lex code = phrase.tokens)
    (depth : Nat) (env : TableId) : parse depth env code = phrase.build depth env := by
  rw [parse_eq_readAll, listed]
  cases phrase with
  | whole e => exact readAll_whole e
  | unfinished opened =>
    rw [Phrase.tokens, ← List.append_nil opened.listing, readAll_opened]
    simp only [readAll_nil, Phrase.build]
  | followed e token rest =>
    rw [Phrase.tokens, readAll_listing]
    rfl

end Reader

/-! ### The grammar -/

/-- **Building an expression begins** by building what its first tokens have opened. -/
theorem Expression.Opened.build_begins {opened : Opened} {e : Expression} {more : List Token}
    (begins : opened.listing ++ more = e.listing) (depth : Nat) (env : TableId) :
    ∃ next : Reader.Pending → Eval CellId,
      e.build depth env = opened.build depth env >>= next := by
  refine ⟨fun pending => Reader.readAll depth env pending more, ?_⟩
  rw [← Reader.readAll_opened, begins, Reader.readAll_whole]

/-- Tokens are a proper beginning of the listing of an expression. -/
def Begins (tokens : List Token) : Prop :=
  ∃ (e : Expression) (more : List Token), more ≠ [] ∧ tokens ++ more = e.listing

theorem Expression.Opened.begins (opened : Opened) : Begins opened.listing := by
  obtain ⟨whole, rest, complete⟩ := opened.completed (.symbol "")
  exact ⟨whole, _, by simp [Expression.listing], complete⟩

/-- Tokens that start with a listing are no proper beginning of another. -/
theorem Expression.not_begins (e : Expression) (rest : List Token) :
    ¬ Begins (e.listing ++ rest) := by
  rintro ⟨whole, more, nonempty, complete⟩
  rw [List.append_assoc, ← List.append_nil whole.listing] at complete
  have nothing := (listing_append_inj complete).2
  exact nonempty (List.append_eq_nil_iff.mp nothing).2

/-- A computation that is followed by a fault does not answer. -/
theorem bind_fault_ne_ok {α β : Type} (first : Eval α) (reason : Fault) (store : Store) (b : β)
    (later : Store) : (first >>= fun _ => (Eval.fault reason : Eval β)) store ≠ .ok b later := by
  intro ended
  obtain ⟨a, middle, -, answered⟩ := bind_eq_ok ended
  cases answered

/-- **The reader follows the grammar.** The tokens of a text may list an expression, which reading
the text then builds; or they may not, and reading the text never answers. In that case it builds
what the tokens say, in the same order, and if this succeeds it says that the text ends too early or
which token is too much. -/
theorem parse_grammar (depth : Nat) (env : TableId) (code : String) :
    (∀ e : Expression, lex code = e.listing →
      Reader.parse depth env code = e.build depth env) ∧
    ((∀ e : Expression, lex code ≠ e.listing) →
      (∀ store x later, Reader.parse depth env code store ≠ .ok x later) ∧
      (Begins (lex code) → ∃ (opened : Opened) (reason : Fault),
        lex code = opened.listing ∧
        (∀ (e : Expression) (more : List Token), lex code ++ more = e.listing →
          ∃ next : Reader.Pending → Eval CellId,
            e.build depth env = opened.build depth env >>= next) ∧
        reason.category = .malformedText ∧ reason.message = "Unexpected end of input" ∧
        Reader.parse depth env code =
          opened.build depth env >>= fun _ => Eval.fault reason) ∧
      (¬ Begins (lex code) → ∃ (e : Expression) (token : Token) (rest : List Token)
          (reason : Fault),
        lex code = e.listing ++ token :: rest ∧
        reason.category = .malformedText ∧ reason.message = "Excessive token " ++ token.text ∧
        Reader.parse depth env code =
          e.build depth env >>= fun _ => Eval.fault reason)) := by
  refine ⟨fun e listed => ?_, fun unlisted => ?_⟩
  · have whole : lex code = (Phrase.whole e).tokens := listed
    exact Reader.parse_eq_build whole depth env
  obtain ⟨phrase, listed⟩ := Phrase.exists_tokens (lex code)
  have built := Reader.parse_eq_build listed depth env
  cases phrase with
  | whole e => exact (unlisted e listed).elim
  | unfinished opened =>
    have begins : Begins (lex code) := by
      rw [listed]
      exact opened.begins
    refine ⟨fun store x later => ?_, fun _ => ⟨opened, .unexpectedEnd, listed, ?_, rfl, rfl, built⟩,
      fun never => (never begins).elim⟩
    · rw [built]
      exact bind_fault_ne_ok _ _ _ _ _
    · intro e more completes
      rw [listed] at completes
      exact Opened.build_begins completes depth env
  | followed e token rest =>
    have complete : ¬ Begins (lex code) := by
      rw [listed]
      exact e.not_begins (token :: rest)
    refine ⟨fun store x later => ?_, fun begins => (complete begins).elim,
      fun _ => ⟨e, token, rest, .excessiveToken token.text, listed, rfl, rfl, built⟩⟩
    rw [built]
    exact bind_fault_ne_ok _ _ _ _ _

end ByNeed
