/-
**A stream loses and repeats no token.**

Whatever is called on a stream of the tokens of a text, and in whatever stores, the tokens taken so
far, the one in the buffer and those not yet looked at are the tokens of the text, in order. Looking
at a token takes none. Reading an expression takes its tokens and no more; if it fails it has taken
the tokens up to the one that failed, or all of them if they end too early.

* `Consumes`: how the reading of an expression ends, and which tokens it takes for that;
* `settle_accounts`, `step_accounts`: **one token** leads from what was opened before it to what is
  opened or complete after it;
* `readFrom_consumes`: **the whole reading**, by induction along the stream;
* `Consumes.shortest`: the tokens of an expression that is read are the shortest run that lists one;
* `tokens_accounted`: **the stream accounts for its tokens** after any calls.
-/

import ByNeed.Proofs.Grammar

namespace ByNeed

open Expression (Opened)

/-! ### What reading takes -/

/-- **How the reading of an expression ends**, given the tokens before it: with what outcome, having
taken which of the tokens, and in which store. -/
inductive Consumes (depth : Nat) (env : TableId) (store : Store) :
    List Token → Except Failure CellId → List Token → Store → Prop
  /-- The tokens begin with an expression, which is built. -/
  | whole {e : Expression} {rest : List Token} {x : CellId} {last : Store} :
      e.build depth env store = .ok x last →
      Consumes depth env store (e.listing ++ rest) (.ok x) e.listing last
  /-- What the tokens have opened is built, and the token after them fails. -/
  | stopped {opened : Opened} {pending : Reader.Pending} {token : Token} {rest : List Token}
      {failure : Failure} {middle last : Store} :
      opened.build depth env store = .ok pending middle →
      Reader.step depth env pending token middle = .error failure last →
      Consumes depth env store (opened.listing ++ token :: rest) (.error failure)
        (opened.listing ++ [token]) last
  /-- What the tokens have opened is built, and there are no more. -/
  | ended {opened : Opened} {pending : Reader.Pending} {last : Store} :
      opened.build depth env store = .ok pending last →
      Consumes depth env store opened.listing (.error (.fault .unexpectedEnd)) opened.listing last

variable {depth : Nat} {env : TableId} {start store last : Store} {tokens consumed : List Token}
  {opened : Opened} {pending : Reader.Pending} {x : CellId}

/-- **An expression is read from the shortest run of tokens that lists one**, and no other run at the
beginning lists one. -/
theorem Consumes.shortest (consumes : Consumes depth env store tokens (.ok x) consumed last) :
    consumed ≠ [] ∧ (∃ e : Expression, consumed = e.listing) ∧
      ∀ e : Expression, e.listing <+: tokens → consumed.length ≤ e.listing.length := by
  cases consumes with
  | @whole e rest _ _ built =>
    refine ⟨?_, ⟨e, rfl⟩, fun e' begins => ?_⟩
    · cases e <;> simp [Expression.listing]
    · obtain ⟨other, same⟩ := begins
      obtain ⟨rfl, -⟩ := Expression.listing_append_inj same
      exact Nat.le_refl _

/-! ### One token -/

/-- What has been reached by reading tokens: they list an expression, which is built, or have opened
applications, which are. -/
def Reader.Progress.Accounts (depth : Nat) (env : TableId) (start : Store) (tokens : List Token) :
    Reader.Progress → Store → Prop
  | .complete x, last => ∃ e : Expression, tokens = e.listing ∧ e.build depth env start = .ok x last
  | .waiting pending, last => ∃ opened : Opened, tokens = opened.listing ∧
      opened.build depth env start = .ok pending last

/-- Handing an expression to the applications that are opened. -/
theorem settle_accounts {e : Expression} {middle later : Store} {progress : Reader.Progress}
    (built : opened.build depth env start = .ok pending middle)
    (operand : e.build depth env middle = .ok x store)
    (settled : Reader.settle depth pending x store = .ok progress later) :
    progress.Accounts depth env start (opened.listing ++ e.listing) later := by
  induction opened generalizing e middle store pending x with
  | nil =>
    cases built
    cases settled
    exact ⟨e, rfl, operand⟩
  | cons frame outer ih =>
    cases frame with
    | none =>
      obtain ⟨outerPending, middle', builtOuter, rest⟩ := bind_eq_ok built
      cases rest
      cases settled
      refine ⟨some e :: outer, by simp [Opened.listing], ?_⟩
      rw [Opened.build, bind_of_ok builtOuter, bind_of_ok operand]
      rfl
    | some operator =>
      obtain ⟨outerPending, before, builtOuter, rest⟩ := bind_eq_ok built
      obtain ⟨f, middle', builtOperator, rest⟩ := bind_eq_ok rest
      cases rest
      obtain ⟨y, store', applied, settled⟩ := bind_eq_ok settled
      have whole : (Expression.ap operator e).build depth env before = .ok y store' := by
        rw [Expression.build, bind_of_ok builtOperator, bind_of_ok operand, applied]
      have closed : Opened.listing (some operator :: outer) ++ e.listing =
          Opened.listing outer ++ (Expression.ap operator e).listing := by
        simp [Opened.listing, Expression.listing]
      rw [closed]
      exact ih builtOuter whole settled

/-- A token that is an expression of its own is built and handed over. -/
theorem step_of_listing {token : Token} {e : Expression} (listed : e.listing = [token])
    (pending : Reader.Pending) :
    Reader.step depth env pending token =
      e.build depth env >>= fun x => Reader.settle depth pending x := by
  cases e with
  | number numeral =>
    cases listed
    simp only [Reader.step, Expression.build, bind_assoc]
  | symbol name =>
    cases listed
    rfl
  | ap operator operand =>
    have short := congrArg List.length listed
    cases operator <;> simp [Expression.listing] at short

/-- **One token** leads from what is opened to what is opened or complete with it. -/
theorem step_accounts {token : Token} {progress : Reader.Progress} {later : Store}
    (built : opened.build depth env start = .ok pending store)
    (stepped : Reader.step depth env pending token store = .ok progress later) :
    progress.Accounts depth env start (opened.listing ++ [token]) later := by
  rcases token.eq_ap_or_listing with rfl | ⟨e, listed⟩
  · cases stepped
    refine ⟨none :: opened, rfl, ?_⟩
    rw [Opened.build, bind_of_ok built]
    rfl
  · rw [step_of_listing listed] at stepped
    obtain ⟨x, middle, operand, settled⟩ := bind_eq_ok stepped
    rw [← listed]
    exact settle_accounts built operand settled

/-! ### The whole reading -/

/-- **Reading goes on from what is opened** to its end, and takes the tokens that it needs for that,
one by one. -/
theorem readFrom_consumes (stream : TokenStream)
    (built : opened.build depth env start = .ok pending store) :
    ∃ outcome later consumed last,
      Reader.readFrom depth env pending stream store = .ok (outcome, later) last ∧
      Consumes depth env start (opened.listing ++ stream.left) outcome
        (opened.listing ++ consumed) last ∧
      stream.left = consumed ++ later.left ∧ later.consumed = stream.consumed ++ consumed := by
  fun_induction Reader.readFrom depth env pending stream generalizing opened store with
  | case1 pending stream later taken =>
    obtain ⟨rfl, done⟩ := TokenStream.advance_eq_none taken
    refine ⟨_, _, [], store, rfl, ?_, by simp, by simp⟩
    rw [done, List.append_nil]
    exact .ended built
  | case2 pending stream token later taken ih =>
    obtain ⟨first, record⟩ := TokenStream.advance_eq_some taken
    cases stepped : Reader.step depth env pending token store with
    | error failure last =>
      refine ⟨_, _, [token], last, bind_of_ok (Eval.outcome_of_error stepped), ?_, first, record⟩
      rw [first]
      exact .stopped built stepped
    | ok progress middle =>
      have onward := step_accounts built stepped
      cases progress with
      | complete x =>
        obtain ⟨e, listed, whole⟩ := onward
        refine ⟨_, _, [token], middle, bind_of_ok (Eval.outcome_of_ok stepped), ?_, first, record⟩
        rw [first, listed, ← List.singleton_append, ← List.append_assoc, listed]
        exact .whole whole
      | waiting pending' =>
        obtain ⟨further, listed, built'⟩ := onward
        obtain ⟨outcome, end', consumed, last, ended, consumes, split, record'⟩ := ih pending' built'
        refine ⟨outcome, end', token :: consumed, last,
          (bind_of_ok (Eval.outcome_of_ok stepped)).trans ended, ?_, ?_, ?_⟩
        · rw [← listed] at consumes
          simpa [first] using consumes
        · rw [first, split, List.cons_append]
        · rw [record', record, List.append_assoc, List.singleton_append]

/-- **Reading an expression from a stream** ends with an outcome, in every store. -/
theorem consumes_of_stream (depth : Nat) (env : TableId) (stream : TokenStream) (store : Store) :
    ∃ outcome later consumed last,
      Reader.readFrom depth env [] stream store = .ok (outcome, later) last ∧
      Consumes depth env store stream.left outcome consumed last ∧
      stream.left = consumed ++ later.left ∧ later.consumed = stream.consumed ++ consumed := by
  have built : Opened.build depth env [] store = .ok [] store := rfl
  exact readFrom_consumes stream built

/-! ### Calls -/

namespace TokenStream

/-- What can be called on a stream. -/
inductive Call
  | peek
  | advance
  | expectEnd
  /-- Read an expression with some depth against some environment. -/
  | readExpr (depth : Nat) (env : TableId)

/-- The stream after a call that is made in a store. -/
def Call.perform (store : Store) (stream : TokenStream) : Call → TokenStream
  | .peek => stream.peek.2
  | .advance => stream.advance.2
  | .expectEnd => stream.expectEnd.2
  | .readExpr depth env =>
    match Reader.readFrom depth env [] stream store with
    | .ok (_, later) _ => later
    | .error _ _ => stream

/-- The stream after calls, each in a store of its own. -/
def after (stream : TokenStream) (calls : List (Store × Call)) : TokenStream :=
  calls.foldl (fun stream (store, call) => call.perform store stream) stream

/-- **One call** keeps the tokens taken and those left together. -/
theorem Call.perform_tokens (call : Call) (store : Store) (stream : TokenStream) :
    (call.perform store stream).consumed ++ (call.perform store stream).left =
      stream.consumed ++ stream.left := by
  cases call with
  | peek => simp [Call.perform]
  | advance =>
    obtain ⟨split, record⟩ := advance_split stream
    rw [Call.perform, record, List.append_assoc, split]
  | expectEnd => simp [Call.perform, snd_expectEnd]
  | readExpr depth env =>
    obtain ⟨outcome, later, consumed, last, ended, -, split, record⟩ :=
      consumes_of_stream depth env stream store
    rw [Call.perform, ended]
    simp only
    rw [record, split, List.append_assoc]

/-- **Any calls** do. -/
theorem after_tokens (calls : List (Store × Call)) (stream : TokenStream) :
    (stream.after calls).consumed ++ (stream.after calls).left = stream.consumed ++ stream.left := by
  induction calls generalizing stream with
  | nil => rfl
  | cons next rest ih =>
    obtain ⟨store, call⟩ := next
    exact (ih (call.perform store stream)).trans (call.perform_tokens store stream)

/-- **A stream accounts for the tokens of a text.** -/
structure Accounts (tokens : List Token) (stream : TokenStream) : Prop where
  /-- The tokens taken, the one in the buffer and those not looked at are all, in order. -/
  exactly : stream.consumed ++ stream.buffer.toList ++ stream.unread = tokens
  /-- Looking at the first token that is left takes none. -/
  peeks : stream.peek.1 = stream.left.head? ∧ stream.peek.2.consumed = stream.consumed
  /-- Expecting the end takes no token, and fails exactly if one is left. -/
  ends : (stream.expectEnd.1 = .ok () ↔ stream.left = []) ∧
    stream.expectEnd.2.consumed = stream.consumed
  /-- Taking a token takes the first that is left. -/
  advances : stream.advance.1 = stream.left.head? ∧
    stream.advance.2.consumed = stream.consumed ++ stream.advance.1.toList
  /-- Reading an expression takes the tokens that it comes to, which are the shortest run that lists
  an expression if it answers one. -/
  reads : ∀ depth env store, ∃ outcome later consumed last,
    Reader.readFrom depth env [] stream store = .ok (outcome, later) last ∧
      Consumes depth env store stream.left outcome consumed last ∧
      stream.left = consumed ++ later.left ∧ later.consumed = stream.consumed ++ consumed ∧
      ∀ x, outcome = .ok x → consumed ≠ [] ∧ (∃ e : Expression, consumed = e.listing) ∧
        ∀ e : Expression, e.listing <+: stream.left → consumed.length ≤ e.listing.length

/-- **A stream loses and repeats no token**: after any calls, in any stores and against any
environments, it accounts for the tokens of its text. -/
theorem tokens_accounted (code : String) (calls : List (Store × Call)) :
    ((ofText code).after calls).Accounts (lex code) := by
  generalize reached : (ofText code).after calls = stream
  refine ⟨?_, ⟨fst_peek stream, consumed_peek stream⟩, ⟨?_, ?_⟩,
    ⟨fst_advance stream, (advance_split stream).2⟩, ?_⟩
  · have kept := after_tokens calls (ofText code)
    rw [reached] at kept
    rw [List.append_assoc]
    exact kept
  · rw [fst_expectEnd]
    cases stream.left <;> simp
  · rw [snd_expectEnd, consumed_peek]
  · intro depth env store
    obtain ⟨outcome, later, consumed, last, ended, consumes, split, record⟩ :=
      consumes_of_stream depth env stream store
    refine ⟨outcome, later, consumed, last, ended, consumes, split, record, ?_⟩
    rintro x rfl
    exact consumes.shortest

end TokenStream

end ByNeed
