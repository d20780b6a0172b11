/-
**Reading keeps the representation.**

While tokens are read, each pending application of the reader stands for one of an expression that
is being read (`Reading`), and the tokens read so far are those of the opened applications. The cell
that is answered in the end stands for an early reduction of the term of the expression that was
read.

* `settle_ensures`, `step_ensures`: what a complete expression and what a token lead to;
* `readExpr_ensures`: an expression is read from the front of the tokens;
* `parse_ensures`: **a text is read exactly if its tokens are the listing of an expression**, unless
  a numeral is too long or an application fails early.
-/

import ByNeed.Proofs.Expression
import ByNeed.Proofs.Representation.Apply
import ByNeed.Reader

namespace ByNeed

open Reduction
open Reduction.Action (Yields Fails Passes Continues)

/-! ### Pending applications -/

/-- A cell stands for an early reduction of the term of an expression. -/
def Spells (defs : Glossary) (env : TableId) (terms : Terms) (store : Store) (e : Expression)
    (x : CellId) : Prop :=
  store.Has x ∧ (e.term env).Reduces defs (terms.of x)

/-- **The pending applications of the reader** stand for the opened ones. -/
inductive Reading (defs : Glossary) (env : TableId) (terms : Terms) (store : Store) :
    Reader.Pending → Expression.Opened → Prop
  | nil : Reading defs env terms store [] []
  | operator {pending : Reader.Pending} {opened : Expression.Opened} :
      Reading defs env terms store pending opened →
      Reading defs env terms store (none :: pending) (none :: opened)
  | operand {pending : Reader.Pending} {opened : Expression.Opened} {f : CellId} {e : Expression} :
      Spells defs env terms store e f → Reading defs env terms store pending opened →
      Reading defs env terms store (some f :: pending) (some e :: opened)

/-- A token that is not a numeral beyond the limit. -/
def Token.Readable : Token → Prop
  | .number numeral => numeral.readable = true
  | _ => True

variable {defs : Glossary} {env : TableId} {terms terms' : Terms} {store store' : Store}
  {x : CellId} {e : Expression} {pending : Reader.Pending} {opened : Expression.Opened}
  {tokens : List Token} {token : Token}

theorem Spells.after (represents : Represents defs terms store)
    (built : Built defs terms store terms' store') (spells : Spells defs env terms store e x) :
    Spells defs env terms' store' e x := by
  obtain ⟨there, reduces⟩ := spells
  refine ⟨built.has there, ?_⟩
  rwa [built.of_eq represents there]

theorem Reading.after (represents : Represents defs terms store)
    (built : Built defs terms store terms' store')
    (reading : Reading defs env terms store pending opened) :
    Reading defs env terms' store' pending opened := by
  induction reading with
  | nil => exact .nil
  | operator _ ih => exact .operator ih
  | operand spells _ ih => exact .operand (spells.after represents built) ih

/-! ### One token -/

/-- What reading leads to once the tokens that are listed have been read. -/
def Proceeds (defs : Glossary) (env : TableId) (terms : Terms) (store : Store)
    (listed : List Token) (progress : Reader.Progress) (store' : Store) : Prop :=
  ∃ terms', Built defs terms store terms' store' ∧
    match progress with
    | .complete x => ∃ e : Expression, listed = e.listing ∧ Spells defs env terms' store' e x
    | .waiting pending => ∃ opened : Expression.Opened, listed = opened.listing ∧
        Reading defs env terms' store' pending opened

theorem Proceeds.after (built : Built defs terms store terms' store') {store'' : Store}
    {progress : Reader.Progress} (proceeds : Proceeds defs env terms' store' tokens progress store'') :
    Proceeds defs env terms store tokens progress store'' := by
  obtain ⟨terms'', further, holds⟩ := proceeds
  exact ⟨terms'', built.trans further, holds⟩

/-- **A complete expression** is handed to the innermost application. -/
theorem settle_ensures (depth : Nat) (represents : Represents defs terms store)
    (reading : Reading defs env terms store pending opened)
    (spells : Spells defs env terms store e x) :
    (Reader.settle depth pending x).Ensures store
      (Proceeds defs env terms store (opened.listing ++ e.listing)) (Balks defs terms store) := by
  induction pending generalizing opened terms store e x with
  | nil =>
    cases reading
    exact ⟨terms, .refl represents, e, rfl, spells⟩
  | cons frame pending ih =>
    cases reading with
    | @operator _ opened reading =>
      refine ⟨terms, .refl represents, some e :: opened, ?_, .operand spells reading⟩
      simp [Expression.Opened.listing]
    | @operand _ opened f operator head reading =>
      obtain ⟨headThere, headReduces⟩ := head
      obtain ⟨there, reduces⟩ := spells
      refine (apply_ensures depth represents headThere there).bind (fun r store' applies => ?_)
        fun _ _ balks => balks
      obtain ⟨terms', built, inside, further⟩ := applies.reaches
      have whole : ((Expression.ap operator e).term env).Reduces defs (terms'.of r) :=
        Term.Reduces.trans (.app headReduces reduces) further
      refine (ih built.represents (reading.after represents built) ⟨inside, whole⟩).mono
        (fun progress store'' proceeds => ?_) fun _ _ balks => balks.after built
      have listed : Expression.Opened.listing (some operator :: opened) ++ e.listing =
          opened.listing ++ (Expression.ap operator e).listing := by
        simp [Expression.Opened.listing, Expression.listing]
      rw [listed]
      exact proceeds.after built

/-- **A mention of a name** is a cell that stands for what the name stands for. -/
theorem reference_ensures {name : String} (represents : Represents defs terms store) :
    (Environment.reference env name).Ensures store
      (fun x store' => ∃ terms', Built defs terms store terms' store' ∧
        Spells defs env terms' store' (.symbol name) x)
      (Balks defs terms store) := by
  show Eval.Ensures (get >>= _) store _ _
  rw [Eval.ensures_bind, Eval.ensures_get]
  cases found : (store.table env).lookup name with
  | some x =>
    obtain ⟨there, t, known, reduces⟩ := represents.bound env name x found
    exact ⟨terms, .refl represents, there, .leads (.refl _) (.lookup known) reduces⟩
  | none =>
    have stands : (Cell.suspended (.lookup env name)).StandsFor defs terms (.name env name) := by
      refine ⟨fun y member => ?_, _, .refl _, .refl _⟩
      cases member
    show (Eval.suspend (.lookup env name)).Ensures store _ _
    rw [Eval.ensures_suspend]
    refine ⟨terms ++ [.name env name], .alloc represents stands, Store.has_alloc store _, ?_⟩
    rw [represents.of_alloc]
    exact .refl _

/-- A numeral within the limit is read as its integer. -/
theorem read_ensures {numeral : Numeral} {good : Int → Store → Prop}
    {bad : Failure → Store → Prop} (within : numeral.readable = true → good numeral.toInt store)
    (beyond : ¬ numeral.readable = true → bad (.oversizeNumeral numeral.digits.length) store) :
    (Eval.ofExcept numeral.read).Ensures store good bad := by
  unfold Numeral.read
  cases readable : numeral.readable with
  | true => exact within readable
  | false => exact beyond (by simp [readable])

/-- The failure of a token: an application fails early, or the token is not readable. -/
def Stumbles (defs : Glossary) (terms : Terms) (store : Store) (token : Token) (failure : Failure)
    (store' : Store) : Prop :=
  ∃ terms', Built defs terms store terms' store' ∧
    (failure.isEarly = true ∨ (∃ digits, failure = .oversizeNumeral digits) ∧ ¬ token.Readable)

theorem Balks.stumbles {failure : Failure} (balks : Balks defs terms store failure store')
    (token : Token) : Stumbles defs terms store token failure store' := by
  obtain ⟨early, terms', built⟩ := balks
  exact ⟨terms', built, Or.inl early⟩

/-- **One token** is taken in. -/
theorem step_ensures (depth : Nat) (represents : Represents defs terms store)
    (reading : Reading defs env terms store pending opened) :
    (Reader.step depth env pending token).Ensures store
      (fun progress store' => token.Readable ∧
        Proceeds defs env terms store (opened.listing ++ [token]) progress store')
      (Stumbles defs terms store token) := by
  cases token with
  | ap => exact ⟨trivial, terms, .refl represents, none :: opened, rfl, .operator reading⟩
  | number numeral =>
    rw [Reader.step, Eval.ensures_bind]
    refine read_ensures (fun readable => ?_) fun unreadable =>
      ⟨terms, .refl represents, Or.inr ⟨⟨_, rfl⟩, unreadable⟩⟩
    have stands : (Cell.value (.num numeral.toInt)).StandsFor defs terms (.num numeral.toInt) :=
      ⟨fun _ member => (nomatch member), 0, _, .answer _, .num _⟩
    have built : Built defs terms store _ (store.alloc (.value (.num numeral.toInt))).2 :=
      .alloc represents stands
    rw [Eval.ensures_bind, Eval.ensures_value]
    refine (settle_ensures (e := .number numeral) depth built.represents
      (reading.after represents built) ⟨Store.has_alloc store _, ?_⟩).mono
      (fun progress store' proceeds => ⟨readable, proceeds.after built⟩)
      fun _ _ balks => (balks.after built).stumbles _
    rw [represents.of_alloc]
    exact .refl _
  | symbol name =>
    rw [Reader.step]
    refine (reference_ensures represents).bind ?_ fun _ _ balks => balks.stumbles _
    rintro x store' ⟨terms', built, spells⟩
    exact (settle_ensures depth built.represents (reading.after represents built) spells).mono
      (fun progress store'' proceeds => ⟨trivial, proceeds.after built⟩)
      fun _ _ balks => (balks.after built).stumbles _

/-! ### Expressions and texts -/

/-- **Tokens that are not the listing of an expression**, with the failure that reading them ends
in: they end too early, or a numeral is beyond the limit, or there are more of them. -/
inductive Misread (tokens : List Token) : Failure → Prop
  | ends {opened : Expression.Opened} : tokens = opened.listing →
      (∀ token ∈ tokens, token.Readable) → Misread tokens (.fault .unexpectedEnd)
  | beyond {opened : Expression.Opened} {token : Token} {rest : List Token} {digits : Nat} :
      tokens = opened.listing ++ token :: rest → ¬ token.Readable →
      Misread tokens (.oversizeNumeral digits)
  | exceeds {e : Expression} {token : Token} {rest : List Token} {text : String} :
      tokens = e.listing ++ token :: rest → (∀ token ∈ e.listing, token.Readable) →
      Misread tokens (.fault (.excessiveToken text))

/-- What reading an expression from the front of tokens answers. -/
def Reads (defs : Glossary) (env : TableId) (terms : Terms) (store : Store) (tokens : List Token)
    (result : Except Failure CellId × List Token) (store' : Store) : Prop :=
  ∃ terms', Built defs terms store terms' store' ∧
    match result with
    | (.ok x, rest) => ∃ e : Expression, tokens = e.listing ++ rest ∧
        (∀ token ∈ e.listing, token.Readable) ∧ Spells defs env terms' store' e x
    | (.error failure, _) => failure.isEarly = true ∨ Misread tokens failure

theorem Reads.after (built : Built defs terms store terms' store') {store'' : Store}
    {result : Except Failure CellId × List Token}
    (reads : Reads defs env terms' store' tokens result store'') :
    Reads defs env terms store tokens result store'' := by
  obtain ⟨terms'', further, holds⟩ := reads
  exact ⟨terms'', built.trans further, holds⟩

/-- **An expression is read** from the front of the tokens, of which some have been read before. -/
theorem readExpr_ensures (depth : Nat) (represents : Represents defs terms store)
    (reading : Reading defs env terms store pending opened)
    (readable : ∀ token ∈ opened.listing, token.Readable) :
    (Reader.readExpr depth env pending tokens).Ensures store
      (Reads defs env terms store (opened.listing ++ tokens)) fun _ _ => False := by
  induction tokens generalizing terms store pending opened with
  | nil =>
    refine ⟨terms, .refl represents, Or.inr (.ends (List.append_nil _) ?_)⟩
    rwa [List.append_nil]
  | cons token rest ih =>
    rw [Reader.readExpr, Eval.ensures_bind, Eval.ensures_outcome]
    have split : opened.listing ++ token :: rest = (opened.listing ++ [token]) ++ rest := by simp
    refine (step_ensures depth represents reading).mono ?_ ?_
    · rintro progress store' ⟨tokenReadable, terms', built, holds⟩
      have moreReadable : ∀ other ∈ opened.listing ++ [token], other.Readable := by
        intro other member
        rcases List.mem_append.mp member with member | member
        · exact readable other member
        · rwa [List.mem_singleton.mp member]
      cases progress with
      | complete x =>
        obtain ⟨e, listed, spells⟩ := holds
        exact ⟨terms', built, e, by rw [split, listed], listed ▸ moreReadable, spells⟩
      | waiting pending' =>
        obtain ⟨opened', listed, reading'⟩ := holds
        rw [split, listed]
        exact (ih built.represents reading' (listed ▸ moreReadable)).mono
          (fun result last reads => reads.after built) fun _ _ never => never
    · rintro failure store' ⟨terms', built, early | ⟨⟨digits, rfl⟩, unreadable⟩⟩
      · exact ⟨terms', built, Or.inl early⟩
      · exact ⟨terms', built, Or.inr (.beyond rfl unreadable)⟩

/-- **A text is read** as the expression that its tokens list. -/
theorem parse_ensures (depth : Nat) (code : String) (represents : Represents defs terms store) :
    (Reader.parse depth env code).Ensures store
      (fun x store' => ∃ terms' e, Built defs terms store terms' store' ∧
        lex code = Expression.listing e ∧ (∀ token ∈ lex code, token.Readable) ∧
        Spells defs env terms' store' e x)
      fun failure store' => ∃ terms', Built defs terms store terms' store' ∧
        (failure.isEarly = true ∨ Misread (lex code) failure) := by
  have nothing : Reading defs env terms store [] [] := .nil
  refine (readExpr_ensures depth represents nothing fun _ member => nomatch member).bind ?_
    fun _ _ never => never.elim
  rintro ⟨outcome, rest⟩ store' ⟨terms', built, holds⟩
  cases outcome with
  | error failure => exact ⟨terms', built, holds⟩
  | ok x =>
    obtain ⟨e, listed, readable, spells⟩ := holds
    cases rest with
    | nil =>
      have whole : lex code = e.listing := by simpa [Expression.Opened.listing] using listed
      exact ⟨terms', e, built, whole, whole ▸ readable, spells⟩
    | cons token rest => exact ⟨terms', built, Or.inr (.exceeds listed readable)⟩

/-! ### There is at most one outcome of reading -/

/-- A numeral beyond the limit stands in no expression that is read before it. -/
theorem Expression.Opened.not_listing {numeral token : Token} {rest more : List Token}
    (readable : ∀ token ∈ e.listing, token.Readable) (unreadable : ¬ numeral.Readable) :
    opened.listing ++ numeral :: more ≠ e.listing ++ token :: rest := by
  intro same
  rcases List.append_eq_append_iff.mp same with ⟨middle, listed, tail⟩ | ⟨middle, listed, -⟩
  · cases middle with
    | nil => exact opened.listing_ne e [] (by simpa using listed.symm)
    | cons first middle =>
      obtain ⟨rfl, -⟩ := List.cons.inj tail
      exact unreadable (readable numeral (by simp [listed]))
  · exact opened.listing_ne e middle listed

/-- Tokens that are misread do not list an expression. -/
theorem Misread.not_listing {failure : Failure} (misread : Misread tokens failure)
    (listed : tokens = e.listing) (readable : ∀ token ∈ tokens, token.Readable) : False := by
  cases misread with
  | @ends opened begins _ => exact opened.listing_ne e [] (by simp [← begins, listed])
  | beyond found unreadable => exact unreadable (readable _ (by simp [found]))
  | exceeds found _ =>
    rw [listed, ← List.append_nil e.listing] at found
    cases (Expression.listing_append_inj found).2

end ByNeed
