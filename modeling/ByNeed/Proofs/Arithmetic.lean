/-
**Programs of formulas compute.**

A program of formulas is loaded from lines in any order, so that a name may be mentioned before or
after it is defined, and is then bound or looked up later. Its cells are shared between definitions
and evaluations, which force them at any time and keep what they find. None of this shows: an
evaluation answers the value of its formula, and fails exactly if a quotient by zero is demanded.

* `build_plays`: a formula is built as a cell that comes to its value;
* `eval_plays`: evaluating a formula answers its value;
* `ofChars_definition`: the line of a definition is read as the definition;
* `defineLines_plays`: the lines of a program are carried out, whatever their order;
* `formulas_compute`: **the definitions are accepted in any order, and every formula is evaluated to
  its value**.
-/

import ByNeed.Proofs.Arithmetic.Roles
import ByNeed.Proofs.Bindings.Log
import ByNeed.Proofs.Grammar

namespace ByNeed

variable {scope : Scope} {roles roles' : Roles} {store later : Store} {x : CellId} {role : Role}
  {limit : Nat} {program : List Clause} {formula : Formula}

/-! ### Building formulas -/

/-- Building an expression, with some depth, answers a cell that plays a role. -/
def BuildsAs (scope : Scope) (depth : Nat) (e : Expression) (role : Role) (limit : Nat) : Prop :=
  ∀ (roles : Roles) (store : Store), Assigns scope roles store →
    (e.build (depth + 1) scope.env).Ensures store
      (fun x later => ∃ roles', Further scope roles store roles' later ∧ roles'.Plays x role limit)
      fun _ _ => False

namespace BuildsAs

variable {depth : Nat} {operator operand e : Expression} {answers : Option Int → Role}
  {a : Option Int}

/-- An application of a function to an integer. -/
theorem ap {first second cost : Nat}
    (function : BuildsAs scope depth operator (.function answers) first)
    (argument : BuildsAs scope depth operand (.integer a) second) (le : first + 2 ≤ cost)
    (le' : second + 2 ≤ cost) : BuildsAs scope depth (.ap operator operand) (answers a) cost := by
  intro roles store assigns
  refine (function roles store assigns).bind ?_ fun _ _ never => never
  rintro f store₁ ⟨roles₁, further₁, playsF⟩
  refine (argument roles₁ store₁ further₁.assigns).bind ?_ fun _ _ never => never
  rintro x store₂ ⟨roles₂, further₂, playsX⟩
  have more : first ≤ cost - 2 ∧ second ≤ cost - 2 := by omega
  refine (apply_plays depth further₂.assigns (playsF.mono further₂.grown more.1)
    (playsX.mono (List.prefix_refl _) more.2)).mono ?_ fun _ _ never => never
  rintro y store₃ ⟨roles₃, further₃, playsY⟩
  exact ⟨roles₃, (further₁.trans further₂).trans further₃,
    playsY.mono (List.prefix_refl _) (by omega)⟩

/-- A name that is bound to a cell with a role. -/
theorem of_bound {name : String}
    (bound : ∀ {roles store}, Assigns scope roles store →
      ∃ x, (store.table scope.env).lookup name = some x ∧ roles.Plays x role 0) :
    BuildsAs scope depth (.symbol name) role limit := by
  intro roles store assigns
  obtain ⟨x, found, plays⟩ := bound assigns
  rw [Expression.build, Eval.ensures_congr (reference_of_bound found)]
  exact ⟨roles, .refl assigns, plays.mono (List.prefix_refl _) (Nat.zero_le _)⟩

/-- A name of the program, which is bound or is looked up later. -/
theorem reference {name : String} (member : name ∈ scope.names) :
    BuildsAs scope depth (.symbol name) (.integer (scope.meaning name)) (scope.level name + 1) := by
  intro roles store assigns
  cases found : (store.table scope.env).lookup name with
  | some x =>
    rw [Expression.build, Eval.ensures_congr (reference_of_bound found)]
    have plays := assigns.bound name member x found
    exact ⟨roles, .refl assigns, plays.mono (List.prefix_refl _) (Nat.le_succ _)⟩
  | none =>
    rw [Expression.build, Eval.ensures_congr (reference_of_unbound found)]
    exact assigns.exists_alloc (.lookup member (Nat.lt_succ_self _))

theorem literal {numeral : Numeral} (readable : numeral.readable = true) :
    BuildsAs scope depth (.number numeral) (.integer (some numeral.toInt)) 0 := by
  intro roles store assigns
  have read : numeral.read = .ok numeral.toInt := if_pos readable
  rw [Expression.build, read]
  exact assigns.exists_alloc .num

/-- A primitive on two integers. -/
theorem binop {first second : Expression} {b : Option Int} {m n : Nat} (op : Binop)
    (left : BuildsAs scope depth first (.integer a) m)
    (right : BuildsAs scope depth second (.integer b) n) :
    BuildsAs scope depth (.ap (.ap (.symbol op.name) first) second) (Role.result op a b)
      (m + n + 4) := by
  have primitive : BuildsAs scope depth (.symbol op.name) (Role.binop op) 0 :=
    of_bound fun assigns => assigns.binops op
  have partly : BuildsAs scope depth (.ap (.symbol op.name) first) (.function (Role.result op a))
      (m + 2) := primitive.ap left (by omega) (by omega)
  exact partly.ap right (by omega) (by omega)

end BuildsAs

/-- **A formula is built as a cell that comes to its value.** -/
theorem build_plays (depth : Nat) (inside : ∀ name ∈ formula.names, name ∈ scope.names)
    (readable : formula.readable = true) :
    BuildsAs scope depth formula.expression (.integer (formula.value scope.meaning))
      (formula.cost scope.level) := by
  induction formula with
  | literal numeral => exact .literal readable
  | reference name => exact .reference (inside name (by simp [Formula.names]))
  | monop op x ih =>
    have primitive : BuildsAs scope depth (.symbol op.name) (Role.monop op) 0 :=
      .of_bound fun assigns => assigns.monops op
    exact primitive.ap (ih inside readable) (Nat.le_add_left _ _) (Nat.le_refl _)
  | operate op x y ihX ihY =>
    simp only [Formula.names, List.mem_append] at inside
    simp only [Formula.readable, Bool.and_eq_true] at readable
    have first := ihX (fun name member => inside name (Or.inl member)) readable.1
    have second := ihY (fun name member => inside name (Or.inr member)) readable.2
    have same : Role.result op.binop (x.value scope.meaning) (y.value scope.meaning) =
        .integer ((Formula.operate op x y).value scope.meaning) := by
      cases op <;> rfl
    rw [← same]
    exact .binop op.binop first second
  | choose test p q yes no ihP ihQ ihYes ihNo =>
    simp only [Formula.names, List.mem_append, or_assoc] at inside
    simp only [Formula.readable, Bool.and_eq_true, and_assoc] at readable
    obtain ⟨readableP, readableQ, readableYes, readableNo⟩ := readable
    have first := ihP (fun name member => inside name (Or.inl member)) readableP
    have second := ihQ (fun name member => inside name (Or.inr (Or.inl member))) readableQ
    have third := ihYes (fun name member => inside name (Or.inr (Or.inr (Or.inl member)))) readableYes
    have fourth := ihNo (fun name member => inside name (Or.inr (Or.inr (Or.inr member)))) readableNo
    -- The comparison is a function of the two formulas that it chooses from.
    have compared := BuildsAs.binop test.binop first second
    have same : Role.result test.binop (p.value scope.meaning) (q.value scope.meaning) =
        Role.choice (do return test.holds (← p.value scope.meaning) (← q.value scope.meaning)) := by
      cases test <;> rfl
    rw [same] at compared
    have offered : BuildsAs scope depth _ (.function _)
        (p.cost scope.level + q.cost scope.level + yes.cost scope.level + 6) :=
      compared.ap third (by omega) (by omega)
    have whole : BuildsAs scope depth (Formula.choose test p q yes no).expression (.integer _)
        (p.cost scope.level + q.cost scope.level + yes.cost scope.level + no.cost scope.level + 8) :=
      offered.ap fourth (by omega) (by omega)
    have chosen : (Formula.choose test p q yes no).value scope.meaning =
        (do return test.holds (← p.value scope.meaning) (← q.value scope.meaning) : Option Bool).bind
          fun yields => if yields then yes.value scope.meaning else no.value scope.meaning := by
      rw [Formula.value]
      cases p.value scope.meaning with
      | none => rfl
      | some m => cases q.value scope.meaning <;> rfl
    rw [chosen]
    exact whole

/-! ### Evaluating formulas -/

/-- What evaluating a formula comes to, given its value: the text of the value, if there is one and it
is within the limit on digits. -/
def answer (value : Option Int) : Except Failure String :=
  match value with
  | some n => if writable n then .ok (decimal n) else .error .oversizeNumber
  | none => .error (.fault .divisionByZero)

/-- Only a formula without a value divides by zero. -/
theorem answer_eq_divisionByZero {value : Option Int} :
    answer value = .error (.fault .divisionByZero) ↔ value = none := by
  cases value with
  | none => simp [answer]
  | some n => cases fits : writable n <;> simp [answer, fits]

/-- **Evaluating a formula answers its value**, or fails if it has none, or if the value is beyond the
limit on digits. -/
theorem eval_plays {code : String} {depth : Nat} (assigns : Assigns scope roles store)
    (ready : Ready scope store) (inside : ∀ name ∈ formula.names, name ∈ scope.names)
    (readable : formula.readable = true) (reads : lex code = formula.expression.listing)
    (enough : formula.cost scope.level + 2 ≤ depth) :
    (Interpreter.eval depth scope.env code).verdict store = answer (formula.value scope.meaning) := by
  obtain ⟨depth, rfl⟩ : ∃ d, depth = d + 1 := ⟨depth - 1, by omega⟩
  have whole : lex code = (Phrase.whole formula.expression).tokens := reads
  have ensures : (Interpreter.eval (depth + 1) scope.env code).Ensures store
      (fun text _ => ∃ n, formula.value scope.meaning = some n ∧ writable n = true ∧ text = decimal n)
      fun failure _ => (∃ n, formula.value scope.meaning = some n ∧ writable n = false ∧
          failure = .oversizeNumber) ∨
        (formula.value scope.meaning = none ∧ failure = .fault .divisionByZero) := by
    rw [Interpreter.eval, Reader.parse_eq_build whole]
    refine (build_plays depth inside readable roles store assigns).bind ?_ fun _ _ never => never.elim
    rintro x store₁ ⟨roles₁, further₁, plays⟩
    show ((force depth x >>= _) >>= showTree).Ensures store₁ _ _
    rw [bind_assoc]
    refine (force_plays scope depth further₁.assigns (ready.of_tables further₁.tables) plays).bind ?_ ?_
    · rintro v store₂ ⟨roles₂, further₂, value⟩
      obtain ⟨n, rfl, found⟩ := value.integer
      show (pure (Tree.num n) >>= showTree).Ensures store₂ _ _
      rw [pure_bind, showTree, Tree.writable]
      cases fits : writable n with
      | true => exact ⟨n, found, fits, rfl⟩
      | false => exact Or.inl ⟨n, found, fits, rfl⟩
    · rintro failure store₂ ⟨roles₂, further₂, ⟨same, fails⟩ | ⟨-, le⟩⟩
      · refine Or.inr ⟨?_, same⟩
        generalize formula.value scope.meaning = a at fails
        cases fails
        rfl
      · omega
  rcases ensures.verdict with ⟨text, answered, n, found, fits, rfl⟩ |
    ⟨failure, failed, ⟨n, found, beyond, rfl⟩ | ⟨missing, rfl⟩⟩
  · rw [answered, found]
    simp [answer, fits]
  · rw [failed, found]
    simp [answer, beyond]
  · rw [failed, missing]
    rfl

/-! ### The lines of definitions -/

namespace Text

variable {c : Char} {word left right : List Char} {separates : Char → Bool}

theorem pieces_ne_nil (text : List Char) : pieces separates text ≠ [] := by
  cases text with
  | nil => exact List.cons_ne_nil _ _
  | cons c rest =>
    cases separating : separates c with
    | true => simp [pieces_cons_of_pos separating]
    | false =>
      rw [pieces_cons_of_neg separating]
      unfold joinFirst
      split <;> exact List.cons_ne_nil _ _

/-- A separating character divides the pieces. -/
theorem pieces_append (left : List Char) (separating : separates c = true) (right : List Char) :
    pieces separates (left ++ c :: right) = pieces separates left ++ pieces separates right := by
  induction left with
  | nil => exact pieces_cons_of_pos separating right
  | cons d left ih =>
    cases here : separates d with
    | true =>
      rw [List.cons_append, pieces_cons_of_pos here, pieces_cons_of_pos here, ih]
      rfl
    | false =>
      rw [List.cons_append, pieces_cons_of_neg here, pieces_cons_of_neg here, ih]
      obtain ⟨run, runs, same⟩ := List.exists_cons_of_ne_nil (pieces_ne_nil left)
      rw [same]
      rfl

/-- A blank divides the words. -/
theorem words_append (left : List Char) (blank : isBlank c = true) (right : List Char) :
    words (left ++ c :: right) = words left ++ words right := by
  rw [words, pieces_append left blank, List.filter_append]
  rfl

end Text

namespace Definitions

/-- A text without the separator is one part. -/
theorem parts_of_undivided {text : List Char}
    (undivided : ∀ before after, text ≠ before ++ ' ' :: '=' :: ' ' :: after) :
    parts text = [text] := by
  fun_induction parts text with
  | case1 => rfl
  | case2 rest ih => exact absurd rfl (undivided [] rest)
  | case3 c rest other ih =>
    rw [ih fun before after same => undivided (c :: before) after (by rw [same]; rfl)]
    rfl

/-- The first separator ends the first part. -/
theorem parts_append {name : List Char} (unspaced : ' ' ∉ name) (body : List Char) :
    parts (name ++ ' ' :: '=' :: ' ' :: body) = name :: parts body := by
  induction name with
  | nil => rw [List.nil_append, parts]
  | cons c rest ih =>
    have other : c ≠ ' ' := by
      rintro rfl
      exact unspaced List.mem_cons_self
    rw [List.cons_append, parts, ih fun member => unspaced (List.mem_cons_of_mem c member)]
    · rfl
    · intro after same
      exact absurd same other

theorem words_of_definable {name : String} (definable : Definable name) :
    Text.words name.toList = [name.toList] := by
  have proper : ∀ word ∈ [name.toList], word ≠ [] ∧ ∀ c ∈ word, Text.isBlank c = false := by
    intro word member
    rw [List.mem_singleton.mp member]
    exact ⟨definable.legible.nonempty, definable.legible.unbroken⟩
  have split := Text.words_intercalate proper
  rwa [List.intercalate_singleton] at split

/-- The separator is no part of a body in which its sign is not mentioned. -/
theorem undivided {body : String} (unmentioned : Token.symbol "=" ∉ lex body)
    (before after : List Char) : body.toList ≠ before ++ ' ' :: '=' :: ' ' :: after := by
  intro same
  have sign : Text.words ('=' :: ' ' :: after) = ['='] :: Text.words after :=
    Text.words_append ['='] (by decide) after
  refine unmentioned ?_
  rw [lex, same, Text.words_append before (by decide), sign]
  have read : Token.ofWord ['='] = .symbol "=" := by decide
  rw [← read]
  exact List.mem_map_of_mem (by simp)

/-- **The line of a definition is read as the definition.** -/
theorem ofChars_definition {name body : String} (definable : Definable name)
    (unmentioned : Token.symbol "=" ∉ lex body) (number : Nat) :
    Line.ofChars number (name.toList ++ ' ' :: '=' :: ' ' :: body.toList) =
      .ok (.definition name.toList body.toList) := by
  have word := words_of_definable definable
  have words : Text.words (name.toList ++ ' ' :: '=' :: ' ' :: body.toList) =
      name.toList :: Text.words ('=' :: ' ' :: body.toList) := by
    rw [Text.words_append name.toList (by decide), word]
    rfl
  have unspaced : ' ' ∉ name.toList := by
    intro member
    have unbroken := definable.legible.unbroken ' ' member
    revert unbroken
    decide
  unfold Line.ofChars
  rw [if_neg (by simp [words])]
  simp only [parts_append unspaced, parts_of_undivided (undivided unmentioned), word]

end Definitions

/-- The symbols of a formula are its names and primitives. -/
theorem symbol_not_mem_listing {word : String} (monops : ∀ op : Monop, word ≠ op.name)
    (binops : ∀ op : Binop, word ≠ op.name) (unnamed : word ∉ formula.names) :
    Token.symbol word ∉ formula.expression.listing := by
  induction formula with
  | literal numeral => simp [Formula.expression, Expression.listing]
  | reference name => simpa [Formula.expression, Expression.listing, Formula.names] using unnamed
  | monop op x ih =>
    simpa [Formula.expression, Expression.listing, monops op] using ih unnamed
  | operate op x y ihX ihY =>
    simp only [Formula.names, List.mem_append, not_or] at unnamed
    simpa [Formula.expression, Expression.listing, binops op.binop] using
      ⟨ihX unnamed.1, ihY unnamed.2⟩
  | choose test p q yes no ihP ihQ ihYes ihNo =>
    simp only [Formula.names, List.mem_append, not_or, and_assoc] at unnamed
    simpa [Formula.expression, Expression.listing, binops test.binop, and_assoc] using
      ⟨ihP unnamed.1, ihQ unnamed.2.1, ihYes unnamed.2.2.1, ihNo unnamed.2.2.2⟩

/-- The line of a clause is read as its definition. -/
theorem Clause.ofChars_line {clause : Clause}
    (names : ∀ name ∈ clause.formula.names, Definable name) (number : Nat) :
    Definitions.Line.ofChars number clause.line =
      .ok (.definition clause.name.toList clause.body.toList) := by
  refine Definitions.ofChars_definition clause.definable ?_ number
  rw [clause.reads]
  refine symbol_not_mem_listing (fun op => ?_) (fun op => ?_) fun member => ?_
  · cases op <;> decide
  · cases op <;> decide
  · exact (names "=" member).ne_equals rfl

/-! ### Loading programs -/

/-- **A scope describes a program**: its names are those defined, and mean and take what the formulas
of the program say. -/
structure Describes (scope : Scope) (program : List Clause) : Prop where
  names : scope.names = program.map Clause.name
  meaning : Solves program scope.meaning
  level : ∀ clause ∈ program, scope.level clause.name = clause.formula.cost scope.level

theorem Store.lookup_eq_none {t : TableId} {name : String} (free : name ∉ store.names t) :
    (store.table t).lookup name = none := by
  refine List.lookup_eq_none_iff.mpr fun binding bound => ?_
  have other : name ≠ binding.1 := by
    rintro rfl
    exact free (List.mem_map_of_mem bound)
  simpa using other

/-- A table in which a name is found is there. -/
theorem Store.inside_of_lookup {t : TableId} {name : String}
    (found : (store.table t).lookup name = some x) : t.index < store.tables.size := by
  by_contra outside
  have nothing : store.table t = [] := by simp [Store.table, Array.getD, outside]
  rw [nothing] at found
  cases found

theorem Assigns.inside (assigns : Assigns scope roles store) :
    scope.env.index < store.tables.size := by
  obtain ⟨x, found, -⟩ := assigns.monops .inc
  exact Store.inside_of_lookup found

/-- **A name is bound** to a cell that plays its role. -/
theorem Assigns.bindName {name : String} (assigns : Assigns scope roles store)
    (unbound : (store.table scope.env).lookup name = none)
    (plays : roles.Plays x (.integer (scope.meaning name)) (scope.level name)) :
    Assigns scope roles (store.bindName scope.env name x) := by
  have table : (store.bindName scope.env name x).table scope.env =
      store.table scope.env ++ [(name, x)] := by
    rw [Store.table_bindName assigns.inside, if_pos rfl]
  have kept : ∀ {word y}, (store.table scope.env).lookup word = some y →
      ((store.bindName scope.env name x).table scope.env).lookup word = some y := by
    intro word y found
    rw [table, List.lookup_append, found]
    rfl
  refine ⟨assigns.length, assigns.cells, fun word member y found => ?_, fun op => ?_, fun op => ?_⟩
  · rw [table] at found
    by_cases same : word = name
    · rw [same, lookup_append_self unbound] at found
      cases found
      rwa [same]
    · rw [lookup_append_other same] at found
      exact assigns.bound word member y found
  · obtain ⟨y, found, playsY⟩ := assigns.monops op
    exact ⟨y, kept found, playsY⟩
  · obtain ⟨y, found, playsY⟩ := assigns.binops op
    exact ⟨y, kept found, playsY⟩

theorem definable_of_mem {name : String} (member : name ∈ program.map Clause.name) :
    Definable name := by
  obtain ⟨clause, -, rfl⟩ := List.mem_map.mp member
  exact clause.definable

/-- **The line of a definition is carried out.** -/
theorem defineLine_plays {clause : Clause} (depth number : Nat) (describes : Describes scope program)
    (wellFormed : WellFormed program) (member : clause ∈ program)
    (assigns : Assigns scope roles store) (free : clause.name ∉ store.names scope.env) :
    (Definitions.defineLine (depth + 1) scope.env number clause.line).Ensures store
      (fun count later => count = 1 ∧ (∃ roles', Assigns scope roles' later) ∧
        later.names scope.env = store.names scope.env ++ [clause.name]) fun _ _ => False := by
  have closed := wellFormed.closed clause member
  have line := Clause.ofChars_line (fun name among => definable_of_mem (closed name among)) number
  have inside : ∀ name ∈ clause.formula.names, name ∈ scope.names := by
    rw [describes.names]
    exact closed
  have whole : lex clause.body = (Phrase.whole clause.formula.expression).tokens := clause.reads
  unfold Definitions.defineLine
  rw [line]
  simp only [String.ofList_toList]
  rw [Reader.parse_eq_build whole]
  refine (build_plays depth inside clause.readable roles store assigns).bind ?_ fun _ _ never => never
  rintro x store₁ ⟨roles₁, further₁, plays⟩
  have unbound : (store₁.table scope.env).lookup clause.name = none := by
    rw [Store.table_congr further₁.tables]
    exact Store.lookup_eq_none free
  rw [← describes.meaning clause member, ← describes.level clause member] at plays
  rw [Eval.ensures_bind]
  unfold Eval.Ensures
  rw [define_of_unbound unbound x]
  refine ⟨rfl, ⟨roles₁, further₁.assigns.bindName unbound plays⟩, ?_⟩
  rw [Store.names, (Store.Logs.bindName further₁.assigns.inside unbound x).table,
    Store.table_congr further₁.tables, List.map_append]
  rfl

/-- **The lines of definitions are carried out, in any order**, if their names are free. -/
theorem defineLines_plays {clauses : List Clause} (depth number count : Nat)
    (describes : Describes scope program) (wellFormed : WellFormed program)
    (members : ∀ clause ∈ clauses, clause ∈ program) (distinct : (clauses.map Clause.name).Nodup)
    (assigns : Assigns scope roles store)
    (free : ∀ clause ∈ clauses, clause.name ∉ store.names scope.env) :
    (Definitions.defineLines (depth + 1) scope.env number count (clauses.map Clause.line)).Ensures
      store
      (fun total later => total = count + clauses.length ∧ (∃ roles', Assigns scope roles' later) ∧
        later.names scope.env = store.names scope.env ++ clauses.map Clause.name)
      fun _ _ => False := by
  induction clauses generalizing number count roles store with
  | nil => exact ⟨rfl, ⟨roles, assigns⟩, by simp⟩
  | cons clause rest ih =>
    rw [List.map_cons, List.nodup_cons] at distinct
    rw [List.map_cons, Definitions.defineLines]
    refine (defineLine_plays depth number describes wellFormed
      (members clause List.mem_cons_self) assigns (free clause List.mem_cons_self)).bind ?_
      fun _ _ never => never
    rintro _ store₁ ⟨rfl, ⟨roles₁, assigns₁⟩, names₁⟩
    have free₁ : ∀ other ∈ rest, other.name ∉ store₁.names scope.env := by
      intro other member
      rw [names₁, List.mem_append, List.mem_singleton, not_or]
      refine ⟨free other (List.mem_cons_of_mem _ member), fun same => distinct.1 ?_⟩
      rw [← same]
      exact List.mem_map_of_mem member
    refine (ih (number + 1) (count + 1) (fun other member =>
      members other (List.mem_cons_of_mem _ member)) distinct.2 assigns₁ free₁).mono ?_
      fun _ _ never => never
    rintro total store₂ ⟨rfl, assigned, names₂⟩
    refine ⟨by rw [List.length_cons]; omega, assigned, ?_⟩
    rw [names₂, names₁, List.append_assoc]
    rfl

/-! ### The roles to start with -/

/-- The role of a primitive of arithmetic. -/
def Cell.primitive? : Cell → Option (Role × Nat)
  | .value (.func (.unary (.monop op))) => some (Role.monop op, 0)
  | .value (.func (.binary (.binop op))) => some (Role.binop op, 0)
  | _ => none

/-- The roles of the primitives of arithmetic, and no others. -/
def Store.primitives (store : Store) : Roles :=
  store.cells.toList.map Cell.primitive?

theorem Store.of_primitives (store : Store) (x : CellId) :
    store.primitives.of x = (store.cell x).primitive? := by
  unfold primitives Labels.of Store.cell
  simp only [List.getD_eq_getElem?_getD, List.getElem?_map, Array.getElem?_toList,
    Array.getD_eq_getD_getElem?]
  cases store.cells[x.index]? <;> rfl

theorem Cell.primitive?_conforms {c : Cell} {cost : Nat} (scope : Scope) (roles : Roles)
    (primitive : c.primitive? = some (role, cost)) : c.ConformsTo scope roles role cost := by
  unfold Cell.primitive? at primitive
  split at primitive
  · cases primitive
    exact ValueAs.monop
  · cases primitive
    exact ValueAs.binop
  · cases primitive

/-- **Where the builtins are bound, roles can be assigned** before names are. -/
theorem Store.HasBuiltins.assigns (builtins : store.HasBuiltins scope.env)
    (free : ∀ name ∈ scope.names, name ∉ store.names scope.env) :
    Assigns scope store.primitives store := by
  have plays : ∀ {name : String} {v : Value} {role : Role}, (name, v) ∈ Builtins.all →
      (Cell.value v).primitive? = some (role, 0) →
      ∃ x, (store.table scope.env).lookup name = some x ∧ store.primitives.Plays x role 0 := by
    intro name v role member primitive
    obtain ⟨x, found, -, holds⟩ := builtins (name, v) member
    exact ⟨x, found, 0, Nat.le_refl _, by rw [store.of_primitives, holds, primitive]⟩
  refine ⟨by simp [primitives], fun x role cost played => ?_, fun name member x found => ?_,
    fun op => ?_, fun op => ?_⟩
  · rw [store.of_primitives] at played
    exact Cell.primitive?_conforms scope _ played
  · rw [Store.lookup_eq_none (free name member)] at found
    cases found
  · have member : (op.name, Value.func (.unary (.monop op))) ∈ Builtins.all := by
      cases op <;> decide
    exact plays member rfl
  · have member : (op.name, Value.func (.binary (.binop op))) ∈ Builtins.all := by
      cases op <;> decide
    exact plays member rfl

/-! ### Programs of formulas -/

namespace Interpreter

/-- Evaluations, each with the depth that it may nest to. -/
def evaluations (codes : List (Nat × String)) : List (Nat × Call) :=
  codes.map fun (depth, code) => (depth, .eval code)

theorem reachedFrom_append (store : Store) (calls more : List (Nat × Call)) :
    reachedFrom store (calls ++ more) = reachedFrom (reachedFrom store calls) more := by
  induction calls generalizing store with
  | nil => rfl
  | cons next rest ih => exact ih _

/-- The store after a batch of definitions and further calls. -/
theorem reached_define (before after : List (Nat × Call)) (depth : Nat) (text : String) :
    reached (before ++ (depth, .define text) :: after) =
      reachedFrom ((Definitions.load depth home text).after (reached before)) after :=
  reachedFrom_append fresh before _

/-- Evaluations define nothing. -/
theorem made_evaluations (codes : List (Nat × String)) : made (evaluations codes) = [] := by
  have each : ∀ store, madeFrom store (evaluations codes) = [] := by
    induction codes with
    | nil => exact fun _ => rfl
    | cons next rest ih => exact fun store => ih _
  exact each fresh

/-- Evaluations leave the roles as they are, whatever they evaluate. -/
theorem evaluations_further (codes : List (Nat × String)) (assigns : Assigns scope roles store)
    (ready : Ready scope store) :
    ∃ roles', Further scope roles store roles' (reachedFrom store (evaluations codes)) := by
  induction codes generalizing roles store with
  | nil => exact ⟨roles, .refl assigns⟩
  | cons next rest ih =>
    obtain ⟨depth, code⟩ := next
    have respects := eval_respects (furthers_allow scope) (force_furthers scope) depth home code
    obtain ⟨roles₁, further₁⟩ := (respects store).after roles assigns ready
    obtain ⟨roles₂, further₂⟩ := ih further₁.assigns (ready.of_tables further₁.tables)
    exact ⟨roles₂, further₁.trans further₂⟩

/-- The lines of a program are carried out in a store that has the builtins and nothing else. -/
theorem load_plays {order : List Clause} {text : String} (depth : Nat) (same : scope.env = home)
    (describes : Describes scope program) (wellFormed : WellFormed program)
    (ordered : order.Perm program) (lines : Text.lines text.toList = order.map Clause.line)
    (builtins : store.HasBuiltins home) (names : store.names home = Builtins.all.map Prod.fst) :
    (Definitions.load (depth + 1) home text).Ensures store
      (fun count later => count = program.length ∧ (∃ roles, Assigns scope roles later) ∧
        Ready scope later) fun _ _ => False := by
  have free : ∀ name ∈ program.map Clause.name, name ∉ store.names home := by
    intro name member
    rw [names]
    exact (definable_of_mem member).not_builtin
  rw [← same] at builtins free ⊢
  have assigns : Assigns scope store.primitives store := by
    refine builtins.assigns ?_
    rw [describes.names]
    exact free
  rw [Definitions.load, lines]
  have distinct : (order.map Clause.name).Nodup :=
    (ordered.map Clause.name).nodup_iff.mpr wellFormed.distinct
  refine (defineLines_plays depth 1 0 describes wellFormed (fun clause => ordered.mem_iff.mp) distinct
    assigns fun clause member => free _ (List.mem_map_of_mem (ordered.mem_iff.mp member))).mono ?_
    fun _ _ never => never
  rintro count later ⟨rfl, assigned, bound⟩
  refine ⟨by rw [Nat.zero_add, ordered.length_eq], assigned, fun name member => ?_⟩
  rw [describes.names] at member
  cases found : (later.table scope.env).lookup name with
  | some x => exact ⟨x, rfl⟩
  | none =>
    have missing := Store.not_mem_names found
    rw [bound, List.mem_append] at missing
    exact absurd (Or.inr ((ordered.map Clause.name).mem_iff.mpr member)) missing

/-- **Programs of formulas compute.** There is a meaning of the names of a program that agrees with
all of its formulas. Whatever was evaluated before, the definitions are accepted in every order of
their lines; and whatever is evaluated after that, evaluating a formula answers the text of its value,
with enough depth, and fails with a division by zero exactly if its value demands one. -/
theorem formulas_compute (wellFormed : WellFormed program) :
    (∃ meaning, Solves program meaning) ∧
    ∃ enough : Formula → Nat, ∀ (order : List Clause) (text : String) (depth : Nat)
      (before after : List (Nat × String)), order.Perm program →
      Text.lines text.toList = order.map Clause.line → 0 < depth →
      (Definitions.load depth home text).verdict (reached (evaluations before)) =
        .ok program.length ∧
      ∀ (meaning : String → Option Int) (formula : Formula) (code : String) (depth' : Nat),
        Solves program meaning → (∀ name ∈ formula.names, name ∈ program.map Clause.name) →
        formula.readable = true → lex code = formula.expression.listing →
        enough formula ≤ depth' →
        (∀ n, formula.value meaning = some n →
          (eval depth' home code).verdict
              (reached (evaluations before ++ (depth, .define text) :: evaluations after)) =
            if writable n then .ok (decimal n) else .error .oversizeNumber) ∧
        ((eval depth' home code).verdict
              (reached (evaluations before ++ (depth, .define text) :: evaluations after)) =
            .error (.fault .divisionByZero) ↔ DividesByZero program meaning formula) := by
  obtain ⟨level, levels⟩ := exists_solution wellFormed Formula.cost_congr
  obtain ⟨found, solved⟩ := exists_solution wellFormed Formula.value_congr
  refine ⟨⟨found, solved⟩, fun formula => formula.cost level + 2, ?_⟩
  intro order text depth before after ordered lines positive
  obtain ⟨depth, rfl⟩ : ∃ d, depth = d + 1 := ⟨depth - 1, by omega⟩
  have names : (reached (evaluations before)).names home = Builtins.all.map Prod.fst := by
    have bound := names_reached (evaluations before)
    rwa [made_evaluations, List.map_nil, List.append_nil] at bound
  have builtins := hasBuiltins_reached (evaluations before)
  -- One scope for each meaning: the definitions are accepted under any, and answered under all.
  let scope (meaning : String → Option Int) : Scope :=
    ⟨home, program.map Clause.name, meaning, level⟩
  have describes : ∀ {meaning}, Solves program meaning → Describes (scope meaning) program :=
    fun solves => ⟨rfl, solves, levels⟩
  constructor
  · rcases (load_plays depth rfl (describes solved) wellFormed ordered lines builtins names).verdict
      with ⟨count, answered, rfl, -⟩ | ⟨_, _, never⟩
    · exact answered
    · exact never.elim
  · intro meaning formula code depth' solves inside readable reads enough
    have loaded := load_plays depth rfl (describes solves) wellFormed ordered lines builtins names
    obtain ⟨⟨roles, assigns⟩, ready⟩ := loaded.after
      (fun later => (∃ roles, Assigns (scope meaning) roles later) ∧ Ready (scope meaning) later)
      (fun _ _ ended => ended.2) fun _ _ never => never.elim
    obtain ⟨roles', further⟩ := evaluations_further after assigns ready
    have answered := eval_plays further.assigns (ready.of_tables further.tables) inside readable reads
      enough
    rw [← reached_define] at answered
    refine ⟨fun n value => ?_, ?_⟩
    · rw [answered, value, answer]
    · rw [answered, answer_eq_divisionByZero]
      exact value_eq_none_iff wellFormed solves inside

/-- A quotient that is rounded toward zero, a choice that does not choose a quotient by zero, and a sum
that mentions the choice before it is defined. -/
def forward : List Clause :=
  [⟨"x", "ap ap add y 3", .operate .add (.reference "y") (.literal ⟨false, ['3']⟩),
      definable_of_alphanumeric (by decide) (by decide) (by decide) (by decide), by decide +kernel,
      by decide⟩,
    ⟨"y", "ap ap ap ap lt 0 z bad ap neg z",
      .choose .lt (.literal ⟨false, ['0']⟩) (.reference "z") (.reference "bad")
        (.monop .neg (.reference "z")),
      definable_of_alphanumeric (by decide) (by decide) (by decide) (by decide), by decide +kernel,
      by decide⟩,
    ⟨"z", "ap ap div -7 2", .operate .div (.literal ⟨true, ['7']⟩) (.literal ⟨false, ['2']⟩),
      definable_of_alphanumeric (by decide) (by decide) (by decide) (by decide), by decide +kernel,
      by decide⟩,
    ⟨"bad", "ap ap div 1 0", .operate .div (.literal ⟨false, ['1']⟩) (.literal ⟨false, ['0']⟩),
      definable_of_alphanumeric (by decide) (by decide) (by decide) (by decide), by decide +kernel,
      by decide⟩]

theorem wellFormed_forward : WellFormed forward := by
  have ranked : ∀ {mentioned name}, Mentions forward mentioned name →
      ["bad", "z", "y", "x"].idxOf mentioned < ["bad", "z", "y", "x"].idxOf name := by
    rintro mentioned name ⟨clause, member, rfl, inside⟩
    simp only [forward, List.mem_cons, List.not_mem_nil, or_false] at member
    rcases member with rfl | rfl | rfl | rfl <;>
      simp [Formula.names] at inside <;> rcases inside with rfl | rfl | rfl <;> decide
  refine ⟨by decide, by decide, fun name circle => ?_⟩
  have led : ∀ {other}, Relation.TransGen (Mentions forward) name other →
      ["bad", "z", "y", "x"].idxOf name < ["bad", "z", "y", "x"].idxOf other := by
    intro other leads
    induction leads with
    | single mentions => exact ranked mentions
    | tail _ mentions ih => exact ih.trans (ranked mentions)
  exact Nat.lt_irrefl _ (led circle)

/-- Before the definitions a name is applied that is not defined yet, and after them the quotient by
zero and the sum are evaluated, the latter with too little depth. -/
theorem formulas_compute_forward :
    let text := "x = ap ap add y 3\ny = ap ap ap ap lt 0 z bad ap neg z\n" ++
      "z = ap ap div -7 2\nbad = ap ap div 1 0"
    let before : List (Nat × String) := [(9, "ap x 1")]
    let after : List (Nat × String) := [(9, "bad"), (2, "x"), (9, "ap ap cons y x")]
    let store := reached (evaluations before ++ (1, .define text) :: evaluations after)
    WellFormed forward ∧ Text.lines text.toList = forward.map Clause.line ∧
      (Definitions.load 1 home text).verdict (reached (evaluations before)) = .ok 4 ∧
      ∃ depth, (eval depth home "ap ap mul x ap inc y").verdict store = .ok "24" ∧
        (eval depth home "ap ap add 1 bad").verdict store = .error (.fault .divisionByZero) := by
  intro text before after store
  have lines : Text.lines text.toList = forward.map Clause.line := by decide +kernel
  obtain ⟨⟨meaning, solves⟩, enough, computes⟩ := formulas_compute wellFormed_forward
  obtain ⟨loads, answers⟩ := computes forward text 1 before after (List.Perm.refl _) lines (by decide)
  let product : Formula := .operate .mul (.reference "x") (.monop .inc (.reference "y"))
  let sum : Formula := .operate .add (.literal ⟨false, ['1']⟩) (.reference "bad")
  have z : meaning "z" = some (-3) := by rw [solves _ (.tail _ (.tail _ (.head _)))]; rfl
  have y : meaning "y" = some 3 := by
    rw [solves _ (.tail _ (.head _))]
    show (do
      let n ← meaning "z"
      if Comparison.lt.holds 0 n then meaning "bad" else (meaning "z").map Monop.neg.apply) = _
    rw [z]
    rfl
  have x : meaning "x" = some 6 := by
    rw [solves _ (.head _)]
    show (do Operation.add.compute (← meaning "y") 3) = _
    rw [y]
    rfl
  have value : product.value meaning = some 24 := by
    show (do Operation.mul.compute (← meaning "x") (← (meaning "y").map Monop.inc.apply)) = _
    rw [x, y]
    rfl
  have divides : DividesByZero forward meaning sum :=
    ⟨_, _, .operand (Or.inr rfl) (.reference (.tail _ (.tail _ (.tail _ (.head _)))) .self), rfl⟩
  have fits : writable 24 = true ∧ decimal 24 = "24" := by decide +kernel
  let depth := max (enough product) (enough sum)
  refine ⟨wellFormed_forward, lines, loads, depth, ?_, ?_⟩
  · have answer := (answers meaning product "ap ap mul x ap inc y" depth solves (by decide)
      (by decide) (by decide +kernel) (Nat.le_max_left _ _)).1 24 value
    rwa [if_pos fits.1, fits.2] at answer
  · exact (answers meaning sum "ap ap add 1 bad" depth solves (by decide) (by decide)
      (by decide +kernel) (Nat.le_max_right _ _)).2.mpr divides

end Interpreter

end ByNeed
