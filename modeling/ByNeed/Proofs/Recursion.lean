/-
**Recursion computes its recurrence.**

A definition that mentions its own name is built before the name is bound, so the mention looks the
name up when it is forced for the first time, and is the function itself from then on. Whichever of
the two a call finds, and whatever was evaluated or cut short before it, it comes to what the
recurrence says, and it nests only so deeply as the number is large.

* `Store.Computes`: a name is bound to a recurrence, whose cells keep their promises;
* `load_computes`: **the line of a recurrence is carried out**;
* `eval_of_computes`: evaluating the name at a number answers what the recurrence comes to;
* `recursion_computes`: **a recurrence is computed at every natural number**, after any evaluations.
-/

import ByNeed.Proofs.Arithmetic
import ByNeed.Proofs.Recursion.Promises

namespace ByNeed

/-- **A name computes a recurrence**: it is bound to its definition, and all cells keep their
promises. -/
def Store.Computes (store : Store) (env : TableId) (name : String) (recurrence : Recurrence) : Prop :=
  ∃ layout promises, layout.env = env ∧ layout.name = name ∧ layout.recurrence = recurrence ∧
    Honours layout promises store

variable {layout : Layout} {promises : Promises} {store later : Store} {x : CellId}
  {recurrence : Recurrence} {env : TableId} {name : String} {depth : Nat}

/-! ### The promises to start with -/

/-- What a cell promises before a recurrence is called: the value that it holds, or, if it looks the
name up, the function that the name stands for. -/
def Cell.promise? (layout : Layout) : Cell → Option (Promise × Nat)
  | .value v => some (.value v, 0)
  | .suspended s =>
    if s = .lookup layout.env layout.name then some (.value (.func layout.function), 1) else none

/-- What the cells of a store promise before a recurrence is called. -/
def Store.promised (store : Store) (layout : Layout) : Promises :=
  store.cells.toList.map (Cell.promise? layout)

theorem Store.of_promised (there : store.Has x) :
    (store.promised layout).of x = (store.cell x).promise? layout := by
  have inside : x.index < store.cells.size := there
  simp [promised, Labels.of, cell, inside]

theorem Cell.promise?_keeps {c : Cell} {promise : Promise} {cost : Nat}
    (promised : c.promise? layout = some (promise, cost)) :
    c.KeepsTo layout promises promise cost := by
  cases c with
  | value v =>
    cases promised
    exact Fulfils.value
  | suspended s =>
    simp only [promise?] at promised
    split at promised
    · next same =>
      cases promised
      rw [same]
      exact Pursues.lookup Nat.one_pos
    · cases promised

/-- A cell that holds a value promises it. -/
theorem Store.promised_makes {v : Value} (holds : store.Has x ∧ store.cell x = .value v) :
    (store.promised layout).Makes x (.value v) 0 := by
  refine ⟨0, Nat.le_refl 0, ?_⟩
  rw [Store.of_promised holds.1, holds.2]
  rfl

/-- **The cells of the definition of a recurrence can be given their promises**, once its name is
bound. -/
theorem Store.Formed.computes (formed : store.Formed env x (recurrence.form name))
    (bound : (store.table env).lookup name = some x) : store.Computes env name recurrence := by
  obtain ⟨test, next, holdsWhole, tests, nexts⟩ := formed
  obtain ⟨equals, start, holdsTest, ⟨zero, holdsEquals, holdsZero⟩, holdsStart⟩ := tests
  obtain ⟨step, again, holdsNext, holdsStep, self, decrease, holdsAgain, holdsSelf, holdsDecrease⟩ :=
    nexts
  let layout : Layout :=
    ⟨env, name, recurrence, zero, equals, start, test, step, decrease, self, again, next, x⟩
  refine ⟨layout, store.promised layout, rfl, rfl, rfl, by simp [Store.promised], ?_, ?_, bound⟩
  · intro y promise cost made
    have there : store.Has y := by
      simpa [Store.promised, Store.Has] using Labels.lt_length made
    rw [Store.of_promised there] at made
    exact Cell.promise?_keeps made
  · refine ⟨Store.promised_makes holdsZero, Store.promised_makes holdsEquals,
      Store.promised_makes holdsStart, Store.promised_makes holdsTest, Store.promised_makes holdsStep,
      Store.promised_makes holdsDecrease, ⟨1, Nat.le_refl 1, ?_⟩, Store.promised_makes holdsAgain,
      Store.promised_makes holdsNext, Store.promised_makes holdsWhole⟩
    rw [Store.of_promised holdsSelf.1, holdsSelf.2]
    exact if_pos rfl

/-! ### The definition -/

/-- The expression of a recurrence is built and bound to its name. -/
theorem define_computes (depth : Nat) (readable : recurrence.start.readable = true)
    (builtins : store.HasBuiltins env) (free : name ∉ store.names env) :
    ((recurrence.expression name).build (depth + 1) env >>= Environment.define env name).Ensures store
      (fun _ later => later.Computes env name recurrence) fun _ _ => False := by
  have missing := Store.lookup_eq_none free
  refine (build_formed depth (Recurrence.forms readable) builtins missing).bind ?_
    fun _ _ never => never
  rintro x store₁ ⟨builds, formed⟩
  have unbound : (store₁.table env).lookup name = none := by
    rwa [Store.table_congr builds.tables_eq]
  have inside : env.index < store₁.tables.size := by
    obtain ⟨y, found, -⟩ := builtins.builds builds ("nil", .nil) (by decide)
    exact Store.inside_of_lookup found
  unfold Eval.Ensures
  rw [define_of_unbound unbound x]
  have kept : (store₁.bindName env name x).Formed env x (recurrence.form name) :=
    formed.mono fun there => ⟨there, rfl⟩
  refine kept.computes ?_
  rw [Store.table_bindName inside, if_pos rfl]
  exact lookup_append_self unbound x

/-- **The line of a recurrence is carried out**, if its name is free. -/
theorem load_computes {body text : String} (depth : Nat) (definable : Definable name)
    (reads : lex body = (recurrence.expression name).listing)
    (readable : recurrence.start.readable = true)
    (line : Text.lines text.toList = [name.toList ++ ' ' :: '=' :: ' ' :: body.toList])
    (builtins : store.HasBuiltins env) (free : name ∉ store.names env) :
    (Definitions.load (depth + 1) env text).Ensures store
      (fun count later => count = 1 ∧ later.Computes env name recurrence) fun _ _ => False := by
  have forms : (recurrence.expression name).Forms name (recurrence.form name) :=
    Recurrence.forms readable
  have unmentioned : Token.symbol "=" ∉ lex body := by
    rw [reads]
    intro member
    rcases forms.symbol_mem member with same | builtin
    · exact definable.ne_equals same.symm
    · revert builtin
      decide
  have whole : lex body = (Phrase.whole (recurrence.expression name)).tokens := reads
  rw [Definitions.load, line, Definitions.defineLines, Definitions.defineLine,
    Definitions.ofChars_definition definable unmentioned]
  simp only [String.ofList_toList]
  rw [Reader.parse_eq_build whole, ← bind_assoc, bind_assoc]
  refine (define_computes depth readable builtins free).bind ?_ fun _ _ never => never
  exact fun _ later computes => ⟨rfl, computes⟩

/-! ### Evaluations -/

/-- A call of the function is built: the number, and the suspension of the call. -/
theorem build_call {numeral : Numeral} {n : Nat} (depth : Nat)
    (honours : Honours layout promises store) (natural : numeral.toInt = n)
    (readable : numeral.readable = true) :
    Delivers layout promises store
      ((Expression.ap (.symbol layout.name) (.number numeral)).build (depth + 1) layout.env)
      (fun x promises' _ => promises'.Makes x (.datum (layout.recurrence.datum n)) (6 * n + 6))
      False := by
  have read : numeral.read = .ok (n : Int) := by
    rw [← natural]
    exact if_pos readable
  refine .congr (bind_of_ok (reference_of_bound honours.bound)) ?_
  simp only [Expression.build, read]
  have number : Delivers layout promises store (Eval.value (.num n))
      (fun y promises' _ => promises'.Makes y (.datum (.num n)) 0) False :=
    delivers_value honours .num
  refine number.bind ?_ id
  rintro y promises₁ store₁ prolongs₁ makes
  have honours₁ := prolongs₁.honours
  refine delivers_apply honours₁ (honours₁.holds honours₁.laid.whole) (by omega) fun _ _ => ?_
  exact (delivers_suspend honours₁ (.call makes (by omega))).mono (fun _ _ _ made => made.1) id

/-- **A number is given to a name that computes a recurrence**: the tree is that of what the
recurrence comes to at it. -/
theorem eval_of_computes {numeral : Numeral} {n : Nat} {code : String}
    (computes : store.Computes env name recurrence) (natural : numeral.toInt = n)
    (readable : numeral.readable = true)
    (reads : lex code = [.ap, .symbol name, .number numeral]) (enough : 7 * n + 8 ≤ depth) :
    (Interpreter.eval depth env code).verdict store =
      if (recurrence.datum n).tree.writable then .ok (recurrence.datum n).tree.text
      else .error .oversizeNumber := by
  obtain ⟨layout, promises, rfl, rfl, rfl, honours⟩ := computes
  obtain ⟨depth, rfl⟩ : ∃ d, depth = d + 1 := ⟨depth - 1, by omega⟩
  have whole : lex code = (Phrase.whole (.ap (.symbol layout.name) (.number numeral))).tokens := reads
  have height := layout.recurrence.height_datum n
  have rank := (layout.recurrence.datum n).rank_le_height
  have ensures : Delivers layout promises store (Interpreter.materialize (depth + 1) layout.env code)
      (fun tree _ _ => tree = (layout.recurrence.datum n).tree) False := by
    rw [Interpreter.materialize, Reader.parse_eq_build whole]
    refine (build_call depth honours natural readable).bind ?_ False.elim
    rintro x promises₁ store₁ prolongs₁ makes
    exact materialize_delivers layout _ (depth + 1) prolongs₁.honours makes (by omega)
  rcases ensures.verdict with ⟨tree, answered, promises', -, rfl⟩ | ⟨_, _, _, _, _, never⟩
  · have shown : Interpreter.eval (depth + 1) layout.env code =
        Interpreter.materialize (depth + 1) layout.env code >>= showTree := (bind_assoc _ _ _).symm
    unfold Eval.verdict
    rw [shown, bind_of_ok (Eval.eq_ok_of_verdict answered), showTree]
    cases (layout.recurrence.datum n).tree.writable <;> rfl
  · exact never.elim

namespace Interpreter

/-- Evaluations leave a name as it is, whatever they evaluate. -/
theorem evaluations_compute (codes : List (Nat × String))
    (computes : store.Computes home name recurrence) :
    (reachedFrom store (evaluations codes)).Computes home name recurrence := by
  induction codes generalizing store with
  | nil => exact computes
  | cons next rest ih =>
    obtain ⟨depth, code⟩ := next
    obtain ⟨layout, promises, env, name, recurrence, honours⟩ := computes
    have respects := eval_respects (upholds_allow layout) (force_upholds layout) depth home code
    obtain ⟨promises', prolongs⟩ := (respects store).after promises honours
    exact ih ⟨layout, promises', env, name, recurrence, prolongs.honours⟩

/-- **Self-recursion computes its recurrence.** Whatever an interpreter has been called with before,
the definition of a recurrence is accepted under a name that is free; and whatever is evaluated after
that, evaluating the name at a natural number answers the text of what the recurrence comes to, with a
depth that grows with the number, unless an integer in it is beyond the limit on digits. -/
theorem recursion_computes {body text : String} {before : List (Nat × Call)}
    (definable : Definable name) (free : name ∉ (reached before).names home)
    (reads : lex body = (recurrence.expression name).listing)
    (readable : recurrence.start.readable = true)
    (line : Text.lines text.toList = [name.toList ++ ' ' :: '=' :: ' ' :: body.toList])
    (positive : 0 < depth) :
    (Definitions.load depth home text).verdict (reached before) = .ok 1 ∧
    ∀ (after : List (Nat × String)) (n : Nat) (numeral : Numeral) (code : String) (depth' : Nat),
      numeral.toInt = n → numeral.readable = true →
      lex code = [.ap, .symbol name, .number numeral] → 7 * n + 8 ≤ depth' →
      (eval depth' home code).verdict
          (reached (before ++ (depth, .define text) :: evaluations after)) =
        if (recurrence.datum n).tree.writable then .ok (recurrence.datum n).tree.text
        else .error .oversizeNumber := by
  obtain ⟨depth, rfl⟩ : ∃ d, depth = d + 1 := ⟨depth - 1, by omega⟩
  have loaded := load_computes depth definable reads readable line (hasBuiltins_reached before) free
  constructor
  · rcases loaded.verdict with ⟨count, answered, rfl, -⟩ | ⟨_, _, never⟩
    · exact answered
    · exact never.elim
  · intro after n numeral code depth' natural readable' reads' enough
    have computes := loaded.after (fun later => later.Computes home name recurrence)
      (fun _ _ ended => ended.2) fun _ _ never => never.elim
    rw [reached_define]
    exact eval_of_computes (evaluations_compute after computes) natural readable' reads' enough

/-- The numbers from a number down to one, defined after the name was mentioned, and evaluated after
the definition at a number with too little depth, at a negative number, and under another name. -/
theorem recursion_computes_countdown :
    let body := "ap ap s ap ap c ap eq 0 nil ap ap s cons ap ap b countdown dec"
    let text := "countdown = " ++ body
    let before : List (Nat × Call) :=
      [(9, .define "early = ap countdown 2"), (9, .eval "ap countdown 1")]
    let after : List (Nat × String) :=
      [(9, "ap countdown 3"), (9, "ap countdown -1"), (60, "ap car early")]
    let store := reached (before ++ (9, .define text) :: evaluations after)
    (Definitions.load 9 home text).verdict (reached before) = .ok 1 ∧
      (eval 36 home "ap countdown 4").verdict store = .ok "[4, 3, 2, 1]" := by
  intro body text before after store
  have definable : Definable "countdown" :=
    definable_of_alphanumeric (by decide) (by decide) (by decide) (by decide)
  have free : "countdown" ∉ (reached before).names home := by decide +kernel
  have reads : lex body = ((Recurrence.pairing .nil).expression "countdown").listing := by
    decide +kernel
  have line : Text.lines text.toList =
      ["countdown".toList ++ ' ' :: '=' :: ' ' :: body.toList] := by
    decide +kernel
  have positive : 0 < 9 := by decide
  obtain ⟨loads, computes⟩ := recursion_computes definable free reads rfl line positive
  refine ⟨loads, ?_⟩
  have answered := computes after 4 ⟨false, ['4']⟩ "ap countdown 4" 36 (by decide) (by decide)
    (by decide +kernel) (by decide)
  have fits : ((Recurrence.pairing .nil).datum 4).tree.writable = true := by decide +kernel
  have shown : ((Recurrence.pairing .nil).datum 4).tree.text = "[4, 3, 2, 1]" := by decide +kernel
  rw [if_pos fits, shown] at answered
  exact answered

end Interpreter

end ByNeed
