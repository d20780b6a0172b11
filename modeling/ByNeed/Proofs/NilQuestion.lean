/-
**How the question for the empty list fails.**

A function is asked whether it is the empty list by giving it three arguments and forcing the result.
A fault while the result is forced is the cause of the fault that the function is neither the empty
list nor a pair. But the arguments are given before that, and giving them may apply a number: this
fault is not caught, and is reported as it is.

* `apply_blames`: what applying can fail in;
* `questionWith_of_lazy`: the question can always be put to a function that suspends its work;
* `nil_question_reported`: **a fault of the question is reported as that of asking**, unless a number
  was applied to put the question;
* `nil_question_escapes`: putting the question to the false truth value applies a number.
-/

import ByNeed.Builtins
import ByNeed.Proofs.Effect
import ByNeed.Proofs.Steps

namespace ByNeed

variable {store later last : Store} {depth : Nat} {f x : CellId} {v : Value}

/-! ### What applying fails in -/

/-- **What applying can fail in**: a number is applied, or a half is taken of what is no pair, or the
number is too long for the message, or applications nest too deeply. -/
inductive Failure.OfApplying : Failure → Prop
  | appliedNumber (n : Int) : OfApplying (.fault (.appliedNumber n))
  | halfOf (side : Half) (kind : Kind) : OfApplying (.fault (.halfOf side kind))
  | oversizeNumber : OfApplying .oversizeNumber
  | depthExhausted : OfApplying .depthExhausted

/-- A computation fails only as applying does. -/
def Blames {α : Type} (computation : Eval α) : Prop :=
  ∀ store, computation.Ensures store (fun _ _ => True) fun failure _ => failure.OfApplying

theorem Blames.bind {α β : Type} {computation : Eval α} {next : α → Eval β}
    (first : Blames computation) (rest : ∀ a, Blames (next a)) : Blames (computation >>= next) :=
  fun store => (first store).bind (fun a later _ => rest a later) fun _ _ expected => expected

theorem Blames.foldlM {α β : Type} {step : β → α → Eval β} (each : ∀ b a, Blames (step b a))
    (items : List α) (start : β) : Blames (items.foldlM step start) := by
  induction items generalizing start with
  | nil => exact fun _ => trivial
  | cons item rest ih =>
    rw [List.foldlM_cons]
    exact (each start item).bind ih

theorem half_blames (side : Half) (v : Value) : Blames (v.half side) := by
  intro store
  cases v with
  | pair head tail => cases side <;> exact trivial
  | num n => cases side <;> exact .halfOf _ _
  | nil => cases side <;> exact .halfOf _ _
  | func g => cases side <;> exact .halfOf _ _

theorem takeHalf_blames (side : Half) (x : CellId) : Blames (takeHalf side x) := by
  intro store
  unfold takeHalf
  rw [Eval.ensures_bind, Eval.ensures_cell]
  cases store.cell x with
  | value v => exact half_blames side v store
  | suspended s => exact trivial

theorem effect_blames {apply : CellId → CellId → Eval CellId} (applied : ∀ f x, Blames (apply f x))
    (effect : Effect) : Blames (effect.run apply) := by
  cases effect with
  | answer x => exact fun _ => trivial
  | add c => exact fun _ => trivial
  | take side x => exact takeHalf_blames side x
  | apply f x => exact applied f x
  | applyTwice f x y => exact (applied f x).bind fun g => applied g y
  | applyNested f g x => exact (applied g x).bind fun y => applied f y
  | refuse n =>
    intro store
    unfold Effect.run
    rw [Eval.ensures_faultShowing]
    cases writable n with
    | true => exact .appliedNumber n
    | false => exact .oversizeNumber

/-- **Applying a cell fails only as applying can**, however deeply it nests. -/
theorem apply_blames (depth : Nat) (f x : CellId) : Blames (apply depth f x) := by
  induction depth generalizing f x with
  | zero =>
    intro store
    cases holds : store.cell f with
    | suspended s =>
      rw [Eval.ensures_congr (apply_of_suspended holds 0 x)]
      exact trivial
    | value v =>
      unfold Eval.Ensures
      rw [apply_zero_of_value holds x]
      exact .depthExhausted
  | succ depth ih =>
    intro store
    cases holds : store.cell f with
    | suspended s =>
      rw [Eval.ensures_congr (apply_of_suspended holds (depth + 1) x)]
      exact trivial
    | value v =>
      rw [Eval.ensures_congr (apply_of_value holds depth x), applyWith_eq_run]
      exact effect_blames ih (v.effect x) store

theorem questionWith_blames (depth : Nat) (g : Func) : Blames (questionWith (apply depth) g) := by
  have value : ∀ v, Blames (Eval.value v) := fun _ _ => trivial
  refine (value _).bind fun asked => (value _).bind fun never => (value _).bind fun first => ?_
  exact (value _).bind fun second => .foldlM (apply_blames depth) _ asked

/-! ### Functions that suspend their work -/

/-- A cell is suspended, or holds a function that suspends its work. -/
def Store.Waits (store : Store) (x : CellId) : Prop :=
  (∃ s, store.cell x = .suspended s) ∨
    ∃ g, store.cell x = .value (.func g) ∧ g.strategy = .lazy

theorem suspend_waits (store : Store) (s : Suspension) :
    (store.alloc (.suspended s)).2.Waits (store.alloc (.suspended s)).1 :=
  Or.inl ⟨s, Store.cell_alloc_self store _⟩

theorem value_waits {g : Func} (store : Store) (lazy : g.strategy = .lazy) :
    (store.alloc (.value (.func g))).2.Waits (store.alloc (.value (.func g))).1 :=
  Or.inr ⟨g, Store.cell_alloc_self store _, lazy⟩

/-- A function that suspends its work stores an argument or suspends its work. -/
theorem call_waits {apply : CellId → CellId → Eval CellId} {g : Func} (lazy : g.strategy = .lazy)
    (x : CellId) (store : Store) :
    (g.call apply x).Ensures store (fun r later => later.Waits r) fun _ _ => False := by
  cases g with
  | unary h =>
    cases h with
    | monop op => exact suspend_waits store _
    | isNil => exact suspend_waits store _
    | half side => cases lazy
    | itself name => cases lazy
  | binary h =>
    cases h with
    | binop op => exact value_waits store rfl
    | _ => cases lazy
  | binaryOn h a =>
    cases h with
    | binop op => exact suspend_waits store _
    | _ => cases lazy
  | ternary h =>
    cases h with
    | share => exact value_waits store rfl
    | _ => cases lazy
  | ternaryOn h a =>
    cases h with
    | share => exact value_waits store rfl
    | _ => cases lazy
  | ternaryOnTwo h a b =>
    cases h with
    | share => exact suspend_waits store _
    | _ => cases lazy

/-- Applying a cell that waits answers another one, if there is depth to nest in. -/
theorem apply_waits (depth : Nat) (x : CellId) (waits : store.Waits f) :
    (apply depth f x).Ensures store (fun r later => later.Waits r)
      fun failure _ => failure = .depthExhausted := by
  rcases waits with ⟨s, holds⟩ | ⟨g, holds, lazy⟩
  · rw [Eval.ensures_congr (apply_of_suspended holds depth x)]
    exact suspend_waits store _
  · cases depth with
    | zero =>
      unfold Eval.Ensures
      rw [apply_zero_of_value holds x]
    | succ depth =>
      rw [Eval.ensures_congr (apply_of_value holds depth x)]
      exact (call_waits lazy x store).mono (fun _ _ waits => waits) fun _ _ never => never.elim

theorem applyAll_waits (depth : Nat) (args : List CellId) (waits : store.Waits f) :
    (args.foldlM (apply depth) f).Ensures store (fun r later => later.Waits r)
      fun failure _ => failure = .depthExhausted := by
  induction args generalizing store f with
  | nil => exact waits
  | cons x rest ih =>
    rw [List.foldlM_cons]
    exact (apply_waits depth x waits).bind (fun r later waits => ih waits) fun _ _ lacks => lacks

/-- **The question can be put to a function that suspends its work**, if there is depth to nest in. -/
theorem questionWith_of_lazy {g : Func} (depth : Nat) (store : Store) (lazy : g.strategy = .lazy) :
    (questionWith (apply depth) g).Ensures store (fun _ _ => True)
      fun failure _ => failure = .depthExhausted := by
  unfold questionWith
  simp only [Eval.ensures_bind, Eval.ensures_value]
  refine (applyAll_waits depth _ (Or.inr ⟨g, ?_, lazy⟩)).mono (fun _ _ _ => trivial)
    fun _ _ lacks => lacks
  -- Three further cells have been added after the one that holds the function.
  rw [Store.cell_alloc_of_has, Store.cell_alloc_of_has, Store.cell_alloc_of_has,
    Store.cell_alloc_self]
  all_goals simp [Store.Has, Store.alloc]
  all_goals omega

/-! ### How asking fails -/

theorem isNil_of_force (forced : force depth x store = .ok v later) :
    isNil depth x store =
      (match v with
        | .nil => pure true
        | .pair _ _ => pure false
        | .num _ => Eval.fault .isNilOfNumber
        | .func g => do
          let question ← questionWith (apply depth) g
          let answer ← answerWith (force depth) g.name question
          if answer = .num nilMark then pure true
          else if answer = .num pairMark then pure false
          else Eval.fault (.isNilOfFunction g.name) : Eval Bool) later := by
  unfold isNil isNilWith
  rw [bind_of_ok forced]
  cases v <;> rfl

/-- A fault while the answer is forced is the cause of the one that is reported. -/
theorem answerWith_of_fault {force : CellId → Eval Value} {name : Option String} {cause : Fault}
    (failed : force x store = .error (.fault cause) later) :
    answerWith force name x store = .error (.fault (.isNilFailed name cause)) later := by
  rw [answerWith, bind_of_ok (Eval.outcome_of_error failed)]
  rfl

/-- Forcing the answer fails with a fault only for such a cause. -/
theorem answerWith_blames {force : CellId → Eval Value} (name : Option String) (x : CellId)
    (store : Store) :
    (answerWith force name x).Ensures store (fun _ _ => True) fun failure _ =>
      ∀ reason, failure = .fault reason → reason.category = .notAPair := by
  unfold answerWith
  rw [Eval.ensures_bind, Eval.ensures_outcome]
  refine (Eval.ensures_iff _).mpr ⟨fun _ _ _ => trivial, fun failure later _ => ?_⟩
  cases failure with
  | fault cause =>
    rintro reason ⟨⟩
    rfl
  | oversizeNumeral digits => exact fun _ other => nomatch other
  | oversizeNumber => exact fun _ other => nomatch other
  | depthExhausted => exact fun _ other => nomatch other

/-- After the question has been put, a fault says that the function is neither the empty list nor a
pair. -/
theorem answered_blames (g : Func) (question : CellId) (store : Store) :
    (answerWith (force depth) g.name question >>= fun answer =>
      if answer = .num nilMark then pure true
      else if answer = .num pairMark then pure false
      else Eval.fault (.isNilOfFunction g.name)).Ensures store (fun _ _ => True) fun failure _ =>
        ∀ reason, failure = .fault reason → reason.category = .notAPair := by
  refine (answerWith_blames g.name question store).bind (fun answer later _ => ?_)
    fun _ _ blames => blames
  split
  · exact trivial
  split
  · exact trivial
  · rintro reason ⟨⟩
    rfl

/-- **A fault of asking for the empty list is reported as one of asking, unless the question could not
be put.** The cell that is asked about has a value. A fault is of the category for what is neither the
empty list nor a pair, or it is that of a number that was applied in order to put the question, to a
function that does not suspend its work; what goes wrong there is what is reported. Once the question
has been put, a fault on the way to the answer is the cause of the fault that is reported. -/
theorem nil_question_reported (forced : force depth x store = .ok v later) :
    (∀ reason last, isNil depth x store = .error (.fault reason) last →
      reason.category = .notAPair ∨
        ∃ g n, v = .func g ∧ g.strategy = .eager ∧ reason = .appliedNumber n ∧
          questionWith (apply depth) g later = .error (.fault reason) last) ∧
    (∀ g failure last, v = .func g → questionWith (apply depth) g later = .error failure last →
      isNil depth x store = .error failure last) ∧
    ∀ g question middle cause last, v = .func g →
      questionWith (apply depth) g later = .ok question middle →
      force depth question middle = .error (.fault cause) last →
      isNil depth x store = .error (.fault (.isNilFailed g.name cause)) last := by
  have asked := isNil_of_force forced
  refine ⟨fun reason last failed => ?_, ?_, ?_⟩
  · rw [asked] at failed
    cases v with
    | nil => cases failed
    | pair head tail => cases failed
    | num n =>
      cases failed
      exact Or.inl rfl
    | func g =>
      rcases bind_eq_error failed with putting | ⟨question, middle, -, answering⟩
      · have blamed := (questionWith_blames depth g later).error putting
        have eager : g.strategy = .eager := by
          cases strategy : g.strategy with
          | eager => rfl
          | lazy => exact nomatch (questionWith_of_lazy depth later strategy).error putting
        cases blamed with
        | appliedNumber n => exact Or.inr ⟨g, n, rfl, eager, rfl, putting⟩
        | halfOf side kind => exact Or.inl rfl
      · exact Or.inl ((answered_blames g question middle).error answering reason rfl)
  · rintro g failure last rfl putting
    rw [asked]
    exact bind_of_error putting
  · rintro g question middle cause last rfl put failed
    rw [asked]
    exact (bind_of_ok put).trans (bind_of_error (answerWith_of_fault failed))

/-- A function that swaps its arguments does not suspend its work, but the question can be put to it:
it adds one to what it is asked with, which is a function. -/
theorem nil_question_reported_swap :
    let store := (Session.reached
      [(20, .ofCommand (.environment (.load "h = ap ap c ap add 1 2")))]).store
    let cause := Fault.notANumber "add" .function
    store.cell ⟨23⟩ = .value (.func (.ternaryOnTwo .swap ⟨20⟩ ⟨22⟩)) ∧
      (isNil 20 ⟨23⟩).verdict store = .error (.fault (.isNilFailed (some "c") cause)) ∧
        (Fault.isNilFailed (some "c") cause).category = .notAPair := by
  intro store cause
  have holds : store.cell ⟨23⟩ = .value (.func (.ternaryOnTwo .swap ⟨20⟩ ⟨22⟩)) := by
    decide +kernel
  have failed : (isNil 20 ⟨23⟩).verdict store = .error (.fault (.isNilFailed (some "c") cause)) := by
    decide +kernel
  have reported := (nil_question_reported (force_of_value holds 20)).1
  refine ⟨holds, failed, ?_⟩
  rcases reported _ _ (Eval.eq_error_of_verdict failed) with asking | ⟨g, n, -, -, other, -⟩
  · exact asking
  · cases other

/-- **A fault of the question may escape.** The false truth value picks the second of the first two
arguments that it is given, a number, which is then applied to the third. So it is not so that a
fault of asking a cell with a value always is of the category for what is neither the empty list nor a
pair. -/
theorem nil_question_escapes :
    ¬ ∀ (history : List (Nat × Session.Step)) (depth : Nat) (x : CellId) (v : Value)
        (later last : Store) (reason : Fault),
      force depth x (Session.reached history).store = .ok v later →
      isNil depth x (Session.reached history).store = .error (.fault reason) last →
      reason.category = .notAPair := by
  intro always
  have holds : (Session.reached []).store.cell ⟨17⟩ = .value (boolean false) := by decide +kernel
  have failed : (isNil 20 ⟨17⟩).verdict (Session.reached []).store =
      .error (.fault (.appliedNumber nilMark)) := by
    decide +kernel
  exact nomatch always [] 20 ⟨17⟩ _ _ _ _ (force_of_value holds 20)
    (Eval.eq_error_of_verdict failed)

end ByNeed
