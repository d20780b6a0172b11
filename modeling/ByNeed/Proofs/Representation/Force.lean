/-
**Forcing keeps the representation.**

Forcing a cell gives cells their values, each of which is the weak head normal form of the cell's
term, up to early reduction. The cells given their values on the way have terms that precede the
term of the cell, so the cell itself is not among them: when the value takes the place of the
suspension, the suspension is still there.

* `Answers`: what an action that was carried out on the store has done;
* `Forces`: the same of a cell that was forced;
* `Falters`: how this fails;
* `run_ensures`: carrying out a suspension, given how cells are forced and applied;
* `force_ensures`: forcing a cell, by induction on how deeply it may nest.
-/

import ByNeed.Proofs.Reduction.Order
import ByNeed.Proofs.Representation.Apply

namespace ByNeed

open Reduction
open Reduction.Action (Yields Fails Passes Continues)

/-! ### What forcing does -/

/-- The cells given their values between two stores have terms that precede an action. -/
def Below (defs : Glossary) (terms : Terms) (store store' : Store) (a : Action) : Prop :=
  ∀ y, store.Turned store' y → Precedes defs (terms.of y) a

/-- **An action was carried out** and answered with a value. -/
def Answers (defs : Glossary) (terms : Terms) (store : Store) (a : Action) (v : Value)
    (store' : Store) : Prop :=
  ∃ terms' n w, Grows defs terms store terms' store' ∧ terms'.Covers v.cells ∧
    Yields defs a n w ∧ w.Reduces defs (v.whnf terms'.of) ∧ Below defs terms store store' a

/-- **A cell was forced** to a value. -/
def Forces (defs : Glossary) (terms : Terms) (store : Store) (x : CellId) (v : Value)
    (store' : Store) : Prop :=
  ∃ terms' n w, Grows defs terms store terms' store' ∧ terms'.Covers v.cells ∧
    Yields defs (terms.of x).action n w ∧ w.Reduces defs (v.whnf terms'.of) ∧
    ∀ y, y ≠ x → store.Turned store' y → Precedes defs (terms.of y) (terms.of x).action

/-- A failure is early, or it is a fault of a category of which `mistake` holds. -/
def Failure.Tells (failure : Failure) (mistake : Category → Prop) : Prop :=
  failure.isEarly = true ∨ ∃ reason, failure = .fault reason ∧ mistake reason.category

/-- **An action failed** while it was carried out: early, or with its own mistake. -/
def Falters (defs : Glossary) (terms : Terms) (store : Store) (a : Action) (failure : Failure)
    (store' : Store) : Prop :=
  ∃ terms', Grows defs terms store terms' store' ∧ failure.Tells (Fails defs a) ∧
    Below defs terms store store' a

variable {defs : Glossary} {terms terms' : Terms} {store store' store'' : Store}
  {a b : Action} {t : Term} {k : Frame} {x y r : CellId} {v : Value} {w : Whnf} {n : Nat}
  {s : Suspension} {failure : Failure}

theorem Failure.Tells.mono {mistake mistake' : Category → Prop} (tells : failure.Tells mistake)
    (weaker : ∀ c, mistake c → mistake' c) : failure.Tells mistake' := by
  rcases tells with early | ⟨reason, same, holds⟩
  · exact Or.inl early
  · exact Or.inr ⟨reason, same, weaker _ holds⟩

theorem Failure.tells_fault {mistake : Category → Prop} {reason : Fault}
    (holds : mistake reason.category) : (Failure.fault reason).Tells mistake :=
  Or.inr ⟨reason, rfl, holds⟩

theorem Below.refl (a : Action) : Below defs terms store store a := by
  rintro y ⟨⟨s, suspended⟩, v, holds⟩
  rw [suspended] at holds
  cases holds

theorem Below.of_builds (builds : store.Builds store') (a : Action) :
    Below defs terms store store' a :=
  fun _ turned => (builds.not_turned turned).elim

theorem Below.trans (represents : Represents defs terms store)
    (grows : Grows defs terms store terms' store') (first : Below defs terms store store' a)
    (second : Below defs terms' store' store'' a) : Below defs terms store store'' a := by
  intro y turned
  rcases turned.split grows.evolves with early | late
  · exact first y early
  · obtain ⟨⟨s, suspended⟩, -⟩ := turned
    rw [← grows.of_eq represents (Store.has_of_suspended suspended)]
    exact second y late

/-- An action that is answered once it has come down to a later one is answered. -/
theorem Answers.after (represents : Represents defs terms store)
    (grows : Grows defs terms store terms' store') (below : Below defs terms store store' a)
    (passes : Passes defs a b) (answers : Answers defs terms' store' b v store'') :
    Answers defs terms store a v store'' := by
  obtain ⟨terms'', n, w, further, covers, yields, reduces, rest⟩ := answers
  obtain ⟨n', -, yields⟩ := passes.yields yields
  refine ⟨terms'', n', w, grows.trans further, covers, yields, reduces, ?_⟩
  exact below.trans represents grows fun y turned => (rest y turned).passes passes

theorem Answers.of_reduces (early : a.Reduces defs b) (answers : Answers defs terms store b v store') :
    Answers defs terms store a v store' := by
  obtain ⟨terms', n, w, grows, covers, yields, reduces, below⟩ := answers
  obtain ⟨n', w', -, whole, further⟩ := early.yields yields
  refine ⟨terms', n', w', grows, covers, whole, further.trans reduces, ?_⟩
  exact fun y turned => (below y turned).reduces early

/-- An action that is an answer. -/
theorem Represents.answers (represents : Represents defs terms store) (covers : terms.Covers v.cells)
    (reduces : w.Reduces defs (v.whnf terms.of)) : Answers defs terms store (.answer w) v store :=
  ⟨terms, 0, w, .refl represents, covers, .answer w, reduces, .refl _⟩

theorem Falters.after (represents : Represents defs terms store)
    (grows : Grows defs terms store terms' store') (below : Below defs terms store store' a)
    (passes : Passes defs a b) (falters : Falters defs terms' store' b failure store'') :
    Falters defs terms store a failure store'' := by
  obtain ⟨terms'', further, tells, rest⟩ := falters
  refine ⟨terms'', grows.trans further, tells.mono fun _ fails => passes.fails fails, ?_⟩
  exact below.trans represents grows fun y turned => (rest y turned).passes passes

theorem Falters.of_reduces (early : a.Reduces defs b)
    (falters : Falters defs terms store b failure store') :
    Falters defs terms store a failure store' := by
  obtain ⟨terms', grows, tells, below⟩ := falters
  refine ⟨terms', grows, tells.mono fun _ fails => early.fails fails, ?_⟩
  exact fun y turned => (below y turned).reduces early

/-- The mistake of a demanded term is that of the demand. -/
theorem Falters.demanded (plain : ∀ c, k.refuse c = c)
    (falters : Falters defs terms store t.action failure store') :
    Falters defs terms store (.demand t k) failure store' := by
  obtain ⟨terms', grows, tells, below⟩ := falters
  refine ⟨terms', grows, tells.mono fun c fails => ?_, fun y turned => (below y turned).demanded⟩
  have refused := Fails.demanded (k := k) fails
  rwa [plain] at refused

/-- What an early reduction can fail in says nothing. -/
theorem Represents.falters (represents : Represents defs terms store)
    (early : failure.isEarly = true) (a : Action) : Falters defs terms store a failure store :=
  ⟨terms, .refl represents, Or.inl early, .refl a⟩

theorem Balks.falters (balks : Balks defs terms store failure store') (a : Action) :
    Falters defs terms store a failure store' := by
  obtain ⟨early, terms', built⟩ := balks
  exact ⟨terms', built.grows, Or.inl early, .of_builds built.builds a⟩

/-! ### Forcing on the way -/

/-- How to force a cell keeps the representation. -/
def ForceSpec (defs : Glossary) (force : CellId → Eval Value) : Prop :=
  ∀ {terms : Terms} {store : Store} {x : CellId}, Represents defs terms store → store.Has x →
    (force x).Ensures store (Forces defs terms store x)
      (Falters defs terms store (terms.of x).action)

variable {force : CellId → Eval Value} {apply : CellId → CellId → Eval CellId}

/-- The cell that was forced, and the cells given their values on the way, precede the demand. -/
theorem Forces.below (forces : Forces defs terms store x v store') (k : Frame) :
    Below defs terms store store' (.demand (terms.of x) k) := by
  obtain ⟨terms', n, w, -, -, yields, -, below⟩ := forces
  intro y turned
  by_cases same : y = x
  · rw [same]
    exact precedes_demanded yields
  · exact (below y same turned).demanded

/-- **A demand**: the cell is forced, and what follows is carried out where this ended. -/
theorem ForceSpec.demand {β : Type} {next : Value → Eval β} (spec : ForceSpec defs force)
    (view : β → Value) (represents : Represents defs terms store) (there : store.Has x)
    (plain : ∀ c, k.refuse c = c)
    (rest : ∀ {terms' : Terms} {store' : Store} {v : Value} {n : Nat} {w : Whnf},
      Grows defs terms store terms' store' → terms'.Covers v.cells →
      Yields defs (terms.of x).action n w → w.Reduces defs (v.whnf terms'.of) →
      ∃ b, Passes defs (.demand (terms.of x) k) b ∧
        (next v).Ensures store' (fun r => Answers defs terms' store' b (view r))
          (Falters defs terms' store' b)) :
    (force x >>= next).Ensures store
      (fun r => Answers defs terms store (.demand (terms.of x) k) (view r))
      (Falters defs terms store (.demand (terms.of x) k)) := by
  refine (spec represents there).bind (fun v store' forces => ?_) fun _ _ falters =>
    falters.demanded plain
  have below := forces.below k
  obtain ⟨terms', n, w, grows, covers, yields, reduces, -⟩ := forces
  obtain ⟨b, passes, ensures⟩ := rest grows covers yields reduces
  exact ensures.mono (fun r last answers => answers.after represents grows below passes)
    fun _ _ falters => falters.after represents grows below passes

/-- **The last step of an action**: it goes on as a term, of which a cell stands for an early
reduction. -/
theorem ForceSpec.last (spec : ForceSpec defs force) (represents : Represents defs terms store)
    (there : store.Has r) (continues : Continues defs a t) (early : t.Reduces defs (terms.of r)) :
    (force r).Ensures store (Answers defs terms store a) (Falters defs terms store a) := by
  refine (spec represents there).mono (fun v store' forces => ?_) fun failure store' falters => ?_
  · obtain ⟨terms', n, w, grows, covers, yields, reduces, below⟩ := forces
    obtain ⟨n', w', -, whole, further⟩ := early.yields yields
    refine ⟨terms', n' + 1, w', grows, covers, .step continues whole, further.trans reduces, ?_⟩
    intro y turned
    have answer := precedes_continued continues early yields
    by_cases same : y = r
    · rwa [same]
    · exact (below y same turned).trans answer
  · obtain ⟨terms', grows, tells, below⟩ := falters
    refine ⟨terms', grows, tells.mono fun _ fails => .step continues (early.fails fails), ?_⟩
    exact fun y turned => (below y turned).continued continues early

/-- **The result of an application is forced.** A new cell stands for the application itself, and
was not there to be forced on the way. -/
theorem ForceSpec.applied (spec : ForceSpec defs force) (represents : Represents defs terms store)
    (applies : Applies defs terms store t r store') :
    (force r).Ensures store' (Answers defs terms store t.action)
      (Falters defs terms store t.action) := by
  obtain ⟨terms', built, there, ⟨new, rfl⟩ | ⟨b, u, passes, continues, early⟩⟩ := applies
  · refine (spec built.represents there).mono (fun v store'' forces => ?_) fun _ _ falters =>
      falters.after represents built.grows (.of_builds built.builds _) (.refl _)
    obtain ⟨terms'', n, w, grows, covers, yields, reduces, below⟩ := forces
    refine ⟨terms'', n, w, built.grows.trans grows, covers, yields, reduces, ?_⟩
    intro y turned
    have old : store.Has y := Store.has_of_suspended turned.1.choose_spec
    have other : y ≠ r := by
      rintro rfl
      exact new old
    rcases turned.split built.grows.evolves with early | late
    · exact (built.builds.not_turned early).elim
    · rw [← built.of_eq represents old]
      exact below y other late
  · refine (spec.last built.represents there continues early).mono (fun v store'' answers => ?_)
      fun _ _ falters => falters.after represents built.grows (.of_builds built.builds _) passes
    exact answers.after represents built.grows (.of_builds built.builds _) passes

/-! ### Carrying out suspensions -/

theorem run_apply_ensures {f : CellId} (forced : ForceSpec defs force) (applied : ApplySpec defs apply)
    (represents : Represents defs terms store) (head : store.Has f) (there : store.Has x) :
    ((Suspension.apply f x).run force apply).Ensures store
      (Answers defs terms store (.demand (terms.of f) (.argument (terms.of x))))
      (Falters defs terms store (.demand (terms.of f) (.argument (terms.of x)))) := by
  refine forced.demand id represents head (fun _ => rfl) fun {terms'} {store'} {v} {n} {w}
    grows covers yields reduces => ⟨_, .refl _, ?_⟩
  have argument := grows.evolves.has there
  have application := applyWith_ensures applied grows.represents covers ⟨n, w, yields, reduces⟩ argument
  rw [grows.of_eq represents there] at application
  refine application.bind (fun r last applies => ?_) fun _ _ balks => balks.falters _
  exact forced.applied grows.represents applies

theorem run_half_ensures {side : Half} (forced : ForceSpec defs force)
    (represents : Represents defs terms store) (there : store.Has x) :
    ((Suspension.half side x).run force apply).Ensures store
      (Answers defs terms store (.demand (terms.of x) (.half side)))
      (Falters defs terms store (.demand (terms.of x) (.half side))) := by
  refine forced.demand id represents there (fun _ => rfl) fun {terms'} {store'} {v} {n} {w}
    grows covers yields reduces => ⟨_, .demand yields (.refl _), ?_⟩
  have early : ∀ kind, Falters defs terms' store' ((Frame.half side).resume w)
      (.fault (.halfOf side kind)) store' := fun kind => grows.represents.falters rfl _
  cases v with
  | num m => exact early _
  | nil => exact early _
  | func f => exact early _
  | pair head tail =>
    have first := grows.represents.has_iff.mpr (covers head (by simp [Value.cells]))
    have second := grows.represents.has_iff.mpr (covers tail (by simp [Value.cells]))
    cases reduces with
    | pair reducesHead reducesTail =>
      cases side with
      | head => exact forced.last grows.represents first (.become _) reducesHead
      | tail => exact forced.last grows.represents second (.become _) reducesTail

theorem run_lookup_ensures {table : TableId} {name : String} (forced : ForceSpec defs force)
    (represents : Represents defs terms store) :
    ((Suspension.lookup table name).run force apply).Ensures store
      (Answers defs terms store (.lookup table name))
      (Falters defs terms store (.lookup table name)) := by
  unfold Suspension.run
  rw [Eval.ensures_bind, Eval.ensures_get]
  cases found : (store.table table).lookup name with
  | none =>
    have missing := represents.unbound table name found
    exact ⟨terms, .refl represents, Failure.tells_fault (.undefined missing), .refl _⟩
  | some y =>
    obtain ⟨there, t, known, early⟩ := represents.bound table name y found
    exact forced.last represents there (.lookup known) early

theorem run_observe_ensures {label : String} (forced : ForceSpec defs force)
    (represents : Represents defs terms store) (there : store.Has x) :
    ((Suspension.observe label x).run force apply).Ensures store
      (Answers defs terms store (.become (terms.of x)))
      (Falters defs terms store (.become (terms.of x))) := by
  unfold Suspension.run
  rw [Eval.ensures_bind, Eval.ensures_observe]
  have same : Grows defs terms store terms { store with trace := label :: store.trace } :=
    ⟨List.prefix_refl terms, represents.congr rfl fun _ => rfl, .aside .refl rfl rfl, ⟨[], rfl, rfl⟩, rfl⟩
  have below : Below defs terms store { store with trace := label :: store.trace }
      (.become (terms.of x)) := fun y turned => Below.refl _ y turned
  refine (forced.last same.represents there (.become _) (.refl _)).mono (fun v last answers => ?_)
    fun _ _ falters => falters.after represents same below (.refl _)
  exact answers.after represents same below (.refl _)

/-- The integer of a value, where anything else is a mistake. -/
theorem toInt_ensures {β : Type} {operation : String} {next : Int → Eval β}
    {good : β → Store → Prop} (represents : Represents defs terms store)
    (reduces : w.Reduces defs (v.whnf terms.of))
    (strict : (∀ m, w ≠ .num m) → a = .fail .notANumber)
    (number : ∀ m, w = .num m → (next m).Ensures store good (Falters defs terms store a)) :
    (v.toInt operation >>= next).Ensures store good (Falters defs terms store a) := by
  have mistake : ∀ kind, (∀ m, w ≠ .num m) →
      Falters defs terms store a (.fault (.notANumber operation kind)) store := by
    intro kind other
    rw [strict other]
    exact ⟨terms, .refl represents, Failure.tells_fault (.fail _), .refl _⟩
  cases v with
  | num m =>
    cases reduces
    exact number m rfl
  | nil => exact mistake _ (by cases reduces; simp)
  | pair head tail => exact mistake _ (by cases reduces; simp)
  | func f => exact mistake _ (by cases f <;> cases reduces <;> simp)

theorem run_monop_ensures {op : Monop} (forced : ForceSpec defs force)
    (represents : Represents defs terms store) (there : store.Has x) :
    ((Suspension.monop op x).run force apply).Ensures store
      (Answers defs terms store (.demand (terms.of x) (.monop op)))
      (Falters defs terms store (.demand (terms.of x) (.monop op))) := by
  refine forced.demand id represents there (fun _ => rfl) fun {terms'} {store'} {v} {n} {w}
    grows covers yields reduces => ⟨_, .demand yields (.refl _), ?_⟩
  refine toInt_ensures grows.represents reduces (fun other => ?_) fun m number => ?_
  · cases w with
    | num m => exact (other m rfl).elim
    | _ => rfl
  · subst number
    exact grows.represents.answers (fun _ member => nomatch member) (.num _)

/-- The answer of an operation on two integers. -/
theorem operate_ensures {op : Binop} {m n : Int} (represents : Represents defs terms store) :
    (Eval.ofExcept ((op.apply m n).mapError .fault)).Ensures store
      (Answers defs terms store (operate op m n)) (Falters defs terms store (operate op m n)) := by
  have truths : ∀ flag, Answers defs terms store (.answer (truth flag)) (boolean flag) store := by
    intro flag
    refine represents.answers ?_ (by rw [whnf_boolean]; exact .refl _)
    cases flag <;> exact fun _ member => nomatch member
  have numbers : ∀ n : Int, Answers defs terms store (.answer (.num n)) (.num n) store := fun n =>
    represents.answers (fun _ member => nomatch member) (.num n)
  cases op with
  | add => exact numbers _
  | mul => exact numbers _
  | eq => exact truths _
  | lt => exact truths _
  | div =>
    by_cases zero : n = 0
    · rw [operate, if_pos zero, Binop.apply, quotient, if_pos zero]
      exact ⟨terms, .refl represents, Failure.tells_fault (.fail _), .refl _⟩
    · rw [operate, if_neg zero, Binop.apply, quotient, if_neg zero]
      exact numbers _

theorem run_binop_ensures {op : Binop} (forced : ForceSpec defs force)
    (represents : Represents defs terms store) (first : store.Has x) (second : store.Has y) :
    ((Suspension.binop op x y).run force apply).Ensures store
      (Answers defs terms store (.demand (terms.of x) (.firstOperand op (terms.of y))))
      (Falters defs terms store (.demand (terms.of x) (.firstOperand op (terms.of y)))) := by
  refine forced.demand id represents first (fun _ => rfl) fun {terms'} {store'} {v} {n} {w}
    grows covers yields reduces => ⟨_, .demand yields (.refl _), ?_⟩
  refine toInt_ensures grows.represents reduces (fun other => ?_) fun m number => ?_
  · cases w with
    | num m => exact (other m rfl).elim
    | _ => rfl
  · subst number
    rw [← grows.of_eq represents second]
    refine forced.demand id grows.represents (grows.evolves.has second) (fun _ => rfl)
      fun {terms''} {store''} {v'} {n'} {w'} further covers' yields' reduces' =>
        ⟨_, .demand yields' (.refl _), ?_⟩
    refine toInt_ensures further.represents reduces' (fun other => ?_) fun m' number => ?_
    · cases w' with
      | num m' => exact (other m' rfl).elim
      | _ => rfl
    · subst number
      exact operate_ensures further.represents

theorem run_share_ensures {f g : CellId} (forced : ForceSpec defs force)
    (applied : ApplySpec defs apply) (represents : Represents defs terms store)
    (first : store.Has f) (second : store.Has g) (third : store.Has x) :
    ((Suspension.share f g x).run force apply).Ensures store
      (Answers defs terms store
        (.become (.app (.app (terms.of f) (terms.of x)) (.app (terms.of g) (terms.of x)))))
      (Falters defs terms store
        (.become (.app (.app (terms.of f) (terms.of x)) (.app (terms.of g) (terms.of x))))) := by
  refine (applied represents first third).bind (fun h store₁ applies => ?_) fun _ _ balks =>
    balks.falters _
  obtain ⟨terms₁, built₁, there₁, early₁⟩ := applies.reaches
  refine (applied built₁.represents (built₁.has second) (built₁.has third)).bind
    (fun z store₂ applies => ?_) fun _ _ balks => (balks.after built₁).falters _
  obtain ⟨terms₂, built₂, there₂, early₂⟩ := applies.reaches
  have built := built₁.trans built₂
  refine (applied built₂.represents (built₂.has there₁) there₂).bind
    (fun r store₃ applies => ?_) fun _ _ balks => (balks.after built).falters _
  obtain ⟨terms₃, built₃, there₃, early₃⟩ := applies.reaches
  rw [built₁.of_eq represents second, built₁.of_eq represents third] at early₂
  rw [built₂.of_eq built₁.represents there₁] at early₃
  have whole := built.trans built₃
  refine (forced.last whole.represents there₃ (.become _)
    (Term.Reduces.trans (.app early₁ early₂) early₃)).mono (fun v last answers => ?_)
    fun _ _ falters => falters.after represents whole.grows (.of_builds whole.builds _) (.refl _)
  exact answers.after represents whole.grows (.of_builds whole.builds _) (.refl _)

/-! ### Asking for the empty list -/

/-- A new cell that holds a value and stands for a term. -/
theorem Represents.value_ensures {bad : Failure → Store → Prop}
    (represents : Represents defs terms store) (covers : terms.Covers v.cells)
    (denotes : Denotes defs terms t v) :
    (Eval.value v).Ensures store
      (fun r store' => ∃ terms', Built defs terms store terms' store' ∧ store'.Has r ∧
        terms'.of r = t) bad :=
  ⟨terms ++ [t], .alloc represents ⟨covers, denotes⟩, Store.has_alloc store (.value v),
    represents.of_alloc (.value v) t⟩

theorem questionWith_ensures {f : Func} (applied : ApplySpec defs apply)
    (represents : Represents defs terms store) (covers : terms.Covers f.held)
    (denotes : Denotes defs terms t (.func f)) :
    (questionWith apply f).Ensures store (Reaches defs terms store (question t))
      (Balks defs terms store) := by
  have nothing : ∀ {terms : Terms}, terms.Covers [] := fun _ member => nomatch member
  refine (represents.value_ensures (v := .func f) covers denotes).bind ?_ fun _ _ balks => balks
  rintro asked store₁ ⟨terms₁, built₁, there₁, term₁⟩
  refine (built₁.represents.value_ensures nothing (.of_action (t := .binary .never) rfl)).bind ?_
    fun _ _ balks => balks
  rintro never store₂ ⟨terms₂, built₂, there₂, term₂⟩
  refine (built₂.represents.value_ensures nothing (.of_action (t := .num 123) rfl)).bind ?_
    fun _ _ balks => balks
  rintro first store₃ ⟨terms₃, built₃, there₃, term₃⟩
  refine (built₃.represents.value_ensures nothing (.of_action (t := .num 456) rfl)).bind ?_
    fun _ _ balks => balks
  rintro second store₄ ⟨terms₄, built₄, there₄, term₄⟩
  have after₃ := built₃.trans built₄
  have after₂ := built₂.trans after₃
  have whole := built₁.trans after₂
  rw [← after₂.of_eq built₁.represents there₁] at term₁
  rw [← after₃.of_eq built₂.represents there₂] at term₂
  rw [← built₄.of_eq built₃.represents there₃] at term₃
  have inside : ∀ x ∈ [never, first, second], store₄.Has x := by
    intro x member
    simp only [List.mem_cons, List.not_mem_nil, or_false] at member
    rcases member with rfl | rfl | rfl
    · exact after₃.has there₂
    · exact built₄.has there₃
    · exact there₄
  refine (applied.fold built₄.represents (after₂.has there₁) (.refl _) inside).mono
    (fun r last reaches => ?_) fun _ _ balks => balks.after whole
  simp only [List.map, List.foldl, term₁, term₂, term₃, term₄] at reaches
  exact reaches.after whole (.refl _)

/-- A function that fails on the question is neither the empty list nor a pair. -/
theorem answerWith_ensures {name : Option String} (forced : ForceSpec defs force)
    (represents : Represents defs terms store) (there : store.Has x) :
    (answerWith force name x).Ensures store (Forces defs terms store x)
      (Falters defs terms store (.demand (terms.of x) .mark)) := by
  unfold answerWith
  rw [Eval.ensures_bind, Eval.ensures_outcome]
  refine (forced represents there).mono (fun v store' forces => forces) fun failure store' falters => ?_
  obtain ⟨terms', grows, tells, below⟩ := falters
  have preceding : Below defs terms store store' (.demand (terms.of x) .mark) :=
    fun y turned => (below y turned).demanded
  cases failure with
  | fault cause =>
    refine ⟨terms', grows, ?_, preceding⟩
    rcases tells with early | ⟨reason, -, fails⟩
    · exact Or.inl early
    · exact Failure.tells_fault (.demanded fails)
  | _ => exact ⟨terms', grows, tells.imp_right (fun ⟨_, other, _⟩ => nomatch other), preceding⟩

/-- A function is asked. -/
theorem asked_function {f : Func} (reduces : w.Reduces defs (f.whnf terms.of)) (t : Term) :
    w.asked t = .demand (question t) .mark := by
  cases f <;> cases reduces <;> rfl

/-- The mark that a function chose is the answer. -/
theorem Forces.chosen {m : Int} {flag : Bool} (forces : Forces defs terms store x (.num m) store')
    (means : Reduction.chosen m = .answer (truth flag)) :
    Answers defs terms store (.demand (terms.of x) .mark) (boolean flag) store' := by
  have below := forces.below .mark
  obtain ⟨terms', n, w, grows, covers, yields, reduces, -⟩ := forces
  cases reduces
  have rest : Yields defs (Frame.mark.resume (.num m)) 0 (truth flag) := by
    show Yields defs (Reduction.chosen m) 0 (truth flag)
    rw [means]
    exact .answer _
  refine ⟨terms', n + 0 + 1, truth flag, grows, ?_, .demand yields rest, ?_, below⟩
  · cases flag <;> exact fun _ member => nomatch member
  · rw [whnf_boolean]
    exact .refl _

/-- A function that chose neither mark is neither the empty list nor a pair. -/
theorem Forces.unmarked (name : Option String) (forces : Forces defs terms store x v store')
    (notNil : v ≠ .num nilMark) (notPair : v ≠ .num pairMark) :
    Falters defs terms store (.demand (terms.of x) .mark) (.fault (.isNilOfFunction name)) store' := by
  have below := forces.below .mark
  obtain ⟨terms', n, w, grows, -, yields, reduces, -⟩ := forces
  have fails : Fails defs (Frame.mark.resume w) .notAPair := by
    cases v with
    | num m =>
      cases reduces
      have notFirst : m ≠ 123 := fun same => notNil (congrArg Value.num same)
      have notSecond : m ≠ 456 := fun same => notPair (congrArg Value.num same)
      show Fails defs (Reduction.chosen m) .notAPair
      rw [Reduction.chosen, if_neg notFirst, if_neg notSecond]
      exact .fail _
    | nil =>
      cases reduces
      exact .fail _
    | pair head tail =>
      cases reduces
      exact .fail _
    | func f =>
      cases f <;> cases reduces <;> exact .fail _
  exact ⟨terms', grows, Failure.tells_fault (.resumed yields fails), below⟩

/-- **Asking whether a cell is the empty list.** -/
theorem isNilWith_ensures (forced : ForceSpec defs force) (applied : ApplySpec defs apply)
    (represents : Represents defs terms store) (there : store.Has x) :
    (isNilWith force apply x).Ensures store
      (fun flag => Answers defs terms store (.demand (terms.of x) (.isNil (terms.of x)))
        (boolean flag))
      (Falters defs terms store (.demand (terms.of x) (.isNil (terms.of x)))) := by
  refine forced.demand boolean represents there (fun _ => rfl) fun {terms'} {store'} {v} {n} {w}
    grows covers yields reduces => ⟨_, .demand yields (.refl _), ?_⟩
  have known : ∀ flag, Answers defs terms' store' (.answer (truth flag)) (boolean flag) store' := by
    intro flag
    refine grows.represents.answers ?_ (by rw [whnf_boolean]; exact .refl _)
    cases flag <;> exact fun _ member => nomatch member
  cases v with
  | nil =>
    cases reduces
    exact known true
  | pair head tail =>
    cases reduces
    exact known false
  | num m =>
    cases reduces
    exact ⟨terms', .refl grows.represents, Failure.tells_fault (.fail _), .refl _⟩
  | func f =>
    show Eval.Ensures _ store' (fun flag => Answers defs terms' store' (w.asked (terms.of x))
      (boolean flag)) (Falters defs terms' store' (w.asked (terms.of x)))
    rw [asked_function reduces]
    refine (questionWith_ensures applied grows.represents covers ⟨n, w, yields, reduces⟩).bind
      (fun q store₁ reaches => ?_) fun _ _ balks => balks.falters _
    obtain ⟨terms₁, built, inside, early⟩ := reaches
    refine (answerWith_ensures forced built.represents inside).bind (fun v store₂ forces => ?_)
      fun _ _ falters => (falters.of_reduces (.demand early .mark)).after grows.represents
        built.grows (.of_builds built.builds _) (.refl _)
    have lift : ∀ {flag : Bool},
        Answers defs terms₁ store₁ (.demand (terms₁.of q) .mark) (boolean flag) store₂ →
        Answers defs terms' store' (.demand (question (terms.of x)) .mark) (boolean flag) store₂ :=
      fun answers => (answers.of_reduces (.demand early .mark)).after grows.represents built.grows
        (.of_builds built.builds _) (.refl _)
    by_cases likeNil : v = .num nilMark
    · rw [if_pos likeNil]
      subst likeNil
      exact lift (forces.chosen rfl)
    rw [if_neg likeNil]
    by_cases likePair : v = .num pairMark
    · rw [if_pos likePair]
      subst likePair
      exact lift (forces.chosen rfl)
    · rw [if_neg likePair]
      have falters := forces.unmarked f.name likeNil likePair
      exact (falters.of_reduces (.demand early .mark)).after grows.represents built.grows
        (.of_builds built.builds _) (.refl _)

/-! ### Forcing -/

/-- **Carrying out a suspension.** -/
theorem run_ensures (forced : ForceSpec defs force) (applied : ApplySpec defs apply)
    (represents : Represents defs terms store) (covers : terms.Covers s.cells) :
    (s.run force apply).Ensures store (Answers defs terms store (s.action terms.of))
      (Falters defs terms store (s.action terms.of)) := by
  have inside : ∀ x ∈ s.cells, store.Has x := fun x member =>
    represents.has_iff.mpr (covers x member)
  cases s with
  | apply f x =>
    exact run_apply_ensures forced applied represents (inside f (by simp [Suspension.cells]))
      (inside x (by simp [Suspension.cells]))
  | half side x =>
    exact run_half_ensures forced represents (inside x (by simp [Suspension.cells]))
  | lookup table name => exact run_lookup_ensures forced represents
  | observe label x =>
    exact run_observe_ensures forced represents (inside x (by simp [Suspension.cells]))
  | monop op x => exact run_monop_ensures forced represents (inside x (by simp [Suspension.cells]))
  | binop op x y =>
    exact run_binop_ensures forced represents (inside x (by simp [Suspension.cells]))
      (inside y (by simp [Suspension.cells]))
  | isNil x =>
    exact (Eval.ensures_bind _ _).mpr
      (isNilWith_ensures forced applied represents (inside x (by simp [Suspension.cells])))
  | share f g x =>
    exact run_share_ensures forced applied represents (inside f (by simp [Suspension.cells]))
      (inside g (by simp [Suspension.cells])) (inside x (by simp [Suspension.cells]))

/-- **A suspension that was carried out is still there**, and the value takes its place. -/
theorem Answers.commit (represents : Represents defs terms store)
    (suspended : store.cell x = .suspended s)
    (answers : Answers defs terms store (terms.of x).action v store') :
    Forces defs terms store x v (store'.commit x v) := by
  obtain ⟨terms', n, w, grows, covers, yields, reduces, below⟩ := answers
  have there := Store.has_of_suspended suspended
  have kept : ¬ store.Turned store' x := fun turned => Precedes.irrefl (below x turned)
  have still : store'.cell x = .suspended s := by
    rw [grows.evolves.cell_of_not_turned there kept, suspended]
  have denotes : Denotes defs terms' (terms'.of x) v := by
    rw [grows.of_eq represents there]
    exact ⟨n, w, yields, reduces⟩
  refine ⟨terms', n, w, ⟨grows.terms, grows.represents.commit still covers denotes,
    .commit v grows.evolves still, grows.counts.commit x v, grows.tables⟩, covers, yields, reduces, ?_⟩
  rintro y other ⟨before, u, holds⟩
  rw [Store.cell_commit (Store.has_of_suspended still), if_neg other] at holds
  exact below y ⟨before, u, holds⟩

theorem forceCellWith_ensures {run : Suspension → Eval Value}
    (represents : Represents defs terms store) (there : store.Has x)
    (spec : ∀ s, terms.Covers s.cells → (run s).Ensures store
      (Answers defs terms store (s.action terms.of)) (Falters defs terms store (s.action terms.of))) :
    (forceCellWith run x).Ensures store (Forces defs terms store x)
      (Falters defs terms store (terms.of x).action) := by
  unfold forceCellWith
  rw [Eval.ensures_bind, Eval.ensures_cell]
  cases holds : store.cell x with
  | value v =>
    obtain ⟨covers, n, w, yields, reduces⟩ := represents.value there holds
    exact ⟨terms, n, w, .refl represents, covers, yields, reduces, fun y _ => Below.refl _ y⟩
  | suspended s =>
    obtain ⟨covers, b, passes, early⟩ := represents.suspended holds
    refine (spec s covers).bind (fun v store' answers => ?_) fun failure store' falters =>
      (falters.of_reduces early).after represents (.refl represents) (.refl _) passes
    have whole := (answers.of_reduces early).after represents (.refl represents) (.refl _) passes
    exact whole.commit represents holds

/-- **Forcing keeps the representation**, however deeply it may nest. -/
theorem force_ensures (depth : Nat) : ForceSpec defs (ByNeed.force depth) := by
  induction depth with
  | zero =>
    intro terms store x represents there
    exact forceCellWith_ensures represents there fun s _ => represents.falters rfl _
  | succ depth ih =>
    intro terms store x represents there
    exact forceCellWith_ensures represents there fun s covers =>
      run_ensures ih (apply_ensures depth) represents covers

end ByNeed
