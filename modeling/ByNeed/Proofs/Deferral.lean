/-
**Deferred and immediate application agree.**

A cell that is applied while it is suspended becomes part of a suspension, and all the work is done
when the result is forced. A cell that is forced first is applied on the spot, up to the first result
that is suspended, and only the rest is deferred. Both ways come to the same: the values are of one
kind, the failures are the same, and of the cells that were there before, the same ones are forced.

* `Use`: a cell is given an argument, or a half of it is taken;
* `chase`: the value is used, the result is forced, and so on, with nothing deferred;
* `SameOutcome`: what is said to agree of two outcomes;
* `deferred_matches_chase`: **a tower of deferred uses is chased when it is forced**;
* `Session.deferral_agrees`: the theorem.

A cell for a deferred use is referred to by nothing but the cell of the next use. So the two runs
mirror each other, with this cell as one that the second store has of its own; only, it is given its
value in between (`Mirrored.commit_between`).
-/

import ByNeed.Proofs.FailedForcing
import ByNeed.Proofs.ForcedData
import ByNeed.Proofs.Rounds.Mirror
import ByNeed.Proofs.Termination.Depth

namespace ByNeed

open Store (Progress Quiet)

/-! ### Uses -/

/-- What is made of a cell: it is given an argument, or a half of it is taken. -/
inductive Use
  | argument (x : CellId)
  | half (side : Half)

namespace Use

/-- The cells that a use refers to. -/
def cells : Use → List CellId
  | .argument x => [x]
  | .half _ => []

/-- Use a cell: on the spot if it holds a value, and else deferred. -/
def build (depth : Nat) (f : CellId) : Use → Eval CellId
  | .argument x => apply depth f x
  | .half side => takeHalf side f

/-- Use a value. -/
def onValue (depth : Nat) (v : Value) : Use → Eval CellId
  | .argument x => v.applyWith (apply depth) x
  | .half side => v.half side

/-- The suspension that a deferred use is. -/
def suspension (f : CellId) : Use → Suspension
  | .argument x => .apply f x
  | .half side => .half side f

end Use

/-- Use a cell several times over, each time the result of the time before. -/
def buildAll (depth : Nat) (f : CellId) (uses : List Use) : Eval CellId :=
  uses.foldlM (fun g use => use.build depth g) f

/-- Use a value, force the result, and use its value, as long as there are uses. -/
def chase (depth : Nat) : List Use → Value → Eval Value
  | [], v => pure v
  | use :: rest, v => do
    let r ← use.onValue depth v
    chase depth rest (← force depth r)

variable {base other store store' later later' : Store} {depth : Nat} {f g x : CellId} {v v' : Value}
  {s : Suspension} {use : Use} {uses rest : List Use}

theorem buildAll_cons (depth : Nat) (f : CellId) (use : Use) (rest : List Use) :
    buildAll depth f (use :: rest) = use.build depth f >>= fun g => buildAll depth g rest :=
  List.foldlM_cons

theorem applyAll_eq_buildAll (depth : Nat) (f : CellId) (args : List CellId) :
    applyAll depth f args = buildAll depth f (args.map .argument) := by
  unfold applyAll buildAll
  rw [List.foldlM_map]
  rfl

theorem takeHalf_eq_buildAll (depth : Nat) (side : Half) (f : CellId) :
    takeHalf side f = buildAll depth f [.half side] := by
  rw [buildAll_cons]
  exact (bind_pure _).symm

theorem build_of_suspended (suspended : store.cell f = .suspended s) (depth : Nat) (use : Use) :
    use.build depth f store = Eval.suspend (use.suspension f) store := by
  cases use with
  | argument x => exact apply_of_suspended suspended depth x
  | half side =>
    have read : Eval.cell f store = .ok (.suspended s) store := by rw [← suspended]; rfl
    exact bind_of_ok read

/-- The cell for a deferred use, and the store with it. -/
abbrev Store.deferring (store : Store) (f : CellId) (use : Use) : CellId × Store :=
  store.alloc (.suspended (use.suspension f))

/-- A deferred use forces the cell, uses the value and forces the result. -/
theorem run_suspension (depth : Nat) (f : CellId) (use : Use) :
    (use.suspension f).run (force depth) (apply depth) =
      (do
        let v ← force depth f
        let r ← use.onValue depth v
        force depth r) := by
  cases use <;> rfl

/-- A cell that holds a value is used on the spot. -/
theorem settles_build_of_value (holds : store.cell f = .value v) (use : Use)
    (outcome : EStateM.Result Failure Store CellId) :
    Settles (fun depth => use.build depth f) store outcome ↔
      Settles (fun depth => use.onValue depth v) store outcome := by
  cases use with
  | argument x => exact settles_succ_iff fun depth => apply_of_value holds depth x
  | half side =>
    have read : Eval.cell f store = .ok (.value v) store := by rw [← holds]; rfl
    exact settles_congr fun _ => bind_of_ok read

/-! ### More depth -/

theorem build_deepens (f : CellId) (use : Use) : DeepensAll fun depth => use.build depth f := by
  cases use with
  | argument x => exact apply_deepens f x
  | half side => exact deepensAll_const _

theorem onValue_deepens (v : Value) (use : Use) : DeepensAll fun depth => use.onValue depth v := by
  cases use with
  | argument x =>
    exact fun depth more le => applyWith_deepens (fun f y => apply_deepens f y depth more le) v x
  | half side => exact deepensAll_const _

theorem buildAll_deepens (f : CellId) (uses : List Use) :
    DeepensAll fun depth => buildAll depth f uses :=
  .foldlM (fun g use => build_deepens g use) uses f

theorem chase_deepens (uses : List Use) (v : Value) : DeepensAll fun depth => chase depth uses v := by
  induction uses generalizing v with
  | nil => exact deepensAll_const _
  | cons use rest ih =>
    exact (onValue_deepens v use).bind fun r => (force_deepens r).bind ih

/-! ### What agrees -/

/-- What there is to be seen of a value at once. -/
inductive Outline
  | num (n : Int)
  | nil
  | pair
  | func (name : Option String)
deriving DecidableEq

/-- The integer of a number, the name of a function, or else the kind. -/
def Value.outline : Value → Outline
  | .num n => .num n
  | .nil => .nil
  | .pair _ _ => .pair
  | .func f => .func f.name

/-- Of the cells of a store, the same ones hold values in two other stores. -/
def SameForced (base later later' : Store) : Prop :=
  ∀ x, base.Has x → Session.holdsValue later x = Session.holdsValue later' x

/-- **Two outcomes agree**: they are values that look the same, or the same failure, and of the cells
that were there before, the same ones are forced. -/
inductive SameOutcome (base : Store) : EStateM.Result Failure Store Value →
    EStateM.Result Failure Store Value → Prop
  | ok {v v' : Value} {later later' : Store} : v.outline = v'.outline →
      SameForced base later later' → SameOutcome base (.ok v later) (.ok v' later')
  | error {failure : Failure} {later later' : Store} : SameForced base later later' →
      SameOutcome base (.error failure later) (.error failure later')

namespace SameOutcome

variable {outcome outcome' outcome'' : EStateM.Result Failure Store Value}

theorem refl (base : Store) (outcome : EStateM.Result Failure Store Value) :
    SameOutcome base outcome outcome := by
  cases outcome with
  | ok v later => exact .ok rfl fun _ _ => rfl
  | error failure later => exact .error fun _ _ => rfl

theorem symm (same : SameOutcome base outcome outcome') : SameOutcome base outcome' outcome := by
  cases same with
  | ok alike forced => exact .ok alike.symm fun x there => (forced x there).symm
  | error forced => exact .error fun x there => (forced x there).symm

theorem trans (first : SameOutcome base outcome outcome')
    (second : SameOutcome base outcome' outcome'') : SameOutcome base outcome outcome'' := by
  cases first with
  | ok alike forced =>
    cases second with
    | ok alike' forced' =>
      exact .ok (alike.trans alike') fun x there => (forced x there).trans (forced' x there)
  | error forced =>
    cases second with
    | error forced' => exact .error fun x there => (forced x there).trans (forced' x there)

/-- Fewer cells are looked at. -/
theorem mono (same : SameOutcome later outcome outcome')
    (fewer : ∀ x, base.Has x → later.Has x) : SameOutcome base outcome outcome' := by
  cases same with
  | ok alike forced => exact .ok alike fun x there => forced x (fewer x there)
  | error forced => exact .error fun x there => forced x (fewer x there)

theorem isFinal (same : SameOutcome base outcome outcome') (final : IsFinal outcome) :
    IsFinal outcome' := by
  cases same with
  | ok alike forced => exact fun _ other => nomatch other
  | @error failure later later' forced =>
    intro last exhausted
    cases exhausted
    exact final later rfl

end SameOutcome

/-- **Two computations match**: what either settles to, the other settles to something that agrees
with it. -/
structure Matches (base : Store) (computation : Nat → Eval Value) (store : Store)
    (other : Nat → Eval Value) (store' : Store) : Prop where
  forth : ∀ outcome, Settles computation store outcome →
    ∃ outcome', Settles other store' outcome' ∧ SameOutcome base outcome outcome'
  back : ∀ outcome', Settles other store' outcome' →
    ∃ outcome, Settles computation store outcome ∧ SameOutcome base outcome outcome'

namespace Matches

variable {α : Type} {first second third : Nat → Eval Value} {store'' : Store}

theorem of_iff (same : ∀ outcome, Settles first store outcome ↔ Settles second store' outcome) :
    Matches base first store second store' where
  forth outcome settles := ⟨outcome, (same outcome).mp settles, .refl base outcome⟩
  back outcome settles := ⟨outcome, (same outcome).mpr settles, .refl base outcome⟩

theorem symm (agree : Matches base first store second store') :
    Matches base second store' first store where
  forth outcome settles := by
    obtain ⟨outcome', settles', same⟩ := agree.back outcome settles
    exact ⟨outcome', settles', same.symm⟩
  back outcome settles := by
    obtain ⟨outcome', settles', same⟩ := agree.forth outcome settles
    exact ⟨outcome', settles', same.symm⟩

theorem trans (one : Matches base first store second store')
    (two : Matches base second store' third store'') : Matches base first store third store'' where
  forth outcome settles := by
    obtain ⟨outcome', settles', same⟩ := one.forth outcome settles
    obtain ⟨outcome'', settles'', same'⟩ := two.forth outcome' settles'
    exact ⟨outcome'', settles'', same.trans same'⟩
  back outcome settles := by
    obtain ⟨outcome', settles', same⟩ := two.back outcome settles
    obtain ⟨outcome'', settles'', same'⟩ := one.back outcome' settles'
    exact ⟨outcome'', settles'', same'.trans same⟩

theorem mono (agree : Matches later first store second store')
    (fewer : ∀ x, base.Has x → later.Has x) : Matches base first store second store' where
  forth outcome settles := by
    obtain ⟨outcome', settles', same⟩ := agree.forth outcome settles
    exact ⟨outcome', settles', same.mono fewer⟩
  back outcome settles := by
    obtain ⟨outcome', settles', same⟩ := agree.back outcome settles
    exact ⟨outcome', settles', same.mono fewer⟩

/-- Computations that end alike at every depth. -/
theorem of_depth (deepens : DeepensAll first) (deepens' : DeepensAll second)
    (each : ∀ depth, SameOutcome base (first depth store) (second depth store')) :
    Matches base first store second store' where
  forth outcome settles := by
    obtain ⟨depth, rfl⟩ := settles.exists_depth
    exact ⟨_, deepens'.settles ((each depth).isFinal settles.1), each depth⟩
  back outcome settles := by
    obtain ⟨depth, rfl⟩ := settles.exists_depth
    exact ⟨_, deepens.settles ((each depth).symm.isFinal settles.1), each depth⟩

/-- Computations that begin alike match if what follows does. -/
theorem bind {computation : Nat → Eval α} {next next' : α → Nat → Eval Value}
    (deepens : DeepensAll computation) (deepens₁ : ∀ a, DeepensAll (next a))
    (deepens₂ : ∀ a, DeepensAll (next' a))
    (rest : ∀ a later, Settles computation store (.ok a later) →
      Matches base (next a) later (next' a) later) :
    Matches base (fun depth => computation depth >>= fun a => next a depth) store
      (fun depth => computation depth >>= fun a => next' a depth) store where
  forth outcome settles := by
    rcases (settles_bind_iff deepens deepens₁).mp settles with
      ⟨a, later, begins, ends⟩ | ⟨failure, later, fails, rfl⟩
    · obtain ⟨outcome', ends', same⟩ := (rest a later begins).forth outcome ends
      exact ⟨outcome', begins.bind_ok ends', same⟩
    · exact ⟨_, fails.bind_error, .refl base _⟩
  back outcome settles := by
    rcases (settles_bind_iff deepens deepens₂).mp settles with
      ⟨a, later, begins, ends⟩ | ⟨failure, later, fails, rfl⟩
    · obtain ⟨outcome', ends', same⟩ := (rest a later begins).back outcome ends
      exact ⟨outcome', begins.bind_ok ends', same⟩
    · exact ⟨_, fails.bind_error, .refl base _⟩

end Matches

/-! ### Mirrored runs -/

/-- Where cells are shifted to depends on how many there are. -/
theorem shift_commit (base other : Store) (y : CellId) (v : Value) :
    base.shift (other.commit y v) = base.shift other := by
  funext x
  simp [Store.shift, Store.commit]

theorem shifts_commit (base other : Store) (y : CellId) (v : Value) :
    base.Shifts (other.commit y v) = base.Shifts other := by
  unfold Store.Shifts
  rw [shift_commit]

/-- The cells of the first store stay where they were. -/
theorem shifts_self (other : Store) (there : base.Has x) : base.Shifts other x x :=
  congrArg CellId.mk (if_pos there).symm

/-- **A cell that the second store has of its own is given a value.** -/
theorem Mirrored.commit_between {y : CellId} (mirrored : Mirrored base other store store')
    (new : ¬ base.Has y) (own : other.Has y) (v : Value) :
    Mirrored base (other.commit y v) store (store'.commit y v) := by
  have inside : store'.Has y := by
    have le := mirrored.has
    have size := mirrored.size
    have own : y.index < other.cells.size := own
    show y.index < store'.cells.size
    omega
  refine ⟨by simpa [Store.commit] using mirrored.le, mirrored.has,
    by simpa [Store.commit] using mirrored.size, fun x => ?_, fun x newer older => ?_,
    fun table name => ?_, ?_⟩
  · rw [shifts_commit, shift_commit, Store.cell_commit inside, if_neg (mirrored.shift_ne new own x).symm]
    exact mirrored.cells x
  · rw [Store.cell_commit inside, Store.cell_commit own]
    by_cases here : x = y
    · rw [if_pos here, if_pos here]
    · rw [if_neg here, if_neg here]
      exact mirrored.between x newer ((Store.has_commit_iff other y v).mp older)
  · rw [shift_commit]
    exact mirrored.bound table name
  · have forced := mirrored.forced
    simp only [Store.commit]
    omega

theorem onValue_mirrors (depth : Nat) (mirrored : Mirrored base other store store')
    (like : v.Like (base.Shifts other) v') (inside : ∀ x ∈ use.cells, base.Has x) :
    Mirrors base other (use.onValue depth v) (use.onValue depth v') store store'
      (base.Shifts other) := by
  cases use with
  | argument x =>
    have same := shifts_self other (inside x (by simp [Use.cells]))
    show Mirrors base other (v.applyWith _ x) (v'.applyWith _ x) _ _ _
    rw [applyWith_eq_run, applyWith_eq_run]
    exact effect_mirrors (apply_mirrors base other depth) mirrored (like.effect same)
  | half side => exact half_mirrors side mirrored like

theorem chase_mirrors (depth : Nat) (mirrored : Mirrored base other store store')
    (like : v.Like (base.Shifts other) v')
    (inside : ∀ use ∈ uses, ∀ x ∈ Use.cells use, base.Has x) :
    Mirrors base other (chase depth uses v) (chase depth uses v') store store'
      (Value.Like (base.Shifts other)) := by
  induction uses generalizing v v' store store' with
  | nil => exact .pure mirrored like
  | cons use rest ih =>
    refine (onValue_mirrors depth mirrored like (inside use List.mem_cons_self)).bind
      fun r r' _ _ mirrored _ same => ?_
    refine (force_mirrors base other depth mirrored same).bind fun w w' _ _ mirrored _ like => ?_
    exact ih mirrored like fun use member => inside use (List.mem_cons_of_mem _ member)

theorem Value.Like.outline_eq {P : CellId → CellId → Prop} (like : v.Like P v') :
    v.outline = v'.outline := by
  cases like with
  | func functions => exact congrArg Outline.func functions.name_eq
  | _ => rfl

theorem Mirrored.sameForced (mirrored : Mirrored base other store store') :
    SameForced base store store' := by
  intro x there
  have like := mirrored.cells x
  rw [← (shifts_self other there : x = base.shift other x)] at like
  unfold Session.holdsValue
  cases holds : store.cell x <;> cases holds' : store'.cell x <;> rw [holds, holds'] at like <;>
    first | rfl | cases like

/-- Outcomes that are alike in mirrored stores agree. -/
theorem EndsAlike.sameOutcome {outcome outcome' : EStateM.Result Failure Store Value}
    (ends : EndsAlike base other store (Value.Like (base.Shifts other)) outcome outcome') :
    SameOutcome base outcome outcome' := by
  cases ends with
  | ok mirrored _ like => exact .ok like.outline_eq mirrored.sameForced
  | error mirrored => exact .error mirrored.sameForced

/-- **The value of a deferred use is used further, in a store or in one that has a cell for it**, which
is given the value before that. -/
theorem wrapped_sameOutcome (depth : Nat) (represented : store.Represented) (there : store.Has f)
    (inside : ∀ use' ∈ use :: rest, ∀ x ∈ Use.cells use', store.Has x) :
    SameOutcome store ((force depth f >>= chase depth (use :: rest)) store)
      ((do
        let v ← (use.suspension f).run (force depth) (apply depth)
        Eval.commit (store.deferring f use).1 v
        chase depth rest v : Eval Value) (store.deferring f use).2) := by
  let wrapped := (store.deferring f use).2
  have extended : store.Extended wrapped :=
    ⟨by simp [wrapped, Store.alloc], fun x there => Store.cell_alloc_of_has there _, rfl⟩
  have mirrored : Mirrored store wrapped store wrapped := .start represented extended
  have mirrors : Mirrors store wrapped ((use.suspension f).run (force depth) (apply depth))
      ((use.suspension f).run (force depth) (apply depth)) store wrapped
      (Value.Like (store.Shifts wrapped)) := by
    rw [run_suspension]
    refine (force_mirrors store wrapped depth mirrored (shifts_self wrapped there)).bind
      fun v v' _ _ mirrored _ like => ?_
    exact (onValue_mirrors depth mirrored like (inside use List.mem_cons_self)).bind
      fun r r' _ _ mirrored _ same => force_mirrors store wrapped depth mirrored same
  have assoc : force depth f >>= chase depth (use :: rest) =
      (use.suspension f).run (force depth) (apply depth) >>= chase depth rest := by
    rw [run_suspension]
    simp only [chase, bind_assoc]
  rw [assoc]
  unfold Mirrors at mirrors
  cases ended : (use.suspension f).run (force depth) (apply depth) store with
  | ok v later =>
    cases ended' : (use.suspension f).run (force depth) (apply depth) wrapped with
    | error failure later' =>
      rw [ended, ended'] at mirrors
      cases mirrors
    | ok v' later' =>
      rw [ended, ended'] at mirrors
      obtain ⟨mirrored', grown, like⟩ := mirrors
      have between := mirrored'.commit_between (Store.not_has_alloc store _)
        (Store.has_alloc store (.suspended (use.suspension f))) v'
      rw [← shifts_commit store wrapped (store.deferring f use).1 v'] at like
      have chased := chase_mirrors depth between like fun use' member =>
        inside use' (List.mem_cons_of_mem use member)
      rw [bind_of_ok ended, bind_of_ok ended']
      exact EndsAlike.sameOutcome chased
  | error failure later =>
    cases ended' : (use.suspension f).run (force depth) (apply depth) wrapped with
    | ok v' later' =>
      rw [ended, ended'] at mirrors
      cases mirrors
    | error failure' later' =>
      rw [ended, ended'] at mirrors
      rw [bind_of_error ended, bind_of_error ended']
      cases mirrors with
      | error mirrored' => exact .error mirrored'.sameForced

/-! ### Towers of deferred uses -/

theorem build_quiet (depth : Nat) (represented : store.Represented) (there : store.Has f)
    (inside : ∀ x ∈ use.cells, store.Has x) :
    Moves Quiet (use.build depth f) store fun r later => later.Has r := by
  cases use with
  | argument x => exact apply_quiet depth represented there (inside x (by simp [Use.cells]))
  | half side => exact takeHalf_quiet side represented there

theorem onValue_quiet {r : CellId} (represented : store.Represented)
    (cells : ∀ y ∈ v.cells, store.Has y) (inside : ∀ x ∈ use.cells, store.Has x)
    (ended : use.onValue depth v store = .ok r later) : store.Quiet later ∧ later.Has r := by
  cases use with
  | argument x =>
    exact (applyWith_quiet depth represented cells (inside x (by simp [Use.cells]))).ok r later ended
  | half side =>
    obtain ⟨rfl, member⟩ := half_eq_ok ended
    exact ⟨.refl represented, cells r member⟩

/-- What the value of a cell refers to is there. -/
theorem Store.Represented.value_inside (represented : store.Represented) (there : store.Has x)
    (holds : store.cell x = .value v) : ∀ y ∈ v.cells, store.Has y := by
  obtain ⟨defs, terms, represents⟩ := represented
  exact fun y member => represents.has_iff.mpr ((represents.value there holds).1 y member)

theorem commit_chase_deepens (y : CellId) (uses : List Use) (v : Value) :
    DeepensAll fun depth => (do
      Eval.commit y v
      chase depth uses v : Eval Value) :=
  (deepensAll_const (Eval.commit y v)).bind fun _ => chase_deepens uses v

/-- The cell for a deferred use is forced: the use is carried out, and the cell is given the value. -/
theorem settles_wrapped (store : Store) (f : CellId) (use : Use) (rest : List Use)
    (outcome : EStateM.Result Failure Store Value) :
    Settles (fun depth => force depth (store.deferring f use).1 >>= chase depth rest)
        (store.deferring f use).2 outcome ↔
      Settles (fun depth => (do
        let v ← (use.suspension f).run (force depth) (apply depth)
        Eval.commit (store.deferring f use).1 v
        chase depth rest v : Eval Value)) (store.deferring f use).2 outcome := by
  have content : (store.deferring f use).2.cell (store.deferring f use).1 =
      .suspended (use.suspension f) := Store.cell_alloc_self store _
  have stores : ∀ v, DeepensAll fun _ => (do
      Eval.commit (store.deferring f use).1 v
      pure v : Eval Value) := fun v => deepensAll_const _
  refine (settles_bind_congr (force_deepens _) (chase_deepens rest)
    ((run_deepensAll (use.suspension f)).bind stores) fun outcome =>
      settles_succ_iff fun depth => force_of_suspended content depth).trans ?_
  refine settles_congr fun depth => ?_
  simp only [bind_assoc, pure_bind]

/-- **A tower of deferred uses is chased when it is forced.** -/
theorem deferred_matches_chase (represented : store.Represented) (there : store.Has f)
    (inside : ∀ use ∈ uses, ∀ x ∈ Use.cells use, store.Has x) :
    Matches store (fun depth => buildAll depth f uses >>= force depth) store
      (fun depth => force depth f >>= chase depth uses) store := by
  induction uses generalizing store f with
  | nil =>
    refine .of_iff fun outcome => settles_congr fun depth => ?_
    show (pure f >>= force depth) store = (force depth f >>= pure) store
    rw [pure_bind, bind_pure]
  | cons use rest ih =>
    have here := inside use List.mem_cons_self
    have further := fun use' member => inside use' (List.mem_cons_of_mem use member)
    have deepens := fun g => (buildAll_deepens g rest).bind force_deepens
    have assoc : ∀ depth, buildAll depth f (use :: rest) >>= force depth =
        use.build depth f >>= fun g => buildAll depth g rest >>= force depth := fun depth => by
      rw [buildAll_cons, bind_assoc]
    simp only [assoc]
    cases content : store.cell f with
    | value v =>
      -- The cell is used on the spot in both runs, and what remains is a shorter tower.
      have immediate : Matches store
          (fun depth => use.build depth f >>= fun g => buildAll depth g rest >>= force depth) store
          (fun depth => use.onValue depth v >>= fun g => buildAll depth g rest >>= force depth)
          store :=
        .of_iff fun outcome => settles_bind_congr (build_deepens f use) deepens
          (onValue_deepens v use) (settles_build_of_value content use)
      have chased : Matches store
          (fun depth => use.onValue depth v >>= fun g => force depth g >>= chase depth rest) store
          (fun depth => force depth f >>= chase depth (use :: rest)) store := by
        refine .of_iff fun outcome => settles_congr fun depth => ?_
        rw [bind_of_ok (force_of_value content depth)]
        rfl
      refine immediate.trans (Matches.trans ?_ chased)
      refine .bind (onValue_deepens v use) deepens
        (fun g => (force_deepens g).bind (chase_deepens rest)) fun r later settles => ?_
      obtain ⟨depth, ended⟩ := settles.exists_depth
      obtain ⟨quiet, inside'⟩ :=
        onValue_quiet represented (represented.value_inside there content) here ended
      have kept : ∀ x, store.Has x → later.Has x := fun x => quiet.evolves.has
      exact (ih quiet.represented inside' fun use' member x cell =>
        kept x (further use' member x cell)).mono kept
    | suspended s =>
      -- The use is deferred, and the tower stands on the cell for it.
      have built : ∀ depth, use.build depth f store =
          .ok (store.deferring f use).1 (store.deferring f use).2 :=
        fun depth => build_of_suspended content depth use
      obtain ⟨quiet, inside'⟩ := (build_quiet 0 represented there here).ok _ _ (built 0)
      have kept : ∀ x, store.Has x → (store.deferring f use).2.Has x := fun x => quiet.evolves.has
      have deferred : Matches store
          (fun depth => use.build depth f >>= fun g => buildAll depth g rest >>= force depth) store
          (fun depth => buildAll depth (store.deferring f use).1 rest >>= force depth)
          (store.deferring f use).2 :=
        .of_iff fun outcome => settles_congr fun depth => bind_of_ok (built depth)
      have tower := (ih quiet.represented inside' fun use' member x cell =>
        kept x (further use' member x cell)).mono kept
      have wrapped : Matches store _ _ _ _ := .of_iff (settles_wrapped store f use rest)
      refine deferred.trans (tower.trans (wrapped.trans ?_))
      refine .symm (.of_depth ?_ ?_ fun depth => wrapped_sameOutcome depth represented there inside)
      · exact (force_deepens f).bind (chase_deepens (use :: rest))
      · exact (run_deepensAll _).bind (commit_chase_deepens _ rest)

/-- Forcing a cell first changes nothing about how its uses are chased. -/
theorem forced_matches_chase (represented : store.Represented) (there : store.Has f)
    (inside : ∀ use ∈ uses, ∀ x ∈ Use.cells use, store.Has x) :
    Matches store (fun depth => force depth f >>= fun _ => buildAll depth f uses >>= force depth)
      store (fun depth => force depth f >>= chase depth uses) store := by
  refine .bind (force_deepens f) (fun _ => (buildAll_deepens f uses).bind force_deepens)
    (chase_deepens uses) fun v later settles => ?_
  obtain ⟨depth, forced⟩ := settles.exists_depth
  obtain ⟨progress, -⟩ := (force_progress depth represented there).ok v later forced
  have kept : ∀ x, store.Has x → later.Has x := fun x => progress.evolves.has
  have holds := force_stores represented there forced
  have tower := (deferred_matches_chase progress.represented (kept f there) fun use member x cell =>
    kept x (inside use member x cell)).mono kept
  refine tower.trans (.of_iff fun outcome => settles_congr fun depth => ?_)
  exact bind_of_ok (force_of_value holds depth)

/-- **Using a cell before or after it is forced** comes to the same, whatever the uses are. -/
theorem deferral_matches (represented : store.Represented) (there : store.Has f)
    (inside : ∀ use ∈ uses, ∀ x ∈ Use.cells use, store.Has x) :
    Matches store (fun depth => buildAll depth f uses >>= force depth) store
      (fun depth => force depth f >>= fun _ => buildAll depth f uses >>= force depth) store :=
  (deferred_matches_chase represented there inside).trans
    (forced_matches_chase represented there inside).symm

/-! ### In a session -/

/-- **Two computations agree**: what either comes to at some depth, the other comes to at every depth
from some depth on, up to what `SameOutcome` leaves open. -/
structure Agree (store : Store) (computation other : Nat → Eval Value) : Prop where
  forth : ∀ depth, IsFinal (computation depth store) → ∃ bound, ∀ more, bound ≤ more →
    SameOutcome store (computation depth store) (other more store)
  back : ∀ depth, IsFinal (other depth store) → ∃ bound, ∀ more, bound ≤ more →
    SameOutcome store (computation more store) (other depth store)

theorem Matches.agree {computation other : Nat → Eval Value}
    (agree : Matches store computation store other store) (deepens : DeepensAll computation)
    (deepens' : DeepensAll other) : Agree store computation other where
  forth depth final := by
    obtain ⟨outcome, ⟨-, bound, settled⟩, same⟩ := agree.forth _ (deepens.settles final)
    exact ⟨bound, fun more le => by rwa [settled more le]⟩
  back depth final := by
    obtain ⟨outcome, ⟨-, bound, settled⟩, same⟩ := agree.back _ (deepens'.settles final)
    exact ⟨bound, fun more le => by rwa [settled more le]⟩

theorem deferral_agree (represented : store.Represented) (there : store.Has f)
    (inside : ∀ use ∈ uses, ∀ x ∈ Use.cells use, store.Has x) :
    Agree store (fun depth => buildAll depth f uses >>= force depth)
      fun depth => force depth f >>= fun _ => buildAll depth f uses >>= force depth := by
  have deepens := (buildAll_deepens f uses).bind force_deepens
  exact (deferral_matches represented there inside).agree deepens
    ((force_deepens f).bind fun _ => deepens)

/-- **Deferred and immediate application agree**, in every session: a cell is applied to any number of
cells and the result is forced, or the cell is forced before that. So do the halves of a cell. -/
theorem Session.deferral_agrees (history : List (Nat × Session.Step)) {args : List CellId}
    (there : (Session.reached history).store.Has f)
    (inside : ∀ x ∈ args, (Session.reached history).store.Has x) :
    Agree (Session.reached history).store (fun depth => applyAll depth f args >>= force depth)
        (fun depth => force depth f >>= fun _ => applyAll depth f args >>= force depth) ∧
      ∀ side, Agree (Session.reached history).store
        (fun depth => takeHalf side f >>= force depth)
        (fun depth => force depth f >>= fun _ => takeHalf side f >>= force depth) := by
  have represented := (Session.sound_reached history).represented
  constructor
  · simp only [applyAll_eq_buildAll]
    refine deferral_agree represented there fun use member x cell => ?_
    obtain ⟨y, given, rfl⟩ := List.mem_map.mp member
    rw [List.mem_singleton.mp cell]
    exact inside y given
  · intro side
    have inside : ∀ use ∈ [Use.half side], ∀ x ∈ use.cells, (Session.reached history).store.Has x := by
      intro use member x cell
      rw [List.mem_singleton.mp member] at cell
      cases cell
    have halves := deferral_agree represented there inside
    simpa only [← takeHalf_eq_buildAll] using halves

/-- A number is applied while the result is built, once the cell has been forced, and otherwise while
the result is forced. -/
theorem Session.deferral_agrees_number :
    let store := (Session.reached [(20, .ofCommand (.environment (.load
      "h = ap k 4\nk = t\nx = ap inc 1")))]).store
    (applyAll 20 ⟨21⟩ [⟨23⟩, ⟨23⟩] >>= force 20).verdict store = .error (.fault (.appliedNumber 4)) ∧
      (applyAll 20 ⟨21⟩ [⟨23⟩, ⟨23⟩]).verdict ((force 20 ⟨21⟩).after store) =
        .error (.fault (.appliedNumber 4)) ∧
      Agree store (fun depth => applyAll depth ⟨21⟩ [⟨23⟩, ⟨23⟩] >>= force depth)
        fun depth => force depth ⟨21⟩ >>= fun _ =>
          applyAll depth ⟨21⟩ [⟨23⟩, ⟨23⟩] >>= force depth := by
  intro store
  have size : store.cells.size = 24 := by decide +kernel
  have there : ∀ i, i < 24 → store.Has ⟨i⟩ := fun i less =>
    Nat.lt_of_lt_of_eq less size.symm
  refine ⟨by decide +kernel, by decide +kernel, ?_⟩
  refine (Session.deferral_agrees _ (there 21 (by decide)) fun x member => ?_).1
  simp only [List.mem_cons, List.not_mem_nil, or_false, or_self] at member
  exact member ▸ there 23 (by decide)

end ByNeed
