/-
**Coming to an end.**

A computation that nests is given a depth, and fails if that does not suffice. It comes to an end in
a store if from some depth on it always ends in the same way, which is not for want of depth
(`Ends`); then the depth does not matter any more. `EndsBy` names such a depth.

* `EndsBy.bind`, `Ends.bind`: a computation that goes on with another;
* `EndsBy.succ`: one more level of nesting takes one more level of depth;
* `not_ends`: a computation that no depth suffices for does not come to an end.
-/

import ByNeed.Proofs.Computation

namespace ByNeed

/-- An outcome that is not due to a want of depth. -/
def IsFinal {α : Type} (outcome : EStateM.Result Failure Store α) : Prop :=
  ∀ later, outcome ≠ .error .depthExhausted later

/-- **A computation comes to an end by a depth**: from there on it has one outcome, which is final. -/
def EndsBy {α : Type} (bound : Nat) (computation : Nat → Eval α) (store : Store) : Prop :=
  ∃ outcome, IsFinal outcome ∧ ∀ depth, bound ≤ depth → computation depth store = outcome

/-- **A computation comes to an end.** -/
def Ends {α : Type} (computation : Nat → Eval α) (store : Store) : Prop :=
  ∃ bound, EndsBy bound computation store

variable {α β : Type} {bound bound' : Nat} {computation other : Nat → Eval α} {store store' : Store}

/-- A verdict that is not a want of depth is final. -/
theorem isFinal_of_verdict {fixed : Eval α} (other : fixed.verdict store ≠ .error .depthExhausted) :
    IsFinal (fixed store) := by
  intro later exhausted
  exact other (by rw [Eval.verdict, exhausted])

/-- What a computation ensures of its failures shows that its outcome is final. -/
theorem Eval.Ensures.isFinal {fixed : Eval α} {good : α → Store → Prop}
    {bad : Failure → Store → Prop} (ensures : fixed.Ensures store good bad)
    (failures : ∀ failure later, bad failure later → failure ≠ .depthExhausted) :
    IsFinal (fixed store) :=
  fun later exhausted => failures _ later (ensures.error exhausted) rfl

theorem EndsBy.mono (ends : EndsBy bound computation store) (le : bound ≤ bound') :
    EndsBy bound' computation store := by
  obtain ⟨outcome, final, settled⟩ := ends
  exact ⟨outcome, final, fun depth more => settled depth (Nat.le_trans le more)⟩

/-- A computation that does not depend on the depth. -/
theorem EndsBy.const {fixed : Eval α} (final : IsFinal (fixed store)) :
    EndsBy bound (fun _ => fixed) store :=
  ⟨fixed store, final, fun _ _ => rfl⟩

/-- A computation that agrees with another from the depth on. -/
theorem EndsBy.congr (ends : EndsBy bound computation store)
    (same : ∀ depth, bound ≤ depth → other depth store' = computation depth store) :
    EndsBy bound other store' := by
  obtain ⟨outcome, final, settled⟩ := ends
  exact ⟨outcome, final, fun depth more => (same depth more).trans (settled depth more)⟩

/-- One more level of nesting takes one more level of depth. -/
theorem EndsBy.succ (ends : EndsBy bound other store)
    (same : ∀ depth, computation (depth + 1) store = other depth store) :
    EndsBy (bound + 1) computation store := by
  obtain ⟨outcome, final, settled⟩ := ends
  refine ⟨outcome, final, fun depth more => ?_⟩
  cases depth with
  | zero => omega
  | succ depth => exact (same depth).trans (settled depth (by omega))

/-- **A computation that goes on with another** comes to an end by the depth that both do. -/
theorem EndsBy.bind (first : EndsBy bound computation store) (next : α → Nat → Eval β)
    (rest : ∀ a later, computation bound store = .ok a later → EndsBy bound (next a) later) :
    EndsBy bound (fun depth => computation depth >>= fun a => next a depth) store := by
  obtain ⟨outcome, final, settled⟩ := first
  cases outcome with
  | ok a later =>
    exact (rest a later (settled bound (Nat.le_refl bound))).congr fun depth more =>
      bind_of_ok (settled depth more)
  | error failure later =>
    refine ⟨.error failure later, fun last ended => ?_, fun depth more =>
      bind_of_error (settled depth more)⟩
    cases ended
    exact final later rfl

/-- **A computation that goes on with another** comes to an end if both do. -/
theorem Ends.bind (first : Ends computation store) (next : α → Nat → Eval β)
    (rest : ∀ depth a later, computation depth store = .ok a later → Ends (next a) later) :
    Ends (fun depth => computation depth >>= fun a => next a depth) store := by
  obtain ⟨bound, outcome, final, settled⟩ := first
  have ended := settled bound (Nat.le_refl bound)
  cases outcome with
  | ok a later =>
    obtain ⟨bound', ends⟩ := rest bound a later ended
    refine ⟨max bound bound', (EndsBy.mono ⟨_, final, settled⟩ (Nat.le_max_left _ _)).bind next ?_⟩
    intro b last answered
    rw [settled _ (Nat.le_max_left bound bound')] at answered
    cases answered
    exact ends.mono (Nat.le_max_right _ _)
  | error failure later =>
    refine ⟨bound, EndsBy.bind ⟨_, final, settled⟩ next fun b last answered => ?_⟩
    rw [ended] at answered
    cases answered

/-- A computation that does not depend on the depth. -/
theorem Ends.const {fixed : Eval α} (final : IsFinal (fixed store)) :
    Ends (fun _ => fixed) store :=
  ⟨0, .const final⟩

/-- A computation that no depth suffices for does not come to an end. -/
theorem not_ends (exhausted : ∀ depth, ∃ later, computation depth store =
    .error .depthExhausted later) : ¬ Ends computation store := by
  rintro ⟨bound, outcome, final, settled⟩
  obtain ⟨later, ended⟩ := exhausted bound
  exact final later ((settled bound (Nat.le_refl bound)).symm.trans ended)

end ByNeed
