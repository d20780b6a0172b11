/-
**Outcomes of call-by-name reduction.**

An action that is carried out has at most one outcome: it yields a weak head normal form after a
number of steps (`Action.Yields`), or it fails with a mistake of some category (`Action.Fails`), or
it never ends.

* `Yields.unique`, `Fails.unique`, `Yields.not_fails`: there is at most one outcome;
* `Yields.mono`: an answer stays when further names are given a meaning. A mistake need not stay,
  since a name may be undefined and be defined later;
* `Passes`: an action comes down to a later one, whose outcome it shares (`Passes.yields`,
  `Passes.fails`).
-/

import ByNeed.Proofs.Reduction.Term

namespace ByNeed.Reduction

/-- One glossary has all entries of another. -/
def Glossary.Le (defs later : Glossary) : Prop :=
  ∀ table word t, defs table word = some t → later table word = some t

/-- A glossary with the meaning of one name changed. -/
def Glossary.bind (defs : Glossary) (table : TableId) (word : String) (t : Term) : Glossary :=
  fun table' word' => if table' = table ∧ word' = word then some t else defs table' word'

theorem Glossary.le_bind {defs : Glossary} {table : TableId} {word : String}
    (missing : defs table word = none) (t : Term) : defs.Le (defs.bind table word t) := by
  intro table' word' t' found
  have other : ¬ (table' = table ∧ word' = word) := by
    rintro ⟨rfl, rfl⟩
    rw [missing] at found
    cases found
  unfold Glossary.bind
  rw [if_neg other, found]

namespace Action

/-! ### Answers and mistakes -/

/-- An action goes on as a term. -/
inductive Continues (defs : Glossary) : Action → Term → Prop
  | become (t : Term) : Continues defs (.become t) t
  | lookup {table : TableId} {word : String} {t : Term} :
      defs table word = some t → Continues defs (.lookup table word) t

/-- **An action yields a weak head normal form** in a number of steps. -/
inductive Yields (defs : Glossary) : Action → Nat → Whnf → Prop
  | answer (w : Whnf) : Yields defs (.answer w) 0 w
  | step {a : Action} {t : Term} {n : Nat} {w : Whnf} :
      Continues defs a t → Yields defs t.action n w → Yields defs a (n + 1) w
  | demand {t : Term} {k : Frame} {m n : Nat} {v w : Whnf} :
      Yields defs t.action m v → Yields defs (k.resume v) n w →
      Yields defs (.demand t k) (m + n + 1) w

/-- **An action fails** with a mistake of a category. -/
inductive Fails (defs : Glossary) : Action → Category → Prop
  | fail (c : Category) : Fails defs (.fail c) c
  | undefined {table : TableId} {word : String} :
      defs table word = none → Fails defs (.lookup table word) .undefinedSymbol
  | step {a : Action} {t : Term} {c : Category} :
      Continues defs a t → Fails defs t.action c → Fails defs a c
  | demanded {t : Term} {k : Frame} {c : Category} :
      Fails defs t.action c → Fails defs (.demand t k) (k.refuse c)
  | resumed {t : Term} {k : Frame} {n : Nat} {v : Whnf} {c : Category} :
      Yields defs t.action n v → Fails defs (k.resume v) c → Fails defs (.demand t k) c

/-! ### There is at most one outcome -/

variable {defs later : Glossary} {a b : Action} {t u : Term} {v w : Whnf} {m n : Nat}
  {c d : Category}

theorem Continues.unique (first : Continues defs a t) (second : Continues defs a u) : t = u := by
  cases first with
  | become t =>
    cases second
    rfl
  | lookup found =>
    cases second with
    | lookup again => exact Option.some.inj (found.symm.trans again)

/-- **There is at most one answer**, after one number of steps. -/
theorem Yields.unique (first : Yields defs a m v) (second : Yields defs a n w) :
    m = n ∧ v = w := by
  induction first generalizing n w with
  | answer w =>
    cases second with
    | answer => exact ⟨rfl, rfl⟩
    | step continues => cases continues
  | step continues _ ih =>
    cases second with
    | answer => cases continues
    | step again rest =>
      obtain rfl := continues.unique again
      obtain ⟨rfl, rfl⟩ := ih rest
      exact ⟨rfl, rfl⟩
    | demand => cases continues
  | demand _ _ ihTerm ihRest =>
    cases second with
    | step continues => cases continues
    | demand again rest =>
      obtain ⟨rfl, rfl⟩ := ihTerm again
      obtain ⟨rfl, rfl⟩ := ihRest rest
      exact ⟨rfl, rfl⟩

/-- An action that yields an answer does not fail. -/
theorem Yields.not_fails (yields : Yields defs a n w) (fails : Fails defs a c) : False := by
  induction yields generalizing c with
  | answer w =>
    cases fails with
    | step continues => cases continues
  | step continues _ ih =>
    cases fails with
    | fail => cases continues
    | undefined missing =>
      cases continues with
      | lookup found => rw [missing] at found; cases found
    | step again rest =>
      obtain rfl := continues.unique again
      exact ih rest
    | demanded => cases continues
    | resumed => cases continues
  | demand yields _ ihTerm ihRest =>
    cases fails with
    | step continues => cases continues
    | demanded fails => exact ihTerm fails
    | resumed again fails =>
      obtain ⟨rfl, rfl⟩ := yields.unique again
      exact ihRest fails

/-- **There is at most one mistake.** -/
theorem Fails.unique (first : Fails defs a c) (second : Fails defs a d) : c = d := by
  induction first generalizing d with
  | fail c =>
    cases second with
    | fail => rfl
    | step continues => cases continues
  | undefined missing =>
    cases second with
    | undefined => rfl
    | step continues =>
      cases continues with
      | lookup found => rw [missing] at found; cases found
  | step continues _ ih =>
    cases second with
    | fail => cases continues
    | undefined missing =>
      cases continues with
      | lookup found => rw [missing] at found; cases found
    | step again rest =>
      obtain rfl := continues.unique again
      exact ih rest
    | demanded => cases continues
    | resumed => cases continues
  | demanded fails ih =>
    cases second with
    | step continues => cases continues
    | demanded again => rw [ih again]
    | resumed yields _ => exact (yields.not_fails fails).elim
  | resumed yields _ ih =>
    cases second with
    | step continues => cases continues
    | demanded fails => exact (yields.not_fails fails).elim
    | resumed again rest =>
      obtain ⟨rfl, rfl⟩ := yields.unique again
      exact ih rest

/-! ### More names -/

theorem Continues.mono (more : defs.Le later) (continues : Continues defs a t) :
    Continues later a t := by
  cases continues with
  | become t => exact .become t
  | lookup found => exact .lookup (more _ _ _ found)

theorem Yields.mono (more : defs.Le later) (yields : Yields defs a n w) : Yields later a n w := by
  induction yields with
  | answer w => exact .answer w
  | step continues _ ih => exact .step (continues.mono more) ih
  | demand _ _ ihTerm ihRest => exact .demand ihTerm ihRest

/-! ### Coming down to a later action -/

/-- An action comes down to another: the demands in between have been answered. -/
inductive Passes (defs : Glossary) : Action → Action → Prop
  | refl (a : Action) : Passes defs a a
  | step {a b : Action} {t : Term} :
      Continues defs a t → Passes defs t.action b → Passes defs a b
  | demand {t : Term} {k : Frame} {n : Nat} {v : Whnf} {b : Action} :
      Yields defs t.action n v → Passes defs (k.resume v) b → Passes defs (.demand t k) b

theorem Passes.trans {e : Action} (first : Passes defs a b) (second : Passes defs b e) :
    Passes defs a e := by
  induction first with
  | refl a => exact second
  | step continues _ ih => exact .step continues (ih second)
  | demand yields _ ih => exact .demand yields (ih second)

theorem Passes.mono (more : defs.Le later) (passes : Passes defs a b) : Passes later a b := by
  induction passes with
  | refl a => exact .refl a
  | step continues _ ih => exact .step (continues.mono more) ih
  | demand yields _ ih => exact .demand (yields.mono more) ih

/-- The later action's answer is the answer, after no fewer steps. -/
theorem Passes.yields (passes : Passes defs a b) (yields : Yields defs b n w) :
    ∃ m, n ≤ m ∧ Yields defs a m w := by
  induction passes with
  | refl a => exact ⟨n, Nat.le_refl n, yields⟩
  | step continues _ ih =>
    obtain ⟨m, le, yields⟩ := ih yields
    exact ⟨m + 1, by omega, .step continues yields⟩
  | demand demanded _ ih =>
    obtain ⟨m, le, yields⟩ := ih yields
    exact ⟨_, by omega, .demand demanded yields⟩

/-- The answer is the later action's answer, after no more steps. -/
theorem Passes.yields_later (passes : Passes defs a b) (yields : Yields defs a n w) :
    ∃ m, m ≤ n ∧ Yields defs b m w := by
  induction passes generalizing n with
  | refl a => exact ⟨n, Nat.le_refl n, yields⟩
  | step continues _ ih =>
    cases yields with
    | answer => cases continues
    | step again rest =>
      obtain rfl := continues.unique again
      obtain ⟨m, le, yields⟩ := ih rest
      exact ⟨m, by omega, yields⟩
    | demand => cases continues
  | demand demanded _ ih =>
    cases yields with
    | step continues => cases continues
    | demand again rest =>
      obtain ⟨rfl, rfl⟩ := demanded.unique again
      obtain ⟨m, le, yields⟩ := ih rest
      exact ⟨m, by omega, yields⟩

/-- The later action's mistake is the mistake. -/
theorem Passes.fails (passes : Passes defs a b) (fails : Fails defs b c) : Fails defs a c := by
  induction passes with
  | refl a => exact fails
  | step continues _ ih => exact .step continues (ih fails)
  | demand demanded _ ih => exact .resumed demanded (ih fails)

end Action

end ByNeed.Reduction
