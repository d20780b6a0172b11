/-
**Early reduction.**

A term may be reduced in places where nothing has been demanded yet: an application anywhere in it
is replaced by what it comes down to. The result has the same outcome, and the original takes no
fewer steps to it.

* `Term.Reduces`: the relation, a congruence that contains the steps of demanded terms;
* `Action.Reduces.yields`: a term that reduces early to one with an answer has an answer itself,
  whose components reduce early to those of the other, **after no fewer steps**;
* `Action.Reduces.yields_later`: the other way about, the reduced term has the answer of the original,
  after no more steps;
* `Action.Reduces.fails`: the same of mistakes;
* `Term.Reduces.trans`: early reductions can be made one after the other.

These facts go by induction on the outcome, and only then by induction on the early reduction: an
argument that is used twice has its early reductions copied, so these get no smaller on the way.
-/

import ByNeed.Proofs.Reduction.Outcome

namespace ByNeed.Reduction

open Reduction.Action

/-! ### The relations -/

/-- **A term reduces early to another.** -/
inductive Term.Reduces (defs : Glossary) : Term → Term → Prop
  | refl (t : Term) : Term.Reduces defs t t
  | app {f f' x x' : Term} : Term.Reduces defs f f' → Term.Reduces defs x x' →
      Term.Reduces defs (.app f x) (.app f' x')
  | leads {t u u' : Term} {b : Action} : Passes defs t.action b → Continues defs b u →
      Term.Reduces defs u u' → Term.Reduces defs t u'

/-- A weak head normal form whose components reduce early to those of another. -/
inductive Whnf.Reduces (defs : Glossary) : Whnf → Whnf → Prop
  | num (n : Int) : Whnf.Reduces defs (.num n) (.num n)
  | nil : Whnf.Reduces defs .nil .nil
  | pair {head head' tail tail' : Term} : head.Reduces defs head' → tail.Reduces defs tail' →
      Whnf.Reduces defs (.pair head tail) (.pair head' tail')
  | unary (f : Unary) : Whnf.Reduces defs (.unary f) (.unary f)
  | binary (f : Binary) : Whnf.Reduces defs (.binary f) (.binary f)
  | binaryOn (f : Binary) {x x' : Term} : x.Reduces defs x' →
      Whnf.Reduces defs (.binaryOn f x) (.binaryOn f x')
  | ternary (f : Ternary) : Whnf.Reduces defs (.ternary f) (.ternary f)
  | ternaryOn (f : Ternary) {x x' : Term} : x.Reduces defs x' →
      Whnf.Reduces defs (.ternaryOn f x) (.ternaryOn f x')
  | ternaryOnTwo (f : Ternary) {x x' y y' : Term} : x.Reduces defs x' → y.Reduces defs y' →
      Whnf.Reduces defs (.ternaryOnTwo f x y) (.ternaryOnTwo f x' y')

/-- A frame whose terms reduce early to those of another. -/
inductive Frame.Reduces (defs : Glossary) : Frame → Frame → Prop
  | argument {x x' : Term} : x.Reduces defs x' → Frame.Reduces defs (.argument x) (.argument x')
  | half (side : Half) : Frame.Reduces defs (.half side) (.half side)
  | monop (op : Monop) : Frame.Reduces defs (.monop op) (.monop op)
  | firstOperand (op : Binop) {y y' : Term} : y.Reduces defs y' →
      Frame.Reduces defs (.firstOperand op y) (.firstOperand op y')
  | secondOperand (op : Binop) (m : Int) :
      Frame.Reduces defs (.secondOperand op m) (.secondOperand op m)
  | isNil {x x' : Term} : x.Reduces defs x' → Frame.Reduces defs (.isNil x) (.isNil x')
  | mark : Frame.Reduces defs .mark .mark

/-- An action whose terms reduce early to those of another. -/
inductive Action.Reduces (defs : Glossary) : Action → Action → Prop
  | answer {w w' : Whnf} : w.Reduces defs w' → Action.Reduces defs (.answer w) (.answer w')
  | fail (c : Category) : Action.Reduces defs (.fail c) (.fail c)
  | become {t t' : Term} : t.Reduces defs t' → Action.Reduces defs (.become t) (.become t')
  | lookup (table : TableId) (word : String) :
      Action.Reduces defs (.lookup table word) (.lookup table word)
  | demand {t t' : Term} {k k' : Frame} : t.Reduces defs t' → k.Reduces defs k' →
      Action.Reduces defs (.demand t k) (.demand t' k')

variable {defs later : Glossary}

theorem Whnf.Reduces.refl (w : Whnf) : w.Reduces defs w := by
  cases w <;> constructor <;> exact .refl _

theorem Frame.Reduces.refl (k : Frame) : k.Reduces defs k := by
  cases k <;> constructor <;> exact .refl _

theorem Action.Reduces.refl (a : Action) : a.Reduces defs a := by
  cases a with
  | answer w => exact .answer (.refl w)
  | fail c => exact .fail c
  | become t => exact .become (.refl t)
  | lookup table word => exact .lookup table word
  | demand t k => exact .demand (.refl t) (.refl k)

theorem Term.Reduces.mono {t t' : Term} (more : defs.Le later) (reduces : t.Reduces defs t') :
    t.Reduces later t' := by
  induction reduces with
  | refl t => exact .refl t
  | app _ _ ihFunction ihArgument => exact .app ihFunction ihArgument
  | leads passes continues _ ih => exact .leads (passes.mono more) (continues.mono more) ih

theorem Whnf.Reduces.mono {w w' : Whnf} (more : defs.Le later) (reduces : w.Reduces defs w') :
    w.Reduces later w' := by
  cases reduces <;> constructor <;> exact Term.Reduces.mono more ‹_›

theorem Frame.Reduces.mono {k k' : Frame} (more : defs.Le later) (reduces : k.Reduces defs k') :
    k.Reduces later k' := by
  cases reduces <;> constructor <;> exact Term.Reduces.mono more ‹_›

theorem Action.Reduces.mono {a a' : Action} (more : defs.Le later)
    (reduces : a.Reduces defs a') : a.Reduces later a' := by
  cases reduces with
  | answer w => exact .answer (w.mono more)
  | fail c => exact .fail c
  | become t => exact .become (t.mono more)
  | lookup table word => exact .lookup table word
  | demand t k => exact .demand (t.mono more) (k.mono more)

/-! ### Early reduction goes through application and resumption -/

theorem applyUnary_reduces (f : Unary) {x x' : Term} (argument : x.Reduces defs x') :
    (applyUnary f x).Reduces defs (applyUnary f x') := by
  cases f with
  | monop op => exact .demand argument (.monop op)
  | isNil => exact .demand argument (.isNil argument)
  | half side => exact .demand argument (.half side)
  | itself name => exact .become argument

theorem applyBinary_reduces (f : Binary) {a a' x x' : Term} (first : a.Reduces defs a')
    (second : x.Reduces defs x') : (applyBinary f a x).Reduces defs (applyBinary f a' x') := by
  cases f with
  | binop op => exact .demand first (.firstOperand op second)
  | cons => exact .answer (.pair first second)
  | first name => exact .become first
  | second name => exact .become second
  | never => exact .refl _

theorem applyTernary_reduces (f : Ternary) {a a' b b' x x' : Term} (first : a.Reduces defs a')
    (second : b.Reduces defs b') (third : x.Reduces defs x') :
    (applyTernary f a b x).Reduces defs (applyTernary f a' b' x') := by
  cases f with
  | share => exact .become (.app (.app first third) (.app second third))
  | swap => exact .become (.app (.app first third) second)
  | compose => exact .become (.app first (.app second third))
  | first name => exact .become first
  | second name => exact .become second
  | third name => exact .become third

theorem Whnf.Reduces.apply {w w' : Whnf} {x x' : Term} (reduces : w.Reduces defs w')
    (argument : x.Reduces defs x') : (w.apply x).Reduces defs (w'.apply x') := by
  cases reduces with
  | num n => exact .fail _
  | nil => exact .refl _
  | pair head tail => exact .become (.app (.app argument head) tail)
  | unary f => exact applyUnary_reduces f argument
  | binary f => exact .answer (.binaryOn f argument)
  | binaryOn f first => exact applyBinary_reduces f first argument
  | ternary f => exact .answer (.ternaryOn f argument)
  | ternaryOn f first => exact .answer (.ternaryOnTwo f first argument)
  | ternaryOnTwo f first second => exact applyTernary_reduces f first second argument

theorem question_reduces {x x' : Term} (reduces : x.Reduces defs x') :
    (question x).Reduces defs (question x') :=
  .app (.app (.app reduces (.refl _)) (.refl _)) (.refl _)

theorem Whnf.Reduces.asked {w w' : Whnf} {x x' : Term} (reduces : w.Reduces defs w')
    (argument : x.Reduces defs x') : (w.asked x).Reduces defs (w'.asked x') := by
  cases reduces with
  | num n => exact .fail _
  | nil => exact .refl _
  | pair head tail => exact .refl _
  | _ => exact .demand (question_reduces argument) .mark

theorem Frame.Reduces.resume {k k' : Frame} {w w' : Whnf} (frame : k.Reduces defs k')
    (reduces : w.Reduces defs w') : (k.resume w).Reduces defs (k'.resume w') := by
  cases frame with
  | argument argument => exact reduces.apply argument
  | half side =>
    cases reduces with
    | pair head tail =>
      cases side with
      | head => exact .become head
      | tail => exact .become tail
    | _ => exact .fail _
  | monop op => cases reduces <;> exact .refl _
  | firstOperand op second =>
    cases reduces with
    | num m => exact .demand second (.secondOperand op m)
    | _ => exact .fail _
  | secondOperand op m => cases reduces <;> exact .refl _
  | isNil argument => exact reduces.asked argument
  | mark => cases reduces <;> exact .refl _

theorem Frame.Reduces.refuse_eq {k k' : Frame} (frame : k.Reduces defs k') (c : Category) :
    k.refuse c = k'.refuse c := by
  cases frame <;> rfl

/-! ### Outcomes of reduced terms -/

/-- What holds of every action that reduces early to the action of a term, and of an action that
comes down to one of which it holds, holds of the action of every term that reduces early to that
term. -/
theorem Term.Reduces.lift {P : Action → Prop} {t t' : Term} (reduces : t.Reduces defs t')
    (here : ∀ a, a.Reduces defs t'.action → P a)
    (back : ∀ {a b : Action} {u : Term}, Passes defs a b → Continues defs b u → P u.action → P a) :
    P t.action := by
  induction reduces with
  | refl t => exact here _ (.refl _)
  | app function argument => exact here _ (.demand function (.argument argument))
  | leads passes continues _ ih => exact back passes continues (ih here)

theorem Action.Reduces.continues {a a' : Action} {t' : Term} (reduces : a.Reduces defs a')
    (continues : Continues defs a' t') : ∃ t, Continues defs a t ∧ t.Reduces defs t' := by
  cases continues with
  | become t' =>
    cases reduces with
    | become reduces => exact ⟨_, .become _, reduces⟩
  | lookup found =>
    cases reduces with
    | lookup table word => exact ⟨t', .lookup found, .refl t'⟩

/-- The answer of a term from the answers of the actions that reduce early to its action. -/
theorem Term.Reduces.yields_of {t t' : Term} {m : Nat} {w' : Whnf} (reduces : t.Reduces defs t')
    (here : ∀ a, a.Reduces defs t'.action →
      ∃ n w, m ≤ n ∧ Yields defs a n w ∧ w.Reduces defs w') :
    ∃ n w, m ≤ n ∧ Yields defs t.action n w ∧ w.Reduces defs w' := by
  refine reduces.lift here fun passes continues found => ?_
  obtain ⟨n, w, le, yields, reduces⟩ := found
  obtain ⟨n', le', yields⟩ := passes.yields (.step continues yields)
  exact ⟨n', w, by omega, yields, reduces⟩

/-- **A term that reduces early to one with an answer has an answer**, after no fewer steps. -/
theorem Action.Reduces.yields {a a' : Action} {m : Nat} {w' : Whnf} (yields : Yields defs a' m w')
    (reduces : a.Reduces defs a') :
    ∃ n w, m ≤ n ∧ Yields defs a n w ∧ w.Reduces defs w' := by
  induction yields generalizing a with
  | answer w' =>
    cases reduces with
    | answer reduces => exact ⟨0, _, Nat.le_refl 0, .answer _, reduces⟩
  | @step a' t' m w' continues yields ih =>
    obtain ⟨t, continues, reduces⟩ := reduces.continues continues
    obtain ⟨n, w, le, yields, reduces⟩ := reduces.yields_of fun a related => ih related
    exact ⟨n + 1, w, by omega, .step continues yields, reduces⟩
  | @demand t' k' m m' v' w' _ _ ihTerm ihRest =>
    cases reduces with
    | demand term frame =>
      obtain ⟨n, v, le, yields, reduces⟩ := term.yields_of fun a related => ihTerm related
      obtain ⟨n', w, le', rest, reduces⟩ := ihRest (frame.resume reduces)
      exact ⟨n + n' + 1, w, by omega, .demand yields rest, reduces⟩
theorem Term.Reduces.yields {t t' : Term} {m : Nat} {w' : Whnf} (reduces : t.Reduces defs t')
    (yields : Yields defs t'.action m w') :
    ∃ n w, m ≤ n ∧ Yields defs t.action n w ∧ w.Reduces defs w' :=
  reduces.yields_of fun _ related => related.yields yields

/-- The answer of a reduced term from the answers of the actions that take no more steps. -/
theorem Term.Reduces.yields_later_of {t t' : Term} {n : Nat} {w : Whnf}
    (reduces : t.Reduces defs t') (yields : Yields defs t.action n w)
    (here : ∀ m ≤ n, ∀ {a a' : Action} {v : Whnf}, a.Reduces defs a' → Yields defs a m v →
      ∃ m' v', m' ≤ m ∧ Yields defs a' m' v' ∧ v.Reduces defs v') :
    ∃ m w', m ≤ n ∧ Yields defs t'.action m w' ∧ w.Reduces defs w' := by
  induction reduces generalizing n with
  | refl t => exact ⟨n, w, Nat.le_refl n, yields, .refl w⟩
  | app function argument => exact here n (Nat.le_refl n) (.demand function (.argument argument)) yields
  | leads passes continues _ ih =>
    obtain ⟨m, le, rest⟩ := passes.yields_later yields
    cases rest with
    | answer => cases continues
    | demand => cases continues
    | step again rest =>
      obtain rfl := continues.unique again
      obtain ⟨m', w', le', later, further⟩ := ih rest fun k fewer => here k (by omega)
      exact ⟨m', w', by omega, later, further⟩

/-- **A term with an answer reduces early to one with an answer**, after no more steps. -/
theorem Action.Reduces.yields_later {a a' : Action} {n : Nat} {w : Whnf}
    (reduces : a.Reduces defs a') (yields : Yields defs a n w) :
    ∃ m w', m ≤ n ∧ Yields defs a' m w' ∧ w.Reduces defs w' := by
  induction n using Nat.strongRecOn generalizing a a' w with
  | _ n ih =>
    cases reduces with
    | answer further =>
      cases yields with
      | answer => exact ⟨0, _, Nat.le_refl 0, .answer _, further⟩
      | step continues => cases continues
    | fail c =>
      cases yields with
      | step continues => cases continues
    | lookup table word => exact ⟨n, w, Nat.le_refl n, yields, .refl w⟩
    | become term =>
      cases yields with
      | step continues rest =>
        cases continues
        obtain ⟨m, w', le, later, further⟩ := term.yields_later_of rest fun k fewer _ _ _ =>
          ih k (by omega)
        exact ⟨m + 1, w', by omega, .step (.become _) later, further⟩
    | demand term frame =>
      cases yields with
      | step continues => cases continues
      | demand first rest =>
        obtain ⟨m, v', le, later, further⟩ := term.yields_later_of first fun k fewer _ _ _ =>
          ih k (by omega)
        obtain ⟨m', w', le', last, whole⟩ := ih _ (by omega) (frame.resume further) rest
        exact ⟨m + m' + 1, w', by omega, .demand later last, whole⟩

theorem Term.Reduces.yields_later {t t' : Term} {n : Nat} {w : Whnf} (reduces : t.Reduces defs t')
    (yields : Yields defs t.action n w) :
    ∃ m w', m ≤ n ∧ Yields defs t'.action m w' ∧ w.Reduces defs w' :=
  reduces.yields_later_of yields fun _ _ _ _ _ related found => related.yields_later found

/-- **A term that reduces early to one that fails, fails** in the same way. -/
theorem Action.Reduces.fails {a a' : Action} {c : Category} (fails : Fails defs a' c)
    (reduces : a.Reduces defs a') : Fails defs a c := by
  induction fails generalizing a with
  | fail c =>
    cases reduces
    exact .fail c
  | undefined missing =>
    cases reduces
    exact .undefined missing
  | step continues _ ih =>
    obtain ⟨t, continues, reduces⟩ := reduces.continues continues
    refine .step continues (reduces.lift (fun a related => ih related) ?_)
    exact fun passes continues fails => passes.fails (.step continues fails)
  | @demanded t' k' c _ ih =>
    cases reduces with
    | demand term frame =>
      rw [← frame.refuse_eq c]
      refine .demanded (term.lift (fun a related => ih related) ?_)
      exact fun passes continues fails => passes.fails (.step continues fails)
  | resumed yields _ ih =>
    cases reduces with
    | demand term frame =>
      obtain ⟨n, v, -, yields, reduces⟩ := term.yields yields
      exact .resumed yields (ih (frame.resume reduces))

theorem Term.Reduces.fails {t t' : Term} {c : Category} (reduces : t.Reduces defs t')
    (fails : Fails defs t'.action c) : Fails defs t.action c :=
  reduces.lift (fun _ related => related.fails fails) fun passes continues fails =>
    passes.fails (.step continues fails)

/-! ### Early reductions one after the other -/

/-- An action that reduces early to one that comes down to another, itself comes down to one that
reduces early to that. -/
theorem Action.Reduces.passes {a a' b' : Action} (passes : Passes defs a' b')
    (reduces : a.Reduces defs a') : ∃ b, Passes defs a b ∧ b.Reduces defs b' := by
  induction passes generalizing a with
  | refl a' => exact ⟨a, .refl a, reduces⟩
  | step continues _ ih =>
    obtain ⟨t, continues, reduces⟩ := reduces.continues continues
    have found := reduces.lift (fun a related => ih related) fun passes continues found => by
      obtain ⟨b, rest, reduces⟩ := found
      exact ⟨b, passes.trans (.step continues rest), reduces⟩
    obtain ⟨b, passes, reduces⟩ := found
    exact ⟨b, .step continues passes, reduces⟩
  | demand yields _ ih =>
    cases reduces with
    | demand term frame =>
      obtain ⟨n, v, -, yields, reduces⟩ := term.yields yields
      obtain ⟨b, passes, reduces⟩ := ih (frame.resume reduces)
      exact ⟨b, .demand yields passes, reduces⟩

/-- The terms that an action goes on as: those of an action that reduces early to it are at hand. -/
theorem Term.Reduces.leading {t t' u' : Term} {b' : Action} (reduces : t.Reduces defs t')
    (passes : Passes defs t'.action b') (continues : Continues defs b' u') :
    ∃ b u, Passes defs t.action b ∧ Continues defs b u ∧ u.Reduces defs u' := by
  refine reduces.lift
    (P := fun a => ∃ b u, Passes defs a b ∧ Continues defs b u ∧ u.Reduces defs u')
    (fun a related => ?_) fun passes continues found => ?_
  · obtain ⟨b, passes, reduces⟩ := related.passes passes
    obtain ⟨u, continues, reduces⟩ := reduces.continues continues
    exact ⟨b, u, passes, continues, reduces⟩
  · obtain ⟨b, u, rest, last, reduces⟩ := found
    exact ⟨b, u, passes.trans (.step continues rest), last, reduces⟩

/-- Early reduction of an application whose two sides are reduced further. -/
theorem Term.Reduces.app_right {t f f' x x' : Term} (reduces : t.Reduces defs (.app f x))
    (function : ∀ {g : Term}, g.Reduces defs f → g.Reduces defs f')
    (argument : ∀ {y : Term}, y.Reduces defs x → y.Reduces defs x') :
    t.Reduces defs (.app f' x') := by
  generalize whole : Term.app f x = u at reduces
  induction reduces with
  | refl t =>
    subst whole
    exact .app (function (.refl f)) (argument (.refl x))
  | app first second =>
    cases whole
    exact .app (function first) (argument second)
  | leads passes continues _ ih => exact .leads passes continues (ih whole)

/-- **Early reductions can be made one after the other.** -/
theorem Term.Reduces.trans {t u v : Term} (first : t.Reduces defs u) (second : u.Reduces defs v) :
    t.Reduces defs v := by
  induction second generalizing t with
  | refl u => exact first
  | app _ _ ihFunction ihArgument => exact first.app_right ihFunction ihArgument
  | leads passes continues _ ih =>
    obtain ⟨b, u, passes, continues, reduces⟩ := first.leading passes continues
    exact .leads passes continues (ih reduces)

theorem Whnf.Reduces.trans {u v w : Whnf} (first : u.Reduces defs v) (second : v.Reduces defs w) :
    u.Reduces defs w := by
  cases first <;> cases second <;> constructor <;> exact Term.Reduces.trans ‹_› ‹_›

end ByNeed.Reduction
