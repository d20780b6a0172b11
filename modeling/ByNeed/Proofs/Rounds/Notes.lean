/-
**Notes of a run.**

A run leaves notes: the cells that it saw hold a value, and the cells that it added. From the notes it
can be told why a cell was answered where one was applied, and why a suspension came to its value. A
cell that was applied at once and one that was put off for later come to the same: what the suspension
would have come to (`Accounts.ran_apply`).

* `Notes.Acted`, `Notes.Ran`: **why a cell was answered, and why a suspension came to a value**;
* `Notes.Composed`, `Notes.Materialized`: why a cell was built for an expression, and that all data
  of a cell was seen;
* `Notes.Accounts`: the notes are true of a store, and complete.
-/

import ByNeed.Proofs.Effect
import ByNeed.Proofs.Expression

namespace ByNeed

/-- One of two cells. -/
def Half.of (head tail : CellId) : Half → CellId
  | .head => head
  | .tail => tail

/-- The half of a pair is at hand. -/
theorem half_pair (side : Half) (head tail : CellId) :
    (Value.pair head tail).half side = pure (side.of head tail) := by
  cases side <;> rfl

/-! ### Notes -/

/-- What is noted of a run. -/
structure Notes where
  /-- A cell was seen to hold a value. -/
  learned : CellId → Value → Prop
  /-- A cell was added that holds the given content. -/
  added : CellId → Cell → Prop
  /-- A name is bound to a cell. -/
  bound : TableId → String → CellId → Prop

namespace Notes

/-- The one notes are part of the others. -/
structure Le (notes notes' : Notes) : Prop where
  learned : ∀ {x v}, notes.learned x v → notes'.learned x v
  added : ∀ {x c}, notes.added x c → notes'.added x c
  bound : ∀ {table name x}, notes.bound table name x → notes'.bound table name x

variable (notes : Notes)

/-- **Why a cell is the answer to an effect**: it was at hand, or it was added, or cells that held
values by then were applied. -/
inductive Acted : Effect → CellId → Prop
  | answer (x : CellId) : Acted (.answer x) x
  | add {c : Cell} {r : CellId} : notes.added r c → Acted (.add c) r
  | half (side : Half) {x head tail : CellId} : notes.learned x (.pair head tail) →
      Acted (.take side x) (side.of head tail)
  | halfLater {side : Half} {x r : CellId} : notes.added r (.suspended (.half side x)) →
      Acted (.take side x) r
  | apply {f x r : CellId} {v : Value} : notes.learned f v → Acted (v.effect x) r →
      Acted (.apply f x) r
  | applyLater {f x r : CellId} : notes.added r (.suspended (.apply f x)) → Acted (.apply f x) r
  | applyTwice {f x y g r : CellId} : Acted (.apply f x) g → Acted (.apply g y) r →
      Acted (.applyTwice f x y) r
  | applyNested {f g x y r : CellId} : Acted (.apply g x) y → Acted (.apply f y) r →
      Acted (.applyNested f g x) r

/-- Why a cell is the question that is put to a function. -/
inductive Questioned : Func → CellId → Prop
  | put {f : Func} {asked never first second g h question : CellId} :
      notes.added asked (.value (.func f)) → notes.added never (.value (.func (.binary .never))) →
      notes.added first (.value (.num nilMark)) → notes.added second (.value (.num pairMark)) →
      notes.Acted (.apply asked never) g → notes.Acted (.apply g first) h →
      notes.Acted (.apply h second) question → Questioned f question

/-- Why a cell is the empty list or is none. -/
inductive Asked : CellId → Bool → Prop
  | nil {x : CellId} : notes.learned x .nil → Asked x true
  | pair {x head tail : CellId} : notes.learned x (.pair head tail) → Asked x false
  | func {x question : CellId} {f : Func} {truth : Bool} : notes.learned x (.func f) →
      notes.Questioned f question →
      notes.learned question (.num (bif truth then nilMark else pairMark)) → Asked x truth

/-- **Why a suspension comes to a value.** -/
inductive Ran : Suspension → Value → Prop
  | apply {f x r : CellId} {operator v : Value} : notes.learned f operator →
      notes.Acted (operator.effect x) r → notes.learned r v → Ran (.apply f x) v
  | half {side : Half} {x head tail : CellId} {v : Value} : notes.learned x (.pair head tail) →
      notes.learned (side.of head tail) v → Ran (.half side x) v
  | lookup {table : TableId} {name : String} {x : CellId} {v : Value} : notes.bound table name x →
      notes.learned x v → Ran (.lookup table name) v
  | observe {label : String} {x : CellId} {v : Value} : notes.learned x v → Ran (.observe label x) v
  | monop {op : Monop} {x : CellId} {n : Int} : notes.learned x (.num n) →
      Ran (.monop op x) (.num (op.apply n))
  | binop {op : Binop} {x y : CellId} {m n : Int} {v : Value} : notes.learned x (.num m) →
      notes.learned y (.num n) → op.apply m n = .ok v → Ran (.binop op x y) v
  | isNil {x : CellId} {truth : Bool} : notes.Asked x truth → Ran (.isNil x) (boolean truth)
  | share {a b c f x r : CellId} {v : Value} : notes.Acted (.apply a c) f →
      notes.Acted (.apply b c) x → notes.Acted (.apply f x) r → notes.learned r v →
      Ran (.share a b c) v

/-- **Why a cell was built for an expression.** -/
inductive Composed (env : TableId) : Expression → CellId → Prop
  | number {numeral : Numeral} {x : CellId} : notes.added x (.value (.num numeral.toInt)) →
      Composed env (.number numeral) x
  | bound {name : String} {x : CellId} : notes.bound env name x → Composed env (.symbol name) x
  | unbound {name : String} {x : CellId} : notes.added x (.suspended (.lookup env name)) →
      Composed env (.symbol name) x
  | ap {operator operand : Expression} {f x r : CellId} : Composed env operator f →
      Composed env operand x → notes.Acted (.apply f x) r → Composed env (.ap operator operand) r

/-- **All data of a cell was seen.** -/
inductive Materialized : CellId → Prop
  | num {x : CellId} {n : Int} : notes.learned x (.num n) → Materialized x
  | nil {x : CellId} : notes.learned x .nil → Materialized x
  | pair {x head tail : CellId} : notes.learned x (.pair head tail) → Materialized head →
      Materialized tail → Materialized x

variable {notes} {notes' : Notes} {store : Store} {effect : Effect} {s : Suspension} {v : Value}
  {x f r : CellId} {env : TableId} {e : Expression}

theorem Acted.mono (acted : notes.Acted effect r) (le : notes.Le notes') :
    notes'.Acted effect r := by
  induction acted with
  | answer x => exact .answer x
  | add added => exact .add (le.added added)
  | half side learned => exact .half side (le.learned learned)
  | halfLater added => exact .halfLater (le.added added)
  | apply learned _ ih => exact .apply (le.learned learned) ih
  | applyLater added => exact .applyLater (le.added added)
  | applyTwice _ _ ih ih' => exact .applyTwice ih ih'
  | applyNested _ _ ih ih' => exact .applyNested ih ih'

theorem Questioned.mono {f : Func} (questioned : notes.Questioned f x) (le : notes.Le notes') :
    notes'.Questioned f x := by
  obtain ⟨asked, never, first, second, g, h, question⟩ := questioned
  exact .put (le.added asked) (le.added never) (le.added first) (le.added second) (g.mono le)
    (h.mono le) (question.mono le)

theorem Asked.mono {truth : Bool} (asked : notes.Asked x truth) (le : notes.Le notes') :
    notes'.Asked x truth := by
  cases asked with
  | nil learned => exact .nil (le.learned learned)
  | pair learned => exact .pair (le.learned learned)
  | func learned question answer =>
    exact .func (le.learned learned) (question.mono le) (le.learned answer)

theorem Ran.mono (ran : notes.Ran s v) (le : notes.Le notes') : notes'.Ran s v := by
  cases ran with
  | apply operator acted result =>
    exact .apply (le.learned operator) (acted.mono le) (le.learned result)
  | half whole part => exact .half (le.learned whole) (le.learned part)
  | lookup bound result => exact .lookup (le.bound bound) (le.learned result)
  | observe result => exact .observe (le.learned result)
  | monop operand => exact .monop (le.learned operand)
  | binop first second result => exact .binop (le.learned first) (le.learned second) result
  | isNil asked => exact .isNil (asked.mono le)
  | share first second acted result =>
    exact .share (first.mono le) (second.mono le) (acted.mono le) (le.learned result)

theorem Composed.mono (composed : notes.Composed env e x) (le : notes.Le notes') :
    notes'.Composed env e x := by
  induction composed with
  | number added => exact .number (le.added added)
  | bound bound => exact .bound (le.bound bound)
  | unbound added => exact .unbound (le.added added)
  | ap _ _ acted ih ih' => exact .ap ih ih' (acted.mono le)

theorem Materialized.mono (seen : notes.Materialized x) (le : notes.Le notes') :
    notes'.Materialized x := by
  induction seen with
  | num learned => exact .num (le.learned learned)
  | nil learned => exact .nil (le.learned learned)
  | pair learned _ _ ih ih' => exact .pair (le.learned learned) ih ih'

/-! ### True and complete notes -/

/-- **The notes account for a store**: what they say of its cells is so, and of every cell that was
added and holds a value they say why. -/
structure Accounts (notes : Notes) (store : Store) : Prop where
  learned_iff : ∀ x v, notes.learned x v ↔ store.Has x ∧ store.cell x = .value v
  bound_iff : ∀ table name x, notes.bound table name x ↔ (store.table table).lookup name = some x
  given : ∀ x v w, notes.added x (.value v) → notes.learned x w → w = v
  ran : ∀ x s v, notes.added x (.suspended s) → notes.learned x v → notes.Ran s v

/-- **Why a suspension that takes a half came to its value**, whether the half was at hand or not. -/
theorem Accounts.ran_half {side : Half} (accounts : notes.Accounts store)
    (acted : notes.Acted (.take side x) r) (learned : notes.learned r v) :
    notes.Ran (.half side x) v := by
  cases acted with
  | half _ whole => exact .half whole learned
  | halfLater added => exact accounts.ran r _ v added learned

/-- **Why a suspended application came to its value**, whether it was applied at once or not. -/
theorem Accounts.ran_apply (accounts : notes.Accounts store)
    (acted : notes.Acted (.apply f x) r) (learned : notes.learned r v) :
    notes.Ran (.apply f x) v := by
  cases acted with
  | apply operator acted => exact .apply operator acted learned
  | applyLater added => exact accounts.ran r _ v added learned

end Notes

end ByNeed
