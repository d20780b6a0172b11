/-
**Showing cells and environments.**

To show a cell is to look at it, and at the halves of the pair that it holds. It forces nothing and
changes nothing, but it does not come to an end by itself: forcing a definition that refers to itself
can close a circle of pairs. A cell that leads into no circle is shown, and always by the same text,
as soon as pairs may be nested as often as there are cells. One that leads into a circle is not shown
at any depth, and neither is an environment with a name for it.

* `Store.halves`, `Store.Leads`, `Store.Circular`: the halves of the pair in a cell, the cells that
  are looked at, and those that lead into a circle;
* `circular_of_chain`: **a chain of pairs that is longer than there are cells leads into a circle**;
* `exists_chain`: a depth that is not enough is the length of such a chain;
* `showCell_ne_ok`: no depth is enough to show a circle;
* `not_circular_of_loaded`: no circle is closed without forcing;
* `showing_keeps`: showing leaves a session as it is;
* `Session.showing_safe`: **when cells and environments can be shown**;
* `Session.showing_never_ends`: a stream of ones that has been forced cannot.
-/

import ByNeed.Display
import ByNeed.Proofs.Bindings.Kept
import ByNeed.Proofs.Termination.Loading
import Mathlib.Data.List.Chain
import Mathlib.Data.List.Duplicate
import Mathlib.Data.List.Perm.Basic
import Mathlib.Logic.Relation

namespace ByNeed

/-! ### Lists of which each item may fail -/

section Lists

variable {α β : Type} {f : α → Except Failure β} {items : List α} {failure : Failure}

theorem mapM_of_ok {g : α → β} (each : ∀ a ∈ items, f a = .ok (g a)) :
    items.mapM f = .ok (items.map g) := by
  induction items with
  | nil => rfl
  | cons item rest ih =>
    rw [List.mapM_cons, each item List.mem_cons_self, ih fun a member => each a (.tail _ member)]
    rfl

/-- Items that answer or fail in one way fail together if one of them does. -/
theorem mapM_of_error (each : ∀ a ∈ items, (∃ b, f a = .ok b) ∨ f a = .error failure)
    (failed : ∃ a ∈ items, f a = .error failure) : items.mapM f = .error failure := by
  induction items with
  | nil =>
    obtain ⟨a, member, -⟩ := failed
    cases member
  | cons item rest ih =>
    rw [List.mapM_cons]
    rcases each item List.mem_cons_self with ⟨b, answered⟩ | failedHere
    · have later : ∃ a ∈ rest, f a = .error failure := by
        obtain ⟨a, member, failedThere⟩ := failed
        rcases List.mem_cons.mp member with rfl | member
        · rw [answered] at failedThere
          cases failedThere
        · exact ⟨a, member, failedThere⟩
      rw [answered, ih (fun a member => each a (.tail _ member)) later]
      rfl
    · rw [failedHere]
      rfl

end Lists

/-- An integer that a cell holds is within the limit on digits. -/
def Cell.writable : Cell → Bool
  | .value (.num n) => ByNeed.writable n
  | _ => true

namespace Store

variable {store : Store} {x y head tail : CellId} {depth : Nat} {text : String}
  {failure : Failure}

/-! ### Circles -/

/-- The halves of the pair that a cell holds. -/
def halves (store : Store) (x : CellId) : List CellId :=
  match store.cell x with
  | .value (.pair head tail) => [head, tail]
  | _ => []

/-- A cell holds a pair of which another is a half. -/
def Contains (store : Store) (x y : CellId) : Prop :=
  y ∈ store.halves x

/-- The cells that are looked at when a cell is shown. -/
abbrev Leads (store : Store) : CellId → CellId → Prop :=
  Relation.ReflTransGen store.Contains

/-- **A cell leads into a circle** of pairs. -/
def Circular (store : Store) (x : CellId) : Prop :=
  ∃ y, store.Leads x y ∧ Relation.TransGen store.Contains y y

/-- Every integer that is looked at is within the limit on digits. -/
def Short (store : Store) (x : CellId) : Prop :=
  ∀ y, store.Leads x y → (store.cell y).writable = true

theorem halves_of_pair (holds : store.cell x = .value (.pair head tail)) :
    store.halves x = [head, tail] := by
  rw [halves, holds]

theorem contains_of_pair (holds : store.cell x = .value (.pair head tail)) :
    store.Contains x y ↔ y = head ∨ y = tail := by
  rw [Contains, halves_of_pair holds, List.mem_pair]

theorem Short.of_contains (short : store.Short x) (contains : store.Contains x y) :
    store.Short y :=
  fun z leads => short z (.head contains leads)

/-- Where all cells hold such integers, those that are looked at do. -/
theorem short_of_all (all : store.cells.all Cell.writable = true) (x : CellId) : store.Short x := by
  intro y _
  unfold cell
  rw [Array.getD_eq_getD_getElem?]
  cases found : store.cells[y.index]? with
  | none => rfl
  | some c => exact Array.all_eq_true_iff_forall_mem.mp all c (Array.mem_of_getElem? found)

theorem Circular.of_contains (circular : store.Circular y) (contains : store.Contains x y) :
    store.Circular x := by
  obtain ⟨z, leads, circle⟩ := circular
  exact ⟨z, .head contains leads, circle⟩

/-- A cell that leads into a circle has a half that does. -/
theorem Circular.exists_half (circular : store.Circular x) :
    ∃ y, store.Contains x y ∧ store.Circular y := by
  obtain ⟨z, leads, circle⟩ := circular
  rcases leads.cases_head with rfl | ⟨y, contains, leads⟩
  · obtain ⟨y, contains, back⟩ := Relation.TransGen.head'_iff.mp circle
    exact ⟨y, contains, x, back, circle⟩
  · exact ⟨y, contains, z, leads, circle⟩

/-- A cell with halves is there. -/
theorem has_of_halves (paired : store.halves x ≠ []) : store.Has x := by
  by_contra outside
  exact paired (by rw [halves, cell_of_not_has outside])

/-- **A chain of pairs that is longer than there are cells leads into a circle**, since it comes to
some cell twice. -/
theorem circular_of_chain {path : List CellId} (chain : (x :: path).IsChain store.Contains)
    (paired : ∀ y ∈ x :: path, store.halves y ≠ []) (long : store.cells.size ≤ path.length) :
    store.Circular x := by
  have repeated : ¬ (x :: path).Nodup := by
    intro nodup
    have inside : (x :: path).map CellId.index ⊆ List.range store.cells.size := by
      intro i member
      obtain ⟨y, onPath, rfl⟩ := List.mem_map.mp member
      exact List.mem_range.mpr (has_of_halves (paired y onPath))
    have distinct : ((x :: path).map CellId.index).Nodup :=
      nodup.map fun a b same => by cases a; cases b; exact congrArg CellId.mk same
    have few := (List.subperm_of_subset distinct inside).length_le
    rw [List.length_map, List.length_cons, List.length_range] at few
    omega
  obtain ⟨y, twice⟩ := List.exists_duplicate_iff_not_nodup.mpr repeated
  have closure : (x :: path).IsChain (Relation.TransGen store.Contains) :=
    chain.imp fun _ _ contains => .single contains
  have circle : Relation.TransGen store.Contains y y :=
    List.isChain_pair.mp (closure.sublist (List.duplicate_iff_sublist.mp twice))
  refine ⟨y, ?_, circle⟩
  rcases List.mem_cons.mp twice.mem with rfl | onPath
  · exact .refl
  · exact (closure.rel_cons onPath).to_reflTransGen

/-! ### Showing a cell -/

/-- A cell holds a pair, or it has no halves. -/
theorem pair_or_bare (store : Store) (x : CellId) :
    (∃ head tail, store.cell x = .value (.pair head tail)) ∨ store.halves x = [] := by
  unfold halves
  split
  · exact Or.inl ⟨_, _, ‹_›⟩
  · exact Or.inr rfl

/-- A cell without halves is shown at every depth. -/
theorem showCell_of_bare (bare : store.halves x = []) (short : store.Short x) :
    ∃ text, ∀ depth, store.showCell depth x = .ok text := by
  suffices same : ∃ text, ∀ showHalf, store.showCellWith (showValueWith showHalf) x = .ok text by
    obtain ⟨text, same⟩ := same
    exact ⟨text, fun depth => by cases depth <;> exact same _⟩
  unfold showCellWith
  cases holds : store.cell x with
  | suspended s => exact ⟨_, fun _ => rfl⟩
  | value v =>
    cases v with
    | num n =>
      have within : ByNeed.writable n = true := by
        have within := short x .refl
        rwa [holds] at within
      refine ⟨"Expr(" ++ ("Num(" ++ decimal n ++ ")") ++ ")", fun _ => ?_⟩
      simp only [showValueWith, showNumber, within, if_true]
      rfl
    | nil => exact ⟨_, fun _ => rfl⟩
    | func f => exact ⟨_, fun _ => rfl⟩
    | pair head tail =>
      rw [halves_of_pair holds] at bare
      cases bare

theorem showCell_zero_of_pair (holds : store.cell x = .value (.pair head tail)) :
    store.showCell 0 x = .error .depthExhausted := by
  rw [showCell, showCellWith, holds]
  rfl

/-- A pair is shown by its halves. -/
theorem showCell_of_halves (holds : store.cell x = .value (.pair head tail)) {first second : String}
    (shownHead : store.showCell depth head = .ok first)
    (shownTail : store.showCell depth tail = .ok second) :
    store.showCell (depth + 1) x =
      .ok ("Expr(" ++ ("Cons(" ++ first ++ ", " ++ second ++ ")") ++ ")") := by
  rw [showCell, showCellWith, holds]
  simp only [showValueWith, shownHead, shownTail]
  rfl

/-- **What showing a pair comes to**: both halves are shown, or showing one of them fails. -/
theorem showCell_succ_of_pair (holds : store.cell x = .value (.pair head tail)) (depth : Nat) :
    (∃ first second, store.showCell depth head = .ok first ∧
        store.showCell depth tail = .ok second ∧ store.showCell (depth + 1) x =
          .ok ("Expr(" ++ ("Cons(" ++ first ++ ", " ++ second ++ ")") ++ ")")) ∨
      ∃ y failure, store.Contains x y ∧ store.showCell depth y = .error failure ∧
        store.showCell (depth + 1) x = .error failure := by
  have inside : ∀ y, y = head ∨ y = tail → store.Contains x y := fun y =>
    (contains_of_pair holds).mpr
  rw [showCell, showCellWith, holds]
  simp only [showValueWith]
  cases first : store.showCell depth head with
  | error failure => exact Or.inr ⟨head, failure, inside head (Or.inl rfl), first, rfl⟩
  | ok text =>
    cases second : store.showCell depth tail with
    | error failure => exact Or.inr ⟨tail, failure, inside tail (Or.inr rfl), second, rfl⟩
    | ok text' => exact Or.inl ⟨text, text', rfl, rfl, rfl⟩

/-- A cell is not shown if it holds a pair and there is no depth left, or one of its halves is not
shown. -/
theorem showCell_eq_error (short : store.Short x)
    (failed : store.showCell depth x = .error failure) :
    store.halves x ≠ [] ∧ ((depth = 0 ∧ failure = .depthExhausted) ∨
      ∃ less y, depth = less + 1 ∧ store.Contains x y ∧ store.showCell less y = .error failure) := by
  rcases store.pair_or_bare x with ⟨head, tail, holds⟩ | bare
  · refine ⟨by simp [halves_of_pair holds], ?_⟩
    cases depth with
    | zero =>
      rw [showCell_zero_of_pair holds] at failed
      cases failed
      exact Or.inl ⟨rfl, rfl⟩
    | succ less =>
      rcases showCell_succ_of_pair holds less with
        ⟨first, second, -, -, shown⟩ | ⟨y, failure', contains, failedHalf, fails⟩
      · rw [failed] at shown
        cases shown
      · rw [failed] at fails
        cases fails
        exact Or.inr ⟨less, y, rfl, contains, failedHalf⟩
  · obtain ⟨text, shown⟩ := showCell_of_bare bare short
    rw [shown] at failed
    cases failed

/-- A cell that is shown has halves that are, with less depth. -/
theorem showCell_eq_ok (shown : store.showCell depth x = .ok text) (contains : store.Contains x y) :
    ∃ less text', depth = less + 1 ∧ store.showCell less y = .ok text' := by
  rcases store.pair_or_bare x with ⟨head, tail, holds⟩ | bare
  · cases depth with
    | zero =>
      rw [showCell_zero_of_pair holds] at shown
      cases shown
    | succ less =>
      rcases showCell_succ_of_pair holds less with
        ⟨first, second, shownHead, shownTail, -⟩ | ⟨z, failure, -, -, fails⟩
      · rcases (contains_of_pair holds).mp contains with rfl | rfl
        · exact ⟨less, first, rfl, shownHead⟩
        · exact ⟨less, second, rfl, shownTail⟩
      · rw [shown] at fails
        cases fails
  · rw [Contains, bare] at contains
    cases contains

/-- Among short integers, a cell is not shown only for want of depth. -/
theorem failure_of_showCell (short : store.Short x)
    (failed : store.showCell depth x = .error failure) : failure = .depthExhausted := by
  induction depth generalizing x with
  | zero =>
    obtain ⟨-, ⟨-, rfl⟩ | ⟨less, y, none, -, -⟩⟩ := showCell_eq_error short failed
    · rfl
    · cases none
  | succ depth ih =>
    obtain ⟨-, ⟨none, -⟩ | ⟨less, y, same, contains, failedHalf⟩⟩ := showCell_eq_error short failed
    · cases none
    · cases same
      exact ih (short.of_contains contains) failedHalf

/-- **A depth that is not enough is the length of a chain of pairs.** -/
theorem exists_chain (short : store.Short x) (failed : store.showCell depth x = .error failure) :
    ∃ path : List CellId, path.length = depth ∧ (x :: path).IsChain store.Contains ∧
      ∀ y ∈ x :: path, store.halves y ≠ [] := by
  induction depth generalizing x with
  | zero =>
    obtain ⟨paired, -⟩ := showCell_eq_error short failed
    exact ⟨[], rfl, .singleton x, by simpa using paired⟩
  | succ depth ih =>
    obtain ⟨paired, ⟨none, -⟩ | ⟨less, y, same, contains, failedHalf⟩⟩ :=
      showCell_eq_error short failed
    · cases none
    · cases same
      obtain ⟨path, length, chain, each⟩ := ih (short.of_contains contains) failedHalf
      exact ⟨y :: path, congrArg Nat.succ length, .cons_cons contains chain,
        List.forall_mem_cons.mpr ⟨paired, each⟩⟩

/-- **No depth is enough to show a circle.** -/
theorem showCell_ne_ok (circular : store.Circular x) (depth : Nat) (text : String) :
    store.showCell depth x ≠ .ok text := by
  intro shown
  induction depth generalizing x text with
  | zero =>
    obtain ⟨y, contains, -⟩ := circular.exists_half
    obtain ⟨less, text', none, -⟩ := showCell_eq_ok shown contains
    cases none
  | succ depth ih =>
    obtain ⟨y, contains, circular⟩ := circular.exists_half
    obtain ⟨less, text', same, shownHalf⟩ := showCell_eq_ok shown contains
    cases same
    exact ih circular text' shownHalf

/-- A cell that is shown is shown alike with more depth. -/
theorem showCell_succ (short : store.Short x) (shown : store.showCell depth x = .ok text) :
    store.showCell (depth + 1) x = .ok text := by
  induction depth generalizing x text with
  | zero =>
    rcases store.pair_or_bare x with ⟨head, tail, holds⟩ | bare
    · rw [showCell_zero_of_pair holds] at shown
      cases shown
    · obtain ⟨text', same⟩ := showCell_of_bare bare short
      rwa [same, ← same 0]
  | succ depth ih =>
    rcases store.pair_or_bare x with ⟨head, tail, holds⟩ | bare
    · rcases showCell_succ_of_pair holds depth with
        ⟨first, second, shownHead, shownTail, both⟩ | ⟨y, failure, -, -, fails⟩
      · rw [← shown, both]
        have shortHead := short.of_contains ((contains_of_pair holds).mpr (Or.inl rfl))
        have shortTail := short.of_contains ((contains_of_pair holds).mpr (Or.inr rfl))
        exact showCell_of_halves holds (ih shortHead shownHead) (ih shortTail shownTail)
      · rw [shown] at fails
        cases fails
    · obtain ⟨text', same⟩ := showCell_of_bare bare short
      rwa [same, ← same (depth + 1)]

theorem showCell_mono (short : store.Short x) (shown : store.showCell depth x = .ok text)
    {more : Nat} (le : depth ≤ more) : store.showCell more x = .ok text := by
  induction le with
  | refl => exact shown
  | step _ ih => exact showCell_succ short ih

/-! ### What can be shown -/

/-- **Something that shows cells is shown unless one of them leads into a circle**: by one text as soon
as pairs may be nested as often as there are cells, or at no depth. -/
structure Showable (store : Store) (cells : List CellId) (shown : Nat → Except Failure String) :
    Prop where
  ends : (∀ x ∈ cells, ¬ store.Circular x) →
    ∃ text, ∀ depth, store.cells.size ≤ depth → shown depth = .ok text
  never : (∃ x ∈ cells, store.Circular x) → ∀ depth, shown depth = .error .depthExhausted

/-- **A cell is shown unless it leads into a circle.** -/
theorem showCell_showable (short : store.Short x) :
    store.Showable [x] fun depth => store.showCell depth x where
  ends straight := by
    cases enough : store.showCell store.cells.size x with
    | ok text => exact ⟨text, fun depth le => showCell_mono short enough le⟩
    | error failure =>
      obtain ⟨path, length, chain, paired⟩ := exists_chain short enough
      exact absurd (circular_of_chain chain paired length.ge) (straight x List.mem_cons_self)
  never := by
    rintro ⟨y, member, circular⟩ depth
    rw [List.mem_singleton.mp member] at circular
    cases shown : store.showCell depth x with
    | ok text => exact absurd shown (showCell_ne_ok circular depth text)
    | error failure => rw [failure_of_showCell short shown]

/-- What is written around a text does not matter. -/
theorem Showable.map {cells : List CellId} {shown : Nat → Except Failure String}
    (showable : store.Showable cells shown) (around : String → String) :
    store.Showable cells fun depth => shown depth >>= fun text => .ok (around text) where
  ends straight := by
    obtain ⟨text, same⟩ := showable.ends straight
    exact ⟨around text, fun depth le => by rw [same depth le]; rfl⟩
  never circular depth := by
    rw [showable.never circular depth]
    rfl

/-- **Several cells are shown together** unless one of them leads into a circle. -/
theorem mapM_showable {α : Type} {items : List α} {cell : α → CellId} {around : α → String → String}
    (short : ∀ a ∈ items, store.Short (cell a)) (join : List String → String) :
    store.Showable (items.map cell) fun depth =>
      items.mapM (fun a => store.showCell depth (cell a) >>= fun text => .ok (around a text)) >>=
        fun texts => .ok (join texts) where
  ends straight := by
    have each : ∀ a ∈ items, ∃ text, ∀ depth, store.cells.size ≤ depth →
        store.showCell depth (cell a) = .ok text := by
      intro a member
      refine (showCell_showable (short a member)).ends fun x single => ?_
      rw [List.mem_singleton.mp single]
      exact straight (cell a) (List.mem_map_of_mem member)
    choose! text same using each
    refine ⟨join (items.map fun a => around a (text a)), fun depth le => ?_⟩
    rw [mapM_of_ok (g := fun a => around a (text a)) fun a member => by
      rw [same a member depth le]; rfl]
    rfl
  never := by
    rintro ⟨x, member, circular⟩ depth
    obtain ⟨a, given, rfl⟩ := List.mem_map.mp member
    have fails : items.mapM (fun a => store.showCell depth (cell a) >>= fun text =>
        .ok (around a text)) = .error .depthExhausted := by
      refine mapM_of_error (fun b given => ?_) ⟨a, given, ?_⟩
      · cases shown : store.showCell depth (cell b) with
        | ok text => exact Or.inl ⟨_, rfl⟩
        | error failure =>
          rw [failure_of_showCell (short b given) shown]
          exact Or.inr rfl
      · rw [(showCell_showable (short a given)).never ⟨_, List.mem_cons_self, circular⟩ depth]
        rfl
    rw [fails]
    rfl

theorem showBindings_showable {env : TableId}
    (short : ∀ binding ∈ store.table env, store.Short binding.2) :
    store.Showable ((store.table env).map Prod.snd) fun depth => store.showBindings depth env :=
  mapM_showable short _

theorem showEnvironment_showable {env : TableId}
    (short : ∀ binding ∈ store.table env, store.Short binding.2) :
    store.Showable ((store.table env).map Prod.snd) fun depth => store.showEnvironment depth env :=
  (showBindings_showable short).map _

/-! ### Without forcing -/

/-- What unfolds to finitely many values leads into no circle: each half unfolds to fewer. -/
theorem Unfolds.not_circular {n : Nat} (unfolds : store.Unfolds x n) : ¬ store.Circular x := by
  intro circular
  induction unfolds with
  | intro weight _ _ ih =>
    obtain ⟨y, contains, circular⟩ := circular.exists_half
    refine ih y ?_ circular
    rcases store.pair_or_bare _ with ⟨head, tail, holds⟩ | bare
    · rw [Contains, halves_of_pair holds] at contains
      rw [holds]
      exact contains
    · rw [Contains, bare] at contains
      cases contains

end Store

/-- **No circle is closed without forcing.** -/
theorem not_circular_of_loaded {store : Store} {x : CellId} (loaded : Loaded store)
    (there : store.Has x) : ¬ store.Circular x := by
  obtain ⟨n, unfolds⟩ := (founded_of_loaded loaded).unfolds x there
  exact unfolds.not_circular

/-! ### In a session -/

namespace Session

/-- A command that shows a cell or an environment. -/
def Command.shows : Command → Bool
  | .inspect (.showCell _) => true
  | .environment .showBindings => true
  | .environment .showEnvironment => true
  | _ => false

/-- **Showing leaves a session as it is**, whether it succeeds or fails. -/
theorem showing_keeps (depth : Nat) (env : TableId) (evaluator : String) {command : Command}
    (shows : command.shows = true) : Keeps id (executeWith depth env evaluator command) :=
  match command, shows with
  | .inspect (.showCell x), _ => inspect_respects depth (.showCell x)
  | .environment .showBindings, _ => (reading_respects _).bind fun _ => .pure _
  | .environment .showEnvironment, _ => (reading_respects _).bind fun _ => .pure _

/-- **When cells and environments can be shown.** In every session, showing forces nothing and changes
nothing; and where integers are within the limit on digits, a cell is shown unless it leads into a
circle, and an environment unless one of its names is bound to such a cell. -/
theorem showing_safe (session : Session) :
    (∀ depth (step : Step), step.command.shows = true →
        after (perform depth step) session = session.cleared) ∧
      (∀ x, session.store.Short x →
        session.store.Showable [x] fun depth => session.store.showCell depth x) ∧
      ∀ env, (∀ binding ∈ session.store.table env, session.store.Short binding.2) →
        (session.store.Showable ((session.store.table env).map Prod.snd) fun depth =>
          session.store.showBindings depth env) ∧
        session.store.Showable ((session.store.table env).map Prod.snd) fun depth =>
          session.store.showEnvironment depth env := by
  refine ⟨fun depth step shows => ?_, fun x => Store.showCell_showable, fun env short =>
    ⟨Store.showBindings_showable short, Store.showEnvironment_showable short⟩⟩
  exact perform_respects depth step (fun env => showing_keeps depth env step.evaluator shows) session

/-- Streams that refer to themselves have been defined, and two elements of one have been asked for:
the environment can be shown, and the rest of the stream is shown as a suspension. -/
theorem showing_safe_stream :
    let session := reached
      [(20, .ofCommand (.environment (.load
        "up = ap ap s cons ap ap b up inc\nxs = ap up 0\nones = ap ap cons 1 ones"))),
        (20, .ofCommand (.demand (.eval "ap car ap cdr xs")))]
    (session.store.table ⟨0⟩).lookup "xs" = some ⟨25⟩ ∧
      session.store.showCell 41 ⟨25⟩ =
        .ok "Expr(Cons(Expr(Num(0)), Expr(Cons(Expr(Num(1)), Expr(<thunk>)))))" ∧
      after (perform 41 (.ofCommand (.environment .showEnvironment))) session = session.cleared ∧
      ∃ text, ∀ depth, 41 ≤ depth → session.store.showEnvironment depth ⟨0⟩ = .ok text := by
  intro session
  -- One evaluation of the session for all that is read from it.
  obtain ⟨size, all, shown, bound, text⟩ : session.store.cells.size = 41 ∧
      session.store.cells.all Cell.writable = true ∧
      (∀ binding ∈ session.store.table ⟨0⟩, (session.store.showCell 3 binding.2).isOk = true) ∧
      (session.store.table ⟨0⟩).lookup "xs" = some ⟨25⟩ ∧
      session.store.showCell 41 ⟨25⟩ =
        .ok "Expr(Cons(Expr(Num(0)), Expr(Cons(Expr(Num(1)), Expr(<thunk>)))))" := by decide +kernel
  obtain ⟨unchanged, -, environments⟩ := showing_safe session
  refine ⟨bound, text, unchanged _ _ rfl, ?_⟩
  rw [← size]
  have short := fun (binding : String × CellId) (_ : binding ∈ session.store.table ⟨0⟩) =>
    Store.short_of_all all binding.2
  refine (environments ⟨0⟩ short).2.ends fun x named circular => ?_
  obtain ⟨binding, member, rfl⟩ := List.mem_map.mp named
  have answers := shown binding member
  cases ended : session.store.showCell 3 binding.2 with
  | ok text => exact Store.showCell_ne_ok circular 3 text ended
  | error failure =>
    rw [ended] at answers
    cases answers

/-- **Showing may not come to an end.** The rest of a stream of ones is the stream again. Once it has
been forced it holds a pair of which it is a half itself, and neither it nor the environment can be
shown at any depth. -/
theorem showing_never_ends :
    let session := reached
      [(20, .ofCommand (.environment (.load "ones = ap ap cons 1 ones"))),
        (20, .ofCommand (.build (some "x") (.parse "ap cdr ones"))),
        (20, .ofCommand (.demand (.force "x")))]
    session.cells.lookup "x" = some ⟨21⟩ ∧ ∀ depth,
      session.store.showCell depth ⟨21⟩ = .error .depthExhausted ∧
        session.store.showBindings depth ⟨0⟩ = .error .depthExhausted ∧
        session.store.showEnvironment depth ⟨0⟩ = .error .depthExhausted := by
  intro session
  obtain ⟨all, forced, defined, bound, register⟩ : session.store.cells.all Cell.writable = true ∧
      session.store.cell ⟨21⟩ = .value (.pair ⟨19⟩ ⟨21⟩) ∧
      session.store.cell ⟨22⟩ = .value (.pair ⟨19⟩ ⟨21⟩) ∧
      ⟨22⟩ ∈ (session.store.table ⟨0⟩).map Prod.snd ∧
      session.cells.lookup "x" = some ⟨21⟩ := by decide +kernel
  have short := Store.short_of_all all
  have circle : session.store.Circular ⟨21⟩ :=
    ⟨⟨21⟩, .refl, .single ((Store.contains_of_pair forced).mpr (Or.inr rfl))⟩
  have circular : ∃ x ∈ (session.store.table ⟨0⟩).map Prod.snd, session.store.Circular x :=
    ⟨⟨22⟩, bound, circle.of_contains ((Store.contains_of_pair defined).mpr (Or.inr rfl))⟩
  refine ⟨register, fun depth => ⟨?_, ?_, ?_⟩⟩
  · exact (Store.showCell_showable (short _)).never ⟨_, List.mem_cons_self, circle⟩ depth
  · exact (Store.showBindings_showable fun binding _ => short binding.2).never circular depth
  · exact (Store.showEnvironment_showable fun binding _ => short binding.2).never circular depth

end Session

end ByNeed
