/-
**The two full traversals do the same work.**

Data is shown as a tree or written as source. The one goes down the spine of a list in a loop and
collects the trees of the elements, the other calls itself for both halves of a pair. Yet both force
the same cells in the same order, whatever is shared among them, and end alike: with an answer, with
the fault that a function is part of the data, or with the failure of forcing a cell. There are two
differences. A number beyond the limit on digits cannot be written as source; and the recursion nests
with every pair, while the rounds of the loop do not, so that it may want depth where the loop does
not. The square of the depth is enough for it then.

* `visited`: the values that the recursion comes to, in order;
* `ReachesFunction`: a function is among them;
* `EndAlike`: two outcomes agree;
* `endAlike_round`: one round of the loop against one level of the recursion;
* `materialize_endAlike`, `sourceTokens_endAlike`: **the loop ends as the recursion does**, and the
  other way round, whatever the loop has collected;
* `traversals_agree`: **so do the two traversals**, down to the store.
-/

import ByNeed.Proofs.Steps
import ByNeed.Proofs.Termination.Depth

namespace ByNeed

variable {depth level rounds : Nat} {x head tail : CellId} {store later middle : Store} {v : Value}
  {failure : Failure} {tree : Tree} {tokens : List Token}

/-! ### What a traversal comes to -/

/-- **The values that the recursion comes to**, in order: that of the cell, and those of the halves of
a pair, of the second half after the tokens of the first have been found. -/
def visited : Nat → CellId → Store → List Value
  | 0, _, _ => []
  | depth + 1, x, store =>
    match force depth x store with
    | .error _ _ => []
    | .ok v later =>
      match v with
      | .pair head tail =>
        v :: (visited depth head later ++
          match sourceTokens depth head later with
          | .ok _ middle => visited depth tail middle
          | .error _ _ => [])
      | _ => [v]

/-- A function is among the values that the recursion comes to. -/
def ReachesFunction (depth : Nat) (x : CellId) (store : Store) : Prop :=
  ∃ f, .func f ∈ visited depth x store

/-- The integers among the values that the recursion comes to are within the limit on digits. -/
def VisitsShort (depth : Nat) (x : CellId) (store : Store) : Prop :=
  ∀ n, .num n ∈ visited depth x store → writable n = true

theorem visited_of_error (failed : force depth x store = .error failure later) :
    visited (depth + 1) x store = [] := by
  rw [visited, failed]

theorem visited_of_num {n : Int} (forced : force depth x store = .ok (.num n) later) :
    visited (depth + 1) x store = [.num n] := by
  rw [visited, forced]

theorem visited_of_nil (forced : force depth x store = .ok .nil later) :
    visited (depth + 1) x store = [.nil] := by
  rw [visited, forced]

theorem visited_of_func {f : Func} (forced : force depth x store = .ok (.func f) later) :
    visited (depth + 1) x store = [.func f] := by
  rw [visited, forced]

/-- A pair whose first half has its tokens found is followed by both halves. -/
theorem visited_of_pair (forced : force depth x store = .ok (.pair head tail) later)
    (found : sourceTokens depth head later = .ok tokens middle) :
    visited (depth + 1) x store =
      .pair head tail :: (visited depth head later ++ visited depth tail middle) := by
  rw [visited, forced]
  simp only [found]

/-- A pair whose first half has not is followed by the first half. -/
theorem visited_of_pair_error (forced : force depth x store = .ok (.pair head tail) later)
    (failed : sourceTokens depth head later = .error failure middle) :
    visited (depth + 1) x store = .pair head tail :: visited depth head later := by
  rw [visited, forced]
  simp only [failed, List.append_nil]

theorem reachesFunction_of_pair (forced : force depth x store = .ok (.pair head tail) later)
    (found : sourceTokens depth head later = .ok tokens middle) :
    ReachesFunction (depth + 1) x store ↔
      ReachesFunction depth head later ∨ ReachesFunction depth tail middle := by
  simp [ReachesFunction, visited_of_pair forced found, exists_or]

theorem reachesFunction_of_pair_error (forced : force depth x store = .ok (.pair head tail) later)
    (failed : sourceTokens depth head later = .error failure middle) :
    ReachesFunction (depth + 1) x store ↔ ReachesFunction depth head later := by
  simp [ReachesFunction, visited_of_pair_error forced failed]

/-- What is short as a whole is so in its first half. -/
theorem VisitsShort.first (short : VisitsShort (depth + 1) x store)
    (forced : force depth x store = .ok (.pair head tail) later) : VisitsShort depth head later := by
  intro n member
  refine short n ?_
  cases found : sourceTokens depth head later with
  | ok tokens middle =>
    rw [visited_of_pair forced found]
    exact .tail _ (List.mem_append_left _ member)
  | error failure middle =>
    rw [visited_of_pair_error forced found]
    exact .tail _ member

/-- And in its second half, if there are tokens of the first. -/
theorem VisitsShort.second (short : VisitsShort (depth + 1) x store)
    (forced : force depth x store = .ok (.pair head tail) later)
    (found : sourceTokens depth head later = .ok tokens middle) : VisitsShort depth tail middle := by
  intro n member
  refine short n ?_
  rw [visited_of_pair forced found]
  exact .tail _ (List.mem_append_right _ member)

/-! ### Ending alike -/

/-- **The outcomes of two traversals agree**, given whether they reach a function: they end in the same
store, with answers, each with its fault for a function, or with the same failure. -/
inductive EndAlike {α β : Type} (function : Prop) :
    EStateM.Result Failure Store α → EStateM.Result Failure Store β → Prop
  | answered {a : α} {b : β} {later : Store} : ¬ function →
      EndAlike function (.ok a later) (.ok b later)
  | function {later : Store} : function →
      EndAlike function (.error (.fault .functionInSource) later)
        (.error (.fault .functionInTree) later)
  | failed {failure : Failure} {later : Store} : ¬ function →
      EndAlike function (.error failure later) (.error failure later)

section EndAlike

variable {α β γ δ : Type} {here whole : Prop} {first : Eval α} {other : Eval β} {next : α → Eval γ}
  {next' : β → Eval δ}

/-- What goes on after traversals that agree agrees if the rest does. -/
theorem EndAlike.bind (alike : EndAlike here (first store) (other store))
    (failing : ∀ failure later, first store = .error failure later → (whole ↔ here))
    (rest : ∀ a b later, first store = .ok a later → other store = .ok b later → ¬ here →
      EndAlike whole (next a later) (next' b later)) :
    EndAlike whole ((first >>= next) store) ((other >>= next') store) := by
  cases ended : first store with
  | ok a later =>
    cases ended' : other store with
    | ok b later' =>
      rw [ended, ended'] at alike
      rw [bind_of_ok ended, bind_of_ok ended']
      cases alike with
      | answered reaches => exact rest a b later ended ended' reaches
    | error failure later' =>
      rw [ended, ended'] at alike
      cases alike
  | error failure later =>
    cases ended' : other store with
    | ok b later' =>
      rw [ended, ended'] at alike
      cases alike
    | error failure' later' =>
      have same := failing failure later ended
      rw [ended, ended'] at alike
      rw [bind_of_error ended, bind_of_error ended']
      cases alike with
      | function reaches => exact .function (same.mpr reaches)
      | failed reaches => exact .failed fun reached => reaches (same.mp reached)

/-- The answer of the first traversal does not matter. -/
theorem EndAlike.map (alike : EndAlike here (first store) (other store)) (f : α → γ) :
    EndAlike here ((first >>= fun a => pure (f a)) store) (other store) := by
  rw [← bind_pure other]
  exact alike.bind (fun _ _ _ => Iff.rfl) fun a b later _ _ reaches => .answered reaches

end EndAlike

/-! ### The loop and the recursion -/

/-- **A round of the loop ends as a level of the recursion does**, if the cell is forced alike and they
go on alike for the halves of a pair. -/
theorem endAlike_round {find : CellId → Eval Tree} (reversed : List Tree)
    (same : force level x store = force depth x store) (short : VisitsShort (depth + 1) x store)
    (first : ∀ head tail later, force depth x store = .ok (.pair head tail) later →
      VisitsShort depth head later →
      EndAlike (ReachesFunction depth head later) (sourceTokens depth head later) (find head later))
    (second : ∀ head tail later tokens tree middle,
      force depth x store = .ok (.pair head tail) later →
      sourceTokens depth head later = .ok tokens middle → find head later = .ok tree middle →
      VisitsShort depth tail middle →
      EndAlike (ReachesFunction depth tail middle) (sourceTokens depth tail middle)
        (materializeWith (force level) find rounds (tree :: reversed) tail middle)) :
    EndAlike (ReachesFunction (depth + 1) x store) (sourceTokens (depth + 1) x store)
      (materializeWith (force level) find (rounds + 1) reversed x store) := by
  cases forced : force depth x store with
  | error failure later =>
    rw [sourceTokens, materializeWith, bind_of_error forced, bind_of_error (same.trans forced)]
    refine .failed ?_
    rintro ⟨f, member⟩
    rw [visited_of_error forced] at member
    cases member
  | ok v later =>
    have forced' := same.trans forced
    cases v with
    | num n =>
      have within : writable n = true := short n (by rw [visited_of_num forced]; exact .head [])
      rw [sourceTokens, materializeWith, bind_of_ok forced, bind_of_ok forced']
      simp only [within, if_true]
      refine .answered ?_
      rintro ⟨f, member⟩
      rw [visited_of_num forced] at member
      cases List.mem_singleton.mp member
    | nil =>
      rw [sourceTokens, materializeWith, bind_of_ok forced, bind_of_ok forced']
      refine .answered ?_
      rintro ⟨f, member⟩
      rw [visited_of_nil forced] at member
      cases List.mem_singleton.mp member
    | func g =>
      rw [sourceTokens, materializeWith, bind_of_ok forced, bind_of_ok forced']
      exact .function ⟨g, by rw [visited_of_func forced]; exact .head []⟩
    | pair head tail =>
      rw [sourceTokens_of_pair forced, materializeWith_of_pair forced']
      refine (first head tail later forced (short.first forced)).bind
        (fun failure middle failed => reachesFunction_of_pair_error forced failed)
        fun tokens tree middle found found' none => ?_
      -- The loop goes on with one more tree, the recursion with the second half.
      have rest := second head tail later tokens tree middle forced found found'
        (short.second forced found)
      rw [(reachesFunction_of_pair forced found).trans (or_iff_right none)]
      exact rest.map fun second => .ap :: .ap :: .symbol "cons" :: (tokens ++ second)

/-- **The loop ends as the recursion does**, wherever that does not want depth: with as much depth, and
whatever trees it has collected before. -/
theorem materializeWith_endAlike (reversed : List Tree) (short : VisitsShort depth x store)
    (final : IsFinal (sourceTokens depth x store)) (deep : depth ≤ level + 1)
    (long : depth ≤ rounds) :
    EndAlike (ReachesFunction depth x store) (sourceTokens depth x store)
      (materializeWith (force level) (materialize level) rounds reversed x store) := by
  induction depth generalizing x store level rounds reversed with
  | zero => exact (final store rfl).elim
  | succ depth ih =>
    obtain ⟨rounds, rfl⟩ : ∃ less, rounds = less + 1 := ⟨rounds - 1, by omega⟩
    have same := force_deepens x depth level (by omega) store (isFinal_of_bind final)
    refine endAlike_round reversed same short (fun head tail later forced short => ?_)
      fun head tail later tokens tree middle forced found found' short => ?_
    · rw [sourceTokens_of_pair forced] at final
      have finalHead := isFinal_of_bind final
      cases level with
      | zero =>
        obtain rfl : depth = 0 := by omega
        exact (finalHead later rfl).elim
      | succ level => exact ih [] short finalHead (by omega) (by omega)
    · rw [sourceTokens_of_pair forced, bind_of_ok found] at final
      exact ih _ short (isFinal_of_bind final) (by omega) (by omega)

theorem materialize_endAlike {more : Nat} (short : VisitsShort depth x store)
    (final : IsFinal (sourceTokens depth x store)) (deep : depth ≤ more) :
    EndAlike (ReachesFunction depth x store) (sourceTokens depth x store)
      (materialize more x store) := by
  cases more with
  | zero =>
    obtain rfl : depth = 0 := by omega
    exact (final store rfl).elim
  | succ more => exact materializeWith_endAlike [] short final deep deep

/-- **The recursion ends as the loop does**, wherever that does not want depth, if it may go one level
deeper with every round, and as deep as it has to for the elements. -/
theorem sourceTokens_endAlikeWith (reversed : List Tree)
    (elements : ∀ {x store more}, VisitsShort more x store → IsFinal (materialize level x store) →
      level * level ≤ more → EndAlike (ReachesFunction more x store) (sourceTokens more x store)
        (materialize level x store))
    (short : VisitsShort depth x store)
    (final : IsFinal (materializeWith (force level) (materialize level) rounds reversed x store))
    (deep : rounds + level * level ≤ depth) :
    EndAlike (ReachesFunction depth x store) (sourceTokens depth x store)
      (materializeWith (force level) (materialize level) rounds reversed x store) := by
  induction rounds generalizing x store depth reversed with
  | zero => exact (final store rfl).elim
  | succ rounds ih =>
    obtain ⟨depth, rfl⟩ : ∃ less, depth = less + 1 := ⟨depth - 1, by omega⟩
    have square := Nat.le_mul_self level
    have same := force_deepens x level depth (by omega) store (isFinal_of_bind final)
    refine endAlike_round reversed same.symm short (fun head tail later forced short => ?_)
      fun head tail later tokens tree middle forced found found' short => ?_
    · rw [materializeWith_of_pair (same.symm.trans forced)] at final
      exact elements short (isFinal_of_bind final) (by omega)
    · rw [materializeWith_of_pair (same.symm.trans forced), bind_of_ok found'] at final
      exact ih _ short final (by omega)

theorem sourceTokens_endAlike {more : Nat} (short : VisitsShort more x store)
    (final : IsFinal (materialize depth x store)) (deep : depth * depth ≤ more) :
    EndAlike (ReachesFunction more x store) (sourceTokens more x store)
      (materialize depth x store) := by
  induction depth generalizing x store more with
  | zero => exact (final store rfl).elim
  | succ depth ih =>
    have square := Nat.add_one_mul_add_one depth depth
    exact sourceTokens_endAlikeWith [] ih short final (by omega)

/-! ### The two traversals -/

/-- **The source of a cell, found with one depth, and its tree, found with another, take the same work**
from a store. -/
structure SameWork (depth depth' : Nat) (x : CellId) (store : Store) : Prop where
  /-- The cells, the count of those forced, and the record of changes, in their order, are the
  same. -/
  stores : (source depth x).after store = (materialize depth' x).after store
  /-- There is a source exactly if there is a tree. -/
  answers : (∃ text, (source depth x).verdict store = .ok text) ↔
    ∃ tree, (materialize depth' x).verdict store = .ok tree
  /-- A function that is reached ends both. -/
  function : ReachesFunction depth x store → ∃ reason reason',
    (source depth x).verdict store = .error (.fault reason) ∧ reason.category = .notAList ∧
      (materialize depth' x).verdict store = .error (.fault reason') ∧ reason'.category = .notAList
  /-- If none is, both fail alike. -/
  failures : ¬ ReachesFunction depth x store → ∀ failure,
    (source depth x).verdict store = .error failure ↔
      (materialize depth' x).verdict store = .error failure

theorem sameWork_of_endAlike {depth' : Nat}
    (tokens : EndAlike (ReachesFunction depth x store) (sourceTokens depth x store)
      (materialize depth' x store)) : SameWork depth depth' x store := by
  have alike : EndAlike (ReachesFunction depth x store) (source depth x store)
      (materialize depth' x store) := tokens.map unlex
  generalize ended : source depth x store = outcome at alike
  generalize ended' : materialize depth' x store = outcome' at alike
  constructor
  · unfold Eval.after
    rw [ended, ended']
    cases alike <;> rfl
  all_goals
    unfold Eval.verdict
    rw [ended, ended']
  · cases alike with
    | answered reaches => exact ⟨fun _ => ⟨_, rfl⟩, fun _ => ⟨_, rfl⟩⟩
    | function reaches | failed reaches =>
      constructor <;> exact fun ⟨_, answered⟩ => nomatch answered
  · intro reaches
    cases alike with
    | function _ => exact ⟨_, _, rfl, rfl, rfl, rfl⟩
    | answered unreached | failed unreached => exact absurd reaches unreached
  · intro unreached failure
    cases alike with
    | answered _ => constructor <;> exact fun failed => nomatch failed
    | failed _ => rw [Except.error.injEq, Except.error.injEq]
    | function reaches => exact absurd reaches unreached

/-- **The two traversals do the same work** from every store, for every cell, where the integers that
they come to are within the limit on digits. Where the source does not want depth, the tree takes the
same work with as much; and where the tree does not, the source takes the same work with the square of
it. -/
theorem traversals_agree (depth : Nat) (x : CellId) (store : Store) :
    (IsFinal (source depth x store) → VisitsShort depth x store →
      ∀ more, depth ≤ more → SameWork depth more x store) ∧
    (IsFinal (materialize depth x store) → ∀ more, depth * depth ≤ more →
      VisitsShort more x store → SameWork more depth x store) := by
  constructor
  · intro final short more deep
    exact sameWork_of_endAlike (materialize_endAlike short (isFinal_of_bind final) deep)
  · intro final more deep short
    exact sameWork_of_endAlike (sourceTokens_endAlike short final deep)

/-- Two lists share a spine whose first element is forced on the way to the first list's own first
element; a function at the end of it is reached when five cells have been forced. -/
theorem traversals_agree_shared :
    let store := (Session.reached [(20, .ofCommand (.environment (.load
      "p = ap ap cons ap car q q\nq = ap i r\nr = ap ap cons ap inc 4 s")))]).store
    ((source 20 ⟨23⟩).after store).forced = 5 ∧
      (source 20 ⟨23⟩).verdict store = .error (.fault .functionInSource) ∧
      SameWork 20 20 ⟨23⟩ store ∧ SameWork 36 6 ⟨23⟩ store := by
  intro store
  have visits : ∀ depth, visited depth ⟨23⟩ store = [.pair ⟨20⟩ ⟨22⟩, .num 5, .pair ⟨26⟩ ⟨9⟩, .num 5,
      .func (.ternary .share)] → VisitsShort depth ⟨23⟩ store := by
    intro depth values n member
    rw [values] at member
    have five : n = 5 := by simpa using member
    rw [five]
    decide +kernel
  have written : (source 20 ⟨23⟩).verdict store = .error (.fault .functionInSource) := by
    decide +kernel
  have found : (materialize 6 ⟨23⟩).verdict store = .error (.fault .functionInTree) := by
    decide +kernel
  refine ⟨by decide +kernel, written, ?_, ?_⟩
  · have final : IsFinal (source 20 ⟨23⟩ store) := isFinal_of_verdict (by rw [written]; decide)
    exact (traversals_agree 20 ⟨23⟩ store).1 final (visits 20 (by decide +kernel)) 20 (Nat.le_refl 20)
  · have final : IsFinal (materialize 6 ⟨23⟩ store) := isFinal_of_verdict (by rw [found]; decide)
    exact (traversals_agree 6 ⟨23⟩ store).2 final 36 (by decide) (visits 36 (by decide +kernel))

end ByNeed
