/-
**The text of a tree is unambiguous.**

A tree is shown with brackets around lists and parentheses around pairs. A text starts with the
characters of at most one tree, as long as no digit follows them, so different trees are shown
differently. Forced data has a tree, a text and a source text, and each of the three says which data
it is.

* `chars_append_inj`: **unique reading**, by the brackets and the digits of a text;
* `Datum.tree_injective`, `Datum.source_injective`: data is known from its tree, and from its source
  text;
* `Found`, `materialize_found`: **what has been materialized is forced**, and its source would have
  been found in the same way, though with more depth;
* `display_unambiguous`: **the text of a cell says which data it holds**.
-/

import ByNeed.Proofs.RoundTrip
import ByNeed.Proofs.Termination.Depth

namespace ByNeed

/-! ### Numerals -/

/-- No digit stands at the start of a text. -/
def EndsNumeral (rest : List Char) : Prop :=
  ∀ c ∈ rest.head?, c.isDigit = false

theorem endsNumeral_cons {c : Char} (other : c.isDigit = false) (rest : List Char) :
    EndsNumeral (c :: rest) := by
  intro d first
  cases first
  exact other

/-- The digits at the start of a text are known from it. -/
theorem digits_append_inj {digits digits' rest rest' : List Char}
    (run : ∀ c ∈ digits, c.isDigit = true) (run' : ∀ c ∈ digits', c.isDigit = true)
    (ends : EndsNumeral rest) (ends' : EndsNumeral rest') (same : digits ++ rest = digits' ++ rest') :
    digits = digits' ∧ rest = rest' := by
  have taken : ∀ {run rest : List Char}, (∀ c ∈ run, c.isDigit = true) → EndsNumeral rest →
      (run ++ rest).takeWhile Char.isDigit = run := by
    intro run rest digit ends
    rw [List.takeWhile_append_of_pos digit]
    cases rest with
    | nil => exact List.append_nil run
    | cons c tail => rw [List.takeWhile_cons_of_neg (by simp [ends c rfl]), List.append_nil]
  have first : digits = digits' := by rw [← taken run ends, same, taken run' ends']
  subst first
  exact ⟨rfl, List.append_cancel_left same⟩

/-- **The numeral at the start of a text is known from it.** -/
theorem Numeral.chars_append_inj {m n : Numeral} {rest rest' : List Char}
    (run : isDigitRun m.digits = true) (run' : isDigitRun n.digits = true)
    (ends : EndsNumeral rest) (ends' : EndsNumeral rest') (same : m.chars ++ rest = n.chars ++ rest') :
    m = n ∧ rest = rest' := by
  obtain ⟨negative, digits⟩ := m
  obtain ⟨negative', digits'⟩ := n
  -- A run of digits does not start with a minus sign.
  have unsigned : ∀ {digits tail other : List Char}, isDigitRun digits = true →
      '-' :: other ≠ digits ++ tail := by
    intro digits tail other run same
    cases digits with
    | nil => cases run
    | cons c more =>
      have minus : c = '-' := (List.cons.inj same).1.symm
      have digit := isDigit_of_mem run (c := c) List.mem_cons_self
      rw [minus] at digit
      revert digit
      decide
  have known := @digits_append_inj digits digits' rest rest' (fun _ => isDigit_of_mem run)
    (fun _ => isDigit_of_mem run') ends ends'
  cases negative with
  | true =>
    cases negative' with
    | true =>
      obtain ⟨rfl, rests⟩ := known (List.cons.inj same).2
      exact ⟨rfl, rests⟩
    | false => exact (unsigned run' same).elim
  | false =>
    cases negative' with
    | true => exact (unsigned run same.symm).elim
    | false =>
      obtain ⟨rfl, rests⟩ := known same
      exact ⟨rfl, rests⟩

/-- A numeral does not start with a character that is neither a minus sign nor a digit. -/
theorem Numeral.chars_append_ne_cons {c : Char} (n : Int) (other : ¬ (c = '-' ∨ c.isDigit = true))
    (more rest : List Char) : (ofInt n).chars ++ more ≠ c :: rest := by
  intro same
  have run := isDigitRun_ofInt n
  cases spelled : (ofInt n).chars with
  | nil => exact chars_ne_nil run spelled
  | cons d tail =>
    rw [spelled] at same
    obtain rfl : d = c := (List.cons.inj same).1
    exact other (mem_chars run (spelled ▸ List.mem_cons_self))

/-! ### Unique reading -/

namespace Tree

/-- The characters of a tree do not start with a closing bracket. -/
theorem chars_append_ne_closing (tree : Tree) (more rest : List Char) :
    tree.chars ++ more ≠ ']' :: rest := by
  cases tree with
  | num n => exact Numeral.chars_append_ne_cons n (by decide) more rest
  | list elems => simp [chars]
  | pair first second => simp [chars]

/-- Several trees do not start with a closing bracket. -/
theorem charsJoined_append_ne_closing (tree : Tree) (trees : List Tree) (more rest : List Char) :
    charsJoined (tree :: trees) ++ more ≠ ']' :: rest := by
  cases trees with
  | nil => exact tree.chars_append_ne_closing more rest
  | cons next trees =>
    rw [charsJoined, List.append_assoc]
    · exact tree.chars_append_ne_closing _ rest
    · exact List.cons_ne_nil next trees

/-- What comes after a tree among several: nothing, or a comma and the others. -/
def charsAfter : List Tree → List Char
  | [] => []
  | tree :: rest => ',' :: ' ' :: charsJoined (tree :: rest)

theorem charsJoined_cons (tree : Tree) (rest : List Tree) :
    charsJoined (tree :: rest) = tree.chars ++ charsAfter rest := by
  cases rest with
  | nil => exact (List.append_nil _).symm
  | cons next rest =>
    rw [charsJoined, charsAfter]
    exact List.cons_ne_nil next rest

theorem endsNumeral_charsAfter (trees : List Tree) (rest : List Char) :
    EndsNumeral (charsAfter trees ++ ']' :: rest) := by
  cases trees with
  | nil => exact endsNumeral_cons (by decide) _
  | cons tree trees => exact endsNumeral_cons (by decide) _

mutual

/-- **A text starts with the characters of at most one tree**, if no digit follows them. -/
theorem chars_append_inj : ∀ (tree tree' : Tree) {rest rest' : List Char}, EndsNumeral rest →
    EndsNumeral rest' → tree.chars ++ rest = tree'.chars ++ rest' → tree = tree' ∧ rest = rest'
  | .num m, .num n, rest, rest', ends, ends', same => by
    obtain ⟨numerals, rests⟩ := Numeral.chars_append_inj (Numeral.isDigitRun_ofInt m)
      (Numeral.isDigitRun_ofInt n) ends ends' same
    have values : m = n := by rw [← Numeral.toInt_ofInt m, numerals, Numeral.toInt_ofInt]
    exact ⟨by rw [values], rests⟩
  | .list elems, .list elems', rest, rest', _, _, same => by
    simp only [chars, List.cons_append, List.append_assoc, List.cons.injEq, true_and,
      List.nil_append] at same
    obtain ⟨elements, rests⟩ := charsJoined_append_inj elems elems' same
    exact ⟨by rw [elements], rests⟩
  | .pair first second, .pair first' second', rest, rest', _, _, same => by
    have blank : ∀ tail, EndsNumeral (' ' :: tail) := endsNumeral_cons (by decide)
    have closing : ∀ tail, EndsNumeral (')' :: tail) := endsNumeral_cons (by decide)
    simp only [chars, List.cons_append, List.append_assoc, List.cons.injEq, true_and,
      List.nil_append] at same
    obtain ⟨firsts, same⟩ := chars_append_inj first first' (blank _) (blank _) same
    simp only [List.cons.injEq, true_and] at same
    obtain ⟨seconds, rests⟩ := chars_append_inj second second' (closing _) (closing _) same
    exact ⟨by rw [firsts, seconds], (List.cons.inj rests).2⟩
  | .num m, .list _, _, _, _, _, same =>
    (Numeral.chars_append_ne_cons m (by decide) _ _ same).elim
  | .num m, .pair _ _, _, _, _, _, same =>
    (Numeral.chars_append_ne_cons m (by decide) _ _ same).elim
  | .list _, .num n, _, _, _, _, same =>
    (Numeral.chars_append_ne_cons n (by decide) _ _ same.symm).elim
  | .pair _ _, .num n, _, _, _, _, same =>
    (Numeral.chars_append_ne_cons n (by decide) _ _ same.symm).elim
  | .list _, .pair _ _, _, _, _, _, same => by simp [chars] at same
  | .pair _ _, .list _, _, _, _, _, same => by simp [chars] at same

/-- The same of several trees, up to the closing bracket. -/
theorem charsJoined_append_inj : ∀ (trees trees' : List Tree) {rest rest' : List Char},
    charsJoined trees ++ ']' :: rest = charsJoined trees' ++ ']' :: rest' →
      trees = trees' ∧ rest = rest'
  | [], [], _, _, same => ⟨rfl, (List.cons.inj same).2⟩
  | [], tree :: trees, _, _, same =>
    (charsJoined_append_ne_closing tree trees _ _ same.symm).elim
  | tree :: trees, [], _, _, same => (charsJoined_append_ne_closing tree trees _ _ same).elim
  | tree :: trees, tree' :: trees', rest, rest', same => by
    rw [charsJoined_cons, charsJoined_cons, List.append_assoc, List.append_assoc] at same
    obtain ⟨firsts, same⟩ := chars_append_inj tree tree' (endsNumeral_charsAfter trees rest)
      (endsNumeral_charsAfter trees' rest') same
    -- After the first tree there is a comma if and only if there are others.
    cases trees with
    | nil =>
      cases trees' with
      | nil => exact ⟨by rw [firsts], (List.cons.inj same).2⟩
      | cons next' trees' => simp [charsAfter] at same
    | cons next trees =>
      cases trees' with
      | nil => simp [charsAfter] at same
      | cons next' trees' =>
        simp only [charsAfter, List.cons_append, List.cons.injEq, true_and] at same
        obtain ⟨others, rests⟩ := charsJoined_append_inj (next :: trees) (next' :: trees') same
        exact ⟨by rw [firsts, others], rests⟩

end

/-- **Different trees are shown differently.** -/
theorem text_injective : Function.Injective Tree.text := by
  intro tree tree' same
  have chars : tree.chars = tree'.chars := String.ofList_injective same
  have padded : tree.chars ++ [] = tree'.chars ++ [] := by rw [chars]
  have nothing : EndsNumeral [] := fun _ first => nomatch first
  exact (chars_append_inj tree tree' nothing nothing padded).1

/-! ### Trees of data -/

/-- What a tree was prepended to is known from the whole. -/
theorem prepend_inj {first first' rest rest' : Tree}
    (same : first.prepend rest = first'.prepend rest') : first = first' ∧ rest = rest' := by
  cases rest <;> cases rest' <;> simp_all [prepend]

theorem writable_prepend (first rest : Tree) :
    (first.prepend rest).writable = (first.writable && rest.writable) := by
  cases rest <;> rfl

end Tree

namespace Datum

theorem tree_ne_num_of_pair (first second : Datum) (n : Int) : (pair first second).tree ≠ .num n := by
  rw [tree]
  cases second.tree <;> simp [Tree.prepend]

theorem tree_ne_nil_of_pair (first second : Datum) : (pair first second).tree ≠ .list [] := by
  rw [tree]
  cases second.tree <;> simp [Tree.prepend]

/-- **Data is known from its tree.** -/
theorem tree_injective : Function.Injective tree := by
  intro datum datum' same
  induction datum generalizing datum' with
  | num n =>
    cases datum' with
    | num n' => exact congrArg num (Tree.num.inj same)
    | nil => cases same
    | pair first second => exact (tree_ne_num_of_pair first second n same.symm).elim
  | nil =>
    cases datum' with
    | num n' => cases same
    | nil => rfl
    | pair first second => exact (tree_ne_nil_of_pair first second same.symm).elim
  | pair first second ihFirst ihSecond =>
    cases datum' with
    | num n' => exact (tree_ne_num_of_pair first second n' same).elim
    | nil => exact (tree_ne_nil_of_pair first second same).elim
    | pair first' second' =>
      obtain ⟨firsts, seconds⟩ := Tree.prepend_inj same
      rw [ihFirst firsts, ihSecond seconds]

theorem expression_injective : Function.Injective expression := by
  intro datum datum' same
  induction datum generalizing datum' with
  | num n =>
    cases datum' with
    | num n' =>
      have numerals := Expression.number.inj same
      rw [← Numeral.toInt_ofInt n, numerals, Numeral.toInt_ofInt]
    | nil => cases same
    | pair first second => cases same
  | nil =>
    cases datum' with
    | num n' => cases same
    | nil => rfl
    | pair first second => cases same
  | pair first second ihFirst ihSecond =>
    cases datum' with
    | num n' => cases same
    | nil => cases same
    | pair first' second' =>
      obtain ⟨operators, operands⟩ := Expression.ap.inj same
      rw [ihFirst (Expression.ap.inj operators).2, ihSecond operands]

/-- **Data is known from its source text**, which has the tokens of its expression. -/
theorem source_injective {datum datum' : Datum}
    (same : unlex datum.expression.listing = unlex datum'.expression.listing) : datum = datum' := by
  have listings : datum.expression.listing = datum'.expression.listing := by
    rw [← lex_unlex (legible_listing datum), same, lex_unlex (legible_listing datum')]
  exact expression_injective (Expression.listing_injective listings)

theorem writable_tree (datum : Datum) : datum.tree.writable = datum.writable := by
  induction datum with
  | num n => rfl
  | nil => rfl
  | pair first second ihFirst ihSecond =>
    rw [tree, Tree.writable_prepend, ihFirst, ihSecond, writable]

/-- The spine of data adds to how deeply it is nested, and each level of elements has a spine of its
own. -/
theorem height_le {depth : Nat} (datum : Datum) (deep : datum.rank ≤ depth + 1) :
    datum.height ≤ datum.length + depth * depth := by
  induction datum generalizing depth with
  | num n => exact Nat.zero_le _
  | nil => exact Nat.zero_le _
  | pair first second ihFirst ihSecond =>
    have spine := first.length_lt_rank
    simp only [rank, Nat.max_le] at deep
    obtain ⟨less, rfl⟩ : ∃ less, depth = less + 1 := ⟨depth - 1, by omega⟩
    have head : first.height ≤ first.length + less * less := ihFirst (by omega)
    have tail := ihSecond deep.2.2
    have square := Nat.add_one_mul_add_one less less
    simp only [height, length]
    omega

/-- Data is nested less deeply than the square of the depth that its tree takes. -/
theorem height_lt_square {depth : Nat} (datum : Datum) (deep : datum.rank ≤ depth) :
    datum.height < depth * depth := by
  have spine := datum.length_lt_rank
  obtain ⟨less, rfl⟩ : ∃ less, depth = less + 1 := ⟨depth - 1, by omega⟩
  have height := datum.height_le deep
  have square := Nat.add_one_mul_add_one less less
  omega

end Datum

/-! ### What has been shown -/

variable {store later last : Store} {x y : CellId} {datum : Datum} {tree : Tree} {depth n : Nat}
  {s : String}

/-- **The tree of a cell has been found**, which leads from one store to another: the cell holds the
datum, whose tree takes no more than a depth. If its integers are within the limit, then from some
depth on its tokens would have been found in the same way. -/
structure Found (depth enough : Nat) (x : CellId) (store later : Store) (datum : Datum) : Prop where
  progress : store.Progress later
  holds : later.Holds x datum
  deep : datum.rank ≤ depth
  written : datum.writable = true → ∀ n, enough ≤ n →
    sourceTokens n x store = .ok datum.expression.listing later

theorem Found.weaken {depth' enough enough' : Nat} (found : Found depth enough x store later datum)
    (le : depth ≤ depth') (le' : enough ≤ enough') : Found depth' enough' x store later datum :=
  ⟨found.progress, found.holds, Nat.le_trans found.deep le,
    fun within n more => found.written within n (Nat.le_trans le' more)⟩

/-- What a loop has found, after the trees that were found before it. A recursion goes one level deeper
with every round, and must go as deep for the elements as the loop does. -/
theorem materializeWith_found {rounds : Nat} (reversed : List Tree)
    (finds : ∀ {y : CellId} {store later : Store} {tree : Tree}, store.Represented → store.Has y →
      materialize depth y store = .ok tree later →
        ∃ datum, tree = datum.tree ∧ Found depth (depth * depth) y store later datum)
    (represented : store.Represented) (there : store.Has x)
    (answered : materializeWith (force depth) (materialize depth) rounds reversed x store =
      .ok tree later) :
    ∃ datum, tree = Tree.prependAll reversed datum.tree ∧ datum.length < rounds ∧
      Found (max rounds (depth + 1)) (rounds + depth * depth) x store later datum := by
  induction rounds generalizing store later x tree reversed with
  | zero => cases answered
  | succ rounds ih =>
    obtain ⟨v, store₁, forced, answered⟩ := bind_eq_ok answered
    obtain ⟨progress₁, parts⟩ := (force_progress depth represented there).ok v store₁ forced
    have value := force_stores represented there forced
    have there₁ := progress₁.evolves.has there
    have square := Nat.le_mul_self depth
    -- The tokens are found with one level more than the cell is forced with.
    have deeper : ∀ {n}, rounds + 1 + depth * depth ≤ n →
        ∃ m, n = m + 1 ∧ rounds + depth * depth ≤ m ∧ force m x store = .ok v store₁ :=
      fun {n} le => ⟨n - 1, by omega, by omega, force_of_le (by omega) forced⟩
    cases v with
    | num n =>
      cases answered
      refine ⟨.num n, (prependAll_num reversed n).symm, Nat.succ_pos rounds, progress₁,
        .num there₁ value, ?_, fun within k le => ?_⟩
      · simp only [Datum.rank]
        omega
      · obtain ⟨m, rfl, -, forced⟩ := deeper le
        rw [Datum.writable] at within
        rw [sourceTokens, bind_of_ok forced]
        simp only [within, if_true]
        rfl
    | nil =>
      cases answered
      refine ⟨.nil, ?_, Nat.succ_pos rounds, progress₁, .nil there₁ value, ?_, fun _ k le => ?_⟩
      · rw [Datum.tree, prependAll_list, List.append_nil]
      · simp only [Datum.rank]
        omega
      · obtain ⟨m, rfl, -, forced⟩ := deeper le
        rw [sourceTokens, bind_of_ok forced]
        rfl
    | func f => cases answered
    | pair head tail =>
      have thereHead := parts head (by simp [Value.cells])
      have thereTail := parts tail (by simp [Value.cells])
      obtain ⟨first, store₂, answeredHead, answeredTail⟩ := bind_eq_ok answered
      obtain ⟨a, rfl, foundHead⟩ := finds progress₁.represented thereHead answeredHead
      have progress₂ := foundHead.progress
      obtain ⟨b, rfl, long, foundTail⟩ :=
        ih _ progress₂.represented (progress₂.evolves.has thereTail) answeredTail
      have progress₃ := foundTail.progress
      have evolves := progress₂.evolves.trans progress₃.evolves
      have deepHead := foundHead.deep
      have deepTail := foundTail.deep
      refine ⟨.pair a b, rfl, Nat.succ_lt_succ long,
        Trans.trans progress₁ (Trans.trans progress₂ progress₃),
        .pair (evolves.has there₁) (evolves.value there₁ value)
          (foundHead.holds.mono progress₃.evolves) foundTail.holds, ?_, fun within k le => ?_⟩
      · simp only [Datum.rank]
        omega
      · obtain ⟨m, rfl, enough, forced⟩ := deeper le
        obtain ⟨withinHead, withinTail⟩ := Bool.and_eq_true_iff.mp within
        rw [Datum.listing_pair]
        exact sourceTokens_of_halves forced (foundHead.written withinHead m (by omega))
          (foundTail.written withinTail m enough)

/-- **What has been materialized is forced**, and its tokens are found in the same way with the square
of the depth. -/
theorem materialize_found (depth : Nat) (represented : store.Represented) (there : store.Has x)
    (answered : materialize depth x store = .ok tree later) :
    ∃ datum, tree = datum.tree ∧ Found depth (depth * depth) x store later datum := by
  induction depth generalizing store later x tree with
  | zero => cases answered
  | succ depth ih =>
    obtain ⟨datum, rfl, -, found⟩ := materializeWith_found [] ih represented there answered
    have square := Nat.add_one_mul_add_one depth depth
    exact ⟨datum, rfl, found.weaken (by omega) (by omega)⟩

/-- A tree whose integers are within the limit is shown. -/
theorem render_of_materialize (found : materialize depth x store = .ok tree later)
    (within : tree.writable = true) : render depth x store = .ok tree.text later := by
  rw [render, bind_of_ok found, showTree, if_pos within]
  rfl

/-- **What a cell is shown as**: the tree, the text and the source text that are found for it in a
store, each of which leaves the same store; and they are found again, without a change, in any store
that evolves from that one. The source text is found by a recursion, which nests deeper than the loop
that finds the tree: at most as deep as the square of its depth. -/
structure ShownAs (depth : Nat) (x : CellId) (store later : Store) (tree : Tree)
    (display text : String) : Prop where
  materialized : materialize depth x store = .ok tree later
  rendered : render depth x store = .ok display later
  written : ∀ n, depth * depth ≤ n → source n x store = .ok text later
  again : ∀ last n, later.Evolves last → depth ≤ n →
    materialize n x last = .ok tree last ∧ render n x last = .ok display last
  writtenAgain : ∀ last n, later.Evolves last → depth * depth ≤ n → source n x last = .ok text last

/-- A cell whose text is found holds data, and is shown as that. -/
theorem render_holds (represented : store.Represented) (there : store.Has x)
    (rendered : render depth x store = .ok s later) :
    ∃ datum : Datum, s = datum.tree.text ∧
      ShownAs depth x store later datum.tree s (unlex datum.expression.listing) := by
  obtain ⟨tree, later', answered, shown⟩ := bind_eq_ok rendered
  obtain ⟨datum, rfl, found⟩ := materialize_found depth represented there answered
  rw [showTree] at shown
  by_cases within : datum.tree.writable = true
  · rw [if_pos within] at shown
    cases shown
    have limited : datum.writable = true := by rw [← datum.writable_tree, within]
    refine ⟨datum, rfl, answered, rendered, fun n le => bind_of_ok (found.written limited n le),
      fun last n evolves le => ?_, fun last n evolves le => ?_⟩
    · have again := materialize_of_holds (found.holds.mono evolves) (Nat.le_trans found.deep le)
      exact ⟨again, render_of_materialize again within⟩
    · exact source_of_holds (found.holds.mono evolves) limited
        (Nat.lt_of_lt_of_le (datum.height_lt_square found.deep) le)
  · rw [if_neg within] at shown
    cases shown

/-! ### Texts, trees and source texts -/

namespace Session

/-- **The text of a cell says which data it holds.** Different trees are shown differently. And if
the texts of two cells are found, after any steps of a session and after any more, then so are their
trees and their source texts, and two of the texts are the same exactly if the trees are, and exactly
if the source texts are. -/
theorem display_unambiguous (history more : List (Nat × Step)) {depth depth' : Nat} {x y : CellId}
    {s s' : String} {later later' : Store} (there : (reached history).store.Has x)
    (there' : (reached (history ++ more)).store.Has y)
    (rendered : render depth x (reached history).store = .ok s later)
    (rendered' : render depth' y (reached (history ++ more)).store = .ok s' later') :
    Function.Injective Tree.text ∧
      ∃ (tree tree' : Tree) (text text' : String),
        ShownAs depth x (reached history).store later tree s text ∧
        ShownAs depth' y (reached (history ++ more)).store later' tree' s' text' ∧
        (s = s' ↔ tree = tree') ∧ (tree = tree' ↔ text = text') := by
  obtain ⟨datum, rfl, shown⟩ := render_holds (sound_reached history).represented there rendered
  obtain ⟨datum', rfl, shown'⟩ :=
    render_holds (sound_reached (history ++ more)).represented there' rendered'
  refine ⟨Tree.text_injective, datum.tree, datum'.tree, _, _, shown, shown',
    Tree.text_injective.eq_iff, ?_⟩
  rw [Datum.tree_injective.eq_iff]
  constructor
  · rintro rfl
    rfl
  · exact Datum.source_injective

/-- A list with an improper pair in it is suspended in one cell, and is put together in another after
the first was shown; both are shown alike, so they have one tree and one source text. -/
theorem display_unambiguous_rebuilt :
    let history := [(20, Step.ofCommand (.environment (.load
      "xs = ap ap cons ap car ys nil\nys = ap ap cons ap ap cons nil ap inc 1 2")))]
    let more := [(20, Step.ofCommand (.demand (.eval "xs"))), (20, Step.ofCommand (.environment (.load
      "zs = ap ap cons ap ap cons ap car ap car ys ap cdr ap car ys nil")))]
    let store := (reached history).store
    let store' := (reached (history ++ more)).store
    (render 20 ⟨22⟩).verdict store = .ok "[([] . 2)]" ∧
      (render 20 ⟨33⟩).verdict store' = .ok "[([] . 2)]" ∧
      (materialize 20 ⟨22⟩).verdict store = (materialize 20 ⟨33⟩).verdict store' ∧
      (source 400 ⟨22⟩).verdict store = (source 400 ⟨33⟩).verdict store' := by
  intro history more store store'
  obtain ⟨there, shows⟩ : 22 < store.cells.size ∧
      (render 20 ⟨22⟩).verdict store = .ok "[([] . 2)]" := by decide +kernel
  obtain ⟨there', shows'⟩ : 33 < store'.cells.size ∧
      (render 20 ⟨33⟩).verdict store' = .ok "[([] . 2)]" := by decide +kernel
  obtain ⟨-, tree, tree', text, text', shown, shown', trees, texts⟩ :=
    display_unambiguous history more there there' (Eval.eq_ok_of_verdict shows)
      (Eval.eq_ok_of_verdict shows')
  refine ⟨shows, shows', ?_, ?_⟩
  · unfold Eval.verdict
    rw [shown.materialized, shown'.materialized, trees.mp rfl]
  · unfold Eval.verdict
    rw [shown.written 400 (by decide), shown'.written 400 (by decide), texts.mp (trees.mp rfl)]

end Session

end ByNeed
