/-
**Trees.**

A tree is data with nothing left to compute: an integer, a list, or a pair whose second half is not
a list. Trees are shown with brackets around lists and parentheses around pairs.

* `Tree.text`: how a tree is shown;
* `Tree.same_iff`: two trees are compared by their shape and their integers.
-/

import ByNeed.Numeral

namespace ByNeed

/-- Data with nothing left to compute. -/
inductive Tree
  | num (n : Int)
  | list (elems : List Tree)
  | pair (first second : Tree)

namespace Tree

/-! ### Text -/

mutual

/-- The characters of a tree. -/
def chars : Tree → List Char
  | .num n => (Numeral.ofInt n).chars
  | .list elems => '[' :: (charsJoined elems ++ [']'])
  | .pair first second => '(' :: (first.chars ++ ' ' :: '.' :: ' ' :: (second.chars ++ [')']))

/-- The characters of several trees, with a comma and a space between them. -/
def charsJoined : List Tree → List Char
  | [] => []
  | [tree] => tree.chars
  | tree :: rest => tree.chars ++ ',' :: ' ' :: charsJoined rest

end

/-- How a tree is shown. -/
def text (tree : Tree) : String :=
  String.ofList tree.chars

mutual

/-- All integers of a tree are within the limit. -/
def writable : Tree → Bool
  | .num n => ByNeed.writable n
  | .list elems => allWritable elems
  | .pair first second => first.writable && second.writable

/-- All integers of several trees are within the limit. -/
def allWritable : List Tree → Bool
  | [] => true
  | tree :: rest => tree.writable && allWritable rest

end

/-! ### Equality -/

mutual

/-- Two trees have the same shape and the same integers. -/
def same : Tree → Tree → Bool
  | .num m, .num n => m == n
  | .list elems, .list elems' => sameAll elems elems'
  | .pair first second, .pair first' second' => first.same first' && second.same second'
  | _, _ => false

/-- Two lists of trees agree tree by tree. -/
def sameAll : List Tree → List Tree → Bool
  | [], [] => true
  | tree :: rest, tree' :: rest' => tree.same tree' && sameAll rest rest'
  | _, _ => false

end

mutual

theorem same_iff : ∀ tree tree' : Tree, tree.same tree' = true ↔ tree = tree'
  | .num m, .num n => by simp [same]
  | .list elems, .list elems' => by simp [same, sameAll_iff elems elems']
  | .pair first second, .pair first' second' => by
    simp [same, same_iff first first', same_iff second second']
  | .num _, .list _ => by simp [same]
  | .num _, .pair _ _ => by simp [same]
  | .list _, .num _ => by simp [same]
  | .list _, .pair _ _ => by simp [same]
  | .pair _ _, .num _ => by simp [same]
  | .pair _ _, .list _ => by simp [same]

theorem sameAll_iff : ∀ trees trees' : List Tree, sameAll trees trees' = true ↔ trees = trees'
  | [], [] => by simp [sameAll]
  | tree :: rest, tree' :: rest' => by
    simp [sameAll, same_iff tree tree', sameAll_iff rest rest']
  | [], _ :: _ => by simp [sameAll]
  | _ :: _, [] => by simp [sameAll]

end

instance : DecidableEq Tree := fun tree tree' =>
  decidable_of_iff (tree.same tree' = true) (same_iff tree tree')

end Tree

end ByNeed
