/-
**Whether trees are equal can be decided.**

* `Tree.same`: two trees are compared node by node.

Main statement: `Tree.same_iff`, trees are the same if they are equal.
-/
import Scriptlet.Tree

namespace Scriptlet.Tree

mutual

/-- Whether two trees are equal. -/
def same : Tree → Tree → Bool
  | node label children, node label' children' => label == label' && sameAll children children'
  | leaf token, leaf token' => token == token'
  | absent, absent => true
  | _, _ => false

/-- Whether trees are equal one by one. -/
def sameAll : List Tree → List Tree → Bool
  | [], [] => true
  | tree :: rest, tree' :: rest' => tree.same tree' && sameAll rest rest'
  | _, _ => false

end

mutual

/-- **Trees are the same if they are equal.** -/
theorem same_iff : (tree other : Tree) → (tree.same other = true ↔ tree = other)
  | node _ children, node _ children' => by simp [same, sameAll_iff children children']
  | leaf _, leaf _ | absent, absent => by simp [same]
  | node .., leaf _ | node .., absent | leaf _, node .. | leaf _, absent | absent, node ..
  | absent, leaf _ => by simp [same]

/-- So are trees one by one. -/
theorem sameAll_iff : (trees others : List Tree) → (sameAll trees others = true ↔ trees = others)
  | [], [] => by simp [sameAll]
  | tree :: rest, tree' :: rest' => by
    simp [sameAll, same_iff tree tree', sameAll_iff rest rest']
  | [], _ :: _ | _ :: _, [] => by simp [sameAll]

end

instance : DecidableEq Tree := fun tree other => decidable_of_iff _ (same_iff tree other)

end Scriptlet.Tree
