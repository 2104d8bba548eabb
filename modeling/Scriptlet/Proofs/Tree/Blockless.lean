/-
**Programs without blocks.**

* `Tree.Blockless`: the trees of programs, and their parts, that have no functions and no
  conditionals, where an expression by itself is the last statement.

Their tokens can be written. What `let` binds may be any name, a word of the language among them.
-/
import Scriptlet.Proofs.Tree.Print
import Scriptlet.Proofs.Tree.Shape

namespace Scriptlet.Tree

/-- Programs without blocks and their parts. -/
inductive Blockless : Role → Tree → Prop
  | integer {literal : Token} : literal.kind = .integer → literal.Plain →
      Blockless .expression (.node .integer [.leaf literal])
  | string {literal : Token} : literal.kind = .string → literal.Plain →
      Blockless .expression (.node .string [.leaf literal])
  | boolean {literal : Token} : literal.kind = .trueWord ∨ literal.kind = .falseWord →
      literal.Plain → Blockless .expression (.node .boolean [.leaf literal])
  | identifier {name : Token} : name.kind = .identifier → name.Plain →
      Blockless .expression (.node .identifier [.leaf name])
  | unary {operator : Token} {right : Tree} : operator.kind = .bang ∨ operator.kind = .minus →
      operator.Plain → Blockless .expression right →
      Blockless .expression (.node .unary [.leaf operator, right])
  | binary {left : Tree} {operator : Token} {right : Tree} :
      0 < Reader.strength operator.kind → operator.Plain → Blockless .expression left →
      Blockless .expression right →
      Blockless .expression (.node .binary [left, .leaf operator, right])
  | call {callee : Tree} {arguments : List Tree} : Blockless .expression callee →
      (∀ part ∈ arguments, Blockless .expression part) →
      Blockless .expression (.node .call [callee, .node .arguments arguments])
  | index {container position : Tree} : Blockless .expression container →
      Blockless .expression position →
      Blockless .expression (.node .index [container, position])
  | array {elements : List Tree} : (∀ part ∈ elements, Blockless .expression part) →
      Blockless .expression (.node .array elements)
  | hash {pairs : List Tree} : (∀ part ∈ pairs, Blockless .pair part) →
      Blockless .expression (.node .hash pairs)
  | pair {key value : Tree} : Blockless .expression key → Blockless .expression value →
      Blockless .pair (.node .pair [key, value])
  | binding {name : Token} {value : Tree} : name.kind = .identifier →
      IsNameText name.text.toList → Blockless .expression value →
      Blockless .statement (.node .letStatement [.leaf name, value])
  | returning {value : Tree} : Blockless .expression value →
      Blockless .statement (.node .returnStatement [value])
  | program {statements : List Tree} : (∀ part ∈ statements, Blockless .statement part) →
      Blockless .program (.node .program statements)
  | closing {statements : List Tree} {last : Tree} :
      (∀ part ∈ statements, Blockless .statement part) → Blockless .expression last →
      Blockless .program (.node .program (statements ++ [.node .expressionStatement [last]]))

/-- Programs without blocks and their parts are shaped. -/
theorem Blockless.shaped {role : Role} {tree : Tree} (blockless : Blockless role tree) :
    Shaped (fun _ => True) role tree := by
  induction blockless with
  | integer kind => exact .integer kind trivial
  | string kind => exact .string kind trivial
  | boolean kind => exact .boolean kind trivial
  | identifier kind => exact .identifier kind trivial
  | unary kind _ _ right => exact .unary kind trivial right
  | binary binds _ _ _ left right => exact .binary binds trivial left right
  | call _ _ callee each => exact .call callee each
  | index _ _ container position => exact .index container position
  | array _ each => exact .array each
  | hash _ each => exact .hash each
  | pair _ _ key value => exact .pair key value
  | binding kind _ _ value => exact .binding kind trivial value
  | returning _ value => exact .returning value
  | program _ each => exact .program each
  | closing _ _ each last =>
    exact .program (List.forall_mem_append.mpr
      ⟨each, List.forall_mem_singleton.mpr (.expressing last)⟩)

end Scriptlet.Tree
