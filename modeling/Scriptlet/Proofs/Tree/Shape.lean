/-
**The shapes of trees of programs.**

* `Role`: what a tree is within a program: the whole, a block, a statement, an expression, or a pair
  of a hash.
* `Tree.Shaped`: the trees with the children that the tree of a program has in a given role, and
  tokens of the right kinds that have a given property.

Main statements: the parts of a shaped tree are shaped (`Tree.Shaped.operand`), those whose values
are used are expressions (`Tree.Shaped.consumed`), and no shaped tree leads to a fault by its own
shape, if its integers can be read (`Tree.Shaped.flawless`). `Reader/Soundness` proves that the
reader gives shaped trees only, `Reader/Completeness` that it gives all of them.
-/
import Scriptlet.Proofs.Tree.Parts
import Scriptlet.Reader.Step

namespace Scriptlet

/-- What a tree is within a program. -/
inductive Role where
  | program
  | block
  | statement
  | expression
  /-- A key and its value within a hash. -/
  | pair
  deriving DecidableEq, Repr

namespace Tree

/-- The trees of programs and their parts, by what they are in the program; every token has the
given property. -/
inductive Shaped (token : Token → Prop) : Role → Tree → Prop
  | program {statements : List Tree} : (∀ part ∈ statements, Shaped token .statement part) →
      Shaped token .program (.node .program statements)
  | block {statements : List Tree} : (∀ part ∈ statements, Shaped token .statement part) →
      Shaped token .block (.node .block statements)
  | binding {name : Token} {value : Tree} : name.kind = .identifier → token name →
      Shaped token .expression value →
      Shaped token .statement (.node .letStatement [.leaf name, value])
  | returning {value : Tree} : Shaped token .expression value →
      Shaped token .statement (.node .returnStatement [value])
  | expressing {value : Tree} : Shaped token .expression value →
      Shaped token .statement (.node .expressionStatement [value])
  | integer {literal : Token} : literal.kind = .integer → token literal →
      Shaped token .expression (.node .integer [.leaf literal])
  | string {literal : Token} : literal.kind = .string → token literal →
      Shaped token .expression (.node .string [.leaf literal])
  | boolean {literal : Token} : literal.kind = .trueWord ∨ literal.kind = .falseWord →
      token literal → Shaped token .expression (.node .boolean [.leaf literal])
  | identifier {name : Token} : name.kind = .identifier → token name →
      Shaped token .expression (.node .identifier [.leaf name])
  | unary {operator : Token} {right : Tree} : operator.kind = .bang ∨ operator.kind = .minus →
      token operator → Shaped token .expression right →
      Shaped token .expression (.node .unary [.leaf operator, right])
  | binary {left : Tree} {operator : Token} {right : Tree} :
      0 < Reader.strength operator.kind → token operator → Shaped token .expression left →
      Shaped token .expression right →
      Shaped token .expression (.node .binary [left, .leaf operator, right])
  | conditional {condition consequence : Tree} : Shaped token .expression condition →
      Shaped token .block consequence →
      Shaped token .expression (.node .conditional [condition, consequence])
  | choice {condition consequence alternative : Tree} : Shaped token .expression condition →
      Shaped token .block consequence → Shaped token .block alternative →
      Shaped token .expression (.node .conditional [condition, consequence, alternative])
  | function {parameters : List Token} {body : Tree} :
      (∀ name ∈ parameters, name.kind = .identifier ∧ token name) → Shaped token .block body →
      Shaped token .expression (.node .function [.node .parameters (parameters.map .leaf), body])
  | call {callee : Tree} {arguments : List Tree} : Shaped token .expression callee →
      (∀ part ∈ arguments, Shaped token .expression part) →
      Shaped token .expression (.node .call [callee, .node .arguments arguments])
  | index {container position : Tree} : Shaped token .expression container →
      Shaped token .expression position →
      Shaped token .expression (.node .index [container, position])
  | array {elements : List Tree} : (∀ part ∈ elements, Shaped token .expression part) →
      Shaped token .expression (.node .array elements)
  | hash {pairs : List Tree} : (∀ part ∈ pairs, Shaped token .pair part) →
      Shaped token .expression (.node .hash pairs)
  | pair {key value : Tree} : Shaped token .expression key → Shaped token .expression value →
      Shaped token .pair (.node .pair [key, value])

@[simp] theorem tokens_node (label : Label) (children : List Tree) :
    (node label children).tokens = children.flatMap tokens := by
  rw [tokens, tokensAll_eq_flatMap]

@[simp] theorem tokens_leaf (token : Token) : (leaf token).tokens = [token] := by
  rw [tokens]

/-- The tokens of leaves. -/
@[simp] theorem flatMap_tokens_leaf (tokens : List Token) :
    (tokens.map leaf).flatMap Tree.tokens = tokens := by
  induction tokens with
  | nil => rfl
  | cons token rest ih => simp [ih]

namespace Shaped

variable {token : Token → Prop} {role : Role} {tree part : Tree}

/-- The expressions of a program stand for values. -/
theorem isExpression (shaped : Shaped token .expression tree) : tree.isExpression = true := by
  cases shaped <;> rfl

/-- The two children of a pair are expressions. -/
theorem child_of_pair (shaped : Shaped token .pair tree) (member : part ∈ tree.children) :
    Shaped token .expression part := by
  cases shaped with
  | pair key value =>
    rcases List.mem_cons.mp member with rfl | member
    · exact key
    · rw [List.mem_singleton.mp member]
      exact value

/-- The body of a function is a block. -/
theorem body {parameters body : Tree}
    (shaped : Shaped token role (.node .function [parameters, body])) :
    Shaped token .block body := by
  cases shaped with
  | function _ body => exact body

/-- **The parts that are evaluated on the scope of a shaped tree are shaped**, and those whose
values are used are expressions. -/
theorem operand_consumed (shaped : Shaped token role tree) :
    (∀ part ∈ tree.operands, ∃ inner, Shaped token inner part) ∧
      ∀ part ∈ tree.consumed, Shaped token .expression part := by
  have alike : ∀ {parts : List Tree} {inner : Role},
      (∀ part ∈ parts, Shaped token inner part) → ∀ part ∈ parts, ∃ inner, Shaped token inner part :=
    fun each part member => ⟨_, each part member⟩
  have none : ∀ part ∈ ([] : List Tree), Shaped token .expression part := fun _ member => by
    cases member
  have one : ∀ {first : Tree}, Shaped token .expression first →
      ∀ part ∈ [first], Shaped token .expression part :=
    fun here => List.forall_mem_singleton.mpr here
  have more : ∀ {first : Tree} {rest : List Tree}, Shaped token .expression first →
      (∀ part ∈ rest, Shaped token .expression part) →
      ∀ part ∈ first :: rest, Shaped token .expression part :=
    fun here others => List.forall_mem_cons.mpr ⟨here, others⟩
  cases shaped with
  | program each => exact ⟨alike each, none⟩
  | block each => exact ⟨alike each, none⟩
  | binding _ _ value => exact ⟨alike (one value), one value⟩
  | returning value => exact ⟨alike (one value), one value⟩
  | expressing value => exact ⟨alike (one value), none⟩
  | integer | string | boolean | identifier | function | pair => exact ⟨alike none, none⟩
  | unary _ _ right => exact ⟨alike (one right), one right⟩
  | binary _ _ left right => exact ⟨alike (more left (one right)), more left (one right)⟩
  | conditional condition consequence =>
    exact ⟨List.forall_mem_cons.mpr ⟨⟨_, condition⟩,
      List.forall_mem_singleton.mpr ⟨_, consequence⟩⟩, one condition⟩
  | choice condition consequence alternative =>
    exact ⟨List.forall_mem_cons.mpr ⟨⟨_, condition⟩,
      List.forall_mem_cons.mpr ⟨⟨_, consequence⟩,
        List.forall_mem_singleton.mpr ⟨_, alternative⟩⟩⟩, one condition⟩
  | call callee each => exact ⟨alike (more callee each), more callee each⟩
  | index container position =>
    exact ⟨alike (more container (one position)), more container (one position)⟩
  | array each => exact ⟨alike each, each⟩
  | @hash pairs each =>
    have inner : ∀ part ∈ (Tree.node .hash pairs).operands, Shaped token .expression part := by
      intro part member
      obtain ⟨pair, here, child⟩ := List.mem_flatMap.mp member
      exact (each pair here).child_of_pair child
    exact ⟨alike inner, inner⟩

/-- The parts that are evaluated on the scope of a shaped tree are shaped. -/
theorem operand (shaped : Shaped token role tree) (member : part ∈ tree.operands) :
    ∃ inner, Shaped token inner part :=
  shaped.operand_consumed.1 part member

/-- The parts whose values a shaped tree uses are expressions. -/
theorem consumed (shaped : Shaped token role tree) (member : part ∈ tree.consumed) :
    Shaped token .expression part :=
  shaped.operand_consumed.2 part member

/-- A shaped tree whose tokens have another property is shaped with that property as well. -/
theorem of_forall_tokens {other : Token → Prop} (shaped : Shaped token role tree)
    (each : ∀ inner ∈ tree.tokens, token inner → other inner) : Shaped other role tree := by
  have among : ∀ {parts : List Tree} {inner : Role},
      (∀ part ∈ parts, (∀ word ∈ part.tokens, token word → other word) → Shaped other inner part) →
      (∀ word ∈ parts.flatMap tokens, token word → other word) →
      ∀ part ∈ parts, Shaped other inner part := by
    intro parts inner ih every part member
    exact ih part member fun word within => every word (List.mem_flatMap.mpr ⟨part, member, within⟩)
  induction shaped with
  | program _ parts => exact .program (among parts (by simpa using each))
  | block _ parts => exact .block (among parts (by simpa using each))
  | binding kind holds _ value =>
    exact .binding kind (each _ (by simp) holds)
      (value fun word within => each word (by simp [within]))
  | returning _ value => exact .returning (value (by simpa using each))
  | expressing _ value => exact .expressing (value (by simpa using each))
  | integer kind holds => exact .integer kind (each _ (by simp) holds)
  | string kind holds => exact .string kind (each _ (by simp) holds)
  | boolean kind holds => exact .boolean kind (each _ (by simp) holds)
  | identifier kind holds => exact .identifier kind (each _ (by simp) holds)
  | unary kind holds _ right =>
    exact .unary kind (each _ (by simp) holds)
      (right fun word within => each word (by simp [within]))
  | binary strong holds _ _ left right =>
    exact .binary strong (each _ (by simp) holds)
      (left fun word within => each word (by simp [within]))
      (right fun word within => each word (by simp [within]))
  | conditional _ _ condition consequence =>
    exact .conditional (condition fun word within => each word (by simp [within]))
      (consequence fun word within => each word (by simp [within]))
  | choice _ _ _ condition consequence alternative =>
    exact .choice (condition fun word within => each word (by simp [within]))
      (consequence fun word within => each word (by simp [within]))
      (alternative fun word within => each word (by simp [within]))
  | function names _ body =>
    refine .function (fun name member => ⟨(names name member).1, ?_⟩)
      (body fun word within => each word (by simp [within]))
    exact each name (by simp [member]) (names name member).2
  | call _ _ callee parts =>
    refine .call (callee fun word within => each word (by simp [within])) (among parts ?_)
    exact fun word within => each word (by simpa using Or.inr (by simpa using within))
  | index _ _ container position =>
    exact .index (container fun word within => each word (by simp [within]))
      (position fun word within => each word (by simp [within]))
  | array _ parts => exact .array (among parts (by simpa using each))
  | hash _ parts => exact .hash (among parts (by simpa using each))
  | pair _ _ key value =>
    exact .pair (key fun word within => each word (by simp [within]))
      (value fun word within => each word (by simp [within]))

/-- **A shaped tree leads to no fault by its own shape**, if its integers can be read. -/
theorem flawless (shaped : Shaped token role tree)
    (readable : ∀ literal, token literal → literal.kind = .integer →
      ∃ number, Number.read literal.text = .ok number) {fault : Fault} : ¬ tree.Flaw fault := by
  intro flaw
  cases flaw with
  | noChild within => cases shaped <;> simp at within
  | notTwo within others =>
    cases shaped with
    | binding | unary | function | call | index => exact others _ _ rfl
    | _ => simp at within
  | notThree others => cases shaped with | binary => exact others _ _ _ rfl
  | belowTwo others => cases shaped <;> exact others _ _ _ rfl
  | noPair member others =>
    cases shaped with
    | hash each => cases each _ member with | pair => exact others _ _ rfl
  | noName failed => cases shaped with | binding => cases failed
  | noUnary failed => cases shaped with | unary => cases failed
  | noBinary failed => cases shaped with | binary => cases failed
  | noToken within failed =>
    cases shaped with
    | integer | string | boolean | identifier => cases failed
    | _ => simp at within
  | misread found failed =>
    cases shaped with
    | integer kind holds =>
      cases found
      obtain ⟨number, read⟩ := readable _ holds kind
      rw [read] at failed
      cases failed

end Shaped

end Tree

end Scriptlet
