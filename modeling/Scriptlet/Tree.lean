/-
**Trees of programs.**

* `Label`: what a node of a tree stands for.
* `Tree`: a labelled node with its children, a token, or an absent child.
* `Tree.unplaced`: a tree without the places of its tokens.
* `Tree.tokens`: the tokens of a tree from left to right.

`Label.ofName_name`: a label of a program's tree is found by its name.
-/
import Scriptlet.Token

namespace Scriptlet

/-- What a node stands for. -/
inductive Label where
  | program
  | block
  | letStatement
  | returnStatement
  | expressionStatement
  | integer
  | string
  | boolean
  | identifier
  | unary
  | binary
  | conditional
  | function
  | parameters
  | call
  | arguments
  | index
  | array
  | hash
  | pair
  /-- A label that no tree of a program has. -/
  | other (name : String)
  deriving DecidableEq, Repr, Inhabited

namespace Label

/-- The labels of the trees of programs. -/
def all : List Label :=
  [program, block, letStatement, returnStatement, expressionStatement, integer, string, boolean,
    identifier, unary, binary, conditional, function, parameters, call, arguments, index, array,
    hash, pair]

/-- The name of a label. -/
def name : Label → String
  | program => "program"
  | block => "block_statement"
  | letStatement => "let_statement"
  | returnStatement => "return_statement"
  | expressionStatement => "expression_statement"
  | integer => "integer_literal"
  | string => "string_literal"
  | boolean => "boolean"
  | identifier => "identifier"
  | unary => "prefix_expression"
  | binary => "infix_expression"
  | conditional => "if_expression"
  | function => "function_literal"
  | parameters => "parameters"
  | call => "call_expression"
  | arguments => "arguments"
  | index => "index_expression"
  | array => "array_literal"
  | hash => "hash_literal"
  | pair => "pair"
  | other name => name

/-- The label with a given name. -/
def ofName (name : String) : Label :=
  (all.find? fun label => label.name == name).getD (other name)

/-- A label of a program's tree is found by its name. -/
theorem ofName_name : ∀ label ∈ all, ofName label.name = label := by
  decide +kernel

end Label

/-- A tree: a node, a token, or a child left out. -/
inductive Tree where
  | node (label : Label) (children : List Tree)
  | leaf (token : Token)
  | absent
  deriving Repr, Inhabited

namespace Tree

/-- The label of a node. -/
def label? : Tree → Option Label
  | node label _ => some label
  | _ => none

/-- The children of a tree; only a node has any. -/
def children : Tree → List Tree
  | node _ children => children
  | _ => []

/-- The token of a leaf. -/
def token? : Tree → Option Token
  | leaf token => some token
  | _ => none

mutual

/-- A tree without the places of its tokens. -/
def unplaced : Tree → Tree
  | node label children => node label (unplacedAll children)
  | leaf token => leaf token.unplaced
  | absent => absent

/-- Trees without the places of their tokens. -/
def unplacedAll : List Tree → List Tree
  | [] => []
  | tree :: rest => tree.unplaced :: unplacedAll rest

end

mutual

/-- The tokens of a tree from left to right. -/
def tokens : Tree → List Token
  | node _ children => tokensAll children
  | leaf token => [token]
  | absent => []

/-- The tokens of trees from left to right. -/
def tokensAll : List Tree → List Token
  | [] => []
  | tree :: rest => tree.tokens ++ tokensAll rest

end

/-- The places go from each tree by itself. -/
theorem unplacedAll_eq_map (trees : List Tree) : unplacedAll trees = trees.map unplaced := by
  induction trees with
  | nil => rfl
  | cons tree rest ih => simp [unplacedAll, ih]

/-- The tokens of trees are those of each in turn. -/
theorem tokensAll_eq_flatMap (trees : List Tree) : tokensAll trees = trees.flatMap tokens := by
  induction trees with
  | nil => rfl
  | cons tree rest ih => simp [tokensAll, ih]

end Tree

end Scriptlet
