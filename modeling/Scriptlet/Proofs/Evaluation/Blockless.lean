/-
**Programs without blocks mean what their text says.**

Programs without blocks have no functions, so that those that are equal but for places are evaluated
alike.

Main statement: `render_blockless`. A program without blocks has a text that no other such program
has, and this text is read as that program, and evaluated as it is.
-/
import Scriptlet.Proofs.Evaluation.Functionless
import Scriptlet.Proofs.Reader.Rendered

namespace Scriptlet

/-- There are no functions in programs without blocks. -/
theorem Tree.Blockless.functionless {role : Role} {tree : Tree} (blockless : Blockless role tree) :
    tree.Functionless := by
  induction blockless with
  | integer | string | boolean | identifier => simp
  | unary _ _ _ right => simp [right]
  | binary _ _ _ _ left right => simp [left, right]
  | call _ _ callee each => simpa [callee] using each
  | index _ _ container position => simp [container, position]
  | pair _ _ key value => simp [key, value]
  | array _ each | hash _ each | program _ each => simpa using each
  | binding _ _ _ value => simp [value]
  | returning _ value => simp [value]
  | closing _ _ each last => simpa [or_imp, forall_and, last] using each

/-- **Programs without blocks that are equal but for places are evaluated alike**, as are their
parts. -/
theorem evaluate_of_blockless {role : Role} {tree other : Tree} (blockless : tree.Blockless role)
    (same : tree.SameUnplaced other) (limit : Nat) :
    evaluate limit other = evaluate limit tree :=
  levels_evaluate.of_functionless blockless.shaped blockless.functionless same limit

/-- **A program without blocks comes back from its text**: the text is read as the program itself
but for places, is evaluated as the program is, and is the text of no other program without
blocks. -/
theorem render_blockless {tree : Tree} (blockless : tree.Blockless .program) :
    ∃ text read, tree.render = .ok text ∧ parse text = .ok read ∧ read.unplaced = tree.unplaced ∧
      (∀ limit, evaluate limit read = evaluate limit tree) ∧
      ∀ other : Tree, other.Blockless .program → other.render = .ok text →
        other.unplaced = tree.unplaced := by
  obtain ⟨text, read, renders, parsed, same⟩ := Reader.parse_render blockless
  refine ⟨text, read, renders, parsed, same, evaluate_of_blockless blockless same, ?_⟩
  intro other blockless' renders'
  obtain ⟨text', read', rendered, parsed', same'⟩ := Reader.parse_render blockless'
  obtain rfl : text' = text := Except.ok.inj (rendered.symm.trans renders')
  obtain rfl : read' = read := Except.ok.inj (parsed'.symm.trans parsed)
  exact same'.symm.trans same

/-- A string with a brace, slashes and a line break is a key, and the name that is bound is the word
`let`. -/
theorem render_blockless_letLet :
    let one : Tree := .node .integer [.leaf ⟨.integer, "1", default, 0⟩]
    let string : Tree := .node .string [.leaf ⟨.string, "\x7b//\n", default, 0⟩]
    let name : Tree := .node .identifier [.leaf ⟨.identifier, "f", default, 0⟩]
    let call : Tree := .node .call [name, .node .arguments [one]]
    let value : Tree :=
      .node .unary [.leaf (.mark .bang), .node .unary [.leaf (.mark .minus), call]]
    let hash : Tree := .node .hash [.node .pair [string, value]]
    let program : Tree := .node .program
      ([.node .letStatement [.leaf ⟨.identifier, "let", default, 0⟩, hash]] ++
        [.node .expressionStatement [.node .index [name, one]]])
    let text := "let let = \x7b\"\x7b//\n\":(!(-f(1)))\x7d;(f[1])"
    program.Blockless .program ∧ program.render = .ok text ∧
      ∃ read, parse text = .ok read ∧ read.unplaced = program.unplaced ∧
        ∀ limit, evaluate limit read = evaluate limit program := by
  intro one string name call value hash program text
  have one : one.Blockless .expression := .integer rfl (by decide +kernel)
  have string : string.Blockless .expression := .string rfl (by decide +kernel)
  have name : name.Blockless .expression := .identifier rfl (by decide +kernel)
  have call : call.Blockless .expression := .call name (by simpa using one)
  have value : value.Blockless .expression :=
    .unary (Or.inl rfl) (by decide +kernel) (.unary (Or.inr rfl) (by decide +kernel) call)
  have hash : hash.Blockless .expression := .hash (by simpa using .pair string value)
  have blockless : program.Blockless .program :=
    .closing (by simpa using .binding rfl (by decide +kernel) hash) (.index name one)
  have renders : program.render = .ok text := rfl
  obtain ⟨written, read, renders', parsed, same, alike, -⟩ := render_blockless blockless
  obtain rfl : text = written := Except.ok.inj (renders.symm.trans renders')
  exact ⟨blockless, renders, read, parsed, same, alike⟩

end Scriptlet
