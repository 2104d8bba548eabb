/-
**Texts that bind a name to an expression and then read the name.**

A statement binds the name, or the call of a function binds it as a parameter; then the name stands
in parentheses. Whether a word is a name is decided where it stands: after `let`, and among
parameters, every word is one, but where an operand is awaited four words of the language are not.

* `bindingText`, `callText`: the two texts; `bindingTree`, `callTree`: what they are read as.
* `Reader.ReadsAsName`: a name that is read as one where an operand is awaited.

Main statements: with such a name, both texts are read as they are meant to be, whatever the
expression is (`parse_bindingText`, `parse_callText`); with `fn` or `if` for a name, both are
rejected (`bindingText_rejected`, `callText_rejected`).
-/
import Scriptlet.Proofs.Reader.Expression
import Scriptlet.Proofs.Reader.Rendered
import Scriptlet.Tree.Build

namespace Scriptlet

/-- The text that binds a name to an expression and then reads the name. -/
def bindingText (name expression : String) : String :=
  "let " ++ name ++ " = " ++ expression ++ "; (" ++ name ++ ")"

/-- The text that calls a function of one parameter, which reads it, with an expression. -/
def callText (name expression : String) : String :=
  "fn(" ++ name ++ ") \x7b (" ++ name ++ ") \x7d(" ++ expression ++ ")"

/-- The program that binds a name to an expression and then reads the name. -/
def bindingTree (name : String) (expression : Tree) : Tree :=
  Build.program [Build.binding name expression, Build.statement (Build.identifier name)]

/-- A function of one parameter, which reads it. -/
def readingTree (name : String) : Tree :=
  Build.function [name] (Build.block [Build.statement (Build.identifier name)])

/-- The program that calls such a function with an expression. -/
def callTree (name : String) (expression : Tree) : Tree :=
  Build.program [Build.statement (Build.call (readingTree name) [expression])]

namespace Reader

/-- Where an operand is awaited, the name is read as one. -/
def ReadsAsName (name : String) : Prop :=
  ∀ word, Kind.ofWord? name = some word → word ∉ operandStart

/-- A token that is a name, and has no place. -/
def nameToken (name : String) : Token :=
  ⟨.identifier, name, default, 0⟩

/-- A name other than `true` and `false` is read as one, or it is `fn` or `if`. -/
theorem readsAsName_or {name : String} (noTruth : name ∉ ["true", "false"]) :
    ReadsAsName name ∨ name ∈ ["fn", "if"] := by
  cases word : Kind.ofWord? name with
  | none => exact Or.inl fun other same => by cases word.symm.trans same
  | some kind =>
    have known : ∀ kind ∈ Kind.words, kind ∉ operandStart ∨
        ∀ spelling ∈ kind.spelling?, spelling ∈ ["true", "false"] ∨ spelling ∈ ["fn", "if"] := by
      decide
    have spelled : kind.spelling? = some name := by simpa using List.find?_some word
    rcases known kind (List.mem_of_find?_eq_some word) with apart | starts
    · refine Or.inl fun other same => ?_
      obtain rfl := Option.some.inj (word.symm.trans same)
      exact apart
    · exact Or.inr ((starts name spelled).resolve_left noTruth)

/-! ### What stands before the name that is read -/

section Before

variable {name : String} {rest more : List Char} {next : State}

/-- A name is taken as the first parameter, whatever it spells. -/
theorem Reaches.parameter (isName : IsNameText name.toList) {frames : List Frame}
    (apart : Kind.identifier.Apart (more ++ rest))
    (onward : Reaches rest ⟨frames, .parameter [nameToken name]⟩ more next) :
    Reaches rest ⟨frames, .parametersOpened⟩ (name.toList ++ more) next := by
  have unsought : ∀ word ∈ Kind.words, word ∉ [Kind.identifier, .closeParen] := by decide
  exact @Reaches.name _ _ _ _ _ (nameToken name) rfl isName List.mem_cons_self
    (fun word spelled => unsought word (List.mem_of_find?_eq_some spelled)) rfl apart onward

/-- **A name is bound to an expression**, whatever the name spells. -/
theorem reaches_binding (isName : IsNameText name.toList) {expression : String} {tree : Tree}
    (isExpression : IsExpression expression tree) (closed : ¬ EndsInComment expression) :
    Reaches rest .initial ("let " ++ name ++ " = " ++ expression ++ "; ").toList
      ⟨[.statements [Build.binding name tree]], .separated⟩ := by
  have letters : ("let " ++ name ++ " = " ++ expression ++ "; ").toList =
      (Token.mark .letWord).written ++ ' ' :: (name.toList ++
        ' ' :: '=' :: ' ' :: (expression.toList ++ [';', ' '])) := by
    simp [show (Token.mark .letWord).written = ['l', 'e', 't'] by decide]
  obtain ⟨after, whole, reached⟩ :=
    isExpression.reaches closed (show Ends (';' :: ' ' :: rest) from .cons (by decide) _)
  have ended : (after.above [.binding (nameToken name), .statements []]).take (.mark .semicolon) =
      .next ⟨[.statements [Build.binding name tree]], .separated⟩ :=
    whole.take trivial (by decide) rfl
  rw [letters]
  refine @Reaches.declaring (nameToken name) rfl isName _ _ (Or.inl rfl) _ _ _ ?_
  refine (reached [.binding (nameToken name), .statements []] trivial).append
    (.mark .semicolon rfl ?_ ended .space (.space .refl))
  exact List.contains_iff_mem.mpr (whole.awaited _ (by decide))

/-- **A function of one parameter is begun**, whatever the name spells. -/
theorem reaches_body (isName : IsNameText name.toList) :
    Reaches rest .initial ("fn(" ++ name ++ ") \x7b ").toList
      ⟨[.statements [], .body [nameToken name], .statements []], .opened⟩ := by
  have letters : ("fn(" ++ name ++ ") \x7b ").toList =
      (Token.mark .fnWord).written ++ '(' :: (name.toList ++ [')', ' ', '\x7b', ' ']) := by
    simp [show (Token.mark .fnWord).written = ['f', 'n'] by decide]
  rw [letters]
  refine .token (by decide) (List.contains_iff_mem.mp rfl) rfl (.cons (by decide)) ?_
  refine .mark .openParen rfl rfl rfl
    (((begins_of_isNameText isName).append _).apart (by decide) _) ?_
  refine .parameter isName (.cons (by decide)) ?_
  exact .mark .closeParen rfl rfl rfl .space
    (.space (.mark .openBrace rfl rfl rfl .space (.space .refl)))

end Before

/-! ### Reading the name -/

section Reading

variable {name : String} {rest : List Char} {done : List Tree} {within : List Frame} {point : Point}

/-- Where a statement is awaited, a name in parentheses is read as an expression. -/
theorem Reaches.reading (isName : IsNameText name.toList) (reads : ReadsAsName name)
    (awaits : AwaitsStatement point) (ends : Ends rest) :
    Reaches rest ⟨.statements done :: within, point⟩ ('(' :: (name.toList ++ [')']))
      ⟨.statements done :: within, .complete (Build.identifier name)⟩ := by
  have named := @Reaches.name (')' :: rest) [] ⟨.group :: .statements done :: within, .operand⟩ _ _
    (nameToken name) rfl isName (List.contains_iff_mem.mp rfl) reads rfl (.cons (by decide)) .refl
  rw [List.append_nil] at named
  exact Rendered.parenthesised (Or.inr ⟨awaits, done, within, rfl⟩) ends
    (begins_of_isNameText isName) _ named rfl rfl

/-- There, `fn` and `if` are no names: a parenthesis must be opened after them. -/
theorem Reaches.misreading (word : name ∈ ["fn", "if"]) (awaits : AwaitsStatement point)
    (rest : List Char) : ∃ state, state.awaited = [.openParen] ∧
      Reaches (')' :: rest) ⟨.statements done :: within, point⟩ ('(' :: name.toList) state := by
  obtain ⟨opens, opened⟩ := @Stands.start (.statements done :: within) point (.mark .openParen) _
    (Or.inr ⟨awaits, done, within, rfl⟩) rfl
  have begun : ∀ kind inner, kind ∈ [Kind.fnWord, .ifWord] →
      (∀ frames, startOperand frames (.mark kind) = some ⟨frames, inner⟩) →
      Reaches (')' :: rest) ⟨.statements done :: within, point⟩ ('(' :: (Token.mark kind).written)
        ⟨.group :: .statements done :: within, inner⟩ := by
    intro kind inner isWord started
    have known : ∀ kind ∈ [Kind.fnWord, .ifWord], (Token.mark kind).Plain ∧
        IsNameText (Token.mark kind).written ∧ kind ∉ Kind.marks := by decide
    obtain ⟨plain, isName, noMark⟩ := known kind isWord
    obtain ⟨awaited, taken⟩ := @Stands.start _ .operand _ _ (Or.inl rfl)
      (started (.group :: .statements done :: within))
    have apart : (Token.mark kind).kind.Apart (')' :: rest) := .cons (by
      rw [if_neg (show (Token.mark kind).kind ∉ Kind.marks from noMark)]
      decide)
    have named := @Reaches.token (')' :: rest) [] _ _ _ _ plain awaited taken apart .refl
    rw [List.append_nil] at named
    exact .mark .openParen rfl (List.contains_iff_mem.mpr opens) opened
      ((begins_of_isNameText isName).apart (by decide) _) named
  simp only [List.mem_cons, List.not_mem_nil, or_false] at word
  rcases word with rfl | rfl
  · exact ⟨_, rfl, begun .fnWord .fnWord (by decide) fun _ => rfl⟩
  · exact ⟨_, rfl, begun .ifWord .ifWord (by decide) fun _ => rfl⟩

end Reading

/-! ### Texts that are rejected -/

section Rejected

variable {text : String} {chars rest : List Char} {c : Char} {state : State} {expected : List Kind}

/-- What leads to where nothing that is awaited follows is rejected. -/
theorem Reaches.rejected (reaches : Reaches (c :: rest) .initial chars state)
    (letters : text.toList = chars ++ c :: rest)
    (missed : Lexeme.scan state.awaited.contains (c :: rest) = none) :
    (parse text).isOk = false := by
  obtain ⟨after, advances, alike⟩ := reaches .initial rfl
  have awaited : after.state.awaited = state.awaited := by
    rw [← State.awaited_unplaced, alike, State.awaited_unplaced]
  have stopped : parse text = .error (mismatch after.state after.place c rest) := by
    show Stage.initial.read text.toList = _
    rw [letters, advances.read_eq]
    simp only [Stage.read, readFrom, awaited, missed]
  rw [stopped]
  rfl

/-- So is what leads to where the end is refused. -/
theorem Reaches.rejected_at_end (reaches : Reaches [] .initial text.toList state)
    (refused : state.take ending = .refused expected) : (parse text).isOk = false := by
  obtain ⟨after, advances, alike⟩ := reaches .initial rfl
  have replies : (after.state.take ending).unplaced = .refused expected := by
    rw [← State.take_unplaced, alike, State.take_unplaced, refused]
    rfl
  have ended : parse text = takeEnd after.state after.last := advances.read_all
  rw [ended, takeEnd]
  cases reply : after.state.take ending with
  | refused =>
    have here : after.state.take ⟨.ending, "", default, 0⟩ = _ := reply
    rw [here]
    rfl
  | next | finished =>
    rw [reply] at replies
    cases replies

end Rejected

/-! ### The text that binds a name -/

section Binding

variable {name expression : String} {tree : Tree}

/-- **A name that is bound is read**, whatever the expression is. -/
theorem parse_bindingText (isName : IsNameText name.toList) (reads : ReadsAsName name)
    (isExpression : IsExpression expression tree) (closed : ¬ EndsInComment expression) :
    ∃ read, parse (bindingText name expression) = .ok read ∧
      read.unplaced = (bindingTree name tree).unplaced := by
  have letters : (bindingText name expression).toList =
      ("let " ++ name ++ " = " ++ expression ++ "; ").toList ++ '(' :: (name.toList ++ [')']) := by
    simp [bindingText]
  have reached := (reaches_binding isName isExpression closed).append
    (.reading isName reads (Or.inr rfl) ends_nil)
  rw [← letters] at reached
  exact parse_of_reaches reached rfl

/-- A name that is bound, and is none where it is read, is rejected there. -/
theorem bindingText_rejected (isName : IsNameText name.toList) (word : name ∈ ["fn", "if"])
    (isExpression : IsExpression expression tree) (closed : ¬ EndsInComment expression) :
    (parse (bindingText name expression)).isOk = false := by
  obtain ⟨state, awaited, misread⟩ := Reaches.misreading word (Or.inr rfl) []
  have reached := (reaches_binding isName isExpression closed).append misread
  refine reached.rejected (by simp [bindingText]) ?_
  rw [awaited]
  rfl

/-- **Where the text is accepted, it is read as it is meant to be**, unless the name is `true` or
`false`, or a comment swallows what follows the expression. -/
theorem parse_bindingText_of_isOk (isName : IsNameText name.toList)
    (noTruth : name ∉ ["true", "false"]) (isExpression : IsExpression expression tree)
    (closed : ¬ EndsInComment expression)
    (accepted : (parse (bindingText name expression)).isOk = true) :
    ∃ read, parse (bindingText name expression) = .ok read ∧
      read.unplaced = (bindingTree name tree).unplaced := by
  rcases readsAsName_or noTruth with reads | word
  · exact parse_bindingText isName reads isExpression closed
  · rw [bindingText_rejected isName word isExpression closed] at accepted
    cases accepted

end Binding

/-! ### The text that calls a function -/

section Call

variable {name expression : String} {tree : Tree}

theorem toList_callText (name expression : String) : (callText name expression).toList =
    ("fn(" ++ name ++ ") \x7b (" ++ name ++ ") \x7d(").toList ++ (expression.toList ++ [')']) := by
  simp [callText]

/-- A function that reads its parameter is called, and its argument is awaited. -/
theorem reaches_callee (isName : IsNameText name.toList) (reads : ReadsAsName name)
    {more : List Char} {next : State}
    (onward : Reaches [] ⟨[.arguments (readingTree name) [], .statements []], .operand⟩ more next) :
    Reaches [] .initial (("fn(" ++ name ++ ") \x7b (" ++ name ++ ") \x7d(").toList ++ more)
      next := by
  have letters : ("fn(" ++ name ++ ") \x7b (" ++ name ++ ") \x7d(").toList ++ more =
      ("fn(" ++ name ++ ") \x7b ").toList ++ ('(' :: (name.toList ++ [')']) ++
        ' ' :: '\x7d' :: '(' :: more) := by
    simp
  -- the argument may begin with a comment, so the mark before it need not stand apart
  have opened : Reaches [] ⟨[.body [nameToken name], .statements []],
      .closed (Build.block [Build.statement (Build.identifier name)])⟩ ('(' :: more) next :=
    @Reaches.of_scan _ _ _ _ _ (.mark .openParen) rfl rfl rfl rfl onward
  have closed : Reaches [] ⟨[.statements [], .body [nameToken name], .statements []],
      .complete (Build.identifier name)⟩ (' ' :: '\x7d' :: '(' :: more) next :=
    .space (.mark .closeBrace rfl rfl rfl (.cons (by decide)) opened)
  rw [letters]
  exact (reaches_body isName).append
    ((Reaches.reading isName reads (Or.inl rfl) (.cons (by decide) _)).append closed)

/-- **A parameter is read**, whatever the function is called with. -/
theorem parse_callText (isName : IsNameText name.toList) (reads : ReadsAsName name)
    (isExpression : IsExpression expression tree) (closed : ¬ EndsInComment expression) :
    ∃ read, parse (callText name expression) = .ok read ∧
      read.unplaced = (callTree name tree).unplaced := by
  obtain ⟨after, whole, reached⟩ :=
    isExpression.reaches closed (show Ends [')'] from .cons (by decide) [])
  have awaited := whole.awaited [.arguments (readingTree name) [], .statements []]
    (show Kind.closeParen ∈ afterOperand by decide)
  have ended : (after.above [.arguments (readingTree name) [], .statements []]).take
      (.mark .closeParen) =
        .next ⟨[.statements []], .complete (Build.call (readingTree name) [tree])⟩ :=
    whole.take trivial (by decide) rfl
  have closing : Reaches [] (after.above [.arguments (readingTree name) [], .statements []]) [')']
      ⟨[.statements []], .complete (Build.call (readingTree name) [tree])⟩ :=
    .mark .closeParen rfl (List.contains_iff_mem.mpr awaited) ended .nil .refl
  have called := reaches_callee isName reads
    ((reached [.arguments (readingTree name) [], .statements []] trivial).append closing)
  rw [← toList_callText] at called
  exact parse_of_reaches called rfl

/-- A parameter that is no name where it is read is rejected there. -/
theorem callText_rejected (isName : IsNameText name.toList) (word : name ∈ ["fn", "if"])
    (expression : String) : (parse (callText name expression)).isOk = false := by
  obtain ⟨state, awaited, misread⟩ := Reaches.misreading word (Or.inl rfl)
    (' ' :: '\x7d' :: '(' :: (expression.toList ++ [')']))
  have reached := (reaches_body isName).append misread
  refine reached.rejected (by simp [callText]) ?_
  rw [awaited]
  rfl

/-- A call whose closing parenthesis a comment swallows is rejected at the end. -/
theorem callText_rejected_at_end (isName : IsNameText name.toList) (reads : ReadsAsName name)
    (isExpression : IsExpression expression tree) (opened : EndsInComment expression) :
    (parse (callText name expression)).isOk = false := by
  obtain ⟨after, whole, reached⟩ :=
    isExpression.reaches_swallowing opened (show '\n' ∉ [')'] by decide)
  have refused : (after.above [.arguments (readingTree name) [], .statements []]).take ending =
      .refused [.comma, .closeParen] := whole.take trivial (by decide) rfl
  have called := reaches_callee isName reads
    (reached [.arguments (readingTree name) [], .statements []] trivial)
  rw [← toList_callText] at called
  exact called.rejected_at_end refused

/-- **Where the text is accepted, it is read as it is meant to be**, unless the name is `true` or
`false`. -/
theorem parse_callText_of_isOk (isName : IsNameText name.toList)
    (noTruth : name ∉ ["true", "false"]) (isExpression : IsExpression expression tree)
    (accepted : (parse (callText name expression)).isOk = true) :
    ∃ read, parse (callText name expression) = .ok read ∧
      read.unplaced = (callTree name tree).unplaced := by
  rcases readsAsName_or noTruth with reads | word
  · by_cases opened : EndsInComment expression
    · rw [callText_rejected_at_end isName reads isExpression opened] at accepted
      cases accepted
    · exact parse_callText isName reads isExpression opened
  · rw [callText_rejected isName word expression] at accepted
    cases accepted

end Call

end Reader

end Scriptlet
