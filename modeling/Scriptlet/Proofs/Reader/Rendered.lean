/-
**What is rendered is read again.**

* `Begins`: a text that starts with neither an equals sign nor a slash.
* `Reader.Rendered`: an expression has a text, from which it is read wherever an operand may stand.

Main statements: every expression without blocks is rendered so, by induction on its shape, with one
lemma for each kind of expression; statements follow one another (`reaches_statements`); and so the
text of a program without blocks is read as this program (`parse_render`).
-/
import Scriptlet.Proofs.Reader.Reaches
import Scriptlet.Proofs.Tree.Blockless
import Scriptlet.Tree.Render

namespace Scriptlet

/-- A plain token of a kind with one spelling is written so. -/
theorem Token.Plain.text_eq {token : Token} (plain : token.Plain) {spelling : String}
    (spelled : token.kind.spelling? = some spelling) : token.text = spelling := by
  rcases plain with ⟨kind, -⟩ | ⟨kind, -⟩ | ⟨kind, -⟩ | own
  · simp [kind, Kind.spelling?] at spelled
  · simp [kind, Kind.spelling?] at spelled
  · simp [kind, Kind.spelling?] at spelled
  · exact Option.some.inj (own.symm.trans spelled)

namespace Reader

open Scriptlet.Tree (Blockless render renderAll renderPair renderPairs)

/-- A text that starts with neither an equals sign nor a slash. -/
def Begins (chars : List Char) : Prop :=
  ∃ c more, chars = c :: more ∧ c ≠ '=' ∧ c ≠ '/'

/-- Such a text goes on with no mark. -/
theorem Begins.apart {chars : List Char} (begins : Begins chars) {kind : Kind}
    (mark : kind ∈ Kind.marks) (rest : List Char) : kind.Apart (chars ++ rest) := by
  obtain ⟨c, more, rfl, others⟩ := begins
  exact .cons (by rwa [if_pos mark])

theorem Begins.append {chars : List Char} (begins : Begins chars) (more : List Char) :
    Begins (chars ++ more) := by
  obtain ⟨c, rest, rfl, others⟩ := begins
  exact ⟨c, rest ++ more, rfl, others⟩

/-! ### Texts of several trees -/

/-- Items with commas and a closing mark start with neither an equals sign nor a slash. -/
theorem begins_listed {texts : List String} (each : ∀ text ∈ texts, Begins text.toList)
    {close : Char} (other : close ≠ '=' ∧ close ≠ '/') :
    Begins ((", ".intercalate texts).toList ++ [close]) := by
  rw [String.toList_intercalate]
  cases texts with
  | nil => exact ⟨close, [], rfl, other⟩
  | cons text texts =>
    have first := each text List.mem_cons_self
    cases texts with
    | nil => simpa using first.append _
    | cons second texts =>
      rw [List.map_cons, List.map_cons, List.intercalate_cons_cons]
      simpa using first.append _

/-- The texts of several trees. -/
theorem exists_texts {item : Tree → Except Fault String} {holds : Tree → String → Prop}
    {trees : List Tree} (each : ∀ tree ∈ trees, ∃ text, item tree = .ok text ∧ holds tree text) :
    ∃ texts, trees.mapM item = .ok texts ∧ List.Forall₂ holds trees texts := by
  induction trees with
  | nil => exact ⟨[], rfl, .nil⟩
  | cons tree rest ih =>
    obtain ⟨⟨text, here, held⟩, others⟩ := List.forall_mem_cons.mp each
    obtain ⟨texts, made, all⟩ := ih others
    refine ⟨text :: texts, ?_, .cons held all⟩
    rw [List.mapM_cons, here, made]
    rfl

theorem renderAll_eq_mapM (trees : List Tree) : renderAll trees = trees.mapM render := by
  induction trees with
  | nil => rfl
  | cons tree rest ih =>
    rw [renderAll, ih, List.mapM_cons]

theorem renderPairs_eq_mapM (trees : List Tree) : renderPairs trees = trees.mapM renderPair := by
  induction trees with
  | nil => rfl
  | cons tree rest ih =>
    rw [renderPairs, ih, List.mapM_cons]

/-- Each of the texts begins as that of its item does. -/
theorem begins_of_mem {item : Type} {holds : item → String → Prop} {items : List item}
    {texts : List String} (all : List.Forall₂ holds items texts)
    (begins : ∀ item text, holds item text → Begins text.toList) :
    ∀ text ∈ texts, Begins text.toList := by
  induction all with
  | nil => exact fun text member => by cases member
  | cons here _ ih => exact List.forall_mem_cons.mpr ⟨begins _ _ here, ih⟩

/-! ### Expressions -/

/-- An expression has a text, from which it is read wherever an operand may stand. -/
structure Rendered (tree : Tree) (text : String) : Prop where
  renders : tree.render = .ok text
  begins : Begins text.toList
  reaches : ∀ {frames point rest}, Stands ⟨frames, point⟩ → Ends rest →
    Reaches rest ⟨frames, point⟩ text.toList ⟨frames, .complete tree⟩

namespace Rendered

variable {left right : Tree} {text text' : String}

/-- A token that is an operand by itself. -/
theorem of_token {label : Label} {token : Token} (plain : token.Plain)
    (renders : (Tree.node label [.leaf token]).render = .ok text)
    (written : text.toList = token.written) (begins : Begins token.written)
    (started : ∀ frames, startOperand frames token =
      some ⟨frames, .complete (.node label [.leaf token])⟩) :
    Rendered (.node label [.leaf token]) text where
  renders := renders
  begins := written ▸ begins
  reaches stands ends := by
    obtain ⟨awaited, taken⟩ := stands.start (started _)
    have reached := Reaches.token plain awaited taken (ends.apart _) .refl
    rwa [List.append_nil, ← written] at reached

/-- What stands between parentheses is an operand once they are closed. -/
theorem parenthesised {frames : List Frame} {point : Point} {rest inner : List Char} {tree : Tree}
    (stands : Stands ⟨frames, point⟩) (ends : Ends rest) (begins : Begins inner) (state : State)
    (reaches : Reaches (')' :: rest) ⟨.group :: frames, .operand⟩ inner state)
    (awaited : state.awaited.contains .closeParen = true)
    (taken : state.take (.mark .closeParen) = .next ⟨frames, .complete tree⟩) :
    Reaches rest ⟨frames, point⟩ ('(' :: (inner ++ [')'])) ⟨frames, .complete tree⟩ := by
  obtain ⟨opens, opened⟩ := @Stands.start _ _ (.mark .openParen) _ stands rfl
  refine .mark .openParen rfl (List.contains_iff_mem.mpr opens) opened ?_ ?_
  · exact (begins.append _).apart (by decide) rest
  · exact reaches.append (.mark .closeParen rfl awaited taken (ends.apart _) .refl)

theorem unary {operator : Token} (kind : operator.kind = .bang ∨ operator.kind = .minus)
    (plain : operator.Plain) (rendered : Rendered right text) :
    Rendered (.node .unary [.leaf operator, right]) ("(" ++ operator.text ++ text ++ ")") := by
  have mark : operator.kind ∈ Kind.marks := by
    rcases kind with kind | kind <;> simp [kind, Kind.marks]
  have written : operator.written = operator.text.toList :=
    Token.Plain.written_of_ne (by rcases kind with kind | kind <;> simp [kind])
  have begins : Begins operator.written := by
    rcases kind with kind | kind
    · rw [written, plain.text_eq (by rw [kind]; rfl)]
      exact ⟨'!', [], rfl, by decide⟩
    · rw [written, plain.text_eq (by rw [kind]; rfl)]
      exact ⟨'-', [], rfl, by decide⟩
  have letters : ("(" ++ operator.text ++ text ++ ")").toList =
      '(' :: (operator.written ++ text.toList ++ [')']) := by
    simp [written]
  refine ⟨?_, ⟨'(', _, letters, by decide⟩, fun {frames} _ _ stands ends => ?_⟩
  · simp only [render, rendered.renders]
    rfl
  rw [letters]
  refine parenthesised stands ends (begins.append _)
    ⟨.unary operator :: .group :: frames, .complete right⟩ ?_ rfl rfl
  have started : startOperand (.group :: frames) operator =
      some ⟨.unary operator :: .group :: frames, .operand⟩ := by
    rcases kind with kind | kind <;> simp only [startOperand, kind]
  obtain ⟨awaited, taken⟩ := @Stands.start _ .operand _ _ (Or.inl rfl) started
  refine .token plain awaited taken (rendered.begins.apart mark _) ?_
  exact rendered.reaches (Or.inl rfl) (.cons (by decide) _)

theorem binary {operator : Token} (binds : 0 < strength operator.kind) (plain : operator.Plain)
    (rendered : Rendered left text) (rendered' : Rendered right text') :
    Rendered (.node .binary [left, .leaf operator, right])
      ("(" ++ text ++ " " ++ operator.text ++ " " ++ text' ++ ")") := by
  have among := mem_binaryKinds binds
  obtain ⟨follows, -⟩ := binaryKinds_spec _ among
  have written : operator.written = operator.text.toList := by
    refine Token.Plain.written_of_ne fun string => ?_
    rw [string] at binds
    cases binds
  have letters : ("(" ++ text ++ " " ++ operator.text ++ " " ++ text' ++ ")").toList =
      '(' :: (text.toList ++ ' ' :: (operator.written ++ ' ' :: text'.toList) ++ [')']) := by
    simp [written]
  refine ⟨?_, ⟨'(', _, letters, by decide⟩, fun {frames} _ _ stands ends => ?_⟩
  · simp only [render, rendered.renders, rendered'.renders]
    rfl
  rw [letters]
  have taken : (⟨.group :: frames, .complete left⟩ : State).take operator =
      .next ⟨.binary left operator :: .group :: frames, .operand⟩ :=
    endOperand_operator binds trivial
  have closed : (⟨.binary left operator :: .group :: frames, .complete right⟩ : State).take
      (.mark .closeParen) =
        .next ⟨frames, .complete (.node .binary [left, .leaf operator, right])⟩ := by
    have absorbed := @absorb_of_le 0 left right operator (.group :: frames) (Nat.zero_le _)
    show endExpression (absorb 0 (.binary left operator :: .group :: frames) right).1
      (absorb 0 (.binary left operator :: .group :: frames) right).2 (.mark .closeParen) = _
    rw [absorbed]
    rfl
  refine parenthesised stands ends (rendered.begins.append _)
    ⟨.binary left operator :: .group :: frames, .complete right⟩ ?_ rfl closed
  refine (rendered.reaches (Or.inl rfl) (.cons (by decide) _)).append ?_
  refine .space (.token plain follows taken .space (.space ?_))
  exact rendered'.reaches (Or.inl rfl) (.cons (by decide) _)

theorem index (rendered : Rendered left text) (rendered' : Rendered right text') :
    Rendered (.node .index [left, right]) ("(" ++ text ++ "[" ++ text' ++ "])") := by
  have letters : ("(" ++ text ++ "[" ++ text' ++ "])").toList =
      '(' :: (text.toList ++ '[' :: (text'.toList ++ [']']) ++ [')']) := by
    simp
  refine ⟨?_, ⟨'(', _, letters, by decide⟩, fun {frames} _ _ stands ends => ?_⟩
  · simp only [render, rendered.renders, rendered'.renders]
    rfl
  rw [letters]
  refine parenthesised stands ends (rendered.begins.append _)
    ⟨.group :: frames, .complete (.node .index [left, right])⟩ ?_ rfl rfl
  refine (rendered.reaches (Or.inl rfl) (.cons (by decide) _)).append ?_
  refine .mark .openBracket rfl rfl rfl ((rendered'.begins.append _).apart (by decide) _) ?_
  refine (rendered'.reaches (Or.inl rfl) (.cons (by decide) _)).append ?_
  exact .mark .closeBracket rfl rfl rfl (.cons (by decide)) .refl

/-- An expression is an item of a list. -/
theorem listed {tree : Tree} (rendered : Rendered tree text) {frames : List Tree → List Frame}
    {finish : List Tree → State} {c : Char} (close : Kind)
    (spelled : close.spelling?.map String.toList = some [c])
    (awaited : afterOperand.contains close = true)
    (stops : isNamePart c = false ∧ c ≠ '=' ∧ c ≠ '/')
    (comma : ∀ done, (⟨frames done, .complete tree⟩ : State).take (.mark .comma) =
      .next ⟨frames (done ++ [tree]), .operand⟩)
    (closed : ∀ done, (⟨frames done, .complete tree⟩ : State).take (.mark close) =
      .next (finish (done ++ [tree]))) :
    Listed (fun done => ⟨frames done, .operand⟩) finish c tree text where
  comma :=
    (rendered.reaches (Or.inl rfl) (.cons (by decide) _)).append
      (.mark .comma rfl rfl (comma _) .space .refl)
  closed ends :=
    (rendered.reaches (Or.inl rfl) (.cons stops _)).append
      (.mark close spelled (by exact awaited) (closed _) (ends.apart _) .refl)

theorem array {elements : List Tree} {texts : List String}
    (renders : renderAll elements = .ok texts) (all : List.Forall₂ Rendered elements texts) :
    Rendered (.node .array elements) ("[" ++ ", ".intercalate texts ++ "]") := by
  have letters : ("[" ++ ", ".intercalate texts ++ "]").toList =
      '[' :: ((", ".intercalate texts).toList ++ [']']) := by
    simp
  refine ⟨?_, ⟨'[', _, letters, by decide⟩, fun {frames} _ _ stands ends => ?_⟩
  · simp only [render, renders]
    rfl
  rw [letters]
  obtain ⟨opens, opened⟩ := @Stands.start _ _ (.mark .openBracket) _ stands rfl
  refine .mark .openBracket rfl (List.contains_iff_mem.mpr opens) opened ?_ ?_
  · exact (begins_listed (begins_of_mem all fun _ _ => begins) (by decide)).apart (by decide) _
  · have each : List.Forall₂ (Listed (fun done => ⟨.array done :: frames, .operand⟩)
        (fun done => ⟨frames, .complete (.node .array done)⟩) ']') elements texts :=
      all.imp fun tree text rendered =>
        rendered.listed .closeBracket rfl rfl (by decide) (fun _ => rfl) fun _ => rfl
    exact reaches_enclosed ends each (.mark .closeBracket rfl rfl rfl (ends.apart _) .refl)

theorem call {callee : Tree} {arguments : List Tree} {texts : List String}
    (rendered : Rendered callee text) (renders : renderAll arguments = .ok texts)
    (all : List.Forall₂ Rendered arguments texts) :
    Rendered (.node .call [callee, .node .arguments arguments])
      (text ++ "(" ++ ", ".intercalate texts ++ ")") := by
  have letters : (text ++ "(" ++ ", ".intercalate texts ++ ")").toList =
      text.toList ++ '(' :: ((", ".intercalate texts).toList ++ [')']) := by
    simp
  refine ⟨?_, letters ▸ rendered.begins.append _, fun {frames} _ _ stands ends => ?_⟩
  · simp only [render, Tree.renderChildren, rendered.renders, renders]
    rfl
  rw [letters]
  refine (rendered.reaches stands (.cons (by decide) _)).append ?_
  refine .mark .openParen rfl rfl rfl ?_ ?_
  · exact (begins_listed (begins_of_mem all fun _ _ => begins) (by decide)).apart (by decide) _
  · have each : List.Forall₂ (Listed (fun done => ⟨.arguments callee done :: frames, .operand⟩)
        (fun done => ⟨frames, .complete (.node .call [callee, .node .arguments done])⟩) ')')
          arguments texts :=
      all.imp fun tree text rendered =>
        rendered.listed .closeParen rfl rfl (by decide) (fun _ => rfl) fun _ => rfl
    exact reaches_enclosed ends each (.mark .closeParen rfl rfl rfl (ends.apart _) .refl)

/-- A key and its value are an item of a hash. -/
theorem listed_pair {key value : Tree} (rendered : Rendered key text)
    (rendered' : Rendered value text') (frames : List Frame) :
    Listed (fun done => ⟨.key done :: frames, .operand⟩)
      (fun done => ⟨frames, .complete (.node .hash done)⟩) '\x7d' (.node .pair [key, value])
      (text ++ ":" ++ text') := by
  have letters : (text ++ ":" ++ text').toList = text.toList ++ ':' :: text'.toList := by simp
  have both : ∀ {done rest}, Ends rest → Reaches rest ⟨.key done :: frames, .operand⟩
      (text ++ ":" ++ text').toList ⟨.value done key :: frames, .complete value⟩ := by
    intro done rest ends
    rw [letters]
    refine (rendered.reaches (Or.inl rfl) (.cons (by decide) _)).append ?_
    refine .mark .colon rfl rfl rfl (rendered'.begins.apart (by decide) _) ?_
    exact rendered'.reaches (Or.inl rfl) ends
  exact
    { comma := (both (.cons (by decide) _)).append (.mark .comma rfl rfl rfl .space .refl)
      closed := fun ends =>
        (both (.cons (by decide) _)).append (.mark .closeBrace rfl rfl rfl (ends.apart _) .refl) }

/-- A tree is a key and a value, rendered with a colon between them. -/
inductive OfPair : Tree → String → Prop
  | intro {key value : Tree} {text text' : String} : Rendered key text → Rendered value text' →
      OfPair (.node .pair [key, value]) (text ++ ":" ++ text')

theorem OfPair.renders {tree : Tree} (pair : OfPair tree text) : renderPair tree = .ok text := by
  obtain ⟨key, value⟩ := pair
  simp only [renderPair, key.renders, value.renders]
  rfl

theorem OfPair.begins {tree : Tree} (pair : OfPair tree text) : Begins text.toList := by
  obtain ⟨key, value⟩ := pair
  rw [String.toList_append, String.toList_append]
  exact (key.begins.append _).append _

theorem hash {pairs : List Tree} {texts : List String} (renders : renderPairs pairs = .ok texts)
    (all : List.Forall₂ OfPair pairs texts) :
    Rendered (.node .hash pairs) ("\x7b" ++ ", ".intercalate texts ++ "\x7d") := by
  have letters : ("\x7b" ++ ", ".intercalate texts ++ "\x7d").toList =
      '\x7b' :: ((", ".intercalate texts).toList ++ ['\x7d']) := by
    simp
  refine ⟨?_, ⟨'\x7b', _, letters, by decide⟩, fun {frames} _ _ stands ends => ?_⟩
  · simp only [render, renders]
    rfl
  rw [letters]
  obtain ⟨opens, opened⟩ := @Stands.start _ _ (.mark .openBrace) _ stands rfl
  refine .mark .openBrace rfl (List.contains_iff_mem.mpr opens) opened ?_ ?_
  · exact (begins_listed (begins_of_mem all fun _ _ => OfPair.begins) (by decide)).apart
      (by decide) _
  · have each : List.Forall₂ (Listed (fun done => ⟨.key done :: frames, .operand⟩)
        (fun done => ⟨frames, .complete (.node .hash done)⟩) '\x7d') pairs texts :=
      all.imp fun _ _ pair => by
        obtain ⟨key, value⟩ := pair
        exact key.listed_pair value frames
    exact reaches_enclosed ends each (.mark .closeBrace rfl rfl rfl (ends.apart _) .refl)

end Rendered

/-! ### Trees without blocks -/

/-- Expressions and pairs are rendered so that they are read again. -/
def Comes : Role → Tree → Prop
  | .expression, tree => ∃ text, Rendered tree text
  | .pair, tree => ∃ text, Rendered.OfPair tree text
  | _, _ => True

/-- A name starts with neither an equals sign nor a slash. -/
theorem begins_of_isNameText {chars : List Char} (name : IsNameText chars) : Begins chars := by
  obtain ⟨first, rest, rfl⟩ := name.exists_cons
  refine ⟨first, rest, rfl, ?_, ?_⟩ <;>
    · rintro rfl
      exact absurd name.1 (by decide)

/-- A token that is an operand by itself starts with neither an equals sign nor a slash. -/
theorem begins_of_plain {token : Token} (plain : token.Plain)
    (operand : token.kind ∈ [.identifier, .integer, .string, .trueWord, .falseWord]) :
    Begins token.written := by
  rcases plain with ⟨kind, name, -⟩ | ⟨kind, some_, -, each, -⟩ | ⟨kind, -⟩ | spelled
  · rw [Token.Plain.written_of_ne (by simp [kind])]
    exact begins_of_isNameText name
  · rw [Token.Plain.written_of_ne (by simp [kind])]
    obtain ⟨first, rest, letters⟩ := List.exists_cons_of_length_pos some_
    have digit := each first (by simp [letters])
    refine ⟨first, rest, letters, ?_, ?_⟩ <;>
      · rintro rfl
        exact absurd digit (by decide)
  · rw [Token.written, if_pos kind]
    exact ⟨_, _, rfl, by decide⟩
  · have word : token.kind.isWord = true := by
      simp only [List.mem_cons, List.not_mem_nil, or_false] at operand
      rcases operand with kind | kind | kind | kind | kind <;> rw [kind] at spelled ⊢ <;>
        first | rfl | cases spelled
    rw [Token.Plain.written_of_ne fun kind => by simp [kind, Kind.isWord, Kind.words] at word]
    exact begins_of_isNameText (Kind.isNameText_of_isWord word spelled).1

/-- **Every expression without blocks is read again from its text.** -/
theorem comes_of_blockless {role : Role} {tree : Tree} (blockless : tree.Blockless role) :
    Comes role tree := by
  have several : ∀ {trees : List Tree}, (∀ part ∈ trees, Comes .expression part) →
      ∃ texts, renderAll trees = .ok texts ∧ List.Forall₂ Rendered trees texts := by
    intro trees each
    rw [renderAll_eq_mapM]
    exact exists_texts fun part member =>
      (each part member).imp fun _ rendered => ⟨rendered.renders, rendered⟩
  induction blockless with
  | @integer literal kind plain =>
    have written : literal.written = _ := Token.Plain.written_of_ne (by simp [kind])
    refine ⟨literal.text, .of_token plain rfl written.symm (begins_of_plain plain (by simp [kind]))
      fun frames => ?_⟩
    simp only [startOperand, kind]
  | @string literal kind plain =>
    have written : literal.written = _ := if_pos kind
    refine ⟨"\"" ++ literal.text ++ "\"", .of_token plain rfl ?_
      (begins_of_plain plain (by simp [kind])) fun frames => ?_⟩
    · rw [written]
      simp [Text.doubleMark]
    · simp only [startOperand, kind]
  | @boolean literal kind plain =>
    have written : literal.written = _ :=
      Token.Plain.written_of_ne (by rcases kind with kind | kind <;> simp [kind])
    refine ⟨literal.text, .of_token plain rfl written.symm (begins_of_plain plain ?_)
      fun frames => ?_⟩
    · rcases kind with kind | kind <;> simp [kind]
    · rcases kind with kind | kind <;> simp only [startOperand, kind]
  | @identifier name kind plain =>
    have written : name.written = _ := Token.Plain.written_of_ne (by simp [kind])
    refine ⟨name.text, .of_token plain rfl written.symm (begins_of_plain plain (by simp [kind]))
      fun frames => ?_⟩
    simp only [startOperand, kind]
  | unary kind plain _ ih =>
    obtain ⟨text, rendered⟩ := ih
    exact ⟨_, rendered.unary kind plain⟩
  | binary binds plain _ _ ih ih' =>
    obtain ⟨text, rendered⟩ := ih
    obtain ⟨text', rendered'⟩ := ih'
    exact ⟨_, rendered.binary binds plain rendered'⟩
  | call _ _ ih each =>
    obtain ⟨text, rendered⟩ := ih
    obtain ⟨texts, renders, all⟩ := several each
    exact ⟨_, rendered.call renders all⟩
  | index _ _ ih ih' =>
    obtain ⟨text, rendered⟩ := ih
    obtain ⟨text', rendered'⟩ := ih'
    exact ⟨_, rendered.index rendered'⟩
  | array _ each =>
    obtain ⟨texts, renders, all⟩ := several each
    exact ⟨_, .array renders all⟩
  | hash _ each =>
    obtain ⟨texts, renders, all⟩ := exists_texts fun part member =>
      (each part member).imp fun _ (pair : Rendered.OfPair part _) => ⟨pair.renders, pair⟩
    exact ⟨_, .hash ((renderPairs_eq_mapM _).trans renders) all⟩
  | pair _ _ ih ih' =>
    obtain ⟨text, rendered⟩ := ih
    obtain ⟨text', rendered'⟩ := ih'
    exact ⟨_, .intro rendered rendered'⟩
  | binding | returning | program | closing => trivial

/-! ### Statements -/

/-- A statement has a text that ends in a semicolon, from which it is read after other statements.
-/
structure RenderedStatement (tree : Tree) (text : String) : Prop where
  renders : tree.render = .ok text
  begins : Begins text.toList
  reaches : ∀ {done point rest}, AwaitsStatement point → Kind.semicolon.Apart rest →
    Reaches rest ⟨[.statements done], point⟩ text.toList
      ⟨[.statements (done ++ [tree])], .separated⟩

/-- A word that starts a statement is taken between statements. -/
theorem Reaches.word {kind : Kind} (starts : kind = .letWord ∨ kind = .returnWord)
    {done : List Tree} {point : Point} (awaits : AwaitsStatement point) {more rest : List Char}
    {middle next : State} (taken : takeStatement done [] (.mark kind) = .next middle)
    (onward : Reaches rest middle more next) :
    Reaches rest ⟨[.statements done], point⟩ ((Token.mark kind).written ++ ' ' :: more) next := by
  have plain : (Token.mark kind).Plain := by rcases starts with rfl | rfl <;> decide
  refine .token plain ?_ ?_ .space (.space onward)
  · rcases starts with rfl | rfl <;> rcases awaits with rfl | rfl <;>
      exact List.contains_iff_mem.mp rfl
  · rcases awaits with rfl | rfl <;> exact taken

/-- A statement that binds a name leads to where its value is awaited; the name may even be a word
of the language. -/
theorem Reaches.declaring {name : Token} (kind : name.kind = .identifier)
    (isName : IsNameText name.text.toList) {done : List Tree} {point : Point}
    (awaits : AwaitsStatement point) {more rest : List Char} {next : State}
    (onward : Reaches rest ⟨[.binding name, .statements done], .operand⟩ more next) :
    Reaches rest ⟨[.statements done], point⟩
      ((Token.mark .letWord).written ++ ' ' :: (name.text.toList ++ ' ' :: '=' :: ' ' :: more))
      next := by
  have unsought : ∀ word ∈ Kind.words, word ∉ [Kind.identifier] := by decide
  have named : Reaches rest ⟨[.statements done], .letName name⟩ (' ' :: '=' :: ' ' :: more) next :=
    .space (.mark .assign rfl rfl rfl .space (.space onward))
  refine .word (Or.inl rfl) awaits rfl (.name kind isName List.mem_cons_self ?_ ?_ .space named)
  · exact fun word spelled => unsought word (List.mem_of_find?_eq_some spelled)
  · simp only [State.take, kind]

namespace RenderedStatement

variable {value : Tree} {text : String}

theorem binding {name : Token} (kind : name.kind = .identifier)
    (isName : IsNameText name.text.toList) (rendered : Rendered value text) :
    RenderedStatement (.node .letStatement [.leaf name, value])
      ("let " ++ name.text ++ " = " ++ text ++ ";") := by
  have letters : ("let " ++ name.text ++ " = " ++ text ++ ";").toList =
      (Token.mark .letWord).written ++ ' ' :: (name.text.toList ++
        ' ' :: '=' :: ' ' :: (text.toList ++ [';'])) := by
    simp [show (Token.mark .letWord).written = ['l', 'e', 't'] by decide]
  refine ⟨?_, ⟨'l', _, letters, by decide⟩, fun {done} _ _ awaits apart => ?_⟩
  · simp only [render, rendered.renders]
    rfl
  rw [letters]
  refine .declaring kind isName awaits ?_
  refine (rendered.reaches (Or.inl rfl) (.cons (by decide) _)).append ?_
  exact .mark .semicolon rfl rfl rfl apart .refl

theorem returning (rendered : Rendered value text) :
    RenderedStatement (.node .returnStatement [value]) ("return " ++ text ++ ";") := by
  have letters : ("return " ++ text ++ ";").toList =
      (Token.mark .returnWord).written ++ ' ' :: (text.toList ++ [';']) := by
    simp [show (Token.mark .returnWord).written = ['r', 'e', 't', 'u', 'r', 'n'] by decide]
  refine ⟨?_, ⟨'r', _, letters, by decide⟩, fun {done} _ _ awaits apart => ?_⟩
  · simp only [render, rendered.renders]
    rfl
  rw [letters]
  refine .word (Or.inr rfl) awaits rfl ?_
  refine (rendered.reaches (Or.inl rfl) (.cons (by decide) _)).append ?_
  exact .mark .semicolon rfl rfl rfl apart .refl

/-- Statements without blocks are rendered so. -/
theorem of_blockless {tree : Tree} (blockless : tree.Blockless .statement) :
    ∃ text, RenderedStatement tree text := by
  cases blockless with
  | binding kind isName value =>
    obtain ⟨text, rendered⟩ := comes_of_blockless value
    exact ⟨_, binding kind isName rendered⟩
  | returning value =>
    obtain ⟨text, rendered⟩ := comes_of_blockless value
    exact ⟨_, returning rendered⟩

end RenderedStatement

/-- Where a text begins or ends, a semicolon may stand before it. -/
theorem apart_semicolon {chars : List Char} (begins : chars = [] ∨ Begins chars) :
    Kind.semicolon.Apart chars := by
  rcases begins with rfl | begins
  · exact .nil
  · simpa using begins.apart (by decide) []

/-- **Statements are read one after another.** -/
theorem reaches_statements {statements : List Tree} {texts : List String}
    (each : List.Forall₂ RenderedStatement statements texts) {rest : List Char}
    (begins : rest = [] ∨ Begins rest) (done : List Tree) {point : Point}
    (awaits : AwaitsStatement point) : ∃ point', AwaitsStatement point' ∧
      Reaches rest ⟨[.statements done], point⟩ (texts.flatMap String.toList)
        ⟨[.statements (done ++ statements)], point'⟩ := by
  induction each generalizing done point with
  | nil => exact ⟨point, awaits, by simpa using .refl⟩
  | @cons statement text statements texts here others ih =>
    obtain ⟨point', awaits', reached⟩ := ih (done ++ [statement]) (Or.inr rfl)
    have follows : Kind.semicolon.Apart (texts.flatMap String.toList ++ rest) := by
      refine apart_semicolon ?_
      cases others with
      | nil => exact begins
      | cons second _ => exact Or.inr ((second.begins.append _).append _)
    refine ⟨point', awaits', ?_⟩
    rw [List.flatMap_cons]
    simpa using (here.reaches awaits follows).append reached

/-- What is read from the start to where a program is finished is that program. -/
theorem parse_of_reaches {text : String} {state : State} {program : Tree}
    (reaches : Reaches [] .initial text.toList state)
    (done : state.take ending = .finished program) :
    ∃ read, parse text = .ok read ∧ read.unplaced = program.unplaced := by
  obtain ⟨after, advances, alike⟩ := reaches .initial rfl
  obtain ⟨read, ended, same⟩ := takeEnd_of_unplaced alike done after.last
  exact ⟨read, advances.read_all.trans ended, same⟩

/-- **A program without blocks is read from its text.** -/
theorem parse_render {tree : Tree} (blockless : tree.Blockless .program) :
    ∃ text read, tree.render = .ok text ∧ parse text = .ok read ∧
      read.unplaced = tree.unplaced := by
  have several : ∀ {statements : List Tree},
      (∀ part ∈ statements, part.Blockless .statement) →
        ∃ texts, renderAll statements = .ok texts ∧
          List.Forall₂ RenderedStatement statements texts := by
    intro statements each
    rw [renderAll_eq_mapM]
    exact exists_texts fun part member =>
      (RenderedStatement.of_blockless (each part member)).imp fun _ rendered =>
        ⟨rendered.renders, rendered⟩
  cases blockless with
  | program each =>
    obtain ⟨texts, renders, all⟩ := several each
    obtain ⟨point, awaits, reached⟩ := reaches_statements all (Or.inl rfl) [] (Or.inl rfl)
    rw [← String.toList_join] at reached
    obtain ⟨read, parsed, same⟩ :=
      parse_of_reaches reached (by rcases awaits with rfl | rfl <;> rfl)
    exact ⟨_, read, by rw [render, renders]; rfl, parsed, same⟩
  | @closing statements last each blockless =>
    obtain ⟨texts, renders, all⟩ := several each
    obtain ⟨text, rendered⟩ := comes_of_blockless blockless
    obtain ⟨point, awaits, reached⟩ :=
      reaches_statements all (Or.inr rendered.begins) [] (Or.inl rfl)
    have stands : Stands ⟨[.statements statements], point⟩ := Or.inr ⟨awaits, _, _, rfl⟩
    have ends : Ends [] := fun c member => by cases member
    have operand := rendered.reaches stands ends
    have whole := Reaches.append (by rwa [List.append_nil]) operand
    rw [← String.toList_join, ← String.toList_append] at whole
    obtain ⟨read, parsed, same⟩ := parse_of_reaches whole rfl
    have listed : renderAll (statements ++ [.node .expressionStatement [last]]) =
        .ok (texts ++ [text]) := by
      rw [renderAll_eq_mapM, List.mapM_append, ← renderAll_eq_mapM, renders]
      simp only [List.mapM_cons, List.mapM_nil, render, rendered.renders]
      rfl
    have joined : String.join (texts ++ [text]) = String.join texts ++ text := by simp
    refine ⟨_, read, ?_, parsed, same⟩
    rw [render, listed, ← joined]
    rfl

end Reader

end Scriptlet
