/-
**What is printed is read again.**

Main statement: `parse_printed`, the text of every program whose tokens can be written is read as
this program, places aside. The tokens of the printed text are those the program is spelled in
(`advances_of_spaced`), which are read as the program (`reads_spelled`), whatever their places are
(`State.take_unplaced`).
-/
import Scriptlet.Proofs.Reader.Advances
import Scriptlet.Proofs.Reader.Completeness
import Scriptlet.Proofs.Reader.Places
import Scriptlet.Proofs.Token.Apart
import Scriptlet.Tree.Build

namespace Scriptlet

/-! ### The tokens of a program -/

namespace Tree

variable {holds : Token → Prop}

/-- A property of the tokens of an operand and of parentheses. -/
theorem forall_mem_guarded (opens : holds (.mark .openParen)) (closes : holds (.mark .closeParen))
    {tokens : List Token} (each : ∀ token ∈ tokens, holds token) (least : Nat) (operand : Tree) :
    ∀ token ∈ guarded least operand tokens, holds token := by
  unfold guarded
  split
  · exact each
  · exact List.forall_mem_cons.mpr ⟨opens, List.forall_mem_append.mpr
      ⟨each, List.forall_mem_singleton.mpr closes⟩⟩

/-- A property of the tokens of items and of commas. -/
theorem forall_mem_listed (comma : holds (.mark .comma)) {trees : List Tree}
    (each : ∀ tree ∈ trees, ∀ token ∈ tree.spelled, holds token) :
    ∀ token ∈ listed (spelledAll trees), holds token := by
  rw [spelledAll_eq_map]
  cases trees with
  | nil => exact fun token member => by cases member
  | cons first rest =>
    obtain ⟨here, others⟩ := List.forall_mem_cons.mp each
    refine List.forall_mem_append.mpr ⟨here, fun token member => ?_⟩
    obtain ⟨tokens, among, inside⟩ := List.mem_flatMap.mp member
    obtain ⟨tree, later, rfl⟩ := List.mem_map.mp among
    rcases List.mem_cons.mp inside with rfl | inside
    · exact comma
    · exact others tree later token inside

/-- A property of the tokens of statements and of semicolons. -/
theorem forall_mem_terminated (semicolon : holds (.mark .semicolon)) {trees : List Tree}
    (each : ∀ tree ∈ trees, ∀ token ∈ tree.spelled, holds token) :
    ∀ token ∈ (spelledAll trees).flatMap (· ++ [.mark .semicolon]), holds token := by
  rw [spelledAll_eq_map]
  intro token member
  obtain ⟨tokens, among, inside⟩ := List.mem_flatMap.mp member
  obtain ⟨tree, here, rfl⟩ := List.mem_map.mp among
  rcases List.mem_append.mp inside with inside | inside
  · exact each tree here token inside
  · rw [List.mem_singleton.mp inside]
    exact semicolon

/-- The tokens that a shaped tree is written in have a property that its own tokens have, if all
marks have it. -/
theorem Shaped.forall_mem_spelled {role : Role} {tree : Tree} (shaped : tree.Shaped holds role)
    (marks : ∀ kind, kind.spelling?.isSome = true → holds (.mark kind)) :
    ∀ token ∈ tree.spelled, holds token := by
  have guards : ∀ {tokens : List Token}, (∀ token ∈ tokens, holds token) →
      ∀ least operand, ∀ token ∈ guarded least operand tokens, holds token :=
    forall_mem_guarded (marks _ rfl) (marks _ rfl)
  have mark : ∀ {kind : Kind}, kind.spelling?.isSome = true → holds (.mark kind) := marks _
  have split : ∀ {before after : List Token}, (∀ token ∈ before, holds token) →
      (∀ token ∈ after, holds token) → ∀ token ∈ before ++ after, holds token :=
    fun first second => List.forall_mem_append.mpr ⟨first, second⟩
  have next : ∀ {first : Token} {rest : List Token}, holds first →
      (∀ token ∈ rest, holds token) → ∀ token ∈ first :: rest, holds token :=
    fun here later => List.forall_mem_cons.mpr ⟨here, later⟩
  have last : ∀ {token : Token}, holds token → ∀ other ∈ [token], holds other :=
    fun here => List.forall_mem_singleton.mpr here
  induction shaped with
  | program _ each => exact forall_mem_terminated (mark rfl) each
  | block _ each =>
    exact next (mark rfl) (split (forall_mem_terminated (mark rfl) each) (last (mark rfl)))
  | binding _ named _ value => exact next (mark rfl) (next named (next (mark rfl) value))
  | returning _ value => exact next (mark rfl) value
  | expressing _ value => exact value
  | integer _ here | string _ here | boolean _ here | identifier _ here => exact last here
  | unary _ here _ right => exact next here (guards right _ _)
  | binary _ here _ _ left right => exact split (guards left _ _) (next here (guards right _ _))
  | conditional _ _ condition consequence =>
    exact next (mark rfl) (next (mark rfl) (split condition (next (mark rfl) consequence)))
  | choice _ _ _ condition consequence alternative =>
    exact next (mark rfl) (next (mark rfl) (split condition
      (next (mark rfl) (split consequence (next (mark rfl) alternative)))))
  | function named _ body =>
    refine next (mark rfl) (next (mark rfl) (split ?_ (next (mark rfl) body)))
    refine forall_mem_listed (mark rfl) fun tree member => ?_
    obtain ⟨name, among, rfl⟩ := List.mem_map.mp member
    exact last (named name among).2
  | call _ _ callee each =>
    exact split (guards callee _ _)
      (next (mark rfl) (split (forall_mem_listed (mark rfl) each) (last (mark rfl))))
  | index _ _ container position =>
    exact split (guards container _ _) (next (mark rfl) (split position (last (mark rfl))))
  | array _ each | hash _ each =>
    exact next (mark rfl) (split (forall_mem_listed (mark rfl) each) (last (mark rfl)))
  | pair _ _ key value => exact split key (next (mark rfl) value)

/-- Every token that a plain program is written in is plain. -/
theorem Shaped.plain_of_mem_spelled {role : Role} {tree : Tree}
    (shaped : tree.Shaped Token.Plain role) : ∀ token ∈ tree.spelled, token.Plain := by
  refine shaped.forall_mem_spelled fun kind spelled => ?_
  obtain ⟨spelling, spelled⟩ := Option.isSome_iff_exists.mp spelled
  refine Or.inr (Or.inr (Or.inr ?_))
  show kind.spelling? = some (kind.spelling?.getD "")
  rw [spelled]
  rfl

end Tree

/-! ### The printed text -/

namespace Reader

/-- **A written token that is awaited is taken**, with a place of its own. -/
theorem advances_token {stage : Stage} {token : Token} (plain : token.Plain)
    (awaited : token.kind ∈ stage.state.awaited) {chars rest : List Char}
    (apart : token.kind.Apart (chars ++ rest)) :
    ∃ lexeme : Lexeme, (lexeme.toToken stage.place).unplaced = token.unplaced ∧
      ∀ {next : State} {after : Stage}, stage.state.take (lexeme.toToken stage.place) = .next next →
        Advances rest (stage.after lexeme next) chars after →
          Advances rest stage (token.written ++ chars) after := by
  have scanned := plain.scan stage.state.awaited.contains (List.contains_iff_mem.mpr awaited)
    (fun word => List.contains_iff_mem.mpr (identifier_mem_awaited word awaited)) apart
  have same :
      (Lexeme.toToken ⟨token.kind, token.written⟩ stage.place).unplaced = token.unplaced := by
    rw [Lexeme.toToken, Token.Plain.text_lexeme token]
    rfl
  refine ⟨⟨token.kind, token.written⟩, same, fun taken advances => ?_⟩
  have inRange := (plain.of_unplaced same).inRange
  exact .token scanned plain.isLayout_eq_false (takeToken_of_inRange inRange taken) advances

/-- Replies that are alike but for places lead on alike. -/
theorem take_next_of_unplaced {actual state next : State} {placed token : Token}
    (alike : actual.unplaced = state.unplaced) (same : placed.unplaced = token.unplaced)
    (taken : state.take token = .next next) :
    ∃ after, actual.take placed = .next after ∧ after.unplaced = next.unplaced := by
  have replies : (actual.take placed).unplaced = .next next.unplaced := by
    rw [← State.take_unplaced, alike, same, State.take_unplaced, taken]
    rfl
  cases reply : actual.take placed with
  | next after =>
    rw [reply] at replies
    exact ⟨after, rfl, Reply.next.inj replies⟩
  | finished | refused =>
    rw [reply] at replies
    cases replies

/-- The end of the text leads to a program alike but for places. -/
theorem takeEnd_of_unplaced {actual state : State} {program : Tree}
    (alike : actual.unplaced = state.unplaced) (taken : state.take ending = .finished program)
    (last : Option Token) :
    ∃ read, takeEnd actual last = .ok read ∧ read.unplaced = program.unplaced := by
  have replies : (actual.take ending).unplaced = .finished program.unplaced := by
    rw [← State.take_unplaced, alike, State.take_unplaced, taken]
    rfl
  cases reply : actual.take ending with
  | finished read =>
    rw [reply] at replies
    have finished : actual.take ⟨.ending, "", default, 0⟩ = .finished read := reply
    exact ⟨read, by rw [takeEnd, finished], Reply.finished.inj replies⟩
  | next | refused =>
    rw [reply] at replies
    cases replies

/-- Tokens written one after another, with spaces between them or without; nothing that follows goes
on with a token. -/
inductive Spaced : List Token → List Char → Prop
  | done : Spaced [] []
  | token {token : Token} {tokens : List Token} {chars : List Char} : token.Plain →
      token.kind.Apart chars → Spaced tokens chars → Spaced (token :: tokens) (token.written ++ chars)
  | space {tokens : List Token} {chars : List Char} : Spaced tokens chars →
      Spaced tokens (' ' :: chars)

/-- Plain tokens may be written with one space between two of them. -/
theorem spaced_writtenAll {tokens : List Token} (plain : ∀ token ∈ tokens, token.Plain) :
    Spaced tokens (writtenAll tokens) := by
  fun_induction writtenAll tokens with
  | case1 => exact .done
  | case2 token =>
    rw [← List.append_nil token.written]
    exact .token (List.forall_mem_singleton.mp plain) .nil .done
  | case3 token rest _ ih =>
    obtain ⟨here, others⟩ := List.forall_mem_cons.mp plain
    exact .token here .space (.space (ih others))

/-- **The written tokens are read as the tokens are**, places aside. -/
theorem advances_of_spaced {state : State} {tokens : List Token} {chars : List Char} {program : Tree}
    (spaced : Spaced tokens chars) (reads : Reads state tokens program) {stage : Stage}
    (alike : stage.state.unplaced = state.unplaced) :
    ∃ after, Advances [] stage chars after ∧
      (∃ final : State, final.take ending = .finished program ∧
        after.state.unplaced = final.unplaced) ∧
      after.last.map Token.unplaced =
        (tokens.getLast?.map Token.unplaced).or (stage.last.map Token.unplaced) := by
  induction spaced generalizing state stage with
  | done =>
    cases reads with
    | finished done => exact ⟨stage, .done stage, ⟨state, done, alike⟩, rfl⟩
  | space _ ih =>
    obtain ⟨after, advances, ends⟩ := @ih _ reads (stage.past [' ']) alike
    exact ⟨after, .spacing rfl advances, ends⟩
  | @token token rest chars plain apart _ ih =>
    cases reads with
    | next awaited taken reads =>
      have awaited : token.kind ∈ stage.state.awaited := by
        rw [← State.awaited_unplaced, alike, State.awaited_unplaced]
        exact awaited
      obtain ⟨lexeme, same, taking⟩ :=
        @advances_token stage token plain awaited chars [] (by rwa [List.append_nil])
      obtain ⟨onward, took, alike⟩ := take_next_of_unplaced alike same taken
      obtain ⟨after, advances, final, last⟩ := @ih _ reads (stage.after lexeme onward) alike
      refine ⟨after, taking took advances, final, last.trans ?_⟩
      have lastHere : (stage.after lexeme onward).last.map Token.unplaced =
          some token.unplaced := congrArg some same
      rw [lastHere]
      cases rest with
      | nil => rfl
      | cons second rest =>
        rw [List.getLast?_cons_cons, List.getLast?_cons]
        rfl

/-- Their text is read as they are. -/
theorem read_of_spaced {state : State} {tokens : List Token} {chars : List Char} {program : Tree}
    (spaced : Spaced tokens chars) (reads : Reads state tokens program) {stage : Stage}
    (alike : stage.state.unplaced = state.unplaced) :
    ∃ read, stage.read chars = .ok read ∧ read.unplaced = program.unplaced := by
  obtain ⟨after, advances, ⟨final, done, ends⟩, -⟩ := advances_of_spaced spaced reads alike
  obtain ⟨read, ended, same⟩ := takeEnd_of_unplaced ends done after.last
  exact ⟨read, advances.read_all.trans ended, same⟩

/-- The text of tokens with one space between two of them is read as they are. -/
theorem read_of_reads {state : State} {tokens : List Token} {program : Tree}
    (reads : Reads state tokens program) (plain : ∀ token ∈ tokens, token.Plain) {stage : Stage}
    (alike : stage.state.unplaced = state.unplaced) :
    ∃ read, stage.read (writtenAll tokens) = .ok read ∧ read.unplaced = program.unplaced :=
  read_of_spaced (spaced_writtenAll plain) reads alike

/-- A text of the tokens of a program is read as the program, places aside. -/
theorem parse_of_spaced {tree : Tree} (shaped : tree.Shaped Token.Plain .program)
    {text : String} (spaced : Spaced tree.spelled text.toList) :
    ∃ read, parse text = .ok read ∧ read.unplaced = tree.unplaced :=
  @read_of_spaced _ _ _ _ spaced (reads_spelled shaped) .initial rfl

end Reader

/-- **What is printed is read again.** -/
theorem parse_printed {tree : Tree} (shaped : tree.Shaped Token.Plain .program) :
    ∃ read, parse tree.printed = .ok read ∧ read.unplaced = tree.unplaced := by
  rw [parse, Tree.printed, String.toList_ofList]
  exact @Reader.read_of_reads _ _ _ (Reader.reads_spelled shaped) shaped.plain_of_mem_spelled
    .initial rfl

/-- An operand that holds together less tightly is put in parentheses, and read from them. -/
theorem parse_printed_operators :
    let tree := Build.program [Build.binding "x"
      (Build.binary (Build.unary "-" (Build.binary (Build.identifier "a") "+" (Build.integer 2)))
        "*" (Build.string "b c"))]
    tree.Shaped Token.Plain .program ∧ tree.printed = "let x = - ( a + 2 ) * \"b c\" ;" ∧
      ∃ read, parse tree.printed = .ok read ∧ read.unplaced = tree.unplaced := by
  intro tree
  have sum : (Build.binary (Build.identifier "a") "+" (Build.integer 2)).Shaped Token.Plain
      .expression :=
    .binary (by decide) (by decide) (.identifier rfl (by decide)) (.integer rfl (by decide))
  have product : (Build.binary (Build.unary "-" (Build.binary (Build.identifier "a") "+"
      (Build.integer 2))) "*" (Build.string "b c")).Shaped Token.Plain .expression :=
    .binary (by decide) (by decide) (.unary (Or.inr rfl) (by decide) sum)
      (.string rfl (by decide))
  have shaped : tree.Shaped Token.Plain .program :=
    .program (List.forall_mem_singleton.mpr (.binding rfl (by decide) product))
  exact ⟨shaped, by decide +kernel, parse_printed shaped⟩

end Scriptlet
