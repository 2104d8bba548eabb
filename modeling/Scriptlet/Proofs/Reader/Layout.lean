/-
**Layout does not matter.**

* `Layout`: spacing and comments in any order; `IsSeparator`: layout that starts with spacing.
* `LaidOut`: lexemes with a separator between any two of them.
* `SameReading`: both texts are programs, equal but for places, or both are rejected, with one kind
  of fault and one message.

Main statements: layout is passed over (`Layout.read`); where two stages are alike, so is what they
read of the same lexeme (`Alike.read_lexeme`), by induction on the characters that are left of it;
so texts of the same lexemes are read alike (`parse_laidOut`).
-/
import Scriptlet.Proofs.Reader.Advances
import Scriptlet.Proofs.Reader.Places
import Scriptlet.Proofs.Token.Separated

namespace Scriptlet

/-! ### Separators -/

/-- Spacing and comments. -/
inductive Layout : List Char → Prop
  | nil : Layout []
  | spacing {c : Char} {rest : List Char} : isSpacing c = true → Layout rest → Layout (c :: rest)
  | comment {inner rest : List Char} : '\n' ∉ inner → Layout rest →
      Layout ('/' :: '/' :: (inner ++ '\n' :: rest))

/-- Layout that starts with spacing. -/
def IsSeparator (chars : List Char) : Prop :=
  ∃ c rest, chars = c :: rest ∧ isSpacing c = true ∧ Layout rest

/-- Lexemes with a separator between any two of them. -/
inductive LaidOut : List (List Char) → List Char → Prop
  | nil : LaidOut [] []
  | last {lexeme : List Char} : IsLexeme lexeme → LaidOut [lexeme] lexeme
  | next {lexeme separator second chars : List Char} {rest : List (List Char)} :
      IsLexeme lexeme → IsSeparator separator → LaidOut (second :: rest) chars →
      LaidOut (lexeme :: second :: rest) (lexeme ++ (separator ++ chars))

/-! ### Faults without places -/

namespace Rejection

/-- Why a text is no program, without the place where it shows. -/
@[simp] def unplaced : Rejection → Rejection
  | unexpectedToken token expected => unexpectedToken token.unplaced expected
  | unexpectedEnd last expected => unexpectedEnd (last.map Token.unplaced) expected
  | unexpectedCharacter c _ => unexpectedCharacter c default
  | outOfRange token => outOfRange token.unplaced
  | misread reason => misread reason

/-- The message of a fault does not tell its place. -/
theorem message_unplaced (rejection : Rejection) :
    rejection.unplaced.report?.map Report.message = rejection.report?.map Report.message := by
  cases rejection <;> rfl

end Rejection

/-- Both texts are read as programs that are equal but for places, or both are rejected, with one
kind of fault and one message. -/
inductive SameReading : Except Rejection Tree → Except Rejection Tree → Prop
  | accepted {program other : Tree} : program.unplaced = other.unplaced →
      SameReading (.ok program) (.ok other)
  | rejected {rejection other : Rejection} : rejection.unplaced = other.unplaced →
      rejection.report?.map Report.message = other.report?.map Report.message →
      SameReading (.error rejection) (.error other)

/-- Faults that are equal but for places have one message. -/
theorem SameReading.of_unplaced {rejection other : Rejection}
    (same : rejection.unplaced = other.unplaced) :
    SameReading (.error rejection) (.error other) := by
  refine .rejected same ?_
  rw [← rejection.message_unplaced, same, other.message_unplaced]

namespace Reader

/-! ### Layout is passed over -/

/-- Layout passed in two parts. -/
theorem Stage.past_append (stage : Stage) (chars more : List Char) :
    (stage.past chars).past more = stage.past (chars ++ more) := by
  simp [Stage.past, Position.afterAll]

/-- A comment is passed over to the end of its line. -/
theorem Stage.read_comment (stage : Stage) {inner : List Char} (within : '\n' ∉ inner)
    (rest : List Char) : stage.read ('/' :: '/' :: (inner ++ '\n' :: rest)) =
      (stage.past ('/' :: '/' :: (inner ++ ['\n']))).read rest := by
  have line : (inner ++ '\n' :: rest).takeWhile (· != '\n') = inner := by
    have solid : ∀ c ∈ inner, (c != '\n') = true :=
      fun c member => bne_iff_ne.mpr fun same => within (same ▸ member)
    rw [List.takeWhile_append_of_pos solid]
    simp
  have found := Lexeme.scan_comment stage.state.awaited.contains (inner ++ '\n' :: rest)
  rw [line] at found
  have passed := @Stage.read_layout stage ⟨.comment, '/' :: '/' :: inner⟩ ('\n' :: rest) found rfl
  refine passed.trans ?_
  rw [Stage.read_spacing _ rfl, Stage.past_append]
  rfl

/-- **Layout is passed over**, whatever is awaited. -/
theorem Stage.read_of_layout {chars : List Char} (layout : Layout chars) (stage : Stage)
    (rest : List Char) : stage.read (chars ++ rest) = (stage.past chars).read rest := by
  induction layout generalizing stage with
  | nil => rfl
  | @spacing c chars space _ ih =>
    rw [List.cons_append, Stage.read_spacing stage space, ih, Stage.past_append]
    rfl
  | @comment inner chars within _ ih =>
    have parts : '/' :: '/' :: (inner ++ '\n' :: chars) ++ rest =
        '/' :: '/' :: (inner ++ '\n' :: (chars ++ rest)) := by simp
    rw [parts, Stage.read_comment stage within, ih, Stage.past_append]
    simp

/-! ### Stages that are alike -/

/-- The state and the last token are the same but for places. -/
structure Stage.Alike (stage stage' : Stage) : Prop where
  state : stage.state.unplaced = stage'.state.unplaced
  last : stage.last.map Token.unplaced = stage'.last.map Token.unplaced

theorem Stage.Alike.past {stage stage' : Stage} (alike : stage.Alike stage')
    (chars chars' : List Char) : (stage.past chars).Alike (stage'.past chars') :=
  ⟨alike.state, alike.last⟩

theorem Stage.Alike.awaited {stage stage' : Stage} (alike : stage.Alike stage') :
    stage'.state.awaited = stage.state.awaited := by
  rw [← State.awaited_unplaced, ← alike.state, State.awaited_unplaced]

/-- Why an integer cannot be taken does not depend on its place. -/
theorem rangeFault?_unplaced (token : Token) :
    rangeFault? token.unplaced = (rangeFault? token).map Rejection.unplaced := by
  unfold rangeFault?
  simp only [kind_unplaced, show token.unplaced.text = token.text from rfl]
  split
  · split
    · split <;> rfl
    · rfl
  · rfl

theorem takeToken_unplaced (state : State) (token : Token) :
    takeToken state.unplaced token.unplaced =
      ((takeToken state token).map State.unplaced).mapError Rejection.unplaced := by
  unfold takeToken
  rw [rangeFault?_unplaced, State.take_unplaced]
  cases rangeFault? token with
  | some fault => rfl
  | none => cases state.take token <;> rfl

theorem takeEnd_unplaced (state : State) (last : Option Token) :
    takeEnd state.unplaced (last.map Token.unplaced) =
      ((takeEnd state last).map Tree.unplaced).mapError Rejection.unplaced := by
  have replied := state.take_unplaced ⟨.ending, "", default, 0⟩
  rw [show Token.unplaced ⟨.ending, "", default, 0⟩ = ⟨.ending, "", default, 0⟩ from rfl] at replied
  unfold takeEnd
  rw [replied]
  cases state.take ⟨.ending, "", default, 0⟩ <;> rfl

/-- What is unexpected, where some lexeme is found if every kind is looked for. -/
theorem mismatch_unplaced (state : State) (place : Position) {c : Char} {rest : List Char}
    {lexeme : Lexeme} (found : Lexeme.scanAny (c :: rest) = some lexeme) :
    (mismatch state place c rest).unplaced =
      (rangeFault? (lexeme.toToken place).unplaced).getD
        (.unexpectedToken (lexeme.toToken place).unplaced state.unplaced.sought) := by
  have sought : state.unplaced.sought = state.sought := by
    rw [State.sought, State.awaited_unplaced, State.sought]
  rw [mismatch, found, rangeFault?_unplaced, sought]
  cases fault : rangeFault? (lexeme.toToken place) <;> simp [fault]

/-- Readings that are equal but for places are the same. -/
theorem sameReading_of_unplaced {reading other : Except Rejection Tree}
    (same : (reading.map Tree.unplaced).mapError Rejection.unplaced =
      (other.map Tree.unplaced).mapError Rejection.unplaced) : SameReading reading other := by
  cases reading with
  | ok program =>
    cases other with
    | ok other => exact .accepted (Except.ok.inj same)
    | error => cases same
  | error rejection =>
    cases other with
    | ok => cases same
    | error other => exact .of_unplaced (Except.error.inj same)

/-- Where nothing awaited is found, the text is rejected. -/
theorem Stage.read_mismatch {stage : Stage} {c : Char} {rest : List Char}
    (missed : Lexeme.scan stage.state.awaited.contains (c :: rest) = none) :
    stage.read (c :: rest) = .error (mismatch stage.state stage.place c rest) := by
  rw [Stage.read, readFrom, missed]

/-- Where two states are the same but for places, a token is refused in both, or it leads on in both
to states that are the same. -/
theorem takeToken_alike {state state' : State} (alike : state.unplaced = state'.unplaced)
    {token token' : Token} (same : token.unplaced = token'.unplaced) :
    (∃ rejection rejection', takeToken state token = .error rejection ∧
        takeToken state' token' = .error rejection' ∧
        rejection.unplaced = rejection'.unplaced) ∨
      ∃ next next', takeToken state token = .ok next ∧ takeToken state' token' = .ok next' ∧
        next.unplaced = next'.unplaced := by
  have replies := takeToken_unplaced state token
  rw [alike, same, takeToken_unplaced] at replies
  cases reply : takeToken state token with
  | error rejection =>
    cases reply' : takeToken state' token' with
    | ok next' => simp [reply, reply', Except.map, Except.mapError] at replies
    | error rejection' =>
      rw [reply, reply'] at replies
      exact Or.inl ⟨rejection, rejection', rfl, rfl, (Except.error.inj replies).symm⟩
  | ok next =>
    cases reply' : takeToken state' token' with
    | error rejection' => simp [reply, reply', Except.map, Except.mapError] at replies
    | ok next' =>
      rw [reply, reply'] at replies
      exact Or.inr ⟨next, next', rfl, rfl, (Except.ok.inj replies).symm⟩

namespace Stage.Alike

variable {stage stage' : Stage} {rest rest' : List Char}

/-- Stages that are alike end alike. -/
theorem read_nil (alike : stage.Alike stage') : SameReading (stage.read []) (stage'.read []) := by
  refine sameReading_of_unplaced ?_
  show (Except.map _ (takeEnd stage.state stage.last)).mapError _ =
    (Except.map _ (takeEnd stage'.state stage'.last)).mapError _
  rw [← takeEnd_unplaced, ← takeEnd_unplaced, alike.state, alike.last]

/-- **The same lexeme is read alike**, if what follows it is. -/
theorem read_lexeme {chars : List Char} (isLexeme : IsLexeme chars) (spaced : Spaced rest)
    (spaced' : Spaced rest')
    (onward : ∀ {stage stage' : Stage}, stage.Alike stage' →
      SameReading (stage.read rest) (stage'.read rest'))
    (alike : stage.Alike stage') :
    SameReading (stage.read (chars ++ rest)) (stage'.read (chars ++ rest')) := by
  induction length : chars.length using Nat.strong_induction_on generalizing chars stage stage' with
  | _ length ih =>
  have scanned := fun looksFor => Lexeme.scan_append looksFor isLexeme spaced
  have scanned' := fun looksFor => Lexeme.scan_append looksFor isLexeme spaced'
  cases found : Lexeme.scan stage.state.awaited.contains chars with
  | none =>
    obtain ⟨c, others, rfl⟩ := List.exists_cons_of_ne_nil isLexeme.whole.1
    obtain ⟨any, known⟩ := Lexeme.exists_scanAny isLexeme
    simp only [List.cons_append] at scanned scanned' ⊢
    rw [Stage.read_mismatch ((scanned _).trans found),
      Stage.read_mismatch ((scanned' _).trans (alike.awaited ▸ found))]
    refine .of_unplaced ?_
    rw [mismatch_unplaced _ _ ((scanned _).trans known),
      mismatch_unplaced _ _ ((scanned' _).trans known), alike.state]
    rfl
  | some lexeme =>
    obtain ⟨solid, left, rfl, whole⟩ := Lexeme.cut_of_scan isLexeme found
    simp only [List.append_assoc] at scanned scanned' ⊢
    rw [Stage.read_token ((scanned _).trans found) solid,
      Stage.read_token ((scanned' _).trans (alike.awaited ▸ found)) solid]
    have same : (lexeme.toToken stage.place).unplaced = (lexeme.toToken stage'.place).unplaced :=
      rfl
    rcases takeToken_alike alike.state same with
      ⟨rejection, rejection', refused, refused', faults⟩ | ⟨next, next', taken, taken', states⟩
    · rw [refused, refused']
      exact .of_unplaced faults
    · rw [taken, taken']
      have alike : (stage.after lexeme next).Alike (stage'.after lexeme next') := ⟨states, rfl⟩
      rcases whole with rfl | shorter
      · exact onward alike
      · refine ih left.length ?_ shorter alike rfl
        have some_ := List.length_pos_iff.mpr (Lexeme.scan_written found).2
        rw [← length, List.length_append]
        omega

end Stage.Alike

/-- **The same lexemes are read alike**, however they are laid out. -/
theorem Stage.Alike.read_laidOut {lexemes : List (List Char)} {chars chars' : List Char}
    (laidOut : LaidOut lexemes chars) (laidOut' : LaidOut lexemes chars') {stage stage' : Stage}
    (alike : stage.Alike stage') : SameReading (stage.read chars) (stage'.read chars') := by
  induction laidOut generalizing chars' stage stage' with
  | nil =>
    cases laidOut'
    exact alike.read_nil
  | @last chars isLexeme =>
    cases laidOut'
    have read := alike.read_lexeme isLexeme (Or.inl rfl) (Or.inl rfl) fun alike => alike.read_nil
    rwa [List.append_nil] at read
  | @next lexeme separator second chars rest isLexeme separates _ ih =>
    cases laidOut' with
    | @next _ separator' _ chars' _ _ separates' laidOut' =>
      obtain ⟨c, inner, rfl, space, layout⟩ := separates
      obtain ⟨c', inner', rfl, space', layout'⟩ := separates'
      refine alike.read_lexeme isLexeme (Or.inr ⟨_, _, rfl, space⟩) (Or.inr ⟨_, _, rfl, space'⟩)
        fun alike => ?_
      rw [Stage.read_of_layout (.spacing space layout),
        Stage.read_of_layout (.spacing space' layout')]
      exact ih laidOut' (alike.past _ _)

end Reader

/-- **Layout does not matter.** Texts of the same lexemes, with any separators between them, are
both programs, equal but for places, or both rejected, for the same fault and with the same
message. -/
theorem parse_laidOut {lexemes : List (List Char)} {one other : String}
    (laidOut : LaidOut lexemes one.toList) (laidOut' : LaidOut lexemes other.toList) :
    SameReading (parse one) (parse other) :=
  @Reader.Stage.Alike.read_laidOut _ _ _ laidOut laidOut' .initial .initial ⟨rfl, rfl⟩

/-- The second of two equals signs is what is unexpected after a name, with a comment before them or
not. -/
theorem parse_laidOut_rejected :
    let lexemes := [['l', 'e', 't'], ['a'], ['=', '='], ['"', '/', '/', '"']]
    LaidOut lexemes "let a == \"//\"".toList ∧
      LaidOut lexemes "let\ta\n// \"\n==\r\n\"//\"".toList ∧
      SameReading (parse "let a == \"//\"") (parse "let\ta\n// \"\n==\r\n\"//\"") := by
  intro lexemes
  have equals : IsLexeme ['=', '='] := @IsLexeme.spelled .equals _ rfl
  have string : IsLexeme ['"', '/', '/', '"'] := @IsLexeme.string ['/', '/'] (by decide)
  have space : IsSeparator [' '] := ⟨_, _, rfl, rfl, .nil⟩
  have tab : IsSeparator ['\t'] := ⟨_, _, rfl, rfl, .nil⟩
  have line : IsSeparator ['\r', '\n'] := ⟨_, _, rfl, rfl, .spacing rfl .nil⟩
  have comment : IsSeparator ['\n', '/', '/', ' ', '"', '\n'] :=
    ⟨_, _, rfl, rfl, @Layout.comment [' ', '"'] [] (by decide) .nil⟩
  have first : LaidOut lexemes "let a == \"//\"".toList := by
    have laidOut : LaidOut lexemes (['l', 'e', 't'] ++ ([' '] ++ (['a'] ++ ([' '] ++
        (['=', '='] ++ ([' '] ++ ['"', '/', '/', '"'])))))) :=
      .next (.name (by decide)) space (.next (.name (by decide)) space
        (.next equals space (.last string)))
    simpa using laidOut
  have second : LaidOut lexemes "let\ta\n// \"\n==\r\n\"//\"".toList := by
    have laidOut : LaidOut lexemes (['l', 'e', 't'] ++ (['\t'] ++ (['a'] ++
        (['\n', '/', '/', ' ', '"', '\n'] ++ (['=', '='] ++ (['\r', '\n'] ++
          ['"', '/', '/', '"'])))))) :=
      .next (.name (by decide)) tab (.next (.name (by decide)) comment
        (.next equals line (.last string)))
    simpa using laidOut
  exact ⟨first, second, parse_laidOut first second⟩

end Scriptlet
