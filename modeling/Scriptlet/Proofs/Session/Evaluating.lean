/-
**Which programs a session evaluates.**

A line that starts with a slash is a command. No program starts with a slash but one that opens with
a comment, and so a comment at the start of a line is taken for a command that there is not. Every
other program is evaluated.

* `Text.OpensWithComment`: blanks aside, a text starts with a comment.
* `Session.Tells`: what a session writes where a run has ended, and what ends the session then.
* `Session.Evaluates`: an answer is that of a session which has run a program.

Main statements: an accepted text that starts with a slash opens with a comment
(`opensWithComment_of_parse`), and the answer to a line that is a program is its evaluation, unless
the program opens with a comment (`program_evaluated`).
-/
import Scriptlet.Proofs.CommandLine.FrontEnds
import Scriptlet.Proofs.Reader.Lexemes
import Scriptlet.Proofs.Token.Separated

namespace Scriptlet

/-! ### The start of a text -/

namespace Text

/-- Blanks aside, a text starts with a comment. -/
def OpensWithComment (text : String) : Prop :=
  ['/', '/'] <+: (trim text).toList

instance (text : String) : Decidable (OpensWithComment text) :=
  inferInstanceAs (Decidable (_ <+: _))

/-- A trimmed text is the start of what follows the first blanks. -/
theorem trim_prefix (text : String) : (trim text).toList <+: text.toList.dropWhile isBlank := by
  rw [trim, String.toList_ofList, trimChars, ← List.reverse_suffix, List.reverse_reverse]
  exact List.dropWhile_suffix isBlank

end Text

/-- A lexeme that starts with a blank is spacing. -/
theorem Lexeme.blanks_of_isBlank {looksFor : Kind → Bool} {c : Char} {rest : List Char}
    {lexeme : Lexeme} (found : scan looksFor (c :: rest) = some lexeme)
    (blank : Text.isBlank c = true) : lexeme.kind = .blanks := by
  by_cases space : isSpacing c = true
  · rw [scan_spacing looksFor space] at found
    cases found
    rfl
  · -- any other blank starts none of the lexemes
    obtain ⟨kind, tried, some_, -⟩ := scan_starts found
    have noPart := isNamePart_of_isBlank blank
    have noName : isNameStart c = false := by
      by_contra start
      simp_all [isNameStart, isNamePart, Char.isAlphanum]
    have noMark : c ≠ Text.doubleMark := by rintro rfl; cases blank
    have noSlash : c ≠ '/' := by rintro rfl; cases blank
    have started := Kind.mem_startedBy tried some_
    rw [Kind.startedBy, noName, isDigit_of_isBlank blank, if_neg (by simp), if_neg space,
      if_neg (by simp), if_neg noMark, if_neg noSlash] at started
    obtain ⟨mark, starts⟩ := List.mem_filter.mp started
    obtain ⟨spelling, spelled, head⟩ := Option.bind_eq_some_iff.mp (beq_iff_eq.mp starts)
    have solid := (Kind.marks_spec kind mark spelling spelled).2.1 c (List.mem_of_head? head)
    rw [blank] at solid
    cases solid

/-- Nothing is dropped before a lexeme that is no spacing. -/
theorem Lexeme.dropWhile_of_scan {looksFor : Kind → Bool} {chars : List Char} {lexeme : Lexeme}
    (found : scan looksFor chars = some lexeme) (other : lexeme.kind ≠ .blanks) :
    chars.dropWhile Text.isBlank = chars := by
  cases chars with
  | nil => rfl
  | cons first rest =>
    exact List.dropWhile_cons_of_neg fun blank => other (blanks_of_isBlank found blank)

/-- Blanks at the start of a text are passed over. -/
theorem Reader.Accepts.dropWhile_isBlank {state : State} {place : Position} {chars : List Char}
    {lexemes : List Lexeme} {program : Tree}
    (accepts : Accepts state place chars lexemes program) :
    ∃ place' others, Accepts state place' (chars.dropWhile Text.isBlank) others program := by
  induction accepts with
  | @ending state place _ finished => exact ⟨place, [], .ending finished⟩
  | @layout state place lexeme rest _ _ found layout inner ih =>
    by_cases blanks : lexeme.kind = .blanks
    · obtain ⟨place', others, accepts⟩ := ih
      have spaces : ∀ c ∈ lexeme.written, Text.isBlank c = true := fun c member =>
        isBlank_of_isSpacing (Lexeme.isSpacing_of_scan found blanks c member)
      rw [List.dropWhile_append_of_pos spaces]
      exact ⟨place', others, accepts⟩
    · rw [Lexeme.dropWhile_of_scan found blanks]
      exact ⟨_, _, .layout found layout inner⟩
  | @token _ _ _ lexeme _ _ _ found solid inRange taken inner =>
    have other : lexeme.kind ≠ .blanks := by
      intro blanks
      rw [blanks] at solid
      cases solid
    rw [Lexeme.dropWhile_of_scan found other]
    exact ⟨_, _, .token found solid inRange taken inner⟩

/-- **An accepted text that starts with a slash opens with a comment.** -/
theorem opensWithComment_of_parse {source : String} {program : Tree}
    (parsed : parse source = .ok program)
    (slash : (Text.trim source).toList.head? = some '/') : Text.OpensWithComment source := by
  obtain ⟨lexemes, accepts⟩ := Reader.accepts_of_parse parsed
  obtain ⟨place, others, accepts⟩ := accepts.dropWhile_isBlank
  obtain ⟨rest, starts⟩ : ∃ rest, source.toList.dropWhile Text.isBlank = '/' :: rest := by
    obtain ⟨first, more⟩ := List.head?_eq_some_iff.mp slash
    obtain ⟨after, parts⟩ := Text.trim_prefix source
    exact ⟨first ++ after, by rw [← parts, more, List.cons_append]⟩
  refine Text.prefix_trim (List.forall_mem_cons.mpr ⟨rfl, List.forall_mem_singleton.mpr rfl⟩) ?_
  rw [starts] at accepts ⊢
  obtain ⟨lexeme, found⟩ := accepts.exists_scan (by simp)
  obtain ⟨kind, tried, trial⟩ := List.exists_of_findSome?_eq_some (Lexeme.scan_eq _ _ ▸ found)
  have some_ : kind.extent ('/' :: rest) ≠ 0 := by
    intro none
    simp [Lexeme.trial, none] at trial
  have started : kind ∈ [Kind.comment, Kind.slash] := Kind.mem_startedBy tried some_
  simp only [List.mem_cons, List.not_mem_nil, or_false] at started
  rcases started with rfl | rfl
  · exact not_not.mp (mt Kind.extent_comment_eq_zero.mpr some_)
  · -- at the start of a program no operator is looked for
    have unlooked : Lexeme.trial Reader.State.initial.awaited.contains ('/' :: rest) .slash = none :=
      rfl
    rw [unlooked] at trial
    cases trial

/-- A comment at the start is taken for a command that there is not. -/
theorem Command.ofLine?_of_comment {text : String} (comment : Text.OpensWithComment text) :
    ofLine? text = some (.unknown (Text.firstWord (Text.trim text)).1) := by
  obtain ⟨rest, parts⟩ := comment
  have slash : (Text.trim text).toList.head? = some '/' := by rw [← parts]; rfl
  have word : (Text.firstWord (Text.trim text)).1.toList =
      '/' :: '/' :: rest.takeWhile (!Text.isBlank ·) := by
    rw [Text.firstWord, ← parts, String.toList_ofList]
    rfl
  have other : ∀ name ∈ ["/clear", "/env", "/py-traceback", "/reset"],
      (Text.firstWord (Text.trim text)).1 ≠ name := by
    intro name member same
    have second : ∀ name ∈ ["/clear", "/env", "/py-traceback", "/reset"],
        name.toList[1]? ≠ some '/' := by decide
    refine second name member ?_
    rw [← same, word]
    rfl
  simp only [List.forall_mem_cons, List.not_mem_nil, false_imp_iff, implies_true, and_true] at other
  obtain ⟨noClear, noBindings, noTrace, noReset⟩ := other
  rw [ofLine?, if_pos slash]
  generalize Text.firstWord (Text.trim text) = cut at noClear noBindings noTrace noReset ⊢
  obtain ⟨word, argument⟩ := cut
  simp only at noClear noBindings noTrace noReset ⊢

/-! ### What an evaluation tells -/

/-- What a session writes where a run has ended, and what ends it then if anything: `printed` is
what the run has printed, `recorded` what has been recorded of it, and calls may nest up to a
limit. -/
inductive Session.Tells (tracing : Bool) (limit : Nat) (printed recorded : String) :
    Except Failure Value → Written → Option Failure → Prop
  | nothing : Tells tracing limit printed recorded (.ok .nothing) ⟨printed, recorded⟩ none
  | value {value : Value} {text : String} : value.isError = false →
      value.renderedWithin limit = .ok (some text) →
      Tells tracing limit printed recorded (.ok value) ⟨printed ++ text ++ "\n", recorded⟩ none
  | error (identity : Nat) (complaint : Complaint) :
      Tells tracing limit printed recorded (.ok (.error identity complaint))
        ⟨printed, recorded ++ ("ERROR: " ++ complaint.message) ++ "\n"⟩ none
  /-- The text of the result has no room. -/
  | deep {value : Value} : value.isError = false → value.Exceeds limit →
      Tells tracing limit printed recorded (.ok value) ⟨printed, recorded⟩
        (some (.halted .nestingTooDeep))
  | halted {fault : Fault} {heading : String} : fault.heading? = some heading →
      Tells tracing limit printed recorded (.error (.halted fault))
        ⟨printed, recorded ++ Session.faultReport tracing heading fault⟩ none

namespace Session

variable {session : Session} {source : String} {program : Tree}

/-- What is recorded of the run of a text; a blank text is not worth a record. -/
def recordOf (session : Session) (source : String) : String :=
  if session.recording && !Text.isAllBlank source then (session.ran source).1.shownRecords else ""

/-- An answer tells how a run on the store of the session has ended, and the session goes on with
the store after it. -/
structure Evaluates (session : Session) (source : String) (answer : Answer) : Prop where
  tells : Tells session.tracing session.limit (session.ran source).2.output
    (session.recordOf source) (session.ran source).1.result answer.written answer.failure?
  session_eq : answer.session = { session with store := (session.ran source).2.cleared }

/-- The run of a program is told by the answer to its submission. -/
theorem Settled.submit_evaluates (settled : session.Settled) (parsed : parse source = .ok program)
    (filled : Text.isAllBlank source = false) :
    session.Evaluates source (session.submit source) where
  tells := by
    have concluded := settled.concluded source
    have accepted : ∀ reason, (session.ran source).1.result ≠ .error (.rejected reason) := by
      intro reason rejected
      cases parsed.symm.trans (run_rejected.mp rejected)
    unfold recordOf submit
    rw [filled]
    unfold ran at concluded accepted ⊢
    generalize runRecorded session.limit session.recording source Store.root session.store = ended
      at concluded accepted ⊢
    obtain ⟨outcome, store⟩ := ended
    simp only [Bool.not_false, Bool.and_true] at concluded accepted ⊢
    cases concluded with
    | nothing result => simpa [result, Value.renderedWithin] using .nothing
    | shown result noError room rendered =>
      have made := (Value.renderedWithin_of_room room).trans rendered
      simpa [result, made, noError] using .value noError made
    | deep result noError exceeds =>
      simpa [result, Value.renderedWithin_of_exceeds exceeds] using .deep noError exceeds
    | @error identity complaint result room =>
      simpa [result, Value.renderedWithin_error room, Value.isError] using
        .error identity complaint
    | reported result | misread result => exact absurd result (accepted _)
    | halted result headed => simpa [result, headed] using .halted headed
  session_eq := session.submit_session source

/-- A blank program is empty. -/
theorem program_of_isAllBlank (parsed : parse source = .ok program)
    (blank : Text.isAllBlank source = true) : program = .node .program [] := by
  obtain ⟨lexemes, accepts⟩ := Reader.accepts_of_parse parsed
  obtain ⟨place, others, accepts⟩ := accepts.dropWhile_isBlank
  rw [List.dropWhile_eq_nil_iff.mpr (List.all_eq_true.mp blank)] at accepts
  cases accepts.finished_of_nil
  rfl

/-- A blank line needs no evaluation: it has no value, and changes nothing. -/
theorem Settled.blank_evaluates (settled : session.Settled) (parsed : parse source = .ok program)
    (blank : Text.isAllBlank source = true) (room : 0 < session.limit) :
    session.Evaluates source ⟨⟨"", ""⟩, session, none⟩ := by
  obtain rfl := program_of_isAllBlank parsed blank
  obtain ⟨more, limited⟩ := Nat.exists_eq_succ_of_ne_zero (Nat.ne_of_gt room)
  have ran : (session.ran source) = (⟨some (.node .program []), .ok .nothing⟩, session.store) := by
    have plain : runWithin session.limit source Store.root session.store =
        (⟨some (.node .program []), .ok .nothing⟩, session.store) := by
      rw [limited, runWithin_of_parse parsed]
      rfl
    have fits : Value.nothing.shownDepth ≤ session.limit := room
    rw [Session.ran, runRecorded, plain]
    cases session.recording with
    | false => rfl
    | true => simp only [if_true, Outcome.recordedWithin, if_pos fits]
  have silent : session.store.output = "" := by
    rw [Store.output, settled.printed]
    rfl
  have unrecorded : session.recordOf source = "" := by
    rw [recordOf, blank, Bool.not_true, Bool.and_false]
    rfl
  refine ⟨?_, ?_⟩
  · rw [ran, unrecorded, silent]
    exact .nothing
  · rw [ran, settled.cleared]

end Session

/-- **A session evaluates every program that does not open with a comment.** Where a line is a
program, the answer tells how its run on the store of the session has ended, and the session goes on
with the store after it; but a comment at the start is taken for a command that there is not, and
then nothing is run. -/
theorem program_evaluated {session : Session} (settled : session.Settled) (room : 0 < session.limit)
    {line : String} {program : Tree} (parsed : parse (Session.normalize line) = .ok program) :
    let source := Session.normalize line
    let answer := session.respond (.line line)
    (¬ Text.OpensWithComment source → session.Evaluates source answer) ∧
      (Text.OpensWithComment source → answer =
        ⟨⟨"", "Unknown command: " ++ (Text.firstWord (Text.trim source)).1 ++ "\n"⟩, session,
          none⟩) := by
  intro source answer
  refine ⟨fun plain => ?_, fun comment => ?_⟩
  · cases filled : Text.isAllBlank source with
    | true =>
      have idle : answer = ⟨⟨"", ""⟩, session, none⟩ := by
        simp only [answer, Session.respond, source] at filled ⊢
        rw [if_pos filled]
      rw [idle]
      exact settled.blank_evaluates parsed filled room
    | false =>
      have submitted := Event.meaning_of_submission filled
        (Command.ofLine?_eq_none (mt (opensWithComment_of_parse parsed) plain))
      have answered : answer = session.submit source := by
        simp only [answer, Session.respond_eq, submitted, source]
      rw [answered]
      exact settled.submit_evaluates parsed filled
  · have found := Event.meaning_of_command (Command.ofLine?_of_comment comment)
    simp only [answer, Session.respond_eq, found]
    rfl

/-- After a binding, a program that prints and has a comment at its end is evaluated. -/
theorem program_evaluated_printing :
    let session := ((Session.start "" false false).respond (.line "let a = 20;")).session
    let line := "  puts(a); a + 1 // one more"
    session.Settled ∧ 0 < session.limit ∧
      (∃ program, parse (Session.normalize line) = .ok program) ∧
      session.Evaluates (Session.normalize line) (session.respond (.line line)) := by
  intro session line
  have settled : session.Settled := (Session.Settled.start "" false false _).respond _
  have room : 0 < session.limit := by decide +kernel
  obtain ⟨program, parsed⟩ := @exists_program_of_isOk (Session.normalize line) (by decide +kernel)
  exact ⟨settled, room, ⟨program, parsed⟩,
    (program_evaluated settled room parsed).1 (by decide +kernel)⟩

/-- A comment on the first of two lines keeps the sum on the second one from being evaluated. -/
theorem comment_taken_for_command :
    let session := Session.start "" false false
    let line := "// three\n1 + 2"
    (∃ program, parse (Session.normalize line) = .ok program) ∧
      (session.submit (Session.normalize line)).written = ⟨"3\n", ""⟩ ∧
      (session.respond (.line line)).written = ⟨"", "Unknown command: //\n"⟩ := by
  intro session line
  exact ⟨exists_program_of_isOk (by decide +kernel), by decide +kernel, by decide +kernel⟩

end Scriptlet
