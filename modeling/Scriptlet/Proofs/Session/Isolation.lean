/-
**Sessions are isolated.**

What an event leaves behind for the others is the session alone, its bindings and whether faults are
traced.

* `Event.Readable`: a line in which no more digits stand in a row than can be read.
* `Event.Harmless`: an interrupt, a blank line, a line that is reported as no program, or a command
  that changes nothing.

Main statement: `sessions_isolated`. A harmless event leaves every other answer as it is, unless it
lists a binding whose text has no room, and after a reset the answers are those of a new session. A
listing may well end a session (`session_ended_by_listing`).
-/
import Scriptlet.Proofs.Session.Course

namespace Scriptlet

namespace Event

/-- A line in which no more digits stand in a row than can be read. -/
def Readable : Event → Prop
  | .interrupt => True
  | .line text =>
    ∀ digits, Text.HasDigits (Session.normalize text) digits → digits ≤ Number.digitLimit

/-- An event that is meant to change nothing. -/
inductive Harmless : Event → Prop
  | interrupt : Harmless .interrupt
  | blank {text : String} :
      Text.isAllBlank (Session.normalize text) = true → Harmless (.line text)
  | rejected {text : String} {reason : Rejection} {report : Report} :
      parse (Session.normalize text) = .error reason → reason.report? = some report →
      (∀ command, Command.ofLine? (Session.normalize text) = some command → ¬ command.Alters) →
      Harmless (.line text)
  | command {text : String} {command : Command} :
      Command.ofLine? (Session.normalize text) = some command → ¬ command.Alters →
      Harmless (.line text)

/-- What is readable is not refused for a number of too many digits. -/
theorem Readable.accepted {event : Event} (readable : event.Readable) {source : String}
    (submitted : event.meaning = .submission source) (reason : Number.Misread) :
    parse source ≠ .error (.misread reason) := by
  intro refused
  obtain ⟨digits, has, many, -⟩ := misread_of_parse refused
  cases event with
  | interrupt => cases submitted
  | line text =>
    rw [meaning_eq_submission submitted] at has
    exact absurd many (Nat.not_lt.mpr (readable digits has))

/-- What is meant changes nothing. -/
def Meaning.IsHarmless : Meaning → Prop
  | .idle _ => True
  | .command known => ¬ known.Alters
  | .submission text => ∃ reason report, parse text = .error reason ∧ reason.report? = some report

/-- A harmless event means nothing else. -/
theorem Harmless.meaning {event : Event} (harmless : event.Harmless) :
    event.meaning.IsHarmless := by
  cases harmless with
  | interrupt => trivial
  | blank blank =>
    rw [Event.meaning, blank]
    trivial
  | @rejected text reason report refused reported alike =>
    simp only [Event.meaning]
    split
    · trivial
    · split
      next command found => exact alike command found
      · exact ⟨reason, report, refused, reported⟩
  | command found alike =>
    rw [meaning_of_command found]
    exact alike

end Event

namespace Session

/-- A readable event ends a session only where a text has no room. -/
theorem Ends.of_readable {session : Session} {event : Event} {failure : Failure}
    (ends : session.Ends event.meaning failure) (readable : event.Readable) :
    failure = .halted .nestingTooDeep := by
  generalize meaning : event.meaning = meant at ends
  cases ends with
  | digits refused => exact absurd refused (readable.accepted meaning _)
  | result | binding => rfl

/-- A harmless event ends a session only where it lists the bindings and the text of one has no
room. -/
theorem Ends.of_harmless {session : Session} {event : Event} {failure : Failure}
    (ends : session.Ends event.meaning failure) (harmless : event.Harmless) :
    event.meaning = .command .bindings ∧ failure = .halted .nestingTooDeep := by
  have meant := harmless.meaning
  generalize event.meaning = meaning at ends meant
  cases ends with
  | digits refused =>
    obtain ⟨reason, report, rejected, reported⟩ := meant
    cases refused.symm.trans rejected
    cases reported
  | result result =>
    obtain ⟨reason, report, rejected, reported⟩ := meant
    cases result.symm.trans (run_rejected.mpr rejected)
  | binding => exact ⟨rfl, rfl⟩

namespace Settled

variable {session : Session} (settled : session.Settled)

include settled

/-- **A harmless event leaves a session as it is.** -/
theorem respond_harmless {event : Event} (harmless : event.Harmless) :
    (session.respond event).session = session := by
  have meant := harmless.meaning
  rw [respond_eq]
  cases meaning : event.meaning with
  | idle written => rfl
  | command command =>
    rw [meaning] at meant
    exact obey_session meant
  | submission text =>
    rw [meaning] at meant
    obtain ⟨reason, report, refused, -⟩ := meant
    have unchanged : (session.ran text).2 = session.store := by
      rw [ran, runRecorded_store, runWithin, refused]
    simp only [submit_session, unchanged, settled.cleared]

/-- Among others, a harmless event that does not end the session only adds its own answer. -/
theorem playFrom_harmless {before : List Event} (lasts : session.Lasts before) {event : Event}
    (harmless : event.Harmless)
    (goesOn : ∀ failure, ¬ (session.after before).Ends event.meaning failure) (rest : List Event) :
    session.playFrom (before ++ event :: rest) =
      (session.answers before ++ ((session.after before).respond event).written ::
        ((session.after before).playFrom rest).1, ((session.after before).playFrom rest).2) := by
  have settled' := settled.after before
  rw [settled.playFrom_append lasts, playFrom]
  simp only [settled'.failure?_eq_none goesOn, settled'.respond_harmless harmless]

end Settled

/-- Where a session does not last, what comes later is not read. -/
theorem Settled.playFrom_of_not_lasts {session : Session} (settled : session.Settled)
    {before : List Event} (ended : ¬ session.Lasts before) (first second : List Event) :
    session.playFrom (before ++ first) = session.playFrom (before ++ second) := by
  rcases session.lasts_or_ends before with
    lasts | ⟨earlier, event, later, failure, rfl, lasts, ends⟩
  · exact absurd lasts ended
  · simp only [List.append_assoc, List.cons_append]
    rw [settled.playFrom_of_ends lasts ends, settled.playFrom_of_ends lasts ends]

/-- No event changes how a screen is cleared, whether runs are recorded, and the limit. -/
theorem respond_settings (session : Session) (event : Event) :
    (session.respond event).session.clearing = session.clearing ∧
      (session.respond event).session.recording = session.recording ∧
      (session.respond event).session.limit = session.limit := by
  rw [respond_eq]
  cases event.meaning with
  | idle written => exact ⟨rfl, rfl, rfl⟩
  | submission text =>
    rw [submit_session]
    exact ⟨rfl, rfl, rfl⟩
  | command command =>
    cases command with
    | clear | reset | unknown | bindings => exact ⟨rfl, rfl, rfl⟩
    | trace switch => cases switch <;> exact ⟨rfl, rfl, rfl⟩

theorem after_settings (session : Session) (events : List Event) :
    (session.after events).clearing = session.clearing ∧
      (session.after events).recording = session.recording ∧
      (session.after events).limit = session.limit := by
  induction events generalizing session with
  | nil => exact ⟨rfl, rfl, rfl⟩
  | cons event rest ih =>
    obtain ⟨clearing, recording, limit⟩ := session.respond_settings event
    rw [← clearing, ← recording, ← limit]
    exact ih (session.respond event).session

/-- A reset leads to a new session with the same settings. -/
theorem respond_reset (session : Session) {text : String}
    (reset : Command.ofLine? (normalize text) = some .reset) :
    session.respond (.line text) =
      ⟨⟨"Environment reset.\n", ""⟩,
        start session.clearing session.recording session.tracing session.limit, none⟩ := by
  rw [respond_eq, Event.meaning_of_command reset]
  rfl

end Session

/-- **Sessions are isolated**, as long as the text of every listed binding has room. A harmless
event among others leaves what is written in answer to each of them as it is, unless it lists a
binding whose text has no room and so ends the session; and after a reset, what is written is what a
new session writes that traces faults if the old one did. A readable event ends a session in no
other way than by a text that has no room. -/
theorem sessions_isolated (before after : List Event) (user? : Option String) (clearing : String)
    (recording tracing : Bool) (limit : Nat) :
    let session := Session.start clearing recording tracing limit
    (∀ inserted : Event, inserted.Harmless →
      (¬ session.Lasts before →
        session.play user? (before ++ inserted :: after) = session.play user? (before ++ after)) ∧
      (session.Lasts before → ∃ first last failure? written,
        first.length = before.length + 1 ∧
        session.play user? (before ++ after) = (first ++ last, failure?) ∧
        ((∀ failure, ¬ (session.after before).Ends inserted.meaning failure) →
          session.play user? (before ++ inserted :: after) =
            (first ++ written :: last, failure?)) ∧
        ∀ failure, (session.after before).Ends inserted.meaning failure →
          inserted.meaning = .command .bindings ∧ failure = .halted .nestingTooDeep ∧
            session.play user? (before ++ inserted :: after) =
              (first ++ [written], some failure))) ∧
    (∀ text, Command.ofLine? (Session.normalize text) = some .reset → session.Lasts before →
      ∃ first last failure?, first.length = before.length + 2 ∧
        session.play user? (before ++ .line text :: after) = (first ++ last, failure?) ∧
        (Session.start clearing recording (session.after before).tracing limit).play user? after =
          (⟨Session.greeting user?, ""⟩ :: last, failure?)) ∧
    ∀ events : List Event, (∀ event ∈ events, event.Readable) → ¬ session.Lasts events →
      (session.play user? events).2 = some (.halted .nestingTooDeep) := by
  intro session
  have settled : session.Settled := .start clearing recording tracing limit
  refine ⟨fun inserted harmless => ⟨fun ended => ?_, fun lasts => ?_⟩, fun text reset lasts => ?_,
    fun events readable ended => ?_⟩
  · rw [Session.play, Session.play, settled.playFrom_of_not_lasts ended]
  · -- the events after an insertion find the session that they find without it
    refine ⟨⟨Session.greeting user?, ""⟩ :: session.answers before,
      ((session.after before).playFrom after).1, ((session.after before).playFrom after).2,
      ((session.after before).respond inserted).written, ?_, ?_, fun goesOn => ?_,
      fun failure ends => ?_⟩
    · rw [List.length_cons, session.length_answers]
    · exact Session.play_of_playFrom (settled.playFrom_append lasts after)
    · exact Session.play_of_playFrom (settled.playFrom_harmless lasts harmless goesOn after)
    · obtain ⟨lists, deep⟩ := ends.of_harmless harmless
      exact ⟨lists, deep, Session.play_of_playFrom (settled.playFrom_of_ends lasts ends after)⟩
  · -- the events after a reset find a new session
    have restarted := (session.after before).respond_reset reset
    obtain ⟨sameClearing, sameRecording, sameLimit⟩ :
        (session.after before).clearing = clearing ∧ (session.after before).recording = recording ∧
          (session.after before).limit = limit := session.after_settings before
    rw [sameClearing, sameRecording, sameLimit] at restarted
    refine ⟨⟨Session.greeting user?, ""⟩ ::
        (session.answers before ++ [⟨"Environment reset.\n", ""⟩]),
      ((Session.start clearing recording (session.after before).tracing limit).playFrom after).1,
      ((Session.start clearing recording (session.after before).tracing limit).playFrom after).2,
      ?_, ?_, rfl⟩
    · rw [List.length_cons, List.length_append, session.length_answers, List.length_singleton]
    · rw [Session.play, settled.playFrom_append lasts, Session.playFrom, restarted]
      simp only [List.append_assoc, List.cons_append, List.nil_append]
  · rcases session.lasts_or_ends events with
      lasts | ⟨earlier, event, rest, failure, rfl, lasts, ends⟩
    · exact absurd lasts ended
    · have same := ends.of_readable (readable event (by simp))
      rw [Session.play, settled.playFrom_of_ends lasts ends, same]

/-- Whatever failed before, the answer to `f` is the same with and without a rejected line, and
after a reset it is that of a new session. -/
theorem sessions_isolated_failing :
    let session := Session.start "" false false 30
    let before : List Event :=
      [.line "let f = fn(x) \x7b x / 0 \x7d;", .line "f(1)", .line "1 + true", .interrupt]
    Event.Harmless (.line "let = 1") ∧
    Command.ofLine? (Session.normalize " /reset") = some .reset ∧ session.Lasts before ∧
    (∃ first last failure? written, first.length = 5 ∧
      session.play none (before ++ [.line "f"]) = (first ++ last, failure?) ∧
      session.play none (before ++ [.line "let = 1", .line "f"]) =
        (first ++ written :: last, failure?)) ∧
    ∃ first last failure?, first.length = 6 ∧
      session.play none (before ++ [.line " /reset", .line "f"]) = (first ++ last, failure?) ∧
      (Session.start "" false (session.after before).tracing 30).play none [.line "f"] =
        (⟨Session.greeting none, ""⟩ :: last, failure?) := by
  intro session before
  have settled : session.Settled := .start "" false false 30
  have answered : (session.playFrom before).2.isNone = true := by decide +kernel
  have lasts : session.Lasts before :=
    settled.lasts_of_playFrom (Option.isNone_iff_eq_none.mp answered)
  have plain : Command.ofLine? (Session.normalize "let = 1") = none :=
    Command.ofLine?_eq_none (by decide +kernel)
  have harmless : Event.Harmless (.line "let = 1") := by
    have visible : Session.normalize "let = 1" = "let = 1" := by decide +kernel
    have refused : parse "let = 1" = .error
        (.unexpectedToken ⟨.assign, "=", ⟨1, 5, 4⟩, 5⟩ (Reader.State.sought ⟨[], .letWord⟩)) := rfl
    refine .rejected (visible ▸ refused) rfl fun command found => ?_
    rw [plain] at found
    cases found
  have reset : Command.ofLine? (Session.normalize " /reset") = some .reset := by decide +kernel
  have filled : Text.isAllBlank (Session.normalize "let = 1") = false := by decide +kernel
  obtain ⟨inserted, restarted, -⟩ := sessions_isolated before [.line "f"] none "" false false 30
  obtain ⟨first, last, failure?, written, size, without, among, ended⟩ :=
    (inserted _ harmless).2 lasts
  refine ⟨harmless, reset, lasts, ⟨first, last, failure?, written, size, without, among ?_⟩,
    restarted _ reset lasts⟩
  intro failure ends
  obtain ⟨lists, -⟩ := ended failure ends
  rw [Event.meaning_of_submission filled plain] at lists
  cases lists

/-- The text of a deep function is a readable line: it has one digit. -/
theorem Event.readable_deep (count : Nat) : (Event.line (Deep.binding count)).Readable := by
  rintro digits ⟨run, within, each, rfl⟩
  rw [Session.normalize_of_visible (Deep.visible_binding count), Deep.toList_binding] at within
  have single : (Deep.naming ++ Deep.letters count).countP Char.isDigit = 1 := by
    have before : Deep.naming.countP Char.isDigit = 0 ∧ Deep.opening.countP Char.isDigit = 0 := by
      decide
    have between : (List.replicate count '!').countP Char.isDigit = 0 := by
      rw [List.countP_replicate]
      rfl
    have after : Deep.closing.countP Char.isDigit = 1 := by decide
    rw [Deep.letters, List.countP_append, List.countP_append, List.countP_append, before.1,
      before.2, between, after]
  have few : run.length ≤ 1 := by
    rw [← single, ← List.countP_eq_length.mpr each]
    exact within.sublist.countP_le
  exact few.trans (by decide)

/-- A session within whose limit a text has no room lasts while the value is bound, and ends when
the bindings are listed. -/
theorem Session.ends_of_deep (clearing : String) (tracing : Bool) {limit count : Nat}
    (levels : 3 ≤ limit) (many : limit ≤ count) :
    let session := Session.start clearing false tracing limit
    session.Lasts [.line (Deep.binding count)] ∧
      (session.after [.line (Deep.binding count)]).Ends (.command .bindings)
        (.halted .nestingTooDeep) := by
  intro session
  obtain ⟨program, value, parsed, yielded, bindings, deep⟩ := Deep.run_binding count levels
  have meaning := Deep.meaning_binding count
  have ran : session.ran (Deep.binding count) =
      runWithin limit (Deep.binding count) Store.root .initial := rfl
  constructor
  · refine .next (fun failure ends => ?_) .done
    rw [meaning] at ends
    cases ends with
    | digits refused => cases parsed.symm.trans refused
    | result result exceeds =>
      rw [ran, yielded] at result
      cases result
      exact exceeds.1 rfl
  · have store : (session.after [.line (Deep.binding count)]).store =
        (runWithin limit (Deep.binding count) Store.root .initial).2.cleared := by
      rw [Session.after, List.foldl_cons, List.foldl_nil, Session.respond_eq, meaning, ← ran]
      simp only [Session.submit_session]
    have bound : (session.after [.line (Deep.binding count)]).store.lookup? Store.root "f" =
        some value := by
      rw [store]
      exact Store.lookup?_of_bindings bindings
    have same : (session.after [.line (Deep.binding count)]).limit = limit :=
      (session.after_settings _).2.2
    have exceeds := Deep.exceeds_of_depth (Nat.lt_of_lt_of_le (by decide) levels) many deep
    exact .binding bound (same.symm ▸ exceeds)

/-- Once a function is bound whose text has no room, a listing of the bindings keeps an interrupt
from being answered. -/
theorem session_ended_by_listing :
    let session := Session.start "" false false
    let bound := Event.line (Deep.binding 20000)
    bound.Readable ∧ Event.Harmless (.line "/env") ∧
      (∃ written, session.play none [bound, .interrupt] = (written, none) ∧ written.length = 4) ∧
      ∃ written, session.play none [bound, .line "/env", .interrupt] =
        (written, some (.halted .nestingTooDeep)) ∧ written.length = 3 := by
  intro session bound
  have room : 3 ≤ nestingLimit - Session.calls ∧ nestingLimit - Session.calls ≤ 20000 := by decide
  have settled : session.Settled := .start "" false false _
  obtain ⟨lasts, ends⟩ := Session.ends_of_deep "" false room.1 room.2
  have listed : Command.ofLine? (Session.normalize "/env") = some .bindings := by decide +kernel
  rw [← Event.meaning_of_command listed] at ends
  have goesOn : ∀ session : Session, session.playFrom [.interrupt] =
      ([⟨"KeyboardInterrupt\n", ""⟩, ⟨Session.farewell, ""⟩], none) := fun _ => rfl
  have answered := settled.playFrom_append lasts [.interrupt]
  have ended := settled.playFrom_of_ends lasts ends [.interrupt]
  rw [goesOn] at answered
  rw [List.cons_append, List.nil_append] at answered ended
  exact ⟨Event.readable_deep 20000, .command listed (by simp [Command.Alters]),
    ⟨_, Session.play_of_playFrom answered, rfl⟩, _, Session.play_of_playFrom ended, rfl⟩

end Scriptlet
