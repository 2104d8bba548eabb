/-
**The course of a session.**

* `Outcome.Concluded`: the ways in which a run ends, as both the session and the command line tell
  them apart.
* `Event.Meaning`: what an event comes to: nothing, a slash command, or a text that is submitted.
* `Session.Ends`: the events that end a session: a number of too many digits, and the text of a
  result or of a binding that has no room. `Session.Lasts`: a session that no event of a sequence
  ends.
* `Session.Settled`: between two events, the values of a session are sound, and nothing that was
  printed is left over.
* `Session.answers`, `Session.after`: what is written in answer to events, and the session after
  them.

Main statements: these are just the events that end a session, and it stays settled after all others
(`Settled.failure?_eq_some`, `Settled.respond`); a sequence that lasts is answered one by one
(`Settled.playFrom_append`), and the first event that ends the session is the last
(`session_answers`).
-/
import Scriptlet.Proofs.Evaluation.Safety
import Scriptlet.Proofs.Reader.Misread
import Scriptlet.Proofs.Store.Names
import Scriptlet.Session

namespace Scriptlet

/-! ### How runs end -/

/-- The ways in which a run ends, where the calls that make the text of its result may nest up to a
limit. -/
inductive Outcome.Concluded (limit : Nat) (outcome : Outcome) : Prop
  | nothing : outcome.result = .ok .nothing → Concluded limit outcome
  /-- With a result that is shown. -/
  | shown {value : Value} {text : String} : outcome.result = .ok value → value.isError = false →
      ¬ value.Exceeds limit → value.rendered = .ok (some text) → Concluded limit outcome
  /-- With a result whose text has no room. -/
  | deep {value : Value} : outcome.result = .ok value → value.isError = false →
      value.Exceeds limit → Concluded limit outcome
  /-- With a runtime error, the text of which takes one call. -/
  | error {identity : Nat} {complaint : Complaint} :
      outcome.result = .ok (.error identity complaint) → 0 < limit → Concluded limit outcome
  /-- With a report on a text that is no program. -/
  | reported {reason : Rejection} {report : Report} :
      outcome.result = .error (.rejected reason) → reason.report? = some report →
      Concluded limit outcome
  /-- At a number of too many digits. -/
  | misread {digits : Nat} : outcome.result = .error (.rejected (.misread (.tooLong digits))) →
      Number.digitLimit < digits → Concluded limit outcome
  /-- In a fault that is reported in a session. -/
  | halted {fault : Fault} {heading : String} : outcome.result = .error (.halted fault) →
      fault.heading? = some heading → Concluded limit outcome

/-- A fault by design has a heading. -/
theorem Fault.ByDesign.heading {fault : Fault} (byDesign : fault.ByDesign) :
    ∃ heading, fault.heading? = some heading := by
  rcases byDesign with rfl | rfl
  · exact ⟨_, rfl⟩
  · exact ⟨_, rfl⟩

section Recorded

variable {limit : Nat} {recording : Bool} {source : String} {scope : ScopeId} {store : Store}

/-- Records add nothing to a result, and may take its place with a nesting beyond the limit. -/
theorem Outcome.recordedWithin_result (outcome : Outcome) :
    (outcome.recordedWithin limit).result = outcome.result ∨
      (∃ value, outcome.result = .ok value) ∧
        (outcome.recordedWithin limit).result = .error (.halted .nestingTooDeep) := by
  unfold recordedWithin
  split
  next value yielded =>
    split
    · exact Or.inl rfl
    · exact Or.inr ⟨⟨value, yielded⟩, rfl⟩
  · exact Or.inl rfl

-- two calls for an array and a number each, four for a hash and a pair of it
example :
    let result := Except.ok (.hash 0 [(.string 1 "a", .array 2 [.integer 3])])
    (Outcome.recordedWithin 8 ⟨none, result⟩).result = result ∧
      (Outcome.recordedWithin 7 ⟨none, result⟩).result = .error (.halted .nestingTooDeep) :=
  ⟨rfl, rfl⟩

/-- A recorded run ends as a run does, or beyond the limit where the run has a result. -/
theorem runRecorded_result :
    (runRecorded limit recording source scope store).1.result =
        (runWithin limit source scope store).1.result ∨
      (∃ value, (runWithin limit source scope store).1.result = .ok value) ∧
        (runRecorded limit recording source scope store).1.result =
          .error (.halted .nestingTooDeep) := by
  unfold runRecorded
  cases recording with
  | false => exact Or.inl rfl
  | true => exact (runWithin limit source scope store).1.recordedWithin_result

/-- A recorded run leaves the store of the run. -/
theorem runRecorded_store :
    (runRecorded limit recording source scope store).2 = (runWithin limit source scope store).2 :=
  rfl

/-- A run rejects what is no program. -/
theorem run_rejected {reason : Rejection} :
    (runRecorded limit recording source scope store).1.result = .error (.rejected reason) ↔
      parse source = .error reason := by
  have plain : (runWithin limit source scope store).1.result = .error (.rejected reason) ↔
      parse source = .error reason := by
    cases read : parse source with
    | error other => simp [runWithin, read]
    | ok program =>
      rw [runWithin_of_parse read]
      cases ((evaluate limit program scope).runFrom store).1 <;> simp [Except.mapError]
  rcases @runRecorded_result limit recording source scope store with
    same | ⟨⟨value, yielded⟩, halted⟩
  · rw [same, plain]
  · rw [← plain, yielded, halted]
    simp

/-- Within no level at all there is no result. -/
theorem limit_pos_of_result {value : Value}
    (yielded : (runRecorded limit recording source scope store).1.result = .ok value) :
    0 < limit := by
  cases limit with
  | succ limit => exact Nat.succ_pos limit
  | zero =>
    rcases @runRecorded_result 0 recording source scope store with same | ⟨-, halted⟩
    · rw [same] at yielded
      cases read : parse source with
      | error reason => simp [runWithin, read] at yielded
      | ok program =>
        rw [runWithin_of_parse read] at yielded
        cases yielded
    · rw [halted] at yielded
      cases yielded

/-- A result that has a text is shown, if there is room for it. -/
theorem Outcome.Concluded.of_rendered {outcome : Outcome} {value : Value} {text? : Option String}
    (result : outcome.result = .ok value) (rendered : value.rendered = .ok text?)
    (room : 0 < limit) : outcome.Concluded limit := by
  rcases Value.rendered_cases rendered with
    ⟨rfl, -⟩ | ⟨noError, text, rfl⟩ | ⟨identity, complaint, rfl⟩
  · exact .nothing result
  · by_cases exceeds : value.Exceeds limit
    · exact .deep result noError exceeds
    · exact .shown result noError exceeds rendered
  · exact .error result room

/-- **Every run is concluded** where values are sound. -/
theorem run_concluded (sound : store.Holds Value.Sound) :
    (runRecorded limit recording source Store.root store).1.Concluded limit := by
  cases read : parse source with
  | error reason =>
    have rejected := (@run_rejected limit recording source Store.root store reason).mpr read
    cases reported : reason.report? with
    | some report => exact .reported rejected reported
    | none =>
      obtain ⟨misread, rfl⟩ := Rejection.report?_eq_none.mp reported
      obtain ⟨digits, -, many, rfl⟩ := misread_of_parse read
      exact .misread rejected many
  | ok program =>
    obtain ⟨halts, yields⟩ := safety.run_settles sound read limit
    rcases @runRecorded_result limit recording source Store.root store with same | ⟨-, halted⟩
    · cases result : (runRecorded limit recording source Store.root store).1.result with
      | ok value =>
        obtain ⟨text, rendered⟩ := yields value (same.symm.trans result)
        exact .of_rendered result rendered (limit_pos_of_result result)
      | error failure =>
        obtain ⟨fault, rfl, byDesign⟩ := halts failure (same.symm.trans result)
        obtain ⟨heading, headed⟩ := byDesign.heading
        exact .halted result headed
    · exact .halted halted rfl

end Recorded

/-! ### Trimmed texts -/

namespace Text

/-- What a text starts with after the first blanks is kept, if none of it is blank. -/
theorem prefix_trim {text : String} {kept : List Char} (solid : ∀ c ∈ kept, isBlank c = false)
    (starts : kept <+: text.toList.dropWhile isBlank) : kept <+: (trim text).toList := by
  obtain ⟨rest, parts⟩ := starts
  have backwards : kept.reverse.dropWhile isBlank = kept.reverse := by
    rw [List.dropWhile_eq_self_iff]
    intro some_
    simpa using solid _ (List.mem_reverse.mp (List.getElem_mem some_))
  rw [trim, String.toList_ofList, trimChars, ← parts, List.reverse_append, List.dropWhile_append,
    backwards]
  split
  · simp
  · simp

/-- A character that is no blank stays at the start of a text. -/
theorem head?_trim {text : String} {first : Char} (starts : text.toList.head? = some first)
    (solid : isBlank first = false) : (trim text).toList.head? = some first := by
  obtain ⟨rest, parts⟩ := List.head?_eq_some_iff.mp starts
  have undropped : [first] <+: text.toList.dropWhile isBlank := by
    rw [parts, List.dropWhile_cons_of_neg (by simp [solid])]
    exact List.prefix_append [first] rest
  obtain ⟨kept, same⟩ := prefix_trim (List.forall_mem_singleton.mpr solid) undropped
  rw [← same]
  rfl

/-- Nothing is left of a text of blanks. -/
theorem trim_of_isAllBlank {text : String} (blank : isAllBlank text = true) : trim text = "" := by
  have dropped : text.toList.dropWhile isBlank = [] :=
    List.dropWhile_eq_nil_iff.mpr (List.all_eq_true.mp blank)
  rw [trim, trimChars, dropped]
  rfl

end Text

/-! ### What events mean -/

/-- What an event comes to. -/
inductive Event.Meaning where
  /-- Nothing but an answer. -/
  | idle (written : Written)
  | command (command : Command)
  | submission (text : String)

/-- What an event means. -/
def Event.meaning : Event → Meaning
  | .interrupt => .idle ⟨"KeyboardInterrupt\n", ""⟩
  | .line text =>
    if Text.isAllBlank (Session.normalize text) then .idle ⟨"", ""⟩
    else match Command.ofLine? (Session.normalize text) with
      | some command => .command command
      | none => .submission (Session.normalize text)

/-- A line that starts with no slash is no command. -/
theorem Command.ofLine?_eq_none {text : String}
    (noSlash : (Text.trim text).toList.head? ≠ some '/') : ofLine? text = none :=
  if_neg noSlash

/-- A blank line is no command. -/
theorem Command.isAllBlank_of_ofLine? {text : String} {command : Command}
    (found : ofLine? text = some command) : Text.isAllBlank text = false := by
  by_contra blank
  have trimmed : Text.trim text = "" := Text.trim_of_isAllBlank (by simpa using blank)
  rw [ofLine?_eq_none (by rw [trimmed]; decide)] at found
  cases found

/-- A line without invisible characters stays as it is. -/
theorem Session.normalize_of_visible {text : String}
    (visible : text.toList.any isInvisible = false) : normalize text = text := by
  have kept : ∀ c ∈ text.toList, (!isInvisible c) = true := by simpa using visible
  rw [normalize, List.filter_eq_self.mpr kept, String.ofList_toList]

/-- A command is carried out. -/
theorem Event.meaning_of_command {text : String} {command : Command}
    (found : Command.ofLine? (Session.normalize text) = some command) :
    (Event.line text).meaning = .command command := by
  rw [Event.meaning, Command.isAllBlank_of_ofLine? found, found]
  rfl

/-- Any other line that is not blank is submitted. -/
theorem Event.meaning_of_submission {text : String}
    (filled : Text.isAllBlank (Session.normalize text) = false)
    (plain : Command.ofLine? (Session.normalize text) = none) :
    (Event.line text).meaning = .submission (Session.normalize text) := by
  rw [Event.meaning, filled, plain]
  rfl

/-- A line without invisible characters that starts with neither a blank nor a slash is submitted as
it is. -/
theorem Event.meaning_of_visible {text : String} {first : Char}
    (visible : text.toList.any Session.isInvisible = false)
    (starts : text.toList.head? = some first) (solid : Text.isBlank first = false)
    (noSlash : first ≠ '/') : (Event.line text).meaning = .submission text := by
  have same := Session.normalize_of_visible visible
  have filled : Text.isAllBlank text = false := by
    obtain ⟨rest, parts⟩ := List.head?_eq_some_iff.mp starts
    simp [Text.isAllBlank, parts, solid]
  have plain : Command.ofLine? text = none := by
    refine Command.ofLine?_eq_none ?_
    rw [Text.head?_trim starts solid]
    simpa using noSlash
  rw [Event.meaning_of_submission (same.symm ▸ filled) (same.symm ▸ plain), same]

/-- Operators are visible. -/
theorem Deep.visible_operators (count : Nat) :
    (List.replicate count '!').any Session.isInvisible = false := by
  rw [List.any_eq_false]
  intro c member
  rw [List.eq_of_mem_replicate member]
  decide

/-- The text of a deep function has no invisible characters. -/
theorem Deep.visible_letters (count : Nat) :
    (letters count).any Session.isInvisible = false := by
  have first : opening.any Session.isInvisible = false := by decide
  have last : closing.any Session.isInvisible = false := by decide
  rw [letters, List.any_append, List.any_append, first, visible_operators, last]
  rfl

theorem Deep.visible_binding (count : Nat) :
    (binding count).toList.any Session.isInvisible = false := by
  have first : naming.any Session.isInvisible = false := by decide
  rw [toList_binding, List.any_append, first, visible_letters]
  rfl

/-- A binding of a deep function is submitted as it is. -/
theorem Deep.meaning_binding (count : Nat) :
    (Event.line (binding count)).meaning = .submission (binding count) :=
  have starts : (binding count).toList.head? = some 'l' := by
    rw [toList_binding]
    rfl
  Event.meaning_of_visible (visible_binding count) starts (by decide) (by decide)

/-- What is submitted is the line without its invisible characters. -/
theorem Event.meaning_eq_submission {text source : String}
    (submitted : (Event.line text).meaning = .submission source) :
    source = Session.normalize text := by
  simp only [Event.meaning] at submitted
  split at submitted
  · cases submitted
  · split at submitted
    · cases submitted
    · exact (Event.Meaning.submission.inj submitted).symm

/-- A command that changes a session. -/
def Command.Alters : Command → Prop
  | .trace _ | .reset => True
  | .clear | .bindings | .unknown _ => False

namespace Session

/-- An event is answered by its meaning. -/
theorem respond_eq (session : Session) (event : Event) :
    session.respond event =
      match event.meaning with
      | .idle written => ⟨written, session, none⟩
      | .command command => session.obey command
      | .submission text => session.submit text := by
  cases event with
  | interrupt => rfl
  | line text =>
    simp only [respond, Event.meaning]
    split
    · rfl
    · cases Command.ofLine? (normalize text) <;> rfl

/-! ### Settled sessions -/

/-- Values are sound, and nothing that was printed is left over. -/
structure Settled (session : Session) : Prop where
  sound : session.store.Holds Value.Sound
  printed : session.store.printed = #[]

/-- A session is settled at its start. -/
theorem Settled.start (clearing : String) (recording tracing : Bool) (limit : Nat) :
    (Session.start clearing recording tracing limit).Settled :=
  ⟨.initial, rfl⟩

/-- A text run on the bindings of a session. -/
def ran (session : Session) (text : String) : Outcome × Store :=
  runRecorded session.limit session.recording text Store.root session.store

/-- The session after a submission. -/
theorem submit_session (session : Session) (text : String) :
    (session.submit text).session = { session with store := (session.ran text).2.cleared } := by
  unfold submit ran
  split
  next outcome store ended =>
    rw [ended]
    dsimp only
    split
    · split
      · rfl
      · split <;> rfl
      · rfl
    · split <;> rfl
    · split <;> rfl

/-- Most commands leave a session as it is. -/
theorem obey_session {session : Session} {command : Command} (alike : ¬ command.Alters) :
    (session.obey command).session = session := by
  cases command with
  | trace | reset => exact absurd trivial alike
  | clear | unknown | bindings => rfl

/-! ### What ends a session -/

/-- What ends a session, and with which failure. -/
inductive Ends (session : Session) : Event.Meaning → Failure → Prop
  /-- A number that has too many digits is submitted. -/
  | digits {text : String} {digits : Nat} : parse text = .error (.misread (.tooLong digits)) →
      Number.digitLimit < digits →
      Ends session (.submission text) (.rejected (.misread (.tooLong digits)))
  /-- The text of a result has no room. -/
  | result {text : String} {value : Value} : (session.ran text).1.result = .ok value →
      value.Exceeds session.limit → Ends session (.submission text) (.halted .nestingTooDeep)
  /-- The bindings are listed, and the text of one has no room. -/
  | binding {name : String} {value : Value} :
      session.store.lookup? Store.root name = some value → value.Exceeds session.limit →
      Ends session (.command .bindings) (.halted .nestingTooDeep)

/-- A session that no event of a sequence ends. -/
inductive Lasts : Session → List Event → Prop
  | done {session : Session} : Lasts session []
  | next {session : Session} {event : Event} {rest : List Event} :
      (∀ failure, ¬ session.Ends event.meaning failure) →
      Lasts (session.respond event).session rest → Lasts session (event :: rest)

/-- A line of too many digits ends every session. -/
theorem ends_of_digits (session : Session) {digits : List Char}
    (each : ∀ c ∈ digits, c.isDigit = true) (many : Number.digitLimit < digits.length) :
    session.Ends (Event.line (String.ofList digits)).meaning
      (.rejected (.misread (.tooLong digits.length))) := by
  obtain ⟨first, rest, parts⟩ := List.exists_cons_of_length_pos (Nat.zero_lt_of_lt many)
  have leads : first.isDigit = true := each first (by simp [parts])
  have solid : Text.isBlank first = false := by
    by_contra blank
    have other := isDigit_of_isBlank (by simpa using blank)
    rw [leads] at other
    cases other
  have visible : (String.ofList digits).toList.any isInvisible = false := by
    have known : Scriptlet.digits.any isInvisible = false := by decide
    rw [String.toList_ofList, List.any_eq_false]
    exact fun c member => List.any_eq_false.mp known c (mem_digits (each c member))
  have starts : (String.ofList digits).toList.head? = some first := by
    rw [String.toList_ofList, parts, List.head?_cons]
  rw [Event.meaning_of_visible visible starts solid (digits_spec first (mem_digits leads)).2.2.1]
  exact .digits (parse_of_digits each many) many

/-- The listing of the bindings fails at the first value whose text has no room. -/
theorem listing_fault?_eq_some {store : Store} (sound : store.Holds Value.Sound) {limit : Nat}
    {fault : Fault} (names : List String) : (listing limit store names).2 = some fault ↔
      fault = .nestingTooDeep ∧ ∃ name ∈ names, ∃ value,
        store.lookup? Store.root name = some value ∧ value.Exceeds limit := by
  have renders : ∀ name, ((store.lookup? Store.root name).getD .nothing).Renders := by
    intro name
    cases found : store.lookup? Store.root name with
    | none => exact .of_rendered ⟨none, rfl⟩
    | some value =>
      have yielded : safety.Yields (.node .program []) store value :=
        .settled (.held (sound.of_lookup? found))
      exact .of_rendered (safety.rendered_of_yields yielded)
  have exceeds : ∀ name, ((store.lookup? Store.root name).getD .nothing).Exceeds limit ↔
      ∃ value, store.lookup? Store.root name = some value ∧ value.Exceeds limit := by
    intro name
    cases store.lookup? Store.root name with
    | none => simp [Value.Exceeds]
    | some value => simp
  induction names with
  | nil => simp [listing]
  | cons name rest ih =>
    rw [List.exists_mem_cons_iff, ← exceeds name]
    by_cases here : ((store.lookup? Store.root name).getD .nothing).Exceeds limit
    · simp only [listing, (renders name).beyond here, here, true_or, and_true, Option.some.injEq]
      exact eq_comm
    · obtain ⟨text?, shown⟩ := (renders name).within here
      simp only [listing, shown, here, false_or]
      exact ih

namespace Settled

variable {session : Session} (settled : session.Settled)

include settled

/-- Nothing is left over to be cleared. -/
theorem cleared : session.store.cleared = session.store := by
  rw [Store.cleared, ← settled.printed]

/-- The run of a text is concluded. -/
theorem concluded (text : String) : (session.ran text).1.Concluded session.limit :=
  run_concluded settled.sound

/-- A submission ends a session at a number of too many digits, and where the text of its result has
no room. -/
theorem submit_failure?_eq_some {text : String} {failure : Failure} :
    (session.submit text).failure? = some failure ↔
      session.Ends (.submission text) failure := by
  have concluded := settled.concluded text
  have rejects : ∀ reason, (session.ran text).1.result = .error (.rejected reason) ↔
      parse text = .error reason := fun _ => run_rejected
  have ends : session.Ends (.submission text) failure ↔
      (∃ digits, parse text = .error (.misread (.tooLong digits)) ∧ Number.digitLimit < digits ∧
        .rejected (.misread (.tooLong digits)) = failure) ∨
      ∃ value, (session.ran text).1.result = .ok value ∧ value.Exceeds session.limit ∧
        .halted .nestingTooDeep = failure := by
    constructor
    · rintro (⟨refused, many⟩ | ⟨result, exceeds⟩)
      · exact Or.inl ⟨_, refused, many, rfl⟩
      · exact Or.inr ⟨_, result, exceeds, rfl⟩
    · rintro (⟨digits, refused, many, rfl⟩ | ⟨value, result, exceeds, rfl⟩)
      · exact .digits refused many
      · exact .result result exceeds
  simp only [ends, ← rejects]
  unfold submit
  unfold ran at concluded ⊢
  generalize runRecorded session.limit session.recording text Store.root session.store = ended
    at concluded ⊢
  obtain ⟨outcome, store⟩ := ended
  dsimp only at concluded ⊢
  cases concluded with
  | nothing result => simp [result, Value.renderedWithin, Value.Exceeds]
  | shown result noError room rendered =>
    simp [result, noError, room, Value.renderedWithin_of_room room, rendered]
  | deep result _ exceeds => simp [result, exceeds, Value.renderedWithin_of_exceeds exceeds]
  | error result room =>
    simp [result, Value.not_exceeds_error room, Value.renderedWithin_error room, Value.isError]
  | @reported reason report result reported =>
    have legible : ∀ digits, reason ≠ .misread (.tooLong digits) := by
      rintro digits rfl
      cases reported
    simp [result, reported, legible]
  | misread result many => simp [result, many, Rejection.report?]
  | halted result headed => simp [result, headed]

/-- **A session fails at what ends it** and at nothing else. -/
theorem failure?_eq_some {event : Event} {failure : Failure} :
    (session.respond event).failure? = some failure ↔ session.Ends event.meaning failure := by
  rw [respond_eq]
  cases event.meaning with
  | idle written => exact iff_of_false (by simp) (by rintro ⟨⟩)
  | submission text => exact settled.submit_failure?_eq_some
  | command command =>
    cases command with
    | clear | reset | unknown => exact iff_of_false (by simp [obey]) (by rintro ⟨⟩)
    | trace switch => exact iff_of_false (by cases switch <;> simp [obey]) (by rintro ⟨⟩)
    | bindings =>
      simp only [obey, Option.map_eq_some_iff, listing_fault?_eq_some settled.sound]
      constructor
      · rintro ⟨_, ⟨rfl, name, -, value, found, exceeds⟩, rfl⟩
        exact .binding found exceeds
      · rintro (_ | _ | ⟨found, exceeds⟩)
        exact ⟨_, ⟨rfl, _, Store.mem_names_root found, _, found, exceeds⟩, rfl⟩

/-- A session goes on after what does not end it. -/
theorem failure?_eq_none {event : Event} (lasts : ∀ failure, ¬ session.Ends event.meaning failure) :
    (session.respond event).failure? = none := by
  refine Option.eq_none_iff_forall_ne_some.mpr fun failure failed => ?_
  exact lasts failure (settled.failure?_eq_some.mp failed)

/-- **A session stays settled.** -/
theorem respond (event : Event) : (session.respond event).session.Settled := by
  rw [respond_eq]
  cases event.meaning with
  | idle written => exact settled
  | submission text =>
    rw [submit_session]
    exact ⟨safety.run_sound settled.sound session.limit text, rfl⟩
  | command command =>
    cases command with
    | clear | unknown | bindings => exact settled
    | trace switch => cases switch <;> exact ⟨settled.sound, settled.printed⟩
    | reset => exact ⟨.initial, rfl⟩

end Settled

/-! ### Events one after another -/

/-- The session after events. -/
def after (session : Session) (events : List Event) : Session :=
  events.foldl (fun session event => (session.respond event).session) session

/-- What is written in answer to events, one by one. -/
def answers (session : Session) : List Event → List Written
  | [] => []
  | event :: rest =>
    (session.respond event).written :: (session.respond event).session.answers rest

/-- What a session writes comes after the greeting. -/
theorem play_of_playFrom {session : Session} {events : List Event} {written : List Written}
    {failure? : Option Failure} (played : session.playFrom events = (written, failure?))
    {user? : Option String} :
    session.play user? events = (⟨greeting user?, ""⟩ :: written, failure?) := by
  rw [play, played]

/-- Every event has an answer. -/
theorem length_answers (session : Session) (events : List Event) :
    (session.answers events).length = events.length := by
  induction events generalizing session with
  | nil => rfl
  | cons event rest ih => rw [answers, List.length_cons, List.length_cons, ih]

/-- A session lasts for all events, or up to the first one that ends it. -/
theorem lasts_or_ends (session : Session) (events : List Event) :
    session.Lasts events ∨ ∃ before event rest failure, events = before ++ event :: rest ∧
      session.Lasts before ∧ (session.after before).Ends event.meaning failure := by
  induction events generalizing session with
  | nil => exact Or.inl .done
  | cons event events ih =>
    by_cases ends : ∃ failure, session.Ends event.meaning failure
    · obtain ⟨failure, ends⟩ := ends
      exact Or.inr ⟨[], event, events, failure, rfl, .done, ends⟩
    · have here : ∀ failure, ¬ session.Ends event.meaning failure := not_exists.mp ends
      rcases ih (session.respond event).session with
        lasts | ⟨before, last, rest, failure, rfl, lasts, ends⟩
      · exact Or.inl (.next here lasts)
      · exact Or.inr ⟨event :: before, last, rest, failure, rfl, .next here lasts, ends⟩

namespace Settled

variable {session : Session} (settled : session.Settled)

include settled

/-- A session stays settled. -/
theorem after (events : List Event) : (session.after events).Settled := by
  induction events generalizing session with
  | nil => exact settled
  | cons event rest ih => exact ih (settled.respond event)

/-- **Events that a session lasts for are answered one by one**, and it goes on with the others. -/
theorem playFrom_append {events : List Event} (lasts : session.Lasts events) (rest : List Event) :
    session.playFrom (events ++ rest) =
      (session.answers events ++ ((session.after events).playFrom rest).1,
        ((session.after events).playFrom rest).2) := by
  induction lasts with
  | done => rfl
  | @next session event events here _ ih =>
    rw [List.cons_append, playFrom]
    simp only [settled.failure?_eq_none here, ih (settled.respond event)]
    rfl

/-- After events that a session lasts for it ends with the input. -/
theorem playFrom_of_lasts {events : List Event} (lasts : session.Lasts events) :
    session.playFrom events = (session.answers events ++ [⟨farewell, ""⟩], none) := by
  have played := settled.playFrom_append lasts []
  rwa [List.append_nil] at played

/-- Events that are answered up to the end of the input are such events. -/
theorem lasts_of_playFrom {events : List Event} (answered : (session.playFrom events).2 = none) :
    session.Lasts events := by
  rcases session.lasts_or_ends events with
    lasts | ⟨before, event, rest, failure, rfl, lasts, ends⟩
  · exact lasts
  · rw [settled.playFrom_append lasts, playFrom] at answered
    simp only [(settled.after before).failure?_eq_some.mpr ends] at answered
    cases answered

/-- What ends a session is the last that is answered. -/
theorem playFrom_of_ends {before : List Event} (lasts : session.Lasts before) {event : Event}
    {failure : Failure} (ends : (session.after before).Ends event.meaning failure)
    (rest : List Event) :
    session.playFrom (before ++ event :: rest) =
      (session.answers before ++ [((session.after before).respond event).written],
        some failure) := by
  rw [settled.playFrom_append lasts, playFrom]
  simp only [(settled.after before).failure?_eq_some.mpr ends]

end Settled

end Session

/-- **Every event is answered**, up to the first that ends the session, by a number of too many
digits or by a text that has no room: what comes after it is not read. -/
theorem session_answers (user? : Option String) (clearing : String) (recording tracing : Bool)
    (limit : Nat) (events : List Event) :
    let session := Session.start clearing recording tracing limit
    (session.Lasts events ∧ ∃ answers, answers.length = events.length ∧
      session.play user? events =
        (⟨Session.greeting user?, ""⟩ :: answers ++ [⟨Session.farewell, ""⟩], none)) ∨
    ∃ before event rest failure, events = before ++ event :: rest ∧ session.Lasts before ∧
      (session.after before).Ends event.meaning failure ∧
      ∃ answers, answers.length = before.length + 1 ∧
        session.play user? events = (⟨Session.greeting user?, ""⟩ :: answers, some failure) := by
  intro session
  have settled : session.Settled := .start clearing recording tracing limit
  rcases session.lasts_or_ends events with lasts | ⟨before, event, rest, failure, rfl, lasts, ends⟩
  · refine Or.inl ⟨lasts, session.answers events, session.length_answers events, ?_⟩
    exact Session.play_of_playFrom (settled.playFrom_of_lasts lasts)
  · refine Or.inr ⟨before, event, rest, failure, rfl, lasts, ends,
      session.answers before ++ [((session.after before).respond event).written], ?_, ?_⟩
    · rw [List.length_append, session.length_answers, List.length_singleton]
    · exact Session.play_of_playFrom (settled.playFrom_of_ends lasts ends rest)

/-- A line of too many digits ends a session, and the line after it is not answered. -/
theorem session_ended_by_digits :
    ∃ written failure, (Session.start "" false false).play none
        [.line (String.ofList (List.replicate 4301 '1')), .line "1"] = (written, some failure) ∧
      written.length = 2 := by
  have each : ∀ c ∈ List.replicate 4301 '1', c.isDigit = true := by
    intro c member
    rw [List.eq_of_mem_replicate member]
    rfl
  have many : Number.digitLimit < (List.replicate 4301 '1').length := by
    rw [List.length_replicate]
    decide
  have settled := Session.Settled.start "" false false (nestingLimit - Session.calls)
  have played := settled.playFrom_of_ends .done
    (Session.ends_of_digits ((Session.start "" false false).after []) each many) [.line "1"]
  rw [List.nil_append] at played
  exact ⟨_, _, Session.play_of_playFrom played, rfl⟩

end Scriptlet
