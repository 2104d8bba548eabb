/-
**Arguments that are sources.**

An argument that is no flag is looked up as a path first. If it names nothing, it is the source
itself, unless the look-up comes to a name that no file can have.

* `Path.Overlong`: the look-up of a path comes to a name of more than 255 bytes, or the path has
  more than 4095 bytes as a whole.

Main statements: a look-up is refused for the length of a path where it is overlong, and nowhere
else (`Path.locate_eq_tooLong`); an argument that names nothing is run as the source that it is, as
if it were the input, unless it is overlong as a path (`source_argument_run`).
-/
import Scriptlet.Proofs.CommandLine.Arguments
import Scriptlet.Proofs.Reader.Accepts
import Mathlib.Data.List.Basic

namespace Scriptlet

namespace Path

/-! ### Characters of a path -/

/-- Every character of a piece is one of those that are cut. -/
theorem mem_of_mem_pieces {chars piece : List Char} (member : piece ∈ pieces chars) {c : Char}
    (inside : c ∈ piece) : c ∈ chars := by
  induction chars generalizing piece with
  | nil =>
    obtain rfl := List.mem_singleton.mp member
    cases inside
  | cons first rest ih =>
    unfold pieces at member
    split at member
    · rcases List.mem_cons.mp member with rfl | later
      · cases inside
      · exact List.mem_cons_of_mem _ (ih later inside)
    · split at member
      · obtain rfl := List.mem_singleton.mp member
        exact List.mem_cons.mpr (Or.inl (List.mem_singleton.mp inside))
      next whole =>
        rcases List.mem_cons.mp member with rfl | later
        · rcases List.mem_cons.mp inside with rfl | inner
          · exact List.mem_cons_self
          · exact List.mem_cons_of_mem _ (ih (whole ▸ List.mem_cons_self) inner)
        · exact List.mem_cons_of_mem _ (ih (whole ▸ List.mem_cons_of_mem _ later) inside)

/-- Every character of names with slashes between them is one of a name, or a slash. -/
theorem mem_intercalate {names : List String} {c : Char}
    (member : c ∈ ("/".intercalate names).toList) : c = '/' ∨ ∃ name ∈ names, c ∈ name.toList := by
  induction names with
  | nil => simp at member
  | cons first names ih =>
    cases names with
    | nil => exact Or.inr ⟨first, List.mem_singleton_self _, by simpa using member⟩
    | cons second names =>
      rw [String.intercalate_cons_cons, String.toList_append, String.toList_append] at member
      rcases List.mem_append.mp member with own | later
      · rcases List.mem_append.mp own with inside | slash
        · exact Or.inr ⟨first, List.mem_cons_self, inside⟩
        · exact Or.inl (List.mem_singleton.mp slash)
      · exact (ih later).imp_right fun ⟨name, among, inside⟩ =>
          ⟨name, List.mem_cons_of_mem _ among, inside⟩

/-- Every character of a path as it is shown is one of the text, a slash or a point. -/
theorem mem_of_mem_text {argument : String} {c : Char}
    (member : c ∈ (ofText argument).text.toList) : c ∈ argument.toList ∨ c = '/' ∨ c = '.' := by
  have components : ∀ name ∈ (ofText argument).components, ∀ c ∈ name.toList,
      c ∈ argument.toList := by
    intro name among c inside
    obtain ⟨piece, cut, rfl⟩ := List.mem_map.mp (List.mem_filter.mp among).1
    exact mem_of_mem_pieces cut (by simpa using inside)
  simp only [text] at member
  split at member
  · exact Or.inr (Or.inr (List.mem_singleton.mp member))
  · rw [String.toList_append, String.toList_ofList, List.mem_append] at member
    rcases member with slash | inner
    · exact Or.inr (Or.inl (List.eq_of_mem_replicate slash))
    · rcases mem_intercalate inner with rfl | ⟨name, among, inside⟩
      · exact Or.inr (Or.inl rfl)
      · exact Or.inl (components name among c inside)

/-- A path as it is shown has no zero character that its text has not. -/
theorem noZero_text {argument : String} (whole : '\x00' ∉ argument.toList) :
    '\x00' ∉ (ofText argument).text.toList := by
  intro member
  rcases mem_of_mem_text member with inside | slash | point
  · exact whole inside
  · cases slash
  · cases point

/-- What has no slash is one piece. -/
theorem pieces_of_noSlash {chars : List Char} (noSlash : '/' ∉ chars) : pieces chars = [chars] := by
  induction chars with
  | nil => rfl
  | cons first rest ih =>
    obtain ⟨other, others⟩ := not_or.mp (mt List.mem_cons.mpr noSlash)
    rw [pieces, if_neg (Ne.symm other), ih others]

/-- A text without slashes is its one component, if it is neither empty nor a point. -/
theorem components_of_noSlash {text : String} (noSlash : '/' ∉ text.toList) (some_ : text ≠ "")
    (noPoint : text ≠ ".") : (ofText text).components = [text] := by
  simp [ofText, pieces_of_noSlash noSlash, some_, noPoint]

/-- The empty text names the working directory. -/
theorem locate_empty (directory : Directory) :
    (ofText "").locate directory = .ok .directory := by
  have components : ofText "" = ⟨0, []⟩ := by decide +kernel
  rw [components]
  rfl

/-! ### Overlong paths -/

/-- A look-up of the path comes to a name of more than 255 bytes, or the path has more than 4095
bytes as a whole. -/
def Overlong (directory : Directory) (path : Path) : Prop :=
  4095 < path.text.utf8ByteSize ∨
    ∃ above name rest, path.components = above ++ name :: rest ∧ 255 < name.utf8ByteSize ∧
      ∀ outer, outer ≠ [] → outer <+: above → directory path.slashes outer = some .directory

section LocateFrom

variable {entry : List String → Option Entry} {start names : List String} {first : String}

/-- After a name that is not too long, the look-up may come to one that is only in a directory. -/
theorem locateFrom_cons_eq_tooLong (short : ¬ 255 < first.utf8ByteSize) :
    locateFrom entry start (first :: names) = .error .tooLong ↔
      entry (start ++ [first]) = some .directory ∧
        locateFrom entry (start ++ [first]) names = .error .tooLong := by
  rw [locateFrom, if_neg short]
  split
  next missing => simp [missing]
  next file =>
    rw [file]
    split <;> simp
  next opens => simp [opens]

/-- The names are looked up one by one until one is too long, as long as they name directories. -/
theorem locateFrom_eq_tooLong :
    locateFrom entry start names = .error .tooLong ↔
      ∃ above name rest, names = above ++ name :: rest ∧ 255 < name.utf8ByteSize ∧
        ∀ outer, outer ≠ [] → outer <+: above → entry (start ++ outer) = some .directory := by
  induction names generalizing start with
  | nil => simp [locateFrom]
  | cons first names ih =>
    by_cases long : 255 < first.utf8ByteSize
    · rw [locateFrom, if_pos long]
      refine iff_of_true rfl ⟨[], first, names, rfl, long, fun outer some_ leads => ?_⟩
      exact absurd (List.prefix_nil.mp leads) some_
    · rw [locateFrom_cons_eq_tooLong long, ih]
      constructor
      · rintro ⟨opens, above, name, rest, rfl, long', directories⟩
        refine ⟨first :: above, name, rest, rfl, long', fun outer some_ leads => ?_⟩
        obtain ⟨other, inner, rfl⟩ := List.exists_cons_of_ne_nil some_
        obtain ⟨rfl, within⟩ := List.cons_prefix_cons.mp leads
        cases inner with
        | nil => exact opens
        | cons => simpa using directories _ (List.cons_ne_nil _ _) within
      · rintro ⟨above, name, rest, parts, long', directories⟩
        cases above with
        | nil =>
          obtain ⟨rfl, -⟩ := List.cons.inj parts
          exact absurd long' long
        | cons other above =>
          obtain ⟨rfl, rfl⟩ := List.cons.inj parts
          refine ⟨directories [first] (List.cons_ne_nil _ _) (by simp), above, name, rest, rfl,
            long', fun outer _ leads => ?_⟩
          rw [List.append_assoc]
          exact directories (first :: outer) (List.cons_ne_nil _ _)
            (List.cons_prefix_cons.mpr ⟨rfl, leads⟩)

end LocateFrom

/-- **A look-up is refused for the length of a path** where it is overlong, and nowhere else. -/
theorem locate_eq_tooLong {directory : Directory} {path : Path}
    (whole : '\x00' ∉ path.text.toList) :
    path.locate directory = .error .tooLong ↔ path.Overlong directory := by
  unfold locate Overlong
  rw [if_neg (by simpa using whole)]
  split
  next long => exact iff_of_true rfl (Or.inl long)
  next short =>
    rw [locateFrom_eq_tooLong]
    simp [short]

end Path

namespace CommandLine

variable {surroundings : Surroundings} {argument : String}

/-- What starts with no dash is no flag. -/
theorem Argument.ofText_of_noDash {text : String} (noDash : text.toList.head? ≠ some '-') :
    ofText text = .source text := by
  refine ofText_source fun flagged => noDash ?_
  cases flagged with
  | interactive | grammarApart | levelApart => decide
  | grammar | level =>
    rw [String.toList_append]
    rfl

/-- A single argument that is no flag is the source, and nothing else is set. -/
theorem scan_of_source (plain : Argument.ofText argument = .source argument) :
    scan [argument] = .ok ⟨false, none, none, some argument⟩ := by
  simp only [scan, scanFrom, plain]

/-- A single argument that is no flag is looked for as a source, if the level that the environment
sets is known. -/
theorem respond_of_source (plain : Argument.ofText argument = .source argument)
    {level? : Option Level}
    (level : Level.resolve none (surroundings.setting Level.levelVariable) = .ok level?) :
    respond surroundings [argument] =
      runSource surroundings (level? == some .debug) ⟨false, none, none, some argument⟩ := by
  have planned : plan surroundings.setting surroundings.terminal [argument] =
      .ok (.source (level? == some .debug) ⟨false, none, none, some argument⟩) := by
    rw [plan, scan_of_source plain]
    simp only [Except.mapError, bind, Except.bind, level]
    rfl
  rw [respond, planned]

/-- With a level in the environment that is not known, nothing is run. -/
theorem respond_of_unknown (plain : Argument.ofText argument = .source argument) {raw : String}
    (unknown : Level.resolve none (surroundings.setting Level.levelVariable) = .error raw) :
    respond surroundings [argument] =
      (Ending.exit (.message (Level.unknownMessage raw))).response := by
  have planned : plan surroundings.setting surroundings.terminal [argument] =
      .error (.message (Level.unknownMessage raw)) := by
    rw [plan, scan_of_source plain]
    simp only [Except.mapError, bind, Except.bind, unknown]
  rw [respond, planned]

/-- A source that is found is run, and nothing else is recorded than its run. -/
theorem runSource_of_ok {recording : Bool} {source? : Option String} {source : String}
    (found : sourceOf surroundings source? = .ok source) :
    let ran := runRecorded surroundings.limit recording source Store.root .initial
    runSource surroundings recording ⟨false, none, none, source?⟩ =
      conclude surroundings.limit ran.1 ran.2.output
        (if recording then ran.1.shownRecords else "") := by
  simp only [runSource, found, readGrammar, Option.getD_none, if_true, String.empty_append]

/-- An argument is a source where the look-up fails, unless it fails for its length. -/
theorem sourceOf_of_error (other : argument ≠ "-") {obstacle : Path.Obstacle}
    (refused : (Path.ofText argument).locate surroundings.directory = .error obstacle) :
    sourceOf surroundings (some argument) =
      if obstacle = .tooLong then
        .error (.breakdown (.unreadable (Path.ofText argument) .tooLong))
      else .ok argument := by
  unfold sourceOf
  split
  next same => cases same
  next same => exact absurd (Option.some.inj same) other
  next same =>
    obtain rfl := Option.some.inj same
    simp only [refused]
    cases obstacle <;> rfl

/-- An argument that is too long for a name breaks the program down. -/
theorem respond_of_tooLong (plain : Argument.ofText argument = .source argument)
    (other : argument ≠ "-") {level? : Option Level}
    (level : Level.resolve none (surroundings.setting Level.levelVariable) = .ok level?)
    (refused : (Path.ofText argument).locate surroundings.directory = .error .tooLong) :
    respond surroundings [argument] =
      ⟨⟨"", ""⟩, none, some (.unreadable (Path.ofText argument) .tooLong), []⟩ := by
  have found := sourceOf_of_error other refused
  rw [if_pos rfl] at found
  rw [respond_of_source plain level, runSource, found]
  rfl

end CommandLine

/-- **An argument that names nothing is run as the source that it is**, if it is no flag and not the
sign for the input, unless it is overlong as a path: the response is that to the same text as the
input, and tells how its run has ended. An overlong one breaks the program down before anything is
run. Nothing is run either with a level in the environment that is not known. -/
theorem source_argument_run {surroundings : Surroundings} {argument : String}
    (plain : CommandLine.Argument.ofText argument = .source argument) (other : argument ≠ "-")
    (whole : '\x00' ∉ argument.toList)
    (absent : ∀ entry, (Path.ofText argument).locate surroundings.directory ≠ .ok entry) :
    let path := Path.ofText argument
    let level := Level.resolve none (surroundings.setting Level.levelVariable)
    (∀ level?, level = .ok level? →
      let ran :=
        runRecorded surroundings.limit (level? == some .debug) argument Store.root .initial
      (¬ path.Overlong surroundings.directory →
        CommandLine.respond surroundings [argument] =
            CommandLine.conclude surroundings.limit ran.1 ran.2.output
              (if level? = some .debug then ran.1.shownRecords else "") ∧
          CommandLine.respond surroundings [argument] =
            CommandLine.respond { surroundings with input := argument } ["-"]) ∧
      (path.Overlong surroundings.directory →
        CommandLine.respond surroundings [argument] =
          ⟨⟨"", ""⟩, none, some (.unreadable path .tooLong), []⟩)) ∧
    ∀ raw, level = .error raw → CommandLine.respond surroundings [argument] =
      ⟨⟨"", ""⟩, some (.message (Level.unknownMessage raw)), none, []⟩ := by
  intro path level
  have overlong := @Path.locate_eq_tooLong surroundings.directory path (Path.noZero_text whole)
  obtain ⟨obstacle, refused⟩ : ∃ obstacle, path.locate surroundings.directory = .error obstacle := by
    cases located : path.locate surroundings.directory with
    | ok entry => exact absurd located (absent entry)
    | error obstacle => exact ⟨obstacle, rfl⟩
  rw [refused, Except.error.injEq] at overlong
  have found := CommandLine.sourceOf_of_error other refused
  refine ⟨fun level? known => ⟨fun short => ?_, fun long => ?_⟩, fun raw unknown => ?_⟩
  · have some_ : argument ≠ "" := by
      rintro rfl
      exact absent .directory (Path.locate_empty surroundings.directory)
    have given : CommandLine.sourceOf { surroundings with input := argument } (some "-") =
        .ok argument := if_neg some_
    have dash : CommandLine.Argument.ofText "-" = .source "-" := by decide
    rw [if_neg (mt overlong.mp short)] at found
    have own := (CommandLine.respond_of_source plain known).trans (CommandLine.runSource_of_ok found)
    have input := (@CommandLine.respond_of_source { surroundings with input := argument } _ dash _
      known).trans (CommandLine.runSource_of_ok given)
    rw [own, input]
    simp only [beq_iff_eq, and_self]
  · rw [overlong.mpr long] at refused
    exact CommandLine.respond_of_tooLong plain other known refused
  · exact CommandLine.respond_of_unknown plain unknown

/-- A program with slashes in it is looked up in a directory, which holds only a file of another
name, and then run. -/
theorem source_argument_run_slashes :
    let argument := "let b = 8; puts(b / 2); b / 1"
    let directory : Path.Directory := fun _ names =>
      if names = ["b"] then some (.file .empty) else none
    let surroundings : Surroundings := ⟨fun _ => none, directory, "", false, none, [], "", nestingLimit⟩
    CommandLine.Argument.ofText argument = .source argument ∧ argument ≠ "-" ∧
      '\x00' ∉ argument.toList ∧
      (∀ entry, (Path.ofText argument).locate directory ≠ .ok entry) ∧
      (CommandLine.respond surroundings [argument]).written = ⟨"4\n8\n", ""⟩ ∧
      (CommandLine.respond surroundings [argument]).exit? = none := by
  intro argument directory surroundings
  have plain : CommandLine.Argument.ofText argument = .source argument := by decide +kernel
  have other : argument ≠ "-" := by decide
  have whole : '\x00' ∉ argument.toList := by decide
  have missing : (Path.ofText argument).locate directory = .error .missing := by
    have lacks : (match (Path.ofText argument).locate directory with
      | .error .missing => true
      | _ => false) = true := by decide +kernel
    split at lacks
    next missing => exact missing
    · cases lacks
  have absent : ∀ entry, (Path.ofText argument).locate directory ≠ .ok entry := by simp [missing]
  have short : ¬ (Path.ofText argument).Overlong directory := by
    rw [← Path.locate_eq_tooLong (Path.noZero_text whole), missing]
    simp
  obtain ⟨runs, -⟩ := @source_argument_run surroundings argument plain other whole absent
  obtain ⟨response, -⟩ := (runs none rfl).1 short
  rw [response]
  exact ⟨plain, other, whole, absent, by decide +kernel, by decide +kernel⟩

/-- A number with 255 spaces after it is a program, but no file can have its name, and so it is not
run. -/
theorem source_argument_refused :
    let argument := String.ofList ('7' :: List.replicate 255 ' ')
    let surroundings : Surroundings := ⟨fun _ => none, fun _ _ => none, "", false, none, [], "", nestingLimit⟩
    CommandLine.Argument.ofText argument = .source argument ∧ argument ≠ "-" ∧
      '\x00' ∉ argument.toList ∧
      (∀ entry, (Path.ofText argument).locate surroundings.directory ≠ .ok entry) ∧
      (∃ program, parse argument = .ok program) ∧
      CommandLine.respond surroundings [argument] =
        ⟨⟨"", ""⟩, none, some (.unreadable (Path.ofText argument) .tooLong), []⟩ := by
  intro argument surroundings
  have chars : argument.toList = '7' :: List.replicate 255 ' ' := String.toList_ofList
  have lacks : ∀ c, c ≠ '7' → c ≠ ' ' → c ∉ argument.toList := by
    intro c noDigit noSpace member
    rw [chars, List.mem_cons] at member
    exact noSpace (List.eq_of_mem_replicate (member.resolve_left noDigit))
  have other : ∀ {text : String}, text.toList.head? ≠ some '7' → argument ≠ text := by
    rintro text distinct rfl
    exact distinct (by rw [chars]; rfl)
  have plain : CommandLine.Argument.ofText argument = .source argument :=
    CommandLine.Argument.ofText_of_noDash (by rw [chars]; decide)
  have tooLong : (Path.ofText argument).locate surroundings.directory = .error .tooLong := by
    have components : (Path.ofText argument).components = [argument] :=
      Path.components_of_noSlash (lacks '/' (by decide) (by decide)) (other (by decide))
        (other (by decide))
    have long : 255 < argument.utf8ByteSize := by decide +kernel
    refine (Path.locate_eq_tooLong (Path.noZero_text (lacks _ (by decide) (by decide)))).mpr
      (Or.inr ⟨[], argument, [], components, long, fun outer some_ leads => ?_⟩)
    exact absurd (List.prefix_nil.mp leads) some_
  have accepted : (parse argument).isOk = true := by
    rw [parse, chars]
    decide +kernel
  exact ⟨plain, other (by decide), lacks _ (by decide) (by decide), by simp [tooLong],
    exists_program_of_isOk accepted,
    CommandLine.respond_of_tooLong plain (other (by decide)) rfl tooLong⟩

end Scriptlet
