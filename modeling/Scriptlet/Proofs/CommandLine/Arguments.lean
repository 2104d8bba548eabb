/-
**What arguments amount to.**

Arguments give something one after another: a flag by itself, a flag with its value in one argument or
in two, or the source. Of what is given twice the last counts, and there is one source at most.

* `CommandLine.Reads`: what arguments give, and which flag lacks its value at their end, if one does.
* `CommandLine.requested`: what is asked for when all is given; `Request.arguments` is the shortest way
  to ask for it.

Main statements: `CommandLine.scanFrom_written`, what one thing given adds to a request;
`CommandLine.Reads.scanFrom_eq`, what all of them add, by induction on the arguments; and
`arguments_normalized`.
-/
import Scriptlet.CommandLine.Response

namespace Scriptlet

namespace CommandLine

/-- A text that is a flag, with its value or without. -/
inductive IsFlag : String → Prop
  | interactive : IsFlag "--repl"
  | grammar (name : String) : IsFlag ("--grammar=" ++ name)
  | grammarApart : IsFlag "--grammar"
  | level (name : String) : IsFlag ("--log-level=" ++ name)
  | levelApart : IsFlag "--log-level"

/-- What one argument gives, or two. -/
inductive Given where
  | interactive
  | grammar (name : String)
  | level (name : String)
  | source (text : String)
  deriving DecidableEq

/-- The arguments by which something is given. What follows a flag that has no value yet is its value,
whatever it looks like. -/
inductive Given.Written : Given → List String → Prop
  | interactive : Written .interactive ["--repl"]
  | grammar (name : String) : Written (.grammar name) ["--grammar=" ++ name]
  | grammarApart (name : String) : Written (.grammar name) ["--grammar", name]
  | level (name : String) : Written (.level name) ["--log-level=" ++ name]
  | levelApart (name : String) : Written (.level name) ["--log-level", name]
  | source {text : String} : ¬ IsFlag text → Written (.source text) [text]

/-- What arguments give in turn, and which flag lacks its value at their end. -/
inductive Reads : List String → List Given → Option Misuse → Prop
  | done : Reads [] [] none
  | grammarMissing : Reads ["--grammar"] [] (some .grammarMissing)
  | levelMissing : Reads ["--log-level"] [] (some .levelMissing)
  | next {given : Given} {written rest : List String} {givens : List Given}
      {missing : Option Misuse} : given.Written written → Reads rest givens missing →
      Reads (written ++ rest) (given :: givens) missing

/-! ### What is asked for -/

/-- The grammars given, in turn. -/
def grammars (givens : List Given) : List String :=
  givens.filterMap fun
    | .grammar name => some name
    | _ => none

/-- The levels given, in turn. -/
def levels (givens : List Given) : List String :=
  givens.filterMap fun
    | .level name => some name
    | _ => none

/-- The sources given, in turn. -/
def sources (givens : List Given) : List String :=
  givens.filterMap fun
    | .source text => some text
    | _ => none

/-- A request with more given: the last grammar and the last level count, and the first source. -/
def Request.with (request : Request) (givens : List Given) : Request where
  interactive := request.interactive || givens.contains .interactive
  grammar := (grammars givens).getLast?.or request.grammar
  level := (levels givens).getLast?.or request.level
  source := request.source.or (sources givens).head?

/-- What is asked for when all is given. -/
def requested (givens : List Given) : Request :=
  Request.with ⟨false, none, none, none⟩ givens

/-- The arguments that ask for something in as few arguments as can be. -/
def Request.arguments (request : Request) : List String :=
  (if request.interactive then ["--repl"] else []) ++
    (request.grammar.map ("--grammar=" ++ ·)).toList ++
    (request.level.map ("--log-level=" ++ ·)).toList ++ request.source.toList

/-- What becomes of a request with more given: a second source is unexpected, and otherwise a value
may be missing at the end. -/
def Request.outcome (request : Request) (givens : List Given) (missing : Option Misuse) :
    Except Misuse Request :=
  match ((request.source.toList ++ sources givens)[1]?.map Misuse.unexpected).or missing with
  | some misuse => .error misuse
  | none => .ok (request.with givens)

/-! ### What a single argument is -/

/-- What follows a flag in an argument, if the argument is the flag with a value after it. -/
theorem valueAfter?_eq_some {flag argument value : String} :
    valueAfter? flag argument = some value ↔ argument = flag ++ value := by
  rw [← String.toList_inj, String.toList_append, valueAfter?, Option.ite_none_right_eq_some,
    Option.some.injEq, List.isPrefixOf_iff_prefix]
  constructor
  · rintro ⟨⟨rest, parts⟩, rfl⟩
    rw [← parts, List.drop_left, String.toList_ofList]
  · intro same
    rw [same, List.drop_left, String.ofList_toList]
    exact ⟨List.prefix_append _ _, rfl⟩

theorem valueAfter?_append (flag value : String) : valueAfter? flag (flag ++ value) = some value :=
  valueAfter?_eq_some.mpr rfl

namespace Argument

theorem ofText_interactive : ofText "--repl" = .interactive := rfl

theorem ofText_grammarApart : ofText "--grammar" = .grammarFlag := by decide

theorem ofText_levelApart : ofText "--log-level" = .levelFlag := by decide

theorem ofText_grammar (name : String) : ofText ("--grammar=" ++ name) = .grammar name := by
  have found := valueAfter?_append CommandLine.grammarFlag name
  have other : "--grammar=" ++ name ≠ "--repl" := by
    intro same
    have none_ : valueAfter? CommandLine.grammarFlag "--repl" = none := by decide
    rw [← same] at none_
    exact nomatch found.symm.trans none_
  rw [ofText, if_neg other]
  simp only [show valueAfter? CommandLine.grammarFlag ("--grammar=" ++ name) = some name from found]

theorem ofText_level (name : String) : ofText ("--log-level=" ++ name) = .level name := by
  have found := valueAfter?_append CommandLine.levelFlag name
  have other : ∀ flag, valueAfter? CommandLine.levelFlag flag = none →
      "--log-level=" ++ name ≠ flag := by
    rintro flag none_ rfl
    exact nomatch found.symm.trans none_
  have apart : valueAfter? CommandLine.grammarFlag ("--log-level=" ++ name) = none := by
    rw [valueAfter?, String.toList_append]
    rfl
  simp only [ofText, apart, other "--repl" (by decide), other "--grammar" (by decide), if_false,
    show valueAfter? CommandLine.levelFlag ("--log-level=" ++ name) = some name from found]

/-- What is no flag is the source. -/
theorem ofText_source {text : String} (plain : ¬ IsFlag text) : ofText text = .source text := by
  have other : ∀ flag, IsFlag flag → text ≠ flag := by
    rintro flag flagged rfl
    exact plain flagged
  have apart : ∀ flag, (∀ value, IsFlag (flag ++ value)) → valueAfter? flag text = none := by
    intro flag flagged
    refine Option.eq_none_iff_forall_ne_some.mpr fun value found => ?_
    exact other _ (flagged value) (valueAfter?_eq_some.mp found)
  simp only [ofText, apart CommandLine.grammarFlag .grammar, apart CommandLine.levelFlag .level,
    other _ .interactive, other _ .grammarApart, other _ .levelApart, if_false]

end Argument

/-- Flags are told from sources by what they are as a single argument. -/
theorem isFlag_iff {text : String} : IsFlag text ↔ Argument.ofText text ≠ .source text := by
  refine ⟨?_, fun other => Classical.byContradiction fun plain =>
    other (Argument.ofText_source plain)⟩
  rintro (_ | name | _ | name | _)
  · decide
  · rw [Argument.ofText_grammar]
    exact nofun
  · decide
  · rw [Argument.ofText_level]
    exact nofun
  · decide

instance (text : String) : Decidable (IsFlag text) := decidable_of_iff _ isFlag_iff.symm

/-! ### What a request becomes -/

namespace Request

variable (request : Request)

theorem with_nil : request.with [] = request := by
  simp [Request.with, grammars, levels, sources]

theorem with_interactive :
    request.with [.interactive] = { request with interactive := true } := by
  simp [Request.with, grammars, levels, sources]

theorem with_grammar (name : String) :
    request.with [.grammar name] = { request with grammar := some name } := by
  simp [Request.with, grammars, levels, sources]

theorem with_level (name : String) :
    request.with [.level name] = { request with level := some name } := by
  simp [Request.with, grammars, levels, sources]

/-- What is given may be added to a request in two parts. -/
theorem with_append (first second : List Given) :
    (request.with first).with second = request.with (first ++ second) := by
  simp [Request.with, grammars, levels, sources, List.filterMap_append, List.getLast?_append,
    Bool.or_assoc, Option.or_assoc, List.head?_append]

/-- Where no source is given, there is no second one. -/
theorem second_source {givens : List Given} (sourceless : sources givens = []) :
    (request.source.toList ++ sources givens)[1]? = none := by
  rw [sourceless]
  rcases request.source with _ | _ <;> rfl

/-- Without a second source, what is given is added, and the sources that are then asked for are
those that there were and those given. -/
theorem outcome_of_single {givens : List Given}
    (single : (request.source.toList ++ sources givens)[1]? = none) :
    request.outcome givens none = .ok (request.with givens) ∧
      (request.with givens).source.toList = request.source.toList ++ sources givens := by
  refine ⟨by rw [outcome, single]; rfl, ?_⟩
  obtain ⟨interactive, grammar, level, source⟩ := request
  unfold Request.with
  generalize sources givens = texts at single ⊢
  rcases source with _ | first
  · rcases texts with _ | ⟨second, _ | ⟨third, rest⟩⟩
    · rfl
    · rfl
    · cases single
  · rcases texts with _ | ⟨second, rest⟩
    · rfl
    · cases single

/-- What becomes of a request is known from what the first thing given makes of it. -/
theorem outcome_cons (given : Given) (givens : List Given) (missing : Option Misuse) :
    request.outcome (given :: givens) missing =
      (request.outcome [given] none).bind fun next => next.outcome givens missing := by
  have parts : sources (given :: givens) = sources [given] ++ sources givens :=
    List.filterMap_append (l := [given])
  cases second : (request.source.toList ++ sources [given])[1]? with
  | none =>
    obtain ⟨added, texts⟩ := request.outcome_of_single second
    rw [added, Except.bind, outcome, outcome, texts, with_append, parts, List.append_assoc]
    rfl
  | some text =>
    have still : (request.source.toList ++ sources (given :: givens))[1]? = some text := by
      obtain ⟨inside, -⟩ := List.getElem?_eq_some_iff.mp second
      rw [parts, ← List.append_assoc, List.getElem?_append_left inside, second]
    rw [outcome, outcome, second, still]
    rfl

end Request

/-- **What one thing given adds to a request** before the rest of the arguments is looked at. -/
theorem scanFrom_written {given : Given} {written : List String} (means : given.Written written)
    (request : Request) (rest : List String) :
    scanFrom request (written ++ rest) =
      (request.outcome [given] none).bind fun next => scanFrom next rest := by
  -- Only a source can be unexpected, so whatever else is given is added.
  have added : ∀ given, sources [given] = [] →
      request.outcome [given] none = .ok (request.with [given]) := fun given sourceless =>
    (request.outcome_of_single (request.second_source sourceless)).1
  cases means with
  | interactive =>
    rw [added _ rfl, List.singleton_append, scanFrom.eq_def]
    simp only [Argument.ofText_interactive, Except.bind, request.with_interactive]
  | grammar name =>
    rw [added _ rfl, List.singleton_append, scanFrom.eq_def]
    simp only [Argument.ofText_grammar, Except.bind, request.with_grammar]
  | grammarApart name =>
    rw [added _ rfl, List.cons_append, scanFrom.eq_def]
    simp only [Argument.ofText_grammarApart, List.singleton_append, Except.bind,
      request.with_grammar]
  | level name =>
    rw [added _ rfl, List.singleton_append, scanFrom.eq_def]
    simp only [Argument.ofText_level, Except.bind, request.with_level]
  | levelApart name =>
    rw [added _ rfl, List.cons_append, scanFrom.eq_def]
    simp only [Argument.ofText_levelApart, List.singleton_append, Except.bind, request.with_level]
  | source plain =>
    obtain ⟨interactive, grammar, level, source?⟩ := request
    rw [List.singleton_append, scanFrom.eq_def]
    simp only [Argument.ofText_source plain]
    rcases source? with _ | first
    · simp [Request.outcome, Except.bind, Request.with, grammars, levels, sources]
    · simp [Request.outcome, Except.bind, sources]

namespace Reads

variable {arguments : List String} {givens : List Given} {missing : Option Misuse}

/-- **What all arguments add to a request.** -/
theorem scanFrom_eq (reads : Reads arguments givens missing) (request : Request) :
    scanFrom request arguments = request.outcome givens missing := by
  induction reads generalizing request with
  | done =>
    rw [(request.outcome_of_single (request.second_source rfl)).1, request.with_nil]
    rfl
  | grammarMissing =>
    rw [Request.outcome, request.second_source rfl, scanFrom.eq_def]
    simp only [Argument.ofText_grammarApart]
    rfl
  | levelMissing =>
    rw [Request.outcome, request.second_source rfl, scanFrom.eq_def]
    simp only [Argument.ofText_levelApart]
    rfl
  | @next given written rest givens missing means _ rest_eq =>
    rw [scanFrom_written means, request.outcome_cons _ givens]
    simp only [rest_eq]

/-- What is asked for by all arguments, unless they are misused. -/
theorem scan_eq_ok (reads : Reads arguments givens missing) {request : Request} :
    scan arguments = .ok request ↔
      (sources givens)[1]? = none ∧ missing = none ∧ request = requested givens := by
  rw [scan, reads.scanFrom_eq, Request.outcome, Option.toList_none, List.nil_append]
  rcases (sources givens)[1]? with _ | text <;> rcases missing with _ | misuse <;>
    simp [requested, eq_comm]

/-- How arguments are misused. -/
theorem scan_eq_error (reads : Reads arguments givens missing) {misuse : Misuse} :
    scan arguments = .error misuse ↔
      (∃ text, (sources givens)[1]? = some text ∧ misuse = .unexpected text) ∨
        (sources givens)[1]? = none ∧ missing = some misuse := by
  rw [scan, reads.scanFrom_eq, Request.outcome, Option.toList_none, List.nil_append]
  rcases (sources givens)[1]? with _ | text <;> rcases missing with _ | first <;>
    simp [eq_comm]

end Reads

/-- Arguments can be read one after another, to the end. -/
theorem exists_reads : ∀ arguments, ∃ givens missing, Reads arguments givens missing
  | [] => ⟨_, _, .done⟩
  | first :: rest => by
    obtain ⟨givens, missing, reads⟩ := exists_reads rest
    by_cases flagged : IsFlag first
    · cases flagged with
      | interactive => exact ⟨_, _, .next .interactive reads⟩
      | grammar name => exact ⟨_, _, .next (.grammar name) reads⟩
      | level name => exact ⟨_, _, .next (.level name) reads⟩
      | grammarApart =>
        match rest with
        | [] => exact ⟨_, _, .grammarMissing⟩
        | name :: later =>
          obtain ⟨givens, missing, reads⟩ := exists_reads later
          exact ⟨_, _, .next (.grammarApart name) reads⟩
      | levelApart =>
        match rest with
        | [] => exact ⟨_, _, .levelMissing⟩
        | name :: later =>
          obtain ⟨givens, missing, reads⟩ := exists_reads later
          exact ⟨_, _, .next (.levelApart name) reads⟩
    · exact ⟨_, _, .next (.source flagged) reads⟩

/-- What is given as a source is no flag. -/
theorem Reads.source_plain {arguments : List String} {givens : List Given}
    {missing : Option Misuse} (reads : Reads arguments givens missing) :
    ∀ text ∈ sources givens, ¬ IsFlag text := by
  induction reads with
  | done | grammarMissing | levelMissing => exact fun _ absent => nomatch absent
  | next means _ rest_plain =>
    cases means with
    | source plain => exact List.forall_mem_cons.mpr ⟨plain, rest_plain⟩
    | interactive | grammar | grammarApart | level | levelApart => exact rest_plain

/-- What the shortest arguments for a request ask for is that request. -/
theorem Request.scan_arguments (request : Request)
    (plain : ∀ text ∈ request.source, ¬ IsFlag text) :
    scan request.arguments = .ok request := by
  obtain ⟨interactive, grammar, level, source⟩ := request
  have ofText_source : ∀ text ∈ source, Argument.ofText text = .source text :=
    fun text asked => Argument.ofText_source (plain text asked)
  rcases interactive with _ | _ <;> rcases grammar with _ | _ <;> rcases level with _ | _ <;>
    rcases source with _ | text <;>
    simp_all [Request.arguments, scan, scanFrom, Argument.ofText_interactive,
      Argument.ofText_grammar, Argument.ofText_level]

/-! ### What depends on the scan only -/

/-- Arguments that ask for the same are answered alike. -/
theorem plan_congr {first second : List String} (same : scan first = scan second)
    (setting : String → Option String) (terminal : Bool) :
    plan setting terminal first = plan setting terminal second := by
  rw [plan, plan, same]

/-- Misused arguments are answered with what is said of them, before anything is run or read. -/
theorem respond_of_misuse {arguments : List String} {misuse : Misuse}
    (misused : scan arguments = .error misuse) (surroundings : Surroundings) :
    respond surroundings arguments = ⟨⟨"", ""⟩, some (.message misuse.message), none, []⟩ := by
  rw [respond, plan, misused]
  rfl

end CommandLine

open CommandLine

/-- **Arguments amount to the shortest ones that ask for the same.** Whatever they are, they give one
thing after another; the request is for what is given last of each kind, and the answer is the one
that the arguments of that request have. They are misused just if there is a second source, or else a
value is missing at the end; then that is all that is said. -/
theorem arguments_normalized (arguments : List String) :
    (∃ givens missing, Reads arguments givens missing) ∧
      ∀ givens missing, Reads arguments givens missing →
        (∀ request, scan arguments = .ok request →
          request = requested givens ∧ scan request.arguments = .ok request ∧
            ∀ surroundings,
              respond surroundings arguments = respond surroundings request.arguments) ∧
        (∀ misuse, scan arguments = .error misuse ↔
          (∃ text, (sources givens)[1]? = some text ∧ misuse = .unexpected text) ∨
            (sources givens)[1]? = none ∧ missing = some misuse) ∧
        ∀ misuse, scan arguments = .error misuse → ∀ surroundings,
          respond surroundings arguments =
            ⟨⟨"", ""⟩, some (.message misuse.message), none, []⟩ := by
  refine ⟨exists_reads arguments, fun givens missing reads => ⟨?_, ?_, ?_⟩⟩
  · intro request scanned
    obtain ⟨-, -, asked⟩ := reads.scan_eq_ok.mp scanned
    have plain : ∀ text ∈ request.source, ¬ IsFlag text := by
      rw [asked]
      exact fun text first => reads.source_plain text (List.mem_of_mem_head? first)
    have same : scan arguments = scan request.arguments :=
      scanned.trans (request.scan_arguments plain).symm
    refine ⟨asked, request.scan_arguments plain, fun surroundings => ?_⟩
    rw [respond, respond, plan_congr same]
  · exact fun misuse => reads.scan_eq_error
  · exact fun misuse misused => respond_of_misuse misused

/-- A value that looks like a flag, one with an equals sign in it, and a grammar given again; and a
source that is one too many before a value that is missing. -/
theorem arguments_normalized_again :
    (∀ surroundings,
      respond surroundings ["--grammar", "--repl", "--log-level=a=b", "x", "--grammar=g"] =
        respond surroundings ["--grammar=g", "--log-level=a=b", "x"]) ∧
      scan ["x", "--log-level", "--grammar", "y", "--grammar"] = .error (.unexpected "y") := by
  have plain : ∀ text ∈ ["x", "y"], ¬ IsFlag text := by decide
  have once := (arguments_normalized _).2 _ _
    (.next (.grammarApart "--repl") (.next (.level "a=b") (.next (.source (plain "x" (by simp)))
      (.next (.grammar "g") .done))))
  have again := (arguments_normalized _).2 _ _
    (.next (.source (plain "x" (by simp))) (.next (.levelApart "--grammar")
      (.next (.source (plain "y" (by simp))) .grammarMissing)))
  refine ⟨?_, ?_⟩
  · exact (once.1 ⟨false, some "g", some "a=b", some "x"⟩ rfl).2.2
  · exact (again.2.1 _).mpr (.inl ⟨"y", rfl, rfl⟩)

end Scriptlet
