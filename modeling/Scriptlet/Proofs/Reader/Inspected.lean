/-
**The text of data is read as their literal.**

* `Reader.Writes`: tokens may be written as a text, before whatever goes on with none of them.

Main statements: the text of data is that of the tokens of their literal (`Value.Data.writes`), by
induction on data, with one lemma for items between brackets (`Writes.enclosed`) and one for a key
and its value (`Writes.pair`); and so the text is read as the program of the literal alone
(`Value.Data.parse_inspect`).
-/
import Scriptlet.Proofs.Reader.Rendered
import Scriptlet.Proofs.Value.Data

namespace Scriptlet

namespace Reader

open Scriptlet.Tree (listed)

/-- Tokens may be written as a text, before whatever goes on with none of them. -/
structure Writes (tokens : List Token) (text : String) : Prop where
  begins : Begins text.toList
  spaced : ∀ {more : List Token} {rest : List Char}, Ends rest → Spaced more rest →
    Spaced (tokens ++ more) (text.toList ++ rest)

namespace Writes

variable {tokens tokens' : List Token} {text text' : String}


/-- A token that is an operand by itself. -/
theorem of_token {token : Token} (plain : token.Plain)
    (operand : token.kind ∈ [.integer, .trueWord, .falseWord]) : Writes [token] token.text := by
  have known : ∀ kind ∈ [Kind.integer, .trueWord, .falseWord],
      kind ≠ .string ∧ kind ∈ [.identifier, .integer, .string, .trueWord, .falseWord] := by decide
  obtain ⟨noString, among⟩ := known _ operand
  have written : token.written = token.text.toList := Token.Plain.written_of_ne noString
  constructor
  · rw [← written]
    exact begins_of_plain plain among
  · intro more rest ends spaced
    rw [← written]
    exact .token plain (ends.apart _) spaced

/-- The operator of a negative number. -/
theorem negative (writes : Writes tokens text) :
    Writes (⟨.minus, "-", default, 0⟩ :: tokens) ("-" ++ text) := by
  have letters : ("-" ++ text).toList = '-' :: text.toList := by simp
  refine ⟨⟨'-', _, letters, by decide⟩, fun {more rest} ends spaced => ?_⟩
  rw [letters]
  have plain : (⟨.minus, "-", default, 0⟩ : Token).Plain := by decide
  exact .token plain (writes.begins.apart (by decide) rest) (writes.spaced ends spaced)

/-- Items with commas, before a mark that closes them. -/
theorem spaced_listed {items : List (List Token)} {texts : List String}
    (each : List.Forall₂ Writes items texts) (some_ : items ≠ []) {more : List Token}
    {rest : List Char} (ends : Ends rest) (closing : Spaced more rest) :
    Spaced (listed items ++ more) ((", ".intercalate texts).toList ++ rest) := by
  rw [String.toList_intercalate]
  induction each with
  | nil => exact absurd rfl some_
  | @cons tokens text items texts here others ih =>
    cases others with
    | nil => simpa [listed] using here.spaced ends closing
    | @cons second text' items texts next others =>
      have later := ih (by simp)
      obtain ⟨plain, written⟩ := @Token.plain_mark .comma ',' rfl
      have comma := Spaced.token plain .space later.space
      rw [written] at comma
      have all := here.spaced (.cons (by decide) _) comma
      rw [List.map_cons, List.map_cons, List.intercalate_cons_cons]
      simpa [listed] using all

/-- **Items between brackets**, with commas. -/
theorem enclosed {opening closing : Kind} {first last : Char}
    (opens : opening.spelling?.map String.toList = some [first])
    (closes : closing.spelling?.map String.toList = some [last]) (mark : opening ∈ Kind.marks)
    (starts : first ≠ '=' ∧ first ≠ '/') (stops : isNamePart last = false ∧ last ≠ '=' ∧ last ≠ '/')
    {items : List (List Token)} {texts : List String} (each : List.Forall₂ Writes items texts) :
    Writes (.mark opening :: (listed items ++ [.mark closing]))
      (String.singleton first ++ ", ".intercalate texts ++ String.singleton last) := by
  obtain ⟨plain, written⟩ := Token.plain_mark opens
  obtain ⟨plain', written'⟩ := Token.plain_mark closes
  have letters : (String.singleton first ++ ", ".intercalate texts ++ String.singleton last).toList =
      first :: ((", ".intercalate texts).toList ++ [last]) := by simp
  refine ⟨⟨first, _, letters, starts⟩, fun {more rest} ends spaced => ?_⟩
  have close : Spaced (.mark closing :: more) (last :: rest) := by
    have taken := Spaced.token plain' (ends.apart _) spaced
    rwa [written'] at taken
  have inside : Spaced (listed items ++ .mark closing :: more)
      ((", ".intercalate texts).toList ++ last :: rest) := by
    cases each with
    | nil => simpa [listed] using close
    | cons here others =>
      exact spaced_listed (.cons here others) (by simp) (.cons stops rest) close
  have apart : opening.Apart ((", ".intercalate texts).toList ++ last :: rest) := by
    simpa using (begins_listed (begins_of_mem each fun _ _ => begins) stops.2).apart mark rest
  have all := Spaced.token plain apart inside
  rw [written] at all
  rw [letters]
  simpa using all

/-- **A key and its value**, with a colon and a space between them. -/
theorem pair (writes : Writes tokens text) (writes' : Writes tokens' text') :
    Writes (tokens ++ .mark .colon :: tokens') (text ++ ": " ++ text') := by
  have letters : (text ++ ": " ++ text').toList = text.toList ++ ':' :: ' ' :: text'.toList := by
    simp
  refine ⟨letters ▸ writes.begins.append _, fun {more rest} ends spaced => ?_⟩
  obtain ⟨plain, written⟩ := @Token.plain_mark .colon ':' rfl
  have colon := Spaced.token plain .space (writes'.spaced ends spaced).space
  rw [written] at colon
  have all := writes.spaced (.cons (by decide) _) colon
  rw [letters]
  simpa using all

end Writes

end Reader

/-! ### Data -/

namespace Value

open Reader (Writes Reads)
open Scriptlet.Tree (spelled spelledAll listed)

/-- The numeral of a number that is not negative is plain. -/
theorem plain_integer {number : Nat} (fits : (number : Int) ≤ Number.greatest) :
    (⟨.integer, toString (number : Int), default, 0⟩ : Token).Plain :=
  Or.inr (Or.inl ⟨rfl, Number.isNumberText_repr fits⟩)

/-- A negative integer, as an operand of the operator. -/
theorem numeral_negSucc (number : Nat) :
    numeral (.negSucc number) = Build.unary "-" (Build.integer ((number + 1 : Nat) : Int)) :=
  if_pos (Int.negSucc_lt_zero number)

theorem numeral_ofNat (number : Nat) : numeral (number : Int) = Build.integer number :=
  if_neg (Int.not_lt.mpr (Int.natCast_nonneg number))

/-- Integers that have a numeral are those of a sign and a number of 64 bits. -/
theorem fits_of_negSucc {number : Nat} (least : -Number.greatest ≤ .negSucc number) :
    ((number + 1 : Nat) : Int) ≤ Number.greatest := by
  omega

namespace Data

variable {value : Value}

/-- The literal of data has no blocks. -/
theorem blockless (data : value.Data) : value.literal.Blockless .expression := by
  induction data with
  | @integer number least most =>
    cases number with
    | ofNat number =>
      show (numeral (number : Int)).Blockless .expression
      rw [numeral_ofNat]
      exact .integer rfl (plain_integer most)
    | negSucc number =>
      rw [literal, numeral_negSucc]
      exact .unary (Or.inr rfl) (by decide) (.integer rfl (plain_integer (fits_of_negSucc least)))
  | boolean truth => cases truth <;> exact .boolean (by decide) (by decide)
  | array _ each =>
    rw [literal, literals_eq_map]
    refine .array fun part member => ?_
    obtain ⟨element, among, rfl⟩ := List.mem_map.mp member
    exact each element among
  | hash _ _ _ _ keys values =>
    rw [literal, literalPairs_eq_map]
    refine .hash fun part member => ?_
    obtain ⟨pair, among, rfl⟩ := List.mem_map.mp member
    exact .pair (keys pair among) (values pair among)

/-- The elements of data have their texts. -/
theorem exists_writes {elements : List Value}
    (each : ∀ element ∈ elements, ∃ text, element.inspect = .ok text ∧
      Writes element.literal.spelled text) :
    ∃ texts, inspectAll elements = .ok texts ∧
      List.Forall₂ Writes (spelledAll (literals elements)) texts := by
  induction elements with
  | nil => exact ⟨[], rfl, .nil⟩
  | cons element rest ih =>
    obtain ⟨⟨text, inspected, writes⟩, others⟩ := List.forall_mem_cons.mp each
    obtain ⟨texts, made, all⟩ := ih others
    refine ⟨text :: texts, ?_, .cons writes all⟩
    rw [inspectAll, inspected, made]
    rfl

/-- So do keys and values. -/
theorem exists_writes_pairs {pairs : List (Value × Value)}
    (keys : ∀ pair ∈ pairs, ∃ text, pair.1.inspect = .ok text ∧ Writes pair.1.literal.spelled text)
    (values : ∀ pair ∈ pairs, ∃ text, pair.2.inspect = .ok text ∧
      Writes pair.2.literal.spelled text) :
    ∃ texts, inspectPairs pairs = .ok texts ∧
      List.Forall₂ Writes (spelledAll (literalPairs pairs)) texts := by
  induction pairs with
  | nil => exact ⟨[], rfl, .nil⟩
  | cons pair rest ih =>
    obtain ⟨⟨name, inspected, writes⟩, others⟩ := List.forall_mem_cons.mp keys
    obtain ⟨⟨text, inspected', writes'⟩, others'⟩ := List.forall_mem_cons.mp values
    obtain ⟨texts, made, all⟩ := ih others others'
    refine ⟨(name ++ ": " ++ text) :: texts, ?_, .cons ?_ all⟩
    · rw [inspectPairs, inspected, inspected', made]
      rfl
    · rw [spelled]
      exact writes.pair writes'

/-- **The text of data is that of the tokens of their literal.** -/
theorem writes (data : value.Data) :
    ∃ text, value.inspect = .ok text ∧ Writes value.literal.spelled text := by
  induction data with
  | @integer number least most =>
    cases number with
    | ofNat number =>
      refine ⟨toString (number : Int), rfl, ?_⟩
      show Writes (numeral (number : Int)).spelled _
      rw [numeral_ofNat]
      exact Writes.of_token (plain_integer most) List.mem_cons_self
    | negSucc number =>
      refine ⟨"-" ++ toString ((number + 1 : Nat) : Int), rfl, ?_⟩
      rw [literal, numeral_negSucc]
      exact (Writes.of_token (plain_integer (fits_of_negSucc least)) List.mem_cons_self).negative
  | boolean truth =>
    refine ⟨truthText truth, rfl, ?_⟩
    cases truth with
    | false => exact @Writes.of_token ⟨.falseWord, "false", default, 0⟩ (by decide) (by decide)
    | true => exact @Writes.of_token ⟨.trueWord, "true", default, 0⟩ (by decide) (by decide)
  | @array identity elements _ each =>
    obtain ⟨texts, made, all⟩ := exists_writes each
    refine ⟨"[" ++ ", ".intercalate texts ++ "]", ?_, ?_⟩
    · rw [inspect, made]
      rfl
    · rw [literal, Build.array, spelled]
      exact @Writes.enclosed .openBracket .closeBracket '[' ']' rfl rfl (by decide) (by decide)
        (by decide) _ _ all
  | @hash identity pairs _ _ _ _ keys values =>
    obtain ⟨texts, made, all⟩ := exists_writes_pairs keys values
    refine ⟨"\x7b" ++ ", ".intercalate texts ++ "\x7d", ?_, ?_⟩
    · rw [inspect, made]
      rfl
    · rw [literal, spelled]
      exact @Writes.enclosed .openBrace .closeBrace '\x7b' '\x7d' rfl rfl (by decide) (by decide)
        (by decide) _ _ all

/-- **The text of data is read as the program of their literal.** -/
theorem parse_inspect (data : value.Data) :
    ∃ text read, value.inspect = .ok text ∧ parse text = .ok read ∧
      read.unplaced = (Build.program [Build.statement value.literal]).unplaced := by
  obtain ⟨text, inspected, writes⟩ := data.writes
  have finished : Reads ⟨[.statements []], .complete value.literal⟩ []
      (Build.program [Build.statement value.literal]) := .finished rfl
  have completes : Reader.Completes .expression value.literal :=
    @Reader.Completes.of_shaped _ _ _ data.blockless.shaped
  have reads := completes.within [.statements []] (fun _ => trivial) ⟨by decide, by decide⟩ finished
  have ends : Reader.Ends [] := fun c member => by cases member
  have spaced := writes.spaced ends .done
  rw [List.append_nil text.toList] at spaced
  obtain ⟨read, parsed, same⟩ := @Reader.read_of_spaced _ _ _ _ spaced
    (Reads.statement_of_operand (Or.inl rfl) reads) .initial rfl
  exact ⟨text, read, inspected, parsed, same⟩

end Data

end Value

end Scriptlet
