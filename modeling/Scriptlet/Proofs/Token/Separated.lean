/-
**Lexemes that stand apart.**

* `IsLexeme`: a name or a word of the language, decimal digits, a string, or the one spelling of a
  mark.
* `Spaced`: the end of a text, or spacing and what follows.

Main statements: what follows a lexeme after spacing does not change what is found at its start,
whatever is looked for (`Lexeme.scan_append`). Only `==` and `!=` can be cut, and then `=` is left
(`Lexeme.cut_of_scan`).
-/
import Scriptlet.Proofs.Token.Overlap

namespace Scriptlet

/-- A name or a word, an integer, a string or a mark, as it is written. -/
inductive IsLexeme : List Char → Prop
  | name {chars : List Char} : IsNameText chars → IsLexeme chars
  | integer {chars : List Char} : chars ≠ [] → (∀ c ∈ chars, c.isDigit = true) → IsLexeme chars
  | string {inner : List Char} : Text.doubleMark ∉ inner →
      IsLexeme (Text.doubleMark :: (inner ++ [Text.doubleMark]))
  | spelled {kind : Kind} {spelling : String} : kind.spelling? = some spelling →
      IsLexeme spelling.toList

/-- The end of a text, or spacing and what follows. -/
def Spaced (rest : List Char) : Prop :=
  rest = [] ∨ ∃ c more, rest = c :: more ∧ isSpacing c = true

/-- Spacing is blank. -/
theorem isBlank_of_isSpacing {c : Char} (space : isSpacing c = true) : Text.isBlank c = true := by
  simp only [isSpacing, Bool.or_eq_true, beq_iff_eq] at space
  rcases space with (((rfl | rfl) | rfl) | rfl) | rfl <;> rfl

namespace IsLexeme

variable {chars rest : List Char} {kind : Kind}

/-- A lexeme is a full match of a kind that is no layout. -/
theorem whole (isLexeme : IsLexeme chars) : chars ≠ [] ∧ ∃ kind ∈ Kind.trialOrder,
    kind.isLayout = false ∧ kind.extent chars = chars.length := by
  have named : ∀ {chars : List Char}, IsNameText chars → chars ≠ [] ∧
      ∃ kind ∈ Kind.trialOrder, kind.isLayout = false ∧ kind.extent chars = chars.length := by
    intro chars name
    obtain ⟨first, rest, rfl⟩ := name.exists_cons
    obtain ⟨start, parts⟩ := name
    refine ⟨by simp, .identifier, by decide, rfl, ?_⟩
    rw [Kind.extent, if_pos start, List.takeWhile_eq_self_iff.mpr parts, List.length_cons]
  cases isLexeme with
  | name name => exact named name
  | integer some_ digits =>
    refine ⟨some_, .integer, by decide, rfl, ?_⟩
    rw [Kind.extent, List.takeWhile_eq_self_iff.mpr digits]
  | @string inner unmarked =>
    have extent := Kind.extent_string [] unmarked
    rw [List.append_nil] at extent
    exact ⟨by simp, .string, by decide, rfl, extent⟩
  | @spelled kind spelling spelled =>
    rcases Kind.mem_marks_of_spelling? spelled with word | mark
    · exact named (Kind.isNameText_of_isWord word spelled).1
    · have known : ∀ kind ∈ Kind.marks, kind ∈ Kind.trialOrder ∧ kind.isLayout = false ∧
          ∀ spelling ∈ kind.spelling?, spelling.toList ≠ [] := by decide
      obtain ⟨tried, solid, some_⟩ := known kind mark
      refine ⟨some_ spelling spelled, kind, tried, solid, ?_⟩
      rw [Kind.extent_of_spelling? spelled, if_pos]
      exact List.isPrefixOf_iff_prefix.mpr List.prefix_rfl

/-- A kind that matches at the start of a lexeme matches all of it, or leaves an equals sign. -/
theorem drop_extent (isLexeme : IsLexeme chars) (tried : kind ∈ Kind.trialOrder)
    (found : kind.extent chars ≠ 0) : kind.isLayout = false ∧
      (chars.drop (kind.extent chars) = [] ∨ chars.drop (kind.extent chars) = ['=']) := by
  obtain ⟨some_, own, tried', solid, whole⟩ := isLexeme.whole
  have found' : own.extent chars ≠ 0 := by
    rw [whole]
    exact fun empty => some_ (List.length_eq_zero_iff.mp empty)
  have written : ∀ spelling, own.spelling? = some spelling → chars = spelling.toList := by
    intro spelling spelled
    have taken := Kind.take_extent_of_spelling? spelled found'
    rwa [whole, List.take_length] at taken
  rcases Kind.eq_or_overlap tried tried' found found' with rfl | pair | pair
  · exact ⟨solid, Or.inl (by rw [whole, List.drop_length])⟩
  all_goals
    simp only [Kind.overlaps, List.mem_cons, Prod.mk.injEq, List.not_mem_nil, or_false] at pair
    rcases pair with ⟨rfl, rfl⟩ | ⟨rfl, rfl⟩ | ⟨rfl, rfl⟩
  -- the longer of two marks does not match where the shorter one is all there is
  · exact absurd (written _ rfl ▸ rfl) found
  · exact absurd (written _ rfl ▸ rfl) found
  · exact absurd (written _ rfl ▸ rfl) found
  · cases solid
  · exact ⟨rfl, Or.inr (written _ rfl ▸ rfl)⟩
  · exact ⟨rfl, Or.inr (written _ rfl ▸ rfl)⟩

/-- No kind goes on after a lexeme where spacing follows. -/
theorem extent_append (isLexeme : IsLexeme chars) (spaced : Spaced rest)
    (tried : kind ∈ Kind.trialOrder) : kind.extent (chars ++ rest) = kind.extent chars := by
  rcases spaced with rfl | ⟨c, more, rfl, space⟩
  · rw [List.append_nil]
  have seam : ∀ behind, Seam Text.isBlank behind (behind ++ c :: more) := by
    intro behind
    cases behind with
    | nil => exact ⟨c, more, rfl, Or.inl (isBlank_of_isSpacing space)⟩
    | cons first behind => exact ⟨first, _, rfl, Or.inr ⟨behind, rfl⟩⟩
  obtain ⟨some_, own, tried', -, whole⟩ := isLexeme.whole
  by_cases zero : kind.extent chars = 0
  · have found : own.extent (chars ++ []) ≠ 0 := by
      rw [List.append_nil, whole]
      exact fun empty => some_ (List.length_eq_zero_iff.mp empty)
    rw [zero]
    exact Kind.extent_eq_zero_of_seam tried tried' (seam []) some_ found (by simpa using zero)
  · -- what the kind leaves of the lexeme goes on with its own first character, or with spacing
    have parts := List.take_append_drop (kind.extent chars) chars
    have taken : (chars.take (kind.extent chars)).length = kind.extent chars :=
      List.length_take_of_le (kind.extent_le chars)
    have some_ : chars.take (kind.extent chars) ≠ [] := fun empty =>
      zero (by rw [← taken, empty, List.length_nil])
    have again := Kind.extent_of_seam tried (isLexeme.drop_extent tried zero).1
      (seam (chars.drop (kind.extent chars))) some_ (by rw [parts, taken])
    rwa [← List.append_assoc, parts, taken] at again

end IsLexeme

namespace Lexeme

variable {looksFor : Kind → Bool} {chars rest : List Char} {lexeme : Lexeme}

/-- **What follows a lexeme after spacing does not matter**, whatever is looked for. -/
theorem scan_append (looksFor : Kind → Bool) (isLexeme : IsLexeme chars) (spaced : Spaced rest) :
    scan looksFor (chars ++ rest) = scan looksFor chars := by
  rw [scan_eq, scan_eq, ← List.head?_filterMap, ← List.head?_filterMap]
  congr 1
  refine List.filterMap_congr fun kind tried => ?_
  rw [trial, trial, isLexeme.extent_append spaced tried,
    List.take_append_of_le_length (kind.extent_le chars)]

/-- What is found at the start of a lexeme is all of it, or leaves a lexeme. -/
theorem cut_of_scan (isLexeme : IsLexeme chars) (found : scan looksFor chars = some lexeme) :
    lexeme.kind.isLayout = false ∧
      ∃ rest, chars = lexeme.written ++ rest ∧ (rest = [] ∨ IsLexeme rest) := by
  obtain ⟨kind, tried, some_, written, settled⟩ := scan_starts found
  obtain ⟨solid, rest⟩ := isLexeme.drop_extent tried some_
  refine ⟨?_, chars.drop (kind.extent chars), ?_, rest.imp_right fun left => ?_⟩
  · rcases settled with same | ⟨-, word⟩
    · rwa [same]
    · have known : ∀ kind ∈ Kind.words, kind.isLayout = false := by decide
      exact known _ (List.mem_of_find?_eq_some word)
  · rw [written, List.take_append_drop]
  · rw [left]
    exact @IsLexeme.spelled .assign _ rfl

/-- Some lexeme is found at the start of one, if every kind is looked for. -/
theorem exists_scanAny (isLexeme : IsLexeme chars) : ∃ lexeme, scanAny chars = some lexeme := by
  obtain ⟨some_, kind, tried, -, whole⟩ := isLexeme.whole
  have found : kind.extent chars ≠ 0 := by
    rw [whole]
    exact fun empty => some_ (List.length_eq_zero_iff.mp empty)
  refine Option.isSome_iff_exists.mp (List.findSome?_isSome_iff.mpr ⟨kind, tried, ?_⟩)
  simp [found]

end Lexeme

end Scriptlet
