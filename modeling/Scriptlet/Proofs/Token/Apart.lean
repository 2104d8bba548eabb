/-
**A written token is scanned again.**

* `Kind.Apart`: what follows does not go on with a token of a kind.

Main statements: where the kind of a plain token is looked for, and names are if it is a word, the
token is scanned as it is written, if what follows stands apart (`Token.Plain.scan`); and what has
been scanned at the end of a text is scanned again before such a text (`Lexeme.scan_apart`).
-/
import Scriptlet.Proofs.Token.Overlap

namespace Scriptlet

/-- What follows does not go on with a token of a kind. A mark could go on with an equals sign or a
slash; a name, a word or a number with a part of a name. -/
def Kind.Apart (kind : Kind) (rest : List Char) : Prop :=
  ∀ c ∈ rest.head?, if kind ∈ marks then c ≠ '=' ∧ c ≠ '/' else isNamePart c = false

namespace Kind.Apart

variable {kind : Kind} {chars rest : List Char}

theorem nil : kind.Apart [] :=
  fun c member => by cases member

theorem cons {c : Char} (stops : if kind ∈ marks then c ≠ '=' ∧ c ≠ '/' else isNamePart c = false) :
    kind.Apart (c :: rest) := by
  intro first member
  obtain rfl : c = first := by simpa using member
  exact stops

/-- A space stands apart from everything. -/
theorem space : kind.Apart (' ' :: rest) := by
  refine cons ?_
  split <;> decide

/-- A run of parts of names ends where what follows stands apart. -/
theorem takeWhile (apart : kind.Apart rest) (noMark : kind ∉ marks) {keeps : Char → Bool}
    (parts : ∀ c, keeps c = true → isNamePart c = true) (within : ∀ c ∈ chars, keeps c = true) :
    (chars ++ rest).takeWhile keeps = chars := by
  rw [List.takeWhile_append_of_pos within]
  cases rest with
  | nil => simp
  | cons c rest =>
    have other : isNamePart c = false := by simpa [noMark] using apart c rfl
    have stops : keeps c = false := by
      cases kept : keeps c with
      | false => rfl
      | true => exact absurd (parts c kept) (by simp [other])
    simp [stops]

/-- No mark becomes another one by what follows. -/
theorem clear (apart : kind.Apart rest) {spelling : String}
    (spelled : kind.spelling? = some spelling) {longer : Kind}
    (pair : (longer, kind) ∈ overlaps) : longer.extent (spelling.toList ++ rest) = 0 := by
  have mark : kind ∈ marks := by
    have known : ∀ pair ∈ overlaps, pair.2 ∈ marks := by decide
    exact known _ pair
  simp only [overlaps, List.mem_cons, Prod.mk.injEq, List.not_mem_nil, or_false] at pair
  cases rest with
  | nil => rcases pair with ⟨rfl, rfl⟩ | ⟨rfl, rfl⟩ | ⟨rfl, rfl⟩ <;> cases spelled <;> rfl
  | cons c rest =>
    obtain ⟨noEquals, noSlash⟩ : c ≠ '=' ∧ c ≠ '/' := by simpa [mark] using apart c rfl
    rcases pair with ⟨rfl, rfl⟩ | ⟨rfl, rfl⟩ | ⟨rfl, rfl⟩ <;> cases spelled
    · refine extent_comment_eq_zero.mpr fun leads => noSlash ?_
      obtain ⟨more, starts⟩ := leads
      simpa using (List.cons.inj (List.cons.inj starts).2).1.symm
    · exact if_neg (by simpa [List.isPrefixOf] using noEquals.symm)
    · exact if_neg (by simpa [List.isPrefixOf] using noEquals.symm)

end Kind.Apart

namespace Lexeme

variable {looksFor : Kind → Bool} {chars rest : List Char}

/-- A name is scanned as a name, or as the word of the language that it spells, if that is looked
for. -/
theorem scan_name (name : IsNameText chars) (apart : Kind.identifier.Apart rest)
    (looked : looksFor .identifier = true) :
    scan looksFor (chars ++ rest) = some ⟨settle looksFor .identifier chars, chars⟩ := by
  obtain ⟨first, others, rfl⟩ := name.exists_cons
  obtain ⟨start, parts⟩ := name
  have whole : Kind.identifier.extent (first :: others ++ rest) = (first :: others).length := by
    rw [List.cons_append, Kind.extent, if_pos start,
      apart.takeWhile (by decide) (fun _ part => part) parts, List.length_cons]
  exact scan_of_whole (by decide) (by simp [looked]) (by simp) whole
    fun longer pair => by simp [Kind.overlaps] at pair

/-- Digits are scanned as an integer. -/
theorem scan_integer (some_ : chars ≠ []) (each : ∀ c ∈ chars, c.isDigit = true)
    (apart : Kind.integer.Apart rest) (looked : looksFor .integer = true) :
    scan looksFor (chars ++ rest) = some ⟨.integer, chars⟩ := by
  have parts : ∀ c : Char, c.isDigit = true → isNamePart c = true := by
    intro c digit
    simp [isNamePart, Char.isAlphanum, digit]
  have whole : Kind.integer.extent (chars ++ rest) = chars.length := by
    rw [Kind.extent, apart.takeWhile (by decide) parts each]
  exact scan_of_whole (by decide) (by simp [looked]) some_ whole
    fun longer pair => by simp [Kind.overlaps] at pair

/-- Characters between quotation marks are scanned as a string. -/
theorem scan_string (unmarked : Text.doubleMark ∉ chars) (rest : List Char)
    (looked : looksFor .string = true) :
    scan looksFor (Text.doubleMark :: (chars ++ [Text.doubleMark]) ++ rest) =
      some ⟨.string, Text.doubleMark :: (chars ++ [Text.doubleMark])⟩ :=
  scan_of_whole (by decide) (by simp [looked]) (by simp) (Kind.extent_string rest unmarked)
    fun longer pair => by simp [Kind.overlaps] at pair

/-- An operator or a punctuation mark is scanned. -/
theorem scan_mark {kind : Kind} (mark : kind ∈ Kind.marks) {spelling : String}
    (spelled : kind.spelling? = some spelling) (apart : kind.Apart rest)
    (looked : looksFor kind = true) :
    scan looksFor (spelling.toList ++ rest) = some ⟨kind, spelling.toList⟩ := by
  have known : ∀ kind ∈ Kind.marks, kind ∈ Kind.trialOrder ∧ kind ≠ .identifier ∧
      ∀ spelling ∈ kind.spelling?, spelling.toList ≠ [] := by decide
  obtain ⟨tried, noName, some_⟩ := known kind mark
  have whole : kind.extent (spelling.toList ++ rest) = spelling.toList.length := by
    rw [Kind.extent_of_spelling? spelled, if_pos]
    exact List.isPrefixOf_iff_prefix.mpr (List.prefix_append _ _)
  rw [scan_of_whole tried (by simp [looked]) (some_ spelling spelled) whole
    fun longer pair => apart.clear spelled pair, settle, if_neg noName]

/-- **What is scanned at the end of a text is scanned again** where the text goes on with something
that stands apart from every lexeme. -/
theorem scan_apart {lexeme : Lexeme} (found : scan looksFor lexeme.written = some lexeme)
    (solid : lexeme.kind.isLayout = false) (apart : ∀ kind : Kind, kind.Apart rest) :
    scan looksFor (lexeme.written ++ rest) = some lexeme := by
  have alone : scan looksFor (lexeme.written ++ []) = some lexeme := by rwa [List.append_nil]
  rcases exists_of_scan alone with ⟨-, _, follows⟩ | ⟨kind, tried, looked, some_, whole, -, settled⟩
  · cases follows
  obtain ⟨own, written⟩ := lexeme
  simp only at looked some_ whole settled solid ⊢
  subst settled
  rw [List.append_nil] at whole
  have matched : kind.extent written ≠ 0 := by
    rw [whole]
    exact fun empty => some_ (List.length_eq_zero_iff.mp empty)
  have taken : written.take (kind.extent written) = written := by rw [whole, List.take_length]
  rcases Kind.trialOrder_cases tried with own | ⟨spelling, mark, spelled⟩
  · simp only [List.mem_cons, List.not_mem_nil, or_false] at own
    rcases own with rfl | rfl | rfl | rfl | rfl
    · have name := Kind.isNameText_take_extent matched
      rw [taken] at name
      exact scan_name name (apart _) (by simpa [Kind.isLayout] using looked)
    · cases solid
    · cases solid
    · obtain ⟨inner, unmarked, parts⟩ := Kind.exists_take_extent_string matched
      obtain rfl := taken.symm.trans parts
      exact scan_string unmarked rest (by simpa [Kind.isLayout] using looked)
    · have each := fun c => @Kind.isDigit_of_mem_take_extent written c
      rw [taken] at each
      exact scan_integer some_ each (apart _) (by simpa [Kind.isLayout] using looked)
  · obtain rfl := taken.symm.trans (Kind.take_extent_of_spelling? spelled matched)
    have known : ∀ kind ∈ Kind.marks, kind ≠ .identifier ∧ kind.isLayout = false := by decide
    obtain ⟨noName, noLayout⟩ := known kind mark
    rw [settle, if_neg noName]
    exact scan_mark mark spelled (apart _) (by simpa [noLayout] using looked)

end Lexeme

/-- **A plain token is scanned as it is written.** -/
theorem Token.Plain.scan {token : Token} (plain : token.Plain) (looksFor : Kind → Bool)
    (looked : looksFor token.kind = true)
    (names : token.kind.isWord = true → looksFor .identifier = true) {rest : List Char}
    (apart : token.kind.Apart rest) :
    Lexeme.scan looksFor (token.written ++ rest) = some ⟨token.kind, token.written⟩ := by
  rcases plain with ⟨kind, name, noWord⟩ | ⟨kind, some_, -, each, -⟩ | ⟨kind, unmarked⟩ | spelled
  · rw [kind] at looked apart
    rw [written_of_ne (by simp [kind]), Lexeme.scan_name name apart looked, kind, Lexeme.settle,
      if_pos rfl, String.ofList_toList, noWord]
  · rw [kind] at looked apart
    rw [written_of_ne (by simp [kind]),
      Lexeme.scan_integer (List.length_pos_iff.mp some_) each apart looked, kind]
  · rw [kind] at looked
    rw [written, if_pos kind, Lexeme.scan_string unmarked rest looked, kind]
  · have other : token.kind ≠ .string := fun kind => by
      rw [kind] at spelled
      cases spelled
    rw [written_of_ne other]
    rcases Kind.mem_marks_of_spelling? spelled with word | mark
    · obtain ⟨name, found⟩ := Kind.isNameText_of_isWord word spelled
      have apart' : Kind.identifier.Apart rest := by
        have noMark : ∀ kind ∈ Kind.words, kind ∉ Kind.marks := by decide
        simpa [Kind.Apart, noMark _ (List.contains_iff_mem.mp word),
          show Kind.identifier ∉ Kind.marks by decide] using apart
      rw [Lexeme.scan_name name apart' (names word), Lexeme.settle, if_pos rfl,
        String.ofList_toList, found]
      simp only [looked, if_true]
    · exact Lexeme.scan_mark mark spelled apart looked

end Scriptlet
