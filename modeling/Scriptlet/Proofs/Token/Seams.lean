/-
**A lexeme does not depend on what follows it**, as long as it ends there.

* `Seam`: two texts may follow a lexeme alike: they start with the same character, or the second one
  starts with a character of a given class.

Main statements: across a seam of blanks a lexeme that is no layout is scanned again
(`Lexeme.scan_of_seam`), and where nothing looked for is found, nothing is found again
(`Lexeme.scan_eq_none_of_seam`); across the end of a line so is a comment
(`Lexeme.scan_comment_of_seam`).
-/
import Scriptlet.Proofs.Token.Lexing
import Scriptlet.Text.Blank

namespace Scriptlet

/-- The second text starts as the first one does, or with a character of a class. -/
def Seam (ends : Char → Bool) (rest rest' : List Char) : Prop :=
  ∃ c more', rest' = c :: more' ∧ (ends c = true ∨ ∃ more, rest = c :: more)

/-- The characters of names lie between the digits and the small letters. -/
theorem toNat_of_isNamePart {c : Char} (part : isNamePart c = true) :
    48 ≤ c.toNat ∧ c.toNat ≤ 122 := by
  have between : ∀ low high : Char, 48 ≤ low.toNat → high.toNat ≤ 122 →
      c.val ≥ low.val ∧ c.val ≤ high.val → 48 ≤ c.toNat ∧ c.toNat ≤ 122 :=
    fun low high least most within =>
      ⟨Nat.le_trans least (UInt32.le_iff_toNat_le.mp within.1),
        Nat.le_trans (UInt32.le_iff_toNat_le.mp within.2) most⟩
  have decided : ∀ {above below : Prop} [Decidable above] [Decidable below],
      (decide above && decide below) = true → above ∧ below :=
    fun both => (Bool.and_eq_true_iff.mp both).imp of_decide_eq_true of_decide_eq_true
  have classes : (((c.isUpper || c.isLower) || c.isDigit) || c == '_') = true := part
  simp only [Bool.or_eq_true, beq_iff_eq] at classes
  rcases classes with ((upper | lower) | digit) | rfl
  · exact between 'A' 'Z' (by decide) (by decide) (of_decide_eq_true upper)
  · exact between 'a' 'z' (by decide) (by decide) (decided lower)
  · exact between '0' '9' (by decide) (by decide) (decided digit)
  · decide

/-- No blank is part of a name. -/
theorem isNamePart_of_isBlank {c : Char} (blank : Text.isBlank c = true) :
    isNamePart c = false := by
  refine Bool.eq_false_iff.mpr fun part => ?_
  have bounds := toNat_of_isNamePart part
  simp only [Text.isBlank, Bool.or_eq_true, Bool.and_eq_true, decide_eq_true_eq,
    beq_iff_eq] at blank
  omega

/-- Spacing starts no name. -/
theorem isNameStart_of_isSpacing {c : Char} (space : isSpacing c = true) :
    isNameStart c = false := by
  simp only [isSpacing, Bool.or_eq_true, beq_iff_eq] at space
  rcases space with (((rfl | rfl) | rfl) | rfl) | rfl <;> rfl

/-- No blank is a digit. -/
theorem isDigit_of_isBlank {c : Char} (blank : Text.isBlank c = true) : c.isDigit = false := by
  refine Bool.eq_false_iff.mpr fun digit => ?_
  have other := isNamePart_of_isBlank blank
  simp [isNamePart, Char.isAlphanum, digit] at other

namespace Seam

variable {ends : Char → Bool} {rest rest' : List Char}

/-- A seam of a class is one of every larger class. -/
theorem mono {more : Char → Bool} (seam : Seam ends rest rest')
    (larger : ∀ c, ends c = true → more c = true) : Seam more rest rest' := by
  obtain ⟨c, tail, starts, either⟩ := seam
  exact ⟨c, tail, starts, either.imp_left (larger c)⟩

/-- A run of characters of a class that ends at the first text ends at the second one, too. -/
theorem length_takeWhile {keeps : Char → Bool} (other : ∀ c, ends c = true → keeps c = false)
    (seam : Seam ends rest rest') {chars : List Char}
    (whole : ((chars ++ rest).takeWhile keeps).length = chars.length) :
    ((chars ++ rest').takeWhile keeps).length = chars.length := by
  induction chars with
  | nil =>
    obtain ⟨c, tail, rfl, either⟩ := seam
    have stops : keeps c = false := by
      rcases either with ending | ⟨more, rfl⟩
      · exact other c ending
      · cases kept : keeps c with
        | false => rfl
        | true => simp [kept] at whole
    simp [stops]
  | cons first chars ih =>
    cases kept : keeps first with
    | false => simp [kept] at whole
    | true => simpa [kept] using ih (by simpa [kept] using whole)

/-- What is written in at most two characters that are not of the class starts the one text if it
starts the other one. -/
theorem isPrefix {spelling : List Char} (short : spelling.length ≤ 2)
    (solid : ∀ c ∈ spelling, ends c = false) (seam : Seam ends rest rest') {first : Char}
    {chars : List Char} (leads : spelling <+: first :: chars ++ rest') :
    spelling <+: first :: chars ++ rest := by
  obtain ⟨c, tail, rfl, either⟩ := seam
  match spelling, short with
  | [], _ => exact List.nil_prefix
  | [one], _ => simpa using leads
  | [one, two], _ =>
    cases chars with
    | cons second chars => simpa using leads
    | nil =>
      obtain ⟨rfl, rfl⟩ : one = first ∧ two = c := by simpa using leads
      rcases either with ending | ⟨more, rfl⟩
      · exact absurd ending (by simp [solid two (by simp)])
      · simp

end Seam

namespace Kind

variable {kind other : Kind} {rest rest' : List Char}

/-- What is known of the kinds with one spelling that are looked for in texts. -/
theorem marks_spec : ∀ kind ∈ marks, ∀ spelling ∈ kind.spelling?,
    spelling.toList.length ≤ 2 ∧ (∀ c ∈ spelling.toList, Text.isBlank c = false) ∧
      spelling.toList.head? ≠ some Text.doubleMark := by
  -- the characters are gone through in the list, not among all that there are
  have solid : ∀ kind ∈ marks, ∀ spelling ∈ kind.spelling?,
      spelling.toList.length ≤ 2 ∧ spelling.toList.all (fun c => !Text.isBlank c) = true ∧
        spelling.toList.head? ≠ some Text.doubleMark := by decide
  intro kind mark spelling spelled
  obtain ⟨short, solid, start⟩ := solid kind mark spelling spelled
  exact ⟨short, fun c member => by simpa using List.all_eq_true.mp solid c member, start⟩

/-- The kinds that are tried: five of their own, and marks. -/
theorem trialOrder_cases (tried : kind ∈ trialOrder) :
    kind ∈ [identifier, blanks, comment, string, integer] ∨
      ∃ spelling, kind ∈ marks ∧ kind.spelling? = some spelling := by
  have all : ∀ kind ∈ trialOrder, kind ∈ [identifier, blanks, comment, string, integer] ∨
      kind ∈ marks ∧ kind.spelling?.isSome = true := by decide
  refine (all kind tried).imp_right fun ⟨mark, spelled⟩ => ?_
  obtain ⟨spelling, spelled⟩ := Option.isSome_iff_exists.mp spelled
  exact ⟨spelling, mark, spelled⟩

/-- Two slashes start a comment. -/
theorem extent_comment_eq_zero {chars : List Char} :
    comment.extent chars = 0 ↔ ¬ ['/', '/'] <+: chars := by
  simp only [extent]
  split
  next rest => simp
  next other =>
    refine ⟨fun _ leads => ?_, fun _ => rfl⟩
    obtain ⟨rest, rfl⟩ := leads
    exact other rest rfl

/-- Nothing but a string starts with a quotation mark. -/
theorem ne_doubleMark (tried : kind ∈ trialOrder) (noString : kind ≠ .string) {first : Char}
    {chars : List Char} (some_ : kind.extent (first :: chars) ≠ 0) : first ≠ Text.doubleMark := by
  rintro rfl
  rcases trialOrder_cases tried with own | ⟨spelling, mark, spelled⟩
  · simp only [List.mem_cons, List.not_mem_nil, or_false] at own
    rcases own with rfl | rfl | rfl | rfl | rfl
    · exact some_ rfl
    · exact some_ rfl
    · exact some_ rfl
    · exact noString rfl
    · exact some_ rfl
  · obtain ⟨-, -, start⟩ := marks_spec kind mark spelling spelled
    rw [extent_of_spelling? spelled] at some_
    split at some_
    next leads =>
      obtain ⟨rest, starts⟩ := List.isPrefixOf_iff_prefix.mp leads
      cases letters : spelling.toList with
      | nil => simp [letters] at some_
      | cons head tail => simp_all
    · exact some_ rfl

/-- **A kind that does not match where another one does** does not match either when the text goes
on otherwise. -/
theorem extent_eq_zero_of_seam (tried : kind ∈ trialOrder) (tried' : other ∈ trialOrder)
    (seam : Seam Text.isBlank rest rest') {written : List Char} (some_ : written ≠ [])
    (found : other.extent (written ++ rest) ≠ 0) (zero : kind.extent (written ++ rest) = 0) :
    kind.extent (written ++ rest') = 0 := by
  obtain ⟨first, chars, rfl⟩ := List.exists_cons_of_ne_nil some_
  rcases trialOrder_cases tried with own | ⟨spelling, mark, spelled⟩
  · simp only [List.mem_cons, List.not_mem_nil, or_false] at own
    rcases own with rfl | rfl | rfl | rfl | rfl
    · simpa [extent] using zero
    · cases space : isSpacing first with
      | true => simp [extent, space] at zero
      | false => simp [extent, space]
    · rw [extent_comment_eq_zero] at zero ⊢
      have slash : ∀ c ∈ ['/', '/'], Text.isBlank c = false := by simp [Text.isBlank]
      exact fun leads => zero (seam.isPrefix (by decide) slash leads)
    · have noMark : first ≠ Text.doubleMark :=
        ne_doubleMark tried' (fun same => found (same ▸ zero)) found
      simp [extent, noMark]
    · cases digit : first.isDigit with
      | true => simp [extent, digit] at zero
      | false => simp [extent, digit]
  · obtain ⟨short, solid, -⟩ := marks_spec kind mark spelling spelled
    rw [extent_of_spelling? spelled] at zero ⊢
    split at zero
    next => simp [zero]
    next other =>
      refine if_neg fun leads => other (List.isPrefixOf_iff_prefix.mpr ?_)
      exact seam.isPrefix short solid (List.isPrefixOf_iff_prefix.mp leads)

/-- A comment goes on to the end of the line. -/
theorem extent_comment_of_seam (seam : Seam (· == '\n') rest rest') {written : List Char}
    (some_ : written ≠ []) (whole : comment.extent (written ++ rest) = written.length) :
    comment.extent (written ++ rest') = written.length := by
  have leads : ['/', '/'] <+: written ++ rest := by
    by_contra other
    rw [extent_comment_eq_zero.mpr other] at whole
    exact some_ (List.length_eq_zero_iff.mp whole.symm)
  match written, leads with
  | [_], leads =>
    obtain ⟨tail, starts⟩ := leads
    obtain ⟨rfl, rfl⟩ : '/' = _ ∧ '/' :: tail = rest := by simpa using starts
    simp [extent] at whole
  | one :: two :: chars, leads =>
    obtain ⟨rfl, rfl⟩ : '/' = one ∧ '/' = two := by simpa using leads
    simp only [List.cons_append, extent, List.length_cons, Nat.add_right_cancel_iff] at whole ⊢
    exact seam.length_takeWhile (by simp) whole

/-- **A kind that is no layout goes as far as it did** when the text goes on otherwise. -/
theorem extent_of_seam (tried : kind ∈ trialOrder) (solid : kind.isLayout = false)
    (seam : Seam Text.isBlank rest rest') {written : List Char} (some_ : written ≠ [])
    (whole : kind.extent (written ++ rest) = written.length) :
    kind.extent (written ++ rest') = written.length := by
  have found : kind.extent (written ++ rest) ≠ 0 := by
    rw [whole]
    exact fun empty => some_ (List.length_eq_zero_iff.mp empty)
  rcases trialOrder_cases tried with own | ⟨spelling, mark, spelled⟩
  · simp only [List.mem_cons, List.not_mem_nil, or_false] at own
    rcases own with rfl | rfl | rfl | rfl | rfl
    · obtain ⟨first, chars, rfl⟩ := List.exists_cons_of_ne_nil some_
      cases start : isNameStart first with
      | false => simp [extent, start] at found
      | true =>
        simp only [List.cons_append, extent, start, if_true, List.length_cons,
          Nat.add_right_cancel_iff] at whole ⊢
        exact seam.length_takeWhile (fun c blank => isNamePart_of_isBlank blank) whole
    · cases solid
    · cases solid
    · obtain ⟨inner, unmarked, parts⟩ := exists_take_extent_string found
      rw [whole, List.take_left] at parts
      rw [parts]
      exact extent_string rest' unmarked
    · exact seam.length_takeWhile (fun c blank => isDigit_of_isBlank blank) whole
  · have parts := take_extent_of_spelling? spelled found
    rw [whole, List.take_left] at parts
    rw [extent_of_spelling? spelled, parts, if_pos]
    exact List.isPrefixOf_iff_prefix.mpr (List.prefix_append _ _)

end Kind

/-! ### Scanning -/

namespace Lexeme

variable {looksFor : Kind → Bool} {lexeme : Lexeme} {rest rest' : List Char}

/-- What is tried of a kind when a lexeme is looked for. -/
def trial (looksFor : Kind → Bool) (chars : List Char) (kind : Kind) : Option Lexeme :=
  if kind.isLayout || looksFor kind then
    if kind.extent chars = 0 then none
    else
      some ⟨settle looksFor kind (chars.take (kind.extent chars)), chars.take (kind.extent chars)⟩
  else none

theorem scan_eq (looksFor : Kind → Bool) (chars : List Char) :
    scan looksFor chars = Kind.trialOrder.findSome? (trial looksFor chars) := rfl

/-- A trial that finds a lexeme is one of a kind that goes as far as the lexeme. -/
theorem trial_eq_some {kind : Kind}
    (found : trial looksFor (lexeme.written ++ rest) kind = some lexeme) :
    (kind.isLayout || looksFor kind) = true ∧ lexeme.written ≠ [] ∧
      kind.extent (lexeme.written ++ rest) = lexeme.written.length ∧
      lexeme.kind = settle looksFor kind lexeme.written := by
  unfold trial at found
  split at found
  next looked =>
    split at found
    · cases found
    next some_ =>
      have made := Option.some.inj found
      have written := congrArg Lexeme.written made
      have kinds := congrArg Lexeme.kind made
      simp only at written kinds
      have within := kind.extent_le (lexeme.written ++ rest)
      have whole : kind.extent (lexeme.written ++ rest) = lexeme.written.length := by
        have counted := congrArg List.length written
        rwa [List.length_take, Nat.min_eq_left within] at counted
      refine ⟨looked, fun empty => some_ ?_, whole, ?_⟩
      · rw [whole, empty]
        rfl
      · rw [← kinds, written]
  · cases found

/-- A trial finds a lexeme that its kind goes as far as. -/
theorem trial_of_extent {kind : Kind} (looked : (kind.isLayout || looksFor kind) = true)
    (some_ : lexeme.written ≠ [])
    (whole : kind.extent (lexeme.written ++ rest) = lexeme.written.length)
    (settled : lexeme.kind = settle looksFor kind lexeme.written) :
    trial looksFor (lexeme.written ++ rest) kind = some lexeme := by
  have found : ¬ lexeme.written.length = 0 := fun empty => some_ (List.length_eq_zero_iff.mp empty)
  rw [trial, if_pos looked, whole, if_neg found, List.take_left, ← settled]

/-- A trial that finds nothing where another kind matches finds nothing across a seam. -/
theorem trial_eq_none_of_seam {kind other : Kind} (tried : kind ∈ Kind.trialOrder)
    (tried' : other ∈ Kind.trialOrder) (seam : Seam Text.isBlank rest rest') {written : List Char}
    (some_ : written ≠ []) (found : other.extent (written ++ rest) ≠ 0)
    (none : trial looksFor (written ++ rest) kind = none) :
    trial looksFor (written ++ rest') kind = .none := by
  unfold trial at none ⊢
  split at none
  next looked =>
    split at none
    next zero =>
      rw [if_pos looked, if_pos (Kind.extent_eq_zero_of_seam tried tried' seam some_ found zero)]
    · cases none
  next unlooked => exact if_neg unlooked

/-- What is scanned is scanned again across a seam, if the kind it is scanned as goes as far. -/
theorem scan_of_extent (found : scan looksFor (lexeme.written ++ rest) = some lexeme)
    (seam : Seam Text.isBlank rest rest')
    (again : ∀ kind ∈ Kind.trialOrder, lexeme.kind = settle looksFor kind lexeme.written →
      lexeme.written ≠ [] → kind.extent (lexeme.written ++ rest) = lexeme.written.length →
      kind.extent (lexeme.written ++ rest') = lexeme.written.length) :
    scan looksFor (lexeme.written ++ rest') = some lexeme := by
  rw [scan_eq] at found ⊢
  obtain ⟨before, kind, after, order, tried, missed⟩ := List.findSome?_eq_some_iff.mp found
  obtain ⟨looked, some_, whole, settled⟩ := trial_eq_some tried
  have member : kind ∈ Kind.trialOrder := by simp [order]
  refine List.findSome?_eq_some_iff.mpr ⟨before, kind, after, order, ?_, fun other among => ?_⟩
  · exact trial_of_extent looked some_ (again kind member settled some_ whole) settled
  · refine trial_eq_none_of_seam (by simp [order, among]) member seam some_ ?_ (missed other among)
    rw [whole]
    exact fun empty => some_ (List.length_eq_zero_iff.mp empty)

/-- **A lexeme that is no layout is scanned again** where the text goes on otherwise. -/
theorem scan_of_seam (found : scan looksFor (lexeme.written ++ rest) = some lexeme)
    (solid : lexeme.kind.isLayout = false) (seam : Seam Text.isBlank rest rest') :
    scan looksFor (lexeme.written ++ rest') = some lexeme := by
  refine scan_of_extent found seam fun kind tried settled some_ whole => ?_
  refine Kind.extent_of_seam tried ?_ seam some_ whole
  rcases settle_spec looksFor kind lexeme.written with same | ⟨rfl, -⟩
  · rw [← same, ← settled]
    exact solid
  · rfl

/-- Only a comment is settled as one. -/
theorem eq_comment_of_settle {kind : Kind} {written : List Char}
    (settled : settle looksFor kind written = .comment) : kind = .comment := by
  rcases settle_spec looksFor kind written with same | ⟨rfl, word⟩
  · exact same.symm.trans settled
  · rw [settled] at word
    have isWord := List.mem_of_find?_eq_some word
    simp [Kind.words] at isWord

/-- **A comment is scanned again** where the text goes on with the end of the line. -/
theorem scan_comment_of_seam (found : scan looksFor (lexeme.written ++ rest) = some lexeme)
    (comment : lexeme.kind = .comment) (seam : Seam (· == '\n') rest rest') :
    scan looksFor (lexeme.written ++ rest') = some lexeme := by
  have blank : ∀ c, (c == '\n') = true → Text.isBlank c = true := by
    intro c ending
    rw [beq_iff_eq.mp ending]
    rfl
  refine scan_of_extent found (seam.mono blank) fun kind tried settled some_ whole => ?_
  obtain rfl := eq_comment_of_settle (settled.symm.trans comment)
  exact Kind.extent_comment_of_seam seam some_ whole

/-- **Where nothing looked for is found, nothing is found again** when the text goes on otherwise
after some lexeme. -/
theorem scan_eq_none_of_seam (none : scan looksFor (lexeme.written ++ rest) = none)
    (any : scanAny (lexeme.written ++ rest) = some lexeme) (seam : Seam Text.isBlank rest rest') :
    scan looksFor (lexeme.written ++ rest') = .none := by
  rw [scanAny, scan_eq] at any
  rw [scan_eq] at none ⊢
  obtain ⟨before, other, after, order, tried, -⟩ := List.findSome?_eq_some_iff.mp any
  obtain ⟨-, some_, whole, -⟩ := trial_eq_some tried
  have member : other ∈ Kind.trialOrder := by simp [order]
  have found : other.extent (lexeme.written ++ rest) ≠ 0 := by
    rw [whole]
    exact fun empty => some_ (List.length_eq_zero_iff.mp empty)
  refine List.findSome?_eq_none_iff.mpr fun kind among => ?_
  exact trial_eq_none_of_seam among member seam some_ found
    (List.findSome?_eq_none_iff.mp none kind among)

end Lexeme

end Scriptlet
