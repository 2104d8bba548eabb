/-
**Written tokens.**

* `Kind.marks`: the kinds of operators and punctuation marks.

Main statements: of the kinds that match at the start of a text, the one that is tried first is
scanned (`Lexeme.scan_of_first`); a written string ends at its second quotation mark
(`Kind.extent_string`); and the reader takes every plain token (`Token.Plain.inRange`).
-/
import Mathlib.Data.List.TakeWhile
import Scriptlet.Proofs.Reader.Soundness
import Scriptlet.Proofs.Tree.Print

namespace Scriptlet

/-! ### One kind of token -/

/-- The kind that is tried first of those that match. -/
theorem Lexeme.scan_of_first (looksFor : Kind → Bool) (kind : Kind) (chars : List Char)
    (tried : kind ∈ Kind.trialOrder) (looked : (kind.isLayout || looksFor kind) = true)
    (missed : ∀ other ∈ Kind.trialOrder.takeWhile (· != kind), other.extent chars = 0)
    (found : kind.extent chars ≠ 0) :
    scan looksFor chars =
      some ⟨settle looksFor kind (chars.take (kind.extent chars)),
        chars.take (kind.extent chars)⟩ := by
  have dropped : ∃ rest, Kind.trialOrder.dropWhile (· != kind) = kind :: rest := by
    have all : ∀ kind ∈ Kind.trialOrder,
        (Kind.trialOrder.dropWhile (· != kind)).head? = some kind := by decide
    exact List.head?_eq_some_iff.mp (all kind tried)
  obtain ⟨rest, dropped⟩ := dropped
  rw [scan, ← List.takeWhile_append_dropWhile (p := (· != kind)) (l := Kind.trialOrder), dropped,
    List.findSome?_append, List.findSome?_eq_none_iff.mpr, Option.none_or, List.findSome?_cons]
  · simp only [looked, if_true, if_neg found]
  · intro other member
    simp [missed other member]

/-- A name is not empty. -/
theorem IsNameText.exists_cons {chars : List Char} (name : IsNameText chars) :
    ∃ first rest, chars = first :: rest := by
  cases chars with
  | nil => exact name.elim
  | cons first rest => exact ⟨first, rest, rfl⟩

/-- The digits. -/
def digits : List Char :=
  ['0', '1', '2', '3', '4', '5', '6', '7', '8', '9']

/-- A digit is one of the ten. -/
theorem mem_digits {c : Char} (digit : c.isDigit = true) : c ∈ digits := by
  have low : 48 ≤ c.toNat ∧ c.toNat ≤ 57 := by
    simp only [Char.isDigit, ge_iff_le, Bool.and_eq_true, decide_eq_true_eq] at digit
    exact ⟨UInt32.le_iff_toNat_le.mp digit.1, UInt32.le_iff_toNat_le.mp digit.2⟩
  have each : ∀ code < 58, 48 ≤ code → Char.ofNat code ∈ digits := by decide
  rw [← Char.ofNat_toNat c]
  exact each c.toNat (Nat.lt_succ_of_le low.2) low.1

/-- What is known of each digit: it starts no other lexeme, and it has a value. -/
theorem digits_spec : ∀ c ∈ digits,
    isNameStart c = false ∧ isSpacing c = false ∧ c ≠ '/' ∧ c ≠ Text.doubleMark ∧
      Number.isMargin c = false ∧ c ≠ '-' ∧ c ≠ '+' ∧ c ≠ '_' ∧
      (Text.digitValue? c).isSome = true := by
  intro c member
  simp only [digits, List.mem_cons, List.not_mem_nil, or_false] at member
  rcases member with rfl | rfl | rfl | rfl | rfl | rfl | rfl | rfl | rfl | rfl
  all_goals decide

/-- A string goes on to the next quotation mark. -/
theorem Kind.extent_string {chars : List Char} (tail : List Char)
    (unmarked : Text.doubleMark ∉ chars) :
    string.extent (Text.doubleMark :: (chars ++ [Text.doubleMark]) ++ tail) =
      (Text.doubleMark :: (chars ++ [Text.doubleMark])).length := by
  have within : ∀ c ∈ chars, (c != Text.doubleMark) = true := by
    intro c member
    exact bne_iff_ne.mpr fun same => unmarked (same ▸ member)
  have taken : (chars ++ Text.doubleMark :: tail).takeWhile (· != Text.doubleMark) = chars := by
    rw [List.takeWhile_append_of_pos within]
    simp
  have dropped : (chars ++ Text.doubleMark :: tail).dropWhile (· != Text.doubleMark) =
      Text.doubleMark :: tail := by
    rw [List.dropWhile_append_of_pos within]
    simp
  rw [List.cons_append, List.append_assoc, List.singleton_append, extent, if_pos rfl]
  simp only [dropped, taken]
  simp

/-- The kinds of operators and punctuation marks. -/
def Kind.marks : List Kind :=
  [equals, differs, less, greater, plus, minus, star, slash, bang, openBrace, closeBrace,
    openParen, closeParen, openBracket, closeBracket, colon, comma, semicolon, assign]

/-! ### Plain tokens -/

/-- The words of the language are written as names. -/
theorem Kind.isNameText_of_isWord {kind : Kind} (word : kind.isWord = true) {spelling : String}
    (spelled : kind.spelling? = some spelling) :
    IsNameText spelling.toList ∧ ofWord? spelling = some kind := by
  have among : kind ∈ words := List.contains_iff_mem.mp word
  simp only [words, List.mem_cons, List.not_mem_nil, or_false] at among
  rcases among with rfl | rfl | rfl | rfl | rfl | rfl | rfl
  all_goals
    cases spelled
    exact ⟨by decide, by decide⟩

/-- A kind with one spelling is a word or a mark. -/
theorem Kind.mem_marks_of_spelling? {kind : Kind} {spelling : String}
    (spelled : kind.spelling? = some spelling) : kind.isWord = true ∨ kind ∈ marks := by
  cases kind with
  | identifier | integer | string | blanks | comment | ending | other => cases spelled
  | _ => first | exact Or.inl rfl | exact Or.inr (by decide)

namespace Token.Plain

variable {token : Token}

/-- Only a string is written otherwise than as its text. -/
theorem written_of_ne (other : token.kind ≠ .string) : token.written = token.text.toList :=
  if_neg other

/-- What is scanned stands for the text of the token. -/
theorem text_lexeme (token : Token) : Lexeme.text ⟨token.kind, token.written⟩ = token.text := by
  unfold Lexeme.text
  by_cases string : token.kind = .string
  · simp only [string, if_true, written]
    rw [List.drop_one, List.tail_cons, List.dropLast_concat, String.ofList_toList]
  · simp only [string, if_false, written]
    rw [String.ofList_toList]

/-- A plain token is no layout. -/
theorem isLayout_eq_false (plain : token.Plain) : token.kind.isLayout = false := by
  rcases plain with ⟨kind, -⟩ | ⟨kind, -⟩ | ⟨kind, -⟩ | spelled
  · rw [kind]
    rfl
  · rw [kind]
    rfl
  · rw [kind]
    rfl
  · rcases Kind.mem_marks_of_spelling? spelled with word | mark
    · have solid : ∀ kind ∈ Kind.words, kind.isLayout = false := by decide
      exact solid _ (List.contains_iff_mem.mp word)
    · have solid : ∀ kind ∈ Kind.marks, kind.isLayout = false := by decide
      exact solid _ mark

/-- Whether a token is plain does not depend on its place. -/
theorem of_unplaced (plain : token.Plain) {placed : Token}
    (same : placed.unplaced = token.unplaced) : placed.Plain := by
  obtain ⟨kind, text, place, stop⟩ := token
  obtain ⟨kind', text', place', stop'⟩ := placed
  obtain rfl : kind' = kind := congrArg Token.kind same
  obtain rfl : text' = text := congrArg Token.text same
  exact plain

end Token.Plain

/-! ### Integers -/

/-- No underscore stands among digits. -/
theorem Number.wellSpaced_digits {chars : List Char} (some_ : 0 < chars.length)
    (each : ∀ c ∈ chars, c.isDigit = true) : wellSpaced chars = true := by
  induction chars with
  | nil => cases some_
  | cons first rest ih =>
    obtain ⟨digit, others⟩ := List.forall_mem_cons.mp each
    obtain ⟨-, -, -, -, -, -, -, noBar, -⟩ := digits_spec first (mem_digits digit)
    cases rest with
    | nil => simp [wellSpaced]
    | cons second rest =>
      obtain ⟨-, -, -, -, -, -, -, noBar', -⟩ :=
        digits_spec second (mem_digits (others second List.mem_cons_self))
      rw [wellSpaced]
      · exact ih (by simp) others
      · exact noBar
      · simp
      · exact fun _ same => noBar' (List.cons.inj same).1

/-- Decimal digits are read as the number that they write, unless there are too many of them. -/
theorem Number.read_of_digits {text : String} (some_ : 0 < text.toList.length)
    (each : ∀ c ∈ text.toList, c.isDigit = true) :
    read text = if digitLimit < text.toList.length then .error (.tooLong text.toList.length)
      else .ok (value text.toList) := by
  have known : ∀ c ∈ text.toList, isDigitPart c = true := by
    intro c member
    obtain ⟨-, -, -, -, -, -, -, -, found⟩ := digits_spec c (mem_digits (each c member))
    simp [isDigitPart, found]
  have counted : (text.toList.filterMap Text.digitValue?).length = text.toList.length := by
    refine List.filterMap_length_eq_length.mpr fun c member => ?_
    obtain ⟨-, -, -, -, -, -, -, -, found⟩ := digits_spec c (mem_digits (each c member))
    exact found
  have taken : text.toList.takeWhile isDigitPart = text.toList :=
    List.takeWhile_eq_self_iff.mpr known
  have dropped : text.toList.dropWhile isDigitPart = [] :=
    List.dropWhile_eq_nil_iff.mpr known
  have start : sign (text.toList.dropWhile isMargin) = (1, text.toList) := by
    obtain ⟨first, rest, chars⟩ := List.exists_cons_of_length_pos some_
    obtain ⟨-, -, -, -, noMargin, noMinus, noPlus, -⟩ :=
      digits_spec first (mem_digits (each first (by simp [chars])))
    rw [chars, List.dropWhile_cons_of_neg (by simp [noMargin])]
    unfold sign
    split
    next same => exact absurd (List.cons.inj same).1 noMinus
    next same => exact absurd (List.cons.inj same).1 noPlus
    · rfl
  unfold read
  simp only [start, taken, dropped, counted, wellSpaced_digits some_ each, List.all_nil,
    Bool.not_true, Int.one_mul]
  rfl

/-- The reader takes every plain token. -/
theorem Token.Plain.inRange {token : Token} (plain : token.Plain) : token.InRange := by
  unfold InRange Reader.rangeFault?
  split
  next integer =>
    rcases plain with ⟨kind, -⟩ | ⟨-, some_, few, each, fits⟩ | ⟨kind, -⟩ | spelled
    · simp [kind] at integer
    · rw [Number.read_of_digits some_ each, if_neg (Nat.not_lt.mpr few)]
      exact if_neg (Int.not_lt.mpr fits)
    · simp [kind] at integer
    · rw [integer] at spelled
      cases spelled
  · rfl

end Scriptlet
