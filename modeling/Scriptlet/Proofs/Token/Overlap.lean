/-
**Where a lexeme depends on what is looked for.**

The kinds that are looked for change with what has been read, while `Lexeme.scanAny` looks for all
of them. A character settles which kinds a lexeme can have that starts with it, and two kinds
seldom match the same text.

* `Kind.startedBy`: the kinds of the lexemes that a character can start.
* `Kind.overlaps`: the pairs of kinds that match the same text: a comment and a slash, `==` and
  `=`, `!=` and `!`.
* `Kind.closers`: the closing marks, which match where nothing else does.
* `Lexeme.SameCut`: two lexemes are written alike, and of one kind, but for a word of the language
  that may be a name.

Main statement: `Lexeme.scanAny_of_scan`. What is scanned where some kinds are looked for is cut
off in the same place where all are, unless it is `=` or `!` and another `=` follows. It is the
very same where more kinds are looked for, if they are no word that it spells
(`Lexeme.scan_wider`), and where other closing marks are (`Lexeme.scan_agree`).
-/
import Mathlib.Data.List.Basic
import Scriptlet.Proofs.Token.Seams

namespace Scriptlet

namespace Kind

/-- The first character of the one spelling of a kind. -/
def head? (kind : Kind) : Option Char :=
  kind.spelling?.bind fun spelling => spelling.toList.head?

/-- The kinds of the lexemes that a character can start. -/
def startedBy (c : Char) : List Kind :=
  if isNameStart c then [identifier]
  else if isSpacing c then [blanks]
  else if c.isDigit then [integer]
  else if c = Text.doubleMark then [string]
  else if c = '/' then [comment, slash]
  else marks.filter fun kind => kind.head? == some c

/-- The pairs of kinds that match the same text; the one that is tried first comes first. -/
def overlaps : List (Kind × Kind) :=
  [(comment, slash), (equals, assign), (differs, bang)]

/-- A mark is started by the first character that it is written in. -/
theorem mem_startedBy_of_head? {kind : Kind} (mark : kind ∈ marks) {c : Char}
    (starts : kind.head? = some c) : kind ∈ startedBy c := by
  have known : ∀ kind ∈ marks, kind.head?.all fun c => decide (kind ∈ startedBy c) := by decide
  have here := known kind mark
  rw [starts] at here
  exact of_decide_eq_true here

/-- **A lexeme is of a kind that its first character can start.** -/
theorem mem_startedBy {kind : Kind} (tried : kind ∈ trialOrder) {c : Char} {rest : List Char}
    (found : kind.extent (c :: rest) ≠ 0) : kind ∈ startedBy c := by
  rcases trialOrder_cases tried with own | ⟨spelling, mark, spelled⟩
  · simp only [List.mem_cons, List.not_mem_nil, or_false] at own
    rcases own with rfl | rfl | rfl | rfl | rfl
    · have start : isNameStart c = true := by
        by_contra other
        simp [extent, other] at found
      simp [startedBy, start]
    · have space : isSpacing c = true := by
        by_contra other
        simp [extent, other] at found
      simp [startedBy, space, isNameStart_of_isSpacing space]
    · obtain ⟨more, starts⟩ : ['/', '/'] <+: c :: rest := by
        by_contra other
        exact found (extent_comment_eq_zero.mpr other)
      obtain ⟨rfl, -⟩ := List.cons.inj starts
      decide
    · have mark : c = Text.doubleMark := by
        by_contra other
        simp [extent, other] at found
      rw [mark]
      decide
    · have digit : c.isDigit = true := by
        by_contra other
        simp [extent, other] at found
      obtain ⟨noName, noSpace, -⟩ := digits_spec c (mem_digits digit)
      simp [startedBy, noName, noSpace, digit]
  · refine mem_startedBy_of_head? mark ?_
    rw [extent_of_spelling? spelled] at found
    split at found
    next leads =>
      obtain ⟨more, starts⟩ := List.isPrefixOf_iff_prefix.mp leads
      cases letters : spelling.toList with
      | nil => simp [letters] at found
      | cons first others =>
        rw [letters] at starts
        simp [head?, spelled, letters, (List.cons.inj starts).1]
    · exact absurd rfl found

/-- Two marks that one character starts are one, or overlap. -/
theorem eq_or_overlap_of_head? : ∀ kind ∈ marks, ∀ other ∈ marks, kind.head? = other.head? →
    kind = other ∨ (kind, other) ∈ overlaps ∨ (other, kind) ∈ overlaps := by
  decide

/-- **Two kinds that match the same text** are one, or overlap. -/
theorem eq_or_overlap {kind other : Kind} (tried : kind ∈ trialOrder)
    (tried' : other ∈ trialOrder) {chars : List Char} (found : kind.extent chars ≠ 0)
    (found' : other.extent chars ≠ 0) :
    kind = other ∨ (kind, other) ∈ overlaps ∨ (other, kind) ∈ overlaps := by
  have alone : ∀ {only : Kind}, kind ∈ [only] → other ∈ [only] → kind = other :=
    fun first second => (List.mem_singleton.mp first).trans (List.mem_singleton.mp second).symm
  cases chars with
  | nil =>
    have none : ∀ kind ∈ trialOrder, kind.extent [] = 0 := by decide
    exact absurd (none kind tried) found
  | cons c rest =>
    have first := mem_startedBy tried found
    have second := mem_startedBy tried' found'
    unfold startedBy at first second
    split_ifs at first second
    · exact Or.inl (alone first second)
    · exact Or.inl (alone first second)
    · exact Or.inl (alone first second)
    · exact Or.inl (alone first second)
    · simp only [List.mem_cons, List.not_mem_nil, or_false] at first second
      rcases first with rfl | rfl <;> rcases second with rfl | rfl <;> decide
    · obtain ⟨mark, here⟩ := List.mem_filter.mp first
      obtain ⟨mark', here'⟩ := List.mem_filter.mp second
      exact eq_or_overlap_of_head? kind mark other mark'
        ((eq_of_beq here).trans (eq_of_beq here').symm)

/-- The marks that close what is open. -/
def closers : List Kind :=
  [closeBrace, closeParen, closeBracket]

/-- Where a closing mark stands, no other lexeme does. -/
theorem eq_of_closers {kind closer : Kind} (tried : kind ∈ trialOrder) (closes : closer ∈ closers)
    {chars : List Char} (found : kind.extent chars ≠ 0) (found' : closer.extent chars ≠ 0) :
    kind = closer := by
  have known : ∀ closer ∈ closers, closer ∈ trialOrder ∧
      ∀ pair ∈ overlaps, pair.1 ≠ closer ∧ pair.2 ≠ closer := by decide
  obtain ⟨tried', alone⟩ := known closer closes
  rcases eq_or_overlap tried tried' found found' with same | pair | pair
  · exact same
  · exact absurd rfl (alone _ pair).2
  · exact absurd rfl (alone _ pair).1

end Kind

namespace Lexeme

variable {looksFor more : Kind → Bool} {lexeme : Lexeme} {chars rest : List Char}

/-- Two slashes start a comment, whatever is looked for. -/
theorem scan_comment (looksFor : Kind → Bool) (rest : List Char) :
    scan looksFor ('/' :: '/' :: rest) =
      some ⟨.comment, '/' :: '/' :: rest.takeWhile (· != '\n')⟩ := by
  have missed : ∀ other ∈ Kind.trialOrder.takeWhile (· != Kind.comment),
      other.extent ('/' :: '/' :: rest) = 0 := by
    intro other member
    have among : other ∈ [Kind.identifier, .blanks] := member
    simp only [List.mem_cons, List.not_mem_nil, or_false] at among
    rcases among with rfl | rfl <;> rfl
  have scanned := scan_of_first looksFor .comment ('/' :: '/' :: rest) (by decide) rfl missed
    (by simp [Kind.extent])
  rw [scanned, Kind.extent, List.take_succ_cons, List.take_succ_cons,
    ← List.prefix_iff_eq_take.mp (List.takeWhile_prefix (· != '\n'))]
  rfl

/-- Two lexemes are written alike, and of one kind; the second one may be a name that is written as
a word of the language. -/
structure SameCut (first second : Lexeme) : Prop where
  written : first.written = second.written
  kind : first.kind = second.kind ∨
    second.kind = .identifier ∧ Kind.ofWord? (String.ofList second.written) = some first.kind

/-- A word is a word of the language wherever all kinds are looked for. -/
theorem settle_any (looksFor : Kind → Bool) (kind : Kind) (written : List Char) :
    settle (fun _ => true) kind written = settle looksFor kind written ∨
      settle looksFor kind written = .identifier ∧
        Kind.ofWord? (String.ofList written) = some (settle (fun _ => true) kind written) := by
  unfold settle
  split
  · split
    next word found =>
      cases looksFor word with
      | true => exact Or.inl rfl
      | false => exact Or.inr ⟨rfl, found⟩
    · exact Or.inl rfl
  · exact Or.inl rfl

/-- A lexeme that makes one mark with an equals sign, and one that follows. -/
def Joinable (lexeme : Lexeme) (rest : List Char) : Prop :=
  (lexeme.kind = .assign ∨ lexeme.kind = .bang) ∧ ∃ more, rest = '=' :: more

/-- A kind matches where it goes as far as a lexeme. -/
theorem extent_ne_zero {kind : Kind} {written : List Char} (some_ : written ≠ [])
    (whole : kind.extent (written ++ rest) = written.length) :
    kind.extent (written ++ rest) ≠ 0 := by
  rw [whole]
  exact fun empty => some_ (List.length_eq_zero_iff.mp empty)

/-- A mark that another one goes on with an equals sign is written before one. -/
theorem exists_of_overlap {mark longer : Kind} {one two : String}
    (spelled : mark.spelling? = some one) (spelled' : longer.spelling? = some two)
    (joined : two.toList = one.toList ++ ['=']) {written : List Char}
    (whole : mark.extent (written ++ rest) = written.length) (some_ : written ≠ [])
    (found : longer.extent (written ++ rest) ≠ 0) : ∃ more, rest = '=' :: more := by
  have spelling := Kind.take_extent_of_spelling? spelled (extent_ne_zero some_ whole)
  rw [whole, List.take_left] at spelling
  have leads := List.take_prefix (longer.extent (written ++ rest)) (written ++ rest)
  rw [Kind.take_extent_of_spelling? spelled' found, joined, spelling,
    List.prefix_append_right_inj] at leads
  obtain ⟨more, follows⟩ := leads
  exact ⟨more, follows.symm⟩

/-- **A kind that goes as far as a lexeme is what is scanned**, if it is looked for and no kind that
overlaps with it and is tried first matches. -/
theorem scan_of_whole {kind : Kind} (tried : kind ∈ Kind.trialOrder)
    (looked : (kind.isLayout || looksFor kind) = true) {written : List Char} (some_ : written ≠ [])
    (whole : kind.extent (written ++ rest) = written.length)
    (clear : ∀ longer, (longer, kind) ∈ Kind.overlaps → longer.extent (written ++ rest) = 0) :
    scan looksFor (written ++ rest) = some ⟨settle looksFor kind written, written⟩ := by
  have matched := extent_ne_zero some_ whole
  have scanned := scan_of_first looksFor kind (written ++ rest) tried looked
    (fun other before => by
      by_contra matched'
      have distinct : other ≠ kind := by simpa using List.mem_takeWhile_imp before
      have ordered : ∀ pair ∈ Kind.overlaps,
          pair.2 ∉ Kind.trialOrder.takeWhile (· != pair.1) := by decide
      rcases Kind.eq_or_overlap ((List.takeWhile_prefix _).subset before) tried matched' matched
        with same | pair | pair
      · exact distinct same
      · exact matched' (clear other pair)
      · exact ordered _ pair before)
    matched
  rwa [whole, List.take_left] at scanned

/-- What is scanned is a kind that goes as far as the lexeme, and no kind that overlaps with it
and is tried first matches, unless the lexeme makes one mark with what follows. -/
theorem exists_of_scan (found : scan looksFor (lexeme.written ++ rest) = some lexeme) :
    lexeme.Joinable rest ∨ ∃ kind ∈ Kind.trialOrder, (kind.isLayout || looksFor kind) = true ∧
      lexeme.written ≠ [] ∧ kind.extent (lexeme.written ++ rest) = lexeme.written.length ∧
      (∀ longer, (longer, kind) ∈ Kind.overlaps → longer.extent (lexeme.written ++ rest) = 0) ∧
      lexeme.kind = settle looksFor kind lexeme.written := by
  obtain ⟨kind, tried, trial⟩ := List.exists_of_findSome?_eq_some (scan_eq _ _ ▸ found)
  obtain ⟨looked, some_, whole, settled⟩ := trial_eq_some trial
  by_cases overlap : ∃ longer, (longer, kind) ∈ Kind.overlaps ∧
      longer.extent (lexeme.written ++ rest) ≠ 0
  · obtain ⟨longer, pair, matched⟩ := overlap
    simp only [Kind.overlaps, List.mem_cons, Prod.mk.injEq, List.not_mem_nil, or_false] at pair
    rcases pair with ⟨rfl, rfl⟩ | ⟨rfl, rfl⟩ | ⟨rfl, rfl⟩
    · -- a comment is always looked for
      obtain ⟨more, starts⟩ : ['/', '/'] <+: lexeme.written ++ rest := by
        by_contra none
        exact matched (Kind.extent_comment_eq_zero.mpr none)
      rw [← starts] at found
      cases (scan_comment looksFor more).symm.trans found
      cases settled
    · exact Or.inl ⟨Or.inl settled, exists_of_overlap rfl rfl rfl whole some_ matched⟩
    · exact Or.inl ⟨Or.inr settled, exists_of_overlap rfl rfl rfl whole some_ matched⟩
  · refine Or.inr ⟨kind, tried, looked, some_, whole, fun longer pair => ?_, settled⟩
    by_contra matched
    exact overlap ⟨longer, pair, matched⟩

/-- A comment that is scanned is two slashes and the rest of a line. -/
theorem exists_of_scan_comment (found : scan looksFor (lexeme.written ++ rest) = some lexeme)
    (comment : lexeme.kind = .comment) :
    ∃ inner, lexeme.written = '/' :: '/' :: inner ∧ '\n' ∉ inner := by
  obtain ⟨kind, tried, trial⟩ := List.exists_of_findSome?_eq_some (scan_eq _ _ ▸ found)
  obtain ⟨looked, some_, whole, settled⟩ := trial_eq_some trial
  obtain rfl := eq_comment_of_settle (settled.symm.trans comment)
  obtain ⟨more, starts⟩ : ['/', '/'] <+: lexeme.written ++ rest := by
    by_contra other
    rw [Kind.extent_comment_eq_zero.mpr other] at whole
    exact some_ (List.length_eq_zero_iff.mp whole.symm)
  rw [← starts] at found
  obtain rfl := Option.some.inj ((scan_comment looksFor more).symm.trans found)
  exact ⟨_, rfl, fun member => by simpa using List.mem_takeWhile_imp member⟩

/-- **An open comment swallows** what follows on the same line. -/
theorem scan_comment_swallowing (found : scan looksFor (lexeme.written ++ rest) = some lexeme)
    (comment : lexeme.kind = .comment) (looksFor' : Kind → Bool) {line : List Char}
    (sameLine : '\n' ∉ line) :
    scan looksFor' (lexeme.written ++ line) = some ⟨.comment, lexeme.written ++ line⟩ := by
  obtain ⟨inner, parts, within⟩ := exists_of_scan_comment found comment
  have all : (inner ++ line).takeWhile (· != '\n') = inner ++ line := by
    refine List.takeWhile_eq_self_iff.mpr fun c member => bne_iff_ne.mpr ?_
    rintro rfl
    exact (List.mem_append.mp member).elim within sameLine
  rw [parts, List.cons_append, List.cons_append, scan_comment, all]

/-- **What is scanned is cut off in the same place where all kinds are looked for**, unless it makes
one mark with what follows. -/
theorem scanAny_of_scan (found : scan looksFor (lexeme.written ++ rest) = some lexeme) :
    (∃ any, scanAny (lexeme.written ++ rest) = some any ∧ any.SameCut lexeme) ∨
      lexeme.Joinable rest := by
  rcases exists_of_scan found with joins | ⟨kind, tried, -, some_, whole, clear, settled⟩
  · exact Or.inr joins
  · refine Or.inl ⟨_, scan_of_whole tried (by simp) some_ whole clear, rfl, ?_⟩
    rw [settled]
    exact settle_any looksFor kind lexeme.written

/-! ### Where other kinds are looked for -/

/-- What is written has the same kind where the word that it spells is looked for alike. -/
theorem settle_congr {written : List Char}
    (alike : ∀ word, Kind.ofWord? (String.ofList written) = some word → more word = looksFor word)
    (kind : Kind) : settle more kind written = settle looksFor kind written := by
  unfold settle
  cases found : Kind.ofWord? (String.ofList written) with
  | none => rfl
  | some word => simp only [alike word found]

/-- Where the kinds that match are looked for alike, and words are, the same is scanned. -/
theorem scan_congr
    (alike : ∀ kind ∈ Kind.trialOrder, kind.extent chars ≠ 0 → more kind = looksFor kind)
    (words : ∀ word ∈ Kind.words, more word = looksFor word) :
    scan more chars = scan looksFor chars := by
  rw [scan_eq, scan_eq, ← List.head?_filterMap, ← List.head?_filterMap]
  congr 1
  refine List.filterMap_congr fun kind tried => ?_
  unfold trial
  by_cases missed : kind.extent chars = 0
  · simp [missed]
  · rw [alike kind tried missed,
      settle_congr fun word found => words word (List.mem_of_find?_eq_some found)]

/-- **What is scanned is scanned where more kinds are looked for**, if the word that it spells is
looked for alike and it makes no mark with what follows. -/
theorem scan_wider (found : scan looksFor (lexeme.written ++ rest) = some lexeme)
    (separate : ¬ lexeme.Joinable rest)
    (wider : ∀ kind, looksFor kind = true → more kind = true)
    (words : ∀ word, Kind.ofWord? (String.ofList lexeme.written) = some word →
      more word = looksFor word) :
    scan more (lexeme.written ++ rest) = some lexeme := by
  rcases exists_of_scan found with joins | ⟨kind, tried, looked, some_, whole, clear, settled⟩
  · exact absurd joins separate
  · have looked : (kind.isLayout || more kind) = true := by
      rw [Bool.or_eq_true] at looked ⊢
      exact looked.imp_right (wider kind)
    rw [scan_of_whole tried looked some_ whole clear, settle_congr words, ← settled]

/-- **Layout is found whatever is looked for.** -/
theorem scan_of_layout (found : scan looksFor (lexeme.written ++ rest) = some lexeme)
    (layout : lexeme.kind.isLayout = true) (more : Kind → Bool) :
    scan more (lexeme.written ++ rest) = some lexeme := by
  rcases exists_of_scan found with ⟨joins, -⟩ | ⟨kind, tried, -, some_, whole, clear, settled⟩
  · rcases joins with joins | joins <;> simp [joins, Kind.isLayout] at layout
  · have own : lexeme.kind = kind := by
      rcases settle_spec looksFor kind lexeme.written with same | ⟨-, word⟩
      · exact settled.trans same
      · have words : ∀ word ∈ Kind.words, word.isLayout = false := by decide
        rw [← settled] at word
        cases layout.symm.trans (words _ (List.mem_of_find?_eq_some word))
    have other : kind ≠ .identifier := by
      rintro rfl
      rw [own] at layout
      cases layout
    have looked : (kind.isLayout || more kind) = true := by rw [← own, layout, Bool.true_or]
    rw [scan_of_whole tried looked some_ whole clear, settle, if_neg other, ← own]

/-- What a trial finds is what its kind matches. -/
theorem eq_of_trial {kind : Kind} (found : trial looksFor chars kind = some lexeme) :
    kind.extent chars ≠ 0 ∧
      lexeme = ⟨settle looksFor kind (chars.take (kind.extent chars)),
        chars.take (kind.extent chars)⟩ := by
  unfold trial at found
  split at found
  · split at found
    · cases found
    next matched => exact ⟨matched, (Option.some.inj found).symm⟩
  · cases found

/-- **What is scanned with some closing marks looked for is what is scanned with others**, if
anything is. -/
theorem scan_agree {other : Lexeme} (same : ∀ kind, kind ∉ Kind.closers → more kind = looksFor kind)
    (found : scan looksFor chars = some lexeme) (found' : scan more chars = some other) :
    other = lexeme := by
  have words : ∀ word ∈ Kind.words, more word = looksFor word := by
    have known : ∀ word ∈ Kind.words, word ∉ Kind.closers := by decide
    exact fun word member => same word (known word member)
  by_cases closing : ∃ closer ∈ Kind.closers, closer.extent chars ≠ 0
  · obtain ⟨closer, closes, matched⟩ := closing
    obtain ⟨kind, tried, first⟩ := List.exists_of_findSome?_eq_some (scan_eq _ _ ▸ found)
    obtain ⟨kind', tried', second⟩ := List.exists_of_findSome?_eq_some (scan_eq _ _ ▸ found')
    obtain ⟨here, rfl⟩ := eq_of_trial first
    obtain ⟨here', rfl⟩ := eq_of_trial second
    obtain rfl := Kind.eq_of_closers tried closes here matched
    obtain rfl := Kind.eq_of_closers tried' closes here' matched
    rw [settle_congr fun word found => words word (List.mem_of_find?_eq_some found)]
  · have alike : scan more chars = scan looksFor chars := by
      refine scan_congr (fun kind _ matched => same kind fun closes => ?_) words
      exact closing ⟨kind, closes, matched⟩
    exact Option.some.inj (found'.symm.trans (alike.trans found))

/-- **What is scanned is scanned where a closing mark is looked for as well.** -/
theorem scan_closer {closer : Kind} (closes : closer ∈ Kind.closers)
    (unsought : looksFor closer = false)
    (same : ∀ kind, kind ≠ closer → more kind = looksFor kind)
    (found : scan looksFor chars = some lexeme) : scan more chars = some lexeme := by
  refine (scan_congr (fun kind tried matched => same kind ?_) fun word member => same word ?_).trans
    found
  · rintro rfl
    obtain ⟨kind', tried', trial⟩ := List.exists_of_findSome?_eq_some (scan_eq _ _ ▸ found)
    obtain ⟨matched', -⟩ := eq_of_trial trial
    obtain rfl := Kind.eq_of_closers tried' closes matched' matched
    have solid : ∀ closer ∈ Kind.closers, closer.isLayout = false := by decide
    rw [Lexeme.trial, solid kind' closes, unsought] at trial
    cases trial
  · rintro rfl
    have known : ∀ word ∈ Kind.words, word ∉ Kind.closers := by decide
    exact known word member closes

end Lexeme

end Scriptlet
