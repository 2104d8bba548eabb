/-
**What the pairs of a hash come to.**

* `Value.paired`: keys and values that stand in turn, as pairs; `Value.collect`: these added in turn
  to a hash without any.
* `Collects`: what a hash is to hold of the keys and values it is given.

Main statements: `Value.collects`, the hash holds one entry for each key, in the order in which the
keys first occur, and the entry is the last pair of that key; `Value.collect_eq_iff`, it holds just
what it is given if no key occurs twice, and then only; `Content.eq_of_key`, a key stands for one
content, or for all strings of one digest.
-/
import Mathlib.Data.List.Nodup
import Mathlib.Data.List.Induction
import Mathlib.Data.List.Perm.Subperm
import Scriptlet.Value.Key

namespace Scriptlet

namespace Value

/-- The keys by which pairs are found. -/
def keysOf (pairs : List (Value × Value)) : List (Option Key) :=
  pairs.map fun pair => pair.1.key?

/-- Keys and values that stand in turn, as pairs. -/
def paired : List Value → List (Value × Value)
  | key :: value :: rest => (key, value) :: paired rest
  | _ => []

/-- Pairs added in turn to those of a hash. -/
def putPairs (done given : List (Value × Value)) : List (Value × Value) :=
  given.foldl (fun done pair => putPair pair.1 pair.2 done) done

/-- Pairs added in turn to a hash without any. -/
def collect (given : List (Value × Value)) : List (Value × Value) :=
  putPairs [] given

end Value

/-- What a hash holds of the pairs it is given: an entry for each key, in the order in which the keys
first occur, and the entry is the last pair of its key. -/
structure Collects (given result : List (Value × Value)) : Prop where
  keys : Value.keysOf result = (Value.keysOf given).eraseDups
  last : ∀ entry ∈ result, ∃ before later, given = before ++ entry :: later ∧
    ∀ pair ∈ later, pair.1.key? ≠ entry.1.key?

namespace Value

variable {key value : Value} {given pairs : List (Value × Value)}

@[simp] theorem keysOf_nil : keysOf [] = [] := rfl

@[simp] theorem keysOf_cons (first : Value × Value) (rest : List (Value × Value)) :
    keysOf (first :: rest) = first.1.key? :: keysOf rest := rfl

@[simp] theorem keysOf_append (pairs more : List (Value × Value)) :
    keysOf (pairs ++ more) = keysOf pairs ++ keysOf more :=
  List.map_append

/-! ### One pair -/

/-- A key that is new stands last; one seen before leaves the keys as they are. -/
theorem keysOf_putPair (key value : Value) (pairs : List (Value × Value)) :
    keysOf (putPair key value pairs) =
      if key.key? ∈ keysOf pairs then keysOf pairs else keysOf pairs ++ [key.key?] := by
  induction pairs with
  | nil => simp [putPair]
  | cons first rest ih =>
    unfold putPair
    by_cases here : first.1.key? = key.key?
    · simp [here]
    · have distinct : ¬ key.key? = first.1.key? := fun equal => here equal.symm
      rw [if_neg here, keysOf_cons, keysOf_cons, ih]
      by_cases later : key.key? ∈ keysOf rest
      · simp [later]
      · simp [later, distinct]

/-- A pair whose key is new stands last. -/
theorem putPair_of_not_mem (fresh : key.key? ∉ keysOf pairs) :
    putPair key value pairs = pairs ++ [(key, value)] := by
  induction pairs with
  | nil => rfl
  | cons first rest ih =>
    obtain ⟨here, later⟩ := not_or.mp (List.mem_cons.not.mp fresh)
    show (if _ then _ else _) = _
    rw [if_neg (Ne.symm here), ih later]
    rfl

/-- Of the pairs before, only those of other keys are left, where no key occurs twice. -/
theorem mem_putPair_of_nodup (nodup : (keysOf pairs).Nodup) {pair : Value × Value}
    (member : pair ∈ putPair key value pairs) :
    pair = (key, value) ∨ pair ∈ pairs ∧ pair.1.key? ≠ key.key? := by
  induction pairs with
  | nil => simpa [putPair] using member
  | cons first rest ih =>
    rw [keysOf_cons, List.nodup_cons] at nodup
    unfold putPair at member
    by_cases here : first.1.key? = key.key?
    · rw [if_pos here] at member
      rcases List.mem_cons.mp member with new | later
      · exact Or.inl new
      · refine Or.inr ⟨List.mem_cons_of_mem _ later, fun equal => nodup.1 ?_⟩
        rw [here, ← equal]
        exact List.mem_map_of_mem later
    · rw [if_neg here] at member
      rcases List.mem_cons.mp member with rfl | later
      · exact Or.inr ⟨List.mem_cons_self, here⟩
      · exact (ih nodup.2 later).imp_right fun old => ⟨List.mem_cons_of_mem _ old.1, old.2⟩

/-! ### All pairs -/

theorem collect_concat (given : List (Value × Value)) (pair : Value × Value) :
    collect (given ++ [pair]) = putPair pair.1 pair.2 (collect given) := by
  rw [collect, putPairs, List.foldl_append]
  rfl

/-- The keys are those given, each at its first occurrence. -/
theorem keysOf_collect (given : List (Value × Value)) :
    keysOf (collect given) = (keysOf given).eraseDups := by
  induction given using List.reverseRecOn with
  | nil => rfl
  | append_singleton given pair ih =>
    rw [collect_concat, keysOf_putPair, ih, keysOf_append, List.eraseDups_append]
    by_cases seen : pair.1.key? ∈ keysOf given
    · simp [seen, List.removeAll]
    · simp [seen, List.removeAll, List.eraseDups_cons]

theorem nodup_keysOf_collect (given : List (Value × Value)) : (keysOf (collect given)).Nodup := by
  induction given using List.reverseRecOn with
  | nil => exact List.nodup_nil
  | append_singleton given pair ih =>
    rw [collect_concat, keysOf_putPair]
    split
    next => exact ih
    next fresh =>
      refine List.nodup_append.mpr ⟨ih, List.nodup_singleton _, fun old member new here => ?_⟩
      rintro rfl
      exact fresh (List.mem_singleton.mp here ▸ member)

/-- **A hash collects the pairs it is given.** -/
theorem collects (given : List (Value × Value)) : Collects given (collect given) := by
  refine ⟨keysOf_collect given, ?_⟩
  induction given using List.reverseRecOn with
  | nil => exact fun entry member => absurd member List.not_mem_nil
  | append_singleton given pair ih =>
    intro entry member
    rw [collect_concat] at member
    rcases mem_putPair_of_nodup (nodup_keysOf_collect given) member with rfl | ⟨old, other⟩
    · exact ⟨given, [], rfl, fun _ none => absurd none List.not_mem_nil⟩
    · obtain ⟨before, later, rfl, apart⟩ := ih entry old
      refine ⟨before, later ++ [pair], by simp, fun next among => ?_⟩
      rcases List.mem_append.mp among with inside | last
      · exact apart next inside
      · rw [List.mem_singleton.mp last]
        exact Ne.symm other

/-- **Nothing is lost if no key occurs twice**, and then only. -/
theorem collect_eq_iff (given : List (Value × Value)) :
    collect given = given ↔ (keysOf given).Nodup := by
  constructor
  · intro same
    rw [← same]
    exact nodup_keysOf_collect given
  · intro nodup
    induction given using List.reverseRecOn with
    | nil => rfl
    | append_singleton given pair ih =>
      rw [keysOf_append] at nodup
      obtain ⟨before, -, apart⟩ := List.nodup_append.mp nodup
      have fresh : pair.1.key? ∉ keysOf given := fun seen =>
        apart _ seen _ (List.mem_singleton_self _) rfl
      rw [collect_concat, ih before, putPair_of_not_mem fresh]

/-- Something is lost where a key occurs twice. -/
theorem length_collect_lt (twice : ¬ (keysOf given).Nodup) :
    (collect given).length < given.length := by
  by_contra! all
  have within : keysOf (collect given) ⊆ keysOf given := fun key member => by
    rw [keysOf_collect] at member
    exact List.mem_eraseDups.mp member
  have nodup := nodup_keysOf_collect given
  refine twice (((nodup.subperm within).perm_of_length_le ?_).nodup nodup)
  simpa [keysOf] using all

end Value

/-! ### What a key stands for -/

/-- The content of a value that has a key. -/
inductive Content where
  | integer (number : Int)
  | boolean (truth : Bool)
  | string (text : String)
  deriving DecidableEq, Repr

/-- The key of a content. -/
def Content.key : Content → Key
  | integer number => ⟨.integer, number⟩
  | boolean truth => ⟨.boolean, if truth then 1 else 0⟩
  | string text => ⟨.string, (Text.digest text).toNat⟩

/-- **A key stands for one content**, or for strings of one digest. -/
theorem Content.eq_of_key {first second : Content} (same : first.key = second.key) :
    first = second ∨ ∃ text other, first = .string text ∧ second = .string other ∧
      Text.digest text = Text.digest other := by
  cases first with
  | integer number =>
    cases second with
    | integer other => simpa [key] using same
    | boolean | string => simp [key] at same
  | boolean truth =>
    cases second with
    | boolean other => cases truth <;> cases other <;> simp [key] at same ⊢
    | integer | string => simp [key] at same
  | string text =>
    cases second with
    | string other =>
      simp only [key, Key.mk.injEq, true_and] at same
      exact Or.inr ⟨text, other, rfl, rfl, UInt64.toNat_inj.mp (Int.ofNat_inj.mp same)⟩
    | integer | boolean => simp [key] at same

namespace Value

/-- The content of a value that has a key. -/
def content? : Value → Option Content
  | integer number => some (.integer number)
  | boolean truth => some (.boolean truth)
  | string _ text => some (.string text)
  | _ => none

/-- The key of a value is that of its content. -/
theorem key?_eq (value : Value) : value.key? = value.content?.map Content.key := by
  cases value <;> rfl

/-- A key has the type of the value it stands for. -/
theorem tag?_of_key? {key : Value} {found : Key} (isKey : key.key? = some found) :
    key.tag? = some found.tag := by
  cases key with
  | integer | boolean | string =>
    cases isKey
    rfl
  | _ => cases isKey

/-- **Values of one key are of one type**, and of one content unless they are strings. -/
theorem content?_of_key? {first second : Value} (isKey : first.key?.isSome = true)
    (same : first.key? = second.key?) : first.tag? = second.tag? ∧
      (first.content? = second.content? ∨ first.tag? = some .string) := by
  obtain ⟨key, here⟩ := Option.isSome_iff_exists.mp isKey
  have there : second.key? = some key := same.symm.trans here
  refine ⟨(tag?_of_key? here).trans (tag?_of_key? there).symm, ?_⟩
  have tagged := tag?_of_key? here
  rw [key?_eq] at here there
  obtain ⟨content, held, rfl⟩ := Option.map_eq_some_iff.mp here
  obtain ⟨content', held', keys⟩ := Option.map_eq_some_iff.mp there
  rw [held, held']
  rcases Content.eq_of_key keys with equal | ⟨text, other, -, rfl, -⟩
  · exact Or.inl (congrArg some equal.symm)
  · exact Or.inr tagged

/-- The digests of the keys of pairs tell strings apart. -/
def DigestsApart (pairs : List (Value × Value)) : Prop :=
  ∀ first ∈ pairs, ∀ second ∈ pairs, ∀ text other, first.1.content? = some (.string text) →
    second.1.content? = some (.string other) → Text.digest text = Text.digest other → text = other

/-- **The keys of different contents are different**, where digests tell strings apart, and only
there. -/
theorem nodup_keysOf_iff {given : List (Value × Value)}
    (distinct : (given.map fun pair => pair.1.content?).Nodup) :
    (keysOf given).Nodup ↔ DigestsApart given := by
  have keys : keysOf given = (given.map fun pair => pair.1.content?).map (Option.map Content.key) := by
    simp [keysOf, key?_eq]
  constructor
  · intro nodup first inFirst second inSecond text other here there digests
    have same : first.1.key? = second.1.key? := by
      rw [key?_eq, key?_eq, here, there]
      simp [Content.key, digests]
    have equal : first = second := List.inj_on_of_nodup_map nodup inFirst inSecond same
    rw [equal, there] at here
    cases here
    rfl
  · intro apart
    rw [keys]
    refine List.Nodup.map_on (fun one inOne two inTwo same => ?_) distinct
    obtain ⟨first, inFirst, rfl⟩ := List.mem_map.mp inOne
    obtain ⟨second, inSecond, rfl⟩ := List.mem_map.mp inTwo
    cases here : first.1.content? with
    | none => cases there : second.1.content? <;> simp [here, there] at same ⊢
    | some content =>
      cases there : second.1.content? with
      | none => simp [here, there] at same
      | some content' =>
        rw [here, there] at same
        rcases Content.eq_of_key (Option.some.inj same) with equal | ⟨text, other, rfl, rfl, digests⟩
        · rw [equal]
        · rw [apart first inFirst second inSecond text other here there digests]

/-- Of two strings of one digest, a hash holds the second. -/
theorem collect_of_digest {text other : String} (digests : Text.digest text = Text.digest other)
    (identity identity' : Nat) (value value' : Value) :
    collect [(.string identity text, value), (.string identity' other, value')] =
      [(.string identity' other, value')] := by
  simp [collect, putPairs, putPair, key?, digests]

end Value

end Scriptlet
