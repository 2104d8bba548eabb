/-
**What has a text.**

* `Value.Sound`: a value that programs may hold: it is there, it is no signal, and if it is a
  function then its body is a block of a program; and all of this holds of the values in it.
* `Value.Exceeds`: a value whose text takes more nested calls than there is room for.
* `Value.Renders`: a value that is rendered wherever there is room for its text.

Main statements: every shaped tree has a text (`Tree.Shaped.render_ok`), and so does every sound
value (`Value.Sound.inspect_ok`).
-/
import Scriptlet.Proofs.Reader.Soundness
import Scriptlet.Proofs.Value.Held
import Scriptlet.Value.Text

namespace Scriptlet

namespace Tree

/-- Trees that have a text each have one in turn. -/
theorem renderAll_ok {trees : List Tree} (each : ∀ part ∈ trees, ∃ text, part.render = .ok text) :
    ∃ texts, renderAll trees = .ok texts := by
  induction trees with
  | nil => exact ⟨[], rfl⟩
  | cons tree rest ih =>
    obtain ⟨⟨text, here⟩, others⟩ := List.forall_mem_cons.mp each
    obtain ⟨texts, later⟩ := ih others
    exact ⟨text :: texts, by rw [renderAll, here, later]; rfl⟩

/-- Pairs that have a text each have one in turn. -/
theorem renderPairs_ok {pairs : List Tree}
    (each : ∀ part ∈ pairs, ∃ text, renderPair part = .ok text) :
    ∃ texts, renderPairs pairs = .ok texts := by
  induction pairs with
  | nil => exact ⟨[], rfl⟩
  | cons pair rest ih =>
    obtain ⟨⟨text, here⟩, others⟩ := List.forall_mem_cons.mp each
    obtain ⟨texts, later⟩ := ih others
    exact ⟨text :: texts, by rw [renderPairs, here, later]; rfl⟩

/-- A leaf is written as its token. -/
theorem render_leaf (token : Token) : (leaf token).render = .ok token.text := rfl

/-- **Every shaped tree has a text**, and so has every pair of a hash. -/
theorem Shaped.render_ok {token : Token → Prop} {role : Role} {tree : Tree}
    (shaped : tree.Shaped token role) :
    (∃ text, tree.render = .ok text) ∧ (role = .pair → ∃ text, renderPair tree = .ok text) := by
  have plain : ∀ {role : Role} {tree : Tree}, role ≠ .pair → (∃ text, tree.render = .ok text) →
      (∃ text, tree.render = .ok text) ∧ (role = .pair → ∃ text, renderPair tree = .ok text) :=
    fun other found => ⟨found, fun same => absurd same other⟩
  induction shaped with
  | program _ each | block _ each | array _ each =>
    obtain ⟨texts, written⟩ := renderAll_ok fun part member => (each part member).1
    exact plain (by simp) ⟨_, by rw [render, written]; rfl⟩
  | binding _ _ _ value =>
    obtain ⟨⟨text, written⟩, -⟩ := value
    exact plain (by simp) ⟨_, by rw [render, render_leaf, written]; rfl⟩
  | returning _ value =>
    obtain ⟨⟨text, written⟩, -⟩ := value
    exact plain (by simp) ⟨_, by rw [render, written]; rfl⟩
  | expressing _ value =>
    obtain ⟨⟨text, written⟩, -⟩ := value
    exact plain (by simp) ⟨text, by rw [render, written]⟩
  | integer | string | boolean | identifier => exact plain (by simp) ⟨_, rfl⟩
  | unary _ _ _ right =>
    obtain ⟨⟨text, written⟩, -⟩ := right
    exact plain (by simp) ⟨_, by rw [render, render_leaf, written]; rfl⟩
  | binary _ _ _ _ left right =>
    obtain ⟨⟨before, first⟩, -⟩ := left
    obtain ⟨⟨after, second⟩, -⟩ := right
    exact plain (by simp) ⟨_, by rw [render, render_leaf, first, second]; rfl⟩
  | conditional _ _ condition consequence =>
    obtain ⟨⟨test, first⟩, -⟩ := condition
    obtain ⟨⟨branch, second⟩, -⟩ := consequence
    exact plain (by simp) ⟨_, by rw [render, first, second]; rfl⟩
  | @choice condition consequence alternative _ _ alternate tested chosen left =>
    obtain ⟨⟨test, first⟩, -⟩ := tested
    obtain ⟨⟨branch, second⟩, -⟩ := chosen
    obtain ⟨⟨other, third⟩, -⟩ := left
    have written : renderAlternative [alternative] = .ok ("else " ++ other) := by
      cases alternate
      rw [renderAlternative, third]
      · rfl
      · simp
    exact plain (by simp) ⟨_, by rw [render, first, second, written]; rfl⟩
  | @function parameters _ _ _ body =>
    obtain ⟨⟨text, written⟩, -⟩ := body
    have named : ∃ names, renderAll (parameters.map .leaf) = .ok names := by
      refine renderAll_ok fun part member => ?_
      obtain ⟨name, -, rfl⟩ := List.mem_map.mp member
      exact ⟨_, render_leaf name⟩
    obtain ⟨names, listed⟩ := named
    exact plain (by simp) ⟨_, by rw [render, renderChildren, listed, written]; rfl⟩
  | call _ _ callee each =>
    obtain ⟨⟨text, written⟩, -⟩ := callee
    obtain ⟨values, listed⟩ := renderAll_ok fun part member => (each part member).1
    exact plain (by simp) ⟨_, by rw [render, renderChildren, listed, written]; rfl⟩
  | index _ _ container position =>
    obtain ⟨⟨text, first⟩, -⟩ := container
    obtain ⟨⟨place, second⟩, -⟩ := position
    exact plain (by simp) ⟨_, by rw [render, first, second]; rfl⟩
  | hash _ each =>
    obtain ⟨texts, written⟩ := renderPairs_ok fun part member => (each part member).2 rfl
    exact plain (by simp) ⟨_, by rw [render, written]; rfl⟩
  | @pair key value _ _ keyed valued =>
    obtain ⟨⟨name, first⟩, -⟩ := keyed
    obtain ⟨⟨text, second⟩, -⟩ := valued
    have written : renderAll [key, value] = .ok [name, text] := by
      rw [renderAll, first, renderAll, second]
      rfl
    exact ⟨⟨_, by rw [render, written]; rfl⟩, fun _ => ⟨_, by rw [renderPair, first, second]; rfl⟩⟩

end Tree

namespace Value

/-- A value that is there, is no signal, and has the block of a program for a body if it is a
function. -/
def IsSound : Value → Prop
  | nothing | returned _ _ | error _ _ => False
  | function _ _ body _ => body.Shaped Token.InRange .block
  | _ => True

/-- A value that programs may hold: it is sound, and so are all values in it. -/
def Sound (value : Value) : Prop :=
  value.Throughout IsSound

/-- Elements that have a text each have one in turn. -/
theorem inspectAll_ok {values : List Value}
    (each : ∀ value ∈ values, ∃ text, value.inspect = .ok text) :
    ∃ texts, inspectAll values = .ok texts := by
  induction values with
  | nil => exact ⟨[], rfl⟩
  | cons value rest ih =>
    obtain ⟨⟨text, here⟩, others⟩ := List.forall_mem_cons.mp each
    obtain ⟨texts, later⟩ := ih others
    exact ⟨text :: texts, by rw [inspectAll, here, later]; rfl⟩

/-- Keys and values that have a text each have one in turn. -/
theorem inspectPairs_ok {pairs : List (Value × Value)}
    (each : ∀ pair ∈ pairs, (∃ text, pair.1.inspect = .ok text) ∧
      ∃ text, pair.2.inspect = .ok text) :
    ∃ texts, inspectPairs pairs = .ok texts := by
  induction pairs with
  | nil => exact ⟨[], rfl⟩
  | cons pair rest ih =>
    obtain ⟨⟨⟨name, key⟩, ⟨text, value⟩⟩, others⟩ := List.forall_mem_cons.mp each
    obtain ⟨texts, later⟩ := ih others
    exact ⟨_ :: texts, by rw [inspectPairs, key, value, later]; rfl⟩

/-- **Every sound value has a text.** -/
theorem Sound.inspect_ok {value : Value} (sound : value.Sound) :
    ∃ text, value.inspect = .ok text := by
  induction sound with
  | @intro value here _ each =>
    cases value with
    | nothing | returned | error => exact here.elim
    | integer | boolean | string | null | builtin => exact ⟨_, rfl⟩
    | array _ elements =>
      have listed : ∃ texts, inspectAll elements = .ok texts := inspectAll_ok each
      obtain ⟨texts, listed⟩ := listed
      exact ⟨_, by rw [inspect, listed]; rfl⟩
    | hash _ pairs =>
      have listed : ∃ texts, inspectPairs pairs = .ok texts :=
        inspectPairs_ok fun pair member =>
          ⟨each _ (List.mem_flatMap.mpr ⟨pair, member, by simp⟩),
            each _ (List.mem_flatMap.mpr ⟨pair, member, by simp⟩)⟩
      obtain ⟨texts, listed⟩ := listed
      exact ⟨_, by rw [inspect, listed]; rfl⟩
    | function _ parameters body =>
      obtain ⟨⟨text, written⟩, -⟩ := here.render_ok
      exact ⟨_, by rw [inspect, written]; rfl⟩

/-- A value that is rendered is missing, and then there is no text, or is none of an error, and then
there is one, or is an error. -/
theorem rendered_cases {value : Value} {text? : Option String}
    (rendered : value.rendered = .ok text?) :
    value = .nothing ∧ text? = none ∨ value.isError = false ∧ (∃ text, text? = some text) ∨
      ∃ identity complaint, value = .error identity complaint := by
  have shown : value.rendered = value.inspect.map some → ∃ text, text? = some text := by
    intro inspected
    rw [inspected] at rendered
    generalize value.inspect = ended at rendered
    cases ended with
    | error fault => cases rendered
    | ok text => exact ⟨text, (Except.ok.inj rendered).symm⟩
  cases value with
  | nothing => exact Or.inl ⟨rfl, (Except.ok.inj rendered).symm⟩
  | error identity complaint => exact Or.inr (Or.inr ⟨identity, complaint, rfl⟩)
  | _ => exact Or.inr (Or.inl ⟨rfl, shown rfl⟩)

/-! ### Texts within a limit -/

/-- A value that has a text, where the calls that make the text have no room. -/
def Exceeds (limit : Nat) (value : Value) : Prop :=
  value ≠ .nothing ∧ limit < value.depth

variable {value : Value} {limit : Nat}

/-- Where there is room for a call at all, it is a value that takes more. -/
theorem Exceeds.of_lt (room : 0 < limit) (deep : limit < value.depth) : value.Exceeds limit := by
  refine ⟨?_, deep⟩
  rintro rfl
  exact absurd deep (Nat.not_lt.mpr room)

/-- The text of an error takes one call. -/
theorem not_exceeds_error {identity : Nat} {complaint : Complaint} (room : 0 < limit) :
    ¬ (error identity complaint).Exceeds limit :=
  fun exceeds => absurd exceeds.2 (Nat.not_lt.mpr room)

/-- A text that has room is made as without a limit. -/
theorem renderedWithin_of_room (room : ¬ value.Exceeds limit) :
    value.renderedWithin limit = value.rendered := by
  cases value with
  | nothing => rfl
  | _ =>
    have fits := Nat.le_of_not_lt fun deep => room ⟨by simp, deep⟩
    simp only [renderedWithin, inspectWithin, if_pos fits, rendered]

theorem renderedWithin_error {identity : Nat} {complaint : Complaint} (room : 0 < limit) :
    (error identity complaint).renderedWithin limit =
      .ok (some ("ERROR: " ++ complaint.message)) :=
  renderedWithin_of_room (not_exceeds_error room)

/-- A text that has no room is a fault. -/
theorem renderedWithin_of_exceeds (exceeds : value.Exceeds limit) :
    value.renderedWithin limit = .error .nestingTooDeep := by
  obtain ⟨there, deep⟩ := exceeds
  cases value with
  | nothing => exact absurd rfl there
  | _ =>
    simp only [renderedWithin, inspectWithin, if_neg (Nat.not_le.mpr deep)]
    rfl

/-- A value that is rendered within every limit that leaves room for its text, and within the others
leads to that fault and to no other. -/
structure Renders (value : Value) : Prop where
  within {limit : Nat} : ¬ value.Exceeds limit → ∃ text?, value.renderedWithin limit = .ok text?
  beyond {limit : Nat} : value.Exceeds limit → value.renderedWithin limit = .error .nestingTooDeep

/-- What is rendered without a limit is rendered within the limits that leave room. -/
theorem Renders.of_rendered (shown : ∃ text?, value.rendered = .ok text?) : value.Renders where
  within room := by rwa [renderedWithin_of_room room]
  beyond := renderedWithin_of_exceeds

-- an array takes two calls, a hash one, and what has no parts one
example :
    let value := hash 0 [(null, array 1 [array 2 [null]])]
    value.renderedWithin 6 = .ok (some "\x7bnull: [[null]]\x7d") ∧
      value.renderedWithin 5 = .error .nestingTooDeep :=
  ⟨rfl, rfl⟩

end Value

end Scriptlet
