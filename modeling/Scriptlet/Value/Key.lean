/-
**Keys of hashes.**

* `Key`: the type of a scalar and a number for its content: the integer itself, zero or one for a
  truth value, the digest of a string.
* `Value.key?`: the key of a value; only scalars have one.
* `Value.putPair`: a key and a value added to the pairs of a hash. A key seen before keeps its place
  and takes the later key and value.

`putPair_length`: a hash grows by at most one pair; `mem_putPair`: its pairs are the old ones and the
new one.
-/
import Scriptlet.Value
import Scriptlet.Text.Digest

namespace Scriptlet

/-- What a pair of a hash is found by. -/
structure Key where
  tag : Tag
  code : Int
  deriving DecidableEq, Repr

namespace Value

/-- The key of a value. -/
def key? : Value → Option Key
  | integer number => some ⟨.integer, number⟩
  | boolean truth => some ⟨.boolean, if truth then 1 else 0⟩
  | string _ text => some ⟨.string, (Text.digest text).toNat⟩
  | _ => none

/-- Pairs with one more, in place of the pair of the same key if there is one. -/
def putPair (key value : Value) : List (Value × Value) → List (Value × Value)
  | [] => [(key, value)]
  | (first, item) :: rest =>
    if first.key? = key.key? then (key, value) :: rest
    else (first, item) :: putPair key value rest

/-- A hash grows by at most one pair. -/
theorem putPair_length (key value : Value) (pairs : List (Value × Value)) :
    (putPair key value pairs).length = pairs.length ∨
      (putPair key value pairs).length = pairs.length + 1 := by
  induction pairs with
  | nil => simp [putPair]
  | cons pair rest ih =>
    unfold putPair
    split
    · simp
    · simpa using ih

/-- The pairs of a hash after one is added are that one and old ones. -/
theorem mem_putPair {key value : Value} {pairs : List (Value × Value)} {pair : Value × Value}
    (member : pair ∈ putPair key value pairs) : pair = (key, value) ∨ pair ∈ pairs := by
  induction pairs with
  | nil => simpa [putPair] using member
  | cons first rest ih =>
    unfold putPair at member
    split at member
    · rcases List.mem_cons.mp member with here | later
      · exact Or.inl here
      · exact Or.inr (List.mem_cons_of_mem _ later)
    · rcases List.mem_cons.mp member with here | later
      · exact Or.inr (here ▸ List.mem_cons_self)
      · exact (ih later).imp_right (List.mem_cons_of_mem _)

end Value

end Scriptlet
