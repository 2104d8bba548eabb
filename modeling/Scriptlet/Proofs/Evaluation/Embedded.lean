/-
**Evaluations of trees match.**

A shaped tree that reads visible names only is evaluated in one run as in another that it stands in.

Main statement: `evaluate_matches`. Within every limit, the evaluation of the tree on a scope
matches the evaluation of the same tree on the place of that scope, whatever functions are called on
the way. The induction on the limit carries it from one level to the next, with one lemma for each
kind of node.
-/
import Scriptlet.Proofs.Evaluation.Matching

namespace Scriptlet.Embedding

variable {embedding : Embedding} {left right : Store} {evaluate : Tree → ScopeId → Eval Value}
  {apply : Value → List Value → Eval Value} {scope : ScopeId}

/-- A visible name has the image of its value, or is that of the same builtin or unknown. -/
theorem identifier_matches (stands : embedding.Stands left right) (scope : ScopeId) {name : String}
    (visible : embedding.Visible name) :
    embedding.Matches embedding.Sends left right (Eval.identifier scope name)
      (Eval.identifier (embedding.scope scope) name) := by
  refine .bind (.get stands) ?_
  rintro after _ store _ later grows ⟨rfl, rfl⟩
  rw [stands.lookup? visible]
  cases found : store.lookup? scope name with
  | some value => exact .pure later ⟨rfl, (stands.admitted.of_lookup? found).mono grows⟩
  | none =>
    cases known : Builtin.ofName? name with
    | some builtin => exact .pure later (.plain trivial rfl)
    | none => exact .complain later _

section Step

variable (evaluates : embedding.MatchesTrees evaluate)

include evaluates

/-- A part is evaluated, and then what follows, unless the part yields a signal. -/
theorem part_matches (stands : embedding.Stands left right) (within : scope < left.scopes.size)
    {role : Role} {part : Tree} (shaped : part.Shaped embedding.Reads role)
    {next other : Value → Eval Value}
    (follows : ∀ {after after' value}, embedding.Stands after after' →
      left.scopes.size ≤ after.scopes.size → embedding.Admits after.scopes.size value →
      embedding.Matches embedding.Sends after after' (next value)
        (other (embedding.value value))) :
    embedding.Matches embedding.Sends left right
      (evaluate part scope >>= fun value => Eval.unlessSignal value (next value))
      (evaluate part (embedding.scope scope) >>= fun value =>
        Eval.unlessSignal value (other value)) := by
  refine .bind (evaluates stands shaped within) ?_
  rintro _ _ value _ stands grows ⟨rfl, admitted⟩
  exact .unlessSignal stands admitted (follows stands grows admitted)

theorem statements_matches (stands : embedding.Stands left right)
    (within : scope < left.scopes.size) {last : Value}
    (admitted : embedding.Admits left.scopes.size last) {parts : List Tree}
    (each : ∀ part ∈ parts, part.Shaped embedding.Reads .statement) :
    embedding.Matches embedding.Sends left right (Eval.statements evaluate scope last parts)
      (Eval.statements evaluate (embedding.scope scope) (embedding.value last) parts) := by
  induction parts generalizing left right last with
  | nil => exact .pure stands ⟨rfl, admitted⟩
  | cons part rest ih =>
    obtain ⟨here, later⟩ := List.forall_mem_cons.mp each
    refine part_matches evaluates stands within here ?_
    intro _ _ value stands grows yielded
    exact ih stands (Nat.lt_of_lt_of_le within grows) yielded later

theorem values_matches (stands : embedding.Stands left right) (within : scope < left.scopes.size)
    {parts : List Tree} (each : ∀ part ∈ parts, part.Shaped embedding.Reads .expression) :
    embedding.Matches embedding.SendsEach left right (Eval.values evaluate scope parts)
      (Eval.values evaluate (embedding.scope scope) parts) := by
  induction parts generalizing left right with
  | nil => exact .pure stands (.values (by simp))
  | cons part rest ih =>
    obtain ⟨here, later⟩ := List.forall_mem_cons.mp each
    refine .bind (evaluates stands here within) ?_
    rintro _ _ value _ stands grows ⟨rfl, yielded⟩
    rw [isSignal_value]
    split
    · exact .pure stands (.signal yielded)
    · refine .bind (ih stands (Nat.lt_of_lt_of_le within grows) later) ?_
      intro _ _ _ _ stands more sent
      cases sent with
      | signal admitted => exact .pure stands (.signal admitted)
      | values admitted =>
        exact .pure stands (.values (List.forall_mem_cons.mpr ⟨yielded.mono more, admitted⟩))

theorem binding_matches (stands : embedding.Stands left right) (within : scope < left.scopes.size)
    {name : Token} (visible : embedding.Visible name.text) {part : Tree}
    (shaped : part.Shaped embedding.Reads .expression) :
    embedding.Matches embedding.Sends left right (Eval.binding evaluate scope [.leaf name, part])
      (Eval.binding evaluate (embedding.scope scope) [.leaf name, part]) := by
  refine part_matches evaluates stands within shaped ?_
  intro _ _ value stands _ admitted
  refine .bind (.lift stands _) ?_
  rintro _ _ text _ stands grows ⟨rfl, read⟩
  obtain rfl : name.text = text := Except.ok.inj read
  refine .bind (.bindName stands (admitted.mono grows) (visible scope)) ?_
  intro _ _ _ _ stands _ _
  exact .pure stands (.plain trivial rfl)

theorem returning_matches (stands : embedding.Stands left right) (within : scope < left.scopes.size)
    {part : Tree} (shaped : part.Shaped embedding.Reads .expression) :
    embedding.Matches embedding.Sends left right (Eval.returning evaluate scope [part])
      (Eval.returning evaluate (embedding.scope scope) [part]) := by
  refine part_matches evaluates stands within shaped ?_
  intro _ _ value stands _ admitted
  exact .identified stands fun _ => ⟨rfl, admitted.returned⟩

theorem unary_matches (stands : embedding.Stands left right) (within : scope < left.scopes.size)
    (operator : Token) {part : Tree} (shaped : part.Shaped embedding.Reads .expression) :
    embedding.Matches embedding.Sends left right (Eval.unary evaluate scope [.leaf operator, part])
      (Eval.unary evaluate (embedding.scope scope) [.leaf operator, part]) := by
  refine part_matches evaluates stands within shaped ?_
  intro _ _ value stands _ _
  refine .bind (.lift stands _) ?_
  rintro _ _ text _ stands - ⟨rfl, -⟩
  exact applyUnary_matches stands text value

theorem binary_matches (stands : embedding.Stands left right) (within : scope < left.scopes.size)
    (operator : Token) {first second : Tree} (shaped : first.Shaped embedding.Reads .expression)
    (shaped' : second.Shaped embedding.Reads .expression) :
    embedding.Matches embedding.Sends left right
      (Eval.binary evaluate scope [first, .leaf operator, second])
      (Eval.binary evaluate (embedding.scope scope) [first, .leaf operator, second]) := by
  refine part_matches evaluates stands within shaped ?_
  intro _ _ before stands grows _
  refine part_matches evaluates stands (Nat.lt_of_lt_of_le within grows) shaped' ?_
  intro _ _ behind stands _ _
  refine .bind (.lift stands _) ?_
  rintro _ _ text _ stands - ⟨rfl, -⟩
  exact applyBinary_matches stands text before behind

theorem index_matches (stands : embedding.Stands left right) (within : scope < left.scopes.size)
    {first second : Tree} (shaped : first.Shaped embedding.Reads .expression)
    (shaped' : second.Shaped embedding.Reads .expression) :
    embedding.Matches embedding.Sends left right (Eval.index evaluate scope [first, second])
      (Eval.index evaluate (embedding.scope scope) [first, second]) := by
  refine part_matches evaluates stands within shaped ?_
  intro _ _ container stands grows admitted
  refine part_matches evaluates stands (Nat.lt_of_lt_of_le within grows) shaped' ?_
  intro _ _ position stands more _
  exact applyIndex_matches stands (admitted.mono more) position

/-- A branch, with null for no value. -/
theorem branch_matches (stands : embedding.Stands left right) (within : scope < left.scopes.size)
    {part : Tree} (shaped : part.Shaped embedding.Reads .block) :
    embedding.Matches embedding.Sends left right (do return (← evaluate part scope).orNull)
      (do return (← evaluate part (embedding.scope scope)).orNull) := by
  refine .bind (evaluates stands shaped within) ?_
  rintro _ _ value _ stands - ⟨rfl, admitted⟩
  rw [orNull_value]
  exact .pure stands ⟨rfl, admitted.orNull⟩

/-- A condition that chooses a branch, where the second one may be left out. -/
theorem conditional_matches (stands : embedding.Stands left right)
    (within : scope < left.scopes.size) {condition consequence : Tree} {rest : List Tree}
    (shaped : condition.Shaped embedding.Reads .expression)
    (shaped' : consequence.Shaped embedding.Reads .block)
    (each : ∀ part ∈ rest, part.Shaped embedding.Reads .block) :
    embedding.Matches embedding.Sends left right
      (Eval.conditional evaluate scope (condition :: consequence :: rest))
      (Eval.conditional evaluate (embedding.scope scope) (condition :: consequence :: rest)) := by
  refine part_matches evaluates stands within shaped ?_
  intro _ _ value stands grows _
  have within := Nat.lt_of_lt_of_le within grows
  rw [isTruthy_value]
  split
  · exact branch_matches evaluates stands within shaped'
  · cases rest with
    | nil => exact .pure stands (.plain trivial rfl)
    | cons alternative others =>
      have alternate := each alternative List.mem_cons_self
      cases alternate with
      | block each' => exact branch_matches evaluates stands within (.block each')

theorem array_matches (stands : embedding.Stands left right) (within : scope < left.scopes.size)
    {parts : List Tree} (each : ∀ part ∈ parts, part.Shaped embedding.Reads .expression) :
    embedding.Matches embedding.Sends left right (Eval.array evaluate scope parts)
      (Eval.array evaluate (embedding.scope scope) parts) := by
  refine .bind (values_matches evaluates stands within each) ?_
  intro _ _ _ _ stands _ sent
  cases sent with
  | signal admitted => exact .pure stands ⟨rfl, admitted⟩
  | values admitted =>
    exact .identified stands fun identity => ⟨(value_array _ _).symm, .array admitted⟩

/-- The pairs of a hash, added to the images of the pairs so far. -/
theorem pairs_matches (stands : embedding.Stands left right) (within : scope < left.scopes.size)
    {done : List (Value × Value)}
    (admitted : ∀ pair ∈ done, embedding.Admits left.scopes.size pair.1 ∧
      embedding.Admits left.scopes.size pair.2)
    {parts : List Tree} (each : ∀ part ∈ parts, part.Shaped embedding.Reads .pair) :
    embedding.Matches embedding.Sends left right (Eval.pairs evaluate scope done parts)
      (Eval.pairs evaluate (embedding.scope scope) (embedding.pairs done) parts) := by
  induction parts generalizing left right done with
  | nil => exact .identified stands fun identity => ⟨rfl, .hash admitted⟩
  | cons part rest ih =>
    obtain ⟨here, later⟩ := List.forall_mem_cons.mp each
    cases here with
    | pair first second =>
      refine part_matches evaluates stands within first ?_
      intro _ _ key stands grows keyed
      rw [key?_value]
      cases key.key? with
      | none => exact complain_tagOf_matches stands key _
      | some found =>
        have within := Nat.lt_of_lt_of_le within grows
        refine part_matches evaluates stands within second ?_
        intro _ _ item stands more valued
        rw [← pairs_putPair]
        refine ih stands (Nat.lt_of_lt_of_le within more) (fun pair member => ?_) later
        rcases Value.mem_putPair member with rfl | before
        · exact ⟨keyed.mono more, valued⟩
        · exact ⟨(admitted pair before).1.mono (Nat.le_trans grows more),
            (admitted pair before).2.mono (Nat.le_trans grows more)⟩

theorem application_matches (applies : embedding.MatchesCalls apply)
    (stands : embedding.Stands left right) (within : scope < left.scopes.size) {callee : Tree}
    (shaped : callee.Shaped embedding.Reads .expression) {arguments : List Tree}
    (each : ∀ part ∈ arguments, part.Shaped embedding.Reads .expression) :
    embedding.Matches embedding.Sends left right
      (Eval.application evaluate apply scope [callee, .node .arguments arguments])
      (Eval.application evaluate apply (embedding.scope scope)
        [callee, .node .arguments arguments]) := by
  refine part_matches evaluates stands within shaped ?_
  intro _ _ value stands grows admitted
  refine .bind (values_matches evaluates stands (Nat.lt_of_lt_of_le within grows) each) ?_
  intro _ _ _ _ stands more sent
  cases sent with
  | signal ended => exact .pure stands ⟨rfl, ended⟩
  | values given => exact applies stands (admitted.mono more) given

/-- **One level of evaluation matches** if the evaluation of the parts and calls do. -/
theorem step_matches (applies : embedding.MatchesCalls apply) (stands : embedding.Stands left right)
    (within : scope < left.scopes.size) {role : Role} {tree : Tree}
    (shaped : tree.Shaped embedding.Reads role) :
    embedding.Matches embedding.Sends left right (Eval.step evaluate apply scope tree)
      (Eval.step evaluate apply (embedding.scope scope) tree) := by
  have nothing : embedding.Admits left.scopes.size .nothing := .of_parts_eq_nil trivial rfl
  cases shaped with
  | program each =>
    refine .bind (statements_matches evaluates stands within nothing each) ?_
    rintro _ _ value _ stands - ⟨rfl, admitted⟩
    rw [operand_value]
    exact .pure stands ⟨rfl, admitted.operand⟩
  | block each => exact statements_matches evaluates stands within nothing each
  | binding kind reads part => exact binding_matches evaluates stands within (reads kind) part
  | returning part => exact returning_matches evaluates stands within part
  | expressing part => exact evaluates stands part within
  | identifier kind reads =>
    refine .bind (.lift stands _) ?_
    rintro _ _ text _ stands - ⟨rfl, read⟩
    obtain rfl := Except.ok.inj read
    exact identifier_matches stands scope (reads kind)
  | integer =>
    refine .bind (.lift stands _) ?_
    rintro _ _ text _ stands - ⟨rfl, -⟩
    split
    · exact .pure stands (.plain trivial rfl)
    · exact .throw stands _
  | string =>
    refine .bind (.lift stands _) ?_
    rintro _ _ text _ stands - ⟨rfl, -⟩
    exact .identified stands fun identity => .plain trivial rfl
  | boolean =>
    refine .bind (.lift stands _) ?_
    rintro _ _ text _ stands - ⟨rfl, -⟩
    exact .pure stands (.plain trivial rfl)
  | unary _ _ part => exact unary_matches evaluates stands within _ part
  | binary _ _ first second => exact binary_matches evaluates stands within _ first second
  | conditional condition consequence =>
    exact conditional_matches evaluates stands within condition consequence (List.forall_mem_nil _)
  | choice condition consequence alternative =>
    exact conditional_matches evaluates stands within condition consequence
      (List.forall_mem_singleton.mpr alternative)
  | function _ body =>
    exact .identified stands fun identity => .plain ⟨within, body⟩ rfl
  | call callee each => exact application_matches evaluates applies stands within callee each
  | index first second => exact index_matches evaluates stands within first second
  | array each => exact array_matches evaluates stands within each
  | hash each => exact pairs_matches evaluates stands within (List.forall_mem_nil _) each
  | pair => exact .pure stands (.plain trivial rfl)

end Step

/-- **Evaluations match.** -/
theorem evaluate_matches (limit : Nat) : embedding.MatchesTrees (Scriptlet.evaluate limit) := by
  induction limit with
  | zero => exact fun stands _ _ => .throw stands .nestingTooDeep
  | succ limit ih =>
    have calls : embedding.MatchesCalls (Eval.call (Value.inspectWithin limit) (evaluate limit)) :=
      MatchesTrees.call (inspectWithin_value limit) ih
    intro left right role tree scope stands shaped within
    exact step_matches ih calls stands within shaped

end Scriptlet.Embedding
