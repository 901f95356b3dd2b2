import Formulary.Proofs.Evaluation.Sharing

/-!
# Lenders and their refusals

A plain table of rows can take the place of a sharing domain.  It lends its buffers
alike, and refuses in words of its own what it does not have.  Evaluation never looks at
a failure, so that other words for the failures of what is asked come out as other words
for the failure of the whole.

Main results:

- Definition `EvalM.Retells`: two computations are the same but for the words of a failure.
- Theorem `Expr.retells_evaluateWith`: evaluation retells what its provider retells.
- Theorem `Domain.provider_sharing`: a sharing domain lends, and refuses as copies do.
- Theorem `Expr.row_evaluateWith_lending`: if everything written is read once, any lender
  gives what copies give, or the same failure in its own words.
-/

namespace Formulary

variable {α β γ : Type}

/-! ## Other words for failures -/

/-- Words for failures that change no failure but that of an unbound variable. -/
def EvalError.KeepsOthers (words : EvalError → EvalError) : Prop :=
  ∀ error, (∀ name, error ≠ .unbound name) → words error = error

/-- Two computations do the same, and where the second fails the first fails in other
words. -/
def EvalM.Retells (words : EvalError → EvalError) (first second : EvalM α β) : Prop :=
  ∀ store, first.apply store =
    ((second.apply store).1.mapError words, (second.apply store).2)

namespace EvalM.Retells

variable {words : EvalError → EvalError}

/-- What does not fail is retold as it is. -/
theorem of_ok {computation : EvalM α β}
    (succeeds : ∀ store, ∃ value after, computation.apply store = (.ok value, after)) :
    EvalM.Retells words computation computation := by
  intro store
  obtain ⟨value, after, done⟩ := succeeds store
  rw [done]
  rfl

/-- What is known without the store is retold as it is, unless a variable is unbound. -/
theorem of_lift (keeps : EvalError.KeepsOthers words) {result : Except EvalError β}
    (other : ∀ name, result ≠ .error (.unbound name)) :
    EvalM.Retells words (liftM result : EvalM α β) (liftM result) := by
  intro store
  rw [EvalM.apply_lift]
  cases result with
  | error error =>
    have kept : words error = error :=
      keeps error fun name same => other name (congrArg Except.error same)
    show (Except.error error, store) = (Except.error (words error), store)
    rw [kept]
  | ok value => rfl

/-- Computations are retold one after the other. -/
theorem bind {first second : EvalM α β} {next other : β → EvalM α γ}
    (head : EvalM.Retells words first second)
    (tail : ∀ value, EvalM.Retells words (next value) (other value)) :
    EvalM.Retells words (first >>= next) (second >>= other) := by
  intro store
  rw [EvalM.apply_bind, EvalM.apply_bind, head store]
  rcases second.apply store with ⟨error | value, after⟩
  · rfl
  · exact tail value after

/-- So are the computations of a list. -/
theorem inSequence {δ : Type} {first second : δ → EvalM α β} {items : List δ}
    (each : ∀ item ∈ items, EvalM.Retells words (first item) (second item)) :
    EvalM.Retells words (Formulary.inSequence (items.map first))
      (Formulary.inSequence (items.map second)) := by
  induction items with
  | nil => exact of_ok fun store => ⟨[], store, rfl⟩
  | cons item rest ih =>
    refine (each item List.mem_cons_self).bind fun value => ?_
    refine (ih fun other member => each other (List.mem_cons_of_mem item member)).bind ?_
    exact fun values => of_ok fun store => ⟨value :: values, store, rfl⟩

/-- A row is retold where it is computed. -/
theorem row_eq {first second : EvalM α Buffer} (retells : EvalM.Retells words first second)
    (store : Store α) : first.row store = (second.row store).mapError words := by
  rw [EvalM.row, EvalM.row, retells store]
  rcases second.apply store with ⟨error | buffer, after⟩ <;> rfl

end EvalM.Retells

/-! ## Failures of a node -/

theorem constantRow_ne_unbound (count : Int) (value : α) (name : String) :
    constantRow count value ≠ .error (.unbound name) := by
  rw [constantRow]
  split <;> simp

theorem Mark.checkArity_ne_unbound (mark : Mark α) (count : Nat) (name : String) :
    mark.checkArity count ≠ .error (.unbound name) := by
  rw [checkArity]
  split <;> simp

theorem Mark.checkLengths_ne_unbound (mark : Mark α) (lengths : List Nat) (name : String) :
    mark.checkLengths lengths ≠ .error (.unbound name) := by
  unfold checkLengths
  split
  · simp
  · split <;> simp

/-! ## Evaluation with other refusals -/

/-- One provider hands out the same as another and refuses in other words, for given
names. -/
structure Provider.Retells (words : EvalError → EvalError) (names : List String)
    (first second : Provider α) : Prop where
  fetch : ∀ name ∈ names, EvalM.Retells words (first.fetch name) (second.fetch name)
  sampleCount : EvalM.Retells words first.sampleCount second.sampleCount

/-- A constant is retold if the number of samples is. -/
theorem Provider.Retells.constant {words : EvalError → EvalError} {names : List String}
    {first second : Provider α} (retells : first.Retells words names second)
    (keeps : EvalError.KeepsOthers words) (value : α) :
    EvalM.Retells words (first.constant value) (second.constant value) := by
  refine retells.sampleCount.bind fun count => ?_
  refine (EvalM.Retells.of_lift keeps (constantRow_ne_unbound count value)).bind fun row => ?_
  exact .of_ok fun store => ⟨_, _, EvalM.apply_alloc row store⟩

section

variable [Scalar α]

/-- The value of an operation can always be written. -/
theorem Operation.exists_apply_applyInPlace (operation : Operation) (buffers : List Buffer)
    (rows : List (List α)) (store : Store α) :
    ∃ buffer after, (operation.applyInPlace buffers rows).apply store = (.ok buffer, after) := by
  cases buffers with
  | nil => exact ⟨_, _, rfl⟩
  | cons first rest => exact ⟨_, _, rfl⟩

/-- Evaluation asks a provider for the variables at its leaves and for the number of
samples, and never looks at a failure. -/
theorem Expr.retells_evaluateWith {words : EvalError → EvalError}
    (keeps : EvalError.KeepsOthers words) {first second : Provider α} (expr : Expr α)
    (retells : first.Retells words expr.leafNames second) :
    EvalM.Retells words (expr.evaluateWith first) (expr.evaluateWith second) := by
  induction expr using Tree.induct with
  | step mark children ih =>
    rw [evaluateWith_node, evaluateWith_node]
    simp only [evaluateNode, List.length_map]
    refine (EvalM.Retells.of_lift keeps (mark.checkArity_ne_unbound _)).bind fun _ => ?_
    cases label : mark.label with
    | const value => exact retells.constant keeps value
    | var name =>
      refine retells.fetch name ?_
      rw [leafNames_node, label]
      exact List.mem_append_left _ (List.mem_singleton_self name)
    | op operation =>
      rw [leafNames_of_op label] at retells
      dsimp only
      rw [← List.map_take, ← List.map_take]
      refine (EvalM.Retells.inSequence fun child member => ?_).bind fun buffers => ?_
      · refine ih child (List.mem_of_mem_take member) ⟨?_, retells.sampleCount⟩
        exact fun name leaf => retells.fetch name (List.mem_flatMap.2 ⟨child, member, leaf⟩)
      · refine EvalM.Retells.bind (.of_ok fun store => ⟨_, _, EvalM.apply_reads buffers store⟩) ?_
        intro rows
        refine (EvalM.Retells.of_lift keeps (mark.checkLengths_ne_unbound _)).bind fun _ => ?_
        exact .of_ok (operation.exists_apply_applyInPlace buffers rows)

end

/-! ## Lenders -/

/-- The words of a lender for the failures over copies. -/
def Refusals.words (refusals : Refusals) : EvalError → EvalError
  | .unbound name => refusals.unbound name
  | error => error

theorem Refusals.keepsOthers_words (refusals : Refusals) :
    EvalError.KeepsOthers refusals.words := by
  intro error other
  cases error with
  | unbound name => exact absurd rfl (other name)
  | _ => rfl

section

variable {refusals : Refusals} {bindings : Bindings Buffer} {name : String}

theorem Provider.fetch_lending_of_none (free : bindings.find? name = none) :
    (Provider.lending refusals bindings).fetch name =
      (throw (refusals.unbound name) : EvalM α Buffer) := by
  simp only [lending, free]

theorem Provider.fetch_lending_of_some {buffer : Buffer}
    (bound : bindings.find? name = some buffer) :
    (Provider.lending refusals bindings).fetch name = (pure buffer : EvalM α Buffer) := by
  simp only [lending, bound]

end

/-- A sharing domain lends its buffers and refuses as copies do. -/
theorem Domain.provider_sharing (bindings : Bindings Buffer) :
    ((Domain.sharing bindings).provider : Provider α) = .lending .ofCopies bindings := by
  have fetched : ∀ name, ((Domain.sharing bindings).fetch name : EvalM α Buffer) =
      (Provider.lending .ofCopies bindings).fetch name := by
    intro name
    cases found : bindings.find? name with
    | none =>
      rw [Provider.fetch_lending_of_none found, fetch, Domain.bindings, found]
      rfl
    | some buffer =>
      rw [Provider.fetch_lending_of_some found, fetch, Domain.bindings, found]
  rw [provider, funext fetched]
  cases bindings <;> rfl

/-- Lenders of the same buffers differ in their words only, if they count their samples. -/
theorem Provider.retells_lending {refusals : Refusals} {bindings : Bindings Buffer}
    {words : EvalError → EvalError} {names : List String}
    (told : ∀ name ∈ names, bindings.find? name = none →
      words (.unbound name) = refusals.unbound name)
    (counted : bindings ≠ [] ∨ refusals.uncounted = none) :
    (Provider.lending refusals bindings : Provider α).Retells words names
      (.lending .ofCopies bindings) := by
  constructor
  · intro name asked store
    cases found : bindings.find? name with
    | none =>
      rw [fetch_lending_of_none found, fetch_lending_of_none found, ← told name asked found]
      rfl
    | some buffer =>
      rw [fetch_lending_of_some found, fetch_lending_of_some found]
      rfl
  · cases bindings with
    | nil =>
      have none_counted : refusals.uncounted = none :=
        counted.resolve_left fun some_bound => some_bound rfl
      intro store
      rw [lending, none_counted]
      rfl
    | cons pair rest => exact .of_ok fun store => ⟨_, store, rfl⟩

namespace Expr

variable [Scalar α]

/-- Without any rows, a lender that does not count them fails whatever is evaluated. -/
theorem exists_error_lending_nil {refusals : Refusals} {uncounted : EvalError}
    (counts : refusals.uncounted = some uncounted) (expr : Expr α) (store : Store α) :
    ∃ error, (expr.evaluateWith (.lending refusals [])).apply store = (.error error, store) := by
  induction expr using Tree.induct with
  | step mark children ih =>
    rw [evaluateWith_node]
    cases label : mark.label with
    | const value =>
      rw [apply_evaluateNode_const _ label, Provider.constant, EvalM.apply_bind, Provider.lending,
        counts]
      exact ⟨uncounted, rfl⟩
    | var name =>
      rw [apply_evaluateNode_var _ label]
      exact ⟨refusals.unbound name, rfl⟩
    | op operation =>
      rw [apply_evaluateNode_op _ label, List.length_map, ← List.map_take]
      cases enough : mark.checkArity children.length with
      | error error => exact ⟨error, rfl⟩
      | ok checked =>
        rw [Mark.checkArity_eq_ok_iff, label] at enough
        have some_used := Nat.lt_of_lt_of_le operation.arity_pos
          (operation.arity_le_length_take enough)
        cases used : children.take (operation.used children.length) with
        | nil =>
          rw [used] at some_used
          cases some_used
        | cons child rest =>
          have member : child ∈ children := List.mem_of_mem_take (used ▸ List.mem_cons_self)
          obtain ⟨error, failed⟩ := ih child member
          rw [List.map_cons, EvalM.apply_inSequence_of_error failed]
          exact ⟨error, rfl⟩

/-- Evaluation with a lender retells that over a sharing domain of the same buffers. -/
theorem retells_evaluate_sharing {refusals : Refusals} {bindings : Bindings Buffer}
    {words : EvalError → EvalError} (keeps : EvalError.KeepsOthers words) (expr : Expr α)
    (told : ∀ name ∈ expr.leafNames, bindings.find? name = none →
      words (.unbound name) = refusals.unbound name)
    (counted : bindings ≠ [] ∨ refusals.uncounted = none) :
    EvalM.Retells words (expr.evaluateWith (.lending refusals bindings))
      (expr.evaluate (.sharing bindings)) := by
  rw [evaluate, Domain.provider_sharing]
  exact expr.retells_evaluateWith keeps (Provider.retells_lending told counted)

end Expr

end Formulary
