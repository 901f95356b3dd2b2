import Formulary.Proofs.Evaluation.Footprint
import Formulary.Evaluation.Outcome

/-!
# Lengths of values

Operations overwrite samples, and never change how many samples a row has.  So
the length of a value, and whether and how an evaluation fails, can be told from
the lengths of the rows of the domain, whatever is overwritten on the way.

Main results:

- Definition `Domain.Measures`: the lengths of the rows of a domain in a store.
- Theorem `Expr.length_of_apply`: evaluation gives a row of the length inferred,
  or fails as the inference does.
-/

namespace Formulary

variable {α : Type}

namespace Domain

/-- The rows of the domain have the lengths given by `lengthOf`, and the number of
samples is `count`. -/
structure Measures (domain : Domain) (store : Store α) (lengthOf : String → Option Nat)
    (count : Int) : Prop where
  lengths : ∀ name, lengthOf name =
    (domain.bindings.find? name).map fun buffer => (store.read buffer).length
  count : domain.sampleCount store = count

/-- The lengths of the rows at present. -/
theorem measures_rows (domain : Domain) (store : Store α) :
    domain.Measures store (fun name => ((domain.rows store).find? name).map List.length)
      (domain.sampleCount store) := by
  refine ⟨?_, rfl⟩
  intro name
  rw [find?_rows, Option.map_map]
  rfl

/-- Rows keep their lengths, whatever is written. -/
theorem Measures.later {domain : Domain} {before after : Store α}
    {lengthOf : String → Option Nat} {count : Int} {written : Buffer → Prop}
    (measures : domain.Measures before lengthOf count) (lives : domain.LivesIn before)
    (changes : Store.ChangesOnly written before after) :
    domain.Measures after lengthOf count := by
  refine ⟨?_, ?_⟩
  · intro name
    rw [measures.lengths name]
    cases bound : domain.bindings.find? name with
    | none => rfl
    | some buffer =>
      rw [Option.map_some, Option.map_some, changes.length_read buffer (lives.has bound)]
  · rw [sampleCount_of_changesOnly lives changes, measures.count]

end Domain

/-- A row of constants has the length asked for. -/
theorem length_constantRow (count : Int) (value : α) :
    (constantRow count value).map List.length =
      match rowLength? count with
      | none => .error (.notALength count)
      | some length => .ok length := by
  unfold constantRow
  cases rowLength? count with
  | none => rfl
  | some length => exact congrArg Except.ok List.length_replicate

namespace Expr

/-! ## Inference at one node -/

variable {lengthOf : String → Option Nat} {count : Int} {mark : Mark α}

theorem length?_const {value : α} (label : mark.label = .const value) (children : List (Expr α)) :
    length? lengthOf count (Tree.node mark children) =
      match rowLength? count with
      | none => .error (.notALength count)
      | some length => .ok length := by
  rw [length?_node, lengthNode, Mark.checkArity_of_isLeaf (by rw [label]; rfl), label]
  rfl

theorem length?_var {name : String} (label : mark.label = .var name) (children : List (Expr α)) :
    length? lengthOf count (Tree.node mark children) =
      match lengthOf name with
      | none => .error (.unbound name)
      | some length => .ok length := by
  rw [length?_node, lengthNode, Mark.checkArity_of_isLeaf (by rw [label]; rfl), label]
  rfl

theorem length?_op {operation : Operation} (label : mark.label = .op operation)
    (children : List (Expr α)) :
    length? lengthOf count (Tree.node mark children) =
      match mark.checkArity children.length with
      | .error error => .error error
      | .ok () =>
        match inSequence ((children.take (operation.used children.length)).map
          (length? lengthOf count)) with
        | .error error => .error error
        | .ok lengths =>
          match mark.checkLengths lengths with
          | .error error => .error error
          | .ok () => .ok (lengths.headD 0) := by
  rw [length?_node, lengthNode, List.length_map, label]
  cases mark.checkArity children.length with
  | error error => rfl
  | ok checked =>
    dsimp only
    rw [← List.map_take]
    cases inSequence ((children.take (operation.used children.length)).map
        (length? lengthOf count)) with
    | error error => rfl
    | ok lengths =>
      show (mark.checkLengths lengths >>= fun _ => pure (lengths.headD 0)) = _
      dsimp only
      cases mark.checkLengths lengths <;> rfl

/-! ## The length of what evaluation gives -/

variable [Scalar α] {domain : Domain}

/-- Evaluations one after another give rows of the lengths inferred. -/
theorem lengths_of_apply {exprs : List (Expr α)}
    (each : ∀ expr ∈ exprs, ∀ store, domain.LivesIn store →
      domain.Measures store lengthOf count →
      ∀ result after, (evaluate domain expr).apply store = (result, after) →
        (result.map after.read).map List.length = expr.length? lengthOf count)
    {store after : Store α} (lives : domain.LivesIn store)
    (measures : domain.Measures store lengthOf count) {result : Except EvalError (List Buffer)}
    (run : (evaluateEach domain exprs).apply store = (result, after)) :
    result.map (fun buffers => (buffers.map after.read).map List.length) =
      inSequence (exprs.map (length? lengthOf count)) := by
  induction exprs generalizing store after result with
  | nil =>
    cases run
    rfl
  | cons expr more ih =>
    rcases evaluateEach_cons_cases run with
      ⟨error, head, rfl⟩ | ⟨first, between, others, head, tail, rfl⟩
    · have length := each expr List.mem_cons_self store lives measures _ _ head
      rw [List.map_cons, ← length]
      rfl
    · have length := each expr List.mem_cons_self store lives measures _ _ head
      have framed := framed_of_apply expr lives head
      have lives_between := lives.later framed.changes
      have lengths := ih (fun other member => each other (List.mem_cons_of_mem _ member))
        lives_between (measures.later lives framed.changes) tail
      have kept : (after.read first).length = (between.read first).length :=
        (framedEach lives_between tail).changes.length_read first (framed.present first rfl)
      have first_length : expr.length? lengthOf count = .ok (between.read first).length :=
        length.symm
      rw [List.map_cons, first_length, inSequence_ok, ← lengths]
      cases others with
      | error error => rfl
      | ok buffers =>
        show Except.ok (((first :: buffers).map after.read).map List.length) =
          Except.ok ((between.read first).length :: (buffers.map after.read).map List.length)
        rw [List.map_cons, List.map_cons, kept]

/-- Evaluation gives a row of the length inferred, or fails as the inference
does. -/
theorem length_of_apply (expr : Expr α) {store after : Store α} (lives : domain.LivesIn store)
    (measures : domain.Measures store lengthOf count) {result : Except EvalError Buffer}
    (run : (evaluate domain expr).apply store = (result, after)) :
    (result.map after.read).map List.length = expr.length? lengthOf count := by
  induction expr using Tree.induct generalizing store after result with
  | step mark children ih =>
    have arguments : ∀ {operation : Operation} {result : Except EvalError (List Buffer)}
        {after : Store α},
        (evaluateEach domain (children.take (operation.used children.length))).apply store =
          (result, after) →
        result.map (fun buffers => (buffers.map after.read).map List.length) =
          inSequence ((children.take (operation.used children.length)).map
            (length? lengthOf count)) := by
      intro operation result after done
      refine lengths_of_apply ?_ lives measures done
      intro child member store lives measures result after run
      exact ih child (List.mem_of_mem_take member) lives measures run
    cases nodeRun_of_apply run with
    | constant label made =>
      rw [length?_const label, ← length_constantRow, ← measures.count, made]
      exact congrArg (Except.ok ·.length) (store.read_alloc_self _)
    | noConstant label failed =>
      rw [length?_const label, ← length_constantRow, ← measures.count, failed]
      rfl
    | unbound label free =>
      rw [length?_var label, measures.lengths, free]
      rfl
    | copied label bound kept =>
      rw [length?_var label, measures.lengths, bound]
      exact congrArg (Except.ok ·.length) (store.read_alloc_self _)
    | lent label lends =>
      rw [length?_var label, measures.lengths, Domain.find?_of_lent? lends]
      rfl
    | tooFew label few =>
      rw [length?_op label, few]
      rfl
    | argument label enough failed =>
      rw [length?_op label, enough, ← arguments failed]
      rfl
    | unequal label enough done differ =>
      rw [length?_op label, enough, ← arguments done]
      dsimp only [Except.map]
      rw [differ]
    | @written operation first rest between label enough done agree =>
      have present : between.Has first :=
        (framedEach lives done).present _ rfl first List.mem_cons_self
      have same := length_combine_of_checkLengths
        (by simpa using arity_le_length_buffers label enough done) agree
      rw [length?_op label, enough, ← arguments done]
      dsimp only [Except.map]
      rw [agree, Store.read_write_self present]
      exact congrArg Except.ok same

/-- The length of what evaluation gives is inferred from the rows of the domain. -/
theorem length_row_evaluate {store : Store α} (lives : domain.LivesIn store) (expr : Expr α) :
    ((evaluate domain expr).row store).map List.length =
      expr.length? (fun name => ((domain.rows store).find? name).map List.length)
        (domain.sampleCount store) :=
  length_of_apply expr lives (Domain.measures_rows domain store) rfl

end Expr

end Formulary
