import Formulary.Proofs.Evaluation.Footprint
import Formulary.Proofs.Evaluation.Pointwise

/-!
# Evaluation in place gives the value

The value of an expression is defined without buffers.  This module shows that
evaluation in place gives that value, or fails as it does, unless it reads what
it has overwritten.  It does not if every variable whose buffer is lent and
written into is read at one position only.

Main results:

- Definition `Domain.Linear`: what is lent and written is read once.
- Theorem `Expr.row_of_apply`: evaluation gives the value of the expression over
  the rows that the store shows before it.
-/

namespace Formulary

variable {α : Type}

/-! ## Values of nodes -/

namespace Expr

variable [Scalar α] {rowOf : String → Option (List α)} {count : Int} {mark : Mark α}

theorem value?_const {value : α} (label : mark.label = .const value) (children : List (Expr α)) :
    value? rowOf count (Tree.node mark children) = constantRow count value := by
  rw [value?_node, valueNode, Mark.checkArity_of_isLeaf (by rw [label]; rfl), label]
  rfl

theorem value?_var {name : String} (label : mark.label = .var name) (children : List (Expr α)) :
    value? rowOf count (Tree.node mark children) =
      match rowOf name with
      | none => .error (.unbound name)
      | some row => .ok row := by
  rw [value?_node, valueNode, Mark.checkArity_of_isLeaf (by rw [label]; rfl), label]
  rfl

/-- The value of an operation: the number of its children is checked, then they
are evaluated, then their lengths are checked. -/
theorem value?_op {operation : Operation} (label : mark.label = .op operation)
    (children : List (Expr α)) :
    value? rowOf count (Tree.node mark children) =
      match mark.checkArity children.length with
      | .error error => .error error
      | .ok () =>
        match inSequence ((children.take (operation.used children.length)).map
          (value? rowOf count)) with
        | .error error => .error error
        | .ok rows =>
          match mark.checkLengths (rows.map List.length) with
          | .error error => .error error
          | .ok () => .ok (operation.pointwise rows) := by
  rw [value?_node, valueNode, List.length_map, label]
  cases mark.checkArity children.length with
  | error error => rfl
  | ok checked =>
    dsimp only
    rw [← List.map_take]
    cases inSequence ((children.take (operation.used children.length)).map
        (value? rowOf count)) with
    | error error => rfl
    | ok rows =>
      show (mark.checkLengths (rows.map List.length) >>= fun _ =>
        pure (operation.pointwise rows)) = _
      dsimp only
      cases mark.checkLengths (rows.map List.length) <;> rfl

end Expr

/-! ## What a store shows -/

namespace Domain

/-- A store shows the rows of the variables read, and the number of samples. -/
structure Shows (domain : Domain) (store : Store α) (rowOf : String → Option (List α))
    (count : Int) (read : List String) : Prop where
  rows : ∀ name ∈ read, rowOf name = (domain.bindings.find? name).map store.read
  count : domain.sampleCount store = count

/-- Of the variables that are read, those that are written and whose buffer is
lent are read once. -/
def Linear (domain : Domain) (written read : List String) : Prop :=
  ∀ name ∈ written, ∀ buffer, domain.lent? name = some buffer → read.count name ≤ 1

/-- Fewer variables are read. -/
theorem Shows.mono {domain : Domain} {store : Store α} {rowOf : String → Option (List α)}
    {count : Int} {read fewer : List String} (shows : domain.Shows store rowOf count read)
    (less : ∀ name ∈ fewer, name ∈ read) : domain.Shows store rowOf count fewer :=
  ⟨fun name member => shows.rows name (less name member), shows.count⟩

/-- A later store shows the same when the buffers of what is read are not
written. -/
theorem Shows.later {domain : Domain} {before after : Store α}
    {rowOf : String → Option (List α)} {count : Int} {read : List String}
    {written : Buffer → Prop} (shows : domain.Shows before rowOf count read)
    (lives : domain.LivesIn before) (changes : Store.ChangesOnly written before after)
    (untouched : ∀ name ∈ read, ∀ buffer, domain.bindings.find? name = some buffer →
      ¬written buffer) :
    domain.Shows after rowOf count read := by
  refine ⟨?_, ?_⟩
  · intro name member
    rw [shows.rows name member]
    cases bound : domain.bindings.find? name with
    | none => rfl
    | some buffer =>
      rw [Option.map_some, Option.map_some,
        changes.read_eq buffer (lives.has bound) (untouched name member buffer bound)]
  · rw [sampleCount_of_changesOnly lives changes, shows.count]

/-- A variable that is written and lent in one of two parts is not read in the
other. -/
theorem Linear.not_mem {domain : Domain} {written read others : List String}
    (linear : domain.Linear written (read ++ others)) {name : String} {buffer : Buffer}
    (here : name ∈ written) (lends : domain.lent? name = some buffer) :
    ¬(name ∈ read ∧ name ∈ others) := by
  rintro ⟨left, right⟩
  have once := linear name here buffer lends
  have first := List.count_pos_iff.2 left
  have second := List.count_pos_iff.2 right
  rw [List.count_append] at once
  omega

/-- Less is written and read. -/
theorem Linear.mono {domain : Domain} {written read fewer less : List String}
    (linear : domain.Linear written read) (writes : ∀ name ∈ fewer, name ∈ written)
    (reads : ∀ name, less.count name ≤ read.count name) : domain.Linear fewer less :=
  fun name here buffer lends =>
    Nat.le_trans (reads name) (linear name (writes name here) buffer lends)

end Domain

/-! ## The value of an evaluation -/

namespace Expr

variable [Scalar α] {domain : Domain} {rowOf : String → Option (List α)} {count : Int}

/-- The first of several expressions does not overwrite what the others read. -/
theorem shows_after_first (apart : domain.LendsApart) {expr : Expr α} {more : List (Expr α)}
    {store between : Store α} (lives : domain.LivesIn store)
    (shows : domain.Shows store rowOf count (more.flatMap leafNames))
    (linear : domain.Linear (expr.writtenNames ++ more.flatMap writtenNames)
      (expr.leafNames ++ more.flatMap leafNames))
    (changes : Store.ChangesOnly (Overwrites domain expr store) store between) :
    domain.Shows between rowOf count (more.flatMap leafNames) := by
  refine shows.later lives changes ?_
  intro name read buffer bound overwrites
  obtain ⟨other, written, lends⟩ := overwrites.exists_writtenName
  have same : other = name := apart _ _ _ lends (Domain.lent?_of_find? lends bound)
  subst same
  exact linear.not_mem (List.mem_append_left _ written) lends
    ⟨mem_leafNames_of_mem_writtenNames written, read⟩

/-- The others do not overwrite the value of the first. -/
theorem first_not_overwritten (apart : domain.LendsApart) {expr : Expr α} {more : List (Expr α)}
    {store between : Store α} {first : Buffer} (lives : domain.LivesIn store)
    (linear : domain.Linear (expr.writtenNames ++ more.flatMap writtenNames)
      (expr.leafNames ++ more.flatMap leafNames))
    (yields : domain.Yields expr store first) : ¬OverwritesEach domain more between first := by
  intro overwrites
  obtain ⟨name, written, lends⟩ := overwrites.exists_writtenName
  have old : store.Has first := lives.has (Domain.find?_of_lent? lends)
  cases yields with
  | @own other leaf own_lends =>
    have same : name = other := apart _ _ _ lends own_lends
    subst same
    have read_first : name ∈ expr.leafNames := by
      apply mem_leafNames_of_firstVariable?
      rw [firstVariable?, leaf]
      rfl
    have read_rest : name ∈ more.flatMap leafNames := by
      obtain ⟨other, member, inside⟩ := List.mem_flatMap.1 written
      exact List.mem_flatMap.2 ⟨other, member, mem_leafNames_of_mem_writtenNames inside⟩
    exact linear.not_mem (List.mem_append_right _ written) lends ⟨read_first, read_rest⟩
  | copy leaf bound keeps fresh => exact fresh old
  | constant leaf fresh => exact fresh old

/-- Evaluations one after another give the values of their expressions. -/
theorem rows_of_apply (apart : domain.LendsApart) {exprs : List (Expr α)}
    (each : ∀ expr ∈ exprs, ∀ store, domain.LivesIn store →
      domain.Shows store rowOf count expr.leafNames →
      domain.Linear expr.writtenNames expr.leafNames →
      ∀ result after, (evaluate domain expr).apply store = (result, after) →
        result.map after.read = expr.value? rowOf count)
    {store after : Store α} (lives : domain.LivesIn store)
    (shows : domain.Shows store rowOf count (exprs.flatMap leafNames))
    (linear : domain.Linear (exprs.flatMap writtenNames) (exprs.flatMap leafNames))
    {result : Except EvalError (List Buffer)}
    (run : (evaluateEach domain exprs).apply store = (result, after)) :
    result.map (·.map after.read) = inSequence (exprs.map (value? rowOf count)) := by
  induction exprs generalizing store after result with
  | nil =>
    cases run
    rfl
  | cons expr more ih =>
    rw [List.flatMap_cons] at shows
    rw [List.flatMap_cons, List.flatMap_cons] at linear
    have shows_first : domain.Shows store rowOf count expr.leafNames :=
      shows.mono fun name => List.mem_append_left _
    have linear_first : domain.Linear expr.writtenNames expr.leafNames := by
      refine linear.mono (fun name here => List.mem_append_left _ here) fun name => ?_
      rw [List.count_append]
      exact Nat.le_add_right _ _
    rcases evaluateEach_cons_cases run with
      ⟨error, head, rfl⟩ | ⟨first, between, others, head, tail, rfl⟩
    · have value := each expr List.mem_cons_self store lives shows_first linear_first _ _ head
      rw [List.map_cons, ← value]
      rfl
    · have value := each expr List.mem_cons_self store lives shows_first linear_first _ _ head
      have framed := framed_of_apply expr lives head
      have shows_rest := shows_after_first apart lives
        (shows.mono fun name => List.mem_append_right _) linear framed.changes
      have linear_rest : domain.Linear (more.flatMap writtenNames) (more.flatMap leafNames) := by
        refine linear.mono (fun name here => List.mem_append_right _ here) fun name => ?_
        rw [List.count_append]
        exact Nat.le_add_left _ _
      have values := ih (fun other member => each other (List.mem_cons_of_mem _ member))
        (lives.later framed.changes) shows_rest linear_rest tail
      have kept : after.read first = between.read first :=
        (framedEach (lives.later framed.changes) tail).changes.read_eq first
          (framed.present first rfl)
          (first_not_overwritten apart lives linear (framed.yields first rfl))
      have first_value : expr.value? rowOf count = .ok (between.read first) := value.symm
      rw [List.map_cons, first_value, inSequence_ok, ← values]
      cases others with
      | error error => rfl
      | ok buffers =>
        show Except.ok ((first :: buffers).map after.read) =
          Except.ok (between.read first :: buffers.map after.read)
        rw [List.map_cons, kept]

/-- Evaluation gives the value of the expression over the rows that the store
shows, or fails as the value does. -/
theorem row_of_apply (apart : domain.LendsApart) (expr : Expr α) {store after : Store α}
    (lives : domain.LivesIn store) (shows : domain.Shows store rowOf count expr.leafNames)
    (linear : domain.Linear expr.writtenNames expr.leafNames)
    {result : Except EvalError Buffer}
    (run : (evaluate domain expr).apply store = (result, after)) :
    result.map after.read = expr.value? rowOf count := by
  induction expr using Tree.induct generalizing store after result with
  | step mark children ih =>
    have arguments : ∀ {operation : Operation} {result : Except EvalError (List Buffer)}
        {after : Store α}, mark.label = .op operation →
        (evaluateEach domain (children.take (operation.used children.length))).apply store =
          (result, after) →
        result.map (·.map after.read) =
          inSequence ((children.take (operation.used children.length)).map
            (value? rowOf count)) := by
      intro operation result after label done
      rw [leafNames_of_op label] at shows linear
      refine rows_of_apply apart ?_ lives shows (linear.mono ?_ fun _ => Nat.le_refl _) done
      · intro child member store lives shows linear result after run
        exact ih child (List.mem_of_mem_take member) lives shows linear run
      · intro name written
        rw [writtenNames_node, label]
        exact List.mem_append_right _ written
    have row_of_var : ∀ {name : String}, mark.label = .var name →
        rowOf name = (domain.bindings.find? name).map store.read := by
      intro name label
      refine shows.rows name ?_
      rw [leafNames_node, label]
      exact List.mem_append_left _ (List.mem_singleton_self name)
    cases nodeRun_of_apply run with
    | constant label made =>
      rw [value?_const label, ← shows.count, made]
      exact congrArg Except.ok (store.read_alloc_self _)
    | noConstant label failed =>
      rw [value?_const label, ← shows.count, failed]
      rfl
    | unbound label free =>
      rw [value?_var label, row_of_var label, free]
      rfl
    | copied label bound kept =>
      rw [value?_var label, row_of_var label, bound]
      exact congrArg Except.ok (store.read_alloc_self _)
    | lent label lends =>
      rw [value?_var label, row_of_var label, Domain.find?_of_lent? lends]
      rfl
    | tooFew label few =>
      rw [value?_op label, few]
      rfl
    | argument label enough failed =>
      rw [value?_op label, enough, ← arguments label failed]
      rfl
    | unequal label enough done differ =>
      rw [value?_op label, enough, ← arguments label done]
      dsimp only [Except.map]
      rw [differ]
    | @written operation first rest between label enough done agree =>
      have present : between.Has first :=
        (framedEach lives done).present _ rfl first List.mem_cons_self
      have pointwise : operation.combine ((first :: rest).map between.read) =
          operation.pointwise ((first :: rest).map between.read) := by
        refine operation.combine_eq_pointwise ?_ (Mark.length_eq_of_checkLengths agree)
        rw [List.length_map]
        exact arity_le_length_buffers label enough done
      rw [value?_op label, enough, ← arguments label done]
      dsimp only [Except.map]
      rw [agree, Store.read_write_self present, pointwise]

/-- A copying domain overwrites nothing of its own, so that evaluation over it
always gives the value of the expression over its rows. -/
theorem row_evaluate_copying {bindings : Bindings Buffer} {store : Store α}
    (lives : (Domain.copying bindings count).LivesIn store) (expr : Expr α) :
    (evaluate (.copying bindings count) expr).row store =
      expr.value? ((Domain.copying bindings count).rows store).find? count := by
  have apart := Domain.lendsApart_copying bindings count
  refine row_of_apply apart expr lives ⟨fun name _ => ?_, rfl⟩ ?_ rfl
  · exact Domain.find?_rows _ store name
  · intro name _ buffer lends
    cases lends

/-- Evaluation over samples placed in a store gives the value of the expression
over the samples. -/
theorem row_evaluate_copyingOf (samples : Samples α) (store : Store α) (expr : Expr α) :
    (evaluate (Domain.copyingOf samples store).1 expr).row (Domain.copyingOf samples store).2 =
      expr.valueOn samples := by
  obtain ⟨lives, rows, -⟩ := Domain.copyingOf_spec samples store
  rw [valueOn, ← rows]
  exact row_evaluate_copying lives expr

end Expr

end Formulary
