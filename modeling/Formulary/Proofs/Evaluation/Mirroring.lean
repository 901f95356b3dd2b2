import Mathlib.Data.List.Forall2
import Formulary.Proofs.Evaluation.Sharing
import Formulary.Proofs.Evaluation.Validity
import Formulary.Proofs.Store.Mirrors

/-!
# Evaluation sees only its variables

An expression may be evaluated over two domains that agree on its variables and differ in
all else, each in a store of its own.  This module shows that the two evaluations do the
same step by step: whatever buffer the one makes, reads or overwrites, the other makes,
reads or overwrites its partner.  So they give the same row or fail alike, and nobody can
tell from what they leave behind what else was bound.

Main results:

- Definition `Domain.Twins`: two domains whose buffers of some variables are partners.
- Theorem `Expr.echoes_evaluate`: evaluation over twins ends alike in stores that mirror
  each other.
- Theorem `Expr.evaluation_of_agree`: values, faults, validity and what is overwritten
  depend on nothing but the rows of the variables and the number of samples.
-/

namespace Formulary

variable {α : Type}

/-! ## Computations that end alike -/

/-- Both results are the same failure, or both are values that are related. -/
inductive EndsAlike {β γ : Type} (related : β → γ → Prop) :
    Except EvalError β → Except EvalError γ → Prop
  | error (error : EvalError) : EndsAlike related (.error error) (.error error)
  | ok {value : β} {other : γ} (values : related value other) :
    EndsAlike related (.ok value) (.ok other)

/-- Two computations ended alike in stores that mirror each other.  The partners that
there were are still partners; values are related as `relate` makes of the partners. -/
def Echoes {β γ : Type} (relate : (Buffer → Buffer → Prop) → β → γ → Prop)
    (partners : Buffer → Buffer → Prop) (first : Except EvalError β × Store α)
    (second : Except EvalError γ × Store α) : Prop :=
  ∃ more : Buffer → Buffer → Prop, (∀ {one other}, partners one other → more one other) ∧
    Store.Mirrors more first.2 second.2 ∧ EndsAlike (relate more) first.1 second.1

theorem Echoes.of_error {β γ : Type} {relate : (Buffer → Buffer → Prop) → β → γ → Prop}
    {partners : Buffer → Buffer → Prop} {left right : Store α}
    (mirrors : Store.Mirrors partners left right) (error : EvalError) :
    Echoes relate partners (.error error, left) (.error error, right) :=
  ⟨partners, id, mirrors, .error error⟩

/-- The same row in two new buffers. -/
theorem Echoes.of_alloc {partners : Buffer → Buffer → Prop} {left right : Store α}
    (mirrors : Store.Mirrors partners left right) (row : List α) :
    Echoes id partners (.ok (left.alloc row).1, (left.alloc row).2)
      (.ok (right.alloc row).1, (right.alloc row).2) :=
  ⟨_, .inl, mirrors.alloc row, .ok (.inr ⟨rfl, rfl⟩)⟩

/-! ## Twins -/

namespace Domain

/-- Both domains copy, or both share. -/
def SameKind : Domain → Domain → Prop
  | copying _ _, copying _ _ => True
  | sharing _, sharing _ => True
  | _, _ => False

/-- Two domains of one kind and with one number of samples live in stores that mirror each
other, and bind the names to partners. -/
structure Twins (first second : Domain) (names : List String)
    (partners : Buffer → Buffer → Prop) (left right : Store α) : Prop where
  kind : first.SameKind second
  lives : first.LivesIn left
  lives' : second.LivesIn right
  count : first.sampleCount left = second.sampleCount right
  bound : ∀ name ∈ names,
    Option.Rel partners (first.bindings.find? name) (second.bindings.find? name)
  mirrors : Store.Mirrors partners left right

variable {first second : Domain} {names : List String} {partners : Buffer → Buffer → Prop}
  {left right : Store α}

theorem Twins.mono (twins : Twins first second names partners left right)
    {fewer : List String} (less : ∀ name ∈ fewer, name ∈ names) :
    Twins first second fewer partners left right :=
  { twins with bound := fun name member => twins.bound name (less name member) }

/-- Domains stay twins when their stores change and still mirror each other. -/
theorem Twins.later (twins : Twins first second names partners left right)
    {more : Buffer → Buffer → Prop} (kept : ∀ {one other}, partners one other → more one other)
    {left' right' : Store α} {written written' : Buffer → Prop}
    (changes : Store.ChangesOnly written left left')
    (changes' : Store.ChangesOnly written' right right')
    (mirrors : Store.Mirrors more left' right') :
    Twins first second names more left' right' where
  kind := twins.kind
  lives := twins.lives.later changes
  lives' := twins.lives'.later changes'
  count := by
    rw [sampleCount_of_changesOnly twins.lives changes,
      sampleCount_of_changesOnly twins.lives' changes', twins.count]
  bound := by
    intro name member
    have partner := twins.bound name member
    generalize first.bindings.find? name = one at partner ⊢
    generalize second.bindings.find? name = other at partner ⊢
    cases partner with
    | some pair => exact .some (kept pair)
    | none => exact .none
  mirrors := mirrors

/-- Twins hand out partners. -/
theorem Twins.echoes_fetch (twins : Twins first second names partners left right)
    {name : String} (member : name ∈ names) :
    Echoes id partners ((first.fetch name).apply left) ((second.fetch name).apply right) := by
  have partner := twins.bound name member
  rw [apply_fetch, apply_fetch]
  cases bound : first.bindings.find? name with
  | none =>
    cases bound' : second.bindings.find? name with
    | none => exact .of_error twins.mirrors _
    | some buffer' =>
      rw [bound, bound'] at partner
      cases partner
  | some buffer =>
    cases bound' : second.bindings.find? name with
    | none =>
      rw [bound, bound'] at partner
      cases partner
    | some buffer' =>
      rw [bound, bound'] at partner
      obtain ⟨pair⟩ := partner
      cases first with
      | copying bindings count =>
        cases second with
        | copying bindings' count' =>
          have same : left.read buffer = right.read buffer' := twins.mirrors.read_eq pair
          dsimp only [lent?]
          rw [← same]
          exact .of_alloc twins.mirrors _
        | sharing bindings' => exact twins.kind.elim
      | sharing bindings =>
        cases second with
        | copying bindings' count' => exact twins.kind.elim
        | sharing bindings' =>
          have lends : (sharing bindings).lent? name = some buffer := bound
          have lends' : (sharing bindings').lent? name = some buffer' := bound'
          rw [lends, lends']
          exact ⟨partners, id, twins.mirrors, .ok pair⟩

/-- Twins make the same constants. -/
theorem Twins.echoes_constant (twins : Twins first second names partners left right)
    (value : α) :
    Echoes id partners ((first.provider.constant value).apply left)
      ((second.provider.constant value).apply right) := by
  rw [apply_constant, apply_constant, twins.count]
  cases constantRow (second.sampleCount right) value with
  | error error => exact .of_error twins.mirrors error
  | ok row => exact .of_alloc twins.mirrors row

end Domain

/-! ## Evaluation over twins -/

/-- Partners hold the same rows. -/
theorem Store.Mirrors.map_read {partners : Buffer → Buffer → Prop} {left right : Store α}
    (mirrors : Store.Mirrors partners left right) {buffers others : List Buffer}
    (pairs : List.Forall₂ partners buffers others) :
    buffers.map left.read = others.map right.read := by
  induction pairs with
  | nil => rfl
  | cons pair _ ih => rw [List.map_cons, List.map_cons, mirrors.read_eq pair, ih]

/-- An operation on partners writes the same row into partners. -/
theorem Operation.echoes_applyInPlace [Scalar α] (operation : Operation)
    {partners : Buffer → Buffer → Prop} {left right : Store α}
    (mirrors : Store.Mirrors partners left right) {buffers others : List Buffer}
    (pairs : List.Forall₂ partners buffers others) (rows : List (List α)) :
    Echoes id partners ((operation.applyInPlace buffers rows).apply left)
      ((operation.applyInPlace others rows).apply right) := by
  cases pairs with
  | nil => exact .of_alloc mirrors []
  | cons pair _ => exact ⟨partners, id, mirrors.write pair _, .ok pair⟩

namespace Expr

variable [Scalar α] {first second : Domain} {partners : Buffer → Buffer → Prop}
  {left right : Store α}

/-- Evaluations one after another end alike over twins if each of them does. -/
theorem echoes_evaluateEach {exprs : List (Expr α)}
    (each : ∀ expr ∈ exprs, ∀ (partners : Buffer → Buffer → Prop) (left right : Store α),
      Domain.Twins first second expr.leafNames partners left right →
        Echoes id partners ((evaluate first expr).apply left)
          ((evaluate second expr).apply right))
    (twins : Domain.Twins first second (exprs.flatMap leafNames) partners left right) :
    Echoes List.Forall₂ partners ((evaluateEach first exprs).apply left)
      ((evaluateEach second exprs).apply right) := by
  induction exprs generalizing partners left right with
  | nil => exact ⟨partners, id, twins.mirrors, .ok .nil⟩
  | cons expr more ih =>
    rw [List.flatMap_cons] at twins
    obtain ⟨wider, kept, mirrors, alike⟩ := each expr List.mem_cons_self partners left right
      (twins.mono fun name => List.mem_append_left _)
    rcases head : (evaluate first expr).apply left with ⟨result, left'⟩
    rcases head' : (evaluate second expr).apply right with ⟨result', right'⟩
    have changes := (framed_of_apply expr twins.lives head).changes
    have changes' := (framed_of_apply expr twins.lives' head').changes
    rw [head, head'] at mirrors alike
    rw [evaluateEach, evaluateEach, List.map_cons, List.map_cons]
    cases alike with
    | error error =>
      rw [EvalM.apply_inSequence_of_error head, EvalM.apply_inSequence_of_error head']
      exact ⟨wider, kept, mirrors, .error error⟩
    | @ok buffer buffer' pair =>
      rw [EvalM.apply_inSequence_of_ok head, EvalM.apply_inSequence_of_ok head']
      have rest : Domain.Twins first second (more.flatMap leafNames) wider left' right' :=
        (twins.later kept changes changes' mirrors).mono fun name => List.mem_append_right _
      obtain ⟨widest, still, mirrors', alike'⟩ :=
        ih (fun other member => each other (List.mem_cons_of_mem _ member)) rest
      refine ⟨widest, fun pair => still (kept pair), mirrors', ?_⟩
      unfold evaluateEach at alike'
      generalize ((inSequence (more.map (evaluate first))).apply left').1 = others at alike' ⊢
      generalize ((inSequence (more.map (evaluate second))).apply right').1 = others' at alike' ⊢
      cases alike' with
      | error error => exact .error error
      | ok pairs => exact .ok (.cons (still pair) pairs)

/-- Evaluation over domains that are twins for the variables read ends alike. -/
theorem echoes_evaluate (expr : Expr α)
    (twins : Domain.Twins first second expr.leafNames partners left right) :
    Echoes id partners ((evaluate first expr).apply left) ((evaluate second expr).apply right) := by
  induction expr using Tree.induct generalizing partners left right with
  | step mark children ih =>
    rw [evaluate_node, evaluate_node]
    cases label : mark.label with
    | const value =>
      rw [apply_evaluateNode_const first.provider label,
        apply_evaluateNode_const second.provider label]
      exact twins.echoes_constant value
    | var name =>
      rw [apply_evaluateNode_var first.provider label, apply_evaluateNode_var second.provider label]
      refine twins.echoes_fetch ?_
      rw [leafNames_node, label]
      exact List.mem_append_left _ (List.mem_singleton_self name)
    | op operation =>
      rw [apply_evaluateNode_op first.provider label, apply_evaluateNode_op second.provider label,
        List.length_map, List.length_map, ← List.map_take, ← List.map_take]
      cases mark.checkArity children.length with
      | error error => exact .of_error twins.mirrors error
      | ok checked =>
        rw [leafNames_of_op label] at twins
        obtain ⟨wider, kept, mirrors, alike⟩ := echoes_evaluateEach
          (fun child member _ _ _ own => ih child (List.mem_of_mem_take member) own) twins
        unfold evaluateEach at mirrors alike
        rcases done : (inSequence ((children.take (operation.used children.length)).map
          (evaluate first))).apply left with ⟨result, left'⟩
        rcases done' : (inSequence ((children.take (operation.used children.length)).map
          (evaluate second))).apply right with ⟨result', right'⟩
        rw [done, done'] at mirrors alike
        cases alike with
        | error error => exact ⟨wider, kept, mirrors, .error error⟩
        | @ok buffers buffers' pairs =>
          have rows := mirrors.map_read pairs
          dsimp only
          rw [rows]
          cases mark.checkLengths ((buffers'.map right'.read).map List.length) with
          | error error => exact ⟨wider, kept, mirrors, .error error⟩
          | ok same =>
            obtain ⟨widest, still, mirrors', alike'⟩ :=
              operation.echoes_applyInPlace mirrors pairs (buffers'.map right'.read)
            exact ⟨widest, fun pair => still (kept pair), mirrors', alike'⟩

end Expr

/-! ## Domains that agree -/

namespace Domain

/-- Two domains of one kind have as many samples as each other, and give each of the names
the same row or none. -/
structure AgreeOn (names : List String) (first second : Domain) (left right : Store α) :
    Prop where
  kind : first.SameKind second
  count : first.sampleCount left = second.sampleCount right
  rows : ∀ name ∈ names, (first.rows left).find? name = (second.rows right).find? name

variable {first second : Domain} {names : List String} {left right : Store α}

/-- Two buffers are bound to the same of several names. -/
def BoundAlike (names : List String) (first second : Domain) (one other : Buffer) : Prop :=
  ∃ name ∈ names, first.bindings.find? name = some one ∧
    second.bindings.find? name = some other

/-- Domains that agree, and whose buffers are kept apart, are twins. -/
theorem AgreeOn.twins (agree : AgreeOn names first second left right)
    (separate : first.Separate left) (separate' : second.Separate right) :
    Twins first second names (BoundAlike names first second) left right where
  kind := agree.kind
  lives := separate.lives
  lives' := separate'.lives
  count := agree.count
  bound := by
    intro name member
    have rows := agree.rows name member
    rw [find?_rows, find?_rows] at rows
    cases bound : first.bindings.find? name with
    | none =>
      rw [bound] at rows
      rw [Option.map_eq_none_iff.1 rows.symm]
      exact .none
    | some one =>
      rw [bound, Option.map_some] at rows
      obtain ⟨other, bound', -⟩ := Option.map_eq_some_iff.1 rows.symm
      rw [bound']
      exact .some ⟨name, member, bound, bound'⟩
  mirrors :=
    { present := by
        rintro one other ⟨name, -, bound, bound'⟩
        exact ⟨separate.lives.has bound, separate'.lives.has bound'⟩
      read_eq := by
        rintro one other ⟨name, member, bound, bound'⟩
        have rows := agree.rows name member
        rw [find?_rows, find?_rows, bound, bound'] at rows
        exact Option.some.inj rows
      matched := by
        rintro one other one' other' ⟨name, -, bound, bound'⟩ ⟨name', -, again, again'⟩
        constructor
        · rintro rfl
          obtain rfl := separate.name_eq (mem_bindings_of_find? bound)
            (mem_bindings_of_find? again)
          exact Option.some.inj (bound'.symm.trans again')
        · rintro rfl
          obtain rfl := separate'.name_eq (mem_bindings_of_find? bound')
            (mem_bindings_of_find? again')
          exact Option.some.inj (bound.symm.trans again) }

/-- Twins give the names the same rows. -/
theorem Twins.agreeOn {partners : Buffer → Buffer → Prop}
    (twins : Twins first second names partners left right) :
    AgreeOn names first second left right where
  kind := twins.kind
  count := twins.count
  rows := by
    intro name member
    have partner := twins.bound name member
    rw [find?_rows, find?_rows]
    generalize first.bindings.find? name = one at partner ⊢
    generalize second.bindings.find? name = other at partner ⊢
    cases partner with
    | some pair => rw [Option.map_some, Option.map_some, twins.mirrors.read_eq pair]
    | none => rfl

end Domain

namespace Expr

/-- What is read is a variable of the expression. -/
theorem mem_variableNames_of_mem_leafNames {expr : Expr α} {name : String}
    (read : name ∈ expr.leafNames) : name ∈ expr.variableNames := by
  obtain ⟨node, evaluated, named⟩ := List.mem_filterMap.1 read
  obtain ⟨whole, listed, rfl⟩ := exists_of_mem_evaluatedNodes evaluated
  rw [value_evaluatedPart] at named
  refine mem_variableNames_iff.2 ⟨whole, listed, ?_⟩
  cases label : whole.value.label with
  | var other =>
    rw [label] at named
    rw [Option.some.inj named]
  | const value =>
    rw [label] at named
    cases named
  | op operation =>
    rw [label] at named
    cases named

variable [Scalar α] {first second : Domain} {left right left' right' : Store α}

/-- Evaluation leaves the rows of all other variables as they are. -/
theorem read_eq_of_not_mem_variableNames (separate : first.Separate left) {expr : Expr α}
    {result : Except EvalError Buffer} (run : (expr.evaluate first).apply left = (result, left'))
    {name : String} {buffer : Buffer} (bound : (name, buffer) ∈ first.bindings)
    (other : name ∉ expr.variableNames) : left'.read buffer = left.read buffer := by
  have framed := framed_of_apply expr separate.lives run
  refine framed.changes.read_eq buffer (separate.lives name buffer bound) fun overwrites => ?_
  obtain ⟨written, member, lends⟩ := overwrites.exists_writtenName
  obtain rfl := separate.name_eq bound
    (Domain.mem_bindings_of_find? (Domain.find?_of_lent? lends))
  exact other (mem_variableNames_of_mem_leafNames (mem_leafNames_of_mem_writtenNames member))

/-- Over twins for the variables of an expression, evaluation ends alike and leaves twins. -/
theorem exists_twins_after {expr : Expr α} {partners : Buffer → Buffer → Prop}
    (twins : Domain.Twins first second expr.variableNames partners left right)
    {result result' : Except EvalError Buffer}
    (run : (expr.evaluate first).apply left = (result, left'))
    (run' : (expr.evaluate second).apply right = (result', right')) :
    ∃ more, Domain.Twins first second expr.variableNames more left' right' ∧
      EndsAlike more result result' := by
  obtain ⟨more, kept, mirrors, alike⟩ := echoes_evaluate expr
    (twins.mono fun name => mem_variableNames_of_mem_leafNames)
  rw [run, run'] at mirrors alike
  exact ⟨more, twins.later kept (framed_of_apply expr twins.lives run).changes
    (framed_of_apply expr twins.lives' run').changes mirrors, alike⟩

/-- Over twins for the variables of an expression, evaluation gives the same row or fails
alike. -/
theorem row_eq_of_twins {expr : Expr α} {partners : Buffer → Buffer → Prop}
    (twins : Domain.Twins first second expr.variableNames partners left right) :
    (expr.evaluate first).row left = (expr.evaluate second).row right := by
  rcases run : (expr.evaluate first).apply left with ⟨result, left'⟩
  rcases run' : (expr.evaluate second).apply right with ⟨result', right'⟩
  obtain ⟨more, after, alike⟩ := exists_twins_after twins run run'
  cases alike with
  | error error => rw [EvalM.row_of_error run, EvalM.row_of_error run']
  | ok pair => rw [EvalM.row_of_ok run, EvalM.row_of_ok run', after.mirrors.read_eq pair]

/-- Over two domains that agree on the variables of an expression, evaluation gives the
same row or fails alike, and validation gives the same answer.  Afterwards the domains
still agree on these variables, and each keeps the rows of all others. -/
theorem evaluation_of_agree {expr : Expr α} (separate : first.Separate left)
    (separate' : second.Separate right)
    (agree : Domain.AgreeOn expr.variableNames first second left right) :
    (expr.evaluate first).row left = (expr.evaluate second).row right ∧
      ((expr.isValidOn first).apply left).1 = ((expr.isValidOn second).apply right).1 ∧
      Domain.AgreeOn expr.variableNames first second ((expr.evaluate first).apply left).2
        ((expr.evaluate second).apply right).2 ∧
      (∀ name buffer, (name, buffer) ∈ first.bindings → name ∉ expr.variableNames →
        ((expr.evaluate first).apply left).2.read buffer = left.read buffer) ∧
      ∀ name buffer, (name, buffer) ∈ second.bindings → name ∉ expr.variableNames →
        ((expr.evaluate second).apply right).2.read buffer = right.read buffer := by
  have before := agree.twins separate separate'
  refine ⟨row_eq_of_twins before, ?_⟩
  rcases run : (expr.evaluate first).apply left with ⟨result, left'⟩
  rcases run' : (expr.evaluate second).apply right with ⟨result', right'⟩
  obtain ⟨more, twins, alike⟩ := exists_twins_after before run run'
  refine ⟨?_, twins.agreeOn, ?_, ?_⟩
  · rw [apply_isValidOn, apply_isValidOn, run, run']
    cases expr.isValid with
    | false => rfl
    | true =>
      rw [if_pos rfl, if_pos rfl]
      cases alike with
      | error error =>
        dsimp only
        cases error.isInvalidity <;> rfl
      | ok pair =>
        dsimp only
        rw [twins.mirrors.read_eq pair, twins.count]
  · intro name buffer bound other
    exact read_eq_of_not_mem_variableNames separate run bound other
  · intro name buffer bound other
    exact read_eq_of_not_mem_variableNames separate' run' bound other

/-- What is bound besides `x`, and where the rows are kept, does not matter to the least of
the opposite of `x` and of `x` itself. -/
theorem evaluation_of_agree_leastOpposite :
    (Domain.sharing [("x", ⟨0⟩), ("y", ⟨1⟩)]).Separate (Store.mk #[[1, 2], [3, (4 : Float)]]) ∧
      (Domain.sharing [("x", ⟨1⟩), ("z", ⟨2⟩)]).Separate
        (Store.mk #[[7], [1, 2], [(5 : Float)]]) ∧
      Domain.AgreeOn (leastOpposite "x" "x").variableNames
        (.sharing [("x", ⟨0⟩), ("y", ⟨1⟩)]) (.sharing [("x", ⟨1⟩), ("z", ⟨2⟩)])
        (Store.mk #[[1, 2], [3, (4 : Float)]]) (Store.mk #[[7], [1, 2], [(5 : Float)]]) ∧
      ((leastOpposite "x" "x").evaluate (.sharing [("x", ⟨0⟩), ("y", ⟨1⟩)])).row
          (Store.mk #[[1, 2], [3, (4 : Float)]]) =
        ((leastOpposite "x" "x").evaluate (.sharing [("x", ⟨1⟩), ("z", ⟨2⟩)])).row
          (Store.mk #[[7], [1, 2], [(5 : Float)]]) := by
  have names : (Bindings.names [("x", [1, 2]), ("y", [3, (4 : Float)])]).Nodup := by decide
  have names' : (Bindings.names [("x", [1, 2]), ("z", [(5 : Float)])]).Nodup := by decide
  have separate := Domain.separate_place names Store.empty
  have separate' := Domain.separate_place names' (Store.mk #[[7]])
  have agree : Domain.AgreeOn (leastOpposite "x" "x").variableNames
      (.sharing [("x", ⟨0⟩), ("y", ⟨1⟩)]) (.sharing [("x", ⟨1⟩), ("z", ⟨2⟩)])
      (Store.mk #[[1, 2], [3, (4 : Float)]]) (Store.mk #[[7], [1, 2], [(5 : Float)]]) := by
    refine ⟨trivial, show (2 : Int) = 2 from rfl, ?_⟩
    intro name listed
    obtain ⟨node, member, label⟩ := mem_variableNames_iff.1 listed
    have all_nodes : (leastOpposite "x" "x").preorder =
        [leastOpposite "x" "x", .node ⟨.op (.unary .neg), none⟩ [.node ⟨.var "x", none⟩ []],
          .node ⟨.var "x", none⟩ [], .node ⟨.var "x", none⟩ [], .node ⟨.var "x", none⟩ []] := rfl
    simp only [all_nodes, List.mem_cons, List.not_mem_nil, or_false] at member
    rcases member with rfl | rfl | rfl | rfl | rfl
    · cases label
    · cases label
    all_goals
      cases label
      show some [(1 : Float), 2] = some [1, 2]
      rfl
  exact ⟨separate, separate', agree, (evaluation_of_agree separate separate' agree).1⟩

end Expr

end Formulary
