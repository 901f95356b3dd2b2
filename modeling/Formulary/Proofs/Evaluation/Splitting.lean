import Formulary.Proofs.Binary64.Extremes
import Formulary.Proofs.Evaluation.Resampling
import Mathlib.Logic.Relation

/-!
# Reductions that are split

A reduction of several arguments may be split: groups of its arguments, one after another,
become reductions of their own.  Its arguments may be put in another order, and what was
split may be split again.  Over samples that changes the value by no more than the sign of
a zero.

Main results:

- Definition `Expr.Rearranges`: the arguments of a reduction, or of one that is an argument
  of it, are split into groups or put in another order.
- Theorem `Expr.Rearranges.matches`: one rearrangement keeps the value up to what the laws
  of the reduction leave open.
- Theorem `Expr.rowOver_of_rearranged`: so do any number of them, and what is not a number
  stays.
-/

namespace Formulary.Expr

variable {α : Type}

/-! ## Rearranging arguments -/

/-- An expression stands for a group of arguments of a reduction: an argument alone for
itself, and a reduction for several of them. -/
inductive Bundles (op : Reduction) : List (Expr α) → Expr α → Prop
  | alone (child : Expr α) : Bundles op [child] child
  | together {mark : Mark α} {group : List (Expr α)} (label : mark.label = .op (.reduction op))
      (several : 1 < group.length) : Bundles op group (.node mark group)

/-- The arguments of a reduction of several are split into groups one after another, or put
in another order, or one of them is a reduction whose arguments are rearranged. -/
inductive Rearranges (op : Reduction) : Expr α → Expr α → Prop
  | split {mark other : Mark α} (label : mark.label = .op (.reduction op))
      (label_other : other.label = .op (.reduction op)) {groups : List (List (Expr α))}
      {bundles : List (Expr α)} (several : 1 < groups.length)
      (bundled : List.Forall₂ (Bundles op) groups bundles) :
      Rearranges op (.node mark groups.flatten) (.node other bundles)
  | reorder {mark other : Mark α} (label : mark.label = .op (.reduction op))
      (label_other : other.label = .op (.reduction op)) {children others : List (Expr α)}
      (several : 1 < children.length) (perm : children.Perm others) :
      Rearranges op (.node mark children) (.node other others)
  | inside {mark : Mark α} (label : mark.label = .op (.reduction op))
      {front back : List (Expr α)} {child other : Expr α} (several : front ++ back ≠ [])
      (step : Rearranges op child other) :
      Rearranges op (.node mark (front ++ child :: back)) (.node mark (front ++ other :: back))

variable {op : Reduction}

/-- A group is not empty. -/
theorem Bundles.ne_nil {group : List (Expr α)} {expr : Expr α} (bundles : Bundles op group expr) :
    group ≠ [] := by
  cases bundles with
  | alone => exact List.cons_ne_nil _ _
  | together _ several =>
    rintro rfl
    cases several

/-- There are at least as many arguments as groups. -/
theorem length_le_length_flatten {groups : List (List (Expr α))} {bundles : List (Expr α)}
    (bundled : List.Forall₂ (Bundles op) groups bundles) :
    groups.length ≤ groups.flatten.length := by
  induction bundled with
  | nil => exact Nat.le_refl 0
  | cons head _ ih =>
    have nonempty := List.length_pos_of_ne_nil head.ne_nil
    rw [List.flatten_cons, List.length_append, List.length_cons]
    omega

variable [Scalar α]

/-! ## Values and their samples -/

section

variable {rows : Bindings (List α)} {size : Option Int} {samples : Samples α} {mark : Mark α}
  {children : List (Expr α)} {index : Nat}

/-- An expression has a value over samples. -/
def HasRow (samples : Samples α) (expr : Expr α) : Prop :=
  ∃ row, expr.valueOn samples = .ok row

/-- The sample at an index of the value over samples. -/
def valueAt? (samples : Samples α) (index : Nat) (expr : Expr α) : Option α :=
  match expr.valueOn samples with
  | .ok row => row[index]?
  | .error _ => none

theorem valueAt?_of_ok {expr : Expr α} {row : List α} (found : expr.valueOn samples = .ok row) :
    valueAt? samples index expr = row[index]? := by
  rw [valueAt?, found]

theorem valueAt?_eq_some_iff {expr : Expr α} {x : α} :
    valueAt? samples index expr = some x ↔
      ∃ row, expr.valueOn samples = .ok row ∧ row[index]? = some x := by
  rw [valueAt?]
  cases expr.valueOn samples <;> simp

/-- A value is as long as the number of samples says. -/
theorem length_of_valueOn (made : Samples.ofRows rows size = .ok samples) {expr : Expr α}
    {row : List α} (found : expr.valueOn samples = .ok row) :
    (row.length : Int) = samples.count := by
  rw [← rowOver_eq_valueOn samples Store.empty] at found
  exact length_rowOver made found

/-- There is a value exactly when its length can be inferred. -/
theorem hasRow_iff (made : Samples.ofRows rows size = .ok samples) {expr : Expr α} :
    HasRow samples expr ↔
      expr.length? (fun name => (samples.rows.find? name).map List.length) samples.count =
        .ok samples.count.toNat := by
  have inferred := length_evaluate_copyingOf samples Store.empty expr
  rw [row_evaluate_copyingOf] at inferred
  change (expr.valueOn samples).map List.length = _ at inferred
  rw [← inferred]
  constructor
  · rintro ⟨row, found⟩
    have length := length_of_valueOn made found
    rw [found, ← length]
    rfl
  · intro length
    cases found : expr.valueOn samples with
    | error error =>
      rw [found] at length
      cases length
    | ok row => exact ⟨row, found⟩

/-- A reduction has a value exactly when it has arguments, and all of them have one. -/
theorem hasRow_reduction_iff (made : Samples.ofRows rows size = .ok samples)
    (label : mark.label = .op (.reduction op)) :
    HasRow samples (.node mark children) ↔
      0 < children.length ∧ ∀ child ∈ children, HasRow samples child := by
  rw [hasRow_iff made, length?_op_eq_ok_iff label, Mark.checkArity_eq_ok_iff, label,
    Operation.used, List.take_length]
  simp only [hasRow_iff made]
  rfl

/-- Wherever there are samples, a value has one. -/
theorem exists_valueAt (made : Samples.ofRows rows size = .ok samples) {expr : Expr α}
    (has : HasRow samples expr) (inside : (index : Int) < samples.count) :
    ∃ x, valueAt? samples index expr = some x := by
  obtain ⟨row, found⟩ := has
  have length := length_of_valueOn made found
  have here : index < row.length := by omega
  exact ⟨row[index], by rw [valueAt?_of_ok found, List.getElem?_eq_getElem here]⟩

/-- A sample of the value of a reduction of several arguments is the reduction of their
samples. -/
theorem valueAt?_reduction (made : Samples.ofRows rows size = .ok samples)
    (label : mark.label = .op (.reduction op)) (several : 1 < children.length)
    (has : HasRow samples (.node mark children)) (inside : (index : Int) < samples.count) :
    valueAt? samples index (.node mark children) =
      some (op.combined (children.filterMap (valueAt? samples index))) := by
  obtain ⟨row, found⟩ := has
  have length := length_of_valueOn made found
  obtain ⟨own, values, enough, same, rfl⟩ := exists_rows_of_value?_op label found
  rw [Operation.used, List.take_length] at values
  have not_single : ∀ other, Operation.reduction op = .reduction other → own.length ≠ 1 := by
    intro other _
    rw [length_values values]
    omega
  rw [valueAt?_of_ok found, Operation.getElem?_pointwise _ enough not_single same (by omega),
    column_values _ values]
  · rfl
  · intro child _ row _ value
    exact (valueAt?_of_ok value).symm

/-! ## Values that are alike -/

variable {alike : α → α → Prop} {isNaN : α → Prop} {expr other : Expr α}

/-- The values of two expressions over samples are alike at every index. -/
def Matches (alike : α → α → Prop) (samples : Samples α) (expr other : Expr α) : Prop :=
  ∃ row row', expr.valueOn samples = .ok row ∧ other.valueOn samples = .ok row' ∧
    List.Forall₂ alike row row'

theorem Matches.hasRow (same : Matches alike samples expr other) : HasRow samples other := by
  obtain ⟨-, row, -, found, -⟩ := same
  exact ⟨row, found⟩

theorem Matches.trans (laws : op.Laws alike isNaN) {third : Expr α}
    (first : Matches alike samples expr other) (second : Matches alike samples other third) :
    Matches alike samples expr third := by
  obtain ⟨row, middle, found, found_middle, same⟩ := first
  obtain ⟨again, row', found_again, found', same'⟩ := second
  obtain rfl : again = middle := Except.ok.inj (found_again.symm.trans found_middle)
  refine ⟨row, row', found, found', List.forall₂_iff_get.2 ⟨?_, ?_⟩⟩
  · rw [same.length_eq, same'.length_eq]
  · intro index here there
    have between : index < again.length := same.length_eq ▸ here
    exact laws.trans (same.get here between) (same'.get between there)

/-- Alike values have alike samples. -/
theorem Matches.alike_valueAt (same : Matches alike samples expr other) {x y : α}
    (here : valueAt? samples index expr = some x) (there : valueAt? samples index other = some y) :
    alike x y := by
  obtain ⟨row, row', found, found', each⟩ := same
  rw [valueAt?_of_ok found] at here
  rw [valueAt?_of_ok found'] at there
  obtain ⟨inside, rfl⟩ := List.getElem?_eq_some_iff.1 here
  obtain ⟨inside', rfl⟩ := List.getElem?_eq_some_iff.1 there
  exact each.get inside inside'

/-- Reductions whose arguments have alike reductions at every index have alike values. -/
theorem matches_of_combined (made : Samples.ofRows rows size = .ok samples)
    {mark_other : Mark α} {others : List (Expr α)} (label : mark.label = .op (.reduction op))
    (label_other : mark_other.label = .op (.reduction op)) (several : 1 < children.length)
    (several_others : 1 < others.length) (has : HasRow samples (.node mark children))
    (each : ∀ child ∈ others, HasRow samples child)
    (combined : ∀ index : Nat, (index : Int) < samples.count →
      alike (op.combined (children.filterMap (valueAt? samples index)))
        (op.combined (others.filterMap (valueAt? samples index)))) :
    Matches alike samples (.node mark children) (.node mark_other others) := by
  have has_other : HasRow samples (.node mark_other others) :=
    (hasRow_reduction_iff made label_other).2 ⟨by omega, each⟩
  obtain ⟨row, found⟩ := id has
  obtain ⟨row', found'⟩ := id has_other
  have length := length_of_valueOn made found
  have length' := length_of_valueOn made found'
  refine ⟨row, row', found, found', List.forall₂_iff_get.2 ⟨by omega, ?_⟩⟩
  intro index here there
  have inside : (index : Int) < samples.count := by omega
  have own := valueAt?_reduction made label several has inside
  have own' := valueAt?_reduction made label_other several_others has_other inside
  rw [valueAt?_of_ok found, List.getElem?_eq_getElem here] at own
  rw [valueAt?_of_ok found', List.getElem?_eq_getElem there] at own'
  rw [List.get_eq_getElem, List.get_eq_getElem, Option.some.inj own, Option.some.inj own']
  exact combined index inside

/-! ## Groups -/

/-- What stands for a group has a value if the group has values. -/
theorem Bundles.hasRow (made : Samples.ofRows rows size = .ok samples)
    {group : List (Expr α)} (bundles : Bundles op group expr)
    (each : ∀ child ∈ group, HasRow samples child) : HasRow samples expr := by
  cases bundles with
  | alone => exact each expr List.mem_cons_self
  | together label several => exact (hasRow_reduction_iff made label).2 ⟨by omega, each⟩

/-- A sample of what stands for a group is alike to the reduction of the samples of the
group. -/
theorem Bundles.alike_valueAt (laws : op.Laws alike isNaN)
    (made : Samples.ofRows rows size = .ok samples) {group : List (Expr α)}
    (bundles : Bundles op group expr) (each : ∀ child ∈ group, HasRow samples child)
    (inside : (index : Int) < samples.count) :
    ∃ x, valueAt? samples index expr = some x ∧
      alike (op.combined (group.filterMap (valueAt? samples index))) x := by
  have has := bundles.hasRow made each
  cases bundles with
  | alone =>
    obtain ⟨x, found⟩ := exists_valueAt made has inside
    refine ⟨x, found, ?_⟩
    rw [List.filterMap_cons, found]
    exact laws.neutral x
  | together label several =>
    exact ⟨_, valueAt?_reduction made label several has inside, laws.refl _⟩

theorem hasRow_of_bundled (made : Samples.ofRows rows size = .ok samples)
    {groups : List (List (Expr α))} {bundles : List (Expr α)}
    (bundled : List.Forall₂ (Bundles op) groups bundles)
    (each : ∀ child ∈ groups.flatten, HasRow samples child) :
    ∀ bundle ∈ bundles, HasRow samples bundle := by
  induction bundled with
  | nil =>
    intro bundle member
    cases member
  | cons head _ ih =>
    rw [List.flatten_cons] at each
    rw [List.forall_mem_cons]
    exact ⟨head.hasRow made fun child member => each child (List.mem_append_left _ member),
      ih fun child member => each child (List.mem_append_right _ member)⟩

/-- Samples of what stands for groups are alike to the reductions of the samples of these. -/
theorem alike_valuesAt (laws : op.Laws alike isNaN)
    (made : Samples.ofRows rows size = .ok samples) {groups : List (List (Expr α))}
    {bundles : List (Expr α)} (bundled : List.Forall₂ (Bundles op) groups bundles)
    (each : ∀ child ∈ groups.flatten, HasRow samples child)
    (inside : (index : Int) < samples.count) :
    List.Forall₂ alike
      (groups.map fun group => op.combined (group.filterMap (valueAt? samples index)))
      (bundles.filterMap (valueAt? samples index)) := by
  induction bundled with
  | nil => exact .nil
  | cons head _ ih =>
    rw [List.flatten_cons] at each
    obtain ⟨x, found, same⟩ := head.alike_valueAt laws made
      (fun child member => each child (List.mem_append_left _ member)) inside
    rw [List.map_cons, List.filterMap_cons, found]
    exact .cons same (ih fun child member => each child (List.mem_append_right _ member))

/-! ## Rearranged reductions -/

/-- What stands for groups of its arguments may take their place in a reduction. -/
theorem matches_of_bundled (laws : op.Laws alike isNaN)
    (made : Samples.ofRows rows size = .ok samples) {mark_other : Mark α}
    {groups : List (List (Expr α))} {bundles : List (Expr α)}
    (label : mark.label = .op (.reduction op))
    (label_other : mark_other.label = .op (.reduction op)) (several : 1 < groups.length)
    (bundled : List.Forall₂ (Bundles op) groups bundles)
    (has : HasRow samples (.node mark groups.flatten)) :
    Matches alike samples (.node mark groups.flatten) (.node mark_other bundles) := by
  obtain ⟨-, each⟩ := (hasRow_reduction_iff made label).1 has
  have many : 1 < groups.flatten.length :=
    Nat.lt_of_lt_of_le several (length_le_length_flatten bundled)
  have many_bundles : 1 < bundles.length := bundled.length_eq ▸ several
  refine matches_of_combined made label label_other many many_bundles has
    (hasRow_of_bundled made bundled each) ?_
  intro index inside
  have grouped := laws.combined_flatten
    (groups.map fun group => group.filterMap (valueAt? samples index))
  rw [List.map_map] at grouped
  rw [List.filterMap_flatten]
  exact laws.trans grouped (laws.combined_congr (alike_valuesAt laws made bundled each inside))

/-- The arguments of a reduction may be put in another order. -/
theorem matches_of_perm (laws : op.Laws alike isNaN)
    (made : Samples.ofRows rows size = .ok samples) {mark_other : Mark α}
    {others : List (Expr α)} (label : mark.label = .op (.reduction op))
    (label_other : mark_other.label = .op (.reduction op)) (several : 1 < children.length)
    (perm : children.Perm others) (has : HasRow samples (.node mark children)) :
    Matches alike samples (.node mark children) (.node mark_other others) := by
  obtain ⟨-, each⟩ := (hasRow_reduction_iff made label).1 has
  refine matches_of_combined made label label_other several (perm.length_eq ▸ several) has ?_ ?_
  · intro child member
    exact each child (perm.mem_iff.2 member)
  · intro index inside
    exact laws.combined_perm (perm.filterMap _)

/-- An argument of a reduction may be replaced by one with an alike value. -/
theorem matches_of_replaced (laws : op.Laws alike isNaN)
    (made : Samples.ofRows rows size = .ok samples) (label : mark.label = .op (.reduction op))
    {front back : List (Expr α)} {child other : Expr α} (several : front ++ back ≠ [])
    (same : Matches alike samples child other)
    (has : HasRow samples (.node mark (front ++ child :: back))) :
    Matches alike samples (.node mark (front ++ child :: back))
      (.node mark (front ++ other :: back)) := by
  obtain ⟨-, each⟩ := (hasRow_reduction_iff made label).1 has
  have has_child := each child (List.mem_append_right front List.mem_cons_self)
  -- With a single argument the node would reduce over the samples instead.
  have many : ∀ expr : Expr α, 1 < (front ++ expr :: back).length := by
    intro expr
    have nonempty := List.length_pos_of_ne_nil several
    rw [List.length_append] at nonempty
    rw [List.length_append, List.length_cons]
    omega
  refine matches_of_combined made label label (many child) (many other) has ?_ ?_
  · intro expr member
    rcases List.mem_append.1 member with inside | inside
    · exact each expr (List.mem_append_left _ inside)
    · rcases List.mem_cons.1 inside with rfl | inside
      · exact same.hasRow
      · exact each expr (List.mem_append_right _ (List.mem_cons_of_mem _ inside))
  · intro index inside
    obtain ⟨x, here⟩ := exists_valueAt made has_child inside
    obtain ⟨y, there⟩ := exists_valueAt made same.hasRow inside
    simp only [List.filterMap_append, List.filterMap_cons, here, there]
    exact laws.combined_replace (same.alike_valueAt here there) _ _

/-- One rearrangement of a reduction that has a value keeps it, up to what the laws of the
reduction leave open. -/
theorem Rearranges.matches (laws : op.Laws alike isNaN)
    (made : Samples.ofRows rows size = .ok samples) (step : Rearranges op expr other)
    (has : HasRow samples expr) : Matches alike samples expr other := by
  induction step with
  | split label label_other several bundled =>
    exact matches_of_bundled laws made label label_other several bundled has
  | reorder label label_other several perm =>
    exact matches_of_perm laws made label label_other several perm has
  | @inside _ label front _ child _ several _ ih =>
    have has_child := ((hasRow_reduction_iff made label).1 has).2 child
      (List.mem_append_right front List.mem_cons_self)
    exact matches_of_replaced laws made label several (ih has_child) has

/-- So do any number of rearrangements, one after another. -/
theorem matches_of_rearranged (laws : op.Laws alike isNaN)
    (made : Samples.ofRows rows size = .ok samples) (has : HasRow samples expr)
    (rearranged : Relation.ReflTransGen (Rearranges op) expr other) :
    Matches alike samples expr other := by
  induction rearranged with
  | refl =>
    obtain ⟨row, found⟩ := has
    exact ⟨row, row, found, found, List.forall₂_same.2 fun x _ => laws.refl x⟩
  | tail _ step ih => exact ih.trans laws (step.matches laws made ih.hasRow)

/-- A sample of the value of a reduction of several arguments is not a number exactly when
one of theirs is not. -/
theorem isNaN_valueAt_iff (laws : op.Laws alike isNaN)
    (made : Samples.ofRows rows size = .ok samples) (label : mark.label = .op (.reduction op))
    (several : 1 < children.length) (has : HasRow samples (.node mark children))
    (inside : (index : Int) < samples.count) {x : α}
    (found : valueAt? samples index (.node mark children) = some x) :
    isNaN x ↔ ∃ child ∈ children, ∃ y, valueAt? samples index child = some y ∧ isNaN y := by
  rw [valueAt?_reduction made label several has inside] at found
  rw [← Option.some.inj found, laws.isNaN_combined]
  constructor
  · rintro ⟨y, member, nan⟩
    obtain ⟨child, listed, own⟩ := List.mem_filterMap.1 member
    exact ⟨child, listed, y, own, nan⟩
  · rintro ⟨child, listed, y, own, nan⟩
    exact ⟨y, List.mem_filterMap.2 ⟨child, listed, own⟩, nan⟩

end

/-! ## Doubles -/

/-- A reduction of several arguments that all have values over samples keeps its value, up to
the sign of a zero, when its arguments are split into groups or put in another order, and
when this is done again and again.  A sample of the value is not a number exactly when one
of the arguments is not a number there. -/
theorem rowOver_of_rearranged {rows : Bindings (List Float)} {size : Option Int}
    {samples : Samples Float} (made : Samples.ofRows rows size = .ok samples)
    (store : Store Float) {op : Reduction} {mark : Mark Float}
    (label : mark.label = .op (.reduction op)) {children : List (Expr Float)}
    (several : 1 < children.length)
    (each : ∀ child ∈ children, ∃ row, child.rowOver samples store = .ok row)
    {other : Expr Float}
    (rearranged : Relation.ReflTransGen (Rearranges op) (.node mark children) other) :
    ∃ row row', rowOver samples store (.node mark children) = .ok row ∧
      other.rowOver samples store = .ok row' ∧ List.Forall₂ Binary64.Alike row row' ∧
      ∀ (index : Nat) (x : Float), row'[index]? = some x →
        (Binary64.IsNaN x ↔ ∃ child ∈ children, ∃ y,
          (∃ own, child.rowOver samples store = .ok own ∧ own[index]? = some y) ∧
            Binary64.IsNaN y) := by
  simp only [rowOver_eq_valueOn] at each ⊢
  have laws := Binary64.laws_reduce op
  have has : HasRow samples (.node mark children) :=
    (hasRow_reduction_iff made label).2 ⟨by omega, each⟩
  obtain ⟨row, row', found, found', same⟩ := matches_of_rearranged laws made has rearranged
  refine ⟨row, row', found, found', same, ?_⟩
  intro index x here'
  obtain ⟨there, rfl⟩ := List.getElem?_eq_some_iff.1 here'
  have here : index < row.length := same.length_eq ▸ there
  have length := length_of_valueOn made found
  have entry : valueAt? samples index (.node mark children) = some row[index] := by
    rw [valueAt?_of_ok found, List.getElem?_eq_getElem here]
  have alike : Binary64.Alike row[index] row'[index] := same.get here there
  rw [← laws.isNaN_congr alike, isNaN_valueAt_iff laws made label several has (by omega) entry]
  simp only [valueAt?_eq_some_iff]

/-- The least of the values of some arguments. -/
def leastOf (arguments : List (Expr Float)) : Expr Float :=
  .node ⟨.op (.reduction .min), none⟩ arguments

/-- Two arguments that are split off from a third, and then put in the other order. -/
theorem rearranged_leastOf (first second third : Expr Float) :
    Relation.ReflTransGen (Rearranges .min) (leastOf [first, second, third])
      (leastOf [leastOf [second, first], third]) := by
  have bundled : List.Forall₂ (Bundles .min) [[first, second], [third]]
      [leastOf [first, second], third] :=
    .cons (.together rfl Nat.one_lt_two) (.cons (.alone third) .nil)
  have split : Rearranges .min (leastOf [[first, second], [third]].flatten)
      (leastOf [leastOf [first, second], third]) := .split rfl rfl Nat.one_lt_two bundled
  have swap : Rearranges .min (leastOf [first, second]) (leastOf [second, first]) :=
    .reorder rfl rfl Nat.one_lt_two (.swap second first [])
  have inside : Rearranges .min (leastOf ([] ++ leastOf [first, second] :: [third]))
      (leastOf ([] ++ leastOf [second, first] :: [third])) :=
    .inside rfl (List.cons_ne_nil third []) swap
  exact (Relation.ReflTransGen.single split).tail inside

/-- The least of `x`, of one and of the opposite of `x`, where `x` is zero and where it is not a
number. -/
theorem rowOver_of_rearranged_leastOf :
    Samples.ofRows [("x", [0, (0 / 0 : Float)])] none = .ok ⟨[("x", [0, 0 / 0])], 2⟩ ∧
      ∃ row row',
        rowOver ⟨[("x", [0, 0 / 0])], 2⟩ Store.empty (leastOf [.node ⟨.var "x", none⟩ [],
          .node ⟨.const 1, none⟩ [],
          .node ⟨.op (.unary .neg), none⟩ [.node ⟨.var "x", none⟩ []]]) = .ok row ∧
        rowOver ⟨[("x", [0, 0 / 0])], 2⟩ Store.empty (leastOf [leastOf [.node ⟨.const 1, none⟩ [],
          .node ⟨.var "x", none⟩ []],
          .node ⟨.op (.unary .neg), none⟩ [.node ⟨.var "x", none⟩ []]]) = .ok row' ∧
        List.Forall₂ Binary64.Alike row row' ∧ ∀ x, row'[1]? = some x → Binary64.IsNaN x := by
  have made : Samples.ofRows [("x", [0, (0 / 0 : Float)])] none =
      .ok ⟨[("x", [0, 0 / 0])], 2⟩ := Samples.ofRows_singleton "x" [0, 0 / 0]
  have each : ∀ child ∈ ([.node ⟨.var "x", none⟩ [], .node ⟨.const 1, none⟩ [],
      .node ⟨.op (.unary .neg), none⟩ [.node ⟨.var "x", none⟩ []]] : List (Expr Float)),
      ∃ row, child.rowOver ⟨[("x", [0, 0 / 0])], 2⟩ Store.empty = .ok row := by
    intro child member
    simp only [List.mem_cons, List.not_mem_nil, or_false] at member
    rcases member with rfl | rfl | rfl
    · exact ⟨[0, 0 / 0], rfl⟩
    · exact ⟨[1, 1], rfl⟩
    · exact ⟨[Float.neg 0, Float.neg (0 / 0)], rfl⟩
  obtain ⟨row, row', found, found', same, nan⟩ :=
    rowOver_of_rearranged made Store.empty rfl (by decide) each (rearranged_leastOf _ _ _)
  refine ⟨made, row, row', found, found', same, ?_⟩
  intro x here
  have undefined : Binary64.decode (0 / 0) = .notANumber := by decide +kernel
  exact (nan 1 x here).2
    ⟨.node ⟨.var "x", none⟩ [], List.mem_cons_self, 0 / 0, ⟨[0, 0 / 0], rfl, rfl⟩, undefined⟩

end Formulary.Expr
