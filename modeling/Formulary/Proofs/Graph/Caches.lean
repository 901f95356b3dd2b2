import Formulary.Proofs.Graph.Bench

/-!
# What is remembered while a graph is built

Nodes remember sizes, and handles keep texts.  A node forgets its size when it gets a
child itself, not when a node below it does; and clearing a handle forgets its text, but
no size.  This module shows when sizes are nevertheless right: while children are only
added where no node above remembers its size.

Main results:

- Definition `Bench.Careful`: calls that add children only there.
- Theorem `Bench.size_eq_length_nodes`: between careful calls every node reports as many
  nodes as a traversal lists.
- Theorem `Bench.text_and_size_after_clear`: what a handle answers after it was cleared.
-/

namespace Formulary

/-- A child is added only to a node above which no node remembers its size. -/
def Call.IsCareful (graph : Graph Float) : Call → Prop
  | .attach parent (some _) => ∀ upper, graph.IsAbove upper parent → graph.kept? upper = none
  | _ => True

namespace Bench

/-- All calls are careful, and there is no cycle after any of them. -/
def Careful : Bench → List Call → Prop
  | _, [] => True
  | bench, call :: rest =>
    call.IsCareful bench.graph ∧ (bench.perform call).2.graph.Acyclic ∧
      Careful (bench.perform call).2 rest

/-! ## Sound benches -/

/-- The graph has no cycles, and the sizes that its nodes remember are right. -/
structure Sound (bench : Bench) : Prop where
  acyclic : bench.graph.Acyclic
  exact : bench.graph.Exact fun _ => True

theorem sound_empty : empty.Sound where
  acyclic := fun _ present => absurd present (Nat.not_lt_zero _)
  exact := Graph.exact_of_not_kept (fun _ _ _ _ _ _ _ => trivial) fun _ _ => by
    rw [Graph.kept?, Graph.vertex?, Array.getElem?_eq_none (Nat.zero_le _)]
    rfl

/-- Careful edits keep all sizes right. -/
theorem Edit.exact {call : Call} {before after : Graph Float} (edit : Edit call before after)
    (careful : call.IsCareful before) (acyclic : before.Acyclic)
    (exact : before.Exact fun _ => True) : after.Exact fun _ => True := by
  cases edit with
  | nothing => exact exact
  | extend grown => exact exact.extend acyclic grown
  | attach asked =>
    subst asked
    exact exact.attach careful
  | @count node size after counted =>
    obtain ⟨mark, children, shows⟩ := Graph.exists_shows_of_size? counted
    obtain ⟨tree, rfl, unfolds⟩ := (acyclic node shows.lt_order).exists_isUnfolding
    obtain ⟨also, sized, exact_after⟩ := exact.size?_eq unfolds trivial
    rw [counted] at sized
    cases sized
    exact exact_after

/-- A careful call keeps a bench sound. -/
theorem Sound.perform {bench : Bench} (sound : bench.Sound) {call : Call}
    (careful : call.IsCareful bench.graph) (acyclic : (bench.perform call).2.graph.Acyclic) :
    (bench.perform call).2.Sound where
  acyclic := acyclic
  exact := (edit_perform bench call).exact careful sound.acyclic sound.exact

/-- Careful calls keep a bench sound. -/
theorem Sound.performAll {bench : Bench} (sound : bench.Sound) {calls : List Call}
    (careful : bench.Careful calls) : (bench.performAll calls).Sound := by
  induction calls generalizing bench with
  | nil => exact sound
  | cons call rest ih =>
    obtain ⟨first, acyclic, later⟩ := careful
    exact ih (sound.perform first acyclic) later

/-- The nodes below a node of a sound bench are counted. -/
theorem Sound.size_eq {bench : Bench} (sound : bench.Sound) {subject : Subject} {node : NodeRef}
    (meant : bench.root? subject = some node) (present : node.index < bench.graph.order) :
    ∃ count, (bench.perform (.size subject)).1 = .size count ∧
      ∀ order, ∃ listed, bench.graph.nodes? order node = some listed ∧ listed.length = count := by
  obtain ⟨tree, rfl, unfolds⟩ := (sound.acyclic node present).exists_isUnfolding
  obtain ⟨after, sized, -⟩ := sound.exact.size?_eq unfolds trivial
  refine ⟨tree.size, ?_, fun order => ⟨_, unfolds.nodes? order, tree.length_nodes order⟩⟩
  rw [Bench.perform, Bench.size, meant, Option.bind_some, sized]

/-! ## Sizes -/

/-- The first of careful calls are careful. -/
theorem Careful.earlier {bench : Bench} {answered calls : List Call} (careful : bench.Careful calls)
    (earlier : answered <+: calls) : bench.Careful answered := by
  induction answered generalizing bench calls with
  | nil => trivial
  | cons call rest ih =>
    obtain ⟨later, rfl⟩ := earlier
    obtain ⟨first, acyclic, others⟩ := careful
    exact ⟨first, acyclic, ih others (List.prefix_append rest later)⟩

/-- Between careful calls, at any time, every node and every handle on a node reports the
number of nodes that a traversal lists in either order, a node counted once for every way
down to it. -/
theorem size_eq_length_nodes {calls answered : List Call} (careful : empty.Careful calls)
    (earlier : answered <+: calls) {subject : Subject} {node : NodeRef}
    (meant : (empty.performAll answered).root? subject = some node)
    (present : node.index < (empty.performAll answered).graph.order) :
    ∃ count, ((empty.performAll answered).perform (.size subject)).1 = .size count ∧
      ∀ order, ∃ listed, (empty.performAll answered).graph.nodes? order node = some listed ∧
        listed.length = count := by
  have sound : (empty.performAll answered).Sound := sound_empty.performAll (careful.earlier earlier)
  exact sound.size_eq meant present

/-- A minimum and a handle on it are asked for their size and text before the minimum gets
its second argument. -/
def secondArgument : List Call :=
  [.make ⟨.var "x", none⟩ [], .make ⟨.var "y", none⟩ [],
    .make ⟨.op (.reduction .min), none⟩ [some ⟨0⟩], .wrap ⟨2⟩, .text (.handle 0),
    .size (.node ⟨2⟩), .attach ⟨2⟩ (some ⟨1⟩)]

theorem careful_secondArgument : empty.Careful secondArgument := by
  have descends : ∀ count ≤ 7,
      (empty.performAll (secondArgument.take count)).graph.Descends := by decide
  have acyclic : ∀ count ≤ 7, (empty.performAll (secondArgument.take count)).graph.Acyclic :=
    fun count le => Graph.acyclic_of_descends (descends count le)
  refine ⟨trivial, acyclic 1 (by decide), trivial, acyclic 2 (by decide), trivial,
    acyclic 3 (by decide), trivial, acyclic 4 (by decide), trivial, acyclic 5 (by decide), trivial,
    acyclic 6 (by decide), ?_, acyclic 7 (by decide), trivial⟩
  -- the minimum is the youngest node, so nothing is above it
  intro upper above
  have younger : 2 < upper.index := (descends 6 (by decide)).lt_of_isAbove above
  exact (Graph.Extends.refl _).new upper younger

/-- A node that remembers its size may get a child; the size is counted again. -/
theorem size_eq_length_nodes_secondArgument :
    empty.Careful secondArgument ∧ secondArgument <+: secondArgument ∧
      (empty.performAll secondArgument).root? (.handle 0) = some ⟨2⟩ ∧
      2 < (empty.performAll secondArgument).graph.order ∧
      ((empty.performAll (secondArgument.take 6)).perform (.size (.handle 0))).1 = .size 2 ∧
      ((empty.performAll secondArgument).perform (.size (.handle 0))).1 = .size 3 ∧
      ∀ order, ∃ listed,
        (empty.performAll secondArgument).graph.nodes? order ⟨2⟩ = some listed ∧
          listed.length = 3 := by
  have meant : (empty.performAll secondArgument).root? (.handle 0) = some ⟨2⟩ := rfl
  have present : 2 < (empty.performAll secondArgument).graph.order := by decide
  have three : ((empty.performAll secondArgument).perform (.size (.handle 0))).1 = .size 3 := rfl
  have all := List.prefix_refl secondArgument
  obtain ⟨count, sized, listed⟩ := size_eq_length_nodes careful_secondArgument all meant present
  rw [three] at sized
  cases sized
  exact ⟨careful_secondArgument, all, meant, present, rfl, three, listed⟩

/-! ## After clearing -/

/-- Clearing a handle leaves it on its node. -/
theorem root?_clear (bench : Bench) (number : Nat) :
    (bench.perform (.clear number)).2.root? (.handle number) = bench.root? (.handle number) := by
  simp only [perform, root?, List.getElem?_modify_eq, Option.map_eq_map, Option.map_map]
  rfl

/-- A handle that was just cleared answers the text of its node. -/
theorem text_clear (bench : Bench) {number : Nat} {node : NodeRef} {text : String}
    (meant : bench.root? (.handle number) = some node)
    (written : bench.graph.text? node = some text) :
    ((bench.perform (.clear number)).2.perform (.text (.handle number))).1 = .text text := by
  obtain ⟨handle, found, rfl⟩ := Option.map_eq_some_iff.1 meant
  have cleared := handle.text?_clear bench.graph
  rw [written] at cleared
  obtain ⟨answer, given, rfl⟩ := Option.map_eq_some_iff.1 cleared
  simp only [perform, Bench.text, List.getElem?_modify_eq, found, Option.map_eq_map,
    Option.map_some, Option.bind_some, given]

/-- Whatever was asked and done before, a handle that was just cleared answers the text of
its node, which is that of the expression below it.  It answers the number of nodes as its
size if all calls were careful. -/
theorem text_and_size_after_clear {calls : List Call} {number : Nat} {node : NodeRef}
    (meant : (empty.performAll calls).root? (.handle number) = some node)
    (present : node.index < (empty.performAll calls).graph.order)
    (acyclic : (empty.performAll calls).graph.Acyclic) :
    ∃ expr, (empty.performAll calls).graph.expr? node = some expr ∧
      ((empty.performAll (calls ++ [.clear number])).perform (.text (.handle number))).1 =
        .text expr.text ∧
      ((empty.performAll (calls ++ [.clear number])).perform (.text (.node node))).1 =
        .text expr.text ∧
      (empty.Careful calls → ∃ count,
        ((empty.performAll (calls ++ [.clear number])).perform (.size (.handle number))).1 =
          .size count ∧
        ∀ order, ∃ listed,
          (empty.performAll calls).graph.nodes? order node = some listed ∧
            listed.length = count) := by
  obtain ⟨expr, unfolded⟩ := Graph.ends_iff.1 (acyclic node present)
  have written := Graph.text?_of_expr? unfolded
  have cleared : empty.performAll (calls ++ [.clear number]) =
      ((empty.performAll calls).perform (.clear number)).2 := List.foldl_append
  rw [cleared]
  refine ⟨expr, unfolded, text_clear _ meant written, ?_, fun careful => ?_⟩
  · simp only [perform, Bench.text, written]
  · have sound : ((empty.performAll calls).perform (.clear number)).2.Sound :=
      (sound_empty.performAll careful).perform trivial acyclic
    exact sound.size_eq ((root?_clear _ _).trans meant) present

/-- A handle that was asked for its text before an argument was added answers the old text
until it is cleared. -/
theorem text_and_size_after_clear_secondArgument :
    (empty.performAll secondArgument).root? (.handle 0) = some ⟨2⟩ ∧
      2 < (empty.performAll secondArgument).graph.order ∧
      (empty.performAll secondArgument).graph.Acyclic ∧
      ((empty.performAll secondArgument).perform (.text (.handle 0))).1 = .text "min(x)" ∧
      ((empty.performAll (secondArgument ++ [.clear 0])).perform (.text (.handle 0))).1 =
        .text "min(x, y)" ∧
      ∃ count,
        ((empty.performAll (secondArgument ++ [.clear 0])).perform (.size (.handle 0))).1 =
          .size count ∧
        ∀ order, ∃ listed,
          (empty.performAll secondArgument).graph.nodes? order ⟨2⟩ = some listed ∧
            listed.length = count := by
  have meant : (empty.performAll secondArgument).root? (.handle 0) = some ⟨2⟩ := rfl
  have present : 2 < (empty.performAll secondArgument).graph.order := by decide
  have acyclic := (sound_empty.performAll careful_secondArgument).acyclic
  have written : (empty.performAll secondArgument).graph.text? ⟨2⟩ = some "min(x, y)" := rfl
  obtain ⟨expr, unfolded, text, -, sizes⟩ := text_and_size_after_clear meant present acyclic
  rw [Graph.text?_of_expr? unfolded] at written
  refine ⟨meant, present, acyclic, rfl, ?_, sizes careful_secondArgument⟩
  rw [text, Option.some.inj written]

/-- The argument of a negation gets a second argument after the negation was asked for its
size. -/
def argumentOfArgument : List Call :=
  [.make ⟨.var "x", none⟩ [], .make ⟨.var "y", none⟩ [],
    .make ⟨.op (.reduction .min), none⟩ [some ⟨0⟩], .make ⟨.op (.unary .neg), none⟩ [some ⟨2⟩],
    .wrap ⟨3⟩, .size (.handle 0), .attach ⟨2⟩ (some ⟨1⟩)]

/-- Without care a handle still answers an old size after it was cleared: three, where four
nodes are listed. -/
theorem size_after_clear_argumentOfArgument :
    (empty.performAll argumentOfArgument).graph.Acyclic ∧
      (empty.performAll argumentOfArgument).root? (.handle 0) = some ⟨3⟩ ∧
      ((empty.performAll (argumentOfArgument ++ [.clear 0])).perform (.size (.handle 0))).1 =
        .size 3 ∧
      (empty.performAll (argumentOfArgument ++ [.clear 0])).graph.nodes? .depthFirst ⟨3⟩ =
        some [⟨3⟩, ⟨2⟩, ⟨0⟩, ⟨1⟩] :=
  ⟨Graph.acyclic_of_descends (by decide), rfl, rfl, rfl⟩

end Bench

end Formulary
