import Formulary.Graph.Reading
import Formulary.Proofs.Evaluation.Refinement
import Formulary.Proofs.Graph.Ends

/-!
# Many evaluations over one domain

A copying domain serves any number of evaluations.  Between them the rows that it
gave may be overwritten by those who asked for them.  This module shows that each
of them gives what it would give alone over a new domain.

Main results:

- Definition `Session.Sound`: the buffers of the domain hold its samples, and
  none of them was returned.
- Theorem `Session.sound_perform`: every action keeps a session sound.
- Theorem `Session.answers_eq_meanings`: what is answered to actions in any order
  is what each of them means.
-/

namespace Formulary

variable {α : Type}

/-! ## Actions on a domain -/

/-- What can be done with a domain and the rows that it gave. -/
inductive Action (α : Type)
  /-- A node of a graph is evaluated. -/
  | evaluate (graph : Graph α) (node : NodeRef)
  /-- The row of a variable is asked for. -/
  | fetch (name : String)
  /-- A sample of the row that was given at a turn is overwritten. -/
  | poke (turn : Nat) (place : Int) (sample : α)

/-- Every way down from a node to be evaluated ends. -/
def Action.Ends : Action α → Prop
  | evaluate graph node => graph.Ends node
  | _ => True

/-- A store, with the buffers that were given away so far. -/
structure Session (α : Type) where
  store : Store α
  returned : List Buffer

namespace Session

/-- Runs a computation; the buffer that it returns is given away. -/
def run (session : Session α) (computation : EvalM α Buffer) :
    Except EvalError (List α) × Session α :=
  match computation.apply session.store with
  | (.error error, store) => (.error error, ⟨store, session.returned⟩)
  | (.ok buffer, store) => (.ok (store.read buffer), ⟨store, session.returned ++ [buffer]⟩)

/-- Overwrites a sample of the row that was given at a turn.  Nothing happens if
no row was, or if the row has no such place. -/
def poke (session : Session α) (turn : Nat) (place : Int) (sample : α) : Session α :=
  match session.returned[turn]? with
  | none => session
  | some buffer =>
    match session.store.poke buffer place sample with
    | none => session
    | some store => ⟨store, session.returned⟩

variable [Scalar α]

/-- Carries out an action.  All but overwriting is answered by a row or a
failure. -/
def perform (domain : Domain) (session : Session α) :
    Action α → Option (Except EvalError (List α)) × Session α
  | .evaluate graph node =>
    let (answer, session) := session.run (graph.evaluate domain node)
    (some answer, session)
  | .fetch name =>
    let (answer, session) := session.run (domain.fetch name)
    (some answer, session)
  | .poke turn place sample => (none, session.poke turn place sample)

/-- Carries out actions one after another. -/
def performAll (domain : Domain) :
    Session α → List (Action α) → List (Option (Except EvalError (List α))) × Session α
  | session, [] => ([], session)
  | session, action :: rest =>
    let (answer, session) := session.perform domain action
    let (answers, session) := performAll domain session rest
    (answer :: answers, session)

/-- The answers to actions over a new copying domain, and the session after
them. -/
def carryOut (samples : Samples α) (store : Store α) (actions : List (Action α)) :
    List (Option (Except EvalError (List α))) × Session α :=
  performAll (Domain.copyingOf samples store).1 ⟨(Domain.copyingOf samples store).2, []⟩ actions

end Session

/-- What an action means over samples, without any buffers. -/
def Action.meaning [Scalar α] (samples : Samples α) :
    Action α → Option (Except EvalError (List α))
  | evaluate graph node => (graph.expr? node).map (Expr.valueOn samples)
  | fetch name =>
    match samples.rows.find? name with
    | none => some (.error (.unbound name))
    | some row => some (.ok row)
  | poke _ _ _ => none

namespace Session

/-! ## Sound sessions -/

/-- The buffers of the domain hold its samples.  The buffers that were given away
are in the store, each once and none of them a buffer of the domain. -/
structure Sound (domain : Domain) (rows : Bindings (List α)) (session : Session α) : Prop where
  lives : domain.LivesIn session.store
  rows_eq : domain.rows session.store = rows
  present : ∀ buffer ∈ session.returned, session.store.Has buffer
  apart : ∀ buffer ∈ session.returned, ∀ name, (name, buffer) ∉ domain.bindings
  distinct : session.returned.Nodup

variable {domain : Domain} {rows : Bindings (List α)} {session : Session α}

/-- A session stays sound when buffers are only added. -/
theorem Sound.grow (sound : session.Sound domain rows) {after : Store α}
    (changes : Store.ChangesOnly (fun _ => False) session.store after) :
    Sound domain rows ⟨after, session.returned⟩ where
  lives := sound.lives.later changes
  rows_eq := by
    rw [← sound.rows_eq]
    refine Domain.rows_congr ?_
    intro name buffer bound
    exact changes.read_eq buffer (sound.lives name buffer bound) id
  present := fun buffer member => changes.has (sound.present buffer member)
  apart := sound.apart
  distinct := sound.distinct

/-- A new buffer may be given away. -/
theorem Sound.give (sound : session.Sound domain rows) {after : Store α} {buffer : Buffer}
    (changes : Store.ChangesOnly (fun _ => False) session.store after)
    (fresh : ¬session.store.Has buffer) (there : after.Has buffer) :
    Sound domain rows ⟨after, session.returned ++ [buffer]⟩ where
  lives := sound.lives.later changes
  rows_eq := (sound.grow changes).rows_eq
  present := by
    intro other member
    rcases List.mem_append.1 member with old | new
    · exact changes.has (sound.present other old)
    · rw [List.mem_singleton.1 new]
      exact there
  apart := by
    intro other member name bound
    rcases List.mem_append.1 member with old | new
    · exact sound.apart other old name bound
    · rw [List.mem_singleton.1 new] at bound
      exact fresh (sound.lives name buffer bound)
  distinct := by
    rw [List.nodup_append]
    refine ⟨sound.distinct, List.nodup_singleton buffer, ?_⟩
    intro old member new last same
    rw [same, List.mem_singleton.1 last] at member
    exact fresh (sound.present buffer member)

/-- What was given away may be overwritten. -/
theorem Sound.poke (sound : session.Sound domain rows) (turn : Nat) (place : Int) (sample : α) :
    (session.poke turn place sample).Sound domain rows := by
  unfold Session.poke
  cases given : session.returned[turn]? with
  | none => exact sound
  | some buffer =>
    have member : buffer ∈ session.returned := List.mem_of_getElem? given
    dsimp only
    cases poked : session.store.poke buffer place sample with
    | none => exact sound
    | some after =>
      obtain ⟨row, rfl⟩ := Store.exists_write_of_poke poked
      refine ⟨?_, ?_, ?_, sound.apart, sound.distinct⟩
      · intro name other bound
        rw [Store.has_write]
        exact sound.lives name other bound
      · rw [← sound.rows_eq]
        refine Domain.rows_congr ?_
        intro name other bound
        refine Store.read_write_of_ne ?_ session.store row
        intro same
        rw [same] at bound
        exact sound.apart buffer member name bound
      · intro other returned
        rw [Store.has_write]
        exact sound.present other returned

/-! ## One action -/

variable [Scalar α] {bindings : Bindings Buffer} {samples : Samples α}

/-- An evaluation over copies answers with the value of the expression, and keeps
the session sound. -/
theorem run_evaluate (sound : session.Sound (.copying bindings samples.count) samples.rows)
    (expr : Expr α) :
    (session.run (expr.evaluate (.copying bindings samples.count))).1 = expr.valueOn samples ∧
      (session.run (expr.evaluate (.copying bindings samples.count))).2.Sound
        (.copying bindings samples.count) samples.rows := by
  have value := Expr.row_evaluate_copying sound.lives expr
  rw [sound.rows_eq] at value
  rw [run]
  rcases done : (expr.evaluate (.copying bindings samples.count)).apply session.store with
    ⟨error | buffer, after⟩
  · have framed := Expr.framed_of_apply expr sound.lives done
    rw [EvalM.row_of_error done] at value
    exact ⟨value, sound.grow (Expr.changesOnly_copying framed)⟩
  · have framed := Expr.framed_of_apply expr sound.lives done
    rw [EvalM.row_of_ok done] at value
    exact ⟨value, sound.give (Expr.changesOnly_copying framed) (Expr.not_has_copying framed)
      (framed.present buffer rfl)⟩

/-- Asking for a variable is evaluating it. -/
theorem run_fetch (domain : Domain) (session : Session α) (name : String) :
    session.run (domain.fetch name) =
      session.run (Expr.evaluate domain (Tree.node ⟨.var name, none⟩ [])) := by
  rw [run, run, Expr.evaluate_node, Expr.apply_evaluateNode_var domain.provider rfl,
    Domain.provider]

/-- Every action keeps a session sound, and is answered by what it means. -/
theorem perform_spec (sound : session.Sound (.copying bindings samples.count) samples.rows)
    {action : Action α} (ends : action.Ends) :
    (session.perform (.copying bindings samples.count) action).1 = action.meaning samples ∧
      (session.perform (.copying bindings samples.count) action).2.Sound
        (.copying bindings samples.count) samples.rows := by
  cases action with
  | evaluate graph node =>
    obtain ⟨expr, unfolded⟩ := Graph.ends_iff.1 ends
    obtain ⟨answer, after⟩ := run_evaluate sound expr
    rw [perform, Graph.evaluate_of_expr? unfolded, Action.meaning, unfolded]
    exact ⟨congrArg some answer, after⟩
  | fetch name =>
    obtain ⟨answer, after⟩ := run_evaluate sound (Tree.node ⟨.var name, none⟩ [])
    rw [perform, run_fetch, Action.meaning]
    refine ⟨?_, after⟩
    dsimp only
    rw [answer, Expr.valueOn, Expr.value?_var rfl]
    cases samples.rows.find? name <;> rfl
  | poke turn place sample => exact ⟨rfl, sound.poke turn place sample⟩

/-! ## Any number of actions -/

theorem performAll_spec (sound : session.Sound (.copying bindings samples.count) samples.rows)
    {actions : List (Action α)} (ends : ∀ action ∈ actions, action.Ends) :
    (session.performAll (.copying bindings samples.count) actions).1 =
        actions.map (Action.meaning samples) ∧
      (session.performAll (.copying bindings samples.count) actions).2.Sound
        (.copying bindings samples.count) samples.rows := by
  induction actions generalizing session with
  | nil => exact ⟨rfl, sound⟩
  | cons action rest ih =>
    obtain ⟨answer, between⟩ := perform_spec sound (ends action List.mem_cons_self)
    obtain ⟨answers, after⟩ := ih between fun other member =>
      ends other (List.mem_cons_of_mem _ member)
    rw [performAll, List.map_cons, ← answer, ← answers]
    exact ⟨rfl, after⟩

/-- Actions over a new domain are answered by what they mean, and leave the
session sound. -/
theorem carryOut_spec (samples : Samples α) (store : Store α) {actions : List (Action α)}
    (ends : ∀ action ∈ actions, action.Ends) :
    (carryOut samples store actions).1 = actions.map (Action.meaning samples) ∧
      (carryOut samples store actions).2.Sound (Domain.copyingOf samples store).1 samples.rows := by
  obtain ⟨lives, rows, -⟩ := Domain.copyingOf_spec samples store
  have start : Session.Sound (.copying (Domain.place samples.rows store).1 samples.count)
      samples.rows ⟨(Domain.copyingOf samples store).2, []⟩ := by
    refine ⟨lives, rows, ?_, ?_, List.nodup_nil⟩
    · intro buffer member
      cases member
    · intro buffer member
      cases member
  exact performAll_spec start ends

/-- Each of any number of evaluations and enquiries over one copying domain, with
overwriting of what was given between them, gives the value of its expression or
fails as that does.  It is what the same alone gives over a new domain.  The rows
of the domain are left as they are. -/
theorem answers_eq_meanings (samples : Samples α) (store elsewhere : Store α)
    {actions : List (Action α)} (ends : ∀ action ∈ actions, action.Ends) :
    (carryOut samples store actions).1 = actions.map (Action.meaning samples) ∧
      (carryOut samples store actions).1 =
        actions.flatMap (fun action => (carryOut samples elsewhere [action]).1) ∧
      (Domain.copyingOf samples store).1.rows (carryOut samples store actions).2.store =
        samples.rows := by
  obtain ⟨answers, sound⟩ := carryOut_spec samples store ends
  have alone : actions.flatMap (fun action => (carryOut samples elsewhere [action]).1) =
      actions.flatMap (fun action => [action.meaning samples]) := by
    refine List.flatMap_congr ?_
    intro action member
    have single : ∀ other ∈ [action], other.Ends := by
      intro other inside
      rw [List.mem_singleton.1 inside]
      exact ends action member
    exact (carryOut_spec samples elsewhere single).1
  refine ⟨answers, ?_, sound.rows_eq⟩
  rw [alone, answers, List.map_eq_flatMap]

/-- The product of the opposite of `x` with itself, in which one node is both
children of another. -/
def oppositeSquared : Graph Float :=
  ⟨#[⟨⟨.var "x", none⟩, [], none⟩, ⟨⟨.op (.unary .neg), none⟩, [⟨0⟩], none⟩,
    ⟨⟨.op (.binary .mul), none⟩, [⟨1⟩, ⟨1⟩], none⟩]⟩

/-- A row that was given may be overwritten before the next evaluation. -/
theorem answers_oppositeSquared :
    oppositeSquared.Ends ⟨2⟩ ∧
      (carryOut ⟨[("x", [3, 4])], 2⟩ Store.empty
        [.evaluate oppositeSquared ⟨2⟩, .poke 0 (-1) 5, .fetch "x", .poke 1 0 5,
          .evaluate oppositeSquared ⟨2⟩]).1 =
        [some (.ok [-3 * -3, -4 * -4]), none, some (.ok [3, 4]), none,
          some (.ok [-3 * -3, -4 * -4])] := by
  have finite : oppositeSquared.Ends ⟨2⟩ := Graph.ends_iff.2 ⟨_, rfl⟩
  have ends : ∀ action ∈ [Action.evaluate oppositeSquared ⟨2⟩, .poke 0 (-1) 5, .fetch "x",
      .poke 1 0 5, .evaluate oppositeSquared ⟨2⟩], action.Ends := by
    simp [Action.Ends, finite]
  exact ⟨finite, (answers_eq_meanings _ Store.empty Store.empty ends).1⟩

end Session

end Formulary
