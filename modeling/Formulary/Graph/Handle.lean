import Formulary.Graph.Reading

/-!
# Handles

A handle wraps the root of an expression.  It keeps the first text that it was
asked for until that text is cleared; everything else it asks the root.

Main results:

- Theorem `Handle.text?_of_kept`: a kept text is given again whatever the graph.
- Theorem `Handle.text?_clear`: after clearing, the text is that of the root.
-/

namespace Formulary

/-- The root of an expression and its text, if that was asked for. -/
structure Handle where
  root : NodeRef
  kept : Option String
deriving DecidableEq, Repr

namespace Handle

/-- A handle that keeps nothing yet. -/
def wrap (root : NodeRef) : Handle := ⟨root, none⟩

/-- The text that a handle gives, and the handle that keeps it. -/
def text? (graph : Graph Float) (handle : Handle) : Option (String × Handle) :=
  match handle.kept with
  | some text => some (text, handle)
  | none => do
    let text ← graph.text? handle.root
    return (text, { handle with kept := some text })

/-- Forgets the text. -/
def clear (handle : Handle) : Handle :=
  { handle with kept := none }

/-- A handle on a copy of the expression. -/
def copy? {α : Type} (graph : Graph α) (handle : Handle) : Option (Handle × Graph α) :=
  (graph.copy? handle.root).map fun (root, graph) => (wrap root, graph)

/-- A kept text is given again, whatever became of the graph. -/
theorem text?_of_kept {handle : Handle} {text : String} (h : handle.kept = some text)
    (graph : Graph Float) : handle.text? graph = some (text, handle) := by
  rw [text?, h]

/-- After clearing, the text is that of the root. -/
theorem text?_clear (handle : Handle) (graph : Graph Float) :
    (handle.clear.text? graph).map Prod.fst = graph.text? handle.root := by
  rw [text?, clear]
  cases graph.text? handle.root <;> rfl

end Handle

end Formulary
