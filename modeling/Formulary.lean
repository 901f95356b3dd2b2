import Formulary.Domain.Axis
import Formulary.Evaluation.Denotation
import Formulary.Evaluation.Outcome
import Formulary.Expr.Algebraic
import Formulary.Graph.Handle
import Formulary.Registry.Registration
import Formulary.Proofs.Evaluation.Footprint
import Formulary.Proofs.Evaluation.Pointwise
import Formulary.Proofs.Evaluation.Refinement
import Formulary.Proofs.Evaluation.Lengths
import Formulary.Proofs.Evaluation.Splitting
import Formulary.Proofs.Evaluation.Sessions
import Formulary.Proofs.Evaluation.Lending
import Formulary.Proofs.Evaluation.Observing
import Formulary.Proofs.Registry.Batches
import Formulary.Proofs.Registry.Rebuilding
import Formulary.Proofs.Registry.Retries
import Formulary.Proofs.Signature.Spelling
import Formulary.Proofs.Expr.Legibility
import Formulary.Proofs.Graph.Caches
import Formulary.Proofs.Graph.Traversals
import Formulary.Proofs.Registry.Refusals
import Formulary.Proofs.Signature.NormalForms
import Formulary.Proofs.Signature.Faults
import Formulary.Proofs.Registry.ArrayLiterals
import Formulary.Proofs.Journal.Interchange
import Formulary.Proofs.Registry.Reporting
import Formulary.Proofs.Evaluation.Building
import Formulary.Proofs.Binary64.HalfUp
import Formulary.Proofs.Evaluation.Grids
