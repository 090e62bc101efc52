import GoldenCheck.Json.Writer
import GoldenCheck.Golden.Shipped
import GoldenCheck.Main
import GoldenCheck.Proofs.Golden.History
import GoldenCheck.Proofs.Golden.Certificate
import GoldenCheck.Proofs.Golden.Verdict
import GoldenCheck.Proofs.Golden.Inputs
import GoldenCheck.Proofs.Golden.Overrides
import GoldenCheck.Proofs.Golden.LineEndings
import GoldenCheck.Proofs.Golden.Escapes
import GoldenCheck.Proofs.Golden.Acceptance
import GoldenCheck.Proofs.Golden.Renderable
import GoldenCheck.Proofs.Golden.Locality
import GoldenCheck.Proofs.Golden.ArgumentOrder
import GoldenCheck.Proofs.Golden.ConfiguredEntry
import GoldenCheck.Proofs.Prime.TrialDivision
import GoldenCheck.Proofs.Prime.Sentences
