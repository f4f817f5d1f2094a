import SpendGuard.Sidecar.Contract

/-!
The evaluation of a contract as a join: it only depends on which rules match which claims, and grows with them.
-/

namespace SpendGuard.Sidecar

open Base Ledger

section Fold

variable (os : List EvalOutcome) (o : EvalOutcome)

end Fold

namespace Contract

variable (uuid : String → Option Uuid) (bigInt : String → Except String ℤ) (contract : Contract)

end Contract

end SpendGuard.Sidecar
