import SpendGuard.Proxy.Forward
import SpendGuard.Sidecar.Server

/-!
The proxy's commit against the sidecar and the ledger behind it.
-/

namespace SpendGuard.Proxy

open Base Base.Proc Ledger Sidecar

section Applied

variable {parseUuid : String → Option Uuid} {w w' : World} {c : Forwarded} {usage : ℤ}
  {deliveries : ℕ → Delivery} {reservation : Uuid}

end Applied

end SpendGuard.Proxy
