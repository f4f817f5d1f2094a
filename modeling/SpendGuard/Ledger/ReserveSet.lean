import SpendGuard.Ledger.Reserve

/-!
What the callers of `post_ledger_transaction` post: the reserve set of the handler and the opening
deposit of the control plane.
-/

namespace SpendGuard.Ledger

structure BudgetClaim where
  budget : Uuid
  window : Uuid
  unit : Uuid
  amount : ℤ
  deriving DecidableEq

/-- A `ReserveSetRequest` once its ids and amounts are parsed. -/
structure ReserveSet where
  transaction : TransactionArgs
  claims : List BudgetClaim
  pricing : Pricing
  ttlExpiresAt : Timestamp
  audit : AuditArgs
  callerLockToken : Option String

def deriveReservationId (decision : Uuid) (ordinal : ℕ) : Uuid :=
  decision.digest (":res:" ++ toString ordinal)

theorem deriveReservationId_injective {decision : Uuid} {i j : ℕ}
    (h : deriveReservationId decision i = deriveReservationId decision j) : i = j := by
  have hsuffix := (Uuid.digest_injective h).2
  rw [String.append_right_inj] at hsuffix
  exact Nat.repr_inj.mp hsuffix

def BudgetClaim.entries (c : BudgetClaim) (pricing : Pricing) (reservation : Uuid) : List EntryArgs :=
  [⟨c.budget, c.window, c.unit, .availableBudget, .debit, c.amount, pricing, some reservation, 1⟩,
    ⟨c.budget, c.window, c.unit, .reservedHold, .credit, c.amount, pricing, some reservation, 1⟩]

namespace ReserveSet

def holds (r : ReserveSet) : List (BudgetClaim × Uuid) :=
  r.claims.zipIdx.map fun c => (c.1, deriveReservationId r.transaction.decisionId c.2)

def buildEntriesPayload (r : ReserveSet) : List EntryArgs :=
  r.holds.flatMap fun h => h.1.entries r.pricing h.2

def buildReservationsPayload (r : ReserveSet) : List ReservationArgs :=
  r.holds.map fun h => ⟨h.2, h.1.budget, h.1.window, r.ttlExpiresAt, r.transaction.idempotencyKey⟩

def post (r : ReserveSet) : LedgerPost where
  transaction := r.transaction
  operationKind := .reserve
  entries := r.buildEntriesPayload
  reservations := r.buildReservationsPayload
  audit := r.audit
  callerLockToken := r.callerLockToken

theorem holds_ids_nodup (r : ReserveSet) : (r.holds.map Prod.snd).Nodup := by
  have hids : r.holds.map Prod.snd =
      (r.claims.zipIdx.map Prod.snd).map (deriveReservationId r.transaction.decisionId) := by
    rw [holds, List.map_map, List.map_map]
    rfl
  rw [hids, List.zipIdx_map_snd]
  apply List.Nodup.map
  · intro i j hij
    exact deriveReservationId_injective hij
  · exact List.nodup_range'

end ReserveSet

/-- The opening deposit of `create_tenant`. -/
structure OpeningDeposit where
  transaction : TransactionArgs
  budget : Uuid
  window : Uuid
  unit : Uuid
  amount : ℤ
  pricing : Pricing
  audit : AuditArgs

def OpeningDeposit.post (d : OpeningDeposit) : LedgerPost where
  transaction := d.transaction
  operationKind := .adjustment
  entries := [
    ⟨d.budget, d.window, d.unit, .availableBudget, .credit, d.amount, d.pricing, none, 1⟩,
    ⟨d.budget, d.window, d.unit, .adjustment, .debit, d.amount, d.pricing, none, 1⟩]
  reservations := []
  audit := d.audit
  callerLockToken := none

end SpendGuard.Ledger
