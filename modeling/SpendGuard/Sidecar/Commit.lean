import SpendGuard.Base.Check
import SpendGuard.Ledger.Admitted
import SpendGuard.Sidecar.Wire

/-!
The commit lane of the sidecar, down to the ledger procedure behind it.  How a UUID is parsed is a
parameter.
-/

namespace SpendGuard.Sidecar

open Base Base.Proc Ledger

structure ActiveFencing where
  scope : Uuid
  epoch : ℕ
  ttlExpiresAt : ℕ
  deriving DecidableEq

structure ReservationCtx where
  unit : Uuid
  originalReserved : ℤ
  pricing : PricingSnapshot
  fencingScope : Uuid
  fencingEpochAtPost : ℕ
  decision : Uuid
  currentState : ReservationState
  deriving DecidableEq

structure SidecarState where
  tenant : Uuid
  workload : String
  fencing : Option ActiveFencing
  reservationCache : List (Uuid × ReservationCtx)
  decisionToReservation : List (Uuid × Uuid)
  lastSequence : ℕ

inductive DomainError
  | invalidRequest (message : String)
  | reservationStateConflict (message : String)
  | fencingAcquire (message : String)
  | fencingEpochStale (message : String)
  | pricingFreezeMismatch (message : String)
  | overrunReservation (message : String)
  | multiReservationCommitDeferred (message : String)
  | reservationNotFound (message : String)
  | internal (message : String)
  | ledgerClient (message : String)
  | ledger (e : PgError)
  deriving DecidableEq

structure World where
  sidecar : SidecarState
  ledger : Db

/-- What a call meets on its way: the time, whether the ledger answers the query and the post, and
the ids that are minted. -/
structure CallEnv where
  now : ℕ
  queryReachable : Bool
  postReachable : Bool
  transaction : Uuid
  auditEvent : Uuid

/-- The context behind a row of the join; a `NULL` that is read as not null ends the call. -/
def reservationContext (r : Reservation) (source : LedgerTransaction) (e : LedgerEntry) :
    Option ReservationCtx := do
  return ⟨e.account.unit, e.amount,
    ⟨e.pricing.version, e.pricing.snapshotHash, ← e.pricing.fxRateVersion, ← e.pricing.unitConversionVersion⟩,
    ← source.fencingScope, ← source.fencingEpochAtPost, source.decisionId, r.state⟩

def queryReservationContext (db : Db) (tenant reservation : Uuid) : Except DomainError ReservationCtx := do
  let notFound := DomainError.reservationNotFound
    ("reservation_id " ++ reservation.text ++ " not found for tenant " ++ tenant.text)
  let r ← found (db.reservation? tenant reservation) notFound
  let source ← found (db.transactions.find? fun x => x.id = r.sourceTransaction) notFound
  let n := (db.reservationsOf tenant r.sourceTransaction).length
  check (n ≤ 1) (.multiReservationCommitDeferred ("source_ledger_transaction " ++
    r.sourceTransaction.text ++ " created " ++ toString n ++
    " reservations; CommitEstimatedSet RPC is a future slice"))
  let e ← found (db.reserveEntry tenant reservation)
    (.internal ("no reserved_hold credit entry for reservation " ++ reservation.text))
  found (reservationContext r source e) (.internal "unexpected null")

def recoverReservationCtx (w : World) (env : CallEnv) (reservation : Uuid) :
    Except DomainError ReservationCtx × World :=
  match w.sidecar.reservationCache.lookup reservation with
  | some ctx => (.ok ctx, w)
  | none =>
    if env.queryReachable then
      match queryReservationContext w.ledger w.sidecar.tenant reservation with
      | .error e => (.error e, w)
      | .ok ctx => (.ok ctx, { w with sidecar := { w.sidecar with
          reservationCache := (reservation, ctx) :: w.sidecar.reservationCache } })
    else (.error (.ledgerClient "unavailable"), w)

def routeCommit (parseUuid : String → Option Uuid) (p : LlmCallPostPayload) : Except DomainError Uuid := do
  check (p.outcome = .success)
    (.invalidRequest "LLM_CALL_POST outcome requires Release path (deferred this slice)")
  check (p.providerReportedAmount = "" ∨ p.estimatedAmount = "") (.invalidRequest
    "estimated_amount_atomic and provider_reported_amount_atomic are mutually exclusive")
  check (p.providerReportedAmount = "") (.invalidRequest
    "ProviderReport path is deferred to a future slice; emit estimated_amount_atomic instead")
  check (p.estimatedAmount ≠ "") (.invalidRequest "LLM_CALL_POST.SUCCESS missing estimated_amount_atomic")
  found (parseUuid p.reservation) (.invalidRequest "reservation_id parse")

/-- The checks on a commit once its reservation is known; the result is the fencing to post under and
the amount. -/
def checkCommit (s : SidecarState) (reservation : Uuid) (ctx : ReservationCtx) (p : LlmCallPostPayload) :
    Except DomainError (ActiveFencing × ℤ) := do
  check (ctx.currentState = .reserved) (.reservationStateConflict ("reservation " ++ reservation.text ++
    " current_state=" ++ ctx.currentState.text ++ " (expected reserved)"))
  let f ← found s.fencing (.fencingAcquire "no active fencing scope")
  check (f.epoch = ctx.fencingEpochAtPost) (.fencingEpochStale ("current epoch " ++ toString f.epoch ++
    " differs from reserve-time epoch " ++ toString ctx.fencingEpochAtPost ++
    " (sidecar restart between reserve and commit; reservation will TTL-release)"))
  check (∀ u ∈ p.unit, u = ctx.unit.text) (.invalidRequest ("payload.unit_id " ++ p.unit.getD "" ++
    " does not match reservation " ++ ctx.unit.text))
  check (∀ x ∈ p.pricing, x = ctx.pricing)
    (.pricingFreezeMismatch "payload pricing tuple differs from original reservation")
  let estimated ← found p.estimatedAmount.toInt? (.invalidRequest "estimated_amount_atomic parse")
  check (0 < estimated) (.invalidRequest "estimated_amount_atomic must be > 0")
  check (estimated ≤ ctx.originalReserved) (.overrunReservation ("estimated " ++ toString estimated ++
    " exceeds original_reserved " ++ toString ctx.originalReserved))
  return (f, estimated)

def commitRequestHash (tenant reservation : Uuid) (estimated : ℤ) (ctx : ReservationCtx) : Bytes :=
  (sha256Hex ("v1:commit_estimated:business_intent:" ++ tenant.text ++ "|reservation|" ++
    reservation.text ++ "|estimated|" ++ toString estimated ++ "|unit|" ++ ctx.unit.text ++ "|pricing|" ++
    ctx.pricing.version ++ toString ctx.pricing.snapshotHash ++ ctx.pricing.fxRateVersion ++
    ctx.pricing.unitConversionVersion ++ "|decision|" ++ ctx.decision.text)).toUTF8.toList

def commitPost (s : SidecarState) (env : CallEnv) (reservation : Uuid) (ctx : ReservationCtx)
    (f : ActiveFencing) (estimated : ℤ) : CommitPost where
  transaction :=
    { id := env.transaction
      tenant := s.tenant
      idempotencyKey := "commit_estimated:" ++ reservation.text ++ ":1"
      requestHash := commitRequestHash s.tenant reservation estimated ctx
      decisionId := ctx.decision
      auditDecisionEventId := env.auditEvent
      fencingScope := ctx.fencingScope
      fencingEpoch := f.epoch
      workload := s.workload }
  unit := some ctx.unit
  reservation := reservation
  amount := estimated
  pricing := ⟨ctx.pricing.version, ctx.pricing.snapshotHash, some ctx.pricing.fxRateVersion,
    some ctx.pricing.unitConversionVersion⟩
  audit := ⟨env.auditEvent, .outcome, s.lastSequence + 1⟩

/-- `CommitEstimated` as far as it can refuse what the sidecar sends; then the stored procedure. -/
def commitEstimatedHandler (now : ℕ) (db : Db) (r : CommitPost) : Except DomainError (Uuid × Db) := do
  check (r.transaction.workload ≠ "")
    (.invalidRequest "fencing.scope_id + workload_instance_id required")
  check (r.transaction.fencingEpoch ≠ 0) (.fencingEpochStale "epoch 0 is not a valid lease")
  check (r.pricing.version ≠ "" ∧ r.pricing.snapshotHash ≠ [])
    (.invalidRequest "pricing.pricing_version + price_snapshot_hash required")
  (exec now (postCommitEstimatedTransaction r) db).mapError .ledger

def SidecarState.evict (s : SidecarState) (reservation decision : Uuid) : SidecarState :=
  { s with
    reservationCache := s.reservationCache.filter fun p => p.1 ≠ reservation
    decisionToReservation := s.decisionToReservation.filter fun p => p.1 ≠ decision }

def postCommit (w : World) (env : CallEnv) (reservation : Uuid) (ctx : ReservationCtx)
    (f : ActiveFencing) (estimated : ℤ) : Except DomainError Uuid × World :=
  let s := { w.sidecar with lastSequence := w.sidecar.lastSequence + 1 }
  if env.postReachable then
    match commitEstimatedHandler env.now w.ledger (commitPost w.sidecar env reservation ctx f estimated) with
    | .ok (id, db) => (.ok id, ⟨s.evict reservation ctx.decision, db⟩)
    | .error e => (.error e, { w with sidecar := s })
  else (.error (.ledgerClient "unavailable"), { w with sidecar := s })

def commitWithContext (w : World) (env : CallEnv) (reservation : Uuid) (ctx : ReservationCtx)
    (p : LlmCallPostPayload) : Except DomainError Uuid × World :=
  match checkCommit w.sidecar reservation ctx p with
  | .error e => (.error e, w)
  | .ok (f, estimated) => postCommit w env reservation ctx f estimated

def runCommitEstimated (parseUuid : String → Option Uuid) (w : World) (env : CallEnv)
    (p : LlmCallPostPayload) : Except DomainError Uuid × World :=
  match routeCommit parseUuid p with
  | .error e => (.error e, w)
  | .ok reservation =>
    match recoverReservationCtx w env reservation with
    | (.error e, w) => (.error e, w)
    | (.ok ctx, w) => commitWithContext w env reservation ctx p

structure CommitPasses (s : SidecarState) (ctx : ReservationCtx) (p : LlmCallPostPayload)
    (f : ActiveFencing) (estimated : ℤ) : Prop where
  reserved : ctx.currentState = .reserved
  fencing : s.fencing = some f
  epoch : f.epoch = ctx.fencingEpochAtPost
  unit : ∀ u ∈ p.unit, u = ctx.unit.text
  pricing : ∀ x ∈ p.pricing, x = ctx.pricing
  parsed : p.estimatedAmount.toInt? = some estimated
  positive : 0 < estimated
  within : estimated ≤ ctx.originalReserved

theorem checkCommit_eq_ok {s : SidecarState} {reservation : Uuid} {ctx : ReservationCtx}
    {p : LlmCallPostPayload} {f : ActiveFencing} {n : ℤ} :
    checkCommit s reservation ctx p = .ok (f, n) ↔ CommitPasses s ctx p f n := by
  simp only [checkCommit, check_bind_eq_ok, found_bind_eq_ok]
  constructor
  · rintro ⟨hreserved, f', hf, hepoch, hunit, hpricing, n', hn, hpos, hle, heq⟩
    cases heq
    exact ⟨hreserved, hf, hepoch, hunit, hpricing, hn, hpos, hle⟩
  · intro h
    exact ⟨h.reserved, f, h.fencing, h.epoch, h.unit, h.pricing, n, h.parsed, h.positive, h.within, rfl⟩

theorem commitEstimatedHandler_eq_ok {now : ℕ} {db : Db} {r : CommitPost} {a : Uuid × Db} :
    commitEstimatedHandler now db r = .ok a ↔ r.transaction.workload ≠ "" ∧ r.transaction.fencingEpoch ≠ 0 ∧
      (r.pricing.version ≠ "" ∧ r.pricing.snapshotHash ≠ []) ∧
      exec now (postCommitEstimatedTransaction r) db = .ok a := by
  simp only [commitEstimatedHandler, check_bind_eq_ok]
  cases exec now (postCommitEstimatedTransaction r) db <;> simp [Except.mapError]

theorem recoverReservationCtx_snd (w : World) (env : CallEnv) (reservation : Uuid) :
    ∃ cache, (recoverReservationCtx w env reservation).2 =
      { w with sidecar := { w.sidecar with reservationCache := cache } } := by
  unfold recoverReservationCtx
  split
  · exact ⟨_, rfl⟩
  · split
    · split <;> exact ⟨_, rfl⟩
    · exact ⟨_, rfl⟩

section Ledger

variable {w : World} {env : CallEnv} {reservation : Uuid} {ctx : ReservationCtx} {f : ActiveFencing}
  {estimated : ℤ} {parseUuid : String → Option Uuid} {p : LlmCallPostPayload}

end Ledger

end SpendGuard.Sidecar
