import SpendGuard.Sidecar.Commit

/-!
The sidecar's side of `EmitTraceEvents` and `ConfirmPublishOutcome`.
-/

namespace SpendGuard.Sidecar

open Base Base.Proc Ledger

inductive ReleaseReason
  | runtimeError
  | runAborted
  deriving DecidableEq

def ReleaseReason.text : ReleaseReason → String
  | .runtimeError => "RUNTIME_ERROR"
  | .runAborted => "RUN_ABORTED"

def checkActive (now : ℕ) (f : ActiveFencing) : Except DomainError Unit :=
  check (now ≤ f.ttlExpiresAt) (.fencingEpochStale ("fencing scope " ++ f.scope.text ++ " TTL expired at " ++
    toString f.ttlExpiresAt))

/-- A reservation already released is let through for the ledger to replay. -/
def checkRelease (s : SidecarState) (now : ℕ) (reservation : Uuid) (ctx : ReservationCtx) :
    Except DomainError ActiveFencing := do
  check (ctx.currentState = .reserved ∨ ctx.currentState = .released) (.reservationStateConflict
    ("reservation " ++ reservation.text ++ " current_state=" ++ ctx.currentState.text ++
      " (expected reserved or released for release)"))
  let f ← found s.fencing (.fencingAcquire "no active fencing scope")
  if ctx.currentState = .released then return f
  else do
    checkActive now f
    check (f.epoch = ctx.fencingEpochAtPost) (.fencingEpochStale ("current epoch " ++ toString f.epoch ++
      " differs from reserve-time epoch " ++ toString ctx.fencingEpochAtPost ++
      "; reservation will TTL-release"))
    return f

def releasePost (s : SidecarState) (env : CallEnv) (reservation : Uuid) (ctx : ReservationCtx)
    (f : ActiveFencing) (reason : ReleaseReason) : ReleasePost where
  transaction :=
    { id := env.transaction
      tenant := s.tenant
      idempotencyKey := "release:" ++ reservation.text ++ ":1"
      requestHash := (sha256Hex ("v1:release:business_intent:" ++ s.tenant.text ++ "|reservation_set|" ++
        (ctx.decision.digest ":reservation_set").text ++ "|decision|" ++ ctx.decision.text ++ "|reason|" ++
        reason.text)).toUTF8.toList
      decisionId := ctx.decision
      auditDecisionEventId := env.auditEvent
      fencingScope := ctx.fencingScope
      fencingEpoch := f.epoch
      workload := s.workload }
  reason := reason.text
  audit := ⟨env.auditEvent, .outcome, s.lastSequence + 1⟩

def releaseHandler (now : ℕ) (db : Db) (r : ReleasePost) : Except DomainError (Uuid × Db) := do
  check (r.transaction.workload ≠ "")
    (.invalidRequest "fencing.scope_id + workload_instance_id required")
  check (r.transaction.fencingEpoch ≠ 0) (.fencingEpochStale "epoch 0 is not a valid lease")
  (exec now (postReleaseTransaction r) db).mapError .ledger

def runRelease (w : World) (env : CallEnv) (reservation : Uuid) (reason : ReleaseReason) :
    Except DomainError Uuid × World :=
  match recoverReservationCtx w env reservation with
  | (.error e, w) => (.error e, w)
  | (.ok ctx, w) =>
    match checkRelease w.sidecar env.now reservation ctx with
    | .error e => (.error e, w)
    | .ok f =>
      let s := { w.sidecar with lastSequence := w.sidecar.lastSequence + 1 }
      if env.postReachable then
        match releaseHandler env.now w.ledger (releasePost w.sidecar env reservation ctx f reason) with
        | .ok (id, db) => (.ok id, ⟨s.evict reservation ctx.decision, db⟩)
        | .error e => (.error e, { w with sidecar := s })
      else (.error (.ledgerClient "unavailable"), { w with sidecar := s })

section Serve

variable (parseUuid : String → Option Uuid)

/-- An `LLM_CALL_POST` is routed by its outcome; every error becomes a rejected acknowledgement. -/
def routeLlmCallPost (w : World) (env : CallEnv) (p : LlmCallPostPayload) :
    Except DomainError Uuid × World :=
  match p.outcome with
  | .success => runCommitEstimated parseUuid w env p
  | .unspecified => (.error (.invalidRequest "LLM_CALL_POST outcome=UNSPECIFIED"), w)
  | outcome =>
    match parseUuid p.reservation with
    | none => (.error (.invalidRequest "reservation_id parse"), w)
    | some reservation =>
      runRelease w env reservation (if outcome = .runAborted then .runAborted else .runtimeError)

def emitTraceEvent (w : World) (env : CallEnv) (e : TraceEvent) : AckStatus × World :=
  match routeLlmCallPost parseUuid w env e.payload with
  | (.ok _, w) => (.accepted, w)
  | (.error _, w) => (.rejected, w)

/-- Only `APPLY_FAILED` has an effect. -/
def confirmPublishOutcome (w : World) (env : CallEnv) (r : PublishOutcomeRequest) :
    Except Status SidecarReply × World :=
  match r.outcome with
  | .applied => (.ok .confirmed, w)
  | .applyFailed =>
    match parseUuid r.decision with
    | none => (.error ⟨"decision_id parse"⟩, w)
    | some decision =>
      match w.sidecar.decisionToReservation.lookup decision with
      | none => (.error ⟨"reservation context lost (sidecar restart); reservation will TTL-release"⟩, w)
      | some reservation =>
        match runRelease w env reservation .runtimeError with
        | (.ok _, w) => (.ok .confirmed, w)
        | (.error _, w) => (.error ⟨"release failed"⟩, w)

inductive Answer
  | lost
  | silent
  | delivered
  deriving DecidableEq

/-- The way a call goes: whether the sidecar gets to process it, and what becomes of the answer. -/
structure Delivery where
  env : CallEnv
  processed : Bool
  answer : Answer

def serve (w : World) (rpc : SidecarRpc) (d : Delivery) : Except Status SidecarReply × World :=
  match rpc with
  | .emitTraceEvents e =>
    let (ack, w) := if d.processed then Prod.map some id (emitTraceEvent parseUuid w d.env e) else (none, w)
    match d.answer with
    | .lost => (.error ⟨"transport error"⟩, w)
    | .silent => (.ok (.ack none), w)
    | .delivered => (.ok (.ack ack), w)
  | .confirmPublishOutcome r =>
    if d.processed then
      let (answer, w) := confirmPublishOutcome parseUuid w d.env r
      if d.answer = .delivered then (answer, w) else (.error ⟨"transport error"⟩, w)
    else (.error ⟨"transport error"⟩, w)

end Serve

end SpendGuard.Sidecar
