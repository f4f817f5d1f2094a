import SpendGuard.Base.Json
import SpendGuard.Ledger.Schema

/-!
The `RequestDecision` call: its messages, with the defaults proto3 gives to what a caller leaves out.
-/

namespace SpendGuard.Sidecar

open Base Ledger

inductive UnitKind
  | unspecified
  | monetary
  | token
  | credit
  | nonMonetary
  deriving DecidableEq

structure UnitRef where
  unitId : String := ""
  kind : UnitKind := .unspecified
  currency : String := ""
  unitName : String := ""
  tokenKind : String := ""
  modelFamily : String := ""
  creditProgram : String := ""
  deriving DecidableEq

inductive Direction
  | unspecified
  | debit
  | credit
  deriving DecidableEq

structure BudgetClaim where
  budgetId : String := ""
  unit : Option UnitRef := none
  amountAtomic : String := ""
  direction : Direction := .unspecified
  windowInstanceId : String := ""
  deriving DecidableEq

structure TraceContext where
  traceId : String := ""
  spanId : String := ""
  parentSpanId : String := ""
  traceState : String := ""
  deriving DecidableEq

structure SpendGuardIds where
  runId : String := ""
  stepId : String := ""
  llmCallId : String := ""
  toolCallId : String := ""
  decisionId : String := ""
  snapshotId : String := ""
  deriving DecidableEq

structure Idempotency where
  key : String := ""
  requestHash : Bytes := []
  deriving DecidableEq

/-- What the adapter predicts of the call; the confidence is given by its bits. -/
structure ClaimEstimate where
  tokenizerTier : String := ""
  tokenizerVersionId : String := ""
  inputTokens : ℤ := 0
  predictedATokens : ℤ := 0
  predictedBTokens : ℤ := 0
  predictedCTokens : ℤ := 0
  reservedStrategy : String := ""
  predictionStrategyUsed : String := ""
  predictionPolicyUsed : String := ""
  predictionConfidence : UInt32 := 0
  predictionSampleSize : ℤ := 0
  coldStartLayerUsed : String := ""
  classifierVersion : String := ""
  fingerprintVersion : String := ""
  promptClassFingerprint : String := ""
  runProjectionAtDecisionAtomic : ℤ := 0
  runPredictedRemainingSteps : ℤ := 0
  runStepsCompletedSoFar : ℤ := 0
  runCodeTriggered : String := ""
  model : String := ""
  promptClass : String := ""
  deriving DecidableEq

inductive Trigger
  | unspecified
  | runPre
  | agentStepPre
  | llmCallPre
  | toolCallPre
  deriving DecidableEq

inductive ReservationSource
  | unspecified
  | byok
  | subscriptionMeter
  deriving DecidableEq

structure Inputs where
  projectedClaims : List BudgetClaim := []
  projectedP50Atomic : String := ""
  projectedP90Atomic : String := ""
  projectedP95Atomic : String := ""
  projectedP99Atomic : String := ""
  projectedUnit : Option UnitRef := none
  runtimeMetadata : Option (List (String × Json)) := none
  claimEstimate : Option ClaimEstimate := none

structure DecisionRequest where
  sessionId : String := ""
  trigger : Trigger := .unspecified
  trace : Option TraceContext := none
  ids : Option SpendGuardIds := none
  route : String := ""
  inputs : Option Inputs := none
  parentRunId : String := ""
  budgetGrantJti : String := ""
  idempotency : Option Idempotency := none
  plannedStepsHint : ℤ := 0
  reservationSource : ReservationSource := .unspecified
  meterOnlyEstimate : Bool := false

end SpendGuard.Sidecar
