import Mathlib
import SpendGuard.Base.Check

/-!
The projection of a run's cost from the steps that it has taken: the length of earlier runs, the drift from
step to step, and the plan that the caller announces.
-/

namespace SpendGuard.Projector

open Base

def maxI64 : ℤ := 2 ^ 63 - 1

def maxI32 : ℤ := 2 ^ 31 - 1

def saturate (n : ℤ) : ℤ := max (-2 ^ 63) (min maxI64 n)

def remainingOf (steps completed : ℤ) : ℤ := min (max (steps - completed) 0) maxI32

structure ProjectRequest where
  agentId : String
  model : String
  decisionId : String
  thisCallReservationAtomic : ℤ
  budgetRemainingAtomic : ℤ
  plannedStepsHint : ℤ
  deriving DecidableEq

def validateProjectRequest (req : ProjectRequest) : Except String Unit := do
  check (req.agentId ≠ "") "agent_id required"
  check (req.agentId.utf8ByteSize ≤ 256) "agent_id exceeds 256 bytes"
  check (req.model.utf8ByteSize ≤ 128) "model exceeds 128 bytes"
  check (req.decisionId.utf8ByteSize ≤ 64) "decision_id exceeds 64 bytes"
  check (0 ≤ req.thisCallReservationAtomic) "this_call_reservation_atomic must be non-negative"
  check (0 ≤ req.budgetRemainingAtomic) "budget_remaining_atomic must be non-negative"
  check (0 ≤ req.plannedStepsHint ∧ req.plannedStepsHint ≤ 10000) "planned_steps_hint must be in 0..=10000"

theorem reservation_nonneg {req : ProjectRequest} {u : Unit} (h : validateProjectRequest req = .ok u) :
    0 ≤ req.thisCallReservationAtomic := by
  obtain ⟨-, h⟩ := check_bind_eq_ok.mp h
  obtain ⟨-, h⟩ := check_bind_eq_ok.mp h
  obtain ⟨-, h⟩ := check_bind_eq_ok.mp h
  obtain ⟨-, h⟩ := check_bind_eq_ok.mp h
  exact (check_bind_eq_ok.mp h).1

/-- `max(0.0) as i32` of a float with the given bits. -/
def floatSteps (bits : UInt32) : ℤ :=
  let exponent := bits.toNat / 2 ^ 23 % 2 ^ 8
  let mantissa := bits.toNat % 2 ^ 23
  if bits.toNat / 2 ^ 31 = 1 then 0
  else if exponent = 255 then if mantissa = 0 then maxI32 else 0
  else if exponent = 0 then 0
  else min maxI32 ((2 ^ 23 + mantissa) * 2 ^ exponent / 2 ^ 150 : ℕ)

def signal1FromP95 (p95 : Option UInt32) (stepsCompleted coldStartRunLength : ℤ) : ℤ × Bool :=
  match p95 with
  | some bits => (remainingOf (floatSteps bits) stepsCompleted, false)
  | none => (remainingOf coldStartRunLength stepsCompleted, true)

structure ProjectorConfig where
  coldStartRunLength : ℤ
  driftConsecutiveThreshold : ℕ
  /-- The quotient of two costs is off by more than `drift_ratio_threshold`. -/
  outOfTolerance : ℤ → ℤ → Bool

inductive DriftVerdict
  | noDrift
  | suspect
  | confirmed
  deriving DecidableEq

def evaluateDrift (cfg : ProjectorConfig) (now : ℤ) (last : Option ℤ) (count : ℕ) : DriftVerdict × ℕ :=
  match last with
  | none => (.noDrift, 0)
  | some prior =>
    if prior ≤ 0 then (.noDrift, 0)
    else if cfg.outOfTolerance now prior then
      let newCount := min (count + 1) (2 ^ 32 - 1)
      (if cfg.driftConsecutiveThreshold ≤ newCount then .confirmed else .suspect, newCount)
    else (.noDrift, 0)

def computeProjection (cumulative thisCall remainingCost : ℤ) : ℤ :=
  saturate (saturate (cumulative + thisCall) + remainingCost)

def applySignal3Override (signal1Steps hint stepsCompleted : ℤ) : ℤ :=
  if hint ≤ 0 then signal1Steps else remainingOf hint stepsCompleted

def stepsExceeded (hint stepsCompleted : ℤ) : Bool := 0 < hint && hint < stepsCompleted

inductive RunCode
  | budgetProjectionExceeded
  | stepsExceeded
  | driftDetected
  deriving DecidableEq

def RunCode.asStr : RunCode → String
  | .budgetProjectionExceeded => "RUN_BUDGET_PROJECTION_EXCEEDED"
  | .stepsExceeded => "RUN_STEPS_EXCEEDED"
  | .driftDetected => "RUN_DRIFT_DETECTED"

inductive StrategyUsed
  | unspecified
  | coldStart
  | s1
  | s1s2
  | s3
  | s1s2s3
  deriving DecidableEq

structure LayeringInputs where
  cumulativeCostAtomic : ℤ
  thisCallReservationAtomic : ℤ
  stepsCompleted : ℤ
  budgetRemainingAtomic : ℤ
  signal1PredictedRemainingSteps : ℤ
  signal1IsColdStart : Bool
  plannedStepsHint : ℤ
  driftConfirmed : Bool
  perStepBaselineAtomic : ℤ

structure LayeringResult where
  projectionAtomic : ℤ
  predictedRemainingSteps : ℤ
  stepsCompletedSoFar : ℤ
  predictedRemainingCostAtomic : ℤ
  strategyUsed : StrategyUsed
  emittedCode : Option RunCode
  consideredCodes : List RunCode

def computeLayering (i : LayeringInputs) : LayeringResult :=
  let signal3Active := decide (0 < i.plannedStepsHint)
  let remainingSteps :=
    if signal3Active then applySignal3Override i.signal1PredictedRemainingSteps i.plannedStepsHint i.stepsCompleted
    else i.signal1PredictedRemainingSteps
  let remainingCost := saturate (remainingSteps * max i.perStepBaselineAtomic 0)
  let futureCommitment := saturate (i.thisCallReservationAtomic + remainingCost)
  let considered :=
    (if futureCommitment > i.budgetRemainingAtomic then [.budgetProjectionExceeded] else []) ++
    (if signal3Active && stepsExceeded i.plannedStepsHint i.stepsCompleted then [.stepsExceeded] else []) ++
    (if i.driftConfirmed then [.driftDetected] else [])
  { projectionAtomic := computeProjection i.cumulativeCostAtomic i.thisCallReservationAtomic remainingCost
    predictedRemainingSteps := remainingSteps
    stepsCompletedSoFar := i.stepsCompleted
    predictedRemainingCostAtomic := remainingCost
    strategyUsed :=
      match signal3Active, i.signal1IsColdStart with
      | true, true => .s3
      | true, false => .s1s2s3
      | false, true => .coldStart
      | false, false => .s1s2
    emittedCode :=
      if RunCode.budgetProjectionExceeded ∈ considered then some .budgetProjectionExceeded
      else if RunCode.stepsExceeded ∈ considered then some .stepsExceeded
      else if RunCode.driftDetected ∈ considered then some .driftDetected
      else none
    consideredCodes := considered }

structure ProjectResponse where
  runProjectionAtDecisionAtomic : ℤ
  runPredictedRemainingSteps : ℤ
  runStepsCompletedSoFar : ℤ
  strategyUsed : StrategyUsed
  emittedCode : String
  consideredCodes : List String
  /-- The bits of the float. -/
  projectionConfidence : UInt32
  deriving DecidableEq

structure View where
  cumulativeCostAtomic : ℤ := 0
  stepsCompleted : ℤ := 0
  lastPredictedRemainingCost : Option ℤ := none
  driftConsecutiveCount : ℕ := 0
  signal3HintPlannedSteps : Option ℤ := none
  deriving DecidableEq

/-- A request and what the query for the length of earlier runs has brought; `none` if it failed. -/
structure ProjectCall where
  request : ProjectRequest
  p95 : Option (Option UInt32)

structure Outcome where
  response : ProjectResponse
  predictedRemainingCostAtomic : ℤ
  newDriftCount : ℕ
  effectiveHint : ℤ

def project (cfg : ProjectorConfig) (v : View) (call : ProjectCall) : Outcome :=
  let req := call.request
  let effectiveHint := v.signal3HintPlannedSteps.getD (if 0 < req.plannedStepsHint then req.plannedStepsHint else 0)
  let (steps, isCold) :=
    match call.p95 with
    | none => (cfg.coldStartRunLength, true)
    | some p95 => signal1FromP95 p95 v.stepsCompleted cfg.coldStartRunLength
  let inputs : LayeringInputs :=
    { cumulativeCostAtomic := v.cumulativeCostAtomic
      thisCallReservationAtomic := req.thisCallReservationAtomic
      stepsCompleted := v.stepsCompleted
      budgetRemainingAtomic := req.budgetRemainingAtomic
      signal1PredictedRemainingSteps := steps
      signal1IsColdStart := isCold
      plannedStepsHint := effectiveHint
      driftConfirmed := false
      perStepBaselineAtomic := req.thisCallReservationAtomic }
  let provisional := computeLayering inputs
  let (verdict, newDriftCount) := evaluateDrift cfg provisional.predictedRemainingCostAtomic
    v.lastPredictedRemainingCost v.driftConsecutiveCount
  let result := computeLayering { inputs with driftConfirmed := decide (verdict = .confirmed) }
  { response :=
      { runProjectionAtDecisionAtomic := result.projectionAtomic
        runPredictedRemainingSteps := result.predictedRemainingSteps
        runStepsCompletedSoFar := result.stepsCompletedSoFar
        strategyUsed := result.strategyUsed
        emittedCode := (result.emittedCode.map RunCode.asStr).getD ""
        consideredCodes := result.consideredCodes.map RunCode.asStr
        projectionConfidence := if isCold then 0x3f000000 else 0x3f666666 }
    predictedRemainingCostAtomic := result.predictedRemainingCostAtomic
    newDriftCount
    effectiveHint }

end SpendGuard.Projector
