import SpendGuard.Audit.Mirror

/-!
The prediction columns of `canonical_events`, against those that the trigger of `audit_outbox` writes.
-/

namespace SpendGuard.Canonical

open Base Ledger Audit

/-- How the ingest reads texts; `decimal3` is a float in thousandths. -/
structure Readers where
  fromSlice : List UInt8 → Option Json
  parseI64 : String → Option ℤ
  parseUuid : String → Option Uuid
  decimal3 : UInt32 → Option ℤ
  fromSlice_nil : fromSlice [] = none

def nonempty (s : String) : Option String := if s = "" then none else some s

def nonzeroI64 (n : ℤ) : Option ℤ := if n = 0 then none else some n

def nonzeroF32 (bits : UInt32) : Option UInt32 := if realIsZero bits = true then none else some bits

section Ingest

variable (rs : Readers)

def uuidNonempty (s : String) : Option Uuid := if s = "" then none else rs.parseUuid s

def jsonI64 (v : Json) : Option ℤ := v.asI64? <|> (v.asStr? >>= rs.parseI64)

/-- The count that the data state, if they are an object and it is a number there. -/
def statedCount (data : List UInt8) (key : String) : Option ℤ := rs.fromSlice data >>= (·.get? key) >>= jsonI64 rs

def outcomeActualToken (e : CloudEvent) (key : String) (extensionValue : Int64) : Option ℤ :=
  if e.type ≠ outcomeType then none
  else match statedCount rs e.data key with
    | some n => if 0 ≤ n then some n else none
    | none => if 0 < extensionValue.toInt then some extensionValue.toInt else none

def predictionColumnsFromEvent (e : CloudEvent) : PredictionColumns :=
  let isDecision := e.type = decisionType
  let isOutcome := e.type = outcomeType
  let projection := e.prediction.runProjectionAtDecisionAtomic.toInt
  let remaining := e.prediction.runPredictedRemainingSteps.toInt
  let steps := e.prediction.runStepsCompletedSoFar.toInt
  let projectorUnreachable := projection = 0 ∧ remaining = -1 ∧ steps = 0
  let projectorAbsentDefault := projection = 0 ∧ remaining = 0 ∧ steps = 0
  let noProjector := ¬isDecision ∨ projectorUnreachable ∨ projectorAbsentDefault
  { predictedATokens := if isDecision then nonzeroI64 e.prediction.predictedATokens.toInt else none
    predictedBTokens := if isDecision then nonzeroI64 e.prediction.predictedBTokens.toInt else none
    predictedCTokens := if isDecision then nonzeroI64 e.prediction.predictedCTokens.toInt else none
    reservedStrategy := if isDecision then nonempty e.prediction.reservedStrategy else none
    predictionStrategyUsed := if isDecision then nonempty e.prediction.predictionStrategyUsed else none
    predictionPolicyUsed := if isDecision then nonempty e.prediction.predictionPolicyUsed else none
    tokenizerTier := if isDecision then nonempty e.prediction.tokenizerTier else none
    tokenizerVersionId := if isDecision then uuidNonempty rs e.prediction.tokenizerVersionId else none
    predictionConfidence :=
      if isDecision then nonzeroF32 e.prediction.predictionConfidence >>= rs.decimal3 else none
    predictionSampleSize := if isDecision then nonzeroI64 e.prediction.predictionSampleSize.toInt else none
    coldStartLayerUsed := if isDecision then nonempty e.prediction.coldStartLayerUsed else none
    runProjectionAtDecisionAtomic := if noProjector then none else nonzeroI64 projection
    runPredictedRemainingSteps := if noProjector ∨ remaining = -1 then none else some remaining
    runStepsCompletedSoFar := if noProjector then none else some steps
    actualInputTokens := outcomeActualToken rs e "actual_input_tokens" e.prediction.actualInputTokens
    actualOutputTokens := outcomeActualToken rs e "actual_output_tokens" e.prediction.actualOutputTokens
    deltaBRatio := if isOutcome then nonzeroF32 e.prediction.deltaBRatio else none
    deltaCRatio := if isOutcome then nonzeroF32 e.prediction.deltaCRatio else none }

end Ingest

def isFinite (bits : UInt32) : Bool := bits.toNat % 2 ^ 31 < 0x7f800000

section Decision

variable {fl : FloatText} {pg : Postgres} {rs : Readers} {e : CloudEvent}

end Decision

section Outcome

variable {fl : FloatText} {pg : Postgres} {rs : Readers} {e : CloudEvent}

end Outcome

def namedUuid (s : String) : Option Uuid := if s = "latest" then none else anyUuid s

def plainReaders : Readers where
  fromSlice _ := none
  parseI64 := String.toInt?
  parseUuid := namedUuid
  decimal3 _ := some 0
  fromSlice_nil := rfl

end SpendGuard.Canonical
