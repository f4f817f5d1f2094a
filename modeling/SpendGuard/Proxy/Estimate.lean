import SpendGuard.Base.Check
import SpendGuard.Proxy.Forward
import SpendGuard.Sidecar.Request

/-!
How many tokens the proxy reserves for a call, and how that compares with what it commits afterwards.
-/

namespace SpendGuard.Proxy

open Base Sidecar

structure PredictRequest where
  tenantId : String
  model : String
  agentId : String
  promptClass : String
  inputTokens : ℤ
  maxTokensRequested : ℤ
  modelContextWindow : ℤ
  predictionPolicy : String
  decisionId : String
  runId : String
  promptClassFingerprint : String

structure PredictResponse where
  predictedATokens : ℤ
  predictedBTokens : Option ℤ
  predictedCTokens : Option ℤ
  reservedStrategy : String
  predictionStrategyUsed : String
  confidence : Option UInt32
  sampleSize : Option ℤ
  coldStartLayerUsed : Option String
  classifierVersion : String
  fingerprintVersion : String
  promptClassFingerprintUsed : String
  predictionPolicyUsed : String

inductive Strategy
  | a
  | b
  | c
  deriving DecidableEq

def Strategy.text : Strategy → String
  | .a => "A"
  | .b => "B"
  | .c => "C"

def saturatingSub (x y : ℤ) : ℤ := max (-2 ^ 63) (min (2 ^ 63 - 1) (x - y))

def computeA (maxTokensRequested modelContextWindow inputTokens : ℤ) : ℤ :=
  let headroom := saturatingSub modelContextWindow inputTokens
  let candidate := if 0 < maxTokensRequested then min maxTokensRequested headroom else headroom
  if candidate ≤ 0 then 1 else candidate

def preferCThenBThenA (c b : Option ℤ) : Strategy :=
  if c.isSome then .c else if b.isSome then .b else .a

def selectStrategy (policy : String) (b c : Option ℤ) : Strategy × Strategy :=
  let prefer := preferCThenBThenA c b
  if policy = "STRICT_CEILING" then (.a, prefer)
  else if policy = "EMPIRICAL_RUN_CEILING" then (.a, prefer)
  else if policy = "ADAPTIVE_CEILING" then (prefer, prefer)
  else (.a, .a)

structure PredictionB where
  value : ℤ
  confidence : UInt32
  sampleSize : ℤ
  layer : Option String

structure PredictionC where
  predictedOutputTokens : ℤ
  confidence : UInt32
  sampleSize : ℤ

def coldStartLayerUsed (b : Option PredictionB) : Option String :=
  match b with
  | none => some "L1"
  | some p =>
    match p.layer with
    | none => some "L1"
    | some layer => if layer = "L4" then none else some layer

/-- A deployed predictor: its table of context windows, and the answers it gives. -/
structure OutputPredictor where
  windows : String → Option ℤ
  unknownModelContextWindow : ℤ
  fingerprint : String → String → String
  predict : PredictRequest → Except String PredictResponse

namespace OutputPredictor

def contextWindow (o : OutputPredictor) (req : PredictRequest) : ℤ :=
  if 0 < req.modelContextWindow then req.modelContextWindow
  else (o.windows req.model).getD o.unknownModelContextWindow

def respond (o : OutputPredictor) (req : PredictRequest) (b : Option PredictionB)
    (c : Option PredictionC) : PredictResponse :=
  let selected := selectStrategy req.predictionPolicy (b.map (·.value)) (c.map (·.predictedOutputTokens))
  { predictedATokens := computeA req.maxTokensRequested (o.contextWindow req) req.inputTokens
    predictedBTokens := b.map (·.value)
    predictedCTokens := c.map (·.predictedOutputTokens)
    reservedStrategy := selected.1.text
    predictionStrategyUsed := selected.2.text
    confidence := match selected.2 with
      | .a => none
      | .b => b.map (·.confidence)
      | .c => c.map (·.confidence)
    sampleSize := match selected.2 with
      | .a => none
      | .b => b.map (·.sampleSize)
      | .c => c.map (·.sampleSize)
    coldStartLayerUsed := coldStartLayerUsed b
    classifierVersion := "v1alpha1"
    fingerprintVersion := "v1"
    promptClassFingerprintUsed :=
      if req.promptClassFingerprint = "" then o.fingerprint req.model req.promptClass
      else req.promptClassFingerprint
    predictionPolicyUsed := req.predictionPolicy }

/-- Every answer is one that the service computes; it may refuse or time out at will. -/
def Serves (o : OutputPredictor) : Prop :=
  ∀ req p, o.predict req = .ok p → ∃ b c, p = o.respond req b c

end OutputPredictor

structure Message where
  role : String
  content : String

structure TokenizeResponse where
  inputTokens : ℤ := 0
  tier : String := ""
  tokenizerVersionId : String := ""

structure ProjectRequest where
  tenantId : String
  runId : String
  agentId : String
  model : String
  stepId : String
  decisionId : String
  thisCallReservationAtomic : ℤ
  unitId : String
  budgetRemainingAtomic : ℤ
  plannedStepsHint : ℤ
  plannedToolsHint : ℤ

structure ProjectResponse where
  runProjectionAtDecisionAtomic : ℤ
  runPredictedRemainingSteps : ℤ
  runStepsCompletedSoFar : ℤ
  emittedCode : String

structure Estimators where
  tokenize : String → List Message → Except String TokenizeResponse
  predictor : Option OutputPredictor
  projector : Option (ProjectRequest → Except String ProjectResponse)

structure EstimateInputs where
  body : Json
  model : String
  tenantId : String
  agentId : String
  runId : String
  decisionId : String
  stepId : String
  predictionPolicy : String
  headerOverrideTokens : Option ℤ
  plannedStepsHint : ℤ

def classifyPrompt (body : Json) : String :=
  let hasTools := (body.get? "tools").isSome || (body.get? "tool_choice").isSome
  let totalChars : ℕ := match body.get? "messages" >>= Json.asArr? with
    | some messages =>
      let contents := (messages.filterMap (·.get? "content")).filterMap Json.asStr?
      (contents.map String.utf8ByteSize).sum
    | none => 0
  if hasTools then "tool_calling" else if 4000 < totalChars then "chat_long" else "chat_short"

def serializeMessagesForTokenizer (body : Json) : List Message :=
  match body.get? "messages" >>= Json.asArr? with
  | none => []
  | some items => items.map fun m =>
    ⟨(m.get? "role" >>= Json.asStr?).getD "user", (m.get? "content" >>= Json.asStr?).getD ""⟩

def inputTokensWithOverride (r : TokenizeResponse) (headerOverride : Option ℤ) : ℤ :=
  match headerOverride with
  | some v => max v 1
  | none => max r.inputTokens 1

def maxTokensRequested (body : Json) : ℤ :=
  ((body.get? "max_tokens" <|> body.get? "max_output_tokens") >>= Json.asI64?).getD 0

def startsWith (s start : String) : Bool := start.toList.isPrefixOf s.toList

def lookupModelContextWindow (model : String) : ℤ :=
  let m := model.toLower
  if startsWith m "gpt-4o" || startsWith m "o1" || startsWith m "o3" then 128000
  else if startsWith m "gpt-4-turbo" then 128000
  else if startsWith m "gpt-4" then 8192
  else if startsWith m "gpt-3.5-turbo" then 16385
  else if startsWith m "claude-3-5" || startsWith m "claude-3" then 200000
  else if startsWith m "gemini-1.5" then 1000000
  else 8000

def computeStrategyALocal (inputTokens maxTokensRequested modelContextWindow : ℤ) : ℤ :=
  let cwCeiling := max (modelContextWindow - inputTokens) 0
  let userCeiling := if 0 < maxTokensRequested then maxTokensRequested else 2 ^ 63 - 1
  max (min cwCeiling userCeiling) 1

def withProjection (e : ClaimEstimate) : Option ProjectResponse → ClaimEstimate
  | none => e
  | some p =>
    { e with
      runProjectionAtDecisionAtomic := p.runProjectionAtDecisionAtomic
      runPredictedRemainingSteps := p.runPredictedRemainingSteps
      runStepsCompletedSoFar := p.runStepsCompletedSoFar
      runCodeTriggered := p.emittedCode }

def buildEstimateFromPredictor (tok : TokenizeResponse) (inputTokens : ℤ) (model promptClass
    predictionPolicy : String) (predict : PredictResponse) (project : Option ProjectResponse) :
    ClaimEstimate :=
  withProjection
    { tokenizerTier := tok.tier
      tokenizerVersionId := tok.tokenizerVersionId
      inputTokens := inputTokens
      predictedATokens := predict.predictedATokens
      predictedBTokens := predict.predictedBTokens.getD 0
      predictedCTokens := predict.predictedCTokens.getD 0
      reservedStrategy := predict.reservedStrategy
      predictionStrategyUsed := predict.predictionStrategyUsed
      predictionPolicyUsed :=
        if predict.predictionPolicyUsed = "" then predictionPolicy else predict.predictionPolicyUsed
      predictionConfidence := predict.confidence.getD 0
      predictionSampleSize := predict.sampleSize.getD 0
      coldStartLayerUsed := predict.coldStartLayerUsed.getD ""
      classifierVersion := predict.classifierVersion
      fingerprintVersion := predict.fingerprintVersion
      promptClassFingerprint := predict.promptClassFingerprintUsed
      runPredictedRemainingSteps := -1
      model := model
      promptClass := promptClass } project

def buildEstimateFallbackA (tok : TokenizeResponse) (inputTokens : ℤ) (model promptClass : String)
    (strategyALocal : ℤ) (predictionPolicy : String) (project : Option ProjectResponse) : ClaimEstimate :=
  withProjection
    { tokenizerTier := tok.tier
      tokenizerVersionId := tok.tokenizerVersionId
      inputTokens := inputTokens
      predictedATokens := strategyALocal
      reservedStrategy := "A"
      predictionStrategyUsed := "A"
      predictionPolicyUsed := predictionPolicy
      runPredictedRemainingSteps := -1
      model := model
      promptClass := promptClass } project

namespace EstimateInputs

def tokenized (i : EstimateInputs) (s : Estimators) : TokenizeResponse :=
  match s.tokenize i.model (serializeMessagesForTokenizer i.body) with
  | .ok r => r
  | .error _ => { tier := "T3" }

def inputTokens (i : EstimateInputs) (s : Estimators) : ℤ :=
  inputTokensWithOverride (i.tokenized s) i.headerOverrideTokens

def predictRequest (i : EstimateInputs) (s : Estimators) : PredictRequest :=
  { tenantId := i.tenantId
    model := i.model
    agentId := i.agentId
    promptClass := classifyPrompt i.body
    inputTokens := i.inputTokens s
    maxTokensRequested := maxTokensRequested i.body
    modelContextWindow := lookupModelContextWindow i.model
    predictionPolicy := i.predictionPolicy
    decisionId := i.decisionId
    runId := i.runId
    promptClassFingerprint := "" }

def strategyALocal (i : EstimateInputs) (s : Estimators) : ℤ :=
  computeStrategyALocal (i.inputTokens s) (maxTokensRequested i.body) (lookupModelContextWindow i.model)

def projectRequest (i : EstimateInputs) (s : Estimators) : ProjectRequest :=
  { tenantId := i.tenantId
    runId := i.runId
    agentId := i.agentId
    model := i.model
    stepId := i.stepId
    decisionId := i.decisionId
    thisCallReservationAtomic := i.strategyALocal s
    unitId := ""
    budgetRemainingAtomic := 2 ^ 63 - 1
    plannedStepsHint := i.plannedStepsHint
    plannedToolsHint := 0 }

end EstimateInputs

def estimateCallCost (s : Estimators) (i : EstimateInputs) : ClaimEstimate :=
  let promptClass := classifyPrompt i.body
  let project := s.projector.bind fun project => (project (i.projectRequest s)).toOption
  match s.predictor.bind fun o => (o.predict (i.predictRequest s)).toOption with
  | some p =>
    buildEstimateFromPredictor (i.tokenized s) (i.inputTokens s) i.model promptClass i.predictionPolicy p
      project
  | none =>
    buildEstimateFallbackA (i.tokenized s) (i.inputTokens s) i.model promptClass (i.strategyALocal s)
      i.predictionPolicy project

/-- The amount `forward_openai_request` reserves. -/
def reservedTokens (e : ClaimEstimate) : ℤ :=
  if e.reservedStrategy = "B" ∧ 0 < e.predictedBTokens then e.predictedBTokens
  else if e.reservedStrategy = "C" ∧ 0 < e.predictedCTokens then e.predictedCTokens
  else max e.predictedATokens 1

section Covers

variable {s : Estimators} {i : EstimateInputs}

theorem one_le_inputTokens : 1 ≤ i.inputTokens s := by
  unfold EstimateInputs.inputTokens inputTokensWithOverride
  cases i.headerOverrideTokens <;> exact le_max_right _ _

theorem lookupModelContextWindow_bounds (model : String) :
    0 < lookupModelContextWindow model ∧ lookupModelContextWindow model ≤ 1000000 := by
  simp only [lookupModelContextWindow]
  split_ifs <;> decide

theorem computeA_eq {input limit window : ℤ} (hinput : 1 ≤ input) (hwindow : window < 2 ^ 63) :
    computeA limit window input = computeStrategyALocal input limit window := by
  simp only [computeA, computeStrategyALocal, saturatingSub]
  split_ifs <;> omega

theorem le_computeStrategyALocal_iff {input limit window total : ℤ} (hinput : 1 ≤ input)
    (hwindow : window < 2 ^ 63) :
    total ≤ computeStrategyALocal input limit window ↔
      total ≤ 1 ∨ input + total ≤ window ∧ (0 < limit → total ≤ limit) := by
  simp only [computeStrategyALocal]
  split_ifs <;> omega

theorem reservedTokens_withProjection (e : ClaimEstimate) (p : Option ProjectResponse) :
    reservedTokens (withProjection e p) = reservedTokens e := by
  cases p <;> rfl

theorem reservedTokens_estimateCallCost (hserves : ∀ o ∈ s.predictor, o.Serves)
    (hpolicy : i.predictionPolicy = "STRICT_CEILING") :
    reservedTokens (estimateCallCost s i) = i.strategyALocal s := by
  have hpositive : 1 ≤ i.strategyALocal s := le_max_right _ _
  unfold estimateCallCost
  cases hpredict : s.predictor.bind fun o => (o.predict (i.predictRequest s)).toOption with
  | none =>
    simp only [buildEstimateFallbackA, reservedTokens_withProjection]
    simpa [reservedTokens] using hpositive
  | some p =>
    obtain ⟨o, ho, hp⟩ := Option.bind_eq_some_iff.mp hpredict
    obtain ⟨b, c, rfl⟩ := hserves o ho _ p (toOption_eq_some.mp hp)
    have hceiling : computeA (maxTokensRequested i.body) (lookupModelContextWindow i.model)
        (i.inputTokens s) = i.strategyALocal s :=
      computeA_eq one_le_inputTokens ((lookupModelContextWindow_bounds i.model).2.trans_lt (by decide))
    simp only [buildEstimateFromPredictor, reservedTokens_withProjection]
    simp [reservedTokens, OutputPredictor.respond, OutputPredictor.contextWindow,
      EstimateInputs.predictRequest, selectStrategy, Strategy.text, hpolicy, hceiling, hpositive,
      (lookupModelContextWindow_bounds i.model).1]

structure Usage where
  promptTokens : ℤ
  completionTokens : ℤ
  totalTokens : ℤ

structure Usage.Respects (u : Usage) (s : Estimators) (i : EstimateInputs) : Prop where
  prompt : u.promptTokens = (i.tokenized s).inputTokens
  limit : 0 < maxTokensRequested i.body → u.completionTokens ≤ maxTokensRequested i.body
  window : u.promptTokens + u.completionTokens ≤ lookupModelContextWindow i.model
  total : u.totalTokens = u.promptTokens + u.completionTokens
  positive : 0 < u.totalTokens

variable {parseJson : String → Option Json} {c : Forwarded} {up : Upstream} {total : ℤ}

variable (parseJson c) in
inductive Reports : Upstream → ℤ → Prop
  | body {status chunks body total} : isSuccess status = true → wholeBody chunks = .ok body →
      parseUsageTokens parseJson body = some total → Reports (.answered status false chunks) total
  | stream {status chunks total} : c.isStreaming = true → isSuccess status = true →
      parseUsageFromSseStream parseJson c.apiKind chunks = .parsed total →
      Reports (.answered status true chunks) total

theorem Reports.commits (h : Reports parseJson c up total) (answers : ℕ → Except Status SidecarReply) :
    ((forwardOpenaiRequest parseJson c up).sent answers).head? =
      some (.emitTraceEvents (c.event (c.buildCommitPayload total))) := by
  cases h with
  | body hstatus hbody husage =>
    simp only [forwardOpenaiRequest, hstatus, hbody, husage]
    simp [Forwarded.commitOnSuccessWithRetry, Forwarded.commitRetryAttempts]
    rfl
  | stream hstreaming hstatus husage =>
    simp only [forwardOpenaiRequest, hstatus, hstreaming, husage]
    rfl

/-- The commit passes the ledger's test against the reservation exactly if the prompt fits into the
window twice and the limit on the output covers the prompt as well. -/
theorem commit_within_reservation_iff {u : Usage} (hserves : ∀ o ∈ s.predictor, o.Serves)
    (hpolicy : i.predictionPolicy = "STRICT_CEILING") (hlimits : u.Respects s i)
    (hreports : Reports parseJson c up u.totalTokens) :
    (∀ answers, ((forwardOpenaiRequest parseJson c up).sent answers).head? =
      some (.emitTraceEvents (c.event (c.buildCommitPayload u.totalTokens)))) ∧
    (0 < u.totalTokens ∧ u.totalTokens ≤ reservedTokens (estimateCallCost s i) ↔
      u.totalTokens = 1 ∨ i.inputTokens s + u.totalTokens ≤ lookupModelContextWindow i.model ∧
        (0 < maxTokensRequested i.body → u.totalTokens ≤ maxTokensRequested i.body)) := by
  refine ⟨hreports.commits, ?_⟩
  have hwindow : lookupModelContextWindow i.model < 2 ^ 63 :=
    (lookupModelContextWindow_bounds i.model).2.trans_lt (by decide)
  have hpositive := hlimits.positive
  rw [reservedTokens_estimateCallCost hserves hpolicy, EstimateInputs.strategyALocal,
    le_computeStrategyALocal_iff one_le_inputTokens hwindow, and_iff_right hpositive]
  have hone : u.totalTokens ≤ 1 ↔ u.totalTokens = 1 := by omega
  rw [hone]

end Covers

/-- A tokenizer that finds a hundred tokens in every prompt, and nothing else configured. -/
def hundredTokens : Estimators := ⟨fun _ _ => .ok { inputTokens := 100, tier := "T2" }, none, none⟩

def tenTokensAtMost : EstimateInputs where
  body := .obj [("model", .str "gpt-4"), ("max_tokens", .int 10)]
  model := "gpt-4"
  tenantId := "t"
  agentId := ""
  runId := "r"
  decisionId := "d"
  stepId := "r:call:preview"
  predictionPolicy := "STRICT_CEILING"
  headerOverrideTokens := none
  plannedStepsHint := 0

/-- A hundred tokens of prompt and the ten of output that were allowed: ten are reserved, and the
commit of all of them is over the reservation. -/
theorem prompt_not_reserved :
    (⟨100, 10, 110⟩ : Usage).Respects hundredTokens tenTokensAtMost ∧
      reservedTokens (estimateCallCost hundredTokens tenTokensAtMost) = 10 ∧ ¬ (110 : ℤ) ≤ 10 := by
  refine ⟨⟨rfl, by decide +kernel, by decide +kernel, rfl, by decide⟩, by decide +kernel, by decide⟩

def unlimited : EstimateInputs := { tenTokensAtMost with body := .obj [("model", .str "gpt-4")] }

def unlimitedRequest : Forwarded := { streamedRequest with isStreaming := false, estimatedTokens := 8092 }

def usageReport (_ : String) : Option Json := some (.obj [("usage", .obj [("total_tokens", .int 110)])])

/-- Without a limit on the output the rest of the window is reserved. -/
theorem unlimited_reservation_covers :
    (∀ answers, ((forwardOpenaiRequest usageReport unlimitedRequest (.answered 200 false [])).sent
      answers).head? =
        some (.emitTraceEvents (unlimitedRequest.event (unlimitedRequest.buildCommitPayload 110)))) ∧
    (0 < (110 : ℤ) ∧ (110 : ℤ) ≤ reservedTokens (estimateCallCost hundredTokens unlimited)) := by
  have hlimits : (⟨100, 10, 110⟩ : Usage).Respects hundredTokens unlimited :=
    ⟨rfl, by decide +kernel, by decide +kernel, rfl, by decide⟩
  have hreports : Reports usageReport unlimitedRequest (.answered 200 false []) 110 := .body rfl rfl rfl
  have h := commit_within_reservation_iff (by simp [hundredTokens]) rfl hlimits hreports
  exact ⟨h.1, h.2.mpr (by decide +kernel)⟩

end SpendGuard.Proxy
