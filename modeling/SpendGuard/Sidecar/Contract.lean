import SpendGuard.Sidecar.Idempotency

/-!
The contract of a bundle: how it is read, and how it is evaluated on the claims of a request.
-/

namespace SpendGuard.Sidecar

open Base Ledger

inductive PredictionPolicy
  | strictCeiling
  | empiricalRunCeiling
  | adaptiveCeiling
  | shadowOnly
  deriving DecidableEq

def PredictionPolicy.asStr : PredictionPolicy → String
  | .strictCeiling => "STRICT_CEILING"
  | .empiricalRunCeiling => "EMPIRICAL_RUN_CEILING"
  | .adaptiveCeiling => "ADAPTIVE_CEILING"
  | .shadowOnly => "SHADOW_ONLY"

def PredictionPolicy.fromStr : String → Option PredictionPolicy
  | "STRICT_CEILING" => some .strictCeiling
  | "EMPIRICAL_RUN_CEILING" => some .empiricalRunCeiling
  | "ADAPTIVE_CEILING" => some .adaptiveCeiling
  | "SHADOW_ONLY" => some .shadowOnly
  | _ => none

inductive RunProjectionAction
  | blockNextCall
  | requireApproval
  | alertOnly
  deriving DecidableEq

def RunProjectionAction.asStr : RunProjectionAction → String
  | .blockNextCall => "BLOCK_NEXT_CALL"
  | .requireApproval => "REQUIRE_APPROVAL"
  | .alertOnly => "ALERT_ONLY"

def RunProjectionAction.fromStr : String → Option RunProjectionAction
  | "BLOCK_NEXT_CALL" => some .blockNextCall
  | "REQUIRE_APPROVAL" => some .requireApproval
  | "ALERT_ONLY" => some .alertOnly
  | _ => none

inductive RunCode
  | budgetProjectionExceeded
  | driftDetected
  | stepsExceeded
  deriving DecidableEq

def RunCode.asStr : RunCode → String
  | .budgetProjectionExceeded => "RUN_BUDGET_PROJECTION_EXCEEDED"
  | .driftDetected => "RUN_DRIFT_DETECTED"
  | .stepsExceeded => "RUN_STEPS_EXCEEDED"

def RunCode.fromStr : String → Option RunCode
  | "RUN_BUDGET_PROJECTION_EXCEEDED" => some .budgetProjectionExceeded
  | "RUN_DRIFT_DETECTED" => some .driftDetected
  | "RUN_STEPS_EXCEEDED" => some .stepsExceeded
  | _ => none

def isAllowedPair : PredictionPolicy → RunProjectionAction → Bool
  | .strictCeiling, action => action = .blockNextCall
  | .empiricalRunCeiling, _ => true
  | .adaptiveCeiling, _ => true
  | .shadowOnly, action => action = .alertOnly

structure Condition where
  budgetId : Uuid
  claimAmountAtomicGt : Option String
  claimAmountAtomicGte : Option String

structure Action where
  decision : Decision
  reasonCode : String
  approverRole : Option String

/-- A rule, with its `when` and its `then`. -/
structure Rule where
  id : String
  condition : Condition
  action : Action
  runProjectionAction : RunProjectionAction

structure Contract where
  id : Uuid
  rules : List Rule
  predictionPolicy : PredictionPolicy

/-- A rule as the document has it; `condition` is the CEL text that is not evaluated. -/
structure YamlRule where
  id : String
  budgetId : String
  claimAmountAtomicGt : Option String := none
  claimAmountAtomicGte : Option String := none
  decision : String
  reasonCode : String
  approverRole : Option String := none
  runProjectionAction : Option String := none
  condition : Option String := none

structure YamlContract where
  apiVersion : String
  kind : String
  id : String
  budgets : List String
  rules : List YamlRule
  predictionPolicy : Option String := none

inductive ApiVersion
  | v1alpha1
  | v1alpha2
  deriving DecidableEq

def classifyApiVersion : String → Option ApiVersion
  | "contract.spendguard.io/v1alpha1" => some .v1alpha1
  | "spendguard.ai/v1alpha1" => some .v1alpha1
  | "spendguard.ai/v1alpha2" => some .v1alpha2
  | _ => none

def parseDecision : String → Option Decision
  | "CONTINUE" => some .continued
  | "DEGRADE" => some .degrade
  | "SKIP" => some .skip
  | "STOP" => some .stop
  | "REQUIRE_APPROVAL" => some .requireApproval
  | _ => none

/-- A field that only `v1alpha2` knows: any other version has the default, whatever is written. -/
def versioned {α : Type} (version : ApiVersion) (default : α) (fromStr : String → Option α)
    (text : Option String) (e : String → String) : Except String α :=
  match version, text with
  | .v1alpha2, some s => found (fromStr s) (e s)
  | _, _ => return default

def parseRule (uuid : String → Option Uuid) (version : ApiVersion) (r : YamlRule) : Except String Rule := do
  let rule := "rule '" ++ r.id ++ "' "
  let budgetId ← found (uuid r.budgetId) (rule ++ "when.budget_id '" ++ r.budgetId ++ "' is not a UUID")
  check (r.condition = none ∨ version ≠ .v1alpha2)
    ("bundle_validation_failed: " ++ rule ++ "uses CEL `condition:` field. SLICE_02 only supports amount " ++
      "thresholds under `when:`; projection CEL has no SLICE_02 replacement. Remove or keep projection rules " ++
      "disabled until SLICE_09/10 run_cost_projector owns RUN_* activation. See " ++
      "contract-dsl-spec-v1alpha2.md §6.3/§8.4.")
  let decision ← found (parseDecision r.decision) (rule ++ "has unknown decision '" ++ r.decision ++ "'")
  let action ← versioned version .blockNextCall RunProjectionAction.fromStr r.runProjectionAction fun s =>
    rule ++ "run_projection_action '" ++ s ++
      "' is not a known enum value (allowed: BLOCK_NEXT_CALL, REQUIRE_APPROVAL, ALERT_ONLY)"
  return ⟨r.id, ⟨budgetId, r.claimAmountAtomicGt, r.claimAmountAtomicGte⟩,
    ⟨decision, r.reasonCode, r.approverRole⟩, action⟩

def parseRules (uuid : String → Option Uuid) (version : ApiVersion) :
    List YamlRule → Except String (List Rule)
  | [] => return []
  | r :: rs => do
    let rule ← parseRule uuid version r
    let rest ← parseRules uuid version rs
    return rule :: rest

def checkBudgets (uuid : String → Option Uuid) : List String → Except String Unit
  | [] => return ()
  | b :: bs => do
    check ((uuid b).isSome) ("budget.id '" ++ b ++ "' is not a UUID")
    checkBudgets uuid bs

def checkPairs (policy : PredictionPolicy) : List Rule → Except String Unit
  | [] => return ()
  | r :: rs => do
    check (isAllowedPair policy r.runProjectionAction = true)
      ("rule '" ++ r.id ++ "' violates v1alpha2 §5.3 allowed-pairs table: prediction_policy=" ++ policy.asStr ++
        " disallows run_projection_action=" ++ r.runProjectionAction.asStr ++ " (allowed pairs: " ++
        "STRICT_CEILING+BLOCK_NEXT_CALL only; EMPIRICAL_RUN_CEILING/ADAPTIVE_CEILING accept all 3; " ++
        "SHADOW_ONLY+ALERT_ONLY only)")
    checkPairs policy rs

/-- `parse_yaml`, once the document has its fields. -/
def parseYaml (uuid : String → Option Uuid) (y : YamlContract) : Except String Contract := do
  let version ← found (classifyApiVersion y.apiVersion) ("unsupported apiVersion " ++ y.apiVersion ++
    "; expected one of [contract.spendguard.io/v1alpha1, spendguard.ai/v1alpha1, spendguard.ai/v1alpha2]")
  check (y.kind = "Contract") ("unsupported kind " ++ y.kind ++ "; expected Contract")
  let id ← found (uuid y.id) ("metadata.id '" ++ y.id ++ "' is not a UUID")
  checkBudgets uuid y.budgets
  let policy ← versioned version .strictCeiling PredictionPolicy.fromStr y.predictionPolicy fun s =>
    "spec.prediction_policy '" ++ s ++ "' is not a known enum value (allowed: STRICT_CEILING, " ++
      "EMPIRICAL_RUN_CEILING, ADAPTIVE_CEILING, SHADOW_ONLY)"
  let rules ← parseRules uuid version y.rules
  checkPairs policy rules
  return ⟨id, rules, policy⟩

structure EvalOutcome where
  decision : Decision := .continued
  reasonCodes : List String := []
  matchedRuleIds : List String := []

def restrictiveness : Decision → ℕ
  | .unspecified => 0
  | .continued => 1
  | .skip => 2
  | .degrade => 3
  | .requireApproval => 4
  | .stop => 5
  | .stopRunProjection => 5

def EvalOutcome.merge (a b : EvalOutcome) : EvalOutcome where
  decision := if restrictiveness a.decision < restrictiveness b.decision then b.decision else a.decision
  reasonCodes := a.reasonCodes ++ b.reasonCodes
  matchedRuleIds := a.matchedRuleIds ++ b.matchedRuleIds

def RunProjectionAction.decision : RunProjectionAction → Decision
  | .blockNextCall => .stop
  | .requireApproval => .requireApproval
  | .alertOnly => .continued

/-- A rule with a `RUN_*` code decides by its projection action. -/
def Contract.ruleOutcome (contract : Contract) (rule : Rule) : EvalOutcome :=
  let ids := [contract.id.text ++ ":" ++ rule.condition.budgetId.text ++ ":" ++ rule.id]
  match RunCode.fromStr rule.action.reasonCode with
  | some code => ⟨rule.runProjectionAction.decision, [code.asStr], ids⟩
  | none => ⟨rule.action.decision, [rule.action.reasonCode], ids⟩

section Evaluate

variable (uuid : String → Option Uuid) (bigInt : String → Except String ℤ)

def Rule.matchesClaim (rule : Rule) (amount : ℤ) : Bool :=
  rule.condition.claimAmountAtomicGt.all (fun t => (bigInt t).toOption.all (· < amount)) &&
  rule.condition.claimAmountAtomicGte.all (fun t => (bigInt t).toOption.all (· ≤ amount)) &&
  (rule.condition.claimAmountAtomicGt.isSome || rule.condition.claimAmountAtomicGte.isSome)

def Contract.evaluateClaim (contract : Contract) (current : EvalOutcome) (claim : BudgetClaim) : EvalOutcome :=
  match uuid claim.budgetId, bigInt claim.amountAtomic with
  | some budget, .ok amount =>
    (contract.rules.filter fun r => r.condition.budgetId = budget && r.matchesClaim bigInt amount).foldl
      (fun o rule => o.merge (contract.ruleOutcome rule)) current
  -- a malformed claim is left for the ledger to refuse
  | _, _ => current

def Contract.evaluate (contract : Contract) (claims : List BudgetClaim) : EvalOutcome :=
  claims.foldl (contract.evaluateClaim uuid bigInt) {}

def Contract.Applies (contract : Contract) (claims : List BudgetClaim) (rule : Rule) : Prop :=
  rule ∈ contract.rules ∧ ∃ c ∈ claims, ∃ amount, uuid c.budgetId = some rule.condition.budgetId ∧
    bigInt c.amountAtomic = .ok amount ∧ rule.matchesClaim bigInt amount = true

def Contract.applyProjectorCode (contract : Contract) (code : String) : Option EvalOutcome :=
  (RunCode.fromStr code).map fun c => {
    decision := if contract.predictionPolicy = .shadowOnly then .continued else .stopRunProjection
    reasonCodes := [c.asStr]
    matchedRuleIds := [contract.id.text ++ ":projector:" ++ c.asStr] }

/-- The evaluation of a request: of the contract and, if it emits a code, of the projector. -/
def Contract.outcome (contract : Contract) (emittedCode : String) (claims : List BudgetClaim) : EvalOutcome :=
  match contract.applyProjectorCode emittedCode with
  | some projected => (contract.evaluate uuid bigInt claims).merge projected
  | none => contract.evaluate uuid bigInt claims

variable {uuid bigInt} {contract : Contract}

theorem merge_decision (a b : EvalOutcome) :
    (a.merge b).decision = a.decision ∨ (a.merge b).decision = b.decision := by
  rw [EvalOutcome.merge]
  split
  · exact .inr rfl
  · exact .inl rfl

theorem foldl_merge_decision (rules : List Rule) (o : EvalOutcome) :
    (rules.foldl (fun o rule => o.merge (contract.ruleOutcome rule)) o).decision = o.decision ∨
      ∃ r ∈ rules, (rules.foldl (fun o rule => o.merge (contract.ruleOutcome rule)) o).decision =
        (contract.ruleOutcome r).decision := by
  induction rules generalizing o with
  | nil => exact .inl rfl
  | cons r rules ih =>
    rw [List.foldl_cons]
    rcases ih (o.merge (contract.ruleOutcome r)) with h | ⟨r', hr', h⟩
    · rcases merge_decision o (contract.ruleOutcome r) with hm | hm
      · exact .inl (h.trans hm)
      · exact .inr ⟨r, List.mem_cons_self, h.trans hm⟩
    · exact .inr ⟨r', List.mem_cons_of_mem _ hr', h⟩

variable (contract uuid bigInt) in
theorem evaluateClaim_decision (o : EvalOutcome) (c : BudgetClaim) :
    (contract.evaluateClaim uuid bigInt o c).decision = o.decision ∨
      ∃ r, contract.Applies uuid bigInt [c] r ∧
        (contract.evaluateClaim uuid bigInt o c).decision = (contract.ruleOutcome r).decision := by
  rw [Contract.evaluateClaim]
  split
  · next budget amount hbudget hamount =>
    apply (foldl_merge_decision _ o).imp_right
    rintro ⟨r, hr, h⟩
    rw [List.mem_filter, Bool.and_eq_true, decide_eq_true_eq] at hr
    obtain ⟨hmem, rfl, hmatch⟩ := hr
    exact ⟨r, ⟨hmem, c, List.mem_cons_self, amount, hbudget, hamount, hmatch⟩, h⟩
  · exact .inl rfl

variable (contract uuid bigInt) in
theorem evaluate_decision (claims : List BudgetClaim) :
    (contract.evaluate uuid bigInt claims).decision = .continued ∨
      ∃ r, contract.Applies uuid bigInt claims r ∧
        (contract.evaluate uuid bigInt claims).decision = (contract.ruleOutcome r).decision := by
  rw [Contract.evaluate]
  induction claims using List.reverseRecOn with
  | nil => exact .inl rfl
  | append_singleton claims c ih =>
    rw [List.foldl_append, List.foldl_cons, List.foldl_nil]
    rcases evaluateClaim_decision uuid bigInt contract (claims.foldl _ {}) c with h | ⟨r, hr, h⟩
    · rw [h]
      apply ih.imp_right
      rintro ⟨r, ⟨hmem, c', hc', hrest⟩, hdecision⟩
      exact ⟨r, ⟨hmem, c', List.mem_append_left _ hc', hrest⟩, hdecision⟩
    · obtain ⟨hmem, c', hc', hrest⟩ := hr
      exact .inr ⟨r, ⟨hmem, c', List.mem_append_right _ hc', hrest⟩, h⟩

theorem outcome_requireApproval {code : String} {claims : List BudgetClaim}
    (h : (contract.outcome uuid bigInt code claims).decision = .requireApproval) :
    ∃ r, contract.Applies uuid bigInt claims r ∧ (contract.ruleOutcome r).decision = .requireApproval := by
  have heval : (contract.evaluate uuid bigInt claims).decision = .requireApproval := by
    rw [Contract.outcome] at h
    split at h
    · next projected hprojected =>
      rw [Contract.applyProjectorCode] at hprojected
      obtain ⟨c, -, rfl⟩ := Option.map_eq_some_iff.mp hprojected
      apply Eq.trans _ h
      apply ((merge_decision _ _).resolve_right _).symm
      rw [h]
      dsimp only
      split
      · exact nofun
      · exact nofun
    · exact h
  rcases evaluate_decision uuid bigInt contract claims with hc | ⟨r, hr, hd⟩
  · rw [heval] at hc
    cases hc
  · exact ⟨r, hr, hd.symm.trans heval⟩

end Evaluate

section Parse

variable {uuid : String → Option Uuid}

end Parse

end SpendGuard.Sidecar
