import SpendGuard.Approval.Documents
import SpendGuard.Dashboard.Export

/-!
Who may grant an approval: the policy of the row and the control plane's endpoint that consults it.
-/

namespace SpendGuard.Approval

open Base Ledger

inductive ApproverPolicyParse
  | noRestriction
  | restrict (roles : List String)
  | malformed
  deriving DecidableEq

def roleNames : List Json → Option (List String)
  | [] => some []
  | v :: vs => do
    let role ← v.asStr?.filter (· ≠ "")
    let roles ← roleNames vs
    return role :: roles

def arrayRoles (v : Json) : Option (List String) := do
  let items ← v.asArr?.filter (· ≠ [])
  roleNames items

def stringOrArrayRoles : Json → Option (List String)
  | .str s => if s = "" then none else some [s]
  | v => arrayRoles v

def restrictiveKeys : List (String × (Json → Option (List String))) :=
  [("roles", arrayRoles), ("required_roles", arrayRoles), ("role", stringOrArrayRoles),
    ("approver_role", stringOrArrayRoles)]

def policyRoles (policy : Json) : List (String × (Json → Option (List String))) → Option (List String)
  | [] => some []
  | (key, read) :: keys => do
    let here ← match policy.get? key with
      | none => some []
      | some v => read v
    let rest ← policyRoles policy keys
    return here ++ rest

def parseApproverPolicy (policy : Json) : ApproverPolicyParse :=
  match policy with
  | .null => .noRestriction
  | .obj _ =>
    if restrictiveKeys.all (fun k => (policy.get? k.1).isNone) then .noRestriction
    else match policyRoles policy restrictiveKeys with
      | some (role :: roles) => .restrict (role :: roles)
      | _ => .malformed
  | _ => .malformed

/-- The principal of a request, as far as the endpoint looks at it. -/
structure Resolver extends Dashboard.Principal where
  subject : String
  issuer : String

def Resolver.meetsPolicy (p : Resolver) (policy : Json) : Bool :=
  match parseApproverPolicy policy with
  | .noRestriction => true
  | .restrict required => required.any fun r => p.roles.contains r
  | .malformed => false

inductive ResolveStatus
  | badRequest
  | forbidden
  | conflict
  deriving DecidableEq

/-- A request to resolve, with the row its handler reads first and the times at which the handler and the
procedure look at the clock. -/
structure ResolveRequest where
  id : String
  targetState : String
  reason : String
  seen : ApprovalRequest Json
  now : ℤ
  checkedAt : ℤ
  updatedAt : ℤ

/-- `POST /v1/approvals/:id/resolve`. -/
def resolveApproval (uuid : String → Option Uuid) (p : Resolver) (req : ResolveRequest) (s : ApprovalRecord Json) :
    Except ResolveStatus ((ApprovalState × Bool) × ApprovalRecord Json) := do
  check (p.hasPermission .approvalResolve = true) .forbidden
  let approval ← found (uuid req.id) .badRequest
  check (req.targetState ∈ ["approved", "denied", "cancelled"]) .badRequest
  check (Sidecar.trim req.reason ≠ "") .badRequest
  -- an approval that does not exist is not told from one of another tenant
  check (req.seen.approvalId = approval) .forbidden
  check (p.assertTenant req.seen.tenantId.text = true) .forbidden
  check (req.seen.state ≠ .pending ∨ req.now < req.seen.ttlExpiresAt) .conflict
  check (p.meetsPolicy req.seen.approverPolicy = true) .forbidden
  (resolveApprovalRequest ⟨some req.targetState, some p.subject, some p.issuer, some req.reason, req.checkedAt,
    req.updatedAt⟩ s).mapError fun _ => .conflict

section Resolve

variable {uuid : String → Option Uuid} {p : Resolver} {req : ResolveRequest} {s s' : ApprovalRecord Json}

theorem resolveApproval_ok {answer : ApprovalState × Bool} (h : resolveApproval uuid p req s = .ok (answer, s')) :
    p.hasPermission .approvalResolve = true ∧ p.assertTenant req.seen.tenantId.text = true := by
  simp only [resolveApproval, check_bind_eq_ok, found_bind_eq_ok] at h
  obtain ⟨hpermission, _, -, -, -, -, htenant, -⟩ := h
  exact ⟨hpermission, htenant⟩

theorem approve_pending (subject issuer reason : String) {row : ApprovalRequest Json} {t : ℤ}
    (hpending : row.state = .pending) (hat : row.bundledAt = none)
    (htransaction : row.bundledLedgerTransactionId = none) (hcheck : checkRow row = .ok ())
    (hreason : reason ≠ "") (ht : t < row.ttlExpiresAt) :
    ∃ s', resolveApprovalRequest ⟨some "approved", some subject, some issuer, some reason, t, t⟩ ⟨row, []⟩ =
      .ok ((.approved, true), s') ∧ s'.row.state = .approved := by
  simp only [checkRow, check_bind_eq_ok, check_eq_ok] at hcheck
  obtain ⟨-, -, httl, hsource⟩ := hcheck
  let c : ResolveCall := ⟨some "approved", some subject, some issuer, some reason, t, t⟩
  have hblock : blockImmutableUpdates row (c.resolved row .approved) = .ok () := by
    simp only [blockImmutableUpdates, check_bind_eq_ok]
    refine ⟨⟨rfl, rfl, rfl, rfl, rfl, rfl, rfl, rfl, rfl, rfl, rfl⟩, ?_⟩
    rw [if_neg (not_not.mpr hpending), check_eq_ok]
    exact ⟨hat, htransaction⟩
  have hrow : checkRow (c.resolved row .approved) = .ok () := by
    simp only [checkRow, check_bind_eq_ok, check_eq_ok]
    refine ⟨.inr ⟨rfl, rfl, rfl⟩, .inr ?_, httl, hsource⟩
    simpa [ResolveCall.resolved, c, given] using hreason
  have hupdate : updateRow ⟨row, []⟩ (c.resolved row .approved) = .ok ⟨c.resolved row .approved, []⟩ := by
    rw [updateRow, hblock, ok_bind, hrow, ok_bind, check_of (.inl rfl), ok_bind]
    rfl
  have hevent : checkEvent (c.event row .approved) = .ok () := by
    simp only [checkEvent, check_bind_eq_ok, check_eq_ok]
    refine ⟨.inr ⟨rfl, rfl⟩, .inr ?_⟩
    simpa [ResolveCall.event, c, given] using hreason
  refine ⟨⟨c.resolved row .approved, [c.event row .approved]⟩, ?_, rfl⟩
  have hstate : some (row.state.text) ≠ c.target := by
    rw [hpending]
    change some "pending" ≠ some "approved"
    decide
  rw [resolveApprovalRequest, if_neg hstate]
  dsimp only
  rw [check_of hpending, ok_bind, found_some, ok_bind]
  change (found (some ApprovalState.approved) _ >>= _) = _
  rw [found_some, ok_bind, check_of (.inr ht), ok_bind, hupdate, ok_bind, hevent, ok_bind]
  rfl

end Resolve

/-- The approval is raised for a request that evaluates to `REQUIRE_APPROVAL` under the contract of the
document `y`, through a rule that applies to it and that names the role. -/
structure RaisedFor (rd : Reader Json) (toVec : Json → {text : Bytes // text ≠ []}) (y : Sidecar.YamlContract)
    (cfg : Sidecar.SidecarConfig) (env : DecisionEnv) (req : Sidecar.DecisionRequest) (recording : RecordEnv)
    (s : ApprovalDb Json) (role : String) (a : RaisedApproval Json) : Prop where
  contract : Sidecar.parseYaml rd.uuid y = .ok env.bundle.parsed
  raised : ∃ x, requireApproval rd cfg env req = .ok (some x) ∧ x.Raises rd toVec recording s a ∧
    ∃ rule, env.bundle.parsed.Applies rd.uuid rd.bigInt x.claims rule ∧
      (env.bundle.parsed.ruleOutcome rule).decision = .requireApproval ∧ rule.action.approverRole = some role

section Enforced

variable {rd : Reader Json} {toVec : Json → {text : Bytes // text ≠ []}} {y : Sidecar.YamlContract}
  {cfg : Sidecar.SidecarConfig} {env : DecisionEnv} {dreq : Sidecar.DecisionRequest} {recording : RecordEnv}
  {s₀ : ApprovalDb Json} {role : String} {a : RaisedApproval Json}

theorem RaisedFor.row_eq (h : RaisedFor rd toVec y cfg env dreq recording s₀ role a) :
    ∃ post : ApprovalPost Json, a.row = post.row rd recording.mint ∧ checkRow a.row = .ok () := by
  obtain ⟨x, -, hraises, -⟩ := h.raised
  obtain ⟨denied, ttl, hrow, hcheck⟩ := hraises.row_eq
  exact ⟨_, hrow, hcheck⟩

theorem RaisedFor.resolvable (h : RaisedFor rd toVec y cfg env dreq recording s₀ role a)
    (hpolicy : rd.emptyObject = .obj []) {id : String} (hid : rd.uuid id = some a.row.approvalId) {p : Resolver}
    (hpermission : p.hasPermission .approvalResolve = true)
    (htenant : p.assertTenant a.row.tenantId.text = true) :
    ∃ req answer s', req.seen = a.row ∧ resolveApproval rd.uuid p req ⟨a.row, []⟩ = .ok (answer, s') ∧
      s'.row.state = .approved := by
  obtain ⟨post, hrow, hcheck⟩ := h.row_eq
  have httl : a.row.createdAt < a.row.ttlExpiresAt := by
    simp only [checkRow, check_bind_eq_ok] at hcheck
    exact hcheck.2.2.1
  obtain ⟨s', hresolve, hstate⟩ := approve_pending p.subject p.issuer "ok" (by rw [hrow]; rfl)
    (by rw [hrow]; rfl) (by rw [hrow]; rfl) hcheck (by decide) httl
  have hmeets : p.meetsPolicy a.row.approverPolicy = true := by
    have hempty : a.row.approverPolicy = .obj [] := by
      rw [hrow]
      exact hpolicy
    rw [hempty]
    rfl
  refine ⟨⟨id, "approved", "ok", a.row, a.row.createdAt, a.row.createdAt, a.row.createdAt⟩,
    (.approved, true), s', rfl, ?_, hstate⟩
  have hreason : Sidecar.trim "ok" ≠ "" := by decide +kernel
  rw [resolveApproval, check_of hpermission, ok_bind, hid, found_some, ok_bind, check_of List.mem_cons_self,
    ok_bind, check_of hreason, ok_bind, check_of rfl, ok_bind, check_of htenant, ok_bind, check_of (.inr httl),
    ok_bind, check_of hmeets, ok_bind, hresolve]
  rfl

/-- The role of the rule is enforced against a principal exactly if it has the role anyway, or may not
resolve approvals of the tenant at all. -/
theorem approver_role_enforced_iff (h : RaisedFor rd toVec y cfg env dreq recording s₀ role a)
    (hpolicy : rd.emptyObject = .obj []) {id : String} (hid : rd.uuid id = some a.row.approvalId) (p : Resolver) :
    (∀ req s answer s', Frozen a.row req.seen → Frozen a.row s.row →
        resolveApproval rd.uuid p req s = .ok (answer, s') → s.row.state ≠ .approved →
        s'.row.state = .approved → p.hasPermission .approvalResolve = true ∧
          p.assertTenant a.row.tenantId.text = true ∧ role ∈ p.roles) ↔
      role ∈ p.roles ∨ p.hasPermission .approvalResolve = false ∨
        p.assertTenant a.row.tenantId.text = false := by
  constructor
  · intro henforced
    rw [or_iff_not_imp_right, not_or, Bool.not_eq_false, Bool.not_eq_false]
    rintro ⟨hpermission, htenant⟩
    obtain ⟨req, answer, s', hseen, hresolve, hstate⟩ := h.resolvable hpolicy hid hpermission htenant
    obtain ⟨post, hrow, -⟩ := h.row_eq
    have hpending : a.row.state ≠ .approved := by
      rw [hrow]
      exact nofun
    exact (henforced req ⟨a.row, []⟩ answer s' (hseen ▸ .refl a.row) (.refl a.row) hresolve hpending hstate).2.2
  · intro hrole req s answer s' hseen _ hresolve _ _
    obtain ⟨hpermission, htenant⟩ := resolveApproval_ok hresolve
    rw [hseen.tenantId] at htenant
    refine ⟨hpermission, htenant, ?_⟩
    rcases hrole with hrole | hnone | hnone
    · exact hrole
    · rw [hpermission] at hnone
      cases hnone
    · rw [htenant] at hnone
      cases hnone

end Enforced

section Demo

def financeYaml : Sidecar.YamlContract where
  apiVersion := "spendguard.ai/v1alpha1"
  kind := "Contract"
  id := "c"
  budgets := ["b"]
  rules := [{ id := "large", budgetId := "b", claimAmountAtomicGte := some "5", decision := "REQUIRE_APPROVAL",
              reasonCode := "LARGE", approverRole := some "finance" }]

theorem finance_raisedFor : ∃ a, RaisedFor (financeReader [largeClaim "5"]) shortVec financeYaml ⟨"t", "eu"⟩
    financeEnv (largeClaims [largeClaim "5"]) (demoEnv 1) ⟨openLedger, []⟩ "finance" a ∧
      a.row.approvalId = ⟨601, []⟩ ∧ a.row.tenantId = ⟨1, []⟩ := by
  obtain ⟨a, hraises, hid, htenant, -⟩ := finance_raises [largeClaim "5"] (by decide +kernel)
  refine ⟨a, ⟨rfl, financeApproval [largeClaim "5"], rfl, hraises, _, ⟨List.mem_cons_self, largeClaim "5",
    List.mem_cons_self, 5, rfl, rfl, rfl⟩, rfl, rfl⟩, hid, htenant⟩

def resolverWith (roles : List String) : Resolver := ⟨⟨roles, [Uuid.text ⟨1, []⟩]⟩, "alice", "idp"⟩

/-- An approver of the finance department may grant the approval, and is one. -/
theorem finance_approver_enforced :
    ∃ a, RaisedFor (financeReader [largeClaim "5"]) shortVec financeYaml ⟨"t", "eu"⟩ financeEnv
        (largeClaims [largeClaim "5"]) (demoEnv 1) ⟨openLedger, []⟩ "finance" a ∧
      ∀ req s answer s', Frozen a.row req.seen → Frozen a.row s.row →
        resolveApproval financeUuid (resolverWith ["approver", "finance"]) req s = .ok (answer, s') →
        s.row.state ≠ .approved → s'.row.state = .approved →
          (resolverWith ["approver", "finance"]).hasPermission .approvalResolve = true ∧
            (resolverWith ["approver", "finance"]).assertTenant a.row.tenantId.text = true ∧
            "finance" ∈ (resolverWith ["approver", "finance"]).roles := by
  obtain ⟨a, h, hid, -⟩ := finance_raisedFor
  refine ⟨a, h, ?_⟩
  have happroval : (financeReader [largeClaim "5"]).uuid "a" = some a.row.approvalId := congrArg some hid.symm
  exact (approver_role_enforced_iff h rfl happroval _).mpr (.inl (by decide))

/-- Any approver of the tenant grants an approval that the contract gives to finance. -/
theorem other_approver_grants :
    ∃ a, RaisedFor (financeReader [largeClaim "5"]) shortVec financeYaml ⟨"t", "eu"⟩ financeEnv
        (largeClaims [largeClaim "5"]) (demoEnv 1) ⟨openLedger, []⟩ "finance" a ∧
      "finance" ∉ (resolverWith ["approver"]).roles ∧
      ∃ req answer s', req.seen = a.row ∧
        resolveApproval financeUuid (resolverWith ["approver"]) req ⟨a.row, []⟩ = .ok (answer, s') ∧
        s'.row.state = .approved := by
  obtain ⟨a, h, hid, htenant⟩ := finance_raisedFor
  refine ⟨a, h, by decide, ?_⟩
  have happroval : (financeReader [largeClaim "5"]).uuid "a" = some a.row.approvalId := congrArg some hid.symm
  apply h.resolvable rfl happroval (by decide)
  rw [htenant]
  decide +kernel

end Demo

end SpendGuard.Approval
