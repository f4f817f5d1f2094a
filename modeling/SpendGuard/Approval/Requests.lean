import SpendGuard.Base.Check
import SpendGuard.Base.Run
import SpendGuard.Ledger.Schema

/-!
The rows of `approval_requests`: the trigger and the checks that every update passes, and the procedures
that resolve, expire and bundle an approval.
-/

namespace SpendGuard.Approval

open Base Ledger

inductive ApprovalState
  | pending
  | approved
  | denied
  | expired
  | cancelled
  deriving DecidableEq

namespace ApprovalState

def text : ApprovalState → String
  | .pending => "pending"
  | .approved => "approved"
  | .denied => "denied"
  | .expired => "expired"
  | .cancelled => "cancelled"

def target : String → Option ApprovalState
  | "approved" => some .approved
  | "denied" => some .denied
  | "cancelled" => some .cancelled
  | "expired" => some .expired
  | _ => none

def explicit (s : ApprovalState) : Bool := s = .approved || s = .denied || s = .cancelled

end ApprovalState

inductive ProposalSource
  | sidecarDecision
  | costAdvisor
  deriving DecidableEq

/-- A row; `J` are the documents, with the equality of the database. -/
structure ApprovalRequest (J : Type) where
  approvalId : Uuid
  tenantId : Uuid
  decisionId : Uuid
  auditDecisionEventId : Uuid
  state : ApprovalState
  ttlExpiresAt : ℤ
  approverPolicy : J
  requestedEffect : J
  decisionContext : J
  resolvedAt : Option ℤ
  resolvedBySubject : Option String
  resolvedByIssuer : Option String
  resolutionReason : Option String
  createdAt : ℤ
  bundledAt : Option ℤ
  bundledLedgerTransactionId : Option Uuid
  proposalSource : ProposalSource
  proposedDslPatch : Option J
  proposingFindingId : Option Uuid

structure ApprovalEvent where
  approvalId : Uuid
  fromState : ApprovalState
  toState : ApprovalState
  actorSubject : Option String
  actorIssuer : Option String
  resolutionReason : Option String
  deriving DecidableEq

structure ApprovalRecord (J : Type) where
  row : ApprovalRequest J
  events : List ApprovalEvent

variable {J : Type} [DecidableEq J]

def given (reason : Option String) : Bool := reason.any (· ≠ "")

/-- `approval_requests_block_immutable_updates`. -/
def blockImmutableUpdates (old new : ApprovalRequest J) : Except String Unit := do
  let row := "approval_requests row " ++ old.approvalId.text ++ ": "
  check (new.tenantId = old.tenantId ∧ new.decisionId = old.decisionId ∧
      new.auditDecisionEventId = old.auditDecisionEventId ∧ new.requestedEffect = old.requestedEffect ∧
      new.decisionContext = old.decisionContext ∧ new.createdAt = old.createdAt ∧
      new.ttlExpiresAt = old.ttlExpiresAt ∧ new.approverPolicy = old.approverPolicy ∧
      new.proposalSource = old.proposalSource ∧ new.proposedDslPatch = old.proposedDslPatch ∧
      new.proposingFindingId = old.proposingFindingId)
    (row ++ "immutable column changed (S14 + Cost Advisor invariant)")
  if old.state ≠ .pending then
    check (new.state = old.state)
      (row ++ "terminal state " ++ old.state.text ++ " cannot transition to " ++ new.state.text)
    check (new.resolvedAt = old.resolvedAt ∧ new.resolvedBySubject = old.resolvedBySubject ∧
        new.resolvedByIssuer = old.resolvedByIssuer ∧ new.resolutionReason = old.resolutionReason)
      (row ++ "terminal-row resolution metadata is frozen")
    check (old.bundledAt = none ∨ new.bundledAt = old.bundledAt) (row ++ "bundled_at is frozen once set")
    check (old.bundledLedgerTransactionId = none ∨
        new.bundledLedgerTransactionId = old.bundledLedgerTransactionId)
      (row ++ "bundled_ledger_transaction_id is frozen once set")
    check (new.bundledAt = none ↔ new.bundledLedgerTransactionId = none)
      (row ++ "bundled_at and bundled_ledger_transaction_id must be set together")
  else
    check (new.bundledAt = none ∧ new.bundledLedgerTransactionId = none)
      (row ++ "bundling columns can only be set once the approval is terminal")

def checkRow (new : ApprovalRequest J) : Except String Unit := do
  check (new.state = .pending ∨ (new.resolvedAt.isSome ∧ new.resolvedBySubject.isSome ∧
    new.resolvedByIssuer.isSome)) "approval_resolved_when_terminal"
  check ((new.state ≠ .approved ∧ new.state ≠ .denied) ∨ given new.resolutionReason)
    "approval_resolution_reason_when_explicit"
  check (new.createdAt < new.ttlExpiresAt) "approval_ttl_after_creation"
  check (new.proposalSource ≠ .costAdvisor ∨ (new.proposedDslPatch.isSome ∧ new.proposingFindingId.isSome))
    "approval_requests_cost_advisor_fields_present"

def checkEvent (e : ApprovalEvent) : Except String Unit := do
  check (e.toState = .expired ∨ (e.actorSubject.isSome ∧ e.actorIssuer.isSome))
    "approval_events_actor_required_for_explicit"
  check ((e.toState ≠ .approved ∧ e.toState ≠ .denied) ∨ given e.resolutionReason)
    "approval_events_reason_required_for_explicit"

/-- Any `UPDATE` of the row; the id may change as long as no event refers to it. -/
def updateRow (s : ApprovalRecord J) (new : ApprovalRequest J) : Except String (ApprovalRecord J) := do
  blockImmutableUpdates s.row new
  checkRow new
  check (new.approvalId = s.row.approvalId ∨ s.events = []) "approval_events_approval_id_fkey"
  return { s with row := new }

/-- The arguments of `resolve_approval_request`, and the two times at which it reads the clock. -/
structure ResolveCall where
  target : Option String
  actorSubject : Option String
  actorIssuer : Option String
  reason : Option String
  checkedAt : ℤ
  updatedAt : ℤ

def actorOr (system : String) (target : ApprovalState) (actor : Option String) : Option String :=
  if target = .expired ∧ actor = none then some system else actor

def ResolveCall.event (c : ResolveCall) (row : ApprovalRequest J) (target : ApprovalState) : ApprovalEvent where
  approvalId := row.approvalId
  fromState := row.state
  toState := target
  actorSubject := actorOr "system:ttl-sweeper" target c.actorSubject
  actorIssuer := actorOr "system:spendguard" target c.actorIssuer
  resolutionReason := c.reason

def ResolveCall.resolved (c : ResolveCall) (row : ApprovalRequest J) (target : ApprovalState) :
    ApprovalRequest J :=
  { row with
    state := target
    resolvedAt := some c.updatedAt
    resolvedBySubject := actorOr "system:ttl-sweeper" target c.actorSubject
    resolvedByIssuer := actorOr "system:spendguard" target c.actorIssuer
    resolutionReason := c.reason }

def resolveApprovalRequest (c : ResolveCall) (s : ApprovalRecord J) :
    Except String ((ApprovalState × Bool) × ApprovalRecord J) := do
  if some s.row.state.text = c.target then return ((s.row.state, false), s)
  let id := s.row.approvalId.text
  check (s.row.state = .pending)
    ("approval " ++ id ++ " already in terminal state " ++ s.row.state.text ++ ", cannot move to " ++
      c.target.getD "<NULL>")
  -- a missing target passes the other comparisons and fails at the column
  let text ← found c.target "null value in column \"state\""
  let target ← found (ApprovalState.target text) ("invalid target state: " ++ text)
  check (target.explicit = false ∨ c.checkedAt < s.row.ttlExpiresAt)
    ("approval " ++ id ++ " expired at " ++ toString s.row.ttlExpiresAt ++ ", cannot move to " ++ text ++
      " (S14 invariant)")
  let s' ← updateRow s (c.resolved s.row target)
  checkEvent (c.event s.row target)
  return ((target, true), { s' with events := c.event s.row target :: s'.events })

/-- The sweeper's turn for this row, which its query has seen as `seen`. -/
def expirePendingApprovalsDue (seen : ApprovalRequest J) (selectedAt checkedAt updatedAt : ℤ)
    (s : ApprovalRecord J) : Except String (ApprovalRecord J) :=
  if seen.state = .pending ∧ seen.ttlExpiresAt < selectedAt then
    (resolveApprovalRequest ⟨some "expired", none, none, none, checkedAt, updatedAt⟩ s).map Prod.snd
  else .ok s

def markApprovalBundled (transaction : Option Uuid) (now : ℤ) (s : ApprovalRecord J) :
    Except String (Bool × ApprovalRecord J) := do
  let id := s.row.approvalId.text
  check (s.row.state = .approved) ("approval " ++ id ++ " cannot be bundled in state " ++ s.row.state.text)
  match s.row.bundledLedgerTransactionId with
  | some existing =>
    check (some existing = transaction) ("approval " ++ id ++ " already bundled with ledger_transaction_id " ++
      existing.text ++ " (caller asked for " ++ ((transaction.map Uuid.text).getD "<NULL>") ++ ")")
    return (false, s)
  | none =>
    let s' ← updateRow s { s.row with bundledAt := some now, bundledLedgerTransactionId := transaction }
    return (true, s')

section Updates

variable {s s' : ApprovalRecord J} {old new : ApprovalRequest J} {c : ResolveCall}

structure Frozen (old new : ApprovalRequest J) : Prop where
  approvalId : new.approvalId = old.approvalId
  tenantId : new.tenantId = old.tenantId
  decisionId : new.decisionId = old.decisionId
  auditDecisionEventId : new.auditDecisionEventId = old.auditDecisionEventId
  requestedEffect : new.requestedEffect = old.requestedEffect
  decisionContext : new.decisionContext = old.decisionContext
  createdAt : new.createdAt = old.createdAt
  ttlExpiresAt : new.ttlExpiresAt = old.ttlExpiresAt
  approverPolicy : new.approverPolicy = old.approverPolicy
  proposalSource : new.proposalSource = old.proposalSource
  proposedDslPatch : new.proposedDslPatch = old.proposedDslPatch
  proposingFindingId : new.proposingFindingId = old.proposingFindingId

omit [DecidableEq J] in
theorem Frozen.refl (row : ApprovalRequest J) : Frozen row row :=
  ⟨rfl, rfl, rfl, rfl, rfl, rfl, rfl, rfl, rfl, rfl, rfl, rfl⟩

omit [DecidableEq J] in
theorem Frozen.trans {a b c : ApprovalRequest J} (h : Frozen a b) (h' : Frozen b c) : Frozen a c :=
  ⟨h'.1.trans h.1, h'.2.trans h.2, h'.3.trans h.3, h'.4.trans h.4, h'.5.trans h.5, h'.6.trans h.6,
    h'.7.trans h.7, h'.8.trans h.8, h'.9.trans h.9, h'.10.trans h.10, h'.11.trans h.11, h'.12.trans h.12⟩

/-- A row that has left `pending` keeps its state, and bundling columns that are set stay. -/
structure Advances (old new : ApprovalRequest J) : Prop where
  state : old.state ≠ .pending → new.state = old.state
  bundledAt : old.bundledAt ≠ none → new.bundledAt = old.bundledAt
  transaction : old.bundledLedgerTransactionId ≠ none →
    new.bundledLedgerTransactionId = old.bundledLedgerTransactionId

omit [DecidableEq J] in
theorem Advances.refl (row : ApprovalRequest J) : Advances row row :=
  ⟨fun _ => rfl, fun _ => rfl, fun _ => rfl⟩

omit [DecidableEq J] in
theorem Advances.trans {a b c : ApprovalRequest J} (h : Advances a b) (h' : Advances b c) : Advances a c where
  state ha := by
    have hb := h.state ha
    exact (h'.state (hb ▸ ha)).trans hb
  bundledAt ha := by
    have hb := h.bundledAt ha
    exact (h'.bundledAt (hb ▸ ha)).trans hb
  transaction ha := by
    have hb := h.transaction ha
    exact (h'.transaction (hb ▸ ha)).trans hb

structure Bundling (row : ApprovalRequest J) : Prop where
  together : row.bundledAt = none ↔ row.bundledLedgerTransactionId = none
  terminal : row.state = .pending → row.bundledAt = none

theorem blockImmutableUpdates_ok (h : blockImmutableUpdates old new = .ok ()) (hold : Bundling old)
    (hid : new.approvalId = old.approvalId) : Frozen old new ∧ Advances old new ∧ Bundling new := by
  simp only [blockImmutableUpdates, check_bind_eq_ok] at h
  obtain ⟨⟨h1, h2, h3, h4, h5, h6, h7, h8, h9, h10, h11⟩, h⟩ := h
  refine ⟨⟨hid, h1, h2, h3, h4, h5, h6, h7, h8, h9, h10, h11⟩, ?_⟩
  split at h
  case isTrue hterminal =>
    simp only [check_bind_eq_ok, check_eq_ok] at h
    obtain ⟨hstate, -, hat, htransaction, htogether⟩ := h
    refine ⟨⟨fun _ => hstate, hat.resolve_left, htransaction.resolve_left⟩, htogether, ?_⟩
    intro hpending
    exact absurd (hstate ▸ hpending) hterminal
  case isFalse hpending =>
    rw [not_not] at hpending
    rw [check_eq_ok] at h
    have hat := hold.terminal hpending
    refine ⟨⟨fun hne => absurd hpending hne, fun hne => absurd hat hne, fun hne => ?_⟩, ?_, fun _ => h.1⟩
    · exact absurd (hold.together.mp hat) hne
    · exact ⟨fun _ => h.2, fun _ => h.1⟩

theorem updateRow_ok (h : updateRow s new = .ok s') :
    blockImmutableUpdates s.row new = .ok () ∧ s'.row = new ∧ s'.events = s.events := by
  simp only [updateRow, bind_eq_ok] at h
  obtain ⟨⟨⟩, hblock, -, -, -, -, h⟩ := h
  cases h
  exact ⟨hblock, rfl, rfl⟩

theorem resolveApprovalRequest_ok {answer : ApprovalState × Bool}
    (h : resolveApprovalRequest c s = .ok (answer, s')) :
    (answer.2 = false ∧ s' = s) ∨
      ∃ target, answer = (target, true) ∧ c.target.bind ApprovalState.target = some target ∧
        s.row.state = .pending ∧ target ≠ .pending ∧
        (target.explicit = true → c.checkedAt < s.row.ttlExpiresAt) ∧
        blockImmutableUpdates s.row (c.resolved s.row target) = .ok () ∧
        s' = ⟨c.resolved s.row target, c.event s.row target :: s.events⟩ := by
  unfold resolveApprovalRequest at h
  split at h
  case isTrue =>
    cases h
    exact .inl ⟨rfl, rfl⟩
  case isFalse =>
    simp only [check_bind_eq_ok, found_bind_eq_ok] at h
    obtain ⟨hpending, text, htext, target, htarget, httl, h⟩ := h
    rw [bind_eq_ok] at h
    obtain ⟨s₁, hupdate, h⟩ := h
    rw [bind_eq_ok] at h
    obtain ⟨-, -, h⟩ := h
    obtain ⟨hblock, hrow, hevents⟩ := updateRow_ok hupdate
    cases h
    refine .inr ⟨target, rfl, ?_, hpending, ?_, ?_, hblock, ?_⟩
    · rw [htext]
      exact htarget
    · rintro rfl
      unfold ApprovalState.target at htarget
      split at htarget <;> cases htarget
    · intro hexplicit
      exact httl.resolve_left fun hfalse => Bool.false_ne_true (hfalse.symm.trans hexplicit)
    · rw [← hrow, ← hevents]

theorem markApprovalBundled_ok {transaction : Option Uuid} {now : ℤ} {first : Bool}
    (h : markApprovalBundled transaction now s = .ok (first, s')) :
    s.row.state = .approved ∧ ((first = false ∧ s' = s) ∨
      (first = true ∧ s.row.bundledLedgerTransactionId = none ∧ blockImmutableUpdates s.row
          { s.row with bundledAt := some now, bundledLedgerTransactionId := transaction } = .ok () ∧
        s' = ⟨{ s.row with bundledAt := some now, bundledLedgerTransactionId := transaction }, s.events⟩)) := by
  simp only [markApprovalBundled, check_bind_eq_ok] at h
  obtain ⟨hstate, h⟩ := h
  refine ⟨hstate, ?_⟩
  split at h
  · rw [check_bind_eq_ok] at h
    cases h.2
    exact .inl ⟨rfl, rfl⟩
  · next hunbundled =>
    rw [bind_eq_ok] at h
    obtain ⟨s₁, hupdate, h⟩ := h
    obtain ⟨hblock, hrow, hevents⟩ := updateRow_ok hupdate
    cases h
    exact .inr ⟨rfl, hunbundled, hblock, by rw [← hrow, ← hevents]⟩

end Updates

structure ApprovalWorld (J : Type) where
  record : ApprovalRecord J
  clock : ℤ

inductive ApprovalCall (J : Type)
  | resolve (c : ResolveCall)
  | sweep (seen : ApprovalRequest J) (selectedAt checkedAt updatedAt : ℤ)
  | bundle (transaction : Option Uuid) (now : ℤ)
  | update (new : ApprovalRequest J) (now : ℤ)

namespace ApprovalWorld

/-- Each call has the row's lock from its first look at the row to its end. -/
inductive Step : ApprovalWorld J → ApprovalCall J → ApprovalWorld J → Prop
  | resolve {g} {c : ResolveCall} {answer : ApprovalState × Bool} {s : ApprovalRecord J} :
      g.clock ≤ c.checkedAt → c.checkedAt ≤ c.updatedAt →
      resolveApprovalRequest c g.record = .ok (answer, s) → Step g (.resolve c) ⟨s, c.updatedAt⟩
  | sweep {g} {seen : ApprovalRequest J} {selectedAt checkedAt updatedAt : ℤ} {s : ApprovalRecord J} :
      selectedAt ≤ checkedAt → g.clock ≤ checkedAt → checkedAt ≤ updatedAt →
      expirePendingApprovalsDue seen selectedAt checkedAt updatedAt g.record = .ok s →
      Step g (.sweep seen selectedAt checkedAt updatedAt) ⟨s, updatedAt⟩
  | bundle {g} {transaction : Option Uuid} {now : ℤ} {first : Bool} {s : ApprovalRecord J} :
      g.clock ≤ now → markApprovalBundled transaction now g.record = .ok (first, s) →
      Step g (.bundle transaction now) ⟨s, now⟩
  | update {g} {new : ApprovalRequest J} {now : ℤ} {s : ApprovalRecord J} :
      g.clock ≤ now → updateRow g.record new = .ok s → Step g (.update new now) ⟨s, now⟩
  -- a call that fails or is rolled back
  | undone {g} (e : ApprovalCall J) (now : ℤ) : g.clock ≤ now → Step g e { g with clock := now }

/-- A transition out of `pending`, with its event, by a procedure that resolves. -/
def Moves (g g' : ApprovalWorld J) (target : ApprovalState) : Prop :=
  g.record.row.state = .pending ∧ g'.record.row.state = target ∧ target ≠ .pending ∧
    ∃ event, g'.record.events = event :: g.record.events ∧ event.fromState = .pending ∧ event.toState = target

def Does (g g' : ApprovalWorld J) : ApprovalCall J → Prop
  | .resolve c => g'.record = g.record ∨ ∃ target, Moves g g' target ∧
      (target.explicit = true → c.updatedAt < g.record.row.ttlExpiresAt)
  | .sweep .. => g'.record = g.record ∨ Moves g g' .expired
  | .bundle transaction now => g'.record = g.record ∨
      (g.record.row.state = .approved ∧ g'.record.events = g.record.events ∧
        g'.record.row.bundledAt = some now ∧ g'.record.row.bundledLedgerTransactionId = transaction)
  | .update .. => g'.record.events = g.record.events

structure Sound (g : ApprovalWorld J) (e : ApprovalCall J) (g' : ApprovalWorld J) : Prop where
  frozen : Frozen g.record.row g'.record.row
  advances : Advances g.record.row g'.record.row
  does : Does g g' e

structure Safe (g : ApprovalWorld J) (tr : List (ApprovalCall J × ApprovalWorld J)) : Prop where
  frozen : (g :: tr.map Prod.snd).Pairwise fun a b => Frozen a.record.row b.record.row
  advances : (g :: tr.map Prod.snd).Pairwise fun a b => Advances a.record.row b.record.row
  bundling : ∀ p ∈ tr, Bundling p.2.record.row
  steps : Trace Sound g tr

/-- An update keeps the id of the row, and a call that finds the row in time also updates it in time. -/
def Timely (g : ApprovalWorld J) : ApprovalCall J → Prop
  | .resolve c => c.checkedAt < g.record.row.ttlExpiresAt → c.updatedAt < g.record.row.ttlExpiresAt
  | .update new _ => new.approvalId = g.record.row.approvalId
  | _ => True

variable {g g' : ApprovalWorld J} {e : ApprovalCall J}

omit [DecidableEq J] in
theorem sound_same (hrecord : g'.record = g.record) : Sound g e g' where
  frozen := hrecord ▸ Frozen.refl _
  advances := hrecord ▸ Advances.refl _
  does := by
    cases e with
    | resolve c => exact .inl hrecord
    | sweep => exact .inl hrecord
    | bundle => exact .inl hrecord
    | update => exact congrArg ApprovalRecord.events hrecord

theorem resolved_sound {c : ResolveCall} {answer : ApprovalState × Bool} {s : ApprovalRecord J} {now : ℤ}
    (hresolve : resolveApprovalRequest c g.record = .ok (answer, s)) (hbundling : Bundling g.record.row) :
    (s = g.record ∨ ∃ target, c.target.bind ApprovalState.target = some target ∧ Moves g ⟨s, now⟩ target ∧
        (target.explicit = true → c.checkedAt < g.record.row.ttlExpiresAt)) ∧
      Frozen g.record.row s.row ∧ Advances g.record.row s.row ∧ Bundling s.row := by
  rcases resolveApprovalRequest_ok hresolve with ⟨-, hsame⟩ |
    ⟨target, -, hasked, hpending, htarget, httl, hblock, rfl⟩
  · rw [hsame]
    exact ⟨.inl rfl, Frozen.refl _, Advances.refl _, hbundling⟩
  · refine ⟨.inr ⟨target, hasked, ?_, httl⟩, blockImmutableUpdates_ok hblock hbundling rfl⟩
    exact ⟨hpending, rfl, htarget, c.event g.record.row target, rfl, hpending, rfl⟩

theorem Step.sound (h : Step g e g') (hbundling : Bundling g.record.row) (htimely : g.Timely e) :
    Sound g e g' ∧ Bundling g'.record.row := by
  cases h with
  | @resolve c answer s _ _ hresolve =>
    obtain ⟨hmoves, hfrozen, hadvances, hbundling'⟩ := resolved_sound hresolve hbundling
    refine ⟨⟨hfrozen, hadvances, ?_⟩, hbundling'⟩
    rcases hmoves with hsame | ⟨target, -, hmoves, httl⟩
    · exact .inl hsame
    · exact .inr ⟨target, hmoves, fun hexplicit => htimely (httl hexplicit)⟩
  | @sweep seen t t₁ t₂ s _ _ _ hsweep =>
    unfold expirePendingApprovalsDue at hsweep
    split at hsweep
    case isTrue =>
      cases hresolve : resolveApprovalRequest ⟨some "expired", none, none, none, t₁, t₂⟩ g.record with
      | error e =>
        rw [hresolve] at hsweep
        cases hsweep
      | ok r =>
        rw [hresolve] at hsweep
        cases hsweep
        obtain ⟨hmoves, hfrozen, hadvances, hbundling'⟩ := resolved_sound hresolve hbundling
        refine ⟨⟨hfrozen, hadvances, ?_⟩, hbundling'⟩
        rcases hmoves with hsame | ⟨target, hasked, hmoves, -⟩
        · exact .inl hsame
        · cases hasked
          exact .inr hmoves
    case isFalse =>
      cases hsweep
      exact ⟨sound_same rfl, hbundling⟩
  | @bundle transaction now first s _ hbundle =>
    obtain ⟨hstate, hcase⟩ := markApprovalBundled_ok hbundle
    rcases hcase with ⟨-, hsame⟩ | ⟨-, -, hblock, rfl⟩
    · rw [hsame]
      exact ⟨sound_same rfl, hbundling⟩
    · obtain ⟨hfrozen, hadvances, hbundling'⟩ := blockImmutableUpdates_ok hblock hbundling rfl
      exact ⟨⟨hfrozen, hadvances, .inr ⟨hstate, rfl, rfl, rfl⟩⟩, hbundling'⟩
  | @update new now s _ hupdate =>
    obtain ⟨hblock, hrow, hevents⟩ := updateRow_ok hupdate
    obtain ⟨hfrozen, hadvances, hbundling'⟩ := blockImmutableUpdates_ok hblock hbundling htimely
    rw [← hrow] at hfrozen hadvances hbundling'
    exact ⟨⟨hfrozen, hadvances, hevents⟩, hbundling'⟩
  | undone => exact ⟨sound_same rfl, hbundling⟩

/-- An approval is safe along a run whose updates keep the row's id and in which no call sees the time of
the approval pass between its look at the row and its update. -/
theorem approval_safe {tr : List (ApprovalCall J × ApprovalWorld J)} (h : Trace Step g tr)
    (hbundling : Bundling g.record.row) (htimely : Along Timely g tr) : g.Safe tr := by
  have hstep (g : ApprovalWorld J) (e : ApprovalCall J) (g' : ApprovalWorld J)
      (hg : Bundling g.record.row) (ht : g.Timely e) (hs : Step g e g') :
      Sound g e g' ∧ Bundling g'.record.row := hs.sound hg ht
  have hsound : Trace Sound g tr := h.refine (I := fun g => Bundling g.record.row) htimely hstep hbundling
  constructor
  · exact hsound.pairwise (I := fun _ => True) (R := fun a b => Frozen a.record.row b.record.row)
      (fun _ _ _ _ _ => trivial) trivial (fun _ _ _ => Frozen.trans) fun _ _ _ _ hs => hs.frozen
  · exact hsound.pairwise (I := fun _ => True) (R := fun a b => Advances a.record.row b.record.row)
      (fun _ _ _ _ _ => trivial) trivial (fun _ _ _ => Advances.trans) fun _ _ _ _ hs => hs.advances
  · exact h.invariant (I := fun g => Bundling g.record.row) htimely
      (fun g e g' hg ht hs => (hstep g e g' hg ht hs).2) hbundling
  · exact hsound

section Request

def pendingRequest : ApprovalRequest String where
  approvalId := ⟨1, []⟩
  tenantId := ⟨2, []⟩
  decisionId := ⟨3, []⟩
  auditDecisionEventId := ⟨4, []⟩
  state := .pending
  ttlExpiresAt := 100
  approverPolicy := "[]"
  requestedEffect := "[]"
  decisionContext := "[]"
  resolvedAt := none
  resolvedBySubject := none
  resolvedByIssuer := none
  resolutionReason := none
  createdAt := 0
  bundledAt := none
  bundledLedgerTransactionId := none
  proposalSource := .sidecarDecision
  proposedDslPatch := none
  proposingFindingId := none

def pendingWorld : ApprovalWorld String := ⟨⟨pendingRequest, []⟩, 0⟩

def approveAt (checkedAt updatedAt : ℤ) : ResolveCall :=
  ⟨some "approved", some "alice", some "idp", some "ok", checkedAt, updatedAt⟩

def approvedAt (checkedAt updatedAt : ℤ) : ApprovalWorld String :=
  ⟨⟨(approveAt checkedAt updatedAt).resolved pendingRequest .approved,
    [(approveAt checkedAt updatedAt).event pendingRequest .approved]⟩, updatedAt⟩

def renamedWorld : ApprovalWorld String := ⟨⟨{ pendingRequest with approvalId := ⟨9, []⟩ }, []⟩, 10⟩

/-- The trigger does not look at the id of a row, and an approver who is in time at the check can be late
at the update. -/
theorem pendingRequest_unsafe :
    (Trace Step pendingWorld [(.update renamedWorld.record.row 10, renamedWorld)] ∧
        ¬pendingWorld.Safe [(.update renamedWorld.record.row 10, renamedWorld)]) ∧
      Trace Step pendingWorld [(.resolve (approveAt 99 101), approvedAt 99 101)] ∧
        ¬pendingWorld.Safe [(.resolve (approveAt 99 101), approvedAt 99 101)] := by
  refine ⟨⟨.cons (.update (by decide) rfl) (.nil _), ?_⟩, .cons (.resolve (by decide) (by decide) rfl) (.nil _), ?_⟩
  · intro hsafe
    have hfrozen := (List.pairwise_cons.mp hsafe.frozen).1 renamedWorld (by simp)
    exact absurd hfrozen.approvalId (by decide)
  · intro hsafe
    cases hsafe.steps with
    | cons hsound _ =>
      rcases hsound.does with hsame | ⟨target, ⟨-, hstate, -⟩, hlate⟩
      · exact absurd (congrArg (fun r => r.row.state) hsame) (by decide)
      · cases hstate
        exact absurd (hlate rfl) (by decide)

/-- An approval in time. -/
theorem pendingRequest_safe :
    Trace Step pendingWorld [(.resolve (approveAt 10 11), approvedAt 10 11)] ∧
      pendingWorld.Safe [(.resolve (approveAt 10 11), approvedAt 10 11)] := by
  have htrace : Trace Step pendingWorld [(.resolve (approveAt 10 11), approvedAt 10 11)] :=
    .cons (.resolve (by decide) (by decide) rfl) (.nil _)
  exact ⟨htrace, approval_safe htrace ⟨by decide, fun _ => rfl⟩ ⟨fun _ => by decide, trivial⟩⟩

end Request

end ApprovalWorld

end SpendGuard.Approval
