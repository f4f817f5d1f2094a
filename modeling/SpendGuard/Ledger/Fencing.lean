import SpendGuard.Base.Interleave
import SpendGuard.Ledger.Denied
import SpendGuard.Ledger.Lease
import SpendGuard.Ledger.System

/-!
What the procedures write in `ledger_transactions` and in the fencing tables.
-/

namespace SpendGuard.Ledger

open Base Base.Proc

structure Catalog where
  accounts : List Account
  prices : List PricingSnapshot
  /-- The shards that have a sequence. -/
  shards : List ℕ

def Db.catalog (db : Db) : Catalog :=
  ⟨db.accounts, db.pricingSnapshots, db.allocators.map (·.shard)⟩

/-- The write appends rows that satisfy `p` to `ledger_transactions` and leaves the fencing tables
and the catalog alone. -/
def AppendsOnly (p : LedgerTransaction → Prop) (f : Db → Db) : Prop :=
  ∃ rows, (∀ x ∈ rows, p x) ∧ ∀ db, (f db).transactions = db.transactions ++ rows ∧
    (f db).fencingScopes = db.fencingScopes ∧ (f db).fencingEvents = db.fencingEvents ∧
    (f db).catalog = db.catalog

variable {p : LedgerTransaction → Prop}

theorem appendsOnly_of_same {f : Db → Db} (h : ∀ db, (f db).transactions = db.transactions ∧
    (f db).fencingScopes = db.fencingScopes ∧ (f db).fencingEvents = db.fencingEvents ∧
    (f db).catalog = db.catalog) : AppendsOnly p f := by
  refine ⟨[], by simp, ?_⟩
  intro db
  rw [List.append_nil]
  exact h db

theorem appendsOnly_insertTransaction {x : LedgerTransaction} (h : p x) :
    AppendsOnly p (·.insertTransaction x) := ⟨[x], by simpa using h, fun _ => ⟨rfl, rfl, rfl, rfl⟩⟩

theorem AppendsOnly.mono {q : LedgerTransaction → Prop} {f : Db → Db} (h : AppendsOnly p f)
    (hq : ∀ x, p x → q x) : AppendsOnly q f := by
  obtain ⟨rows, hrows, hf⟩ := h
  exact ⟨rows, fun x hx => hq x (hrows x hx), hf⟩

theorem transactions_of_exec {α : Type} {x : SqlProc α} {now : ℕ} {db db' : Db} {a : α}
    (hx : Writes (AppendsOnly p) x) (h : exec now x db = .ok (a, db')) :
    ∃ rows, (∀ r ∈ rows, p r) ∧ db'.transactions = db.transactions ++ rows := by
  refine exec_of_wp (Q := fun _ y => ∃ rows, (∀ r ∈ rows, p r) ∧ y = db.transactions ++ rows)
    (π := Db.transactions) (hx.wp ?_ ⟨[], by simp⟩) h
  rintro f _ ⟨new, hnew, hf⟩ ⟨rows, hrows, rfl⟩
  refine ⟨_, fun v hv => (hf v).1.trans (congrArg (· ++ new) hv), rows ++ new, ?_, List.append_assoc _ _ _⟩
  intro r hr
  rcases List.mem_append.mp hr with hr | hr
  · exact hrows r hr
  · exact hnew r hr

section Tables

@[simp] theorem appendsOnly_insertEntries (es : List LedgerEntry) :
    AppendsOnly p (·.insertEntries es) := appendsOnly_of_same fun _ => ⟨rfl, rfl, rfl, rfl⟩

@[simp] theorem appendsOnly_insertAudit (r : AuditRow) : AppendsOnly p (·.insertAudit r) :=
  appendsOnly_of_same fun _ => ⟨rfl, rfl, rfl, rfl⟩

@[simp] theorem catalog_nextSequence (db : Db) (shard : ℕ) :
    (db.nextSequence shard).catalog = db.catalog := by
  simp only [Db.catalog, Db.nextSequence, List.map_map]
  congr 2
  funext a
  simp only [Function.comp_apply]
  split <;> rfl

@[simp] theorem appendsOnly_nextSequence (shard : ℕ) : AppendsOnly p (·.nextSequence shard) :=
  appendsOnly_of_same fun db => ⟨rfl, rfl, rfl, catalog_nextSequence db shard⟩

@[simp] theorem appendsOnly_insertReservation (r : Reservation) :
    AppendsOnly p (·.insertReservation r) := by
  apply appendsOnly_of_same
  intro db
  rw [Db.insertReservation_eq]
  exact ⟨rfl, rfl, rfl, rfl⟩

@[simp] theorem appendsOnly_setReservationState (tenant id : Uuid) (old new : ReservationState) :
    AppendsOnly p (·.setReservationState tenant id old new) :=
  appendsOnly_of_same fun _ => ⟨rfl, rfl, rfl, rfl⟩

@[simp] theorem appendsOnly_insertCommit (c : Commit) : AppendsOnly p (·.insertCommit c) :=
  appendsOnly_of_same fun _ => ⟨rfl, rfl, rfl, rfl⟩

@[simp] theorem appendsOnly_updateCommits (q : Commit → Bool) (f : Commit → Commit) :
    AppendsOnly p (·.updateCommits q f) := appendsOnly_of_same fun _ => ⟨rfl, rfl, rfl, rfl⟩

@[simp] theorem appendsOnly_insertSession (s : SessionReservation) :
    AppendsOnly p (·.insertSession s) := appendsOnly_of_same fun _ => ⟨rfl, rfl, rfl, rfl⟩

@[simp] theorem appendsOnly_updateSession (id : Uuid) (f : SessionReservation → SessionReservation) :
    AppendsOnly p (·.updateSession id f) := appendsOnly_of_same fun _ => ⟨rfl, rfl, rfl, rfl⟩

@[simp] theorem appendsOnly_insertSessionCommit (c : SessionCommitDelta) :
    AppendsOnly p (·.insertSessionCommit c) := appendsOnly_of_same fun _ => ⟨rfl, rfl, rfl, rfl⟩

@[simp] theorem appendsOnly_insertSessionEvent (e : SessionEvent) :
    AppendsOnly p (·.insertSessionEvent e) := appendsOnly_of_same fun _ => ⟨rfl, rfl, rfl, rfl⟩

end Tables

section Shared

variable {t : TransactionArgs} {op : OperationKind} {P : (Db → Db) → Prop}

@[simp] theorem writes_idempotentReplay : Writes P (idempotentReplay t op) := by
  unfold idempotentReplay
  refine .bind (by simp) fun db => ?_
  split
  · simp
  · exact .bind (by simp) fun _ => by simp

@[simp] theorem writes_fencingTests {allowed : ScopeType → Bool} {use : String} :
    Writes P (fencingTests t allowed use) := by
  unfold fencingTests
  repeat refine .bind (by simp) fun _ => ?_
  simp

@[simp] theorem writes_fencingCas {allowed : ScopeType → Bool} {use : String} :
    Writes P (fencingCas t allowed use) := .bind (by simp) fun _ => by simp

@[simp] theorem writes_refuseReserved {winner : String} : Writes P (refuseReserved t winner) := by
  unfold refuseReserved
  exact .bind (by simp) fun _ => by simp

@[simp] theorem writes_acquireAll (ls : List Lock) : Writes P (acquireAll ls) := by
  induction ls with
  | nil => simp [acquireAll]
  | cons l ls ih => exact .bind (by simp) fun _ => ih

@[simp] theorem writes_lockAccounts (as : List Account) : Writes P (lockAccounts as) :=
  writes_acquireAll _

@[simp] theorem writes_assertPerUnitBalanceNow {tx : Uuid} : Writes P (assertPerUnitBalanceNow tx) :=
  .bind (by simp) fun _ => by simp

@[simp] theorem writes_assertAvailableBudgetFloor {tx : Uuid} :
    Writes P (assertAvailableBudgetFloor tx) := .bind (by simp) fun _ => by simp

@[simp] theorem writes_allocateSequences (h : ∀ shard, P (·.nextSequence shard))
    (ds : List EntryDraft) : Writes P (allocateSequences ds) := by
  induction ds with
  | nil => simp [allocateSequences]
  | cons d ds ih =>
    refine .bind ?_ fun _ => .bind ih fun _ => by simp
    unfold nextvalPerShard
    repeat refine .bind (by simp [h]) fun _ => ?_
    simp

@[simp] theorem writes_insertAudit {r : AuditRow} (h : P (·.insertAudit r)) :
    Writes P (insertAudit r) := by
  unfold insertAudit
  repeat refine .bind (by simp) fun _ => ?_
  simpa using h

def TransactionArgs.Posted (t : TransactionArgs) (op : OperationKind) (x : LedgerTransaction) : Prop :=
  ∃ token, x = t.row op token

@[simp] theorem appendsOnly_row (token : String) :
    AppendsOnly (t.Posted op) (·.insertTransaction (t.row op token)) :=
  appendsOnly_insertTransaction ⟨token, rfl⟩

@[simp] theorem writes_insertTransaction {token : String}
    (h : P (·.insertTransaction (t.row op token))) : Writes P (insertTransaction t op token) := by
  unfold insertTransaction
  repeat refine .bind (by simp) fun _ => ?_
  split
  · exact .bind (by simp) fun _ => by simp
  · repeat refine .bind (by simp [h]) fun _ => ?_
    simp

structure PostWrites (t : TransactionArgs) (op : OperationKind) (P : (Db → Db) → Prop) : Prop where
  transaction : ∀ token, P (·.insertTransaction (t.row op token))
  entries : ∀ es, P (·.insertEntries es)
  audit : ∀ r, P (·.insertAudit r)
  sequence : ∀ shard, P (·.nextSequence shard)
  reservation : ∀ r, P (·.insertReservation r)
  reservationState : ∀ tenant id old new, P (·.setReservationState tenant id old new)
  commit : ∀ c, P (·.insertCommit c)
  commits : ∀ q f, P (·.updateCommits q f)

theorem postWrites_appendsOnly : PostWrites t op (AppendsOnly (t.Posted op)) := by
  constructor <;> simp

end Shared

section Procedures

variable {P : (Db → Db) → Prop}

@[simp] theorem writes_resolveAccounts (as : List Account) : Writes P (resolveAccounts as) := by
  induction as with
  | nil => simp [resolveAccounts]
  | cons a as ih => exact .bind (by simp) fun _ => .bind (by simp) fun _ => ih

@[simp] theorem writes_insertReservations (h : ∀ r, P (·.insertReservation r))
    (xs : List Reservation) : Writes P (insertReservations xs) := by
  induction xs with
  | nil => simp [insertReservations]
  | cons x xs ih => exact .bind (by simp) fun _ => .bind (by simp [h]) fun _ => ih

theorem writes_postLedgerChecked (r : LedgerPost) (h : PostWrites r.transaction r.operationKind P) :
    Writes P (postLedgerChecked r) := by
  unfold postLedgerChecked
  repeat refine .bind (by simp [h.sequence, h.transaction]) fun _ => ?_
  split
  · simp
  · unfold postLedgerWrites
    repeat refine .bind (by simp [h.entries, h.audit, h.reservation]) fun _ => ?_
    simp

variable {tenant reservation : Uuid} {e : LedgerEntry}

@[simp] theorem writes_lockReservation {id : Uuid} : Writes P (lockReservation tenant id) := by
  unfold lockReservation
  repeat refine .bind (by simp) fun _ => ?_
  simp

@[simp] theorem writes_updateReservation {id : Uuid} {old new : ReservationState}
    (h : P (·.setReservationState tenant id old new)) :
    Writes P (updateReservation tenant id old new) := by
  unfold updateReservation
  repeat refine .bind (by simp) fun _ => ?_
  simpa using h

@[simp] theorem writes_checkPricing {x : Pricing} : Writes P (checkPricing x e) :=
  writes_require

@[simp] theorem writes_checkUnit {unit : Option Uuid} :
    Writes P (checkUnit unit e) := writes_require

@[simp] theorem writes_checkAmount {field overrun : String} {amount : ℤ} :
    Writes P (checkAmount field amount e overrun) := .bind (by simp) fun _ => by simp

theorem writes_postCommitEstimatedChecked (r : CommitPost)
    (h : PostWrites r.transaction .commitEstimated P) : Writes P (postCommitEstimatedChecked r) := by
  unfold postCommitEstimatedChecked
  repeat refine .bind (by simp [h.sequence, h.transaction]) fun _ => ?_
  split
  · simp
  · unfold postCommitEstimatedWrites
    iterate 4 refine .bind (by simp [h.entries, h.audit, h.reservationState]) fun _ => ?_
    refine .bind ?_ fun _ => by simp
    unfold insertCommit
    repeat refine .bind (by simp) fun _ => ?_
    split <;> simp [h.commit]

@[simp] theorem writes_lockCommitted :
    Writes P (lockCommitted tenant reservation) := by
  unfold lockCommitted
  repeat refine .bind (by simp) fun _ => ?_
  simp

@[simp] theorem writes_lockCommit {states : CommitState → Bool}
    {missing expected : String} : Writes P (lockCommit tenant reservation states missing expected) := by
  unfold lockCommit
  repeat refine .bind (by simp) fun _ => ?_
  simp

@[simp] theorem writes_findReserveEntry :
    Writes P (findReserveEntry tenant reservation) := .bind (by simp) fun _ => by simp

@[simp] theorem writes_updateCommit {q : Commit → Bool} {f : Commit → Commit} {label : String}
    (h : P (·.updateCommits q f)) : Writes P (updateCommit q f label) := by
  unfold updateCommit
  repeat refine .bind (by simp) fun _ => ?_
  simpa using h

theorem writes_adjustCommitted {t : TransactionArgs} {op : OperationKind}
    {delta : Option ℤ} {noop : String} {projections : SqlProc Unit}
    (h : PostWrites t op P) (hp : Writes P projections) :
    Writes P (adjustCommitted t op e reservation delta noop projections) := by
  unfold adjustCommitted
  repeat refine .bind (by simp [h.sequence, h.transaction]) fun _ => ?_
  split
  · simp
  · refine .bind (by simp [h.entries]) fun _ => .bind (by simp) fun _ => ?_
    exact .bind hp fun _ => by simp

theorem writes_postProviderReportedChecked (r : CommitPost)
    (h : PostWrites r.transaction .providerReport P) : Writes P (postProviderReportedChecked r) := by
  unfold postProviderReportedChecked
  iterate 6 refine .bind (by simp) fun _ => ?_
  apply writes_adjustCommitted h
  exact .bind (by simp [h.audit]) fun _ => by simp [h.commits]

theorem writes_postInvoiceReconciledChecked (r : InvoicePost)
    (h : PostWrites r.transaction .invoiceReconcile P) :
    Writes P (postInvoiceReconciledChecked r) := by
  unfold postInvoiceReconciledChecked
  iterate 10 refine .bind (by simp) fun _ => ?_
  apply writes_adjustCommitted h
  exact .bind (by simp [h.audit]) fun _ => .bind (by simp [h.audit]) fun _ => by simp [h.commits]

theorem writes_postReleaseChecked (r : ReleasePost) (h : PostWrites r.transaction .release P) :
    Writes P (postReleaseChecked r) := by
  unfold postReleaseChecked
  refine .bind ?_ fun res => ?_
  · unfold lockReleased
    repeat refine .bind (by simp) fun _ => ?_
    simp
  · repeat refine .bind (by simp [h.sequence, h.transaction]) fun _ => ?_
    split
    · simp
    · unfold postReleaseWrites
      repeat refine .bind (by simp [h.entries, h.audit, h.reservationState]) fun _ => ?_
      simp

theorem writes_postDeniedWrites (r : DeniedPost) :
    Writes (AppendsOnly (r.transaction.Posted .deniedDecision)) (postDeniedWrites r) := by
  unfold postDeniedWrites
  refine .bind (by simp) fun _ => .bind (by simp) fun inserted => ?_
  split
  · simp
  · exact .bind (by simp) fun _ => by simp

@[simp] theorem writes_queryDecisionOutcome {key : String} :
    Writes P (queryDecisionOutcome tenant key) := .bind (by simp) fun _ => by simp

end Procedures

section Leases

def ScopesOnly (f : Db → Db) : Prop :=
  ∀ db, ∃ scopes events, f db = { db with fencingScopes := scopes, fencingEvents := events }

theorem scopesOnly_grantLease {s : FencingScope} {r : LeaseRequest} {epoch expires : ℕ}
    {action : FencingAction} {update : FencingScope → FencingScope} :
    Writes ScopesOnly (grantLease s r epoch action expires update) := by
  refine .bind (writes_write.mpr ?_) fun _ => .bind (writes_write.mpr ?_) fun _ => writes_pure
  · exact fun _ => ⟨_, _, rfl⟩
  · exact fun _ => ⟨_, _, rfl⟩

theorem scopesOnly_acquireFencingLease (r : LeaseRequest) :
    Writes ScopesOnly (acquireFencingLease r) := by
  unfold acquireFencingLease
  iterate 7 refine .bind (by simp) fun _ => ?_
  split
  · exact scopesOnly_grantLease
  · split
    · exact scopesOnly_grantLease
    · exact writes_pure

theorem scopesOnly_tombstoneTenant (tenant : Uuid) : Writes ScopesOnly (tombstoneTenant tenant) := by
  unfold tombstoneTenant
  iterate 3 refine .bind (by simp) fun _ => ?_
  exact writes_write.mpr fun _ => ⟨_, _, rfl⟩

end Leases

section Sessions

variable {P : (Db → Db) → Prop}

def Unfenced (x : LedgerTransaction) : Prop := x.fencingScope = none

def SessionRow (x : LedgerTransaction) : Prop :=
  Unfenced x ∧ "session_".toList <+: x.idempotencyKey.toList

theorem session_prefix_append {a b : String} (h : "session_".toList <+: a.toList) :
    "session_".toList <+: (a ++ b).toList := by
  rw [String.toList_append]
  exact h.trans (List.prefix_append _ _)

theorem sessionReserve_key (r : SessionReserve) (status : SessionStatus) (outcome : SessionOutcome) :
    "session_".toList <+: (r.tx status outcome).idempotencyKey.toList := by
  cases status <;> exact session_prefix_append (by decide)

variable {s : SessionReservation} {type : String} {outcome : SessionOutcome} {r : SessionClose} {k : CloseKind}

theorem sessionCommit_key {r : SessionCommit} {op : OperationKind} {key : String}
    (h : "session_".toList <+: key.toList) :
    "session_".toList <+: (r.tx s op key type outcome).idempotencyKey.toList := by
  iterate 4 apply session_prefix_append
  exact h

theorem sessionClose_key {op : OperationKind} {key : String}
    (h : "session_".toList <+: key.toList) :
    "session_".toList <+: (r.tx s op key type outcome).idempotencyKey.toList := by
  iterate 4 apply session_prefix_append
  exact h

@[simp] theorem writes_sessionValidateAuditData {d : SessionAuditData} {eventType phase : String}
    {session : Uuid} :
    Writes P (sessionValidateAuditData d eventType session phase outcome) := by
  unfold sessionValidateAuditData
  repeat refine .bind (by simp) fun _ => ?_
  simp

theorem writes_sessionLedgerTx {t : SessionTx} (hkey : "session_".toList <+: t.idempotencyKey.toList) :
    Writes (AppendsOnly SessionRow) (sessionLedgerTx t) := by
  unfold sessionLedgerTx
  iterate 10 refine .bind (by simp) fun _ => ?_
  refine .bind ?_ fun _ => .bind (by simp) fun _ => .bind (by simp) fun _ => by simp
  unfold insertSessionTransaction
  iterate 5 refine .bind (by simp) fun _ => ?_
  exact writes_write.mpr (appendsOnly_insertTransaction ⟨rfl, hkey⟩)

@[simp] theorem writes_sessionPostTwoEntries {tx session : Uuid} {s : SessionTuple}
    {debit credit : AccountKind} {amount : ℤ} :
    Writes (AppendsOnly p) (sessionPostTwoEntries tx s session debit credit amount) := by
  unfold sessionPostTwoEntries
  split
  · simp
  · repeat refine .bind (by simp) fun _ => ?_
    simp

@[simp] theorem writes_sessionAccountId {a : Account} : Writes P (sessionAccountId a) :=
  .bind (by simp) fun _ => by simp

@[simp] theorem writes_lockSessionAccounts {s : SessionTuple} {kinds : List AccountKind} :
    Writes P (lockSessionAccounts s kinds) := .bind (by simp) fun _ => by simp

@[simp] theorem writes_lockSession {id : Uuid} : Writes P (lockSession id) := by
  unfold lockSession
  repeat refine .bind (by simp) fun _ => ?_
  simp

@[simp] theorem writes_insertSessionEvent {e : SessionEvent} :
    Writes (AppendsOnly p) (insertSessionEvent e) := by
  unfold insertSessionEvent
  repeat refine .bind (by simp) fun _ => ?_
  simp

@[simp] theorem writes_replayOutcome {found : Option (Bytes × SessionOutcome)} {hash : Bytes}
    {message : String} : Writes P (replayOutcome found hash message) := by
  unfold replayOutcome
  split
  · simp
  · exact .bind (by simp) fun _ => by simp

@[simp] theorem writes_replayReserve {r : SessionReserve} : Writes P (replayReserve r) :=
  .bind (by simp) fun _ => by simp

@[simp] theorem writes_replayCommit {r : SessionCommit} : Writes P (replayCommit r) :=
  .bind (by simp) fun _ => by simp

@[simp] theorem writes_replayClose : Writes P (replayClose k r) :=
  .bind (by simp) fun _ => by simp

theorem writes_recordReserve {r : SessionReserve} {status : SessionStatus} {ttl : Timestamp}
    {auditOutcome : SessionOutcome} :
    Writes (AppendsOnly SessionRow) (recordReserve r status ttl outcome auditOutcome) := by
  unfold recordReserve
  refine .bind ?_ fun stored => ?_
  · unfold insertSessionReserve
    refine .bind (by simp) fun _ => .bind (by simp) fun replay => ?_
    split
    · simp
    · repeat refine .bind (by simp) fun _ => ?_
      simp
  · split
    · simp
    · refine .bind (writes_sessionLedgerTx (sessionReserve_key r status auditOutcome)) fun _ => ?_
      split
      all_goals
        repeat refine .bind (by simp) fun _ => ?_
        simp

theorem writes_postSessionReserve (r : SessionReserve) :
    Writes (AppendsOnly SessionRow) (postSessionReserve r) := by
  unfold postSessionReserve
  iterate 4 refine .bind (by simp) fun _ => ?_
  split
  · simp
  · iterate 4 refine .bind (by simp) fun _ => ?_
    split
    · simp
    · unfold decideReserve
      iterate 4 refine .bind (by simp) fun _ => ?_
      split <;> exact writes_recordReserve

@[simp] theorem writes_recordCommit {r : SessionCommit} {applied : Bool} {tx : Uuid}
    : Writes (AppendsOnly p) (recordCommit r type applied tx outcome) := by
  unfold recordCommit
  repeat refine .bind (by simp) fun _ => ?_
  simp

@[simp] theorem writes_matchClaims {c : SessionCommitClaims} {t : SessionTuple} :
    Writes P (matchClaims c t) := by
  unfold matchClaims matchClaim
  repeat refine .bind (by simp) fun _ => ?_
  simp

theorem writes_postSessionCommitDelta (r : SessionCommit) :
    Writes (AppendsOnly SessionRow) (postSessionCommitDelta r) := by
  unfold postSessionCommitDelta
  iterate 3 refine .bind (by simp) fun _ => ?_
  split
  · simp
  · iterate 2 refine .bind (by simp) fun _ => ?_
    split
    · simp
    · iterate 2 refine .bind (by simp) fun _ => ?_
      split
      · exact .bind (writes_sessionLedgerTx (sessionCommit_key (by decide))) fun _ => by simp
      · unfold applyCommit
        iterate 3 refine .bind (by simp) fun _ => ?_
        refine .bind (writes_sessionLedgerTx (sessionCommit_key (by decide))) fun _ => ?_
        iterate 2 refine .bind (by simp) fun _ => ?_
        simp

@[simp] theorem writes_recordClose
    {tx : Option Uuid} {amount : Option ℤ} :
    Writes (AppendsOnly p) (recordClose k r type tx amount outcome) :=
  .bind (by simp) fun _ => by simp

theorem writes_closeActive :
    Writes (AppendsOnly SessionRow) (closeActive k r s) := by
  unfold closeActive
  iterate 3 refine .bind (by simp) fun _ => ?_
  refine .bind (writes_sessionLedgerTx (sessionClose_key (session_prefix_append (by decide)))) fun _ => ?_
  iterate 2 refine .bind (by simp) fun _ => ?_
  simp

theorem writes_postSessionRelease (reasonCode : String) (r : SessionClose) :
    Writes (AppendsOnly SessionRow) (postSessionRelease reasonCode r) := by
  unfold postSessionRelease
  iterate 2 refine .bind (by simp) fun _ => ?_
  split
  · simp
  · iterate 2 refine .bind (by simp) fun _ => ?_
    split
    · simp
    · split
      · exact writes_closeActive
      · exact writes_recordClose

theorem writes_postSessionExpire (r : SessionClose) :
    Writes (AppendsOnly SessionRow) (postSessionExpire r) := by
  unfold postSessionExpire
  iterate 2 refine .bind (by simp) fun _ => ?_
  split
  · simp
  · iterate 2 refine .bind (by simp) fun _ => ?_
    split
    · simp
    · refine .bind (by simp) fun now => ?_
      split
      · split
        · exact writes_closeActive
        · exact .bind (writes_sessionLedgerTx (sessionClose_key (by decide))) fun _ => by simp
      · exact writes_recordClose

end Sessions

end SpendGuard.Ledger
