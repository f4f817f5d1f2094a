import SpendGuard.Base.Logic
import SpendGuard.Ledger.Schema

/-!
The steps the posting procedures share: the idempotent replay, the fencing compare-and-set, account
resolution, sequence allocation and the inserts with their constraints.
-/

namespace SpendGuard.Ledger

open Base Base.Proc

/-- `p_transaction`: `id` is the caller's `ledger_transaction_id`, or the one the procedure mints. -/
structure TransactionArgs where
  id : Uuid
  tenant : Uuid
  idempotencyKey : String
  requestHash : Bytes
  decisionId : Uuid
  auditDecisionEventId : Uuid
  fencingScope : Uuid
  fencingEpoch : ℕ
  workload : String
  deriving DecidableEq

/-- The part of `p_audit_outbox_row` the procedures store, besides the signed payload. -/
structure AuditArgs where
  outboxId : Uuid
  eventType : EventType
  producerSequence : ℕ
  deriving DecidableEq

namespace Db

def findTransaction (db : Db) (tenant : Uuid) (op : OperationKind) (key : String) :
    Option LedgerTransaction :=
  db.transactions.find? fun t => t.tenant = tenant ∧ t.operationKind = op ∧ t.idempotencyKey = key

def fencingScope? (db : Db) (id : Uuid) : Option FencingScope :=
  db.fencingScopes.find? fun s => s.id = id

def nextSequence (db : Db) (shard : ℕ) : Db :=
  { db with allocators := db.allocators.map fun a =>
      if a.shard = shard then { a with lastSequence := a.lastSequence + 1 } else a }

def insertTransaction (db : Db) (t : LedgerTransaction) : Db :=
  { db with transactions := db.transactions ++ [t] }

def insertEntries (db : Db) (es : List LedgerEntry) : Db := { db with entries := db.entries ++ es }

def insertAudit (db : Db) (r : AuditRow) : Db := { db with audit := db.audit ++ [r] }

end Db

def idempotencyConflict : PgError := ⟨"40P03", "idempotency_key reused with different request_hash"⟩

def uniqueViolation (index : String) : PgError :=
  ⟨"23505", "duplicate key value violates unique constraint \"" ++ index ++ "\""⟩

def checkViolation (constraint : String) : PgError :=
  ⟨"23514", "new row violates check constraint \"" ++ constraint ++ "\""⟩

/-- The authoritative replay: the transaction already posted under the key, if there is one. -/
def idempotentReplay (t : TransactionArgs) (op : OperationKind) : SqlProc (Option Uuid) := do
  let db ← read
  match db.findTransaction t.tenant op t.idempotencyKey with
  | none => return none
  | some x =>
    require (x.requestHash = t.requestHash) idempotencyConflict
    return some x.id

namespace FencingScope

def expired (s : FencingScope) (now : ℕ) : Bool := s.ttlExpiresAt.any (·.passed now)

theorem expired_mono {s : FencingScope} {t t' : ℕ} (ht : t ≤ t') (h : s.expired t = true) :
    s.expired t' = true := by
  simp only [expired, Option.any_eq_true] at h ⊢
  obtain ⟨ttl, hs, hpassed⟩ := h
  exact ⟨ttl, hs, Timestamp.passed_mono ht hpassed⟩

/-- The row passes the compare-and-set of a post made at `now`. -/
structure Admits (s : FencingScope) (t : TransactionArgs) (now : ℕ) (allowed : ScopeType → Bool) :
    Prop where
  tenant : s.tenant = t.tenant
  owner : s.activeOwner = some t.workload
  live : s.expired now = false
  epoch : s.currentEpoch = t.fencingEpoch
  acquired : t.fencingEpoch ≠ 0
  scopeType : allowed s.scopeType = true

theorem Admits.earlier {s : FencingScope} {t : TransactionArgs} {now now' : ℕ}
    {allowed : ScopeType → Bool} (h : s.Admits t now allowed) (hnow : now' ≤ now) :
    s.Admits t now' allowed := by
  refine { h with live := ?_ }
  cases hlive : s.expired now' with
  | false => rfl
  | true => exact (expired_mono hnow hlive).symm.trans h.live

end FencingScope

/-- The tests of the fencing CAS on the locked row. `use` is what the message names when the scope
has a type the post may not use. -/
def fencingTests (t : TransactionArgs) (allowed : ScopeType → Bool) (use : String) : SqlProc Unit := do
  let db ← read
  let s ← demand (db.fencingScope? t.fencingScope) ⟨"40P02", "fencing_scope_id not found"⟩
  require (s.tenant = t.tenant) ⟨"40P02", "fencing_scope tenant mismatch"⟩
  require (s.activeOwner = some t.workload) ⟨"40P02",
    "fencing_scope owner mismatch: scope owner=" ++ s.activeOwner.getD "<NULL>" ++ ", caller=" ++ t.workload⟩
  let now ← clock
  require (s.expired now = false) ⟨"40P02", "fencing_scope lease expired"⟩
  require (s.currentEpoch = t.fencingEpoch) ⟨"40P02",
    "FENCING_EPOCH_STALE: caller=" ++ toString t.fencingEpoch ++ ", current=" ++ toString s.currentEpoch⟩
  -- brand-new scopes default to epoch 0; a lease that was acquired has been incremented once
  require (t.fencingEpoch ≠ 0) ⟨"40P02", "FENCING_EPOCH_STALE: epoch 0 is not a valid lease"⟩
  require (allowed s.scopeType = true) ⟨"40P02",
    "fencing_scope type " ++ s.scopeType.text ++ " not allowed for " ++ use⟩

/-- Strict fencing CAS; the row stays locked until the transaction ends. -/
def fencingCas (t : TransactionArgs) (allowed : ScopeType → Bool) (use : String) : SqlProc Unit := do
  acquire (.fencingScope t.fencingScope)
  fencingTests t allowed use

structure EntryDraft where
  account : Account
  direction : Direction
  amount : ℕ
  pricing : Pricing
  reservation : Option Uuid
  shard : ℕ
  deriving DecidableEq

def EntryDraft.entry (d : EntryDraft) (transaction : Uuid) (sequence : ℕ) : LedgerEntry :=
  ⟨transaction, d.account, d.direction, d.amount, d.pricing, d.reservation, d.shard, sequence⟩

def nextvalPerShard (shard : ℕ) : SqlProc ℕ := do
  acquire (.allocator shard)
  let db ← read
  let a ← demand (db.allocators.find? fun a => a.shard = shard)
    ⟨"P0001", "ledger_shard_id " ++ toString shard ++ " has no sequence allocator"⟩
  write (·.nextSequence shard)
  return a.lastSequence + 1

def allocateSequences : List EntryDraft → SqlProc (List (EntryDraft × ℕ))
  | [] => return []
  | d :: ds => do
    let n ← nextvalPerShard d.shard
    let rest ← allocateSequences ds
    return (d, n) :: rest

/-- The canonical lock order of account rows: budget, window, unit, kind. -/
def Account.lockLe (a b : Account) : Bool :=
  if a.budget ≠ b.budget then a.budget.le b.budget
  else if a.window ≠ b.window then a.window.le b.window
  else if a.unit ≠ b.unit then a.unit.le b.unit
  else decide (a.kind.text ≤ b.kind.text)

def acquireAll : List Lock → SqlProc Unit
  | [] => return ()
  | l :: ls => do
    acquire l
    acquireAll ls

def lockAccounts (as : List Account) : SqlProc Unit :=
  acquireAll ((as.dedup.insertionSort fun a b => a.lockLe b = true).map .account)

def TransactionArgs.row (t : TransactionArgs) (op : OperationKind) (token : String) :
    LedgerTransaction where
  id := t.id
  tenant := t.tenant
  operationKind := op
  idempotencyKey := t.idempotencyKey
  requestHash := t.requestHash
  auditDecisionEventId := t.auditDecisionEventId
  decisionId := t.decisionId
  lockOrderToken := token
  fencingScope := some t.fencingScope
  fencingEpochAtPost := some t.fencingEpoch

/-- `INSERT INTO ledger_transactions … ON CONFLICT DO NOTHING`: the id already posted under the key
when another transaction won the race. -/
def insertTransaction (t : TransactionArgs) (op : OperationKind) (token : String) :
    SqlProc (Option Uuid) := do
  acquire (.transactionKey t.tenant op t.idempotencyKey)
  let db ← read
  match db.findTransaction t.tenant op t.idempotencyKey with
  | some x =>
    require (x.requestHash = t.requestHash) idempotencyConflict
    return some x.id
  | none =>
    acquire (.transactionId t.id)
    let db ← read
    require (∀ x ∈ db.transactions, x.id ≠ t.id) (uniqueViolation "ledger_transactions_pkey")
    write (·.insertTransaction (t.row op token))
    return none

namespace LedgerEntry

def creditPositive (e : LedgerEntry) : ℤ :=
  match e.direction with
  | .credit => e.amount
  | .debit => -e.amount

end LedgerEntry

namespace Db

def balance (db : Db) (a : Account) : ℤ :=
  ((db.entries.filter fun e => e.account = a).map (·.creditPositive)).sum

def netDebit (db : Db) (tx : Uuid) (a : Account) : ℤ :=
  -((db.entries.filter fun e => e.transaction = tx ∧ e.account = a).map (·.creditPositive)).sum

def unitDiff (db : Db) (tx unit : Uuid) : ℤ :=
  -((db.entries.filter fun e => e.transaction = tx ∧ e.account.unit = unit).map (·.creditPositive)).sum

def imbalances (db : Db) (tx : Uuid) : List Uuid :=
  (((db.entries.filter fun e => e.transaction = tx).map (·.account.unit)).dedup).filter
    fun u => db.unitDiff tx u ≠ 0

/-- The `available_budget` accounts a transaction net-debits and leaves below zero. -/
def exhausted (db : Db) (tx : Uuid) : List Account :=
  (((db.entries.filter fun e => e.transaction = tx ∧ e.account.kind = .availableBudget).map
    (·.account)).dedup).filter fun a => 0 < db.netDebit tx a ∧ db.balance a < 0

end Db

def assertPerUnitBalanceNow (tx : Uuid) : SqlProc Unit := do
  let db ← read
  require (db.imbalances tx = []) ⟨"23514", "per-unit balance violation (statement-level): " ++
    ", ".intercalate ((db.imbalances tx).map fun u => u.text ++ ":" ++ toString (db.unitDiff tx u))⟩

def assertAvailableBudgetFloor (tx : Uuid) : SqlProc Unit := do
  let db ← read
  require (db.exhausted tx = []) ⟨"P0001",
    "BUDGET_EXHAUSTED: available_budget would go negative for account(s): " ++
    ", ".intercalate ((db.exhausted tx).map fun a => a.budget.text ++ ":" ++ toString (db.balance a))⟩

/-- The shape check on `workload_instance_id`. -/
def workloadShape (w : String) : Bool :=
  4 ≤ w.length && !(["sidecar", "pod", "instance", "worker", "demo"].contains w) &&
    !(["test", "placeholder", "todo", "fixme"].contains w.toLower)

/-- The insert into `audit_outbox` and its mirror, under the unique keys of the mirror. -/
def insertAudit (r : AuditRow) : SqlProc Unit := do
  require (workloadShape r.workload = true) (checkViolation "audit_outbox_workload_instance_id_shape")
  acquire (.auditEvent r.auditDecisionEventId)
  acquire (.auditDecision r.tenant r.decisionId r.eventType)
  acquire (.auditSequence r.tenant r.workload r.producerSequence)
  acquire (.auditKey r.tenant r.operationKind r.mirrorKey)
  let db ← read
  require (∀ x ∈ db.audit, x.auditDecisionEventId ≠ r.auditDecisionEventId)
    (uniqueViolation "audit_outbox_global_keys_pkey")
  require (∀ x ∈ db.audit, (x.tenant, x.decisionId, x.eventType) ≠ (r.tenant, r.decisionId, r.eventType))
    (uniqueViolation "audit_outbox_global_per_decision_uq")
  require (∀ x ∈ db.audit,
      (x.tenant, x.workload, x.producerSequence) ≠ (r.tenant, r.workload, r.producerSequence))
    (uniqueViolation "audit_outbox_global_producer_seq_uq")
  require (∀ x ∈ db.audit,
      (x.tenant, x.operationKind, x.mirrorKey) ≠ (r.tenant, r.operationKind, r.mirrorKey))
    (uniqueViolation "audit_outbox_global_idempotency_uq")
  write (·.insertAudit r)

def TransactionArgs.auditRow (t : TransactionArgs) (op : OperationKind) (a : AuditArgs) : AuditRow where
  outboxId := a.outboxId
  auditDecisionEventId := t.auditDecisionEventId
  decisionId := t.decisionId
  tenant := t.tenant
  transaction := t.id
  eventType := a.eventType
  operationKind := op
  fencingEpoch := t.fencingEpoch
  workload := t.workload
  producerSequence := a.producerSequence
  idempotencyKey := t.idempotencyKey
  mirrorKey := t.idempotencyKey

def resolveAccounts : List Account → SqlProc Unit
  | [] => return ()
  | a :: as => do
    let db ← read
    require (a ∈ db.accounts) ⟨"22023", "ledger_account not found for kind=" ++ a.kind.text ++
      " tenant=" ++ a.tenant.text ++ " budget=" ++ a.budget.text⟩
    resolveAccounts as

section Exec

variable {now : ℕ} {db db' : Db} {t : TransactionArgs} {op : OperationKind}

theorem exec_idempotentReplay_none :
    exec now (idempotentReplay t op) db = .ok (none, db') ↔
      db' = db ∧ db.findTransaction t.tenant op t.idempotencyKey = none := by
  simp only [idempotentReplay, exec_read_bind]
  cases db.findTransaction t.tenant op t.idempotencyKey with
  | none => simp [eq_comm]
  | some x => simp

theorem exec_idempotentReplay_some {id : Uuid} :
    exec now (idempotentReplay t op) db = .ok (some id, db') ↔
      db' = db ∧ ∃ x, db.findTransaction t.tenant op t.idempotencyKey = some x ∧
        x.requestHash = t.requestHash ∧ x.id = id := by
  simp only [idempotentReplay, exec_read_bind]
  cases db.findTransaction t.tenant op t.idempotencyKey with
  | none => simp
  | some x =>
    simp only [exec_require_bind, exec_pure, Except.ok.injEq, Prod.mk.injEq, Option.some.injEq,
      exists_eq_left', eq_comm (a := db')]
    tauto

@[simp] theorem exec_fencingCas {allowed : ScopeType → Bool} {use : String} {r : Unit × Db} :
    exec now (fencingCas t allowed use) db = .ok r ↔
      r = ((), db) ∧ ∃ s, db.fencingScope? t.fencingScope = some s ∧ s.Admits t now allowed := by
  simp only [fencingCas, fencingTests, exec_read_bind, exec_clock_bind, exec_acquire_bind, exec_demand_bind,
    exec_require_bind, exec_require]
  constructor
  · rintro ⟨s, hs, h₁, h₂, h₃, h₄, h₅, h₆, rfl⟩
    exact ⟨rfl, s, hs, h₁, h₂, h₃, h₄, h₅, h₆⟩
  · rintro ⟨rfl, s, hs, h⟩
    exact ⟨s, hs, h.tenant, h.owner, h.live, h.epoch, h.acquired, h.scopeType, rfl⟩

theorem exec_nextvalPerShard {shard n : ℕ} (h : exec now (nextvalPerShard shard) db = .ok (n, db')) :
    db' = db.nextSequence shard := by
  simp only [nextvalPerShard, exec_acquire_bind, exec_read_bind, exec_demand_bind, exec_write_bind,
    exec_pure, Except.ok.injEq, Prod.mk.injEq] at h
  obtain ⟨_, -, -, h⟩ := h
  exact h.symm

theorem exec_allocateSequences {ds : List EntryDraft} {l : List (EntryDraft × ℕ)}
    (h : exec now (allocateSequences ds) db = .ok (l, db')) :
    l.map Prod.fst = ds ∧ ∃ al, db' = { db with allocators := al } := by
  induction ds generalizing db db' l with
  | nil =>
    simp only [allocateSequences, exec_pure, Except.ok.injEq, Prod.mk.injEq] at h
    obtain ⟨rfl, rfl⟩ := h
    exact ⟨rfl, _, rfl⟩
  | cons d ds ih =>
    obtain ⟨n, db₁, h₁, h⟩ := exec_bind_eq_ok.mp h
    obtain ⟨l', db₂, h₂, h⟩ := exec_bind_eq_ok.mp h
    obtain rfl := exec_nextvalPerShard h₁
    obtain ⟨hl, al, rfl⟩ := ih h₂
    simp only [exec_pure, Except.ok.injEq, Prod.mk.injEq] at h
    obtain ⟨rfl, rfl⟩ := h
    exact ⟨by simp [hl], al, rfl⟩

@[simp] theorem exec_acquireAll (ls : List Lock) : exec now (acquireAll ls) db = .ok ((), db) := by
  induction ls with
  | nil => rfl
  | cons l ls ih => exact ih

@[simp] theorem exec_lockAccounts (as : List Account) :
    exec now (lockAccounts as) db = .ok ((), db) := exec_acquireAll _

@[simp] theorem exec_resolveAccounts {as : List Account} {r : Unit × Db} :
    exec now (resolveAccounts as) db = .ok r ↔ (∀ a ∈ as, a ∈ db.accounts) ∧ r = ((), db) := by
  induction as with
  | nil => simp [resolveAccounts, eq_comm]
  | cons a as ih => simp [resolveAccounts, ih, and_assoc]

@[simp] theorem exec_assertPerUnitBalanceNow {tx : Uuid} {r : Unit × Db} :
    exec now (assertPerUnitBalanceNow tx) db = .ok r ↔ db.imbalances tx = [] ∧ r = ((), db) := by
  simp only [assertPerUnitBalanceNow, exec_read_bind, exec_require]

@[simp] theorem exec_assertAvailableBudgetFloor {tx : Uuid} {r : Unit × Db} :
    exec now (assertAvailableBudgetFloor tx) db = .ok r ↔ db.exhausted tx = [] ∧ r = ((), db) := by
  simp only [assertAvailableBudgetFloor, exec_read_bind, exec_require]

theorem exec_insertTransaction_none {token : String} :
    exec now (insertTransaction t op token) db = .ok (none, db') ↔
      db.findTransaction t.tenant op t.idempotencyKey = none ∧ (∀ x ∈ db.transactions, x.id ≠ t.id) ∧
        db' = db.insertTransaction (t.row op token) := by
  simp only [insertTransaction, exec_acquire_bind, exec_read_bind]
  cases db.findTransaction t.tenant op t.idempotencyKey with
  | none =>
    simp only [exec_acquire_bind, exec_read_bind, exec_require_bind, exec_write_bind, exec_pure,
      Except.ok.injEq, Prod.mk.injEq, true_and, eq_comm (b := db')]
  | some x => simp

theorem exec_insertTransaction_some {token : String} {id : Uuid} :
    exec now (insertTransaction t op token) db = .ok (some id, db') ↔
      db' = db ∧ ∃ x, db.findTransaction t.tenant op t.idempotencyKey = some x ∧
        x.requestHash = t.requestHash ∧ x.id = id := by
  simp only [insertTransaction, exec_acquire_bind, exec_read_bind]
  cases db.findTransaction t.tenant op t.idempotencyKey with
  | none => simp
  | some x =>
    simp only [exec_require_bind, exec_pure, Except.ok.injEq, Prod.mk.injEq, Option.some.injEq,
      exists_eq_left', eq_comm (a := db')]
    tauto

/-- No row of the mirror table has a unique key of `r`. -/
structure Db.AuditFresh (db : Db) (r : AuditRow) : Prop where
  event : ∀ x ∈ db.audit, x.auditDecisionEventId ≠ r.auditDecisionEventId
  decision : ∀ x ∈ db.audit,
    (x.tenant, x.decisionId, x.eventType) ≠ (r.tenant, r.decisionId, r.eventType)
  sequence : ∀ x ∈ db.audit,
    (x.tenant, x.workload, x.producerSequence) ≠ (r.tenant, r.workload, r.producerSequence)
  key : ∀ x ∈ db.audit, (x.tenant, x.operationKind, x.mirrorKey) ≠ (r.tenant, r.operationKind, r.mirrorKey)

@[simp] theorem exec_insertAudit {a : AuditRow} {r : Unit × Db} :
    exec now (insertAudit a) db = .ok r ↔
      (workloadShape a.workload = true ∧ db.AuditFresh a) ∧ r = ((), db.insertAudit a) := by
  simp only [insertAudit, exec_acquire_bind, exec_read_bind, exec_require_bind, exec_write,
    Except.ok.injEq, eq_comm (b := r)]
  constructor
  · rintro ⟨hw, h₁, h₂, h₃, h₄, rfl⟩
    exact ⟨⟨hw, h₁, h₂, h₃, h₄⟩, rfl⟩
  · rintro ⟨⟨hw, h⟩, rfl⟩
    exact ⟨hw, h.event, h.decision, h.sequence, h.key, rfl⟩

section Bind

variable {α : Type} {f : Unit → SqlProc α} {r : α × Db}

theorem exec_idempotentReplay_bind {k : Option Uuid → SqlProc α} :
    exec now (idempotentReplay t op >>= k) db = .ok r ↔
      (db.findTransaction t.tenant op t.idempotencyKey = none ∧ exec now (k none) db = .ok r) ∨
      ∃ x, db.findTransaction t.tenant op t.idempotencyKey = some x ∧ x.requestHash = t.requestHash ∧
        exec now (k (some x.id)) db = .ok r := by
  rw [exec_bind_eq_ok]
  constructor
  · rintro ⟨o, db₁, hreplay, hrun⟩
    cases o with
    | none =>
      obtain ⟨rfl, hnew⟩ := exec_idempotentReplay_none.mp hreplay
      exact .inl ⟨hnew, hrun⟩
    | some id =>
      obtain ⟨rfl, x, hx, hhash, rfl⟩ := exec_idempotentReplay_some.mp hreplay
      exact .inr ⟨x, hx, hhash, hrun⟩
  · rintro (⟨hnew, hrun⟩ | ⟨x, hx, hhash, hrun⟩)
    · exact ⟨none, db, exec_idempotentReplay_none.mpr ⟨rfl, hnew⟩, hrun⟩
    · exact ⟨some x.id, db, exec_idempotentReplay_some.mpr ⟨rfl, x, hx, hhash, rfl⟩, hrun⟩

@[simp] theorem exec_fencingCas_bind {allowed : ScopeType → Bool} {use : String} :
    exec now (fencingCas t allowed use >>= f) db = .ok r ↔
      (∃ s, db.fencingScope? t.fencingScope = some s ∧ s.Admits t now allowed) ∧
        exec now (f ()) db = .ok r :=
  exec_bind_of_iff fun _ => exec_fencingCas.trans and_comm

@[simp] theorem exec_acquireAll_bind {ls : List Lock} :
    exec now (acquireAll ls >>= f) db = exec now (f ()) db := by
  rw [exec_bind, exec_acquireAll]
  rfl

@[simp] theorem exec_lockAccounts_bind {as : List Account} :
    exec now (lockAccounts as >>= f) db = exec now (f ()) db := exec_acquireAll_bind

@[simp] theorem exec_resolveAccounts_bind {as : List Account} :
    exec now (resolveAccounts as >>= f) db = .ok r ↔
      (∀ a ∈ as, a ∈ db.accounts) ∧ exec now (f ()) db = .ok r :=
  exec_bind_of_iff fun _ => exec_resolveAccounts

@[simp] theorem exec_assertPerUnitBalanceNow_bind {tx : Uuid} :
    exec now (assertPerUnitBalanceNow tx >>= f) db = .ok r ↔
      db.imbalances tx = [] ∧ exec now (f ()) db = .ok r :=
  exec_bind_of_iff fun _ => exec_assertPerUnitBalanceNow

@[simp] theorem exec_assertAvailableBudgetFloor_bind {tx : Uuid} :
    exec now (assertAvailableBudgetFloor tx >>= f) db = .ok r ↔
      db.exhausted tx = [] ∧ exec now (f ()) db = .ok r :=
  exec_bind_of_iff fun _ => exec_assertAvailableBudgetFloor

@[simp] theorem exec_insertAudit_bind {a : AuditRow} :
    exec now (insertAudit a >>= f) db = .ok r ↔
      (workloadShape a.workload = true ∧ db.AuditFresh a) ∧ exec now (f ()) (db.insertAudit a) = .ok r :=
  exec_bind_of_iff fun _ => exec_insertAudit

end Bind

theorem exec_allocate_insert {α : Type} {ds : List EntryDraft} {token : String}
    {k : List (EntryDraft × ℕ) → Option Uuid → SqlProc α} {r : α × Db}
    (hnew : db.findTransaction t.tenant op t.idempotencyKey = none)
    (h : exec now (allocateSequences ds >>= fun l => insertTransaction t op token >>= k l) db = .ok r) :
    ∃ l al, l.map Prod.fst = ds ∧ (∀ x ∈ db.transactions, x.id ≠ t.id) ∧
      exec now (k l none) ({ db with allocators := al }.insertTransaction (t.row op token)) = .ok r := by
  obtain ⟨l, db₁, h₁, h⟩ := exec_bind_eq_ok.mp h
  obtain ⟨o, db₂, h₂, h⟩ := exec_bind_eq_ok.mp h
  obtain ⟨hl, al, rfl⟩ := exec_allocateSequences h₁
  cases o with
  | none =>
    obtain ⟨-, hfresh, rfl⟩ := exec_insertTransaction_none.mp h₂
    exact ⟨l, al, hl, hfresh, h⟩
  | some id =>
    obtain ⟨-, x, hx, -⟩ := exec_insertTransaction_some.mp h₂
    change db.findTransaction t.tenant op t.idempotencyKey = some x at hx
    rw [hnew] at hx
    cases hx

end Exec

def EntryDraft.creditPositive (d : EntryDraft) : ℤ :=
  match d.direction with
  | .credit => d.amount
  | .debit => -d.amount

def netCredit (ds : List EntryDraft) (a : Account) : ℤ :=
  ((ds.filter fun d => d.account = a).map (·.creditPositive)).sum

@[simp] theorem netCredit_nil (a : Account) : netCredit [] a = 0 := rfl

@[simp] theorem netCredit_cons (d : EntryDraft) (ds : List EntryDraft) (a : Account) :
    netCredit (d :: ds) a = (if d.account = a then d.creditPositive else 0) + netCredit ds a := by
  by_cases h : d.account = a
  · simp [netCredit, h]
  · simp [netCredit, h]

def numberedEntries (tx : Uuid) (l : List (EntryDraft × ℕ)) : List LedgerEntry :=
  l.map fun d => d.1.entry tx d.2

theorem sum_numberedEntries (tx : Uuid) (a : Account) (l : List (EntryDraft × ℕ)) :
    (((numberedEntries tx l).filter fun e => e.account = a).map (·.creditPositive)).sum =
      netCredit (l.map Prod.fst) a := by
  induction l with
  | nil => rfl
  | cons d l ih =>
    have hd : (d.1.entry tx d.2).creditPositive = d.1.creditPositive := rfl
    simp only [numberedEntries, List.map_cons, netCredit_cons] at ih ⊢
    rw [← ih]
    by_cases h : d.1.account = a
    · simp [EntryDraft.entry, h, ← hd]
    · simp [EntryDraft.entry, h]

theorem Db.balance_append {db db' : Db} {es : List LedgerEntry} (h : db'.entries = db.entries ++ es)
    (a : Account) :
    db'.balance a = db.balance a + ((es.filter fun e => e.account = a).map (·.creditPositive)).sum := by
  simp [Db.balance, h]

/-- Every entry belongs to a transaction: the foreign key of `ledger_entries`. -/
def Db.EntriesPosted (db : Db) : Prop := ∀ e ∈ db.entries, ∃ x ∈ db.transactions, x.id = e.transaction

/-- A new transaction `x` with the entries `ds`. -/
structure Db.Posted (db db' : Db) (x : LedgerTransaction) (ds : List EntryDraft) : Prop where
  fresh : ∀ y ∈ db.transactions, y.id ≠ x.id
  transactions : db'.transactions = db.transactions ++ [x]
  entries : ∃ l, l.map Prod.fst = ds ∧ db'.entries = db.entries ++ numberedEntries x.id l

structure Db.SameBooks (db db' : Db) : Prop where
  transactions : ∀ x ∈ db.transactions, x ∈ db'.transactions
  entries : db'.entries = db.entries
  reservations : db'.reservations = db.reservations
  commits : db'.commits = db.commits
  sessions : db'.sessions = db.sessions

theorem Db.SameBooks.refl (db : Db) : db.SameBooks db := ⟨fun _ hx => hx, rfl, rfl, rfl, rfl⟩

namespace Db.Posted

variable {db db' : Db} {x : LedgerTransaction} {ds : List EntryDraft}

theorem balance (h : db.Posted db' x ds) (a : Account) :
    db'.balance a = db.balance a + netCredit ds a := by
  obtain ⟨l, rfl, he⟩ := h.entries
  rw [Db.balance_append he, sum_numberedEntries]

theorem entriesPosted (h : db.Posted db' x ds) (hp : db.EntriesPosted) : db'.EntriesPosted := by
  obtain ⟨l, -, he⟩ := h.entries
  intro e hmem
  rw [he, List.mem_append] at hmem
  rw [h.transactions]
  cases hmem with
  | inl hmem =>
    obtain ⟨y, hy, hid⟩ := hp e hmem
    exact ⟨y, List.mem_append_left _ hy, hid⟩
  | inr hmem =>
    simp only [numberedEntries, List.mem_map] at hmem
    obtain ⟨d, -, rfl⟩ := hmem
    exact ⟨x, by simp, rfl⟩

theorem netDebit (h : db.Posted db' x ds) (hp : db.EntriesPosted) (a : Account) :
    db'.netDebit x.id a = -netCredit ds a := by
  obtain ⟨l, rfl, he⟩ := h.entries
  have hold : (db.entries.filter fun e => e.transaction = x.id ∧ e.account = a) = [] := by
    rw [List.filter_eq_nil_iff]
    intro e hmem hx
    obtain ⟨y, hy, hid⟩ := hp e hmem
    simp only [decide_eq_true_eq] at hx
    exact h.fresh y hy (hid.trans hx.1)
  have hnew : ((numberedEntries x.id l).filter fun e => e.transaction = x.id ∧ e.account = a) =
      (numberedEntries x.id l).filter fun e => e.account = a := by
    apply List.filter_congr
    intro e hmem
    simp only [numberedEntries, List.mem_map] at hmem
    obtain ⟨d, -, rfl⟩ := hmem
    exact decide_eq_decide.mpr (and_iff_right rfl)
  rw [Db.netDebit, he, List.filter_append, hold, hnew, List.nil_append, sum_numberedEntries]

end Db.Posted

end SpendGuard.Ledger
