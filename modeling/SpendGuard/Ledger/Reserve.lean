import SpendGuard.Ledger.Posting

namespace SpendGuard.Ledger

open Base Base.Proc

/-- One element of `p_entries`. -/
structure EntryArgs where
  budget : Uuid
  window : Uuid
  unit : Uuid
  kind : AccountKind
  direction : Direction
  amount : ℤ
  pricing : Pricing
  reservation : Option Uuid
  shard : ℕ
  deriving DecidableEq

/-- One element of `p_reservations`. -/
structure ReservationArgs where
  id : Uuid
  budget : Uuid
  window : Uuid
  ttlExpiresAt : Timestamp
  idempotencyKey : String
  deriving DecidableEq

/-- The arguments of `post_ledger_transaction`. -/
structure LedgerPost where
  transaction : TransactionArgs
  operationKind : OperationKind
  entries : List EntryArgs
  reservations : List ReservationArgs
  audit : AuditArgs
  callerLockToken : Option String

def EntryArgs.account (e : EntryArgs) (tenant : Uuid) : Account :=
  ⟨tenant, e.budget, e.window, e.unit, e.kind⟩

def EntryArgs.draft (e : EntryArgs) (tenant : Uuid) : EntryDraft :=
  ⟨e.account tenant, e.direction, e.amount.toNat, e.pricing, e.reservation, e.shard⟩

def lockKeyLe (x y : Uuid × Uuid × AccountKind) : Bool :=
  if x.1 ≠ y.1 then x.1.le y.1
  else if x.2.1 ≠ y.2.1 then x.2.1.le y.2.1
  else decide (x.2.2.text ≤ y.2.2.text)

/-- `v1:` and the digest of the distinct keys in canonical order. -/
def lockOrderToken (keys : List (Uuid × Uuid × AccountKind)) : String :=
  "v1:" ++ sha256Hex (",".intercalate
    ((keys.dedup.insertionSort fun x y => lockKeyLe x y = true).map
      fun k => k.1.text ++ ":" ++ k.2.1.text ++ ":" ++ k.2.2.text))

def LedgerPost.token (r : LedgerPost) : String :=
  lockOrderToken (r.entries.map fun e => (e.budget, e.unit, e.kind))

def allowedScope : OperationKind → ScopeType → Bool
  | .reserve | .release | .commitEstimated | .overrunDebt => fun s =>
    s == .reservation || s == .budgetWindow
  | .providerReport | .invoiceReconcile | .refundCredit | .disputeAdjustment | .compensating
  | .adjustment => fun s => s == .controlPlaneWriter
  | .deniedDecision => fun _ => true

namespace Db

def pricingKnown (db : Db) (p : String × Bytes) : Bool :=
  db.pricingSnapshots.any fun s => s.version = p.1 ∧ s.snapshotHash = p.2

/-- `ON CONFLICT (reservation_id) DO NOTHING`. -/
def insertReservation (db : Db) (r : Reservation) : Db :=
  if ∃ x ∈ db.reservations, x.id = r.id then db
  else { db with reservations := db.reservations ++ [r] }

end Db

def LedgerPost.reservation (r : LedgerPost) (x : ReservationArgs) : Reservation :=
  ⟨x.id, r.transaction.tenant, x.budget, x.window, .reserved, r.transaction.id, x.ttlExpiresAt,
    x.idempotencyKey⟩

def insertReservations : List Reservation → SqlProc Unit
  | [] => return ()
  | x :: xs => do
    acquire (.reservationId x.id)
    write (·.insertReservation x)
    insertReservations xs

/-- Steps 9 to 12, once the row of `ledger_transactions` is in. -/
def postLedgerWrites (r : LedgerPost) (numbered : List (EntryDraft × ℕ)) : SqlProc Uuid := do
  require (∀ e ∈ r.entries, 0 ≤ e.amount) (checkViolation "ledger_entries_amount_atomic_check")
  write (·.insertEntries (numbered.map fun d => d.1.entry r.transaction.id d.2))
  assertPerUnitBalanceNow r.transaction.id
  assertAvailableBudgetFloor r.transaction.id
  insertAudit (r.transaction.auditRow r.operationKind r.audit)
  insertReservations (r.reservations.map r.reservation)
  return r.transaction.id

def postLedgerChecked (r : LedgerPost) : SqlProc Uuid := do
  let tenant := r.transaction.tenant
  require (r.entries ≠ []) ⟨"22023", "p_entries must be a non-empty array"⟩
  let db ← read
  let resolved := r.entries.filter fun e => e.account tenant ∈ db.accounts
  require (resolved.length = r.entries.length) ⟨"22023", "ledger_accounts resolution failed: input=" ++
    toString r.entries.length ++ ", resolved=" ++ toString resolved.length⟩
  let unknown := ((r.entries.map fun e => (e.pricing.version, e.pricing.snapshotHash)).dedup).filter
    fun p => !db.pricingKnown p
  require (unknown = []) ⟨"P0001",
    "PRICING_VERSION_UNKNOWN: " ++ toString unknown.length ++ " unknown tuple(s)"⟩
  require (∀ c ∈ r.callerLockToken, c = r.token) ⟨"40P03", "LOCK_ORDER_TOKEN_MISMATCH: caller=" ++
    r.callerLockToken.getD "" ++ ", derived=" ++ r.token⟩
  lockAccounts (r.entries.map (·.account tenant))
  let numbered ← allocateSequences (r.entries.map (·.draft tenant))
  match ← insertTransaction r.transaction r.operationKind r.token with
  | some id => return id
  | none => postLedgerWrites r numbered

def postLedgerFenced (r : LedgerPost) : SqlProc Uuid := do
  fencingCas r.transaction (allowedScope r.operationKind) ("operation " ++ r.operationKind.text)
  postLedgerChecked r

def postLedgerTransaction (r : LedgerPost) : SqlProc Uuid := do
  match ← idempotentReplay r.transaction r.operationKind with
  | some id => return id
  | none => postLedgerFenced r

/-- The table after `ON CONFLICT (reservation_id) DO NOTHING`. -/
def addReservation (rs : List Reservation) (r : Reservation) : List Reservation :=
  if ∃ x ∈ rs, x.id = r.id then rs else rs ++ [r]

theorem Db.insertReservation_eq (db : Db) (r : Reservation) :
    db.insertReservation r = { db with reservations := addReservation db.reservations r } := by
  unfold Db.insertReservation addReservation
  split
  · rfl
  · rfl

section Exec

variable {now : ℕ} {db db' : Db} {id : Uuid}

@[simp] theorem exec_insertReservations {xs : List Reservation} {r : Unit × Db} :
    exec now (insertReservations xs) db = .ok r ↔
      r = ((), { db with reservations := xs.foldl addReservation db.reservations }) := by
  induction xs generalizing db with
  | nil => simp [insertReservations, eq_comm]
  | cons x xs ih =>
    simp only [insertReservations, exec_acquire_bind, exec_write_bind, List.foldl_cons]
    rw [ih, Db.insertReservation_eq]

@[simp] theorem exec_insertReservations_bind {α : Type} {xs : List Reservation}
    {f : Unit → SqlProc α} {r : α × Db} :
    exec now (insertReservations xs >>= f) db = .ok r ↔
      exec now (f ()) { db with reservations := xs.foldl addReservation db.reservations } = .ok r := by
  rw [exec_bind_of_iff fun _ => exec_insertReservations.trans (iff_of_eq (true_and _)).symm, true_and]

structure LedgerPost.Posted (r : LedgerPost) (db db' : Db) : Prop where
  new : db.findTransaction r.transaction.tenant r.operationKind r.transaction.idempotencyKey = none
  posted : db.Posted db' (r.transaction.row r.operationKind r.token)
    (r.entries.map (·.draft r.transaction.tenant))
  amounts : ∀ e ∈ r.entries, 0 ≤ e.amount
  balanced : db'.imbalances r.transaction.id = []
  floor : db'.exhausted r.transaction.id = []
  reservations : db'.reservations = (r.reservations.map r.reservation).foldl addReservation db.reservations
  commits : db'.commits = db.commits
  sessions : db'.sessions = db.sessions

theorem exec_postLedgerFenced {r : LedgerPost}
    (hnew : db.findTransaction r.transaction.tenant r.operationKind r.transaction.idempotencyKey = none)
    (h : exec now (postLedgerFenced r) db = .ok (id, db')) : id = r.transaction.id ∧ r.Posted db db' := by
  simp only [postLedgerFenced, postLedgerChecked, exec_fencingCas_bind, exec_require_bind, exec_read_bind,
    exec_lockAccounts_bind] at h
  obtain ⟨-, -, -, -, -, hpost⟩ := h
  obtain ⟨l, al, hl, hfresh, hwrites⟩ := exec_allocate_insert hnew hpost
  simp only [postLedgerWrites, exec_require_bind, exec_write_bind, exec_assertPerUnitBalanceNow_bind,
    exec_assertAvailableBudgetFloor_bind, exec_insertAudit_bind, exec_insertReservations_bind,
    exec_pure] at hwrites
  obtain ⟨hamount, hbalanced, hfloor, -, hdb⟩ := hwrites
  cases hdb
  exact ⟨rfl, hnew, ⟨hfresh, rfl, l, hl, rfl⟩, hamount, hbalanced, hfloor, rfl, rfl, rfl⟩

theorem exec_postLedgerTransaction {r : LedgerPost}
    (h : exec now (postLedgerTransaction r) db = .ok (id, db')) :
    (db' = db ∧ ∃ x, db.findTransaction r.transaction.tenant r.operationKind r.transaction.idempotencyKey =
        some x ∧ x.requestHash = r.transaction.requestHash ∧ x.id = id) ∨
      (id = r.transaction.id ∧ r.Posted db db') := by
  rw [postLedgerTransaction, exec_idempotentReplay_bind] at h
  rcases h with ⟨hnew, hrun⟩ | ⟨x, hx, hhash, hrun⟩
  · exact .inr (exec_postLedgerFenced hnew hrun)
  · cases hrun
    exact .inl ⟨rfl, x, hx, hhash, rfl⟩

end Exec

end SpendGuard.Ledger
