import SpendGuard.Ledger.Reserve

namespace SpendGuard.Ledger

open Base Base.Proc

/-- The arguments `post_commit_estimated_transaction` and `post_provider_reported_transaction`
share. -/
structure CommitPost where
  transaction : TransactionArgs
  unit : Option Uuid
  reservation : Uuid
  amount : ℤ
  pricing : Pricing
  audit : AuditArgs

namespace Db

/-- The credit on `reserved_hold` that the reserve wrote, `LIMIT 1`. -/
def reserveEntry (db : Db) (tenant reservation : Uuid) : Option LedgerEntry :=
  db.entries.find? fun e => e.account.tenant = tenant ∧ e.reservation = some reservation ∧
    e.account.kind = .reservedHold ∧ e.direction = .credit

def reservation? (db : Db) (tenant id : Uuid) : Option Reservation :=
  db.reservations.find? fun r => r.tenant = tenant ∧ r.id = id

def commit? (db : Db) (tenant reservation : Uuid) : Option Commit :=
  db.commits.find? fun c => c.tenant = tenant ∧ c.reservation = reservation

def setReservationState (db : Db) (tenant id : Uuid) (old new : ReservationState) : Db :=
  { db with reservations := db.reservations.map fun r =>
      if r.id = id ∧ r.tenant = tenant ∧ r.state = old then { r with state := new } else r }

def insertCommit (db : Db) (c : Commit) : Db := { db with commits := db.commits ++ [c] }

def updateCommits (db : Db) (p : Commit → Bool) (f : Commit → Commit) : Db :=
  { db with commits := db.commits.map fun c => if p c then f c else c }

end Db

def lockReservation (tenant id : Uuid) : SqlProc Reservation := do
  acquire (.reservation id)
  let db ← read
  demand (db.reservation? tenant id) ⟨"P0001", "RESERVATION_STATE_CONFLICT: reservation_id " ++ id.text ++
    " not found for tenant " ++ tenant.text⟩

/-- `UPDATE reservations … WHERE current_state = old`, which must hit one row. -/
def updateReservation (tenant id : Uuid) (old new : ReservationState) : SqlProc Unit := do
  let db ← read
  let n := (db.reservations.filter fun r => r.id = id ∧ r.tenant = tenant ∧ r.state = old).length
  require (n = 1) ⟨"P0001", "RESERVATION_STATE_CONFLICT: UPDATE reservations affected " ++ toString n ++
    " rows (expected 1)"⟩
  write (·.setReservationState tenant id old new)

def checkPricing (p : Pricing) (e : LedgerEntry) : SqlProc Unit :=
  require (p = e.pricing)
    ⟨"P0001", "PRICING_FREEZE_MISMATCH: caller pricing differs from original reserve"⟩

def checkUnit (unit : Option Uuid) (e : LedgerEntry) : SqlProc Unit :=
  require (∀ u ∈ unit, u = e.account.unit) ⟨"P0001", "UNIT_MISMATCH: caller unit_id " ++
    (unit.elim "" Uuid.text) ++ " does not match original reserve " ++ e.account.unit.text⟩

/-- `0 < amount <= original_reserved`; `overrun` ends the message of the second test. -/
def checkAmount (field : String) (amount : ℤ) (e : LedgerEntry) (overrun : String) : SqlProc Unit := do
  require (0 < amount) ⟨"22023", "INVALID_AMOUNT: " ++ field ++ " must be > 0; got " ++ toString amount⟩
  require (amount ≤ e.amount) ⟨"P0001", "OVERRUN_RESERVATION: " ++ field ++ " " ++ toString amount ++
    " exceeds original_reserved " ++ toString e.amount ++ overrun⟩

def deferredOverrun : String := "; post-commit overrun must route through overrun_debt path (deferred)"

/-- An entry of a post that settles the reservation of `e`. -/
def settleDraft (e : LedgerEntry) (reservation : Uuid) (k : AccountKind) (d : Direction) (n : ℕ) :
    EntryDraft :=
  ⟨e.account.withKind k, d, n, e.pricing, some reservation, 1⟩

def commitDrafts (e : LedgerEntry) (reservation : Uuid) (estimated : ℕ) : List EntryDraft :=
  [settleDraft e reservation .reservedHold .debit estimated,
    settleDraft e reservation .committedSpend .credit estimated] ++
  if 0 < e.amount - estimated then
    [settleDraft e reservation .reservedHold .debit (e.amount - estimated),
      settleDraft e reservation .availableBudget .credit (e.amount - estimated)]
  else []

theorem mem_commitDrafts {e : LedgerEntry} {reservation : Uuid} {n : ℕ} {d : EntryDraft}
    (h : d ∈ commitDrafts e reservation n) : ∃ k dir m, d = settleDraft e reservation k dir m ∧
      (k ≠ .reservedHold ∨ dir = .debit) ∧ (k = .availableBudget → dir = .credit) := by
  unfold commitDrafts at h
  split at h
  · simp only [List.cons_append, List.nil_append, List.mem_cons, List.not_mem_nil, or_false] at h
    rcases h with rfl | rfl | rfl | rfl
    all_goals exact ⟨_, _, _, rfl, by decide, by decide⟩
  · simp only [List.append_nil, List.mem_cons, List.not_mem_nil, or_false] at h
    rcases h with rfl | rfl
    all_goals exact ⟨_, _, _, rfl, by decide, by decide⟩

def commitKinds (e : LedgerEntry) (estimated : ℕ) : List AccountKind :=

  [.reservedHold, .committedSpend] ++ if 0 < e.amount - estimated then [.availableBudget] else []

def Account.lockKey (a : Account) (k : AccountKind) : Uuid × Uuid × AccountKind := (a.budget, a.unit, k)

def CommitPost.commitRow (r : CommitPost) (e : LedgerEntry) : Commit where
  id := r.reservation.digest ":commit_estimated"
  reservation := r.reservation
  tenant := r.transaction.tenant
  budget := e.account.budget
  unit := e.account.unit
  latestState := .estimated
  estimatedAmount := some r.amount.toNat
  providerReportedAmount := none
  invoiceReconciledAmount := none
  deltaToReserved := r.amount - e.amount
  pricingVersion := e.pricing.version
  priceSnapshotHash := e.pricing.snapshotHash

/-- `ON CONFLICT (commit_id) DO NOTHING`, then the divergence check on the row that is there. -/
def insertCommit (c : Commit) : SqlProc Unit := do
  acquire (.commitId c.id)
  let db ← read
  match db.commits.find? fun x => x.id = c.id with
  | none => write (·.insertCommit c)
  | some x =>
    require ((∀ n ∈ x.estimatedAmount, some n = c.estimatedAmount) ∧ x.latestState = .estimated)
      ⟨"P0001", "COMMIT_ROW_DIVERGENT: existing commit_id " ++ c.id.text ++
        " differs from intent (state=" ++ x.latestState.text ++ ", amount=" ++
        (x.estimatedAmount.elim "<NULL>" toString) ++ ")"⟩

def postCommitEstimatedWrites (r : CommitPost) (e : LedgerEntry) (numbered : List (EntryDraft × ℕ)) :
    SqlProc Uuid := do
  write (·.insertEntries (numbered.map fun d => d.1.entry r.transaction.id d.2))
  assertPerUnitBalanceNow r.transaction.id
  insertAudit (r.transaction.auditRow .commitEstimated r.audit)
  updateReservation r.transaction.tenant r.reservation .reserved .committed
  insertCommit (r.commitRow e)
  return r.transaction.id

def postCommitEstimatedChecked (r : CommitPost) : SqlProc Uuid := do
  let tenant := r.transaction.tenant
  let res ← lockReservation tenant r.reservation
  require (res.state = .reserved) ⟨"P0001", "RESERVATION_STATE_CONFLICT: reservation_id " ++
    r.reservation.text ++ " current_state=" ++ res.state.text ++ ", expected reserved"⟩
  let now ← clock
  require (res.ttlExpiresAt.passed now = false) ⟨"P0001", "RESERVATION_TTL_EXPIRED: reservation_id " ++
    r.reservation.text ++ " ttl_expires_at=" ++ toString res.ttlExpiresAt ++ " <= now()"⟩
  let db ← read
  let e ← demand (db.reserveEntry tenant r.reservation) ⟨"P0001",
    "reserve credit entry not found for reservation " ++ r.reservation.text ++
      "; multi-reservation decisions are rejected upstream"⟩
  checkPricing r.pricing e
  checkUnit r.unit e
  checkAmount "estimated_amount" r.amount e ""
  let kinds := commitKinds e r.amount.toNat
  resolveAccounts (kinds.map e.account.withKind)
  lockAccounts (kinds.map e.account.withKind)
  let numbered ← allocateSequences (commitDrafts e r.reservation r.amount.toNat)
  match ← insertTransaction r.transaction .commitEstimated
      (lockOrderToken (kinds.map e.account.lockKey)) with
  | some id => return id
  | none => postCommitEstimatedWrites r e numbered

/-- Unlike its siblings the procedure does not look for a replay again once it has the fencing
lock. -/
def postCommitEstimatedFenced (r : CommitPost) : SqlProc Uuid := do
  fencingCas r.transaction (allowedScope .commitEstimated) "operation commit_estimated"
  postCommitEstimatedChecked r

def postCommitEstimatedTransaction (r : CommitPost) : SqlProc Uuid := do
  match ← idempotentReplay r.transaction .commitEstimated with
  | some id => return id
  | none => postCommitEstimatedFenced r

section Exec

variable {now : ℕ} {db db' : Db} {id : Uuid}

/-- Exactly one row is in the state an `UPDATE reservations` leaves. -/
def Db.OneReservation (db : Db) (tenant id : Uuid) (state : ReservationState) : Prop :=
  (db.reservations.filter fun r => r.id = id ∧ r.tenant = tenant ∧ r.state = state).length = 1

section Bind

variable {α : Type} {f : Unit → SqlProc α} {r : α × Db}

@[simp] theorem exec_lockReservation_bind {k : Reservation → SqlProc α} {tenant res : Uuid} :
    exec now (lockReservation tenant res >>= k) db = .ok r ↔
      ∃ x, db.reservation? tenant res = some x ∧ exec now (k x) db = .ok r := by
  simp [exec_bind_eq_ok, lockReservation]

@[simp] theorem exec_updateReservation_bind {tenant res : Uuid} {old new : ReservationState} :
    exec now (updateReservation tenant res old new >>= f) db = .ok r ↔
      db.OneReservation tenant res old ∧
        exec now (f ()) (db.setReservationState tenant res old new) = .ok r := by
  apply exec_bind_of_iff
  intro u
  simp only [updateReservation, exec_read_bind, exec_require_bind, exec_write, Except.ok.injEq,
    Db.OneReservation, eq_comm (b := u)]

@[simp] theorem exec_checkPricing_bind {p : Pricing} {e : LedgerEntry} :
    exec now (checkPricing p e >>= f) db = .ok r ↔ p = e.pricing ∧ exec now (f ()) db = .ok r :=
  exec_require_bind

@[simp] theorem exec_checkUnit_bind {unit : Option Uuid} {e : LedgerEntry} :
    exec now (checkUnit unit e >>= f) db = .ok r ↔
      (∀ u ∈ unit, u = e.account.unit) ∧ exec now (f ()) db = .ok r :=
  exec_require_bind

@[simp] theorem exec_checkAmount_bind {field overrun : String} {amount : ℤ} {e : LedgerEntry} :
    exec now (checkAmount field amount e overrun >>= f) db = .ok r ↔
      (0 < amount ∧ amount ≤ e.amount) ∧ exec now (f ()) db = .ok r := by
  apply exec_bind_of_iff
  intro u
  simp only [checkAmount, exec_require_bind, exec_require, and_assoc]

end Bind

/-- The row inserted by a commit, or one that was there and does not contradict it. -/
inductive CommitInserted (c : Commit) (cs : List Commit) : List Commit → Prop
  | new (h : ∀ x ∈ cs, x.id ≠ c.id) : CommitInserted c cs (cs ++ [c])
  | existing {x : Commit} (h : cs.find? (fun x => x.id = c.id) = some x) : CommitInserted c cs cs

theorem exec_insertCommit {c : Commit} {u : Unit}
    (hinsert : exec now (insertCommit c) db = .ok (u, db')) :
    ∃ cs, CommitInserted c db.commits cs ∧ db' = { db with commits := cs } := by
  simp only [insertCommit, exec_acquire_bind, exec_read_bind] at hinsert
  cases hfind : db.commits.find? fun x => x.id = c.id with
  | none =>
    simp only [hfind, exec_write, Except.ok.injEq, Prod.mk.injEq, true_and] at hinsert
    refine ⟨_, .new ?_, hinsert.symm⟩
    intro x hx
    simpa using List.find?_eq_none.mp hfind x hx
  | some x =>
    simp only [hfind, exec_require] at hinsert
    obtain ⟨-, hdb⟩ := hinsert
    cases hdb
    exact ⟨_, .existing hfind, rfl⟩

structure CommitPost.Committed (r : CommitPost) (db db' : Db) (res : Reservation) (e : LedgerEntry) :
    Prop where
  found : db.reservation? r.transaction.tenant r.reservation = some res
  reserved : res.state = .reserved
  entry : db.reserveEntry r.transaction.tenant r.reservation = some e
  positive : 0 < r.amount
  within : r.amount ≤ e.amount
  posted : ∃ token, db.Posted db' (r.transaction.row .commitEstimated token)
    (commitDrafts e r.reservation r.amount.toNat)
  one : db.OneReservation r.transaction.tenant r.reservation .reserved
  reservations : db'.reservations =
    (db.setReservationState r.transaction.tenant r.reservation .reserved .committed).reservations
  commits : CommitInserted (r.commitRow e) db.commits db'.commits
  sessions : db'.sessions = db.sessions

theorem exec_postCommitEstimatedFenced {r : CommitPost}
    (hnew : db.findTransaction r.transaction.tenant .commitEstimated r.transaction.idempotencyKey = none)
    (h : exec now (postCommitEstimatedFenced r) db = .ok (id, db')) :
    id = r.transaction.id ∧ ∃ res e, r.Committed db db' res e := by
  simp only [postCommitEstimatedFenced, postCommitEstimatedChecked, exec_fencingCas_bind,
    exec_lockReservation_bind, exec_require_bind, exec_clock_bind, exec_read_bind, exec_demand_bind, exec_checkPricing_bind,
    exec_checkUnit_bind, exec_checkAmount_bind, exec_resolveAccounts_bind, exec_lockAccounts_bind] at h
  obtain ⟨-, res, hres, hstate, -, e, he, -, -, ⟨hpos, hle⟩, -, hpost⟩ := h
  obtain ⟨l, al, hl, hfresh, hwrites⟩ := exec_allocate_insert hnew hpost
  simp only [postCommitEstimatedWrites, exec_write_bind, exec_assertPerUnitBalanceNow_bind,
    exec_insertAudit_bind, exec_updateReservation_bind] at hwrites
  obtain ⟨-, -, hone, hcommit⟩ := hwrites
  obtain ⟨_, _, hinsert, hdone⟩ := exec_bind_eq_ok.mp hcommit
  cases hdone
  obtain ⟨cs, hcs, rfl⟩ := exec_insertCommit hinsert
  exact ⟨rfl, res, e, hres, hstate, he, hpos, hle, ⟨_, hfresh, rfl, l, hl, rfl⟩, hone, rfl, hcs, rfl⟩

theorem exec_postCommitEstimatedTransaction {r : CommitPost}
    (h : exec now (postCommitEstimatedTransaction r) db = .ok (id, db')) :
    db' = db ∨ ∃ res e, r.Committed db db' res e := by
  rw [postCommitEstimatedTransaction, exec_idempotentReplay_bind] at h
  rcases h with ⟨hnew, hrun⟩ | ⟨x, -, -, hrun⟩
  · exact .inr (exec_postCommitEstimatedFenced hnew hrun).2
  · cases hrun
    exact .inl rfl

theorem Db.Posted.findTransaction {r : CommitPost} {token : String} {ds : List EntryDraft}
    (h : db.Posted db' (r.transaction.row .commitEstimated token) ds)
    (hnew : db.findTransaction r.transaction.tenant .commitEstimated r.transaction.idempotencyKey = none) :
    db'.findTransaction r.transaction.tenant .commitEstimated r.transaction.idempotencyKey =
      some (r.transaction.row .commitEstimated token) := by
  rw [Db.findTransaction, h.transactions, List.find?_append, ← Db.findTransaction, hnew]
  simp [TransactionArgs.row]

theorem exec_postCommitEstimated_found {r : CommitPost}
    (h : exec now (postCommitEstimatedTransaction r) db = .ok (id, db')) :
    ∃ x, db'.findTransaction r.transaction.tenant .commitEstimated r.transaction.idempotencyKey = some x ∧
      x.requestHash = r.transaction.requestHash ∧ x.id = id := by
  rw [postCommitEstimatedTransaction, exec_idempotentReplay_bind] at h
  rcases h with ⟨hnew, hrun⟩ | ⟨x, hx, hhash, hrun⟩
  · obtain ⟨rfl, res, e, hcommitted⟩ := exec_postCommitEstimatedFenced hnew hrun
    obtain ⟨token, hposted⟩ := hcommitted.posted
    exact ⟨_, hposted.findTransaction hnew, rfl, rfl⟩
  · cases hrun
    exact ⟨x, hx, hhash, rfl⟩

theorem exec_postCommitEstimated_replay {r : CommitPost} {x : LedgerTransaction}
    (hx : db.findTransaction r.transaction.tenant .commitEstimated r.transaction.idempotencyKey = some x) :
    exec now (postCommitEstimatedTransaction r) db = .ok (id, db') ↔
      x.requestHash = r.transaction.requestHash ∧ x.id = id ∧ db' = db := by
  rw [postCommitEstimatedTransaction, exec_idempotentReplay_bind, hx]
  simp [eq_comm]

end Exec

end SpendGuard.Ledger
