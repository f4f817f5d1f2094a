import SpendGuard.Ledger.Commit

namespace SpendGuard.Ledger

open Base Base.Proc

/-- The arguments of `post_release_transaction`. -/
structure ReleasePost where
  transaction : TransactionArgs
  reason : String
  audit : AuditArgs

namespace Db

def reserveOfDecision (db : Db) (tenant decision : Uuid) : Option LedgerTransaction :=
  db.transactions.find? fun t => t.tenant = tenant ∧ t.operationKind = .reserve ∧ t.decisionId = decision

def reservationsOf (db : Db) (tenant source : Uuid) : List Reservation :=
  db.reservations.filter fun r => r.tenant = tenant ∧ r.sourceTransaction = source

end Db

/-- Only the sweeper releases for expiry, and it writes under its own kind of scope. -/
def releaseScope (reason : String) : ScopeType → Bool :=
  if reason = "TTL_EXPIRED" then fun s => s == .controlPlaneWriter
  else fun s => s == .reservation || s == .budgetWindow

def releaseScopeUse (reason : String) : String :=
  if reason = "TTL_EXPIRED" then "reason TTL_EXPIRED (need control_plane_writer)"
  else "sidecar-originated release reason " ++ reason

def releaseDrafts (e : LedgerEntry) (reservation : Uuid) : List EntryDraft :=
  [settleDraft e reservation .reservedHold .debit e.amount,
    settleDraft e reservation .availableBudget .credit e.amount]

def releaseToken (a : Account) : String :=
  let key := a.budget.text ++ ":" ++ a.window.text ++ ":" ++ a.unit.text
  "v1:" ++ sha256Hex (key ++ ":available_budget," ++ key ++ ":reserved_hold")

/-- Steps 4 to 6: the one reservation of the decision, locked and still reserved. -/
def lockReleased (r : ReleasePost) : SqlProc Reservation := do
  let t := r.transaction
  let db ← read
  let source ← demand (db.reserveOfDecision t.tenant t.decisionId)
    ⟨"P0001", "RESERVE_NOT_FOUND: no reserve tx for decision_id " ++ t.decisionId.text⟩
  let n := (db.reservationsOf t.tenant source.id).length
  require (n ≠ 0) ⟨"P0001", "RESERVATION_SET_EMPTY: no reservations for source_tx " ++ source.id.text⟩
  require (n ≤ 1) ⟨"P0001", "MULTI_RESERVATION_SET_DEFERRED: source_tx " ++ source.id.text ++ " has " ++
    toString n ++ " reservations; CommitEstimatedSet/ReleaseSet RPC is a future slice"⟩
  acquireAll ((db.reservationsOf t.tenant source.id).map (.reservation ·.id))
  let db ← read
  -- A missing row leaves a NULL record: both tests below pass over it and the entry lookup fails.
  let res ← demand (db.reservationsOf t.tenant source.id).head?
    ⟨"22023", "reserve credit entry not found for reservation <NULL>"⟩
  require (res.state = .reserved) ⟨"P0001", "RESERVATION_STATE_CONFLICT: reservations.current_state=" ++
    res.state.text ++ ", expected reserved"⟩
  let now ← clock
  require (r.reason = "TTL_EXPIRED" → res.ttlExpiresAt.passed now = true) ⟨"P0001",
    "RESERVATION_STATE_CONFLICT: TTL_NOT_EXPIRED — reservation.ttl_expires_at=" ++
      toString res.ttlExpiresAt ++ " > now()"⟩
  return res

def postReleaseWrites (r : ReleasePost) (reservation : Uuid) (numbered : List (EntryDraft × ℕ)) :
    SqlProc Uuid := do
  write (·.insertEntries (numbered.map fun d => d.1.entry r.transaction.id d.2))
  assertPerUnitBalanceNow r.transaction.id
  insertAudit (r.transaction.auditRow .release r.audit)
  updateReservation r.transaction.tenant reservation .reserved .released
  return r.transaction.id

def postReleaseChecked (r : ReleasePost) : SqlProc Uuid := do
  let res ← lockReleased r
  let db ← read
  let e ← demand (db.reserveEntry r.transaction.tenant res.id)
    ⟨"22023", "reserve credit entry not found for reservation " ++ res.id.text⟩
  resolveAccounts [e.account.withKind .reservedHold, e.account.withKind .availableBudget]
  lockAccounts [e.account.withKind .reservedHold, e.account.withKind .availableBudget]
  let numbered ← allocateSequences (releaseDrafts e res.id)
  match ← insertTransaction r.transaction .release (releaseToken e.account) with
  | some id => return id
  | none => postReleaseWrites r res.id numbered

def postReleaseFenced (r : ReleasePost) : SqlProc Uuid := do
  fencingCas r.transaction (releaseScope r.reason) (releaseScopeUse r.reason)
  match ← idempotentReplay r.transaction .release with
  | some id => return id
  | none => postReleaseChecked r

def postReleaseTransaction (r : ReleasePost) : SqlProc Uuid := do
  match ← idempotentReplay r.transaction .release with
  | some id => return id
  | none => postReleaseFenced r

section Exec

variable {now : ℕ} {db db' : Db} {id : Uuid}

structure ReleasePost.Released (r : ReleasePost) (db db' : Db) (res : Reservation) (e : LedgerEntry) :
    Prop where
  found : ∃ source, db.reserveOfDecision r.transaction.tenant r.transaction.decisionId = some source ∧
    db.reservationsOf r.transaction.tenant source.id = [res]
  reserved : res.state = .reserved
  entry : db.reserveEntry r.transaction.tenant res.id = some e
  posted : ∃ token, db.Posted db' (r.transaction.row .release token) (releaseDrafts e res.id)
  one : db.OneReservation r.transaction.tenant res.id .reserved
  reservations : db'.reservations =
    (db.setReservationState r.transaction.tenant res.id .reserved .released).reservations
  commits : db'.commits = db.commits
  sessions : db'.sessions = db.sessions

theorem eq_singleton_of_head? {α : Type} {xs : List α} {a : α} (hle : xs.length ≤ 1)
    (ha : xs.head? = some a) : xs = [a] := by
  cases xs with
  | nil => cases ha
  | cons b xs =>
    cases ha
    cases xs with
    | nil => rfl
    | cons c xs => simp at hle

theorem exec_lockReleased_bind {α : Type} {r : ReleasePost} {k : Reservation → SqlProc α} {u : α × Db}
    (h : exec now (lockReleased r >>= k) db = .ok u) :
    ∃ res, (∃ source, db.reserveOfDecision r.transaction.tenant r.transaction.decisionId = some source ∧
      db.reservationsOf r.transaction.tenant source.id = [res]) ∧ res.state = .reserved ∧
      exec now (k res) db = .ok u := by
  obtain ⟨res, db₁, hlock, hrun⟩ := exec_bind_eq_ok.mp h
  simp only [lockReleased, exec_read_bind, exec_demand_bind, exec_require_bind, exec_acquireAll_bind,
    exec_clock_bind, exec_pure, Except.ok.injEq, Prod.mk.injEq] at hlock
  obtain ⟨source, hsource, -, hle, x, hx, hstate, -, hres, hdb⟩ := hlock
  subst hres hdb
  exact ⟨x, ⟨source, hsource, eq_singleton_of_head? hle hx⟩, hstate, hrun⟩

theorem exec_postReleaseChecked {r : ReleasePost}
    (hnew : db.findTransaction r.transaction.tenant .release r.transaction.idempotencyKey = none)
    (h : exec now (postReleaseChecked r) db = .ok (id, db')) : ∃ res e, r.Released db db' res e := by
  rw [postReleaseChecked] at h
  obtain ⟨res, hfound, hstate, hrun⟩ := exec_lockReleased_bind h
  simp only [exec_read_bind, exec_demand_bind, exec_resolveAccounts_bind, exec_lockAccounts_bind] at hrun
  obtain ⟨e, he, -, hpost⟩ := hrun
  obtain ⟨l, al, hl, hfresh, hwrites⟩ := exec_allocate_insert hnew hpost
  simp only [postReleaseWrites, exec_write_bind, exec_assertPerUnitBalanceNow_bind,
    exec_insertAudit_bind, exec_updateReservation_bind, exec_pure] at hwrites
  obtain ⟨-, -, hone, hdb⟩ := hwrites
  cases hdb
  exact ⟨res, e, hfound, hstate, he, ⟨_, hfresh, rfl, l, hl, rfl⟩, hone, rfl, rfl, rfl⟩

theorem exec_postReleaseTransaction {r : ReleasePost}
    (h : exec now (postReleaseTransaction r) db = .ok (id, db')) :
    db' = db ∨ ∃ res e, r.Released db db' res e := by
  rw [postReleaseTransaction, exec_idempotentReplay_bind] at h
  rcases h with ⟨hnew, hrun⟩ | ⟨x, -, -, hrun⟩
  · simp only [postReleaseFenced, exec_fencingCas_bind, exec_idempotentReplay_bind, hnew, true_and,
      reduceCtorEq, false_and, exists_false, or_false] at hrun
    exact .inr (exec_postReleaseChecked hnew hrun.2)
  · cases hrun
    exact .inl rfl

end Exec

end SpendGuard.Ledger
