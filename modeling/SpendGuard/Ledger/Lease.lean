import SpendGuard.Ledger.Posting

namespace SpendGuard.Ledger

open Base Base.Proc

/-- The arguments of `acquire_fencing_lease`. -/
structure LeaseRequest where
  scope : Uuid
  tenant : Uuid
  workload : String
  ttlSeconds : ℤ
  force : Bool
  deriving DecidableEq

structure LeaseReply where
  granted : Bool
  epoch : ℕ
  expiresAt : Option Timestamp
  /-- `none` when the lease is denied. -/
  action : Option FencingAction
  holder : Option String
  deriving DecidableEq

namespace FencingScope

def renews (s : FencingScope) (r : LeaseRequest) (now : ℕ) : Bool :=
  s.activeOwner = some r.workload && s.ttlExpiresAt.any fun t => !t.passed now

def yields (s : FencingScope) (r : LeaseRequest) (now : ℕ) : Bool :=
  s.ttlExpiresAt.all (·.passed now) || s.activeOwner.isNone || r.force

def takeoverAction (s : FencingScope) (r : LeaseRequest) : FencingAction :=
  if s.activeOwner = none then .acquire
  else if s.activeOwner = some r.workload then .recover
  else if r.force then .revoke
  else .promote

end FencingScope

namespace Db

def updateScope (db : Db) (id : Uuid) (f : FencingScope → FencingScope) : Db :=
  { db with fencingScopes := db.fencingScopes.map fun s => if s.id = id then f s else s }

def insertFencingEvent (db : Db) (e : FencingEvent) : Db :=
  { db with fencingEvents := db.fencingEvents ++ [e] }

end Db

namespace FencingScope

def renewed (expires : ℕ) (s : FencingScope) : FencingScope :=
  { s with ttlExpiresAt := some (.time expires) }

def takenOver (workload : String) (epoch expires : ℕ) (s : FencingScope) : FencingScope :=
  { s with activeOwner := some workload, currentEpoch := epoch, ttlExpiresAt := some (.time expires) }

@[simp] theorem renewed_id (expires : ℕ) (s : FencingScope) : (s.renewed expires).id = s.id := rfl

@[simp] theorem takenOver_id (workload : String) (epoch expires : ℕ) (s : FencingScope) :
    (s.takenOver workload epoch expires).id = s.id := rfl

end FencingScope

def grantLease (s : FencingScope) (r : LeaseRequest) (epoch : ℕ) (action : FencingAction)
    (expires : ℕ) (update : FencingScope → FencingScope) : SqlProc LeaseReply := do
  write (·.updateScope r.scope update)
  write (·.insertFencingEvent ⟨r.scope, s.currentEpoch, epoch, r.workload, action⟩)
  return ⟨true, epoch, some (.time expires), some action, some r.workload⟩

/-- `v_now` is read before the row lock, so it may lie before a commit the call waited for. -/
def acquireFencingLease (r : LeaseRequest) : SqlProc LeaseReply := do
  let now ← clock
  require (r.workload ≠ "") ⟨"22023", "workload_id required"⟩
  require (0 < r.ttlSeconds) ⟨"22023", "ttl_seconds must be > 0"⟩
  acquire (.fencingScope r.scope)
  let db ← read
  let s ← demand (db.fencingScope? r.scope) ⟨"40P02", "fencing_scope_id not found: " ++ r.scope.text⟩
  require (s.tenant = r.tenant) ⟨"40P02", "fencing_scope tenant mismatch (scope.tenant=" ++ s.tenant.text ++
    ", caller.tenant=" ++ r.tenant.text ++ ")"⟩
  let expires := now + r.ttlSeconds.toNat * second
  if s.renews r now then grantLease s r s.currentEpoch .renew expires (.renewed expires)
  else if s.yields r now then
    let epoch := s.currentEpoch + 1
    grantLease s r epoch (s.takeoverAction r) expires (.takenOver r.workload epoch expires)
  else return ⟨false, s.currentEpoch, s.ttlExpiresAt, none, s.activeOwner⟩

/-- The `UPDATE` writes the rows it found and locked, if they still match. -/
def FencingScope.expireAt (ids : List Uuid) (tenant : Uuid) (at_ : ℕ) (s : FencingScope) :
    FencingScope :=
  if s.id ∈ ids ∧ s.tenant = tenant ∧ s.scopeType = .budgetWindow then s.renewed at_ else s

namespace Db

def tombstoned (db : Db) (tenant : Uuid) : List FencingScope :=
  db.fencingScopes.filter fun s => s.tenant = tenant ∧ s.scopeType = .budgetWindow

def expireScopes (db : Db) (ids : List Uuid) (tenant : Uuid) (at_ : ℕ) : Db :=
  { db with fencingScopes := db.fencingScopes.map (·.expireAt ids tenant at_) }

end Db

/-- The `UPDATE` of `tombstone_tenant`: `now()` is the start of the transaction, before its row locks. -/
def tombstoneTenant (tenant : Uuid) : SqlProc Unit := do
  let now ← clock
  let db ← read
  let ids := (db.tombstoned tenant).map (·.id)
  acquireAll (ids.map .fencingScope)
  write (·.expireScopes ids tenant (now - second))

section Rows

variable {db : Db} {scope : Uuid}

theorem fencingScope?_map {f : FencingScope → FencingScope} (hf : ∀ s, (f s).id = s.id) :
    Db.fencingScope? { db with fencingScopes := db.fencingScopes.map f } scope =
      (db.fencingScope? scope).map f := by
  rw [Db.fencingScope?, Db.fencingScope?, List.find?_map]
  congr 2
  funext s
  rw [Function.comp_apply, hf]

theorem Db.fencingScope?_id {s : FencingScope} (h : db.fencingScope? scope = some s) : s.id = scope := by
  simpa using List.find?_some h

theorem Db.fencingScope?_updateScope {id : Uuid} {f : FencingScope → FencingScope}
    (hf : ∀ s, (f s).id = s.id) : (db.updateScope id f).fencingScope? scope =
      if id = scope then (db.fencingScope? scope).map f else db.fencingScope? scope := by
  have hkey : ∀ s : FencingScope, (if s.id = id then f s else s).id = s.id := by
    intro s
    split
    · exact hf s
    · rfl
  rw [Db.updateScope, fencingScope?_map hkey]
  cases hs : db.fencingScope? scope with
  | none => simp
  | some s =>
    have hid := Db.fencingScope?_id hs
    by_cases hscope : id = scope
    · simp [hid, hscope]
    · simp [hid, hscope, Ne.symm hscope]

theorem FencingScope.expireAt_id (ids : List Uuid) (tenant : Uuid) (at_ : ℕ) (s : FencingScope) :
    (s.expireAt ids tenant at_).id = s.id := by
  unfold FencingScope.expireAt
  split <;> rfl

theorem Db.fencingScope?_expireScopes {ids : List Uuid} {tenant : Uuid} {at_ : ℕ} :
    (db.expireScopes ids tenant at_).fencingScope? scope =
      (db.fencingScope? scope).map (·.expireAt ids tenant at_) :=
  fencingScope?_map (FencingScope.expireAt_id ids tenant at_)

end Rows

end SpendGuard.Ledger
