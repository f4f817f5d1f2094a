import SpendGuard.Base.Endings
import SpendGuard.Ledger.Epochs
import SpendGuard.Ledger.HardCap

/-!
The tombstone of a tenant only lets the leases of its budget windows run out, so it lasts until the
next lease of the scope.
-/

namespace SpendGuard.Ledger

open Base Base.Proc

def Db.scopeKeys (db : Db) : List (Uuid × Uuid × ScopeType) :=
  db.fencingScopes.map fun s => (s.id, s.tenant, s.scopeType)

section Keys

variable {db : Db} {α : Type}

theorem scopeKeys_map {f : FencingScope → FencingScope}
    (hf : ∀ s, ((f s).id, (f s).tenant, (f s).scopeType) = (s.id, s.tenant, s.scopeType)) :
    Db.scopeKeys { db with fencingScopes := db.fencingScopes.map f } = db.scopeKeys := by
  rw [Db.scopeKeys, Db.scopeKeys, List.map_map]
  apply List.map_congr_left
  intro s _
  exact hf s

theorem AppendsOnly.scopeKeys_eq {p : LedgerTransaction → Prop} {f : Db → Db} (h : AppendsOnly p f)
    (db : Db) : (f db).scopeKeys = db.scopeKeys := by
  obtain ⟨rows, _, hf⟩ := h
  rw [Db.scopeKeys, Db.scopeKeys, (hf db).2.1]

theorem keys_of_appendsOnly {p : LedgerTransaction → Prop} {x : SqlProc α}
    (h : Writes (AppendsOnly p) x) : Quiet Db.scopeKeys x :=
  h.mono fun _ hf => hf.scopeKeys_eq

theorem keys_grantLease {s : FencingScope} {r : LeaseRequest} {epoch expires : ℕ}
    {action : FencingAction} {update : FencingScope → FencingScope}
    (hf : ∀ s, ((update s).id, (update s).tenant, (update s).scopeType) = (s.id, s.tenant, s.scopeType)) :
    Quiet Db.scopeKeys (grantLease s r epoch action expires update) := by
  refine .bind (writes_write.mpr ?_) fun _ => .bind (writes_write.mpr ?_) fun _ => writes_pure
  · intro db
    apply scopeKeys_map
    intro s
    split
    · exact hf s
    · rfl
  · intro db
    rfl

theorem keys_acquireFencingLease (r : LeaseRequest) : Quiet Db.scopeKeys (acquireFencingLease r) := by
  unfold acquireFencingLease
  iterate 7 refine .bind (by simp) fun _ => ?_
  split
  · exact keys_grantLease fun _ => rfl
  · split
    · exact keys_grantLease fun _ => rfl
    · exact writes_pure

theorem keys_tombstoneTenant (tenant : Uuid) : Quiet Db.scopeKeys (tombstoneTenant tenant) := by
  unfold tombstoneTenant
  iterate 3 refine .bind (by simp) fun _ => ?_
  apply writes_write.mpr
  intro db
  apply scopeKeys_map
  intro s
  unfold FencingScope.expireAt
  split <;> rfl

theorem LedgerCall.keys (c : LedgerCall) : Quiet Db.scopeKeys c.body := by
  cases c with
  | money c =>
    change Quiet Db.scopeKeys c.body
    cases c.shape with
    | fenced _ hk hbody =>
      rw [hbody]
      exact (writes_fencedPost (keys_of_appendsOnly hk)).map
    | session _ hp hbody =>
      rw [hbody]
      exact (keys_of_appendsOnly hp).map
  | denied r =>
    apply Writes.map
    refine .bind (by simp) fun replay => ?_
    cases replay with
    | none =>
      refine .bind (by simp) fun _ => .bind (by simp) fun _ => ?_
      exact writes_replayAgain (keys_of_appendsOnly (writes_postDeniedWrites r))
    | some id => exact writes_pure
  | lease r => exact (keys_acquireFencingLease r).map
  | tombstone tenant => exact (keys_tombstoneTenant tenant).map
  | queryDecision tenant key => exact Writes.map (by simp)

end Keys

section Ends

variable {scope tenant : Uuid}

def Tombstones (scope tenant : Uuid) (w : Db → Db) (h : List Lock) (t : ℕ) : Prop :=
  .fencingScope scope ∈ h ∧ ∃ ids now, now ≤ t ∧ scope ∈ ids ∧
    w = fun db => db.expireScopes ids tenant (now - second)

theorem ends_acquireAll {I : Db → Prop} {Q : (Db → Db) → List Lock → ℕ → Prop} {α : Type}
    {k : Unit → SqlProc α} {t : ℕ} {w : Db → Db} {ls h : List Lock}
    (hk : ∀ h', (∀ l ∈ ls, l ∈ h') → (∀ l ∈ h, l ∈ h') → (k ()).Ends I Q t w h') :
    (acquireAll ls >>= k).Ends I Q t w h := by
  induction ls generalizing h with
  | nil => exact hk h (by simp) fun l hl => hl
  | cons l ls ih =>
    apply ih (h := l :: h)
    intro h' hls hh
    apply hk h'
    · intro l' hl'
      rcases List.mem_cons.mp hl' with rfl | hl'
      · exact hh _ (by simp)
      · exact hls l' hl'
    · intro l' hl'
      exact hh l' (List.mem_cons_of_mem l hl')

theorem ends_tombstoneTenant {keys : List (Uuid × Uuid × ScopeType)}
    (hscope : (scope, tenant, ScopeType.budgetWindow) ∈ keys) :
    (tombstoneTenant tenant).Ends (fun db => db.scopeKeys = keys) (Tombstones scope tenant) 0 id [] := by
  intro _ now _ _ db t ht hdb
  have hmem : scope ∈ (db.tombstoned tenant).map (·.id) := by
    rw [← hdb, Db.scopeKeys, List.mem_map] at hscope
    obtain ⟨s, hs, hkey⟩ := hscope
    obtain ⟨rfl, rfl, htype⟩ : s.id = scope ∧ s.tenant = tenant ∧ s.scopeType = .budgetWindow := by
      simpa using hkey
    exact List.mem_map_of_mem (List.mem_filter.mpr ⟨hs, by simp [htype]⟩)
  apply ends_acquireAll
  intro h' hls _
  exact ⟨hls _ (List.mem_map_of_mem hmem), _, now, ht, hmem, rfl⟩

theorem LedgerCall.ends_tombstone {keys : List (Uuid × Uuid × ScopeType)}
    (hscope : (scope, tenant, ScopeType.budgetWindow) ∈ keys) (c : LedgerCall) :
    c.body.Ends (fun db => db.scopeKeys = keys)
      (fun w h t => c = .tombstone tenant → Tombstones scope tenant w h t) 0 id [] := by
  by_cases hc : c = .tombstone tenant
  · subst hc
    simp only [forall_const]
    exact (ends_tombstoneTenant hscope).map
  · exact Proc.ends_of_forall (fun _ _ _ h => absurd h hc) c.body 0 id []

end Ends

section Stopped

variable {scope tenant : Uuid}

/-- The lease of the scope has run out, and the posts under it are `posts`. -/
def ScopeView.Stopped (posts : List LedgerTransaction) (t : ℕ) (x : ScopeView) : Prop :=
  (∃ s, x.row = some s ∧ s.expired t = true) ∧ x.posts = posts

theorem FencingScope.expired_renewed {s : FencingScope} {expires t : ℕ} (h : expires ≤ t) :
    (s.renewed expires).expired t = true := by
  simpa [FencingScope.expired, FencingScope.renewed, Timestamp.passed] using h

theorem ScopeView.Stopped.later {posts : List LedgerTransaction} {t t' : ℕ} {x : ScopeView}
    (h : x.Stopped posts t) (ht : t ≤ t') : x.Stopped posts t' := by
  obtain ⟨⟨s, hs, hexpired⟩, hposts⟩ := h
  exact ⟨⟨s, hs, FencingScope.expired_mono ht hexpired⟩, hposts⟩

def LedgerCall.Spares (scope : Uuid) (c : LedgerCall) : Prop := ∀ r, c = .lease r → r.scope ≠ scope

theorem ScopeMove.stopped {posts : List LedgerTransaction} {x y : ScopeView} {t t' : ℕ} {c : LedgerCall}
    (h : ScopeMove scope x t' c y) (hc : c.Spares scope) (ht : t ≤ t')
    (hx : x.Stopped posts t) : y.Stopped posts t' := by
  obtain ⟨⟨s, hs, hexpired⟩, hposts⟩ := hx
  cases h with
  | post _ _ hnow hrow hadmits _ =>
    cases hs.symm.trans hrow
    have hlive := hadmits.live
    rw [FencingScope.expired_mono (Nat.le_trans ht hnow) hexpired] at hlive
    cases hlive
  | renew hscope _ _ _ => exact absurd hscope (hc _ rfl)
  | takeOver hscope _ _ _ => exact absurd hscope (hc _ rfl)
  | tombstone hnow _ => exact ⟨⟨_, rfl, FencingScope.expired_renewed (Nat.le_trans (Nat.sub_le _ _) hnow)⟩, hposts⟩

theorem Tombstones.stopped {db : Db} {w : Db → Db} {h : List Lock} {t : ℕ} {s : FencingScope}
    (hw : Tombstones scope tenant w h t) (hrow : db.fencingScope? scope = some s)
    (htenant : s.tenant = tenant) (htype : s.scopeType = .budgetWindow) :
    ((w db).scopeView scope).Stopped (db.scopeView scope).posts t := by
  obtain ⟨_, ids, now, hnow, hids, rfl⟩ := hw
  have hid := Db.fencingScope?_id hrow
  refine ⟨⟨s.renewed (now - second), ?_, FencingScope.expired_renewed (Nat.le_trans (Nat.sub_le _ _) hnow)⟩, rfl⟩
  rw [scopeView_expireScopes]
  change (db.fencingScope? scope).map _ = _
  rw [hrow, Option.map_some, FencingScope.expireAt, if_pos ⟨hid ▸ hids, htenant, htype⟩]

end Stopped

/-- Once `tombstone_tenant` has committed, nothing is posted under a budget window of the tenant as
long as no call of `acquire_fencing_lease` for that window commits. -/
theorem tombstoned_until_leased {ι β : Type} [DecidableEq ι]
    {g g₁ g₂ : Config ι Db Lock PgError LedgerReply LedgerCall β} {scope tenant : Uuid} {i : ι}
    {a : LedgerReply} {w : Db → Db} {h : List Lock}
    {next : Except PgError LedgerReply → Client LedgerCall PgError LedgerReply β} {s : FencingScope}
    (hclients : ∀ i, ∃ c, g.session i = .client c)
    (h₁ : Config.Run LedgerCall.body (fun _ _ => True) g g₁)
    (hreturns : g₁.session i = .running (.tombstone tenant) (.pure a) w h next)
    (hrow : g₁.committed.fencingScope? scope = some s) (htenant : s.tenant = tenant)
    (htype : s.scopeType = .budgetWindow)
    (h₂ : Config.Run LedgerCall.body (fun c _ => c.Spares scope)
      { g₁.set i (.client (next (.ok a))) with committed := w g₁.committed } g₂) :
    g₂.committed.transactions.filter (fun x => x.fencingScope = some scope) =
      g₁.committed.transactions.filter fun x => x.fencingScope = some scope := by
  have hkey : (scope, tenant, ScopeType.budgetWindow) ∈ g₁.committed.scopeKeys := by
    rw [← Db.fencingScope?_id hrow, ← htenant, ← htype]
    exact List.mem_map_of_mem (List.mem_of_find?_eq_some hrow)
  have hkeys : g₁.committed.scopeKeys = g.committed.scopeKeys :=
    ((Config.ends_of_clients hclients).run (Q := fun _ _ _ _ => True) LedgerCall.keys
      (fun c => Proc.ends_of_forall (fun _ _ _ => trivial) c.body 0 id []) h₁).unwritten
  -- the tombstone found the scope, because the keys it read are those of the first state
  have hends := (Config.ends_of_clients hclients).run
    (Q := fun c w h t => c = .tombstone tenant → Tombstones scope tenant w h t) LedgerCall.keys
    (LedgerCall.ends_tombstone (hkeys ▸ hkey)) h₁
  have hsession := hends.session i
  rw [hreturns] at hsession
  obtain ⟨_, _, t, ht, hdone⟩ := hsession
  have hdone : Tombstones scope tenant w h t := hdone rfl
  -- it still holds the lock, so every later move of the scope is made after its commit
  obtain ⟨T, _, hguarded⟩ := (Config.guarded_of_clients (l := Lock.fencingScope scope)
    (R := fun c t₀ x => ScopeMove scope x t₀ c) hclients).run (fun c _ => c.guarded)
    (fun _ _ _ _ _ hmove => hmove) h₁
  have hafter := hguarded.commit (i := i) (c := next (.ok a)) (s := w g₁.committed)
    (Nat.le_refl g₁.clock) (.inr (hguarded.others_free (by rw [hreturns]; exact hdone.1)))
  obtain ⟨T', htimed, _⟩ := hafter.run
    (R := fun c t₀ x y => ScopeMove scope x t₀ c y ∧ c.Spares scope)
    (fun c _ => c.guarded) (fun _ _ _ _ hok hmove => ⟨hmove, hok⟩) h₂
  have hstopped := htimed.invariant
    (I := fun t x => x.Stopped (g₁.committed.scopeView scope).posts t)
    (fun c t t' x y hx ht hmove => hmove.1.stopped hmove.2 ht hx)
    ((hdone.stopped hrow htenant htype).later ht)
  exact hstopped.2

/-- `rpc_acquire` and `apply_lease_response`, at the start of a sidecar and in its renewal loop: ask
without force and go on with the epoch that is granted. -/
def rpcAcquire (scope tenant : Uuid) (workload : String) (ttlSeconds : ℤ)
    (next : Option ℕ → Client LedgerCall PgError LedgerReply Bool) :
    Client LedgerCall PgError LedgerReply Bool :=
  .call (.lease ⟨scope, tenant, workload, ttlSeconds, false⟩) fun
    | .ok (.lease reply) => next (if reply.granted then some reply.epoch else none)
    | _ => next none

def leasedReserve (n epoch : ℕ) : LedgerCall :=
  .money (.post { capReserve n 1 with
    transaction := { capArgs n 10 "sidecar-1" with fencingEpoch := epoch } })

def reserveOnLease (n : ℕ) : Client LedgerCall PgError LedgerReply Bool :=
  rpcAcquire ⟨10, []⟩ ⟨1, []⟩ "sidecar-1" 30 fun
    | some epoch => .call (leasedReserve n epoch) fun r => .done r.isOk
    | none => .done false

def tombstoneClients : Config (Fin 3) Db Lock PgError LedgerReply LedgerCall Bool where
  committed := { fundedLedger with fencingScopes := unleasedLedger.fencingScopes }
  clock := 0
  session
    | 0 => .client (reserveOnLease 1)
    | 1 => .client (.call (.tombstone ⟨1, []⟩) fun r => .done r.isOk)
    | 2 => .client (reserveOnLease 2)

def tombstonedLedger : Config (Fin 3) Db Lock PgError LedgerReply LedgerCall Bool :=
  tombstoneClients.play LedgerCall.body
    (List.replicate 60 (.session 0) ++ [.time (5 * second)] ++ List.replicate 10 (.session 1))

def revivedLedger : Config (Fin 3) Db Lock PgError LedgerReply LedgerCall Bool :=
  tombstonedLedger.play LedgerCall.body (.time (10 * second) :: List.replicate 60 (.session 2))

/-- The renewal after the tombstone is granted epoch 2, and a reserve at that epoch is posted. -/
theorem renewal_revives_tombstoned_scope :
    Config.Run LedgerCall.body (fun _ _ => True) tombstoneClients tombstonedLedger ∧
    Config.Run LedgerCall.body (fun _ _ => True) tombstonedLedger revivedLedger ∧
    (tombstonedLedger.session 1).answer? = some true ∧
    (tombstonedLedger.committed.fencingScope? ⟨10, []⟩).map
      (fun s => (s.tenant, s.scopeType, s.expired tombstonedLedger.clock)) =
        some (⟨1, []⟩, .budgetWindow, true) ∧
    (tombstonedLedger.committed.scopeView ⟨10, []⟩).posts.map
      (fun x => (x.tenant, x.operationKind, x.fencingEpochAtPost)) = [(⟨1, []⟩, .reserve, some 1)] ∧
    (revivedLedger.committed.scopeView ⟨10, []⟩).posts.map
      (fun x => (x.tenant, x.operationKind, x.fencingEpochAtPost)) =
        [(⟨1, []⟩, .reserve, some 1), (⟨1, []⟩, .reserve, some 2)] :=
  ⟨Config.play_run _, Config.play_run _, by decide +kernel, by decide +kernel, by decide +kernel,
    by decide +kernel⟩

def LedgerCall.tombstones? : LedgerCall → Option Uuid
  | .tombstone tenant => some tenant
  | _ => none

def stoppedClients : Config (Fin 3) Db Lock PgError LedgerReply LedgerCall Bool where
  committed := { fundedLedger with fencingScopes :=
    [⟨⟨10, []⟩, .budgetWindow, ⟨1, []⟩, 1, some "sidecar-1", some (.time (30 * second))⟩] }
  clock := 0
  session
    | 0 => .client (.call (leasedReserve 1 1) fun r => .done r.isOk)
    | 1 => .client (.call (.tombstone ⟨1, []⟩) fun r => .done r.isOk)
    | 2 => .client (.call (leasedReserve 2 1) fun r => .done r.isOk)

def stoppingLedger : Config (Fin 3) Db Lock PgError LedgerReply LedgerCall Bool :=
  stoppedClients.play LedgerCall.body
    (List.replicate 60 (.session 0) ++ [.time (5 * second)] ++ List.replicate 5 (.session 1))

def stoppedLedger : Config (Fin 3) Db Lock PgError LedgerReply LedgerCall Bool :=
  stoppingLedger.play LedgerCall.body (.session 1 :: List.replicate 60 (.session 2))

theorem stoppedLedger_unchanged :
    (stoppedLedger.session 1).answer? = some true ∧ (stoppedLedger.session 2).answer? = some false ∧
    stoppedLedger.committed.transactions.filter (fun x => x.fencingScope = some ⟨10, []⟩) =
      stoppingLedger.committed.transactions.filter fun x => x.fencingScope = some ⟨10, []⟩ := by
  refine ⟨by decide +kernel, by decide +kernel, ?_⟩
  have hclients : ∀ i, ∃ c, stoppedClients.session i = .client c := by
    intro i
    match i with
    | 0 | 1 | 2 => exact ⟨_, rfl⟩
  have hcalls : stoppedClients.Calls (LedgerCall.Spares ⟨10, []⟩) := by
    constructor
    intro i
    match i with
    | 0 | 1 | 2 =>
      refine ⟨?_, fun _ => trivial⟩
      intro r hr
      cases hr
  have hrun : Config.Run LedgerCall.body (fun _ _ => True) stoppedClients stoppingLedger :=
    Config.play_run _
  obtain ⟨_, hlater⟩ := hcalls.run hrun
  obtain ⟨c, hc, hcall⟩ : ∃ c, (stoppingLedger.session 1).returning? = some c ∧
      c.tombstones? = some ⟨1, []⟩ := Option.bind_eq_some_iff.mp (by decide +kernel)
  obtain ⟨a, w, h, next, hreturns⟩ := Session.eq_of_returning? hc
  obtain ⟨s, hrow, hs⟩ : ∃ s, stoppingLedger.committed.fencingScope? ⟨10, []⟩ = some s ∧
      (s.tenant, s.scopeType) = (⟨1, []⟩, .budgetWindow) := Option.map_eq_some_iff.mp (by decide +kernel)
  obtain ⟨htenant, htype⟩ := Prod.mk.inj hs
  cases c with
  | tombstone tenant =>
    cases hcall
    rw [stoppedLedger, Config.play_commit hreturns]
    obtain ⟨hafter, _⟩ := (hlater.commit hreturns).run (Config.play_run (List.replicate 60 (.session 2)))
    exact tombstoned_until_leased hclients hrun hreturns hrow htenant htype hafter
  | money _ => cases hcall
  | denied _ => cases hcall
  | lease _ => cases hcall
  | queryDecision _ _ => cases hcall

end SpendGuard.Ledger
