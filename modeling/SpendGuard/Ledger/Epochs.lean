import SpendGuard.Base.Register
import SpendGuard.Base.Schedule
import SpendGuard.Ledger.Fencing

/-!
The fencing scopes under concurrent calls: on what the row lock of a scope protects, any interleaving
of the ledger's procedures is a sequence of moves of a register fenced by epochs.
-/

namespace SpendGuard.Ledger

open Base Base.Proc

inductive LedgerCall
  | money (c : MoneyCall)
  | denied (r : DeniedPost)
  | lease (r : LeaseRequest)
  | tombstone (tenant : Uuid)
  | queryDecision (tenant : Uuid) (key : String)

inductive LedgerReply
  | posted (id : Uuid)
  | session (outcome : SessionOutcome)
  | lease (reply : LeaseReply)
  | tombstoned
  | decision (x : Option LedgerTransaction)
  deriving DecidableEq

def MoneyCall.body : MoneyCall → SqlProc LedgerReply
  | .post r => .posted <$> postLedgerTransaction r
  | .commitEstimated r => .posted <$> postCommitEstimatedTransaction r
  | .providerReported r => .posted <$> postProviderReportedTransaction r
  | .invoiceReconciled r => .posted <$> postInvoiceReconciledTransaction r
  | .release r => .posted <$> postReleaseTransaction r
  | .sessionReserve r => .session <$> postSessionReserve r
  | .sessionCommitDelta r => .session <$> postSessionCommitDelta r
  | .sessionRelease reasonCode r => .session <$> postSessionRelease reasonCode r
  | .sessionExpire r => .session <$> postSessionExpire r

def LedgerCall.body : LedgerCall → SqlProc LedgerReply
  | .money c => c.body
  | .denied r => .posted <$> postDeniedDecisionTransaction r
  | .lease r => .lease <$> acquireFencingLease r
  | .tombstone tenant => (fun _ => .tombstoned) <$> tombstoneTenant tenant
  | .queryDecision tenant key => .decision <$> queryDecisionOutcome tenant key

def MoneyCall.fenced : MoneyCall → Option (TransactionArgs × OperationKind)
  | .post r => some (r.transaction, r.operationKind)
  | .commitEstimated r => some (r.transaction, .commitEstimated)
  | .providerReported r => some (r.transaction, .providerReport)
  | .invoiceReconciled r => some (r.transaction, .invoiceReconcile)
  | .release r => some (r.transaction, .release)
  | .sessionReserve _ | .sessionCommitDelta _ | .sessionRelease _ _ | .sessionExpire _ => none

def LedgerCall.fenced : LedgerCall → Option (TransactionArgs × OperationKind)
  | .money c => c.fenced
  | .denied r => some (r.transaction, .deniedDecision)
  | .lease _ | .tombstone _ | .queryDecision _ _ => none

/-- The shape the fenced procedures share: the replay, the fencing CAS, and the checks and writes
behind it. -/
def fencedPost (t : TransactionArgs) (op : OperationKind) (allowed : ScopeType → Bool) (use : String)
    (k : SqlProc Uuid) : SqlProc Uuid := do
  match ← idempotentReplay t op with
  | some id => return id
  | none =>
    fencingCas t allowed use
    k

theorem writes_fencedPost {t : TransactionArgs} {op : OperationKind} {allowed : ScopeType → Bool}
    {use : String} {k : SqlProc Uuid} {P : (Db → Db) → Prop} (hk : Writes P k) :
    Writes P (fencedPost t op allowed use k) := by
  refine .bind (by simp) fun replay => ?_
  cases replay with
  | none => exact .bind (by simp) fun _ => hk
  | some id => exact writes_pure

inductive MoneyCall.Shape (c : MoneyCall) : Prop
  | fenced {t : TransactionArgs} {op : OperationKind} {allowed : ScopeType → Bool} {use : String}
      {k : SqlProc Uuid} (hc : c.fenced = some (t, op)) (hk : Writes (AppendsOnly (t.Posted op)) k)
      (hbody : c.body = LedgerReply.posted <$> fencedPost t op allowed use k)
  | session {p : SqlProc SessionOutcome} (hc : c.fenced = none) (hp : Writes (AppendsOnly Unfenced) p)
      (hbody : c.body = LedgerReply.session <$> p)

theorem writes_replayAgain {t : TransactionArgs} {op : OperationKind} {P : (Db → Db) → Prop}
    {k : SqlProc Uuid} (hk : Writes P k) :
    Writes P (idempotentReplay t op >>= fun
      | some id => Pure.pure id
      | none => k) := by
  refine .bind (by simp) fun again => ?_
  cases again with
  | none => exact hk
  | some id => simp

theorem unfenced_of_session {α : Type} {p : SqlProc α} (hp : Writes (AppendsOnly SessionRow) p) :
    Writes (AppendsOnly Unfenced) p := hp.mono fun _ hf => hf.mono fun _ hx => hx.1

theorem MoneyCall.shape (c : MoneyCall) : c.Shape := by
  cases c with
  | post r => exact .fenced rfl (writes_postLedgerChecked r postWrites_appendsOnly) rfl
  | commitEstimated r =>
    exact .fenced rfl (writes_postCommitEstimatedChecked r postWrites_appendsOnly) rfl
  | providerReported r =>
    exact .fenced rfl
      (writes_replayAgain (writes_postProviderReportedChecked r postWrites_appendsOnly)) rfl
  | invoiceReconciled r =>
    exact .fenced rfl
      (writes_replayAgain (writes_postInvoiceReconciledChecked r postWrites_appendsOnly)) rfl
  | release r =>
    exact .fenced rfl (writes_replayAgain (writes_postReleaseChecked r postWrites_appendsOnly)) rfl
  | sessionReserve r => exact .session rfl (unfenced_of_session (writes_postSessionReserve r)) rfl
  | sessionCommitDelta r => exact .session rfl (unfenced_of_session (writes_postSessionCommitDelta r)) rfl
  | sessionRelease reasonCode r => exact .session rfl (unfenced_of_session (writes_postSessionRelease reasonCode r)) rfl
  | sessionExpire r => exact .session rfl (unfenced_of_session (writes_postSessionExpire r)) rfl

/-- What the row lock of a scope protects: the row, its events and the posts made under it. -/
structure ScopeView where
  row : Option FencingScope
  events : List FencingEvent
  posts : List LedgerTransaction

def Db.scopeView (scope : Uuid) (db : Db) : ScopeView where
  row := db.fencingScope? scope
  events := db.fencingEvents.filter fun e => e.scope = scope
  posts := db.transactions.filter fun x => x.fencingScope = some scope

/-- How a call that took the row lock at `t₀` moves the scope. -/
inductive ScopeMove (scope : Uuid) (x : ScopeView) (t₀ : ℕ) : LedgerCall → ScopeView → Prop
  | post {c : LedgerCall} {t : TransactionArgs} {op : OperationKind} {allowed : ScopeType → Bool}
      {s : FencingScope} {now : ℕ} {rows : List LedgerTransaction} (hc : c.fenced = some (t, op))
      (hscope : t.fencingScope = scope) (hnow : t₀ ≤ now) (hrow : x.row = some s)
      (hadmits : s.Admits t now allowed) (hrows : ∀ r ∈ rows, t.Posted op r) :
      ScopeMove scope x t₀ c { x with posts := x.posts ++ rows }
  | renew {r : LeaseRequest} {s : FencingScope} {now expires : ℕ} (hscope : r.scope = scope)
      (hnow : now ≤ t₀) (hrow : x.row = some s) (hrenews : s.renews r now = true) :
      ScopeMove scope x t₀ (.lease r) { x with
        row := some (s.renewed expires)
        events := x.events ++ [⟨scope, s.currentEpoch, s.currentEpoch, r.workload, .renew⟩] }
  | takeOver {r : LeaseRequest} {s : FencingScope} {now expires : ℕ} {action : FencingAction}
      (hscope : r.scope = scope) (hnow : now ≤ t₀) (hrow : x.row = some s)
      (hyields : s.yields r now = true) :
      ScopeMove scope x t₀ (.lease r) { x with
        row := some (s.takenOver r.workload (s.currentEpoch + 1) expires)
        events := x.events ++ [⟨scope, s.currentEpoch, s.currentEpoch + 1, r.workload, action⟩] }
  | tombstone {tenant : Uuid} {s : FencingScope} {now : ℕ} (hnow : now ≤ t₀) (hrow : x.row = some s) :
      ScopeMove scope x t₀ (.tombstone tenant) { x with row := some (s.renewed (now - second)) }

section View

variable {scope : Uuid} {p : LedgerTransaction → Prop} {f : Db → Db}

theorem AppendsOnly.scopeView_eq (h : AppendsOnly p f) (hp : ∀ x, p x → x.fencingScope ≠ some scope)
    (db : Db) : (f db).scopeView scope = db.scopeView scope := by
  obtain ⟨rows, hrows, hf⟩ := h
  obtain ⟨htransactions, hscopes, hevents, _⟩ := hf db
  have hnone : rows.filter (fun x => x.fencingScope = some scope) = [] := by
    rw [List.filter_eq_nil_iff]
    intro x hx
    simpa using hp x (hrows x hx)
  rw [Db.scopeView, Db.scopeView, Db.fencingScope?, Db.fencingScope?, htransactions, hscopes, hevents,
    List.filter_append, hnone, List.append_nil]

theorem AppendsOnly.scopeView_append (h : AppendsOnly p f)
    (hp : ∀ x, p x → x.fencingScope = some scope) : ∃ rows, (∀ x ∈ rows, p x) ∧ ∀ db,
      (f db).scopeView scope =
        { db.scopeView scope with posts := (db.scopeView scope).posts ++ rows } := by
  obtain ⟨rows, hrows, hf⟩ := h
  refine ⟨rows, hrows, ?_⟩
  intro db
  obtain ⟨htransactions, hscopes, hevents, _⟩ := hf db
  have hall : rows.filter (fun x => x.fencingScope = some scope) = rows := by
    rw [List.filter_eq_self]
    intro x hx
    simpa using hp x (hrows x hx)
  simp only [Db.scopeView, Db.fencingScope?, htransactions, hscopes, hevents, List.filter_append, hall]

end View

section Guarded

variable {scope : Uuid} {α : Type} {t₁ : ℕ}

variable {op : OperationKind} {allowed : ScopeType → Bool} {use : String}

theorem guarded_idempotentReplay {τ : Type} {l : Lock} {π : Db → τ} {R : ℕ → τ → τ → Prop}
    {t : TransactionArgs} {k : Option Uuid → SqlProc α}
    (h : ∀ t', t₁ ≤ t' → Guarded l π R t' (k none))
    (hreplay : ∀ id t', Guarded l π R t' (k (some id))) :
    Guarded l π R t₁ (idempotentReplay t op >>= k) := by
  intro v t' ht
  dsimp only [Proc.bind]
  cases v.findTransaction t.tenant op t.idempotencyKey with
  | none => exact h t' ht
  | some x =>
    by_cases hhash : x.requestHash = t.requestHash
    · simp only [require, if_pos hhash]
      exact hreplay x.id t'
    · simp only [require, if_neg hhash]
      trivial

theorem wp_fencingTests {t : TransactionArgs} {t₀ : ℕ}
    {y : ScopeView} {Q : Unit → ScopeView → Prop} (hscope : t.fencingScope = scope)
    (h : ∀ s now, t₀ ≤ now → y.row = some s → s.Admits t now allowed → Q () y) :
    wp (Db.scopeView scope) t₀ (fencingTests t allowed use) Q y := by
  simp only [fencingTests, wp_bind, wp_read, wp_demand, wp_require]
  intro v hv s hs htenant howner
  apply wp_clock
  intro now hnow hlive hepoch hzero htype
  have hrow : y.row = some s := by
    rw [← hv, ← hs, hscope]
    rfl
  exact h s now hnow hrow ⟨htenant, howner, hlive, hepoch, hzero, htype⟩

theorem TransactionArgs.Posted.fencingScope {t : TransactionArgs}
    {x : LedgerTransaction} (h : t.Posted op x) : x.fencingScope = some t.fencingScope := by
  obtain ⟨token, rfl⟩ := h
  rfl

theorem guarded_fencingCas {c : LedgerCall} {t : TransactionArgs}
    {k : Unit → SqlProc α} (hc : c.fenced = some (t, op))
    (hk : Writes (AppendsOnly (t.Posted op)) (k ())) :
    Guarded (.fencingScope scope) (Db.scopeView scope) (fun t₀ x => ScopeMove scope x t₀ c) t₁
      (fencingCas t allowed use >>= k) := by
  by_cases hscope : t.fencingScope = scope
  · change Guarded _ _ _ _ (acquire (.fencingScope t.fencingScope) >>= fun _ =>
      (fencingTests t allowed use >>= k))
    rw [hscope]
    apply guarded_acquire
    intro t₀ x _
    rw [wp_bind]
    apply wp_fencingTests hscope
    intro s now hnow hrow hadmits
    refine wp_mono ?_ (Writes.wp (J := fun y => ∃ rows, (∀ r ∈ rows, t.Posted op r) ∧
      y = { x with posts := x.posts ++ rows }) hk ?_ ⟨[], by simp⟩)
    · rintro _ _ ⟨rows, hrows, rfl⟩
      exact .inr (.post hc hscope hnow hrow hadmits hrows)
    · rintro f _ hf ⟨rows, hrows, rfl⟩
      obtain ⟨more, hmore, hview⟩ := hf.scopeView_append fun y hy =>
        hy.fencingScope.trans (congrArg some hscope)
      refine ⟨_, fun v hv => ?_, rows ++ more, ?_, rfl⟩
      · rw [hview, hv, List.append_assoc]
      · intro r hr
        rw [List.mem_append] at hr
        exact hr.elim (hrows r) (hmore r)
  · apply Quiet.guarded
    refine .bind writes_fencingCas fun _ => hk.mono ?_
    intro f hf
    exact hf.scopeView_eq fun y hy => by simpa [hy.fencingScope] using hscope

theorem wp_grantLease {t₀ : ℕ} {y : ScopeView} {s : FencingScope} {r : LeaseRequest} {epoch expires : ℕ}
    {action : FencingAction} {update : FencingScope → FencingScope}
    {Q : LeaseReply → ScopeView → Prop} (hscope : r.scope = scope) (hrow : y.row = some s)
    (hupdate : ∀ s, (update s).id = s.id)
    (h : ∀ reply, Q reply { y with
      row := some (update s)
      events := y.events ++ [⟨scope, s.currentEpoch, epoch, r.workload, action⟩] }) :
    wp (Db.scopeView scope) t₀ (grantLease s r epoch action expires update) Q y := by
  unfold grantLease
  rw [wp_bind]
  apply wp_write { y with row := some (update s) }
  · rintro v rfl
    have hv : v.fencingScope? scope = some s := hrow
    rw [Db.scopeView, Db.fencingScope?_updateScope hupdate, if_pos hscope, hv]
    rfl
  · rw [wp_bind]
    apply wp_write { y with
      row := some (update s)
      events := y.events ++ [⟨scope, s.currentEpoch, epoch, r.workload, action⟩] }
    · intro v hv
      have hevents : v.fencingEvents.filter (fun e => e.scope = scope) = y.events :=
        congrArg ScopeView.events hv
      have hposts : v.transactions.filter (fun x => x.fencingScope = some scope) = y.posts :=
        congrArg ScopeView.posts hv
      have hrow' : v.fencingScope? scope = some (update s) := congrArg ScopeView.row hv
      simp only [Db.scopeView, Db.insertFencingEvent, List.filter_append, hevents, hposts, hscope]
      simp [Db.fencingScope?] at hrow' ⊢
      exact hrow'
    · exact h _

theorem quiet_grantLease {s : FencingScope} {r : LeaseRequest} {epoch expires : ℕ}
    {action : FencingAction} {update : FencingScope → FencingScope} (hscope : r.scope ≠ scope)
    (hupdate : ∀ s, (update s).id = s.id) :
    Quiet (Db.scopeView scope) (grantLease s r epoch action expires update) := by
  refine .bind (writes_write.mpr ?_) fun _ => .bind (writes_write.mpr ?_) fun _ => writes_pure
  · intro v
    rw [Db.scopeView, Db.fencingScope?_updateScope hupdate, if_neg hscope]
    rfl
  · intro v
    simp [Db.scopeView, Db.insertFencingEvent, Db.fencingScope?, List.filter_append, hscope]

theorem guarded_acquireFencingLease (r : LeaseRequest) :
    Guarded (.fencingScope scope) (Db.scopeView scope) (fun t₀ x => ScopeMove scope x t₀ (.lease r)) t₁
      (acquireFencingLease r) := by
  unfold acquireFencingLease
  by_cases hscope : r.scope = scope
  · apply guarded_clock
    intro now _
    apply guarded_require
    intro _
    apply guarded_require
    intro _
    rw [hscope]
    apply guarded_acquire
    intro t₀ x hnow
    simp only [wp_bind, wp_read, wp_demand, wp_require]
    rintro v rfl s hs _
    have hrow : (v.scopeView scope).row = some s := hs
    split
    · next hrenews =>
      apply wp_grantLease hscope hrow (FencingScope.renewed_id _)
      intro _
      exact .inr (.renew hscope hnow hrow hrenews)
    · split
      · next hyields =>
        apply wp_grantLease hscope hrow (FencingScope.takenOver_id _ _ _)
        intro _
        exact .inr (.takeOver hscope hnow hrow hyields)
      · exact .inl rfl
  · apply Quiet.guarded
    iterate 7 refine .bind (by simp) fun _ => ?_
    split
    · exact quiet_grantLease hscope (FencingScope.renewed_id _)
    · split
      · exact quiet_grantLease hscope (FencingScope.takenOver_id _ _ _)
      · exact writes_pure

theorem guarded_acquireAll {R : ℕ → ScopeView → ScopeView → Prop} {l : Lock} {ls : List Lock}
    {k : Unit → SqlProc α}
    (hin : l ∈ ls → ∀ t₀ x, t₁ ≤ t₀ →
      wp (Db.scopeView scope) t₀ (k ()) (fun _ y => y = x ∨ R t₀ x y) x)
    (hout : l ∉ ls → Guarded l (Db.scopeView scope) R t₁ (k ())) :
    Guarded l (Db.scopeView scope) R t₁ (acquireAll ls >>= k) := by
  induction ls with
  | nil => exact hout (by simp)
  | cons l' ls ih =>
    change Guarded l (Db.scopeView scope) R t₁ (acquire l' >>= fun _ => (acquireAll ls >>= k))
    by_cases hl : l' = l
    · subst hl
      apply guarded_acquire
      intro t₀ x ht
      rw [wp_bind]
      apply Quiet.wp (writes_acquireAll ls)
      intro _
      exact hin (by simp) t₀ x ht
    · apply guarded_acquire_ne hl
      apply ih
      · intro hmem
        exact hin (List.mem_cons_of_mem l' hmem)
      · intro hmem
        exact hout (by simp [hmem, Ne.symm hl])

theorem scopeView_expireScopes (db : Db) (ids : List Uuid) (tenant : Uuid) (at_ : ℕ) :
    (db.expireScopes ids tenant at_).scopeView scope =
      { db.scopeView scope with row := (db.scopeView scope).row.map (·.expireAt ids tenant at_) } := by
  rw [Db.scopeView, Db.fencingScope?_expireScopes]
  rfl

theorem guarded_tombstoneTenant (tenant : Uuid) :
    Guarded (.fencingScope scope) (Db.scopeView scope)
      (fun t₀ x => ScopeMove scope x t₀ (.tombstone tenant)) t₁ (tombstoneTenant tenant) := by
  unfold tombstoneTenant
  apply guarded_clock
  intro now _
  apply guarded_read
  intro v t ht
  generalize hids : (v.tombstoned tenant).map (·.id) = ids
  apply guarded_acquireAll
  · intro _ t₀ x ht₀
    apply wp_write { x with row := x.row.map (·.expireAt ids tenant (now - second)) }
    · intro w hw
      rw [scopeView_expireScopes, hw]
    · cases hrow : x.row with
      | none =>
        left
        rw [Option.map_none, ← hrow]
      | some s =>
        rw [Option.map_some, FencingScope.expireAt]
        split
        · right
          exact .tombstone (Nat.le_trans ht ht₀) hrow
        · left
          rw [← hrow]
  · intro hmem
    have hscope : scope ∉ ids := fun h => hmem (List.mem_map_of_mem h)
    apply Quiet.guarded
    apply writes_write.mpr
    intro w
    have hrow : (w.scopeView scope).row.map (·.expireAt ids tenant (now - second)) =
        (w.scopeView scope).row := by
      cases hs : (w.scopeView scope).row with
      | none => rfl
      | some s =>
        have hid : s.id = scope := Db.fencingScope?_id hs
        simp [FencingScope.expireAt, hid, hscope]
    rw [scopeView_expireScopes, hrow]

theorem guarded_fencedPost {c : LedgerCall} {t : TransactionArgs}
    {k : SqlProc Uuid} (hc : c.fenced = some (t, op))
    (hk : Writes (AppendsOnly (t.Posted op)) k) :
    Guarded (.fencingScope scope) (Db.scopeView scope) (fun t₀ x => ScopeMove scope x t₀ c) t₁
      (fencedPost t op allowed use k) := by
  apply guarded_idempotentReplay
  · intro t' _
    exact guarded_fencingCas hc hk
  · exact fun _ _ => trivial

theorem MoneyCall.guarded (c : MoneyCall) :
    Guarded (.fencingScope scope) (Db.scopeView scope) (fun t₀ x => ScopeMove scope x t₀ (.money c)) t₁
      c.body := by
  cases c.shape with
  | fenced hc hk hbody =>
    rw [hbody]
    exact (guarded_fencedPost (c := .money c) hc hk).map
  | session _ hp hbody =>
    rw [hbody]
    apply Guarded.map
    apply Quiet.guarded
    exact hp.mono fun f hf => hf.scopeView_eq fun x hx => by simp [show x.fencingScope = none from hx]

theorem LedgerCall.guarded (c : LedgerCall) :
    Guarded (.fencingScope scope) (Db.scopeView scope) (fun t₀ x => ScopeMove scope x t₀ c) t₁
      c.body := by
  cases c with
  | money c => exact c.guarded
  | denied r =>
    apply Guarded.map
    apply guarded_idempotentReplay
    · intro t' _
      change Guarded _ _ _ _ (read >>= fun db => require (db.findTransaction r.transaction.tenant .reserve
        r.transaction.idempotencyKey = none) _ >>= fun _ => postDeniedFenced r)
      apply guarded_read
      intro v t'' _
      apply guarded_require
      intro _
      exact guarded_fencingCas rfl (writes_replayAgain (writes_postDeniedWrites r))
    · exact fun _ _ => trivial
  | lease r => exact (guarded_acquireFencingLease r).map
  | tombstone tenant => exact (guarded_tombstoneTenant tenant).map
  | queryDecision tenant key =>
    apply Guarded.map
    apply Quiet.guarded
    simp

end Guarded

section Register

variable {scope : Uuid} {x y : ScopeView} {t t₀ : ℕ} {c : LedgerCall}

def ScopeView.register (x : ScopeView) : Register String LedgerTransaction where
  epoch := x.row.elim 0 (·.currentEpoch)
  owner := x.row.bind (·.activeOwner)
  grants := x.events.map fun e => (e.newEpoch, e.owner)
  log := x.posts.map fun p => (p.fencingEpochAtPost.getD 0, p)

theorem ScopeMove.register (h : ScopeMove scope x t₀ c y) : x.register.Move y.register := by
  cases h with
  | @post _ t op _ s now rows _ _ _ hrow hadmits hrows =>
    have hepochs : rows.map (fun p => (p.fencingEpochAtPost.getD 0, p)) =
        rows.map fun p => (s.currentEpoch, p) := by
      apply List.map_congr_left
      intro p hp
      obtain ⟨token, rfl⟩ := hrows p hp
      rw [hadmits.epoch]
      rfl
    have hmove := Register.Move.write (x := x.register) rows
    simpa [ScopeView.register, hrow, hepochs] using hmove
  | @renew r s now expires _ _ hrow hrenews =>
    have howner : x.register.owner = some r.workload := by
      simp only [FencingScope.renews, Bool.and_eq_true, decide_eq_true_eq] at hrenews
      simp [ScopeView.register, hrow, hrenews.1]
    have hmove := Register.Move.renew howner
    simpa [ScopeView.register, hrow, FencingScope.renewed] using hmove
  | @takeOver r s now expires action _ _ hrow _ =>
    have hmove := Register.Move.grant (x := x.register) r.workload
    simpa [ScopeView.register, hrow, FencingScope.takenOver] using hmove
  | @tombstone tenant s now _ hrow =>
    have hmove := Register.Move.stay (x := x.register)
    simpa [ScopeView.register, hrow, FencingScope.renewed] using hmove

theorem advances_of_timed {t₁ : ℕ} (h : Timed (fun c t₀ x => ScopeMove scope x t₀ c) t x t₁ y) :
    x.register.Advances y.register := by
  induction h with
  | refl => exact .refl _
  | step c _ _ hmove ih => exact ih.trans (.of_move hmove.register)

theorem consistent_of_timed {t₁ : ℕ} (h : Timed (fun c t₀ x => ScopeMove scope x t₀ c) t x t₁ y)
    (hx : x.register.Consistent) : y.register.Consistent := by
  apply h.invariant (I := fun _ x => x.register.Consistent)
  · intro c t t' x y hx _ hmove
    exact hx.move hmove.register
  · exact hx

end Register

/-- In any interleaving of leases, fenced posts and tombstones, the epoch of a scope never falls, an
epoch has one owner, the posts carry non-decreasing epochs, and after the grant of an epoch no post
of an earlier one is accepted. -/
theorem fenced_writes_serialised {ι β : Type} [DecidableEq ι]
    {g g₁ g₂ : Config ι Db Lock PgError LedgerReply LedgerCall β} (scope : Uuid)
    (hclients : ∀ i, ∃ c, g.session i = .client c)
    (hhistory : (g.committed.scopeView scope).register.Consistent)
    (h₁ : Config.Run LedgerCall.body (fun _ _ => True) g g₁)
    (h₂ : Config.Run LedgerCall.body (fun _ _ => True) g₁ g₂) :
    let x := (g₁.committed.scopeView scope).register
    let y := (g₂.committed.scopeView scope).register
    x.epoch ≤ y.epoch ∧
    (x.epoch = y.epoch → x.owner = y.owner) ∧
    (∀ a ∈ y.grants, ∀ b ∈ y.grants, a.1 = b.1 → a.2 = b.2) ∧
    (∀ w, (y.epoch, w) ∈ y.grants → y.owner = some w) ∧
    y.log.Pairwise (fun a b => a.1 ≤ b.1) ∧
    ∃ new, y.log = x.log ++ new ∧ ∀ e w, (e + 1, w) ∈ x.grants → ∀ d ∈ new, e < d.1 := by
  have hstart := Config.guarded_of_clients (l := Lock.fencingScope scope) (π := Db.scopeView scope)
    (R := fun c t₀ x => ScopeMove scope x t₀ c) hclients
  obtain ⟨T₁, htimed₁, hguarded⟩ := hstart.run (fun c _ => c.guarded) (fun _ _ _ _ _ h => h) h₁
  obtain ⟨T₂, htimed₂, -⟩ := hguarded.run (fun c _ => c.guarded) (fun _ _ _ _ _ h => h) h₂
  have hx := consistent_of_timed htimed₁ hhistory
  have hy := consistent_of_timed htimed₂ hx
  have hadvances := advances_of_timed htimed₂
  obtain ⟨new, hlog, hnew⟩ := hadvances.log_after_grant hx
  exact ⟨hadvances.epoch_le, hadvances.owner_eq, hy.unique, hy.current, hy.ordered, new, hlog,
    fun e w hgrant d hd => hnew (e + 1, w) hgrant d hd⟩

def unleasedLedger : Db where
  accounts := []
  pricingSnapshots := []
  allocators := []
  fencingScopes := [⟨⟨10, []⟩, .budgetWindow, ⟨1, []⟩, 0, none, none⟩]
  fencingEvents := []
  transactions := []
  entries := []
  audit := []
  reservations := []
  commits := []
  sessions := []
  sessionCommits := []
  sessionEvents := []

def fencedDenial (n epoch : ℕ) (workload : String) : LedgerCall :=
  .denied ⟨⟨⟨100 + n, []⟩, ⟨1, []⟩, toString n, [], ⟨200 + n, []⟩, ⟨300 + n, []⟩, ⟨10, []⟩, epoch, workload⟩,
    "v1", ⟨⟨400 + n, []⟩, .decision, n⟩⟩

/-- Two sidecars that lease the window and post, the second by force, and a second post of the first
sidecar that is under way meanwhile. -/
def takeoverClients : Config (Fin 3) Db Lock PgError LedgerReply LedgerCall Unit where
  committed := unleasedLedger
  clock := 0
  session
    | 0 => .client (.call (.lease ⟨⟨10, []⟩, ⟨1, []⟩, "sidecar-1", 30, false⟩) fun _ =>
        .call (fencedDenial 1 1 "sidecar-1") fun _ => .done ())
    | 1 => .client (.call (.lease ⟨⟨10, []⟩, ⟨1, []⟩, "sidecar-2", 30, true⟩) fun _ =>
        .call (fencedDenial 2 2 "sidecar-2") fun _ => .done ())
    | 2 => .client (.call (fencedDenial 3 1 "sidecar-1") fun _ => .done ())

def beforeTakeover : Config (Fin 3) Db Lock PgError LedgerReply LedgerCall Unit :=
  takeoverClients.play LedgerCall.body
    (List.replicate 2 (.session 2) ++ List.replicate 60 (.session 0))

def afterTakeover : Config (Fin 3) Db Lock PgError LedgerReply LedgerCall Unit :=
  beforeTakeover.play LedgerCall.body
    (List.replicate 60 (.session 1) ++ List.replicate 60 (.session 2))

theorem takeover_serialised :
    let x := (beforeTakeover.committed.scopeView ⟨10, []⟩).register
    let y := (afterTakeover.committed.scopeView ⟨10, []⟩).register
    x.grants = [(1, "sidecar-1")] ∧ x.log.map Prod.fst = [1] ∧
    y.grants = [(1, "sidecar-1"), (2, "sidecar-2")] ∧ y.log.map Prod.fst = [1, 2] ∧
    x.epoch ≤ y.epoch ∧
    (x.epoch = y.epoch → x.owner = y.owner) ∧
    (∀ a ∈ y.grants, ∀ b ∈ y.grants, a.1 = b.1 → a.2 = b.2) ∧
    (∀ w, (y.epoch, w) ∈ y.grants → y.owner = some w) ∧
    y.log.Pairwise (fun a b => a.1 ≤ b.1) ∧
    ∃ new, y.log = x.log ++ new ∧ ∀ e w, (e + 1, w) ∈ x.grants → ∀ d ∈ new, e < d.1 := by
  refine ⟨by decide +kernel, by decide +kernel, by decide +kernel, by decide +kernel, ?_⟩
  apply fenced_writes_serialised (g := takeoverClients) ⟨10, []⟩
  · intro i
    match i with
    | 0 => exact ⟨_, rfl⟩
    | 1 => exact ⟨_, rfl⟩
    | 2 => exact ⟨_, rfl⟩
  · constructor <;> simp [takeoverClients, unleasedLedger, Db.scopeView, ScopeView.register]
  · exact Config.play_run _
  · exact Config.play_run _

end SpendGuard.Ledger
