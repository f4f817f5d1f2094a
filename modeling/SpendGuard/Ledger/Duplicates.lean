import SpendGuard.Base.Race
import SpendGuard.Ledger.Epochs
import SpendGuard.Ledger.HardCap

/-!
Two calls of one procedure with the same tenant, idempotency key and request hash, made at the same
time.
-/

namespace SpendGuard.Ledger

open Base Base.Proc

/-- What decides whether a post under a key is a replay, and what it looks up besides. -/
structure KeyView where
  posted : Option LedgerTransaction
  scopes : List FencingScope
  catalog : Catalog

def Db.keyView (tenant : Uuid) (op : OperationKind) (key : String) (db : Db) : KeyView :=
  ⟨db.findTransaction tenant op key, db.fencingScopes, db.catalog⟩

def TransactionArgs.view (t : TransactionArgs) (op : OperationKind) : Db → KeyView :=
  Db.keyView t.tenant op t.idempotencyKey

/-- The call that answered `id` has left its own transaction under the key, or found one. -/
def TransactionArgs.Answers (t : TransactionArgs) (y : KeyView) (id : Uuid) (y' : KeyView) : Prop :=
  ∃ x, y' = { y with posted := some x } ∧ x.id = id ∧ x.requestHash = t.requestHash

section Winner

variable {t : TransactionArgs} {op : OperationKind} {α β : Type} {t₀ : ℕ} {y : KeyView}

theorem AppendsOnly.view_eq {f : Db → Db} (h : AppendsOnly (fun _ => False) f) (db : Db) :
    t.view op (f db) = t.view op db := by
  obtain ⟨rows, hrows, hf⟩ := h
  obtain ⟨htransactions, hscopes, _, hcatalog⟩ := hf db
  have hnone : rows = [] := List.eq_nil_iff_forall_not_mem.mpr hrows
  rw [TransactionArgs.view, Db.keyView, Db.keyView, Db.findTransaction, Db.findTransaction,
    htransactions, hscopes, hcatalog, hnone, List.append_nil]

theorem wp_skip {x : SqlProc α} {f : α → SqlProc β} {Q : β → KeyView → Prop}
    (hx : Writes (AppendsOnly fun _ => False) x) (h : ∀ a, wp (t.view op) t₀ (f a) Q y) :
    wp (t.view op) t₀ (x >>= f) Q y :=
  Quiet.wp_bind (hx.mono fun _ hf => hf.view_eq) h

theorem findTransaction_row {db : Db} {token : String}
    (h : db.findTransaction t.tenant op t.idempotencyKey = none) :
    (db.insertTransaction (t.row op token)).findTransaction t.tenant op t.idempotencyKey =
      some (t.row op token) := by
  rw [Db.findTransaction] at h ⊢
  rw [Db.insertTransaction, List.find?_append, h, Option.none_or]
  simp [TransactionArgs.row]

theorem wp_insertTransaction {token : String} {f : Option Uuid → SqlProc β} {Q : β → KeyView → Prop}
    (hy : y.posted = none)
    (h : wp (t.view op) t₀ (f none) Q { y with posted := some (t.row op token) }) :
    wp (t.view op) t₀ (insertTransaction t op token >>= f) Q y := by
  unfold insertTransaction
  simp only [wp_bind, wp_acquire, wp_read]
  rintro db rfl
  have hnone : db.findTransaction t.tenant op t.idempotencyKey = none := hy
  rw [hnone]
  simp only [wp_bind, wp_acquire, wp_read, wp_require, wp_pure]
  intro db' _ _
  apply wp_write { t.view op db with posted := some (t.row op token) }
  · intro v hv
    have hv' : v.findTransaction t.tenant op t.idempotencyKey = none :=
      (congrArg KeyView.posted hv).trans hnone
    rw [← hv, TransactionArgs.view, Db.keyView, findTransaction_row hv']
    rfl
  · exact h

theorem wp_idempotentReplay {f : Option Uuid → SqlProc β} {Q : β → KeyView → Prop}
    (hnone : y.posted = none → wp (t.view op) t₀ (f none) Q y)
    (hsome : ∀ x, y.posted = some x → x.requestHash = t.requestHash →
      wp (t.view op) t₀ (f (some x.id)) Q y) :
    wp (t.view op) t₀ (idempotentReplay t op >>= f) Q y := by
  unfold idempotentReplay
  simp only [wp_bind, wp_read]
  rintro db rfl
  cases hx : db.findTransaction t.tenant op t.idempotencyKey with
  | none => exact hnone hx
  | some x =>
    simp only [wp_bind, wp_require, wp_pure]
    exact hsome x hx

end Winner

section Procedures

variable {t₀ : ℕ} {y : KeyView}

/-- The checks of `post_ledger_transaction` before its insert: they only look at the catalog. -/
structure LedgerPost.Catalogued (r : LedgerPost)
    (catalog : Catalog) : Prop where
  nonempty : r.entries ≠ []
  resolved : ∀ e ∈ r.entries, e.account r.transaction.tenant ∈ catalog.accounts
  priced : ∀ e ∈ r.entries, ∃ p ∈ catalog.prices,
    p.version = e.pricing.version ∧ p.snapshotHash = e.pricing.snapshotHash
  token : ∀ c ∈ r.callerLockToken, c = r.token
  sharded : ∀ e ∈ r.entries, e.shard ∈ catalog.shards

theorem resolved_iff {db : Db} {tenant : Uuid} {es : List EntryArgs} :
    (es.filter fun e => e.account tenant ∈ db.accounts).length = es.length ↔
      ∀ e ∈ es, e.account tenant ∈ db.accounts := by
  rw [List.length_filter_eq_length_iff]
  simp

theorem priced_iff {db : Db} {es : List EntryArgs} :
    (((es.map fun e => (e.pricing.version, e.pricing.snapshotHash)).dedup).filter
      fun p => !db.pricingKnown p) = [] ↔
    ∀ e ∈ es, ∃ p ∈ db.pricingSnapshots,
      p.version = e.pricing.version ∧ p.snapshotHash = e.pricing.snapshotHash := by
  rw [List.filter_eq_nil_iff]
  simp [Db.pricingKnown]

theorem wp_allocateSequences {t : TransactionArgs} {op : OperationKind} {ds : List EntryDraft}
    {Q : List (EntryDraft × ℕ) → KeyView → Prop}
    (h : ∀ l, (∀ d ∈ ds, d.shard ∈ y.catalog.shards) → Q l y) :
    wp (t.view op) t₀ (allocateSequences ds) Q y := by
  induction ds generalizing Q with
  | nil => exact h [] (by simp)
  | cons d ds ih =>
    change wp (t.view op) t₀ (nextvalPerShard d.shard >>= fun n =>
      allocateSequences ds >>= fun rest => Pure.pure ((d, n) :: rest)) Q y
    unfold nextvalPerShard
    simp only [wp_bind, wp_acquire, wp_read, wp_demand, wp_pure]
    intro db hdb a ha
    have hshard : d.shard ∈ y.catalog.shards := by
      rw [← hdb]
      exact List.mem_map.mpr ⟨a, List.mem_of_find?_eq_some ha, by simpa using List.find?_some ha⟩
    apply wp_write y
    · rintro v rfl
      exact (appendsOnly_nextSequence d.shard).view_eq v
    · apply ih
      intro l hl
      exact h _ (List.forall_mem_cons.mpr ⟨hshard, hl⟩)

theorem wp_postLedgerChecked (r : LedgerPost) (hy : y.posted = none) :
    wp (r.transaction.view r.operationKind) t₀ (postLedgerChecked r)
      (fun id y' => r.transaction.Answers y id y' ∧ r.Catalogued y.catalog) y := by
  unfold postLedgerChecked
  rw [wp_bind, wp_require]
  intro hne
  rw [wp_bind, wp_read]
  rintro db rfl
  rw [wp_bind, wp_require]
  intro hresolved
  rw [wp_bind, wp_require]
  intro hknown
  rw [wp_bind, wp_require]
  intro htoken
  refine wp_skip (by simp) fun _ => ?_
  rw [wp_bind]
  apply wp_allocateSequences
  intro l hshards
  apply wp_insertTransaction hy
  unfold postLedgerWrites
  iterate 6 refine wp_skip (by simp) fun _ => ?_
  refine ⟨⟨_, rfl, rfl, rfl⟩, hne, resolved_iff.mp hresolved, priced_iff.mp hknown, htoken, ?_⟩
  intro e he
  exact hshards _ (List.mem_map_of_mem he)

theorem wp_postCommitEstimatedChecked (r : CommitPost) (hy : y.posted = none) :
    wp (r.transaction.view .commitEstimated) t₀ (postCommitEstimatedChecked r)
      (fun id y' => r.transaction.Answers y id y') y := by
  unfold postCommitEstimatedChecked
  iterate 12 refine wp_skip (by simp) fun _ => ?_
  apply wp_insertTransaction hy
  unfold postCommitEstimatedWrites
  iterate 4 refine wp_skip (by simp) fun _ => ?_
  refine wp_skip ?_ fun _ => ⟨_, rfl, rfl, rfl⟩
  unfold insertCommit
  repeat refine .bind (by simp) fun _ => ?_
  split <;> simp

theorem wp_adjustCommitted {t : TransactionArgs} {op : OperationKind} {e : LedgerEntry}
    {reservation : Uuid} {delta : Option ℤ} {noop : String} {projections : SqlProc Unit}
    (hp : Writes (AppendsOnly fun _ => False) projections) (hy : y.posted = none) :
    wp (t.view op) t₀ (adjustCommitted t op e reservation delta noop projections)
      (fun id y' => t.Answers y id y') y := by
  unfold adjustCommitted
  iterate 3 refine wp_skip (by simp) fun _ => ?_
  apply wp_insertTransaction hy
  iterate 2 refine wp_skip (by simp) fun _ => ?_
  exact wp_skip hp fun _ => ⟨_, rfl, rfl, rfl⟩

theorem wp_postProviderReportedChecked (r : CommitPost) (hy : y.posted = none) :
    wp (r.transaction.view .providerReport) t₀ (postProviderReportedChecked r)
      (fun id y' => r.transaction.Answers y id y') y := by
  unfold postProviderReportedChecked
  iterate 6 refine wp_skip (by simp) fun _ => ?_
  apply wp_adjustCommitted _ hy
  exact .bind (by simp) fun _ => by simp

theorem wp_postInvoiceReconciledChecked (r : InvoicePost) (hy : y.posted = none) :
    wp (r.transaction.view .invoiceReconcile) t₀ (postInvoiceReconciledChecked r)
      (fun id y' => r.transaction.Answers y id y') y := by
  unfold postInvoiceReconciledChecked
  iterate 10 refine wp_skip (by simp) fun _ => ?_
  apply wp_adjustCommitted _ hy
  exact .bind (by simp) fun _ => .bind (by simp) fun _ => by simp

theorem wp_postReleaseChecked (r : ReleasePost) (hy : y.posted = none) :
    wp (r.transaction.view .release) t₀ (postReleaseChecked r)
      (fun id y' => r.transaction.Answers y id y') y := by
  unfold postReleaseChecked
  refine wp_skip ?_ fun res => ?_
  · unfold lockReleased
    repeat refine .bind (by simp) fun _ => ?_
    simp
  iterate 5 refine wp_skip (by simp) fun _ => ?_
  apply wp_insertTransaction hy
  unfold postReleaseWrites
  iterate 4 refine wp_skip (by simp) fun _ => ?_
  exact ⟨_, rfl, rfl, rfl⟩

end Procedures

section Loser

variable {t : TransactionArgs} {op : OperationKind} {T : ℕ} {db : Db} {x : LedgerTransaction} {β : Type}
  {Q : β → Db → Prop}

theorem solo_idempotentReplay {f : Option Uuid → SqlProc β}
    (hx : db.findTransaction t.tenant op t.idempotencyKey = some x)
    (hhash : x.requestHash = t.requestHash) (h : Solo T Q (f (some x.id)) db) :
    Solo T Q (idempotentReplay t op >>= f) db := by
  simp [idempotentReplay, hx, hhash, h]

theorem solo_insertTransaction {token : String} {f : Option Uuid → SqlProc β}
    (hx : db.findTransaction t.tenant op t.idempotencyKey = some x)
    (hhash : x.requestHash = t.requestHash) (h : Solo T Q (f (some x.id)) db) :
    Solo T Q (insertTransaction t op token >>= f) db := by
  simp [insertTransaction, hx, hhash, h]

theorem solo_fencingCas {s : FencingScope} {allowed : ScopeType → Bool} {use : String}
    {f : Unit → SqlProc β} (hs : db.fencingScope? t.fencingScope = some s)
    (hadmits : s.Admits t T allowed) (h : Solo T Q (f ()) db) :
    Solo T Q (fencingCas t allowed use >>= f) db := by
  simp only [fencingCas, fencingTests, solo_bind, solo_acquire, solo_read, solo_demand, solo_require,
    solo_clock, hs]
  refine ⟨s, rfl, hadmits.tenant, hadmits.owner, ?_⟩
  intro now hnow
  have hnow := hadmits.earlier hnow
  exact ⟨hnow.live, hnow.epoch, hnow.acquired, hnow.scopeType, h⟩

theorem solo_acquireAll {ls : List Lock} {f : Unit → SqlProc β} (h : Solo T Q (f ()) db) :
    Solo T Q (acquireAll ls >>= f) db := by
  induction ls with
  | nil => exact h
  | cons l ls ih => exact ih

def Db.SameButSequences (db db' : Db) : Prop := ∃ as, db' = { db with allocators := as }

theorem Db.SameButSequences.refl (db : Db) : db.SameButSequences db := ⟨db.allocators, rfl⟩

theorem solo_allocateSequences {ds : List EntryDraft}
    (h : ∀ d ∈ ds, d.shard ∈ db.allocators.map (·.shard)) :
    Solo T (fun _ db' => db.SameButSequences db') (allocateSequences ds) db := by
  induction ds generalizing db with
  | nil => exact .refl db
  | cons d ds ih =>
    obtain ⟨hd, hds⟩ := List.forall_mem_cons.mp h
    have hfind : (db.allocators.find? fun a => a.shard = d.shard).isSome := by
      rw [List.find?_isSome]
      obtain ⟨a, ha, hshard⟩ := List.mem_map.mp hd
      exact ⟨a, ha, by simpa using hshard⟩
    obtain ⟨a, ha⟩ := Option.isSome_iff_exists.mp hfind
    change Solo T _ (nextvalPerShard d.shard >>= fun n =>
      allocateSequences ds >>= fun rest => Pure.pure ((d, n) :: rest)) db
    simp only [nextvalPerShard, solo_bind, solo_acquire, solo_read, solo_demand, solo_write, solo_pure]
    refine ⟨a, ha, ?_⟩
    have hshards : (db.nextSequence d.shard).allocators.map (·.shard) = db.allocators.map (·.shard) :=
      congrArg Catalog.shards (catalog_nextSequence db d.shard)
    apply (ih (hshards ▸ hds)).mono
    rintro _ _ ⟨as, rfl⟩
    exact ⟨as, rfl⟩

theorem solo_postLedgerChecked {r : LedgerPost}
    (hx : db.findTransaction r.transaction.tenant r.operationKind r.transaction.idempotencyKey = some x)
    (hhash : x.requestHash = r.transaction.requestHash) (hr : r.Catalogued db.catalog) :
    Solo T (fun id db' => id = x.id ∧ db.SameButSequences db') (postLedgerChecked r) db := by
  simp only [postLedgerChecked, solo_bind, solo_require, solo_read]
  refine ⟨hr.nonempty, resolved_iff.mpr hr.resolved, priced_iff.mpr hr.priced, hr.token, ?_⟩
  rw [← solo_bind]
  apply solo_acquireAll
  have hshards : ∀ d ∈ r.entries.map (·.draft r.transaction.tenant),
      d.shard ∈ db.allocators.map (·.shard) := by
    intro d hd
    obtain ⟨e, he, rfl⟩ := List.mem_map.mp hd
    exact hr.sharded e he
  apply (solo_allocateSequences hshards).mono
  rintro l _ ⟨as, rfl⟩
  rw [← solo_bind]
  exact solo_insertTransaction hx hhash ⟨rfl, as, rfl⟩

end Loser

section Stage

variable {t : TransactionArgs} {op : OperationKind} {allowed : ScopeType → Bool} {use : String}
  {k : SqlProc Uuid} {db : Db}

/-- How far a fenced post has come before anything was committed. -/
inductive Stage (t : TransactionArgs) (op : OperationKind) (allowed : ScopeType → Bool) (use : String)
    (k : SqlProc Uuid) (db : Db) : SqlProc LedgerReply → (Db → Db) → List Lock → Prop
  | unread : Stage t op allowed use k db (LedgerReply.posted <$> fencedPost t op allowed use k) id []
  | missed (hnew : db.findTransaction t.tenant op t.idempotencyKey = none) :
      Stage t op allowed use k db (LedgerReply.posted <$> (fencingCas t allowed use >>= fun _ => k)) id []
  | found {x : LedgerTransaction} (hx : db.findTransaction t.tenant op t.idempotencyKey = some x)
      (hhash : x.requestHash = t.requestHash) : Stage t op allowed use k db (.pure (.posted x.id)) id []
  | refused {x : LedgerTransaction} {e : PgError}
      (hx : db.findTransaction t.tenant op t.idempotencyKey = some x)
      (hhash : x.requestHash ≠ t.requestHash) : Stage t op allowed use k db (.raise e) id []
  | fenced {p : SqlProc LedgerReply} {w : Db → Db} {h : List Lock}
      (hnew : db.findTransaction t.tenant op t.idempotencyKey = none)
      (hl : .fencingScope t.fencingScope ∈ h) : Stage t op allowed use k db p w h

theorem stage_of_residual {p : SqlProc LedgerReply} {w : Db → Db} {h : List Lock}
    (hp : Residual db (LedgerReply.posted <$> fencedPost t op allowed use k) p w h) :
    Stage t op allowed use k db p w h := by
  induction hp with
  | start => exact .unread
  | observe now _ ih =>
    cases ih with
    | unread =>
      dsimp only [Proc.bind, id_eq]
      cases hx : db.findTransaction t.tenant op t.idempotencyKey with
      | none => exact .missed hx
      | some x =>
        by_cases hhash : x.requestHash = t.requestHash
        · simp only [require, if_pos hhash]
          exact .found hx hhash
        · simp only [require, if_neg hhash]
          exact .refused hx hhash
    | fenced hnew hl => exact .fenced hnew hl
  | modify _ ih =>
    cases ih with
    | fenced hnew hl => exact .fenced hnew hl
  | lock _ ih =>
    cases ih with
    | missed hnew => exact .fenced hnew (by simp)
    | fenced hnew hl => exact .fenced hnew (List.mem_cons_of_mem _ hl)

/-- What the first of two duplicates leaves when it answers `a`: the transaction `x`, which it has
found under the key or posted itself. -/
structure Won (t : TransactionArgs) (op : OperationKind)
    (E : Catalog → Prop) (y : KeyView) (a : LedgerReply)
    (x : LedgerTransaction) (y' : KeyView) : Prop where
  posted : y' = { y with posted := some x }
  hash : x.requestHash = t.requestHash
  answer : a = .posted x.id
  fresh : y.posted = none → E y.catalog
  replay : ∀ x', y.posted = some x' → x' = x

theorem wp_fencedPost {E : Catalog → Prop} {y : KeyView}
    (hk : y.posted = none →
      wp (t.view op) 0 k (fun id y' => t.Answers y id y' ∧ E y.catalog) y) :
    wp (t.view op) 0 (LedgerReply.posted <$> fencedPost t op allowed use k)
      (fun a y' => ∃ x, Won t op E y a x y') y := by
  apply wp_bind.mpr
  apply wp_idempotentReplay
  · intro hy
    refine wp_skip (by simp) fun _ => wp_mono ?_ (hk hy)
    rintro id y' ⟨⟨x, hposted, rfl, hhash⟩, hE⟩
    exact ⟨x, hposted, hhash, rfl, fun _ => hE, by simp [hy]⟩
  · intro x hx hhash
    exact ⟨x, by rw [← hx], hhash, rfl, by simp [hx], by simp [hx]⟩

theorem solo_fencedPost {T : ℕ} {x : LedgerTransaction}
    (hx : db.findTransaction t.tenant op t.idempotencyKey = some x)
    (hhash : x.requestHash = t.requestHash) :
    Solo T (fun a db' => a = .posted x.id ∧ db.SameButSequences db')
      (LedgerReply.posted <$> fencedPost t op allowed use k) db := by
  apply solo_bind.mpr
  exact solo_idempotentReplay hx hhash ⟨rfl, .refl db⟩

end Stage

structure TransactionArgs.SameRequest (t t' : TransactionArgs) : Prop where
  tenant : t'.tenant = t.tenant
  idempotencyKey : t'.idempotencyKey = t.idempotencyKey
  requestHash : t'.requestHash = t.requestHash

abbrev Race := Config (Fin 2) Db Lock PgError LedgerReply LedgerCall (Except PgError LedgerReply)

def Unread (c : MoneyCall) (q : Session Db Lock PgError LedgerReply LedgerCall (Except PgError LedgerReply)) :
    Prop :=
  q = .client (.call (.money c) .done) ∨ q = .running (.money c) c.body id [] .done

theorem TransactionArgs.SameRequest.find {t t' : TransactionArgs} (h : t.SameRequest t') (db : Db)
    (op : OperationKind) : db.findTransaction t'.tenant op t'.idempotencyKey =
      db.findTransaction t.tenant op t.idempotencyKey := by
  rw [h.tenant, h.idempotencyKey]

section Race

variable {g₀ g₁ g₂ : Race} {calls : Fin 2 → MoneyCall} {i j : Fin 2} {a : LedgerReply} {w : Db → Db}
  {h : List Lock} {t t' : TransactionArgs} {op : OperationKind} {allowed allowed' : ScopeType → Bool}
  {use use' : String} {k k' : SqlProc Uuid} {E : Catalog → Prop}

theorem racing_of_pending (hij : i ≠ j)
    (hstart : ∀ n, g₀.session n = .client (.call (.money (calls n)) .done))
    (h₁ : Config.Run LedgerCall.body (fun _ _ => True) g₀ g₁)
    (hi : ∀ r, g₁.session i ≠ .client (.done r)) (hj : ∀ r, g₁.session j ≠ .client (.done r)) :
    g₁.Racing LedgerCall.body g₀.committed (fun n => .money (calls n)) := by
  rcases (Config.racing_of_clients hstart).run h₁ with hracing | ⟨n, r, hn⟩
  · exact hracing
  · have hcases : n = i ∨ n = j := by omega
    rcases hcases with rfl | rfl
    · exact absurd hn (hi r)
    · exact absurd hn (hj r)

theorem settles_of_won {c : MoneyCall} {q : Session Db Lock PgError LedgerReply LedgerCall
    (Except PgError LedgerReply)} {db₀ db : Db} {x : LedgerTransaction} {T : ℕ}
    (hsame : t.SameRequest t') (hwon : Won t op E (t.view op db₀) a x (t.view op db))
    (hbody' : c.body = LedgerReply.posted <$> fencedPost t' op allowed' use' k')
    (hq : q.Racing LedgerCall.body db₀ (.money c))
    (hlate : Unread c q ∨ (db₀.findTransaction t.tenant op t.idempotencyKey = none →
      .fencingScope t'.fencingScope ∉ q.held ∧
        (E db.catalog → Solo T (fun a' db' => a' = .posted x.id ∧ db.SameButSequences db')
          (LedgerReply.posted <$> (fencingCas t' allowed' use' >>= fun _ => k')) db))) :
    q.Settles LedgerCall.body db T (fun a' db' => a' = .posted x.id ∧ db.SameButSequences db') db := by
  have hposted : db.findTransaction t'.tenant op t'.idempotencyKey = some x :=
    (hsame.find db op).trans (congrArg KeyView.posted hwon.posted)
  have hsolo : Solo T (fun a' db' => a' = .posted x.id ∧ db.SameButSequences db') c.body db := by
    rw [hbody']
    exact solo_fencedPost hposted (hwon.hash.trans hsame.requestHash.symm)
  rcases hlate with (rfl | rfl) | hlate
  · exact ⟨rfl, rfl, hsolo⟩
  · exact ⟨rfl, rfl, hsolo⟩
  · cases q with
    | client q =>
      cases hq
      exact ⟨rfl, rfl, hsolo⟩
    | running c' p w h n =>
      obtain ⟨rfl, rfl, hresidual⟩ := hq
      change Residual db₀ c.body p w h at hresidual
      rw [hbody'] at hresidual
      refine ⟨rfl, rfl, ?_⟩
      cases stage_of_residual hresidual with
      | unread => exact hbody' ▸ hsolo
      | missed hnew =>
        rw [hsame.find] at hnew
        have hcatalog : db.catalog = db₀.catalog := congrArg KeyView.catalog hwon.posted
        exact (hlate hnew).2 (hcatalog ▸ hwon.fresh hnew)
      | @found x' hx _ =>
        rw [hsame.find] at hx
        exact ⟨by rw [hwon.replay x' hx], .refl db⟩
      | @refused x' _ hx hhash =>
        rw [hsame.find] at hx
        rw [hwon.replay x' hx, hwon.hash] at hhash
        exact absurd hsame.requestHash.symm hhash
      | fenced hnew hl =>
        rw [hsame.find] at hnew
        exact absurd hl (hlate hnew).1

theorem race_of_fencedPost (hij : i ≠ j) (hsame : t.SameRequest t')
    (hbody : (calls i).body = LedgerReply.posted <$> fencedPost t op allowed use k)
    (hbody' : (calls j).body = LedgerReply.posted <$> fencedPost t' op allowed' use' k')
    (hk : ∀ y : KeyView, y.posted = none →
      wp (t.view op) 0 k (fun id y' => t.Answers y id y' ∧ E y.catalog) y)
    (hstart : ∀ n, g₀.session n = .client (.call (.money (calls n)) .done))
    (h₁ : Config.Run LedgerCall.body (fun _ _ => True) g₀ g₁)
    (hreturns : g₁.session i = .running (.money (calls i)) (.pure a) w h .done)
    (hpending : ∀ r, g₁.session j ≠ .client (.done r))
    (hlate : Unread (calls j) (g₁.session j) ∨ t'.fencingScope = t.fencingScope ∧
      ∀ T db x, db.findTransaction t'.tenant op t'.idempotencyKey = some x →
        x.requestHash = t'.requestHash → E db.catalog →
        Solo T (fun id db' => id = x.id ∧ db.SameButSequences db') k' db)
    (h₂ : Config.Run LedgerCall.body (fun _ _ => True)
      { g₁.set i (.client (.done (.ok a))) with committed := w g₁.committed } g₂)
    (hlease : ∃ s, g₀.committed.fencingScope? t'.fencingScope = some s ∧ s.Admits t' g₂.clock allowed') :
    g₂.Finishes LedgerCall.body j fun a' db => a' = a ∧ (w g₁.committed).SameButSequences db := by
  have hracing := racing_of_pending hij hstart h₁ (by simp [hreturns]) hpending
  have hwinner := hracing.session i
  rw [hreturns] at hwinner
  obtain ⟨-, -, hresidual⟩ := hwinner
  change Residual g₀.committed (calls i).body (.pure a) w h at hresidual
  rw [hbody] at hresidual
  have hwon : ∃ x, Won t op E (t.view op g₀.committed) a x (t.view op (w g₀.committed)) :=
    hresidual.wp (wp_fencedPost (hk _))
  obtain ⟨x, hwon⟩ := hwon
  rw [hracing.committed, hwon.answer] at h₂ ⊢
  have hsettles : (g₁.session j).Settles LedgerCall.body (w g₀.committed) g₂.clock
      (fun a' db' => a' = .posted x.id ∧ (w g₀.committed).SameButSequences db') (w g₀.committed) := by
    apply settles_of_won hsame hwon hbody' (hracing.session j)
    refine hlate.imp_right ?_
    rintro ⟨hscope, hk'⟩ hnew
    constructor
    · -- the first call has the lock
      have hheld : .fencingScope t.fencingScope ∈ h := by
        cases stage_of_residual hresidual with
        | found hx _ => simp [hnew] at hx
        | fenced _ hl => exact hl
      rw [hscope]
      exact hracing.others_free (i := i) _ (by rwa [hreturns]) j hij.symm
    · intro hE
      obtain ⟨s, hs, hadmits⟩ := hlease
      have hscopes : (w g₀.committed).fencingScopes = g₀.committed.fencingScopes :=
        congrArg KeyView.scopes hwon.posted
      have hposted : (w g₀.committed).findTransaction t'.tenant op t'.idempotencyKey = some x :=
        (hsame.find _ op).trans (congrArg KeyView.posted hwon.posted)
      apply solo_bind.mpr
      apply solo_fencingCas (s := s) _ hadmits
      · apply (hk' g₂.clock _ x hposted (hwon.hash.trans hsame.requestHash.symm) hE).mono
        rintro id db' ⟨rfl, hdb'⟩
        exact ⟨rfl, hdb'⟩
      · rw [Db.fencingScope?, hscopes]
        exact hs
  have halone : Config.Alone LedgerCall.body j (w g₀.committed) g₂.clock
      (fun a' db' => a' = .posted x.id ∧ (w g₀.committed).SameButSequences db')
      { g₁.set i (.client (.done (.ok (.posted x.id)))) with committed := w g₀.committed } := by
    constructor
    · intro n hn
      have hni : n = i := by omega
      exact ⟨_, by rw [hni]; exact Function.update_self i _ g₁.session⟩
    · change Session.Settles _ _ _ _ _ ((g₁.set i _).session j)
      rw [Config.set_session, if_neg hij.symm]
      exact hsettles
  exact (halone.run h₂ (Nat.le_refl _)).finishes (Nat.le_refl _)

end Race

section Duplicates

/-- The entry without the id of the reservation it belongs to, which is minted anew on a retry. -/
def EntryArgs.payload (e : EntryArgs) : EntryArgs := { e with reservation := none }

/-- Two calls of one procedure for the same request.  Only `post_ledger_transaction` looks at its
payload before it finds the transaction of the other call. -/
inductive Duplicate : MoneyCall → MoneyCall → Prop
  | post {r r' : LedgerPost} (ht : r.transaction.SameRequest r'.transaction)
      (hop : r'.operationKind = r.operationKind)
      (hentries : r'.entries.map EntryArgs.payload = r.entries.map EntryArgs.payload)
      (htoken : r'.callerLockToken = r.callerLockToken) : Duplicate (.post r) (.post r')
  | commitEstimated {r r' : CommitPost} (ht : r.transaction.SameRequest r'.transaction) :
      Duplicate (.commitEstimated r) (.commitEstimated r')
  | providerReported {r r' : CommitPost} (ht : r.transaction.SameRequest r'.transaction) :
      Duplicate (.providerReported r) (.providerReported r')
  | invoiceReconciled {r r' : InvoicePost} (ht : r.transaction.SameRequest r'.transaction) :
      Duplicate (.invoiceReconciled r) (.invoiceReconciled r')
  | release {r r' : ReleasePost} (ht : r.transaction.SameRequest r'.transaction) :
      Duplicate (.release r) (.release r')

def MoneyCall.allowed : MoneyCall → ScopeType → Bool
  | .post r => allowedScope r.operationKind
  | .commitEstimated _ => allowedScope .commitEstimated
  | .providerReported _ => allowedScope .providerReport
  | .invoiceReconciled _ => allowedScope .invoiceReconcile
  | .release r => releaseScope r.reason
  | .sessionReserve _ | .sessionCommitDelta _ | .sessionRelease _ _ | .sessionExpire _ => fun _ => false

/-- Does the procedure look for a replay, or insert, behind its fencing lock before it looks at the
state of the reservation? -/
def MoneyCall.replaysBehindLock : MoneyCall → Bool
  | .commitEstimated _ => false
  | _ => true

theorem LedgerPost.Catalogued.of_payload {r r' : LedgerPost}
    {catalog : Catalog} (h : r.Catalogued catalog)
    (ht : r.transaction.SameRequest r'.transaction)
    (hentries : r'.entries.map EntryArgs.payload = r.entries.map EntryArgs.payload)
    (htoken : r'.callerLockToken = r.callerLockToken) : r'.Catalogued catalog := by
  have hpayload : ∀ e' ∈ r'.entries, ∃ e ∈ r.entries, e.payload = e'.payload := by
    intro e' he'
    have hmem : e'.payload ∈ r.entries.map EntryArgs.payload := hentries ▸ List.mem_map_of_mem he'
    exact List.mem_map.mp hmem
  have hkeys : ∀ es : List EntryArgs, es.map (fun e => (e.budget, e.unit, e.kind)) =
      (es.map EntryArgs.payload).map fun e => (e.budget, e.unit, e.kind) := by
    intro es
    rw [List.map_map]
    rfl
  have htoken' : r'.token = r.token := by
    rw [LedgerPost.token, LedgerPost.token, hkeys, hentries, ← hkeys]
  constructor
  · intro hnil
    rw [hnil, List.map_nil] at hentries
    exact h.nonempty (List.map_eq_nil_iff.mp hentries.symm)
  · intro e' he'
    obtain ⟨e, he, hpayload⟩ := hpayload e' he'
    change e'.payload.account _ ∈ _
    rw [← hpayload, ht.tenant]
    exact h.resolved e he
  · intro e' he'
    obtain ⟨e, he, hpayload⟩ := hpayload e' he'
    have hpricing : e'.payload.pricing = e.payload.pricing := by rw [hpayload]
    change e'.pricing = e.pricing at hpricing
    rw [hpricing]
    exact h.priced e he
  · rw [htoken, htoken']
    exact h.token
  · intro e' he'
    obtain ⟨e, he, hpayload⟩ := hpayload e' he'
    change e'.payload.shard ∈ _
    rw [← hpayload]
    exact h.sharded e he

theorem solo_replayAgain {t : TransactionArgs} {op : OperationKind} {k : SqlProc Uuid} {T : ℕ} {db : Db}
    {x : LedgerTransaction} (hx : db.findTransaction t.tenant op t.idempotencyKey = some x)
    (hhash : x.requestHash = t.requestHash) :
    Solo T (fun id db' => id = x.id ∧ db.SameButSequences db')
      (idempotentReplay t op >>= fun
        | some id => Pure.pure id
        | none => k) db :=
  solo_idempotentReplay hx hhash ⟨rfl, .refl db⟩

theorem wp_replayAgain {t : TransactionArgs} {op : OperationKind} {k : SqlProc Uuid} {y : KeyView}
    (hy : y.posted = none) (hk : wp (t.view op) 0 k (fun id y' => t.Answers y id y') y) :
    wp (t.view op) 0 (idempotentReplay t op >>= fun
      | some id => Pure.pure id
      | none => k) (fun id y' => t.Answers y id y' ∧ True) y := by
  apply wp_idempotentReplay
  · intro _
    exact wp_mono (fun _ _ h => ⟨h, trivial⟩) hk
  · intro x hx
    simp [hy] at hx

theorem Duplicate.shape {c c' : MoneyCall} {t t' : TransactionArgs} {op op' : OperationKind}
    (h : Duplicate c c') (hc : c.fenced = some (t, op)) (hc' : c'.fenced = some (t', op')) :
    t.SameRequest t' ∧ ∃ (E : Catalog → Prop) (allowed : ScopeType → Bool) (use use' : String)
        (k k' : SqlProc Uuid),
      c.body = LedgerReply.posted <$> fencedPost t op allowed use k ∧
      c'.body = LedgerReply.posted <$> fencedPost t' op c'.allowed use' k' ∧
      (∀ y : KeyView, y.posted = none →
        wp (t.view op) 0 k (fun id y' => t.Answers y id y' ∧ E y.catalog) y) ∧
      (c'.replaysBehindLock = true → ∀ T db x,
        db.findTransaction t'.tenant op t'.idempotencyKey = some x → x.requestHash = t'.requestHash →
        E db.catalog → Solo T (fun id db' => id = x.id ∧ db.SameButSequences db') k' db) := by
  cases h with
  | @post r r' ht hop hentries htoken =>
    cases hc
    cases hc'
    refine ⟨ht, r.Catalogued, _, _, _, _, _, rfl, by rw [← hop]; rfl, ?_, ?_⟩
    · intro y hy
      exact wp_postLedgerChecked r hy
    · intro _ T db x hx hhash hr
      rw [← hop] at hx
      exact solo_postLedgerChecked hx hhash (hr.of_payload ht hentries htoken)
  | @commitEstimated r r' ht =>
    cases hc
    cases hc'
    refine ⟨ht, fun _ => True, _, _, _, _, _, rfl, rfl, ?_, nofun⟩
    intro y hy
    exact wp_mono (fun _ _ h => ⟨h, trivial⟩) (wp_postCommitEstimatedChecked r hy)
  | @providerReported r r' ht =>
    cases hc
    cases hc'
    refine ⟨ht, fun _ => True, _, _, _, _, _, rfl, rfl, ?_,
      fun _ _ _ _ hx hhash _ => solo_replayAgain hx hhash⟩
    intro y hy
    exact wp_replayAgain hy (wp_postProviderReportedChecked r hy)
  | @invoiceReconciled r r' ht =>
    cases hc
    cases hc'
    refine ⟨ht, fun _ => True, _, _, _, _, _, rfl, rfl, ?_,
      fun _ _ _ _ hx hhash _ => solo_replayAgain hx hhash⟩
    intro y hy
    exact wp_replayAgain hy (wp_postInvoiceReconciledChecked r hy)
  | @release r r' ht =>
    cases hc
    cases hc'
    refine ⟨ht, fun _ => True, _, _, _, _, _, rfl, rfl, ?_,
      fun _ _ _ _ hx hhash _ => solo_replayAgain hx hhash⟩
    intro y hy
    exact wp_replayAgain hy (wp_postReleaseChecked r hy)

end Duplicates

/-- Of two duplicates under way at the same time the first to finish commits; whatever the
interleaving, the other one then answers the same transaction and changes nothing, if it makes its
first read after that commit or its procedure replays behind the fencing lock the two share. -/
theorem duplicate_answered_alike {g₀ g₁ g₂ : Race} {calls : Fin 2 → MoneyCall} {i j : Fin 2}
    {a : LedgerReply} {w : Db → Db} {h : List Lock} {t t' : TransactionArgs} {op op' : OperationKind}
    (hij : i ≠ j) (hdup : Duplicate (calls i) (calls j))
    (hfenced : (calls i).fenced = some (t, op)) (hfenced' : (calls j).fenced = some (t', op'))
    (hstart : ∀ n, g₀.session n = .client (.call (.money (calls n)) .done))
    (h₁ : Config.Run LedgerCall.body (fun _ _ => True) g₀ g₁)
    (hreturns : g₁.session i = .running (.money (calls i)) (.pure a) w h .done)
    (hpending : ∀ r, g₁.session j ≠ .client (.done r))
    (hlate : Unread (calls j) (g₁.session j) ∨
      (calls j).replaysBehindLock = true ∧ t'.fencingScope = t.fencingScope)
    (h₂ : Config.Run LedgerCall.body (fun _ _ => True)
      { g₁.set i (.client (.done (.ok a))) with committed := w g₁.committed } g₂)
    (hlease : ∃ s, g₀.committed.fencingScope? t'.fencingScope = some s ∧
      s.Admits t' g₂.clock (calls j).allowed) :
    g₂.Finishes LedgerCall.body j fun a' db => a' = a ∧ (w g₁.committed).SameButSequences db := by
  obtain ⟨hsame, E, allowed, use, use', k, k', hbody, hbody', hk, hk'⟩ := hdup.shape hfenced hfenced'
  apply race_of_fencedPost hij hsame hbody hbody' hk hstart h₁ hreturns hpending _ h₂ hlease
  exact hlate.imp_right fun hlock => ⟨hlock.2, hk' hlock.1⟩

def race (db : Db) (calls : Fin 2 → MoneyCall) : Race where
  committed := db
  clock := 0
  session n := .client (.call (.money (calls n)) .done)

def heldLedger : Db := ((MoneyCall.post (capReserve 1 10)).run 0 fundedLedger).toOption.getD fundedLedger

def retriedCommit : Fin 2 → MoneyCall
  | 0 => .commitEstimated (capReport 2 1 10 "sidecar-1" 4)
  | 1 => .commitEstimated { capReport 2 1 10 "sidecar-1" 4 with
      transaction := { capArgs 2 10 "sidecar-1" with id := ⟨199, []⟩ } }

def retryRejected : Race :=
  (race heldLedger retriedCommit).play LedgerCall.body
    (List.replicate 2 (.session 1) ++ List.replicate 60 (.session 0) ++ List.replicate 60 (.session 1))

theorem commit_retry_rejected :
    Duplicate (retriedCommit 0) (retriedCommit 1) ∧
    Config.Run LedgerCall.body (fun _ _ => True) (race heldLedger retriedCommit) retryRejected ∧
    (∃ s, heldLedger.fencingScope? ⟨10, []⟩ = some s ∧ ∀ now, s.expired now = false) ∧
    (retryRejected.session 0).answer? = some (.ok (.posted ⟨102, []⟩)) ∧
    (retryRejected.session 1).answer? = some (.error ⟨"P0001", "RESERVATION_STATE_CONFLICT: reservation_id " ++
      Uuid.text ⟨401, []⟩ ++ " current_state=committed, expected reserved"⟩) := by
  refine ⟨.commitEstimated ⟨rfl, rfl, rfl⟩, Config.play_run _, ?_, by decide +kernel, by decide +kernel⟩
  exact ⟨⟨⟨10, []⟩, .budgetWindow, ⟨1, []⟩, 1, some "sidecar-1", none⟩, by decide +kernel, fun _ => rfl⟩

def retriedReserve : Fin 2 → MoneyCall
  | 0 => .post (capReserve 1 10)
  | 1 => .post { capReserve 1 10 with transaction := { capArgs 1 10 "sidecar-1" with id := ⟨199, []⟩ } }

def reserveCommitting : Race :=
  (race fundedLedger retriedReserve).play LedgerCall.body
    (List.replicate 2 (.session 1) ++ List.replicate 30 (.session 0))

/-- The retry finds the transaction of the first call at its insert. -/
theorem reserve_retry_answered_alike :
    ∃ a w h, reserveCommitting.session 0 = .running (.money (retriedReserve 0)) (.pure a) w h .done ∧
      ({ reserveCommitting.set 0 (.client (.done (.ok a))) with
          committed := w reserveCommitting.committed } : Race).Finishes LedgerCall.body 1
        fun a' db => a' = a ∧ (w reserveCommitting.committed).SameButSequences db := by
  have hrun : Config.Run LedgerCall.body (fun _ _ => True) (race fundedLedger retriedReserve)
      reserveCommitting := Config.play_run _
  have hstart : ∀ n, (race fundedLedger retriedReserve).session n =
      .client (.call (.money (retriedReserve n)) .done) := fun _ => rfl
  have hpending : ∀ n r, reserveCommitting.session n ≠ .client (.done r) := by
    intro n r hn
    have hanswer : (reserveCommitting.session n).answer? = some r := by rw [hn]; rfl
    have hnone : ∀ n, (reserveCommitting.session n).answer? = none := by decide +kernel
    rw [hnone n] at hanswer
    cases hanswer
  have hracing := racing_of_pending (i := 0) (j := 1) (by decide) hstart hrun (hpending 0) (hpending 1)
  obtain ⟨a, w, h, hreturns⟩ := hracing.eq_of_returning? (i := 0) (by decide +kernel)
  refine ⟨a, w, h, hreturns, ?_⟩
  have hfenced : (retriedReserve 0).fenced = some (capArgs 1 10 "sidecar-1", .reserve) := rfl
  have hretry : (retriedReserve 1).fenced =
      some ({ capArgs 1 10 "sidecar-1" with id := ⟨199, []⟩ }, .reserve) := rfl
  have hduplicate : Duplicate (retriedReserve 0) (retriedReserve 1) := by
    unfold retriedReserve
    exact .post ⟨rfl, rfl, rfl⟩ rfl rfl rfl
  apply duplicate_answered_alike (by decide) hduplicate hfenced hretry hstart hrun hreturns (hpending 1)
    (.inr ⟨rfl, rfl⟩) .refl
  exact ⟨⟨⟨10, []⟩, .budgetWindow, ⟨1, []⟩, 1, some "sidecar-1", none⟩, rfl, rfl, rfl, rfl, rfl, by decide, rfl⟩

end SpendGuard.Ledger
