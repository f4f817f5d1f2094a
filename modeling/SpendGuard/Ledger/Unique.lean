import SpendGuard.Base.Facts
import SpendGuard.Ledger.Lookups

/-!
Posts under interference: whatever else commits between two of their statements, an idempotency key names one
transaction, an id belongs to one, and a post answers with a transaction that is under its key.
-/

namespace SpendGuard.Ledger

open Base Base.Proc

inductive Closes (id : Uuid) : SqlProc Uuid → Prop
  | done : Closes id (Pure.pure id)
  | skip {α : Type} {x : SqlProc α} {f : α → SqlProc Uuid} (hx : Writes (AppendsOnly fun _ => False) x)
      (hf : ∀ a, Closes id (f a)) : Closes id (x >>= f)

/-- What a post does to `ledger_transactions`: it may look for its key, and it inserts one row. -/
inductive Posts (t : TransactionArgs) (op : OperationKind) : SqlProc Uuid → Prop
  | skip {α : Type} {x : SqlProc α} {f : α → SqlProc Uuid} (hx : Writes (AppendsOnly fun _ => False) x)
      (hf : ∀ a, Posts t op (f a)) : Posts t op (x >>= f)
  | replay {f : Option Uuid → SqlProc Uuid} (hsome : ∀ id, f (some id) = Pure.pure id)
      (hnone : Posts t op (f none)) : Posts t op (idempotentReplay t op >>= f)
  | insert {token : String} {f : Option Uuid → SqlProc Uuid} (hsome : ∀ id, f (some id) = Pure.pure id)
      (hnone : Closes t.id (f none)) : Posts t op (insertTransaction t op token >>= f)

section Procedures

variable {t : TransactionArgs} {op : OperationKind} {allowed : ScopeType → Bool} {use : String} {k : SqlProc Uuid}

theorem posts_fencedPost (hk : Posts t op k) : Posts t op (fencedPost t op allowed use k) :=
  .replay (fun _ => rfl) (.skip (by simp) fun _ => hk)

theorem posts_postLedgerChecked (r : LedgerPost) :
    Posts r.transaction r.operationKind (postLedgerChecked r) := by
  unfold postLedgerChecked
  iterate 7 refine .skip (by simp) fun _ => ?_
  refine .insert (fun _ => rfl) ?_
  unfold postLedgerWrites
  iterate 6 refine .skip (by simp) fun _ => ?_
  exact .done

theorem posts_postCommitEstimatedChecked (r : CommitPost) :
    Posts r.transaction .commitEstimated (postCommitEstimatedChecked r) := by
  unfold postCommitEstimatedChecked
  iterate 12 refine .skip (by simp) fun _ => ?_
  refine .insert (fun _ => rfl) ?_
  unfold postCommitEstimatedWrites
  iterate 4 refine .skip (by simp) fun _ => ?_
  refine .skip ?_ fun _ => .done
  unfold insertCommit
  repeat refine .bind (by simp) fun _ => ?_
  split <;> simp

theorem posts_adjustCommitted {e : LedgerEntry} {reservation : Uuid} {delta : Option ℤ} {noop : String}
    {projections : SqlProc Unit} (hp : Writes (AppendsOnly fun _ => False) projections) :
    Posts t op (adjustCommitted t op e reservation delta noop projections) := by
  unfold adjustCommitted
  iterate 3 refine .skip (by simp) fun _ => ?_
  refine .insert (fun _ => rfl) ?_
  iterate 2 refine .skip (by simp) fun _ => ?_
  exact .skip hp fun _ => .done

theorem posts_postProviderReportedChecked (r : CommitPost) :
    Posts r.transaction .providerReport (postProviderReportedChecked r) := by
  unfold postProviderReportedChecked
  iterate 6 refine .skip (by simp) fun _ => ?_
  exact posts_adjustCommitted (.bind (by simp) fun _ => by simp)

theorem posts_postInvoiceReconciledChecked (r : InvoicePost) :
    Posts r.transaction .invoiceReconcile (postInvoiceReconciledChecked r) := by
  unfold postInvoiceReconciledChecked
  iterate 10 refine .skip (by simp) fun _ => ?_
  exact posts_adjustCommitted (.bind (by simp) fun _ => .bind (by simp) fun _ => by simp)

theorem posts_postReleaseChecked (r : ReleasePost) :
    Posts r.transaction .release (postReleaseChecked r) := by
  unfold postReleaseChecked
  refine .skip ?_ fun res => ?_
  · unfold lockReleased
    repeat refine .bind (by simp) fun _ => ?_
    simp
  iterate 5 refine .skip (by simp) fun _ => ?_
  refine .insert (fun _ => rfl) ?_
  unfold postReleaseWrites
  iterate 4 refine .skip (by simp) fun _ => ?_
  exact .done

theorem posts_postDeniedDecisionTransaction (r : DeniedPost) :
    Posts r.transaction .deniedDecision (postDeniedDecisionTransaction r) := by
  refine .replay (fun _ => rfl) (.skip (by simp) fun _ => .skip (by simp) fun _ => .replay (fun _ => rfl) ?_)
  refine .skip (by simp) fun _ => .insert (fun _ => rfl) ?_
  exact .skip (by simp) fun _ => .done

/-- A call of the ledger posts one transaction, or writes rows of the session procedures, or none. -/
inductive LedgerCall.Kind (c : LedgerCall) : Prop
  | posts {t : TransactionArgs} {op : OperationKind} {p : SqlProc Uuid} (hc : c.fenced = some (t, op))
      (hp : Posts t op p) (hbody : c.body = LedgerReply.posted <$> p)
  | session (hc : c.fenced = none) (hp : Writes (AppendsOnly SessionRow) c.body)
  | silent (hc : c.fenced = none) (hp : Quiet Db.transactions c.body)

theorem MoneyCall.kind (c : MoneyCall) : (LedgerCall.money c).Kind := by
  cases c with
  | post r => exact .posts rfl (posts_fencedPost (posts_postLedgerChecked r)) rfl
  | commitEstimated r => exact .posts rfl (posts_fencedPost (posts_postCommitEstimatedChecked r)) rfl
  | providerReported r =>
    exact .posts rfl (posts_fencedPost (.replay (fun _ => rfl) (posts_postProviderReportedChecked r))) rfl
  | invoiceReconciled r =>
    exact .posts rfl (posts_fencedPost (.replay (fun _ => rfl) (posts_postInvoiceReconciledChecked r))) rfl
  | release r => exact .posts rfl (posts_fencedPost (.replay (fun _ => rfl) (posts_postReleaseChecked r))) rfl
  | sessionReserve r => exact .session rfl (writes_postSessionReserve r).map
  | sessionCommitDelta r => exact .session rfl (writes_postSessionCommitDelta r).map
  | sessionRelease reasonCode r => exact .session rfl (writes_postSessionRelease reasonCode r).map
  | sessionExpire r => exact .session rfl (writes_postSessionExpire r).map

theorem quiet_transactions {α : Type} {p : SqlProc α} (hp : Writes ScopesOnly p) : Quiet Db.transactions p := by
  apply hp.mono
  intro f hf db
  obtain ⟨scopes, events, hdb⟩ := hf db
  rw [hdb]

theorem LedgerCall.kind (c : LedgerCall) : c.Kind := by
  cases c with
  | money c => exact c.kind
  | denied r => exact .posts rfl (posts_postDeniedDecisionTransaction r) rfl
  | lease r => exact .silent rfl (quiet_transactions (scopesOnly_acquireFencingLease r)).map
  | tombstone tenant => exact .silent rfl (quiet_transactions (scopesOnly_tombstoneTenant tenant)).map
  | queryDecision tenant key => exact .silent rfl (Writes.map (by simp))

end Procedures

def Db.rows (q : LedgerTransaction → Prop) [DecidablePred q] (db : Db) : List LedgerTransaction :=
  db.transactions.filter q

def FirstRow (x y : List LedgerTransaction) : Prop := x = [] ∧ ∃ row, y = [row]

/-- The post inserts its row, which satisfies `q`, only when it holds the lock and there is no such row. -/
inductive Covers (q : LedgerTransaction → Prop) [DecidablePred q] (t : TransactionArgs) (op : OperationKind) :
    Lock → Prop
  | key (h : ∀ db : Db, db.findTransaction t.tenant op t.idempotencyKey = none → db.rows q = []) :
      Covers q t op (.transactionKey t.tenant op t.idempotencyKey)
  | id (h : ∀ db : Db, (∀ x ∈ db.transactions, x.id ≠ t.id) → db.rows q = []) :
      Covers q t op (.transactionId t.id)

section Rows

variable {q : LedgerTransaction → Prop} [DecidablePred q] {t : TransactionArgs} {op : OperationKind} {l : Lock}
  {p : SqlProc Uuid} {t₀ : ℕ} {y : List LedgerTransaction}

theorem AppendsOnly.rows_eq {s : LedgerTransaction → Prop} {f : Db → Db} (h : AppendsOnly s f)
    (hs : ∀ x, s x → ¬q x) (db : Db) : (f db).rows q = db.rows q := by
  obtain ⟨rows, hrows, hf⟩ := h
  have hnone : rows.filter q = [] := by
    rw [List.filter_eq_nil_iff]
    intro x hx
    simpa using hs x (hrows x hx)
  rw [Db.rows, (hf db).1, List.filter_append, hnone, List.append_nil, Db.rows]

theorem quiet_rows {α : Type} {x : SqlProc α} (hx : Writes (AppendsOnly fun _ => False) x) :
    Quiet (Db.rows q) x := hx.mono fun _ hf => hf.rows_eq fun _ h => h.elim

theorem Closes.quiet {id : Uuid} (h : Closes id p) : Quiet (Db.rows q) p := by
  induction h with
  | done => exact writes_pure
  | skip hx _ ih => exact .bind (quiet_rows hx) ih

variable {token : String} {f : Option Uuid → SqlProc Uuid} {t₁ : ℕ}

theorem wp_insertRow (hrow : ∀ token, q (t.row op token))
    (hempty : ∀ db : Db, (∀ x ∈ db.transactions, x.id ≠ t.id) → db.rows q = y → y = [])
    (hnone : Quiet (Db.rows q) (f none)) :
    wp (Db.rows q) t₀ (read >>= fun db => require (∀ x ∈ db.transactions, x.id ≠ t.id)
      (uniqueViolation "ledger_transactions_pkey") >>= fun _ =>
        write (·.insertTransaction (t.row op token)) >>= fun _ => f none)
      (fun _ z => z = y ∨ FirstRow y z) y := by
  simp only [wp_bind, wp_read, wp_require]
  intro db hdb hfresh
  have hnil : y = [] := hempty db hfresh hdb
  apply wp_write [t.row op token]
  · intro v hv
    rw [Db.rows, Db.insertTransaction, List.filter_append, ← Db.rows, hv, hnil]
    simp [hrow]
  · exact hnone.wp fun _ => .inr ⟨hnil, _, rfl⟩

theorem insertTransaction_bind :
    insertTransaction t op token >>= f = (acquire (.transactionKey t.tenant op t.idempotencyKey) >>= fun _ =>
      read >>= fun db => match db.findTransaction t.tenant op t.idempotencyKey with
        | some x => require (x.requestHash = t.requestHash) idempotencyConflict >>= fun _ => f (some x.id)
        | none => acquire (.transactionId t.id) >>= fun _ => read >>= fun db =>
          require (∀ x ∈ db.transactions, x.id ≠ t.id) (uniqueViolation "ledger_transactions_pkey") >>= fun _ =>
            write (·.insertTransaction (t.row op token)) >>= fun _ => f none) := by
  simp only [insertTransaction, bind_bind]
  refine congrArg (acquire _ >>= ·) (funext fun _ => congrArg (read >>= ·) (funext fun db => ?_))
  cases db.findTransaction t.tenant op t.idempotencyKey with
  | some x => exact bind_bind _ _ _
  | none =>
    simp only [bind_bind]
    rfl

theorem wp_insert (hl : Covers q t op l)
    (hrow : ∀ token, q (t.row op token)) (hsome : ∀ id, f (some id) = Pure.pure id)
    (hnone : Quiet (Db.rows q) (f none)) :
    wp (Db.rows q) t₀ (insertTransaction t op token >>= f) (fun _ z => z = y ∨ FirstRow y z) y := by
  rw [insertTransaction_bind, wp_bind, wp_acquire, wp_bind, wp_read]
  rintro db rfl
  cases hx : db.findTransaction t.tenant op t.idempotencyKey with
  | some x =>
    dsimp only
    rw [hsome, wp_bind, wp_require]
    exact fun _ => .inl rfl
  | none =>
    dsimp only
    rw [wp_bind, wp_acquire]
    apply wp_insertRow hrow _ hnone
    intro db' hfresh hdb'
    cases hl with
    | key h => exact h db hx
    | id h => exact hdb' ▸ h db' hfresh

theorem Posts.wp (hp : Posts t op p) (hl : Covers q t op l) (hrow : ∀ token, q (t.row op token)) :
    wp (Db.rows q) t₀ p (fun _ z => z = y ∨ FirstRow y z) y := by
  induction hp with
  | skip hx _ ih => exact Quiet.wp_bind (quiet_rows hx) ih
  | replay hsome _ ih =>
    refine Quiet.wp_bind (by simp) fun found => ?_
    cases found with
    | none => exact ih
    | some id =>
      rw [hsome]
      exact .inl rfl
  | insert hsome hnone => exact wp_insert hl hrow hsome hnone.quiet

theorem guarded_insert (hl : Covers q t op l)
    (hrow : ∀ token, q (t.row op token)) (hsome : ∀ id, f (some id) = Pure.pure id)
    (hnone : Quiet (Db.rows q) (f none)) :
    Guarded l (Db.rows q) (fun _ => FirstRow) t₁ (insertTransaction t op token >>= f) := by
  have hwp (t₀ : ℕ) (y : List LedgerTransaction) :
      wp (Db.rows q) t₀ (insertTransaction t op token >>= f) (fun _ z => z = y ∨ FirstRow y z) y :=
    wp_insert hl hrow hsome hnone
  rw [insertTransaction_bind] at hwp ⊢
  cases hl with
  | key h => exact guarded_acquire fun t₀ y _ => hwp t₀ y
  | id h =>
    refine guarded_acquire_ne (fun hl => Lock.noConfusion hl) ?_
    apply guarded_read
    intro db t₂ _
    cases hx : db.findTransaction t.tenant op t.idempotencyKey with
    | some x =>
      dsimp only
      rw [hsome]
      exact guarded_require fun _ => trivial
    | none =>
      apply guarded_acquire
      intro t₀ y _
      exact wp_insertRow hrow (fun db' hfresh hdb' => hdb' ▸ h db' hfresh) hnone

theorem Posts.guarded (hp : Posts t op p) (hl : Covers q t op l) (hrow : ∀ token, q (t.row op token)) :
    Guarded l (Db.rows q) (fun _ => FirstRow) t₁ p := by
  induction hp generalizing t₁ with
  | skip hx hf ih => exact guarded_skip (quiet_rows hx) (fun a t => ih a) fun a t₀ y => (hf a).wp hl hrow
  | replay hsome hnone ih =>
    apply guarded_idempotentReplay
    · exact fun t' _ => ih
    · intro id t'
      rw [hsome]
      trivial
  | insert hsome hnone => exact guarded_insert hl hrow hsome hnone.quiet

theorem Closes.writes {id : Uuid} {P : LedgerTransaction → Prop} (h : Closes id p) : Writes (AppendsOnly P) p := by
  induction h with
  | done => exact writes_pure
  | skip hx _ ih => exact .bind (hx.mono fun _ hf => hf.mono fun _ h => h.elim) ih

theorem Posts.writes (hp : Posts t op p) : Writes (AppendsOnly (t.Posted op)) p := by
  induction hp with
  | skip hx _ ih => exact .bind (hx.mono fun _ hf => hf.mono fun _ h => h.elim) ih
  | replay hsome _ ih =>
    refine .bind (by simp) fun found => ?_
    cases found with
    | none => exact ih
    | some id => exact (hsome id) ▸ writes_pure
  | insert hsome hnone =>
    refine .bind (by simp) fun found => ?_
    cases found with
    | none => exact hnone.writes
    | some id => exact (hsome id) ▸ writes_pure

/-- A lock under which every post inserts the rows that satisfy `q`, one at most. -/
structure Sole (q : LedgerTransaction → Prop) [DecidablePred q] (l : Lock) : Prop where
  session : ∀ x, SessionRow x → ¬q x
  posts : ∀ t op, (∃ token, q (TransactionArgs.row t op token)) →
    Covers q t op l ∧ ∀ token, q (t.row op token)

theorem LedgerCall.guarded_rows (hq : Sole q l) (c : LedgerCall) :
    Guarded l (Db.rows q) (fun _ => FirstRow) t₁ c.body := by
  cases c.kind with
  | @posts t op p _ hp hbody =>
    rw [hbody]
    apply Guarded.map
    by_cases hrow : ∃ token, q (t.row op token)
    · obtain ⟨hl, hrows⟩ := hq.posts t op hrow
      exact hp.guarded hl hrows
    · apply Quiet.guarded
      apply hp.writes.mono
      intro f hf
      apply hf.rows_eq
      rintro x ⟨token, rfl⟩ hx
      exact hrow ⟨token, hx⟩
  | session _ hp =>
    apply Quiet.guarded
    exact hp.mono fun f hf => hf.rows_eq hq.session
  | silent _ hp =>
    apply Quiet.guarded
    apply hp.mono
    intro f hf db
    rw [Db.rows, Db.rows, hf db]

end Rows

def LedgerTransaction.Under (tenant : Uuid) (op : OperationKind) (key : String) (x : LedgerTransaction) : Prop :=
  x.tenant = tenant ∧ x.operationKind = op ∧ x.idempotencyKey = key

instance (tenant : Uuid) (op : OperationKind) (key : String) :
    DecidablePred (LedgerTransaction.Under tenant op key) := fun _ => inferInstanceAs (Decidable (_ ∧ _))

def SessionKey (key : String) : Prop := "session_".toList <+: key.toList

instance (key : String) : Decidable (SessionKey key) := inferInstanceAs (Decidable (_ <+: _))

def LedgerTransaction.Named (id : Uuid) (x : LedgerTransaction) : Prop := x.id = id ∧ ¬SessionKey x.idempotencyKey

instance (id : Uuid) : DecidablePred (LedgerTransaction.Named id) := fun _ => inferInstanceAs (Decidable (_ ∧ _))

theorem sole_under {tenant : Uuid} {op : OperationKind} {key : String} (hkey : ¬SessionKey key) :
    Sole (LedgerTransaction.Under tenant op key) (.transactionKey tenant op key) where
  session := by
    rintro x hx ⟨-, -, rfl⟩
    exact hkey hx.2
  posts := by
    rintro t _ ⟨_, rfl, rfl, rfl⟩
    refine ⟨.key fun db hdb => ?_, fun _ => ⟨rfl, rfl, rfl⟩⟩
    rw [Db.findTransaction, List.find?_eq_none] at hdb
    rw [Db.rows, List.filter_eq_nil_iff]
    exact hdb

theorem sole_named (id : Uuid) : Sole (LedgerTransaction.Named id) (.transactionId id) where
  session x hx h := h.2 hx.2
  posts := by
    rintro t op ⟨_, rfl, hkey⟩
    refine ⟨.id fun db hdb => ?_, fun _ => ⟨rfl, hkey⟩⟩
    rw [Db.rows, List.filter_eq_nil_iff]
    intro x hx h
    exact hdb x hx (of_decide_eq_true h).1

def Db.posted (db : Db) : Set LedgerTransaction := {x | x ∈ db.transactions}

def TransactionArgs.Answered (t : TransactionArgs) (op : OperationKind) (id : Uuid) (F : Set LedgerTransaction) :
    Prop :=
  ∃ x ∈ F, x.Under t.tenant op t.idempotencyKey ∧ x.requestHash = t.requestHash ∧ x.id = id

section Answers

variable {t : TransactionArgs} {op : OperationKind} {p : SqlProc Uuid} {F : Set LedgerTransaction}

theorem AppendsOnly.adds {P : LedgerTransaction → Prop} {f : Db → Db} (h : AppendsOnly P f) :
    Adds Db.posted Set.univ f := by
  obtain ⟨rows, -, hf⟩ := h
  refine ⟨{x | x ∈ rows}, Set.subset_univ _, fun db => ?_⟩
  ext x
  simp [Db.posted, (hf db).1]

theorem answered_of_find {db : Db} {x : LedgerTransaction}
    (hx : db.findTransaction t.tenant op t.idempotencyKey = some x) (hhash : x.requestHash = t.requestHash) :
    t.Answered op x.id db.posted := by
  rw [Db.findTransaction] at hx
  have hunder := List.find?_some hx
  exact ⟨x, List.mem_of_find?_eq_some hx, of_decide_eq_true hunder, hhash, rfl⟩

theorem Closes.shows {id : Uuid} {Q : Uuid → Set LedgerTransaction → Prop} (h : Closes id p)
    (hQ : ∀ F', F ⊆ F' → Q id F') : Shows Db.posted Q F p := by
  induction h generalizing F with
  | done => exact hQ F subset_rfl
  | skip hx _ ih =>
    exact shows_skip hx (fun _ hf => hf.adds.subset) fun a F' hF => ih a fun F'' hF' => hQ F'' (hF.trans hF')

theorem Posts.shows (hp : Posts t op p) : Shows Db.posted (t.Answered op) F p := by
  induction hp generalizing F with
  | skip hx _ ih => exact shows_skip hx (fun _ hf => hf.adds.subset) fun a _ _ => ih a
  | @replay f hsome _ ih =>
    rw [idempotentReplay, bind_bind]
    apply shows_read
    intro db _
    cases hx : db.findTransaction t.tenant op t.idempotencyKey with
    | none => exact ih
    | some x =>
      rw [bind_bind]
      apply shows_require
      intro hhash
      change Shows _ _ _ (f (some x.id))
      rw [hsome]
      exact answered_of_find hx hhash
  | @insert token f hsome hnone =>
    rw [insertTransaction_bind]
    apply shows_acquire
    apply shows_read
    intro db _
    cases hx : db.findTransaction t.tenant op t.idempotencyKey with
    | none =>
      apply shows_acquire
      apply shows_read
      intro db' _
      apply shows_require
      intro _
      apply shows_write {t.row op token}
      · intro v _
        simp [Db.posted, Db.insertTransaction]
      · apply hnone.shows
        intro F' hF'
        exact ⟨t.row op token, hF' rfl, ⟨rfl, rfl, rfl⟩, rfl, rfl⟩
    | some x =>
      apply shows_require
      intro hhash
      rw [hsome]
      exact answered_of_find hx hhash

def LedgerCall.Answers (c : LedgerCall) (a : LedgerReply) (F : Set LedgerTransaction) : Prop :=
  ∀ t op id, c.fenced = some (t, op) → a = .posted id → t.Answered op id F

theorem LedgerCall.adds_body (c : LedgerCall) : Writes (Adds Db.posted Set.univ) c.body := by
  cases c.kind with
  | posts _ hp hbody =>
    rw [hbody]
    exact (hp.writes.mono fun _ hf => hf.adds).map
  | session _ hp => exact hp.mono fun _ hf => hf.adds
  | silent _ hp =>
    refine hp.mono fun f hf => adds_of_same fun db => ?_
    rw [Db.posted, Db.posted, hf db]

theorem LedgerCall.shows_answers (c : LedgerCall) : Shows Db.posted c.Answers F c.body := by
  cases c.kind with
  | @posts t op p hc hp hbody =>
    rw [hbody]
    apply Shows.map
    apply hp.shows.mono
    intro id F' h t' op' id' hc' hid
    cases hc.symm.trans hc'
    cases hid
    exact h
  | session hc _ =>
    refine shows_of_forall c.adds_body (fun _ hf => hf.subset) fun a F' t op id hc' => ?_
    cases hc.symm.trans hc'
  | silent hc _ =>
    refine shows_of_forall c.adds_body (fun _ hf => hf.subset) fun a F' t op id hc' => ?_
    cases hc.symm.trans hc'

end Answers

end SpendGuard.Ledger
