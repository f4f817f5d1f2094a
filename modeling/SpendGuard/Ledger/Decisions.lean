import SpendGuard.Base.Schedule
import SpendGuard.Ledger.Epochs
import SpendGuard.Ledger.HardCap

/-!
The decisions recorded under one idempotency key: reserves and denials.
-/

namespace SpendGuard.Ledger

open Base Base.Proc

def Db.decisions (tenant : Uuid) (key : String) (db : Db) : List LedgerTransaction :=
  db.transactions.filter fun x => x.tenant = tenant ∧ x.idempotencyKey = key ∧ x.decides

section View

variable {tenant : Uuid} {key : String} {db : Db}

theorem mem_decisions {x : LedgerTransaction} : x ∈ db.decisions tenant key ↔
    x ∈ db.transactions ∧ x.tenant = tenant ∧ x.idempotencyKey = key ∧ x.decides = true := by
  simp [Db.decisions]

theorem decides_iff {x : LedgerTransaction} : x.decides = true ↔
    x.operationKind = .reserve ∨ x.operationKind = .deniedDecision := by
  simp [LedgerTransaction.decides]

theorem findTransaction_eq_none_iff {op : OperationKind} (hop : op = .reserve ∨ op = .deniedDecision) :
    db.findTransaction tenant op key = none ↔
      ∀ x ∈ db.decisions tenant key, x.operationKind ≠ op := by
  rw [Db.findTransaction, List.find?_eq_none]
  constructor
  · intro h x hx hkind
    obtain ⟨hmem, htenant, hkey, _⟩ := mem_decisions.mp hx
    exact h x hmem (by simp [htenant, hkey, hkind])
  · intro h x hx hmatch
    simp only [decide_eq_true_eq] at hmatch
    obtain ⟨htenant, hkind, hkey⟩ := hmatch
    exact h x (mem_decisions.mpr ⟨hx, htenant, hkey, decides_iff.mpr (hkind ▸ hop)⟩) hkind

theorem decisions_eq_nil (hreserve : ∀ x ∈ db.decisions tenant key, x.operationKind ≠ .reserve)
    (hdenied : ∀ x ∈ db.decisions tenant key, x.operationKind ≠ .deniedDecision) :
    db.decisions tenant key = [] := by
  apply List.eq_nil_iff_forall_not_mem.mpr
  intro x hx
  rcases decides_iff.mp (mem_decisions.mp hx).2.2.2 with hkind | hkind
  · exact hreserve x hx hkind
  · exact hdenied x hx hkind

theorem AppendsOnly.decisions_eq {p : LedgerTransaction → Prop} {f : Db → Db} (h : AppendsOnly p f)
    (hp : ∀ x, p x → ¬ (x.tenant = tenant ∧ x.idempotencyKey = key ∧ x.decides = true)) (db : Db) :
    (f db).decisions tenant key = db.decisions tenant key := by
  obtain ⟨rows, hrows, hf⟩ := h
  have hnone : rows.filter (fun x => x.tenant = tenant ∧ x.idempotencyKey = key ∧ x.decides) = [] := by
    rw [List.filter_eq_nil_iff]
    intro x hx
    simpa using hp x (hrows x hx)
  rw [Db.decisions, Db.decisions, (hf db).1, List.filter_append, hnone, List.append_nil]

end View

section Posts

variable {tenant : Uuid} {key : String} {α β : Type} {t₀ : ℕ} {y : List LedgerTransaction}

theorem wp_skipDecisions {x : SqlProc α} {f : α → SqlProc β} {Q : β → List LedgerTransaction → Prop}
    (hx : Writes (AppendsOnly fun _ => False) x) (h : ∀ a, wp (Db.decisions tenant key) t₀ (f a) Q y) :
    wp (Db.decisions tenant key) t₀ (x >>= f) Q y :=
  Quiet.wp_bind (hx.mono fun _ hf => hf.decisions_eq fun _ h => h.elim) h

theorem wp_insertDecision {t : TransactionArgs} {op : OperationKind} {token : String}
    {f : Option Uuid → SqlProc β} {Q : β → List LedgerTransaction → Prop} (htenant : t.tenant = tenant)
    (hkey : t.idempotencyKey = key) (hop : op = .reserve ∨ op = .deniedDecision)
    (hnew : (∀ x ∈ y, x.operationKind ≠ op) →
      wp (Db.decisions tenant key) t₀ (f none) Q (y ++ [t.row op token]))
    (hold : ∀ id, wp (Db.decisions tenant key) t₀ (f (some id)) Q y) :
    wp (Db.decisions tenant key) t₀ (insertTransaction t op token >>= f) Q y := by
  unfold insertTransaction
  simp only [wp_bind, wp_acquire, wp_read]
  rintro db rfl
  cases hx : db.findTransaction t.tenant op t.idempotencyKey with
  | some x =>
    simp only [wp_bind, wp_require, wp_pure]
    exact fun _ => hold x.id
  | none =>
    simp only [wp_bind, wp_acquire, wp_read, wp_require, wp_pure]
    intro db' _ _
    apply wp_write (db.decisions tenant key ++ [t.row op token])
    · intro v hv
      have hrow : (t.row op token).decides = true := decides_iff.mpr hop
      rw [← hv, Db.decisions, Db.insertTransaction, List.filter_append]
      simp [TransactionArgs.row, htenant, hkey, Db.decisions] at hrow ⊢
      exact hrow
    · rw [htenant, hkey, findTransaction_eq_none_iff hop] at hx
      exact hnew hx

theorem wp_reserveChecked {r : LedgerPost} (htenant : r.transaction.tenant = tenant)
    (hkey : r.transaction.idempotencyKey = key) (hop : r.operationKind = .reserve) :
    wp (Db.decisions tenant key) t₀ (postLedgerChecked r)
      (fun _ y' => y' = y ∨ (∀ x ∈ y, x.operationKind ≠ .reserve) ∧ ∃ row, y' = y ++ [row]) y := by
  unfold postLedgerChecked
  iterate 7 refine wp_skipDecisions (by simp) fun _ => ?_
  rw [hop]
  apply wp_insertDecision htenant hkey (.inl rfl)
  · intro hnew
    unfold postLedgerWrites
    iterate 6 refine wp_skipDecisions (by simp) fun _ => ?_
    exact .inr ⟨hnew, _, rfl⟩
  · exact fun _ => .inl rfl

theorem wp_deniedWrites {r : DeniedPost} (htenant : r.transaction.tenant = tenant)
    (hkey : r.transaction.idempotencyKey = key) :
    wp (Db.decisions tenant key) t₀ (postDeniedWrites r)
      (fun _ y' => y' = y ∨ y = [] ∧ ∃ row, y' = [row]) y := by
  unfold postDeniedWrites refuseReserved
  rw [wp_bind, wp_bind, wp_read]
  rintro db rfl
  rw [wp_require]
  intro hreserve
  rw [htenant, hkey, findTransaction_eq_none_iff (.inl rfl)] at hreserve
  apply wp_insertDecision htenant hkey (.inr rfl)
  · intro hdenied
    rw [decisions_eq_nil hreserve hdenied]
    exact wp_skipDecisions (by simp) fun _ => .inr ⟨rfl, _, rfl⟩
  · exact fun _ => .inl rfl

end Posts

/-- The decisions under the key all go through one fencing scope, the denials by their own
procedure. -/
def LedgerCall.DecidesUnder (tenant : Uuid) (key : String) (scope : Uuid) : LedgerCall → Prop
  | .money (.post r) => r.transaction.tenant = tenant → r.transaction.idempotencyKey = key →
    r.operationKind ≠ .deniedDecision ∧ (r.operationKind = .reserve → r.transaction.fencingScope = scope)
  | .denied r => r.transaction.tenant = tenant → r.transaction.idempotencyKey = key →
    r.transaction.fencingScope = scope
  | .money (.sessionReserve _) | .money (.sessionCommitDelta _) | .money (.sessionRelease _ _)
  | .money (.sessionExpire _) => False
  | _ => True

def LedgerCall.reserves (tenant : Uuid) (key : String) : LedgerCall → Bool
  | .money (.post r) => r.operationKind = .reserve ∧ r.transaction.tenant = tenant ∧
    r.transaction.idempotencyKey = key
  | _ => false

inductive DecisionMove (tenant : Uuid) (key : String) (x : List LedgerTransaction) :
    LedgerCall → List LedgerTransaction → Prop
  | reserve {c : LedgerCall} {row : LedgerTransaction} (hc : c.reserves tenant key = true)
      (hx : ∀ r ∈ x, r.operationKind ≠ .reserve) : DecisionMove tenant key x c (x ++ [row])
  | deny {c : LedgerCall} {row : LedgerTransaction} (hx : x = []) : DecisionMove tenant key x c [row]

section Guarded

variable {tenant scope : Uuid} {key : String} {t₁ : ℕ} {τ : Type}

theorem guarded_fencedBy {π : Db → τ} {R : ℕ → τ → τ → Prop} {t : TransactionArgs}
    {allowed : ScopeType → Bool} {use : String} {k : SqlProc Uuid} (hscope : t.fencingScope = scope)
    (hk : ∀ t₀ x, wp π t₀ k (fun _ y => y = x ∨ R t₀ x y) x) :
    Guarded (.fencingScope scope) π R t₁ (fencingCas t allowed use >>= fun _ => k) := by
  change Guarded _ _ _ _ (acquire (.fencingScope t.fencingScope) >>= fun _ =>
    (fencingTests t allowed use >>= fun _ => k))
  rw [hscope]
  apply guarded_acquire
  intro t₀ x _
  exact Quiet.wp_bind (by simp) fun _ => hk t₀ x

theorem decisions_of_posted {t : TransactionArgs} {op : OperationKind} {α : Type} {p : SqlProc α}
    (hp : Writes (AppendsOnly (t.Posted op)) p)
    (ht : ¬ (t.tenant = tenant ∧ t.idempotencyKey = key ∧ (op = .reserve ∨ op = .deniedDecision))) :
    Quiet (Db.decisions tenant key) p := by
  apply hp.mono
  intro f hf
  apply hf.decisions_eq
  rintro x ⟨token, rfl⟩ ⟨htenant, hkey, hdecides⟩
  exact ht ⟨htenant, hkey, decides_iff.mp hdecides⟩

theorem decisions_of_scopesOnly {α : Type} {p : SqlProc α} (hp : Writes ScopesOnly p) :
    Quiet (Db.decisions tenant key) p := by
  apply hp.mono
  intro f hf db
  obtain ⟨scopes, events, hdb⟩ := hf db
  rw [hdb]
  rfl

theorem quiet_decisions_of_fenced {c : MoneyCall} {t : TransactionArgs} {op : OperationKind}
    (hc : c.fenced = some (t, op))
    (ht : ¬ (t.tenant = tenant ∧ t.idempotencyKey = key ∧ (op = .reserve ∨ op = .deniedDecision))) :
    Quiet (Db.decisions tenant key) c.body := by
  cases c.shape with
  | fenced hc' hk hbody =>
    cases hc.symm.trans hc'
    rw [hbody]
    exact (writes_fencedPost (decisions_of_posted hk ht)).map
  | session hc' _ _ =>
    rw [hc'] at hc
    cases hc

theorem LedgerCall.guarded_decisions (c : LedgerCall) (hc : c.DecidesUnder tenant key scope) :
    Guarded (.fencingScope scope) (Db.decisions tenant key) (fun _ x => DecisionMove tenant key x c) t₁
      c.body := by
  cases c with
  | money c =>
    cases c with
    | post r =>
      by_cases ht : r.transaction.tenant = tenant ∧ r.transaction.idempotencyKey = key ∧
          (r.operationKind = .reserve ∨ r.operationKind = .deniedDecision)
      · obtain ⟨htenant, hkey, hop⟩ := ht
        obtain ⟨hkind, hscope⟩ := hc htenant hkey
        have hop := hop.resolve_right hkind
        apply Guarded.map
        apply guarded_idempotentReplay
        · intro t' _
          apply guarded_fencedBy (hscope hop)
          intro t₀ x
          apply wp_mono _ (wp_reserveChecked htenant hkey hop)
          rintro _ y (rfl | ⟨hx, row, rfl⟩)
          · exact .inl rfl
          · exact .inr (.reserve (by simp [LedgerCall.reserves, htenant, hkey, hop]) hx)
        · exact fun _ _ => trivial
      · exact (quiet_decisions_of_fenced (c := .post r) rfl ht).guarded t₁
    | commitEstimated r => exact (quiet_decisions_of_fenced (c := .commitEstimated r) rfl (by simp)).guarded t₁
    | providerReported r => exact (quiet_decisions_of_fenced (c := .providerReported r) rfl (by simp)).guarded t₁
    | invoiceReconciled r => exact (quiet_decisions_of_fenced (c := .invoiceReconciled r) rfl (by simp)).guarded t₁
    | release r => exact (quiet_decisions_of_fenced (c := .release r) rfl (by simp)).guarded t₁
    | sessionReserve r => exact hc.elim
    | sessionCommitDelta r => exact hc.elim
    | sessionRelease reasonCode r => exact hc.elim
    | sessionExpire r => exact hc.elim
  | denied r =>
    apply Guarded.map
    by_cases ht : r.transaction.tenant = tenant ∧ r.transaction.idempotencyKey = key
    · apply guarded_idempotentReplay
      · intro t' _
        change Guarded _ _ _ _ (read >>= fun db => require (db.findTransaction r.transaction.tenant .reserve
          r.transaction.idempotencyKey = none) _ >>= fun _ => postDeniedFenced r)
        apply guarded_read
        intro v t'' _
        apply guarded_require
        intro _
        apply guarded_fencedBy (hc ht.1 ht.2)
        intro t₀ x
        refine Quiet.wp_bind (by simp) fun again => ?_
        cases again with
        | some id => exact .inl rfl
        | none =>
          apply wp_mono _ (wp_deniedWrites ht.1 ht.2)
          rintro _ y (rfl | ⟨hx, row, rfl⟩)
          · exact .inl rfl
          · exact .inr (.deny hx)
      · exact fun _ _ => trivial
    · apply Quiet.guarded
      refine .bind (by simp) fun replay => ?_
      cases replay with
      | some id => exact writes_pure
      | none =>
        refine .bind (by simp) fun _ => .bind (by simp) fun _ => ?_
        apply writes_replayAgain
        exact decisions_of_posted (writes_postDeniedWrites r) fun h => ht ⟨h.1, h.2.1⟩
  | lease r => exact ((decisions_of_scopesOnly (scopesOnly_acquireFencingLease r)).guarded t₁).map
  | tombstone tenant' => exact ((decisions_of_scopesOnly (scopesOnly_tombstoneTenant tenant')).guarded t₁).map
  | queryDecision tenant' key' =>
    apply Guarded.map
    apply Quiet.guarded
    simp

end Guarded

/-- With a single decision to start from, a run in which the decisions under a key share one fencing
scope, and in which no reserve of the key commits next to a denial, never records a second one. -/
theorem one_decision_per_key {ι β : Type} [DecidableEq ι]
    {g g' : Config ι Db Lock PgError LedgerReply LedgerCall β} {tenant scope : Uuid} {key : String}
    (hclients : ∀ i, ∃ c, g.session i = .client c)
    (hcalls : g.Calls (LedgerCall.DecidesUnder tenant key scope))
    (hstart : (g.committed.decisions tenant key).length ≤ 1)
    (hrun : Config.Run LedgerCall.body (fun c db => c.reserves tenant key = true →
      db.findTransaction tenant .deniedDecision key = none) g g') :
    (g'.committed.decisions tenant key).length ≤ 1 := by
  classical
  -- The calls the clients cannot issue are given an empty procedure.
  let body (c : LedgerCall) : Base.Proc Db Lock PgError LedgerReply :=
    if c.DecidesUnder tenant key scope then c.body else .raise ⟨"", ""⟩
  have hissued : ∀ c, c.DecidesUnder tenant key scope → c.body = body c := fun c hc => by simp [body, hc]
  have hrun := hcalls.congr hissued hrun
  have hbody : ∀ c t, Guarded (.fencingScope scope) (Db.decisions tenant key)
      (fun _ x => DecisionMove tenant key x c) t (body c) := by
    intro c t
    simp only [body]
    split
    · next hc => exact c.guarded_decisions hc
    · trivial
  have hmove : ∀ c (_ : ℕ) (db : Db) y,
      (LedgerCall.reserves tenant key c = true → db.findTransaction tenant .deniedDecision key = none) →
      DecisionMove tenant key (db.decisions tenant key) c y →
      db.decisions tenant key = [] ∧ ∃ row, y = [row] := by
    intro c _ db y hok hmove
    cases hmove with
    | @reserve row hc hx =>
      have hnil := decisions_eq_nil hx ((findTransaction_eq_none_iff (.inr rfl)).mp (hok hc))
      exact ⟨hnil, row, by rw [hnil, List.nil_append]⟩
    | @deny row hx => exact ⟨hx, row, rfl⟩
  obtain ⟨T, htimed, -⟩ := (Config.guarded_of_clients hclients).run hbody
    (R := fun _ _ x y => x = [] ∧ ∃ row, y = [row]) hmove hrun
  apply htimed.invariant (I := fun _ x => x.length ≤ 1)
  · rintro c t t' x y _ _ ⟨_, row, rfl⟩
    simp
  · exact hstart

inductive Verdict
  | proceed
  | refuse
  deriving DecidableEq

/-- A `RequestDecision` call with the two posts it may make under its key. -/
structure DecisionCall where
  tenant : Uuid
  key : String
  verdict : Verdict
  reserve : LedgerPost
  denial : DeniedPost

def PgError.isBudgetExhausted (e : PgError) : Bool :=
  e.sqlstate == "P0001" && decide ("BUDGET_EXHAUSTED".toList <:+: e.message.toList)

/-- The reserve or the denial, and the denial after a reserve that the budget floor refused. -/
def reserveOrDeny (r : DecisionCall) :
    Client LedgerCall PgError LedgerReply (Except PgError LedgerReply) :=
  match r.verdict with
  | .refuse => .call (.denied r.denial) .done
  | .proceed => .call (.money (.post r.reserve)) fun
    | .error e => if e.isBudgetExhausted then .call (.denied r.denial) .done else .done (.error e)
    | .ok x => .done (.ok x)

def runThroughReserve (r : DecisionCall) :
    Client LedgerCall PgError LedgerReply (Except PgError LedgerReply) :=
  .call (.queryDecision r.tenant r.key) fun
    | .error e => .done (.error e)
    | .ok (.decision (some x)) => .done (.ok (.decision (some x)))
    | .ok _ => reserveOrDeny r

/-- The posts are the sidecar's own: the reserve and the denial of the request, under one scope. -/
structure DecisionCall.Fenced (r : DecisionCall) (scope : Uuid) : Prop where
  reserves : r.reserve.operationKind = .reserve
  reserve : r.reserve.transaction.fencingScope = scope
  denial : r.denial.transaction.fencingScope = scope

theorem DecisionCall.Fenced.calls_reserveOrDeny {r : DecisionCall} {tenant scope : Uuid} {key : String}
    (h : r.Fenced scope) : (reserveOrDeny r).Calls (LedgerCall.DecidesUnder tenant key scope) := by
  have hdenial : (Client.call (.denied r.denial) .done :
      Client LedgerCall PgError LedgerReply (Except PgError LedgerReply)).Calls
        (LedgerCall.DecidesUnder tenant key scope) :=
    ⟨fun _ _ => h.denial, fun _ => trivial⟩
  unfold reserveOrDeny
  split
  · exact hdenial
  · refine ⟨fun _ _ => ⟨by simp [h.reserves], fun _ => h.reserve⟩, fun posted => ?_⟩
    cases posted with
    | ok x => trivial
    | error e =>
      dsimp only
      split
      · exact hdenial
      · trivial

theorem DecisionCall.Fenced.calls {r : DecisionCall} {tenant scope : Uuid} {key : String}
    (h : r.Fenced scope) : (runThroughReserve r).Calls (LedgerCall.DecidesUnder tenant key scope) := by
  refine ⟨trivial, fun answer => ?_⟩
  dsimp only
  split
  · trivial
  · trivial
  · exact h.calls_reserveOrDeny

/-- A decision on one of ten units under the key `"1"`. -/
def racedDecision (n : ℕ) (verdict : Verdict) : DecisionCall where
  tenant := ⟨1, []⟩
  key := "1"
  verdict := verdict
  reserve := { capReserve n 1 with transaction := { capArgs n 10 "sidecar-1" with idempotencyKey := "1" } }
  denial := ⟨{ capArgs n 10 "sidecar-1" with idempotencyKey := "1" }, "v1", ⟨⟨500 + n, []⟩, .decision, n⟩⟩

theorem racedDecision_fenced (n : ℕ) (verdict : Verdict) : (racedDecision n verdict).Fenced ⟨10, []⟩ :=
  ⟨rfl, rfl, rfl⟩

def racedClients :
    Config (Fin 2) Db Lock PgError LedgerReply LedgerCall (Except PgError LedgerReply) where
  committed := fundedLedger
  clock := 0
  session
    | 0 => .client (runThroughReserve (racedDecision 1 .refuse))
    | 1 => .client (runThroughReserve (racedDecision 2 .proceed))

theorem racedClients_client (i : Fin 2) : ∃ c, racedClients.session i = .client c := by
  match i with
  | 0 => exact ⟨_, rfl⟩
  | 1 => exact ⟨_, rfl⟩

theorem racedClients_calls :
    racedClients.Calls (LedgerCall.DecidesUnder ⟨1, []⟩ "1" ⟨10, []⟩) := by
  constructor
  intro i
  match i with
  | 0 => exact (racedDecision_fenced 1 .refuse).calls
  | 1 => exact (racedDecision_fenced 2 .proceed).calls

/-- Both have asked for an earlier decision and found none; then the first one goes on, and then the
second one. -/
def raceAfterQueries (first second : Fin 2) : List (Move (Fin 2)) :=
  List.replicate 3 (.session 0) ++ List.replicate 3 (.session 1) ++
    List.replicate 60 (.session first) ++ List.replicate 60 (.session second)

/-- The reserve does not look for a denial: after the denial it is accepted under the same key. -/
theorem reserve_recorded_after_denial :
    Config.Run LedgerCall.body (fun _ _ => True) racedClients
      (racedClients.play LedgerCall.body (raceAfterQueries 0 1)) ∧
    (fundedLedger.decisions ⟨1, []⟩ "1") = [] ∧
    ((racedClients.play LedgerCall.body (raceAfterQueries 0 1)).committed.decisions ⟨1, []⟩ "1").map
      (·.operationKind) = [.deniedDecision, .reserve] :=
  ⟨Config.play_run _, by decide +kernel, by decide +kernel⟩

/-- The other way round the denial is refused, and one decision is left. -/
theorem denial_refused_after_reserve :
    let g := racedClients.play LedgerCall.body (raceAfterQueries 1 0)
    (g.committed.decisions ⟨1, []⟩ "1").map (·.operationKind) = [.reserve] ∧
    (g.committed.decisions ⟨1, []⟩ "1").length ≤ 1 := by
  refine ⟨by decide +kernel, ?_⟩
  let ok : LedgerCall → Db → Bool := fun c db =>
    !c.reserves ⟨1, []⟩ "1" || (db.findTransaction ⟨1, []⟩ .deniedDecision "1").isNone
  have hok : racedClients.playOk LedgerCall.body ok (raceAfterQueries 1 0) = true := by decide +kernel
  have hrun := Config.play_run_of hok
  apply one_decision_per_key racedClients_client racedClients_calls
  · decide +kernel
  · simpa [ok, Bool.or_eq_true, imp_iff_not_or] using hrun

end SpendGuard.Ledger
