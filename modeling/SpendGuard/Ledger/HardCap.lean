import SpendGuard.Ledger.System

/-!
The hard cap: no `available_budget` account is overdrawn.  Reserves test the floor, a provider report
or an invoice above the last amount debits the account without a test.
-/

namespace SpendGuard.Ledger

open Base

def Db.Capped (db : Db) : Prop := ∀ a : Account, a.kind = .availableBudget → 0 ≤ db.balance a

theorem netCredit_nonneg {ds : List EntryDraft} {a : Account}
    (h : ∀ d ∈ ds, d.account = a → d.direction = .credit) : 0 ≤ netCredit ds a := by
  apply List.sum_nonneg
  intro n hn
  rw [List.mem_map] at hn
  obtain ⟨d, hd, rfl⟩ := hn
  rw [List.mem_filter, decide_eq_true_eq] at hd
  simp [EntryDraft.creditPositive, h d hd.1 hd.2]

variable {db db' : Db}

theorem Db.Posted.capped {x : LedgerTransaction} {ds : List EntryDraft}
    (h : db.Posted db' x ds) (hcap : db.Capped)
    (hds : ∀ d ∈ ds, d.account.kind = .availableBudget → d.direction = .credit) : db'.Capped := by
  intro a ha
  have hnet : 0 ≤ netCredit ds a := by
    apply netCredit_nonneg
    intro d hd hda
    exact hds d hd (hda ▸ ha)
  have hold := hcap a ha
  rw [h.balance]
  omega

section Drafts

variable {e : LedgerEntry} {reservation : Uuid}

theorem commitDrafts_credit {n : ℕ} :
    ∀ d ∈ commitDrafts e reservation n, d.account.kind = .availableBudget → d.direction = .credit := by
  intro d hd
  obtain ⟨k, dir, m, rfl, -, hcredit⟩ := mem_commitDrafts hd
  exact hcredit

theorem releaseDrafts_credit :
    ∀ d ∈ releaseDrafts e reservation, d.account.kind = .availableBudget → d.direction = .credit := by
  intro d hd hk
  simp only [releaseDrafts, List.mem_cons, List.not_mem_nil, or_false] at hd
  rcases hd with rfl | rfl
  all_goals simp_all [settleDraft]

theorem sessionPosted_credit {s : SessionTuple} {debit credit : AccountKind} {amount : ℤ}
    (hdebit : debit ≠ .availableBudget) :
    ∀ d ∈ sessionPosted s reservation debit credit amount,
      d.account.kind = .availableBudget → d.direction = .credit := by
  intro d hd hk
  unfold sessionPosted at hd
  split at hd
  · cases hd
  · simp only [sessionDrafts, List.mem_cons, List.not_mem_nil, or_false] at hd
    rcases hd with rfl | rfl
    · exact absurd hk hdebit
    · rfl

theorem netCredit_adjustDrafts {delta : Option ℤ} {a : Account} (ha : a.kind = .availableBudget) :
    netCredit (adjustDrafts e reservation delta) a =
      if e.account.withKind .availableBudget = a then -delta.getD 0 else 0 := by
  cases delta with
  | none => simp [adjustDrafts]
  | some d =>
    simp only [adjustDrafts]
    split
    · have hd : (d.toNat : ℤ) = d := by omega
      simp [settleDraft, EntryDraft.creditPositive, Account.withKind_ne, ha, hd]
    · split
      · have hd : ((-d).toNat : ℤ) = -d := by omega
        simp [settleDraft, EntryDraft.creditPositive, Account.withKind_ne, ha, hd]
      · have hd : d = 0 := by omega
        simp [hd]

end Drafts

theorem Db.balance_nonneg_of_floor {tx : Uuid} {a : Account} (h : db.exhausted tx = [])
    (ha : a.kind = .availableBudget) (hdebit : 0 < db.netDebit tx a) : 0 ≤ db.balance a := by
  by_contra hneg
  have hentry : ∃ e ∈ db.entries, e.transaction = tx ∧ e.account = a := by
    by_contra hnone
    have hnil : (db.entries.filter fun e => e.transaction = tx ∧ e.account = a) = [] := by
      rw [List.filter_eq_nil_iff]
      intro e he hx
      exact hnone ⟨e, he, by simpa using hx⟩
    rw [Db.netDebit, hnil] at hdebit
    simp at hdebit
  obtain ⟨e, he, htx, rfl⟩ := hentry
  have hmem : e.account ∈ db.exhausted tx := by
    rw [Db.exhausted, List.mem_filter, List.mem_dedup, List.mem_map]
    refine ⟨⟨e, ?_, rfl⟩, ?_⟩
    · simp [he, htx, ha]
    · simp [hdebit, not_le.mp hneg]
  rw [h] at hmem
  cases hmem

theorem LedgerPost.Posted.capped {r : LedgerPost} (h : r.Posted db db')
    (hfk : db.EntriesPosted) (hcap : db.Capped) : db'.Capped := by
  intro a ha
  have hnet := h.posted.netDebit hfk a
  have hbalance := h.posted.balance a
  have hold := hcap a ha
  by_cases hdebit : 0 < db'.netDebit r.transaction.id a
  · exact Db.balance_nonneg_of_floor h.floor ha hdebit
  · change db'.netDebit r.transaction.id a = _ at hnet
    omega

/-- A report is covered when what it adds to the last amount is still available.  Nothing is asked of
a replay. -/
def Db.CoversReport (db : Db) (t : TransactionArgs) (op : OperationKind) (reservation : Uuid)
    (amount : ℤ) (baseline : Commit → Option ℕ) : Prop :=
  db.findTransaction t.tenant op t.idempotencyKey = none →
    ∀ c ∈ db.commit? t.tenant reservation, ∀ e ∈ db.reserveEntry t.tenant reservation,
      ∀ n ∈ baseline c, amount - n ≤ db.balance (e.account.withKind .availableBudget)

def MoneyCall.Covered (db : Db) (c : ℕ × MoneyCall) : Prop :=
  match c.2 with
  | .providerReported r =>
    db.CoversReport r.transaction .providerReport r.reservation r.amount (·.estimatedAmount)
  | .invoiceReconciled r =>
    db.CoversReport r.transaction .invoiceReconcile r.reservation r.amount Commit.baseline
  | _ => True

instance (db : Db) (t : TransactionArgs) (op : OperationKind) (reservation : Uuid) (amount : ℤ)
    (baseline : Commit → Option ℕ) : Decidable (db.CoversReport t op reservation amount baseline) :=
  inferInstanceAs (Decidable (_ → _))

instance (db : Db) : (c : ℕ × MoneyCall) → Decidable (MoneyCall.Covered db c)
  | (_, .providerReported r) => inferInstanceAs (Decidable
      (db.CoversReport r.transaction .providerReport r.reservation r.amount (·.estimatedAmount)))
  | (_, .invoiceReconciled r) => inferInstanceAs (Decidable
      (db.CoversReport r.transaction .invoiceReconcile r.reservation r.amount Commit.baseline))
  | (_, .post _) => isTrue trivial
  | (_, .commitEstimated _) => isTrue trivial
  | (_, .release _) => isTrue trivial
  | (_, .sessionReserve _) => isTrue trivial
  | (_, .sessionCommitDelta _) => isTrue trivial
  | (_, .sessionRelease _ _) => isTrue trivial
  | (_, .sessionExpire _) => isTrue trivial

theorem Db.Adjusted.capped_iff {t : TransactionArgs} {op : OperationKind}
    {reservation : Uuid} {amount : ℤ} {c : Commit} {e : LedgerEntry} {p : Commit → Bool}
    {f : Commit → Commit} (baseline : Commit → Option ℕ)
    (h : db.Adjusted db' t op reservation amount c e (baseline c) p f) (hcap : db.Capped)
    (hnew : db.findTransaction t.tenant op t.idempotencyKey = none) :
    db'.Capped ↔ db.CoversReport t op reservation amount baseline := by
  obtain ⟨token, hposted⟩ := h.posted
  have hbalance : ∀ a : Account, a.kind = .availableBudget → db'.balance a = db.balance a +
      if e.account.withKind .availableBudget = a
        then -((baseline c).map fun n : ℕ => amount - n).getD 0 else 0 := by
    intro a ha
    rw [hposted.balance, netCredit_adjustDrafts ha]
  have hown := hbalance (e.account.withKind .availableBudget) rfl
  rw [if_pos rfl] at hown
  constructor
  · intro hcap' _ c' hc' e' he' n hn
    rw [Option.mem_def, h.commit, Option.some.injEq] at hc'
    rw [Option.mem_def, h.entry, Option.some.injEq] at he'
    subst hc' he'
    have hnonneg := hcap' (e.account.withKind .availableBudget) rfl
    rw [Option.mem_def] at hn
    rw [hn] at hown
    change _ = _ + -(amount - (n : ℤ)) at hown
    omega
  · intro hcovers a ha
    rw [hbalance a ha]
    have hold := hcap a ha
    split
    · rename_i heq
      cases hn : baseline c with
      | none => simpa using hold
      | some n =>
        have hle := hcovers hnew c h.commit e h.entry n hn
        rw [heq] at hle
        change 0 ≤ db.balance a + -(amount - (n : ℤ))
        omega
    · omega

theorem Db.SameBooks.entriesPosted (h : db.SameBooks db') (hfk : db.EntriesPosted) :
    db'.EntriesPosted := by
  intro e he
  rw [h.entries] at he
  obtain ⟨x, hx, hid⟩ := hfk e he
  exact ⟨x, h.transactions x hx, hid⟩

theorem MoneyCall.Effect.entriesPosted {c : MoneyCall} (h : c.Effect db db')
    (hfk : db.EntriesPosted) : db'.EntriesPosted := by
  cases h with
  | same h => exact h.entriesPosted hfk
  | post h => exact h.posted.entriesPosted hfk
  | commitEstimated h => exact h.posted.choose_spec.entriesPosted hfk
  | providerReported _ _ h => exact h.posted.choose_spec.entriesPosted hfk
  | invoiceReconciled _ _ h => exact h.posted.choose_spec.entriesPosted hfk
  | release h => exact h.posted.choose_spec.entriesPosted hfk
  | sessionDenied h => exact h.posted.choose_spec.entriesPosted hfk
  | sessionReserve _ _ h => exact h.posted.choose_spec.entriesPosted hfk
  | sessionCommitDelta h => exact h.posted.choose_spec.entriesPosted hfk
  | sessionRelease h => exact h.posted.choose_spec.entriesPosted hfk
  | sessionExpire h => exact h.posted.choose_spec.entriesPosted hfk

theorem SessionReserve.Recorded.capped {r : SessionReserve} (hcap : db.Capped)
    (hpos : 0 < r.amount) (hcovered : r.amount ≤ db.balance (r.tuple.account .availableBudget))
    (h : r.Recorded .active db db') : db'.Capped := by
  intro a ha
  obtain ⟨x, hposted⟩ := h.posted
  rw [if_pos rfl] at hposted
  have hold := hcap a ha
  have hhold : r.tuple.account .reservedHold ≠ a := SessionTuple.account_ne (by simp [ha])
  rw [hposted.balance, netCredit_sessionPosted hpos.le, if_neg hhold]
  split
  · rename_i heq
    rw [heq] at hcovered
    omega
  · omega

theorem MoneyCall.Effect.capped_iff {now : ℕ} {c : MoneyCall} (h : c.Effect db db')
    (hfk : db.EntriesPosted) (hcap : db.Capped) : db'.Capped ↔ Covered db (now, c) := by
  cases h with
  | same h hreport hinvoice =>
    have hcap' : db'.Capped := by
      intro a ha
      have hold := hcap a ha
      rwa [Db.balance, ← h.entries] at hold
    refine iff_of_true hcap' ?_
    unfold Covered
    split
    · intro hnew
      exact absurd hnew (hreport _ ‹_›)
    · intro hnew
      exact absurd hnew (hinvoice _ ‹_›)
    · trivial
  | post h => exact iff_of_true (h.capped hfk hcap) trivial
  | commitEstimated h =>
    exact iff_of_true (h.posted.choose_spec.capped hcap commitDrafts_credit) trivial
  | providerReported hnew _ h => exact h.capped_iff (·.estimatedAmount) hcap hnew
  | invoiceReconciled hnew _ h => exact h.capped_iff Commit.baseline hcap hnew
  | release h => exact iff_of_true (h.posted.choose_spec.capped hcap releaseDrafts_credit) trivial
  | sessionDenied h => exact iff_of_true (h.posted.choose_spec.capped hcap (by simp)) trivial
  | sessionReserve hpos hcovered h => exact iff_of_true (h.capped hcap hpos hcovered) trivial
  | sessionCommitDelta h =>
    exact iff_of_true (h.posted.choose_spec.capped hcap (sessionPosted_credit (by decide))) trivial
  | sessionRelease h =>
    exact iff_of_true (h.posted.choose_spec.capped hcap (sessionPosted_credit (by decide))) trivial
  | sessionExpire h =>
    exact iff_of_true (h.posted.choose_spec.capped hcap (sessionPosted_credit (by decide))) trivial

/-- A run keeps the cap after every step exactly if each report or invoice in it is covered by the
budget still available when it is posted. -/
theorem capped_iff_reports_covered {db : Db} {tr : List ((ℕ × MoneyCall) × Db)}
    (hfk : db.EntriesPosted) (hcap : db.Capped) (h : Trace MoneyCall.Step db tr) :
    (∀ p ∈ tr, p.2.Capped) ↔ Along MoneyCall.Covered db tr := by
  apply h.good_iff (I := Db.EntriesPosted)
  · intro s c s' hs hstep
    exact (MoneyCall.effect hstep).entriesPosted hs
  · intro s c s' hs hgood hstep
    exact (MoneyCall.effect hstep).capped_iff hs hgood
  · exact hfk
  · exact hcap

theorem Db.capped_of_credits
    (h : ∀ e ∈ db.entries, e.account.kind = .availableBudget → e.direction = .credit) : db.Capped := by
  intro a ha
  apply List.sum_nonneg
  intro n hn
  rw [List.mem_map] at hn
  obtain ⟨e, he, rfl⟩ := hn
  rw [List.mem_filter, decide_eq_true_eq] at he
  simp [LedgerEntry.creditPositive, h e he.1 (he.2 ▸ ha)]

def fundedLedger : Db where
  accounts := [⟨⟨1, []⟩, ⟨2, []⟩, ⟨3, []⟩, ⟨4, []⟩, .availableBudget⟩,
    ⟨⟨1, []⟩, ⟨2, []⟩, ⟨3, []⟩, ⟨4, []⟩, .reservedHold⟩,
    ⟨⟨1, []⟩, ⟨2, []⟩, ⟨3, []⟩, ⟨4, []⟩, .committedSpend⟩]
  pricingSnapshots := [⟨"p1", [], "fx1", "uc1"⟩]
  allocators := [⟨1, 0⟩]
  fencingScopes := [⟨⟨10, []⟩, .budgetWindow, ⟨1, []⟩, 1, some "sidecar-1", none⟩,
    ⟨⟨11, []⟩, .controlPlaneWriter, ⟨1, []⟩, 1, some "webhook-1", none⟩]
  fencingEvents := []
  transactions := [⟨⟨20, []⟩, ⟨1, []⟩, .adjustment, "deposit", [], ⟨21, []⟩, ⟨22, []⟩, "v1", none, none⟩]
  entries := [
    ⟨⟨20, []⟩, ⟨⟨1, []⟩, ⟨2, []⟩, ⟨3, []⟩, ⟨4, []⟩, .availableBudget⟩, .credit, 10,
      ⟨"p1", [], some "fx1", some "uc1"⟩, none, 1, 0⟩,
    ⟨⟨20, []⟩, ⟨⟨1, []⟩, ⟨2, []⟩, ⟨3, []⟩, ⟨4, []⟩, .adjustment⟩, .debit, 10,
      ⟨"p1", [], some "fx1", some "uc1"⟩, none, 1, 0⟩]
  audit := []
  reservations := []
  commits := []
  sessions := []
  sessionCommits := []
  sessionEvents := []

def capArgs (n : ℕ) (scope : ℕ) (workload : String) : TransactionArgs :=
  ⟨⟨100 + n, []⟩, ⟨1, []⟩, toString n, [], ⟨200 + n, []⟩, ⟨300 + n, []⟩, ⟨scope, []⟩, 1, workload⟩

def capReserve (n : ℕ) (amount : ℤ) : LedgerPost where
  transaction := capArgs n 10 "sidecar-1"
  operationKind := .reserve
  entries := [
    ⟨⟨2, []⟩, ⟨3, []⟩, ⟨4, []⟩, .availableBudget, .debit, amount, ⟨"p1", [], some "fx1", some "uc1"⟩,
      some ⟨400 + n, []⟩, 1⟩,
    ⟨⟨2, []⟩, ⟨3, []⟩, ⟨4, []⟩, .reservedHold, .credit, amount, ⟨"p1", [], some "fx1", some "uc1"⟩,
      some ⟨400 + n, []⟩, 1⟩]
  reservations := [⟨⟨400 + n, []⟩, ⟨2, []⟩, ⟨3, []⟩, .infinity, toString n⟩]
  audit := ⟨⟨500 + n, []⟩, .decision, n⟩
  callerLockToken := none

def capReport (n : ℕ) (reservation : ℕ) (scope : ℕ) (workload : String) (amount : ℤ) : CommitPost where
  transaction := capArgs n scope workload
  unit := none
  reservation := ⟨400 + reservation, []⟩
  amount := amount
  pricing := ⟨"p1", [], some "fx1", some "uc1"⟩
  audit := ⟨⟨500 + n, []⟩, .outcome, n⟩

def overdrawingCalls : List MoneyCall :=
  [.post (capReserve 1 10), .commitEstimated (capReport 2 1 10 "sidecar-1" 1),
    .post (capReserve 3 9), .providerReported (capReport 4 1 11 "webhook-1" 10)]

def MoneyCall.trace (db : Db) (cs : List MoneyCall) : Option (List ((ℕ × MoneyCall) × Db)) :=
  runAll (fun db c => c.2.run c.1 db) db (cs.map fun c => (0, c))

theorem MoneyCall.trace_spec {cs : List MoneyCall} {tr : List ((ℕ × MoneyCall) × Db)}
    (h : MoneyCall.trace db cs = some tr) : Trace MoneyCall.Step db tr := (runAll_spec h).1

theorem MoneyCall.trace_calls {cs : List MoneyCall} {tr : List ((ℕ × MoneyCall) × Db)}
    (h : MoneyCall.trace db cs = some tr) : tr.map (·.1.2) = cs := by
  have hlabels := congrArg (List.map Prod.snd) (runAll_spec h).2
  simpa [Function.comp_def] using hlabels

def capAccount : Account := ⟨⟨1, []⟩, ⟨2, []⟩, ⟨3, []⟩, ⟨4, []⟩, .availableBudget⟩

theorem fundedLedger_capped : fundedLedger.Capped := Db.capped_of_credits (by decide)

theorem fundedLedger_entriesPosted : fundedLedger.EntriesPosted := by
  unfold Db.EntriesPosted
  decide

/-- Reserve 10, commit 1, reserve the freed 9, and let the provider report 10 for the first: the
report debits 9 that are no longer there. -/
theorem report_overdraws_available_budget :
    ∃ tr, Trace MoneyCall.Step fundedLedger tr ∧ tr.map (·.1.2) = overdrawingCalls ∧
      fundedLedger.EntriesPosted ∧ fundedLedger.Capped ∧
      (tr.map fun p => p.2.balance capAccount) = [0, 9, 0, -9] ∧ ¬ ∀ p ∈ tr, p.2.Capped := by
  have hrun : (MoneyCall.trace fundedLedger overdrawingCalls).map
      (·.map fun p => p.2.balance capAccount) = some [0, 9, 0, -9] := by decide +kernel
  obtain ⟨tr, htr, hbalances⟩ := Option.map_eq_some_iff.mp hrun
  refine ⟨tr, MoneyCall.trace_spec htr, MoneyCall.trace_calls htr, fundedLedger_entriesPosted,
    fundedLedger_capped, hbalances, ?_⟩
  intro hcap
  have hmem : (-9 : ℤ) ∈ tr.map fun p => p.2.balance capAccount := by simp [hbalances]
  obtain ⟨p, hp, hneg⟩ := List.mem_map.mp hmem
  have hnonneg := hcap p hp capAccount rfl
  omega

/-- Without the second reserve the same report is covered by the residual of the commit. -/
def coveredCalls : List MoneyCall :=
  [.post (capReserve 1 10), .commitEstimated (capReport 2 1 10 "sidecar-1" 1),
    .providerReported (capReport 4 1 11 "webhook-1" 10)]

theorem coveredCalls_capped :
    ∃ tr, Trace MoneyCall.Step fundedLedger tr ∧ tr.map (·.1.2) = coveredCalls ∧
      Along MoneyCall.Covered fundedLedger tr ∧ ∀ p ∈ tr, p.2.Capped := by
  have hrun : (MoneyCall.trace fundedLedger coveredCalls).any
      (fun tr => decide (Along MoneyCall.Covered fundedLedger tr)) = true := by decide +kernel
  obtain ⟨tr, htr, hcovered⟩ := Option.any_eq_true _ _ |>.mp hrun
  have hcovered := of_decide_eq_true hcovered
  have htrace := MoneyCall.trace_spec htr
  exact ⟨tr, htrace, MoneyCall.trace_calls htr, hcovered,
    (capped_iff_reports_covered fundedLedger_entriesPosted fundedLedger_capped htrace).mpr hcovered⟩

end SpendGuard.Ledger
