import SpendGuard.Ledger.Conservation

/-!
`QueryBudgetState`: at every snapshot the amounts of a budget add up to what was deposited.
-/

namespace SpendGuard.Ledger

open Base

structure BudgetState where
  (available reservedHold committedSpend debt adjustment refundCredit : ℤ)
  (reservationCount commitCount : ℕ)

/-- The entries of a transaction share its `effective_at`: `seen` are the transactions in the snapshot
and between the boundaries of the window. -/
def Db.netDebitAt (db : Db) (seen : Uuid → Bool) (a : Account) : ℤ :=
  (db.entries.map fun e => if seen e.transaction ∧ e.account = a then -e.creditPositive else 0).sum

def queryBudgetState (db : Db) (seen : Uuid → Bool) (tenant budget window unit : Uuid) : BudgetState :=
  let netDebit (k : AccountKind) := db.netDebitAt seen ⟨tenant, budget, window, unit, k⟩
  { available := -netDebit .availableBudget
    reservedHold := -netDebit .reservedHold
    committedSpend := -netDebit .committedSpend
    debt := netDebit .debt
    adjustment := netDebit .adjustment
    refundCredit := -netDebit .refundCredit
    reservationCount := db.reservations.countP fun r =>
      r.tenant = tenant ∧ r.budget = budget ∧ r.window = window ∧ r.state = .reserved ∧
        ∃ e ∈ db.entries, e.reservation = some r.id ∧ e.account.unit = unit
    commitCount := (db.commits.map fun c => db.reservations.countP fun r =>
      c.reservation = r.id ∧ c.tenant = tenant ∧ c.budget = budget ∧ r.window = window ∧
        c.unit = unit ∧ c.latestState = .estimated).sum }

/-- What is available is what was deposited, less what is held and what is spent. -/
def BudgetState.AddsUp (s : BudgetState) : Prop :=
  s.available = s.adjustment - s.reservedHold - s.committedSpend

/-- A weight that the kinds of account the calls post to share. -/
def weight (v : Uuid → Account → ℤ) (tx : Uuid) (a : Account) : ℤ :=
  match a.kind with
  | .debt | .refundCredit | .disputeAdjustment => 0
  | _ => v tx (a.withKind .adjustment)

def Db.weighed (db : Db) (v : Uuid → Account → ℤ) : ℤ :=
  (db.entries.map fun e => weight v e.transaction e.account * e.creditPositive).sum

/-- Drafts in pairs, of which one credits a budget with what the other debits it. -/
inductive Level : List EntryDraft → Prop
  | nil : Level []
  | move {d c : EntryDraft} {ds : List EntryDraft} (h : Level ds)
      (hsum : d.creditPositive = -c.creditPositive)
      (hweight : ∀ v tx, weight v tx d.account = weight v tx c.account) : Level (d :: c :: ds)

theorem Level.weighed {ds : List EntryDraft} (h : Level ds) (v : Uuid → Account → ℤ) (tx : Uuid) :
    (ds.map fun d => weight v tx d.account * d.creditPositive).sum = 0 := by
  induction h with
  | nil => rfl
  | move _ hsum hweight ih => simp [hsum, hweight, ih]

section Drafts

variable {e : LedgerEntry} {reservation : Uuid}

theorem level_commitDrafts {n : ℕ} : Level (commitDrafts e reservation n) := by
  unfold commitDrafts
  split
  · exact .move (.move .nil rfl fun _ _ => rfl) rfl fun _ _ => rfl
  · exact .move .nil rfl fun _ _ => rfl

theorem level_adjustDrafts {delta : Option ℤ} : Level (adjustDrafts e reservation delta) := by
  cases delta with
  | none => exact .nil
  | some n =>
    simp only [adjustDrafts]
    split_ifs
    · exact .move .nil rfl fun _ _ => rfl
    · exact .move .nil rfl fun _ _ => rfl
    · exact .nil

theorem level_sessionPosted {s : SessionTuple} {j k : AccountKind} {n : ℤ}
    (h : ∀ v tx, weight v tx (s.account j) = weight v tx (s.account k)) :
    Level (sessionPosted s reservation j k n) := by
  unfold sessionPosted
  split
  · exact .nil
  · exact .move .nil rfl h

theorem ReserveSet.level_drafts (r : ReserveSet) (cs : List (BudgetClaim × Uuid)) :
    Level (r.drafts cs) := by
  induction cs with
  | nil => exact .nil
  | cons c cs ih => exact .move ih rfl fun _ _ => rfl

theorem OpeningDeposit.level_drafts (d : OpeningDeposit) :
    Level (d.post.entries.map (·.draft d.transaction.tenant)) :=
  .move .nil (neg_neg _).symm fun _ _ => rfl

end Drafts

variable {db db' : Db}

theorem Db.Posted.weighed {x : LedgerTransaction} {ds : List EntryDraft} (h : db.Posted db' x ds)
    (hds : Level ds) : db'.weighed = db.weighed := by
  funext v
  obtain ⟨l, rfl, he⟩ := h.entries
  have hzero := hds.weighed v x.id
  rw [List.map_map] at hzero
  rw [Db.weighed, he, numberedEntries, List.map_append, List.sum_append, List.map_map]
  exact (congrArg _ hzero).trans (add_zero _)

theorem MoneyCall.Effect.weighed {c : MoneyCall} (h : c.Effect db db')
    (hpost : ∀ r, c = .post r → Level (r.entries.map (·.draft r.transaction.tenant))) :
    db'.weighed = db.weighed := by
  cases h with
  | same h => simp only [funext_iff, Db.weighed, h.entries, implies_true]
  | post h => exact h.posted.weighed (hpost _ rfl)
  | commitEstimated h => exact h.posted.choose_spec.weighed level_commitDrafts
  | providerReported _ _ h => exact h.posted.choose_spec.weighed level_adjustDrafts
  | invoiceReconciled _ _ h => exact h.posted.choose_spec.weighed level_adjustDrafts
  | release h => exact h.posted.choose_spec.weighed (.move .nil rfl fun _ _ => rfl)
  | sessionDenied h => exact h.posted.choose_spec.weighed .nil
  | sessionReserve _ _ h => exact h.posted.choose_spec.weighed (level_sessionPosted fun _ _ => rfl)
  | sessionCommitDelta h => exact h.posted.choose_spec.weighed (level_sessionPosted fun _ _ => rfl)
  | sessionRelease h => exact h.posted.choose_spec.weighed (level_sessionPosted fun _ _ => rfl)
  | sessionExpire h => exact h.posted.choose_spec.weighed (level_sessionPosted fun _ _ => rfl)

theorem HoldCall.Step.weighed {c : ℕ × HoldCall} (h : HoldCall.Step db c db') :
    db'.weighed = db.weighed := by
  obtain ⟨now, call⟩ := c
  apply (MoneyCall.effect h).weighed
  intro r hr
  cases call with
  | deposit d =>
    cases hr
    exact d.level_drafts
  | reserve s =>
    cases hr
    exact s.level_drafts s.holds
  | other c hposts =>
    cases hr
    cases hposts

theorem Db.weighed_eq (db : Db) (seen : Uuid → Bool) (t b w u : Uuid) :
    let s := queryBudgetState db seen t b w u
    db.weighed (fun tx a => if seen tx ∧ a = ⟨t, b, w, u, .adjustment⟩ then 1 else 0) =
      s.available - (s.adjustment - s.reservedHold - s.committedSpend) := by
  simp only [queryBudgetState, Db.netDebitAt, Db.weighed]
  induction db.entries with
  | nil => rfl
  | cons e es ih =>
    obtain ⟨tx, ⟨t', b', w', u', k⟩, rest⟩ := e
    simp only [List.map_cons, List.sum_cons, ih]
    cases k <;> simp [weight, Account.withKind] <;> split_ifs <;> ring

/-- In every state of every run from an empty ledger, every budget adds up at every snapshot. -/
theorem budgetState_addsUp {tr : List ((ℕ × HoldCall) × Db)} (hempty : db.Empty)
    (h : Trace HoldCall.Step db tr) : ∀ p ∈ tr, ∀ seen tenant budget window unit,
      (queryBudgetState p.2 seen tenant budget window unit).AddsUp := by
  have hlevel := h.always (I := fun s => s.weighed = fun _ => 0)
    (fun _ _ _ hs hstep => hstep.weighed.trans hs) (by simp [funext_iff, Db.weighed, hempty.entries])
  intro p hp seen tenant budget window unit
  have hsum := p.2.weighed_eq seen tenant budget window unit
  rw [hlevel p hp] at hsum
  exact sub_eq_zero.mp hsum.symm

theorem conservedCalls_available :
    ∃ tr, Trace HoldCall.Step openLedger tr ∧
      (tr.map fun p => (queryBudgetState p.2 (fun _ => true) ⟨1, []⟩ ⟨2, []⟩ ⟨3, []⟩ ⟨4, []⟩).available) =
        [20, 12, 15, 14, 7, 7] ∧ ∀ p ∈ tr, ∀ seen tenant budget window unit,
          (queryBudgetState p.2 seen tenant budget window unit).AddsUp := by
  have hrun : (runAll (fun db (c : ℕ × HoldCall) => c.2.money.run c.1 db) openLedger
      (conservedCalls.map fun c => (0, c))).map (·.map fun p => (queryBudgetState p.2 (fun _ => true)
        ⟨1, []⟩ ⟨2, []⟩ ⟨3, []⟩ ⟨4, []⟩).available) = some [20, 12, 15, 14, 7, 7] := by decide +kernel
  obtain ⟨tr, htr, havailable⟩ := Option.map_eq_some_iff.mp hrun
  have htrace := (runAll_spec htr).1
  exact ⟨tr, htrace, havailable, budgetState_addsUp openLedger_empty htrace⟩

end SpendGuard.Ledger
