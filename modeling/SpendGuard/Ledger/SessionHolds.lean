import SpendGuard.Base.Check
import SpendGuard.Ledger.Conservation
import SpendGuard.Ledger.Epochs

/-!
What a session reservation still holds in the ledger, against the remaining amount that the session
procedures answer.
-/

namespace SpendGuard.Ledger

open Base Base.Proc

section Held

def LedgerEntry.holds (id : Uuid) (e : LedgerEntry) : Bool :=
  e.account.kind = .reservedHold ∧ e.reservation = some id

def EntryDraft.holds (id : Uuid) (d : EntryDraft) : Bool :=
  d.account.kind = .reservedHold ∧ d.reservation = some id

/-- Credits minus debits of the entries that carry the id on `reserved_hold`. -/
def Db.heldBy (db : Db) (id : Uuid) : ℤ :=
  ((db.entries.filter (·.holds id)).map (·.creditPositive)).sum

def heldIn (ds : List EntryDraft) (id : Uuid) : ℤ :=
  ((ds.filter (·.holds id)).map (·.creditPositive)).sum

variable {db db' : Db} {x : LedgerTransaction} {ds : List EntryDraft} {id : Uuid}

theorem Db.heldBy_append {es : List LedgerEntry} (h : db'.entries = db.entries ++ es) :
    db'.heldBy id = db.heldBy id + ((es.filter (·.holds id)).map (·.creditPositive)).sum := by
  rw [Db.heldBy, h, List.filter_append, List.map_append, List.sum_append, Db.heldBy]

theorem Db.heldBy_eq_zero (h : ∀ e ∈ db.entries, e.holds id = false) : db.heldBy id = 0 := by
  rw [Db.heldBy, List.filter_eq_nil_iff.mpr (by simpa using h)]
  rfl

theorem heldIn_eq_zero (h : ∀ d ∈ ds, d.holds id = true → False) : heldIn ds id = 0 := by
  rw [heldIn, List.filter_eq_nil_iff.mpr h]
  rfl

theorem Db.Posted.heldBy (h : db.Posted db' x ds) (id : Uuid) :
    db'.heldBy id = db.heldBy id + heldIn ds id := by
  obtain ⟨l, rfl, he⟩ := h.entries
  rw [Db.heldBy_append he, heldIn, numberedEntries, List.filter_map, List.filter_map, List.map_map,
    List.map_map]
  rfl

theorem Db.Posted.holds (h : db.Posted db' x ds) {e : LedgerEntry} (he : e ∈ db'.entries)
    (hholds : e.holds id = true) : e ∈ db.entries ∨ ∃ d ∈ ds, d.holds id = true := by
  obtain ⟨l, rfl, hentries⟩ := h.entries
  rw [hentries, List.mem_append] at he
  apply he.imp_right
  intro hnew
  obtain ⟨d, hd, rfl⟩ := List.mem_map.mp hnew
  exact ⟨d.1, List.mem_map_of_mem hd, hholds⟩

theorem heldIn_sessionPosted {s : SessionTuple} {session : Uuid} {debit credit : AccountKind}
    {amount : ℤ} (hamount : 0 ≤ amount) :
    heldIn (sessionPosted s session debit credit amount) id =
      if session = id then (if debit = .reservedHold then -amount else 0) +
        if credit = .reservedHold then amount else 0 else 0 := by
  unfold sessionPosted
  split
  · have hzero : amount = 0 := by omega
    simp [hzero, heldIn]
  · have hnat : (amount.toNat : ℤ) = amount := by omega
    by_cases hid : session = id
    · by_cases hd : debit = .reservedHold <;> by_cases hc : credit = .reservedHold <;>
        simp [sessionDrafts, heldIn, EntryDraft.holds, EntryDraft.creditPositive, SessionTuple.account,
          hid, hd, hc, hnat]
    · simp [sessionDrafts, heldIn, EntryDraft.holds, hid]

theorem sessionPosted_holds {s : SessionTuple} {session : Uuid} {debit credit : AccountKind}
    {amount : ℤ} : ∀ d ∈ sessionPosted s session debit credit amount, d.holds id = true →
      id = session := by
  intro d hd hholds
  unfold sessionPosted at hd
  split at hd
  · cases hd
  · have hreservation : d.reservation = some session := by
      simp only [sessionDrafts, List.mem_cons, List.not_mem_nil, or_false] at hd
      rcases hd with rfl | rfl <;> rfl
    have hcarried := (of_decide_eq_true hholds).2
    rw [hreservation] at hcarried
    exact (Option.some.inj hcarried).symm

end Held

namespace SessionReservation

def left (s : SessionReservation) : ℤ :=
  if s.status = .active then s.reservedAmount - s.committedAmount else 0

structure Sound (s : SessionReservation) : Prop where
  positive : 0 < s.reservedAmount
  within : s.committedAmount ≤ s.reservedAmount
  opened : s.status = .active ∨ s.status = .denied → s.releasedAmount = 0
  closed : s.status = .released ∨ s.status = .expired →
    s.releasedAmount = s.reservedAmount - s.committedAmount
  denied : s.status = .denied → s.committedAmount = 0

structure Gave (s : SessionReservation) (o : SessionOutcome) : Prop where
  session : o.sessionReservation = s.id
  remaining : s.status = .active → o.remainingAmount = s.reservedAmount - o.committedAmount

end SessionReservation

/-- The sessions, their entries and the answers that are kept about them fit together. -/
structure Db.Tallied (db : Db) : Prop where
  apart : ∀ s ∈ db.sessions, s.id ∉ db.reservations.map (·.id)
  carried : ∀ e ∈ db.entries, ∀ id, e.holds id = true →
    id ∈ db.reservations.map (·.id) ∨ id ∈ db.sessions.map (·.id)
  rows : ∀ s ∈ db.sessions, s.Sound ∧ db.heldBy s.id = s.left ∧ s.Gave s.reserveOutcome
  commits : ∀ c ∈ db.sessionCommits, ∃ s ∈ db.sessions, s.id = c.sessionReservation ∧ s.Gave c.outcome
  events : ∀ e ∈ db.sessionEvents, ∃ s ∈ db.sessions, s.id = e.sessionReservation ∧ s.Gave e.outcome

section Elsewhere

def Db.sessionTables (db : Db) :
    List SessionReservation × List SessionCommitDelta × List SessionEvent :=
  (db.sessions, db.sessionCommits, db.sessionEvents)

variable {db db' : Db} {x : LedgerTransaction} {ds : List EntryDraft}

structure Db.Elsewhere (db db' : Db) : Prop where
  tables : db'.sessionTables = db.sessionTables
  ids : ∀ id ∈ db.reservations.map (·.id), id ∈ db'.reservations.map (·.id)
  apart : ∀ s ∈ db.sessions, s.id ∉ db'.reservations.map (·.id)
  entries : ∃ es, db'.entries = db.entries ++ es ∧
    ∀ e ∈ es, ∀ id, e.holds id = true → id ∈ db'.reservations.map (·.id)

theorem Db.Elsewhere.tallied (h : db.Elsewhere db') (ht : db.Tallied) : db'.Tallied := by
  obtain ⟨es, hentries, hes⟩ := h.entries
  have hsessions : db'.sessions = db.sessions := congrArg Prod.fst h.tables
  have hcommits : db'.sessionCommits = db.sessionCommits := congrArg (·.2.1) h.tables
  have hevents : db'.sessionEvents = db.sessionEvents := congrArg (·.2.2) h.tables
  constructor
  · rw [hsessions]
    exact h.apart
  · intro e he id hholds
    rw [hentries, List.mem_append] at he
    rw [hsessions]
    cases he with
    | inl hold => exact (ht.carried e hold id hholds).imp_left (h.ids id)
    | inr hnew => exact .inl (hes e hnew id hholds)
  · rw [hsessions]
    intro s hs
    obtain ⟨hsound, hheld, hgave⟩ := ht.rows s hs
    have hnone : es.filter (·.holds s.id) = [] := by
      rw [List.filter_eq_nil_iff]
      intro e he hholds
      exact h.apart s hs (hes e he s.id hholds)
    refine ⟨hsound, ?_, hgave⟩
    rw [Db.heldBy_append hentries, hnone, hheld]
    exact Int.add_zero _
  · rw [hcommits, hsessions]
    exact ht.commits
  · rw [hevents, hsessions]
    exact ht.events

theorem Db.Posted.elsewhere (h : db.Posted db' x ds) (htables : db'.sessionTables = db.sessionTables)
    (hids : ∀ id ∈ db.reservations.map (·.id), id ∈ db'.reservations.map (·.id))
    (hapart : ∀ s ∈ db.sessions, s.id ∉ db'.reservations.map (·.id))
    (hds : ∀ d ∈ ds, ∀ id, d.holds id = true → id ∈ db'.reservations.map (·.id)) :
    db.Elsewhere db' := by
  obtain ⟨l, rfl, hentries⟩ := h.entries
  refine ⟨htables, hids, hapart, _, hentries, ?_⟩
  intro e he id hholds
  obtain ⟨d, hd, rfl⟩ := List.mem_map.mp he
  exact hds d.1 (List.mem_map_of_mem hd) id hholds

theorem Db.SameBooks.elsewhere (h : db.SameBooks db') (htables : db'.sessionTables = db.sessionTables)
    (ht : db.Tallied) : db.Elsewhere db' := by
  refine ⟨htables, ?_, ?_, [], ?_, ?_⟩
  · rw [h.reservations]
    exact fun _ hid => hid
  · rw [h.reservations]
    exact ht.apart
  · rw [h.entries, List.append_nil]
  · intro e he
    cases he

variable {e : LedgerEntry} {reservation : Uuid}

theorem holds_of_settleDraft {id : Uuid} {k : AccountKind} {dir : Direction}
    {n : ℕ} (h : (settleDraft e reservation k dir n).holds id = true) : id = reservation :=
  (Option.some.inj (of_decide_eq_true h).2).symm

theorem commitDrafts_holds {id : Uuid} {n : ℕ} :
    ∀ d ∈ commitDrafts e reservation n, d.holds id = true → id = reservation := by
  intro d hd
  obtain ⟨k, dir, m, rfl, -⟩ := mem_commitDrafts hd
  exact holds_of_settleDraft

theorem releaseDrafts_holds {id : Uuid} :
    ∀ d ∈ releaseDrafts e reservation, d.holds id = true → id = reservation := by
  intro d hd
  simp only [releaseDrafts, List.mem_cons, List.not_mem_nil, or_false] at hd
  rcases hd with rfl | rfl
  all_goals exact holds_of_settleDraft

theorem adjustDrafts_holds {id : Uuid} {delta : Option ℤ} :
    ∀ d ∈ adjustDrafts e reservation delta, d.holds id = true → id = reservation := by
  intro d hd
  cases delta with
  | none => cases hd
  | some delta =>
    simp only [adjustDrafts] at hd
    split at hd
    · simp only [List.mem_cons, List.not_mem_nil, or_false] at hd
      rcases hd with rfl | rfl
      all_goals exact holds_of_settleDraft
    · split at hd
      · simp only [List.mem_cons, List.not_mem_nil, or_false] at hd
        rcases hd with rfl | rfl
        all_goals exact holds_of_settleDraft
      · cases hd

theorem ids_setReservationState (db : Db) (tenant id : Uuid) (old new : ReservationState) :
    (db.setReservationState tenant id old new).reservations.map (·.id) =
      db.reservations.map (·.id) := by
  rw [Db.setReservationState, List.map_map]
  apply List.map_congr_left
  intro r _
  rw [Function.comp_apply]
  split <;> rfl

theorem Db.Posted.settles (h : db.Posted db' x ds) (htables : db'.sessionTables = db.sessionTables)
    (ht : db.Tallied) (hids : db'.reservations.map (·.id) = db.reservations.map (·.id))
    (hds : ∀ d ∈ ds, ∀ id, d.holds id = true → id ∈ db.reservations.map (·.id)) : db.Elsewhere db' := by
  apply h.elsewhere htables
  · rw [hids]
    exact fun _ hid => hid
  · rw [hids]
    exact ht.apart
  · rw [hids]
    exact hds

theorem Db.Adjusted.elsewhere {t : TransactionArgs} {op : OperationKind} {amount : ℤ} {c : Commit} {baseline : Option ℕ}
    {row : Commit → Bool} {f : Commit → Commit} (h : db.Adjusted db' t op reservation amount c e baseline row f)
    (htables : db'.sessionTables = db.sessionTables) (ht : db.Tallied) : db.Elsewhere db' := by
  obtain ⟨_, hposted⟩ := h.posted
  obtain ⟨r, hfound, -⟩ := h.committed
  obtain ⟨hr, -, hid⟩ := Db.reservation?_some hfound
  apply hposted.settles htables ht (by rw [h.reservations])
  intro d hd id hholds
  rw [adjustDrafts_holds d hd hholds, ← hid]
  exact List.mem_map_of_mem hr

end Elsewhere

section Calls

variable {now : ℕ} {db db' : Db}

theorem postWrites_sessionTables {t : TransactionArgs} {op : OperationKind} :
    PostWrites t op fun f => ∀ db, (f db).sessionTables = db.sessionTables := by
  constructor
  case reservation =>
    intro r db
    simp only [Db.insertReservation_eq]
    rfl
  all_goals
    intros
    rfl

theorem MoneyCall.sessionTables_eq {c : MoneyCall} (hc : c.fenced ≠ none) (h : c.run now db = .ok db') :
    db'.sessionTables = db.sessionTables := by
  cases c with
  | post r =>
    obtain ⟨_, hrun⟩ := map_snd_eq_ok h
    exact Quiet.exec_eq (writes_fencedPost (writes_postLedgerChecked r postWrites_sessionTables)) hrun
  | commitEstimated r =>
    obtain ⟨_, hrun⟩ := map_snd_eq_ok h
    exact Quiet.exec_eq
      (writes_fencedPost (writes_postCommitEstimatedChecked r postWrites_sessionTables)) hrun
  | providerReported r =>
    obtain ⟨_, hrun⟩ := map_snd_eq_ok h
    exact Quiet.exec_eq (writes_fencedPost
      (writes_replayAgain (writes_postProviderReportedChecked r postWrites_sessionTables))) hrun
  | invoiceReconciled r =>
    obtain ⟨_, hrun⟩ := map_snd_eq_ok h
    exact Quiet.exec_eq (writes_fencedPost
      (writes_replayAgain (writes_postInvoiceReconciledChecked r postWrites_sessionTables))) hrun
  | release r =>
    obtain ⟨_, hrun⟩ := map_snd_eq_ok h
    exact Quiet.exec_eq (writes_fencedPost
      (writes_replayAgain (writes_postReleaseChecked r postWrites_sessionTables))) hrun
  | sessionReserve | sessionCommitDelta | sessionRelease | sessionExpire => exact absurd rfl hc

theorem Db.reservationsOf_mem {tenant source : Uuid} {r : Reservation}
    (h : db.reservationsOf tenant source = [r]) : r ∈ db.reservations := by
  have hmem : r ∈ db.reservationsOf tenant source := h ▸ List.mem_singleton_self r
  exact (List.mem_filter.mp hmem).1

theorem MoneyCall.Effect.elsewhere {c : MoneyCall} (h : c.Effect db db') (hc : c.posts = false)
    (hf : c.fenced ≠ none) (htables : db'.sessionTables = db.sessionTables) (ht : db.Tallied) :
    db.Elsewhere db' := by
  cases h with
  | same h => exact h.elsewhere htables ht
  | post => cases hc
  | commitEstimated h =>
    obtain ⟨_, hposted⟩ := h.posted
    obtain ⟨hr, -, hid⟩ := Db.reservation?_some h.found
    apply hposted.settles htables ht
    · rw [h.reservations]
      exact ids_setReservationState ..
    · intro d hd id hholds
      rw [commitDrafts_holds d hd hholds, ← hid]
      exact List.mem_map_of_mem hr
  | providerReported _ _ h => exact h.elsewhere htables ht
  | invoiceReconciled _ _ h => exact h.elsewhere htables ht
  | release h =>
    obtain ⟨_, hposted⟩ := h.posted
    obtain ⟨source, -, hof⟩ := h.found
    apply hposted.settles htables ht
    · rw [h.reservations]
      exact ids_setReservationState ..
    · intro d hd id hholds
      rw [releaseDrafts_holds d hd hholds]
      exact List.mem_map_of_mem (Db.reservationsOf_mem hof)
  | sessionDenied | sessionReserve | sessionCommitDelta | sessionRelease | sessionExpire =>
    exact absurd rfl hf

theorem ReserveSet.elsewhere {r : ReserveSet} (h : r.post.Posted db db') (hnew : r.Unused db)
    (htables : db'.sessionTables = db.sessionTables) (ht : db.Tallied) : db.Elsewhere db' := by
  have hids : db'.reservations.map (·.id) = db.reservations.map (·.id) ++ r.holds.map Prod.snd := by
    rw [rows_eq h hnew, List.map_append, List.map_map]
    rfl
  apply h.posted.elsewhere htables
  · intro id hid
    rw [hids]
    exact List.mem_append_left _ hid
  · intro s hs hmem
    rw [hids, List.mem_append] at hmem
    cases hmem with
    | inl hold => exact ht.apart s hs hold
    | inr hown =>
      obtain ⟨c, hc, hid⟩ := List.mem_map.mp hown
      exact (hnew c hc).2 (hid ▸ List.mem_map_of_mem hs)
  · intro d hd id hholds
    rw [hids, List.mem_append]
    obtain ⟨e, he, rfl⟩ := List.mem_map.mp hd
    obtain ⟨c, hc, hentry⟩ := List.mem_flatMap.mp he
    have hcarried : e.reservation = some c.2 := by
      simp only [BudgetClaim.entries, List.mem_cons, List.not_mem_nil, or_false] at hentry
      rcases hentry with rfl | rfl <;> rfl
    have hid : e.reservation = some id := (of_decide_eq_true hholds).2
    rw [hcarried] at hid
    exact .inr (Option.some.inj hid ▸ List.mem_map_of_mem hc)

theorem OpeningDeposit.elsewhere {d : OpeningDeposit} (h : d.post.Posted db db')
    (htables : db'.sessionTables = db.sessionTables) (ht : db.Tallied) : db.Elsewhere db' := by
  have hreservations : db'.reservations = db.reservations := h.reservations
  apply h.posted.settles htables ht (by rw [hreservations])
  intro x hx id hholds
  obtain ⟨e, he, rfl⟩ := List.mem_map.mp hx
  have hnone : e.reservation = none := by
    simp only [OpeningDeposit.post, List.mem_cons, List.not_mem_nil, or_false] at he
    rcases he with rfl | rfl <;> rfl
  have hid : e.reservation = some id := (of_decide_eq_true hholds).2
  rw [hnone] at hid
  cases hid

end Calls

section Sessions

variable {db db' : Db} {s : SessionReservation} {o : SessionOutcome} {ds : List EntryDraft}
  {f : SessionReservation → SessionReservation}

namespace SessionReservation

theorem Sound.left_eq (h : s.Sound) (hs : s.status ≠ .denied) : s.remaining = s.left := by
  have hwithin := h.within
  unfold remaining left
  cases hstatus : s.status with
  | active => simp [h.opened (.inl hstatus)]
  | released =>
    have hreleased := h.closed (.inl hstatus)
    simp only [reduceCtorEq, if_false]
    omega
  | expired =>
    have hreleased := h.closed (.inr hstatus)
    simp only [reduceCtorEq, if_false]
    omega
  | denied => exact absurd hstatus hs

theorem Sound.remaining_denied (h : s.Sound) (hs : s.status = .denied) : s.left < s.remaining := by
  have hpos := h.positive
  have hreleased := h.opened (.inr hs)
  have hcommitted := h.denied hs
  simp only [left, remaining, hs, reduceCtorEq, if_false]
  omega

theorem Untouched.remaining_eq (h : s.Untouched db db' o) (hsound : s.Sound) (hs : s.status ≠ .denied) :
    o.remainingAmount = s.left := by
  cases h.remaining with
  | inl hrow => rw [hrow, hsound.left_eq hs]
  | inr hactive => rw [hactive.2, left, if_pos hactive.1]

theorem Untouched.remaining_ne (h : s.Untouched db db' o) (hsound : s.Sound) (hs : s.status = .denied) :
    o.remainingAmount ≠ s.left := by
  cases h.remaining with
  | inl hrow =>
    rw [hrow]
    exact (hsound.remaining_denied hs).ne'
  | inr hactive =>
    rw [hs] at hactive
    cases hactive.1

theorem Untouched.gave (h : s.Untouched db db' o) (hsound : s.Sound) : s.Gave o := by
  refine ⟨h.session, ?_⟩
  intro hactive
  rw [h.remaining_eq hsound (by simp [hactive]), left, if_pos hactive, h.committed]

end SessionReservation

theorem gave_of_kept {γ : Type} {rows rows' : List γ} {session : γ → Uuid} {outcome : γ → SessionOutcome}
    {ss ss' : List SessionReservation} {id : Uuid}
    (hkept : ∀ c ∈ rows', c ∈ rows ∨ session c = id ∧ outcome c = o)
    (hold : ∀ c ∈ rows, ∃ s ∈ ss, s.id = session c ∧ s.Gave (outcome c))
    (hmono : ∀ s ∈ ss, ∃ s' ∈ ss', s'.id = s.id ∧ ∀ o, s.Gave o → s'.Gave o)
    (hnew : ∃ s ∈ ss', s.id = id ∧ s.Gave o) :
    ∀ c ∈ rows', ∃ s ∈ ss', s.id = session c ∧ s.Gave (outcome c) := by
  intro c hc
  rcases hkept c hc with hmem | ⟨hid, ho⟩
  · obtain ⟨s, hs, hsid, hgave⟩ := hold c hmem
    obtain ⟨s', hs', hid, hmono⟩ := hmono s hs
    exact ⟨s', hs', hid.trans hsid, hmono _ hgave⟩
  · rw [hid, ho]
    exact hnew

theorem SessionReservation.Untouched.tallied (h : s.Untouched db db' o) (ht : db.Tallied) :
    db'.Tallied := by
  obtain ⟨hmem, -⟩ := Db.session?_some h.found
  have hsame : ∀ s ∈ db.sessions, ∃ s' ∈ db.sessions, s'.id = s.id ∧ ∀ o, s.Gave o → s'.Gave o :=
    fun s hs => ⟨s, hs, rfl, fun _ ho => ho⟩
  have hnew : ∃ y ∈ db.sessions, y.id = s.id ∧ y.Gave o := ⟨s, hmem, rfl, h.gave (ht.rows s hmem).1⟩
  constructor
  · rw [h.books.sessions, h.books.reservations]
    exact ht.apart
  · rw [h.books.sessions, h.books.reservations, h.books.entries]
    exact ht.carried
  · intro y hy
    rw [h.books.sessions] at hy
    rw [Db.heldBy, h.books.entries]
    exact ht.rows y hy
  · rw [h.books.sessions]
    exact gave_of_kept h.kept.commits ht.commits hsame hnew
  · rw [h.books.sessions]
    exact gave_of_kept h.kept.events ht.events hsame hnew

/-- A call that takes from the hold of an active session, and answers what is left. -/
structure Db.Drawn (db db' : Db) (ds : List EntryDraft) (s : SessionReservation)
    (f : SessionReservation → SessionReservation) (o : SessionOutcome) : Prop where
  moved : db.SessionMoved db' ds s f
  active : s.status = .active
  carried : ∀ d ∈ ds, ∀ id, d.holds id = true → id = s.id
  held : heldIn ds s.id = (f s).left - s.left
  row : ∀ y, (f y).reserveOutcome = y.reserveOutcome ∧ (f y).reservedAmount = y.reservedAmount
  sound : s.Sound → (f s).Sound
  session : o.sessionReservation = s.id
  remaining : o.remainingAmount = (f s).left
  committed : o.committedAmount = (f s).committedAmount
  kept : db.Keeps db' s.id o

namespace Db.Drawn

variable (h : db.Drawn db' ds s f o)

include h

theorem heldBy (id : Uuid) :
    db'.heldBy id = db.heldBy id + if id = s.id then (f s).left - s.left else 0 := by
  obtain ⟨x, hposted⟩ := h.moved.posted
  rw [hposted.heldBy]
  split
  · next hid => rw [hid, h.held]
  · next hid => rw [heldIn_eq_zero fun d hd hholds => hid (h.carried d hd id hholds)]

theorem gave_mono {p : SessionOutcome} (hp : s.Gave p) : (f s).Gave p := by
  refine ⟨hp.session.trans (h.moved.key s).symm, ?_⟩
  intro _
  rw [(h.row s).2]
  exact hp.remaining h.active

theorem gave : (f s).Gave o := by
  refine ⟨h.session.trans (h.moved.key s).symm, ?_⟩
  intro hactive
  rw [h.remaining, SessionReservation.left, if_pos hactive, h.committed]

theorem mem_updated : f s ∈ db'.sessions := by
  rw [h.moved.sessions, Db.updateSession, List.mem_map]
  exact ⟨s, h.moved.mem, if_pos rfl⟩

theorem tallied (hb : db.Booked) (ht : db.Tallied) : db'.Tallied := by
  obtain ⟨x, hposted⟩ := h.moved.posted
  have hmono : ∀ y ∈ db.sessions, ∃ y' ∈ db'.sessions, y'.id = y.id ∧ ∀ p, y.Gave p → y'.Gave p := by
    intro y hy
    by_cases hid : y.id = s.id
    · obtain rfl := List.inj_on_of_nodup_map hb.sessionIds hy h.moved.mem hid
      exact ⟨f y, h.mem_updated, h.moved.key y, fun _ hp => h.gave_mono hp⟩
    · refine ⟨y, ?_, rfl, fun _ hp => hp⟩
      rw [h.moved.sessions, Db.updateSession, List.mem_map]
      exact ⟨y, hy, if_neg hid⟩
  have hnew : ∃ y ∈ db'.sessions, y.id = s.id ∧ y.Gave o :=
    ⟨f s, h.mem_updated, h.moved.key s, h.gave⟩
  obtain ⟨hsound, hheld, hgave⟩ := ht.rows s h.moved.mem
  constructor
  · intro y hy
    rw [h.moved.reservations]
    rcases h.moved.mem_sessions hb hy with rfl | ⟨-, hold⟩
    · rw [h.moved.key]
      exact ht.apart s h.moved.mem
    · exact ht.apart y hold
  · intro e he id hholds
    rw [h.moved.ids, h.moved.reservations]
    cases hposted.holds he hholds with
    | inl hold => exact ht.carried e hold id hholds
    | inr hdraft =>
      obtain ⟨d, hd, hcarries⟩ := hdraft
      rw [h.carried d hd id hcarries]
      exact .inr (List.mem_map_of_mem h.moved.mem)
  · intro y hy
    rcases h.moved.mem_sessions hb hy with rfl | ⟨hid, hold⟩
    · refine ⟨h.sound hsound, ?_, ?_⟩
      · rw [h.heldBy, h.moved.key, if_pos rfl, hheld]
        omega
      · rw [(h.row s).1]
        exact h.gave_mono hgave
    · rw [h.heldBy, if_neg hid, add_zero]
      exact ht.rows y hold
  · exact gave_of_kept h.kept.commits ht.commits hmono hnew
  · exact gave_of_kept h.kept.events ht.events hmono hnew

end Db.Drawn

theorem SessionCommit.Applied.drawn {r : SessionCommit} {tx : Option Uuid} (h : r.Applied db db' s)
    (hkept : db.Keeps db' r.session { r.appliedOutcome s with transaction := tx }) :
    db.Drawn db' (sessionPosted s.tuple r.session .reservedHold .committedSpend r.delta) s
      (fun y => { y with committedAmount := s.committedAmount + r.delta.toNat })
      { r.appliedOutcome s with transaction := tx } := by
  obtain ⟨-, hid⟩ := Db.session?_some h.found
  have hpos := h.positive
  have hwithin := h.within
  have hdelta : (r.delta.toNat : ℤ) = r.delta := Int.toNat_of_nonneg hpos.le
  have hleft : SessionReservation.left { s with committedAmount := s.committedAmount + r.delta.toNat } =
      s.reservedAmount - (s.committedAmount + r.delta) := by
    simp [SessionReservation.left, h.active, hdelta]
  refine ⟨h.moved, h.active, ?_, ?_, fun _ => ⟨rfl, rfl⟩, ?_, rfl, hleft.symm, ?_, hid ▸ hkept⟩
  · intro d hd id hholds
    rw [hid]
    exact sessionPosted_holds d hd hholds
  · have hbefore : s.left = s.reservedAmount - s.committedAmount := if_pos h.active
    rw [heldIn_sessionPosted hpos.le, if_pos hid.symm, hleft, hbefore]
    simp only [if_true, reduceCtorEq, if_false]
    omega
  · intro hsound
    refine ⟨hsound.positive, ?_, hsound.opened, ?_, ?_⟩
    · change s.committedAmount + r.delta.toNat ≤ s.reservedAmount
      omega
    · intro hclosed
      simp [h.active] at hclosed
    · intro hdenied
      simp [h.active] at hdenied
  · change (s.committedAmount : ℤ) + r.delta = ((s.committedAmount + r.delta.toNat : ℕ) : ℤ)
    omega

theorem SessionClose.Closed.drawn {r : SessionClose} {status : SessionStatus}
    (h : r.Closed status db db' s) (hb : db.Booked) (hstatus : status = .released ∨ status = .expired)
    (hsession : o.sessionReservation = s.id) (hcommitted : o.committedAmount = s.committedAmount)
    (hremaining : o.remainingAmount = 0) (hkept : db.Keeps db' s.id o) :
    db.Drawn db' (sessionPosted s.tuple r.session .reservedHold .availableBudget
      (s.reservedAmount - s.committedAmount)) s
      (fun y => { y with status := status, releasedAmount := s.reservedAmount - s.committedAmount }) o := by
  obtain ⟨hmem, hid⟩ := Db.session?_some h.found
  have hinactive : status ≠ .active := by rintro rfl; simp at hstatus
  have hwithin := hb.within s hmem
  have hleft : SessionReservation.left
      { s with status := status, releasedAmount := s.reservedAmount - s.committedAmount } = 0 :=
    if_neg hinactive
  refine ⟨h.moved hb hinactive, h.active, ?_, ?_, fun _ => ⟨rfl, rfl⟩, ?_, hsession, ?_, hcommitted,
    hkept⟩
  · intro d hd id hholds
    rw [hid]
    exact sessionPosted_holds d hd hholds
  · have hbefore : s.left = s.reservedAmount - s.committedAmount := if_pos h.active
    rw [heldIn_sessionPosted (by omega), if_pos hid.symm, hleft, hbefore]
    simp
  · intro hsound
    refine ⟨hsound.positive, hsound.within, ?_, fun _ => rfl, ?_⟩
    · intro hopened
      rcases hstatus with rfl | rfl <;> simp at hopened
    · intro hdenied
      rcases hstatus with rfl | rfl <;> cases hdenied
  · rw [hremaining]
    exact hleft.symm

end Sessions

structure SessionReserve.Opened (r : SessionReserve) (status : SessionStatus) (db db' : Db)
    (o : SessionOutcome) : Prop where
  recorded : r.Recorded status db db'
  positive : 0 < r.amount
  verdict : status = .active ∨ status = .denied
  row : ∀ s ∈ db'.sessions, s ∈ db.sessions ∨ s.reserveOutcome = o
  kept : db.Keeps db' r.id o
  session : o.sessionReservation = r.id
  committed : o.committedAmount = 0
  remaining : o.remainingAmount = if status = .active then r.amount else 0

namespace SessionReserve.Opened

variable {r : SessionReserve} {status : SessionStatus} {db db' : Db} {o : SessionOutcome}

theorem drafts_holds {id : Uuid} : ∀ d ∈ r.drafts status, d.holds id = true → id = r.id := by
  intro d hd hholds
  unfold SessionReserve.drafts at hd
  split at hd
  · exact sessionPosted_holds d hd hholds
  · cases hd

variable (h : r.Opened status db db' o)

include h

theorem fresh : ∀ y ∈ db.sessions, y.id ≠ r.id := by
  intro y hy
  simpa using List.find?_eq_none.mp h.recorded.fresh y hy

theorem heldBy (ht : db.Tallied) (hfresh : r.id ∉ db.reservations.map (·.id)) :
    db'.heldBy r.id = o.remainingAmount := by
  obtain ⟨x, hposted⟩ := h.recorded.posted
  have hbefore : db.heldBy r.id = 0 := by
    apply Db.heldBy_eq_zero
    intro e he
    by_contra hholds
    cases ht.carried e he r.id (by simpa using hholds) with
    | inl hmem => exact hfresh hmem
    | inr hmem =>
      obtain ⟨y, hy, hid⟩ := List.mem_map.mp hmem
      exact h.fresh y hy hid
  rw [hposted.heldBy, hbefore, h.remaining, zero_add]
  split
  · rw [heldIn_sessionPosted h.positive.le, if_pos rfl]
    simp
  · rfl

theorem heldBy_other {id : Uuid} (hid : id ≠ r.id) : db'.heldBy id = db.heldBy id := by
  obtain ⟨x, hposted⟩ := h.recorded.posted
  have hnone : heldIn (r.drafts status) id = 0 := heldIn_eq_zero fun d hd hholds => hid (drafts_holds d hd hholds)
  exact (hposted.heldBy id).trans (hnone ▸ Int.add_zero _)

theorem sound {s : SessionReservation} (hs : r.Opens status s) : s.Sound := by
  have hpos := h.positive
  have hreserved := hs.reserved
  refine ⟨by omega, ?_, fun _ => hs.released, ?_, fun _ => hs.committed⟩
  · rw [hs.committed]
    exact Nat.zero_le _
  · intro hclosed
    rw [hs.status] at hclosed
    rcases h.verdict with rfl | rfl <;> simp at hclosed

theorem left_eq {s : SessionReservation} (hs : r.Opens status s) : s.left = o.remainingAmount := by
  have hpos := h.positive
  rw [SessionReservation.left, hs.status, hs.reserved, hs.committed, h.remaining]
  split <;> omega

theorem gave {s : SessionReservation} (hs : r.Opens status s) : s.Gave o := by
  refine ⟨h.session.trans hs.id.symm, ?_⟩
  intro hactive
  rw [← h.left_eq hs, SessionReservation.left, if_pos hactive, h.committed, hs.committed]
  rfl

theorem tallied (ht : db.Tallied) (hfresh : r.id ∉ db.reservations.map (·.id)) : db'.Tallied := by
  obtain ⟨x, hposted⟩ := h.recorded.posted
  obtain ⟨s, hopens, hsessions⟩ := h.recorded.sessions
  have hmem : s ∈ db'.sessions := hsessions ▸ List.mem_append_right _ (List.mem_singleton_self s)
  have hnew : ∃ y ∈ db'.sessions, y.id = r.id ∧ y.Gave o := ⟨s, hmem, hopens.id, h.gave hopens⟩
  have hmono : ∀ y ∈ db.sessions, ∃ y' ∈ db'.sessions, y'.id = y.id ∧ ∀ p, y.Gave p → y'.Gave p :=
    fun y hy => ⟨y, hsessions ▸ List.mem_append_left _ hy, rfl, fun _ hp => hp⟩
  have hcases : ∀ y ∈ db'.sessions, y ∈ db.sessions ∨ y = s := by
    intro y hy
    rwa [hsessions, List.mem_append, List.mem_singleton] at hy
  constructor
  · intro y hy
    rw [h.recorded.reservations]
    rcases hcases y hy with hold | rfl
    · exact ht.apart y hold
    · rw [hopens.id]
      exact hfresh
  · intro e he id hholds
    rw [h.recorded.reservations, hsessions, List.map_append, List.mem_append]
    cases hposted.holds he hholds with
    | inl hold => exact (ht.carried e hold id hholds).imp_right .inl
    | inr hdraft =>
      obtain ⟨d, hd, hcarries⟩ := hdraft
      rw [drafts_holds d hd hcarries, ← hopens.id]
      exact .inr (.inr (List.mem_singleton_self _))
  · intro y hy
    rcases hcases y hy with hold | rfl
    · rw [h.heldBy_other (h.fresh y hold)]
      exact ht.rows y hold
    · refine ⟨h.sound hopens, ?_, ?_⟩
      · rw [hopens.id, h.heldBy ht hfresh, h.left_eq hopens]
      · cases h.row y hy with
        | inl hold => exact absurd hopens.id (h.fresh y hold)
        | inr hanswer =>
          rw [hanswer]
          exact h.gave hopens
  · exact gave_of_kept h.kept.commits ht.commits hmono hnew
  · exact gave_of_kept h.kept.events ht.events hmono hnew

end SessionReserve.Opened

inductive SessionCall
  | reserve (r : SessionReserve)
  | commitDelta (r : SessionCommit)
  | release (reasonCode : String) (r : SessionClose)
  | expire (r : SessionClose)

namespace SessionCall

def body : SessionCall → SqlProc SessionOutcome
  | .reserve r => postSessionReserve r
  | .commitDelta r => postSessionCommitDelta r
  | .release reasonCode r => postSessionRelease reasonCode r
  | .expire r => postSessionExpire r

def money : SessionCall → MoneyCall
  | .reserve r => .sessionReserve r
  | .commitDelta r => .sessionCommitDelta r
  | .release reasonCode r => .sessionRelease reasonCode r
  | .expire r => .sessionExpire r

theorem posts_money (c : SessionCall) : c.money.posts = false := by
  cases c <;> rfl

theorem run_money (c : SessionCall) (now : ℕ) (db : Db) :
    c.money.run now db = Prod.snd <$> exec now c.body db := by
  cases c <;> rfl

def session : SessionCall → Uuid
  | .reserve r => r.id
  | .commitDelta r => r.session
  | .release _ r => r.session
  | .expire r => r.session

def stored (db : Db) : SessionCall → Option SessionOutcome
  | .reserve r => r.stored db
  | .commitDelta r => r.stored db
  | .release _ r => r.stored .release db
  | .expire r => r.stored .expire db

/-- A request that is new is not about a denied session.  One that was answered before is about a
session in which nothing was committed or closed since, or of which nothing was left then. -/
def Current (db : Db) (c : SessionCall) : Prop :=
  match c.stored db with
  | none => ∀ s ∈ db.session? c.session, s.status ≠ .denied
  | some o => ∀ s ∈ db.session? o.sessionReservation,
    if s.status = .active then o.committedAmount = s.committedAmount else o.remainingAmount = 0

instance (db : Db) (c : SessionCall) : Decidable (c.Current db) := by
  unfold Current
  split <;> infer_instance

inductive Answered (db db' : Db) (o : SessionOutcome) (c : SessionCall) : Prop
  | replay (same : db' = db) (h : c.stored db = some o)
  | opened {r : SessionReserve} {status : SessionStatus} (hc : c = .reserve r)
      (new : c.stored db = none) (h : r.Opened status db db' o)
  | drawn {ds : List EntryDraft} {s : SessionReservation} {f : SessionReservation → SessionReservation}
      (new : c.stored db = none) (id : s.id = c.session) (h : db.Booked → db.Drawn db' ds s f o)
  | untouched {s : SessionReservation} (new : c.stored db = none) (id : s.id = c.session)
      (h : s.Untouched db db' o)

variable {now : ℕ} {db db' : Db} {o : SessionOutcome} {c : SessionCall}

theorem answered_of_close {c : SessionCall} {r : SessionClose} {status : SessionStatus}
    {s : SessionReservation} (new : c.stored db = none) (id : s.id = c.session)
    (hstatus : status = .released ∨ status = .expired) (h : r.Answers status db db' s o) :
    c.Answered db db' o := by
  cases h with
  | untouched h => exact .untouched new id h
  | closed h hsession hcommitted hremaining hkept =>
    exact .drawn new id fun hb => h.drawn hb hstatus hsession hcommitted hremaining hkept

theorem answered (h : exec now c.body db = .ok (o, db')) : c.Answered db db' o := by
  cases c with
  | reserve r =>
    rcases exec_postSessionReserve_answer h with ⟨rfl, hstored⟩ | ⟨hnone, hpos, hdenied | hactive⟩
    · exact .replay rfl hstored
    · obtain ⟨hrecorded, available, ⟨tx, rfl⟩, hrow, hkept⟩ := hdenied
      exact .opened rfl hnone ⟨hrecorded, hpos, .inr rfl, hrow, hkept, rfl, rfl, rfl⟩
    · obtain ⟨-, hrecorded, ⟨tx, rfl⟩, hrow, hkept⟩ := hactive
      exact .opened rfl hnone ⟨hrecorded, hpos, .inl rfl, hrow, hkept, rfl, rfl, rfl⟩
  | commitDelta r =>
    rcases exec_postSessionCommitDelta_answer h with ⟨rfl, hstored⟩ | ⟨hnone, s, hid, hnew⟩
    · exact .replay rfl hstored
    · rcases hnew with huntouched | ⟨happlied, hkept, tx, rfl⟩
      · exact .untouched hnone hid huntouched
      · exact .drawn hnone hid fun _ => happlied.drawn hkept
  | release reasonCode r =>
    rcases exec_postSessionRelease_answer h with ⟨rfl, hstored⟩ | ⟨hnone, s, hid, hclose⟩
    · exact .replay rfl hstored
    · exact answered_of_close hnone hid (.inl rfl) hclose
  | expire r =>
    rcases exec_postSessionExpire_answer h with ⟨rfl, hstored⟩ | ⟨hnone, s, hid, hclose⟩
    · exact .replay rfl hstored
    · exact answered_of_close hnone hid (.inr rfl) hclose

theorem Answered.tallied (h : c.Answered db db' o) (hb : db.Booked) (ht : db.Tallied)
    (hfresh : ∀ r, c = .reserve r → r.id ∉ db.reservations.map (·.id)) : db'.Tallied := by
  cases h with
  | replay same => exact same ▸ ht
  | opened hc _ h =>
    subst hc
    exact h.tallied ht (hfresh _ rfl)
  | drawn _ _ h => exact (h hb).tallied hb ht
  | untouched _ _ h => exact h.tallied ht

theorem stored_gave (h : c.stored db = some o) (hb : db.Booked) (ht : db.Tallied) :
    ∃ s ∈ db.sessions, db.session? o.sessionReservation = some s ∧ s.Gave o := by
  have hfind : ∀ s ∈ db.sessions, s.Gave o → ∃ s ∈ db.sessions,
      db.session? o.sessionReservation = some s ∧ s.Gave o := by
    intro s hs hgave
    refine ⟨s, hs, ?_, hgave⟩
    rw [Db.session?, ← List.head?_filter, hgave.session, hb.filter_session hs]
    rfl
  have hevent : ∀ op (r : SessionClose), r.stored op db = some o → ∃ s ∈ db.sessions,
      db.session? o.sessionReservation = some s ∧ s.Gave o := by
    intro op r hstored
    obtain ⟨e, he, rfl⟩ := Option.map_eq_some_iff.mp hstored
    obtain ⟨s, hs, -, hgave⟩ := ht.events e (List.mem_of_find?_eq_some he)
    exact hfind s hs hgave
  cases c with
  | reserve r =>
    obtain ⟨s, hs, rfl⟩ := Option.map_eq_some_iff.mp h
    have hmem := List.mem_of_find?_eq_some hs
    exact hfind s hmem (ht.rows s hmem).2.2
  | commitDelta r =>
    obtain ⟨e, he, rfl⟩ := Option.map_eq_some_iff.mp h
    obtain ⟨s, hs, -, hgave⟩ := ht.commits e (List.mem_of_find?_eq_some he)
    exact hfind s hs hgave
  | release _ r => exact hevent _ r h
  | expire r => exact hevent _ r h

theorem Answered.remaining_iff (h : c.Answered db db' o) (hb : db.Booked) (ht : db.Tallied)
    (hfresh : ∀ r, c = .reserve r → r.id ∉ db.reservations.map (·.id)) :
    o.remainingAmount = db'.heldBy o.sessionReservation ↔ c.Current db := by
  cases h with
  | replay same h =>
    obtain ⟨s, hs, hfound, hgave⟩ := stored_gave h hb ht
    obtain ⟨-, hheld, -⟩ := ht.rows s hs
    rw [same, hgave.session, hheld, Current, h]
    simp only [hfound, Option.mem_some_iff, forall_eq', SessionReservation.left]
    split
    · next hactive =>
      have hremaining := hgave.remaining hactive
      omega
    · rfl
  | @opened r status hc new h =>
    subst hc
    rw [h.session, h.heldBy ht (hfresh _ rfl), Current, new]
    simp [session, h.recorded.fresh]
  | @drawn ds s f new id h =>
    have hdrawn := h hb
    have hheld := (ht.rows s hdrawn.moved.mem).2.1
    have hfound : db.session? c.session = some s := by
      rw [Db.session?, ← List.head?_filter, ← id, hb.filter_session hdrawn.moved.mem]
      rfl
    rw [hdrawn.session, hdrawn.heldBy, if_pos rfl, hheld, hdrawn.remaining, Current, new]
    simp [hfound, hdrawn.active]
  | @untouched s new id h =>
    obtain ⟨hmem, -⟩ := Db.session?_some h.found
    obtain ⟨hsound, hheld, -⟩ := ht.rows s hmem
    have hafter : db'.heldBy s.id = s.left := by
      rw [Db.heldBy, h.books.entries]
      exact hheld
    rw [h.session, hafter, Current, new]
    simp only [← id, h.found, Option.mem_some_iff, forall_eq']
    constructor
    · intro hremaining hdenied
      exact h.remaining_ne hsound hdenied hremaining
    · intro hstatus
      exact h.remaining_eq hsound hstatus

end SessionCall

section System

variable {db db' : Db}

theorem MoneyCall.session_of_unfenced {c : MoneyCall} (h : c.fenced = none) :
    ∃ s : SessionCall, c = s.money := by
  cases c with
  | post | commitEstimated | providerReported | invoiceReconciled | release => cases h
  | sessionReserve r => exact ⟨.reserve r, rfl⟩
  | sessionCommitDelta r => exact ⟨.commitDelta r, rfl⟩
  | sessionRelease reasonCode r => exact ⟨.release reasonCode r, rfl⟩
  | sessionExpire r => exact ⟨.expire r, rfl⟩

theorem SessionCall.fresh_reserve {c : SessionCall} {now : ℕ}
    (h : HoldCall.Fresh db (now, .other c.money c.posts_money)) :
    ∀ r, c = .reserve r → r.id ∉ db.reservations.map (·.id) := by
  rintro r rfl
  exact h

theorem HoldCall.Step.tallied {c : ℕ × HoldCall} (h : HoldCall.Step db c db')
    (hfresh : HoldCall.Fresh db c) (hb : db.Booked) (ht : db.Tallied) : db'.Tallied := by
  obtain ⟨now, call⟩ := c
  have heffect := MoneyCall.effect h
  cases call with
  | deposit d =>
    have htables := MoneyCall.sessionTables_eq (c := .post d.post) (Option.some_ne_none _) h
    cases heffect with
    | same h => exact (h.elsewhere htables ht).tallied ht
    | post h => exact (OpeningDeposit.elsewhere h htables ht).tallied ht
  | reserve r =>
    have htables := MoneyCall.sessionTables_eq (c := .post r.post) (Option.some_ne_none _) h
    cases heffect with
    | same h => exact (h.elsewhere htables ht).tallied ht
    | post h => exact (ReserveSet.elsewhere h (hfresh h.new) htables ht).tallied ht
  | other c hposts =>
    by_cases hc : c.fenced = none
    · obtain ⟨s, rfl⟩ := MoneyCall.session_of_unfenced hc
      have hrun : s.money.run now db = .ok db' := h
      rw [s.run_money] at hrun
      obtain ⟨o, hexec⟩ := map_snd_eq_ok hrun
      exact (SessionCall.answered hexec).tallied hb ht (SessionCall.fresh_reserve hfresh)
    · exact (heffect.elsewhere hposts hc (MoneyCall.sessionTables_eq hc h) ht).tallied ht

structure Db.Unopened (db : Db) : Prop extends db.Empty where
  sessionCommits : db.sessionCommits = []
  sessionEvents : db.sessionEvents = []

theorem Db.Unopened.tallied (h : db.Unopened) : db.Tallied := by
  constructor <;> simp [h.entries, h.sessions, h.sessionCommits, h.sessionEvents]

/-- In every state of every run from an empty ledger, the remaining amount that a session call
answers is what the session holds after the call exactly when the call is a current one. -/
theorem remaining_reported_iff {tr : List ((ℕ × HoldCall) × Db)} (hempty : db.Unopened)
    (h : Trace HoldCall.Step db tr) (hfresh : Along HoldCall.Fresh db tr) :
    ∀ db₁ ∈ db :: tr.map Prod.snd, ∀ (now : ℕ) (c : SessionCall) (o : SessionOutcome) (db' : Db),
      exec now c.body db₁ = .ok (o, db') → HoldCall.Fresh db₁ (now, .other c.money c.posts_money) →
        (o.remainingAmount = db'.heldBy o.sessionReservation ↔ c.Current db₁) := by
  have hinit : db.Booked ∧ db.Conserved ∧ db.Tallied :=
    ⟨hempty.booked, hempty.conserved, hempty.tallied⟩
  have hinv := h.invariant (I := fun s => s.Booked ∧ s.Conserved ∧ s.Tallied) hfresh
    (fun _ _ _ hs hmet hstep => by
      obtain ⟨hb, hc⟩ := hstep.conserved hmet hs.1 hs.2.1
      exact ⟨hb, hc, hstep.tallied hmet hs.1 hs.2.2⟩) hinit
  intro db₁ hmem now c o db' hexec hfresh₁
  have hreached : db₁.Booked ∧ db₁.Conserved ∧ db₁.Tallied := by
    rcases List.mem_cons.mp hmem with rfl | hlater
    · exact hinit
    · obtain ⟨p, hp, rfl⟩ := List.mem_map.mp hlater
      exact hinv p hp
  exact (SessionCall.answered hexec).remaining_iff hreached.1 hreached.2.2
    (SessionCall.fresh_reserve hfresh₁)

theorem openLedger_unopened : openLedger.Unopened := ⟨openLedger_empty, rfl, rfl⟩

/-- Reserve 7 for a session and commit 3 of it: the answer is that 4 remain. -/
theorem openDelta_reported :
    ∃ (tr : List ((ℕ × HoldCall) × Db)) (db₁ : Db) (o : SessionOutcome) (db' : Db),
      openLedger.Unopened ∧ Trace HoldCall.Step openLedger tr ∧ Along HoldCall.Fresh openLedger tr ∧
      db₁ ∈ openLedger :: tr.map Prod.snd ∧
      exec 0 (SessionCall.commitDelta openDelta).body db₁ = .ok (o, db') ∧
      SessionCall.Current db₁ (.commitDelta openDelta) ∧ o.remainingAmount = 4 ∧
      o.remainingAmount = db'.heldBy o.sessionReservation := by
  have hrun : (runAll (fun db (c : ℕ × HoldCall) => c.2.money.run c.1 db) openLedger
      ((conservedCalls.take 5).map fun c => (0, c))).any (fun tr =>
        decide (Along HoldCall.Fresh openLedger tr) && tr.getLast?.any fun p =>
          (exec 0 (SessionCall.commitDelta openDelta).body p.2).toOption.any fun r =>
            decide (SessionCall.Current p.2 (.commitDelta openDelta) ∧ r.1.remainingAmount = 4)) = true := by
    decide +kernel
  obtain ⟨tr, htr, hmet⟩ := Option.any_eq_true _ _ |>.mp hrun
  obtain ⟨hfresh, hlast⟩ := Bool.and_eq_true_iff.mp hmet
  obtain ⟨p, hp, hcall⟩ := Option.any_eq_true _ _ |>.mp hlast
  obtain ⟨r, hr, hanswer⟩ := Option.any_eq_true _ _ |>.mp hcall
  obtain ⟨hcurrent, hfour⟩ := of_decide_eq_true hanswer
  have hexec := toOption_eq_some.mp hr
  have hmem : p.2 ∈ openLedger :: tr.map Prod.snd :=
    List.mem_cons_of_mem _ (List.mem_map_of_mem (List.mem_of_getLast? hp))
  obtain ⟨htrace, -⟩ := runAll_spec htr
  exact ⟨tr, p.2, r.1, r.2, openLedger_unopened, htrace, of_decide_eq_true hfresh, hmem, hexec, hcurrent,
    hfour, (remaining_reported_iff openLedger_unopened htrace (of_decide_eq_true hfresh) p.2 hmem 0 _ _ _
      hexec trivial).mpr hcurrent⟩

def deniedSession : SessionReserve :=
  { openSession with denied := some (openContext 5 "denied" (openSession.deniedAuditOutcome .infinity)) }

/-- A commit on the denied session, with the denial it is answered with as its signed outcome. -/
def deniedDelta : SessionCommit :=
  let s := deniedSession.row .denied .infinity (deniedSession.deniedOutcome 0 .infinity)
  { openDelta with context := (openDelta.denial s 0).map (openContext 6 "denied") }

/-- The reserve is denied and answers that 0 remain; the commit that follows answers 7, and nothing
is held. -/
theorem deniedSession_reported :
    (do
      let (o₁, db₁) ← exec 0 (postSessionReserve deniedSession) openLedger
      let (o₂, db₂) ← exec 0 (postSessionCommitDelta deniedDelta) db₁
      return (o₁.remainingAmount, o₂.remainingAmount, db₂.heldBy o₂.sessionReservation)) =
    (.ok (0, 7, 0) : Except PgError (ℤ × ℤ × ℤ)) := by
  decide +kernel

end System

end SpendGuard.Ledger
