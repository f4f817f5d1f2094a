import SpendGuard.Ledger.Holds

/-!
What commits, releases, reports and invoices move on `reserved_hold` and `committed_spend`: as much
as they change in the projections of the one reservation they are about.
-/

namespace SpendGuard.Ledger

open Base

section Drafts

variable {e : LedgerEntry} {reservation tenant id : Uuid} {a : Account}

theorem netCredit_commitDrafts_hold {n : ℕ} (hn : n ≤ e.amount) (ha : a.kind = .reservedHold) :
    netCredit (commitDrafts e reservation n) a =
      if e.account.withKind .reservedHold = a then -(e.amount : ℤ) else 0 := by
  unfold commitDrafts
  split
  · simp [settleDraft, EntryDraft.creditPositive, Account.withKind_ne, ha]
    split <;> omega
  · simp [settleDraft, EntryDraft.creditPositive, Account.withKind_ne, ha]
    split <;> omega

theorem netCredit_commitDrafts_spend {n : ℕ} (ha : a.kind = .committedSpend) :
    netCredit (commitDrafts e reservation n) a =
      if e.account.withKind .committedSpend = a then (n : ℤ) else 0 := by
  unfold commitDrafts
  split
  · simp [settleDraft, EntryDraft.creditPositive, Account.withKind_ne, ha]
  · simp [settleDraft, EntryDraft.creditPositive, Account.withKind_ne, ha]

theorem netCredit_releaseDrafts_hold (ha : a.kind = .reservedHold) :
    netCredit (releaseDrafts e reservation) a =
      if e.account.withKind .reservedHold = a then -(e.amount : ℤ) else 0 := by
  simp [releaseDrafts, settleDraft, EntryDraft.creditPositive, Account.withKind_ne, ha]

theorem netCredit_releaseDrafts_spend (ha : a.kind = .committedSpend) :
    netCredit (releaseDrafts e reservation) a = 0 := by
  simp [releaseDrafts, settleDraft, Account.withKind_ne, ha]

theorem netCredit_adjustDrafts_hold {delta : Option ℤ} (ha : a.kind = .reservedHold) :
    netCredit (adjustDrafts e reservation delta) a = 0 := by
  cases delta with
  | none => rfl
  | some d =>
    simp only [adjustDrafts]
    split
    · simp [settleDraft, Account.withKind_ne, ha]
    · split
      · simp [settleDraft, Account.withKind_ne, ha]
      · rfl

theorem netCredit_adjustDrafts_spend {delta : Option ℤ} (ha : a.kind = .committedSpend) :
    netCredit (adjustDrafts e reservation delta) a =
      if e.account.withKind .committedSpend = a then delta.getD 0 else 0 := by
  cases delta with
  | none => simp [adjustDrafts]
  | some d =>
    simp only [adjustDrafts, Option.getD_some]
    split
    · have hd : (d.toNat : ℤ) = d := by omega
      simp [settleDraft, EntryDraft.creditPositive, Account.withKind_ne, ha, hd]
    · split
      · have hd : ((-d).toNat : ℤ) = -d := by omega
        simp [settleDraft, EntryDraft.creditPositive, Account.withKind_ne, ha, hd]
      · have hd : d = 0 := by omega
        simp [hd]

theorem settleDraft_opens {k : AccountKind} {d : Direction} {n : ℕ}
    (h : k ≠ .reservedHold ∨ d = .debit) : (settleDraft e reservation k d n).opens tenant id = false := by
  cases h with
  | inl hk => simp [settleDraft, EntryDraft.opens, hk]
  | inr hd => simp [settleDraft, EntryDraft.opens, hd]

theorem commitDrafts_opens {n : ℕ} :
    ∀ d ∈ commitDrafts e reservation n, d.opens tenant id = false := by
  intro d hd
  obtain ⟨k, dir, m, rfl, hk, -⟩ := mem_commitDrafts hd
  exact settleDraft_opens hk

theorem releaseDrafts_opens : ∀ d ∈ releaseDrafts e reservation, d.opens tenant id = false := by
  intro d hd
  simp only [releaseDrafts, List.mem_cons, List.not_mem_nil, or_false] at hd
  rcases hd with rfl | rfl
  all_goals exact settleDraft_opens (by decide)

theorem adjustDrafts_opens {delta : Option ℤ} :
    ∀ d ∈ adjustDrafts e reservation delta, d.opens tenant id = false := by
  intro d hd
  cases delta with
  | none => cases hd
  | some n =>
    simp only [adjustDrafts] at hd
    split at hd
    · simp only [List.mem_cons, List.not_mem_nil, or_false] at hd
      rcases hd with rfl | rfl
      all_goals exact settleDraft_opens (by decide)
    · split at hd
      · simp only [List.mem_cons, List.not_mem_nil, or_false] at hd
        rcases hd with rfl | rfl
        all_goals exact settleDraft_opens (by decide)
      · cases hd

theorem sessionPosted_opens {s : SessionTuple} {debit credit : AccountKind} {amount : ℤ}
    (h : credit ≠ .reservedHold ∨ id ≠ reservation) :
    ∀ d ∈ sessionPosted s reservation debit credit amount, d.opens tenant id = false := by
  intro d hd
  unfold sessionPosted at hd
  split at hd
  · cases hd
  · simp only [sessionDrafts, List.mem_cons, List.not_mem_nil, or_false] at hd
    rcases hd with rfl | rfl
    · simp [EntryDraft.opens]
    · cases h with
      | inl hcredit => simp [EntryDraft.opens, SessionTuple.account, hcredit]
      | inr hid => simp [EntryDraft.opens, hid.symm]

end Drafts

section Openings

variable {db db' : Db} {x : LedgerTransaction} {ds : List EntryDraft}

theorem Db.reserveEntry_congr {tenant id : Uuid}
    (h : db'.entries.filter (·.opens tenant id) = db.entries.filter (·.opens tenant id)) :
    db'.reserveEntry tenant id = db.reserveEntry tenant id := by
  rw [Db.reserveEntry_eq_head?, Db.reserveEntry_eq_head?, h]

theorem Db.reservedOn_congr {r : Reservation}
    (h : db'.reserveEntry r.tenant r.id = db.reserveEntry r.tenant r.id) (a : Account) :
    db'.reservedOn a r = db.reservedOn a r := by
  rw [Db.reservedOn, Db.reservedOn, h]

theorem Db.committedOn_congr {r : Reservation}
    (h : db'.reserveEntry r.tenant r.id = db.reserveEntry r.tenant r.id)
    (hcommit : db'.commit? r.tenant r.id = db.commit? r.tenant r.id) (a : Account) :
    db'.committedOn a r = db.committedOn a r := by
  rw [Db.committedOn, Db.committedOn, h, hcommit]

def Db.SameOpenings (db db' : Db) : Prop :=
  ∀ tenant id, db'.entries.filter (·.opens tenant id) = db.entries.filter (·.opens tenant id)

theorem Db.Posted.sameOpenings (h : db.Posted db' x ds)
    (hds : ∀ tenant id, ∀ d ∈ ds, d.opens tenant id = false) : db.SameOpenings db' :=
  fun tenant id => h.filter_opens_of_none (hds tenant id)

namespace Db.SameOpenings

variable (h : db.SameOpenings db')

include h

theorem reserveEntry (tenant id : Uuid) :
    db'.reserveEntry tenant id = db.reserveEntry tenant id := Db.reserveEntry_congr (h tenant id)

theorem reservedOn (a : Account) : db'.reservedOn a = db.reservedOn a := by
  funext r
  exact Db.reservedOn_congr (h.reserveEntry _ _) a

theorem committedOn (hcommits : db'.commits = db.commits) (a : Account) :
    db'.committedOn a = db.committedOn a := by
  funext r
  exact Db.committedOn_congr (h.reserveEntry _ _) (by rw [Db.commit?, Db.commit?, hcommits]) a

/-- Without an opening the tables still fit together, as long as the rows of the projections keep
their keys and every commit is one of a committed reservation. -/
theorem booked (hb : db.Booked)
    (hreservations : ∀ r' ∈ db'.reservations, ∃ r ∈ db.reservations,
      r'.id = r.id ∧ r'.tenant = r.tenant ∧ r'.account = r.account)
    (hids : db'.reservations.map (·.id) = db.reservations.map (·.id))
    (hsessions : db'.sessions.map (·.id) = db.sessions.map (·.id))
    (hcommits : ∀ c ∈ db'.commits, c.Sound ∧
      ∃ r ∈ db'.reservations, r.id = c.reservation ∧ r.tenant = c.tenant ∧ r.state = .committed)
    (hwithin : ∀ s ∈ db'.sessions, s.committedAmount ≤ s.reservedAmount) : db'.Booked := by
  refine ⟨?_, hids ▸ hb.ids, hsessions ▸ hb.sessionIds, ?_, hcommits, hwithin⟩
  · intro r' hr'
    obtain ⟨r, hr, hid, htenant, haccount⟩ := hreservations r' hr'
    rw [hid, htenant, haccount, h]
    exact hb.opened r hr
  · intro e he tenant id hopens
    have hmem : e ∈ db'.entries.filter (·.opens tenant id) := List.mem_filter.mpr ⟨he, hopens⟩
    rw [h] at hmem
    rw [hids, hsessions]
    exact hb.credits e (List.mem_filter.mp hmem).1 tenant id hopens

theorem booked_of_eq (hb : db.Booked) (hreservations : db'.reservations = db.reservations)
    (hsessions : db'.sessions = db.sessions) (hcommits : ∀ c ∈ db'.commits, c.Sound ∧
      ∃ r ∈ db.reservations, r.id = c.reservation ∧ r.tenant = c.tenant ∧ r.state = .committed) : db'.Booked := by
  apply h.booked hb
  · intro r hr
    rw [hreservations] at hr
    exact ⟨r, hr, rfl, rfl, rfl⟩
  · rw [hreservations]
  · rw [hsessions]
  · rwa [hreservations]
  · rw [hsessions]
    exact hb.within

end Db.SameOpenings

end Openings

section Settle

variable {db db' : Db}

/-- What `UPDATE reservations` makes of a row. -/
def Reservation.settle (tenant id : Uuid) (new : ReservationState) (r : Reservation) : Reservation :=
  if r.id = id ∧ r.tenant = tenant ∧ r.state = .reserved then { r with state := new } else r

@[simp] theorem Reservation.settle_id (tenant id : Uuid) (new : ReservationState) (r : Reservation) :
    (r.settle tenant id new).id = r.id := by
  unfold Reservation.settle
  split <;> rfl

@[simp] theorem Reservation.settle_tenant (tenant id : Uuid) (new : ReservationState) (r : Reservation) :
    (r.settle tenant id new).tenant = r.tenant := by
  unfold Reservation.settle
  split <;> rfl

@[simp] theorem Reservation.settle_account (tenant id : Uuid) (new : ReservationState)
    (r : Reservation) : (r.settle tenant id new).account = r.account := by
  unfold Reservation.settle
  split <;> rfl

theorem Reservation.settle_of_ne {tenant id : Uuid} {new : ReservationState} {r : Reservation}
    (h : r.id ≠ id) : r.settle tenant id new = r := if_neg fun hr => h hr.1

theorem Reservation.settle_self {new : ReservationState} {r : Reservation} (h : r.state = .reserved) :
    r.settle r.tenant r.id new = { r with state := new } := if_pos ⟨rfl, rfl, h⟩

theorem Db.Booked.sum_settle (hb : db.Booked) {res : Reservation} (hres : res ∈ db.reservations)
    (hstate : res.state = .reserved) (new : ReservationState) (g g' : Reservation → ℤ)
    (hsame : ∀ r ∈ db.reservations, r.id ≠ res.id → g' r = g r) :
    (((db.reservations.map (·.settle res.tenant res.id new))).map g').sum =
      (db.reservations.map g).sum + (g' { res with state := new } - g res) := by
  rw [List.map_map, sum_map_change g _ (hb.filter_reservation hres)]
  · rw [Function.comp_apply, Reservation.settle_self hstate]
  · intro r hr hne
    have hid : r.id ≠ res.id := by simpa using hne
    rw [Function.comp_apply, Reservation.settle_of_ne hid, hsame r hr hid]

variable {res : Reservation} {e : LedgerEntry} {new : ReservationState}

theorem held_settle (hb : db.Booked) (hres : res ∈ db.reservations) (hstate : res.state = .reserved)
    (hentry : db.reserveEntry res.tenant res.id = some e) (hnew : new ≠ .reserved)
    (hopenings : db.SameOpenings db')
    (hreservations : db'.reservations = db.reservations.map (·.settle res.tenant res.id new))
    (hsessions : db'.sessions = db.sessions) (a : Account) :
    db'.held a = db.held a - if res.account e .reservedHold = a then (e.amount : ℤ) else 0 := by
  have hbefore : db.reservedOn a res = if res.account e .reservedHold = a then (e.amount : ℤ) else 0 := by
    simp [Db.reservedOn, hentry, hstate]
  have hafter : db'.reservedOn a { res with state := new } = 0 := by
    simp [Db.reservedOn, hopenings.reserveEntry, hentry, hnew]
  have hsum := hb.sum_settle hres hstate new (db.reservedOn a) (db'.reservedOn a)
    fun r _ _ => by rw [hopenings.reservedOn]
  rw [Db.held, Db.held, hreservations, hsessions, hsum, hbefore, hafter]
  omega

theorem spent_settle (hb : db.Booked) (hres : res ∈ db.reservations) (hstate : res.state = .reserved)
    (hopenings : db.SameOpenings db')
    (hcommits : ∀ tenant id, id ≠ res.id → db'.commit? tenant id = db.commit? tenant id)
    (hreservations : db'.reservations = db.reservations.map (·.settle res.tenant res.id new))
    (hsessions : db'.sessions = db.sessions) (a : Account) :
    db'.spent a = db.spent a + db'.committedOn a { res with state := new } := by
  have hbefore : db.committedOn a res = 0 := by
    unfold Db.committedOn
    split <;> simp [hstate]
  have hsum := hb.sum_settle hres hstate new (db.committedOn a) (db'.committedOn a)
    fun r _ hne => Db.committedOn_congr (hopenings.reserveEntry _ _) (hcommits _ _ hne) a
  rw [Db.spent, Db.spent, hreservations, hsessions, hsum, hbefore]
  omega

theorem Db.Booked.settle (hb : db.Booked) (hres : res ∈ db.reservations)
    (hstate : res.state = .reserved) (hopenings : db.SameOpenings db')
    (hreservations : db'.reservations = db.reservations.map (·.settle res.tenant res.id new))
    (hsessions : db'.sessions = db.sessions)
    (hcommits : ∀ c ∈ db'.commits, c ∈ db.commits ∨
      c.Sound ∧ c.reservation = res.id ∧ c.tenant = res.tenant ∧ new = .committed) : db'.Booked := by
  apply hopenings.booked hb
  · intro r' hr'
    rw [hreservations, List.mem_map] at hr'
    obtain ⟨r, hr, rfl⟩ := hr'
    exact ⟨r, hr, by simp, by simp, by simp⟩
  · rw [hreservations, List.map_map]
    exact List.map_congr_left fun r _ => Reservation.settle_id _ _ _ r
  · rw [hsessions]
  · intro c hc
    rw [hreservations]
    rcases hcommits c hc with hold | ⟨hsound, hcres, hctenant, rfl⟩
    · obtain ⟨hsound, r, hr, hid, htenant, hcommitted⟩ := hb.commits c hold
      have hkept : r.settle res.tenant res.id new = r := if_neg fun h => by simp [hcommitted] at h
      exact ⟨hsound, r, List.mem_map.mpr ⟨r, hr, hkept⟩, hid, htenant, hcommitted⟩
    · refine ⟨hsound, _, List.mem_map_of_mem hres, ?_, ?_, ?_⟩
      · rw [Reservation.settle_id, hcres]
      · rw [Reservation.settle_tenant, hctenant]
      · rw [Reservation.settle_self hstate]
  · rw [hsessions]
    exact hb.within

end Settle

section Reservations

variable {db db' : Db} {res : Reservation} {e : LedgerEntry}

theorem Db.Booked.eq_of_id (hb : db.Booked) {r r' : Reservation} (hr : r ∈ db.reservations)
    (hr' : r' ∈ db.reservations) (h : r.id = r'.id) : r = r' :=
  List.inj_on_of_nodup_map hb.ids hr hr' h

theorem Db.Booked.withKind_eq (hb : db.Booked) (hres : res ∈ db.reservations)
    (hentry : db.reserveEntry res.tenant res.id = some e) (k : AccountKind) :
    e.account.withKind k = res.account e k := by
  obtain ⟨e', he', haccount⟩ := hb.reserveEntry hres
  rw [hentry, Option.some.injEq] at he'
  subst he'
  rw [haccount]
  rfl

theorem Db.Booked.uncommitted (hb : db.Booked) (hres : res ∈ db.reservations)
    (hstate : res.state = .reserved) : ∀ c ∈ db.commits, c.reservation ≠ res.id := by
  intro c hc heq
  obtain ⟨-, r, hr, hid, -, hcommitted⟩ := hb.commits c hc
  rw [hb.eq_of_id hr hres (hid.trans heq), hstate] at hcommitted
  cases hcommitted

/-- On a ledger that fits together a commit always inserts its own row: a row with the same id
would be the commit of a reservation that is no longer held. -/
theorem CommitPost.Committed.commits_eq {r : CommitPost} (h : r.Committed db db' res e)
    (hb : db.Booked) : db'.commits = db.commits ++ [r.commitRow e] := by
  obtain ⟨hres, -, hid⟩ := Db.reservation?_some h.found
  generalize hcs : db'.commits = cs
  have hinsert := h.commits
  rw [hcs] at hinsert
  cases hinsert with
  | new _ => rfl
  | @existing x hfind =>
    have hx := List.mem_of_find?_eq_some hfind
    have hfound := List.find?_some hfind
    have hdigest : x.id = r.reservation.digest ":commit_estimated" := of_decide_eq_true hfound
    rw [(hb.commits x hx).1.id] at hdigest
    exact absurd ((Uuid.digest_injective hdigest).1.trans hid.symm) (hb.uncommitted hres h.reserved x hx)

theorem CommitPost.Committed.commit? {r : CommitPost} (h : r.Committed db db' res e) (hb : db.Booked)
    (tenant id : Uuid) : db'.commit? tenant id =
      if tenant = res.tenant ∧ id = res.id then some (r.commitRow e) else db.commit? tenant id := by
  obtain ⟨hres, htenant, hid⟩ := Db.reservation?_some h.found
  rw [Db.commit?, h.commits_eq hb, List.find?_append]
  split
  · next heq =>
    have hnone : (db.commits.find? fun c => c.tenant = tenant ∧ c.reservation = id) = none := by
      rw [List.find?_eq_none]
      intro c hc hfound
      exact hb.uncommitted hres h.reserved c hc ((of_decide_eq_true hfound).2.trans heq.2)
    rw [hnone, Option.none_or]
    exact List.find?_cons_of_pos (by simp [CommitPost.commitRow, heq, htenant, hid])
  · next hne =>
    rw [List.find?_cons_of_neg, List.find?_nil, Option.or_none]
    · rfl
    · intro hfound
      obtain ⟨ht, hi⟩ := of_decide_eq_true hfound
      exact hne ⟨ht.symm.trans htenant.symm, hi.symm.trans hid.symm⟩

section Commit

variable {r : CommitPost} (h : r.Committed db db' res e)

include h

theorem CommitPost.Committed.settled :
    db'.reservations = db.reservations.map (·.settle res.tenant res.id .committed) := by
  obtain ⟨-, htenant, hid⟩ := Db.reservation?_some h.found
  rw [h.reservations, htenant, hid]
  rfl

theorem CommitPost.Committed.booked (hb : db.Booked) : db'.Booked := by
  obtain ⟨hres, htenant, hid⟩ := Db.reservation?_some h.found
  obtain ⟨token, hposted⟩ := h.posted
  have hopenings := hposted.sameOpenings fun _ _ => commitDrafts_opens
  apply hb.settle hres h.reserved hopenings h.settled h.sessions
  intro c hc
  rw [h.commits_eq hb, List.mem_append, List.mem_singleton] at hc
  cases hc with
  | inl hold => exact .inl hold
  | inr hnew =>
    subst hnew
    exact .inr ⟨⟨rfl, by simp [CommitPost.commitRow], fun _ => rfl, fun _ => rfl⟩, hid.symm,
      htenant.symm, rfl⟩

theorem CommitPost.Committed.conserved (hb : db.Booked) (hc : db.Conserved) : db'.Conserved := by
  obtain ⟨hres, htenant, hid⟩ := Db.reservation?_some h.found
  obtain ⟨token, hposted⟩ := h.posted
  have hentry : db.reserveEntry res.tenant res.id = some e := by
    rw [htenant, hid]
    exact h.entry
  have hkind := hb.withKind_eq hres hentry
  have hopenings := hposted.sameOpenings fun _ _ => commitDrafts_opens
  have hamount : (r.amount.toNat : ℤ) = r.amount := Int.toNat_of_nonneg h.positive.le
  constructor
  · intro a ha
    have hle : r.amount.toNat ≤ e.amount := by
      have := h.within
      omega
    rw [hposted.balance, netCredit_commitDrafts_hold hle ha, hkind, hc.hold a ha,
      held_settle hb hres h.reserved hentry (by decide) hopenings h.settled h.sessions]
    split <;> omega
  · intro a ha
    have hcommits : ∀ tenant id, id ≠ res.id → db'.commit? tenant id = db.commit? tenant id := by
      intro tenant id hne
      rw [h.commit? hb, if_neg fun heq => hne heq.2]
    have hspent : db'.committedOn a { res with state := .committed } =
        if res.account e .committedSpend = a then (r.amount.toNat : ℤ) else 0 := by
      simp [Db.committedOn, hopenings.reserveEntry, hentry, h.commit? hb, CommitPost.commitRow,
        Commit.latestAmount, Reservation.account]
    rw [hposted.balance, netCredit_commitDrafts_spend ha, hkind, hc.spend a ha,
      spent_settle hb hres h.reserved hopenings hcommits h.settled h.sessions, hspent]

end Commit

section Release

variable {r : ReleasePost} (h : r.Released db db' res e)

include h

theorem ReleasePost.Released.mem : res ∈ db.reservations ∧ res.tenant = r.transaction.tenant := by
  obtain ⟨source, -, hset⟩ := h.found
  have hmem : res ∈ db.reservationsOf r.transaction.tenant source.id := by simp [hset]
  simp only [Db.reservationsOf, List.mem_filter, decide_eq_true_eq] at hmem
  exact ⟨hmem.1, hmem.2.1⟩

theorem ReleasePost.Released.settled :
    db'.reservations = db.reservations.map (·.settle res.tenant res.id .released) := by
  rw [h.reservations, h.mem.2]
  rfl

theorem ReleasePost.Released.booked (hb : db.Booked) : db'.Booked := by
  obtain ⟨token, hposted⟩ := h.posted
  have hopenings := hposted.sameOpenings fun _ _ => releaseDrafts_opens
  apply hb.settle h.mem.1 h.reserved hopenings h.settled h.sessions
  intro c hc
  rw [h.commits] at hc
  exact .inl hc

theorem ReleasePost.Released.conserved (hb : db.Booked) (hc : db.Conserved) : db'.Conserved := by
  obtain ⟨hres, htenant⟩ := h.mem
  obtain ⟨token, hposted⟩ := h.posted
  have hentry : db.reserveEntry res.tenant res.id = some e := by
    rw [htenant]
    exact h.entry
  have hkind := hb.withKind_eq hres hentry
  have hopenings := hposted.sameOpenings fun _ _ => releaseDrafts_opens
  constructor
  · intro a ha
    rw [hposted.balance, netCredit_releaseDrafts_hold ha, hkind, hc.hold a ha,
      held_settle hb hres h.reserved hentry (by decide) hopenings h.settled h.sessions]
    split <;> omega
  · intro a ha
    have hcommits : ∀ tenant id, id ≠ res.id → db'.commit? tenant id = db.commit? tenant id := by
      intro tenant id _
      rw [Db.commit?, Db.commit?, h.commits]
    have hspent : db'.committedOn a { res with state := .released } = 0 := by
      unfold Db.committedOn
      split <;> simp
    rw [hposted.balance, netCredit_releaseDrafts_spend ha, hc.spend a ha,
      spent_settle hb hres h.reserved hopenings hcommits h.settled h.sessions, hspent]

end Release

end Reservations

section Adjust

/-- An `UPDATE commits` that hits the row of a commit and makes `amount` its latest one. -/
structure Commit.Revised (c : Commit) (amount : ℤ) (baseline : Option ℕ) (p : Commit → Bool)
    (f : Commit → Commit) : Prop where
  row : p c = true
  tenant : ∀ x, (f x).tenant = x.tenant
  reservation : ∀ x, (f x).reservation = x.reservation
  sound : (f c).Sound
  latest : (f c).latestAmount = amount.toNat
  baseline : baseline = some c.latestAmount

theorem Commit.Sound.providerReported {c : Commit} (h : c.Sound) (hstate : c.latestState = .estimated)
    (amount : ℤ) (e : LedgerEntry) :
    c.Revised amount c.estimatedAmount (estimatedRow c) (Commit.providerReported amount e) := by
  have hinvoice : c.invoiceReconciledAmount = none := h.uninvoiced (by simp [hstate])
  have hreport : c.providerReportedAmount = none := h.unreported hstate
  obtain ⟨n, hn⟩ := Option.ne_none_iff_exists'.mp h.estimated
  refine ⟨by simp [estimatedRow, hstate], fun _ => rfl, fun _ => rfl, ?_, ?_, ?_⟩
  · exact ⟨h.id, h.estimated, by simp [Commit.providerReported], fun _ => hinvoice⟩
  · simp [Commit.latestAmount, Commit.providerReported, hinvoice]
  · simp [Commit.latestAmount, hinvoice, hreport, hn]

theorem Commit.Sound.invoiceReconciled {c : Commit} {tenant : Uuid} (h : c.Sound)
    (htenant : c.tenant = tenant)
    (hstate : c.latestState = .estimated ∨ c.latestState = .providerReported) (amount : ℤ)
    (e : LedgerEntry) :
    c.Revised amount c.baseline (reconcilableRow tenant c) (Commit.invoiceReconciled amount e) := by
  have hinvoice : c.invoiceReconciledAmount = none := by
    apply h.uninvoiced
    cases hstate with
    | inl hs => simp [hs]
    | inr hs => simp [hs]
  obtain ⟨n, hn⟩ := Option.ne_none_iff_exists'.mp h.estimated
  refine ⟨by simp [reconcilableRow, htenant, hstate], fun _ => rfl, fun _ => rfl, ?_, ?_, ?_⟩
  · exact ⟨h.id, h.estimated, by simp [Commit.invoiceReconciled], by simp [Commit.invoiceReconciled]⟩
  · simp [Commit.latestAmount, Commit.invoiceReconciled]
  · cases hreport : c.providerReportedAmount with
    | none => simp [Commit.latestAmount, Commit.baseline, hinvoice, hreport, hn]
    | some m => simp [Commit.latestAmount, Commit.baseline, hinvoice, hreport]

variable {db db' : Db} {t : TransactionArgs} {op : OperationKind} {reservation : Uuid} {amount : ℤ}
  {c : Commit} {e : LedgerEntry} {baseline : Option ℕ} {p : Commit → Bool} {f : Commit → Commit}

namespace Db.Adjusted

variable (h : db.Adjusted db' t op reservation amount c e baseline p f)
  (hrev : c.Revised amount baseline p f)

include h hrev

theorem eq_of_row {x : Commit} (hx : x ∈ db.commits) (hp : p x = true) : x = c := by
  obtain ⟨y, hy⟩ := List.length_eq_one_iff.mp h.one
  have hxy : x ∈ db.commits.filter p := List.mem_filter.mpr ⟨hx, hp⟩
  have hcy : c ∈ db.commits.filter p := List.mem_filter.mpr ⟨(Db.commit?_some h.commit).1, hrev.row⟩
  rw [hy, List.mem_singleton] at hxy hcy
  rw [hxy, hcy]

theorem commit? (tenant id : Uuid) :
    db'.commit? tenant id = (db.commit? tenant id).map fun x => if p x then f x else x := by
  rw [Db.commit?, h.commits, Db.updateCommits, List.find?_map]
  congr 2
  funext x
  by_cases hx : p x = true
  · simp [hx, hrev.tenant, hrev.reservation]
  · simp [hx]

theorem commit?_of_ne {tenant id : Uuid} (hne : id ≠ reservation) :
    db'.commit? tenant id = db.commit? tenant id := by
  rw [h.commit? hrev]
  cases hx : db.commit? tenant id with
  | none => rfl
  | some x =>
    obtain ⟨hmem, -, hid⟩ := Db.commit?_some hx
    have hp : ¬p x = true := by
      intro hp
      rw [h.eq_of_row hrev hmem hp] at hid
      exact hne (hid.symm.trans (Db.commit?_some h.commit).2.2)
    rw [Option.map_some, if_neg hp]

theorem booked (hb : db.Booked) : db'.Booked := by
  obtain ⟨token, hposted⟩ := h.posted
  apply (hposted.sameOpenings fun _ _ => adjustDrafts_opens).booked_of_eq hb h.reservations h.sessions
  intro x' hx'
  rw [h.commits, Db.updateCommits, List.mem_map] at hx'
  obtain ⟨x, hx, rfl⟩ := hx'
  obtain ⟨hsound, hrow⟩ := hb.commits x hx
  split
  · next hp =>
    refine ⟨?_, ?_⟩
    · rw [h.eq_of_row hrev hx hp]
      exact hrev.sound
    · rw [hrev.tenant, hrev.reservation]
      exact hrow
  · exact ⟨hsound, hrow⟩

theorem conserved (hb : db.Booked) (hc : db.Conserved) : db'.Conserved := by
  obtain ⟨token, hposted⟩ := h.posted
  obtain ⟨res, hfound, hcommitted⟩ := h.committed
  obtain ⟨hres, htenant, hid⟩ := Db.reservation?_some hfound
  have hopenings := hposted.sameOpenings fun _ _ => adjustDrafts_opens
  have hentry : db.reserveEntry res.tenant res.id = some e := by
    rw [htenant, hid]
    exact h.entry
  constructor
  · intro a ha
    rw [hposted.balance, netCredit_adjustDrafts_hold ha, hc.hold a ha, Db.held, Db.held,
      h.reservations, h.sessions, hopenings.reservedOn, add_zero]
  · intro a ha
    have hrow : db.commit? res.tenant res.id = some c := by
      rw [htenant, hid]
      exact h.commit
    have hbefore : db.committedOn a res =
        if res.account e .committedSpend = a then (c.latestAmount : ℤ) else 0 := by
      simp [Db.committedOn, hentry, hrow, hcommitted]
    have hafter : db'.committedOn a res =
        if res.account e .committedSpend = a then (amount.toNat : ℤ) else 0 := by
      simp [Db.committedOn, hopenings.reserveEntry, hentry, h.commit? hrev, hrow, hrev.row,
        hrev.latest, hcommitted]
    have hsum := sum_map_change (db.committedOn a) (db'.committedOn a) (hb.filter_reservation hres)
      fun r _ hne => by
        have hr : r.id ≠ reservation := by simpa [hid] using hne
        exact Db.committedOn_congr (hopenings.reserveEntry _ _) (h.commit?_of_ne hrev hr) a
    have hamount : (amount.toNat : ℤ) = amount := Int.toNat_of_nonneg h.positive.le
    rw [hposted.balance, netCredit_adjustDrafts_spend ha, hb.withKind_eq hres hentry,
      hc.spend a ha, Db.spent, Db.spent, h.reservations, h.sessions, hsum, hbefore, hafter,
      hrev.baseline, Option.map_some, Option.getD_some]
    split <;> omega

end Db.Adjusted

end Adjust

end SpendGuard.Ledger
