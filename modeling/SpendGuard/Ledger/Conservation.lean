import SpendGuard.Ledger.Settlement

/-!
Hold conservation: after any run from an empty ledger, the balances of `reserved_hold` and
`committed_spend` are what the reservations, the commits and the sessions add up to.
-/

namespace SpendGuard.Ledger

open Base

section Sessions

variable {db db' : Db} {x : LedgerTransaction} {ds : List EntryDraft} {s : SessionReservation}
  {f : SessionReservation → SessionReservation}

theorem Db.Booked.sum_updateSession (hb : db.Booked) (hs : s ∈ db.sessions)
    (g : SessionReservation → ℤ) : ((db.updateSession s.id f).sessions.map g).sum =
      (db.sessions.map g).sum + (g (f s) - g s) := by
  rw [Db.updateSession, List.map_map, sum_map_change g _ (hb.filter_session hs)]
  · simp
  · intro y _ hne
    have hid : y.id ≠ s.id := by simpa using hne
    simp [hid]

structure Db.SessionMoved (db db' : Db) (ds : List EntryDraft) (s : SessionReservation)
    (f : SessionReservation → SessionReservation) : Prop where
  mem : s ∈ db.sessions
  posted : ∃ x, db.Posted db' x ds
  unopened : ∀ tenant id, ∀ d ∈ ds, d.opens tenant id = false
  sessions : db'.sessions = (db.updateSession s.id f).sessions
  reservations : db'.reservations = db.reservations
  commits : db'.commits = db.commits
  key : ∀ y, (f y).id = y.id
  within : (f s).committedAmount ≤ (f s).reservedAmount
  hold : ∀ a : Account, a.kind = .reservedHold → netCredit ds a = (f s).heldOn a - s.heldOn a
  spend : ∀ a : Account, a.kind = .committedSpend → netCredit ds a = (f s).spentOn a - s.spentOn a

namespace Db.SessionMoved

variable (h : db.SessionMoved db' ds s f)

include h

theorem ids : db'.sessions.map (·.id) = db.sessions.map (·.id) := by
  rw [h.sessions, Db.updateSession, List.map_map]
  apply List.map_congr_left
  intro y _
  rw [Function.comp_apply]
  split
  · exact h.key y
  · rfl

theorem mem_sessions {y : SessionReservation} (hb : db.Booked) (hy : y ∈ db'.sessions) :
    y = f s ∨ y.id ≠ s.id ∧ y ∈ db.sessions := by
  rw [h.sessions, Db.updateSession, List.mem_map] at hy
  obtain ⟨z, hz, rfl⟩ := hy
  split
  · next hid => exact .inl (by rw [List.inj_on_of_nodup_map hb.sessionIds hz h.mem hid])
  · next hid => exact .inr ⟨hid, hz⟩

theorem booked (hb : db.Booked) : db'.Booked := by
  obtain ⟨x, hposted⟩ := h.posted
  apply (hposted.sameOpenings h.unopened).booked hb
  · intro r hr
    rw [h.reservations] at hr
    exact ⟨r, hr, rfl, rfl, rfl⟩
  · rw [h.reservations]
  · exact h.ids
  · rw [h.commits, h.reservations]
    exact hb.commits
  · intro y hy
    rcases h.mem_sessions hb hy with rfl | ⟨-, hold⟩
    · exact h.within
    · exact hb.within y hold

theorem conserved (hb : db.Booked) (hc : db.Conserved) : db'.Conserved := by
  obtain ⟨x, hposted⟩ := h.posted
  have hopenings := hposted.sameOpenings h.unopened
  constructor
  · intro a ha
    rw [hposted.balance, h.hold a ha, hc.hold a ha, Db.held, Db.held, h.reservations,
      hopenings.reservedOn, h.sessions, hb.sum_updateSession h.mem]
    omega
  · intro a ha
    rw [hposted.balance, h.spend a ha, hc.spend a ha, Db.spent, Db.spent, h.reservations,
      hopenings.committedOn h.commits, h.sessions, hb.sum_updateSession h.mem]
    omega

end Db.SessionMoved

theorem SessionCommit.Applied.moved {r : SessionCommit} (h : r.Applied db db' s) :
    db.SessionMoved db' (sessionPosted s.tuple r.session .reservedHold .committedSpend r.delta) s
      fun y => { y with committedAmount := s.committedAmount + r.delta.toNat } := by
  obtain ⟨hmem, hid⟩ := Db.session?_some h.found
  have hdelta : (r.delta.toNat : ℤ) = r.delta := Int.toNat_of_nonneg h.positive.le
  refine ⟨hmem, h.posted, fun _ _ => sessionPosted_opens (.inl (by decide)), ?_, h.reservations,
    h.commits, fun _ => rfl, ?_, ?_, ?_⟩
  · rw [hid]
    exact h.sessions
  · have hwithin := h.within
    change s.committedAmount + r.delta.toNat ≤ s.reservedAmount
    omega
  · intro a ha
    have hspend : s.tuple.account .committedSpend ≠ a := SessionTuple.account_ne (by simp [ha])
    rw [netCredit_sessionPosted h.positive.le, if_neg hspend]
    simp only [SessionReservation.heldOn, h.active, true_and]
    split <;> omega
  · intro a ha
    have hhold : s.tuple.account .reservedHold ≠ a := SessionTuple.account_ne (by simp [ha])
    rw [netCredit_sessionPosted h.positive.le, if_neg hhold]
    simp only [SessionReservation.spentOn]
    split <;> omega

theorem SessionClose.Closed.moved {r : SessionClose} {status : SessionStatus}
    (h : r.Closed status db db' s) (hb : db.Booked) (hstatus : status ≠ .active) :
    db.SessionMoved db' (sessionPosted s.tuple r.session .reservedHold .availableBudget
      (s.reservedAmount - s.committedAmount)) s
      fun y => { y with status := status, releasedAmount := s.reservedAmount - s.committedAmount } := by
  obtain ⟨hmem, hid⟩ := Db.session?_some h.found
  have hwithin := hb.within s hmem
  have hnonneg : (0 : ℤ) ≤ s.reservedAmount - s.committedAmount := by omega
  refine ⟨hmem, h.posted, fun _ _ => sessionPosted_opens (.inl (by decide)), ?_, h.reservations,
    h.commits, fun _ => rfl, hwithin, ?_, ?_⟩
  · rw [hid]
    exact h.sessions
  · intro a ha
    have havailable : s.tuple.account .availableBudget ≠ a := SessionTuple.account_ne (by simp [ha])
    rw [netCredit_sessionPosted hnonneg, if_neg havailable]
    simp only [SessionReservation.heldOn, h.active, hstatus, true_and, false_and, if_false]
    split <;> omega
  · intro a ha
    have hhold : s.tuple.account .reservedHold ≠ a := SessionTuple.account_ne (by simp [ha])
    have havailable : s.tuple.account .availableBudget ≠ a := SessionTuple.account_ne (by simp [ha])
    rw [netCredit_sessionPosted hnonneg, if_neg hhold, if_neg havailable]
    simp [SessionReservation.spentOn]

end Sessions

section Opening

variable {db db' : Db} {x : LedgerTransaction} {ds : List EntryDraft}

theorem Db.Posted.map_reservedOn (h : db.Posted db' x ds)
    (hds : ∀ d ∈ ds, ∀ tenant, ∀ r ∈ db.reservations, d.opens tenant r.id = false) (a : Account) :
    db.reservations.map (db'.reservedOn a) = db.reservations.map (db.reservedOn a) := by
  apply List.map_congr_left
  intro r hr
  apply Db.reservedOn_congr
  exact Db.reserveEntry_congr (h.filter_opens_of_none fun d hd => hds d hd r.tenant r hr)

theorem Db.Posted.map_committedOn (h : db.Posted db' x ds)
    (hds : ∀ d ∈ ds, ∀ tenant, ∀ r ∈ db.reservations, d.opens tenant r.id = false)
    (hcommits : db'.commits = db.commits) (a : Account) :
    db.reservations.map (db'.committedOn a) = db.reservations.map (db.committedOn a) := by
  apply List.map_congr_left
  intro r hr
  apply Db.committedOn_congr
  · exact Db.reserveEntry_congr (h.filter_opens_of_none fun d hd => hds d hd r.tenant r hr)
  · rw [Db.commit?, Db.commit?, hcommits]

namespace SessionReserve

def drafts (r : SessionReserve) (status : SessionStatus) : List EntryDraft :=
  if status = .active then sessionPosted r.tuple r.id .availableBudget .reservedHold r.amount else []

theorem drafts_opens {r : SessionReserve} {status : SessionStatus} {tenant id : Uuid} (h : id ≠ r.id) :
    ∀ d ∈ r.drafts status, d.opens tenant id = false := by
  unfold drafts
  split
  · exact sessionPosted_opens (.inr h)
  · intro d hd
    cases hd

variable {r : SessionReserve} {status : SessionStatus}

theorem drafts_unopened (status : SessionStatus) (hfresh : r.id ∉ db.reservations.map (·.id)) :
    ∀ d ∈ r.drafts status, ∀ tenant, ∀ y ∈ db.reservations, d.opens tenant y.id = false := by
  intro d hd tenant y hy
  apply drafts_opens _ d hd
  intro heq
  exact hfresh (heq ▸ List.mem_map_of_mem hy)

variable (h : r.Recorded status db db')

include h

theorem Recorded.booked (hb : db.Booked) (hfresh : r.id ∉ db.reservations.map (·.id)) :
    db'.Booked := by
  obtain ⟨x, hposted⟩ := h.posted
  obtain ⟨s, hopens, hsessions⟩ := h.sessions
  have hnew : r.id ∉ db.sessions.map (·.id) := by
    intro hmem
    obtain ⟨y, hy, hid⟩ := List.mem_map.mp hmem
    exact List.find?_eq_none.mp h.fresh y hy (decide_eq_true hid)
  constructor
  · intro y hy
    rw [h.reservations] at hy
    rw [hposted.filter_opens_of_none fun d hd => drafts_unopened status hfresh d hd y.tenant y hy]
    exact hb.opened y hy
  · rw [h.reservations]
    exact hb.ids
  · rw [hsessions, List.map_append, List.map_singleton, hopens.id, ← List.concat_eq_append]
    exact hb.sessionIds.concat hnew
  · intro e he tenant id hopened
    rw [h.reservations, hsessions, List.map_append, List.mem_append]
    cases hposted.credits he hopened with
    | inl hold =>
      cases hb.credits e hold tenant id hopened with
      | inl hmem => exact .inl hmem
      | inr hmem => exact .inr (.inl hmem)
    | inr hdraft =>
      obtain ⟨d, hd, hdopens⟩ := hdraft
      refine .inr (.inr ?_)
      rw [List.map_singleton, List.mem_singleton, hopens.id]
      by_contra hne
      rw [drafts_opens hne d hd] at hdopens
      cases hdopens
  · rw [h.commits, h.reservations]
    exact hb.commits
  · intro y hy
    rw [hsessions, List.mem_append, List.mem_singleton] at hy
    cases hy with
    | inl hold => exact hb.within y hold
    | inr hnew =>
      rw [hnew, hopens.committed]
      exact Nat.zero_le _

theorem Recorded.conserved (hc : db.Conserved) (hfresh : r.id ∉ db.reservations.map (·.id))
    (hpos : status = .active → 0 < r.amount) : db'.Conserved := by
  obtain ⟨x, hposted⟩ := h.posted
  obtain ⟨s, hopens, hsessions⟩ := h.sessions
  have hunopened := drafts_unopened status hfresh
  have hnet : ∀ a, netCredit (r.drafts status) a = if status = .active then
      (if r.tuple.account .availableBudget = a then -r.amount else 0) +
        (if r.tuple.account .reservedHold = a then r.amount else 0) else 0 := by
    intro a
    unfold drafts
    split
    · next hactive => exact netCredit_sessionPosted (hpos hactive).le
    · rfl
  constructor
  · intro a ha
    have havailable : r.tuple.account .availableBudget ≠ a := SessionTuple.account_ne (by simp [ha])
    have hheld : s.heldOn a = netCredit (r.drafts status) a := by
      rw [hnet, SessionReservation.heldOn, hopens.status, hopens.tuple, hopens.reserved,
        hopens.committed, if_neg havailable]
      by_cases hactive : status = .active
      · have hamount : (r.amount.toNat : ℤ) = r.amount := Int.toNat_of_nonneg (hpos hactive).le
        simp [hactive, hamount]
      · simp [hactive]
    have hbalance : db'.balance a = db.balance a + netCredit (r.drafts status) a := hposted.balance a
    rw [hbalance, hc.hold a ha, Db.held, Db.held, h.reservations, hposted.map_reservedOn hunopened,
      hsessions, List.map_append, List.sum_append, List.map_singleton, List.sum_singleton, hheld]
    omega
  · intro a ha
    have havailable : r.tuple.account .availableBudget ≠ a := SessionTuple.account_ne (by simp [ha])
    have hhold : r.tuple.account .reservedHold ≠ a := SessionTuple.account_ne (by simp [ha])
    have hspent : s.spentOn a = 0 := by simp [SessionReservation.spentOn, hopens.committed]
    have hbalance : db'.balance a = db.balance a + netCredit (r.drafts status) a := hposted.balance a
    rw [hbalance, hnet, if_neg havailable, if_neg hhold, hc.spend a ha, Db.spent, Db.spent,
      h.reservations, hposted.map_committedOn hunopened h.commits, hsessions, List.map_append,
      List.sum_append, List.map_singleton, List.sum_singleton, hspent]
    split <;> omega

end SessionReserve

theorem foldl_addReservation {rs xs : List Reservation} (hnodup : (xs.map (·.id)).Nodup)
    (hfresh : ∀ y ∈ xs, y.id ∉ rs.map (·.id)) : xs.foldl addReservation rs = rs ++ xs := by
  induction xs generalizing rs with
  | nil => simp
  | cons y xs ih =>
    rw [List.map_cons, List.nodup_cons] at hnodup
    have hy : ¬∃ z ∈ rs, z.id = y.id := by simpa using hfresh y List.mem_cons_self
    rw [List.foldl_cons, addReservation, if_neg hy, ih hnodup.2]
    · simp
    · intro z hz hmem
      rw [List.map_append, List.mem_append] at hmem
      cases hmem with
      | inl hold => exact hfresh z (List.mem_cons_of_mem y hz) hold
      | inr hlast =>
        rw [List.map_singleton, List.mem_singleton] at hlast
        exact hnodup.1 (hlast ▸ List.mem_map_of_mem hz)

namespace ReserveSet

def hold (r : ReserveSet) (c : BudgetClaim × Uuid) : EntryDraft :=
  ⟨⟨r.transaction.tenant, c.1.budget, c.1.window, c.1.unit, .reservedHold⟩, .credit, c.1.amount.toNat,
    r.pricing, some c.2, 1⟩

def row (r : ReserveSet) (c : BudgetClaim × Uuid) : Reservation :=
  r.post.reservation ⟨c.2, c.1.budget, c.1.window, r.ttlExpiresAt, r.transaction.idempotencyKey⟩

def drafts (r : ReserveSet) (cs : List (BudgetClaim × Uuid)) : List EntryDraft :=
  (cs.flatMap fun c => c.1.entries r.pricing c.2).map (·.draft r.transaction.tenant)

theorem drafts_cons (r : ReserveSet) (c : BudgetClaim × Uuid) (cs : List (BudgetClaim × Uuid)) :
    r.drafts (c :: cs) =
      { r.hold c with account := (r.hold c).account.withKind .availableBudget, direction := .debit } ::
        r.hold c :: r.drafts cs := rfl

theorem filter_opens_drafts (r : ReserveSet) (cs : List (BudgetClaim × Uuid)) (tenant id : Uuid) :
    (r.drafts cs).filter (·.opens tenant id) =
      (cs.filter fun c => r.transaction.tenant = tenant ∧ c.2 = id).map r.hold := by
  induction cs with
  | nil => rfl
  | cons c cs ih =>
    rw [drafts_cons, List.filter_cons_of_neg (by simp [EntryDraft.opens]), List.filter_cons, ih,
      List.filter_cons]
    by_cases hid : r.transaction.tenant = tenant ∧ c.2 = id
    · simp [EntryDraft.opens, hold, hid]
    · simp [EntryDraft.opens, hold, hid]

theorem netCredit_drafts_hold (r : ReserveSet) (cs : List (BudgetClaim × Uuid)) {a : Account}
    (ha : a.kind = .reservedHold) : netCredit (r.drafts cs) a =
      (cs.map fun c => if (r.hold c).account = a then ((r.hold c).amount : ℤ) else 0).sum := by
  induction cs with
  | nil => rfl
  | cons c cs ih =>
    have havailable : (r.hold c).account.withKind .availableBudget ≠ a :=
      Account.withKind_ne (by simp [ha])
    rw [drafts_cons, netCredit_cons, netCredit_cons, if_neg havailable, zero_add, ih, List.map_cons,
      List.sum_cons]
    rfl

theorem netCredit_drafts_spend (r : ReserveSet) (cs : List (BudgetClaim × Uuid)) {a : Account}
    (ha : a.kind = .committedSpend) : netCredit (r.drafts cs) a = 0 := by
  induction cs with
  | nil => rfl
  | cons c cs ih =>
    have havailable : (r.hold c).account.withKind .availableBudget ≠ a :=
      Account.withKind_ne (by simp [ha])
    have hhold : (r.hold c).account ≠ a := by
      intro heq
      rw [← heq] at ha
      cases ha
    rw [drafts_cons, netCredit_cons, netCredit_cons, if_neg havailable, if_neg hhold, ih]
    rfl

def Unused (r : ReserveSet) (db : Db) : Prop :=
  ∀ c ∈ r.holds, c.2 ∉ db.reservations.map (·.id) ∧ c.2 ∉ db.sessions.map (·.id)

instance (r : ReserveSet) (db : Db) : Decidable (r.Unused db) :=
  inferInstanceAs (Decidable (∀ c ∈ r.holds, _))

variable {r : ReserveSet}

theorem drafts_unopened (h : r.Unused db) :
    ∀ d ∈ r.drafts r.holds, ∀ tenant, ∀ y ∈ db.reservations, d.opens tenant y.id = false := by
  intro d hd tenant y hy
  by_contra hopens
  have hmem : d ∈ (r.drafts r.holds).filter (·.opens tenant y.id) :=
    List.mem_filter.mpr ⟨hd, by simpa using hopens⟩
  rw [filter_opens_drafts, List.mem_map] at hmem
  obtain ⟨c, hc, -⟩ := hmem
  obtain ⟨hc, hid⟩ := List.mem_filter.mp hc
  exact (h c hc).1 ((of_decide_eq_true hid).2 ▸ List.mem_map_of_mem hy)

variable (h : r.post.Posted db db')

include h

theorem rows_eq (hnew : r.Unused db) : db'.reservations = db.reservations ++ r.holds.map r.row := by
  have hrows : r.post.reservations.map r.post.reservation = r.holds.map r.row := by
    rw [ReserveSet.post, buildReservationsPayload, List.map_map]
    rfl
  rw [h.reservations, hrows]
  apply foldl_addReservation
  · rw [List.map_map]
    exact r.holds_ids_nodup
  · intro y hy
    obtain ⟨c, hc, rfl⟩ := List.mem_map.mp hy
    exact (hnew c hc).1

theorem filter_opens (hb : db.Booked) (hnew : r.Unused db) {c : BudgetClaim × Uuid} (hc : c ∈ r.holds) :
    ∃ n, db'.entries.filter (·.opens r.transaction.tenant c.2) =
      [(r.hold c).entry r.transaction.id n] := by
  obtain ⟨l, hl, hentries⟩ := h.posted.filter_opens r.transaction.tenant c.2
  have hdrafts : l.map Prod.fst = [r.hold c] := by
    have hown : r.holds.filter (fun y => r.transaction.tenant = r.transaction.tenant ∧ y.2 = c.2) = [c] := by
      simpa using filter_eq_singleton_of_nodup r.holds_ids_nodup hc
    rw [hl]
    change (r.drafts r.holds).filter _ = _
    rw [filter_opens_drafts, hown, List.map_singleton]
  obtain ⟨p, rfl, hp⟩ := List.map_eq_singleton_iff.mp hdrafts
  refine ⟨p.2, ?_⟩
  rw [hentries, hb.filter_opens_fresh (hnew c hc).1 (hnew c hc).2, ← hp]
  rfl

theorem booked (hb : db.Booked) (hnew : r.Unused db) : db'.Booked := by
  have hrows := rows_eq h hnew
  have hids : db'.reservations.map (·.id) = db.reservations.map (·.id) ++ r.holds.map Prod.snd := by
    rw [hrows, List.map_append, List.map_map]
    rfl
  constructor
  · intro y hy
    rw [hrows, List.mem_append] at hy
    cases hy with
    | inl hold =>
      rw [h.posted.filter_opens_of_none fun d hd => drafts_unopened hnew d hd y.tenant y hold]
      exact hb.opened y hold
    | inr hown =>
      obtain ⟨c, hc, rfl⟩ := List.mem_map.mp hown
      obtain ⟨n, hn⟩ := filter_opens h hb hnew hc
      exact ⟨_, hn, rfl⟩
  · rw [hids, List.nodup_append']
    refine ⟨hb.ids, r.holds_ids_nodup, ?_⟩
    intro id hid hown
    obtain ⟨c, hc, rfl⟩ := List.mem_map.mp hown
    exact (hnew c hc).1 hid
  · rw [h.sessions]
    exact hb.sessionIds
  · intro e he tenant id hopens
    rw [hids, h.sessions, List.mem_append]
    cases h.posted.credits he hopens with
    | inl hold =>
      cases hb.credits e hold tenant id hopens with
      | inl hmem => exact .inl (.inl hmem)
      | inr hmem => exact .inr hmem
    | inr hdraft =>
      obtain ⟨d, hd, hdopens⟩ := hdraft
      have hmem : d ∈ (r.drafts r.holds).filter (·.opens tenant id) := List.mem_filter.mpr ⟨hd, hdopens⟩
      rw [filter_opens_drafts, List.mem_map] at hmem
      obtain ⟨c, hc, -⟩ := hmem
      obtain ⟨hc, hid⟩ := List.mem_filter.mp hc
      exact .inl (.inr ((of_decide_eq_true hid).2 ▸ List.mem_map_of_mem hc))
  · intro c hc
    rw [h.commits] at hc
    obtain ⟨hsound, y, hy, hrest⟩ := hb.commits c hc
    exact ⟨hsound, y, hrows ▸ List.mem_append_left _ hy, hrest⟩
  · rw [h.sessions]
    exact hb.within

theorem conserved (hb : db.Booked) (hc : db.Conserved) (hnew : r.Unused db) : db'.Conserved := by
  have hrows := rows_eq h hnew
  have hunopened := drafts_unopened hnew
  have hbalance : ∀ a, db'.balance a = db.balance a + netCredit (r.drafts r.holds) a := h.posted.balance
  constructor
  · intro a ha
    have hheld : r.holds.map (db'.reservedOn a ∘ r.row) =
        r.holds.map fun c => if (r.hold c).account = a then ((r.hold c).amount : ℤ) else 0 := by
      apply List.map_congr_left
      intro c hc
      obtain ⟨n, hn⟩ := filter_opens h hb hnew hc
      have hentry : db'.reserveEntry (r.row c).tenant (r.row c).id =
          some ((r.hold c).entry r.transaction.id n) := by
        rw [Db.reserveEntry_eq_head?]
        exact congrArg List.head? hn
      have hstate : (r.row c).state = .reserved := rfl
      rw [Function.comp_apply, Db.reservedOn]
      simp only [hentry, hstate, true_and]
      rfl
    rw [hbalance, netCredit_drafts_hold r _ ha, hc.hold a ha, Db.held, Db.held, h.sessions, hrows,
      List.map_append, List.sum_append, h.posted.map_reservedOn hunopened, List.map_map, hheld]
    omega
  · intro a ha
    have hspent : (r.holds.map (db'.committedOn a ∘ r.row)).sum = 0 := by
      apply List.sum_eq_zero
      intro n hn
      obtain ⟨c, -, rfl⟩ := List.mem_map.mp hn
      have hstate : (r.row c).state = .reserved := rfl
      rw [Function.comp_apply, Db.committedOn]
      split <;> simp [hstate]
    rw [hbalance, netCredit_drafts_spend r _ ha, hc.spend a ha, Db.spent, Db.spent, h.sessions, hrows,
      List.map_append, List.sum_append, h.posted.map_committedOn hunopened h.commits, List.map_map,
      hspent]
    omega

end ReserveSet

namespace OpeningDeposit

variable {d : OpeningDeposit} (h : d.post.Posted db db')

include h

theorem sameOpenings : db.SameOpenings db' := by
  apply h.posted.sameOpenings
  intro tenant id y hy
  simp only [OpeningDeposit.post, List.map_cons, List.map_nil, List.mem_cons, List.not_mem_nil,
    or_false] at hy
  rcases hy with rfl | rfl
  all_goals simp [EntryArgs.draft, EntryDraft.opens]

theorem booked (hb : db.Booked) : db'.Booked := by
  apply (sameOpenings h).booked_of_eq hb h.reservations h.sessions
  rw [h.commits]
  exact hb.commits

theorem conserved (hc : db.Conserved) : db'.Conserved := by
  have hreservations : db'.reservations = db.reservations := h.reservations
  have hnet : ∀ a : Account, a.kind = .reservedHold ∨ a.kind = .committedSpend →
      db'.balance a = db.balance a := by
    intro a ha
    have hkind : ∀ k : AccountKind, k ≠ .reservedHold → k ≠ .committedSpend →
        (⟨d.transaction.tenant, d.budget, d.window, d.unit, k⟩ : Account) ≠ a := by
      rintro k hhold hspend rfl
      exact ha.elim hhold hspend
    have havailable := hkind .availableBudget (by decide) (by decide)
    have hadjustment := hkind .adjustment (by decide) (by decide)
    rw [h.posted.balance]
    simp [OpeningDeposit.post, EntryArgs.draft, EntryArgs.account, havailable, hadjustment]
  constructor
  · intro a ha
    rw [hnet a (.inl ha), hc.hold a ha, Db.held, Db.held, hreservations, h.sessions,
      (sameOpenings h).reservedOn]
  · intro a ha
    rw [hnet a (.inr ha), hc.spend a ha, Db.spent, Db.spent, hreservations, h.sessions,
      (sameOpenings h).committedOn h.commits]

end OpeningDeposit

end Opening

section SameBooks

variable {db db' : Db} (h : db.SameBooks db')

include h

theorem Db.SameBooks.sameOpenings : db.SameOpenings db' := by
  intro tenant id
  rw [h.entries]

theorem Db.SameBooks.booked (hb : db.Booked) : db'.Booked := by
  apply h.sameOpenings.booked_of_eq hb h.reservations h.sessions
  rw [h.commits]
  exact hb.commits

theorem Db.SameBooks.conserved (hc : db.Conserved) : db'.Conserved := by
  have hbalance : ∀ a, db'.balance a = db.balance a := by
    intro a
    rw [Db.balance, Db.balance, h.entries]
  constructor
  · intro a ha
    rw [hbalance, hc.hold a ha, Db.held, Db.held, h.reservations, h.sessions,
      h.sameOpenings.reservedOn]
  · intro a ha
    rw [hbalance, hc.spend a ha, Db.spent, Db.spent, h.reservations, h.sessions,
      h.sameOpenings.committedOn h.commits]

end SameBooks

def MoneyCall.posts : MoneyCall → Bool
  | .post _ => true
  | _ => false

/-- The calls of the system: `post_ledger_transaction` is called with what the reserve handler and
the funding of a tenant build, the other procedures with anything. -/
inductive HoldCall
  | deposit (d : OpeningDeposit)
  | reserve (r : ReserveSet)
  | other (c : MoneyCall) (h : c.posts = false)

namespace HoldCall

def money : HoldCall → MoneyCall
  | .deposit d => .post d.post
  | .reserve r => .post r.post
  | .other c _ => c

def Step (db : Db) (c : ℕ × HoldCall) (db' : Db) : Prop := c.2.money.run c.1 db = .ok db'

/-- No id of a reservation is used twice: a reserve that is not a replay derives unused ones, and a
session gets one that no reservation has. -/
def Fresh (db : Db) (c : ℕ × HoldCall) : Prop :=
  match c.2 with
  | .reserve r =>
    db.findTransaction r.transaction.tenant .reserve r.transaction.idempotencyKey = none → r.Unused db
  | .other (.sessionReserve r) _ => r.id ∉ db.reservations.map (·.id)
  | _ => True

instance : ∀ db c, Decidable (Fresh db c)
  | db, (_, .reserve r) => inferInstanceAs (Decidable (_ → r.Unused db))
  | db, (_, .other (.sessionReserve r) _) =>
    inferInstanceAs (Decidable (r.id ∉ db.reservations.map (·.id)))
  | _, (_, .deposit _) => isTrue trivial
  | _, (_, .other (.post _) _) => isTrue trivial
  | _, (_, .other (.commitEstimated _) _) => isTrue trivial
  | _, (_, .other (.providerReported _) _) => isTrue trivial
  | _, (_, .other (.invoiceReconciled _) _) => isTrue trivial
  | _, (_, .other (.release _) _) => isTrue trivial
  | _, (_, .other (.sessionCommitDelta _) _) => isTrue trivial
  | _, (_, .other (.sessionRelease _ _) _) => isTrue trivial
  | _, (_, .other (.sessionExpire _) _) => isTrue trivial

end HoldCall

theorem MoneyCall.Effect.conserved {db db' : Db} {c : MoneyCall} (h : c.Effect db db')
    (hc : c.posts = false) (hfresh : ∀ r, c = .sessionReserve r → r.id ∉ db.reservations.map (·.id))
    (hbooked : db.Booked) (hcons : db.Conserved) : db'.Booked ∧ db'.Conserved := by
  cases h with
  | same h => exact ⟨h.booked hbooked, h.conserved hcons⟩
  | post => cases hc
  | commitEstimated h => exact ⟨h.booked hbooked, h.conserved hbooked hcons⟩
  | @providerReported r _ e _ hstate h =>
    obtain ⟨hmem, -⟩ := Db.commit?_some h.commit
    have hrev := (hbooked.commits _ hmem).1.providerReported hstate r.amount e
    exact ⟨h.booked hrev hbooked, h.conserved hrev hbooked hcons⟩
  | @invoiceReconciled r _ e _ hstate h =>
    obtain ⟨hmem, htenant, -⟩ := Db.commit?_some h.commit
    have hrev := (hbooked.commits _ hmem).1.invoiceReconciled htenant hstate r.amount e
    exact ⟨h.booked hrev hbooked, h.conserved hrev hbooked hcons⟩
  | release h => exact ⟨h.booked hbooked, h.conserved hbooked hcons⟩
  | sessionDenied h =>
    have hnew := hfresh _ rfl
    exact ⟨h.booked hbooked hnew, h.conserved hcons hnew (by simp)⟩
  | sessionReserve hpos _ h =>
    have hnew := hfresh _ rfl
    exact ⟨h.booked hbooked hnew, h.conserved hcons hnew fun _ => hpos⟩
  | sessionCommitDelta h => exact ⟨h.moved.booked hbooked, h.moved.conserved hbooked hcons⟩
  | sessionRelease h =>
    have hmoved := h.moved hbooked (by decide)
    exact ⟨hmoved.booked hbooked, hmoved.conserved hbooked hcons⟩
  | sessionExpire h =>
    have hmoved := h.moved hbooked (by decide)
    exact ⟨hmoved.booked hbooked, hmoved.conserved hbooked hcons⟩

theorem HoldCall.Step.conserved {db db' : Db} {c : ℕ × HoldCall} (h : HoldCall.Step db c db')
    (hfresh : HoldCall.Fresh db c) (hb : db.Booked) (hc : db.Conserved) :
    db'.Booked ∧ db'.Conserved := by
  obtain ⟨now, call⟩ := c
  have heffect := MoneyCall.effect h
  cases call with
  | deposit d =>
    cases heffect with
    | same h => exact ⟨h.booked hb, h.conserved hc⟩
    | post h => exact ⟨OpeningDeposit.booked h hb, OpeningDeposit.conserved h hc⟩
  | reserve r =>
    cases heffect with
    | same h => exact ⟨h.booked hb, h.conserved hc⟩
    | post h =>
      have hnew := hfresh h.new
      exact ⟨ReserveSet.booked h hb hnew, ReserveSet.conserved h hb hc hnew⟩
  | other c hposts =>
    apply heffect.conserved hposts _ hb hc
    rintro r rfl
    exact hfresh

/-- No transaction has been posted; accounts, prices and fencing scopes may be there. -/
structure Db.Empty (db : Db) : Prop where
  transactions : db.transactions = []
  entries : db.entries = []
  reservations : db.reservations = []
  commits : db.commits = []
  sessions : db.sessions = []

theorem Db.Empty.booked {db : Db} (h : db.Empty) : db.Booked := by
  constructor <;> simp [h.entries, h.reservations, h.commits, h.sessions]

theorem Db.Empty.conserved {db : Db} (h : db.Empty) : db.Conserved := by
  constructor
  · intro a _
    simp [Db.balance, Db.held, h.entries, h.reservations, h.sessions]
  · intro a _
    simp [Db.balance, Db.spent, h.entries, h.reservations, h.sessions]

/-- In every state of every run from an empty ledger, the holds and the spend are conserved. -/
theorem holds_conserved {db : Db} {tr : List ((ℕ × HoldCall) × Db)} (hempty : db.Empty)
    (h : Trace HoldCall.Step db tr) (hfresh : Along HoldCall.Fresh db tr) :
    db.Conserved ∧ ∀ p ∈ tr, p.2.Conserved := by
  refine ⟨hempty.conserved, ?_⟩
  have hinv := h.invariant (I := fun s => s.Booked ∧ s.Conserved) hfresh
    (fun _ _ _ hs hmet hstep => hstep.conserved hmet hs.1 hs.2) ⟨hempty.booked, hempty.conserved⟩
  intro p hp
  exact (hinv p hp).2

/-- A tenant with its accounts, a sidecar and a webhook receiver, before anything is posted. -/
def openLedger : Db where
  accounts := [.availableBudget, .reservedHold, .committedSpend, .adjustment].map
    (⟨⟨1, []⟩, ⟨2, []⟩, ⟨3, []⟩, ⟨4, []⟩, ·⟩)
  pricingSnapshots := [⟨"p1", [], "fx1", "uc1"⟩]
  allocators := [⟨1, 0⟩]
  fencingScopes := [⟨⟨10, []⟩, .budgetWindow, ⟨1, []⟩, 1, some "sidecar-1", none⟩,
    ⟨⟨11, []⟩, .controlPlaneWriter, ⟨1, []⟩, 1, some "webhook-1", none⟩]
  fencingEvents := []
  transactions := []
  entries := []
  audit := []
  reservations := []
  commits := []
  sessions := []
  sessionCommits := []
  sessionEvents := []

def openArgs (n : ℕ) (scope : ℕ) (workload : String) : TransactionArgs :=
  ⟨⟨100 + n, []⟩, ⟨1, []⟩, toString n, [], ⟨200 + n, []⟩, ⟨300 + n, []⟩, ⟨scope, []⟩, 1, workload⟩

def openPricing : Pricing := ⟨"p1", [], some "fx1", some "uc1"⟩

def openCommit (n : ℕ) (scope : ℕ) (workload : String) (amount : ℤ) : CommitPost where
  transaction := openArgs n scope workload
  unit := none
  reservation := deriveReservationId ⟨202, []⟩ 0
  amount := amount
  pricing := openPricing
  audit := ⟨⟨500 + n, []⟩, .outcome, n⟩

def openTuple : SessionTuple := ⟨⟨1, []⟩, ⟨2, []⟩, ⟨3, []⟩, ⟨4, []⟩, ⟨"p1", [], "fx1", "uc1"⟩⟩

def openContext (n : ℕ) (type : String) (outcome : SessionOutcome) : SessionAuditContext :=
  let envelope (m : ℕ) (phase : String) : SignedEnvelope :=
    ⟨⟨m + n, []⟩, some ⟨m + 50 + n, []⟩,
      some ⟨some (sessionAuditType type), some (Uuid.text ⟨600, []⟩), some phase, some outcome⟩,
      some (m + n), some (List.replicate 64 0)⟩
  ⟨none, some "ed25519:k1", some ⟨300 + n, []⟩, some 0, some 0, some 0, envelope 700 "decision",
    envelope 800 "outcome"⟩

def openSession : SessionReserve :=
  let r : SessionReserve := ⟨openTuple, "s1", "chat", 7, 60, "k5", [], ⟨600, []⟩, some .infinity,
    ⟨105, []⟩, none, none⟩
  { r with accepted := some (openContext 5 "reserve" (r.acceptedOutcome .infinity)) }

def openDelta : SessionCommit :=
  let r : SessionCommit := ⟨⟨600, []⟩, "c1", 3, "ok", "k6", [],
    ⟨none, none, none, none, none, none, none, none⟩, ⟨106, []⟩, none⟩
  let s := openSession.row .active .infinity (openSession.acceptedOutcome .infinity)
  { r with context := some (openContext 6 "commit_delta" (r.appliedOutcome s)) }

/-- Deposit 20; reserve 8, commit 5 of it, and have 6 reported; reserve 7 for a session and commit 3. -/
def conservedCalls : List HoldCall :=
  [.deposit ⟨openArgs 1 11 "webhook-1", ⟨2, []⟩, ⟨3, []⟩, ⟨4, []⟩, 20, openPricing,
      ⟨⟨501, []⟩, .decision, 1⟩⟩,
    .reserve ⟨openArgs 2 10 "sidecar-1", [⟨⟨2, []⟩, ⟨3, []⟩, ⟨4, []⟩, 8⟩], openPricing, .infinity,
      ⟨⟨502, []⟩, .decision, 2⟩, none⟩,
    .other (.commitEstimated (openCommit 3 10 "sidecar-1" 5)) rfl,
    .other (.providerReported (openCommit 4 11 "webhook-1" 6)) rfl,
    .other (.sessionReserve openSession) rfl,
    .other (.sessionCommitDelta openDelta) rfl]

theorem openLedger_empty : openLedger.Empty := ⟨rfl, rfl, rfl, rfl, rfl⟩

theorem conservedCalls_conserved :
    ∃ tr, Trace HoldCall.Step openLedger tr ∧ tr.map (·.1.2) = conservedCalls ∧ openLedger.Empty ∧
      Along HoldCall.Fresh openLedger tr ∧
      (tr.map fun p => [AccountKind.reservedHold, .committedSpend].map
        fun k => p.2.balance (openTuple.account k)) = [[0, 0], [8, 0], [0, 5], [0, 6], [7, 6], [4, 9]] ∧
      openLedger.Conserved ∧ ∀ p ∈ tr, p.2.Conserved := by
  have hrun : (runAll (fun db (c : ℕ × HoldCall) => c.2.money.run c.1 db) openLedger
      (conservedCalls.map fun c => (0, c))).any (fun tr => decide (Along HoldCall.Fresh openLedger tr ∧
        (tr.map fun p => [AccountKind.reservedHold, .committedSpend].map
          fun k => p.2.balance (openTuple.account k)) =
          [[0, 0], [8, 0], [0, 5], [0, 6], [7, 6], [4, 9]])) = true := by decide +kernel
  obtain ⟨tr, htr, hmet⟩ := Option.any_eq_true _ _ |>.mp hrun
  obtain ⟨hfresh, hbalances⟩ := of_decide_eq_true hmet
  obtain ⟨htrace, hlabels⟩ := runAll_spec htr
  have hcalls := congrArg (List.map Prod.snd) hlabels
  refine ⟨tr, htrace, ?_, openLedger_empty, hfresh, hbalances,
    holds_conserved openLedger_empty htrace hfresh⟩
  simpa [Function.comp_def] using hcalls

end SpendGuard.Ledger
