import SpendGuard.Ledger.Conservation
import SpendGuard.Ledger.Lookups
import SpendGuard.Sidecar.Commit

/-!
A commit that is sent to the sidecar again after it has succeeded.  The first success takes the reservation
out of the cache; from then on only the ledger can say what became of it.
-/

namespace SpendGuard.Sidecar

open Base Base.Proc Ledger

def commitKey (reservation : Uuid) : String := "commit_estimated:" ++ reservation.text ++ ":1"

def reservationFacts (db : Db) (tenant reservation : Uuid) : Option ReservationCtx := do
  let r ← db.reservation? tenant reservation
  let source ← db.transactions.find? fun x => x.id = r.sourceTransaction
  let e ← db.reserveEntry tenant reservation
  reservationContext r source e

/-- The context says what the ledger has of the reservation, with the state it had at some time. -/
def Tells (db : Db) (tenant reservation : Uuid) (ctx : ReservationCtx) : Prop :=
  ∃ c, reservationFacts db tenant reservation = some c ∧ ctx = { c with currentState := ctx.currentState }

/-- What happens around a sidecar: it is sent a commit, somebody calls the ledger, or it goes on with
something else. -/
inductive CommitEvent
  | commit (env : CallEnv) (p : LlmCallPostPayload)
  | ledger (now : ℕ) (c : LedgerCall)
  | turn (s : SidecarState)

/-- Only sidecars commit estimates, under the key made from the reservation; `post_ledger_transaction` posts
reserves and deposits. -/
def ClientCall (parseUuid : String → Option Uuid) : LedgerCall → Prop
  | .money (.post r) => r.operationKind ≠ .commitEstimated
  | .money (.commitEstimated r) =>
    parseUuid r.reservation.text = some r.reservation ∧ r.transaction.idempotencyKey = commitKey r.reservation
  | _ => True

/-- Whatever else the sidecar does, what it puts into the cache is what the ledger has told it: the
reservations it has just made, or a row it has read. -/
structure Turns (w : World) (s : SidecarState) : Prop where
  tenant : s.tenant = w.sidecar.tenant
  workload : s.workload = w.sidecar.workload
  cached : ∀ p ∈ s.reservationCache,
    p ∈ w.sidecar.reservationCache ∨ Tells w.ledger w.sidecar.tenant p.1 p.2

inductive CommitStep (parseUuid : String → Option Uuid) (w : World) : CommitEvent → World → Prop
  | commit {env : CallEnv} {p : LlmCallPostPayload} :
      CommitStep parseUuid w (.commit env p) (runCommitEstimated parseUuid w env p).2
  | ledger {now : ℕ} {c : LedgerCall} {a : LedgerReply} {db : Db} (hc : ClientCall parseUuid c)
      (h : exec now c.body w.ledger = .ok (a, db)) : CommitStep parseUuid w (.ledger now c) ⟨w.sidecar, db⟩
  | turn {s : SidecarState} (h : Turns w s) : CommitStep parseUuid w (.turn s) ⟨s, w.ledger⟩

/-- What holds in every state: the cache tells of the ledger, and a reservation with a commit under its key
is settled. -/
structure World.Sound (parseUuid : String → Option Uuid) (w : World) : Prop where
  cached : ∀ p ∈ w.sidecar.reservationCache, Tells w.ledger w.sidecar.tenant p.1 p.2
  settled : ∀ x ∈ w.ledger.transactions, x.operationKind = .commitEstimated → ∀ reservation,
    parseUuid reservation.text = some reservation → x.idempotencyKey = commitKey reservation →
      w.ledger.Settled x.tenant reservation

section Facts

variable {db db' : Db} {tenant reservation : Uuid} {ctx ctx' : ReservationCtx}

theorem reservationFacts_eq_some {c : ReservationCtx} :
    reservationFacts db tenant reservation = some c ↔ ∃ r source e, db.reservation? tenant reservation = some r ∧
      db.transactions.find? (fun x => x.id = r.sourceTransaction) = some source ∧
      db.reserveEntry tenant reservation = some e ∧ reservationContext r source e = some c := by
  simp only [reservationFacts, Option.bind_eq_bind, Option.bind_eq_some_iff]
  constructor
  · rintro ⟨r, hr, source, hsource, e, he, hc⟩
    exact ⟨r, source, e, hr, hsource, he, hc⟩
  · rintro ⟨r, source, e, hr, hsource, he, hc⟩
    exact ⟨r, hr, source, hsource, e, he, hc⟩

theorem facts_of_query (h : queryReservationContext db tenant reservation = .ok ctx) :
    reservationFacts db tenant reservation = some ctx := by
  simp only [queryReservationContext, found_bind_eq_ok, check_bind_eq_ok, found_eq_ok] at h
  obtain ⟨r, hr, source, hsource, -, e, he, hctx⟩ := h
  exact reservationFacts_eq_some.mpr ⟨r, source, e, hr, hsource, he, hctx⟩

theorem tells_of_query (h : queryReservationContext db tenant reservation = .ok ctx) :
    Tells db tenant reservation ctx := ⟨ctx, facts_of_query h, rfl⟩

theorem Tells.eq_of_state (h : Tells db tenant reservation ctx) (h' : Tells db tenant reservation ctx')
    (hstate : ctx.currentState = ctx'.currentState) : ctx = ctx' := by
  obtain ⟨c, hc, hctx⟩ := h
  obtain ⟨c', hc', hctx'⟩ := h'
  obtain rfl : c = c' := Option.some.inj (hc.symm.trans hc')
  rw [hctx, hctx', hstate]

theorem reservationContext_state (r : Reservation) (source : LedgerTransaction) (e : LedgerEntry)
    (s : ReservationState) : reservationContext { r with state := s } source e =
      (reservationContext r source e).map fun c => { c with currentState := s } := by
  simp only [reservationContext]
  cases e.pricing.fxRateVersion <;> cases e.pricing.unitConversionVersion <;> cases source.fencingScope <;>
    cases source.fencingEpochAtPost <;> rfl

theorem Tells.extends {c : LedgerCall} (h : Tells db tenant reservation ctx) (hx : c.Extends db db') :
    Tells db' tenant reservation ctx := by
  obtain ⟨facts, hfacts, hctx⟩ := h
  obtain ⟨r, source, e, hr, hsource, he, hcontext⟩ := reservationFacts_eq_some.mp hfacts
  obtain ⟨s, hs, -⟩ := hx.reservations tenant reservation r hr
  obtain ⟨rows, -, hrows⟩ := hx.transactions
  refine ⟨{ facts with currentState := s }, reservationFacts_eq_some.mpr ⟨_, source, e, hs, ?_, ?_, ?_⟩, hctx⟩
  · exact find?_of_prefix ⟨rows, hrows.symm⟩ hsource
  · exact find?_of_prefix hx.entries he
  · rw [reservationContext_state, hcontext]
    rfl

theorem state_of_query (h : queryReservationContext db tenant reservation = .ok ctx)
    (hsettled : db.Settled tenant reservation) : ctx.currentState ≠ .reserved := by
  obtain ⟨r, source, e, hr, -, -, hcontext⟩ := reservationFacts_eq_some.mp (facts_of_query h)
  obtain ⟨r', hr', hstate⟩ := hsettled
  obtain rfl : r = r' := Option.some.inj (hr.symm.trans hr')
  simp only [reservationContext, Option.bind_eq_bind, Option.bind_eq_some_iff, Option.pure_def,
    Option.some.injEq] at hcontext
  obtain ⟨_, -, _, -, _, -, _, -, rfl⟩ := hcontext
  exact hstate

end Facts

section Steps

variable {parseUuid : String → Option Uuid} {w w' : World} {env : CallEnv} {p : LlmCallPostPayload}
  {reservation t : Uuid} {ctx : ReservationCtx} {f : ActiveFencing} {estimated : ℤ}

theorem routeCommit_parsed (h : routeCommit parseUuid p = .ok reservation) :
    parseUuid p.reservation = some reservation := by
  simp only [routeCommit, check_bind_eq_ok, found_eq_ok] at h
  exact h.2.2.2.2

theorem recoverReservationCtx_turns (w : World) (env : CallEnv) (reservation : Uuid) : ∃ cache,
    Turns w { w.sidecar with reservationCache := cache } ∧ (recoverReservationCtx w env reservation).2 =
      { w with sidecar := { w.sidecar with reservationCache := cache } } := by
  have hsame : Turns w { w.sidecar with reservationCache := w.sidecar.reservationCache } :=
    ⟨rfl, rfl, fun _ hp => .inl hp⟩
  unfold recoverReservationCtx
  split
  · exact ⟨_, hsame, rfl⟩
  · split
    · split
      · exact ⟨_, hsame, rfl⟩
      · next ctx hquery =>
        refine ⟨(reservation, ctx) :: w.sidecar.reservationCache, ⟨rfl, rfl, ?_⟩, rfl⟩
        intro q hq
        rcases List.mem_cons.mp hq with rfl | hq
        · exact .inr (tells_of_query hquery)
        · exact .inl hq
    · exact ⟨_, hsame, rfl⟩

theorem postCommit_snd (w : World) (env : CallEnv) (reservation : Uuid) (ctx : ReservationCtx)
    (f : ActiveFencing) (estimated : ℤ) : ∃ s, Turns w s ∧ s.fencing = w.sidecar.fencing ∧
      ((postCommit w env reservation ctx f estimated).2 = ⟨s, w.ledger⟩ ∨
        ∃ t db, exec env.now (postCommitEstimatedTransaction
            (commitPost w.sidecar env reservation ctx f estimated)) w.ledger = .ok (t, db) ∧
          (postCommit w env reservation ctx f estimated).2 = ⟨s, db⟩) := by
  have hcounted : Turns w { w.sidecar with lastSequence := w.sidecar.lastSequence + 1 } :=
    ⟨rfl, rfl, fun _ hq => .inl hq⟩
  unfold postCommit
  split
  · split
    · next t db hpost =>
      let s := { w.sidecar with lastSequence := w.sidecar.lastSequence + 1 }.evict reservation ctx.decision
      have hs : Turns w s := ⟨rfl, rfl, fun q hq => .inl (List.mem_of_mem_filter hq)⟩
      exact ⟨s, hs, rfl, .inr ⟨t, db, (commitEstimatedHandler_eq_ok.mp hpost).2.2.2, rfl⟩⟩
    · exact ⟨_, hcounted, rfl, .inl rfl⟩
  · exact ⟨_, hcounted, rfl, .inl rfl⟩

theorem Turns.trans {s s' : SidecarState} (h : Turns w s) (h' : Turns ⟨s, w.ledger⟩ s') : Turns w s' := by
  refine ⟨h'.tenant.trans h.tenant, h'.workload.trans h.workload, fun q hq => ?_⟩
  rcases h'.cached q hq with hq | htold
  · exact h.cached q hq
  · exact .inr (h.tenant ▸ htold)

theorem runCommitEstimated_steps (hread : ∀ s u, parseUuid s = some u → parseUuid u.text = some u)
    (w : World) (env : CallEnv) (p : LlmCallPostPayload) : ∃ s, Turns w s ∧ s.fencing = w.sidecar.fencing ∧
      ((runCommitEstimated parseUuid w env p).2 = ⟨s, w.ledger⟩ ∨ ∃ c a db, ClientCall parseUuid c ∧
        exec env.now c.body w.ledger = .ok (a, db) ∧ (runCommitEstimated parseUuid w env p).2 = ⟨s, db⟩) := by
  have hsame : Turns w w.sidecar := ⟨rfl, rfl, fun _ hq => .inl hq⟩
  cases hroute : routeCommit parseUuid p with
  | error e => exact ⟨_, hsame, rfl, .inl (by simp only [runCommitEstimated, hroute])⟩
  | ok reservation =>
    obtain ⟨cache, hturn, hcache⟩ := recoverReservationCtx_turns w env reservation
    cases hrecover : recoverReservationCtx w env reservation with
    | mk answer w₁ =>
      obtain rfl : w₁ = _ := hrecover ▸ hcache
      simp only [runCommitEstimated, hroute, hrecover]
      cases answer with
      | error e => exact ⟨_, hturn, rfl, .inl rfl⟩
      | ok ctx =>
        dsimp only [commitWithContext]
        split
        · exact ⟨_, hturn, rfl, .inl rfl⟩
        · next f n hcheck =>
          obtain ⟨s, hs, hfencing, hpost⟩ := postCommit_snd
            ⟨{ w.sidecar with reservationCache := cache }, w.ledger⟩ env reservation ctx f n
          refine ⟨s, hturn.trans hs, hfencing, hpost.imp_right ?_⟩
          rintro ⟨t, db, hexec, hw⟩
          have hcall : ClientCall parseUuid (.money (.commitEstimated (commitPost
              { w.sidecar with reservationCache := cache } env reservation ctx f n))) :=
            ⟨hread _ _ (routeCommit_parsed hroute), rfl⟩
          exact ⟨_, .posted t, db, hcall, exec_bind_eq_ok.mpr ⟨t, db, hexec, rfl⟩, hw⟩

end Steps

section Invariant

variable {parseUuid : String → Option Uuid} {w w' : World} {s : SidecarState} {c : LedgerCall}
  {a : LedgerReply} {now : ℕ} {db : Db}

theorem commitKey_inj {u v : Uuid} (hu : parseUuid u.text = some u) (hv : parseUuid v.text = some v)
    (h : commitKey u = commitKey v) : u = v := by
  have htext : u.text = v.text := (String.append_right_inj _).mp ((String.append_left_inj _).mp h)
  exact Option.some.inj ((hu.symm.trans (congrArg parseUuid htext)).trans hv)

theorem not_session_prefix (rest : String) :
    ¬ "session_".toList <+: ("commit_estimated:" ++ rest ++ ":1").toList := by
  rw [String.append_assoc, String.toList_append]
  intro h
  have hlen : "session_".toList.length ≤ "commit_estimated:".toList.length := by decide
  have hprefix := List.prefix_of_prefix_length_le h (List.prefix_append _ _) hlen
  exact absurd hprefix (by decide)

theorem World.Sound.turn (h : w.Sound parseUuid) (hs : Turns w s) : World.Sound parseUuid ⟨s, w.ledger⟩ := by
  refine ⟨fun q hq => ?_, h.settled⟩
  dsimp only
  rw [hs.tenant]
  exact (hs.cached q hq).elim (h.cached q) id

theorem commit_of_row {x : LedgerTransaction} {reservation : Uuid} (hc : ClientCall parseUuid c) (hx : c.Row x)
    (hkind : x.operationKind = .commitEstimated) (hparse : parseUuid reservation.text = some reservation)
    (hkey : x.idempotencyKey = commitKey reservation) :
    ∃ r, c = .money (.commitEstimated r) ∧ x.tenant = r.transaction.tenant ∧ r.reservation = reservation := by
  have hsession : ¬ SessionRow x := by
    intro hrow
    have hprefix := hrow.2
    rw [hkey] at hprefix
    exact not_session_prefix reservation.text hprefix
  cases c with
  | money c =>
    cases c with
    | post r =>
      obtain ⟨token, rfl⟩ := hx
      exact absurd hkind hc
    | commitEstimated r =>
      obtain ⟨token, rfl⟩ := hx
      exact ⟨r, rfl, rfl, commitKey_inj hc.1 hparse (hc.2.symm.trans hkey)⟩
    | providerReported r =>
      obtain ⟨token, rfl⟩ := hx
      cases hkind
    | invoiceReconciled r =>
      obtain ⟨token, rfl⟩ := hx
      cases hkind
    | release r =>
      obtain ⟨token, rfl⟩ := hx
      cases hkind
    | sessionReserve r => exact absurd hx hsession
    | sessionCommitDelta r => exact absurd hx hsession
    | sessionRelease reasonCode r => exact absurd hx hsession
    | sessionExpire r => exact absurd hx hsession
  | denied r =>
    obtain ⟨token, rfl⟩ := hx
    cases hkind
  | lease r => exact hx.elim
  | tombstone tenant => exact hx.elim
  | queryDecision tenant key => exact hx.elim

theorem World.Sound.ledger (h : w.Sound parseUuid) (hc : ClientCall parseUuid c)
    (hrun : exec now c.body w.ledger = .ok (a, db)) : World.Sound parseUuid ⟨w.sidecar, db⟩ := by
  have hx := LedgerCall.extends_of_exec hrun
  refine ⟨fun q hq => (h.cached q hq).extends hx, ?_⟩
  intro x hmem hkind reservation hparse hkey
  obtain ⟨rows, hrows, heq⟩ := hx.transactions
  dsimp only at hmem ⊢
  rw [heq] at hmem
  rcases List.mem_append.mp hmem with hold | hnew
  · exact (h.settled x hold hkind reservation hparse hkey).keeps hx.reservations
  · obtain ⟨r, rfl, htenant, rfl⟩ := commit_of_row hc (hrows x hnew) hkind hparse hkey
    obtain ⟨id, hexec⟩ := exec_map_eq_ok hrun
    rcases exec_postCommitEstimatedTransaction hexec with rfl | ⟨res, e, hcommitted⟩
    · -- a replay appends nothing
      rw [List.self_eq_append_right] at heq
      rw [heq] at hnew
      cases hnew
    · rw [htenant]
      exact hcommitted.isSettled

theorem CommitStep.parts {e : CommitEvent} (hread : ∀ s u, parseUuid s = some u → parseUuid u.text = some u)
    (h : CommitStep parseUuid w e w') : ∃ s, Turns w s ∧ (w' = ⟨s, w.ledger⟩ ∨
      ∃ now c a db, ClientCall parseUuid c ∧ exec now c.body w.ledger = .ok (a, db) ∧ w' = ⟨s, db⟩) := by
  cases h with
  | ledger hc h => exact ⟨_, ⟨rfl, rfl, fun _ hq => .inl hq⟩, .inr ⟨_, _, _, _, hc, h, rfl⟩⟩
  | turn h => exact ⟨_, h, .inl rfl⟩
  | @commit env p =>
    obtain ⟨s, hs, -, hparts⟩ := runCommitEstimated_steps hread w env p
    exact ⟨s, hs, hparts.imp_right fun ⟨c, a, db, hparts⟩ => ⟨_, c, a, db, hparts⟩⟩

theorem CommitStep.sound {e : CommitEvent} (hread : ∀ s u, parseUuid s = some u → parseUuid u.text = some u)
    (h : CommitStep parseUuid w e w') (hw : w.Sound parseUuid) : w'.Sound parseUuid := by
  obtain ⟨s, hs, rfl | ⟨now, c, a, db, hc, hrun, rfl⟩⟩ := h.parts hread
  · exact hw.turn hs
  · exact (hw.turn hs).ledger hc hrun

theorem World.Sound.along {tr : List (CommitEvent × World)}
    (hread : ∀ s u, parseUuid s = some u → parseUuid u.text = some u) (hw : w.Sound parseUuid)
    (hrun : Trace (CommitStep parseUuid) w tr) : ∀ v ∈ w :: tr.map Prod.snd, v.Sound parseUuid := by
  rw [List.forall_mem_cons, List.forall_mem_map]
  exact ⟨hw, hrun.always (fun _ _ _ hs hstep => hstep.sound hread hs) hw⟩

end Invariant

structure CommitRun (parseUuid : String → Option Uuid) (w : World) (env : CallEnv) (p : LlmCallPostPayload)
    (reservation : Uuid) (ctx : ReservationCtx) (f : ActiveFencing) (estimated : ℤ) (t : Uuid) (db : Db) :
    Prop where
  route : routeCommit parseUuid p = .ok reservation
  context : (recoverReservationCtx w env reservation).1 = .ok ctx
  passes : CommitPasses w.sidecar ctx p f estimated
  reachable : env.postReachable = true
  posted : commitEstimatedHandler env.now w.ledger (commitPost w.sidecar env reservation ctx f estimated) =
    .ok (t, db)

section Run

variable {parseUuid : String → Option Uuid} {w w' : World} {env : CallEnv} {p : LlmCallPostPayload}
  {reservation t : Uuid} {ctx : ReservationCtx} {f : ActiveFencing} {estimated : ℤ} {db : Db}

theorem commitWithContext_eq_ok (h : commitWithContext w env reservation ctx p = (.ok t, w')) :
    ∃ f estimated, CommitPasses w.sidecar ctx p f estimated ∧ env.postReachable = true ∧
      commitEstimatedHandler env.now w.ledger (commitPost w.sidecar env reservation ctx f estimated) =
        .ok (t, w'.ledger) := by
  unfold commitWithContext at h
  split at h
  · cases h
  · next f n hcheck =>
    unfold postCommit at h
    split at h
    · next hreach =>
      split at h
      · next id db hpost =>
        cases h
        exact ⟨f, n, checkCommit_eq_ok.mp hcheck, hreach, hpost⟩
      · cases h
    · cases h

theorem commitRun_of_ok (h : runCommitEstimated parseUuid w env p = (.ok t, w')) :
    ∃ reservation ctx f estimated, CommitRun parseUuid w env p reservation ctx f estimated t w'.ledger := by
  unfold runCommitEstimated at h
  split at h
  · cases h
  · next reservation hroute =>
    obtain ⟨cache, -, hcache⟩ := recoverReservationCtx_turns w env reservation
    split at h
    · cases h
    · next ctx w₁ hrecover =>
      rw [hrecover] at hcache
      subst hcache
      obtain ⟨f, n, hpasses, hreach, hpost⟩ := commitWithContext_eq_ok h
      exact ⟨reservation, ctx, f, n, hroute, by rw [hrecover], { hpasses with }, hreach, hpost⟩

theorem runCommitEstimated_cached (hroute : routeCommit parseUuid p = .ok reservation)
    (hcached : w.sidecar.reservationCache.lookup reservation = some ctx)
    (hpasses : CommitPasses w.sidecar ctx p f estimated) :
    runCommitEstimated parseUuid w env p = postCommit w env reservation ctx f estimated := by
  simp only [runCommitEstimated, hroute, recoverReservationCtx, hcached, commitWithContext,
    checkCommit_eq_ok.mpr hpasses]

theorem CommitRun.run (h : CommitRun parseUuid w env p reservation ctx f estimated t db) :
    ∃ w', runCommitEstimated parseUuid w env p = (.ok t, w') ∧ w'.ledger = db := by
  obtain ⟨cache, -, hcache⟩ := recoverReservationCtx_turns w env reservation
  have hcontext := h.context
  cases hrecover : recoverReservationCtx w env reservation with
  | mk answer w₁ =>
    rw [hrecover] at hcache hcontext
    cases hcontext
    subst hcache
    have hcheck : checkCommit { w.sidecar with reservationCache := cache } reservation ctx p = .ok (f, estimated) :=
      checkCommit_eq_ok.mpr { h.passes with }
    have hposted : commitEstimatedHandler env.now w.ledger (commitPost
      { w.sidecar with reservationCache := cache } env reservation ctx f estimated) = .ok (t, db) := h.posted
    simp only [runCommitEstimated, h.route, hrecover, commitWithContext, hcheck, postCommit, h.reachable,
      if_true, hposted]
    exact ⟨_, rfl, rfl⟩

theorem recoverReservationCtx_tells (hw : w.Sound parseUuid)
    (h : (recoverReservationCtx w env reservation).1 = .ok ctx) :
    Tells w.ledger w.sidecar.tenant reservation ctx := by
  unfold recoverReservationCtx at h
  split at h
  · next hcached =>
    cases h
    obtain ⟨before, after, hcache, -⟩ := List.lookup_eq_some_iff.mp hcached
    exact hw.cached (reservation, ctx) (by simp [hcache])
  · split at h
    · split at h
      · cases h
      · next hquery =>
        cases h
        exact tells_of_query hquery
    · cases h

end Run

/-- The ledger has recorded a commit of the reservation as the transaction `t`. -/
structure Recorded (tenant reservation : Uuid) (ctx : ReservationCtx) (estimated : ℤ) (t : Uuid) (db : Db) :
    Prop where
  told : Tells db tenant reservation ctx
  found : ∃ x, db.findTransaction tenant .commitEstimated (commitKey reservation) = some x ∧
    x.requestHash = commitRequestHash tenant reservation estimated ctx ∧ x.id = t

section Retry

variable {parseUuid : String → Option Uuid} {w w₁ : World} {env : CallEnv} {p : LlmCallPostPayload}
  {tenant reservation t : Uuid} {ctx : ReservationCtx} {f : ActiveFencing} {estimated : ℤ} {db db' : Db}

theorem Recorded.extends {c : LedgerCall} (h : Recorded tenant reservation ctx estimated t db)
    (hx : c.Extends db db') : Recorded tenant reservation ctx estimated t db' := by
  obtain ⟨x, hfind, hrest⟩ := h.found
  obtain ⟨rows, -, hrows⟩ := hx.transactions
  exact ⟨h.told.extends hx, x, find?_of_prefix ⟨rows, hrows.symm⟩ hfind, hrest⟩

theorem Recorded.along {tr : List (CommitEvent × World)}
    (hread : ∀ s u, parseUuid s = some u → parseUuid u.text = some u)
    (h : Recorded w.sidecar.tenant reservation ctx estimated t w.ledger)
    (hrun : Trace (CommitStep parseUuid) w tr) : ∀ v ∈ w :: tr.map Prod.snd,
      v.sidecar.tenant = w.sidecar.tenant ∧ v.sidecar.workload = w.sidecar.workload ∧
        Recorded v.sidecar.tenant reservation ctx estimated t v.ledger := by
  rw [List.forall_mem_cons, List.forall_mem_map]
  refine ⟨⟨rfl, rfl, h⟩, hrun.always (I := fun v => v.sidecar.tenant = w.sidecar.tenant ∧
    v.sidecar.workload = w.sidecar.workload ∧ Recorded v.sidecar.tenant reservation ctx estimated t v.ledger)
    ?_ ⟨rfl, rfl, h⟩⟩
  rintro v e v' ⟨htenant, hworkload, hrec⟩ hstep
  obtain ⟨s, hs, rfl | ⟨now, c, a, db, hc, hexec, rfl⟩⟩ := hstep.parts hread
  · exact ⟨hs.tenant.trans htenant, hs.workload.trans hworkload, hs.tenant ▸ hrec⟩
  · exact ⟨hs.tenant.trans htenant, hs.workload.trans hworkload,
      hs.tenant ▸ hrec.extends (LedgerCall.extends_of_exec hexec)⟩

theorem CommitRun.recorded (hw : w.Sound parseUuid)
    (h : CommitRun parseUuid w env p reservation ctx f estimated t db) :
    Recorded w.sidecar.tenant reservation ctx estimated t db := by
  have hexec := (commitEstimatedHandler_eq_ok.mp h.posted).2.2.2
  have hx : LedgerCall.Extends (.money (.commitEstimated (commitPost w.sidecar env reservation ctx f estimated)))
      w.ledger db := LedgerCall.extends_of_exec (exec_bind_eq_ok.mpr ⟨t, db, hexec, rfl⟩)
  exact ⟨(recoverReservationCtx_tells hw h.context).extends hx, exec_postCommitEstimated_found hexec⟩

/-- Of a recorded commit the ledger does not say any more that its reservation is reserved, so only a context
that is still in the cache gets a retry through to the ledger's answer. -/
theorem Recorded.retried_iff (hw : w.Sound parseUuid)
    (hread : ∀ s u, parseUuid s = some u → parseUuid u.text = some u)
    (hrec : Recorded w.sidecar.tenant reservation ctx estimated t w.ledger)
    (hroute : routeCommit parseUuid p = .ok reservation) (hpasses : CommitPasses w.sidecar ctx p f estimated)
    (hworkload : w.sidecar.workload ≠ "") (hepoch : f.epoch ≠ 0)
    (hpriced : ctx.pricing.version ≠ "" ∧ ctx.pricing.snapshotHash ≠ []) :
    (∃ w', runCommitEstimated parseUuid w env p = (.ok t, w') ∧
      ∀ a, w'.ledger.balance a = w.ledger.balance a) ↔
    env.postReachable = true ∧ ∃ c, w.sidecar.reservationCache.lookup reservation = some c ∧
      c.currentState = .reserved := by
  obtain ⟨x, hfind, hhash, hid⟩ := hrec.found
  constructor
  · rintro ⟨w', hrun, -⟩
    obtain ⟨reservation', c, f', n, hok⟩ := commitRun_of_ok hrun
    obtain rfl : reservation = reservation' := Except.ok.inj (hroute.symm.trans hok.route)
    refine ⟨hok.reachable, ?_⟩
    have hcontext := hok.context
    unfold recoverReservationCtx at hcontext
    split at hcontext
    · next hcached =>
      cases hcontext
      exact ⟨c, hcached, hok.passes.reserved⟩
    · split at hcontext
      · split at hcontext
        · cases hcontext
        · next hquery =>
          cases hcontext
          have hmatch := List.find?_some hfind
          simp only [decide_eq_true_eq] at hmatch
          obtain ⟨htenant, hkind, hkey⟩ := hmatch
          have hsettled := hw.settled x (List.mem_of_find?_eq_some hfind) hkind reservation
            (hread _ _ (routeCommit_parsed hroute)) hkey
          rw [htenant] at hsettled
          exact absurd hok.passes.reserved (state_of_query hquery hsettled)
      · cases hcontext
  · rintro ⟨hreach, c, hcached, hstate⟩
    have hcontext : (recoverReservationCtx w env reservation).1 = .ok c := by
      simp only [recoverReservationCtx, hcached]
    -- it is the context of the first commit, whose state was `reserved` as well
    obtain rfl : c = ctx := (recoverReservationCtx_tells hw hcontext).eq_of_state hrec.told
      (hstate.trans hpasses.reserved.symm)
    have hreplay : exec env.now (postCommitEstimatedTransaction
        (commitPost w.sidecar env reservation c f estimated)) w.ledger = .ok (t, w.ledger) :=
      (exec_postCommitEstimated_replay hfind).mpr ⟨hhash, hid, rfl⟩
    obtain ⟨w', hrun, hledger⟩ := CommitRun.run ⟨hroute, hcontext, hpasses, hreach,
      commitEstimatedHandler_eq_ok.mpr ⟨hworkload, hepoch, hpriced, hreplay⟩⟩
    exact ⟨w', hrun, fun a => by rw [hledger]⟩

end Retry

/-- From a sidecar with an empty cache and a ledger without transactions on, whatever happens: a commit that
has succeeded succeeds again with the same transaction, as long as the lease stays, exactly if the sidecar
reaches the ledger and has the reservation in its cache, as reserved. -/
theorem commit_retried_iff {parseUuid : String → Option Uuid} {w₀ w w₁ w₂ : World}
    {tr tr' : List (CommitEvent × World)} {env : CallEnv} {p : LlmCallPostPayload} {t : Uuid}
    (hread : ∀ s u, parseUuid s = some u → parseUuid u.text = some u)
    (hcache : w₀.sidecar.reservationCache = []) (hledger : w₀.ledger.transactions = [])
    (hbefore : Trace (CommitStep parseUuid) w₀ tr) (hw : w ∈ w₀ :: tr.map Prod.snd)
    (hfirst : runCommitEstimated parseUuid w env p = (.ok t, w₁))
    (hafter : Trace (CommitStep parseUuid) w₁ tr') (hw₂ : w₂ ∈ w₁ :: tr'.map Prod.snd)
    (hlease : w₂.sidecar.fencing = w₁.sidecar.fencing) (env' : CallEnv) :
    (∃ w₃, runCommitEstimated parseUuid w₂ env' p = (.ok t, w₃) ∧
      ∀ a, w₃.ledger.balance a = w₂.ledger.balance a) ↔
    env'.postReachable = true ∧ ∃ reservation ctx, parseUuid p.reservation = some reservation ∧
      w₂.sidecar.reservationCache.lookup reservation = some ctx ∧ ctx.currentState = .reserved := by
  have hstart : w₀.Sound parseUuid := ⟨by simp [hcache], by simp [hledger]⟩
  have hsound := hstart.along hread hbefore w hw
  obtain ⟨reservation, ctx, f, n, hok⟩ := commitRun_of_ok hfirst
  have hstep : CommitStep parseUuid w (.commit env p) w₁ := by
    have hcommit : CommitStep parseUuid w (.commit env p) (runCommitEstimated parseUuid w env p).2 := .commit
    rwa [hfirst] at hcommit
  have hsound₂ := (hstep.sound hread hsound).along hread hafter w₂ hw₂
  obtain ⟨s, hturns, hfencing, hparts⟩ := runCommitEstimated_steps hread w env p
  rw [hfirst] at hparts
  have hs : w₁.sidecar = s := by
    obtain hw₁ | ⟨c, a, db, -, -, hw₁⟩ := hparts
    · exact congrArg World.sidecar hw₁
    · exact congrArg World.sidecar hw₁
  rw [← hs] at hturns hfencing
  obtain ⟨htenant₂, hworkload₂, hrec₂⟩ :=
    Recorded.along hread (hturns.tenant ▸ hok.recorded hsound) hafter w₂ hw₂
  obtain ⟨hworkload, hepoch, hpriced, -⟩ := commitEstimatedHandler_eq_ok.mp hok.posted
  have hpasses : CommitPasses w₂.sidecar ctx p f n :=
    { hok.passes with fencing := (hlease.trans hfencing).trans hok.passes.fencing }
  rw [hrec₂.retried_iff hsound₂ hread hok.route hpasses ((hworkload₂.trans hturns.workload) ▸ hworkload) hepoch
    hpriced, routeCommit_parsed hok.route]
  simp

section Runs

def retriedPricing : PricingSnapshot := ⟨"p1", [1], "fx1", "uc1"⟩

def retriedReserve : ReserveSet :=
  ⟨openArgs 2 10 "sidecar-1", [⟨⟨2, []⟩, ⟨3, []⟩, ⟨4, []⟩, 8⟩], ⟨"p1", [1], some "fx1", some "uc1"⟩, .infinity,
    ⟨⟨502, []⟩, .decision, 2⟩, none⟩

def retriedDeposit : OpeningDeposit :=
  ⟨openArgs 1 11 "webhook-1", ⟨2, []⟩, ⟨3, []⟩, ⟨4, []⟩, 20, retriedReserve.pricing, ⟨⟨501, []⟩, .decision, 1⟩⟩

def retriedReservation : Uuid := deriveReservationId ⟨202, []⟩ 0

def retriedLease : ActiveFencing := ⟨⟨10, []⟩, 1, 1000⟩

def retriedContext : ReservationCtx :=
  ⟨⟨4, []⟩, 8, retriedPricing, ⟨10, []⟩, 1, ⟨202, []⟩, .reserved⟩

def startLedger : Db := { openLedger with pricingSnapshots := [retriedPricing] }

def startSidecar : SidecarState := ⟨⟨1, []⟩, "sidecar-1", some retriedLease, [], [], 2⟩

def ledgerAfter (db : Db) (c : LedgerCall) : Db := ((exec 0 c.body db).toOption.map Prod.snd).getD db

def depositCall : LedgerCall := .money (.post retriedDeposit.post)

def reserveCall : LedgerCall := .money (.post retriedReserve.post)

def reservedLedger : Db := ledgerAfter (ledgerAfter startLedger depositCall) reserveCall

def reservedWorld : World :=
  ⟨{ startSidecar with reservationCache := [(retriedReservation, retriedContext)] }, reservedLedger⟩

def parseRetried (s : String) : Option Uuid := if s = retriedReservation.text then some retriedReservation else none

def retriedPayload : LlmCallPostPayload := ⟨retriedReservation.text, "", none, none, .success, "5"⟩

def retriedEnv (n : ℕ) : CallEnv := ⟨0, true, true, ⟨100 + n, []⟩, ⟨300 + n, []⟩⟩

def committedWorld : World :=
  (postCommit reservedWorld (retriedEnv 3) retriedReservation retriedContext retriedLease 5).2

theorem parseRetried_text : ∀ s u, parseRetried s = some u → parseRetried u.text = some u := by
  intro s u h
  unfold parseRetried at h
  split at h
  · cases h
    exact if_pos rfl
  · cases h

theorem exec_ledgerAfter {db : Db} {c : LedgerCall} (h : (exec 0 c.body db).isOk = true) :
    ∃ a, exec 0 c.body db = .ok (a, ledgerAfter db c) := by
  obtain ⟨p, hp⟩ := isOk_iff_exists.mp h
  refine ⟨p.1, ?_⟩
  rw [ledgerAfter, hp]
  rfl

theorem reservedWorld_reached : Trace (CommitStep parseRetried) ⟨startSidecar, startLedger⟩
    [(.ledger 0 depositCall, ⟨startSidecar, ledgerAfter startLedger depositCall⟩),
      (.ledger 0 reserveCall, ⟨startSidecar, reservedLedger⟩),
      (.turn reservedWorld.sidecar, reservedWorld)] := by
  have hdeposit : (exec 0 depositCall.body startLedger).isOk = true := by decide +kernel
  have hreserve : (exec 0 reserveCall.body (ledgerAfter startLedger depositCall)).isOk = true := by
    decide +kernel
  have hfacts : reservationFacts reservedLedger ⟨1, []⟩ retriedReservation = some retriedContext := by
    decide +kernel
  obtain ⟨_, hdeposit⟩ := exec_ledgerAfter hdeposit
  obtain ⟨_, hreserve⟩ := exec_ledgerAfter hreserve
  refine .cons (.ledger nofun hdeposit) (.cons (.ledger nofun hreserve) (.cons (.turn ⟨rfl, rfl, ?_⟩) (.nil _)))
  intro q hq
  obtain rfl := List.mem_singleton.mp hq
  exact .inr ⟨retriedContext, hfacts, rfl⟩

theorem retriedPayload_routed : routeCommit parseRetried retriedPayload = .ok retriedReservation := by
  decide +kernel

theorem retriedContext_passes : CommitPasses reservedWorld.sidecar retriedContext retriedPayload retriedLease 5 :=
  ⟨rfl, rfl, rfl, nofun, nofun, Int.toInt?_repr 5, by decide, by decide⟩

theorem retriedPayload_committed : runCommitEstimated parseRetried reservedWorld (retriedEnv 3) retriedPayload =
    (.ok ⟨103, []⟩, committedWorld) := by
  rw [runCommitEstimated_cached retriedPayload_routed rfl retriedContext_passes]
  have hanswer : (postCommit reservedWorld (retriedEnv 3) retriedReservation retriedContext retriedLease 5).1 =
      .ok ⟨103, []⟩ := by decide +kernel
  exact Prod.ext hanswer rfl

/-- The same payload right after the first success, with the lease and the ledger in place: the sidecar finds
the reservation committed, and refuses before the ledger can answer with the transaction it has. -/
theorem retry_of_commit_refused :
    (∃ tr, Trace (CommitStep parseRetried) ⟨startSidecar, startLedger⟩ tr ∧ reservedWorld ∈ tr.map Prod.snd) ∧
    runCommitEstimated parseRetried reservedWorld (retriedEnv 3) retriedPayload =
      (.ok ⟨103, []⟩, committedWorld) ∧
    committedWorld.sidecar.fencing = reservedWorld.sidecar.fencing ∧
    (runCommitEstimated parseRetried committedWorld (retriedEnv 4) retriedPayload).1 =
      .error (.reservationStateConflict ("reservation " ++ retriedReservation.text ++
        " current_state=committed (expected reserved)")) :=
  ⟨⟨_, reservedWorld_reached, by simp⟩, retriedPayload_committed, by decide +kernel, by decide +kernel⟩

/-- A call that has read the context before the first commit puts it back into the cache after it: now the
retry is answered with the first transaction. -/
theorem retry_answered_from_cache :
    ∃ w₃, runCommitEstimated parseRetried ⟨{ committedWorld.sidecar with
        reservationCache := [(retriedReservation, retriedContext)] }, committedWorld.ledger⟩ (retriedEnv 4)
        retriedPayload = (.ok ⟨103, []⟩, w₃) ∧
      ∀ a, w₃.ledger.balance a = committedWorld.ledger.balance a := by
  let s := { committedWorld.sidecar with reservationCache := [(retriedReservation, retriedContext)] }
  have hfacts : reservationFacts committedWorld.ledger committedWorld.sidecar.tenant retriedReservation =
      some { retriedContext with currentState := .committed } := by decide +kernel
  have hturn : Turns committedWorld s := by
    refine ⟨rfl, rfl, ?_⟩
    intro q hq
    obtain rfl := List.mem_singleton.mp hq
    exact .inr ⟨_, hfacts, rfl⟩
  have hafter : Trace (CommitStep parseRetried) committedWorld [(.turn s, ⟨s, committedWorld.ledger⟩)] :=
    .cons (.turn hturn) (.nil _)
  have hlast : (⟨s, committedWorld.ledger⟩ : World) ∈ committedWorld ::
      [(CommitEvent.turn s, (⟨s, committedWorld.ledger⟩ : World))].map Prod.snd := by simp
  apply (commit_retried_iff parseRetried_text rfl rfl reservedWorld_reached (by simp) retriedPayload_committed
    hafter hlast rfl (retriedEnv 4)).mpr
  exact ⟨rfl, retriedReservation, retriedContext, if_pos rfl, rfl, rfl⟩

end Runs

end SpendGuard.Sidecar
