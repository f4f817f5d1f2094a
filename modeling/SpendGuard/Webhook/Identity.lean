import SpendGuard.Ledger.Conservation
import SpendGuard.Webhook.Receiver

/-!
Which deliveries are given one ledger transaction.  The ledger knows an event by its provenance, in which the account
and the event id are joined by a colon, and a delivery by its hash, in which the parts of the pricing are joined by
nothing.
-/

namespace SpendGuard.Webhook

open Base Base.Proc Ledger

abbrev System (ι : Type) := Config ι Tables ReceiverLock PgError ReceiverReply ReceiverCall Answer

section Runs

variable {ι : Type} {R : Receiver} {requests : ι → Option HttpRequest} {g g' : System ι}

/-- Nothing is cached, and no two transactions have one id or stand under one key. -/
structure Starts (R : Receiver) (requests : ι → Option HttpRequest) (g : System ι) : Prop where
  delivery : ∀ i req, requests i = some req → ∃ env, g.session i = .client (handleWebhook R env req)
  other : ∀ i, requests i = none → ∃ c : Handler, g.session i = .client c ∧ c.Calls fun c => ∃ c', c = .ledger c'
  cache : g.committed.dedupe = []
  ids : g.committed.ledger.transactions.Pairwise fun x y => x.id ≠ y.id
  keys : g.committed.ledger.transactions.Pairwise fun x y => ¬y.Under x.tenant x.operationKind x.idempotencyKey

section Rows

variable {q : LedgerTransaction → Prop} [DecidablePred q] {l : Lock}

theorem ReceiverCall.guarded_rows {t : ℕ} (hq : Sole q l) (c : ReceiverCall) :
    Guarded (ReceiverLock.ledger l) (Db.rows q ∘ Tables.ledger) (fun _ => FirstRow) t c.body := by
  cases c with
  | lookup event => exact Quiet.guarded (Writes.bind (by simp) fun _ => by simp).map t
  | insert row =>
    apply Quiet.guarded
    apply Writes.map
    refine .bind (by simp) fun _ => .bind (by simp) fun t => ?_
    split
    · simp
    · exact .bind (writes_write.mpr fun _ => rfl) fun _ => by simp
  | lookupLedgerTx tenant op key => exact Quiet.guarded (Writes.bind (by simp) fun _ => by simp).map t
  | ledger c => exact ((c.guarded_rows hq).zoom (fun _ _ => rfl) fun _ _ h => ReceiverLock.ledger.inj h).map

theorem Starts.clients (hg : Starts R requests g) (i : ι) : ∃ c, g.session i = .client c := by
  cases hi : requests i with
  | none =>
    obtain ⟨c, hc, -⟩ := hg.other i hi
    exact ⟨c, hc⟩
  | some req =>
    obtain ⟨env, henv⟩ := hg.delivery i req hi
    exact ⟨_, henv⟩

theorem Starts.row_unique [DecidableEq ι] (hg : Starts R requests g)
    (hrun : Config.Run ReceiverCall.body (fun _ _ => True) g g') (hq : Sole q l)
    {r : LedgerTransaction → LedgerTransaction → Prop} (hr : g.committed.ledger.transactions.Pairwise r)
    (hexcl : ∀ x y, q x → q y → ¬r x y) {x y : LedgerTransaction} (hx : .transaction x ∈ g'.committed.facts)
    (hy : .transaction y ∈ g'.committed.facts) (hqx : q x) (hqy : q y) : x = y := by
  obtain ⟨T, htimed, -⟩ := (Config.guarded_of_clients hg.clients).run
    (fun c t => c.guarded_rows hq) (R := fun _ _ => FirstRow) (fun _ _ _ _ _ h => h) hrun
  have hlen : (g'.committed.ledger.rows q).length ≤ 1 := by
    apply htimed.invariant (I := fun _ x => x.length ≤ 1)
    · rintro _ _ _ _ _ - - ⟨-, row, rfl⟩
      rfl
    · have hpair : (g.committed.ledger.rows q).Pairwise r := hr.filter _
      have hmem : ∀ z ∈ g.committed.ledger.rows q, q z := fun z hz => of_decide_eq_true (List.mem_filter.mp hz).2
      change (g.committed.ledger.rows q).length ≤ 1
      match hrows : g.committed.ledger.rows q with
      | [] => exact Nat.zero_le 1
      | [_] => exact Nat.le_refl 1
      | a :: b :: rest =>
        rw [hrows] at hpair hmem
        exact absurd (List.rel_of_pairwise_cons hpair List.mem_cons_self) (hexcl a b (hmem a (by simp)) (hmem b (by simp)))
  have hrow {z : LedgerTransaction} (hz : .transaction z ∈ g'.committed.facts) (hqz : q z) :
      z ∈ g'.committed.ledger.rows q := List.mem_filter.mpr ⟨hz, decide_eq_true hqz⟩
  match hrows : g'.committed.ledger.rows q with
  | [] => simpa [hrows] using hrow hx hqx
  | [z] =>
    have hxz := hrow hx hqx
    have hyz := hrow hy hqy
    rw [hrows, List.mem_singleton] at hxz hyz
    exact hxz.trans hyz.symm
  | a :: b :: rest => simp [hrows] at hlen

end Rows

variable (R requests) in
def Delivered (i : ι) (b : Answer) (F : Set Fact) : Prop :=
  ∀ req tx outcome, requests i = some req → b = .ok (tx, outcome) → ∃ d, receive R req = .ok d ∧ Backed d tx F

theorem Delivered.mono {i : ι} {b : Answer} {F F' : Set Fact} (hF : F ⊆ F') (h : Delivered R requests i b F) :
    Delivered R requests i b F' := by
  intro req tx outcome hreq hb
  obtain ⟨d, hd, hbacked⟩ := h req tx outcome hreq hb
  exact ⟨d, hd, hbacked.mono hF⟩

theorem sure_of_ledgerCalls {G : Answer → Set Fact → Prop} {F : Set Fact} {c : Handler}
    (hc : c.Calls fun c => ∃ c', c = .ledger c') (hG : ∀ b F, G b F) : c.Sure (knowledge R) G F := by
  induction c generalizing F with
  | done b => exact hG b F
  | call c n ih =>
    obtain ⟨⟨c', rfl⟩, hnext⟩ := hc
    exact ⟨trivial, fun r F' _ _ _ => ih r (hnext r)⟩

section Identified

variable (hsha : Function.Injective R.sha256)
  (hparse : ∀ s u, R.parseUuid s = some u → RequestHash.UuidText (utf8 s))

include hsha hparse

theorem sure_handleWebhook {i : ι} {req : HttpRequest} {env : DeliveryEnv} {F : Set Fact}
    (hi : requests i = some req) : (handleWebhook R env req).Sure (knowledge R) (Delivered R requests i) F := by
  unfold handleWebhook
  split
  · next d hd =>
    apply (sure_deliver hsha hparse).imp
    intro b F h req' tx outcome hreq hb
    cases hi.symm.trans hreq
    exact ⟨d, hd, h tx outcome hb⟩
  · intro _ _ _ _ hb
    cases hb

theorem Starts.sure (hg : Starts R requests g) : g.Sure (knowledge R) (Delivered R requests) where
  inv row hrow := by
    have hnil : row ∈ g.committed.dedupe := hrow
    rw [hg.cache] at hnil
    exact absurd hnil List.not_mem_nil
  session i := by
    cases hi : requests i with
    | none =>
      obtain ⟨c, hc, hcalls⟩ := hg.other i hi
      rw [hc]
      refine sure_of_ledgerCalls hcalls fun b F req tx outcome hreq => ?_
      cases hi.symm.trans hreq
    | some req =>
      obtain ⟨env, henv⟩ := hg.delivery i req hi
      rw [henv]
      exact sure_handleWebhook hsha hparse hi

theorem Starts.backed [DecidableEq ι] (hg : Starts R requests g)
    (hrun : Config.Run ReceiverCall.body (fun _ _ => True) g g') {i : ι} {req : HttpRequest} {tx : Uuid}
    {outcome : String} (hi : requests i = some req) (hdone : g'.session i = .client (.done (.ok (tx, outcome)))) :
    ∃ d, receive R req = .ok d ∧ Backed d tx g'.committed.facts := by
  have hsure := (hg.sure hsha hparse).run (fun _ _ _ _ hF h => h.mono hF) ReceiverCall.writes_adds
    ReceiverCall.shows_tells hrun
  have hresult := hsure.session i
  rw [hdone] at hresult
  exact hresult req tx outcome hi rfl

end Identified

def Delivery.SameTerms (d d' : Delivery R) : Prop :=
  d.reservationId = d'.reservationId ∧ d.amount = d'.amount ∧ d.unitId = d'.unitId ∧ d.pricing = d'.pricing

/-- Their names are cut at the same place, and for one event the parts of the pricing too. -/
def Delivery.SameCuts (d d' : Delivery R) : Prop :=
  (d.kind = d'.kind → d.name = d'.name → d.providerAccount = d'.providerAccount) ∧
    (d.event = d'.event → d.pricing.cut = d'.pricing.cut)

theorem EventKind.operation_inj {k k' : EventKind} (h : k.operation = k'.operation) : k = k' := by
  cases k <;> cases k' <;> first | rfl | cases h

theorem Delivery.name_of_event {d d' : Delivery R} (h : d.event = d'.event) : d.name = d'.name := by
  have haccount : d.providerAccount = d'.providerAccount := congrArg EventKey.providerAccount h
  have hid : d.providerEventId = d'.providerEventId := congrArg EventKey.providerEventId h
  rw [Delivery.name, Delivery.name, haccount, hid]

/-- Two answered deliveries of one tenant get one transaction exactly when they are one event, and are then about the
same terms, if and only if their texts are cut at the same places. -/
theorem identified_iff_sameCuts [DecidableEq ι] (hsha : Function.Injective R.sha256)
    (hparse : ∀ s u, R.parseUuid s = some u → RequestHash.UuidText (utf8 s)) (hg : Starts R requests g)
    (hrun : Config.Run ReceiverCall.body (fun _ _ => True) g g') {i j : ι} {req req' : HttpRequest} {tx tx' : Uuid}
    {outcome outcome' : String} (hi : requests i = some req) (hj : requests j = some req')
    (hdone : g'.session i = .client (.done (.ok (tx, outcome))))
    (hdone' : g'.session j = .client (.done (.ok (tx', outcome')))) :
    ∃ d d', receive R req = .ok d ∧ receive R req' = .ok d' ∧ (d.tenant = d'.tenant →
      (((tx = tx' ↔ d.event = d'.event) ∧ (d.event = d'.event → d.SameTerms d')) ↔ d.SameCuts d')) := by
  obtain ⟨d, hd, x, hx, hunder, hhash, hid⟩ := hg.backed hsha hparse hrun hi hdone
  obtain ⟨d', hd', x', hx', hunder', hhash', hid'⟩ := hg.backed hsha hparse hrun hj hdone'
  refine ⟨d, d', hd, hd', fun htenant => ?_⟩
  -- one id, one row; one kind and one name, one row
  have hnamed (htx : tx = tx') : x = x' := by
    apply hg.row_unique hrun (sole_named tx) hg.ids (fun _ _ h h' hne => hne (h.1.trans h'.1.symm)) hx hx'
    · exact ⟨hid, hunder.2.2 ▸ not_sessionKey_provenance d⟩
    · exact ⟨hid'.trans htx.symm, hunder'.2.2 ▸ not_sessionKey_provenance d'⟩
  have hkeyed (hkind : d.kind = d'.kind) (hname : d.name = d'.name) : x = x' := by
    apply hg.row_unique hrun (sole_under (not_sessionKey_provenance d)) hg.keys _ hx hx' hunder
    · rw [htenant, hkind, (provenance_inj hkind).mpr hname]
      exact hunder'
    · intro y z hy hz hne
      exact hne ⟨hz.1.trans hy.1.symm, hz.2.1.trans hy.2.1.symm, hz.2.2.trans hy.2.2.symm⟩
  have hrow (heq : x = x') : d.kind = d'.kind ∧ d.name = d'.name := by
    subst heq
    have hkind := EventKind.operation_inj (hunder.2.1.symm.trans hunder'.2.1)
    exact ⟨hkind, (provenance_inj hkind).mp (hunder.2.2.symm.trans hunder'.2.2)⟩
  have hevent (heq : d.event = d'.event) : x = x' :=
    hkeyed (congrArg EventKey.eventKind heq) (Delivery.name_of_event heq)
  constructor
  · rintro ⟨hiff, hterms⟩
    refine ⟨fun hkind hname => ?_, fun heq => congrArg _ (hterms heq).2.2.2⟩
    have htx : tx = tx' := hid.symm.trans ((congrArg LedgerTransaction.id (hkeyed hkind hname)).trans hid')
    exact congrArg EventKey.providerAccount (hiff.mp htx)
  · rintro ⟨haccount, hcut⟩
    refine ⟨⟨fun htx => ?_, fun heq => ?_⟩, fun heq => ?_⟩
    · obtain ⟨hkind, hname⟩ := hrow (hnamed htx)
      exact event_of_name hkind hname (haccount hkind hname)
    · exact hid.symm.trans ((congrArg LedgerTransaction.id (hevent heq)).trans hid')
    · have hhashes : d.canonicalHash = d'.canonicalHash :=
        hhash.symm.trans ((congrArg LedgerTransaction.requestHash (hevent heq)).trans hhash')
      obtain ⟨-, hreservation, hamount, hunit, hbytes⟩ :=
        canonicalHash_inj hsha hparse (congrArg EventKey.eventKind heq) hhashes
      exact ⟨hreservation, hamount, hunit, (RequestHash.PricingFreeze.append_inj (hcut heq) hbytes).1⟩

end Runs

def samplePricing : Pricing := ⟨"p1", [1], some "1", some "23"⟩

def sampleLedger : Db :=
  let calls : List HoldCall :=
    [.deposit ⟨openArgs 1 11 "webhook-1", ⟨2, []⟩, ⟨3, []⟩, ⟨4, []⟩, 20, samplePricing, ⟨⟨501, []⟩, .decision, 1⟩⟩,
      .reserve ⟨openArgs 2 10 "sidecar-1", [⟨⟨2, []⟩, ⟨3, []⟩, ⟨4, []⟩, 8⟩], samplePricing, .infinity,
        ⟨⟨502, []⟩, .decision, 2⟩, none⟩,
      .other (.commitEstimated { openCommit 3 10 "sidecar-1" 5 with pricing := samplePricing }) rfl]
  let opened : Db := { openLedger with pricingSnapshots := [⟨"p1", [1], "1", "23"⟩] }
  (calls.foldlM (fun db (c : HoldCall) => c.money.run 0 db) opened).toOption.getD opened

def sampleIds : List (String × Uuid) :=
  [("00000000-0000-0000-0000-000000000001", ⟨1, []⟩), ("00000000-0000-0000-0000-000000000004", ⟨4, []⟩),
    ("00000000-0000-0000-0000-0000000000ca", deriveReservationId ⟨202, []⟩ 0)]

def sampleBody (account event fx conversion : String) : WebhookBody where
  eventKind := "provider_report"
  tenantId := "00000000-0000-0000-0000-000000000001"
  providerAccount := account
  providerEventId := event
  reservationId := "00000000-0000-0000-0000-0000000000ca"
  amountAtomic := "6"
  unitId := "00000000-0000-0000-0000-000000000004"
  pricing := ⟨"p1", "01", fx, conversion⟩

def sampleReceiver : Receiver where
  hmac _ := [0]
  readBody
    | [0] => .ok (sampleBody "a:b" "c" "1" "23")
    | [1] => .ok (sampleBody "a" "b:c" "1" "23")
    | [2] => .ok (sampleBody "a:b" "c" "12" "3")
    | [3] => .ok (sampleBody "a:b" "c" "1" "23")
    | _ => .error "EOF while parsing a value"
  parseUuid s := sampleIds.lookup s
  sha256 := id
  deriveDecisionId _ := ⟨800, []⟩
  fencingScope := ⟨11, []⟩
  fencingEpoch := 1
  workload := "webhook-1"

def sampleRequest (n : Fin 4) : HttpRequest := ⟨"mock-llm", some "00", [UInt8.ofNat n]⟩

def sampleEnv (n : Fin 4) : DeliveryEnv where
  lookup := .answered
  ledger := .answered
  relookup := .answered
  ledgerTx := .answered
  heal := .answered
  insert := .answered
  transaction := ⟨900 + n, []⟩
  auditEvent := ⟨950 + n, []⟩
  sequence := 10 + n
  decisionRow := ⟨none, none, none, none, none⟩
  outcomeRow := ⟨none, none, none, none, none⟩
  refusal e := .status e.message

def sampleSystem : System (Fin 4) where
  committed := ⟨sampleLedger, []⟩
  clock := 0
  session n := .client (handleWebhook sampleReceiver (sampleEnv n) (sampleRequest n))

def sampleEnd : System (Fin 4) :=
  sampleSystem.play ReceiverCall.body ([0, 1, 2, 3].flatMap fun n => List.replicate 80 (.session n))

theorem sampleSystem_starts : Starts sampleReceiver (fun n => some (sampleRequest n)) sampleSystem where
  delivery := by
    rintro n _ ⟨⟩
    exact ⟨sampleEnv n, rfl⟩
  other := nofun
  cache := rfl
  ids := by decide +kernel
  keys := by decide +kernel

theorem sampleReceiver_reads {n : Fin 4} {β : Type} {f : Delivery sampleReceiver → β} {b : β}
    (h : (receive sampleReceiver (sampleRequest n)).toOption.map f = some b) :
    ∃ d, receive sampleReceiver (sampleRequest n) = .ok d ∧ f d = b := by
  obtain ⟨d, hd, hb⟩ := Option.map_eq_some_iff.mp h
  exact ⟨d, toOption_eq_some.mp hd, hb⟩

theorem sampleReceiver_parses (s : String) (u : Uuid) (h : sampleReceiver.parseUuid s = some u) :
    RequestHash.UuidText (utf8 s) := by
  obtain ⟨before, after, hsplit, -⟩ := List.lookup_eq_some_iff.mp h
  have hmem : (s, u) ∈ sampleIds := by
    rw [hsplit]
    exact List.mem_append_right _ List.mem_cons_self
  have htexts : ∀ p ∈ sampleIds, RequestHash.Hyphenated (utf8 p.1) := by decide +kernel
  exact .hyphenated (htexts _ hmem)

/-- The event `c` of the account `a:b` and the event `b:c` of the account `a` are given one transaction; and so is a
delivery of the first event whose rate and conversion are named otherwise. -/
theorem collision_of_names_and_pricing :
    Function.Injective sampleReceiver.sha256 ∧
    Starts sampleReceiver (fun n => some (sampleRequest n)) sampleSystem ∧
    Config.Run ReceiverCall.body (fun _ _ => True) sampleSystem sampleEnd ∧
    (sampleEnd.session 0).answer? = some (.ok (⟨900, []⟩, "success")) ∧
    (sampleEnd.session 1).answer? = some (.ok (⟨900, []⟩, "replay")) ∧
    (sampleEnd.session 2).answer? = some (.ok (⟨900, []⟩, "replay")) ∧
    ∃ d₀ d₁ d₂ : Delivery sampleReceiver, receive sampleReceiver (sampleRequest 0) = .ok d₀ ∧
      receive sampleReceiver (sampleRequest 1) = .ok d₁ ∧ receive sampleReceiver (sampleRequest 2) = .ok d₂ ∧
      d₀.tenant = d₁.tenant ∧ d₀.tenant = d₂.tenant ∧
      d₀.event ≠ d₁.event ∧ d₀.event = d₂.event ∧ d₀.pricing ≠ d₂.pricing := by
  obtain ⟨d₀, h₀, hd₀⟩ := sampleReceiver_reads (n := 0) (f := fun d => (d.tenant, d.event, d.pricing))
    (b := (⟨1, []⟩, ⟨"mock-llm", .providerReport, "a:b", "c"⟩, ⟨"p1", [1], "1", "23"⟩)) (by decide +kernel)
  obtain ⟨d₁, h₁, hd₁⟩ := sampleReceiver_reads (n := 1) (f := fun d => (d.tenant, d.event, d.pricing))
    (b := (⟨1, []⟩, ⟨"mock-llm", .providerReport, "a", "b:c"⟩, ⟨"p1", [1], "1", "23"⟩)) (by decide +kernel)
  obtain ⟨d₂, h₂, hd₂⟩ := sampleReceiver_reads (n := 2) (f := fun d => (d.tenant, d.event, d.pricing))
    (b := (⟨1, []⟩, ⟨"mock-llm", .providerReport, "a:b", "c"⟩, ⟨"p1", [1], "12", "3"⟩)) (by decide +kernel)
  simp only [Prod.mk.injEq] at hd₀ hd₁ hd₂
  refine ⟨fun _ _ h => h, sampleSystem_starts, Config.play_run _, by decide +kernel, by decide +kernel,
    by decide +kernel, d₀, d₁, d₂, h₀, h₁, h₂, hd₀.1.trans hd₁.1.symm, hd₀.1.trans hd₂.1.symm, ?_,
    hd₀.2.1.trans hd₂.2.1.symm, ?_⟩
  · rw [hd₀.2.1, hd₁.2.1]
    decide
  · rw [hd₀.2.2, hd₂.2.2]
    decide

/-- The event `c` of the account `a:b` comes a second time. -/
theorem redelivery_identified :
    (sampleEnd.session 3).answer? = some (.ok (⟨900, []⟩, "replay")) ∧
    ∃ d d' : Delivery sampleReceiver, receive sampleReceiver (sampleRequest 0) = .ok d ∧
      receive sampleReceiver (sampleRequest 3) = .ok d' ∧ d.tenant = d'.tenant ∧ d.SameCuts d' ∧
      d.event = d'.event ∧ d.SameTerms d' := by
  have hanswer : (sampleEnd.session 3).answer? = some (.ok (⟨900, []⟩, "replay")) := by decide +kernel
  have hfirst : (sampleEnd.session 0).answer? = some (.ok (⟨900, []⟩, "success")) := by decide +kernel
  refine ⟨hanswer, ?_⟩
  have hrun : Config.Run ReceiverCall.body (fun _ _ => True) sampleSystem sampleEnd := Config.play_run _
  obtain ⟨d, d', hd, hd', hiff⟩ := identified_iff_sameCuts (fun _ _ h => h) sampleReceiver_parses
    sampleSystem_starts hrun (i := 0) (j := 3) rfl rfl
    (Session.eq_of_answer? hfirst) (Session.eq_of_answer? hanswer)
  obtain ⟨e, he, hview⟩ := sampleReceiver_reads (n := 0) (f := fun d => (d.tenant, d.event, d.pricing))
    (b := (⟨1, []⟩, ⟨"mock-llm", .providerReport, "a:b", "c"⟩, ⟨"p1", [1], "1", "23"⟩)) (by decide +kernel)
  obtain ⟨e', he', hview'⟩ := sampleReceiver_reads (n := 3) (f := fun d => (d.tenant, d.event, d.pricing))
    (b := (⟨1, []⟩, ⟨"mock-llm", .providerReport, "a:b", "c"⟩, ⟨"p1", [1], "1", "23"⟩)) (by decide +kernel)
  cases hd.symm.trans he
  cases hd'.symm.trans he'
  simp only [Prod.mk.injEq] at hview hview'
  have htenant := hview.1.trans hview'.1.symm
  have hcuts : d.SameCuts d' := by
    have hevent := hview.2.1.trans hview'.2.1.symm
    refine ⟨fun _ _ => congrArg EventKey.providerAccount hevent, fun _ => ?_⟩
    rw [hview.2.2, hview'.2.2]
  obtain ⟨htx, hterms⟩ := (hiff htenant).mpr hcuts
  exact ⟨d, d', hd, hd', htenant, hcuts, htx.mp rfl, hterms (htx.mp rfl)⟩

end SpendGuard.Webhook
