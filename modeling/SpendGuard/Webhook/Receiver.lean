import SpendGuard.Base.Facts
import SpendGuard.Base.Schedule
import SpendGuard.Webhook.Delivery

/-!
The webhook receiver next to the ledger: its handlers look the event up in the replay cache, post to the ledger and
record what it answers, each statement in between those of the others.
-/

namespace SpendGuard.Webhook

open Base Base.Proc Ledger

/-- A row of `webhook_dedupe`. -/
structure DedupeRow where
  event : EventKey
  canonicalHash : Bytes
  ledgerTransactionId : Uuid
  deriving DecidableEq

structure Tables where
  ledger : Db
  dedupe : List DedupeRow

namespace Tables

def onLedger (f : Db → Db) (t : Tables) : Tables := { t with ledger := f t.ledger }

def insertDedupe (row : DedupeRow) (t : Tables) : Tables := { t with dedupe := t.dedupe ++ [row] }

def lookup (t : Tables) (event : EventKey) : Option DedupeRow := t.dedupe.find? (·.event = event)

end Tables

inductive ReceiverLock
  | ledger (l : Lock)
  | dedupe (event : EventKey)
  deriving DecidableEq

inductive ReceiverCall
  | lookup (event : EventKey)
  | insert (row : DedupeRow)
  | lookupLedgerTx (tenant : Uuid) (op : OperationKind) (key : String)
  | ledger (c : LedgerCall)

inductive ReceiverReply
  | row (r : Option DedupeRow)
  | inserted (b : Bool)
  | transaction (x : Option (Uuid × Bytes))
  | ledger (a : LedgerReply)
  deriving DecidableEq

abbrev ReceiverProc := Base.Proc Tables ReceiverLock PgError

def lookup (event : EventKey) : ReceiverProc (Option DedupeRow) := do
  let t ← read
  return t.lookup event

/-- `INSERT … ON CONFLICT DO NOTHING`. -/
def insert (row : DedupeRow) : ReceiverProc Bool := do
  acquire (.dedupe row.event)
  let t ← read
  if (t.lookup row.event).isSome then return false
  else
    write (·.insertDedupe row)
    return true

def lookupLedgerTx (tenant : Uuid) (op : OperationKind) (key : String) : ReceiverProc (Option (Uuid × Bytes)) := do
  let t ← read
  return (t.ledger.findTransaction tenant op key).map fun x => (x.id, x.requestHash)

def ReceiverCall.body : ReceiverCall → ReceiverProc ReceiverReply
  | .lookup event => .row <$> Webhook.lookup event
  | .insert row => .inserted <$> Webhook.insert row
  | .lookupLedgerTx tenant op key => .transaction <$> Webhook.lookupLedgerTx tenant op key
  | .ledger c => .ledger <$> c.body.zoom Tables.ledger Tables.onLedger .ledger

/-- How a statement of the receiver ends: with its answer, or with an error that leaves open whether it ran. -/
inductive Fate
  | answered
  | failed (executed : Bool)
  deriving DecidableEq

/-- How a call at the ledger ends: with what the handler makes of the procedure, or otherwise. -/
inductive LedgerFate
  | answered
  | failed (executed : Bool) (r : Refusal)
  deriving DecidableEq

structure DeliveryEnv where
  lookup : Fate
  ledger : LedgerFate
  relookup : Fate
  ledgerTx : Fate
  heal : Fate
  insert : Fate
  transaction : Uuid
  auditEvent : Uuid
  sequence : ℕ
  decisionRow : InvoiceAuditArgs
  outcomeRow : InvoiceAuditArgs
  refusal : PgError → Refusal

abbrev Answer := Except ReceiverError (Uuid × String)

abbrev Handler := Client ReceiverCall PgError ReceiverReply Answer

def attempt (fate : Fate) (c : ReceiverCall) (next : ReceiverReply → Handler) (failed : Handler) : Handler :=
  match fate with
  | .answered => .call c fun
    | .ok a => next a
    | .error _ => failed
  | .failed true => .call c fun _ => failed
  | .failed false => failed

section Handler

variable {R : Receiver} (env : DeliveryEnv) (d : Delivery R)

def Delivery.row (tx : Uuid) : DedupeRow := ⟨d.event, d.canonicalHash, tx⟩

def lookupOr (fate : Fate) (next : Handler) : Handler :=
  attempt fate (.lookup d.event)
    (fun
      | .row (some r) =>
        if r.canonicalHash = d.canonicalHash then .done (.ok (r.ledgerTransactionId, "replay"))
        else .done (.error .conflict)
      | _ => next)
    (.done (.error .db))

/-- The ledger says that the key is taken, and the cache does not know of it: perhaps the other handler has not come
to its insert. -/
def selfHeal (message : String) : Handler :=
  attempt env.ledgerTx (.lookupLedgerTx d.tenant d.kind.operation d.provenance)
    (fun
      | .transaction (some (tx, hash)) =>
        if hash = d.canonicalHash then
          attempt env.heal (.insert (d.row tx)) (fun _ => .done (.ok (tx, "replay"))) (.done (.ok (tx, "replay")))
        else .done (.error .conflict)
      | _ => .done (.error (.ledgerTransient ("idempotency conflict but no replay row found: " ++ message))))
    (.done (.error .db))

def refused : Refusal → Handler
  | .error code message => .done (.error (mapLedgerError code message))
  | .status message =>
    if contains message reusedKey then lookupOr d env.relookup (selfHeal env d message)
    else .done (.error (.ledgerTransient ("ledger gRPC failed: " ++ message)))

def finish (tx : Uuid) : Handler :=
  let outcome := if tx = env.transaction then "success" else "replay"
  attempt env.insert (.insert (d.row tx)) (fun _ => .done (.ok (tx, outcome))) (.done (.error .db))

def ledgerCall : Except Refusal LedgerCall := do
  check (R.workload ≠ "") (.error .unspecified "invalid request: fencing.scope_id + workload_instance_id required")
  check (R.fencingEpoch ≠ 0) (.error .fencingEpochStale "FENCING_EPOCH_STALE: epoch 0 is not a valid lease")
  check (d.kind = .invoiceReconcile → 2 ≤ env.sequence) (.error .unspecified
    ("invalid request: producer_sequence must be >= 2 to back-derive decision seq; got " ++ toString env.sequence))
  let requestHash ← d.request.canonicalRequestHash R.sha256
  let t : TransactionArgs :=
    { id := env.transaction
      tenant := d.tenant
      idempotencyKey := d.provenance
      requestHash
      decisionId := R.deriveDecisionId d.provenance
      auditDecisionEventId := env.auditEvent
      fencingScope := R.fencingScope
      fencingEpoch := R.fencingEpoch
      workload := R.workload }
  let pricing : Pricing := ⟨d.pricing.pricingVersion, d.pricing.priceSnapshotHash, some d.pricing.fxRateVersion,
    some d.pricing.unitConversionVersion⟩
  match d.kind with
  | .providerReport =>
    return .money (.providerReported
      ⟨t, some d.unit, d.reservation, d.amount, pricing, ⟨env.auditEvent, .decision, env.sequence⟩⟩)
  | .invoiceReconcile =>
    return .money (.invoiceReconciled
      ⟨t, some d.unit, d.reservation, d.amount, pricing, env.decisionRow, env.outcomeRow, env.sequence⟩)

def post : Handler :=
  match ledgerCall env d, env.ledger with
  | .error r, _ => refused env d r
  | .ok c, .answered => .call (.ledger c) fun
    | .ok (.ledger (.posted tx)) => finish env d tx
    | .ok _ => .done (.error (.internal "ledger response missing outcome"))
    | .error e => refused env d (env.refusal e)
  | .ok c, .failed true r => .call (.ledger c) fun _ => refused env d r
  | .ok _, .failed false r => refused env d r

def deliver : Handler := lookupOr d env.lookup (post env d)

def handleWebhook (R : Receiver) (env : DeliveryEnv) (req : HttpRequest) : Handler :=
  match receive R req with
  | .ok d => deliver env d
  | .error e => .done (.error e)

end Handler

inductive Fact
  | transaction (x : LedgerTransaction)
  | dedupe (row : DedupeRow)

def Tables.facts (t : Tables) : Set Fact := fun
  | .transaction x => x ∈ t.ledger.transactions
  | .dedupe row => row ∈ t.dedupe

@[simp] theorem mem_facts_transaction {t : Tables} {x : LedgerTransaction} :
    .transaction x ∈ t.facts ↔ x ∈ t.ledger.transactions := Iff.rfl

@[simp] theorem mem_facts_dedupe {t : Tables} {row : DedupeRow} : .dedupe row ∈ t.facts ↔ row ∈ t.dedupe := Iff.rfl

def Backed {R : Receiver} (d : Delivery R) (tx : Uuid) (F : Set Fact) : Prop :=
  ∃ x, .transaction x ∈ F ∧ x.Under d.tenant d.kind.operation d.provenance ∧
    x.requestHash = d.canonicalHash ∧ x.id = tx

def RowBacked (R : Receiver) (row : DedupeRow) (F : Set Fact) : Prop :=
  ∃ d : Delivery R, row = d.row row.ledgerTransactionId ∧ Backed d row.ledgerTransactionId F

section Knowledge

variable {R : Receiver} {F F' : Set Fact}

theorem Backed.mono {d : Delivery R} {tx : Uuid} (hF : F ⊆ F') (h : Backed d tx F) : Backed d tx F' := by
  obtain ⟨x, hx, hrest⟩ := h
  exact ⟨x, hF hx, hrest⟩

theorem RowBacked.mono {row : DedupeRow} (hF : F ⊆ F') (h : RowBacked R row F) : RowBacked R row F' := by
  obtain ⟨d, hrow, hd⟩ := h
  exact ⟨d, hrow, hd.mono hF⟩

def ReceiverCall.adds : ReceiverCall → Set Fact
  | .insert row => {.dedupe row}
  | .ledger _ => Set.range .transaction
  | .lookup _ | .lookupLedgerTx _ _ _ => ∅

def ReceiverCall.Needs (R : Receiver) : ReceiverCall → Set Fact → Prop
  | .insert row, F => RowBacked R row F
  | _, _ => True

def ReceiverCall.Tells : ReceiverCall → ReceiverReply → Set Fact → Prop
  | .lookup event, .row (some r), F => .dedupe r ∈ F ∧ r.event = event
  | .lookupLedgerTx tenant op key, .transaction (some (tx, hash)), F =>
    ∃ x, .transaction x ∈ F ∧ x.Under tenant op key ∧ x.requestHash = hash ∧ x.id = tx
  | .ledger c, .ledger a, F => c.Answers a (Set.preimage .transaction F)
  | _, _, _ => True

theorem ReceiverCall.Tells.mono {c : ReceiverCall} {a : ReceiverReply} (hF : F ⊆ F') (h : c.Tells a F) :
    c.Tells a F' := by
  unfold ReceiverCall.Tells at h ⊢
  split
  · exact ⟨hF h.1, h.2⟩
  · obtain ⟨x, hx, hrest⟩ := h
    exact ⟨x, hF hx, hrest⟩
  · intro t op id hc ha
    obtain ⟨x, hx, hrest⟩ := h t op id hc ha
    exact ⟨x, hF hx, hrest⟩
  · trivial

def CacheBacked (R : Receiver) (F : Set Fact) : Prop := ∀ row, .dedupe row ∈ F → RowBacked R row F

def knowledge (R : Receiver) : Knowledge Tables ReceiverReply ReceiverCall Fact where
  facts := Tables.facts
  adds := ReceiverCall.adds
  pre c F := c.Needs R F
  post c a F := c.Tells a F
  inv := CacheBacked R
  pre_mono c F F' hF h := by
    cases c with
    | insert row => exact RowBacked.mono hF h
    | _ => trivial
  post_mono c a F F' hF h := h.mono hF
  inv_step c F F' hinv hpre hF hF' := by
    intro row hrow
    rcases hF' hrow with hold | hadded
    · exact (hinv row hold).mono hF
    · cases c with
      | insert row' =>
        cases hadded
        exact RowBacked.mono hF hpre
      | ledger c =>
        obtain ⟨x, hx⟩ := hadded
        cases hx
      | lookup event => exact hadded.elim
      | lookupLedgerTx tenant op key => exact hadded.elim

theorem onLedger_adds {f : Db → Db} (h : Adds Db.posted Set.univ f) :
    Adds Tables.facts (Set.range Fact.transaction) (Tables.onLedger f) := by
  obtain ⟨B, -, hB⟩ := h
  refine ⟨Set.image Fact.transaction B, Set.image_subset_range _ _, fun t => ?_⟩
  ext fact
  cases fact with
  | transaction x =>
    have hx : x ∈ (f t.ledger).posted ↔ x ∈ t.ledger.posted ∪ B := by rw [hB]
    simpa [Tables.onLedger, Db.posted] using hx
  | dedupe row => simp [Tables.onLedger]

theorem insertDedupe_adds (row : DedupeRow) : Adds Tables.facts {.dedupe row} (Tables.insertDedupe row) := by
  refine ⟨{.dedupe row}, subset_rfl, fun t => ?_⟩
  ext fact
  cases fact with
  | transaction x => simp [Tables.insertDedupe]
  | dedupe row' => simp [Tables.insertDedupe, or_comm]

theorem ReceiverCall.writes_adds (c : ReceiverCall) : c.body.Writes (Adds Tables.facts c.adds) := by
  cases c with
  | lookup event => exact (Writes.bind (by simp) fun _ => by simp).map
  | insert row =>
    apply Writes.map
    refine .bind (by simp) fun _ => .bind (by simp) fun t => ?_
    split
    · simp
    · exact .bind (writes_write.mpr (insertDedupe_adds row)) fun _ => by simp
  | lookupLedgerTx tenant op key => exact (Writes.bind (by simp) fun _ => by simp).map
  | ledger c => exact (c.adds_body.zoom fun _ => onLedger_adds).map

theorem ReceiverCall.shows_tells (c : ReceiverCall) : c.body.Shows Tables.facts c.Tells ∅ := by
  cases c with
  | lookup event =>
    apply Shows.map
    apply shows_read
    intro t _
    change ReceiverCall.Tells _ (.row (t.lookup event)) _
    cases hr : t.lookup event with
    | none => trivial
    | some r => exact ⟨List.mem_of_find?_eq_some hr, by simpa using List.find?_some hr⟩
  | insert row => exact shows_of_forall (writes_adds (.insert row)) (fun _ hf => hf.subset) fun _ _ => trivial
  | lookupLedgerTx tenant op key =>
    apply Shows.map
    apply shows_read
    intro t _
    change ReceiverCall.Tells _ (.transaction ((t.ledger.findTransaction tenant op key).map _)) _
    cases hx : t.ledger.findTransaction tenant op key with
    | none => trivial
    | some x =>
      rw [Db.findTransaction] at hx
      have hunder := List.find?_some hx
      exact ⟨x, List.mem_of_find?_eq_some hx, of_decide_eq_true hunder, rfl, rfl⟩
  | ledger c =>
    apply Shows.map
    have hfacts (t : Tables) : t.ledger.posted = Set.preimage Fact.transaction t.facts := rfl
    have hmono (a : LedgerReply) (F F' : Set LedgerTransaction) (hF : F ⊆ F') (h : c.Answers a F) :
        c.Answers a F' := by
      intro t op id hc ha
      obtain ⟨x, hx, hrest⟩ := h t op id hc ha
      exact ⟨x, hF hx, hrest⟩
    have hshows : Shows Tables.facts (fun a G => c.Answers a (Set.preimage Fact.transaction G)) ∅
        (c.body.zoom Tables.ledger Tables.onLedger ReceiverLock.ledger) :=
      Shows.zoom (fun _ _ => rfl) hfacts hmono (Set.empty_subset _) c.shows_answers
    exact hshows

def Told (d : Delivery R) (b : Answer) (F : Set Fact) : Prop := ∀ tx outcome, b = .ok (tx, outcome) → Backed d tx F

theorem told_error {d : Delivery R} (e : ReceiverError) : Told d (.error e) F := nofun

theorem told_ok {d : Delivery R} {tx : Uuid} (outcome : String) (h : Backed d tx F) : Told d (.ok (tx, outcome)) F := by
  intro tx' outcome' heq
  cases heq
  exact h

variable {d : Delivery R} {env : DeliveryEnv}

theorem sure_attempt {fate : Fate} {c : ReceiverCall} {next : ReceiverReply → Handler} {failed : Handler}
    (hneeds : c.Needs R F)
    (hnext : ∀ a F', F ⊆ F' → CacheBacked R F' → c.Tells a F' → (next a).Sure (knowledge R) (Told d) F')
    (hfailed : ∀ F', F ⊆ F' → failed.Sure (knowledge R) (Told d) F') :
    (attempt fate c next failed).Sure (knowledge R) (Told d) F := by
  cases fate with
  | answered =>
    refine ⟨hneeds, fun r F' hF hinv hpost => ?_⟩
    cases r with
    | ok a => exact hnext a F' hF hinv (hpost a rfl)
    | error e => exact hfailed F' hF
  | failed executed =>
    cases executed with
    | true => exact ⟨hneeds, fun r F' hF _ _ => hfailed F' hF⟩
    | false => exact hfailed F subset_rfl

theorem RowBacked.backed (hsha : Function.Injective R.sha256)
    (hparse : ∀ s u, R.parseUuid s = some u → RequestHash.UuidText (utf8 s)) {r : DedupeRow}
    (h : RowBacked R r F) (hevent : r.event = d.event) (hhash : r.canonicalHash = d.canonicalHash) :
    Backed d r.ledgerTransactionId F := by
  obtain ⟨d', hrow, x, hx, hunder, hxhash, hid⟩ := h
  have hevents : d'.event = d.event := by
    rw [hrow] at hevent
    exact hevent
  have hhashes : d'.canonicalHash = d.canonicalHash := by
    rw [hrow] at hhash
    exact hhash
  have hkind : d'.kind = d.kind := congrArg EventKey.eventKind hevents
  have hname : d'.name = d.name := by
    rw [Delivery.name, Delivery.name, show d'.providerAccount = d.providerAccount from
      congrArg EventKey.providerAccount hevents, show d'.providerEventId = d.providerEventId from
      congrArg EventKey.providerEventId hevents]
  have htenant : d'.tenant = d.tenant := by
    have htexts := (canonicalHash_inj hsha hparse hkind hhashes).1
    exact Option.some.inj (d'.tenant_read.symm.trans ((congrArg R.parseUuid htexts).trans d.tenant_read))
  rw [htenant, hkind, (provenance_inj hkind).mpr hname] at hunder
  exact ⟨x, hx, hunder, hxhash.trans hhashes, hid⟩

section Sure

variable (hsha : Function.Injective R.sha256)
  (hparse : ∀ s u, R.parseUuid s = some u → RequestHash.UuidText (utf8 s))

include hsha hparse

theorem sure_lookupOr {fate : Fate} {next : Handler}
    (hnext : ∀ F', F ⊆ F' → next.Sure (knowledge R) (Told d) F') :
    (lookupOr d fate next).Sure (knowledge R) (Told d) F := by
  refine sure_attempt trivial (fun a F' hF hinv htells => ?_) fun _ _ => told_error _
  cases a with
  | row r =>
    cases r with
    | none => exact hnext F' hF
    | some r =>
      dsimp only
      split
      · next hhash =>
        exact told_ok _ ((hinv r htells.1).backed hsha hparse htells.2 hhash)
      · exact told_error _
  | inserted b => exact hnext F' hF
  | transaction x => exact hnext F' hF
  | ledger a => exact hnext F' hF

omit hsha hparse in
theorem needs_row {tx : Uuid} (h : Backed d tx F) : (ReceiverCall.insert (d.row tx)).Needs R F := ⟨d, rfl, h⟩

omit hsha hparse in
theorem sure_selfHeal (message : String) : (selfHeal env d message).Sure (knowledge R) (Told d) F := by
  refine sure_attempt trivial (fun a F' _ _ htells => ?_) fun _ _ => told_error _
  cases a with
  | transaction x =>
    cases x with
    | none => exact told_error _
    | some p =>
      obtain ⟨x, hx, hunder, hxhash, hid⟩ := htells
      dsimp only
      split
      · next hhash =>
        have hbacked : Backed d p.1 F' := ⟨x, hx, hunder, hxhash.trans hhash, hid⟩
        exact sure_attempt (needs_row hbacked) (fun _ _ hF _ _ => told_ok _ (hbacked.mono hF))
          fun _ hF => told_ok _ (hbacked.mono hF)
      · exact told_error _
  | row r => exact told_error _
  | inserted b => exact told_error _
  | ledger a => exact told_error _

theorem sure_refused (r : Refusal) : (refused env d r).Sure (knowledge R) (Told d) F := by
  cases r with
  | error code message => exact told_error _
  | status message =>
    by_cases hkey : contains message reusedKey
    · rw [refused, if_pos hkey]
      exact sure_lookupOr hsha hparse fun _ _ => sure_selfHeal message
    · rw [refused, if_neg hkey]
      exact told_error _

omit hsha hparse in
theorem sure_finish {tx : Uuid} (h : Backed d tx F) : (finish env d tx).Sure (knowledge R) (Told d) F :=
  sure_attempt (needs_row h) (fun _ _ hF _ _ => told_ok _ (h.mono hF)) fun _ _ => told_error _

omit hsha hparse in
theorem ledgerCall_fenced {c : LedgerCall} (h : ledgerCall env d = .ok c) : ∃ t, c.fenced = some (t, d.kind.operation) ∧
    t.tenant = d.tenant ∧ t.idempotencyKey = d.provenance ∧ t.requestHash = d.canonicalHash := by
  simp only [ledgerCall, check_bind_eq_ok] at h
  obtain ⟨-, -, -, hrest⟩ := h
  obtain ⟨hash, hhash, hrest⟩ := bind_eq_ok.mp hrest
  cases hk : d.kind with
  | providerReport =>
    rw [hk] at hrest
    cases hrest
    exact ⟨_, rfl, rfl, rfl, canonicalRequestHash_request hhash⟩
  | invoiceReconcile =>
    rw [hk] at hrest
    cases hrest
    exact ⟨_, rfl, rfl, rfl, canonicalRequestHash_request hhash⟩

theorem sure_post : (post env d).Sure (knowledge R) (Told d) F := by
  unfold post
  split
  · exact sure_refused hsha hparse _
  · next c hcall _ =>
    refine ⟨trivial, fun r F' _ _ hpost => ?_⟩
    dsimp only
    split
    · next tx =>
      obtain ⟨t, hfenced, htenant, hkey, hhash⟩ := ledgerCall_fenced hcall
      obtain ⟨x, hx, hunder, hxhash, hid⟩ := hpost _ rfl t _ tx hfenced rfl
      rw [htenant, hkey] at hunder
      exact sure_finish ⟨x, hx, hunder, hxhash.trans hhash, hid⟩
    · exact told_error _
    · exact sure_refused hsha hparse _
  · exact ⟨trivial, fun _ _ _ _ _ => sure_refused hsha hparse _⟩
  · exact sure_refused hsha hparse _

theorem sure_deliver : (deliver env d).Sure (knowledge R) (Told d) F :=
  sure_lookupOr hsha hparse fun _ _ => sure_post hsha hparse

end Sure

end Knowledge

end SpendGuard.Webhook
