import SpendGuard.Approval.Documents
import SpendGuard.Ledger.HardCap

/-!
The resumes of one approval: each fetches the row, reserves under a key that it derives from the id it was
given, and marks the row as bundled.  The three calls are transactions of their own, and a resume may end
between any two of them.
-/

namespace SpendGuard.Approval

open Base Base.Proc Ledger

/-- What one call of `Ledger::ReserveSet` mints, and when it runs. -/
structure ReserveMint where
  transaction : Uuid
  outbox : Uuid
  now : ℕ

namespace ResumedReserve

def unitId (c : Sidecar.BudgetClaim) : String := (c.unit.map (·.unitId)).getD ""

def directionByte : Sidecar.Direction → UInt8
  | .unspecified => 0
  | .debit => 1
  | .credit => 2

def claimLe (a b : Sidecar.BudgetClaim) : Bool :=
  if a.budgetId ≠ b.budgetId then a.budgetId ≤ b.budgetId
  else if unitId a ≠ unitId b then unitId a ≤ unitId b
  else if a.windowInstanceId ≠ b.windowInstanceId then a.windowInstanceId ≤ b.windowInstanceId
  else directionByte a.direction ≤ directionByte b.direction

def canonicalRequestHash (r : ResumedReserve) : Bytes :=
  let utf8 (s : String) : Bytes := s.toUTF8.toList
  let claims := (r.request.claims.insertionSort fun a b => claimLe a b = true).map fun c =>
    utf8 "|claim|" ++ utf8 c.budgetId ++ utf8 (unitId c) ++ utf8 c.amountAtomic ++
      [directionByte c.direction] ++ utf8 c.windowInstanceId
  let pricing := r.request.pricing.map fun p =>
    utf8 "|pricing|" ++ utf8 p.version ++ p.snapshotHash ++ utf8 p.fxRateVersion ++
      utf8 p.unitConversionVersion
  let fencing := r.request.fencing.map fun f =>
    utf8 "|fencing|" ++ Sidecar.be64 f.epoch ++ utf8 f.scopeId
  let preimage := utf8 "v1:reserve_set:business_intent:" ++ utf8 r.request.tenantId ++ claims.flatten ++
    pricing.getD [] ++ fencing.getD [] ++
    utf8 "|contract_bundle|" ++ utf8 r.contractBundle.bundleId ++ r.contractBundle.bundleHash
  utf8 (sha256Hex (String.ofList (preimage.map fun b => Char.ofNat b.toNat)))

variable (rd : Reader Json)

/-- `p_transaction`, once the request has passed the handler's tests. -/
def transaction (id : Uuid) (r : ResumedReserve) : Except Sidecar.DomainError TransactionArgs := do
  r.request.checkRequest rd.uuid
  let tenant ← found (rd.uuid r.request.tenantId) (.invalidRequest "tenant_id: invalid uuid")
  let decision ← found (rd.uuid r.request.decisionId) (.invalidRequest "decision_id: invalid uuid")
  let event ← found (rd.uuid r.request.auditDecisionEventId)
    (.invalidRequest "audit_decision_event_id: invalid uuid")
  let idempotency ← found r.request.idempotency (.invalidRequest "idempotency missing")
  check (idempotency.requestHash = [] ∨ idempotency.requestHash = r.canonicalRequestHash)
    (.ledger idempotencyConflict)
  let fencing ← found r.request.fencing (.invalidRequest "fencing missing")
  let scope ← found (rd.cast fencing.scopeId)
    (.ledger ⟨"22P02", "invalid input syntax for type uuid: \"" ++ fencing.scopeId ++ "\""⟩)
  return ⟨id, tenant, idempotency.key, r.canonicalRequestHash, decision, event, scope, fencing.epoch,
    fencing.workloadInstanceId⟩

def castClaim (c : Sidecar.BudgetClaim) : Option Ledger.BudgetClaim := do
  let budget ← rd.cast c.budgetId
  let window ← rd.cast c.windowInstanceId
  let unit ← rd.cast (unitId c)
  let amount ← (rd.bigInt c.amountAtomic).toOption
  return ⟨budget, window, unit, amount⟩

def reserveSet (m : ReserveMint) (t : TransactionArgs) (r : ResumedReserve) : Option ReserveSet := do
  let claims ← r.request.claims.mapM (castClaim rd)
  let ttl ← r.request.ttlExpiresAt
  let p ← r.request.pricing
  return ⟨t, claims, ⟨p.version, p.snapshotHash, some p.fxRateVersion, some p.unitConversionVersion⟩, .time ttl,
    ⟨m.outbox, .decision, r.request.producerSequence⟩, none⟩

/-- The procedure reads the claims behind the replay and the compare-and-set. -/
def post (m : ReserveMint) (t : TransactionArgs) (r : ResumedReserve) : SqlProc Uuid :=
  match r.reserveSet rd m t with
  | some x => postLedgerTransaction x.post
  | none => do
    match ← idempotentReplay t .reserve with
    | some id => return id
    | none => do
      fencingCas t (allowedScope .reserve) ("operation " ++ OperationKind.reserve.text)
      require False ⟨"22P02", "invalid input syntax for type uuid"⟩
      return t.id

end ResumedReserve

/-- `Ledger::ReserveSet`: the transaction that it answers, new or replayed. -/
def handleReserveSet (rd : Reader Json) (m : ReserveMint) (r : ResumedReserve) (db : Db) :
    Except Sidecar.DomainError (Uuid × Db) := do
  let t ← r.transaction rd m.transaction
  (exec m.now (r.post rd m t) db).mapError .ledger

section Reserve

variable {rd : Reader Json} {m : ReserveMint} {r : ResumedReserve} {t : TransactionArgs} {db db' : Db} {id : Uuid}

def ReservedUnder (tenant : Uuid) (key : String) (x : LedgerTransaction) : Prop :=
  x.tenant = tenant ∧ x.operationKind = .reserve ∧ x.idempotencyKey = key

def Reserves (db : Db) (tenant : Uuid) (key : String) (id : Uuid) (db' : Db) : Prop :=
  (db' = db ∧ ∃ x ∈ db.transactions, ReservedUnder tenant key x ∧ x.id = id) ∨
    ((∀ x ∈ db.transactions, ¬ReservedUnder tenant key x) ∧
      ∃ x, db'.transactions = db.transactions ++ [x] ∧ ReservedUnder tenant key x ∧ x.id = id)

theorem reserves_found {x : LedgerTransaction}
    (h : db.findTransaction t.tenant .reserve t.idempotencyKey = some x) :
    Reserves db t.tenant t.idempotencyKey x.id db := by
  have hunder := List.find?_some h
  rw [decide_eq_true_eq] at hunder
  exact .inl ⟨rfl, x, List.mem_of_find?_eq_some h, hunder, rfl⟩

theorem reserveSet_transaction {x : ReserveSet} (h : r.reserveSet rd m t = some x) : x.transaction = t := by
  simp only [ResumedReserve.reserveSet, Option.bind_eq_bind, Option.bind_eq_some_iff] at h
  obtain ⟨_, -, _, -, _, -, h⟩ := h
  cases h
  rfl

theorem exec_post (h : exec m.now (r.post rd m t) db = .ok (id, db')) :
    Reserves db t.tenant t.idempotencyKey id db' := by
  rw [ResumedReserve.post] at h
  split at h
  · next x hx =>
    cases reserveSet_transaction hx
    rcases exec_postLedgerTransaction h with ⟨rfl, y, hy, -, rfl⟩ | ⟨rfl, hposted⟩
    · exact reserves_found hy
    · refine .inr ⟨?_, _, hposted.posted.transactions, ⟨rfl, rfl, rfl⟩, rfl⟩
      intro y hy hunder
      exact List.find?_eq_none.mp hposted.new y hy (decide_eq_true hunder)
  · rw [exec_idempotentReplay_bind] at h
    rcases h with ⟨-, h⟩ | ⟨y, hy, -, h⟩
    · simp only [exec_fencingCas_bind, exec_require_bind, false_and, and_false] at h
    · cases h
      exact reserves_found hy

theorem transaction_ok {mint : Uuid} (h : r.transaction rd mint = .ok t) :
    rd.uuid r.request.tenantId = some t.tenant ∧
      ∃ i, r.request.idempotency = some i ∧ i.key = t.idempotencyKey := by
  simp only [ResumedReserve.transaction, bind_eq_ok, found_eq_ok] at h
  obtain ⟨-, -, tenant, htenant, _, -, _, -, i, hi, _, -, _, -, _, -, h⟩ := h
  cases h
  exact ⟨htenant, i, hi, rfl⟩

theorem handleReserveSet_ok (h : handleReserveSet rd m r db = .ok (id, db')) :
    ∃ tenant i, rd.uuid r.request.tenantId = some tenant ∧ r.request.idempotency = some i ∧
      Reserves db tenant i.key id db' := by
  simp only [handleReserveSet, bind_eq_ok, mapError_eq_ok] at h
  obtain ⟨t, ht, hexec⟩ := h
  obtain ⟨htenant, i, hi, hkey⟩ := transaction_ok ht
  exact ⟨t.tenant, i, htenant, hi, hkey ▸ exec_post hexec⟩

end Reserve

inductive ResumeCall
  | fetched (approvalId : String) (r : ResumedReserve)
  | reserved (transaction : Uuid)

/-- The ledger, the row of one approval, and the resumes of it that are under way. -/
structure ResumeWorld (ι : Type) where
  ledger : Db
  record : ApprovalRecord Json
  calls : ι → Option ResumeCall

inductive ResumeMove (ι : Type)
  | fetch (i : ι) (env : ResumeEnv) (req : ResumeRequest)
  | reserve (i : ι) (m : ReserveMint)
  | mark (i : ι) (now : ℤ)
  | stop (i : ι)
  | resolve (c : ResolveCall)
  | others (db : Db)

def documentTenant (rd : Reader Json) (row : ApprovalRequest Json) : Option Uuid :=
  (DecisionContext.ofJson row.decisionContext).toOption.bind fun d => rd.uuid d.tenantId

/-- A reserve for the tenant of the documents, under the key that a resume derives from some spelling of
the approval's id. -/
def Spends (rd : Reader Json) (row : ApprovalRequest Json) (x : LedgerTransaction) : Prop :=
  ∃ tenant text, documentTenant rd row = some tenant ∧ rd.uuid text = some row.approvalId ∧
    ReservedUnder tenant (resumeKey text) x

namespace ResumeWorld

variable {ι : Type} [DecidableEq ι] (rd : Reader Json)

def put (g : ResumeWorld ι) (i : ι) (c : Option ResumeCall) : ResumeWorld ι :=
  { g with calls := Function.update g.calls i c }

/-- A resume whose call fails ends with an error, and one that is not due for a call makes none. -/
def next (g : ResumeWorld ι) : ResumeMove ι → ResumeWorld ι
  | .fetch i env req =>
    match g.calls i, prepareResume rd env req g.record.row with
    | none, .ok (.reserve r) => g.put i (some (.fetched req.approvalId r))
    | _, _ => g
  | .reserve i m =>
    match g.calls i with
    | some (.fetched _ r) =>
      match handleReserveSet rd m r g.ledger with
      | .ok (id, db) => { g.put i (some (.reserved id)) with ledger := db }
      | .error _ => g.put i none
    | _ => g
  | .mark i now =>
    match g.calls i with
    | some (.reserved id) =>
      match markApprovalBundled (some id) now g.record with
      | .ok (_, s) => { g.put i none with record := s }
      | .error _ => g.put i none
    | _ => g
  | .stop i => g.put i none
  | .resolve c =>
    match resolveApprovalRequest c g.record with
    | .ok (_, s) => { g with record := s }
    | .error _ => g
  | .others db => { g with ledger := db }

def Allowed (g : ResumeWorld ι) : ResumeMove ι → Prop
  | .others db => ∃ new, db.transactions = g.ledger.transactions ++ new ∧
      ∀ x ∈ new, ¬Spends rd g.record.row x
  | _ => True

def Step (g : ResumeWorld ι) (m : ResumeMove ι) (g' : ResumeWorld ι) : Prop :=
  g.Allowed rd m ∧ g.next rd m = g'

structure Fresh (g : ResumeWorld ι) : Prop where
  idle : ∀ i, g.calls i = none
  unbundled : g.record.row.bundledLedgerTransactionId = none
  unspent : ∀ x ∈ g.ledger.transactions, ¬Spends rd g.record.row x

def Once (g : ResumeWorld ι) : Prop :=
  g.ledger.transactions.Pairwise fun x y =>
    ¬(Spends rd g.record.row x ∧ Spends rd g.record.row y)

def SpentBy (g : ResumeWorld ι) (id : Uuid) : Prop :=
  ∃ x ∈ g.ledger.transactions, Spends rd g.record.row x ∧ x.id = id

structure SpentOnce (g : ResumeWorld ι) (tr : List (ResumeMove ι × ResumeWorld ι)) : Prop where
  once : ∀ p ∈ tr, p.2.Once rd
  bundled : ∀ p ∈ tr, ∀ id, p.2.record.row.bundledLedgerTransactionId = some id → p.2.SpentBy rd id
  kept : (g :: tr.map Prod.snd).Pairwise fun a b =>
    ∀ id, a.record.row.bundledLedgerTransactionId = some id → b.record.row.bundledLedgerTransactionId = some id

/-- A resume that goes on to reserve was given the id as `text`. -/
def SpelledAs (text : String) (g : ResumeWorld ι) : ResumeMove ι → Prop
  | .reserve i _ => ∀ given r, g.calls i = some (.fetched given r) → given = text
  | _ => True

section Run

/-- A reserve that is built from the documents of a row, under the key of a spelling of its id. -/
structure Prepared (row : ApprovalRequest Json) (given : String) (r : ResumedReserve) : Prop where
  spelled : rd.uuid given = some row.approvalId
  key : r.request.idempotency = some { key := resumeKey given }
  tenant : rd.uuid r.request.tenantId = documentTenant rd row

def Sound (g : ResumeWorld ι) : ResumeCall → Prop
  | .fetched given r => Prepared rd g.record.row given r
  | .reserved id => g.SpentBy rd id

/-- Every transaction that is spent on the approval has the key of one spelling. -/
structure Inv (text : String) (g : ResumeWorld ι) : Prop where
  calls : ∀ i c, g.calls i = some c → g.Sound rd c
  bundled : ∀ id, g.record.row.bundledLedgerTransactionId = some id → g.SpentBy rd id
  keyed : ∀ x ∈ g.ledger.transactions, Spends rd g.record.row x → x.idempotencyKey = resumeKey text
  once : g.Once rd

variable {rd} {g g' : ResumeWorld ι} {text : String} {i : ι}

section Fetch

variable {env : ResumeEnv} {req : ResumeRequest} {row : ApprovalRequest Json} {r : ResumedReserve}

theorem getApprovalForResume_ok {approvalId tenantId : String} {ctx : ApprovalResumeContext}
    (h : getApprovalForResume rd approvalId tenantId row = .ok ctx) :
    rd.uuid approvalId = some row.approvalId ∧ ctx.decisionContext = row.decisionContext := by
  simp only [getApprovalForResume, bind_eq_ok, found_eq_ok, check_eq_ok] at h
  obtain ⟨approval, happroval, _, -, ⟨⟩, hid, -, -, hctx⟩ := h
  rw [hid, ← Except.ok.inj hctx]
  exact ⟨happroval, rfl⟩

theorem intoReserveSetRequest_ok {workload key : String} {p : Parsed}
    (h : p.intoReserveSetRequest rd env workload key = .ok r) :
    r.request.idempotency = some { key := key } ∧ r.request.tenantId = p.decision.tenantId := by
  simp only [Parsed.intoReserveSetRequest, bind_eq_ok] at h
  obtain ⟨_, -, _, -, _, -, _, -, _, -, hr⟩ := h
  cases hr
  exact ⟨rfl, rfl⟩

theorem parse_ok {ctx : ApprovalResumeContext} {p : Parsed} (h : parse ctx = .ok p) :
    DecisionContext.ofJson ctx.decisionContext = .ok p.decision := by
  simp only [parse, bind_eq_ok, mapError_eq_ok] at h
  obtain ⟨d, hd, e, -, hp⟩ := h
  cases hp
  exact hd

theorem prepareResume_prepared (h : prepareResume rd env req row = .ok (.reserve r)) :
    Prepared rd row req.approvalId r := by
  simp only [prepareResume, bind_eq_ok, mapError_eq_ok] at h
  obtain ⟨ctx, hctx, h⟩ := h
  obtain ⟨hspelled, hcontext⟩ := getApprovalForResume_ok hctx
  split at h
  · split at h
    · cases h
    · simp only [bind_eq_ok, mapError_eq_ok] at h
      obtain ⟨p, hp, r', hr, h⟩ := h
      cases h
      obtain ⟨hkey, htenant⟩ := intoReserveSetRequest_ok hr
      refine ⟨hspelled, hkey, ?_⟩
      rw [documentTenant, ← hcontext, parse_ok hp, htenant]
      rfl
  · split at h
    · cases h
    · cases h

end Fetch

structure SameDocuments (row row' : ApprovalRequest Json) : Prop where
  approvalId : row'.approvalId = row.approvalId
  context : row'.decisionContext = row.decisionContext

theorem SameDocuments.tenant {row row' : ApprovalRequest Json} (h : SameDocuments row row') :
    documentTenant rd row' = documentTenant rd row := by
  rw [documentTenant, h.context, documentTenant]

theorem SameDocuments.spends {row row' : ApprovalRequest Json} (h : SameDocuments row row') :
    Spends rd row' = Spends rd row := by
  funext x
  rw [Spends, h.tenant, h.approvalId, Spends]

omit [DecidableEq ι] in
theorem SpentBy.mono {id : Uuid} (h : g.SpentBy rd id)
    (hgrow : ∀ x ∈ g.ledger.transactions, x ∈ g'.ledger.transactions)
    (hsame : SameDocuments g.record.row g'.record.row) : g'.SpentBy rd id := by
  obtain ⟨x, hx, hspends, rfl⟩ := h
  refine ⟨x, hgrow x hx, ?_, rfl⟩
  rw [hsame.spends]
  exact hspends

namespace Inv

theorem put (h : g.Inv rd text) {c : Option ResumeCall} (hc : ∀ c', c = some c' → g.Sound rd c') :
    (g.put i c).Inv rd text := by
  refine { h with calls := ?_ }
  intro j c' hj
  change Function.update g.calls i c j = some c' at hj
  by_cases hij : j = i
  · rw [hij, Function.update_self] at hj
    exact hc c' hj
  · rw [Function.update_of_ne hij] at hj
    exact h.calls j c' hj

theorem put_none (h : g.Inv rd text) : (g.put i none).Inv rd text := h.put nofun

omit [DecidableEq ι] in
theorem withRecord (h : g.Inv rd text) {s : ApprovalRecord Json} (hsame : SameDocuments g.record.row s.row)
    (hbundled : ∀ id, s.row.bundledLedgerTransactionId = some id → g.SpentBy rd id) :
    Inv rd text { g with record := s } where
  calls j c hj := by
    have hsound := h.calls j c hj
    cases c with
    | fetched given r =>
      refine ⟨hsame.approvalId ▸ hsound.spelled, hsound.key, ?_⟩
      dsimp only
      rw [hsame.tenant]
      exact hsound.tenant
    | reserved id => exact SpentBy.mono hsound (fun _ hx => hx) hsame
  bundled id hb := (hbundled id hb).mono (fun _ hx => hx) hsame
  keyed := by
    dsimp only
    rw [hsame.spends]
    exact h.keyed
  once := by
    rw [Once, hsame.spends]
    exact h.once

omit [DecidableEq ι] in
theorem withLedger (h : g.Inv rd text) {db : Db} {new : List LedgerTransaction}
    (hnew : db.transactions = g.ledger.transactions ++ new)
    (hkeyed : ∀ x ∈ new, Spends rd g.record.row x → x.idempotencyKey = resumeKey text)
    (honce : Once rd { g with ledger := db }) : Inv rd text { g with ledger := db } := by
  have hgrow (x : LedgerTransaction) (hx : x ∈ g.ledger.transactions) : x ∈ db.transactions := by
    rw [hnew]
    exact List.mem_append_left new hx
  constructor
  · intro j c hj
    have hsound := h.calls j c hj
    cases c with
    | fetched given r => exact hsound
    | reserved id => exact SpentBy.mono hsound hgrow ⟨rfl, rfl⟩
  · intro id hb
    exact (h.bundled id hb).mono hgrow ⟨rfl, rfl⟩
  · intro x hx
    dsimp only at hx
    rw [hnew, List.mem_append] at hx
    exact hx.elim (h.keyed x) (hkeyed x)
  · exact honce

omit [DecidableEq ι] in
theorem others (h : g.Inv rd text) {db : Db} {new : List LedgerTransaction}
    (hnew : db.transactions = g.ledger.transactions ++ new)
    (hunspent : ∀ x ∈ new, ¬Spends rd g.record.row x) : Inv rd text { g with ledger := db } := by
  apply h.withLedger hnew fun x hx hspends => absurd hspends (hunspent x hx)
  rw [Once]
  dsimp only
  rw [hnew, List.pairwise_append]
  refine ⟨h.once, ?_, ?_⟩
  · apply List.pairwise_of_forall_mem_list
    intro a ha b _ hspends
    exact hunspent a ha hspends.1
  · intro a _ b hb hspends
    exact hunspent b hb hspends.2

omit [DecidableEq ι] in
theorem reserve (h : g.Inv rd text) {r : ResumedReserve} {m : ReserveMint} {id : Uuid} {db : Db}
    (hprepared : Prepared rd g.record.row text r) (hreserve : handleReserveSet rd m r g.ledger = .ok (id, db)) :
    Inv rd text { g with ledger := db } ∧ SpentBy rd { g with ledger := db } id := by
  obtain ⟨tenant, key, htenant, hkey, hreserves⟩ := handleReserveSet_ok hreserve
  cases hprepared.key.symm.trans hkey
  have hdocument : documentTenant rd g.record.row = some tenant := hprepared.tenant.symm.trans htenant
  have hspends {x : LedgerTransaction} (hx : ReservedUnder tenant (resumeKey text) x) :
      Spends rd g.record.row x := ⟨tenant, text, hdocument, hprepared.spelled, hx⟩
  rcases hreserves with ⟨rfl, x, hx, hunder, rfl⟩ | ⟨hfirst, x, hadded, hunder, rfl⟩
  · exact ⟨h, x, hx, hspends hunder, rfl⟩
  · have hunspent (y : LedgerTransaction) (hy : y ∈ g.ledger.transactions) : ¬Spends rd g.record.row y := by
      intro hspent
      have hsamekey := h.keyed y hy hspent
      obtain ⟨tenant', _, htenant', -, hunder'⟩ := hspent
      cases hdocument.symm.trans htenant'
      exact hfirst y hy ⟨hunder'.1, hunder'.2.1, hsamekey⟩
    constructor
    · apply h.withLedger hadded
      · intro y hy _
        rw [List.mem_singleton.mp hy]
        exact hunder.2.2
      · rw [Once]
        dsimp only
        rw [hadded, List.pairwise_append]
        refine ⟨h.once, List.pairwise_singleton .., ?_⟩
        intro a ha _ _ hboth
        exact hunspent a ha hboth.1
    · refine ⟨x, ?_, hspends hunder, rfl⟩
      dsimp only
      rw [hadded]
      exact List.mem_append_right _ (List.mem_singleton_self x)

end Inv

structure RowMoves (g : ResumeWorld ι) (row : ApprovalRequest Json) : Prop where
  same : SameDocuments g.record.row row
  kept : ∀ id, g.record.row.bundledLedgerTransactionId = some id → row.bundledLedgerTransactionId = some id

omit [DecidableEq ι] in
theorem rowMoves_resolve {c : ResolveCall} {answer : ApprovalState × Bool} {s : ApprovalRecord Json}
    (h : resolveApprovalRequest c g.record = .ok (answer, s)) :
    g.RowMoves s.row ∧ s.row.bundledLedgerTransactionId = g.record.row.bundledLedgerTransactionId := by
  rcases resolveApprovalRequest_ok h with ⟨-, hsame⟩ | ⟨target, -, -, -, -, -, -, rfl⟩
  · rw [hsame]
    exact ⟨⟨⟨rfl, rfl⟩, fun _ hid => hid⟩, rfl⟩
  · exact ⟨⟨⟨rfl, rfl⟩, fun _ hid => hid⟩, rfl⟩

omit [DecidableEq ι] in
theorem rowMoves_mark {id : Uuid} {now : ℤ} {first : Bool} {s : ApprovalRecord Json}
    (h : markApprovalBundled (some id) now g.record = .ok (first, s)) :
    g.RowMoves s.row ∧ (s.row.bundledLedgerTransactionId = g.record.row.bundledLedgerTransactionId ∨
      s.row.bundledLedgerTransactionId = some id) := by
  rcases (markApprovalBundled_ok h).2 with ⟨-, hsame⟩ | ⟨-, hunbundled, -, rfl⟩
  · rw [hsame]
    exact ⟨⟨⟨rfl, rfl⟩, fun _ hid => hid⟩, .inl rfl⟩
  · refine ⟨⟨⟨rfl, rfl⟩, fun _ hid => ?_⟩, .inr rfl⟩
    rw [hunbundled] at hid
    cases hid

theorem Step.inv {m : ResumeMove ι} (h : Step rd g m g') (hinv : g.Inv rd text) (hspelled : g.SpelledAs text m) :
    g'.Inv rd text := by
  obtain ⟨hallowed, rfl⟩ := h
  cases m with
  | fetch i env req =>
    rw [next]
    split
    · next hprepare =>
      apply hinv.put
      rintro c ⟨⟩
      exact prepareResume_prepared hprepare
    · exact hinv
  | reserve i m =>
    rw [next]
    split
    · next given r hcall =>
      obtain rfl := hspelled given r hcall
      split
      · next id db hreserve =>
        obtain ⟨hinv', hspent⟩ := hinv.reserve (hinv.calls i _ hcall) hreserve
        apply hinv'.put
        rintro c ⟨⟩
        exact hspent
      · exact hinv.put_none
    · exact hinv
  | mark i now =>
    rw [next]
    split
    · next id hcall =>
      split
      · next first s hmark =>
        obtain ⟨hmoves, hbundled⟩ := rowMoves_mark hmark
        refine (hinv.withRecord hmoves.same ?_).put_none
        intro id' hid'
        rcases hbundled with hold | hnew
        · exact hinv.bundled id' (hold.symm.trans hid')
        · cases hnew.symm.trans hid'
          exact hinv.calls i _ hcall
      · exact hinv.put_none
    · exact hinv
  | stop i => exact hinv.put_none
  | resolve c =>
    rw [next]
    split
    · next answer s hresolve =>
      obtain ⟨hmoves, hbundled⟩ := rowMoves_resolve hresolve
      exact hinv.withRecord hmoves.same fun id hid => hinv.bundled id (hbundled.symm.trans hid)
    · exact hinv
  | others db =>
    obtain ⟨new, hnew, hunspent⟩ := hallowed
    exact hinv.others hnew hunspent

theorem Step.kept {m : ResumeMove ι} (h : Step rd g m g') (id : Uuid)
    (hid : g.record.row.bundledLedgerTransactionId = some id) :
    g'.record.row.bundledLedgerTransactionId = some id := by
  obtain ⟨-, rfl⟩ := h
  cases m with
  | fetch i env req =>
    rw [next]
    split
    · exact hid
    · exact hid
  | reserve i m =>
    rw [next]
    split
    · split
      · exact hid
      · exact hid
    · exact hid
  | mark i now =>
    rw [next]
    split
    · split
      · next hmark => exact (rowMoves_mark hmark).1.kept id hid
      · exact hid
    · exact hid
  | stop i => exact hid
  | resolve c =>
    rw [next]
    split
    · next hresolve => exact (rowMoves_resolve hresolve).1.kept id hid
    · exact hid
  | others db => exact hid

omit [DecidableEq ι] in
theorem Fresh.inv (h : g.Fresh rd) (text : String) : g.Inv rd text where
  calls i c hc := by
    rw [h.idle i] at hc
    cases hc
  bundled id hid := by
    rw [h.unbundled] at hid
    cases hid
  keyed x hx hspends := absurd hspends (h.unspent x hx)
  once := List.pairwise_of_forall_mem_list fun x hx _ _ hboth => h.unspent x hx hboth.1

/-- However its resumes interleave and wherever they end, an approval is spent at most once if all of them
that go on to reserve were given its id in one spelling. -/
theorem approval_spent_once {tr : List (ResumeMove ι × ResumeWorld ι)} (hfresh : g.Fresh rd)
    (h : Trace (Step rd) g tr) (hspelled : Along (SpelledAs text) g tr) : g.SpentOnce rd tr := by
  have hinv : ∀ p ∈ tr, p.2.Inv rd text :=
    h.invariant hspelled (fun _ _ _ hi hs hstep => hstep.inv hi hs) (hfresh.inv text)
  constructor
  · intro p hp
    exact (hinv p hp).once
  · intro p hp
    exact (hinv p hp).bundled
  · exact h.pairwise (I := fun _ => True) (fun _ _ _ _ _ => trivial) trivial
      (fun _ _ _ hab hbc id hid => hbc id (hab id hid)) fun _ _ _ _ hstep => hstep.kept

end Run

end ResumeWorld

section Demo

/-- What the `n`-th resume mints. -/
def resumeEnv (n : ℕ) : ResumeEnv :=
  ⟨"eu", "sidecar-1", some financeBundle, ⟨210 + n, []⟩, ⟨310 + n, []⟩, n, {}, 100, .ok⟩

def resumeMint (n : ℕ) : ReserveMint := ⟨⟨110 + n, []⟩, ⟨510 + n, []⟩, 0⟩

def resumeReader : Reader Json where
  uuid text := ([("t", 1), ("a", 601), ("A", 601)].lookup text).map (⟨·, []⟩) <|>
    [⟨211, []⟩, ⟨311, []⟩, ⟨212, []⟩, ⟨312, []⟩].find? fun u : Uuid => u.text = text
  cast text := some ⟨([("b", 2), ("w", 3), ("u", 4)].lookup text).getD 10, []⟩
  bigInt := financeBigInt
  json _ := .error ""
  emptyObject := .obj []

def grantedRow : ApprovalRequest Json where
  approvalId := ⟨601, []⟩
  tenantId := ⟨1, []⟩
  decisionId := ⟨201, []⟩
  auditDecisionEventId := ⟨301, []⟩
  state := .approved
  ttlExpiresAt := 100
  approverPolicy := .obj []
  requestedEffect := (financeApproval [largeClaim "5"]).requestedEffect
  decisionContext := (financeApproval [largeClaim "5"]).decisionContext
  resolvedAt := some 1
  resolvedBySubject := some "alice"
  resolvedByIssuer := some "idp"
  resolutionReason := some "ok"
  createdAt := 0
  bundledAt := none
  bundledLedgerTransactionId := none
  proposalSource := .sidecarDecision
  proposedDslPatch := none
  proposingFindingId := none

def grantedWorld : ResumeWorld (Fin 2) where
  ledger := { fundedLedger with pricingSnapshots := [⟨"p1", [9], "fx1", "uc1"⟩] }
  record := ⟨grantedRow, []⟩
  calls _ := none

/-- The reserve of the `n`-th resume, under the key of the id as it was given. -/
def resumedReserve (n : ℕ) (given : String) : ResumedReserve where
  request := {
    tenantId := "t"
    decisionId := Uuid.text ⟨210 + n, []⟩
    auditDecisionEventId := Uuid.text ⟨310 + n, []⟩
    producerSequence := n
    idempotency := some { key := resumeKey given }
    fencing := some ⟨1, Uuid.text ⟨10, []⟩, "sidecar-1"⟩
    claims := [largeClaim "5"]
    ttlExpiresAt := some 100
    auditEvent := some ((financeApproval [largeClaim "5"]).parsed.cloudEvent (resumeEnv n) "sidecar-1"
      financeContract.predictionPolicy.asStr)
    pricing := some ⟨"p1", [9], "fx1", "uc1"⟩ }
  contractBundle := ⟨Uuid.text ⟨8, []⟩, [8]⟩

theorem resumedReserve_built (n : ℕ) (given : String) :
    (financeApproval [largeClaim "5"]).parsed.intoReserveSetRequest resumeReader (resumeEnv n) ""
      (resumeKey given) = .ok (resumedReserve n given) := rfl

theorem resumedReserve_prepared (n : ℕ) {given : String} (hgiven : resumeReader.uuid given = some ⟨601, []⟩) :
    prepareResume resumeReader (resumeEnv n) ⟨"t", given, ""⟩ grantedRow = .ok (.reserve (resumedReserve n given)) := by
  refine (prepareResume_approved (x := financeApproval [largeClaim "5"]) rfl rfl rfl rfl hgiven rfl).trans ?_
  rw [resumedReserve_built]
  rfl

def resumeArgs (n : ℕ) (given : String) : TransactionArgs :=
  ⟨⟨110 + n, []⟩, ⟨1, []⟩, resumeKey given, (resumedReserve n given).canonicalRequestHash, ⟨210 + n, []⟩,
    ⟨310 + n, []⟩, ⟨10, []⟩, 1, "sidecar-1"⟩

theorem largeClaim_valid : Sidecar.ReserveSetRequest.validateClaim 0 (largeClaim "5") = .ok () := by
  have hamount : (largeClaim "5").amountAtomic.toInt? = some 5 := Int.toInt?_repr 5
  simp only [Sidecar.ReserveSetRequest.validateClaim, hamount, found_some, ok_bind]
  rfl

theorem minted_read : ∀ n ∈ [1, 2], resumeReader.uuid (Uuid.text ⟨210 + n, []⟩) = some ⟨210 + n, []⟩ ∧
    resumeReader.uuid (Uuid.text ⟨310 + n, []⟩) = some ⟨310 + n, []⟩ := by decide +kernel

theorem resumedReserve_valid (n : ℕ) (given : String) : (resumedReserve n given).request.validate = .ok () := by
  simp only [Sidecar.ReserveSetRequest.validate, bind_eq_ok, check_eq_ok]
  refine ⟨(), (by decide : "t" ≠ ""), (), Uuid.text_ne_empty _, (), Uuid.text_ne_empty _, (), List.cons_ne_nil _ _, (), rfl, ?_⟩
  exact bind_eq_ok.mpr ⟨(), largeClaim_valid, rfl⟩

theorem resumedReserve_admitted {n : ℕ} (hn : n ∈ [1, 2]) (given : String) :
    (resumedReserve n given).request.checkRequest resumeReader.uuid = .ok () := by
  obtain ⟨hdecision, hevent⟩ := minted_read n hn
  have hkey : resumeKey given ≠ "" := by
    intro hempty
    have hlist := congrArg String.toList hempty
    simp [resumeKey, sha256Hex] at hlist
  simp only [Sidecar.ReserveSetRequest.checkRequest, bind_eq_ok, found_eq_ok, check_eq_ok]
  exact ⟨(), resumedReserve_valid n given, _, rfl, _, hdecision, _, hevent, _, rfl, (), hkey, _, rfl,
    (), Uuid.text_ne_empty _, (), by decide, (), by decide, _, rfl, _, rfl, by decide⟩

theorem resumedReserve_transaction {n : ℕ} (hn : n ∈ [1, 2]) (given : String) :
    (resumedReserve n given).transaction resumeReader ⟨110 + n, []⟩ = .ok (resumeArgs n given) := by
  obtain ⟨hdecision, hevent⟩ := minted_read n hn
  simp only [ResumedReserve.transaction, bind_eq_ok, found_eq_ok, check_eq_ok]
  exact ⟨(), resumedReserve_admitted hn given, _, rfl, _, hdecision, _, hevent, _, rfl, (), .inl rfl, _, rfl,
    _, rfl, rfl⟩

def racedResumes (first second : String) : List (ResumeMove (Fin 2)) :=
  [.fetch 0 (resumeEnv 1) ⟨"t", first, ""⟩, .fetch 1 (resumeEnv 2) ⟨"t", second, ""⟩,
    .reserve 0 (resumeMint 1), .reserve 1 (resumeMint 2)]

def racedReserves (first second : String) : Except PgError ((Uuid × Uuid) × Db) := do
  let (x, db) ← exec 0 ((resumedReserve 1 first).post resumeReader (resumeMint 1) (resumeArgs 1 first))
    grantedWorld.ledger
  let (y, db') ← exec 0 ((resumedReserve 2 second).post resumeReader (resumeMint 2) (resumeArgs 2 second)) db
  return ((x, y), db')

def reservesShown (db : Db) : List (Uuid × Uuid × String) :=
  (db.transactions.filter (·.operationKind = .reserve)).map fun x => (x.id, x.tenant, x.idempotencyKey)

theorem racedReserves_twice :
    (racedReserves "a" "A").toOption.map (fun p => reservesShown p.2) =
      some [(⟨111, []⟩, ⟨1, []⟩, resumeKey "a"), (⟨112, []⟩, ⟨1, []⟩, resumeKey "A")] := by
  decide +kernel

section

variable {ι : Type} [DecidableEq ι] {g : ResumeWorld ι} {i : ι} {n : ℕ} {given : String}

theorem next_fetch (hrow : g.record.row = grantedRow) (hcall : g.calls i = none)
    (hgiven : resumeReader.uuid given = some ⟨601, []⟩) :
    g.next resumeReader (.fetch i (resumeEnv n) ⟨"t", given, ""⟩) =
      g.put i (some (.fetched given (resumedReserve n given))) := by
  simp only [ResumeWorld.next, hcall, hrow, resumedReserve_prepared n hgiven]

theorem next_reserve (hn : n ∈ [1, 2]) {id : Uuid} {db : Db}
    (hcall : g.calls i = some (.fetched given (resumedReserve n given)))
    (hexec : exec 0 ((resumedReserve n given).post resumeReader (resumeMint n) (resumeArgs n given)) g.ledger =
      .ok (id, db)) :
    g.next resumeReader (.reserve i (resumeMint n)) = { g.put i (some (.reserved id)) with ledger := db } := by
  have hreserve : handleReserveSet resumeReader (resumeMint n) (resumedReserve n given) g.ledger = .ok (id, db) := by
    rw [handleReserveSet]
    exact bind_eq_ok.mpr ⟨_, resumedReserve_transaction hn given, mapError_eq_ok.mpr hexec⟩
  simp only [ResumeWorld.next, hcall, hreserve]

theorem calls_next_reserve {j : ι} (h : j ≠ i) (m : ReserveMint) :
    (g.next resumeReader (.reserve i m)).calls j = g.calls j := by
  rw [ResumeWorld.next]
  split
  · split
    · exact Function.update_of_ne h ..
    · exact Function.update_of_ne h ..
  · rfl

end

theorem grantedWorld_fresh : grantedWorld.Fresh resumeReader where
  idle _ := rfl
  unbundled := rfl
  unspent x hx := by
    rintro ⟨tenant, text, -, -, -, hreserve, -⟩
    cases List.mem_singleton.mp hx
    cases hreserve

theorem raced_worlds {first second : String} {x y : Uuid} {db : Db}
    (hfirst : resumeReader.uuid first = some ⟨601, []⟩) (hsecond : resumeReader.uuid second = some ⟨601, []⟩)
    (hrun : racedReserves first second = .ok ((x, y), db)) :
    ∃ tr g, Trace (ResumeWorld.Step resumeReader) grantedWorld tr ∧ tr.map Prod.fst = racedResumes first second ∧
      g ∈ tr.map Prod.snd ∧ g.ledger = db ∧ g.record.row = grantedRow := by
  simp only [racedReserves, bind_eq_ok] at hrun
  obtain ⟨⟨x', db₁⟩, h₁, ⟨y', db₂⟩, h₂, hrun⟩ := hrun
  cases hrun
  let g₁ := grantedWorld.put 0 (some (.fetched first (resumedReserve 1 first)))
  let g₂ := g₁.put 1 (some (.fetched second (resumedReserve 2 second)))
  let g₃ : ResumeWorld (Fin 2) := { g₂.put 0 (some (.reserved x')) with ledger := db₁ }
  let g₄ : ResumeWorld (Fin 2) := { g₃.put 1 (some (.reserved y')) with ledger := db₂ }
  refine ⟨(racedResumes first second).zip [g₁, g₂, g₃, g₄], g₄, ?_, rfl, by simp [racedResumes], rfl, rfl⟩
  have hstep₁ : grantedWorld.next resumeReader (.fetch 0 (resumeEnv 1) ⟨"t", first, ""⟩) = g₁ :=
    next_fetch rfl rfl hfirst
  have hstep₂ : g₁.next resumeReader (.fetch 1 (resumeEnv 2) ⟨"t", second, ""⟩) = g₂ :=
    next_fetch rfl rfl hsecond
  have hstep₃ : g₂.next resumeReader (.reserve 0 (resumeMint 1)) = g₃ := next_reserve (by decide) rfl h₁
  have hstep₄ : g₃.next resumeReader (.reserve 1 (resumeMint 2)) = g₄ := next_reserve (by decide) rfl h₂
  exact .cons ⟨trivial, hstep₁⟩ (.cons ⟨trivial, hstep₂⟩ (.cons ⟨trivial, hstep₃⟩
    (.cons ⟨trivial, hstep₄⟩ (.nil _))))

theorem grantedRow_spends {text : String} (htext : resumeReader.uuid text = some ⟨601, []⟩) {x : LedgerTransaction}
    (hx : ReservedUnder ⟨1, []⟩ (resumeKey text) x) : Spends resumeReader grantedRow x := by
  refine ⟨⟨1, []⟩, text, ?_, htext, hx⟩
  rw [documentTenant]
  exact congrArg (fun d => d.toOption.bind fun d : DecisionContext => resumeReader.uuid d.tenantId)
    (ofJson_decisionContext (financeApproval [largeClaim "5"]))

/-- A second spelling of the id is a second key: both resumes reserve. -/
theorem second_spelling_spends_again :
    grantedWorld.Fresh resumeReader ∧ ∃ tr g, Trace (ResumeWorld.Step resumeReader) grantedWorld tr ∧
      tr.map Prod.fst = racedResumes "a" "A" ∧ g ∈ tr.map Prod.snd ∧
      reservesShown g.ledger = [(⟨111, []⟩, ⟨1, []⟩, resumeKey "a"), (⟨112, []⟩, ⟨1, []⟩, resumeKey "A")] ∧
      ¬grantedWorld.SpentOnce resumeReader tr := by
  refine ⟨grantedWorld_fresh, ?_⟩
  obtain ⟨⟨⟨x, y⟩, db⟩, hrun, hshown⟩ := Option.map_eq_some_iff.mp racedReserves_twice
  obtain ⟨tr, g, htrace, hmoves, hg, hledger, hrow⟩ := raced_worlds rfl rfl (toOption_eq_some.mp hrun)
  rw [← hledger] at hshown
  refine ⟨tr, g, htrace, hmoves, hg, hshown, ?_⟩
  intro hspent
  obtain ⟨p, hp, rfl⟩ := List.mem_map.mp hg
  obtain ⟨x, xs, hfilter, hx, hxs⟩ := List.map_eq_cons_iff.mp hshown
  obtain ⟨y, ys, rfl, hy, hys⟩ := List.map_eq_cons_iff.mp hxs
  simp only [Prod.mk.injEq] at hx hy
  have hsub : (x :: y :: ys).Sublist p.2.ledger.transactions := hfilter ▸ List.filter_sublist
  have hreserve (z : LedgerTransaction) (hz : z ∈ x :: y :: ys) : z.operationKind = .reserve := by
    rw [← hfilter, List.mem_filter, decide_eq_true_eq] at hz
    exact hz.2
  have hnot := (List.pairwise_cons.mp ((hspent.once p hp).sublist hsub)).1 y List.mem_cons_self
  rw [hrow] at hnot
  apply hnot
  constructor
  · exact grantedRow_spends rfl ⟨hx.2.1, hreserve x List.mem_cons_self, hx.2.2⟩
  · exact grantedRow_spends rfl ⟨hy.2.1, hreserve y (by simp), hy.2.2⟩

def sameResumes : List (ResumeMove (Fin 2)) := racedResumes "a" "a" ++ [.mark 0 5, .mark 1 6]

theorem sameResumes_spelled : Along (ResumeWorld.SpelledAs "a") grantedWorld
    (traceOf (ResumeWorld.next resumeReader) grantedWorld sameResumes) := by
  have hstep₁ : grantedWorld.next resumeReader (.fetch 0 (resumeEnv 1) ⟨"t", "a", ""⟩) =
      grantedWorld.put 0 (some (.fetched "a" (resumedReserve 1 "a"))) := next_fetch rfl rfl rfl
  have hstep₂ : (grantedWorld.put 0 (some (.fetched "a" (resumedReserve 1 "a")))).next resumeReader
      (.fetch 1 (resumeEnv 2) ⟨"t", "a", ""⟩) = (grantedWorld.put 0 (some (.fetched "a" (resumedReserve 1 "a")))).put 1
        (some (.fetched "a" (resumedReserve 2 "a"))) := next_fetch rfl rfl rfl
  simp only [sameResumes, racedResumes, List.cons_append, List.nil_append, traceOf, hstep₁, hstep₂]
  refine ⟨trivial, trivial, ?_, ?_, trivial, trivial, trivial⟩
  · intro given r hcall
    cases hcall
    rfl
  · intro given r hcall
    rw [calls_next_reserve (by decide)] at hcall
    cases hcall
    rfl

/-- The second resume finds the transaction of the first. -/
theorem same_spelling_spends_once :
    let tr := traceOf (ResumeWorld.next resumeReader) grantedWorld sameResumes
    Along (ResumeWorld.SpelledAs "a") grantedWorld tr ∧ grantedWorld.SpentOnce resumeReader tr := by
  refine ⟨sameResumes_spelled, ?_⟩
  apply ResumeWorld.approval_spent_once grantedWorld_fresh _ sameResumes_spelled
  exact .cons ⟨trivial, rfl⟩ (.cons ⟨trivial, rfl⟩ (.cons ⟨trivial, rfl⟩ (.cons ⟨trivial, rfl⟩
    (.cons ⟨trivial, rfl⟩ (.cons ⟨trivial, rfl⟩ (.nil _))))))

end Demo

end SpendGuard.Approval
