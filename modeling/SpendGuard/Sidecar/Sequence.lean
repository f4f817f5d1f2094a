import SpendGuard.Audit.Payload
import SpendGuard.Base.Paging
import SpendGuard.Sidecar.Commit

/-!
How a sidecar that starts finds its next producer sequence: it asks the ledger to replay the audit rows of
its workload, keeps the highest sequence it sees, and hands out the numbers above it.
-/

namespace SpendGuard.Sidecar

open Base Ledger

/-- A row of `audit_outbox` as a replay reads it. -/
structure AuditOutboxRow where
  row : Audit.OutboxRow
  ledgerTransactionId : Uuid
  ledgerFencingEpoch : ℤ
  workloadInstanceId : String
  pendingForward : Bool
  recordedAt : ℕ
  bigint : row.producerSequence < 2 ^ 63

def AuditOutboxRow.producerSequence (r : AuditOutboxRow) : ℤ := r.row.producerSequence

/-- The tables of the ledger that a replay reads.  The index of the global keys leaves a workload one row
a sequence. -/
structure ReplayDb where
  fencingScopes : List FencingScope
  outbox : List AuditOutboxRow
  sequences : (outbox.map fun r => (r.row.tenantId, r.workloadInstanceId, r.producerSequence)).Nodup

structure ReplayAuditFromCursorRequest where
  tenantId : String
  workloadInstanceId : String
  fencingEpoch : UInt64
  producerSequenceAfter : UInt64
  limit : UInt32
  fencingScopeId : String

structure ReplayAuditEvent where
  event : Audit.CloudEvent
  producerSequence : UInt64
  recordedAt : ℕ
  ledgerTransactionId : String
  forwarded : Bool

def heldBy (tenant : Uuid) (workload : String) (now : ℕ) (s : FencingScope) : Bool :=
  s.tenant = tenant ∧ s.activeOwner = some workload ∧ s.expired now = false

def replayEpoch (db : ReplayDb) (tenant : Uuid) (workload : String) (now : ℕ) :
    Option Uuid → Except DomainError ℤ
  | some scope =>
    match db.fencingScopes.find? fun s => s.id = scope ∧ heldBy tenant workload now s with
    | some s => return s.currentEpoch
    | none => .error (.fencingEpochStale ("no live fencing scope " ++ scope.text ++ " owned by workload " ++
        workload))
  | none =>
    match db.fencingScopes.filter (heldBy tenant workload now) with
    | [] => .error (.fencingEpochStale ("no live fencing scope owned by workload " ++ workload))
    | [s] => return s.currentEpoch
    | scopes => .error (.fencingEpochStale ("workload " ++ workload ++ " owns " ++ toString scopes.length ++
        " live scopes; caller MUST supply fencing_scope_id to disambiguate"))

def staleEpoch (caller current : ℤ) : Option Uuid → String
  | some scope => "caller=" ++ toString caller ++ ", scope=" ++ scope.text ++ " current=" ++ toString current
  | none => "caller=" ++ toString caller ++ ", current=" ++ toString current

def ReplayDb.replayable (db : ReplayDb) (tenant : Uuid) (workload : String) (epoch : ℤ) : List AuditOutboxRow :=
  db.outbox.filter fun r =>
    r.row.tenantId = tenant ∧ r.workloadInstanceId = workload ∧ r.ledgerFencingEpoch ≤ epoch

def replayAuditFromCursor (db : ReplayDb) (now : ℕ) (tenant : Uuid) (workload : String) (epoch : ℤ)
    (scope : Option Uuid) (after : ℤ) (limit : UInt32) : Except DomainError (List AuditOutboxRow) := do
  let current ← replayEpoch db tenant workload now scope
  check (current = epoch) (.fencingEpochStale (staleEpoch epoch current scope))
  return page (·.producerSequence) (fun _ rows => rows) limit.toNat (db.replayable tenant workload epoch)
    (some after)

def replayEvent (fl : Audit.FloatText) (r : AuditOutboxRow) : Option ReplayAuditEvent :=
  (Audit.decodeCloudeventFromJsonb fl r.row).toOption.map fun event =>
    ⟨event, .ofInt r.producerSequence, r.recordedAt, r.ledgerTransactionId.text, !r.pendingForward⟩

def readScope (parseUuid : String → Option Uuid) (text : String) : Except Status (Option Uuid) :=
  if text = "" then .ok none else (found (parseUuid text) ⟨"fencing_scope_id"⟩).map some

/-- `Ledger::ReplayAuditFromCursor`.  What the query refuses is the first message of a stream. -/
def replayStream (fl : Audit.FloatText) (parseUuid : String → Option Uuid) (db : ReplayDb) (now : ℕ)
    (req : ReplayAuditFromCursorRequest) : Except Status (List (Except DomainError ReplayAuditEvent)) := do
  let tenant ← found (parseUuid req.tenantId) ⟨"tenant_id"⟩
  let scope ← readScope parseUuid req.fencingScopeId
  match replayAuditFromCursor db now tenant req.workloadInstanceId req.fencingEpoch.toInt64.toInt scope
      req.producerSequenceAfter.toInt64.toInt (max req.limit 1) with
  | .error e => return [.error e]
  | .ok rows => return (rows.filterMap (replayEvent fl)).map .ok

structure SequenceConfig where
  tenantId : String
  workloadInstanceId : String
  fencingScopeId : String
  fencingInitialEpoch : UInt64

def SequenceConfig.request (cfg : SequenceConfig) : ReplayAuditFromCursorRequest where
  tenantId := cfg.tenantId
  workloadInstanceId := cfg.workloadInstanceId
  fencingEpoch := cfg.fencingInitialEpoch
  producerSequenceAfter := 0
  limit := 1024
  fencingScopeId := cfg.fencingScopeId

def maxSeen : UInt64 → List (Except DomainError ReplayAuditEvent) → UInt64
  | m, .ok ev :: rest => maxSeen (if m < ev.producerSequence then ev.producerSequence else m) rest
  | m, _ => m

def bootstrapProducerSequence : Except Status (List (Except DomainError ReplayAuditEvent)) → UInt64
  | .ok stream => maxSeen 0 stream + 1
  | .error _ => 1

def startSequence (fl : Audit.FloatText) (parseUuid : String → Option Uuid) (db : ReplayDb) (now : ℕ)
    (cfg : SequenceConfig) : UInt64 :=
  bootstrapProducerSequence (replayStream fl parseUuid db now cfg.request)

/-- A call on the counter; a block of no numbers panics. -/
inductive SequenceCall
  | next
  | block (n : UInt64) (pos : 0 < n)

namespace SequenceCall

def size : SequenceCall → UInt64
  | .next => 1
  | .block n _ => n

/-- `fetch_add`: the first and the last number that are handed out, and the counter from then on. -/
def run (counter : UInt64) (c : SequenceCall) : (UInt64 × UInt64) × UInt64 :=
  ((counter, counter + c.size - 1), counter + c.size)

def total (cs : List SequenceCall) : ℕ := (cs.map fun c => c.size.toNat).sum

def HandsOut (v : UInt64) : UInt64 → List SequenceCall → Prop
  | _, [] => False
  | counter, c :: cs =>
    ((c.run counter).1.1 ≤ v ∧ v ≤ (c.run counter).1.2) ∨ HandsOut v (c.run counter).2 cs

theorem size_pos (c : SequenceCall) : 0 < c.size.toNat := by
  cases c with
  | next => decide
  | block n pos => exact UInt64.lt_iff_toNat_lt.mp pos

theorem le_of_handsOut {v counter : UInt64} {cs : List SequenceCall} (h : HandsOut v counter cs)
    (hroom : counter.toNat + total cs ≤ 2 ^ 64) : counter ≤ v := by
  induction cs generalizing counter with
  | nil => exact h.elim
  | cons c cs ih =>
    rw [total, List.map_cons, List.sum_cons] at hroom
    rcases h with h | h
    · exact h.1
    · cases cs with
      | nil => exact h.elim
      | cons c' cs =>
        have hrest := size_pos c'
        rw [List.map_cons, List.sum_cons] at hroom
        have hnext : (counter + c.size).toNat = counter.toNat + c.size.toNat := by
          rw [UInt64.toNat_add, Nat.mod_eq_of_lt (by omega)]
        have hle := ih h (by
          change (counter + c.size).toNat + total (c' :: cs) ≤ 2 ^ 64
          rw [hnext, total, List.map_cons, List.sum_cons]
          omega)
        change counter + c.size ≤ v at hle
        rw [UInt64.le_iff_toNat_le, hnext] at hle
        rw [UInt64.le_iff_toNat_le]
        omega

end SequenceCall

section Recovery

def ReplayDb.stored (db : ReplayDb) (tenant : Uuid) (workload : String) : List AuditOutboxRow :=
  db.outbox.filter fun r => r.row.tenantId = tenant ∧ r.workloadInstanceId = workload

def ReplayDb.numbered (db : ReplayDb) (tenant : Uuid) (workload : String) : List AuditOutboxRow :=
  (db.stored tenant workload).filter fun r => 0 < r.producerSequence

def ReplayDb.Above (db : ReplayDb) (tenant : Uuid) (workload : String) (v : UInt64) : Prop :=
  ∀ r ∈ db.stored tenant workload, r.producerSequence < v.toNat

/-- If anything is stored, the caller's epoch is the current one of its scope, one page holds all rows, and
the last of them decodes. -/
def ReplayDb.Recoverable (fl : Audit.FloatText) (db : ReplayDb) (now : ℕ) (cfg : SequenceConfig) (tenant : Uuid)
    (scope : Option Uuid) : Prop :=
  ∀ r ∈ db.numbered tenant cfg.workloadInstanceId,
    (∀ r' ∈ db.numbered tenant cfg.workloadInstanceId, r'.producerSequence ≤ r.producerSequence) →
      replayEpoch db tenant cfg.workloadInstanceId now scope = .ok cfg.fencingInitialEpoch.toInt64.toInt ∧
        (db.numbered tenant cfg.workloadInstanceId).length ≤ 1024 ∧
        (Audit.decodeCloudeventFromJsonb fl r.row).isOk = true

variable {fl : Audit.FloatText} {db : ReplayDb} {now : ℕ} {tenant : Uuid} {workload : String} {r : AuditOutboxRow}

theorem le_maxSeen_iff {x m : UInt64} {evs : List ReplayAuditEvent} :
    x ≤ maxSeen m (evs.map .ok) ↔ x ≤ m ∨ ∃ ev ∈ evs, x ≤ ev.producerSequence := by
  induction evs generalizing m with
  | nil => simp [maxSeen]
  | cons ev evs ih =>
    rw [List.map_cons, maxSeen, ih, List.exists_mem_cons_iff, ← or_assoc]
    apply or_congr_left
    simp only [UInt64.le_iff_toNat_le, UInt64.lt_iff_toNat_lt]
    split
    · omega
    · omega

theorem toNat_ofInt {n : ℤ} (h₀ : 0 ≤ n) (h : n < 2 ^ 63) : ((UInt64.ofInt n).toNat : ℤ) = n := by
  rw [UInt64.ofInt, UInt64.toNat_ofNat']
  omega

variable {rows : List AuditOutboxRow}

theorem mem_filterMap_replayEvent {ev : ReplayAuditEvent}
    (h : ev ∈ rows.filterMap (replayEvent fl)) :
    ∃ r ∈ rows, (Audit.decodeCloudeventFromJsonb fl r.row).isOk = true ∧
      ev.producerSequence = .ofInt r.producerSequence := by
  obtain ⟨r, hr, hev⟩ := List.mem_filterMap.mp h
  obtain ⟨event, hevent, rfl⟩ := Option.map_eq_some_iff.mp hev
  exact ⟨r, hr, isOk_iff_exists.mpr ⟨event, toOption_eq_some.mp hevent⟩, rfl⟩

theorem exists_replayEvent (hr : r ∈ rows)
    (hdecodes : (Audit.decodeCloudeventFromJsonb fl r.row).isOk = true) :
    ∃ ev ∈ rows.filterMap (replayEvent fl), ev.producerSequence = .ofInt r.producerSequence := by
  obtain ⟨event, hevent⟩ := isOk_iff_exists.mp hdecodes
  have hreplay : replayEvent fl r = some
      ⟨event, .ofInt r.producerSequence, r.recordedAt, r.ledgerTransactionId.text, !r.pendingForward⟩ := by
    rw [replayEvent, toOption_eq_some.mpr hevent]
    rfl
  exact ⟨_, List.mem_filterMap.mpr ⟨r, hr, hreplay⟩, rfl⟩

variable (fl)

theorem toNat_start (hpos : ∀ r ∈ rows, 0 < r.producerSequence) :
    (bootstrapProducerSequence (.ok ((rows.filterMap (replayEvent fl)).map .ok))).toNat =
      (maxSeen 0 ((rows.filterMap (replayEvent fl)).map .ok)).toNat + 1 := by
  have hsmall : (maxSeen 0 ((rows.filterMap (replayEvent fl)).map .ok)).toNat < 2 ^ 63 := by
    rcases le_maxSeen_iff.mp (UInt64.le_refl (maxSeen 0 ((rows.filterMap (replayEvent fl)).map .ok))) with
      hzero | ⟨ev, hev, hle⟩
    · rw [UInt64.le_iff_toNat_le] at hzero
      exact hzero.trans_lt (by decide)
    · obtain ⟨r, hr, -, hseq⟩ := mem_filterMap_replayEvent hev
      have hnat := toNat_ofInt (hpos r hr).le r.bigint
      have hbound : r.producerSequence < 2 ^ 63 := r.bigint
      rw [hseq, UInt64.le_iff_toNat_le] at hle
      omega
  rw [bootstrapProducerSequence, UInt64.toNat_add]
  exact Nat.mod_eq_of_lt (by change _ + 1 < 2 ^ 64; omega)

theorem lt_start_iff (hpos : ∀ r ∈ rows, 0 < r.producerSequence)
    (hr : 0 < r.producerSequence) :
    r.producerSequence < (bootstrapProducerSequence (.ok ((rows.filterMap (replayEvent fl)).map .ok))).toNat ↔
      ∃ r' ∈ rows, (Audit.decodeCloudeventFromJsonb fl r'.row).isOk = true ∧
        r.producerSequence ≤ r'.producerSequence := by
  have hself := toNat_ofInt hr.le r.bigint
  have hstart : r.producerSequence < (bootstrapProducerSequence (.ok ((rows.filterMap (replayEvent fl)).map
      .ok))).toNat ↔ UInt64.ofInt r.producerSequence ≤ maxSeen 0 ((rows.filterMap (replayEvent fl)).map .ok) := by
    rw [toNat_start fl hpos, UInt64.le_iff_toNat_le]
    omega
  rw [hstart, le_maxSeen_iff]
  constructor
  · rintro (hzero | ⟨ev, hev, hle⟩)
    · rw [UInt64.le_iff_toNat_le] at hzero
      change _ ≤ 0 at hzero
      omega
    · obtain ⟨r', hr', hdecodes, hseq⟩ := mem_filterMap_replayEvent hev
      refine ⟨r', hr', hdecodes, ?_⟩
      have hnat := toNat_ofInt (hpos r' hr').le r'.bigint
      rw [hseq, UInt64.le_iff_toNat_le] at hle
      omega
  · rintro ⟨r', hr', hdecodes, hle⟩
    obtain ⟨ev, hev, hseq⟩ := exists_replayEvent hr' hdecodes
    refine .inr ⟨ev, hev, ?_⟩
    have hnat := toNat_ofInt (hpos r' hr').le r'.bigint
    rw [hseq, UInt64.le_iff_toNat_le]
    omega

theorem mem_numbered : r ∈ db.numbered tenant workload ↔ r ∈ db.stored tenant workload ∧ 0 < r.producerSequence := by
  rw [ReplayDb.numbered, List.mem_filter, decide_eq_true_eq]

theorem ReplayDb.stored_sequences (db : ReplayDb) (tenant : Uuid) (workload : String) :
    ((db.stored tenant workload).map (·.producerSequence)).Nodup := by
  have hkeys := List.pairwise_map.mp db.sequences
  apply List.pairwise_map.mpr
  apply (hkeys.sublist List.filter_sublist).imp_of_mem
  intro r r' hr hr' hne heq
  rw [List.mem_filter, decide_eq_true_eq] at hr hr'
  apply hne
  rw [hr.2.1, hr.2.2, hr'.2.1, hr'.2.2, heq]

theorem replayable_eq_stored {epoch : ℤ} (h : ∀ r ∈ db.stored tenant workload, r.ledgerFencingEpoch ≤ epoch) :
    db.replayable tenant workload epoch = db.stored tenant workload := by
  apply List.filter_congr
  intro r hr
  rw [decide_eq_decide, ← and_assoc]
  apply and_iff_left_of_imp
  intro hmine
  exact h r (List.mem_filter.mpr ⟨hr, decide_eq_true hmine⟩)

/-- The first page of a workload's rows brings the start above all of them exactly if the page holds them
all and the last one decodes. -/
theorem page_above_iff {limit : ℕ}
    (hrows : rows = page (·.producerSequence) (fun _ rows => rows) limit (db.stored tenant workload) (some 0)) :
    db.Above tenant workload (bootstrapProducerSequence (.ok ((rows.filterMap (replayEvent fl)).map .ok))) ↔
      ∀ r ∈ db.numbered tenant workload,
        (∀ r' ∈ db.numbered tenant workload, r'.producerSequence ≤ r.producerSequence) →
          (db.numbered tenant workload).length ≤ limit ∧ (Audit.decodeCloudeventFromJsonb fl r.row).isOk = true := by
  have hpage (r : AuditOutboxRow) (hr : r ∈ rows) : r ∈ db.numbered tenant workload := by
    rw [hrows] at hr
    exact above_of_mem_page (fun _ => List.Perm.refl _) hr
  have htop (r : AuditOutboxRow) (hr : r ∈ db.numbered tenant workload)
      (hmax : ∀ r' ∈ db.numbered tenant workload, r'.producerSequence ≤ r.producerSequence) :
      r ∈ rows ↔ (db.numbered tenant workload).length ≤ limit := by
    rw [hrows]
    exact mem_page_of_top (fun _ => List.Perm.refl _) (db.stored_sequences tenant workload) hr hmax
  have hstart (r : AuditOutboxRow) (hr : r ∈ db.numbered tenant workload) :=
    lt_start_iff fl (fun r' hr' => (mem_numbered.mp (hpage r' hr')).2) (mem_numbered.mp hr).2
  constructor
  · intro habove r hr hmax
    obtain ⟨r', hr', hdecodes, hle⟩ := (hstart r hr).mp (habove r (mem_numbered.mp hr).1)
    have hsame : r' = r := by
      apply List.inj_on_of_nodup_map (db.stored_sequences tenant workload) (mem_numbered.mp (hpage r' hr')).1
        (mem_numbered.mp hr).1
      exact le_antisymm (hmax r' (hpage r' hr')) hle
    subst hsame
    exact ⟨(htop r' hr hmax).mp hr', hdecodes⟩
  · intro hcond r hr
    by_cases hpos : 0 < r.producerSequence
    · have hnumbered := mem_numbered.mpr ⟨hr, hpos⟩
      have hsome : (db.numbered tenant workload).argmax AuditOutboxRow.producerSequence ≠ none :=
        mt List.argmax_eq_none.mp (List.ne_nil_of_mem hnumbered)
      obtain ⟨t, ht⟩ := Option.ne_none_iff_exists'.mp hsome
      have hmem := List.argmax_mem ht
      have hmax (r' : AuditOutboxRow) (hr' : r' ∈ db.numbered tenant workload) :
          r'.producerSequence ≤ t.producerSequence := List.le_of_mem_argmax hr' ht
      obtain ⟨hshort, hdecodes⟩ := hcond t hmem hmax
      exact (hstart r hnumbered).mpr ⟨t, (htop t hmem hmax).mpr hshort, hdecodes, hmax r hnumbered⟩
    · rw [toNat_start fl fun r' hr' => (mem_numbered.mp (hpage r' hr')).2]
      omega

theorem refused_above_iff (e : DomainError) :
    db.Above tenant workload (bootstrapProducerSequence (.ok [.error e])) ↔ db.numbered tenant workload = [] := by
  rw [List.eq_nil_iff_forall_not_mem]
  apply forall_congr'
  intro r
  rw [mem_numbered, not_and, not_lt]
  apply imp_congr_right
  intro _
  change r.producerSequence < 1 ↔ r.producerSequence ≤ 0
  omega

section Replay

variable {epoch after : ℤ} {limit : UInt32} {scope : Option Uuid}

theorem replayAuditFromCursor_held (hheld : replayEpoch db tenant workload now scope = .ok epoch) :
    replayAuditFromCursor db now tenant workload epoch scope after limit =
      .ok (page (·.producerSequence) (fun _ rows => rows) limit.toNat (db.replayable tenant workload epoch)
        (some after)) := by
  rw [replayAuditFromCursor, hheld, ok_bind, check_of rfl, ok_bind]
  rfl

theorem replayAuditFromCursor_refused (hheld : replayEpoch db tenant workload now scope ≠ .ok epoch) :
    ∃ e, replayAuditFromCursor db now tenant workload epoch scope after limit = .error e := by
  rw [replayAuditFromCursor]
  cases hcurrent : replayEpoch db tenant workload now scope with
  | error e => exact ⟨e, rfl⟩
  | ok current =>
    rw [hcurrent] at hheld
    rw [ok_bind, check_of_not (fun heq => hheld (congrArg _ heq)), error_bind]
    exact ⟨_, rfl⟩

end Replay

variable {parseUuid : String → Option Uuid} {cfg : SequenceConfig} {scope : Option Uuid}

theorem startup_above_iff (htenant : parseUuid cfg.tenantId = some tenant)
    (hscope : readScope parseUuid cfg.fencingScopeId = .ok scope)
    (hepochs : ∀ epoch, replayEpoch db tenant cfg.workloadInstanceId now scope = .ok epoch →
      ∀ r ∈ db.stored tenant cfg.workloadInstanceId, r.ledgerFencingEpoch ≤ epoch) :
    db.Above tenant cfg.workloadInstanceId (startSequence fl parseUuid db now cfg) ↔
      db.Recoverable fl now cfg tenant scope := by
  rw [startSequence, replayStream, SequenceConfig.request]
  dsimp only
  rw [htenant, found_some, ok_bind, hscope, ok_bind]
  by_cases hheld : replayEpoch db tenant cfg.workloadInstanceId now scope =
    .ok cfg.fencingInitialEpoch.toInt64.toInt
  · rw [replayAuditFromCursor_held hheld, replayable_eq_stored (hepochs _ hheld)]
    refine (page_above_iff fl rfl).trans ?_
    simp only [ReplayDb.Recoverable, hheld, true_and]
    rfl
  · obtain ⟨e, he⟩ := replayAuditFromCursor_refused hheld
    rw [he]
    refine (refused_above_iff e).trans ?_
    constructor
    · intro hnone r hr
      rw [hnone] at hr
      cases hr
    · intro hcond
      by_contra hsome
      have hargmax : (db.numbered tenant cfg.workloadInstanceId).argmax AuditOutboxRow.producerSequence ≠ none :=
        mt List.argmax_eq_none.mp hsome
      obtain ⟨t, ht⟩ := Option.ne_none_iff_exists'.mp hargmax
      exact hheld (hcond t (List.argmax_mem ht) fun r' hr' => List.le_of_mem_argmax hr' ht).1

/-- From the start on, a sidecar hands out numbers above everything stored exactly if that is recoverable:
nothing is stored, or its epoch is current, one page holds all rows, and the last of them decodes. -/
theorem sequences_fresh_iff (htenant : parseUuid cfg.tenantId = some tenant)
    (hscope : readScope parseUuid cfg.fencingScopeId = .ok scope)
    (hepochs : ∀ epoch, replayEpoch db tenant cfg.workloadInstanceId now scope = .ok epoch →
      ∀ r ∈ db.stored tenant cfg.workloadInstanceId, r.ledgerFencingEpoch ≤ epoch) :
    (db.Above tenant cfg.workloadInstanceId (startSequence fl parseUuid db now cfg) ∧
        ∀ cs v, (startSequence fl parseUuid db now cfg).toNat + SequenceCall.total cs ≤ 2 ^ 64 →
          SequenceCall.HandsOut v (startSequence fl parseUuid db now cfg) cs →
            db.Above tenant cfg.workloadInstanceId v) ↔
      db.Recoverable fl now cfg tenant scope := by
  refine Iff.trans ?_ (startup_above_iff fl htenant hscope hepochs)
  apply and_iff_left_of_imp
  intro habove cs v hroom hv r hr
  have hle := UInt64.le_iff_toNat_le.mp (SequenceCall.le_of_handsOut hv hroom)
  exact (habove r hr).trans_le (Int.ofNat_le.mpr hle)

end Recovery

section Demo

def auditRow (payload : Json) {n : ℕ} (i : Fin n) (h : n < 2 ^ 62) : AuditOutboxRow where
  row := ⟨⟨500, []⟩, ⟨1, []⟩, ⟨200, []⟩, "spendguard.audit.decision", payload, [], (i.val + 1 : ℕ)⟩
  ledgerTransactionId := ⟨100, []⟩
  ledgerFencingEpoch := 1
  workloadInstanceId := "sidecar-1"
  pendingForward := false
  recordedAt := 0
  bigint := by
    have hi := i.isLt
    change ((i.val + 1 : ℕ) : ℤ) < 2 ^ 63
    omega

/-- A workload with the sequences from 1 to `n`, all with one payload. -/
def history (payload : Json) (n : ℕ) (h : n < 2 ^ 62) : ReplayDb where
  fencingScopes := [⟨⟨10, []⟩, .budgetWindow, ⟨1, []⟩, 1, some "sidecar-1", none⟩]
  outbox := (List.finRange n).map fun i => auditRow payload i h
  sequences := by
    rw [List.map_map]
    apply List.Nodup.map _ (List.nodup_finRange n)
    intro i j hij
    simp only [Function.comp, Prod.mk.injEq] at hij
    have hsequence : ((i.val + 1 : ℕ) : ℤ) = (j.val + 1 : ℕ) := hij.2.2
    omega

def readId (text : String) : Option Uuid := ([("t", 1), ("s", 10)].lookup text).map (⟨·, []⟩)

def sequenceConfig : SequenceConfig := ⟨"t", "sidecar-1", "s", 1⟩

theorem numbered_history (payload : Json) (n : ℕ) (h : n < 2 ^ 62) :
    (history payload n h).numbered ⟨1, []⟩ "sidecar-1" = (history payload n h).outbox := by
  rw [ReplayDb.numbered, ReplayDb.stored, List.filter_filter, List.filter_eq_self]
  intro r hr
  obtain ⟨i, -, rfl⟩ := List.mem_map.mp hr
  have hpos : 0 < (auditRow payload i h).producerSequence := Int.natCast_pos.mpr (Nat.succ_pos i)
  simp only [hpos, decide_true, Bool.true_and, decide_eq_true_eq]
  exact ⟨rfl, rfl⟩

theorem history_epochs (payload : Json) (n : ℕ) (h : n < 2 ^ 62) (epoch : ℤ)
    (hepoch : replayEpoch (history payload n h) ⟨1, []⟩ "sidecar-1" 0 (some ⟨10, []⟩) = .ok epoch) :
    ∀ r ∈ (history payload n h).stored ⟨1, []⟩ "sidecar-1", r.ledgerFencingEpoch ≤ epoch := by
  cases hepoch
  intro r hr
  obtain ⟨i, -, rfl⟩ := List.mem_map.mp (List.mem_of_mem_filter hr)
  exact le_refl _

theorem of_history_above {payload : Json} {n : ℕ} {h : n + 1 < 2 ^ 62}
    (habove : (history payload (n + 1) h).Above ⟨1, []⟩ "sidecar-1"
      (startSequence Audit.unaryFloats readId (history payload (n + 1) h) 0 sequenceConfig)) :
    n + 1 ≤ 1024 ∧
      (Audit.decodeCloudeventFromJsonb Audit.unaryFloats (auditRow payload (Fin.last n) h).row).isOk = true := by
  have hrecoverable : (history payload (n + 1) h).Recoverable Audit.unaryFloats 0 sequenceConfig ⟨1, []⟩
      (some ⟨10, []⟩) := (startup_above_iff Audit.unaryFloats rfl rfl (history_epochs _ _ h)).mp habove
  have hnumbered := numbered_history payload (n + 1) h
  have hlast := hrecoverable (auditRow payload (Fin.last n) h) (by
      rw [sequenceConfig, hnumbered]
      exact List.mem_map_of_mem (List.mem_finRange _)) (by
    intro r hr
    rw [sequenceConfig, hnumbered] at hr
    obtain ⟨i, -, rfl⟩ := List.mem_map.mp hr
    exact Int.ofNat_le.mpr (Nat.succ_le_succ (Fin.le_last i)))
  rw [sequenceConfig, hnumbered] at hlast
  refine ⟨?_, hlast.2.2⟩
  simpa [history] using hlast.2.1

/-- After more rows than a page holds, or when the last row does not decode, a restarted sidecar begins at or
below a sequence that is taken. -/
theorem restart_reuses_sequences :
    ¬(history (.obj []) 1025 (by decide)).Above ⟨1, []⟩ "sidecar-1"
        (startSequence Audit.unaryFloats readId (history (.obj []) 1025 (by decide)) 0 sequenceConfig) ∧
      ¬(history (.obj [("data_b64", .str "!")]) 1 (by decide)).Above ⟨1, []⟩ "sidecar-1"
        (startSequence Audit.unaryFloats readId (history (.obj [("data_b64", .str "!")]) 1 (by decide)) 0
          sequenceConfig) := by
  constructor
  · intro habove
    exact absurd (of_history_above habove).1 (by decide)
  · intro habove
    exact absurd (of_history_above habove).2 (by decide +kernel)

/-- Two rows that decode are recovered. -/
theorem short_history_fresh :
    startSequence Audit.unaryFloats readId (history (.obj []) 2 (by decide)) 0 sequenceConfig = 3 ∧
      ∀ cs v, 3 + SequenceCall.total cs ≤ 2 ^ 64 → SequenceCall.HandsOut v 3 cs →
        (history (.obj []) 2 (by decide)).Above ⟨1, []⟩ "sidecar-1" v := by
  have hstart : startSequence Audit.unaryFloats readId (history (.obj []) 2 (by decide)) 0 sequenceConfig = 3 := by
    decide +kernel
  refine ⟨hstart, ?_⟩
  have hrecoverable : (history (.obj []) 2 (by decide)).Recoverable Audit.unaryFloats 0 sequenceConfig ⟨1, []⟩
      (some ⟨10, []⟩) := by
    intro r hr _
    rw [sequenceConfig, numbered_history] at hr ⊢
    obtain ⟨i, -, rfl⟩ := List.mem_map.mp hr
    exact ⟨rfl, by decide, rfl⟩
  have hscope : readScope readId sequenceConfig.fencingScopeId = .ok (some ⟨10, []⟩) := rfl
  have hfresh := ((sequences_fresh_iff Audit.unaryFloats rfl hscope (history_epochs _ _ _)).mpr hrecoverable).2
  rw [hstart] at hfresh
  exact hfresh

end Demo

end SpendGuard.Sidecar
