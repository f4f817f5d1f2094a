import SpendGuard.Base.Check
import SpendGuard.Base.Json
import SpendGuard.Base.Paging
import SpendGuard.Base.Text
import SpendGuard.Ledger.Schema

/-!
The audit export of the dashboard: a tenant's canonical events of a time range, page by page.
-/

namespace SpendGuard.Dashboard

open Base Ledger

inductive Role
  | viewer
  | operator
  | approver
  | admin
  | auditor

def Role.parse : String → Option Role
  | "viewer" => some .viewer
  | "operator" => some .operator
  | "approver" => some .approver
  | "admin" => some .admin
  | "auditor" => some .auditor
  | _ => none

inductive Permission
  | readView
  | tenantWrite
  | budgetWrite
  | approvalResolve
  | auditExport
  deriving DecidableEq

def permissionsForRole : Role → List Permission
  | .viewer => [.readView]
  | .operator => [.readView, .budgetWrite]
  | .approver => [.readView, .approvalResolve]
  | .admin => [.readView, .tenantWrite, .budgetWrite, .approvalResolve, .auditExport]
  | .auditor => [.readView, .auditExport]

structure Principal where
  roles : List String
  tenantIds : List String

def Principal.hasPermission (principal : Principal) (p : Permission) : Bool :=
  principal.roles.any fun text => (Role.parse text).any fun role => p ∈ permissionsForRole role

def Principal.assertTenant (principal : Principal) (tenantId : String) : Bool :=
  !principal.tenantIds.isEmpty && principal.tenantIds.contains tenantId

inductive StatusCode
  | badRequest
  | forbidden
  | internalServerError
  | serviceUnavailable
  deriving DecidableEq

/-- A row of `canonical_events` as the export's query reads it. -/
structure CanonicalEvent where
  eventId : Uuid
  eventType : String
  tenantId : Uuid
  decisionId : Option Uuid
  recordedAt : ℤ
  cloudeventPayload : Json
  producerSignature : Bytes
  signingKeyId : String
  signingAlgorithm : String
  regionId : String
  ingestShardId : String
  ingestLogOffset : Int64
  recordedMonth : ℕ

structure EventTable where
  columns : List String
  rows : List CanonicalEvent

/-- The columns of `canonical_events` after all migrations. -/
def migratedColumns : List String :=
  ["event_id", "tenant_id", "decision_id", "run_id", "event_type", "storage_class", "producer_id",
    "producer_sequence", "producer_signature", "signing_key_id", "schema_bundle_id", "schema_bundle_hash",
    "specversion", "source", "event_time", "datacontenttype", "payload_json", "payload_blob_ref",
    "region_id", "ingest_shard_id", "ingest_log_offset", "ingest_at", "recorded_month", "failure_class",
    "predicted_a_tokens", "predicted_b_tokens", "predicted_c_tokens", "reserved_strategy",
    "prediction_strategy_used", "prediction_policy_used", "tokenizer_tier", "tokenizer_version_id",
    "prediction_confidence", "prediction_sample_size", "cold_start_layer_used",
    "run_projection_at_decision_atomic", "run_predicted_remaining_steps", "run_steps_completed_so_far",
    "actual_input_tokens", "actual_output_tokens", "delta_b_ratio", "delta_c_ratio", "model", "agent_id",
    "run_id_mirror", "prompt_class", "prompt_class_fingerprint"]

def exportColumns : List String :=
  ["event_id", "event_type", "tenant_id", "decision_id", "recorded_at", "cloudevent_payload",
    "producer_signature", "signing_key_id", "signing_algorithm", "ingest_log_offset", "recorded_month"]

structure ExportQuery where
  tenantId : String
  fromText : String
  toText : String
  cursor : Option String := none
  pageSize : Option ℕ := none

structure ExportRow where
  eventId : String
  eventType : String
  tenantId : String
  decisionId : Option String
  recordedAt : ℤ
  cloudeventPayload : Json
  producerSignatureHex : String
  signingKeyId : String
  signingAlgorithm : String
  ingestLogOffset : Int64
  recordedMonth : ℕ

structure ExportManifest where
  rowCount : ℕ
  fromText : String
  toText : String
  nextCursor : Option String
  tenantId : String

structure ExportBatch where
  rows : List ExportRow
  manifest : ExportManifest

structure TimeText where
  parseTime : String → Option ℤ
  renderDate : ℕ → String
  parseDate : String → Option ℕ
  parse_render (d : ℕ) : parseDate (renderDate d) = some d
  colon_notMem (d : ℕ) : ':' ∉ (renderDate d).toList

def encodeHex (bytes : Bytes) : String := String.ofList (bytes.flatMap fun b => hexDigits 2 b.toNat)

def CanonicalEvent.exportRow (e : CanonicalEvent) : ExportRow where
  eventId := e.eventId.text
  eventType := e.eventType
  tenantId := e.tenantId.text
  decisionId := e.decisionId.map Uuid.text
  recordedAt := e.recordedAt
  cloudeventPayload := e.cloudeventPayload
  producerSignatureHex := encodeHex e.producerSignature
  signingKeyId := e.signingKeyId
  signingAlgorithm := e.signingAlgorithm
  ingestLogOffset := e.ingestLogOffset
  recordedMonth := e.recordedMonth

def CanonicalEvent.position (e : CanonicalEvent) : ℕ ×ₗ ℤ := toLex (e.recordedMonth, e.ingestLogOffset.toInt)

section Export

variable (tt : TimeText) (parseUuid : String → Option Uuid)

def renderCursor (c : ℕ ×ₗ ℤ) : String := tt.renderDate (ofLex c).1 ++ ":" ++ toString (ofLex c).2

def parseCursor : Option String → Except StatusCode (Option (ℕ ×ₗ ℤ))
  | none => .ok none
  | some s => do
    let (month, offset) ← found (splitOnce ':' s.toList) .badRequest
    let month ← found (tt.parseDate (String.ofList month)) .badRequest
    let offset ← found (parseI64 offset) .badRequest
    return some (toLex (month, offset))

def EventTable.selected (table : EventTable) (tenant : Uuid) (fromTs toTs : ℤ) : List CanonicalEvent :=
  table.rows.filter fun e => e.tenantId = tenant ∧ fromTs ≤ e.recordedAt ∧ e.recordedAt < toTs

def ExportQuery.size (q : ExportQuery) : ℕ := min (q.pageSize.getD 1000) 10000

/-- In which order the database returns rows of one month and offset depends on the query. -/
def apiAuditExport (plan : ExportQuery → List CanonicalEvent → List CanonicalEvent) (principal : Principal)
    (table : Option EventTable) (q : ExportQuery) : Except StatusCode ExportBatch := do
  check (principal.hasPermission .auditExport) .forbidden
  check (principal.assertTenant q.tenantId) .forbidden
  let table ← found table .serviceUnavailable
  let tenant ← found (parseUuid q.tenantId) .badRequest
  let fromTs ← found (tt.parseTime q.fromText) .badRequest
  let toTs ← found (tt.parseTime q.toText) .badRequest
  check (fromTs < toTs) .badRequest
  let after ← parseCursor tt q.cursor
  check (exportColumns ⊆ table.columns) .internalServerError
  let rows := page CanonicalEvent.position (fun _ => plan q) q.size (table.selected tenant fromTs toTs) after
  return {
    rows := rows.map CanonicalEvent.exportRow
    manifest := {
      rowCount := rows.length
      fromText := q.fromText
      toText := q.toText
      nextCursor := (cursorAfter CanonicalEvent.position q.size rows).map (renderCursor tt)
      tenantId := q.tenantId } }

/-- A client follows the cursors until there is none; `none` if it gives up before. -/
def exportAll (plan : ExportQuery → List CanonicalEvent → List CanonicalEvent) (principal : Principal)
    (table : Option EventTable) : ℕ → ExportQuery → Option (Except StatusCode (List ExportRow))
  | 0, _ => none
  | fuel + 1, q =>
    match apiAuditExport tt parseUuid plan principal table q with
    | .error e => some (.error e)
    | .ok batch =>
      match batch.manifest.nextCursor with
      | none => some (.ok batch.rows)
      | some c => (exportAll plan principal table fuel { q with cursor := some c }).map
          (Except.map (batch.rows ++ ·))

def ExportQuery.above (q : ExportQuery) (after : Option (ℕ ×ₗ ℤ)) : ExportQuery :=
  { q with cursor := after.map (renderCursor tt) }

structure ExportQuery.Accepted (q : ExportQuery) (principal : Principal) (tenant : Uuid) (fromTs toTs : ℤ) :
    Prop where
  permitted : principal.hasPermission .auditExport
  inScope : principal.assertTenant q.tenantId
  tenant : parseUuid q.tenantId = some tenant
  start : tt.parseTime q.fromText = some fromTs
  stop : tt.parseTime q.toText = some toTs
  ordered : fromTs < toTs
  first : q.cursor = none
  sized : q.pageSize ≠ some 0

variable {tt parseUuid} {plan : ExportQuery → List CanonicalEvent → List CanonicalEvent} {principal : Principal}
  {table : EventTable} {q : ExportQuery} {tenant : Uuid} {fromTs toTs : ℤ} {after : Option (ℕ ×ₗ ℤ)}

theorem parseCursor_render (e : CanonicalEvent) :
    parseCursor tt (some (renderCursor tt e.position)) = .ok (some e.position) := by
  have hcolon : ":".toList = [':'] := rfl
  have htext : (renderCursor tt e.position).toList =
      (tt.renderDate e.recordedMonth).toList ++ ':' :: (toString e.ingestLogOffset.toInt).toList := by
    simp [renderCursor, CanonicalEvent.position, hcolon]
  simp only [parseCursor, htext, splitOnce_append (tt.colon_notMem _), String.ofList_toList, tt.parse_render,
    parseI64_toString, found_some, ok_bind]
  rfl

def Issued (after : Option (ℕ ×ₗ ℤ)) : Prop := ∀ c ∈ after, ∃ e : CanonicalEvent, e.position = c

theorem Issued.parse (h : Issued after) : parseCursor tt (after.map (renderCursor tt)) = .ok after := by
  cases after with
  | none => rfl
  | some c =>
    obtain ⟨e, rfl⟩ := h c rfl
    exact parseCursor_render e

theorem Issued.none : Issued none := by
  intro c hc
  cases hc

theorem Issued.cursorAfter (size : ℕ) (rows : List CanonicalEvent) :
    Issued (cursorAfter CanonicalEvent.position size rows) := by
  intro c hc
  unfold Base.cursorAfter at hc
  split at hc
  · obtain ⟨e, -, he⟩ := Option.map_eq_some_iff.mp hc
    exact ⟨e, he⟩
  · cases hc

section Accepted

variable (h : q.Accepted tt parseUuid principal tenant fromTs toTs)

include h

theorem ExportQuery.Accepted.size_pos : 0 < q.size := by
  have hsized := h.sized
  cases hq : q.pageSize with
  | none => simp [ExportQuery.size, hq]
  | some n =>
    have hn : n ≠ 0 := fun hn => hsized (hq.trans (congrArg some hn))
    simp only [ExportQuery.size, hq, Option.getD_some]
    omega

theorem ExportQuery.Accepted.above_none : q.above tt none = q := by
  rw [ExportQuery.above, Option.map_none, ← h.first]

theorem ExportQuery.Accepted.query (hafter : Issued after) :
    apiAuditExport tt parseUuid plan principal (some table) (q.above tt after) =
      (do
        check (exportColumns ⊆ table.columns) .internalServerError
        let rows := page CanonicalEvent.position (fun c => plan (q.above tt c)) q.size
          (table.selected tenant fromTs toTs) after
        return {
          rows := rows.map CanonicalEvent.exportRow
          manifest := {
            rowCount := rows.length
            fromText := q.fromText
            toText := q.toText
            nextCursor := (cursorAfter CanonicalEvent.position q.size rows).map (renderCursor tt)
            tenantId := q.tenantId } }) := by
  have hscope : principal.assertTenant (q.above tt after).tenantId := h.inScope
  have htenant : parseUuid (q.above tt after).tenantId = some tenant := h.tenant
  have hstart : tt.parseTime (q.above tt after).fromText = some fromTs := h.start
  have hstop : tt.parseTime (q.above tt after).toText = some toTs := h.stop
  have hcursor : parseCursor tt (q.above tt after).cursor = .ok after := hafter.parse
  simp only [apiAuditExport, check_of h.permitted, check_of hscope, htenant, hstart, hstop,
    check_of h.ordered, hcursor, found_some, ok_bind]
  rfl

theorem ExportQuery.Accepted.exportAll_error (hcolumns : ¬exportColumns ⊆ table.columns) (fuel : ℕ) :
    exportAll tt parseUuid plan principal (some table) (fuel + 1) q = some (.error .internalServerError) := by
  rw [← h.above_none, exportAll, h.query Issued.none, check_of_not hcolumns, error_bind]

theorem ExportQuery.Accepted.exportAll_eq (hcolumns : exportColumns ⊆ table.columns) (fuel : ℕ)
    (hafter : Issued after) :
    exportAll tt parseUuid plan principal (some table) fuel (q.above tt after) =
      (collect CanonicalEvent.position (fun c => plan (q.above tt c)) q.size
        (table.selected tenant fromTs toTs) fuel after).map
          fun out => .ok (out.map CanonicalEvent.exportRow) := by
  induction fuel generalizing after with
  | zero => rfl
  | succ fuel ih =>
    rw [exportAll, h.query hafter, check_of hcolumns, ok_bind, collect]
    generalize page CanonicalEvent.position _ q.size _ after = rows
    have hnext := Issued.cursorAfter q.size rows
    cases hc : Base.cursorAfter CanonicalEvent.position q.size rows with
    | none => simp [hc, pure, Except.pure]
    | some c =>
      rw [hc] at hnext
      have hrest := ih hnext
      simp only [ExportQuery.above, Option.map_some] at hrest
      simp only [hc, pure, Except.pure, Option.map_some, ExportQuery.above, hrest, Option.map_map]
      congr 1
      funext out
      simp [Except.map]

/-- The export ends with every row of the range, each once, exactly if the query's columns exist and no page
ends between two rows of one month and offset. -/
theorem export_complete_iff (hplan : ∀ q l, (plan q l).Perm l) :
    (∃ fuel out, exportAll tt parseUuid plan principal (some table) fuel q = some (.ok out) ∧
        out.Perm ((table.selected tenant fromTs toTs).map CanonicalEvent.exportRow)) ↔
      exportColumns ⊆ table.columns ∧
        Aligned q.size (sortedKeys CanonicalEvent.position (table.selected tenant fromTs toTs)) := by
  generalize hrows : table.selected tenant fromTs toTs = rows
  have hfuel : (Base.above CanonicalEvent.position rows none).length < rows.length + 1 := by simp
  obtain ⟨all, hall, hsub, hiff⟩ := collect_spec (fun c => hplan (q.above tt c)) h.size_pos _ hfuel
  rw [Base.above_none] at hsub hiff
  constructor
  · rintro ⟨fuel, out, hout, hperm⟩
    by_cases hcolumns : exportColumns ⊆ table.columns
    · refine ⟨hcolumns, hiff.mp ?_⟩
      rw [← h.above_none, h.exportAll_eq hcolumns fuel Issued.none, hrows] at hout
      obtain ⟨got, hgot, hok⟩ := Option.map_eq_some_iff.mp hout
      cases hok
      rw [← collect_unique hgot hall]
      simpa using hperm.length_eq
    · -- the first request fails already
      cases fuel with
      | zero => cases hout
      | succ fuel =>
        rw [h.exportAll_error hcolumns fuel] at hout
        cases hout
  · rintro ⟨hcolumns, haligned⟩
    refine ⟨rows.length + 1, all.map CanonicalEvent.exportRow, ?_, ?_⟩
    · rw [← h.above_none, h.exportAll_eq hcolumns _ Issued.none, hrows, hall]
      rfl
    · exact (hsub.perm_of_length_le (hiff.mpr haligned).ge).map _

end Accepted

end Export

section Shards

def plainText : TimeText where
  parseTime s := parseI64 s.toList
  renderDate d := String.ofList (Nat.toDigits 10 d)
  parseDate s := parseDigits s.toList
  parse_render d := by rw [String.toList_ofList, parseDigits_toDigits]
  colon_notMem d := by
    rw [String.toList_ofList]
    intro hmem
    exact absurd (Nat.isDigit_of_mem_toDigits (by decide) (by decide) hmem) (by decide)

def auditor : Principal := ⟨["auditor"], ["acme"]⟩

def readTenant (s : String) : Option Uuid := if s = "acme" then some ⟨1, []⟩ else none

def shardEvent (id : ℕ) (shard : String) (offset : Int64) : CanonicalEvent where
  eventId := ⟨id, []⟩
  eventType := "spendguard.audit.decision"
  tenantId := ⟨1, []⟩
  decisionId := some ⟨id, []⟩
  recordedAt := 5
  cloudeventPayload := .obj []
  producerSignature := []
  signingKeyId := "key"
  signingAlgorithm := "ed25519"
  regionId := "us-east-1"
  ingestShardId := shard
  ingestLogOffset := offset
  recordedMonth := 3

def onePerPage : ExportQuery where
  tenantId := "acme"
  fromText := "0"
  toText := "10"
  pageSize := some 1

theorem onePerPage_accepted : onePerPage.Accepted plainText readTenant auditor ⟨1, []⟩ 0 10 where
  permitted := by decide
  inScope := by decide
  tenant := rfl
  start := by decide +kernel
  stop := by decide +kernel
  ordered := by decide
  first := rfl
  sized := by decide

def twoShards : List CanonicalEvent := [shardEvent 7 "shard-0" 1, shardEvent 8 "shard-1" 1]

/-- Two shards give the same offset to an event each; the cursor behind the one is also behind the other. -/
theorem twoShards_truncated :
    (twoShards.map fun e => (e.regionId, e.ingestShardId, e.ingestLogOffset)).Nodup ∧
      (EventTable.selected ⟨exportColumns, twoShards⟩ ⟨1, []⟩ 0 10).map (·.eventId) = [⟨7, []⟩, ⟨8, []⟩] ∧
      exportAll plainText readTenant (fun _ rows => rows) auditor (some ⟨exportColumns, twoShards⟩) 2
        onePerPage = some (.ok [(shardEvent 7 "shard-0" 1).exportRow]) ∧
      exportAll plainText readTenant (fun _ rows => rows) auditor (some ⟨migratedColumns, twoShards⟩) 1
        onePerPage = some (.error .internalServerError) := by
  refine ⟨by decide +kernel, by decide +kernel, ?_, ?_⟩
  · rw [← onePerPage_accepted.above_none,
      onePerPage_accepted.exportAll_eq (List.Subset.refl _) 2 Issued.none]
    rfl
  · exact onePerPage_accepted.exportAll_error (by decide +kernel) 0

/-- One shard gives each offset once. -/
theorem oneShard_exported :
    onePerPage.Accepted plainText readTenant auditor ⟨1, []⟩ 0 10 ∧
      ∃ fuel out, exportAll plainText readTenant (fun _ rows => rows) auditor
        (some ⟨exportColumns, [shardEvent 7 "shard-0" 1, shardEvent 8 "shard-0" 2]⟩) fuel onePerPage =
          some (.ok out) ∧
        out.Perm ((EventTable.selected ⟨exportColumns, [shardEvent 7 "shard-0" 1, shardEvent 8 "shard-0" 2]⟩
          ⟨1, []⟩ 0 10).map CanonicalEvent.exportRow) := by
  refine ⟨onePerPage_accepted,
    (export_complete_iff onePerPage_accepted (fun _ rows => List.Perm.refl rows)).mpr
      ⟨List.Subset.refl _, ?_⟩⟩
  have hkeys : sortedKeys CanonicalEvent.position
      (EventTable.selected ⟨exportColumns, [shardEvent 7 "shard-0" 1, shardEvent 8 "shard-0" 2]⟩ ⟨1, []⟩ 0 10) =
      [toLex (3, 1), toLex (3, 2)] := by decide +kernel
  rw [hkeys]
  intro j a b ha hb
  cases j with
  | zero =>
    cases ha
    cases hb
    decide +kernel
  | succ j =>
    have hnone : ([toLex (3, 1), toLex (3, 2)] : List (ℕ ×ₗ ℤ))[(j + 1 + 1) * onePerPage.size]? = none :=
      List.getElem?_eq_none (by simp [onePerPage, ExportQuery.size])
    rw [hnone] at hb
    cases hb

end Shards

end SpendGuard.Dashboard
