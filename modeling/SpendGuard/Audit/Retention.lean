import SpendGuard.Audit.Mirror
import SpendGuard.Base.Jsonb
import SpendGuard.Base.Run

/-!
The redaction of old prompts: the immutability trigger of `audit_outbox` with its exemption, the procedure
that uses it, and the retention sweeper that calls the procedure.
-/

namespace SpendGuard.Audit

open Base Ledger

structure OutboxColumns where
  auditOutboxId : Uuid
  auditDecisionEventId : Uuid
  decisionId : Uuid
  tenantId : Uuid
  ledgerTransactionId : Uuid
  eventType : String
  cloudeventPayloadSignature : Bytes
  ledgerFencingEpoch : ℤ
  workloadInstanceId : String
  recordedAt : ℤ
  recordedMonth : ℤ
  producerSequence : ℤ
  idempotencyKey : String
  prediction : PredictionColumns
  deriving DecidableEq

structure RetainedRow where
  columns : OutboxColumns
  cloudeventPayload : Json
  pendingForward : Bool := true
  forwardedAt : Option ℤ := none
  forwardAttempts : ℤ := 0
  lastForwardError : Option String := none
  deriving DecidableEq

def realValue (bits : UInt32) : UInt32 :=
  if realIsZero bits = true then 0 else if 0x7f800000 < bits.toNat % 2 ^ 31 then 0x7fc00000 else bits

def OutboxColumns.values (c : OutboxColumns) : OutboxColumns :=
  { c with
    prediction := { c.prediction with
      deltaBRatio := c.prediction.deltaBRatio.map realValue
      deltaCRatio := c.prediction.deltaCRatio.map realValue } }

/-- The texts of a `BOOLEAN`: any start of these words that only one of them has, in any case. -/
def castBoolean (s : String) : Option Bool :=
  let t := ((s.toList.dropWhile Char.isWhitespace).reverse.dropWhile Char.isWhitespace).reverse.map Char.toLower
  if t = [] then none
  else if t.isPrefixOf "true".toList || t.isPrefixOf "yes".toList || t = "on".toList || t = "1".toList then some true
  else if t.isPrefixOf "false".toList || t.isPrefixOf "no".toList || t = "of".toList || t = "off".toList ||
      t = "0".toList then some false
  else none

/-- `COALESCE((…)::BOOLEAN, FALSE)` of a text that `->>` gives. -/
def castFlag : Option Json → Except String Bool
  | none | some .null => .ok false
  | some (.bool b) => .ok b
  | some (.int n) => found (castBoolean (toString n)) "invalid input syntax for type boolean"
  | some (.real text) => found (castBoolean text) "invalid input syntax for type boolean"
  | some (.str s) => found (castBoolean s) "invalid input syntax for type boolean"
  | some _ => .error "invalid input syntax for type boolean"

def redactedKey (p : Json) : Option Json := p.get? "data" >>= (·.get? "_redacted")

def jsonbSet (p : Json) (key : String) (v : Json) : Except String Json :=
  found (p.set? key v) "cannot set path in scalar"

section Trigger

variable (number : String → String)

/-- The update is the redaction of this row: nothing but the two keys differs. -/
def sanctioned (ctx : Option String) (old new : RetainedRow) : Except String Bool :=
  if ctx ≠ some "" ∧ ctx = some new.columns.auditOutboxId.text ∧
      ¬Json.Same number old.cloudeventPayload new.cloudeventPayload then do
    let redacted ← castFlag (redactedKey new.cloudeventPayload)
    match redacted, new.cloudeventPayload.get? "data", new.cloudeventPayload.get? "_data_sha256_hex" with
    | true, some data, some digest => do
      let marked ← jsonbSet old.cloudeventPayload "data" data
      let expected ← jsonbSet marked "_data_sha256_hex" digest
      return decide (Json.Same number expected new.cloudeventPayload)
    | _, _, _ => return false
  else return false

def rejectAuditOutboxImmutableColumns (ctx : Option String) (old new : RetainedRow) : Except String Unit := do
  let exempt ← sanctioned number ctx old new
  check (old.columns.values = new.columns.values ∧
      (exempt = true ∨ Json.Same number old.cloudeventPayload new.cloudeventPayload))
    "audit_outbox immutable columns cannot be changed (incl. prediction extension cols)"

/-- The statement's change of one row, if it selects the row, under the trigger. -/
def updateRow (ctx : Option String) (set : RetainedRow → Except String (Option RetainedRow)) (old : RetainedRow) :
    Except String RetainedRow := do
  match ← set old with
  | none => return old
  | some new => do
    rejectAuditOutboxImmutableColumns number ctx old new
    return new

def isSha256Hex (s : String) : Bool := s.length = 64 && s.toList.all fun c => c.isDigit || ('a' ≤ c && c ≤ 'f')

/-- The change that `redact_audit_outbox_data` makes; it skips rows that are redacted already. -/
def redaction (id : Uuid) (marker : Json) (digest : String) (row : RetainedRow) : Except String (Option RetainedRow) :=
  if row.columns.auditOutboxId = id then do
    if ← castFlag (redactedKey row.cloudeventPayload) then return none
    let marked ← jsonbSet row.cloudeventPayload "data" marker
    let redacted ← jsonbSet marked "_data_sha256_hex" (.str digest)
    return some { row with cloudeventPayload := redacted }
  else return none

def redactAuditOutboxData (id : Uuid) (marker : Option Json) (digest : Option String) (rows : List RetainedRow) :
    Except String (List RetainedRow) := do
  let marker ← found marker "redact_audit_outbox_data: marker must be the redaction marker (\x7b_redacted:true,...\x7d)"
  check ((← castFlag (marker.get? "_redacted")) = true)
    "redact_audit_outbox_data: marker must be the redaction marker (\x7b_redacted:true,...\x7d)"
  let digest ← found (digest.filter (isSha256Hex ·))
    "redact_audit_outbox_data: digest must be a lowercase 64-char hex SHA-256"
  rows.mapM (updateRow number (some id.text) (redaction id marker digest))

inductive OutboxStatement
  | update (ctx : Option String) (set : RetainedRow → Except String (Option RetainedRow))
  | redact (id : Uuid) (marker : Option Json) (digest : Option String)

def OutboxStatement.run (rows : List RetainedRow) : OutboxStatement → Except String (List RetainedRow)
  | .update ctx set => rows.mapM (updateRow number ctx set)
  | .redact id marker digest => redactAuditOutboxData number id marker digest rows

end Trigger

/-- What a sweep is run with; times are in microseconds. -/
structure Sweep where
  promptRetentionDays : Uuid → Option ℤ
  now : ℤ
  batchSize : ℕ
  rfc3339 : ℤ → String
  sha256Hex : String → String

structure SweepOutcome where
  rowsExamined : ℕ
  rowsRedacted : ℕ
  rowsFailed : ℕ
  deriving DecidableEq

namespace Sweep

variable (w : Sweep)

def redactedMarker : Json := .obj [("_redacted", .bool true), ("redacted_at", .str (w.rfc3339 w.now))]

def selects (row : RetainedRow) : Except String Bool :=
  match w.promptRetentionDays row.columns.tenantId with
  | none => return false
  | some days =>
    if 0 < days ∧ row.columns.recordedAt < w.now - days * 86400000000 then do
      let redacted ← castFlag (redactedKey row.cloudeventPayload)
      return !redacted && (row.cloudeventPayload.get? "data").isSome
    else return false

def candidates (rows : List RetainedRow) : Except String (List (Uuid × Json)) := do
  let due ← rows.filterM w.selects
  let oldest := (due.mergeSort fun a b => a.columns.recordedAt ≤ b.columns.recordedAt).take w.batchSize
  return oldest.map fun row => (row.columns.auditOutboxId, (row.cloudeventPayload.get? "data").getD .null)

variable (number : String → String)

/-- The loop over the candidates: a redaction that fails is counted, and the next one is tried. -/
def redactAll : List (Uuid × Json) → SweepOutcome × List RetainedRow → SweepOutcome × List RetainedRow
  | [], x => x
  | (id, data) :: rest, (out, rows) =>
    match redactAuditOutboxData number id (some w.redactedMarker) (some (w.sha256Hex data.render)) rows with
    | .ok rows' => redactAll rest ({ out with rowsRedacted := out.rowsRedacted + 1 }, rows')
    | .error _ => redactAll rest ({ out with rowsFailed := out.rowsFailed + 1 }, rows)

def sweepAuditOutboxPrompts (rows : List RetainedRow) : Except String (SweepOutcome × List RetainedRow) := do
  let candidates ← w.candidates rows
  return w.redactAll number candidates (⟨candidates.length, 0, 0⟩, rows)

def next (rows : List RetainedRow) : List RetainedRow :=
  match w.sweepAuditOutboxPrompts number rows with
  | .ok (_, rows') => rows'
  | .error _ => rows

end Sweep

def Marked (p : Json) : Prop :=
  ∃ fields v, p.get? "data" = some (.obj fields) ∧ fields.lookup "_redacted" = some v ∧ castFlag (some v) = .ok true

def isNumber : Json → Bool
  | .int _ => true
  | .real _ => true
  | _ => false

def OutboxStatement.Unnumbered : OutboxStatement → Prop
  | .update _ set => ∀ old new v, set old = .ok (some new) → redactedKey new.cloudeventPayload = some v →
    isNumber v = false
  | .redact _ marker _ => ∀ m v, marker = some m → m.get? "_redacted" = some v → isNumber v = false

def MarkedPlainly (p : Json) : Prop := Marked p ∧ ∀ v, redactedKey p = some v → isNumber v = false

section Rows

variable (number : String → String)

/-- The columns stay, and of the payload all but two keys; a payload that changes is marked. -/
structure Redacts (old new : RetainedRow) : Prop where
  columns : new.columns.values = old.columns.values
  keys : ∀ k, k ≠ "data" → k ≠ "_data_sha256_hex" →
    (new.cloudeventPayload.get? k).map (Json.normal number) = (old.cloudeventPayload.get? k).map (Json.normal number)
  marked : Json.Same number old.cloudeventPayload new.cloudeventPayload ∨ Marked new.cloudeventPayload

end Rows

section Statements

variable {number : String → String} {ctx : Option String} {old new : RetainedRow} {rows rows' : List RetainedRow}

theorem obj_of_get? {v w : Json} {key : String} (h : v.get? key = some w) :
    ∃ fields, v = .obj fields ∧ fields.lookup key = some w := by
  cases v with
  | obj fields => exact ⟨fields, rfl, h⟩
  | _ => cases h

theorem redactedKey_eq_some {p v : Json} :
    redactedKey p = some v ↔ ∃ fields, p.get? "data" = some (.obj fields) ∧ fields.lookup "_redacted" = some v := by
  rw [redactedKey, Option.bind_eq_bind, Option.bind_eq_some_iff]
  constructor
  · rintro ⟨d, hd, hv⟩
    obtain ⟨fields, rfl, hv⟩ := obj_of_get? hv
    exact ⟨fields, hd, hv⟩
  · rintro ⟨fields, hd, hv⟩
    exact ⟨_, hd, hv⟩

theorem marked_of_castFlag {p : Json} (h : castFlag (redactedKey p) = .ok true) : Marked p := by
  cases hv : redactedKey p with
  | none =>
    rw [hv] at h
    cases h
  | some v =>
    obtain ⟨fields, hd, hf⟩ := redactedKey_eq_some.mp hv
    rw [hv] at h
    exact ⟨fields, v, hd, hf, h⟩

theorem sanctioned_true (h : sanctioned number ctx old new = .ok true) :
    Marked new.cloudeventPayload ∧ ∀ k, k ≠ "data" → k ≠ "_data_sha256_hex" →
      (new.cloudeventPayload.get? k).map (Json.normal number) =
        (old.cloudeventPayload.get? k).map (Json.normal number) := by
  unfold sanctioned at h
  split at h
  case isFalse => cases h
  case isTrue =>
    obtain ⟨redacted, hflag, h⟩ := bind_eq_ok.mp h
    split at h
    case h_2 => cases h
    case h_1 data digest _ _ =>
      obtain ⟨marked, hmarked, h⟩ := bind_eq_ok.mp h
      obtain ⟨expected, hexpected, h⟩ := bind_eq_ok.mp h
      have hsame : Json.Same number expected new.cloudeventPayload := of_decide_eq_true (Except.ok.inj h)
      refine ⟨marked_of_castFlag hflag, fun k hdata hdigest => ?_⟩
      rw [← hsame.get? k, Json.get?_of_set? (found_eq_ok.mp hexpected), if_neg hdigest,
        Json.get?_of_set? (found_eq_ok.mp hmarked), if_neg hdata]

theorem reject_ok {u : Unit} (h : rejectAuditOutboxImmutableColumns number ctx old new = .ok u) :
    Redacts number old new := by
  obtain ⟨exempt, hexempt, h⟩ := bind_eq_ok.mp h
  obtain ⟨hcolumns, hpayload⟩ := check_eq_ok.mp h
  obtain rfl | hsame := hpayload
  · obtain ⟨hmarked, hkeys⟩ := sanctioned_true hexempt
    exact ⟨hcolumns.symm, hkeys, .inr hmarked⟩
  · exact ⟨hcolumns.symm, fun k _ _ => (hsame.get? k).symm, .inl hsame⟩

theorem Redacts.refl (row : RetainedRow) : Redacts number row row := ⟨rfl, fun _ _ _ => rfl, .inl rfl⟩

theorem updateRow_ok {set : RetainedRow → Except String (Option RetainedRow)}
    (h : updateRow number ctx set old = .ok new) :
    Redacts number old new ∧ (new = old ∨ set old = .ok (some new)) := by
  obtain ⟨choice, hset, h⟩ := bind_eq_ok.mp h
  cases choice with
  | none =>
    cases h
    exact ⟨.refl old, .inl rfl⟩
  | some x =>
    obtain ⟨u, hreject, h⟩ := bind_eq_ok.mp h
    cases h
    exact ⟨reject_ok hreject, .inr hset⟩

theorem redaction_some {id : Uuid} {marker : Json} {digest : String}
    (h : redaction id marker digest old = .ok (some new)) :
    new.cloudeventPayload.get? "data" = some marker ∧ ∀ k, k ≠ "data" → k ≠ "_data_sha256_hex" →
      new.cloudeventPayload.get? k = old.cloudeventPayload.get? k := by
  unfold redaction at h
  split at h
  case isFalse => cases h
  case isTrue =>
    obtain ⟨redacted, -, h⟩ := bind_eq_ok.mp h
    cases redacted with
    | true => cases h
    | false =>
      obtain ⟨marked, hmarked, h⟩ := bind_eq_ok.mp h
      obtain ⟨final, hfinal, h⟩ := bind_eq_ok.mp h
      cases h
      have hget := Json.get?_of_set? (found_eq_ok.mp hfinal)
      have hget' := Json.get?_of_set? (found_eq_ok.mp hmarked)
      refine ⟨?_, fun k hdata hdigest => ?_⟩
      · rw [hget, if_neg (by decide), hget', if_pos rfl]
      · rw [hget, if_neg hdigest, hget', if_neg hdata]

theorem redactAuditOutboxData_ok {id : Uuid} {marker : Option Json} {digest : Option String}
    (h : redactAuditOutboxData number id marker digest rows = .ok rows') :
    ∃ m d, marker = some m ∧ digest = some d ∧
      rows.mapM (updateRow number (some id.text) (redaction id m d)) = .ok rows' := by
  rw [redactAuditOutboxData, found_bind_eq_ok] at h
  obtain ⟨m, hm, h⟩ := h
  obtain ⟨flag, -, h⟩ := bind_eq_ok.mp h
  obtain ⟨-, h⟩ := check_bind_eq_ok.mp h
  obtain ⟨d, hd, h⟩ := found_bind_eq_ok.mp h
  exact ⟨m, d, hm, (Option.filter_eq_some_iff.mp hd).1, h⟩

/-- Every row is still there, changed as the trigger allows; the flag it carries is the one it had or one
that the statement writes. -/
theorem OutboxStatement.run_row {c : OutboxStatement} (h : c.run number rows = .ok rows') {i : ℕ}
    (hold : rows[i]? = some old) :
    ∃ new, rows'[i]? = some new ∧ Redacts number old new ∧
      (c.Unnumbered → new = old ∨ ∀ v, redactedKey new.cloudeventPayload = some v → isNumber v = false) := by
  cases c with
  | update ctx set =>
    obtain ⟨new, hnew, hrow⟩ := getElem?_of_mapM h hold
    obtain ⟨hredacts, hset⟩ := updateRow_ok hrow
    exact ⟨new, hnew, hredacts, fun hplain => hset.imp_right fun hset v => hplain old new v hset⟩
  | redact id marker digest =>
    obtain ⟨m, d, rfl, -, hmap⟩ := redactAuditOutboxData_ok h
    obtain ⟨new, hnew, hrow⟩ := getElem?_of_mapM hmap hold
    obtain ⟨hredacts, hset⟩ := updateRow_ok hrow
    refine ⟨new, hnew, hredacts, fun hplain => hset.imp_right fun hset v hv => hplain m v rfl ?_⟩
    rw [redactedKey, (redaction_some hset).1] at hv
    exact hv

theorem MarkedPlainly.same {p q : Json} (hp : MarkedPlainly p) (h : Json.Same number p q) : MarkedPlainly q := by
  obtain ⟨⟨fields, v, hd, hv, hflag⟩, hplain⟩ := hp
  have hnumber := hplain v (redactedKey_eq_some.mpr ⟨fields, hd, hv⟩)
  have hdata := h.get? "data"
  rw [hd] at hdata
  obtain ⟨d, hd', hsame⟩ := Option.map_eq_some_iff.mp hdata.symm
  cases d with
  | obj fields' =>
    have hsame : Json.Same number (.obj fields') (.obj fields) := hsame
    have hkey := hsame.get? "_redacted"
    have hv' : (Json.obj fields).get? "_redacted" = some v := hv
    rw [hv'] at hkey
    obtain ⟨w, hw, hsame'⟩ := Option.map_eq_some_iff.mp hkey
    have hwv : w = v := by
      cases v with
      | bool b => cases w <;> simp_all [Json.normal]
      | str s => cases w <;> simp_all [Json.normal]
      | int n => cases hnumber
      | real t => cases hnumber
      | _ => cases hflag
    subst hwv
    refine ⟨⟨fields', w, hd', hw, hflag⟩, fun x hx => ?_⟩
    obtain ⟨f, hf, hx⟩ := redactedKey_eq_some.mp hx
    rw [hd'] at hf
    cases hf
    have hwx : some w = some x := hw.symm.trans hx
    cases hwx
    exact hnumber
  | _ => cases hsame

end Statements

section History

variable (number : String → String) (row : RetainedRow) (i : ℕ)

def KeepsHistory (rows : List RetainedRow) : Prop :=
  ∃ new, rows[i]? = some new ∧ new.columns.values = row.columns.values ∧
    ∀ k, k ≠ "data" → k ≠ "_data_sha256_hex" →
      (new.cloudeventPayload.get? k).map (Json.normal number) = (row.cloudeventPayload.get? k).map (Json.normal number)

def Altered (rows : List RetainedRow) : Prop :=
  ∀ new, rows[i]? = some new → ¬Json.Same number row.cloudeventPayload new.cloudeventPayload

def RowMarked (rows : List RetainedRow) : Prop := ∃ new, rows[i]? = some new ∧ Marked new.cloudeventPayload

def RowMarkedPlainly (rows : List RetainedRow) : Prop :=
  ∃ new, rows[i]? = some new ∧ MarkedPlainly new.cloudeventPayload

def UnalteredOrMarked (rows : List RetainedRow) : Prop :=
  ∃ new, rows[i]? = some new ∧
    (Json.Same number row.cloudeventPayload new.cloudeventPayload ∨ MarkedPlainly new.cloudeventPayload)

variable {number row i} {rows rows' : List RetainedRow} {c : OutboxStatement}

theorem KeepsHistory.step (hrows : KeepsHistory number row i rows) (h : c.run number rows = .ok rows') :
    KeepsHistory number row i rows' := by
  obtain ⟨old, hold, hcolumns, hkeys⟩ := hrows
  obtain ⟨new, hnew, hredacts, -⟩ := c.run_row h hold
  exact ⟨new, hnew, hredacts.columns.trans hcolumns, fun k hdata hdigest =>
    (hredacts.keys k hdata hdigest).trans (hkeys k hdata hdigest)⟩

theorem RowMarkedPlainly.rowMarked (hrows : RowMarkedPlainly i rows) : RowMarked i rows := by
  obtain ⟨new, hnew, hmarked, -⟩ := hrows
  exact ⟨new, hnew, hmarked⟩

theorem RowMarkedPlainly.step (hplain : c.Unnumbered) (hrows : RowMarkedPlainly i rows)
    (h : c.run number rows = .ok rows') : RowMarkedPlainly i rows' := by
  obtain ⟨old, hold, hmarked⟩ := hrows
  obtain ⟨new, hnew, hredacts, hflag⟩ := c.run_row h hold
  refine ⟨new, hnew, ?_⟩
  obtain hsame | hnewMarked := hredacts.marked
  · exact hmarked.same hsame
  · obtain rfl | hflag := hflag hplain
    · exact hmarked
    · exact ⟨hnewMarked, hflag⟩

theorem UnalteredOrMarked.step (hplain : c.Unnumbered) (hrows : UnalteredOrMarked number row i rows)
    (h : c.run number rows = .ok rows') : UnalteredOrMarked number row i rows' := by
  obtain ⟨old, hold, hsame | hmarked⟩ := hrows
  · obtain ⟨new, hnew, hredacts, hflag⟩ := c.run_row h hold
    refine ⟨new, hnew, ?_⟩
    obtain hsame' | hmarked := hredacts.marked
    · exact .inl (hsame.trans hsame')
    · obtain rfl | hflag := hflag hplain
      · exact .inl hsame
      · exact .inr ⟨hmarked, hflag⟩
  · obtain ⟨new, hnew, hmarked⟩ := RowMarkedPlainly.step hplain ⟨old, hold, hmarked⟩ h
    exact ⟨new, hnew, .inr hmarked⟩

theorem UnalteredOrMarked.marked (hrows : UnalteredOrMarked number row i rows) (haltered : Altered number row i rows) :
    RowMarkedPlainly i rows := by
  obtain ⟨new, hnew, hsame | hmarked⟩ := hrows
  · exact absurd hsame (haltered new hnew)
  · exact ⟨new, hnew, hmarked⟩

/-- Whatever is accepted, the columns and the other keys of the payload stay; and as long as no number is
written as the flag, an altered payload is marked and stays so. -/
theorem redaction_keeps_history {tr : List (OutboxStatement × List RetainedRow)}
    (h : Trace (fun rows c rows' => c.run number rows = .ok rows') rows tr) (hrow : rows[i]? = some row) :
    (∀ p ∈ tr, KeepsHistory number row i p.2) ∧
    (Along (fun _ c => c.Unnumbered) rows tr →
      (∀ p ∈ tr, Altered number row i p.2 → RowMarked i p.2) ∧
      (tr.map Prod.snd).Pairwise fun earlier later => Altered number row i earlier → RowMarked i later) := by
  have hstart : KeepsHistory number row i rows := ⟨row, hrow, rfl, fun _ _ _ => rfl⟩
  refine ⟨h.always (fun _ _ _ hrows hstep => hrows.step hstep) hstart, fun hplain => ?_⟩
  have hunaltered : UnalteredOrMarked number row i rows := ⟨row, hrow, .inl rfl⟩
  have hinv : ∀ p ∈ tr, UnalteredOrMarked number row i p.2 :=
    h.invariant hplain (fun _ _ _ hrows hc hstep => hrows.step hc hstep) hunaltered
  have hmarked : ∀ p ∈ tr, Altered number row i p.2 → RowMarkedPlainly i p.2 :=
    fun p hp haltered => (hinv p hp).marked haltered
  refine ⟨fun p hp haltered => (hmarked p hp haltered).rowMarked, ?_⟩
  -- a mark goes from each state to the next, hence to all later ones
  have hplainly : Trace (fun rows c rows' => c.Unnumbered ∧ c.run number rows = .ok rows') rows tr :=
    h.refine (I := fun _ => True) hplain (fun _ _ _ _ hc hstep => ⟨⟨hc, hstep⟩, trivial⟩) trivial
  have hpairs := hplainly.pairwise (I := fun _ => True)
    (R := fun earlier later => RowMarkedPlainly i earlier → RowMarkedPlainly i later)
    (fun _ _ _ _ _ => trivial) trivial (fun _ _ _ hab hbc ha => hbc (hab ha))
    (fun _ _ _ _ hstep ha => ha.step hstep.1 hstep.2)
  refine (List.pairwise_cons.mp hpairs).2.imp_of_mem ?_
  intro earlier later hearlier _ hstays haltered
  obtain ⟨p, hp, rfl⟩ := List.mem_map.mp hearlier
  exact (hstays (hmarked p hp haltered)).rowMarked

end History

section Rewritten

def trimZeros (text : String) : String :=
  if '.' ∈ text.toList then
    String.ofList ((text.toList.reverse.dropWhile (· = '0')).dropWhile (· = '.')).reverse
  else text

def promptColumns : OutboxColumns where
  auditOutboxId := ⟨1, []⟩
  auditDecisionEventId := ⟨2, []⟩
  decisionId := ⟨3, []⟩
  tenantId := ⟨4, []⟩
  ledgerTransactionId := ⟨5, []⟩
  eventType := decisionType
  cloudeventPayloadSignature := []
  ledgerFencingEpoch := 1
  workloadInstanceId := "w"
  recordedAt := 0
  recordedMonth := 0
  producerSequence := 1
  idempotencyKey := "k"
  prediction := {}

def promptRow (data : Json) (digest : List (String × Json)) : RetainedRow :=
  { columns := promptColumns, cloudeventPayload := .obj ([("id", .str "e"), ("data", data)] ++ digest) }

def promptStored : RetainedRow := promptRow (.str "prompt") []

def promptFlagged (flag : Json) : RetainedRow :=
  promptRow (.obj [("_redacted", flag)]) [("_data_sha256_hex", .str "")]

def setFlag (flag : Json) : OutboxStatement :=
  .update (some promptColumns.auditOutboxId.text) fun _ => .ok (some (promptFlagged flag))

/-- As numbers 1 and 1.0 are the same, but only the first reads as true. -/
theorem flag_rewritten :
    Trace (fun rows c rows' => c.run trimZeros rows = .ok rows') [promptStored]
      [(setFlag (.int 1), [promptFlagged (.int 1)]), (setFlag (.real "1.0"), [promptFlagged (.real "1.0")])] ∧
    Altered trimZeros promptStored 0 [promptFlagged (.int 1)] ∧
    ¬RowMarked 0 [promptFlagged (.real "1.0")] := by
  refine ⟨.cons (by decide +kernel) (.cons (by decide +kernel) (.nil _)), ?_, ?_⟩
  · intro new hnew
    cases hnew
    decide +kernel
  · rintro ⟨new, hnew, fields, v, hdata, hv, hflag⟩
    cases hnew
    cases hdata
    cases hv
    exact absurd hflag (by decide +kernel)

def promptDigest : String := String.ofList (List.replicate 64 'a')

def promptRedacted : RetainedRow :=
  promptRow (.obj [("_redacted", .bool true)]) [("_data_sha256_hex", .str promptDigest)]

def redactPrompt : OutboxStatement :=
  .redact promptColumns.auditOutboxId (some (.obj [("_redacted", .bool true)])) (some promptDigest)

theorem promptStored_redacted :
    KeepsHistory trimZeros promptStored 0 [promptRedacted] ∧ RowMarked 0 [promptRedacted] := by
  have hrun : Trace (fun rows c rows' => c.run trimZeros rows = .ok rows') [promptStored]
      [(redactPrompt, [promptRedacted])] := .cons (by decide +kernel) (.nil _)
  obtain ⟨hkept, hmarked⟩ := redaction_keeps_history (i := 0) hrun rfl
  have hplain : redactPrompt.Unnumbered := by
    intro m v hm hv
    cases hm
    cases hv
    rfl
  have haltered : Altered trimZeros promptStored 0 [promptRedacted] := by
    intro new hnew
    cases hnew
    decide +kernel
  exact ⟨hkept _ (List.mem_singleton.mpr rfl), (hmarked ⟨hplain, trivial⟩).1 _ (List.mem_singleton.mpr rfl) haltered⟩

end Rewritten

section Sweeps

variable {number : String → String} {fl : FloatText} {e e' : CloudEvent} {w : Sweep} {row : RetainedRow}
  {rows rows' : List RetainedRow} {i : ℕ}

structure Retains (e : CloudEvent) (row : RetainedRow) : Prop where
  bytes : row.cloudeventPayload.get? "data_b64" = some (.str (base64 e.data))
  hidden : row.cloudeventPayload.get? "data" = none ∨ redactedKey row.cloudeventPayload = some (.bool true)

theorem retains_cloudeventPayload (h : row.cloudeventPayload = cloudeventPayload fl e) : Retains e row where
  bytes := h ▸ carries_cloudeventPayload.data
  hidden := .inl (h ▸ rfl)

theorem Retains.not_selected (h : Retains e row) : w.selects row = .ok false := by
  rw [Sweep.selects]
  split
  · rfl
  · split
    · obtain hnone | hmarked := h.hidden
      · rw [redactedKey, hnone]
        rfl
      · rw [hmarked]
        rfl
    · rfl

theorem Retains.redacted {id : Uuid} {digest : Option String} (h : Retains e row) (hrow : rows[i]? = some row)
    (hrun : redactAuditOutboxData number id (some w.redactedMarker) digest rows = .ok rows') :
    ∃ row', rows'[i]? = some row' ∧ Retains e row' := by
  obtain ⟨m, d, hm, -, hmap⟩ := redactAuditOutboxData_ok hrun
  cases hm
  obtain ⟨new, hnew, hupdate⟩ := getElem?_of_mapM hmap hrow
  refine ⟨new, hnew, ?_⟩
  obtain rfl | hset := (updateRow_ok hupdate).2
  · exact h
  · obtain ⟨hdata, hkeys⟩ := redaction_some hset
    refine ⟨(hkeys _ (by decide) (by decide)).trans h.bytes, .inr ?_⟩
    rw [redactedKey, hdata]
    rfl

theorem Retains.redactAll (cs : List (Uuid × Json)) {out : SweepOutcome} (h : Retains e row)
    (hrow : rows[i]? = some row) :
    ∃ row', (w.redactAll number cs (out, rows)).2[i]? = some row' ∧ Retains e row' := by
  induction cs generalizing out rows row with
  | nil => exact ⟨row, hrow, h⟩
  | cons c cs ih =>
    rw [Sweep.redactAll]
    split
    · next hrun =>
      obtain ⟨row', hrow', h'⟩ := h.redacted hrow hrun
      exact ih h' hrow'
    · exact ih h hrow

theorem Retains.next (h : Retains e row) (hrow : rows[i]? = some row) :
    ∃ row', (w.next number rows)[i]? = some row' ∧ Retains e row' := by
  rw [Sweep.next]
  split
  · next hsweep =>
    obtain ⟨candidates, -, hsweep⟩ := bind_eq_ok.mp hsweep
    have hkept : ∃ row', (w.redactAll number candidates (⟨candidates.length, 0, 0⟩, rows)).2[i]? = some row' ∧
        Retains e row' := h.redactAll candidates hrow
    rw [Except.ok.inj hsweep] at hkept
    exact hkept
  · exact ⟨row, hrow, h⟩

variable (number) in
def sweepAll (sweeps : List Sweep) (rows : List RetainedRow) : List RetainedRow :=
  sweeps.foldl (fun rows w => w.next number rows) rows

variable (number) in
theorem Retains.sweepAll (sweeps : List Sweep) (h : Retains e row) (hrow : rows[i]? = some row) :
    ∃ row', (sweepAll number sweeps rows)[i]? = some row' ∧ Retains e row' := by
  induction sweeps generalizing rows row with
  | nil => exact ⟨row, hrow, h⟩
  | cons w sweeps ih =>
    obtain ⟨row', hrow', h'⟩ := h.next (w := w) hrow
    exact ih h' hrow'

def storedData (p : Json) : Option Bytes := p.get? "data_b64" >>= Json.asStr? >>= fun s => Base64.decode s.toList

theorem Retains.storedData (h : Retains e row) : storedData row.cloudeventPayload = some e.data := by
  rw [Audit.storedData, h.bytes]
  exact decode_base64 e.data

def SameButDigest (p q : Json) : Prop := ∀ k, k ≠ "_data_sha256_hex" → p.get? k = q.get? k

theorem SameButDigest.storedData {p q : Json} (h : SameButDigest p q) : Audit.storedData p = Audit.storedData q := by
  rw [Audit.storedData, Audit.storedData, h "data_b64" (by decide)]

/-- No sweep selects a row that the ledger wrote, whatever its age: after all of them the data can be read,
and two rows differ in more than the digest. -/
theorem sweeps_leave_data {row' : RetainedRow} {i' : ℕ} (hrow : rows[i]? = some row)
    (hpayload : row.cloudeventPayload = cloudeventPayload fl e) (hrow' : rows'[i']? = some row')
    (hpayload' : row'.cloudeventPayload = cloudeventPayload fl e') (hdata : e.data ≠ e'.data)
    (sweeps sweeps' : List Sweep) :
    ∃ final final', (sweepAll number sweeps rows)[i]? = some final ∧
      (sweepAll number sweeps' rows')[i']? = some final' ∧ (∀ w : Sweep, w.selects final = .ok false) ∧
      storedData final.cloudeventPayload = some e.data ∧
      ¬SameButDigest final.cloudeventPayload final'.cloudeventPayload := by
  obtain ⟨final, hfinal, h⟩ := (retains_cloudeventPayload hpayload).sweepAll number sweeps hrow
  obtain ⟨final', hfinal', h'⟩ := (retains_cloudeventPayload hpayload').sweepAll number sweeps' hrow'
  refine ⟨final, final', hfinal, hfinal', fun w => h.not_selected, h.storedData, fun hsame => hdata ?_⟩
  have hread := hsame.storedData
  rw [h.storedData, h'.storedData] at hread
  exact Option.some.inj hread

def promptEvent (prompt : Bytes) : CloudEvent :=
  { specversion := "1.0", type := decisionType, id := "e", data := prompt }

def ledgerRow (prompt : Bytes) : RetainedRow :=
  { columns := promptColumns, cloudeventPayload := cloudeventPayload unaryFloats (promptEvent prompt) }

def yearlySweep : Sweep where
  promptRetentionDays _ := some 1
  now := 365 * 86400000000
  batchSize := 100
  rfc3339 _ := ""
  sha256Hex _ := promptDigest

theorem prompt_survives_sweep :
    yearlySweep.sweepAuditOutboxPrompts trimZeros [ledgerRow [112]] = .ok (⟨0, 0, 0⟩, [ledgerRow [112]]) ∧
    storedData (ledgerRow [112]).cloudeventPayload = some [112] := by
  decide +kernel

theorem prompt_read_after_sweep :
    ∃ final final', (sweepAll trimZeros [yearlySweep] [ledgerRow [112]])[0]? = some final ∧
      (sweepAll trimZeros [yearlySweep] [ledgerRow [113]])[0]? = some final' ∧
      (∀ w : Sweep, w.selects final = .ok false) ∧ storedData final.cloudeventPayload = some [112] ∧
      ¬SameButDigest final.cloudeventPayload final'.cloudeventPayload := by
  have hrow (prompt : Bytes) : [ledgerRow prompt][0]? = some (ledgerRow prompt) := rfl
  have hprompts : (promptEvent [112]).data ≠ (promptEvent [113]).data := by decide
  exact sweeps_leave_data (hrow [112]) rfl (hrow [113]) rfl hprompts [yearlySweep] [yearlySweep]

end Sweeps

end SpendGuard.Audit
