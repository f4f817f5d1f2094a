import SpendGuard.Audit.Payload
import SpendGuard.Base.Queue
import SpendGuard.Canonical.Wire

/-!
The outbox forwarder: each cycle takes the oldest pending rows, sends those that decode, and clears the
ones canonical ingest has stored.
-/

namespace SpendGuard.Outbox

open Base Ledger Audit Canonical

structure OutboxEntry where
  recordedMonth : ℕ
  recordedAt : ℕ
  row : OutboxRow

structure QueuedRow where
  entry : OutboxEntry
  pendingForward : Bool := true
  forwardedAt : Option ℕ := none
  forwardAttempts : ℕ := 0
  lastForwardError : Option String := none

def OutboxEntry.key (e : OutboxEntry) : ℕ × Uuid := (e.recordedMonth, e.row.auditOutboxId)

/-- The `ORDER BY` of the poll. -/
def OutboxEntry.order (e : OutboxEntry) : ℕ ×ₗ ℕ ×ₗ ℕ ×ₗ ℤ ×ₗ ℕ :=
  toLex (e.recordedMonth, toLex (e.recordedAt,
    toLex (if e.row.eventType = "spendguard.audit.decision" then 0 else 1,
      toLex (e.row.producerSequence, e.row.auditOutboxId.bits))))

def OutboxEntry.Before (e e' : OutboxEntry) : Prop := e.order ≤ e'.order

instance : DecidableRel OutboxEntry.Before := fun e e' => inferInstanceAs (Decidable (e.order ≤ e'.order))

instance : IsTrans OutboxEntry OutboxEntry.Before := ⟨fun _ _ _ => le_trans (α := ℕ ×ₗ ℕ ×ₗ ℕ ×ₗ ℤ ×ₗ ℕ)⟩

instance : Std.Total OutboxEntry.Before := ⟨fun e e' => le_total e.order e'.order⟩

def pendingQueue (outbox : List QueuedRow) : List OutboxEntry :=
  ((outbox.filter (·.pendingForward)).map (·.entry)).insertionSort OutboxEntry.Before

def fetchPending (outbox : List QueuedRow) (batchSize : ℕ) : List OutboxEntry :=
  (pendingQueue outbox).take batchSize

structure UpdateRow where
  key : ℕ × Uuid
  pendingForward : Bool
  forwardedAt : Option ℕ
  lastForwardError : Option String

def QueuedRow.update (q : QueuedRow) (u : UpdateRow) : QueuedRow :=
  if q.pendingForward then
    { q with
      pendingForward := u.pendingForward
      forwardedAt := u.forwardedAt
      forwardAttempts := q.forwardAttempts + 1
      lastForwardError := u.lastForwardError }
  else q

def applyUpdates (updates : List UpdateRow) (outbox : List QueuedRow) : List QueuedRow :=
  outbox.map fun q => ((updates.find? (·.key = q.entry.key)).map q.update).getD q

structure Config where
  workloadInstanceId : String
  schemaBundleId : String
  schemaBundleHashHex : String
  batchSize : ℕ

def hexValue (c : Char) : Option ℕ :=
  if '0' ≤ c ∧ c ≤ '9' then some (c.toNat - '0'.toNat)
  else if 'a' ≤ c ∧ c ≤ 'f' then some (c.toNat - 'a'.toNat + 10)
  else if 'A' ≤ c ∧ c ≤ 'F' then some (c.toNat - 'A'.toNat + 10)
  else none

def decodeHex : List Char → Option Bytes
  | [] => some []
  | [_] => none
  | c :: d :: rest => do
    let hi ← hexValue c
    let lo ← hexValue d
    let bytes ← decodeHex rest
    return UInt8.ofNat (16 * hi + lo) :: bytes

def DecodeError.debug : DecodeError → String
  | .missing key => "Missing(" ++ key.quote ++ ")"
  | .badUuid key => "BadUuid(" ++ key.quote ++ ")"
  | .badNumber key => "BadNumber(" ++ key.quote ++ ")"
  | .badEnum key value => "BadEnum(" ++ key.quote ++ ", " ++ value.quote ++ ")"
  | .badBase64 key => "BadBase64(" ++ key.quote ++ ")"
  | .notObject => "NotObject"

def eventIdToPk (decoded : List (OutboxEntry × CloudEvent)) (id : String) : Option (ℕ × Uuid) :=
  (decoded.reverse.find? (·.2.id = id)).map (·.1.key)

def keepPending (key : ℕ × Uuid) (error : String) : UpdateRow := ⟨key, true, none, some error⟩

def statusUpdate (now : ℕ) (key : ℕ × Uuid) : EventStatus → UpdateRow
  | .appended | .deduped => ⟨key, false, some now, none⟩
  | status => keepPending key status.text

def resultUpdates (now : ℕ) (pk : String → Option (ℕ × Uuid)) :
    List String → List EventResult → List UpdateRow × List String
  | seen, [] => ([], seen)
  | seen, r :: results =>
    if r.eventId ∈ seen then resultUpdates now pk seen results
    else
      let rest := resultUpdates now pk (r.eventId :: seen) results
      match pk r.eventId with
      | none => rest
      | some key => (statusUpdate now key r.status :: rest.1, rest.2)

section Cycle

variable (fl : FloatText) (parseUuid : String → Option Uuid) (cfg : Config)
  (appendEvents : AppendEventsRequest → Except String (List EventResult))

def decodeBatch (rows : List OutboxEntry) : List (OutboxEntry × CloudEvent) :=
  rows.filterMap fun e => (strictDecode fl parseUuid e.row).toOption.map (e, ·)

def decodeFailures (rows : List OutboxEntry) : List UpdateRow :=
  rows.filterMap fun e =>
    match strictDecode fl parseUuid e.row with
    | .ok _ => none
    | .error err => some (keepPending e.key ("DECODE_FAILED:" ++ DecodeError.debug err))

def appendRequest (hash : Bytes) (decoded : List (OutboxEntry × CloudEvent)) : AppendEventsRequest where
  producerId := "outbox-forwarder:" ++ cfg.workloadInstanceId
  batchMaxProducerSequence := decoded.foldl (fun m d => max m d.2.producerSequence) 0
  batchSignature := []
  signingKeyId := "outbox-forwarder:demo:v1"
  schemaBundle := some ⟨cfg.schemaBundleId, hash, "spendguard.v1alpha1"⟩
  events := decoded.map (·.2)
  route := .enforcement

def sentUpdates (now : ℕ) (decoded : List (OutboxEntry × CloudEvent)) :
    Except String (List EventResult) → List UpdateRow
  | .ok results =>
    let (updates, seen) := resultUpdates now (eventIdToPk decoded) [] results
    updates ++ (decoded.map (·.2.id)).dedup.filterMap fun id =>
      if id ∈ seen then none else (eventIdToPk decoded id).map (keepPending · "NO_RESULT_RETURNED")
  | .error code =>
    (decoded.map (·.2.id)).dedup.filterMap fun id =>
      (eventIdToPk decoded id).map (keepPending · ("BATCH_GRPC: " ++ code))

/-- The updates of a cycle over `rows`; none if the schema bundle's hash is not hexadecimal. -/
def batchUpdates (now : ℕ) (rows : List OutboxEntry) : Except String (List UpdateRow) :=
  let decoded := decodeBatch fl parseUuid rows
  let failures := decodeFailures fl parseUuid rows
  if decoded = [] then .ok failures
  else do
    let hash ← found (decodeHex cfg.schemaBundleHashHex.toList) "schema_bundle_hash_hex"
    return failures ++ sentUpdates now decoded (appendEvents (appendRequest cfg hash decoded))

def forwardBatch (now : ℕ) (outbox : List QueuedRow) : Except String ℕ × List QueuedRow :=
  let rows := fetchPending outbox cfg.batchSize
  match batchUpdates fl parseUuid cfg appendEvents now rows with
  | .ok updates => (.ok rows.length, applyUpdates updates outbox)
  | .error e => (.error e, outbox)

/-- The outbox after `n` cycles, at the times `now`. -/
def afterCycles (now : ℕ → ℕ) (outbox : List QueuedRow) : ℕ → List QueuedRow
  | 0 => outbox
  | n + 1 => (forwardBatch fl parseUuid cfg appendEvents (now n) (afterCycles now outbox n)).2

end Cycle

def Appends (appendEvents : AppendEventsRequest → Except String (List EventResult)) : Prop :=
  ∀ req, ∃ results, appendEvents req = .ok results ∧ (∀ r ∈ results, r.status = .appended) ∧
    ∀ e ∈ req.events, ∃ r ∈ results, r.eventId = e.id

def clears (updates : List UpdateRow) (e : OutboxEntry) : Bool :=
  (updates.find? (·.key = e.key)).any (!·.pendingForward)

theorem clears_iff {updates : List UpdateRow} {e : OutboxEntry} :
    clears updates e = true ↔ ∃ u, updates.find? (·.key = e.key) = some u ∧ u.pendingForward = false := by
  unfold clears
  cases updates.find? (·.key = e.key) <;> simp

theorem entry_update (q : QueuedRow) (updates : List UpdateRow) :
    (((updates.find? (·.key = q.entry.key)).map q.update).getD q).entry = q.entry := by
  cases updates.find? (·.key = q.entry.key) with
  | none => rfl
  | some u =>
    simp only [Option.map_some, Option.getD_some, QueuedRow.update]
    split <;> rfl

theorem pendingForward_update (q : QueuedRow) (updates : List UpdateRow) :
    (((updates.find? (·.key = q.entry.key)).map q.update).getD q).pendingForward =
      (q.pendingForward && !clears updates q.entry) := by
  unfold clears
  cases updates.find? (·.key = q.entry.key) with
  | none => simp
  | some u => cases hp : q.pendingForward <;> simp [QueuedRow.update, hp]

theorem entries_applyUpdates (updates : List UpdateRow) (outbox : List QueuedRow) :
    (applyUpdates updates outbox).map (·.entry) = outbox.map (·.entry) := by
  rw [applyUpdates, List.map_map]
  apply List.map_congr_left
  intro q _
  exact entry_update q updates

theorem pendingQueue_applyUpdates (updates : List UpdateRow) (outbox : List QueuedRow) :
    pendingQueue (applyUpdates updates outbox) = (pendingQueue outbox).filter (!clears updates ·) := by
  have hrows : ((applyUpdates updates outbox).filter (·.pendingForward)).map (·.entry) =
      ((outbox.filter (·.pendingForward)).map (·.entry)).filter (!clears updates ·) := by
    induction outbox with
    | nil => rfl
    | cons q outbox ih =>
      simp only [applyUpdates, List.map_cons, List.filter_cons, pendingForward_update] at ih ⊢
      cases q.pendingForward <;> cases hc : clears updates q.entry <;>
        simp [hc, ih, entry_update]
  rw [pendingQueue, hrows, insertionSort_filter, pendingQueue]

theorem mem_pendingQueue {outbox : List QueuedRow} {e : OutboxEntry} :
    e ∈ pendingQueue outbox ↔ ∃ q ∈ outbox, q.pendingForward = true ∧ q.entry = e := by
  simp [pendingQueue, and_assoc]

def KeysUnique (outbox : List QueuedRow) : Prop := (outbox.map (·.entry.key)).Nodup

instance (outbox : List QueuedRow) : Decidable (KeysUnique outbox) :=
  inferInstanceAs (Decidable (List.Nodup _))

theorem KeysUnique.queue {outbox : List QueuedRow} (h : KeysUnique outbox) :
    ((pendingQueue outbox).map OutboxEntry.key).Nodup := by
  have hperm := (List.perm_insertionSort OutboxEntry.Before
    ((outbox.filter (·.pendingForward)).map (·.entry))).map OutboxEntry.key
  rw [pendingQueue, hperm.nodup_iff, List.map_map]
  exact h.sublist (List.filter_sublist.map _)

theorem keysUnique_applyUpdates {updates : List UpdateRow} {outbox : List QueuedRow} (h : KeysUnique outbox) :
    KeysUnique (applyUpdates updates outbox) := by
  have hentries := congrArg (List.map OutboxEntry.key) (entries_applyUpdates updates outbox)
  rw [List.map_map, List.map_map] at hentries
  rw [KeysUnique] at h ⊢
  exact hentries ▸ h

section Batch

variable {fl : FloatText} {parseUuid : String → Option Uuid} {rows : List OutboxEntry}
  {decoded : List (OutboxEntry × CloudEvent)} {now : ℕ} {results : List EventResult} {u : UpdateRow}

variable (fl parseUuid) in
def decodes (e : OutboxEntry) : Bool := (strictDecode fl parseUuid e.row).isOk

variable {d : OutboxEntry × CloudEvent}

theorem mem_decodeBatch :
    d ∈ decodeBatch fl parseUuid rows ↔ d.1 ∈ rows ∧ strictDecode fl parseUuid d.1.row = .ok d.2 := by
  obtain ⟨e, ce⟩ := d
  simp only [decodeBatch, List.mem_filterMap, Option.map_eq_some_iff, toOption_eq_some, Prod.mk.injEq]
  constructor
  · rintro ⟨e', he', ce', hok, rfl, rfl⟩
    exact ⟨he', hok⟩
  · rintro ⟨he, hok⟩
    exact ⟨e, he, ce, hok, rfl, rfl⟩

theorem exists_mem_decodeBatch {e : OutboxEntry} (he : e ∈ rows) (hdecodes : decodes fl parseUuid e = true) :
    ∃ ce, (e, ce) ∈ decodeBatch fl parseUuid rows := by
  obtain ⟨ce, hok⟩ := isOk_iff_exists.mp hdecodes
  exact ⟨ce, mem_decodeBatch.mpr ⟨he, hok⟩⟩

theorem decodes_of_mem_decodeBatch (hd : d ∈ decodeBatch fl parseUuid rows) :
    d.1 ∈ rows ∧ decodes fl parseUuid d.1 = true := by
  obtain ⟨hrow, hok⟩ := mem_decodeBatch.mp hd
  exact ⟨hrow, isOk_iff_exists.mpr ⟨_, hok⟩⟩

theorem of_mem_decodeFailures (h : u ∈ decodeFailures fl parseUuid rows) :
    u.pendingForward = true ∧ ∃ e ∈ rows, decodes fl parseUuid e = false ∧ u.key = e.key := by
  obtain ⟨e, he, hu⟩ := List.mem_filterMap.mp h
  cases hdecode : strictDecode fl parseUuid e.row with
  | ok ce => simp [hdecode] at hu
  | error err =>
    simp only [hdecode, Option.some.injEq] at hu
    subst hu
    exact ⟨rfl, e, he, by rw [decodes, hdecode]; rfl, rfl⟩

theorem of_eventIdToPk {id : String} {key : ℕ × Uuid} (h : eventIdToPk decoded id = some key) :
    ∃ d ∈ decoded, d.2.id = id ∧ d.1.key = key := by
  obtain ⟨d, hd, hkey⟩ := Option.map_eq_some_iff.mp h
  have hid := List.find?_some hd
  exact ⟨d, List.mem_reverse.mp (List.mem_of_find?_eq_some hd), of_decide_eq_true hid, hkey⟩

theorem exists_eventIdToPk (hd : d ∈ decoded) :
    ∃ key, eventIdToPk decoded d.2.id = some key := by
  have hsome : (decoded.reverse.find? (·.2.id = d.2.id)).isSome = true :=
    List.find?_isSome.mpr ⟨d, List.mem_reverse.mpr hd, by simp⟩
  obtain ⟨d', hd'⟩ := Option.isSome_iff_exists.mp hsome
  exact ⟨d'.1.key, by rw [eventIdToPk, hd']; rfl⟩

variable {pk : String → Option (ℕ × Uuid)} {seen : List String}

theorem of_mem_resultUpdates (h : u ∈ (resultUpdates now pk seen results).1) :
    ∃ r ∈ results, ∃ key, pk r.eventId = some key ∧ u = statusUpdate now key r.status := by
  induction results generalizing seen with
  | nil => cases h
  | cons r results ih =>
    have hrest {seen'} (h : u ∈ (resultUpdates now pk seen' results).1) :
        ∃ r' ∈ r :: results, ∃ key, pk r'.eventId = some key ∧ u = statusUpdate now key r'.status := by
      obtain ⟨r', hr', hu⟩ := ih h
      exact ⟨r', List.mem_cons_of_mem r hr', hu⟩
    rw [resultUpdates] at h
    split at h
    · exact hrest h
    · split at h
      · exact hrest h
      · next key hkey =>
        rcases List.mem_cons.mp h with hu | h
        · exact ⟨r, List.mem_cons_self, key, hkey, hu⟩
        · exact hrest h

theorem mem_seen_resultUpdates {id : String} :
    id ∈ (resultUpdates now pk seen results).2 ↔ id ∈ seen ∨ ∃ r ∈ results, r.eventId = id := by
  induction results generalizing seen with
  | nil => simp [resultUpdates]
  | cons r results ih =>
    have hcons : (∃ r' ∈ r :: results, r'.eventId = id) ↔
        id = r.eventId ∨ ∃ r' ∈ results, r'.eventId = id := by
      simp [eq_comm]
    have hnew : id ∈ (resultUpdates now pk (r.eventId :: seen) results).2 ↔
        id ∈ seen ∨ id = r.eventId ∨ ∃ r' ∈ results, r'.eventId = id := by
      rw [ih, List.mem_cons, or_assoc, or_left_comm]
    rw [resultUpdates, hcons]
    split
    · next hseen =>
      rw [ih]
      constructor
      · rintro (h | h)
        · exact Or.inl h
        · exact Or.inr (Or.inr h)
      · rintro (h | rfl | h)
        · exact Or.inl h
        · exact Or.inl hseen
        · exact Or.inr h
    · split <;> exact hnew

theorem exists_resultUpdate {r : EventResult} {key : ℕ × Uuid} (hr : r ∈ results) (hseen : r.eventId ∉ seen)
    (hkey : pk r.eventId = some key) : ∃ u ∈ (resultUpdates now pk seen results).1, u.key = key := by
  induction results generalizing seen with
  | nil => cases hr
  | cons r' results ih =>
    rw [resultUpdates]
    by_cases hsame : r'.eventId = r.eventId
    · rw [hsame, if_neg hseen]
      simp only [hkey]
      refine ⟨_, List.mem_cons_self, ?_⟩
      cases r'.status <;> rfl
    · have hr : r ∈ results := by
        rcases List.mem_cons.mp hr with rfl | hr
        · exact absurd rfl hsame
        · exact hr
      split
      · exact ih hr hseen
      · have hseen' : r.eventId ∉ r'.eventId :: seen := by
          simp [hseen, Ne.symm hsame]
        obtain ⟨u, hu, hukey⟩ := ih hr hseen'
        split
        · exact ⟨u, hu, hukey⟩
        · exact ⟨u, List.mem_cons_of_mem _ hu, hukey⟩

theorem of_mem_sentUpdates (happended : ∀ r ∈ results, r.status = .appended)
    (hanswered : ∀ d ∈ decoded, ∃ r ∈ results, r.eventId = d.2.id)
    (hu : u ∈ sentUpdates now decoded (.ok results)) :
    u.pendingForward = false ∧ ∃ d ∈ decoded, d.1.key = u.key := by
  rcases List.mem_append.mp hu with hu | hu
  · obtain ⟨r, hr, key, hkey, rfl⟩ := of_mem_resultUpdates hu
    obtain ⟨d, hd, -, hdkey⟩ := of_eventIdToPk hkey
    rw [happended r hr]
    exact ⟨rfl, d, hd, hdkey⟩
  · -- every event that was sent has its result
    obtain ⟨id, hid, hu⟩ := List.mem_filterMap.mp hu
    obtain ⟨d, hd, rfl⟩ := List.mem_map.mp (List.mem_dedup.mp hid)
    have hseen : d.2.id ∈ (resultUpdates now (eventIdToPk decoded) [] results).2 :=
      mem_seen_resultUpdates.mpr (Or.inr (hanswered d hd))
    rw [if_pos hseen] at hu
    cases hu

variable (now) in
theorem exists_sentUpdate (hanswered : ∀ d ∈ decoded, ∃ r ∈ results, r.eventId = d.2.id)
    (hd : d ∈ decoded) :
    ∃ d' ∈ decoded, ∃ u ∈ sentUpdates now decoded (.ok results), u.key = d'.1.key := by
  obtain ⟨key, hkey⟩ := exists_eventIdToPk hd
  obtain ⟨d', hd', -, hdkey⟩ := of_eventIdToPk hkey
  obtain ⟨r, hr, hid⟩ := hanswered d hd
  rw [← hid] at hkey
  obtain ⟨u, hu, hukey⟩ := exists_resultUpdate hr List.not_mem_nil hkey
  exact ⟨d', hd', u, List.mem_append_left _ hu, hukey.trans hdkey.symm⟩

variable (fl parseUuid) in
structure Settles (rows : List OutboxEntry) (updates : List UpdateRow) : Prop where
  cleared : ∀ u ∈ updates, u.pendingForward = false →
    ∃ e ∈ rows, decodes fl parseUuid e = true ∧ u.key = e.key
  kept : ∀ u ∈ updates, u.pendingForward = true →
    ∃ e ∈ rows, decodes fl parseUuid e = false ∧ u.key = e.key
  progress : (∃ e ∈ rows, decodes fl parseUuid e = true) →
    ∃ e ∈ rows, decodes fl parseUuid e = true ∧ ∃ u ∈ updates, u.key = e.key

theorem settles_decodeFailures (hnone : decodeBatch fl parseUuid rows = []) :
    Settles fl parseUuid rows (decodeFailures fl parseUuid rows) where
  cleared u hu hfalse := by
    rw [(of_mem_decodeFailures hu).1] at hfalse
    cases hfalse
  kept u hu _ := (of_mem_decodeFailures hu).2
  progress := by
    rintro ⟨e, he, hdecodes⟩
    obtain ⟨ce, hce⟩ := exists_mem_decodeBatch he hdecodes
    rw [hnone] at hce
    cases hce

variable {cfg : Config} {appendEvents : AppendEventsRequest → Except String (List EventResult)}
  {outbox : List QueuedRow} {hash : Bytes}

variable (fl parseUuid rows now) in
theorem batchUpdates_settles (happends : Appends appendEvents)
    (hhash : decodeHex cfg.schemaBundleHashHex.toList = some hash) :
    ∃ updates, batchUpdates fl parseUuid cfg appendEvents now rows = .ok updates ∧
      Settles fl parseUuid rows updates := by
  unfold batchUpdates
  by_cases hnone : decodeBatch fl parseUuid rows = []
  · exact ⟨_, if_pos hnone, settles_decodeFailures hnone⟩
  · simp only [if_neg hnone, hhash, found_some, ok_bind]
    obtain ⟨results, hresults, happended, hanswered⟩ :=
      happends (appendRequest cfg hash (decodeBatch fl parseUuid rows))
    have hanswered : ∀ d ∈ decodeBatch fl parseUuid rows, ∃ r ∈ results, r.eventId = d.2.id := by
      intro d hd
      exact hanswered d.2 (List.mem_map_of_mem hd)
    rw [hresults]
    refine ⟨_, rfl, ?_, ?_, ?_⟩
    · intro u hu hfalse
      rcases List.mem_append.mp hu with hu | hu
      · rw [(of_mem_decodeFailures hu).1] at hfalse
        cases hfalse
      · obtain ⟨-, d, hd, hkey⟩ := of_mem_sentUpdates happended hanswered hu
        obtain ⟨hrow, hdecodes⟩ := decodes_of_mem_decodeBatch hd
        exact ⟨d.1, hrow, hdecodes, hkey.symm⟩
    · intro u hu htrue
      rcases List.mem_append.mp hu with hu | hu
      · exact (of_mem_decodeFailures hu).2
      · rw [(of_mem_sentUpdates happended hanswered hu).1] at htrue
        cases htrue
    · rintro ⟨e, he, hdecodes⟩
      obtain ⟨ce, hce⟩ := exists_mem_decodeBatch he hdecodes
      obtain ⟨d, hd, u, hu, hkey⟩ := exists_sentUpdate now hanswered hce
      obtain ⟨hrow, hdecodes⟩ := decodes_of_mem_decodeBatch hd
      exact ⟨d.1, hrow, hdecodes, u, List.mem_append_right _ hu, hkey⟩

theorem KeysUnique.eq_of_key (hkeys : KeysUnique outbox) {e e' : OutboxEntry} (he : e ∈ pendingQueue outbox)
    (he' : e' ∈ pendingQueue outbox) (hkey : e.key = e'.key) : e = e' :=
  List.inj_on_of_nodup_map hkeys.queue he he' hkey

theorem Settles.round {updates : List UpdateRow} {b : ℕ} (hkeys : KeysUnique outbox)
    (h : Settles fl parseUuid (fetchPending outbox b) updates) :
    Round b (decodes fl parseUuid) (pendingQueue outbox) (pendingQueue (applyUpdates updates outbox)) := by
  have hfetched {e} (he : e ∈ fetchPending outbox b) : e ∈ pendingQueue outbox := List.mem_of_mem_take he
  rw [pendingQueue_applyUpdates]
  refine ⟨List.filter_sublist, ?_, ?_⟩
  · intro e he hgone
    have hclears : clears updates e = true := by
      by_contra hkept
      exact hgone (List.mem_filter.mpr ⟨he, by simpa using hkept⟩)
    obtain ⟨u, hu, hfalse⟩ := clears_iff.mp hclears
    obtain ⟨e', he', hdecodes, hkey⟩ := h.cleared u (List.mem_of_find?_eq_some hu) hfalse
    have hukey := List.find?_some hu
    rw [decide_eq_true_eq] at hukey
    obtain rfl := hkeys.eq_of_key he (hfetched he') (hukey.symm.trans hkey)
    exact ⟨hdecodes, he'⟩
  · intro hreach
    obtain ⟨e, he, hdecodes, u, hu, hkey⟩ := h.progress hreach
    rw [List.length_filter_lt_length_iff_exists]
    refine ⟨e, hfetched he, ?_⟩
    have hsome : (updates.find? (·.key = e.key)).isSome = true :=
      List.find?_isSome.mpr ⟨u, hu, by simpa using hkey⟩
    obtain ⟨u', hu'⟩ := Option.isSome_iff_exists.mp hsome
    have hukey := List.find?_some hu'
    rw [decide_eq_true_eq] at hukey
    cases hpending : u'.pendingForward with
    | false => simp [clears, hu', hpending]
    | true =>
      -- a row that is kept pending does not decode, so it is not this one
      obtain ⟨e', he', hbad, hkey'⟩ := h.kept u' (List.mem_of_find?_eq_some hu') hpending
      obtain rfl := hkeys.eq_of_key (hfetched he) (hfetched he') (hukey.symm.trans hkey')
      rw [hdecodes] at hbad
      cases hbad

variable (fl parseUuid cfg appendEvents) (times : ℕ → ℕ)

theorem keysUnique_afterCycles (hkeys : KeysUnique outbox) (n : ℕ) :
    KeysUnique (afterCycles fl parseUuid cfg appendEvents times outbox n) := by
  induction n with
  | zero => exact hkeys
  | succ n ih =>
    rw [afterCycles, forwardBatch]
    split
    · exact keysUnique_applyUpdates ih
    · exact ih

theorem pendingQueue_forwardBatch_of_not_hex (hhash : decodeHex cfg.schemaBundleHashHex.toList = none) :
    pendingQueue (forwardBatch fl parseUuid cfg appendEvents now outbox).2 = pendingQueue outbox := by
  rw [forwardBatch, batchUpdates, hhash]
  by_cases hnone : decodeBatch fl parseUuid (fetchPending outbox cfg.batchSize) = []
  · rw [if_pos hnone]
    change pendingQueue (applyUpdates _ outbox) = _
    rw [pendingQueue_applyUpdates, List.filter_eq_self]
    intro e _
    rw [Bool.not_eq_true', ← Bool.not_eq_true, clears_iff]
    rintro ⟨u, hu, hfalse⟩
    rw [(of_mem_decodeFailures (List.mem_of_find?_eq_some hu)).1] at hfalse
    cases hfalse
  · rw [if_neg hnone]
    rfl

variable (now) in
theorem round_forwardBatch (happends : Appends appendEvents) (hkeys : KeysUnique outbox)
    (hhash : decodeHex cfg.schemaBundleHashHex.toList = some hash) :
    Round cfg.batchSize (decodes fl parseUuid) (pendingQueue outbox)
      (pendingQueue (forwardBatch fl parseUuid cfg appendEvents now outbox).2) := by
  obtain ⟨updates, hupdates, hsettles⟩ :=
    batchUpdates_settles fl parseUuid (fetchPending outbox cfg.batchSize) now happends hhash
  rw [forwardBatch, hupdates]
  exact hsettles.round hkeys

theorem pendingQueue_afterCycles_of_not_hex (hhash : decodeHex cfg.schemaBundleHashHex.toList = none) (n : ℕ) :
    pendingQueue (afterCycles fl parseUuid cfg appendEvents times outbox n) = pendingQueue outbox := by
  induction n with
  | zero => rfl
  | succ n ih => rw [afterCycles, pendingQueue_forwardBatch_of_not_hex fl parseUuid cfg appendEvents hhash, ih]

theorem forall_forwarded_iff {rows : List QueuedRow} :
    (∀ q ∈ rows, decodes fl parseUuid q.entry = true → q.pendingForward = false) ↔
      ∀ e ∈ pendingQueue rows, decodes fl parseUuid e = false := by
  constructor
  · intro h e he
    obtain ⟨q, hq, hpending, rfl⟩ := mem_pendingQueue.mp he
    by_contra hdecodes
    rw [h q hq (by simpa using hdecodes)] at hpending
    cases hpending
  · intro h q hq hdecodes
    by_contra hpending
    have hbad := h q.entry (mem_pendingQueue.mpr ⟨q, hq, by simpa using hpending, rfl⟩)
    rw [hdecodes] at hbad
    cases hbad

/-- Rows that decode are all forwarded within as many cycles as there are pending rows, exactly if fewer
than a batch of rows that do not decode are ahead of each. -/
theorem forwarded_iff_unblocked (happends : Appends appendEvents) (hkeys : KeysUnique outbox) :
    (∀ q ∈ afterCycles fl parseUuid cfg appendEvents times outbox (pendingQueue outbox).length,
        decodes fl parseUuid q.entry = true → q.pendingForward = false) ↔
      ∀ p e s, pendingQueue outbox = p ++ e :: s → decodes fl parseUuid e = true →
        (decodeHex cfg.schemaBundleHashHex.toList).isSome = true ∧
          p.countP (!decodes fl parseUuid ·) < cfg.batchSize := by
  rw [forall_forwarded_iff]
  cases hhash : decodeHex cfg.schemaBundleHashHex.toList with
  | some hash =>
    have hround n := round_forwardBatch fl parseUuid (times n) cfg appendEvents happends
      (keysUnique_afterCycles fl parseUuid cfg appendEvents times hkeys n) hhash
    refine (drained_iff_unblocked hround hkeys.queue.of_map).trans ?_
    simp [Unblocked, afterCycles]
  | none =>
    rw [pendingQueue_afterCycles_of_not_hex fl parseUuid cfg appendEvents times hhash]
    constructor
    · intro hnone p e s hsplit hdecodes
      have hbad := hnone e (by simp [hsplit])
      rw [hdecodes] at hbad
      cases hbad
    · intro hall e he
      obtain ⟨p, s, hsplit⟩ := List.append_of_mem he
      by_contra hdecodes
      have hhex := (hall p e s hsplit (by simpa using hdecodes)).1
      cases hhex

end Batch

def storeAll (req : AppendEventsRequest) : Except String (List EventResult) :=
  .ok (req.events.map fun e => ⟨e.id, .appended, none, none⟩)

theorem storeAll_appends : Appends storeAll := by
  intro req
  refine ⟨_, rfl, ?_, ?_⟩
  · intro r hr
    obtain ⟨e, -, rfl⟩ := List.mem_map.mp hr
    rfl
  · intro e he
    exact ⟨_, List.mem_map_of_mem he, rfl⟩

def forwarderConfig (batchSize : ℕ) : Config := ⟨"wl-1", "bundle-1", "00ff", batchSize⟩

def wholeRow : OutboxRow :=
  { rowOf (cloudeventPayload unaryFloats predictedEvent) with auditOutboxId := ⟨2, []⟩ }

def blockedOutbox : List QueuedRow :=
  [{ entry := ⟨1, 10, rowOf (.obj [])⟩ }, { entry := ⟨1, 11, wholeRow⟩ }]

theorem wholeRow_decodes : decodes unaryFloats anyUuid ⟨1, 11, wholeRow⟩ = true := by
  have hround : ∃ e, strictDecode unaryFloats anyUuid wholeRow = .ok e ∧ _ :=
    (outbox_round_trip rfl predictedEvent_storable).1 rfl
  obtain ⟨e, he, -⟩ := hround
  exact isOk_iff_exists.mpr ⟨e, he⟩

/-- One row at a time, the whole row is never reached. -/
theorem blockedOutbox_stays :
    KeysUnique blockedOutbox ∧ (pendingQueue blockedOutbox).length = 2 ∧
    decodes unaryFloats anyUuid ⟨1, 11, wholeRow⟩ = true ∧
    (afterCycles unaryFloats anyUuid (forwarderConfig 1) storeAll id blockedOutbox 2).map (·.pendingForward) =
      [true, true] :=
  ⟨by decide +kernel, by decide +kernel, wholeRow_decodes, by decide +kernel⟩

/-- Two at a time, it is. -/
theorem blockedOutbox_forwarded :
    decodes unaryFloats anyUuid ⟨1, 11, wholeRow⟩ = true ∧
    ∀ q ∈ afterCycles unaryFloats anyUuid (forwarderConfig 2) storeAll id blockedOutbox
        (pendingQueue blockedOutbox).length,
      decodes unaryFloats anyUuid q.entry = true → q.pendingForward = false := by
  refine ⟨wholeRow_decodes, ?_⟩
  apply (forwarded_iff_unblocked unaryFloats anyUuid (forwarderConfig 2) storeAll id storeAll_appends
    (by decide +kernel)).mpr
  intro p e s hsplit _
  have hlen := congrArg List.length hsplit
  have htwo : (pendingQueue blockedOutbox).length = 2 := by decide +kernel
  have hcount : p.countP (!decodes unaryFloats anyUuid ·) ≤ p.length := List.countP_le_length
  rw [htwo, List.length_append, List.length_cons] at hlen
  refine ⟨by decide +kernel, ?_⟩
  change _ < 2
  omega

end SpendGuard.Outbox
