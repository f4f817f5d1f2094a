import SpendGuard.Projector.Project
import SpendGuard.Canonical.Columns

/-!
How a run that was evicted is rebuilt from the audit chain: the latest decision of the run in the replay window
gives the count of its steps.
-/

namespace SpendGuard.Projector

open Ledger Audit Canonical

/-- A row of `canonical_events`, with the columns that the recovery reads. Times are in microseconds. -/
structure CanonicalEvent where
  tenantId : Uuid
  eventType : String
  ingestAt : ℤ
  recordedMonth : ℤ
  runIdMirror : Option Uuid
  agentId : Option String
  producerSequence : ℤ
  prediction : PredictionColumns

/-- The run that is asked for, with the replay window. `monthOf` is `date_trunc('month', _)`. -/
structure RecoveryQuery where
  tenantId : Uuid
  runId : Uuid
  agentId : String
  replayWindowMinutes : UInt32
  clockTimestamp : ℤ
  monthOf : ℤ → ℤ

def RecoveryQuery.since (q : RecoveryQuery) : ℤ :=
  q.clockTimestamp - q.replayWindowMinutes.toBitVec.toInt * 60000000

def RecoveryQuery.selects (q : RecoveryQuery) (row : CanonicalEvent) : Bool :=
  row.tenantId = q.tenantId && row.eventType = decisionType && q.since ≤ row.ingestAt &&
    q.monthOf q.since ≤ row.recordedMonth && row.runIdMirror = some q.runId && row.agentId = some q.agentId

/-- `ORDER BY producer_sequence DESC LIMIT 1`. -/
def latest? (rows : List CanonicalEvent) : Option CanonicalEvent :=
  rows.find? fun row => rows.all (·.producerSequence ≤ row.producerSequence)

def recoverFromAuditChain (q : RecoveryQuery) (rows : List CanonicalEvent) : Option RunState :=
  (latest? (rows.filter q.selects)).map fun row =>
    { stepsCompleted := max (row.prediction.runStepsCompletedSoFar.getD 0) 0 }

/-- The row stores a decision whose event was given the numbers of the response. -/
structure Stores (rs : Readers) (r : ProjectResponse) (row : CanonicalEvent) (e : CloudEvent) : Prop where
  type : e.type = decisionType
  projection : e.prediction.runProjectionAtDecisionAtomic.toInt = r.runProjectionAtDecisionAtomic
  remaining : e.prediction.runPredictedRemainingSteps.toInt = r.runPredictedRemainingSteps
  steps : e.prediction.runStepsCompletedSoFar.toInt = r.runStepsCompletedSoFar
  columns : row.prediction = predictionColumnsFromEvent rs e

theorem Stores.stored_steps {rs : Readers} {r : ProjectResponse} {row : CanonicalEvent} {e : CloudEvent}
    (h : Stores rs r row e) : row.prediction.runStepsCompletedSoFar.getD 0 = r.runStepsCompletedSoFar := by
  simp only [h.columns, predictionColumnsFromEvent, h.type, h.steps]
  split
  · next hno =>
    -- the sentinels of an absent projector come with no steps, which is what NULL is read as
    rcases hno with hno | ⟨-, -, hno⟩ | ⟨-, -, hno⟩
    · exact absurd trivial hno
    · exact hno.symm
    · exact hno.symm
  · rfl

section Counting

variable {cfg : ProjectorConfig} {h : History} {st : RunState}

theorem evict_subset (order : List String) (responses : List (String × ProjectResponse)) :
    (evict order responses).2 ⊆ responses := by
  induction order generalizing responses with
  | nil => exact List.Subset.refl _
  | cons oldest rest ih =>
    rw [evict]
    split
    · exact List.Subset.trans (ih _) (List.filter_subset_self _)
    · exact List.Subset.refl _

theorem RunState.responses_recorded (st : RunState) (id : String) (r : ProjectResponse) :
    (st.recordProjectResponse id r).projectResponsesByDecisionId ⊆ (id, r) :: st.projectResponsesByDecisionId := by
  rw [recordProjectResponse]
  split
  · exact List.subset_cons_self _ _
  · exact List.Subset.trans (evict_subset _ _) (List.cons_subset_cons _ (List.filter_subset_self _))

def CachedWithin (st : RunState) (ids : List String) : Prop := ∀ p ∈ st.projectResponsesByDecisionId, p.1 ∈ ids

theorem CachedWithin.uncached {ids : List String} {id : String} (h : CachedWithin st ids) (hid : id ∉ ids) :
    st.cachedProjectResponse id = none := by
  rw [RunState.cachedProjectResponse]
  split
  · rfl
  · rw [List.lookup_eq_none_iff]
    intro p hp
    exact bne_iff_ne.mpr fun heq => hid (heq ▸ h p hp)

theorem CachedWithin.projectAlone {ids : List String} {call : ProjectCall} {r : ProjectResponse} {st' : RunState}
    (h : CachedWithin st ids) (hid : call.request.decisionId ∉ ids)
    (hcall : st.projectAlone cfg call = some (r, st')) :
    r.runStepsCompletedSoFar = st.stepsCompleted ∧ st'.stepsCompleted = st.stepsCompleted + 1 ∧
      CachedWithin st' (ids ++ [call.request.decisionId]) := by
  rw [RunState.projectAlone_new (h.uncached hid)] at hcall
  cases hcall
  refine ⟨rfl, ?_, ?_⟩
  · rw [RunState.recordProjectResponse_toView]
    rfl
  · intro p hp
    cases RunState.responses_recorded _ _ _ hp with
    | head => simp
    | tail _ hp => exact List.mem_append_left _ (h p hp)

theorem Executed.counted (hrun : Executed cfg h st) (hids : (decided h).Nodup) :
    st.stepsCompleted = h.length ∧ CachedWithin st (decided h) := by
  induction h using List.reverseRecOn generalizing st with
  | nil =>
    rw [executed_nil.mp hrun]
    exact ⟨rfl, by simp [CachedWithin]⟩
  | append_singleton h x ih =>
    obtain ⟨st₀, hfirst, hlast⟩ := executed_append_singleton.mp hrun
    rw [decided, List.map_append] at hids ⊢
    obtain ⟨hsteps, hcached⟩ := ih hfirst hids.of_append_left
    have hnew := List.disjoint_of_nodup_append hids
    obtain ⟨-, hstep, hcached'⟩ := hcached.projectAlone (fun hmem => hnew hmem (by simp)) hlast
    exact ⟨by simp [hstep, hsteps], hcached'⟩

theorem Executed.last_steps {x : ProjectCall × ProjectResponse} (hrun : Executed cfg (h ++ [x]) st)
    (hids : (decided (h ++ [x])).Nodup) : x.2.runStepsCompletedSoFar = h.length := by
  obtain ⟨st₀, hfirst, hlast⟩ := executed_append_singleton.mp hrun
  rw [decided, List.map_append] at hids
  obtain ⟨hsteps, hcached⟩ := hfirst.counted hids.of_append_left
  have hnew := List.disjoint_of_nodup_append hids
  rw [(hcached.projectAlone (fun hmem => hnew hmem (by simp)) hlast).1, hsteps]

end Counting

theorem latest?_last {rows stored : List CanonicalEvent} {row : CanonicalEvent} (hperm : rows.Perm (stored ++ [row]))
    (hseq : (stored ++ [row]).Pairwise fun a b => a.producerSequence < b.producerSequence) :
    latest? rows = some row := by
  have hrow : row ∈ rows := hperm.mem_iff.mpr (by simp)
  have hbelow : ∀ m ∈ stored, m.producerSequence < row.producerSequence := fun m hm =>
    (List.pairwise_append.mp hseq).2.2 m hm row (by simp)
  have hcases : ∀ m ∈ rows, m ∈ stored ∨ m = row := by simp [hperm.mem_iff]
  cases hmax : latest? rows with
  | none =>
    refine absurd (List.all_eq_true.mpr fun m hm => ?_) (List.find?_eq_none.mp hmax row hrow)
    rcases hcases m hm with hm | rfl
    · exact decide_eq_true (hbelow m hm).le
    · exact decide_eq_true le_rfl
  | some m =>
    rw [latest?] at hmax
    have hall := List.find?_some hmax
    have hle := of_decide_eq_true (List.all_eq_true.mp hall row hrow)
    rcases hcases m (List.mem_of_find?_eq_some hmax) with hm | rfl
    · exact absurd hle (not_le.mpr (hbelow m hm))
    · rfl

/-- The row of the last decision holds the count from before it, so the recovered run is one step short. -/
theorem recovered_one_step_short (cfg : ProjectorConfig) (rs : Readers) (q : RecoveryQuery) {h : History}
    {st : RunState} {rows stored : List CanonicalEvent} (hrun : Executed cfg h st) (hne : h ≠ [])
    (hids : (decided h).Nodup) (hrows : (rows.filter q.selects).Perm stored)
    (hstored : List.Forall₂ (fun r row => ∃ e, Stores rs r row e) (h.map Prod.snd) stored)
    (hseq : stored.Pairwise fun a b => a.producerSequence < b.producerSequence) :
    st.stepsCompleted = h.length ∧ ∃ st', recoverFromAuditChain q rows = some st' ∧
      st'.stepsCompleted = h.length - 1 ∧ st'.stepsCompleted ≠ st.stepsCompleted := by
  have hsteps := (hrun.counted hids).1
  obtain ⟨hlength, hpairs⟩ := List.forall₂_iff_zip.mp hstored
  obtain ⟨h, x, rfl⟩ := (List.eq_nil_or_concat' h).resolve_left hne
  obtain ⟨stored, row, rfl⟩ := (List.eq_nil_or_concat' stored).resolve_left (by rintro rfl; simp at hlength)
  simp only [List.map_append, List.map_singleton, List.length_append, List.length_singleton,
    Nat.add_right_cancel_iff] at hlength hpairs
  rw [List.zip_append hlength] at hpairs
  obtain ⟨e, he⟩ := hpairs (List.mem_append_right _ List.mem_cons_self)
  have hrecovered : recoverFromAuditChain q rows = some { stepsCompleted := max (h.length : ℤ) 0 } := by
    rw [recoverFromAuditChain, latest?_last hrows hseq, Option.map_some, he.stored_steps, hrun.last_steps hids]
  refine ⟨hsteps, _, hrecovered, ?_, ?_⟩
  · simp
  · simp [hsteps]

def sampleCall : ProjectCall := ⟨⟨"agent", "model", "d1", 1, 100, 0⟩, some none⟩

def sampleProjector : ProjectorConfig := ⟨10, 3, fun _ _ => false⟩

def sampleReaders : Readers :=
  { plainReaders with parseI64 := fun _ => none, parseUuid := fun _ => none, decimal3 := fun _ => none }

def sampleEvent : CloudEvent :=
  { type := decisionType
    prediction := { runProjectionAtDecisionAtomic := 11, runPredictedRemainingSteps := 10 } }

def sampleRow : CanonicalEvent :=
  ⟨⟨1, []⟩, decisionType, 0, 0, some ⟨2, []⟩, some "agent", 1, predictionColumnsFromEvent sampleReaders sampleEvent⟩

def sampleQuery : RecoveryQuery := ⟨⟨1, []⟩, ⟨2, []⟩, "agent", 30, 60000000, fun _ => 0⟩

theorem sampleCall_executed : ∃ r st, Executed sampleProjector [(sampleCall, r)] st ∧ st.stepsCompleted = 1 ∧
    Stores sampleReaders r sampleRow sampleEvent := by
  have hcall : RunState.projectAlone sampleProjector {} sampleCall = some (_, _) := RunState.projectAlone_new rfl
  have hrun : Executed sampleProjector ([] ++ [(sampleCall, _)]) _ :=
    executed_append_singleton.mpr ⟨_, executed_nil.mpr rfl, hcall⟩
  exact ⟨_, _, hrun, rfl, rfl, by decide +kernel, by decide +kernel, by decide +kernel, rfl⟩

theorem first_step_lost : ∃ r st st', Executed sampleProjector [(sampleCall, r)] st ∧ st.stepsCompleted = 1 ∧
    Stores sampleReaders r sampleRow sampleEvent ∧ sampleQuery.selects sampleRow = true ∧
    recoverFromAuditChain sampleQuery [sampleRow] = some st' ∧ st'.stepsCompleted = 0 := by
  obtain ⟨r, st, hrun, hsteps, hstored⟩ := sampleCall_executed
  exact ⟨r, st, _, hrun, hsteps, hstored, rfl, rfl, rfl⟩

theorem first_step_short : ∃ r st st', Executed sampleProjector [(sampleCall, r)] st ∧
    recoverFromAuditChain sampleQuery [sampleRow] = some st' ∧ st'.stepsCompleted ≠ st.stepsCompleted := by
  obtain ⟨r, st, hrun, -, hstored⟩ := sampleCall_executed
  have hrows : ([sampleRow].filter sampleQuery.selects).Perm [sampleRow] := .refl _
  obtain ⟨-, st', hst', -, hne⟩ := recovered_one_step_short _ sampleReaders _ hrun (List.cons_ne_nil _ _)
    (by simp [decided]) hrows (.cons ⟨_, hstored⟩ .nil) (by simp)
  exact ⟨r, st, st', hrun, hst', hne⟩

end SpendGuard.Projector
