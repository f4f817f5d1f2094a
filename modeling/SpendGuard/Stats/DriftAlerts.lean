import SpendGuard.Canonical.Columns

/-!
Drift alerts of the stats aggregator and their cooldown. An alert is reserved, emitted to the canonical ingest and
recorded in three steps, and the cycle may end between any two of them. The clock is in nanoseconds, and the
database keeps microseconds.
-/

namespace SpendGuard.Stats

open Base Ledger Audit Canonical Relation

structure DriftAlertKey where
  tenantId : Uuid
  model : String
  agentId : String
  promptClass : String
  deriving DecidableEq

structure Attempt where
  event : CloudEvent
  zScore : UInt32

/-- The pending columns, which are set and cleared together. -/
structure Pending where
  attempt : Attempt
  createdAt : ℕ
  expiresAt : ℕ

structure CooldownRow where
  suppressUntil : Option ℕ := none
  pending : Option Pending := none

inductive EmissionDecision
  | allowed (attempt : Attempt)
  | suppressed (suppressUntil : ℕ)

/-- A time as it is stored. -/
def micros (t : ℕ) : ℕ := t / 1000

/-- `DRIFT_ALERT_COOLDOWN_HOURS` in microseconds. -/
def cooldown : ℕ := 24 * 3600 * 1000000

/-- The stored time is later than the one on the clock. -/
def After (stored now : ℕ) : Prop := now < stored * 1000

instance (stored now : ℕ) : Decidable (After stored now) := inferInstanceAs (Decidable (_ < _))

def reserveEmission (parseUuid : String → Option Uuid) (row : CooldownRow) (now : ℕ) (candidate : Attempt) :
    Except String (EmissionDecision × CooldownRow) := do
  check (isFinite candidate.zScore = true) "non-finite z_score cannot enter drift alert pending emission"
  let _ ← found (parseUuid candidate.event.id) "prediction_drift_alert pending event_id must be a UUID"
  let _ ← found candidate.event.time "prediction_drift_alert pending event_time required"
  match row.suppressUntil.filter (After · now), row.pending.filter (After ·.expiresAt now) with
  | some suppressUntil, _ => return (.suppressed suppressUntil, row)
  | none, some p => return (.allowed p.attempt, row)
  | none, none =>
    return (.allowed candidate, { row with pending := some ⟨candidate, micros now, micros now + cooldown⟩ })

def recordEmitted (emittedAt : ℕ) (zScore : UInt32) : Except String CooldownRow := do
  check (isFinite zScore = true) "non-finite z_score cannot enter drift alert cooldown store"
  return { suppressUntil := some (micros emittedAt + cooldown), pending := none }

/-- What the cycle that holds the advisory lock is about to do. -/
inductive Phase
  | idle
  | reserved (key : DriftAlertKey) (attempt : Attempt)
  | sending (key : DriftAlertKey) (attempt : Attempt)
  | emitted (key : DriftAlertKey) (attempt : Attempt)

def Phase.alert? : Phase → Option (DriftAlertKey × String)
  | .idle => none
  | .reserved key a | .sending key a | .emitted key a => some (key, a.event.id)

/-- The cooldown table, the cycle at work on it, the ids of the alerts on their way to the ingest and of those it
has stored, and the time at which each was reserved. A key without a row has an empty one. -/
structure Detector where
  now : ℕ
  rows : DriftAlertKey → CooldownRow := fun _ => {}
  phase : Phase := .idle
  sent : List (DriftAlertKey × String) := []
  stored : List (DriftAlertKey × String) := []
  reservations : List (DriftAlertKey × String × ℕ) := []

namespace Detector

variable {parseUuid : String → Option Uuid} {s s' : Detector} {key : DriftAlertKey} {row : CooldownRow}

def setRow (s : Detector) (key : DriftAlertKey) (row : CooldownRow) : Detector :=
  { s with rows := Function.update s.rows key row }

theorem rows_setRow : (s.setRow key row).rows key = row := Function.update_self ..

theorem rows_setRow_of_ne {k : DriftAlertKey} (h : k ≠ key) : (s.setRow key row).rows k = s.rows k :=
  Function.update_of_ne h ..

inductive Step (parseUuid : String → Option Uuid) (s : Detector) : Detector → Prop
  | advance (elapsed : ℕ) : Step parseUuid s { s with now := s.now + elapsed }
  | suppress {key : DriftAlertKey} {candidate : Attempt} {until_ : ℕ} {row : CooldownRow} (h : s.phase = .idle)
      (hrow : reserveEmission parseUuid (s.rows key) s.now candidate = .ok (.suppressed until_, row)) :
      Step parseUuid s (s.setRow key row)
  | reserve {key : DriftAlertKey} {candidate attempt : Attempt} {row : CooldownRow} {p : Pending} (h : s.phase = .idle)
      (hrow : reserveEmission parseUuid (s.rows key) s.now candidate = .ok (.allowed attempt, row))
      (hp : row.pending = some p) :
      Step parseUuid s { s.setRow key row with
        phase := .reserved key attempt
        reservations := s.reservations.insert (key, p.attempt.event.id, p.createdAt) }
  | send {key : DriftAlertKey} {attempt : Attempt} (h : s.phase = .reserved key attempt) :
      Step parseUuid s { s with phase := .sending key attempt, sent := (key, attempt.event.id) :: s.sent }
  -- what was sent may be stored whenever, and once only
  | store {alert : DriftAlertKey × String} (h : alert ∈ s.sent) :
      Step parseUuid s { s with stored := s.stored.insert alert }
  | emitted {key : DriftAlertKey} {attempt : Attempt} (h : s.phase = .sending key attempt)
      (hstored : (key, attempt.event.id) ∈ s.stored) : Step parseUuid s { s with phase := .emitted key attempt }
  | record {key : DriftAlertKey} {attempt : Attempt} {row : CooldownRow} (h : s.phase = .emitted key attempt)
      (hrow : recordEmitted s.now attempt.zScore = .ok row) :
      Step parseUuid s { s.setRow key row with phase := .idle }
  -- an error of any kind, or a crash
  | stop : Step parseUuid s { s with phase := .idle }

theorem le_micros_of_not_after {u now : ℕ} (h : ¬decide (After u now) = true) : u ≤ micros now := by
  rw [decide_eq_true_eq, After] at h
  rw [micros]
  omega

theorem reserveEmission_cases {now : ℕ} {candidate : Attempt} {d : EmissionDecision} {row' : CooldownRow}
    (h : reserveEmission parseUuid row now candidate = .ok (d, row')) :
    (row' = row ∧ ∀ a, d = .allowed a → ∃ p, row.pending = some p ∧ p.attempt = a) ∨
    (d = .allowed candidate ∧ row' = { row with pending := some ⟨candidate, micros now, micros now + cooldown⟩ } ∧
      (∀ u, row.suppressUntil = some u → u ≤ micros now) ∧ ∀ p, row.pending = some p → p.expiresAt ≤ micros now) := by
  obtain ⟨-, h⟩ := check_bind_eq_ok.mp h
  obtain ⟨_, -, h⟩ := bind_eq_ok.mp h
  obtain ⟨_, -, h⟩ := bind_eq_ok.mp h
  split at h
  · cases h
    exact .inl ⟨rfl, nofun⟩
  · next p _ hp =>
    cases h
    exact .inl ⟨rfl, fun a ha => ⟨p, (Option.filter_eq_some_iff.mp hp).1, EmissionDecision.allowed.inj ha⟩⟩
  · next hu hp =>
    cases h
    refine .inr ⟨rfl, rfl, ?_, ?_⟩
    · intro u hs
      exact le_micros_of_not_after (Option.filter_eq_none_iff.mp hu u hs)
    · intro p hs
      exact le_micros_of_not_after (Option.filter_eq_none_iff.mp hp p hs)

/-- The row keeps every new alert away for the cooldown from time `t` on. -/
def Blocks (row : CooldownRow) (t : ℕ) : Prop :=
  (∃ u, row.suppressUntil = some u ∧ t + cooldown ≤ u) ∨ ∃ p, row.pending = some p ∧ t + cooldown ≤ p.expiresAt

def Known (s : Detector) (alert : DriftAlertKey × String) : Prop := ∃ t, (alert.1, alert.2, t) ∈ s.reservations

structure Invariant (s : Detector) : Prop where
  past : ∀ x ∈ s.reservations, x.2.2 ≤ micros s.now
  blocks : ∀ x ∈ s.reservations, Blocks (s.rows x.1) x.2.2
  pending : ∀ key p, (s.rows key).pending = some p → (key, p.attempt.event.id, p.createdAt) ∈ s.reservations
  apart : ∀ x ∈ s.reservations, ∀ y ∈ s.reservations, x.1 = y.1 → x.2.1 ≠ y.2.1 →
    x.2.2 + cooldown ≤ y.2.2 ∨ y.2.2 + cooldown ≤ x.2.2
  working : ∀ alert ∈ s.phase.alert?, s.Known alert
  sent : ∀ alert ∈ s.sent, s.Known alert
  stored : ∀ alert ∈ s.stored, s.Known alert

theorem Invariant.advance (h : s.Invariant) (elapsed : ℕ) : Invariant { s with now := s.now + elapsed } :=
  { h with past := fun x hx => (h.past x hx).trans (Nat.div_le_div_right (Nat.le_add_right _ _)) }

theorem Invariant.atPhase (h : s.Invariant) {phase : Phase} (hp : ∀ alert ∈ phase.alert?, s.Known alert) :
    Invariant { s with phase := phase } := { h with working := hp }

theorem Invariant.setRow_self (h : s.Invariant) : Invariant (s.setRow key (s.rows key)) := by
  rwa [setRow, Function.update_eq_self]

theorem Invariant.record (h : s.Invariant) {z : UInt32} (hrow : recordEmitted s.now z = .ok row) :
    (s.setRow key row).Invariant := by
  obtain ⟨-, hrow⟩ := check_bind_eq_ok.mp hrow
  cases hrow
  refine { h with blocks := fun x hx => ?_, pending := fun k p hp => ?_ }
  · by_cases hk : x.1 = key
    · rw [hk, rows_setRow]
      exact .inl ⟨_, rfl, Nat.add_le_add_right (h.past x hx) _⟩
    · rw [rows_setRow_of_ne hk]
      exact h.blocks x hx
  · by_cases hk : k = key
    · simp [hk, rows_setRow] at hp
    · rw [rows_setRow_of_ne hk] at hp
      exact h.pending k p hp

theorem Known.mono {alert : DriftAlertKey × String} (h : s.Known alert) (hsub : s.reservations ⊆ s'.reservations) :
    s'.Known alert := h.imp fun _ ht => hsub ht

/-- A new reservation comes when nothing blocks it, so after the cooldown of all the others. -/
theorem Invariant.reserve (h : s.Invariant) {a : Attempt} (hu : ∀ u, (s.rows key).suppressUntil = some u → u ≤ micros s.now)
    (hp : ∀ p, (s.rows key).pending = some p → p.expiresAt ≤ micros s.now)
    (hrow : row = { s.rows key with pending := some ⟨a, micros s.now, micros s.now + cooldown⟩ }) :
    Invariant { s.setRow key row with
      phase := .reserved key a, reservations := s.reservations.insert (key, a.event.id, micros s.now) } := by
  subst hrow
  have hold : ∀ x ∈ s.reservations, x.1 = key → x.2.2 + cooldown ≤ micros s.now := by
    rintro x hx rfl
    rcases h.blocks x hx with ⟨u, hsu, hle⟩ | ⟨p, hpe, hle⟩
    · exact hle.trans (hu u hsu)
    · exact hle.trans (hp p hpe)
  have hsub : s.reservations ⊆ s.reservations.insert (key, a.event.id, micros s.now) :=
    fun _ hx => List.mem_insert_of_mem hx
  refine ⟨?_, ?_, ?_, ?_, ?_, fun x hx => (h.sent x hx).mono hsub, fun x hx => (h.stored x hx).mono hsub⟩
  · simp only [List.mem_insert_iff]
    rintro x (rfl | hx)
    · exact le_rfl
    · exact h.past x hx
  · simp only [List.mem_insert_iff]
    intro x hx
    by_cases hk : x.1 = key
    · rw [hk, rows_setRow]
      refine .inr ⟨_, rfl, Nat.add_le_add_right ?_ _⟩
      rcases hx with rfl | hx
      · exact le_rfl
      · exact h.past x hx
    · rw [rows_setRow_of_ne hk]
      exact h.blocks x (hx.resolve_left fun heq => hk (by rw [heq]))
  · intro k p hpe
    by_cases hk : k = key
    · subst hk
      simp only [rows_setRow, Option.some.injEq] at hpe
      simp [← hpe]
    · rw [rows_setRow_of_ne hk] at hpe
      exact hsub (h.pending k p hpe)
  · simp only [List.mem_insert_iff]
    rintro x (rfl | hx) y (rfl | hy) hkey hid
    · exact absurd rfl hid
    · exact .inr (hold y hy hkey.symm)
    · exact .inl (hold x hx hkey)
    · exact h.apart x hx y hy hkey hid
  · simp [Phase.alert?, Known]

theorem Step.invariant (h : Step parseUuid s s') (hi : s.Invariant) : s'.Invariant := by
  cases h with
  | advance elapsed => exact hi.advance elapsed
  | suppress h hrow =>
    rcases reserveEmission_cases hrow with ⟨rfl, -⟩ | ⟨hd, -⟩
    · exact hi.setRow_self
    · cases hd
  | @reserve key candidate attempt row p h hrow hp =>
    rcases reserveEmission_cases hrow with ⟨rfl, hd⟩ | ⟨hd, rfl, hu, hold⟩
    · obtain ⟨_, hp', rfl⟩ := hd attempt rfl
      obtain rfl := Option.some.inj (hp.symm.trans hp')
      have hmem := hi.pending key p hp
      rw [List.insert_of_mem hmem]
      exact hi.setRow_self.atPhase (by simpa [Phase.alert?] using ⟨_, hmem⟩)
    · cases hd
      cases hp
      exact hi.reserve hu hold rfl
  | @send key attempt h =>
    have hknown : s.Known (key, attempt.event.id) := hi.working _ (by simp [h, Phase.alert?])
    exact { hi with
      working := fun _ ha => Option.some.inj ha ▸ hknown
      sent := List.forall_mem_cons.mpr ⟨hknown, hi.sent⟩ }
  | store h =>
    refine { hi with stored := fun alert halert => ?_ }
    rcases List.mem_insert_iff.mp halert with rfl | halert
    · exact hi.sent _ h
    · exact hi.stored _ halert
  | emitted h hstored => exact hi.atPhase (by simpa [Phase.alert?] using hi.stored _ hstored)
  | record h hrow => exact (hi.record hrow).atPhase (by simp [Phase.alert?])
  | stop => exact hi.atPhase (by simp [Phase.alert?])

theorem invariant_of_reachable {start : ℕ} (h : ReflTransGen (Step parseUuid) { now := start } s) : s.Invariant := by
  induction h with
  | refl => constructor <;> simp [Phase.alert?]
  | tail _ hstep ih => exact hstep.invariant ih

/-- Two alerts of one bucket that are ever stored were reserved at times, as they are stored, a cooldown apart. -/
theorem stored_alerts_apart (parseUuid : String → Option Uuid) (start : ℕ)
    (h : ReflTransGen (Step parseUuid) { now := start } s) {a b : String} (ha : (key, a) ∈ s.stored)
    (hb : (key, b) ∈ s.stored) (hne : a ≠ b) :
    (∃ t, (key, a, t) ∈ s.reservations) ∧ (∃ t, (key, b, t) ∈ s.reservations) ∧
      ∀ t u, (key, a, t) ∈ s.reservations → (key, b, u) ∈ s.reservations → t + cooldown ≤ u ∨ u + cooldown ≤ t := by
  have hi := invariant_of_reachable h
  exact ⟨hi.stored _ ha, hi.stored _ hb, fun t u ht hu => hi.apart _ ht _ hu rfl hne⟩

def sampleKey : DriftAlertKey := ⟨⟨1, []⟩, "m", "a", "rag"⟩

def sampleAttempt (id : String) : Attempt := ⟨{ id := id, time := some ⟨0, 0⟩ }, 0⟩

/-- The first alert is stored though its cycle crashes; a day later the next one is reserved. -/
theorem second_alert_a_day_later : ∃ s : Detector, ReflTransGen (Step fun _ => some ⟨1, []⟩) { now := 0 } s ∧
    (sampleKey, "e1") ∈ s.stored ∧ (sampleKey, "e2") ∈ s.stored ∧
    ∀ t u, (sampleKey, "e1", t) ∈ s.reservations → (sampleKey, "e2", u) ∈ s.reservations →
      t + cooldown ≤ u ∨ u + cooldown ≤ t := by
  have hrun : ReflTransGen (Step fun _ => some ⟨1, []⟩) { now := 0 } _ :=
    .head (@Step.reserve _ _ sampleKey (sampleAttempt "e1") _ _ _ rfl rfl rfl) <| .head (.send rfl) <|
    .head (.store (.head _)) <| .head .stop <| .head (.advance 86400000000000) <|
    .head (@Step.reserve _ _ sampleKey (sampleAttempt "e2") _ _ _ rfl rfl rfl) <| .head (.send rfl) <|
    .head (.store (.head _)) .refl
  exact ⟨_, hrun, by decide, by decide, (stored_alerts_apart _ _ hrun (by decide) (by decide) (by decide)).2.2⟩

end Detector

end SpendGuard.Stats
