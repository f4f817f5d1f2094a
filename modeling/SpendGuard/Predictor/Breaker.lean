import SpendGuard.Base.Check
import SpendGuard.Base.Run
import SpendGuard.Ledger.Schema

/-!
The circuit breaker in front of a tenant's own predictor: after failures it opens, and after a while it lets one
call through to see whether the predictor is back.
-/

namespace SpendGuard.Predictor

open Base Ledger

inductive BreakerState
  | closed
  | opened
  | halfOpen
  deriving DecidableEq

structure CircuitBreakerConfig where
  failureThreshold : ℕ := 10
  openDuration : ℕ := 300000000

structure BreakerEntry where
  state : BreakerState := .closed
  consecutiveFailures : ℕ := 0
  openUntil : Option ℕ := none
  halfOpenProbeInflight : Bool := false

inductive Permit
  | allow
  | skipOpen
  deriving DecidableEq

namespace BreakerEntry

def permitRequestAt (e : BreakerEntry) (now : ℕ) : Permit × BreakerEntry :=
  match e.state, e.openUntil with
  | .closed, _ => (.allow, e)
  | .halfOpen, _ =>
    if e.halfOpenProbeInflight then (.skipOpen, e) else (.allow, { e with halfOpenProbeInflight := true })
  | .opened, some deadline =>
    if deadline ≤ now then
      (.allow, { e with state := .halfOpen, openUntil := none, halfOpenProbeInflight := true })
    else (.skipOpen, e)
  | .opened, none => (.allow, { e with state := .halfOpen, halfOpenProbeInflight := true })

def reset (_ : BreakerEntry) : BreakerEntry :=
  { state := .closed, consecutiveFailures := 0, openUntil := none, halfOpenProbeInflight := false }

def recordSuccess (e : BreakerEntry) : BreakerEntry := e.reset

def forceReset (e : BreakerEntry) : BreakerEntry := e.reset

def recordHealthOk (e : BreakerEntry) : BreakerEntry := e.reset

def recordFailureAt (e : BreakerEntry) (now : ℕ) (cfg : CircuitBreakerConfig) : BreakerEntry :=
  match e.state with
  | .closed =>
    let failures := min (e.consecutiveFailures + 1) (2 ^ 32 - 1)
    if cfg.failureThreshold ≤ failures then
      { e with
        consecutiveFailures := failures, state := .opened, openUntil := some (now + cfg.openDuration)
        halfOpenProbeInflight := false }
    else { e with consecutiveFailures := failures, halfOpenProbeInflight := false }
  | .halfOpen =>
    { e with
      state := .opened, openUntil := some (now + cfg.openDuration), consecutiveFailures := cfg.failureThreshold
      halfOpenProbeInflight := false }
  | .opened => { e with openUntil := some (now + cfg.openDuration), halfOpenProbeInflight := false }

def recordHealthFailAt (_ : BreakerEntry) (now : ℕ) (cfg : CircuitBreakerConfig) : BreakerEntry :=
  { state := .opened, openUntil := some (now + cfg.openDuration), consecutiveFailures := cfg.failureThreshold
    halfOpenProbeInflight := false }

def Fits (e : BreakerEntry) : Prop := e.halfOpenProbeInflight = true ↔ e.state = .halfOpen

def Cleared (e : BreakerEntry) : Prop := e.halfOpenProbeInflight = false ∧ e.state ≠ .halfOpen

variable {e : BreakerEntry} {now : ℕ} {cfg : CircuitBreakerConfig}

theorem Cleared.fits (h : e.Cleared) : e.Fits := by
  rw [Fits, h.1]
  exact iff_of_false Bool.false_ne_true h.2

theorem cleared_reset : e.reset.Cleared := ⟨rfl, nofun⟩

theorem cleared_recordHealthFailAt : (e.recordHealthFailAt now cfg).Cleared := ⟨rfl, nofun⟩

theorem cleared_recordFailureAt : (e.recordFailureAt now cfg).Cleared := by
  rw [recordFailureAt]
  cases hstate : e.state with
  | closed =>
    dsimp only
    split
    · exact ⟨rfl, nofun⟩
    · exact ⟨rfl, nofun⟩
  | halfOpen => exact ⟨rfl, nofun⟩
  | opened => exact ⟨rfl, nofun⟩

inductive Permits (e : BreakerEntry) (now : ℕ) : Permit → BreakerEntry → Prop
  | closed (h : e.state = .closed) : Permits e now .allow e
  | waiting {deadline : ℕ} (h : e.state = .opened) (hdeadline : e.openUntil = some deadline) (hlt : now < deadline) :
      Permits e now .skipOpen e
  | busy (h : e.state = .halfOpen) : Permits e now .skipOpen e
  | probe {e' : BreakerEntry} (h : e.state = .opened) (h' : e'.state = .halfOpen)
      (hslot : e'.halfOpenProbeInflight = true) : Permits e now .allow e'

theorem Fits.permits (h : e.Fits) : e.Permits now (e.permitRequestAt now).1 (e.permitRequestAt now).2 := by
  cases hstate : e.state with
  | closed =>
    simp only [permitRequestAt, hstate]
    exact .closed hstate
  | halfOpen =>
    have hslot : e.halfOpenProbeInflight = true := h.mpr hstate
    simp only [permitRequestAt, hstate, hslot, if_true]
    exact .busy hstate
  | opened =>
    cases hdeadline : e.openUntil with
    | none =>
      simp only [permitRequestAt, hstate, hdeadline]
      exact .probe hstate rfl rfl
    | some deadline =>
      simp only [permitRequestAt, hstate, hdeadline]
      split
      · exact .probe hstate rfl rfl
      · next hle => exact .waiting hstate hdeadline (Nat.lt_of_not_le hle)

end BreakerEntry

/-- What comes of the call of the predictor; the confidence is given by its bits. -/
inductive PluginReply
  | timeout
  | status
  | response (predictedOutputTokens : ℤ) (confidence : UInt32)
  deriving DecidableEq

/-- The float is in `0.0..=1.0`. -/
def confidenceInRange (bits : UInt32) : Bool := bits ≤ 0x3f800000 || bits = 0x80000000

def PluginReply.valid (modelContextWindow : ℤ) : PluginReply → Bool
  | .timeout => false
  | .status => false
  | .response tokens confidence => 0 < tokens && tokens ≤ modelContextWindow && confidenceInRange confidence

/-- A `compute_c` from its permit on. `window` is the half-open window that admitted it, if one did. -/
structure ComputeCall where
  tenant : Uuid
  modelContextWindow : ℤ
  window : Option ℕ
  inFlight : Bool

/-- The calls are numbered as they come; `windows` counts how often the breaker went half open. -/
structure BreakerSystem where
  now : ℕ
  entries : Uuid → BreakerEntry := fun _ => {}
  windows : Uuid → ℕ := fun _ => 0
  calls : List ComputeCall := []

inductive BreakerEvent
  | advance (elapsed : ℕ)
  | permit (tenant : Uuid) (modelContextWindow : ℤ)
  | record (c : ℕ) (reply : PluginReply)
  | drop (c : ℕ)
  | healthOk (tenant : Uuid)
  | healthFail (tenant : Uuid)
  | forceReset (tenant : Uuid)
  deriving DecidableEq

namespace BreakerSystem

def setEntry (s : BreakerSystem) (tenant : Uuid) (e : BreakerEntry) : BreakerSystem :=
  { s with entries := Function.update s.entries tenant e }

def finish (s : BreakerSystem) (c : ℕ) (call : ComputeCall) : BreakerSystem :=
  { s with calls := s.calls.set c { call with inFlight := false } }

def answered (s : BreakerSystem) (tenant : Uuid) (modelContextWindow : ℤ) (answer : Permit) (e : BreakerEntry) :
    BreakerSystem :=
  let window := s.windows tenant + if (s.entries tenant).state = .opened ∧ e.state = .halfOpen then 1 else 0
  { s with
    entries := Function.update s.entries tenant e
    windows := Function.update s.windows tenant window
    calls := s.calls ++ [{
      tenant, modelContextWindow
      window := if answer = .allow ∧ e.state = .halfOpen then some window else none
      inFlight := answer = .allow }] }

def inFlight? (s : BreakerSystem) (c : ℕ) : Except String ComputeCall :=
  found ((s.calls[c]?).filter (·.inFlight)) "not in flight"

def step (cfg : CircuitBreakerConfig) (s : BreakerSystem) : BreakerEvent → Except String BreakerSystem
  | .advance elapsed => return { s with now := s.now + elapsed }
  | .permit tenant modelContextWindow =>
    let (answer, e) := (s.entries tenant).permitRequestAt s.now
    return s.answered tenant modelContextWindow answer e
  | .record c reply => do
    let call ← s.inFlight? c
    let e := s.entries call.tenant
    let e := if reply.valid call.modelContextWindow then e.recordSuccess else e.recordFailureAt s.now cfg
    return (s.setEntry call.tenant e).finish c call
  -- the future is dropped while it awaits the predictor, and nothing is recorded
  | .drop c => do
    let call ← s.inFlight? c
    return s.finish c call
  | .healthOk tenant => return s.setEntry tenant (s.entries tenant).recordHealthOk
  | .healthFail tenant => return s.setEntry tenant ((s.entries tenant).recordHealthFailAt s.now cfg)
  | .forceReset tenant => return s.setEntry tenant (s.entries tenant).forceReset

def IsProbe (s : BreakerSystem) (call : ComputeCall) : Prop :=
  (s.entries call.tenant).state = .halfOpen ∧ call.window = some (s.windows call.tenant)

instance (s : BreakerSystem) (call : ComputeCall) : Decidable (s.IsProbe call) := inferInstanceAs (Decidable (_ ∧ _))

def KeepsProbe (s : BreakerSystem) : BreakerEvent → Prop
  | .drop c => ∀ call ∈ s.calls[c]?, ¬s.IsProbe call
  | _ => True

instance (s : BreakerSystem) : DecidablePred s.KeepsProbe
  | .drop c => inferInstanceAs (Decidable (∀ call ∈ s.calls[c]?, ¬s.IsProbe call))
  | .advance _ | .permit _ _ | .record _ _ | .healthOk _ | .healthFail _ | .forceReset _ => isTrue trivial

/-- The slot is free unless a call is in flight, and at most one call that the current window admitted is. -/
structure SlotKept (s : BreakerSystem) : Prop where
  free : ∀ tenant, (∀ call ∈ s.calls, call.tenant = tenant → call.inFlight = false) →
    (s.entries tenant).halfOpenProbeInflight = false
  single : ∀ tenant,
    s.calls.countP (fun call => call.inFlight ∧ call.tenant = tenant ∧ call.window = some (s.windows tenant)) ≤ 1

def SkipsRightly (s : BreakerSystem) : BreakerEvent → Prop
  | .permit tenant _ => ((s.entries tenant).permitRequestAt s.now).1 = .skipOpen →
      ((s.entries tenant).state = .opened ∧ ∃ deadline, (s.entries tenant).openUntil = some deadline ∧ s.now < deadline) ∨
      ∃ call ∈ s.calls, call.tenant = tenant ∧ call.inFlight = true
  | _ => True

structure Invariant (s : BreakerSystem) : Prop where
  fits : ∀ tenant, (s.entries tenant).Fits
  held : ∀ tenant, (s.entries tenant).state = .halfOpen →
    ∃ call ∈ s.calls, call.tenant = tenant ∧ call.inFlight = true ∧ call.window = some (s.windows tenant)
  bounded : ∀ call ∈ s.calls, ∀ w, call.window = some w → w ≤ s.windows call.tenant
  unique : ∀ tenant w, s.calls.countP (fun call => call.tenant = tenant ∧ call.window = some w) ≤ 1

section Invariant

variable {s : BreakerSystem} {tenant : Uuid} {call : ComputeCall} {c : ℕ}

theorem setEntry_self (e : BreakerEntry) : (s.setEntry tenant e).entries tenant = e := by
  simp [setEntry]

theorem setEntry_ne {other : Uuid} (e : BreakerEntry) (h : other ≠ tenant) :
    (s.setEntry tenant e).entries other = s.entries other := by
  simp [setEntry, h]

theorem Invariant.clear (h : s.Invariant) {e : BreakerEntry} (he : e.Cleared) : (s.setEntry tenant e).Invariant where
  fits other := by
    by_cases heq : other = tenant
    · rw [heq, setEntry_self]
      exact he.fits
    · rw [setEntry_ne e heq]
      exact h.fits other
  held other := by
    by_cases heq : other = tenant
    · rw [heq, setEntry_self]
      exact fun hstate => absurd hstate he.2
    · rw [setEntry_ne e heq]
      exact h.held other
  bounded := h.bounded
  unique := h.unique

theorem countP_finish (hcall : s.calls[c]? = some call) (p : ComputeCall → Bool)
    (hp : p { call with inFlight := false } = p call) : (s.finish c call).calls.countP p = s.calls.countP p := by
  obtain ⟨hc, hget⟩ := List.getElem?_eq_some_iff.mp hcall
  rw [finish, List.countP_set hc, hget, hp]
  have hpos : (if p call = true then 1 else 0) ≤ s.calls.countP p := by
    split
    · next h => exact List.countP_pos_iff.mpr ⟨call, List.mem_of_getElem? hcall, h⟩
    · exact Nat.zero_le _
  omega

theorem Invariant.finish (h : s.Invariant) (hcall : s.calls[c]? = some call) (hnot : ¬s.IsProbe call) :
    (s.finish c call).Invariant where
  fits := h.fits
  held tenant hstate := by
    obtain ⟨probe, hprobe, rfl, hflight, hwindow⟩ := h.held tenant hstate
    refine ⟨probe, ?_, rfl, hflight, hwindow⟩
    obtain ⟨d, hd⟩ := List.mem_iff_getElem?.mp hprobe
    have hne : c ≠ d := by
      rintro rfl
      rw [hcall] at hd
      cases hd
      exact hnot ⟨hstate, hwindow⟩
    apply List.mem_of_getElem?
    rw [BreakerSystem.finish, List.getElem?_set_ne hne]
    exact hd
  bounded d hd := by
    rcases List.mem_or_eq_of_mem_set hd with hd | rfl
    · exact h.bounded d hd
    · exact h.bounded call (List.mem_of_getElem? hcall)
  unique tenant w := by
    rw [countP_finish hcall _ rfl]
    exact h.unique tenant w

theorem Invariant.append (h : s.Invariant) (hwindow : call.window = none) :
    Invariant { s with calls := s.calls ++ [call] } where
  fits := h.fits
  held tenant hstate := by
    obtain ⟨probe, hprobe, hrest⟩ := h.held tenant hstate
    exact ⟨probe, List.mem_append_left _ hprobe, hrest⟩
  bounded d hd w hw := by
    rcases List.mem_append.mp hd with hd | hd
    · exact h.bounded d hd w hw
    · rw [List.mem_singleton.mp hd, hwindow] at hw
      cases hw
  unique tenant w := by
    rw [List.countP_append, List.countP_singleton]
    simpa [hwindow] using h.unique tenant w

theorem Invariant.probe (h : s.Invariant) {e : BreakerEntry} (hstate : e.state = .halfOpen)
    (hslot : e.halfOpenProbeInflight = true) (htenant : call.tenant = tenant) (hflight : call.inFlight = true)
    (hwindow : call.window = some (s.windows tenant + 1)) :
    Invariant { s with
      entries := Function.update s.entries tenant e
      windows := Function.update s.windows tenant (s.windows tenant + 1)
      calls := s.calls ++ [call] } := by
  have hle (other : Uuid) : s.windows other ≤ Function.update s.windows tenant (s.windows tenant + 1) other := by
    rw [Function.update_apply]
    split
    · next heq => rw [heq]; omega
    · exact Nat.le_refl _
  constructor
  · intro other
    dsimp only
    by_cases heq : other = tenant
    · rw [heq, Function.update_self]
      exact iff_of_true hslot hstate
    · rw [Function.update_of_ne heq]
      exact h.fits other
  · intro other
    dsimp only
    by_cases heq : other = tenant
    · rw [heq, Function.update_self, Function.update_self]
      exact fun _ => ⟨call, List.mem_append_right _ (List.mem_singleton_self _), htenant, hflight, hwindow⟩
    · rw [Function.update_of_ne heq, Function.update_of_ne heq]
      intro hother
      obtain ⟨probe, hprobe, hrest⟩ := h.held other hother
      exact ⟨probe, List.mem_append_left _ hprobe, hrest⟩
  · intro d hd w hw
    rcases List.mem_append.mp hd with hd | hd
    · exact Nat.le_trans (h.bounded d hd w hw) (hle d.tenant)
    · rw [List.mem_singleton.mp hd, hwindow] at hw
      cases hw
      apply Nat.le_of_eq
      dsimp only
      rw [List.mem_singleton.mp hd, htenant, Function.update_self]
  · intro other w
    rw [List.countP_append, List.countP_singleton]
    split
    · next hnew =>
      -- no call before was admitted by the window that begins
      have hzero : s.calls.countP (fun call => call.tenant = other ∧ call.window = some w) = 0 := by
        rw [List.countP_eq_zero]
        intro d hd hkey
        rw [decide_eq_true_eq] at hnew hkey
        have hbound := h.bounded d hd w hkey.2
        rw [hkey.1, ← hnew.1, htenant] at hbound
        rw [hwindow] at hnew
        have := Option.some.inj hnew.2
        omega
      omega
    · exact h.unique other w

theorem Invariant.permit (h : s.Invariant) {ctx : ℤ} {answer : Permit} {e : BreakerEntry}
    (hpermits : (s.entries tenant).Permits s.now answer e) : (s.answered tenant ctx answer e).Invariant := by
  have hsame : Function.update s.entries tenant (s.entries tenant) = s.entries := Function.update_eq_self tenant s.entries
  cases hpermits with
  | closed hstate =>
    simp only [answered, hsame, hstate, reduceCtorEq, and_false, if_false, Nat.add_zero,
      Function.update_eq_self]
    exact h.append rfl
  | waiting hstate hdeadline hlt =>
    simp only [answered, hsame, hstate, reduceCtorEq, and_false, if_false, Nat.add_zero,
      Function.update_eq_self]
    exact h.append rfl
  | busy hstate =>
    simp only [answered, hsame, hstate, reduceCtorEq, false_and, if_false, Nat.add_zero, Function.update_eq_self]
    exact h.append rfl
  | probe hstate hstate' hslot =>
    simp only [answered, hstate, hstate', and_self, if_true]
    exact h.probe hstate' hslot rfl rfl rfl

theorem inFlight?_eq_ok (h : s.inFlight? c = .ok call) : s.calls[c]? = some call ∧ call.inFlight = true := by
  rw [inFlight?, found_eq_ok, Option.filter_eq_some_iff] at h
  exact h

theorem Invariant.step {cfg : CircuitBreakerConfig} {s' : BreakerSystem} {e : BreakerEvent} (h : s.Invariant)
    (hkeeps : s.KeepsProbe e) (hstep : s.step cfg e = .ok s') : s'.Invariant := by
  cases e with
  | advance elapsed =>
    cases hstep
    exact ⟨h.fits, h.held, h.bounded, h.unique⟩
  | permit tenant ctx =>
    cases hstep
    exact h.permit (h.fits tenant).permits
  | record c reply =>
    obtain ⟨call, hfound, hstep⟩ := bind_eq_ok.mp hstep
    cases hstep
    have hcleared : (if reply.valid call.modelContextWindow then (s.entries call.tenant).recordSuccess
        else (s.entries call.tenant).recordFailureAt s.now cfg).Cleared := by
      split
      · exact BreakerEntry.cleared_reset
      · exact BreakerEntry.cleared_recordFailureAt
    apply (h.clear hcleared).finish (inFlight?_eq_ok hfound).1
    rintro ⟨hstate, -⟩
    rw [setEntry_self] at hstate
    exact hcleared.2 hstate
  | drop c =>
    obtain ⟨call, hfound, hstep⟩ := bind_eq_ok.mp hstep
    cases hstep
    have hcall := (inFlight?_eq_ok hfound).1
    exact h.finish hcall (hkeeps call hcall)
  | healthOk tenant =>
    cases hstep
    exact h.clear BreakerEntry.cleared_reset
  | healthFail tenant =>
    cases hstep
    exact h.clear BreakerEntry.cleared_recordHealthFailAt
  | forceReset tenant =>
    cases hstep
    exact h.clear BreakerEntry.cleared_reset

theorem Invariant.slotKept (h : s.Invariant) : s.SlotKept where
  free tenant hnone := by
    rw [Bool.eq_false_iff]
    intro hslot
    obtain ⟨call, hcall, htenant, hflight, -⟩ := h.held tenant ((h.fits tenant).mp hslot)
    rw [hnone call hcall htenant] at hflight
    cases hflight
  single tenant := by
    apply Nat.le_trans _ (h.unique tenant (s.windows tenant))
    apply List.countP_mono_left
    intro call _ hcall
    simp only [decide_eq_true_eq] at hcall ⊢
    exact hcall.2

theorem Invariant.skipsRightly (h : s.Invariant) (e : BreakerEvent) : s.SkipsRightly e := by
  cases e with
  | permit tenant ctx =>
    intro hskip
    have hpermits : (s.entries tenant).Permits s.now _ _ := (h.fits tenant).permits
    rw [hskip] at hpermits
    generalize ((s.entries tenant).permitRequestAt s.now).2 = e' at hpermits
    cases hpermits with
    | waiting hstate hdeadline hlt => exact .inl ⟨hstate, _, hdeadline, hlt⟩
    | busy hstate =>
      obtain ⟨call, hcall, htenant, hflight, -⟩ := h.held tenant hstate
      exact .inr ⟨call, hcall, htenant, hflight⟩
  | _ => trivial

end Invariant

/-- As long as the call that holds the slot is not dropped, the slot is given back, and no call is turned away for
nothing. -/
theorem probe_slot_kept {cfg : CircuitBreakerConfig} {now : ℕ} {tr : List (BreakerEvent × BreakerSystem)}
    (hrun : Trace (fun s e s' => s.step cfg e = .ok s') { now } tr)
    (hkeeps : Along (fun s e => s.KeepsProbe e) { now } tr) :
    (∀ p ∈ tr, p.2.SlotKept) ∧ Along (fun s e => s.SkipsRightly e) { now } tr := by
  have hstart : Invariant { now } := by
    constructor
    · exact fun _ => iff_of_false Bool.false_ne_true nofun
    · exact fun _ => nofun
    · simp
    · simp
  have hstep (s : BreakerSystem) (e : BreakerEvent) (s' : BreakerSystem) (hinv : s.Invariant) (hm : s.KeepsProbe e)
      (h : s.step cfg e = .ok s') : s'.Invariant := hinv.step hm h
  constructor
  · intro p hp
    exact (hrun.invariant hkeeps hstep hstart p hp).slotKept
  · exact hrun.along hkeeps hstep (fun s e hinv => hinv.skipsRightly e) hstart

section Example

def demoTenant : Uuid := { bits := 1 }

def droppedProbe : List BreakerEvent :=
  [.healthFail demoTenant, .advance 300000000, .permit demoTenant 1000, .drop 0]

theorem dropped_probe_keeps_slot :
    ∃ tr, ∃ s : BreakerSystem, Trace (fun s e s' => s.step {} e = .ok s') { now := 0 } tr ∧
      tr.getLast? = some (.drop 0, s) ∧ (∀ call ∈ s.calls, call.inFlight = false) ∧
      (s.entries demoTenant).halfOpenProbeInflight = true ∧ ¬s.SlotKept ∧
      ∀ later ctx, ¬SkipsRightly { s with now := later } (.permit demoTenant ctx) := by
  have hrun : ∃ tr ∈ runAll (step {}) { now := 0 } droppedProbe, ∃ p ∈ tr.getLast?, p.1 = .drop 0 ∧
      (∀ call ∈ p.2.calls, call.inFlight = false) ∧ (p.2.entries demoTenant).halfOpenProbeInflight = true ∧
      (p.2.entries demoTenant).state = .halfOpen := by
    decide +kernel
  obtain ⟨tr, htr, ⟨e, s⟩, hlast, rfl, hended, hslot, hstate⟩ := hrun
  dsimp only at hended hslot hstate
  refine ⟨tr, s, (runAll_spec htr).1, hlast, hended, hslot, ?_, ?_⟩
  · intro hkept
    rw [hkept.free demoTenant fun call hcall _ => hended call hcall] at hslot
    cases hslot
  · intro later ctx hrightly
    have hskip : ((s.entries demoTenant).permitRequestAt later).1 = .skipOpen := by
      simp only [BreakerEntry.permitRequestAt, hstate, hslot, if_true]
    rcases hrightly hskip with ⟨hopen, -⟩ | ⟨call, hcall, -, hflight⟩
    · rw [hstate] at hopen
      cases hopen
    · rw [hended call hcall] at hflight
      cases hflight

/-- Here it answers, while the second call is turned away; a third one is dropped when the breaker has closed. -/
def answeredProbe : List BreakerEvent :=
  [.healthFail demoTenant, .advance 300000000, .permit demoTenant 1000, .permit demoTenant 1000,
    .record 0 (.response 20 0x3f000000), .permit demoTenant 1000, .drop 2]

theorem answered_probe_frees_slot :
    ∃ tr, ∃ s : BreakerSystem, Trace (fun s e s' => s.step {} e = .ok s') { now := 0 } tr ∧
      tr.getLast? = some (.drop 2, s) ∧ (s.entries demoTenant).state = .closed ∧ s.SlotKept ∧
      Along (fun s e => s.SkipsRightly e) { now := 0 } tr := by
  have hrun : ∃ tr ∈ runAll (step {}) { now := 0 } answeredProbe, Along (fun s e => s.KeepsProbe e) { now := 0 } tr ∧
      ∃ p ∈ tr.getLast?, p.1 = .drop 2 ∧ (p.2.entries demoTenant).state = .closed := by
    decide +kernel
  obtain ⟨tr, htr, hkeeps, ⟨e, s⟩, hlast, rfl, hstate⟩ := hrun
  have hkept := probe_slot_kept (runAll_spec htr).1 hkeeps
  exact ⟨tr, s, (runAll_spec htr).1, hlast, hstate, hkept.1 _ (List.mem_of_getLast? hlast), hkept.2⟩

end Example

end BreakerSystem

end SpendGuard.Predictor
