import SpendGuard.Projector.Project
import SpendGuard.Base.Run

/-!
Concurrent projections of one run: a call computes from a snapshot and advances the run only if the snapshot
still holds, and starts over otherwise. Whatever the interleaving, the calls behave as if they had been made
one after another.
-/

namespace SpendGuard.Projector

open Base

inductive Phase
  | started
  | missed
  | recovered (st : RunState)
  | ready
  | computed (view : View)
  | answered (r : ProjectResponse)

structure CallState where
  call : ProjectCall
  phase : Phase := .started
  /-- How often it had to start over. -/
  retries : ℕ := 0
  /-- The calls that had returned when it was made. -/
  earlier : List ℕ

/-- The calls are numbered; `answered` has them in the order in which they got their responses. -/
structure ProjectorState where
  entry : Option RunState := none
  calls : ℕ → Option CallState := fun _ => none
  answered : List (ℕ × ProjectCall × ProjectResponse) := []
  returned : List ℕ := []

inductive ProjectorEvent
  | invoke (c : ℕ) (call : ProjectCall)
  | lookup (c : ℕ)
  | recover (c : ℕ) (row : Option ℤ)
  | insert (c : ℕ)
  | snapshot (c : ℕ)
  | commit (c : ℕ)
  | respond (c : ℕ)

/-- The state that is rebuilt from the latest decision of the run in the audit chain. -/
def recoveredState (row : Option ℤ) : RunState :=
  match row with
  | some steps => { stepsCompleted := max steps 0 }
  | none => {}

namespace ProjectorState

def update (s : ProjectorState) (c : ℕ) (cs : CallState) : ProjectorState :=
  { s with calls := Function.update s.calls c (some cs) }

def answer (s : ProjectorState) (c : ℕ) (cs : CallState) (r : ProjectResponse) (st : RunState) : ProjectorState :=
  { s.update c { cs with phase := .answered r } with
    entry := some st, answered := s.answered ++ [(c, cs.call, r)] }

def step (cfg : ProjectorConfig) (s : ProjectorState) : ProjectorEvent → Except String ProjectorState
  | .invoke c call => do
    check (s.calls c = none) "made before"
    validateProjectRequest call.request
    return s.update c { call, earlier := s.returned }
  | .lookup c => do
    match s.calls c with
    | some cs@⟨_, .started, _, _⟩ =>
      return s.update c { cs with phase := if s.entry.isSome then .ready else .missed }
    | _ => .error "not started"
  | .recover c row => do
    -- the chain has decisions only of calls that were answered
    check (row = none ∨ ∃ x ∈ s.answered, row = some x.2.2.runStepsCompletedSoFar) "no such row"
    match s.calls c with
    | some cs@⟨_, .missed, _, _⟩ => return s.update c { cs with phase := .recovered (recoveredState row) }
    | _ => .error "no miss"
  | .insert c => do
    match s.calls c with
    | some cs@⟨_, .recovered st, _, _⟩ =>
      return { s.update c { cs with phase := .ready } with entry := s.entry.or (some st) }
    | _ => .error "not recovered"
  | .snapshot c => do
    match s.calls c, s.entry with
    | some cs@⟨call, .ready, _, _⟩, some st =>
      match st.snapshot call with
      | .inl r => return s.answer c cs r st
      | .inr view => return s.update c { cs with phase := .computed view }
    | _, _ => .error "not ready"
  | .commit c => do
    match s.calls c, s.entry with
    | some cs@⟨call, .computed view, _, _⟩, some st =>
      match st.commit cfg call view with
      | some (r, st') => return s.answer c cs r st'
      | none => return s.update c { cs with phase := .ready, retries := cs.retries + 1 }
    | _, _ => .error "nothing computed"
  | .respond c => do
    check (c ∉ s.returned) "returned before"
    match s.calls c with
    | some ⟨_, .answered _, _, _⟩ => return { s with returned := c :: s.returned }
    | _ => .error "no response"

/-- What becomes of a call that goes on without a response: its phase, and how often it started over. -/
inductive Moves (s : ProjectorState) (cs : CallState) : Phase → ℕ → Prop
  | found {st : RunState} (hphase : cs.phase = .started) (hentry : s.entry = some st) : Moves s cs .ready cs.retries
  | missed (hphase : cs.phase = .started) : Moves s cs .missed cs.retries
  | recovered {row : Option ℤ} (hphase : cs.phase = .missed)
      (hrow : row = none ∨ ∃ x ∈ s.answered, row = some x.2.2.runStepsCompletedSoFar) :
      Moves s cs (.recovered (recoveredState row)) cs.retries
  | computed {st : RunState} (hphase : cs.phase = .ready) (hentry : s.entry = some st) :
      Moves s cs (.computed st.toView) cs.retries
  | conflict {view : View} {st : RunState} (hphase : cs.phase = .computed view) (hentry : s.entry = some st)
      (hview : st.toView ≠ view) : Moves s cs .ready (cs.retries + 1)

inductive Step (cfg : ProjectorConfig) (s : ProjectorState) : ProjectorEvent → ProjectorState → Prop
  | invoke {c : ℕ} {call : ProjectCall} (hnew : s.calls c = none)
      (hvalid : validateProjectRequest call.request = .ok ()) :
      Step cfg s (.invoke c call) (s.update c { call, earlier := s.returned })
  | move {e : ProjectorEvent} {c : ℕ} {cs : CallState} {p : Phase} {n : ℕ} (hcall : s.calls c = some cs)
      (hmove : s.Moves cs p n) : Step cfg s e (s.update c { cs with phase := p, retries := n })
  | insert {c : ℕ} {cs : CallState} {st : RunState} (hcall : s.calls c = some cs) (hphase : cs.phase = .recovered st) :
      Step cfg s (.insert c) { s.update c { cs with phase := .ready } with entry := s.entry.or (some st) }
  | answer {e : ProjectorEvent} {c : ℕ} {cs : CallState} {r : ProjectResponse} {st st' : RunState}
      (hcall : s.calls c = some cs) (hpending : ∀ r, cs.phase ≠ .answered r) (hentry : s.entry = some st)
      (halone : st.projectAlone cfg cs.call = some (r, st')) : Step cfg s e (s.answer c cs r st')
  | respond {c : ℕ} {cs : CallState} {r : ProjectResponse} (hcall : s.calls c = some cs)
      (hphase : cs.phase = .answered r) : Step cfg s (.respond c) { s with returned := c :: s.returned }

variable {cfg : ProjectorConfig} {s s' : ProjectorState} {e : ProjectorEvent}

theorem step_cases (h : s.step cfg e = .ok s') : s.Step cfg e s' := by
  cases e with
  | invoke c call =>
    obtain ⟨hnew, h⟩ := check_bind_eq_ok.mp h
    obtain ⟨u, hvalid, h⟩ := bind_eq_ok.mp h
    cases h
    exact .invoke hnew hvalid
  | lookup c =>
    simp only [step] at h
    split at h
    · next call n earlier hcall =>
      cases h
      cases hentry : s.entry with
      | none => exact .move hcall (.missed rfl)
      | some st => exact .move hcall (.found rfl hentry)
    · cases h
  | recover c row =>
    obtain ⟨hrow, h⟩ := check_bind_eq_ok.mp h
    split at h
    · next call n earlier hcall =>
      cases h
      exact .move hcall (.recovered rfl hrow)
    · cases h
  | insert c =>
    simp only [step] at h
    split at h
    · next call st n earlier hcall =>
      cases h
      exact .insert hcall rfl
    · cases h
  | snapshot c =>
    simp only [step] at h
    split at h
    · next call n earlier st hcall hentry =>
      split at h
      · next r hsnapshot =>
        cases h
        exact .answer hcall nofun hentry (RunState.projectAlone_cached (RunState.snapshot_cached hsnapshot))
      · next view hsnapshot =>
        cases h
        rw [← RunState.snapshot_view hsnapshot]
        exact .move hcall (.computed rfl hentry)
    · cases h
  | commit c =>
    simp only [step] at h
    split at h
    · next call view n earlier st hcall hentry =>
      split at h
      · next r st' hcommit =>
        cases h
        exact .answer hcall nofun hentry (RunState.projectAlone_of_commit hcommit)
      · next hcommit =>
        cases h
        exact .move hcall (.conflict rfl hentry (RunState.view_changed hcommit))
    · cases h
  | respond c =>
    obtain ⟨-, h⟩ := check_bind_eq_ok.mp h
    split at h
    · next call r n earlier hcall =>
      cases h
      exact .respond hcall rfl
    · cases h

@[simp]
theorem update_calls_self (s : ProjectorState) (c : ℕ) (cs : CallState) : (s.update c cs).calls c = some cs := by
  simp [update]

theorem update_calls_ne (s : ProjectorState) {c d : ℕ} (cs : CallState) (h : d ≠ c) :
    (s.update c cs).calls d = s.calls d := by
  simp [update, h]

theorem forall_update {P : ℕ → CallState → Prop} {c : ℕ} {cs : CallState} (hself : P c cs)
    (hothers : ∀ d ds, s.calls d = some ds → P d ds) : ∀ d ds, (s.update c cs).calls d = some ds → P d ds := by
  intro d ds h
  by_cases hd : d = c
  · subst hd
    rw [update_calls_self] at h
    exact Option.some.inj h ▸ hself
  · rw [update_calls_ne s cs hd] at h
    exact hothers d ds h

inductive Grows : Option RunState → Option RunState → Prop
  | same (entry : Option RunState) : Grows entry entry
  | inserted : Grows none (some {})
  | advanced {st st' : RunState} (h : st'.stepsCompleted = st.stepsCompleted + 1) : Grows (some st) (some st')

/-- A call has started over at most as often as the run has advanced, and what it computed from is what the
run was when it had as many steps. -/
def PhaseFits (entry : Option RunState) (answered : List (ℕ × ProjectCall × ProjectResponse)) (c : ℕ)
    (cs : CallState) : Prop :=
  match cs.phase with
  | .started | .missed => cs.retries = 0
  | .recovered st => cs.retries = 0 ∧ (entry = none → st = {})
  | .ready => ∃ st, entry = some st ∧ cs.retries ≤ st.stepsCompleted
  | .computed view => ∃ st, entry = some st ∧ cs.retries ≤ view.stepsCompleted ∧
      (st.toView = view ∨ view.stepsCompleted < st.stepsCompleted)
  | .answered r => (c, cs.call, r) ∈ answered ∧ ∃ st, entry = some st ∧ cs.retries ≤ st.stepsCompleted

structure CallFits (requestOf : String → ProjectRequest) (ids : List String) (entry : Option RunState)
    (answered : List (ℕ × ProjectCall × ProjectResponse)) (c : ℕ) (cs : CallState) : Prop where
  allowed : Allowed requestOf ids cs.call
  earlier : cs.earlier ⊆ answered.map Prod.fst
  phase : PhaseFits entry answered c cs

def history (s : ProjectorState) : History := s.answered.map Prod.snd

structure Invariant (cfg : ProjectorConfig) (requestOf : String → ProjectRequest) (ids : List String)
    (s : ProjectorState) : Prop where
  executed : Executed cfg s.history (s.entry.getD {})
  unanswered : s.entry = none → s.answered = []
  nonneg : ∀ st, s.entry = some st → 0 ≤ st.stepsCompleted
  calls : ∀ c cs, s.calls c = some cs → CallFits requestOf ids s.entry s.answered c cs
  answered : ∀ x ∈ s.answered, ∃ cs, s.calls x.1 = some cs ∧ cs.call = x.2.1 ∧ cs.phase = .answered x.2.2
  nodup : (s.answered.map Prod.fst).Nodup
  returned : s.returned ⊆ s.answered.map Prod.fst
  realTime : s.answered.Pairwise fun x y => ∀ cs, s.calls x.1 = some cs → y.1 ∉ cs.earlier

section Invariant

variable {requestOf : String → ProjectRequest} {ids : List String} {c : ℕ} {cs : CallState}
  {entry entry' : Option RunState} {answered answered' : List (ℕ × ProjectCall × ProjectResponse)}

theorem PhaseFits.grow (h : PhaseFits entry answered c cs) (hentry : Grows entry entry') (hanswered : answered ⊆ answered') :
    PhaseFits entry' answered' c cs := by
  have hready : (∃ st, entry = some st ∧ cs.retries ≤ st.stepsCompleted) →
      ∃ st, entry' = some st ∧ cs.retries ≤ st.stepsCompleted := by
    rintro ⟨st, hst, hle⟩
    cases hentry with
    | same => exact ⟨st, hst, hle⟩
    | inserted => cases hst
    | advanced hsteps => cases hst; exact ⟨_, rfl, by omega⟩
  rw [PhaseFits] at h ⊢
  split at h
  · exact h
  · exact h
  · refine ⟨h.1, fun hnone => h.2 ?_⟩
    cases hentry with
    | same => exact hnone
    | inserted => rfl
    | advanced => cases hnone
  · exact hready h
  · next view =>
    obtain ⟨st, hst, hle, hview⟩ := h
    cases hentry with
    | same => exact ⟨st, hst, hle, hview⟩
    | inserted => cases hst
    | @advanced _ st' hsteps =>
      cases hst
      refine ⟨st', rfl, hle, .inr ?_⟩
      rcases hview with rfl | hlt <;> omega
  · exact ⟨hanswered h.1, hready h.2⟩

theorem CallFits.grow (h : CallFits requestOf ids entry answered c cs) (hentry : Grows entry entry')
    (hanswered : answered ⊆ answered') : CallFits requestOf ids entry' answered' c cs :=
  ⟨h.allowed, fun _ hd => List.map_subset _ hanswered (h.earlier hd), h.phase.grow hentry hanswered⟩

theorem PhaseFits.retries_le {st : RunState} (h : PhaseFits (some st) answered c cs)
    (hnonneg : 0 ≤ st.stepsCompleted) : cs.retries ≤ st.stepsCompleted := by
  rw [PhaseFits] at h
  split at h
  · rw [h]
    exact hnonneg
  · rw [h]
    exact hnonneg
  · rw [h.1]
    exact hnonneg
  · obtain ⟨_, ⟨⟩, hle⟩ := h
    exact hle
  · obtain ⟨_, ⟨⟩, hle, rfl | hlt⟩ := h
    · exact hle
    · omega
  · obtain ⟨-, _, ⟨⟩, hle⟩ := h
    exact hle

theorem grows_projectAlone {st st' : RunState} {call : ProjectCall} {r : ProjectResponse}
    (h : st.projectAlone cfg call = some (r, st')) : Grows (some st) (some st') := by
  rcases RunState.projectAlone_steps h with rfl | hsteps
  · exact .same _
  · exact .advanced hsteps

theorem Grows.nonneg (h : Grows entry entry')
    (hnonneg : ∀ st, entry = some st → 0 ≤ st.stepsCompleted) : ∀ st, entry' = some st → 0 ≤ st.stepsCompleted := by
  cases h with
  | same => exact hnonneg
  | inserted =>
    rintro _ ⟨⟩
    exact le_rfl
  | @advanced st _ hsteps =>
    rintro _ ⟨⟩
    have := hnonneg st rfl
    omega

theorem Invariant.not_answered (hinv : s.Invariant cfg requestOf ids) (hcall : s.calls c = some cs)
    (hpending : ∀ r, cs.phase ≠ .answered r) : c ∉ s.answered.map Prod.fst := by
  intro hmem
  obtain ⟨x, hx, rfl⟩ := List.mem_map.mp hmem
  obtain ⟨_, hcs, -, hphase⟩ := hinv.answered x hx
  rw [hcall] at hcs
  cases hcs
  exact hpending _ hphase

theorem update_answered (hnot : c ∉ s.answered.map Prod.fst) {x : ℕ × ProjectCall × ProjectResponse}
    (hx : x ∈ s.answered) : (s.update c cs).calls x.1 = s.calls x.1 :=
  update_calls_ne s cs fun heq => hnot (heq ▸ List.mem_map_of_mem hx)

theorem Invariant.goOn (hinv : s.Invariant cfg requestOf ids) (hnot : c ∉ s.answered.map Prod.fst)
    (hentry : Grows s.entry entry) (hstart : entry.getD {} = s.entry.getD {})
    (hfits : CallFits requestOf ids entry s.answered c cs) :
    Invariant cfg requestOf ids { s.update c cs with entry } where
  executed := by
    rw [hstart]
    exact hinv.executed
  unanswered hnone := by
    apply hinv.unanswered
    cases hnone
    generalize s.entry = old at hentry
    cases hentry
    rfl
  nonneg := hentry.nonneg hinv.nonneg
  calls := forall_update hfits fun d ds h => (hinv.calls d ds h).grow hentry (List.Subset.refl _)
  answered x hx := by
    rw [update_answered hnot hx]
    exact hinv.answered x hx
  nodup := hinv.nodup
  returned := hinv.returned
  realTime := by
    refine hinv.realTime.imp_of_mem fun hx _ h => ?_
    rw [update_answered hnot hx]
    exact h

theorem Invariant.moves (hinv : s.Invariant cfg requestOf ids) (hcall : s.calls c = some cs) {p : Phase} {n : ℕ}
    (h : s.Moves cs p n) : PhaseFits s.entry s.answered c { cs with phase := p, retries := n } := by
  have hfits := (hinv.calls c cs hcall).phase
  cases h with
  | @found st hphase hentry =>
    rw [hentry] at hfits ⊢
    exact ⟨st, rfl, hfits.retries_le (hinv.nonneg st hentry)⟩
  | missed hphase =>
    rw [PhaseFits, hphase] at hfits
    exact hfits
  | @recovered row hphase hrow =>
    rw [PhaseFits, hphase] at hfits
    refine ⟨hfits, fun hnone => ?_⟩
    -- before the run is in the cache no call was answered, and the chain has nothing of it
    rcases hrow with rfl | ⟨x, hx, -⟩
    · rfl
    · rw [hinv.unanswered hnone] at hx
      cases hx
  | @computed st hphase hentry =>
    rw [hentry] at hfits ⊢
    exact ⟨st, rfl, hfits.retries_le (hinv.nonneg st hentry), .inl rfl⟩
  | @conflict view st hphase hentry hview =>
    rw [PhaseFits, hphase] at hfits
    obtain ⟨st', hst', hle, hsame | hlt⟩ := hfits
    · rw [hentry] at hst'
      cases hst'
      exact absurd hsame hview
    · rw [hentry] at hst'
      cases hst'
      exact ⟨st, hentry, by push_cast; omega⟩

theorem Invariant.answers (hinv : s.Invariant cfg requestOf ids) (hcall : s.calls c = some cs)
    (hpending : ∀ r, cs.phase ≠ .answered r) {st st' : RunState} {r : ProjectResponse} (hentry : s.entry = some st)
    (halone : st.projectAlone cfg cs.call = some (r, st')) : (s.answer c cs r st').Invariant cfg requestOf ids := by
  have hnot := hinv.not_answered hcall hpending
  have hgrows : Grows s.entry (some st') := hentry ▸ grows_projectAlone halone
  have hanswered : s.answered ⊆ s.answered ++ [(c, cs.call, r)] := List.subset_append_left _ _
  have hnonneg := hgrows.nonneg hinv.nonneg
  have hfits : CallFits requestOf ids (some st') (s.answered ++ [(c, cs.call, r)]) c cs :=
    (hinv.calls c cs hcall).grow hgrows hanswered
  constructor
  · have hexecuted := hinv.executed
    rw [hentry] at hexecuted
    have hhistory : (s.answer c cs r st').history = s.history ++ [(cs.call, r)] := List.map_append
    rw [hhistory]
    exact executed_append_singleton.mpr ⟨st, hexecuted, halone⟩
  · nofun
  · exact hnonneg
  · apply forall_update
    · exact ⟨hfits.allowed, hfits.earlier, List.mem_append_right _ (List.mem_singleton_self _), st', rfl,
        hfits.phase.retries_le (hnonneg st' rfl)⟩
    · exact fun d ds h => (hinv.calls d ds h).grow hgrows hanswered
  · intro x hx
    rcases List.mem_append.mp hx with hx | hx
    · rw [answer, update_answered hnot hx]
      exact hinv.answered x hx
    · rw [List.mem_singleton.mp hx]
      exact ⟨_, update_calls_self s c _, rfl, rfl⟩
  · rw [answer, List.map_append, List.nodup_append]
    refine ⟨hinv.nodup, List.nodup_singleton _, fun a ha b hb heq => hnot ?_⟩
    rw [heq, List.mem_singleton.mp hb] at ha
    exact ha
  · exact fun d hd => List.map_subset _ hanswered (hinv.returned hd)
  · rw [answer, List.pairwise_append]
    refine ⟨?_, List.pairwise_singleton _ _, ?_⟩
    · refine hinv.realTime.imp_of_mem fun hx _ h => ?_
      rw [update_answered hnot hx]
      exact h
    · intro x hx y hy xs hxs hearlier
      rw [update_answered hnot hx] at hxs
      rw [List.mem_singleton.mp hy] at hearlier
      exact hnot ((hinv.calls _ xs hxs).earlier hearlier)

end Invariant

def Sent (requestOf : String → ProjectRequest) (ids : List String) : ProjectorEvent → Prop
  | .invoke _ call => call.request.decisionId ≠ "" ∧ call.request.decisionId ∈ ids ∧
      call.request = requestOf call.request.decisionId
  | _ => True

theorem Invariant.step {requestOf : String → ProjectRequest} {ids : List String}
    (hinv : s.Invariant cfg requestOf ids) (hsent : Sent requestOf ids e) (h : s.step cfg e = .ok s') :
    s'.Invariant cfg requestOf ids := by
  cases step_cases h with
  | @invoke c call hnew hvalid =>
    refine hinv.goOn ?_ (.same _) rfl ?_
    · intro hmem
      obtain ⟨x, hx, rfl⟩ := List.mem_map.mp hmem
      obtain ⟨_, hcs, -⟩ := hinv.answered x hx
      rw [hnew] at hcs
      cases hcs
    · exact ⟨⟨hsent.1, hsent.2.1, hsent.2.2, reservation_nonneg hvalid⟩, hinv.returned, rfl⟩
  | @move _ c cs p n hcall hmove =>
    have hfits := hinv.calls c cs hcall
    refine hinv.goOn (hinv.not_answered hcall ?_) (.same _) rfl ⟨hfits.allowed, hfits.earlier, hinv.moves hcall hmove⟩
    intro r hr
    cases hmove <;> simp_all
  | @insert c cs st hcall hphase =>
    have hfits := hinv.calls c cs hcall
    have hstart := hfits.phase
    rw [PhaseFits, hphase] at hstart
    have hgrows : Grows s.entry (s.entry.or (some st)) ∧ (s.entry.or (some st)).getD {} = s.entry.getD {} := by
      cases hentry : s.entry with
      | none =>
        rw [hstart.2 hentry]
        exact ⟨.inserted, rfl⟩
      | some st' => exact ⟨.same _, rfl⟩
    refine hinv.goOn (hinv.not_answered hcall ?_) hgrows.1 hgrows.2 ⟨hfits.allowed, hfits.earlier, ?_⟩
    · intro r hr
      rw [hphase] at hr
      cases hr
    · have hready := hfits.phase.grow hgrows.1 (List.Subset.refl _)
      cases hentry : s.entry.or (some st) with
      | none => simp at hentry
      | some st' =>
        rw [hentry] at hready
        exact ⟨st', rfl, hready.retries_le (hgrows.1.nonneg hinv.nonneg st' hentry)⟩
  | answer hcall hpending hentry halone => exact hinv.answers hcall hpending hentry halone
  | @respond c cs r hcall hphase =>
    have hfits := (hinv.calls c cs hcall).phase
    rw [PhaseFits, hphase] at hfits
    exact { hinv with returned := List.cons_subset.mpr ⟨List.mem_map_of_mem hfits.1, hinv.returned⟩ }

/-- The calls behave as if they had been made one after another, each between its start and its return. -/
structure Linearized (cfg : ProjectorConfig) (requestOf : String → ProjectRequest) (s : ProjectorState) : Prop where
  /-- Made in the order of `answered`, the calls get the same responses, and leave the same run. -/
  executed : Executed cfg s.history (s.entry.getD {})
  nodup : (s.answered.map Prod.fst).Nodup
  complete : ∀ c cs r, s.calls c = some cs → (cs.phase = .answered r ↔ (c, cs.call, r) ∈ s.answered)
  /-- No call comes after one that was made when it had returned. -/
  realTime : s.answered.Pairwise fun x y => ∀ cs, s.calls x.1 = some cs → y.1 ∉ cs.earlier
  advances : ∀ h call r h', s.history = h ++ (call, r) :: h' →
    ∃ before after, Executed cfg h before ∧ before.projectAlone cfg call = some (r, after) ∧
      if call.request.decisionId ∈ decided h then after = before
      else after.stepsCompleted = before.stepsCompleted + 1 ∧
        after.cumulativeCostAtomic = saturate (before.cumulativeCostAtomic + call.request.thisCallReservationAtomic)
  duplicates : ∀ x ∈ s.history, ∀ y ∈ s.history, x.1.request.decisionId = y.1.request.decisionId → x.2 = y.2
  steps : (s.entry.getD {}).stepsCompleted = (decided s.history).dedup.length
  cumulative : (s.entry.getD {}).cumulativeCostAtomic = saturate (total requestOf (decided s.history).dedup)
  /-- In the end these are all the decisions that were sent. -/
  ending : (∀ c cs, s.calls c = some cs → ∃ r, cs.phase = .answered r) →
    ∀ id, id ∈ decided s.history ↔ ∃ c cs, s.calls c = some cs ∧ cs.call.request.decisionId = id
  /-- No call starts over for ever. -/
  retries : ∀ c cs, s.calls c = some cs → cs.retries ≤ (decided s.history).dedup.length

section Linearized

variable {requestOf : String → ProjectRequest} {ids : List String}

theorem Invariant.allowed (hinv : s.Invariant cfg requestOf ids) : ∀ x ∈ s.history, Allowed requestOf ids x.1 := by
  intro x hx
  obtain ⟨y, hy, rfl⟩ := List.mem_map.mp hx
  obtain ⟨cs, hcs, hcall, -⟩ := hinv.answered y hy
  exact hcall ▸ (hinv.calls _ cs hcs).allowed

theorem Invariant.complete (hinv : s.Invariant cfg requestOf ids) {c : ℕ} {cs : CallState} {r : ProjectResponse}
    (hcs : s.calls c = some cs) : cs.phase = .answered r ↔ (c, cs.call, r) ∈ s.answered := by
  constructor
  · intro hphase
    have hfits := (hinv.calls c cs hcs).phase
    rw [PhaseFits, hphase] at hfits
    exact hfits.1
  · intro hmem
    obtain ⟨cs', hcs', -, hphase⟩ := hinv.answered _ hmem
    rw [hcs] at hcs'
    cases hcs'
    exact hphase

theorem Invariant.ending (hinv : s.Invariant cfg requestOf ids)
    (hend : ∀ c cs, s.calls c = some cs → ∃ r, cs.phase = .answered r) (id : String) :
    id ∈ decided s.history ↔ ∃ c cs, s.calls c = some cs ∧ cs.call.request.decisionId = id := by
  constructor
  · intro hid
    obtain ⟨x, hx, rfl⟩ := List.mem_map.mp hid
    obtain ⟨y, hy, rfl⟩ := List.mem_map.mp hx
    obtain ⟨cs, hcs, hcall, -⟩ := hinv.answered y hy
    exact ⟨y.1, cs, hcs, by rw [hcall]⟩
  · rintro ⟨c, cs, hcs, rfl⟩
    obtain ⟨r, hphase⟩ := hend c cs hcs
    exact List.mem_map.mpr ⟨(cs.call, r), List.mem_map.mpr ⟨_, (hinv.complete hcs).mp hphase, rfl⟩, rfl⟩

theorem Invariant.retries_le (hinv : s.Invariant cfg requestOf ids) {c : ℕ} {cs : CallState}
    (hcs : s.calls c = some cs) : cs.retries ≤ (s.entry.getD {}).stepsCompleted := by
  have hfits := (hinv.calls c cs hcs).phase
  cases hentry : s.entry with
  | none =>
    -- a call that needs the entry of the run has it
    rw [PhaseFits, hentry] at hfits
    split at hfits
    · simp [hfits]
    · simp [hfits]
    · simp [hfits.1]
    · obtain ⟨_, ⟨⟩, -⟩ := hfits
    · obtain ⟨_, ⟨⟩, -⟩ := hfits
    · obtain ⟨-, _, ⟨⟩, -⟩ := hfits
  | some st =>
    rw [hentry] at hfits
    exact hfits.retries_le (hinv.nonneg st hentry)

theorem Invariant.linearized (hinv : s.Invariant cfg requestOf ids) (hcap : ids.length ≤ responseCacheCap) :
    s.Linearized cfg requestOf := by
  have hallowed := hinv.allowed
  have ht := hinv.executed.tally hallowed hcap
  constructor
  · exact hinv.executed
  · exact hinv.nodup
  · exact fun c cs r hcs => hinv.complete hcs
  · exact hinv.realTime
  · intro h call r h' heq
    have hexecuted := hinv.executed
    rw [heq] at hexecuted hallowed
    exact hexecuted.advances hallowed hcap
  · intro x hx y hy hid
    have hfirst := ht.responses x hx
    rw [hid, ht.responses y hy] at hfirst
    exact (Option.some.inj hfirst).symm
  · exact ht.steps_eq
  · exact ht.cumulative_eq
  · exact hinv.ending
  · intro c cs hcs
    have hle := hinv.retries_le hcs
    rw [ht.steps_eq] at hle
    exact_mod_cast hle

theorem Invariant.start : Invariant cfg requestOf ids {} where
  executed := executed_nil.mpr rfl
  unanswered _ := rfl
  nonneg := by simp
  calls := by simp
  answered := by simp
  nodup := List.nodup_nil
  returned := List.nil_subset _
  realTime := List.Pairwise.nil

/-- However the calls for one run are interleaved, they are answered as if they had been made one after another,
and each decision counts once. -/
theorem project_linearizable (hids : ids.length ≤ 256) {tr : List (ProjectorEvent × ProjectorState)}
    (hrun : Trace (fun s e s' => s.step cfg e = .ok s') {} tr) (hsent : Along (fun _ e => Sent requestOf ids e) {} tr) :
    ∀ p ∈ tr, p.2.Linearized cfg requestOf := by
  intro p hp
  have hinv := hrun.invariant hsent (fun _ _ _ hinv hm h => Invariant.step hinv hm h) Invariant.start p hp
  exact hinv.linearized hids

end Linearized

section Example

def demoConfig : ProjectorConfig := ⟨10, 3, fun now prior => prior < now⟩

def demoRequest (id : String) : ProjectRequest :=
  ⟨"agent", "model", id, if id = "d1" then 5 else 7, 1000, 0⟩

def demoCall (id : String) : ProjectCall := ⟨demoRequest id, some none⟩

/-- The second call computes from a run that the first one then advances; the third one repeats the first. -/
def interleaved : List ProjectorEvent :=
  [.invoke 1 (demoCall "d1"), .invoke 2 (demoCall "d2"), .lookup 1, .lookup 2, .recover 1 none, .insert 1,
    .recover 2 none, .insert 2, .snapshot 1, .snapshot 2, .commit 1, .commit 2, .snapshot 2, .commit 2, .respond 1,
    .invoke 3 (demoCall "d1"), .lookup 3, .snapshot 3, .respond 3, .respond 2]

instance (requestOf : String → ProjectRequest) (ids : List String) : DecidablePred (Sent requestOf ids)
  | .invoke _ call => inferInstanceAs (Decidable (call.request.decisionId ≠ "" ∧ call.request.decisionId ∈ ids ∧
      call.request = requestOf call.request.decisionId))
  | .lookup _ | .recover _ _ | .insert _ | .snapshot _ | .commit _ | .respond _ => isTrue trivial

theorem interleaved_linearized :
    ∃ tr, ∃ s : ProjectorState, Trace (fun s e s' => s.step demoConfig e = .ok s') {} tr ∧
      (∃ e, tr.getLast? = some (e, s)) ∧
      s.answered.map Prod.fst = [1, 2, 3] ∧ (s.calls 2).map CallState.retries = some 1 ∧
      (s.entry.getD {}).stepsCompleted = 2 ∧ (s.entry.getD {}).cumulativeCostAtomic = 12 ∧
      s.Linearized demoConfig demoRequest := by
  have hrun : ∃ tr ∈ runAll (step demoConfig) {} interleaved, Along (fun _ e => Sent demoRequest ["d1", "d2"] e) {} tr ∧
      ∃ p ∈ tr.getLast?, p.2.answered.map Prod.fst = [1, 2, 3] ∧ (p.2.calls 2).map CallState.retries = some 1 ∧
        (p.2.entry.getD {}).stepsCompleted = 2 ∧ (p.2.entry.getD {}).cumulativeCostAtomic = 12 := by
    decide +kernel
  obtain ⟨tr, htr, hsent, ⟨e, s⟩, hlast, horder, hretries, hsteps, hcumulative⟩ := hrun
  have hlinear := project_linearizable (by decide) (runAll_spec htr).1 hsent _ (List.mem_of_getLast? hlast)
  exact ⟨tr, s, (runAll_spec htr).1, ⟨e, hlast⟩, horder, hretries, hsteps, hcumulative, hlinear⟩

end Example

end ProjectorState

end SpendGuard.Projector
