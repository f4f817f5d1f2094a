import SpendGuard.Projector.Layering

/-!
The state of a run, and what calls that are made one after another make of it: each decision takes the run one
step further, and its response is kept for when it is sent again.
-/

namespace SpendGuard.Projector

open Base

structure RunState extends View where
  perStepCosts : List ℤ := []
  projectResponsesByDecisionId : List (String × ProjectResponse) := []
  projectResponseOrder : List String := []

def historyCap : ℕ := 256

def responseCacheCap : ℕ := 256

def evict : List String → List (String × ProjectResponse) → List String × List (String × ProjectResponse)
  | [], responses => ([], responses)
  | oldest :: rest, responses =>
    if responseCacheCap < responses.length then evict rest (responses.filter (·.1 ≠ oldest))
    else (oldest :: rest, responses)

namespace RunState

def recordStep (st : RunState) (cost : ℤ) : RunState :=
  let costs := st.perStepCosts ++ [cost]
  { st with
    perStepCosts := costs.drop (costs.length - historyCap)
    cumulativeCostAtomic := saturate (st.cumulativeCostAtomic + cost)
    stepsCompleted := st.stepsCompleted + 1 }

def cachedProjectResponse (st : RunState) (decisionId : String) : Option ProjectResponse :=
  if decisionId = "" then none else st.projectResponsesByDecisionId.lookup decisionId

def recordProjectResponse (st : RunState) (decisionId : String) (r : ProjectResponse) : RunState :=
  if decisionId = "" then st
  else
    let order :=
      if (st.projectResponsesByDecisionId.lookup decisionId).isNone then st.projectResponseOrder ++ [decisionId]
      else st.projectResponseOrder
    let kept := evict order ((decisionId, r) :: st.projectResponsesByDecisionId.filter (·.1 ≠ decisionId))
    { st with projectResponseOrder := kept.1, projectResponsesByDecisionId := kept.2 }

/-- The first section under the lock: a response from before, or what the projection reads. -/
def snapshot (st : RunState) (call : ProjectCall) : ProjectResponse ⊕ View :=
  match st.cachedProjectResponse call.request.decisionId with
  | some r => .inl r
  | none => .inr st.toView

def advance (st : RunState) (call : ProjectCall) (o : Outcome) : RunState :=
  let st := st.recordStep call.request.thisCallReservationAtomic
  { st with
    lastPredictedRemainingCost := some o.predictedRemainingCostAtomic
    driftConsecutiveCount := o.newDriftCount
    signal3HintPlannedSteps :=
      if st.signal3HintPlannedSteps = none ∧ 0 < o.effectiveHint then some o.effectiveHint
      else st.signal3HintPlannedSteps }

/-- The second section under the lock; `none` if the call has to start over. -/
def commit (cfg : ProjectorConfig) (st : RunState) (call : ProjectCall) (view : View) :
    Option (ProjectResponse × RunState) :=
  match st.cachedProjectResponse call.request.decisionId with
  | some r => some (r, st)
  | none =>
    if st.toView = view then
      let o := project cfg view call
      some (o.response, (st.advance call o).recordProjectResponse call.request.decisionId o.response)
    else none

def projectAlone (cfg : ProjectorConfig) (st : RunState) (call : ProjectCall) : Option (ProjectResponse × RunState) :=
  match st.snapshot call with
  | .inl r => some (r, st)
  | .inr view => st.commit cfg call view

end RunState

namespace RunState

variable {cfg : ProjectorConfig} {st st' : RunState} {call : ProjectCall} {r : ProjectResponse}

theorem snapshot_cached (h : st.snapshot call = .inl r) : st.cachedProjectResponse call.request.decisionId = some r := by
  rw [snapshot] at h
  split at h
  · next hcached => rw [hcached, Sum.inl.inj h]
  · cases h

theorem snapshot_view {view : View} (h : st.snapshot call = .inr view) : st.toView = view := by
  rw [snapshot] at h
  split at h
  · cases h
  · exact Sum.inr.inj h

theorem projectAlone_cached (h : st.cachedProjectResponse call.request.decisionId = some r) :
    st.projectAlone cfg call = some (r, st) := by
  simp only [projectAlone, snapshot, h]

theorem projectAlone_new (h : st.cachedProjectResponse call.request.decisionId = none) :
    st.projectAlone cfg call = some ((project cfg st.toView call).response,
      (st.advance call (project cfg st.toView call)).recordProjectResponse call.request.decisionId
        (project cfg st.toView call).response) := by
  simp only [projectAlone, snapshot, commit, h, if_true]

theorem projectAlone_of_commit {view : View} (h : st.commit cfg call view = some (r, st')) :
    st.projectAlone cfg call = some (r, st') := by
  cases hcached : st.cachedProjectResponse call.request.decisionId with
  | some r' =>
    rw [projectAlone_cached hcached]
    simpa only [commit, hcached] using h
  | none =>
    simp only [commit, hcached] at h
    split at h
    · next hview =>
      rw [projectAlone_new hcached, hview]
      exact h
    · cases h

theorem view_changed {view : View} (h : st.commit cfg call view = none) : st.toView ≠ view := by
  intro hview
  cases hcached : st.cachedProjectResponse call.request.decisionId with
  | some r => simp [commit, hcached] at h
  | none => simp [commit, hcached, hview] at h

@[simp]
theorem recordProjectResponse_toView (st : RunState) (id : String) (r : ProjectResponse) :
    (st.recordProjectResponse id r).toView = st.toView := by
  rw [recordProjectResponse]
  split <;> rfl

theorem projectAlone_steps (h : st.projectAlone cfg call = some (r, st')) :
    st' = st ∨ st'.stepsCompleted = st.stepsCompleted + 1 := by
  cases hcached : st.cachedProjectResponse call.request.decisionId with
  | some r' =>
    rw [projectAlone_cached hcached] at h
    cases h
    exact .inl rfl
  | none =>
    rw [projectAlone_new hcached] at h
    cases h
    right
    rw [recordProjectResponse_toView]
    rfl

end RunState

theorem evict_of_le {order : List String} {responses : List (String × ProjectResponse)}
    (h : responses.length ≤ responseCacheCap) : evict order responses = (order, responses) := by
  cases order with
  | nil => rfl
  | cons oldest rest => rw [evict, if_neg (by omega)]

def sequentialStep (cfg : ProjectorConfig) (x : List ProjectResponse × RunState) (call : ProjectCall) :
    Option (List ProjectResponse × RunState) :=
  (x.2.projectAlone cfg call).map fun y => (x.1 ++ [y.1], y.2)

/-- The responses to calls that are made one after another, and the run that they leave. -/
def sequential (cfg : ProjectorConfig) (calls : List ProjectCall) : Option (List ProjectResponse × RunState) :=
  calls.foldlM (sequentialStep cfg) ([], {})

abbrev History := List (ProjectCall × ProjectResponse)

def Executed (cfg : ProjectorConfig) (h : History) (st : RunState) : Prop :=
  sequential cfg (h.map Prod.fst) = some (h.map Prod.snd, st)

def decided (h : History) : List String := h.map (·.1.request.decisionId)

section Sequential

variable {cfg : ProjectorConfig} {h : History} {st st' : RunState} {x : ProjectCall × ProjectResponse}

theorem executed_nil : Executed cfg [] st ↔ st = {} := by
  simp [Executed, sequential, eq_comm]

theorem executed_append_singleton :
    Executed cfg (h ++ [x]) st' ↔ ∃ st, Executed cfg h st ∧ st.projectAlone cfg x.1 = some (x.2, st') := by
  simp only [Executed, sequential, List.map_append, List.map_cons, List.map_nil, List.foldlM_append,
    List.foldlM_cons, List.foldlM_nil, bind_pure]
  constructor
  · intro hrun
    obtain ⟨⟨rs, st⟩, hfirst, hlast⟩ := Option.bind_eq_some_iff.mp hrun
    obtain ⟨⟨r, st''⟩, hcall, heq⟩ := Option.map_eq_some_iff.mp hlast
    obtain ⟨hrs, rfl⟩ := Prod.mk.inj heq
    obtain ⟨rfl, hr⟩ := List.append_inj' hrs rfl
    exact ⟨st, hfirst, (List.cons.inj hr).1 ▸ hcall⟩
  · rintro ⟨st, hfirst, hcall⟩
    rw [hfirst]
    simp [sequentialStep, hcall]

theorem Executed.start {h' : History} (hrun : Executed cfg (h ++ h') st') : ∃ st, Executed cfg h st := by
  induction h' using List.reverseRecOn generalizing st' with
  | nil => exact ⟨st', by simpa using hrun⟩
  | append_singleton h' y ih =>
    rw [← List.append_assoc, executed_append_singleton] at hrun
    obtain ⟨st, hrun, -⟩ := hrun
    exact ih hrun

end Sequential

structure Allowed (requestOf : String → ProjectRequest) (ids : List String) (call : ProjectCall) : Prop where
  nonempty : call.request.decisionId ≠ ""
  mem : call.request.decisionId ∈ ids
  request : call.request = requestOf call.request.decisionId
  reserved : 0 ≤ call.request.thisCallReservationAtomic

def total (requestOf : String → ProjectRequest) (ids : List String) : ℤ :=
  (ids.map fun id => (requestOf id).thisCallReservationAtomic).sum

theorem saturate_add {a b : ℤ} (ha : 0 ≤ a) (hb : 0 ≤ b) : saturate (saturate a + b) = saturate (a + b) := by
  simp only [saturate, maxI64]
  omega

structure Tally (requestOf : String → ProjectRequest) (h : History) (st : RunState) : Prop where
  nodup : st.projectResponseOrder.Nodup
  order : ∀ id, id ∈ st.projectResponseOrder ↔ id ∈ decided h
  keys : st.projectResponsesByDecisionId.map Prod.fst = st.projectResponseOrder.reverse
  responses : ∀ x ∈ h, st.cachedProjectResponse x.1.request.decisionId = some x.2
  steps : st.stepsCompleted = st.projectResponseOrder.length
  cumulative : st.cumulativeCostAtomic = saturate (total requestOf st.projectResponseOrder)

section Tally

variable {cfg : ProjectorConfig} {requestOf : String → ProjectRequest} {ids : List String} {h : History}
  {st st' : RunState} {call : ProjectCall} {r : ProjectResponse}

theorem Tally.empty : Tally requestOf [] {} where
  nodup := List.nodup_nil
  order _ := Iff.rfl
  keys := rfl
  responses := by simp
  steps := rfl
  cumulative := by simp [total, saturate, maxI64]

theorem Tally.cached_iff (ht : Tally requestOf h st) {id : String} (hid : id ≠ "") :
    st.cachedProjectResponse id = none ↔ id ∉ decided h := by
  have hkeys : id ∈ st.projectResponsesByDecisionId.map Prod.fst ↔ id ∈ decided h := by
    rw [ht.keys, List.mem_reverse, ht.order]
  rw [RunState.cachedProjectResponse, if_neg hid, List.lookup_eq_none_iff, ← hkeys, List.mem_map]
  constructor
  · rintro hnone ⟨p, hp, rfl⟩
    simpa using hnone p hp
  · intro hnot p hp
    exact bne_iff_ne.mpr fun heq => hnot ⟨p, hp, heq.symm⟩

theorem Tally.repeated (ht : Tally requestOf h st)
    (hcached : st.cachedProjectResponse call.request.decisionId = some r) (hid : call.request.decisionId ≠ "") :
    Tally requestOf (h ++ [(call, r)]) st := by
  have hmem : call.request.decisionId ∈ decided h := by
    by_contra hnot
    rw [(ht.cached_iff hid).mpr hnot] at hcached
    cases hcached
  refine ⟨ht.nodup, fun id => ?_, ht.keys, ?_, ht.steps, ht.cumulative⟩
  · rw [ht.order, decided, decided, List.map_append, List.mem_append]
    constructor
    · exact .inl
    · rintro (hold | hnew)
      · exact hold
      · exact List.mem_singleton.mp hnew ▸ hmem
  · rw [List.forall_mem_append]
    exact ⟨ht.responses, fun x hx => List.mem_singleton.mp hx ▸ hcached⟩

theorem decided_allowed (hallowed : ∀ x ∈ h, Allowed requestOf ids x.1) {id : String} (hid : id ∈ decided h) :
    id ∈ ids ∧ 0 ≤ (requestOf id).thisCallReservationAtomic := by
  obtain ⟨x, hx, rfl⟩ := List.mem_map.mp hid
  have hcall := hallowed x hx
  exact ⟨hcall.mem, hcall.request ▸ hcall.reserved⟩

theorem RunState.record_new {o : Outcome} (hid : call.request.decisionId ≠ "")
    (hcached : st.cachedProjectResponse call.request.decisionId = none)
    (hcap : st.projectResponsesByDecisionId.length < responseCacheCap) :
    ((st.advance call o).recordProjectResponse call.request.decisionId r).projectResponseOrder =
        st.projectResponseOrder ++ [call.request.decisionId] ∧
      ((st.advance call o).recordProjectResponse call.request.decisionId r).projectResponsesByDecisionId =
        (call.request.decisionId, r) :: st.projectResponsesByDecisionId := by
  rw [cachedProjectResponse, if_neg hid] at hcached
  have hfilter : st.projectResponsesByDecisionId.filter (·.1 ≠ call.request.decisionId) =
      st.projectResponsesByDecisionId := by
    rw [List.filter_eq_self]
    intro p hp
    have hne := List.lookup_eq_none_iff.mp hcached p hp
    exact decide_eq_true fun heq => bne_iff_ne.mp hne heq.symm
  have hevict (order : List String) : evict order ((call.request.decisionId, r) :: st.projectResponsesByDecisionId) =
      (order, (call.request.decisionId, r) :: st.projectResponsesByDecisionId) := evict_of_le hcap
  have hsame : (st.advance call o).projectResponsesByDecisionId = st.projectResponsesByDecisionId := rfl
  have horder : (st.advance call o).projectResponseOrder = st.projectResponseOrder := rfl
  simp only [recordProjectResponse, if_neg hid, hsame, horder, hcached, hfilter, hevict, Option.isNone_none, if_true,
    and_self]

theorem Tally.advanced (ht : Tally requestOf h st) (hallowed : ∀ x ∈ h, Allowed requestOf ids x.1)
    (hcall : Allowed requestOf ids call) (hcap : ids.length ≤ responseCacheCap) (o : Outcome)
    (hcached : st.cachedProjectResponse call.request.decisionId = none) :
    Tally requestOf (h ++ [(call, r)]) ((st.advance call o).recordProjectResponse call.request.decisionId r) := by
  have hnew := (ht.cached_iff hcall.nonempty).mp hcached
  have hfresh : call.request.decisionId ∉ st.projectResponseOrder := fun hmem => hnew ((ht.order _).mp hmem)
  have hnodup : (st.projectResponseOrder ++ [call.request.decisionId]).Nodup :=
    List.nodup_append.mpr ⟨ht.nodup, List.nodup_singleton _, fun a ha b hb heq =>
      hfresh (List.mem_singleton.mp hb ▸ heq ▸ ha)⟩
  -- all the decisions are among the few that are sent, so none is evicted
  have hlength : (st.projectResponseOrder ++ [call.request.decisionId]).length ≤ ids.length := by
    apply (List.subperm_of_subset hnodup _).length_le
    rw [List.append_subset]
    exact ⟨fun id hid => (decided_allowed hallowed ((ht.order id).mp hid)).1, fun id hid => List.mem_singleton.mp hid ▸ hcall.mem⟩
  have hkeys : st.projectResponsesByDecisionId.length = st.projectResponseOrder.length := by
    simpa using congrArg List.length ht.keys
  rw [List.length_append, List.length_singleton] at hlength
  obtain ⟨horder, hresponses⟩ := RunState.record_new hcall.nonempty hcached (o := o) (r := r) (by omega)
  have htotal : 0 ≤ total requestOf st.projectResponseOrder := by
    apply List.sum_nonneg
    intro n hn
    obtain ⟨id, hid, rfl⟩ := List.mem_map.mp hn
    exact (decided_allowed hallowed ((ht.order id).mp hid)).2
  constructor
  · rw [horder]
    exact hnodup
  · intro id
    rw [horder, decided, List.map_append, List.mem_append, List.mem_append, ht.order]
    rfl
  · rw [horder, hresponses, List.map_cons, ht.keys, List.reverse_append]
    rfl
  · rw [List.forall_mem_append]
    constructor
    · intro x hx
      have hold := ht.responses x hx
      have hne : x.1.request.decisionId ≠ call.request.decisionId := by
        intro heq
        rw [heq, hcached] at hold
        cases hold
      simp only [RunState.cachedProjectResponse, hresponses, List.lookup_cons, beq_false_of_ne hne] at hold ⊢
      exact hold
    · intro x hx
      rw [List.mem_singleton.mp hx, RunState.cachedProjectResponse, if_neg hcall.nonempty, hresponses]
      exact List.lookup_cons_self
  · rw [RunState.recordProjectResponse_toView, horder, List.length_append, Int.natCast_add, ← ht.steps]
    rfl
  · rw [RunState.recordProjectResponse_toView, horder]
    have hsum : total requestOf (st.projectResponseOrder ++ [call.request.decisionId]) =
        total requestOf st.projectResponseOrder + call.request.thisCallReservationAtomic := by
      rw [total, List.map_append, List.sum_append, List.map_singleton, List.sum_singleton, ← hcall.request]
      rfl
    rw [hsum, ← saturate_add htotal hcall.reserved, ← ht.cumulative]
    rfl

theorem Tally.step (ht : Tally requestOf h st) (hallowed : ∀ x ∈ h, Allowed requestOf ids x.1)
    (hcall : Allowed requestOf ids call) (hcap : ids.length ≤ responseCacheCap)
    (hstep : st.projectAlone cfg call = some (r, st')) : Tally requestOf (h ++ [(call, r)]) st' := by
  cases hcached : st.cachedProjectResponse call.request.decisionId with
  | some r' =>
    rw [RunState.projectAlone_cached hcached] at hstep
    cases hstep
    exact ht.repeated hcached hcall.nonempty
  | none =>
    rw [RunState.projectAlone_new hcached] at hstep
    cases hstep
    exact ht.advanced hallowed hcall hcap _ hcached

theorem Executed.tally (hrun : Executed cfg h st) (hallowed : ∀ x ∈ h, Allowed requestOf ids x.1)
    (hcap : ids.length ≤ responseCacheCap) : Tally requestOf h st := by
  induction h using List.reverseRecOn generalizing st with
  | nil =>
    rw [executed_nil.mp hrun]
    exact .empty
  | append_singleton h x ih =>
    obtain ⟨st₀, hfirst, hlast⟩ := executed_append_singleton.mp hrun
    rw [List.forall_mem_append] at hallowed
    exact (ih hfirst hallowed.1).step hallowed.1 (hallowed.2 x (List.mem_singleton_self x)) hcap hlast

theorem Executed.advances {h' : History} (hrun : Executed cfg (h ++ (call, r) :: h') st')
    (hallowed : ∀ x ∈ h ++ (call, r) :: h', Allowed requestOf ids x.1) (hcap : ids.length ≤ responseCacheCap) :
    ∃ before after, Executed cfg h before ∧ before.projectAlone cfg call = some (r, after) ∧
      if call.request.decisionId ∈ decided h then after = before
      else after.stepsCompleted = before.stepsCompleted + 1 ∧
        after.cumulativeCostAtomic = saturate (before.cumulativeCostAtomic + call.request.thisCallReservationAtomic) := by
  rw [List.append_cons] at hrun
  obtain ⟨after, hstart⟩ := hrun.start
  obtain ⟨before, hbefore, hcall⟩ := executed_append_singleton.mp hstart
  have ht := hbefore.tally (fun x hx => hallowed x (List.mem_append_left _ hx)) hcap
  have hiff := ht.cached_iff (hallowed (call, r) (List.mem_append_right _ List.mem_cons_self)).nonempty
  refine ⟨before, after, hbefore, hcall, ?_⟩
  cases hcached : before.cachedProjectResponse call.request.decisionId with
  | some r' =>
    have hmem : call.request.decisionId ∈ decided h :=
      not_not.mp fun hnot => Option.some_ne_none r' (hcached ▸ hiff.mpr hnot)
    rw [RunState.projectAlone_cached hcached] at hcall
    cases hcall
    rw [if_pos hmem]
  | none =>
    rw [RunState.projectAlone_new hcached] at hcall
    cases hcall
    rw [if_neg (hiff.mp hcached), RunState.recordProjectResponse_toView]
    exact ⟨rfl, rfl⟩

theorem Tally.perm_dedup (ht : Tally requestOf h st) : st.projectResponseOrder.Perm (decided h).dedup := by
  rw [List.perm_ext_iff_of_nodup ht.nodup (List.nodup_dedup _)]
  intro id
  rw [List.mem_dedup, ht.order]

theorem Tally.steps_eq (ht : Tally requestOf h st) : st.stepsCompleted = (decided h).dedup.length := by
  rw [ht.steps, ht.perm_dedup.length_eq]

theorem Tally.cumulative_eq (ht : Tally requestOf h st) :
    st.cumulativeCostAtomic = saturate (total requestOf (decided h).dedup) := by
  rw [ht.cumulative, total, total, (ht.perm_dedup.map _).sum_eq]

end Tally

end SpendGuard.Projector
