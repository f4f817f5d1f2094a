import Mathlib
import SpendGuard.Base.Run

/-!
The leases of the background workers in Kubernetes: `K8sLease::try_acquire` and `K8sLease::release`,
each a read of the Lease object and a conditional write.
-/

namespace SpendGuard.Coordination

open Base

structure LeaseSpec where
  holderIdentity : Option String := none
  leaseDurationSeconds : Option ℤ := none
  acquireTime : Option ℤ := none
  renewTime : Option ℤ := none
  leaseTransitions : Option ℤ := none
  deriving DecidableEq

structure LeaseObject where
  uid : Option String
  resourceVersion : ℕ
  spec : Option LeaseSpec
  deriving DecidableEq

inductive LeaseState
  | leader (token : List UInt8) (expiresAt : ℤ) (transitionCount : ℤ)
  | standby (holderWorkloadId : String) (observedExpiry : ℤ)

structure LeaseAttempt where
  state : LeaseState
  eventType : String

def seconds (n : ℤ) : ℤ := n * 1000000000

def microTime (t : ℤ) : ℤ := t / 1000 * 1000

/-- The first bytes of the object's uid, the last four of them mixed with the transition count. -/
def deriveK8sToken (o : LeaseObject) : List UInt8 :=
  let uid := (o.uid.getD "00000000-0000-0000-0000-000000000000").toUTF8.toList
  let bytes := (uid ++ List.replicate 16 0).take 16
  let transitions := ((o.spec.bind LeaseSpec.leaseTransitions).getD 0 % 2 ^ 32).toNat
  bytes.take 12 ++ List.zipWith (· ^^^ ·) (bytes.drop 12)
    ((List.range 4).map fun i => UInt8.ofNat (transitions / 256 ^ i))

inductive Plan
  | create (spec : LeaseSpec) (created : LeaseObject → LeaseAttempt)
  | patch (resourceVersion : ℕ) (change : LeaseSpec → LeaseSpec) (accepted : LeaseObject → LeaseAttempt)
      (conflict : LeaseAttempt)
  | answer (a : LeaseAttempt)

structure K8sLease where
  workloadId : String
  leaseDurationSeconds : ℤ

def K8sLease.expires (k : K8sLease) (now : ℤ) : ℤ := now + seconds k.leaseDurationSeconds

def K8sLease.observedExpiry (k : K8sLease) (now : ℤ) (spec : LeaseSpec) : ℤ :=
  match spec.renewTime with
  | some t => t + seconds (spec.leaseDurationSeconds.getD k.leaseDurationSeconds)
  | none => now

/-- `try_acquire` after its GET; `now` is read before it. -/
def K8sLease.tryAcquire (k : K8sLease) (now : ℤ) : Option LeaseObject → Plan
  | none => .create
      { holderIdentity := some k.workloadId
        leaseDurationSeconds := some k.leaseDurationSeconds
        acquireTime := some (microTime now)
        renewTime := some (microTime now)
        leaseTransitions := some 1 }
      fun created => ⟨.leader (deriveK8sToken created) (k.expires now) 1, "acquired"⟩
  | some lease =>
    let spec := lease.spec.getD {}
    let holder := spec.holderIdentity
    let observedExpiry := k.observedExpiry now spec
    let priorTransitions := spec.leaseTransitions.getD 0
    if holder = some k.workloadId then
      .patch lease.resourceVersion (fun s => { s with renewTime := some (microTime now) })
        (fun _ => ⟨.leader (deriveK8sToken lease) (k.expires now) priorTransitions, "renewed"⟩)
        ⟨.standby (holder.getD "") observedExpiry, "renew-conflict"⟩
    else if observedExpiry < now then
      .patch lease.resourceVersion
        (fun s => { s with
          holderIdentity := some k.workloadId
          acquireTime := some (microTime now)
          renewTime := some (microTime now)
          leaseTransitions := some (priorTransitions + 1) })
        (fun patched => ⟨.leader (deriveK8sToken patched) (k.expires now) (priorTransitions + 1), "transitioned"⟩)
        ⟨.standby (holder.getD "") observedExpiry, "takeover-conflict"⟩
    else .answer ⟨.standby (holder.getD "") observedExpiry, "denied"⟩

/-- `release` after its GET: the version that it clears, if it is the holder. -/
def K8sLease.release (k : K8sLease) : Option LeaseObject → Option ℕ
  | none => none
  | some current =>
    if current.spec.bind LeaseSpec.holderIdentity = some k.workloadId then some current.resourceVersion
    else none

def clearHolder (s : LeaseSpec) : LeaseSpec := { s with holderIdentity := none, renewTime := none }

/-- The API server's merge patch; a patch that changes nothing keeps the version. -/
def LeaseObject.patch (o : LeaseObject) (change : LeaseSpec → LeaseSpec) : LeaseObject :=
  let spec := change (o.spec.getD {})
  if o.spec = some spec then o else { o with spec := some spec, resourceVersion := o.resourceVersion + 1 }

inductive Phase
  | idle
  | acquiring (workload : String) (now : ℤ)
  | observed (workload : String) (now : ℤ) (lease : Option LeaseObject)
  | releasing (workload : String)
  | leaving (workload : String) (current : Option LeaseObject)

/-- The object, the time, the calls in flight, the leader states returned to each workload since it last
released, and every holder the object has had with its transition count. -/
structure K8sWorld (ι : Type) where
  object : Option LeaseObject
  clock : ℤ
  call : ι → Phase
  returned : String → List (ℤ × ℤ)
  held : List (ℤ × String)

inductive K8sEvent (ι : Type)
  | tick (time : ℤ)
  | acquire (i : ι) (workload : String)
  | release (i : ι) (workload : String)
  | get (i : ι)
  | write (i : ι)
  | fail (i : ι)

def LeaseAttempt.leader (a : LeaseAttempt) : List (ℤ × ℤ) :=
  match a.state with
  | .leader _ expiresAt transitions => [(expiresAt, transitions)]
  | .standby _ _ => []

namespace LeaseObject

def holder (o : LeaseObject) : Option String := o.spec.bind LeaseSpec.holderIdentity

def transitions (o : LeaseObject) : ℤ := (o.spec.bind LeaseSpec.leaseTransitions).getD 0

def holding (o : LeaseObject) : List (ℤ × String) := (o.holder.map fun w => (o.transitions, w)).toList

end LeaseObject

namespace K8sWorld

variable {ι : Type} [DecidableEq ι]

def finish (g : K8sWorld ι) (i : ι) : K8sWorld ι := { g with call := Function.update g.call i .idle }

def enter (g : K8sWorld ι) (i : ι) (p : Phase) : K8sWorld ι := { g with call := Function.update g.call i p }

def store (g : K8sWorld ι) (o : LeaseObject) : K8sWorld ι :=
  { g with object := some o, held := o.holding ++ g.held }

def reply (g : K8sWorld ι) (workload : String) (a : LeaseAttempt) (delivered : Bool) : K8sWorld ι :=
  if delivered then
    { g with returned := Function.update g.returned workload (a.leader ++ g.returned workload) }
  else g

def forget (g : K8sWorld ι) (workload : String) : K8sWorld ι :=
  { g with returned := Function.update g.returned workload [] }

/-- One API request, or one move of a caller; `duration` is the one configured for every workload. -/
inductive Step (duration : ℤ) : K8sWorld ι → K8sEvent ι → K8sWorld ι → Prop
  | tick {g} (time : ℤ) : g.clock ≤ time → Step duration g (.tick time) { g with clock := time }
  | acquire {g} (i : ι) (w : String) : g.call i = .idle →
      Step duration g (.acquire i w) (g.enter i (.acquiring w g.clock))
  | get {g} {i : ι} {w : String} {now : ℤ} : g.call i = .acquiring w now →
      Step duration g (.get i) (g.enter i (.observed w now g.object))
  | create {g} {i : ι} {w : String} {now : ℤ} {lease : Option LeaseObject} {spec : LeaseSpec}
      {created : LeaseObject → LeaseAttempt} (uid : String) (delivered : Bool) :
      g.call i = .observed w now lease → K8sLease.tryAcquire ⟨w, duration⟩ now lease = .create spec created →
      g.object = none →
      Step duration g (.write i) (((g.store ⟨some uid, 1, some spec⟩).reply w
        (created ⟨some uid, 1, some spec⟩) delivered).finish i)
  | patch {g} {i : ι} {w : String} {now : ℤ} {lease : Option LeaseObject} {version : ℕ}
      {change : LeaseSpec → LeaseSpec} {accepted : LeaseObject → LeaseAttempt} {conflict : LeaseAttempt}
      {o : LeaseObject} (delivered : Bool) :
      g.call i = .observed w now lease →
      K8sLease.tryAcquire ⟨w, duration⟩ now lease = .patch version change accepted conflict →
      g.object = some o → o.resourceVersion = version →
      Step duration g (.write i)
        (((g.store (o.patch change)).reply w (accepted (o.patch change)) delivered).finish i)
  | release {g} (i : ι) (w : String) : g.call i = .idle →
      Step duration g (.release i w) (g.enter i (.releasing w))
  | look {g} {i : ι} {w : String} : g.call i = .releasing w →
      Step duration g (.get i) (g.enter i (.leaving w g.object))
  | clear {g} {i : ι} {w : String} {current : Option LeaseObject} {version : ℕ} {o : LeaseObject} :
      g.call i = .leaving w current → K8sLease.release ⟨w, duration⟩ current = some version →
      g.object = some o → o.resourceVersion = version →
      Step duration g (.write i) (((g.store (o.patch clearHolder)).forget w).finish i)
  -- a conflict, an object that is not in the expected state, a standby answer or a failed request
  | give {g} {i : ι} {w : String} {now : ℤ} : g.call i = .acquiring w now →
      Step duration g (.fail i) (g.finish i)
  | standby {g} {i : ι} {w : String} {now : ℤ} {lease : Option LeaseObject} : g.call i = .observed w now lease →
      Step duration g (.fail i) (g.finish i)
  | left {g} {i : ι} {w : String} : g.call i = .releasing w → Step duration g (.fail i) ((g.forget w).finish i)
  | kept {g} {i : ι} {w : String} {current : Option LeaseObject} : g.call i = .leaving w current →
      Step duration g (.fail i) ((g.forget w).finish i)

variable (g : K8sWorld ι)

def Holds (w : String) : Prop := ∃ p ∈ g.returned w, g.clock < p.1

def transitions : ℤ := (g.object.map LeaseObject.transitions).getD 0

/-- The object records the workload with this count, or a leader state with it was returned to it. -/
def HeldBy (n : ℤ) (w : String) : Prop :=
  (∃ o, g.object = some o ∧ o.holder = some w ∧ o.transitions = n) ∨ ∃ p ∈ g.returned w, p.2 = n

structure Safe (tr : List (K8sEvent ι × K8sWorld ι)) : Prop where
  exclusive : ∀ p ∈ tr, ∀ w w', p.2.Holds w → p.2.Holds w' → w = w'
  monotone : (g :: tr.map Prod.snd).Pairwise fun a b => a.transitions ≤ b.transitions
  owned : ∀ a ∈ g :: tr.map Prod.snd, ∀ b ∈ g :: tr.map Prod.snd, ∀ n w w',
    a.HeldBy n w → b.HeldBy n w' → w = w'

end K8sWorld

def Phase.started : Phase → Option (String × ℤ)
  | .acquiring w now => some (w, now)
  | .observed w now _ => some (w, now)
  | _ => none

def Phase.read : Phase → Option LeaseObject
  | .observed _ _ lease => lease
  | .leaving _ current => current
  | _ => none

namespace LeaseObject

variable {o : LeaseObject} {change : LeaseSpec → LeaseSpec}

def renewTime (o : LeaseObject) : Option ℤ := o.spec.bind LeaseSpec.renewTime

def durationSeconds (o : LeaseObject) : Option ℤ := o.spec.bind LeaseSpec.leaseDurationSeconds

@[simp] theorem getD_holderIdentity : (o.spec.getD {}).holderIdentity = o.holder := by
  unfold holder
  cases o.spec <;> rfl

@[simp] theorem getD_leaseTransitions : (o.spec.getD {}).leaseTransitions.getD 0 = o.transitions := by
  unfold transitions
  cases o.spec <;> rfl

@[simp] theorem getD_renewTime : (o.spec.getD {}).renewTime = o.renewTime := by
  unfold renewTime
  cases o.spec <;> rfl

@[simp] theorem getD_leaseDurationSeconds : (o.spec.getD {}).leaseDurationSeconds = o.durationSeconds := by
  unfold durationSeconds
  cases o.spec <;> rfl

theorem patch_spec : (o.patch change).spec = some (change (o.spec.getD {})) := by
  unfold patch
  dsimp only
  split
  · assumption
  · rfl

theorem patch_holder : (o.patch change).holder = (change (o.spec.getD {})).holderIdentity := by
  rw [holder, patch_spec]
  rfl

theorem patch_transitions :
    (o.patch change).transitions = (change (o.spec.getD {})).leaseTransitions.getD 0 := by
  rw [transitions, patch_spec]
  rfl

theorem patch_renewTime : (o.patch change).renewTime = (change (o.spec.getD {})).renewTime := by
  rw [renewTime, patch_spec]
  rfl

theorem patch_durationSeconds :
    (o.patch change).durationSeconds = (change (o.spec.getD {})).leaseDurationSeconds := by
  rw [durationSeconds, patch_spec]
  rfl

theorem patch_version : o.resourceVersion ≤ (o.patch change).resourceVersion ∧
    (o.resourceVersion = (o.patch change).resourceVersion → o = o.patch change) := by
  unfold patch
  dsimp only
  split
  · exact ⟨Nat.le_refl _, fun _ => rfl⟩
  · exact ⟨Nat.le_succ _, fun h => absurd h (Nat.succ_ne_self _).symm⟩

theorem mem_holding {p : ℤ × String} : p ∈ o.holding ↔ o.holder = some p.2 ∧ o.transitions = p.1 := by
  obtain ⟨n, w⟩ := p
  cases h : o.holder <;> simp [holding, h, eq_comm, and_comm]

end LeaseObject

section Plans

variable {w : String} {d now : ℤ} {lease : Option LeaseObject}

theorem tryAcquire_create {spec : LeaseSpec} {created : LeaseObject → LeaseAttempt}
    (h : K8sLease.tryAcquire ⟨w, d⟩ now lease = .create spec created) :
    spec = ⟨some w, some d, some (microTime now), some (microTime now), some 1⟩ ∧
      ∀ o, (created o).leader = [(now + seconds d, 1)] := by
  cases lease with
  | none =>
    cases h
    exact ⟨rfl, fun _ => rfl⟩
  | some o =>
    simp only [K8sLease.tryAcquire] at h
    split at h
    · cases h
    · split at h <;> cases h

theorem tryAcquire_patch {version : ℕ} {change : LeaseSpec → LeaseSpec} {accepted : LeaseObject → LeaseAttempt}
    {conflict : LeaseAttempt} (h : K8sLease.tryAcquire ⟨w, d⟩ now lease = .patch version change accepted conflict) :
    ∃ o, lease = some o ∧ o.resourceVersion = version ∧
      ((o.holder = some w ∧ (change = fun s => { s with renewTime := some (microTime now) }) ∧
          ∀ x, (accepted x).leader = [(now + seconds d, o.transitions)]) ∨
        ((∃ t, o.renewTime = some t ∧ t + seconds (o.durationSeconds.getD d) < now) ∧
          (change = fun s => { s with
            holderIdentity := some w
            acquireTime := some (microTime now)
            renewTime := some (microTime now)
            leaseTransitions := some (o.transitions + 1) }) ∧
          ∀ x, (accepted x).leader = [(now + seconds d, o.transitions + 1)])) := by
  cases lease with
  | none => cases h
  | some o =>
    simp only [K8sLease.tryAcquire, LeaseObject.getD_holderIdentity, LeaseObject.getD_leaseTransitions] at h
    split at h
    case isTrue hholder =>
      cases h
      exact ⟨o, rfl, rfl, .inl ⟨hholder, rfl, fun _ => rfl⟩⟩
    case isFalse =>
      split at h
      case isTrue hexpired =>
        cases h
        refine ⟨o, rfl, rfl, .inr ⟨?_, rfl, fun _ => rfl⟩⟩
        simp only [K8sLease.observedExpiry, LeaseObject.getD_renewTime,
          LeaseObject.getD_leaseDurationSeconds] at hexpired
        split at hexpired
        case h_1 t ht => exact ⟨t, ht, hexpired⟩
        case h_2 => exact absurd hexpired (Int.lt_irrefl _)
      case isFalse => cases h

theorem release_some {current : Option LeaseObject} {version : ℕ}
    (h : K8sLease.release ⟨w, d⟩ current = some version) :
    ∃ o, current = some o ∧ o.resourceVersion = version ∧ o.holder = some w := by
  cases current with
  | none => cases h
  | some o =>
    simp only [K8sLease.release] at h
    split at h
    case isTrue hholder => exact ⟨o, rfl, Option.some.inj h, hholder⟩
    case isFalse => cases h

end Plans

namespace K8sWorld

variable {ι : Type}

section Fields

variable {g : K8sWorld ι} {i : ι} {w : String} {a : LeaseAttempt} {delivered : Bool}

@[simp] theorem reply_object : (g.reply w a delivered).object = g.object := by
  cases delivered <;> rfl

@[simp] theorem reply_held : (g.reply w a delivered).held = g.held := by
  cases delivered <;> rfl

@[simp] theorem reply_clock : (g.reply w a delivered).clock = g.clock := by
  cases delivered <;> rfl

@[simp] theorem reply_call : (g.reply w a delivered).call = g.call := by
  cases delivered <;> rfl

theorem mem_reply {w' : String} {p : ℤ × ℤ} (h : p ∈ (g.reply w a delivered).returned w') :
    p ∈ g.returned w' ∨ w' = w ∧ p ∈ a.leader := by
  cases delivered with
  | false => exact .inl h
  | true =>
    by_cases hw : w' = w
    · subst hw
      simp only [reply, if_true, Function.update_self, List.mem_append] at h
      exact h.symm.imp_right fun h => ⟨rfl, h⟩
    · simp only [reply, if_true, Function.update_of_ne hw] at h
      exact .inl h

theorem forget_subset (w' : String) : (g.forget w).returned w' ⊆ g.returned w' := by
  by_cases hw : w' = w
  · subst hw
    simp [forget]
  · simp [forget, Function.update_of_ne hw]

theorem forget_self : (g.forget w).returned w = [] := Function.update_self ..

variable [DecidableEq ι]

theorem finish_call (j : ι) : (g.finish i).call j = if j = i then .idle else g.call j :=
  Function.update_apply g.call i .idle j

theorem enter_call {p : Phase} (j : ι) : (g.enter i p).call j = if j = i then p else g.call j :=
  Function.update_apply g.call i p j

theorem read_finish {j : ι} {o : LeaseObject} (h : ((g.finish i).call j).read = some o) :
    (g.call j).read = some o := by
  rw [finish_call] at h
  split at h
  · cases h
  · exact h

theorem started_finish {j : ι} {x : String × ℤ} (h : ((g.finish i).call j).started = some x) :
    (g.call j).started = some x ∧ j ≠ i := by
  rw [finish_call] at h
  split at h
  · cases h
  · exact ⟨h, ‹_›⟩

end Fields

/-- What a call has read is the object, if its version is still the same; and each transition count has
had one holder. -/
structure Versioned (g : K8sWorld ι) : Prop where
  seen : ∀ i o, (g.call i).read = some o → ∃ o', g.object = some o' ∧
    o.resourceVersion ≤ o'.resourceVersion ∧ (o.resourceVersion = o'.resourceVersion → o = o')
  current : ∀ o w, g.object = some o → o.holder = some w → (o.transitions, w) ∈ g.held
  past : ∀ p ∈ g.held, ∃ o, g.object = some o ∧ p.1 ≤ o.transitions
  unique : ∀ n w w', (n, w) ∈ g.held → (n, w') ∈ g.held → w = w'
  told : ∀ w, ∀ p ∈ g.returned w, (p.2, w) ∈ g.held

namespace Versioned

variable {g g' : K8sWorld ι}

theorem read_eq (hv : g.Versioned) {i : ι} {o o' : LeaseObject} (hread : (g.call i).read = some o)
    (hobject : g.object = some o') (hversion : o'.resourceVersion = o.resourceVersion) : o' = o := by
  obtain ⟨x, hx, -, heq⟩ := hv.seen i o hread
  rw [hobject] at hx
  cases hx
  exact (heq hversion.symm).symm

theorem quiet (hv : g.Versioned) (hobject : g'.object = g.object) (hheld : g'.held = g.held)
    (hreturned : ∀ w, g'.returned w ⊆ g.returned w)
    (hread : ∀ j o, (g'.call j).read = some o → (g.call j).read = some o ∨ g.object = some o) :
    g'.Versioned := by
  constructor
  · intro j o h
    rw [hobject]
    rcases hread j o h with h | h
    · exact hv.seen j o h
    · exact ⟨o, h, Nat.le_refl _, fun _ => rfl⟩
  · rw [hobject, hheld]
    exact hv.current
  · rw [hobject, hheld]
    exact hv.past
  · rw [hheld]
    exact hv.unique
  · intro w p hp
    rw [hheld]
    exact hv.told w p (hreturned w hp)

theorem write (hv : g.Versioned) (o' : LeaseObject) (hobject : g'.object = some o')
    (hheld : g'.held = o'.holding ++ g.held)
    (hread : ∀ j o, (g'.call j).read = some o → (g.call j).read = some o)
    (hversion : ∀ o, g.object = some o → o.resourceVersion ≤ o'.resourceVersion ∧
      (o.resourceVersion = o'.resourceVersion → o = o'))
    (hnext : (∃ o, g.object = some o ∧ o'.transitions = o.transitions ∧
        ∀ w, o'.holder = some w → o.holder = some w) ∨ ∀ p ∈ g.held, p.1 < o'.transitions)
    (htold : ∀ w p, p ∈ g'.returned w → p ∈ g.returned w ∨ o'.holder = some w ∧ o'.transitions = p.2) :
    g'.Versioned := by
  have hmem (n : ℤ) (w : String) : (n, w) ∈ g'.held ↔
      (o'.holder = some w ∧ o'.transitions = n) ∨ (n, w) ∈ g.held := by
    rw [hheld, List.mem_append, LeaseObject.mem_holding]
  -- the new holder is the only one with its count
  have hfresh (w w' : String) (hw : o'.holder = some w) (hw' : (o'.transitions, w') ∈ g.held) : w = w' := by
    rcases hnext with ⟨o, ho, hcount, hholder⟩ | hless
    · rw [hcount] at hw'
      exact hv.unique _ _ _ (hv.current o w ho (hholder w hw)) hw'
    · exact absurd (hless _ hw') (Int.lt_irrefl _)
  constructor
  · intro j o h
    obtain ⟨x, hx, hle, heq⟩ := hv.seen j o (hread j o h)
    obtain ⟨hle', heq'⟩ := hversion x hx
    refine ⟨o', hobject, Nat.le_trans hle hle', fun hsame => ?_⟩
    have hox : o = x := heq (by omega)
    have hxo : x = o' := heq' (by omega)
    exact hox.trans hxo
  · intro o w ho hw
    rw [hobject] at ho
    cases ho
    exact (hmem _ _).mpr (.inl ⟨hw, rfl⟩)
  · rintro ⟨n, w⟩ hp
    refine ⟨o', hobject, ?_⟩
    rcases (hmem n w).mp hp with ⟨-, rfl⟩ | hp
    · exact Int.le_refl _
    · rcases hnext with ⟨o, ho, hcount, -⟩ | hless
      · obtain ⟨x, hx, hle⟩ := hv.past _ hp
        rw [ho] at hx
        cases hx
        rw [hcount]
        exact hle
      · exact Int.le_of_lt (hless _ hp)
  · intro n w w' hw hw'
    rw [hmem] at hw hw'
    rcases hw with ⟨hnew, hcount⟩ | hold
    · subst hcount
      rcases hw' with ⟨hnew', -⟩ | hold'
      · exact Option.some.inj (hnew.symm.trans hnew')
      · exact hfresh w w' hnew hold'
    · rcases hw' with ⟨hnew', hcount⟩ | hold'
      · subst hcount
        exact (hfresh w' w hnew' hold).symm
      · exact hv.unique n w w' hold hold'
  · intro w p hp
    rw [hmem]
    exact (htold w p hp).symm.imp_right fun hp => hv.told w p hp

end Versioned

section Steps

variable [DecidableEq ι] {d : ℤ} {g g' : K8sWorld ι} {e : K8sEvent ι}

theorem patched_holder {w : String} {now : ℤ} {version : ℕ} {change : LeaseSpec → LeaseSpec}
    {accepted : LeaseObject → LeaseAttempt} {conflict : LeaseAttempt} {o : LeaseObject}
    (h : K8sLease.tryAcquire ⟨w, d⟩ now (some o) = .patch version change accepted conflict) :
    (o.patch change).holder = some w ∧ (o.patch change).renewTime = some (microTime now) ∧
      (o.patch change).durationSeconds = o.durationSeconds ∧
      (accepted (o.patch change)).leader = [(now + seconds d, (o.patch change).transitions)] ∧
      ((o.holder = some w ∧ (o.patch change).transitions = o.transitions) ∨
        (∃ t, o.renewTime = some t ∧ t + seconds (o.durationSeconds.getD d) < now) ∧
          (o.patch change).transitions = o.transitions + 1) := by
  obtain ⟨x, hx, -, hcase⟩ := tryAcquire_patch h
  cases hx
  simp only [LeaseObject.patch_holder, LeaseObject.patch_renewTime, LeaseObject.patch_durationSeconds,
    LeaseObject.patch_transitions]
  rcases hcase with ⟨hholder, rfl, hleader⟩ | ⟨hexpired, rfl, hleader⟩
  · simp only [LeaseObject.getD_holderIdentity, LeaseObject.getD_leaseTransitions,
      LeaseObject.getD_leaseDurationSeconds]
    exact ⟨hholder, trivial, trivial, hleader _, .inl ⟨hholder, trivial⟩⟩
  · simp only [LeaseObject.getD_leaseDurationSeconds, Option.getD_some]
    exact ⟨trivial, trivial, trivial, hleader _, .inr ⟨hexpired, trivial⟩⟩

theorem Step.cases (hv : g.Versioned) (h : Step d g e g') :
    (g'.object = g.object ∧ g'.held = g.held ∧ (∀ w, g'.returned w ⊆ g.returned w) ∧ g.clock ≤ g'.clock ∧
        ((∀ j, g'.call j = g.call j ∨ g'.call j = .idle ∨ (∃ w, g'.call j = .releasing w) ∨
            (g'.call j).started = (g.call j).started ∧ (g'.call j).read = g.object) ∨
          ∃ i w, e = .acquire i w ∧ g' = g.enter i (.acquiring w g.clock))) ∨
      (∃ i w now o' a delivered, (g.call i).started = some (w, now) ∧
        g' = ((g.store o').reply w a delivered).finish i ∧ o'.holder = some w ∧
        o'.renewTime = some (microTime now) ∧ a.leader = [(now + seconds d, o'.transitions)] ∧
        ((g.object = none ∧ o'.durationSeconds = some d ∧ o'.transitions = 1) ∨
          ∃ o, g.object = some o ∧ o'.durationSeconds = o.durationSeconds ∧
            o.resourceVersion ≤ o'.resourceVersion ∧ (o.resourceVersion = o'.resourceVersion → o = o') ∧
            ((o.holder = some w ∧ o'.transitions = o.transitions) ∨
              (∃ t, o.renewTime = some t ∧ t + seconds (o.durationSeconds.getD d) < now) ∧
                o'.transitions = o.transitions + 1))) ∨
      ∃ i w o, g.object = some o ∧ o.holder = some w ∧
        g' = ((g.store (o.patch clearHolder)).forget w).finish i := by
  cases h with
  | tick time htime =>
    exact .inl ⟨rfl, rfl, fun _ => List.Subset.refl _, htime, .inl fun j => .inl rfl⟩
  | acquire i w hi =>
    exact .inl ⟨rfl, rfl, fun _ => List.Subset.refl _, Int.le_refl _, .inr ⟨i, w, rfl, rfl⟩⟩
  | @get i w now hi =>
    refine .inl ⟨rfl, rfl, fun _ => List.Subset.refl _, Int.le_refl _, .inl fun j => ?_⟩
    rw [enter_call]
    split
    case isTrue hj =>
      subst hj
      exact .inr (.inr (.inr ⟨by rw [hi]; rfl, rfl⟩))
    case isFalse => exact .inl rfl
  | @create i w now lease spec created uid delivered hi hplan hnone =>
    obtain ⟨rfl, hleader⟩ := tryAcquire_create hplan
    exact .inr (.inl ⟨i, w, now, _, _, delivered, by rw [hi]; rfl, rfl, rfl, rfl, hleader _,
      .inl ⟨hnone, rfl, rfl⟩⟩)
  | @patch i w now lease version change accepted conflict o delivered hi hplan hobject hversion =>
    obtain ⟨x, rfl, hx, -⟩ := tryAcquire_patch hplan
    cases hv.read_eq (by rw [hi]; rfl) hobject (hversion.trans hx.symm)
    obtain ⟨hholder, hrenew, hduration, hleader, hcase⟩ := patched_holder hplan
    exact .inr (.inl ⟨i, w, now, _, _, delivered, by rw [hi]; rfl, rfl, hholder, hrenew, hleader,
      .inr ⟨_, hobject, hduration, LeaseObject.patch_version.1, LeaseObject.patch_version.2, hcase⟩⟩)
  | release i w hi =>
    refine .inl ⟨rfl, rfl, fun _ => List.Subset.refl _, Int.le_refl _, .inl fun j => ?_⟩
    rw [enter_call]
    split
    · exact .inr (.inr (.inl ⟨w, rfl⟩))
    · exact .inl rfl
  | @look i w hi =>
    refine .inl ⟨rfl, rfl, fun _ => List.Subset.refl _, Int.le_refl _, .inl fun j => ?_⟩
    rw [enter_call]
    split
    case isTrue hj =>
      subst hj
      exact .inr (.inr (.inr ⟨by rw [hi]; rfl, rfl⟩))
    case isFalse => exact .inl rfl
  | @clear i w current version o hi hplan hobject hversion =>
    obtain ⟨x, rfl, hx, hholder⟩ := release_some hplan
    cases hv.read_eq (by rw [hi]; rfl) hobject (hversion.trans hx.symm)
    exact .inr (.inr ⟨i, w, _, hobject, hholder, rfl⟩)
  | @give i w now hi =>
    refine .inl ⟨rfl, rfl, fun _ => List.Subset.refl _, Int.le_refl _, .inl fun j => ?_⟩
    rw [finish_call]
    split
    · exact .inr (.inl rfl)
    · exact .inl rfl
  | @standby i w now lease hi =>
    refine .inl ⟨rfl, rfl, fun _ => List.Subset.refl _, Int.le_refl _, .inl fun j => ?_⟩
    rw [finish_call]
    split
    · exact .inr (.inl rfl)
    · exact .inl rfl
  | @left i w hi =>
    refine .inl ⟨rfl, rfl, forget_subset, Int.le_refl _, .inl fun j => ?_⟩
    rw [finish_call]
    split
    · exact .inr (.inl rfl)
    · exact .inl rfl
  | @kept i w current hi =>
    refine .inl ⟨rfl, rfl, forget_subset, Int.le_refl _, .inl fun j => ?_⟩
    rw [finish_call]
    split
    · exact .inr (.inl rfl)
    · exact .inl rfl

theorem clear_transitions (o : LeaseObject) : (o.patch clearHolder).transitions = o.transitions :=
  LeaseObject.patch_transitions.trans LeaseObject.getD_leaseTransitions

theorem clear_holder (o : LeaseObject) : (o.patch clearHolder).holder = none := LeaseObject.patch_holder

theorem Versioned.step (hv : g.Versioned) (h : Step d g e g') : g'.Versioned := by
  rcases h.cases hv with ⟨hobject, hheld, hreturned, -, hcall⟩ |
    ⟨i, w, now, o', a, delivered, -, rfl, hholder, -, hleader, hcase⟩ | ⟨i, w, o, hobject, hholder, rfl⟩
  · refine hv.quiet hobject hheld hreturned fun j o hread => ?_
    rcases hcall with hcall | ⟨i, w, -, rfl⟩
    · rcases hcall j with hj | hj | ⟨w, hj⟩ | ⟨-, hj⟩
      · exact .inl (hj ▸ hread)
      · rw [hj] at hread
        cases hread
      · rw [hj] at hread
        cases hread
      · exact .inr (hj ▸ hread)
    · rw [enter_call] at hread
      split at hread
      · cases hread
      · exact .inl hread
  · refine hv.write o' (by exact reply_object) (by exact reply_held) ?_ ?_ ?_ ?_
    · intro j o hread
      have hread := read_finish hread
      rwa [reply_call] at hread
    · intro o ho
      rcases hcase with ⟨hnone, -⟩ | ⟨x, hx, -, hle, heq, -⟩
      · rw [hnone] at ho
        cases ho
      · rw [hx] at ho
        cases ho
        exact ⟨hle, heq⟩
    · rcases hcase with ⟨hnone, -⟩ | ⟨o, ho, -, -, -, hcase⟩
      · right
        intro p hp
        obtain ⟨x, hx, -⟩ := hv.past p hp
        rw [hnone] at hx
        cases hx
      · rcases hcase with ⟨hsame, hcount⟩ | ⟨-, hcount⟩
        · refine .inl ⟨o, ho, hcount, fun w' hw' => ?_⟩
          rw [hholder] at hw'
          cases hw'
          exact hsame
        · right
          intro p hp
          obtain ⟨x, hx, hle⟩ := hv.past p hp
          rw [ho] at hx
          cases hx
          omega
    · intro w' p hp
      rcases mem_reply hp with hold | ⟨hw, hnew⟩
      · exact .inl hold
      · rw [hleader, List.mem_singleton] at hnew
        rw [hw, hnew]
        exact .inr ⟨hholder, rfl⟩
  · refine hv.write (o.patch clearHolder) rfl rfl (fun j x hread => read_finish hread) ?_ ?_ ?_
    · intro x hx
      rw [hobject] at hx
      cases hx
      exact LeaseObject.patch_version
    · refine .inl ⟨o, hobject, clear_transitions o, fun w' hw' => ?_⟩
      rw [clear_holder] at hw'
      cases hw'
    · intro w' p hp
      exact .inl (forget_subset w' hp)

/-- An acquire starts at a whole microsecond and when no other one of its workload is in flight. -/
def Starts (g : K8sWorld ι) : K8sEvent ι → Prop
  | .acquire _ w => microTime g.clock = g.clock ∧ ∀ j now, (g.call j).started ≠ some (w, now)
  | _ => True

/-- Whoever was told to lead for longer is the holder that the object records, for at least as long. -/
structure Punctual (d : ℤ) (g : K8sWorld ι) : Prop where
  duration : ∀ o, g.object = some o → d ≤ o.durationSeconds.getD d
  alone : ∀ i j w now now', (g.call i).started = some (w, now) → (g.call j).started = some (w, now') → i = j
  started : ∀ i w now, (g.call i).started = some (w, now) →
    now ≤ g.clock ∧ microTime now = now ∧ ∀ p ∈ g.returned w, p.1 ≤ now + seconds d
  leaders : ∀ w, ∀ p ∈ g.returned w, p.1 ≤ g.clock + seconds d ∧
    (p.1 ≤ g.clock ∨ ∃ o r, g.object = some o ∧ o.holder = some w ∧ o.renewTime = some r ∧
      p.1 ≤ r + seconds d)

namespace Punctual

omit [DecidableEq ι] in
theorem quiet (hp : g.Punctual d) (hobject : g'.object = g.object)
    (hreturned : ∀ w, g'.returned w ⊆ g.returned w) (hclock : g.clock ≤ g'.clock)
    (hstarted : ∀ j x, (g'.call j).started = some x → (g.call j).started = some x) : g'.Punctual d := by
  constructor
  · rw [hobject]
    exact hp.duration
  · intro i j w now now' hi hj
    exact hp.alone i j w now now' (hstarted i _ hi) (hstarted j _ hj)
  · intro i w now hi
    obtain ⟨hle, hmicro, hbound⟩ := hp.started i w now (hstarted i _ hi)
    exact ⟨Int.le_trans hle hclock, hmicro, fun p hp => hbound p (hreturned w hp)⟩
  · intro w p hmem
    obtain ⟨hbound, hcase⟩ := hp.leaders w p (hreturned w hmem)
    rw [hobject]
    exact ⟨by omega, hcase.imp_left fun hle => Int.le_trans hle hclock⟩

theorem enter {i : ι} {w : String} (hp : g.Punctual d) (hstart : g.Starts (.acquire i w)) :
    (g.enter i (.acquiring w g.clock)).Punctual d := by
  have hcases (j : ι) (w' : String) (now : ℤ)
      (hj : ((g.enter i (.acquiring w g.clock)).call j).started = some (w', now)) :
      (j = i ∧ w' = w ∧ now = g.clock) ∨ (g.call j).started = some (w', now) := by
    rw [enter_call] at hj
    split at hj
    case isTrue hji =>
      cases hj
      exact .inl ⟨hji, rfl, rfl⟩
    case isFalse => exact .inr hj
  constructor
  · exact hp.duration
  · intro j k w' now now' hj hk
    rcases hcases j w' now hj with ⟨hji, hw, -⟩ | hj'
    · rcases hcases k w' now' hk with ⟨hki, -, -⟩ | hk'
      · rw [hji, hki]
      · exact absurd (hw ▸ hk') (hstart.2 k now')
    · rcases hcases k w' now' hk with ⟨-, hw, -⟩ | hk'
      · exact absurd (hw ▸ hj') (hstart.2 j now)
      · exact hp.alone j k w' now now' hj' hk'
  · intro j w' now hj
    rcases hcases j w' now hj with ⟨-, rfl, rfl⟩ | hj
    · exact ⟨Int.le_refl _, hstart.1, fun p hmem => (hp.leaders w' p hmem).1⟩
    · exact hp.started j w' now hj
  · exact hp.leaders

theorem acquired {i : ι} {w : String} {now : ℤ} {o' : LeaseObject} {a : LeaseAttempt} {delivered : Bool}
    (hp : g.Punctual d) (hi : (g.call i).started = some (w, now)) (hholder : o'.holder = some w)
    (hrenew : o'.renewTime = some (microTime now)) (hduration : d ≤ o'.durationSeconds.getD d)
    (hleader : a.leader = [(now + seconds d, o'.transitions)])
    (hothers : ∀ w', w' ≠ w → ∀ p ∈ g.returned w', p.1 ≤ g.clock) :
    (((g.store o').reply w a delivered).finish i).Punctual d := by
  obtain ⟨hnow, hmicro, hbound⟩ := hp.started i w now hi
  have hobject : (((g.store o').reply w a delivered).finish i).object = some o' := by exact reply_object
  have hclock : (((g.store o').reply w a delivered).finish i).clock = g.clock := by exact reply_clock
  have hcall (j : ι) (x : String × ℤ)
      (hj : ((((g.store o').reply w a delivered).finish i).call j).started = some x) :
      (g.call j).started = some x ∧ j ≠ i := by
    have hj := started_finish hj
    rwa [reply_call] at hj
  have hreturned (w' : String) (p : ℤ × ℤ)
      (hmem : p ∈ (((g.store o').reply w a delivered).finish i).returned w') :
      p ∈ g.returned w' ∨ w' = w ∧ p.1 = now + seconds d := by
    rcases mem_reply hmem with hmem | ⟨hw, hmem⟩
    · exact .inl hmem
    · rw [hleader, List.mem_singleton] at hmem
      exact .inr ⟨hw, congrArg Prod.fst hmem⟩
  constructor
  · intro o ho
    rw [hobject] at ho
    cases ho
    exact hduration
  · intro j k w' t t' hj hk
    exact hp.alone j k w' t t' (hcall j _ hj).1 (hcall k _ hk).1
  · intro j w' t hj
    obtain ⟨hjg, hne⟩ := hcall j _ hj
    obtain ⟨hle, hmicro', hbound'⟩ := hp.started j w' t hjg
    rw [hclock]
    refine ⟨hle, hmicro', fun p hmem => ?_⟩
    rcases hreturned w' p hmem with hold | ⟨hw, -⟩
    · exact hbound' p hold
    · exact absurd (hp.alone j i w t now (hw ▸ hjg) hi) hne
  · intro w' p hmem
    rw [hobject, hclock]
    by_cases hw : w' = w
    · subst hw
      have hle : p.1 ≤ now + seconds d := by
        rcases hreturned w' p hmem with hmem | ⟨-, heq⟩
        · exact hbound p hmem
        · exact Int.le_of_eq heq
      exact ⟨by omega, .inr ⟨o', microTime now, rfl, hholder, hrenew, hmicro.symm ▸ hle⟩⟩
    · have hold := (hreturned w' p hmem).resolve_right fun h => hw h.1
      exact ⟨(hp.leaders w' p hold).1, .inl (hothers w' hw p hold)⟩

theorem cleared {i : ι} {w : String} {o : LeaseObject} (hp : g.Punctual d) (hobject : g.object = some o)
    (hholder : o.holder = some w) : (((g.store (o.patch clearHolder)).forget w).finish i).Punctual d := by
  constructor
  · intro x hx
    cases hx
    have hsame : (o.patch clearHolder).durationSeconds = o.durationSeconds :=
      LeaseObject.patch_durationSeconds.trans LeaseObject.getD_leaseDurationSeconds
    rw [hsame]
    exact hp.duration o hobject
  · intro j k w' t t' hj hk
    exact hp.alone j k w' t t' (started_finish hj).1 (started_finish hk).1
  · intro j w' t hj
    obtain ⟨hle, hmicro, hbound⟩ := hp.started j w' t (started_finish hj).1
    exact ⟨hle, hmicro, fun p hmem => hbound p (forget_subset w' hmem)⟩
  · intro w' p hmem
    obtain ⟨hbound, hcase⟩ := hp.leaders w' p (forget_subset w' hmem)
    refine ⟨hbound, .inl (hcase.resolve_right ?_)⟩
    rintro ⟨x, r, hx, hxw, -⟩
    rw [hobject] at hx
    cases hx
    rw [hholder] at hxw
    cases hxw
    have hempty : p ∈ ((g.store (o.patch clearHolder)).forget w).returned w := hmem
    rw [forget_self] at hempty
    cases hempty

theorem step (hv : g.Versioned) (hp : g.Punctual d) (hstart : g.Starts e) (h : Step d g e g') :
    g'.Punctual d := by
  rcases h.cases hv with ⟨hobject, -, hreturned, hclock, hcall⟩ |
    ⟨i, w, now, o', a, delivered, hi, rfl, hholder, hrenew, hleader, hcase⟩ | ⟨i, w, o, hobject, hholder, rfl⟩
  · rcases hcall with hcall | ⟨i, w, rfl, rfl⟩
    · refine hp.quiet hobject hreturned hclock fun j x hj => ?_
      rcases hcall j with hsame | hidle | ⟨w, hreleasing⟩ | ⟨hsame, -⟩
      · exact hsame ▸ hj
      · rw [hidle] at hj
        cases hj
      · rw [hreleasing] at hj
        cases hj
      · exact hsame ▸ hj
    · exact hp.enter hstart
  · refine hp.acquired hi hholder hrenew ?_ hleader ?_
    · rcases hcase with ⟨-, hduration, -⟩ | ⟨o, ho, hduration, -⟩
      · rw [hduration]
        exact Int.le_refl _
      · rw [hduration]
        exact hp.duration o ho
    · intro w' hw p hmem
      -- the holder of the object is the caller, or its time is over by the object's own duration
      rcases (hp.leaders w' p hmem).2 with hle | ⟨o, r, ho, how, hr, hle⟩
      · exact hle
      · rcases hcase with ⟨hnone, -⟩ | ⟨x, hx, -, -, -, ⟨hsame, -⟩ | ⟨⟨t, ht, hexpired⟩, -⟩⟩
        · rw [hnone] at ho
          cases ho
        · rw [hx] at ho
          cases ho
          rw [hsame] at how
          exact absurd (Option.some.inj how).symm hw
        · rw [hx] at ho
          cases ho
          rw [ht] at hr
          cases hr
          have hduration := hp.duration _ hx
          have hnow := (hp.started i w now hi).1
          simp only [seconds] at hexpired hle
          omega
  · exact hp.cleared hobject hholder

end Punctual

omit [DecidableEq ι] in
theorem Versioned.heldBy (hv : g.Versioned) {n : ℤ} {w : String} (h : g.HeldBy n w) : (n, w) ∈ g.held := by
  rcases h with ⟨o, ho, hw, rfl⟩ | ⟨p, hp, rfl⟩
  · exact hv.current o w ho hw
  · exact hv.told w p hp

omit [DecidableEq ι] in
theorem Punctual.exclusive (hp : g.Punctual d) {w w' : String} (hw : g.Holds w) (hw' : g.Holds w') :
    w = w' := by
  have hrow (w : String) (hw : g.Holds w) : ∃ o, g.object = some o ∧ o.holder = some w := by
    obtain ⟨p, hmem, hlt⟩ := hw
    rcases (hp.leaders w p hmem).2 with hle | ⟨o, -, ho, how, -⟩
    · exact absurd hle (Int.not_le.mpr hlt)
    · exact ⟨o, ho, how⟩
  obtain ⟨o, ho, how⟩ := hrow w hw
  obtain ⟨o', ho', how'⟩ := hrow w' hw'
  rw [ho] at ho'
  cases ho'
  exact Option.some.inj (how.symm.trans how')

def initial (object : Option LeaseObject) (clock : ℤ) : K8sWorld ι where
  object := object
  clock := clock
  call _ := .idle
  returned _ := []
  held := (object.map LeaseObject.holding).getD []

end Steps

end K8sWorld

namespace K8sWorld

variable {ι : Type} [DecidableEq ι] {d : ℤ} {g g' : K8sWorld ι} {e : K8sEvent ι}

instance (w : String) : Decidable (g.Holds w) := inferInstanceAs (Decidable (∃ p ∈ g.returned w, g.clock < p.1))

/-- The steps that succeed, computed; `uid` is the one that the server gives to a new object. -/
def next (d : ℤ) (uid : String) (g : K8sWorld ι) : K8sEvent ι → Except Unit (K8sWorld ι)
  | .tick time => if g.clock ≤ time then .ok { g with clock := time } else .error ()
  | .acquire i w =>
    match g.call i with
    | .idle => .ok (g.enter i (.acquiring w g.clock))
    | _ => .error ()
  | .release i w =>
    match g.call i with
    | .idle => .ok (g.enter i (.releasing w))
    | _ => .error ()
  | .get i =>
    match g.call i with
    | .acquiring w now => .ok (g.enter i (.observed w now g.object))
    | .releasing w => .ok (g.enter i (.leaving w g.object))
    | _ => .error ()
  | .write i =>
    match g.call i with
    | .observed w now lease =>
      match K8sLease.tryAcquire ⟨w, d⟩ now lease, g.object with
      | .create spec created, none =>
        .ok (((g.store ⟨some uid, 1, some spec⟩).reply w (created ⟨some uid, 1, some spec⟩) true).finish i)
      | .patch version change accepted _, some o =>
        if o.resourceVersion = version then
          .ok (((g.store (o.patch change)).reply w (accepted (o.patch change)) true).finish i)
        else .error ()
      | _, _ => .error ()
    | .leaving w current =>
      match K8sLease.release ⟨w, d⟩ current, g.object with
      | some version, some o =>
        if o.resourceVersion = version then .ok (((g.store (o.patch clearHolder)).forget w).finish i)
        else .error ()
      | _, _ => .error ()
    | _ => .error ()
  | .fail _ => .error ()

end K8sWorld

section Pods

open K8sWorld

end Pods

end SpendGuard.Coordination
