import SpendGuard.Coordination.K8sLease
import SpendGuard.Coordination.PostgresLease

/-!
When a lease is granted: the Kubernetes calls one after the other, against `acquire_lease`.
-/

namespace SpendGuard.Coordination

open Base Ledger

/-- The API server's side of a call: its answer, if the request is accepted, and the object after it. -/
def Plan.execute (uid : String) : Plan → Option LeaseObject → Option LeaseAttempt × Option LeaseObject
  | .create spec created, none => (some (created ⟨some uid, 1, some spec⟩), some ⟨some uid, 1, some spec⟩)
  | .create _ _, some o => (none, some o)
  | .patch _ _ _ _, none => (none, none)
  | .patch version change accepted conflict, some o =>
    if o.resourceVersion = version then (some (accepted (o.patch change)), some (o.patch change))
    else (some conflict, some o)
  | .answer a, o => (some a, o)

/-- A `try_acquire` with no other writer between its GET and its write. -/
def K8sLease.attempt (k : K8sLease) (now : ℤ) (uid : String) (o : Option LeaseObject) :
    Option LeaseAttempt × Option LeaseObject :=
  (k.tryAcquire now o).execute uid o

/-- A `release` with no other writer between its GET and its write. -/
def K8sLease.leave (k : K8sLease) (o : Option LeaseObject) : Option LeaseObject :=
  match k.release o, o with
  | some version, some x => if x.resourceVersion = version then some (x.patch clearHolder) else some x
  | _, o => o

inductive LeaseCall
  | acquire (k : K8sLease) (now : ℤ) (uid : String)
  | release (k : K8sLease)

def LeaseCall.run (o : Option LeaseObject) : LeaseCall → Option LeaseObject
  | .acquire k now uid => (k.attempt now uid o).2
  | .release k => k.leave o

def leaseAfter (calls : List LeaseCall) : Option LeaseObject := calls.foldl LeaseCall.run none

def LeaseAttempt.isLeader (a : LeaseAttempt) : Bool :=
  match a.state with
  | .leader _ _ _ => true
  | .standby _ _ => false

namespace LeaseObject

def expiry (o : LeaseObject) : Option ℤ := do
  let t ← o.renewTime
  let d ← o.durationSeconds
  return t + seconds d

end LeaseObject

def Free (w : String) (now : ℤ) (o : Option LeaseObject) : Prop :=
  ∀ x, o = some x → x.holder = some w ∨ x.holder = none ∨ ∃ t, x.expiry = some t ∧ t < now

/-- The call is answered, makes its caller the leader exactly if the lease is free, and otherwise
leaves the object alone. -/
def K8sLease.GrantsFree (k : K8sLease) (now : ℤ) (uid : String) (o : Option LeaseObject) : Prop :=
  ∃ a, (k.attempt now uid o).1 = some a ∧ (a.isLeader = true ↔ Free k.workloadId now o) ∧
    (¬Free k.workloadId now o → (k.attempt now uid o).2 = o)

/-- The object and the row stand for the same lease; the row counts in microseconds. -/
structure Mirrors (o : Option LeaseObject) (row : Option CoordinationLease) : Prop where
  holder : o.bind LeaseObject.holder = row.bind CoordinationLease.holderWorkloadId
  expiry : o.bind LeaseObject.expiry = (row.bind CoordinationLease.expiresAt).map (1000 * ·)

def K8sLease.GrantsLike (k : K8sLease) (now : ℤ) (uid : String) (o : Option LeaseObject) (s : LeaseTables)
    (r : AcquireRequest) (startedAt : ℤ) (token : Uuid) : Prop :=
  ∃ a b s', (k.attempt now uid o).1 = some a ∧ acquireLease r startedAt token s = .ok (b, s') ∧
    (a.isLeader = true ↔ b.granted = true)

section Calls

variable {k : K8sLease} {now : ℤ} {uid : String} {o : LeaseObject}

theorem attempt_some (k : K8sLease) (now : ℤ) (uid : String) (o : LeaseObject) :
    ∃ a, (k.attempt now uid (some o)).1 = some a ∧
    ((o.holder = some k.workloadId ∧ a.isLeader = true ∧ (k.attempt now uid (some o)).2 =
        some (o.patch fun s => { s with renewTime := some (microTime now) })) ∨
      (o.holder ≠ some k.workloadId ∧ k.observedExpiry now (o.spec.getD {}) < now ∧ a.isLeader = true ∧
        (k.attempt now uid (some o)).2 = some (o.patch fun s => { s with
          holderIdentity := some k.workloadId
          acquireTime := some (microTime now)
          renewTime := some (microTime now)
          leaseTransitions := some (o.transitions + 1) })) ∨
      (o.holder ≠ some k.workloadId ∧ ¬k.observedExpiry now (o.spec.getD {}) < now ∧ a.isLeader = false ∧
        (k.attempt now uid (some o)).2 = some o)) := by
  simp only [K8sLease.attempt, K8sLease.tryAcquire, LeaseObject.getD_holderIdentity,
    LeaseObject.getD_leaseTransitions]
  split
  case isTrue hheld =>
    simp only [Plan.execute, if_true]
    exact ⟨_, rfl, .inl ⟨hheld, rfl, trivial⟩⟩
  case isFalse hheld =>
    split
    case isTrue hexpired =>
      simp only [Plan.execute, if_true]
      exact ⟨_, rfl, .inr (.inl ⟨hheld, hexpired, rfl, trivial⟩)⟩
    case isFalse hfresh =>
      exact ⟨_, rfl, .inr (.inr ⟨hheld, hfresh, rfl, rfl⟩)⟩

theorem leave_some : k.leave (some o) =
    if o.holder = some k.workloadId then some (o.patch clearHolder) else some o := by
  unfold K8sLease.leave K8sLease.release LeaseObject.holder
  split_ifs with h
  · simp only [h, if_true]
  · simp only [h, if_false]

structure LeaseObject.Settled (o : LeaseObject) : Prop where
  duration : o.durationSeconds ≠ none
  renewed : o.holder = none ↔ o.renewTime = none

theorem settled_patch {change : LeaseSpec → LeaseSpec} (ho : o.Settled)
    (hduration : (change (o.spec.getD {})).leaseDurationSeconds = (o.spec.getD {}).leaseDurationSeconds)
    (hrenewed : (change (o.spec.getD {})).holderIdentity = none ↔ (change (o.spec.getD {})).renewTime = none) :
    (o.patch change).Settled where
  duration := by
    rw [LeaseObject.patch_durationSeconds, hduration, LeaseObject.getD_leaseDurationSeconds]
    exact ho.duration
  renewed := by
    rw [LeaseObject.patch_holder, LeaseObject.patch_renewTime]
    exact hrenewed

theorem settled_run {x : Option LeaseObject} (hx : ∀ o, x = some o → o.Settled) (c : LeaseCall) :
    ∀ o, c.run x = some o → o.Settled := by
  intro o' ho'
  cases c with
  | acquire k now uid =>
    rw [LeaseCall.run] at ho'
    cases x with
    | none =>
      cases ho'
      exact ⟨by simp [LeaseObject.durationSeconds], by simp [LeaseObject.holder, LeaseObject.renewTime]⟩
    | some o =>
      obtain ⟨a, -, ⟨hheld, -, h⟩ | ⟨-, -, -, h⟩ | ⟨-, -, -, h⟩⟩ := attempt_some k now uid o
      · rw [h] at ho'
        cases ho'
        refine settled_patch (hx o rfl) rfl ?_
        simp [hheld]
      · rw [h] at ho'
        cases ho'
        exact settled_patch (hx o rfl) rfl (by simp)
      · rw [h] at ho'
        exact hx o' ho'
  | release k =>
    rw [LeaseCall.run] at ho'
    cases x with
    | none => cases ho'
    | some o =>
      rw [leave_some] at ho'
      split at ho'
      · cases ho'
        exact settled_patch (hx o rfl) rfl (by simp [clearHolder])
      · exact hx o' ho'

theorem settled_leaseAfter (calls : List LeaseCall) : ∀ o, leaseAfter calls = some o → o.Settled := by
  have hfold : ∀ x : Option LeaseObject, (∀ o, x = some o → o.Settled) →
      ∀ o, calls.foldl LeaseCall.run x = some o → o.Settled := by
    induction calls with
    | nil => exact fun x hx => hx
    | cons c calls ih => exact fun x hx => ih _ (settled_run hx c)
  exact hfold none (by simp)

end Calls

theorem observedExpiry_eq {k : K8sLease} {now : ℤ} {o : LeaseObject} (ho : o.Settled) :
    k.observedExpiry now (o.spec.getD {}) = o.expiry.getD now := by
  obtain ⟨d, hd⟩ := Option.ne_none_iff_exists'.mp ho.duration
  simp only [K8sLease.observedExpiry, LeaseObject.getD_renewTime, LeaseObject.getD_leaseDurationSeconds, hd,
    LeaseObject.expiry]
  cases o.renewTime <;> rfl

theorem expiry_none_iff {o : LeaseObject} (ho : o.Settled) : o.expiry = none ↔ o.holder = none := by
  obtain ⟨d, hd⟩ := Option.ne_none_iff_exists'.mp ho.duration
  rw [ho.renewed, LeaseObject.expiry, hd]
  cases o.renewTime <;> simp

theorem attempt_isLeader (k : K8sLease) (now : ℤ) (uid : String) {o : LeaseObject} (ho : o.Settled) :
    ∃ a, (k.attempt now uid (some o)).1 = some a ∧
      (a.isLeader = true ↔ o.holder = some k.workloadId ∨ ∃ t, o.expiry = some t ∧ t < now) ∧
      (a.isLeader = false → (k.attempt now uid (some o)).2 = some o) := by
  obtain ⟨a, ha, hcase⟩ := attempt_some k now uid o
  refine ⟨a, ha, ?_⟩
  rw [observedExpiry_eq ho] at hcase
  have hexpiry : o.expiry.getD now < now ↔ ∃ t, o.expiry = some t ∧ t < now := by
    cases o.expiry <;> simp
  rw [hexpiry] at hcase
  obtain ⟨hheld, hleader, -⟩ | ⟨hheld, hover, hleader, -⟩ | ⟨hheld, hover, hleader, hsame⟩ := hcase
  · simp [hleader, hheld]
  · simp [hleader, hover]
  · simp only [hleader, hheld, hover, hsame, or_self, Bool.false_eq_true, implies_true, and_self]

theorem grantsFree_iff {k : K8sLease} {now : ℤ} {uid : String} {x : Option LeaseObject}
    (hx : ∀ o, x = some o → o.Settled) : k.GrantsFree now uid x ↔ ∀ o, x = some o → o.holder ≠ none := by
  cases x with
  | none =>
    have hfree : Free k.workloadId now none := by simp [Free]
    exact ⟨by simp, fun _ => ⟨_, rfl, iff_of_true rfl hfree, absurd hfree⟩⟩
  | some o =>
    obtain ⟨a, ha, hleader, hsame⟩ := attempt_isLeader k now uid (hx o rfl)
    simp only [Option.some.injEq, forall_eq']
    constructor
    · rintro ⟨b, hb, hfree, -⟩ hnone
      cases ha.symm.trans hb
      have hleader' := hleader.mp (hfree.mpr (by simp [Free, hnone]))
      rw [hnone, (expiry_none_iff (hx o rfl)).mpr hnone] at hleader'
      simp at hleader'
    · intro hholder
      have hfree : a.isLeader = true ↔ Free k.workloadId now (some o) := by
        simp [hleader, Free, hholder]
      refine ⟨a, ha, hfree, fun hbusy => hsame ?_⟩
      rw [← hfree] at hbusy
      simpa using hbusy

structure CoordinationLease.Filled (l : CoordinationLease) : Prop where
  token : l.holderWorkloadId ≠ none → l.holderToken ≠ none
  expires : l.holderWorkloadId = none ↔ l.expiresAt = none

variable {s : LeaseTables} {r : AcquireRequest}

theorem LeaseTables.filled_put {n name : String} {l : CoordinationLease}
    (hs : ∀ l, s.leases name = some l → l.Filled) (hl : l.Filled) :
    ∀ l', (s.put n l).leases name = some l' → l'.Filled := by
  intro l' hl'
  rw [put_leases] at hl'
  split at hl'
  · cases hl'
    exact hl
  · exact hs l' hl'

theorem filled_acquire {now : ℤ} {token : Uuid} {a : LeaseAnswer} {s' : LeaseTables}
    {name : String} (hs : ∀ name l, s.leases name = some l → l.Filled)
    (h : acquireLease r now token s = .ok (a, s')) : ∀ l, s'.leases name = some l → l.Filled := by
  obtain ⟨l, hl, hcase⟩ := acquireLease_cases h
  have hfilled : l.Filled := by
    cases hrow : s.leases r.leaseName with
    | none =>
      rw [hrow] at hl
      cases hl
      exact ⟨by simp, by simp⟩
    | some x =>
      rw [hrow] at hl
      cases hl
      exact hs _ _ hrow
  obtain ⟨k, hrenews, hk, -, -, rfl⟩ | ⟨-, -, -, rfl⟩ | ⟨-, rfl, -⟩ := hcase
  · have hheld : l.holderWorkloadId = some r.workloadId := by
      rw [CoordinationLease.renews, Bool.and_eq_true, decide_eq_true_eq] at hrenews
      exact hrenews.1
    exact LeaseTables.filled_put (hs name) ⟨hfilled.token, by simp [hheld]⟩
  · exact LeaseTables.filled_put (hs name) ⟨by simp, by simp⟩
  · exact LeaseTables.filled_put (hs name) hfilled

theorem LeaseWorld.filled_step {g g' : LeaseWorld} {e : LeaseEvent}
    (hg : ∀ name l, g.tables.leases name = some l → l.Filled) (h : Step g e g') :
    ∀ name l, g'.tables.leases name = some l → l.Filled := by
  intro name
  cases h with
  | tick time _ => exact hg name
  | granted _ hacquire _ => exact filled_acquire hg hacquire
  | denied _ hacquire _ => exact filled_acquire hg hacquire
  | refused _ => exact hg name
  | released hrelease =>
    obtain ⟨l, -, -, -, rfl⟩ := releaseLease_true hrelease
    exact LeaseTables.filled_put (hg name) ⟨by simp, by simp⟩
  | kept hrelease =>
    cases releaseLease_false hrelease
    exact hg name

theorem LeaseWorld.filled {tr : List (LeaseEvent × LeaseWorld)} (h : Trace Step initial tr) :
    ∀ p ∈ tr, ∀ name l, p.2.tables.leases name = some l → l.Filled :=
  h.always (fun _ _ _ hg hstep => filled_step hg hstep) fun _ _ hrow => by cases hrow

theorem acquireLease_granted (now : ℤ) (token : Uuid)
    (hs : ∀ l, s.leases r.leaseName = some l → l.Filled) (hname : r.leaseName ≠ "") (hworkload : r.workloadId ≠ "")
    (httl : 0 < r.ttlSeconds) :
    ∃ a s', acquireLease r now token s = .ok (a, s') ∧
      (a.granted = true ↔ ∀ l, s.leases r.leaseName = some l →
        l.holderWorkloadId = some r.workloadId ∨ l.holderWorkloadId = none ∨
          ∃ t, l.expiresAt = some t ∧ t ≤ now) := by
  simp only [acquireLease, check_of hname, check_of hworkload, check_of httl, ok_bind]
  cases hrow : s.leases r.leaseName with
  | none => exact ⟨_, _, rfl, by simp⟩
  | some l =>
    have hl := hs l hrow
    simp only [Option.getD_some, Option.some.injEq, forall_eq']
    cases hholder : l.holderWorkloadId with
    | none =>
      have hyields : l.yields now = true := by simp [CoordinationLease.yields, hholder]
      have hrenews : l.renews r.workloadId now = false := by simp [CoordinationLease.renews, hholder]
      simp only [hrenews, hyields, Bool.false_eq_true, if_false, if_true]
      exact ⟨_, _, rfl, by simp⟩
    | some w =>
      obtain ⟨k, hk⟩ := Option.ne_none_iff_exists'.mp (hl.token (by simp [hholder]))
      obtain ⟨t, ht⟩ := Option.ne_none_iff_exists'.mp (mt hl.expires.mpr (by simp [hholder]))
      have hrenews : l.renews r.workloadId now = true ↔ w = r.workloadId ∧ now < t := by
        simp [CoordinationLease.renews, hholder, ht]
      have hyields : l.yields now = true ↔ t ≤ now := by simp [CoordinationLease.yields, hholder, ht]
      simp only [hrenews, hyields, hk, ht, found_some, ok_bind, Option.some.injEq, reduceCtorEq, false_or,
        exists_eq_left']
      split
      case isTrue hsame => exact ⟨_, _, rfl, iff_of_true rfl (.inl hsame.1)⟩
      case isFalse hother =>
        split
        case isTrue hover => exact ⟨_, _, rfl, iff_of_true rfl (.inr hover)⟩
        case isFalse hfresh =>
          refine ⟨_, _, rfl, iff_of_false Bool.false_ne_true ?_⟩
          rintro (hw | hover)
          · exact hother ⟨hw, by omega⟩
          · exact hfresh hover

theorem grantsLike_iff {k : K8sLease} {now startedAt : ℤ} {uid : String} {x : Option LeaseObject}
    {token : Uuid} (hx : ∀ o, x = some o → o.Settled)
    (hs : ∀ l, s.leases r.leaseName = some l → l.Filled) (hname : r.leaseName ≠ "") (hworkload : r.workloadId ≠ "")
    (httl : 0 < r.ttlSeconds) (hsame : r.workloadId = k.workloadId) (hnow : now = 1000 * startedAt)
    (hmirrors : Mirrors x (s.leases r.leaseName)) :
    k.GrantsLike now uid x s r startedAt token ↔
      ∀ o, x = some o → ∃ w, o.holder = some w ∧ (w = k.workloadId ∨ o.expiry ≠ some now) := by
  obtain ⟨b, s', hb, hgranted⟩ := acquireLease_granted startedAt token hs hname hworkload httl
  have hlike (a : LeaseAttempt) (ha : (k.attempt now uid x).1 = some a) :
      k.GrantsLike now uid x s r startedAt token ↔ (a.isLeader = true ↔ b.granted = true) := by
    constructor
    · rintro ⟨a', b', t, ha', hb', h⟩
      cases ha.symm.trans ha'
      cases hb.symm.trans hb'
      exact h
    · exact fun h => ⟨a, b, s', ha, hb, h⟩
  obtain ⟨hholder, hexpiry⟩ := hmirrors
  cases x with
  | none =>
    rw [hlike _ rfl, hgranted]
    refine iff_of_true (iff_of_true rfl fun l hl => .inr (.inl ?_)) (by simp)
    simpa [hl, eq_comm] using hholder
  | some o =>
    obtain ⟨a, ha, hleader, -⟩ := attempt_isLeader k now uid (hx o rfl)
    rw [hlike a ha, hleader, hgranted]
    simp only [Option.bind_some, Option.some.injEq, forall_eq'] at hholder hexpiry ⊢
    cases hheld : o.holder with
    | none =>
      -- the object has no time to run out, while the row is there to be taken
      have hnone : ∀ l, s.leases r.leaseName = some l → l.holderWorkloadId = none := by
        intro l hl
        simpa [hheld, hl, eq_comm] using hholder
      have hnever : o.expiry = none := (expiry_none_iff (hx o rfl)).mpr hheld
      simp only [hnever, reduceCtorEq, false_and, exists_false, or_self, false_iff, iff_false]
      exact fun h => h fun l hl => .inr (.inl (hnone l hl))
    | some w =>
      obtain ⟨l, hl, hlw⟩ := Option.bind_eq_some_iff.mp (hholder.symm.trans hheld)
      obtain ⟨t, ht⟩ := Option.ne_none_iff_exists'.mp (mt (hs l hl).expires.mpr (by simp [hlw]))
      have hot : o.expiry = some (1000 * t) := by simpa [hl, ht] using hexpiry
      simp only [hl, hlw, ht, hot, hsame, hnow, Option.some.injEq, forall_eq', exists_eq_left', reduceCtorEq,
        false_or]
      by_cases hw : w = k.workloadId
      · simp [hw]
      · simp only [hw, false_or, ne_eq, Option.some.injEq]
        omega

namespace K8sWorld

variable {ι : Type} [DecidableEq ι] {d : ℤ} {g g' : K8sWorld ι} {e : K8sEvent ι}

end K8sWorld

/-- A call is granted as it should be exactly if the lease has not been released since; it is granted as in
Postgres if moreover another holder's time does not end at this very moment. -/
theorem lease_grant_iff (calls : List LeaseCall) (k : K8sLease) (now : ℤ) (uid : String) :
    (k.GrantsFree now uid (leaseAfter calls) ↔ ∀ o, leaseAfter calls = some o → o.holder ≠ none) ∧
    ∀ (tr : List (LeaseEvent × LeaseWorld)), Trace LeaseWorld.Step .initial tr → ∀ p ∈ tr,
      ∀ (r : AcquireRequest) (startedAt : ℤ) (token : Uuid), r.leaseName ≠ "" → r.workloadId ≠ "" →
        0 < r.ttlSeconds → r.workloadId = k.workloadId → now = 1000 * startedAt →
        Mirrors (leaseAfter calls) (p.2.tables.leases r.leaseName) →
        (k.GrantsLike now uid (leaseAfter calls) p.2.tables r startedAt token ↔
          ∀ o, leaseAfter calls = some o → ∃ w, o.holder = some w ∧ (w = k.workloadId ∨ o.expiry ≠ some now)) := by
  refine ⟨grantsFree_iff (settled_leaseAfter calls), ?_⟩
  intro tr htr p hp r startedAt token hname hworkload httl hsame hnow hmirrors
  exact grantsLike_iff (settled_leaseAfter calls) (LeaseWorld.filled htr p hp r.leaseName) hname hworkload httl hsame
    hnow hmirrors

def firstPod : K8sLease := ⟨"pod-a", 15⟩

def secondPod : K8sLease := ⟨"pod-b", 15⟩

def handedBack : List LeaseCall := [.acquire firstPod 0 "lease-uid", .release firstPod]

/-- A day later nobody holds the lease, and it is not granted. -/
theorem released_lease_denied :
    Free secondPod.workloadId (seconds 86400) (leaseAfter handedBack) ∧
      ((secondPod.attempt (seconds 86400) "other-uid" (leaseAfter handedBack)).1.map LeaseAttempt.isLeader =
        some false) ∧
      (firstPod.attempt (seconds 86400) "other-uid" (leaseAfter handedBack)).1.map LeaseAttempt.isLeader =
        some false := by
  refine ⟨?_, by decide +kernel, by decide +kernel⟩
  intro o ho
  cases ho
  exact .inr (.inl rfl)

def held : List LeaseCall := [.acquire firstPod 0 "lease-uid"]

def podRequest (k : K8sLease) : AcquireRequest := ⟨"usage-poller", k.workloadId, "eu", k.leaseDurationSeconds⟩

/-- Without the release it is granted when its time is over, and so is its row. -/
theorem expired_lease_granted :
    secondPod.GrantsFree (seconds 86400) "other-uid" (leaseAfter held) ∧
      ∃ s : LeaseTables, Mirrors (leaseAfter held) (s.leases "usage-poller") ∧
        secondPod.GrantsLike (seconds 86400) "other-uid" (leaseAfter held) s (podRequest secondPod) 86400000000
          ⟨2, []⟩ := by
  have hiff := lease_grant_iff held secondPod (seconds 86400) "other-uid"
  have hgranted : ∃ a s, acquireLease (podRequest firstPod) 0 ⟨1, []⟩ LeaseWorld.initial.tables = .ok (a, s) ∧
      a.granted = true ∧ Mirrors (leaseAfter held) (s.leases "usage-poller") :=
    ⟨_, _, rfl, rfl, rfl, rfl⟩
  obtain ⟨a, s, hacquire, ha, hmirrors⟩ := hgranted
  refine ⟨hiff.1.mpr ?_, s, hmirrors, ?_⟩
  · intro o ho
    cases ho
    exact Option.some_ne_none _
  · refine (hiff.2 _ (.cons (.granted (Int.le_refl 0) hacquire ha) (.nil _)) _ (List.mem_singleton.mpr rfl)
      (podRequest secondPod) 86400000000 ⟨2, []⟩ (by decide) (by decide) (by decide) rfl rfl hmirrors).mpr ?_
    intro o ho
    cases ho
    exact ⟨"pod-a", rfl, .inr (by decide)⟩

end SpendGuard.Coordination
