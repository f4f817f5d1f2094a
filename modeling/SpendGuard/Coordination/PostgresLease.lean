import SpendGuard.Base.Check
import SpendGuard.Base.Null
import SpendGuard.Base.Run
import SpendGuard.Ledger.Schema

/-!
The leases of the background workers in Postgres: `acquire_lease` and `release_lease`.
-/

namespace SpendGuard.Coordination

open Base Ledger

structure CoordinationLease where
  holderWorkloadId : Option String := none
  holderToken : Option Uuid := none
  region : String
  acquiredAt : Option ℤ := none
  renewedAt : Option ℤ := none
  expiresAt : Option ℤ := none
  transitionCount : ℕ := 0
  lastTransitionNote : Option String := none
  deriving DecidableEq

inductive LeaseEventType
  | acquired
  | renewed
  | released
  | takenOver
  deriving DecidableEq

def LeaseEventType.text : LeaseEventType → String
  | .acquired => "acquired"
  | .renewed => "renewed"
  | .released => "released"
  | .takenOver => "taken_over"

structure LeaseHistory where
  leaseName : String
  transitionCount : ℕ
  holderWorkloadId : String
  holderToken : Uuid
  eventType : LeaseEventType
  note : String
  deriving DecidableEq

structure LeaseTables where
  leases : String → Option CoordinationLease
  history : List LeaseHistory

def LeaseTables.put (s : LeaseTables) (name : String) (l : CoordinationLease) : LeaseTables :=
  { s with leases := Function.update s.leases name (some l) }

def LeaseTables.log (s : LeaseTables) (h : LeaseHistory) : LeaseTables := { s with history := h :: s.history }

structure AcquireRequest where
  leaseName : String
  workloadId : String
  region : String
  ttlSeconds : ℤ

structure LeaseAnswer where
  granted : Bool
  holderToken : Option Uuid
  holderWorkloadId : Option String
  expiresAt : Option ℤ
  transitionCount : ℕ
  eventType : String

namespace CoordinationLease

def renews (l : CoordinationLease) (workload : String) (now : ℤ) : Bool :=
  l.holderWorkloadId = some workload && l.expiresAt.any (now < ·)

def yields (l : CoordinationLease) (now : ℤ) : Bool :=
  l.holderWorkloadId.isNone || l.expiresAt.all (· ≤ now)

def takeoverEvent (l : CoordinationLease) (workload : String) : LeaseEventType :=
  if l.holderWorkloadId = none then .acquired
  else if l.holderWorkloadId = some workload then .acquired
  else .takenOver

def takeoverNote (l : CoordinationLease) : String :=
  match l.holderWorkloadId with
  | some previous => "previous holder " ++ previous
  | none => "first acquire"

end CoordinationLease

def AcquireRequest.expiry (r : AcquireRequest) (now : ℤ) : ℤ := now + r.ttlSeconds * 1000000

/-- `now` is read when the call starts, before it waits for the row; a takeover draws `newToken`. -/
def acquireLease (r : AcquireRequest) (now : ℤ) (newToken : Uuid) (s : LeaseTables) :
    Except String (LeaseAnswer × LeaseTables) := do
  check (r.leaseName ≠ "") "lease_name required"
  check (r.workloadId ≠ "") "workload_id required"
  check (0 < r.ttlSeconds) "ttl_seconds must be > 0"
  let l := (s.leases r.leaseName).getD { region := r.region }
  if l.renews r.workloadId now then
    -- a holder that has not run out has a token
    let token ← found l.holderToken "null value in column \"holder_token\""
    return (⟨true, some token, some r.workloadId, some (r.expiry now), l.transitionCount,
        LeaseEventType.renewed.text⟩,
      (s.put r.leaseName { l with renewedAt := some now, expiresAt := some (r.expiry now) }).log
        ⟨r.leaseName, l.transitionCount, r.workloadId, token, .renewed, "renew within TTL"⟩)
  else if l.yields now then
    return (⟨true, some newToken, some r.workloadId, some (r.expiry now), l.transitionCount + 1,
        (l.takeoverEvent r.workloadId).text⟩,
      (s.put r.leaseName {
        holderWorkloadId := some r.workloadId
        holderToken := some newToken
        region := r.region
        acquiredAt := some now
        renewedAt := some now
        expiresAt := some (r.expiry now)
        transitionCount := l.transitionCount + 1
        lastTransitionNote := some (l.takeoverEvent r.workloadId).text }).log
        ⟨r.leaseName, l.transitionCount + 1, r.workloadId, newToken, l.takeoverEvent r.workloadId,
          l.takeoverNote⟩)
  else
    return (⟨false, l.holderToken, l.holderWorkloadId, l.expiresAt, l.transitionCount, "denied"⟩,
      s.put r.leaseName l)

/-- The columns of a released lease are missing, and so are the comparisons with them. -/
def releaseLease (name workload : String) (token : Uuid) (s : LeaseTables) : Bool × LeaseTables :=
  match s.leases name with
  | none => (false, s)
  | some l =>
    if ((differ l.holderWorkloadId (some workload)).or (differ l.holderToken (some token))).holds then
      (false, s)
    else
      (true, (s.put name { l with
        holderWorkloadId := none
        holderToken := none
        acquiredAt := none
        renewedAt := none
        expiresAt := none
        lastTransitionNote := some "released by holder" }).log
        ⟨name, l.transitionCount, workload, token, .released, "graceful release"⟩)

section Tables

variable {s s' : LeaseTables} {r : AcquireRequest} {now : ℤ} {newToken : Uuid} {a : LeaseAnswer}
  {name workload : String} {token : Uuid} {l : CoordinationLease}

@[simp] theorem LeaseTables.put_leases (n : String) :
    (s.put name l).leases n = if n = name then some l else s.leases n :=
  Function.update_apply s.leases name (some l) n

@[simp] theorem LeaseTables.put_history : (s.put name l).history = s.history := rfl

@[simp] theorem LeaseTables.log_leases (h : LeaseHistory) : (s.log h).leases = s.leases := rfl

@[simp] theorem LeaseTables.log_history (h : LeaseHistory) : (s.log h).history = h :: s.history := rfl

theorem LeaseTables.mem_log {h x : LeaseHistory} (hx : x.leaseName ≠ h.leaseName) :
    x ∈ (s.log h).history ↔ x ∈ s.history := by
  have hne : x ≠ h := fun hxh => hx (hxh ▸ rfl)
  rw [log_history, List.mem_cons, or_iff_right hne]

theorem acquireLease_cases (h : acquireLease r now newToken s = .ok (a, s')) :
    ∃ l, (s.leases r.leaseName).getD { region := r.region } = l ∧
      ((∃ token, l.renews r.workloadId now = true ∧ l.holderToken = some token ∧ a.granted = true ∧
          a.expiresAt = some (r.expiry now) ∧
          s' = (s.put r.leaseName { l with renewedAt := some now, expiresAt := some (r.expiry now) }).log
            ⟨r.leaseName, l.transitionCount, r.workloadId, token, .renewed, "renew within TTL"⟩) ∨
        (l.yields now = true ∧ a.granted = true ∧ a.expiresAt = some (r.expiry now) ∧
          s' = (s.put r.leaseName {
              holderWorkloadId := some r.workloadId
              holderToken := some newToken
              region := r.region
              acquiredAt := some now
              renewedAt := some now
              expiresAt := some (r.expiry now)
              transitionCount := l.transitionCount + 1
              lastTransitionNote := some (l.takeoverEvent r.workloadId).text }).log
            ⟨r.leaseName, l.transitionCount + 1, r.workloadId, newToken, l.takeoverEvent r.workloadId,
              l.takeoverNote⟩) ∨
        (a.granted = false ∧ s' = s.put r.leaseName l ∧ l.holderWorkloadId.isSome = true)) := by
  simp only [acquireLease, check_bind_eq_ok] at h
  obtain ⟨-, -, -, h⟩ := h
  refine ⟨_, rfl, ?_⟩
  generalize (s.leases r.leaseName).getD { region := r.region } = l at h ⊢
  split at h
  case isTrue hrenews =>
    rw [found_bind_eq_ok] at h
    obtain ⟨token, htoken, h⟩ := h
    cases h
    exact .inl ⟨token, hrenews, htoken, rfl, rfl, rfl⟩
  case isFalse =>
    split at h
    case isTrue hyields =>
      cases h
      exact .inr (.inl ⟨hyields, rfl, rfl, rfl⟩)
    case isFalse hyields =>
      cases h
      refine .inr (.inr ⟨rfl, rfl, ?_⟩)
      cases hl : l.holderWorkloadId with
      | none => simp [CoordinationLease.yields, hl] at hyields
      | some w => rfl

theorem releaseLease_false (h : releaseLease name workload token s = (false, s')) : s' = s := by
  unfold releaseLease at h
  split at h
  · cases h
    rfl
  · split at h
    · cases h
      rfl
    · cases h

theorem releaseLease_true (h : releaseLease name workload token s = (true, s')) :
    ∃ l, s.leases name = some l ∧ (∀ w, l.holderWorkloadId = some w → w = workload) ∧
      (∀ k, l.holderToken = some k → k = token) ∧
      s' = (s.put name { l with
        holderWorkloadId := none
        holderToken := none
        acquiredAt := none
        renewedAt := none
        expiresAt := none
        lastTransitionNote := some "released by holder" }).log
        ⟨name, l.transitionCount, workload, token, .released, "graceful release"⟩ := by
  unfold releaseLease at h
  split at h
  · cases h
  case h_2 l hl =>
    split at h
    · cases h
    case isFalse hsame =>
      cases h
      rw [Truth.holds_or, holds_differ, holds_differ, not_or] at hsame
      refine ⟨l, hl, ?_, ?_, rfl⟩
      · intro w hw
        by_contra hne
        exact hsame.1 ⟨w, workload, hw, rfl, hne⟩
      · intro k hk
        by_contra hne
        exact hsame.2 ⟨k, token, hk, rfl, hne⟩

end Tables

/-- The tables, the time, and until when each workload has been told that it holds each lease. -/
structure LeaseWorld where
  tables : LeaseTables
  clock : ℤ
  told : String → String → Option ℤ

inductive LeaseEvent
  | tick (time : ℤ)
  | acquire (r : AcquireRequest) (startedAt : ℤ) (newToken : Uuid)
  | release (name workload : String) (token : Uuid)

namespace LeaseWorld

def initial : LeaseWorld := ⟨⟨fun _ => none, []⟩, 0, fun _ _ => none⟩

def tell (g : LeaseWorld) (name workload : String) (until' : Option ℤ) : String → String → Option ℤ :=
  Function.update g.told name (Function.update (g.told name) workload until')

/-- A caller learns what it holds from a grant, and from its own release that it holds nothing. -/
inductive Step : LeaseWorld → LeaseEvent → LeaseWorld → Prop
  | tick {g} (time : ℤ) : g.clock ≤ time → Step g (.tick time) { g with clock := time }
  | granted {g} {r : AcquireRequest} {startedAt : ℤ} {newToken : Uuid} {a : LeaseAnswer} {s : LeaseTables} :
      startedAt ≤ g.clock → acquireLease r startedAt newToken g.tables = .ok (a, s) → a.granted = true →
      Step g (.acquire r startedAt newToken)
        { g with tables := s, told := g.tell r.leaseName r.workloadId a.expiresAt }
  | denied {g} {r : AcquireRequest} {startedAt : ℤ} {newToken : Uuid} {a : LeaseAnswer} {s : LeaseTables} :
      startedAt ≤ g.clock → acquireLease r startedAt newToken g.tables = .ok (a, s) → a.granted = false →
      Step g (.acquire r startedAt newToken) { g with tables := s }
  | refused {g} {r : AcquireRequest} {startedAt : ℤ} {newToken : Uuid} {e : String} :
      acquireLease r startedAt newToken g.tables = .error e → Step g (.acquire r startedAt newToken) g
  | released {g} {name workload : String} {token : Uuid} {s : LeaseTables} :
      releaseLease name workload token g.tables = (true, s) →
      Step g (.release name workload token) { g with tables := s, told := g.tell name workload none }
  | kept {g} {name workload : String} {token : Uuid} {s : LeaseTables} :
      releaseLease name workload token g.tables = (false, s) →
      Step g (.release name workload token) { g with tables := s }

variable (g : LeaseWorld) (name : String)

def transitionCount : ℕ := ((g.tables.leases name).map CoordinationLease.transitionCount).getD 0

def Recorded (workload : String) (token : Uuid) : Prop :=
  ∃ l, g.tables.leases name = some l ∧ l.holderWorkloadId = some workload ∧ l.holderToken = some token

def Associated (n : ℕ) (p : String × Uuid) : Prop :=
  (g.transitionCount name = n ∧ g.Recorded name p.1 p.2) ∨
    ∃ h ∈ g.tables.history, h.leaseName = name ∧ h.transitionCount = n ∧
      (h.holderWorkloadId, h.holderToken) = p

def Holds (workload : String) : Prop := ∃ t ∈ g.told name workload, g.clock < t

structure Safe (tr : List (LeaseEvent × LeaseWorld)) : Prop where
  monotone : (g :: tr.map Prod.snd).Pairwise fun a b => a.transitionCount name ≤ b.transitionCount name
  owned : ∀ p ∈ tr, ∀ n, 1 ≤ n → n ≤ p.2.transitionCount name → ∃! q, p.2.Associated name n q
  exclusive : ∀ p ∈ tr, ∀ w w', p.2.Holds name w → p.2.Holds name w' → w = w'
  stale : Along (fun g e => ∀ w k, e = .release name w k → ¬g.Recorded name w k →
    releaseLease name w k g.tables = (false, g.tables)) g tr

def ReleasesHeld : LeaseEvent → Prop
  | .release name _ _ => ∀ l, g.tables.leases name = some l → l.holderWorkloadId ≠ none
  | _ => True

/-- Each transition count has had one owner, and whoever was told to hold the lease for longer is the
holder that the row records. -/
structure Kept (owner : ℕ → String × Uuid) : Prop where
  paired : ∀ l, g.tables.leases name = some l → (l.holderWorkloadId = none ↔ l.holderToken = none)
  recorded : ∀ w k, g.Recorded name w k → owner (g.transitionCount name) = (w, k)
  logged : ∀ h ∈ g.tables.history, h.leaseName = name →
    (h.holderWorkloadId, h.holderToken) = owner h.transitionCount ∧
      h.transitionCount ≤ g.transitionCount name
  complete : ∀ n, 1 ≤ n → n ≤ g.transitionCount name →
    ∃ h ∈ g.tables.history, h.leaseName = name ∧ h.transitionCount = n
  told : ∀ w t, g.told name w = some t → t ≤ g.clock ∨
    ∃ l, g.tables.leases name = some l ∧ l.holderWorkloadId = some w ∧ l.expiresAt = some t

variable {g name} {g' : LeaseWorld} {owner : ℕ → String × Uuid} {e : LeaseEvent}

theorem kept_initial (owner : ℕ → String × Uuid) : initial.Kept name owner where
  paired _ h := by cases h
  recorded := by
    rintro w k ⟨l, h, -⟩
    cases h
  logged _ h := by cases h
  complete n hn hle := absurd (Nat.le_trans hn hle) (Nat.not_succ_le_zero 0)
  told _ _ h := by cases h

theorem Kept.frame (hk : g.Kept name owner) (hrow : g'.tables.leases name = g.tables.leases name)
    (hhistory : ∀ h, h.leaseName = name → (h ∈ g'.tables.history ↔ h ∈ g.tables.history))
    (htold : g'.told name = g.told name) (hclock : g.clock ≤ g'.clock) : g'.Kept name owner := by
  have hcount : g'.transitionCount name = g.transitionCount name := by
    rw [transitionCount, transitionCount, hrow]
  constructor
  · rw [hrow]
    exact hk.paired
  · intro w k h
    rw [hcount]
    apply hk.recorded
    rwa [Recorded, hrow] at h
  · intro h hmem hname
    rw [hcount]
    exact hk.logged h ((hhistory h hname).mp hmem) hname
  · intro n hn hle
    rw [hcount] at hle
    obtain ⟨h, hmem, hname, hn⟩ := hk.complete n hn hle
    exact ⟨h, (hhistory h hname).mpr hmem, hname, hn⟩
  · intro w t h
    rw [htold] at h
    rw [hrow]
    exact (hk.told w t h).imp_left fun hle => Int.le_trans hle hclock

theorem Kept.update {l l' : CoordinationLease} {h : LeaseHistory} (hk : g.Kept name owner)
    (hl : g.transitionCount name = l.transitionCount) (hname : h.leaseName = name)
    (hrow : g'.tables.leases name = some l') (hhistory : g'.tables.history = h :: g.tables.history)
    (hcount : h.transitionCount = l'.transitionCount)
    (hpaired : l'.holderWorkloadId = none ↔ l'.holderToken = none)
    (hheld : ∀ w k, l'.holderWorkloadId = some w → l'.holderToken = some k →
      (h.holderWorkloadId, h.holderToken) = (w, k))
    (hnext : (l'.transitionCount = l.transitionCount ∧
        (h.holderWorkloadId, h.holderToken) = owner l.transitionCount) ∨
      l'.transitionCount = l.transitionCount + 1)
    (htold : ∀ w t, g'.told name w = some t → t ≤ g'.clock ∨ l'.holderWorkloadId = some w ∧ l'.expiresAt = some t) :
    ∃ owner', g'.Kept name owner' := by
  have hcount' : g'.transitionCount name = l'.transitionCount := by rw [transitionCount, hrow]; rfl
  -- the pair of the new entry owns the count from here on, if it did not before
  refine ⟨Function.update owner l'.transitionCount (h.holderWorkloadId, h.holderToken), ?_, ?_, ?_, ?_, ?_⟩
  · intro x hx
    rw [hrow] at hx
    cases hx
    exact hpaired
  · rintro w k ⟨x, hx, hw, hk⟩
    rw [hrow] at hx
    cases hx
    rw [hcount', Function.update_self]
    exact hheld w k hw hk
  · intro x hx hxname
    rw [hhistory] at hx
    rw [hcount']
    rcases List.mem_cons.mp hx with rfl | hx
    · rw [hcount, Function.update_self]
      exact ⟨rfl, Nat.le_refl _⟩
    · obtain ⟨hpair, hle⟩ := hk.logged x hx hxname
      rw [hl] at hle
      rcases hnext with ⟨hsame, hown⟩ | hsucc
      · rw [hsame, hown, Function.update_eq_self]
        exact ⟨hpair, hle⟩
      · rw [Function.update_of_ne (by omega)]
        exact ⟨hpair, by omega⟩
  · intro n hn hle
    rw [hcount'] at hle
    rw [hhistory]
    by_cases hnew : n = l'.transitionCount
    · exact ⟨h, List.mem_cons_self .., hname, hcount.trans hnew.symm⟩
    · have hle' : n ≤ g.transitionCount name := by
        rw [hl]
        rcases hnext with ⟨hsame, -⟩ | hsucc <;> omega
      obtain ⟨x, hx, hxname, hxn⟩ := hk.complete n hn hle'
      exact ⟨x, List.mem_cons_of_mem _ hx, hxname, hxn⟩
  · intro w t ht
    rw [hrow]
    exact (htold w t ht).imp_right fun hheld => ⟨l', rfl, hheld⟩

theorem transitionCount_getD (region : String) :
    g.transitionCount name =
      ((g.tables.leases name).getD { region := region }).transitionCount := by
  unfold transitionCount
  cases g.tables.leases name <;> rfl

theorem leases_of_holder {l : CoordinationLease} {region w : String}
    (hl : (g.tables.leases name).getD { region := region } = l) (hw : l.holderWorkloadId = some w) :
    g.tables.leases name = some l := by
  cases hrow : g.tables.leases name with
  | none =>
    rw [hrow] at hl
    cases hl
    cases hw
  | some l' =>
    rw [hrow] at hl
    exact congrArg some hl

theorem tell_self (w w' : String) (t : Option ℤ) :
    g.tell name w t name w' = if w' = w then t else g.told name w' := by
  rw [tell, Function.update_self, Function.update_apply]

theorem tell_of_ne {n : String} (hn : name ≠ n) (w : String) (t : Option ℤ) :
    g.tell n w t name = g.told name :=
  Function.update_of_ne hn _ _

section Acquire

variable {r : AcquireRequest} {startedAt : ℤ} {newToken : Uuid} {a : LeaseAnswer} {s : LeaseTables}

theorem Kept.granted (hk : g.Kept r.leaseName owner) (hstart : startedAt ≤ g.clock)
    (h : acquireLease r startedAt newToken g.tables = .ok (a, s)) (ha : a.granted = true) :
    ∃ owner', ({ g with tables := s, told := g.tell r.leaseName r.workloadId a.expiresAt } :
      LeaseWorld).Kept r.leaseName owner' := by
  obtain ⟨l, hl, hcase⟩ := acquireLease_cases h
  have hcount : g.transitionCount r.leaseName = l.transitionCount := hl ▸ transitionCount_getD r.region
  rcases hcase with ⟨token, hrenews, htoken, -, hexpiry, rfl⟩ | ⟨hyields, -, hexpiry, rfl⟩ | ⟨hdenied, -⟩
  · -- a renewal keeps the pair
    rw [CoordinationLease.renews, Bool.and_eq_true, decide_eq_true_eq] at hrenews
    have hrow := leases_of_holder hl hrenews.1
    refine hk.update hcount rfl (Function.update_self ..) rfl rfl ?_ ?_ (.inl ⟨rfl, ?_⟩) ?_
    · exact hk.paired l hrow
    · intro w k hw htoken'
      rw [hrenews.1] at hw
      rw [htoken] at htoken'
      cases hw
      cases htoken'
      rfl
    · rw [← hcount]
      exact (hk.recorded _ _ ⟨l, hrow, hrenews.1, htoken⟩).symm
    · intro w t ht
      simp only [tell_self] at ht
      split at ht
      case isTrue hw =>
        rw [hexpiry] at ht
        exact .inr ⟨hw ▸ hrenews.1, ht⟩
      case isFalse hw =>
        refine .inl ((hk.told w t ht).resolve_right ?_)
        rintro ⟨x, hx, hxw, -⟩
        rw [hrow] at hx
        cases hx
        rw [hrenews.1] at hxw
        exact hw (Option.some.inj hxw).symm
  · -- a takeover finds that the time of every other workload is over
    refine hk.update hcount rfl (Function.update_self ..) rfl rfl (by simp) ?_ (.inr rfl) ?_
    · intro w k hw htoken
      cases hw
      cases htoken
      rfl
    · intro w t ht
      simp only [tell_self] at ht
      split at ht
      case isTrue hw =>
        rw [hexpiry] at ht
        exact .inr ⟨congrArg some hw.symm, ht⟩
      case isFalse =>
        left
        rcases hk.told w t ht with hle | ⟨x, hx, hxw, hxt⟩
        · exact hle
        · rw [hx] at hl
          cases hl
          rw [CoordinationLease.yields, Option.getD_some, hxw, hxt] at hyields
          exact Int.le_trans (by simpa using hyields) hstart
  · rw [ha] at hdenied
    cases hdenied

theorem acquireLease_denied (h : acquireLease r startedAt newToken g.tables = .ok (a, s))
    (ha : a.granted = false) : s = g.tables := by
  obtain ⟨l, hl, hcase⟩ := acquireLease_cases h
  rcases hcase with ⟨-, -, -, hgranted, -⟩ | ⟨-, hgranted, -⟩ | ⟨-, rfl, hholder⟩
  · rw [ha] at hgranted
    cases hgranted
  · rw [ha] at hgranted
    cases hgranted
  · obtain ⟨w, hw⟩ := Option.isSome_iff_exists.mp hholder
    rw [LeaseTables.put, ← leases_of_holder hl hw, Function.update_eq_self]

theorem acquireLease_other (hname : name ≠ r.leaseName)
    (h : acquireLease r startedAt newToken g.tables = .ok (a, s)) :
    s.leases name = g.tables.leases name ∧
      ∀ x : LeaseHistory, x.leaseName = name → (x ∈ s.history ↔ x ∈ g.tables.history) := by
  obtain ⟨l, -, hcase⟩ := acquireLease_cases h
  rcases hcase with ⟨-, -, -, -, -, rfl⟩ | ⟨-, -, -, rfl⟩ | ⟨-, rfl, -⟩
  · exact ⟨Function.update_of_ne hname _ _, fun x hx => LeaseTables.mem_log (hx ▸ hname)⟩
  · exact ⟨Function.update_of_ne hname _ _, fun x hx => LeaseTables.mem_log (hx ▸ hname)⟩
  · exact ⟨Function.update_of_ne hname _ _, fun x _ => Iff.rfl⟩

end Acquire

section Release

variable {workload : String} {token : Uuid} {s : LeaseTables}

theorem Kept.released (hk : g.Kept name owner) (hheld : g.ReleasesHeld (.release name workload token))
    (h : releaseLease name workload token g.tables = (true, s)) :
    ∃ owner', ({ g with tables := s, told := g.tell name workload none } : LeaseWorld).Kept name owner' := by
  obtain ⟨l, hl, hworkload, htoken, rfl⟩ := releaseLease_true h
  have hcount : g.transitionCount name = l.transitionCount := by rw [transitionCount, hl]; rfl
  obtain ⟨w, hw⟩ := Option.ne_none_iff_exists'.mp (hheld l hl)
  have hsome : l.holderToken ≠ none := fun hnone => hheld l hl ((hk.paired l hl).mpr hnone)
  obtain ⟨k, hk'⟩ := Option.ne_none_iff_exists'.mp hsome
  cases hworkload w hw
  cases htoken k hk'
  refine hk.update hcount rfl (Function.update_self ..) rfl rfl (by simp) ?_ (.inl ⟨rfl, ?_⟩) ?_
  · intro _ _ hnone
    cases hnone
  · rw [← hcount]
    exact (hk.recorded _ _ ⟨l, hl, hw, hk'⟩).symm
  · intro w' t ht
    simp only [tell_self] at ht
    split at ht
    · cases ht
    case isFalse hne =>
      refine .inl ((hk.told w' t ht).resolve_right ?_)
      rintro ⟨x, hx, hxw, -⟩
      rw [hl] at hx
      cases hx
      rw [hw] at hxw
      exact hne (Option.some.inj hxw).symm

theorem releaseLease_other {n : String} (hname : name ≠ n)
    (h : releaseLease n workload token g.tables = (true, s)) :
    s.leases name = g.tables.leases name ∧
      ∀ x : LeaseHistory, x.leaseName = name → (x ∈ s.history ↔ x ∈ g.tables.history) := by
  obtain ⟨l, -, -, -, rfl⟩ := releaseLease_true h
  exact ⟨Function.update_of_ne hname _ _, fun x hx => LeaseTables.mem_log (hx ▸ hname)⟩

end Release

theorem Kept.step (hk : g.Kept name owner) (hheld : g.ReleasesHeld e) (h : Step g e g') :
    ∃ owner', g'.Kept name owner' := by
  cases h with
  | tick time htime => exact ⟨owner, hk.frame rfl (fun _ _ => Iff.rfl) rfl htime⟩
  | @granted r startedAt newToken a s hstart hacquire ha =>
    by_cases hname : name = r.leaseName
    · subst hname
      exact hk.granted hstart hacquire ha
    · obtain ⟨hrow, hhistory⟩ := acquireLease_other hname hacquire
      exact ⟨owner, hk.frame hrow hhistory (tell_of_ne hname _ _) (Int.le_refl _)⟩
  | denied _ hacquire ha =>
    cases acquireLease_denied hacquire ha
    exact ⟨owner, hk⟩
  | refused => exact ⟨owner, hk⟩
  | @released n w k s hrelease =>
    by_cases hname : name = n
    · subst hname
      exact hk.released hheld hrelease
    · obtain ⟨hrow, hhistory⟩ := releaseLease_other hname hrelease
      exact ⟨owner, hk.frame hrow hhistory (tell_of_ne hname _ _) (Int.le_refl _)⟩
  | kept hrelease =>
    cases releaseLease_false hrelease
    exact ⟨owner, hk⟩

theorem Step.transitionCount_le (h : Step g e g') (name : String) :
    g.transitionCount name ≤ g'.transitionCount name := by
  have hput {s : LeaseTables} {n : String} {l : CoordinationLease} (hs : s.leases = (g.tables.put n l).leases)
      (hle : g.transitionCount n ≤ l.transitionCount) :
      g.transitionCount name ≤ ((s.leases name).map CoordinationLease.transitionCount).getD 0 := by
    by_cases hname : name = n
    · subst hname
      simpa [hs] using hle
    · simp [transitionCount, hs, hname]
  cases h with
  | tick time _ => exact Nat.le_refl _
  | @granted r startedAt newToken a s _ hacquire ha =>
    obtain ⟨l, hl, hcase⟩ := acquireLease_cases hacquire
    have hcount : g.transitionCount r.leaseName = l.transitionCount := hl ▸ transitionCount_getD r.region
    rcases hcase with ⟨-, -, -, -, -, rfl⟩ | ⟨-, -, -, rfl⟩ | ⟨-, rfl, -⟩
    · apply hput rfl
      exact Nat.le_of_eq hcount
    · apply hput rfl
      exact hcount ▸ Nat.le_succ _
    · apply hput rfl
      exact Nat.le_of_eq hcount
  | denied _ hacquire ha =>
    cases acquireLease_denied hacquire ha
    exact Nat.le_refl _
  | refused => exact Nat.le_refl _
  | released hrelease =>
    obtain ⟨l, hl, -, -, rfl⟩ := releaseLease_true hrelease
    apply hput rfl
    simp [transitionCount, hl]
  | kept hrelease =>
    cases releaseLease_false hrelease
    exact Nat.le_refl _

theorem Kept.associated (hk : g.Kept name owner) {n : ℕ} (hn : 1 ≤ n) (hle : n ≤ g.transitionCount name) :
    ∃! p, g.Associated name n p := by
  obtain ⟨h, hmem, hname, hcount⟩ := hk.complete n hn hle
  refine ⟨owner n, .inr ⟨h, hmem, hname, hcount, ?_⟩, ?_⟩
  · rw [(hk.logged h hmem hname).1, hcount]
  · rintro p (⟨hcount, hrecorded⟩ | ⟨x, hx, hxname, hxcount, rfl⟩)
    · rw [← hcount, hk.recorded p.1 p.2 hrecorded]
    · rw [(hk.logged x hx hxname).1, hxcount]

theorem Kept.exclusive (hk : g.Kept name owner) {w w' : String} (hw : g.Holds name w)
    (hw' : g.Holds name w') : w = w' := by
  have hrow (w : String) (hw : g.Holds name w) :
      ∃ l, g.tables.leases name = some l ∧ l.holderWorkloadId = some w := by
    obtain ⟨t, ht, hlt⟩ := hw
    rcases hk.told w t ht with hle | ⟨l, hl, hholder, -⟩
    · exact absurd hle (Int.not_le.mpr hlt)
    · exact ⟨l, hl, hholder⟩
  obtain ⟨l, hl, hholder⟩ := hrow w hw
  obtain ⟨l', hl', hholder'⟩ := hrow w' hw'
  rw [hl] at hl'
  cases hl'
  rw [hholder] at hholder'
  exact Option.some.inj hholder'

theorem Kept.stale (hk : g.Kept name owner) {w : String} {k : Uuid}
    (hheld : g.ReleasesHeld (.release name w k)) (hother : ¬g.Recorded name w k) :
    releaseLease name w k g.tables = (false, g.tables) := by
  cases hrelease : releaseLease name w k g.tables with
  | mk b s =>
    cases b with
    | false => rw [releaseLease_false hrelease]
    | true =>
      obtain ⟨l, hl, hworkload, htoken, -⟩ := releaseLease_true hrelease
      obtain ⟨w', hw'⟩ := Option.ne_none_iff_exists'.mp (hheld l hl)
      have hsome : l.holderToken ≠ none := fun hnone => hheld l hl ((hk.paired l hl).mpr hnone)
      obtain ⟨k', hk'⟩ := Option.ne_none_iff_exists'.mp hsome
      exact absurd ⟨l, hl, hworkload w' hw' ▸ hw', htoken k' hk' ▸ hk'⟩ hother

theorem releaseLease_released {l : CoordinationLease} (hl : g.tables.leases name = some l)
    (hholder : l.holderWorkloadId = none) (htoken : l.holderToken = none) (w : String) (k : Uuid) :
    ¬g.Recorded name w k ∧ (releaseLease name w k g.tables).1 = true := by
  constructor
  · rintro ⟨x, hx, hxw, -⟩
    rw [hl] at hx
    cases hx
    rw [hholder] at hxw
    cases hxw
  · simp [releaseLease, hl, hholder, htoken, differ, Truth.or, Truth.holds]

def AllKept (g : LeaseWorld) : Prop := ∀ name, ∃ owner, g.Kept name owner

theorem AllKept.step (hk : g.AllKept) (hheld : g.ReleasesHeld e) (h : Step g e g') : g'.AllKept := by
  intro name
  obtain ⟨owner, hk⟩ := hk name
  exact hk.step hheld h

theorem AllKept.stale_iff (hk : g.AllKept) :
    (∀ name w k, e = .release name w k → ¬g.Recorded name w k →
        releaseLease name w k g.tables = (false, g.tables)) ↔ g.ReleasesHeld e := by
  constructor
  · intro hstale
    cases e with
    | tick => trivial
    | acquire => trivial
    | release name w k =>
      intro l hl hholder
      obtain ⟨owner, hk⟩ := hk name
      obtain ⟨hother, htrue⟩ := releaseLease_released hl hholder ((hk.paired l hl).mp hholder) w k
      rw [hstale name w k rfl hother] at htrue
      cases htrue
  · rintro hheld name w k rfl hother
    obtain ⟨owner, hk⟩ := hk name
    exact hk.stale hheld hother

end LeaseWorld

open LeaseWorld in
/-- The leases are safe along a run exactly if no release in it finds a lease that nobody holds. -/
theorem coordinationLease_safe_iff {tr : List (LeaseEvent × LeaseWorld)} (h : Trace Step initial tr) :
    (∀ name, initial.Safe name tr) ↔ Along ReleasesHeld initial tr := by
  have hinitial : initial.AllKept := fun name => ⟨fun _ => ("", ⟨0, []⟩), kept_initial _⟩
  have hstep (g : LeaseWorld) (e : LeaseEvent) (g' : LeaseWorld) (hk : g.AllKept) (hheld : g.ReleasesHeld e)
      (hs : Step g e g') : g'.AllKept := hk.step hheld hs
  have hstale := h.along_iff hstep (fun g e hk => hk.stale_iff) hinitial
  constructor
  · intro hsafe
    exact hstale.mp (Along.forall_iff.mpr fun name => (hsafe name).stale)
  · intro hheld name
    have hkept := h.invariant hheld hstep hinitial
    constructor
    · exact h.pairwise (I := fun _ => True) (fun _ _ _ _ _ => trivial) trivial (fun _ _ _ => Nat.le_trans)
        fun _ _ _ _ hs => hs.transitionCount_le name
    · intro p hp n hn hle
      obtain ⟨owner, hk⟩ := hkept p hp name
      exact hk.associated hn hle
    · intro p hp w w' hw hw'
      obtain ⟨owner, hk⟩ := hkept p hp name
      exact hk.exclusive hw hw'
    · exact Along.forall_iff.mp (hstale.mpr hheld) name

section Worker

open LeaseWorld

def worker : AcquireRequest := ⟨"outbox-forwarder", "pod-a", "us-east-1", 30⟩

def taken : LeaseTables :=
  (initial.tables.put "outbox-forwarder" {
    holderWorkloadId := some "pod-a"
    holderToken := some ⟨7, []⟩
    region := "us-east-1"
    acquiredAt := some 0
    renewedAt := some 0
    expiresAt := some 30000000
    transitionCount := 1
    lastTransitionNote := some "acquired" }).log
    ⟨"outbox-forwarder", 1, "pod-a", ⟨7, []⟩, .acquired, "first acquire"⟩

def takenWorld : LeaseWorld := ⟨taken, 0, initial.tell "outbox-forwarder" "pod-a" (some 30000000)⟩

def givenBack : LeaseWorld where
  tables := (releaseLease "outbox-forwarder" "pod-a" ⟨7, []⟩ taken).2
  clock := 0
  told := takenWorld.tell "outbox-forwarder" "pod-a" none

def givenBackAgain : LeaseWorld where
  tables := (releaseLease "outbox-forwarder" "pod-b" ⟨9, []⟩ givenBack.tables).2
  clock := 0
  told := givenBack.tell "outbox-forwarder" "pod-b" none

theorem worker_taken : Step initial (.acquire worker 0 ⟨7, []⟩) takenWorld :=
  .granted (a := ⟨true, some ⟨7, []⟩, some "pod-a", some 30000000, 1, "acquired"⟩) (Int.le_refl _) rfl rfl

theorem worker_givenBack : Step takenWorld (.release "outbox-forwarder" "pod-a" ⟨7, []⟩) givenBack :=
  .released (Prod.ext (by decide +kernel) rfl)

/-- Once the lease is given back, a worker that never held it releases it again, with any token, and
becomes a second owner of the first transition. -/
theorem givenBack_released_again :
    Trace Step initial [(.acquire worker 0 ⟨7, []⟩, takenWorld),
        (.release "outbox-forwarder" "pod-a" ⟨7, []⟩, givenBack),
        (.release "outbox-forwarder" "pod-b" ⟨9, []⟩, givenBackAgain)] ∧
      (releaseLease "outbox-forwarder" "pod-b" ⟨9, []⟩ givenBack.tables).1 = true ∧
      givenBackAgain.tables.history.map (fun h => (h.transitionCount, h.holderWorkloadId, h.holderToken)) =
        [(1, "pod-b", ⟨9, []⟩), (1, "pod-a", ⟨7, []⟩), (1, "pod-a", ⟨7, []⟩)] := by
  refine ⟨.cons worker_taken (.cons worker_givenBack (.cons (.released (Prod.ext ?_ rfl)) (.nil _))), ?_, ?_⟩
  · decide +kernel
  · decide +kernel
  · decide +kernel

theorem worker_safe :
    Trace Step initial [(.acquire worker 0 ⟨7, []⟩, takenWorld),
        (.release "outbox-forwarder" "pod-a" ⟨7, []⟩, givenBack)] ∧
      ∀ name, initial.Safe name [(.acquire worker 0 ⟨7, []⟩, takenWorld),
        (.release "outbox-forwarder" "pod-a" ⟨7, []⟩, givenBack)] := by
  have htrace := Trace.cons worker_taken (.cons worker_givenBack (.nil _))
  refine ⟨htrace, (coordinationLease_safe_iff htrace).mpr ⟨trivial, ?_, trivial⟩⟩
  intro l hl
  cases hl
  exact Option.some_ne_none _

end Worker

end SpendGuard.Coordination
