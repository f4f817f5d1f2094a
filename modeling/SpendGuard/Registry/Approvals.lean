import SpendGuard.Registry.Publish
import SpendGuard.Base.Run

/-!
Approved patches and the tasks that apply them: notifications, the scan at the start, and the periodic sweep,
which reads its list once and then works through it while new patches are approved.
-/

namespace SpendGuard.Registry

open Base Ledger Sidecar

inductive Target
  | budget (id : String) (leaf : Leaf)
  | rule (n : ℕ) (leaf : Leaf)
  deriving DecidableEq

def leafOf (path : String) : Option (Leaf × ℕ) := do
  let parts ← Json.slashed path
  let idx ← parts[2]?
  let n ← Json.index? idx.toList
  let leaf ← [Leaf.limitAmountAtomic, .reservationTtlSeconds, .claimAmountAtomicGt, .decision, .approverRole].find?
    fun leaf => leaf.parts n = parts
  return (leaf, n)

def pinOf (path : String) : Option ℕ := do
  let parts ← Json.slashed path
  let idx ← parts[2]?
  let n ← Json.index? idx.toList
  if idParts n = parts then some n else none

def typedOp (op : Json) : Option PatchOp :=
  match op.get? "op", op.get? "path", op.get? "value" with
  | some (.str "test"), some (.str path), some (.str id) => (pinOf path).map fun i => .pin i id
  | some (.str "replace"), some (.str path), some v => (leafOf path).map fun l => .write l.1 l.2 v
  | _, _, _ => none

def patchOps : Json → List PatchOp
  | .arr ops => ops.filterMap typedOp
  | _ => []

def pinAt (ps : List PatchOp) (i : ℕ) : Option String :=
  ps.findSome? fun
    | .pin j id => if j = i then some id else none
    | .write _ _ _ => none

def PatchOp.target (ps : List PatchOp) : PatchOp → Option Target
  | .pin _ _ => none
  | .write leaf n _ => if leaf.isBudget then (pinAt ps n).map fun id => .budget id leaf else some (.rule n leaf)

def lastValue (ps : List PatchOp) (t : Target) : List PatchOp → Option Json
  | [] => none
  | op :: rest => (lastValue ps t rest).or (if op.target ps = some t then some op.value else none)

def writtenValue (patch : Json) (t : Target) : Option Json := lastValue (patchOps patch) t (patchOps patch)

def position (doc : Json) (id : String) : Option ℕ := (budgetIds doc).findIdx? fun v => v = some (.str id)

def Target.value? (doc : Json) : Target → Option Json
  | .budget id leaf => position doc id >>= fun j => doc.pointer? (leaf.parts j)
  | .rule n leaf => doc.pointer? (leaf.parts n)

namespace Target

def leaf : Target → Leaf
  | .budget _ leaf => leaf
  | .rule _ leaf => leaf

def location (doc : Json) : Target → Option ℕ
  | .budget id _ => position doc id
  | .rule n _ => some n

def WellFormed : Target → Prop
  | .budget _ leaf => leaf.isBudget = true
  | .rule _ leaf => leaf.isBudget = false

end Target

structure ApprovedPatch where
  approvalId : ℕ
  resolvedAt : ℤ
  patch : Json
  valid : validate patch = .ok ()
  deriving DecidableEq

namespace ApprovedPatch

def key (a : ApprovedPatch) : ℤ ×ₗ ℕ := toLex (a.resolvedAt, a.approvalId)

def writes (a : ApprovedPatch) (t : Target) : Bool := (writtenValue a.patch t).isSome

end ApprovedPatch

structure RegistryState (Archive : Type) where
  disk : Disk Archive
  approved : List ApprovedPatch := []
  /-- What each sweep in progress has still to apply. -/
  sweeps : ℕ → List ApprovedPatch := fun _ => []
  /-- The patches applied so far, the last one first. -/
  log : List ApprovedPatch := []

inductive RegistryEvent
  | approve (a : ApprovedPatch)
  | notified (a : ApprovedPatch)
  | scan (k : ℕ)
  | next (k : ℕ)

section Steps

variable {Archive Text : Type} (other : Json → Json → Option Json) (pk : Packing Archive Text)

/-- `process_approval` of an approved row, under the lock. -/
def RegistryState.processApproval (s : RegistryState Archive) (a : ApprovedPatch) :
    Except String (RegistryState Archive) := do
  let (_, states) ← applyUnderLock other pk a.patch s.disk
  return { s with disk := states.getLastD s.disk, log := a :: s.log }

def RegistryState.step (s : RegistryState Archive) : RegistryEvent → Except String (RegistryState Archive)
  | .approve a => do
    check (∀ b ∈ s.approved, b.approvalId ≠ a.approvalId) "duplicate approval_id"
    return { s with approved := a :: s.approved }
  | .notified a => do
    check (a ∈ s.approved) "not found"
    s.processApproval other pk a
  | .scan k => do
    check (s.sweeps k = []) "in progress"
    return { s with sweeps := Function.update s.sweeps k (s.approved.insertionSort fun a b => a.key ≤ b.key) }
  | .next k =>
    match s.sweeps k with
    | [] => .error "nothing to apply"
    | a :: rest => do
      let s' ← s.processApproval other pk a
      return { s' with sweeps := Function.update s.sweeps k rest }

def document (tgz : Archive) : Except String Json := do
  let (contractYaml, _) ← pk.read tgz
  pk.yaml.read contractYaml

end Steps

section Targets

variable {op doc doc' : Json} {p : PatchOp} {ps : List PatchOp} {leaf leaf' : Leaf} {n m j : ℕ} {at' : ℕ → ℕ}
  {t : Target} {other : Json → Json → Option Json}

theorem Plain.slashed {parts : List String} (h : Plain parts) : Json.slashed (Json.pathOf parts) = some parts :=
  Json.slashed_pathOf h.1 fun s hs => (h.2 s hs).1

theorem eq_of_leafParts_prefixed (h : leaf.parts n <+: leaf'.parts m) : leaf = leaf' ∧ n = m := by
  cases leaf <;> cases leaf' <;> simp [Leaf.parts, List.cons_prefix_cons] at h
  all_goals exact ⟨rfl, h⟩

theorem leafOf_pathOf (leaf : Leaf) (n : ℕ) : leafOf (Json.pathOf (leaf.parts n)) = some (leaf, n) := by
  have hindex : (leaf.parts n)[2]? = some (toString n) := by cases leaf <;> rfl
  rw [leafOf, (plain_leafParts leaf n).slashed, Option.bind_eq_bind, Option.bind_some, hindex, Option.bind_eq_bind,
    Option.bind_some, Json.index?_toString]
  cases leaf <;> simp [Leaf.parts]

theorem pinOf_pathOf (i : ℕ) : pinOf (Json.pathOf (idParts i)) = some i := by
  have hindex : (idParts i)[2]? = some (toString i) := rfl
  rw [pinOf, (plain_idParts i).slashed, Option.bind_eq_bind, Option.bind_some, hindex, Option.bind_eq_bind,
    Option.bind_some, Json.index?_toString]
  simp

theorem Reads.typedOp (h : Reads op p) : typedOp op = some p := by
  cases p with
  | pin i id =>
    rw [Registry.typedOp, h.kind, h.path, h.value]
    simp [PatchOp.kind, PatchOp.value, PatchOp.parts, pinOf_pathOf]
  | write leaf n v =>
    rw [Registry.typedOp, h.kind, h.path, h.value]
    simp [PatchOp.kind, PatchOp.value, PatchOp.parts, leafOf_pathOf]

theorem patchOps_eq {ops : List Json} (h : List.Forall₂ Reads ops ps) : patchOps (.arr ops) = ps := by
  rw [patchOps]
  induction h with
  | nil => rfl
  | cons hop _ ih => rw [List.filterMap_cons, hop.typedOp, ih]

variable {i : ℕ} {id : String}

theorem mem_of_pinAt (h : pinAt ps i = some id) : PatchOp.pin i id ∈ ps := by
  obtain ⟨p, hp, hid⟩ := List.exists_of_findSome?_eq_some h
  cases p with
  | pin j id' =>
    simp only [Option.ite_none_right_eq_some, Option.some.injEq] at hid
    rw [← hid.1, ← hid.2]
    exact hp
  | write leaf n v => cases hid

theorem pinAt_isSome (h : PatchOp.pin i id ∈ ps) : (pinAt ps i).isSome = true := by
  rw [pinAt, List.findSome?_isSome_iff]
  exact ⟨_, h, by simp⟩

theorem getElem?_of_position (h : position doc id = some j) :
    (budgetIds doc)[j]? = some (some (.str id)) := by
  obtain ⟨hj, hid, -⟩ := List.findIdx?_eq_some_iff_getElem.mp h
  rw [List.getElem?_eq_getElem hj, of_decide_eq_true hid]

theorem strOf_id_iff {v : Json} (hid : id ≠ "") : strOf v "id" = id ↔ v.get? "id" = some (.str id) := by
  constructor
  · intro h
    rw [strOf] at h
    cases hv : v.get? "id" >>= Json.asStr? with
    | none =>
      rw [hv] at h
      exact absurd h.symm hid
    | some s =>
      rw [hv] at h
      cases h
      exact get?_of_asStr? hv
  · exact strOf_eq

theorem position_eq_findIdx? (hid : id ≠ "") :
    position doc id = (budgetsOf doc).findIdx? fun b => strOf b "id" = id := by
  have hsame : ((fun v => decide (v = some (Json.str id))) ∘ fun b : Json => b.get? "id") =
      fun b => decide (strOf b "id" = id) := by
    funext b
    exact decide_eq_decide.mpr (strOf_id_iff hid).symm
  rw [position, budgetIds, List.findIdx?_map, hsame]

theorem id_ne_empty (h : (PatchOp.pin i id).Acceptable) : id ≠ "" := by
  rintro rfl
  have hempty : validateUuidValue (.str "") ≠ .ok () := by decide
  exact hempty h

theorem position_pinned {rd : DocumentReader} {y : YamlContract} {ops : List Json} {pinned : List (ℕ × String)}
    (hread : rd.readContract doc = some y) (hok : ∀ p ∈ ps, p.Acceptable)
    (hreads : List.Forall₂ Reads ops ps) (hpinned : pinnedIds [] ops = .ok pinned)
    (hscoped : Scoped (moved (remapOf (budgetsOf doc) pinned)) ps doc doc') (hpin : PatchOp.pin i id ∈ ps) :
    position doc id = some (moved (remapOf (budgetsOf doc) pinned) i) := by
  have hid := id_ne_empty (hok _ hpin)
  have hmoved : moved (remapOf (budgetsOf doc) pinned) i = _ :=
    moved_remapOf (pinnedIds_nodup hpinned (by simp)) ((pinnedIds_ok hreads hpinned).2 i id hpin)
  have htest := hscoped.pins i id hpin
  generalize moved (remapOf (budgetsOf doc) pinned) i = j at hmoved htest
  rw [pointer?_idParts, ← getElem?_budgetsOf hread] at htest
  obtain ⟨b, hb, hbid⟩ := Option.bind_eq_some_iff.mp htest
  rw [position_eq_findIdx? hid]
  cases hfirst : (budgetsOf doc).findIdx? fun b => strOf b "id" = id with
  | none =>
    have hnone := List.findIdx?_eq_none_iff.mp hfirst b (List.mem_of_getElem? hb)
    exact absurd ((strOf_id_iff hid).mpr hbid) (of_decide_eq_false hnone)
  | some p =>
    -- nothing before `p` has the id, and `j` is not after it
    obtain ⟨hp, -, hbefore⟩ := List.findIdx?_eq_some_iff_getElem.mp hfirst
    obtain ⟨hj, hjb⟩ := List.getElem?_eq_some_iff.mp hb
    have hle : j ≤ p := by
      rw [hmoved, hfirst]
      exact Nat.mod_le p (2 ^ 32)
    have hnot : ¬j < p := by
      intro hlt
      refine hbefore j hlt ?_
      rw [hjb]
      exact decide_eq_true ((strOf_id_iff hid).mpr hbid)
    rw [Nat.le_antisymm hle (Nat.le_of_not_lt hnot)]

theorem value?_eq (t : Target) (doc : Json) :
    t.value? doc = t.location doc >>= fun j => doc.pointer? (t.leaf.parts j) := by
  cases t with
  | budget id leaf => rfl
  | rule n leaf => rfl

theorem target_eq_some_iff {v : Json} (hpins : ∀ i id, pinAt ps i = some id → position doc id = some (at' i))
    (hpinned : leaf.isBudget = true → (pinAt ps n).isSome = true) (hwf : t.WellFormed) :
    (PatchOp.write leaf n v).target ps = some t ↔
      leaf = t.leaf ∧ t.location doc = some (PatchOp.written at' leaf n) := by
  cases hleaf : leaf.isBudget with
  | true =>
    obtain ⟨id, hid⟩ := Option.isSome_iff_exists.mp (hpinned hleaf)
    have hposition := hpins n id hid
    rw [PatchOp.target, if_pos hleaf, hid, Option.map_some, PatchOp.written, if_pos hleaf]
    cases t with
    | budget id' leaf' =>
      constructor
      · intro heq
        cases heq
        exact ⟨rfl, hposition⟩
      · rintro ⟨rfl, hloc⟩
        have hsame := (getElem?_of_position hposition).symm.trans (getElem?_of_position hloc)
        cases hsame
        rfl
    | rule m leaf' =>
      refine ⟨by simp, ?_⟩
      rintro ⟨rfl, -⟩
      exact absurd (hleaf.symm.trans hwf) (by decide)
  | false =>
    rw [PatchOp.target, hleaf, PatchOp.written, hleaf]
    cases t with
    | budget id' leaf' =>
      refine ⟨by simp, ?_⟩
      rintro ⟨rfl, -⟩
      exact absurd (hleaf.symm.trans hwf) (by decide)
    | rule m leaf' =>
      simp [Target.leaf, Target.location, eq_comm, and_comm]

def lastWrite (at' : ℕ → ℕ) (leaf : Leaf) (j : ℕ) : List PatchOp → Option Json
  | [] => none
  | .pin _ _ :: rest => lastWrite at' leaf j rest
  | .write l n v :: rest =>
    (lastWrite at' leaf j rest).or (if l = leaf ∧ PatchOp.written at' l n = j then some v else none)

theorem pointer?_patched (h : doc.patch other (ps.map (PatchOp.operation at')) = some doc') :
    doc'.pointer? (leaf.parts j) = (lastWrite at' leaf j ps).or (doc.pointer? (leaf.parts j)) := by
  induction ps generalizing doc with
  | nil =>
    cases h
    rfl
  | cons p ps ih =>
    obtain ⟨mid, hmid, hrest⟩ := Option.bind_eq_some_iff.mp h
    rw [ih hrest]
    cases p with
    | pin i id =>
      obtain ⟨rfl, -⟩ := Json.apply_test hmid
      rfl
    | write l n v =>
      have hreplace : doc.replace? (l.parts (PatchOp.written at' l n)) v = some mid := hmid
      rw [lastWrite, Option.or_assoc]
      split
      case isTrue heq =>
        obtain ⟨rfl, rfl⟩ := heq
        rw [Json.pointer?_replace?_self hreplace, Option.some_or]
      case isFalse hne =>
        have hprefix : ¬l.parts (PatchOp.written at' l n) <+: leaf.parts j := fun h => hne (eq_of_leafParts_prefixed h)
        have hprefix' : ¬leaf.parts j <+: l.parts (PatchOp.written at' l n) := fun h =>
          hne ⟨(eq_of_leafParts_prefixed h).1.symm, (eq_of_leafParts_prefixed h).2.symm⟩
        rw [Json.pointer?_replace?_of_not_prefix hreplace hprefix hprefix', Option.none_or]

theorem lastValue_eq (hpins : ∀ i id, pinAt ps i = some id → position doc id = some (at' i)) (hpinned : Pinned ps)
    (hwf : t.WellFormed) {l : List PatchOp} (hl : ∀ p ∈ l, p ∈ ps) :
    lastValue ps t l = t.location doc >>= fun j => lastWrite at' t.leaf j l := by
  induction l with
  | nil =>
    cases t.location doc with
    | none => rfl
    | some j => rfl
  | cons p l ih =>
    rw [List.forall_mem_cons] at hl
    rw [lastValue, ih hl.2]
    cases p with
    | pin i id =>
      rw [PatchOp.target, if_neg (by simp), Option.or_none]
      rfl
    | write leaf n v =>
      have hiff := target_eq_some_iff (v := v) hpins (fun hbudget => by
        obtain ⟨id, hid⟩ := hpinned leaf n v hl.1 hbudget
        exact pinAt_isSome hid) hwf
      cases hloc : t.location doc with
      | none =>
        rw [hloc] at hiff
        rw [if_neg (by simp [hiff])]
        rfl
      | some j =>
        rw [hloc] at hiff
        show (lastWrite at' t.leaf j l).or _ = (lastWrite at' t.leaf j l).or _
        congr 1
        by_cases heq : leaf = t.leaf ∧ PatchOp.written at' leaf n = j
        · rw [if_pos heq, if_pos (hiff.mpr ⟨heq.1, by rw [heq.2]⟩)]
          rfl
        · rw [if_neg heq, if_neg]
          intro htarget
          obtain ⟨hleaf, hj⟩ := hiff.mp htarget
          exact heq ⟨hleaf, (Option.some.inj hj).symm⟩

theorem value?_congr (hids : budgetIds doc' = budgetIds doc) (t : Target) : t.location doc' = t.location doc := by
  cases t with
  | budget id leaf => rw [Target.location, Target.location, position, hids, position]
  | rule n leaf => rfl

theorem value?_applyPatch {rd : DocumentReader} {y : YamlContract} {patch : Json} {u : Unit}
    (hvalid : validate patch = .ok u) (hread : rd.readContract doc = some y)
    (happly : applyPatch other patch doc = .ok doc') :
    (∃ y', rd.readContract doc' = some y') ∧
    ∀ t : Target, t.WellFormed → t.value? doc' = (writtenValue patch t).or (t.value? doc) := by
  obtain ⟨ops, ps, rfl, hreads, hok, hpins⟩ := validate_ok hvalid
  obtain ⟨pinned, hpinned, hpatch⟩ := applyPatch_remapped hreads happly
  obtain ⟨y', hread', -⟩ := readContract_patched hok hpatch hread
  have hscoped := patch_scoped hpatch
  refine ⟨⟨y', hread'⟩, fun t hwf => ?_⟩
  have hposition (i : ℕ) (id : String) (h : pinAt ps i = some id) :=
    position_pinned hread hok hreads hpinned hscoped (mem_of_pinAt h)
  rw [writtenValue, patchOps_eq hreads, lastValue_eq hposition hpins hwf fun _ hp => hp, value?_eq, value?_eq,
    value?_congr (hscoped.budgetIds hread hread')]
  cases t.location doc with
  | none => rfl
  | some j => exact pointer?_patched hpatch

theorem wellFormed_of_target (h : p.target ps = some t) : t.WellFormed := by
  cases p with
  | pin i id => cases h
  | write leaf n v =>
    rw [PatchOp.target] at h
    split at h
    case isTrue hleaf =>
      obtain ⟨id, -, rfl⟩ := Option.map_eq_some_iff.mp h
      exact hleaf
    case isFalse hleaf =>
      cases h
      exact Bool.eq_false_iff.mpr hleaf

theorem wellFormed_of_lastValue {l : List PatchOp} (h : (lastValue ps t l).isSome = true) : t.WellFormed := by
  induction l with
  | nil => cases h
  | cons p l ih =>
    rw [lastValue, Option.isSome_or, Bool.or_eq_true] at h
    refine h.elim ih fun h => ?_
    split at h
    case isTrue htarget => exact wellFormed_of_target htarget
    case isFalse => cases h

end Targets

namespace RegistryState

variable {Archive Text : Type} {other : Json → Json → Option Json} {pk : Packing Archive Text}
  {s s' : RegistryState Archive} {e : RegistryEvent} {a b : ApprovedPatch} {sw : ℕ → List ApprovedPatch} {doc : Json}

def applied (s : RegistryState Archive) : RegistryEvent → Option (ApprovedPatch × (ℕ → List ApprovedPatch))
  | .notified a => some (a, s.sweeps)
  | .next k =>
    match s.sweeps k with
    | [] => none
    | a :: rest => some (a, Function.update s.sweeps k rest)
  | .approve _ | .scan _ => none

/-- A patch is not applied over a later one of the same leaf, unless a sweep has that one still to apply. -/
def InOrder (s : RegistryState Archive) (e : RegistryEvent) : Prop :=
  ∀ a sw, s.applied e = some (a, sw) → ∀ b ∈ s.log, a.key < b.key → (∃ t, a.writes t ∧ b.writes t) → ∃ k, b ∈ sw k

variable (other pk) in
def NoCollision (s : RegistryState Archive) (e : RegistryEvent) : Prop :=
  ∀ a sw, s.applied e = some (a, sw) → ∀ y manifest y', pk.read s.disk.tgz = .ok (y, manifest) →
    applyPatchToYaml other pk.yaml y a.patch = .ok y' →
    pk.sha256Hex (pk.pack (y', manifest)) = pk.sha256Hex s.disk.tgz → pk.pack (y', manifest) = s.disk.tgz

variable (other pk) in
inductive Effect (s : RegistryState Archive) : RegistryEvent → RegistryState Archive → Prop
  | approve {a : ApprovedPatch} (hnew : ∀ b ∈ s.approved, b.approvalId ≠ a.approvalId) :
      Effect s (.approve a) { s with approved := a :: s.approved }
  | scan {k : ℕ} (hdone : s.sweeps k = []) {l : List ApprovedPatch} (hl : ∀ a ∈ l, a ∈ s.approved) :
      Effect s (.scan k) { s with sweeps := Function.update s.sweeps k l }
  | apply {e : RegistryEvent} {a : ApprovedPatch} {sw : ℕ → List ApprovedPatch} {hash : String}
      {states : List (Disk Archive)} (happlied : s.applied e = some (a, sw))
      (hlisted : a ∈ s.approved ∨ ∃ k, a ∈ s.sweeps k)
      (hlock : applyUnderLock other pk a.patch s.disk = .ok (hash, states)) :
      Effect s e { s with disk := states.getLastD s.disk, sweeps := sw, log := a :: s.log }

theorem Effect.of_step (h : s.step other pk e = .ok s') : Effect other pk s e s' := by
  cases e with
  | approve a =>
    obtain ⟨hnew, h⟩ := check_bind_eq_ok.mp h
    cases h
    exact .approve hnew
  | notified a =>
    obtain ⟨hmem, h⟩ := check_bind_eq_ok.mp h
    obtain ⟨⟨hash, states⟩, hlock, h⟩ := bind_eq_ok.mp h
    cases h
    exact .apply rfl (.inl hmem) hlock
  | scan k =>
    obtain ⟨hdone, h⟩ := check_bind_eq_ok.mp h
    cases h
    exact .scan hdone fun a ha => (List.mem_insertionSort _).mp ha
  | next k =>
    cases hk : s.sweeps k with
    | nil =>
      rw [step, hk] at h
      cases h
    | cons a rest =>
      simp only [step, hk] at h
      obtain ⟨s₁, hs₁, h⟩ := bind_eq_ok.mp h
      obtain ⟨⟨hash, states⟩, hlock, hs₁⟩ := bind_eq_ok.mp hs₁
      cases hs₁
      cases h
      refine .apply (by simp only [applied, hk]) (.inr ⟨k, ?_⟩) hlock
      rw [hk]
      exact List.mem_cons_self ..

theorem applied_sweeps (h : s.applied e = some (a, sw)) (k : ℕ) :
    (∀ b ∈ sw k, b ∈ s.sweeps k) ∧ ∀ b ∈ s.sweeps k, b = a ∨ b ∈ sw k := by
  cases e with
  | approve a => cases h
  | scan k => cases h
  | notified a =>
    cases h
    exact ⟨fun _ hb => hb, fun _ hb => .inr hb⟩
  | next k' =>
    cases hk' : s.sweeps k' with
    | nil =>
      rw [applied, hk'] at h
      cases h
    | cons c rest =>
      simp only [applied, hk'] at h
      cases h
      by_cases hk : k = k'
      · rw [hk, Function.update_self, hk']
        exact ⟨fun _ hb => List.mem_cons_of_mem _ hb, fun _ hb => List.mem_cons.mp hb⟩
      · rw [Function.update_of_ne hk]
        exact ⟨fun _ hb => hb, fun _ hb => .inr hb⟩

theorem document_applyUnderLock {d : Disk Archive} {patch : Json} {hash : String} {states : List (Disk Archive)}
    (hlock : applyUnderLock other pk patch d = .ok (hash, states)) (hdoc : document pk d.tgz = .ok doc)
    (hdistinct : ∀ y manifest y', pk.read d.tgz = .ok (y, manifest) → applyPatchToYaml other pk.yaml y patch = .ok y' →
      pk.sha256Hex (pk.pack (y', manifest)) = pk.sha256Hex d.tgz → pk.pack (y', manifest) = d.tgz) :
    ∃ doc', applyPatch other patch doc = .ok doc' ∧ document pk (states.getLastD d).tgz = .ok doc' := by
  obtain ⟨⟨y, manifest⟩, hread, hyaml⟩ := bind_eq_ok.mp hdoc
  obtain ⟨⟨y₁, manifest₁⟩, hread₁, h⟩ := bind_eq_ok.mp hlock
  cases hread.symm.trans (mapError_eq_ok.mp hread₁)
  obtain ⟨y', hy', h⟩ := bind_eq_ok.mp h
  have hpatched := mapError_eq_ok.mp hy'
  obtain ⟨value, hvalue, htext⟩ := bind_eq_ok.mp hpatched
  cases hyaml.symm.trans (mapError_eq_ok.mp hvalue)
  obtain ⟨doc', happly, htext⟩ := bind_eq_ok.mp htext
  cases htext
  have hpacked : document pk (pk.pack (pk.yaml.write doc', manifest)) = .ok doc' := by
    rw [document, pk.read_pack, ok_bind]
    exact pk.yaml.read_write doc'
  refine ⟨doc', happly, ?_⟩
  simp only at h
  split at h
  case isTrue hsame =>
    cases h
    rw [List.getLastD_nil, ← hdistinct y manifest _ hread hpatched hsame]
    exact hpacked
  case isFalse =>
    cases h
    exact hpacked

def lastWriter (s : RegistryState Archive) (t : Target) : Option ApprovedPatch := s.log.find? (·.writes t)

variable (pk) in
structure Invariant (rd : DocumentReader) (s : RegistryState Archive) : Prop where
  approved_ids : (s.approved.map ApprovedPatch.approvalId).Nodup
  log_approved : ∀ a ∈ s.log, a ∈ s.approved
  sweeps_approved : ∀ k, ∀ a ∈ s.sweeps k, a ∈ s.approved
  contract : ∃ doc y, document pk s.disk.tgz = .ok doc ∧ rd.readContract doc = some y ∧
    ∀ t w, s.lastWriter t = some w → t.value? doc = writtenValue w.patch t
  /-- Whoever wrote later than the last writer was resolved is before it, or about to be applied again. -/
  newest : ∀ t w, s.lastWriter t = some w → ∀ b ∈ s.log, b.writes t → b.key ≤ w.key ∨ ∃ k, b ∈ s.sweeps k

theorem writes_of_lastWriter {t : Target} (h : s.lastWriter t = some a) : a.writes t = true :=
  List.find?_some (p := fun b : ApprovedPatch => b.writes t) h

theorem lastWriter_apply (t : Target) (d : Disk Archive) :
    lastWriter { s with disk := d, sweeps := sw, log := a :: s.log } t =
      if a.writes t then some a else s.lastWriter t := by
  rw [lastWriter, List.find?_cons]
  cases a.writes t with
  | true => rfl
  | false => rfl

variable {rd : DocumentReader}

theorem Invariant.apply {hash : String} {states : List (Disk Archive)} (hinv : Invariant pk rd s)
    (horder : InOrder s e) (hdistinct : NoCollision other pk s e) (happlied : s.applied e = some (a, sw))
    (hlisted : a ∈ s.approved ∨ ∃ k, a ∈ s.sweeps k)
    (hlock : applyUnderLock other pk a.patch s.disk = .ok (hash, states)) :
    Invariant pk rd { s with disk := states.getLastD s.disk, sweeps := sw, log := a :: s.log } where
  approved_ids := hinv.approved_ids
  log_approved := by
    rw [List.forall_mem_cons]
    exact ⟨hlisted.elim id fun ⟨k, hk⟩ => hinv.sweeps_approved k a hk, hinv.log_approved⟩
  sweeps_approved k b hb := hinv.sweeps_approved k b ((applied_sweeps happlied k).1 b hb)
  contract := by
    obtain ⟨doc, y, hdoc, hread, hvalues⟩ := hinv.contract
    obtain ⟨doc', happly, hdoc'⟩ := document_applyUnderLock hlock hdoc (hdistinct a sw happlied)
    obtain ⟨⟨y', hread'⟩, hwritten⟩ := value?_applyPatch a.valid hread happly
    refine ⟨doc', y', hdoc', hread', fun t w hw => ?_⟩
    rw [lastWriter_apply] at hw
    cases hwrites : a.writes t with
    | true =>
      rw [hwrites] at hw
      cases hw
      obtain ⟨v, hv⟩ := Option.isSome_iff_exists.mp hwrites
      rw [hwritten t (wellFormed_of_lastValue hwrites), hv, Option.some_or]
    | false =>
      rw [hwrites] at hw
      have hwf : t.WellFormed := wellFormed_of_lastValue (writes_of_lastWriter hw)
      rw [hwritten t hwf, Option.isSome_eq_false_iff.mp hwrites |> Option.isNone_iff_eq_none.mp, Option.none_or]
      exact hvalues t w hw
  newest := by
    intro t w hw b hb hbt
    rw [lastWriter_apply] at hw
    rw [List.mem_cons] at hb
    cases hwrites : a.writes t with
    | true =>
      rw [hwrites] at hw
      cases hw
      obtain rfl | hb := hb
      · exact .inl le_rfl
      · by_cases hle : b.key ≤ a.key
        · exact .inl hle
        · exact .inr (horder a sw happlied b hb (lt_of_not_ge hle) ⟨t, hwrites, hbt⟩)
    | false =>
      rw [hwrites] at hw
      have hne : b ≠ a := by
        rintro rfl
        rw [hwrites] at hbt
        cases hbt
      refine (hinv.newest t w hw b (hb.resolve_left hne) hbt).imp_right fun ⟨k, hk⟩ => ⟨k, ?_⟩
      exact ((applied_sweeps happlied k).2 b hk).resolve_left hne

theorem Invariant.step (hinv : Invariant pk rd s)
    (hmet : InOrder s e ∧ NoCollision other pk s e) (h : s.step other pk e = .ok s') : Invariant pk rd s' := by
  cases Effect.of_step h with
  | approve hnew =>
    exact { hinv with
      approved_ids := by
        rw [List.map_cons, List.nodup_cons]
        refine ⟨fun hmem => ?_, hinv.approved_ids⟩
        obtain ⟨b, hb, hid⟩ := List.mem_map.mp hmem
        exact hnew b hb hid
      log_approved := fun b hb => List.mem_cons_of_mem _ (hinv.log_approved b hb)
      sweeps_approved := fun k b hb => List.mem_cons_of_mem _ (hinv.sweeps_approved k b hb) }
  | @scan k hdone l hl =>
    refine { hinv with sweeps_approved := fun j b hb => ?_, newest := fun t w hw b hb hbt => ?_ }
    · have hb : b ∈ Function.update s.sweeps k l j := hb
      by_cases hj : j = k
      · rw [hj, Function.update_self] at hb
        exact hl b hb
      · rw [Function.update_of_ne hj] at hb
        exact hinv.sweeps_approved j b hb
    · refine (hinv.newest t w hw b hb hbt).imp_right fun ⟨j, hj⟩ => ⟨j, ?_⟩
      have hne : j ≠ k := by
        rintro rfl
        rw [hdone] at hj
        cases hj
      show b ∈ Function.update s.sweeps k l j
      rw [Function.update_of_ne hne]
      exact hj
  | apply happlied hlisted hlock => exact hinv.apply hmet.1 hmet.2 happlied hlisted hlock

def Settled (s : RegistryState Archive) : Prop := (∀ k, s.sweeps k = []) ∧ ∀ a ∈ s.approved, a ∈ s.log

def Latest (s : RegistryState Archive) (t : Target) (a : ApprovedPatch) : Prop :=
  a ∈ s.approved ∧ a.writes t ∧ ∀ b ∈ s.approved, b.writes t → b.key ≤ a.key

theorem Invariant.latest (hinv : Invariant pk rd s) (hsettled : s.Settled) {t : Target}
    (hlatest : s.Latest t a) :
    ∃ doc, document pk s.disk.tgz = .ok doc ∧ t.value? doc = writtenValue a.patch t := by
  obtain ⟨ha, hwrites, hmax⟩ := hlatest
  obtain ⟨doc, y, hdoc, -, hvalues⟩ := hinv.contract
  have hlog := hsettled.2 a ha
  cases hw : s.lastWriter t with
  | none => exact absurd hwrites (List.find?_eq_none.mp hw a hlog)
  | some w =>
    have hwapproved := hinv.log_approved w (List.mem_of_find?_eq_some hw)
    have hle := hmax w hwapproved (writes_of_lastWriter hw)
    have hge : a.key ≤ w.key := (hinv.newest t w hw a hlog hwrites).resolve_right fun ⟨k, hk⟩ => by
      rw [hsettled.1 k] at hk
      cases hk
    have hkey : a.approvalId = w.approvalId := congrArg (fun k => (ofLex k).2) (le_antisymm hge hle)
    -- an approval id occurs once
    have hsame : a = w := List.inj_on_of_nodup_map hinv.approved_ids ha hwapproved hkey
    rw [hsame]
    exact ⟨doc, hdoc, hvalues t w hw⟩

end RegistryState

/-- Of a run in which no patch is applied over a later one of the same leaf, every settled state has the
latest values. -/
theorem latest_approval_wins {Archive Text : Type} {other : Json → Json → Option Json} {pk : Packing Archive Text}
    {rd : DocumentReader} {y : YamlContract} {doc : Json} {d : Disk Archive}
    {tr : List (RegistryEvent × RegistryState Archive)} (hdoc : document pk d.tgz = .ok doc)
    (hread : rd.readContract doc = some y)
    (hrun : Trace (fun s e s' => RegistryState.step other pk s e = .ok s') ⟨d, [], fun _ => [], []⟩ tr)
    (hmet : Along (fun s e => s.InOrder e ∧ s.NoCollision other pk e) ⟨d, [], fun _ => [], []⟩ tr) :
    ∀ p ∈ tr, p.2.Settled → ∀ t a, p.2.Latest t a →
      ∃ doc', document pk p.2.disk.tgz = .ok doc' ∧ t.value? doc' = writtenValue a.patch t := by
  have hstart : RegistryState.Invariant pk rd ⟨d, [], fun _ => [], []⟩ :=
    ⟨List.nodup_nil, by simp, by simp, ⟨doc, y, hdoc, hread, nofun⟩, nofun⟩
  intro p hp hsettled t a hlatest
  exact (hrun.invariant hmet (fun s e s' hinv hm hstep => hinv.step hm hstep) hstart p hp).latest hsettled hlatest

section Example

open RegistryState

variable {old new : ℤ} {sig : String} {env : List String} {approved log : List ApprovedPatch}
  {sw : ℕ → List ApprovedPatch} {a : ApprovedPatch}

theorem demo_process (ha : a.patch = ttlPatch secondId new) (hpatch : TtlPatched old new)
    (hnew : demoPacking.sha256Hex (demoContract new, "") ≠ demoPacking.sha256Hex (demoContract old, "")) :
    processApproval noOther demoPacking ⟨demoState old sig env, approved, sw, log⟩ a =
      .ok ⟨demoState new "demo-cosign-placeholder"
        (updateRuntimeEnv env (demoPacking.sha256Hex (demoContract new, ""))), approved, sw, a :: log⟩ := by
  rw [processApproval, ha, demo_new hpatch hnew]
  rfl

theorem demo_notified (hmem : a ∈ approved) (ha : a.patch = ttlPatch secondId new) (hpatch : TtlPatched old new)
    (hnew : demoPacking.sha256Hex (demoContract new, "") ≠ demoPacking.sha256Hex (demoContract old, "")) :
    step noOther demoPacking ⟨demoState old sig env, approved, sw, log⟩ (.notified a) =
      .ok ⟨demoState new "demo-cosign-placeholder"
        (updateRuntimeEnv env (demoPacking.sha256Hex (demoContract new, ""))), approved, sw, a :: log⟩ :=
  check_bind_eq_ok.mpr ⟨hmem, demo_process ha hpatch hnew⟩

theorem demo_approve {d : Disk (Json × String)} (hnew : ∀ b ∈ approved, b.approvalId ≠ a.approvalId) :
    step noOther demoPacking ⟨d, approved, sw, log⟩ (.approve a) = .ok ⟨d, a :: approved, sw, log⟩ :=
  check_bind_eq_ok.mpr ⟨hnew, rfl⟩

theorem demo_next {k : ℕ} {rest : List ApprovedPatch} (hk : sw k = a :: rest) (ha : a.patch = ttlPatch secondId new)
    (hpatch : TtlPatched old new)
    (hnew : demoPacking.sha256Hex (demoContract new, "") ≠ demoPacking.sha256Hex (demoContract old, "")) :
    step noOther demoPacking ⟨demoState old sig env, approved, sw, log⟩ (.next k) =
      .ok ⟨demoState new "demo-cosign-placeholder"
        (updateRuntimeEnv env (demoPacking.sha256Hex (demoContract new, ""))), approved,
        Function.update sw k rest, a :: log⟩ := by
  simp only [step, hk, demo_process ha hpatch hnew, ok_bind]
  rfl

theorem demo_stale {a b : ApprovedPatch} {start first second : ℤ} (ha : a.patch = ttlPatch secondId first)
    (hb : b.patch = ttlPatch secondId second) (hid : a.approvalId ≠ b.approvalId) (hab : TtlPatched start second)
    (hba : TtlPatched second first)
    (hnew : demoPacking.sha256Hex (demoContract second, "") ≠ demoPacking.sha256Hex (demoContract start, ""))
    (hnew' : demoPacking.sha256Hex (demoContract first, "") ≠ demoPacking.sha256Hex (demoContract second, "")) :
    ∃ tr s, Trace (fun s e s' => step noOther demoPacking s e = .ok s')
        ⟨demoState start "" [], [], fun _ => [], []⟩ tr ∧
      tr.getLast? = some (.next 0, s) ∧ s.disk.tgz = (demoContract first, "") ∧ s.approved = [b, a] ∧
      s.log = [a, b] ∧ ∀ k, s.sweeps k = [] := by
  have hscan : step noOther demoPacking ⟨demoState start "" [], [a], fun _ => [], []⟩ (.scan 0) =
      .ok ⟨demoState start "" [], [a], Function.update (fun _ => []) 0 [a], []⟩ := rfl
  have hfresh : ∀ c ∈ [a], c.approvalId ≠ b.approvalId := by
    rw [List.forall_mem_singleton]
    exact hid
  refine ⟨_, _, .cons (demo_approve (by simp)) <| .cons hscan <| .cons (demo_approve hfresh) <|
    .cons (demo_notified (by simp) hb hab hnew) <| .cons (demo_next (Function.update_self ..) ha hba hnew') <|
    .nil _, rfl, rfl, rfl, rfl, fun k => ?_⟩
  simp [Function.update_apply]

theorem ttlPatch_valid : validate (ttlPatch secondId 60) = .ok () ∧ validate (ttlPatch secondId 45) = .ok () := by
  decide +kernel

def sixty : ApprovedPatch := ⟨1, 1, ttlPatch secondId 60, ttlPatch_valid.1⟩

def fortyFive : ApprovedPatch := ⟨2, 2, ttlPatch secondId 45, ttlPatch_valid.2⟩

def sixtyAgain : ApprovedPatch := ⟨3, 3, ttlPatch secondId 60, ttlPatch_valid.1⟩

def secondTtl : Target := .budget secondId .reservationTtlSeconds

theorem secondTtl_values : writtenValue (ttlPatch secondId 45) secondTtl = some (.int 45) ∧
    writtenValue (ttlPatch secondId 60) secondTtl = some (.int 60) ∧
    secondTtl.value? (demoContract 60) = some (.int 60) := by
  decide +kernel

theorem key_le : sixty.key ≤ fortyFive.key ∧ fortyFive.key ≤ sixtyAgain.key := by
  decide

theorem stale_sweep_wins :
    ∃ tr s, Trace (fun s e s' => step noOther demoPacking s e = .ok s')
        ⟨demoState 300 "" [], [], fun _ => [], []⟩ tr ∧
      tr.getLast? = some (.next 0, s) ∧ s.Settled ∧ s.Latest secondTtl fortyFive ∧
      document demoPacking s.disk.tgz = .ok (demoContract 60) ∧
      secondTtl.value? (demoContract 60) ≠ writtenValue fortyFive.patch secondTtl := by
  obtain ⟨tr, s, hrun, hlast, hdisk, happroved, hlog, hsweeps⟩ := demo_stale (a := sixty) (b := fortyFive) rfl rfl
    (by decide) ttl_patched.1 ttl_patched.2.2.1 hash_ne.1 hash_ne.2
  have hwrites : fortyFive.writes secondTtl = true := congrArg Option.isSome secondTtl_values.1
  refine ⟨tr, s, hrun, hlast, ⟨hsweeps, ?_⟩, ⟨?_, hwrites, ?_⟩, ?_, ?_⟩
  · simp [happroved, hlog]
  · simp [happroved]
  · rw [happroved]
    simp [key_le.1]
  · rw [hdisk]
    rfl
  · rw [secondTtl_values.2.2]
    exact fun h => absurd (h.trans secondTtl_values.1) (by decide)

theorem demo_noCollision (ha : a.patch = ttlPatch secondId new) (hpatch : TtlPatched old new)
    (hnew : demoPacking.sha256Hex (demoContract new, "") ≠ demoPacking.sha256Hex (demoContract old, "")) :
    NoCollision noOther demoPacking ⟨demoState old sig env, approved, sw, log⟩ (.notified a) := by
  intro a' sw' happlied y manifest y' hread happly hsame
  cases happlied
  cases hread
  rw [ha] at happly
  cases hpatch.symm.trans happly
  exact absurd hsame hnew

theorem demo_notified_met (ha : a.patch = ttlPatch secondId new) (hpatch : TtlPatched old new)
    (hnew : demoPacking.sha256Hex (demoContract new, "") ≠ demoPacking.sha256Hex (demoContract old, ""))
    (hlog : ∀ b ∈ log, b.key ≤ a.key) :
    InOrder ⟨demoState old sig env, approved, sw, log⟩ (.notified a) ∧
      NoCollision noOther demoPacking ⟨demoState old sig env, approved, sw, log⟩ (.notified a) := by
  refine ⟨fun a' sw' happlied b hb hlt => ?_, demo_noCollision ha hpatch hnew⟩
  cases happlied
  exact absurd hlt (not_lt_of_ge (hlog b hb))

theorem demo_approve_met {d : Disk (Json × String)} :
    InOrder ⟨d, approved, sw, log⟩ (.approve a) ∧ NoCollision noOther demoPacking ⟨d, approved, sw, log⟩ (.approve a) :=
  ⟨nofun, nofun⟩

theorem second_approval_wins :
    ∃ tr s, Trace (fun s e s' => step noOther demoPacking s e = .ok s')
        ⟨demoState 300 "" [], [], fun _ => [], []⟩ tr ∧
      tr.getLast? = some (.notified sixtyAgain, s) ∧ s.Settled ∧ s.Latest secondTtl sixtyAgain ∧
      ∃ doc, document demoPacking s.disk.tgz = .ok doc ∧ secondTtl.value? doc = some (.int 60) := by
  have hfresh : ∀ c ∈ [fortyFive], c.approvalId ≠ sixtyAgain.approvalId := by decide
  have hrun : Trace (fun s e s' => step noOther demoPacking s e = .ok s')
      ⟨demoState 300 "" [], [], fun _ => [], []⟩ _ :=
    .cons (demo_approve (a := fortyFive) (by simp)) <|
      .cons (demo_notified (a := fortyFive) (by simp) rfl ttl_patched.1 hash_ne.1) <| .cons (demo_approve hfresh) <|
      .cons (demo_notified (a := sixtyAgain) (by simp) rfl ttl_patched.2.2.1 hash_ne.2) <| .nil _
  have hkeys : ∀ b ∈ [fortyFive], b.key ≤ sixtyAgain.key := by
    rw [List.forall_mem_singleton]
    exact key_le.2
  have hread : (plainReader.readContract (demoContract 300)).isSome = true := by decide +kernel
  obtain ⟨y, hy⟩ := Option.isSome_iff_exists.mp hread
  have hwrites : sixtyAgain.writes secondTtl = true := congrArg Option.isSome secondTtl_values.2.1
  have hwins := latest_approval_wins rfl hy hrun ⟨demo_approve_met,
    demo_notified_met rfl ttl_patched.1 hash_ne.1 (by simp), demo_approve_met,
    demo_notified_met rfl ttl_patched.2.2.1 hash_ne.2 hkeys, trivial⟩
  have hsettled (d : Disk (Json × String)) :
      Settled ⟨d, [sixtyAgain, fortyFive], fun _ => [], [sixtyAgain, fortyFive]⟩ := ⟨fun _ => rfl, fun _ h => h⟩
  have hlatest (d : Disk (Json × String)) :
      Latest ⟨d, [sixtyAgain, fortyFive], fun _ => [], [sixtyAgain, fortyFive]⟩ secondTtl sixtyAgain :=
    ⟨List.mem_cons_self .., hwrites, by simp [key_le.2]⟩
  refine ⟨_, _, hrun, rfl, hsettled _, hlatest _, ?_⟩
  obtain ⟨doc, hdoc, hvalue⟩ := hwins _ (List.mem_of_getLast? rfl) (hsettled _) secondTtl sixtyAgain (hlatest _)
  exact ⟨doc, hdoc, hvalue.trans secondTtl_values.2.1⟩

end Example

end SpendGuard.Registry
