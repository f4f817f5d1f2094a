import SpendGuard.Base.Pointer

/-!
The patches that the cost advisor proposes: the allowlist they must pass, and how the bundle registry applies
one to a contract, at the index where the pinned budget really is.
-/

namespace SpendGuard.Registry

open Base

inductive Leaf
  | limitAmountAtomic
  | reservationTtlSeconds
  | claimAmountAtomicGt
  | decision
  | approverRole
  deriving DecidableEq

def Leaf.name : Leaf → String
  | .limitAmountAtomic => "limit_amount_atomic"
  | .reservationTtlSeconds => "reservation_ttl_seconds"
  | .claimAmountAtomicGt => "claim_amount_atomic_gt"
  | .decision => "decision"
  | .approverRole => "approver_role"

inductive PatchValidationError
  | notArray
  | empty
  | tooManyOps (len max : ℕ)
  | opNotObject (index : ℕ)
  | opMissingOp (index : ℕ)
  | opNotReplace (index : ℕ) (op : String)
  | opMissingPath (index : ℕ)
  | opPathNotAllowed (index : ℕ) (path : String)
  | opMissingValue (index : ℕ)
  | opValueSchema (index : ℕ) (leaf reason : String)
  | budgetReplaceMissingTestPin (index idx : ℕ)
  deriving DecidableEq

def isArrayIndex : List Char → Bool
  | [] => false
  | ['0'] => true
  | first :: rest => '1' ≤ first && first ≤ '9' && rest.all Char.isDigit

def budgetIdTestPathIndex (path : String) : Option ℕ :=
  match Json.slashed path with
  | some ["spec", "budgets", idx, "id"] => if isArrayIndex idx.toList then parseU32 idx.toList else none
  | _ => none

def pathLeafIfAllowed (path : String) : Option (Leaf × Option ℕ) :=
  match Json.slashed path with
  | some ["spec", "budgets", idx, "limit_amount_atomic"] =>
    if isArrayIndex idx.toList then (parseU32 idx.toList).map fun i => (.limitAmountAtomic, some i) else none
  | some ["spec", "budgets", idx, "reservation_ttl_seconds"] =>
    if isArrayIndex idx.toList then (parseU32 idx.toList).map fun i => (.reservationTtlSeconds, some i) else none
  | some ["spec", "rules", idx, "when", "claim_amount_atomic_gt"] =>
    if isArrayIndex idx.toList then some (.claimAmountAtomicGt, none) else none
  | some ["spec", "rules", idx, "then", "decision"] =>
    if isArrayIndex idx.toList then some (.decision, none) else none
  | some ["spec", "rules", idx, "then", "approver_role"] =>
    if isArrayIndex idx.toList then some (.approverRole, none) else none
  | _ => none

def validateUuidBytes : ℕ → List UInt8 → Except String Unit
  | _, [] => .ok ()
  | i, b :: rest => do
    if i = 8 ∨ i = 13 ∨ i = 18 ∨ i = 23 then check (b = 45) "hyphen mis-positioned"
    else check (48 ≤ b ∧ b ≤ 57 ∨ 97 ≤ b ∧ b ≤ 102) "must be lowercase hex"
    validateUuidBytes (i + 1) rest

def validateUuidValue (value : Json) : Except String Unit := do
  let s ← found value.asStr? "must be a string"
  check ((utf8 s).length = 36) "must be a 36-char hyphenated UUID"
  validateUuidBytes 0 (utf8 s)

def validateAtomicAmountStr (s : String) : Except String Unit := do
  check (s ≠ "") "must be non-empty"
  check ((utf8 s).length ≤ 38) "must be ≤ 38 digits (NUMERIC(38,0) bound)"
  check (s.toList.all Char.isDigit = true) "must be a digit string"

def decisions : List String := ["STOP", "REQUIRE_APPROVAL", "DEGRADE", "CONTINUE", "SKIP"]

def isRoleChar (c : Char) : Bool := c.isAlphanum || c = '_' || c = '-'

def validateValue (value : Json) : Leaf → Except String Unit
  | .limitAmountAtomic | .claimAmountAtomicGt => do
    validateAtomicAmountStr (← found value.asStr? "must be a string")
  | .reservationTtlSeconds => do
    let n ← found value.asI64? "must be a JSON integer"
    check (1 ≤ n ∧ n ≤ 86400) "must be in [1, 86400]"
  | .decision => do
    let s ← found value.asStr? "must be a string"
    check (s ∈ decisions) "must be one of STOP, REQUIRE_APPROVAL, DEGRADE, CONTINUE, SKIP"
  | .approverRole => do
    let s ← found value.asStr? "must be a string"
    check (s ≠ "" ∧ (utf8 s).length ≤ 64) "must be 1..=64 chars"
    check (s.toList.all isRoleChar = true) "must match [A-Za-z0-9_-]+"

def checkPinned (index : ℕ) (pinned : List ℕ) : Option ℕ → Except PatchValidationError Unit
  | some i => check (i ∈ pinned) (.budgetReplaceMissingTestPin index i)
  | none => .ok ()

def validateOp (index : ℕ) (op : Json) (pinned : List ℕ) : Except PatchValidationError (List ℕ) := do
  check (op.isObj = true) (.opNotObject index)
  let kind ← found (op.get? "op" >>= Json.asStr?) (.opMissingOp index)
  check (kind = "replace" ∨ kind = "test") (.opNotReplace index kind)
  let path ← found (op.get? "path" >>= Json.asStr?) (.opMissingPath index)
  let value ← found (op.get? "value") (.opMissingValue index)
  if kind = "test" then do
    let i ← found (budgetIdTestPathIndex path) (.opPathNotAllowed index path)
    (validateUuidValue value).mapError (.opValueSchema index "id")
    return pinned ++ [i]
  else do
    let (leaf, budget) ← found (pathLeafIfAllowed path) (.opPathNotAllowed index path)
    checkPinned index pinned budget
    (validateValue value leaf).mapError (.opValueSchema index leaf.name)
    return pinned

def validateOps (index : ℕ) (pinned : List ℕ) : List Json → Except PatchValidationError Unit
  | [] => .ok ()
  | op :: rest => do
    let pinned ← validateOp index op pinned
    validateOps (index + 1) pinned rest

def maxPatchOps : ℕ := 8

def validate : Json → Except PatchValidationError Unit
  | .arr ops => do
    check (ops ≠ []) .empty
    check (ops.length ≤ maxPatchOps) (.tooManyOps ops.length maxPatchOps)
    validateOps 0 [] ops
  | _ => .error .notArray

def notIndex (idx : List Char) : Bool := idx ≠ ['0'] && (idx.head? = some '0' || !idx.all Char.isDigit)

def parseBudgetIdPath (path : String) : Option ℕ := do
  let rest ← stripFront "/spec/budgets/".toList path.toList
  let (idx, tail) ← splitOnce '/' rest
  if tail = "id".toList ∧ notIndex idx = false then parseU32 idx else none

def parseBudgetPathPrefix (path : String) : Option (ℕ × List Char) := do
  let rest ← stripFront "/spec/budgets/".toList path.toList
  let (idx, tail) ← splitOnce '/' rest
  if notIndex idx = false then (parseU32 idx).map fun i => (i, '/' :: tail) else none

def strOf (v : Json) (key : String) : String := (v.get? key >>= Json.asStr?).getD ""

def pinnedIds : List (ℕ × String) → List Json → Except String (List (ℕ × String))
  | pinned, [] => .ok pinned
  | pinned, op :: rest =>
    match strOf op "op", parseBudgetIdPath (strOf op "path"), op.get? "value" >>= Json.asStr? with
    | "test", some i, some id =>
      match pinned.lookup i with
      | some id' =>
        if id' = id then pinnedIds pinned rest
        else .error ("conflicting test pins at /spec/budgets/" ++ toString i ++ "/id: " ++ id'.quote ++ " vs " ++
          id.quote)
      | none => pinnedIds (pinned ++ [(i, id)]) rest
    | _, _, _ => pinnedIds pinned rest

def budgetsOf (doc : Json) : List Json :=
  match doc.get? "spec" >>= (·.get? "budgets") with
  | some (.arr budgets) => budgets
  | _ => []

def remapOf (budgets : List Json) (pinned : List (ℕ × String)) : List (ℕ × ℕ) :=
  pinned.filterMap fun p =>
    ((budgets.findIdx? fun b => strOf b "id" = p.2).map (· % 2 ^ 32)).bind fun j =>
      if j = p.1 then none else some (p.1, j)

def rewriteOp (remap : List (ℕ × ℕ)) (op : Json) : Json :=
  (do
    let path ← op.get? "path" >>= Json.asStr?
    let (i, rest) ← parseBudgetPathPrefix path
    let j ← remap.lookup i
    op.set? "path" (.str ("/spec/budgets/" ++ toString j ++ String.ofList rest))).getD op

def remapBudgetIndices (patch contract : Json) : Except String Json :=
  match patch with
  | .arr ops => do
    let pinned ← pinnedIds [] ops
    let remap := remapOf (budgetsOf contract) pinned
    return if pinned = [] ∨ remap = [] then patch else .arr (ops.map (rewriteOp remap))
  | _ => .error "patch is not a JSON array"

def target (op : Json) : Except String (List String × Json) := do
  let path ← found (op.get? "path" >>= Json.asStr? >>= Json.segments) "invalid path"
  let value ← found (op.get? "value") "missing field `value`"
  return (path, value)

def operation (op : Json) : Except String Json.Operation :=
  match op.get? "op" >>= Json.asStr? with
  | some "test" => (target op).map fun t => .test t.1 t.2
  | some "replace" => (target op).map fun t => .replace t.1 t.2
  | _ => .ok (.other op)

def operations : Json → Except String (List Json.Operation)
  | .arr ops => ops.mapM operation
  | _ => .error "invalid type"

section Apply

variable (other : Json → Json → Option Json)

def applyPatch (patch doc : Json) : Except String Json := do
  let remapped ← (remapBudgetIndices patch doc).mapError ("CA-P3.8: remap budget indices: " ++ ·)
  let ops ← (operations remapped).mapError ("parse RFC-6902 patch: " ++ ·)
  found (doc.patch other ops) "apply patch to contract YAML (likely test op identity mismatch)"

structure Yaml (Text : Type) where
  read : Text → Except String Json
  write : Json → Text
  read_write (v : Json) : read (write v) = .ok v

def applyPatchToYaml {Text : Type} (yaml : Yaml Text) (contractYaml : Text) (patch : Json) : Except String Text := do
  let value ← (yaml.read contractYaml).mapError ("parse contract YAML: " ++ ·)
  let value' ← applyPatch other patch value
  return yaml.write value'

end Apply

def Leaf.isBudget : Leaf → Bool
  | .limitAmountAtomic | .reservationTtlSeconds => true
  | _ => false

def Leaf.parts (leaf : Leaf) (n : ℕ) : List String :=
  match leaf with
  | .limitAmountAtomic => ["spec", "budgets", toString n, "limit_amount_atomic"]
  | .reservationTtlSeconds => ["spec", "budgets", toString n, "reservation_ttl_seconds"]
  | .claimAmountAtomicGt => ["spec", "rules", toString n, "when", "claim_amount_atomic_gt"]
  | .decision => ["spec", "rules", toString n, "then", "decision"]
  | .approverRole => ["spec", "rules", toString n, "then", "approver_role"]

def idParts (n : ℕ) : List String := ["spec", "budgets", toString n, "id"]

inductive PatchOp
  | pin (i : ℕ) (id : String)
  | write (leaf : Leaf) (n : ℕ) (value : Json)

namespace PatchOp

def kind : PatchOp → String
  | .pin _ _ => "test"
  | .write _ _ _ => "replace"

def parts : PatchOp → List String
  | .pin i _ => idParts i
  | .write leaf n _ => leaf.parts n

def value : PatchOp → Json
  | .pin _ id => .str id
  | .write _ _ v => v

def budget? : PatchOp → Option ℕ
  | .pin i _ => some i
  | .write leaf n _ => if leaf.isBudget then some n else none

def operation (at' : ℕ → ℕ) : PatchOp → Json.Operation
  | .pin i id => .test (idParts (at' i)) (.str id)
  | .write leaf n v => .replace (leaf.parts (if leaf.isBudget then at' n else n)) v

def Acceptable : PatchOp → Prop
  | .pin _ id => validateUuidValue (.str id) = .ok ()
  | .write leaf _ v => validateValue v leaf = .ok ()

end PatchOp

structure Reads (op : Json) (p : PatchOp) : Prop where
  kind : op.get? "op" = some (.str p.kind)
  path : op.get? "path" = some (.str (Json.pathOf p.parts))
  value : op.get? "value" = some p.value
  small : ∀ i, p.budget? = some i → i < 2 ^ 32

section Validated

variable {index : ℕ} {op : Json} {pinned pinned' : List ℕ} {path : String} {leaf : Leaf} {b : Option ℕ}

variable {idx : String}

theorem eq_toString_of_isArrayIndex (h : isArrayIndex idx.toList = true) : ∃ n : ℕ, idx = toString n := by
  refine ⟨Nat.ofDigitChars 10 idx.toList 0, String.toList_inj.mp ?_⟩
  show idx.toList = (Nat.repr _).toList
  rw [Nat.toList_repr]
  generalize idx.toList = t at h
  unfold isArrayIndex at h
  split at h
  · cases h
  · rfl
  · next first rest _ =>
    rw [Bool.and_eq_true, Bool.and_eq_true, decide_eq_true_eq, decide_eq_true_eq] at h
    obtain ⟨⟨hlow, hhigh⟩, hrest⟩ := h
    have hlow : 49 ≤ first.toNat := hlow
    have hhigh : first.toNat ≤ 57 := hhigh
    have hdigit : first.isDigit = true := by
      simp [Char.isDigit, UInt32.le_iff_toNat_le]
      exact ⟨by show 48 ≤ first.toNat; omega, hhigh⟩
    have hzero : '0'.toNat = 48 := rfl
    rw [Nat.ofDigitChars_cons, toDigits_ofDigitChars hrest (by omega), Nat.mul_zero, Nat.zero_add,
      Nat.toDigits_of_lt_base (by omega), digitChar_of_isDigit hdigit, List.singleton_append]

theorem index_eq {n i : ℕ} (h : parseU32 (toString n).toList = some i) : i = n ∧ n < 2 ^ 32 := by
  have hplus : '+' ∉ (toString n).toList := fun hc => absurd (isDigit_of_mem_repr hc) (by decide)
  have hvalue : parseDigits (toString n).toList = some n := by
    show parseDigits (Nat.repr n).toList = some n
    rw [Nat.toList_repr, parseDigits_toDigits]
  unfold parseU32 at h
  split at h
  · next ds heq => exact absurd (heq ▸ List.mem_cons_self ..) hplus
  · rw [hvalue, Option.filter_some, Option.ite_none_right_eq_some] at h
    obtain ⟨hlt, h⟩ := h
    cases h
    exact ⟨rfl, of_decide_eq_true hlt⟩

theorem budgetIdTestPathIndex_some {i : ℕ} (h : budgetIdTestPathIndex path = some i) :
    path = Json.pathOf (idParts i) ∧ i < 2 ^ 32 := by
  unfold budgetIdTestPathIndex at h
  split at h
  · next idx hparts =>
    rw [Option.ite_none_right_eq_some] at h
    obtain ⟨hindex, h⟩ := h
    obtain ⟨n, rfl⟩ := eq_toString_of_isArrayIndex hindex
    obtain ⟨rfl, hlt⟩ := index_eq h
    exact ⟨Json.eq_pathOf hparts, hlt⟩
  · cases h

def LeadsTo (path : String) (leaf : Leaf) (b : Option ℕ) : Prop :=
  ∃ n, path = Json.pathOf (leaf.parts n) ∧ (leaf.isBudget = true → n < 2 ^ 32) ∧
    b = if leaf.isBudget then some n else none

theorem leadsTo_budget {leaf' : Leaf} (hleaf : leaf'.isBudget = true)
    (hpath : ∀ n : ℕ, idx = toString n → path = Json.pathOf (leaf'.parts n))
    (h : (if isArrayIndex idx.toList then (parseU32 idx.toList).map fun i => (leaf', some i) else none) =
      some (leaf, b)) : LeadsTo path leaf b := by
  rw [Option.ite_none_right_eq_some] at h
  obtain ⟨hindex, h⟩ := h
  obtain ⟨i, hi, h⟩ := Option.map_eq_some_iff.mp h
  cases h
  obtain ⟨n, rfl⟩ := eq_toString_of_isArrayIndex hindex
  obtain ⟨rfl, hlt⟩ := index_eq hi
  exact ⟨_, hpath _ rfl, fun _ => hlt, by rw [if_pos hleaf]⟩

theorem leadsTo_rule {leaf' : Leaf} (hleaf : leaf'.isBudget = false)
    (hpath : ∀ n : ℕ, idx = toString n → path = Json.pathOf (leaf'.parts n))
    (h : (if isArrayIndex idx.toList then some (leaf', none) else none) = some (leaf, b)) :
    LeadsTo path leaf b := by
  rw [Option.ite_none_right_eq_some] at h
  obtain ⟨hindex, h⟩ := h
  cases h
  obtain ⟨n, rfl⟩ := eq_toString_of_isArrayIndex hindex
  refine ⟨n, hpath n rfl, fun hb => ?_, ?_⟩
  · rw [hleaf] at hb
    cases hb
  · rw [hleaf]
    rfl

theorem pathLeafIfAllowed_some (h : pathLeafIfAllowed path = some (leaf, b)) : LeadsTo path leaf b := by
  unfold pathLeafIfAllowed at h
  split at h
  · next hparts => exact leadsTo_budget rfl (by rintro n rfl; exact Json.eq_pathOf hparts) h
  · next hparts => exact leadsTo_budget rfl (by rintro n rfl; exact Json.eq_pathOf hparts) h
  · next hparts => exact leadsTo_rule rfl (by rintro n rfl; exact Json.eq_pathOf hparts) h
  · next hparts => exact leadsTo_rule rfl (by rintro n rfl; exact Json.eq_pathOf hparts) h
  · next hparts => exact leadsTo_rule rfl (by rintro n rfl; exact Json.eq_pathOf hparts) h
  · cases h

theorem get?_of_asStr? {key s : String} (h : (op.get? key >>= Json.asStr?) = some s) : op.get? key = some (.str s) := by
  obtain ⟨v, hv, hs⟩ := Option.bind_eq_some_iff.mp h
  cases v with
  | str s' =>
    cases hs
    exact hv
  | _ => cases hs

structure Checked (op : Json) (pinned pinned' : List ℕ) (p : PatchOp) : Prop where
  reads : Reads op p
  acceptable : p.Acceptable
  pins : ∀ i ∈ pinned', i ∈ pinned ∨ ∃ id, p = .pin i id
  pinned : ∀ leaf n v, p = .write leaf n v → leaf.isBudget = true → n ∈ pinned

theorem validateOp_ok (h : validateOp index op pinned = .ok pinned') : ∃ p, Checked op pinned pinned' p := by
  obtain ⟨-, h⟩ := check_bind_eq_ok.mp h
  obtain ⟨kind, hkind, h⟩ := found_bind_eq_ok.mp h
  obtain ⟨hkinds, h⟩ := check_bind_eq_ok.mp h
  obtain ⟨path, hpath, h⟩ := found_bind_eq_ok.mp h
  obtain ⟨value, hvalue, h⟩ := found_bind_eq_ok.mp h
  have hkind := get?_of_asStr? hkind
  have hpath := get?_of_asStr? hpath
  split at h
  case isTrue htest =>
    obtain ⟨i, hi, h⟩ := found_bind_eq_ok.mp h
    obtain ⟨u, huuid, h⟩ := bind_eq_ok.mp h
    cases h
    obtain ⟨rfl, hlt⟩ := budgetIdTestPathIndex_some hi
    have huuid := mapError_eq_ok.mp huuid
    obtain ⟨id, hid, -⟩ := found_bind_eq_ok.mp huuid
    cases value with
    | str s =>
      refine ⟨.pin i s, ⟨hkind.trans (by rw [htest]; rfl), hpath, hvalue, ?_⟩, huuid, ?_, ?_⟩
      · intro j hj
        cases hj
        exact hlt
      · intro j hj
        rw [List.mem_append, List.mem_singleton] at hj
        exact hj.imp_right fun hj => ⟨s, by rw [hj]⟩
      · intro leaf n v hp
        cases hp
    | _ => cases hid
  case isFalse htest =>
    have hreplace : kind = "replace" := hkinds.resolve_right htest
    obtain ⟨⟨leaf, b⟩, hleaf, h⟩ := found_bind_eq_ok.mp h
    obtain ⟨u, hpin, h⟩ := bind_eq_ok.mp h
    obtain ⟨u', hok, h⟩ := bind_eq_ok.mp h
    cases h
    obtain ⟨n, rfl, hlt, rfl⟩ := pathLeafIfAllowed_some hleaf
    refine ⟨.write leaf n value, ⟨hkind.trans (by rw [hreplace]; rfl), hpath, hvalue, ?_⟩, mapError_eq_ok.mp hok,
      fun i hi => .inl hi, ?_⟩
    · intro j hj
      rw [PatchOp.budget?, Option.ite_none_right_eq_some] at hj
      cases hj.2
      exact hlt hj.1
    · intro leaf' n' v hp hbudget
      cases hp
      rw [if_pos hbudget] at hpin
      exact check_eq_ok.mp hpin

def Pinned (ps : List PatchOp) : Prop :=
  ∀ leaf n v, PatchOp.write leaf n v ∈ ps → leaf.isBudget = true → ∃ id, PatchOp.pin n id ∈ ps

theorem validateOps_ok {ops : List Json} {u : Unit} (h : validateOps index pinned ops = .ok u) :
    ∃ ps, List.Forall₂ Reads ops ps ∧ (∀ p ∈ ps, p.Acceptable) ∧
      ∀ leaf n v, PatchOp.write leaf n v ∈ ps → leaf.isBudget = true →
        n ∈ pinned ∨ ∃ id, PatchOp.pin n id ∈ ps := by
  induction ops generalizing index pinned with
  | nil => exact ⟨[], .nil, by simp, by simp⟩
  | cons op rest ih =>
    obtain ⟨pinned', hop, h⟩ := bind_eq_ok.mp h
    obtain ⟨p, hp⟩ := validateOp_ok hop
    obtain ⟨ps, hreads, hok, hpins⟩ := ih h
    refine ⟨p :: ps, .cons hp.reads hreads, ?_, ?_⟩
    · rw [List.forall_mem_cons]
      exact ⟨hp.acceptable, hok⟩
    · intro leaf n v hwrite hbudget
      rw [List.mem_cons] at hwrite
      obtain rfl | hwrite := hwrite
      · exact .inl (hp.pinned leaf n v rfl hbudget)
      · obtain hn | ⟨id, hid⟩ := hpins leaf n v hwrite hbudget
        · exact (hp.pins n hn).imp_right fun ⟨id, hid⟩ => ⟨id, hid ▸ List.mem_cons_self ..⟩
        · exact .inr ⟨id, List.mem_cons_of_mem _ hid⟩

theorem validate_ok {patch : Json} {u : Unit} (h : validate patch = .ok u) :
    ∃ ops ps, patch = .arr ops ∧ List.Forall₂ Reads ops ps ∧ (∀ p ∈ ps, p.Acceptable) ∧ Pinned ps := by
  cases patch with
  | arr ops =>
    obtain ⟨-, h⟩ := check_bind_eq_ok.mp h
    obtain ⟨-, h⟩ := check_bind_eq_ok.mp h
    obtain ⟨ps, hreads, hok, hpins⟩ := validateOps_ok h
    refine ⟨ops, ps, rfl, hreads, hok, fun leaf n v hwrite hbudget => ?_⟩
    exact (hpins leaf n v hwrite hbudget).resolve_left (List.not_mem_nil)
  | _ => cases h

end Validated

section Remapped

variable {remap : List (ℕ × ℕ)} {op : Json} {p : PatchOp} {i : ℕ} {parts : List String} {v : Json}

def Plain (parts : List String) : Prop := parts ≠ [] ∧ ∀ s ∈ parts, '/' ∉ s.toList ∧ '~' ∉ s.toList

theorem plain_toString (n : ℕ) : '/' ∉ (toString n).toList ∧ '~' ∉ (toString n).toList :=
  ⟨fun h => absurd (isDigit_of_mem_repr h) (by decide), fun h => absurd (isDigit_of_mem_repr h) (by decide)⟩

theorem plain_idParts (n : ℕ) : Plain (idParts n) := by
  refine ⟨by simp [idParts], ?_⟩
  simp only [idParts, List.forall_mem_cons, List.not_mem_nil, false_implies, implies_true, and_true]
  exact ⟨by decide, by decide, plain_toString n, by decide⟩

theorem plain_leafParts (leaf : Leaf) (n : ℕ) : Plain (leaf.parts n) := by
  cases leaf
  all_goals
    refine ⟨by simp [Leaf.parts], ?_⟩
    simp only [Leaf.parts, List.forall_mem_cons, List.not_mem_nil, false_implies, implies_true, and_true]
  · exact ⟨by decide, by decide, plain_toString n, by decide⟩
  · exact ⟨by decide, by decide, plain_toString n, by decide⟩
  · exact ⟨by decide, by decide, plain_toString n, by decide, by decide⟩
  · exact ⟨by decide, by decide, plain_toString n, by decide, by decide⟩
  · exact ⟨by decide, by decide, plain_toString n, by decide, by decide⟩

theorem Plain.segments (h : Plain parts) : Json.segments (Json.pathOf parts) = some parts :=
  Json.segments_pathOf h.1 (fun s hs => (h.2 s hs).1) (fun s hs => (h.2 s hs).2)

theorem target_eq (hplain : Plain parts) (hpath : op.get? "path" = some (.str (Json.pathOf parts)))
    (hvalue : op.get? "value" = some v) : target op = .ok (parts, v) := by
  have hparts : (op.get? "path" >>= Json.asStr? >>= Json.segments) = some parts := by
    rw [hpath]
    exact hplain.segments
  rw [target, hparts, hvalue]
  rfl

theorem operation_test (hplain : Plain parts) (hkind : op.get? "op" = some (.str "test"))
    (hpath : op.get? "path" = some (.str (Json.pathOf parts))) (hvalue : op.get? "value" = some v) :
    operation op = .ok (.test parts v) := by
  have hkind : (op.get? "op" >>= Json.asStr?) = some "test" := by
    rw [hkind]
    rfl
  simp only [operation, hkind, target_eq hplain hpath hvalue, Except.map]

theorem operation_replace (hplain : Plain parts) (hkind : op.get? "op" = some (.str "replace"))
    (hpath : op.get? "path" = some (.str (Json.pathOf parts))) (hvalue : op.get? "value" = some v) :
    operation op = .ok (.replace parts v) := by
  have hkind : (op.get? "op" >>= Json.asStr?) = some "replace" := by
    rw [hkind]
    rfl
  simp only [operation, hkind, target_eq hplain hpath hvalue, Except.map]

theorem toList_budgetPath (n : ℕ) (s : String) :
    (Json.pathOf ["spec", "budgets", toString n, s]).toList =
      "/spec/budgets/".toList ++ ((toString n).toList ++ '/' :: s.toList) := by
  simp [Json.pathOf, List.intercalate]

theorem notIndex_toString (n : ℕ) : notIndex (toString n).toList = false := by
  have hdigits : (toString n).toList.all Char.isDigit = true := List.all_eq_true.mpr fun c => isDigit_of_mem_repr
  rw [notIndex, hdigits, Bool.not_true, Bool.or_false, Bool.and_eq_false_iff, decide_eq_false_iff_not,
    decide_eq_false_iff_not, not_not]
  have hrepr : (toString n).toList = Nat.toDigits 10 n := Nat.toList_repr
  rw [hrepr]
  by_cases hhead : (Nat.toDigits 10 n).head? = some '0'
  · rw [eq_zero_of_head?_toDigits n hhead]
    exact .inl rfl
  · exact .inr hhead

theorem parseBudgetPathPrefix_budget (hi : i < 2 ^ 32) (s : String) :
    parseBudgetPathPrefix (Json.pathOf ["spec", "budgets", toString i, s]) = some (i, '/' :: s.toList) := by
  rw [parseBudgetPathPrefix, toList_budgetPath, stripFront_append]
  simp only [Option.bind_eq_bind, Option.bind_some, splitOnce_append (plain_toString i).1, notIndex_toString,
    if_true, parseU32_toString hi, Option.map_some]

theorem parseBudgetPathPrefix_rule {leaf : Leaf} (hleaf : leaf.isBudget = false) (n : ℕ) :
    parseBudgetPathPrefix (Json.pathOf (leaf.parts n)) = none := by
  have hrule (rest : List String) : stripFront "/spec/budgets/".toList
      (Json.pathOf ("spec" :: "rules" :: toString n :: rest)).toList = none := by
    rw [Json.pathOf, String.toList_ofList]
    simp [List.intercalate, stripFront]
  cases leaf with
  | limitAmountAtomic => cases hleaf
  | reservationTtlSeconds => cases hleaf
  | _ =>
    rw [parseBudgetPathPrefix, Leaf.parts, hrule]
    rfl

theorem budgetPath_eq (j : ℕ) (s : String) :
    "/spec/budgets/" ++ toString j ++ String.ofList ('/' :: s.toList) =
      Json.pathOf ["spec", "budgets", toString j, s] := by
  apply String.toList_inj.mp
  rw [toList_budgetPath]
  simp

def moved (remap : List (ℕ × ℕ)) (i : ℕ) : ℕ := (remap.lookup i).getD i

variable (remap) in
theorem rewriteOp_budget {s kind : String} (hkind : op.get? "op" = some (.str kind))
    (hpath : op.get? "path" = some (.str (Json.pathOf ["spec", "budgets", toString i, s])))
    (hvalue : op.get? "value" = some v) (hi : i < 2 ^ 32) :
    (rewriteOp remap op).get? "op" = some (.str kind) ∧
    (rewriteOp remap op).get? "path" = some (.str (Json.pathOf ["spec", "budgets", toString (moved remap i), s])) ∧
    (rewriteOp remap op).get? "value" = some v := by
  have hstr : (op.get? "path" >>= Json.asStr?) = some (Json.pathOf ["spec", "budgets", toString i, s]) := by
    rw [hpath]
    rfl
  rw [rewriteOp, hstr]
  simp only [Option.bind_eq_bind, Option.bind_some, parseBudgetPathPrefix_budget hi]
  cases hj : remap.lookup i with
  | none =>
    rw [moved, hj]
    exact ⟨hkind, hpath, hvalue⟩
  | some j =>
    obtain ⟨fields, rfl⟩ : ∃ fields, op = .obj fields := by
      cases op with
      | obj fields => exact ⟨fields, rfl⟩
      | _ => cases hpath
    rw [Option.bind_some, budgetPath_eq, moved, hj]
    have hset : (Json.obj fields).set? "path" (.str (Json.pathOf ["spec", "budgets", toString j, s])) =
      some (.obj (Json.setFields "path" (.str (Json.pathOf ["spec", "budgets", toString j, s])) fields)) := rfl
    have hget := Json.get?_of_set? hset
    rw [hset, Option.getD_some, Option.getD_some, hget, hget, hget]
    exact ⟨hkind, rfl, hvalue⟩

theorem rewriteOp_rule {leaf : Leaf} (hleaf : leaf.isBudget = false) (n : ℕ)
    (hpath : op.get? "path" = some (.str (Json.pathOf (leaf.parts n)))) : rewriteOp remap op = op := by
  have hstr : (op.get? "path" >>= Json.asStr?) = some (Json.pathOf (leaf.parts n)) := by
    rw [hpath]
    rfl
  rw [rewriteOp, hstr]
  simp [parseBudgetPathPrefix_rule hleaf]

theorem Reads.operation_rewriteOp (h : Reads op p) : operation (rewriteOp remap op) = .ok (p.operation (moved remap)) := by
  cases p with
  | pin i id =>
    obtain ⟨hkind, hpath, hvalue⟩ := rewriteOp_budget remap h.kind h.path h.value (h.small i rfl)
    exact operation_test (plain_idParts _) hkind hpath hvalue
  | write leaf n v =>
    have hbudget (s : String) (hs : leaf.parts = fun n => ["spec", "budgets", toString n, s])
        (hleaf : leaf.isBudget = true) :
        operation (rewriteOp remap op) = .ok ((PatchOp.write leaf n v).operation (moved remap)) := by
      have hpath := h.path
      rw [PatchOp.parts, hs] at hpath
      obtain ⟨hkind, hpath, hvalue⟩ := rewriteOp_budget remap h.kind hpath h.value
        (h.small n (if_pos hleaf))
      rw [PatchOp.operation, if_pos hleaf]
      exact operation_replace (plain_leafParts leaf _) hkind (by rw [hs]; exact hpath) hvalue
    have hrule (hleaf : leaf.isBudget = false) :
        operation (rewriteOp remap op) = .ok ((PatchOp.write leaf n v).operation (moved remap)) := by
      rw [rewriteOp_rule hleaf n h.path, PatchOp.operation, hleaf]
      exact operation_replace (plain_leafParts leaf n) h.kind h.path h.value
    cases leaf with
    | limitAmountAtomic => exact hbudget "limit_amount_atomic" rfl rfl
    | reservationTtlSeconds => exact hbudget "reservation_ttl_seconds" rfl rfl
    | _ => exact hrule rfl

theorem rewriteOp_nil (op : Json) : rewriteOp [] op = op := by
  rw [rewriteOp]
  cases op.get? "path" >>= Json.asStr? with
  | none => rfl
  | some path =>
    simp only [Option.bind_eq_bind, Option.bind_some]
    cases parseBudgetPathPrefix path with
    | none => rfl
    | some q => rfl

variable {ops : List Json} {doc : Json} {ps : List PatchOp}

theorem remapBudgetIndices_ok {r : Json} (h : remapBudgetIndices (.arr ops) doc = .ok r) :
    ∃ pinned, pinnedIds [] ops = .ok pinned ∧ r = .arr (ops.map (rewriteOp (remapOf (budgetsOf doc) pinned))) := by
  obtain ⟨pinned, hpinned, h⟩ := bind_eq_ok.mp h
  have h := Except.ok.inj h
  refine ⟨pinned, hpinned, ?_⟩
  split at h
  · next hnone =>
    have hremap : remapOf (budgetsOf doc) pinned = [] := hnone.elim (fun hnil => by rw [hnil]; rfl) id
    rw [← h, hremap, List.map_congr_left (g := id) fun op _ => rewriteOp_nil op, List.map_id]
  · exact h.symm

theorem operations_rewritten (h : List.Forall₂ Reads ops ps) :
    operations (.arr (ops.map (rewriteOp remap))) = .ok (ps.map (PatchOp.operation (moved remap))) := by
  rw [operations]
  induction h with
  | nil => rfl
  | cons hop _ ih =>
    rw [List.map_cons, List.mapM_cons, hop.operation_rewriteOp, ok_bind, ih, ok_bind, List.map_cons]
    rfl

theorem applyPatch_remapped {other : Json → Json → Option Json} {doc' : Json}
    (hreads : List.Forall₂ Reads ops ps) (h : applyPatch other (.arr ops) doc = .ok doc') :
    ∃ pinned, pinnedIds [] ops = .ok pinned ∧
      doc.patch other (ps.map (PatchOp.operation (moved (remapOf (budgetsOf doc) pinned)))) = some doc' := by
  obtain ⟨r, hr, h⟩ := bind_eq_ok.mp h
  obtain ⟨ops', hops', h⟩ := bind_eq_ok.mp h
  obtain ⟨pinned, hpinned, rfl⟩ := remapBudgetIndices_ok (mapError_eq_ok.mp hr)
  have hops := mapError_eq_ok.mp hops'
  rw [operations_rewritten hreads] at hops
  cases hops
  exact ⟨pinned, hpinned, found_eq_ok.mp h⟩

theorem applyPatch_ok {other : Json → Json → Option Json} {doc' : Json}
    (hreads : List.Forall₂ Reads ops ps) (h : applyPatch other (.arr ops) doc = .ok doc') :
    ∃ at' : ℕ → ℕ, doc.patch other (ps.map (PatchOp.operation at')) = some doc' := by
  obtain ⟨pinned, -, hpatch⟩ := applyPatch_remapped hreads h
  exact ⟨_, hpatch⟩

theorem parseBudgetIdPath_idParts (hi : i < 2 ^ 32) : parseBudgetIdPath (Json.pathOf (idParts i)) = some i := by
  rw [parseBudgetIdPath, idParts, toList_budgetPath, stripFront_append]
  simp only [Option.bind_eq_bind, Option.bind_some, splitOnce_append (plain_toString i).1, notIndex_toString, and_self,
    if_true, parseU32_toString hi]

theorem strOf_eq {key s : String} (h : v.get? key = some (.str s)) : strOf v key = s := by
  rw [strOf, h]
  rfl

theorem lookup_append_of_none {α : Type} {l : List (ℕ × α)} {j : ℕ} {a : α} (h : l.lookup i = none) :
    (l ++ [(i, a)]).lookup j = if j = i then some a else l.lookup j := by
  induction l with
  | nil =>
    by_cases hj : j = i
    · rw [if_pos hj, hj, List.nil_append, List.lookup_cons_self]
    · rw [if_neg hj, List.nil_append, List.lookup_cons, beq_eq_false_iff_ne.mpr hj]
  | cons p l ih =>
    obtain ⟨k, b⟩ := p
    rw [List.lookup_cons] at h
    cases hik : i == k with
    | true =>
      rw [hik] at h
      cases h
    | false =>
      rw [hik] at h
      rw [List.cons_append, List.lookup_cons, List.lookup_cons, ih h]
      cases hjk : j == k with
      | false => rfl
      | true =>
        have hj : j ≠ i := by
          rintro rfl
          rw [hik] at hjk
          cases hjk
        exact (if_neg hj).symm

theorem lookup_filterMap {α β : Type} {g : ℕ × α → Option β} {l : List (ℕ × α)} (hkeys : (l.map Prod.fst).Nodup) :
    (l.filterMap fun p => (g p).map (Prod.mk p.1)).lookup i = (l.lookup i).bind fun a => g (i, a) := by
  induction l with
  | nil => rfl
  | cons p l ih =>
    obtain ⟨k, a⟩ := p
    rw [List.map_cons, List.nodup_cons] at hkeys
    have ih := ih hkeys.2
    rw [List.filterMap_cons, List.lookup_cons]
    cases hik : i == k with
    | true =>
      obtain rfl : i = k := beq_iff_eq.mp hik
      cases hg : g (i, a) with
      | some b => simp [List.lookup_cons_self, hg]
      | none =>
        have hrest : l.lookup i = none := List.lookup_eq_none_iff.mpr fun p hp => by
          rw [bne_iff_ne]
          exact fun heq => hkeys.1 (List.mem_map.mpr ⟨p, hp, heq.symm⟩)
        simp only [Option.map_none, ih, hrest, Option.bind_none, Option.bind_some, hg]
    | false =>
      cases hg : g (k, a) with
      | some b => simp only [Option.map_some, List.lookup_cons, hik, ih]
      | none => simp only [Option.map_none, ih]

theorem pinnedIds_ok {pinned pinned' : List (ℕ × String)}
    (hreads : List.Forall₂ Reads ops ps) (h : pinnedIds pinned ops = .ok pinned') :
    (∀ j id, pinned.lookup j = some id → pinned'.lookup j = some id) ∧
    ∀ j id, PatchOp.pin j id ∈ ps → pinned'.lookup j = some id := by
  induction hreads generalizing pinned with
  | nil =>
    cases h
    exact ⟨fun _ _ hid => hid, by simp⟩
  | @cons op q ops qs hop _ ih =>
    cases q with
    | pin i id =>
      have hvalue : (op.get? "value" >>= Json.asStr?) = some id := by
        rw [hop.value]
        rfl
      have hpath : parseBudgetIdPath (strOf op "path") = some i := by
        rw [strOf_eq hop.path]
        exact parseBudgetIdPath_idParts (hop.small i rfl)
      have hkind : strOf op "op" = "test" := strOf_eq hop.kind
      simp only [pinnedIds, hkind, hpath, hvalue] at h
      cases hlookup : pinned.lookup i with
      | some id' =>
        simp only [hlookup] at h
        split at h
        case isTrue hsame =>
          obtain ⟨hkept, hpins⟩ := ih h
          refine ⟨hkept, fun j jd hj => ?_⟩
          rw [List.mem_cons] at hj
          obtain heq | hj := hj
          · cases heq
            exact hkept i id (hsame ▸ hlookup)
          · exact hpins j jd hj
        case isFalse => cases h
      | none =>
        simp only [hlookup] at h
        obtain ⟨hkept, hpins⟩ := ih h
        refine ⟨fun j jd hj => hkept j jd ?_, fun j jd hj => ?_⟩
        · have hne : j ≠ i := by
            rintro rfl
            rw [hlookup] at hj
            cases hj
          rw [lookup_append_of_none hlookup, if_neg hne, hj]
        · rw [List.mem_cons] at hj
          obtain heq | hj := hj
          · cases heq
            exact hkept i id (by rw [lookup_append_of_none hlookup, if_pos rfl])
          · exact hpins j jd hj
    | write leaf n w =>
      have hkind : strOf op "op" = "replace" := strOf_eq hop.kind
      have hskip : pinnedIds pinned (op :: ops) = pinnedIds pinned ops := by
        rw [pinnedIds, hkind]
        rfl
      rw [hskip] at h
      obtain ⟨hkept, hpins⟩ := ih h
      refine ⟨hkept, fun j jd hj => ?_⟩
      rw [List.mem_cons] at hj
      exact hj.elim nofun (hpins j jd)

theorem pinnedIds_nodup {pinned pinned' : List (ℕ × String)} (h : pinnedIds pinned ops = .ok pinned')
    (hkeys : (pinned.map Prod.fst).Nodup) : (pinned'.map Prod.fst).Nodup := by
  induction ops generalizing pinned with
  | nil =>
    cases h
    exact hkeys
  | cons op ops ih =>
    rw [pinnedIds] at h
    split at h
    · next i id _ _ _ =>
      cases hlookup : pinned.lookup i with
      | some id' =>
        simp only [hlookup] at h
        split at h
        · exact ih h hkeys
        · cases h
      | none =>
        simp only [hlookup] at h
        refine ih h ?_
        rw [List.map_append, List.nodup_append]
        refine ⟨hkeys, by simp, ?_⟩
        rintro _ hmem _ hi rfl
        obtain ⟨p, hp, rfl⟩ := List.mem_map.mp hmem
        have hne := List.lookup_eq_none_iff.mp hlookup p hp
        rw [List.mem_singleton.mp hi] at hne
        simp at hne
    · exact ih h hkeys

theorem moved_remapOf {budgets : List Json} {pinned : List (ℕ × String)} {id : String}
    (hkeys : (pinned.map Prod.fst).Nodup) (h : pinned.lookup i = some id) :
    moved (remapOf budgets pinned) i = ((budgets.findIdx? fun b => strOf b "id" = id).map (· % 2 ^ 32)).getD i := by
  have hremap : remapOf budgets pinned = pinned.filterMap fun p =>
      (((budgets.findIdx? fun b => strOf b "id" = p.2).map (· % 2 ^ 32)).filter (· ≠ p.1)).map (Prod.mk p.1) := by
    refine List.filterMap_congr fun p _ => ?_
    cases (budgets.findIdx? fun b => strOf b "id" = p.2).map (· % 2 ^ 32) with
    | none => rfl
    | some j => by_cases hj : j = p.1 <;> simp [hj, Option.filter]
  rw [moved, hremap, lookup_filterMap hkeys, h, Option.bind_some]
  cases (budgets.findIdx? fun b => strOf b "id" = id).map (· % 2 ^ 32) with
  | none => rfl
  | some j => by_cases hj : j = i <;> simp [hj, Option.filter]

end Remapped

end SpendGuard.Registry
