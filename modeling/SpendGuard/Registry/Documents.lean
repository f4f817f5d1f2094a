import SpendGuard.Registry.Patch
import SpendGuard.Sidecar.Contract

/-!
Contract documents: how the sidecar reads them, and what an accepted patch can change in one.
-/

namespace SpendGuard.Registry

open Base Ledger Sidecar

/-- How the nodes of a document are read into the fields of the parser's types. -/
structure DocumentReader where
  text : Json → Option String
  integer : Json → Option ℤ
  bool : Json → Option Bool
  fields : List String → Json → Option (List (String × Json))
  items : Json → Option (List Json)
  text_str (s : String) : text (.str s) = some s
  integer_int (n : ℤ) (h : -2 ^ 63 ≤ n ∧ n < 2 ^ 63) : integer (.int n) = some n
  fields_obj (names : List String) (l : List (String × Json)) : fields names (.obj l) = some l
  items_arr (l : List Json) : items (.arr l) = some l
  items_obj (l : List (String × Json)) : items (.obj l) = none

abbrev Fields := List (String × Json)

def requiredKey {α : Type} (f : Fields) (key : String) (read : Json → Option α) : Option α := f.lookup key >>= read

def defaultKey {α : Type} (f : Fields) (key : String) (default : α) (read : Json → Option α) : Option α :=
  match f.lookup key with
  | none => some default
  | some v => read v

structure YamlSpec where
  budgets : List String
  rules : List YamlRule
  predictionPolicy : Option String

namespace DocumentReader

variable (rd : DocumentReader)

def optionalText : Json → Option (Option String)
  | .null => some none
  | v => (rd.text v).map some

def readBudget (v : Json) : Option String := do
  let f ← rd.fields ["id", "limit_amount_atomic", "currency", "reservation_ttl_seconds", "require_hard_cap"] v
  let id ← requiredKey f "id" rd.text
  let _ ← requiredKey f "limit_amount_atomic" rd.text
  let _ ← requiredKey f "currency" rd.text
  let _ ← defaultKey f "reservation_ttl_seconds" 600 rd.integer
  let _ ← defaultKey f "require_hard_cap" false rd.bool
  return id

def readCondition (v : Json) : Option (String × Option String × Option String) := do
  let f ← rd.fields ["budget_id", "claim_amount_atomic_gt", "claim_amount_atomic_gte"] v
  let budgetId ← requiredKey f "budget_id" rd.text
  let gt ← defaultKey f "claim_amount_atomic_gt" none rd.optionalText
  let gte ← defaultKey f "claim_amount_atomic_gte" none rd.optionalText
  return (budgetId, gt, gte)

def readAction (v : Json) : Option (String × String × Option String) := do
  let f ← rd.fields ["decision", "reason_code", "approver_role"] v
  let decision ← requiredKey f "decision" rd.text
  let reasonCode ← requiredKey f "reason_code" rd.text
  let approverRole ← defaultKey f "approver_role" none rd.optionalText
  return (decision, reasonCode, approverRole)

def readRule (v : Json) : Option YamlRule := do
  let f ← rd.fields ["id", "when", "then", "run_projection_action", "condition"] v
  let id ← requiredKey f "id" rd.text
  let (budgetId, gt, gte) ← requiredKey f "when" rd.readCondition
  let (decision, reasonCode, approverRole) ← requiredKey f "then" rd.readAction
  let action ← defaultKey f "run_projection_action" none rd.optionalText
  let condition ← defaultKey f "condition" none rd.optionalText
  return ⟨id, budgetId, gt, gte, decision, reasonCode, approverRole, action, condition⟩

def readList {α : Type} (read : Json → Option α) (v : Json) : Option (List α) := rd.items v >>= (·.mapM read)

def readSpec (v : Json) : Option YamlSpec := do
  let f ← rd.fields ["budgets", "rules", "prediction_policy"] v
  let budgets ← defaultKey f "budgets" [] (rd.readList rd.readBudget)
  let rules ← defaultKey f "rules" [] (rd.readList rd.readRule)
  let policy ← defaultKey f "prediction_policy" none rd.optionalText
  return ⟨budgets, rules, policy⟩

def readMetadata (v : Json) : Option String := do
  let f ← rd.fields ["id", "name"] v
  let id ← requiredKey f "id" rd.text
  let _ ← requiredKey f "name" rd.text
  return id

def readContract (v : Json) : Option YamlContract := do
  let f ← rd.fields ["apiVersion", "kind", "metadata", "spec"] v
  let apiVersion ← requiredKey f "apiVersion" rd.text
  let kind ← requiredKey f "kind" rd.text
  let id ← requiredKey f "metadata" rd.readMetadata
  let spec ← requiredKey f "spec" rd.readSpec
  return ⟨apiVersion, kind, id, spec.budgets, spec.rules, spec.predictionPolicy⟩

end DocumentReader

/-- `parse_yaml`, from the document. -/
def parseDocument (rd : DocumentReader) (uuid : String → Option Uuid) (doc : Json) : Except String Contract := do
  parseYaml uuid (← found (rd.readContract doc) "invalid document")

section Replaced

variable {rd : DocumentReader} {f : Fields} {key k : String} {v v' c c' : Json} {n : ℕ}

variable {α : Type} {id d s : String} {role : Option String} {spec : YamlSpec} {x : Json}

theorem requiredKey_setFields (read : Json → Option α) :
    requiredKey (Json.setFields k v f) key read = if key = k then read v else requiredKey f key read := by
  rw [requiredKey, Json.lookup_setFields]
  split
  · rfl
  · rfl

theorem defaultKey_setFields (default : α) (read : Json → Option α) :
    defaultKey (Json.setFields k v f) key default read = if key = k then read v else defaultKey f key default read := by
  unfold defaultKey
  rw [Json.lookup_setFields]
  by_cases h : key = k
  · simp [h]
  · simp [h]

theorem readBudget_obj : rd.readBudget (.obj f) = some id ↔
    requiredKey f "id" rd.text = some id ∧ (requiredKey f "limit_amount_atomic" rd.text).isSome ∧
      (requiredKey f "currency" rd.text).isSome ∧ (defaultKey f "reservation_ttl_seconds" 600 rd.integer).isSome ∧
      (defaultKey f "require_hard_cap" false rd.bool).isSome := by
  simp [DocumentReader.readBudget, rd.fields_obj, Option.bind_eq_some_iff, Option.isSome_iff_exists]

theorem readCondition_obj {b : String} {gt gte : Option String} : rd.readCondition (.obj f) = some (b, gt, gte) ↔
    requiredKey f "budget_id" rd.text = some b ∧ defaultKey f "claim_amount_atomic_gt" none rd.optionalText = some gt ∧
      defaultKey f "claim_amount_atomic_gte" none rd.optionalText = some gte := by
  simp [DocumentReader.readCondition, rd.fields_obj, Option.bind_eq_some_iff]

theorem readAction_obj {r : String} : rd.readAction (.obj f) = some (d, r, role) ↔
    requiredKey f "decision" rd.text = some d ∧ requiredKey f "reason_code" rd.text = some r ∧
      defaultKey f "approver_role" none rd.optionalText = some role := by
  simp [DocumentReader.readAction, rd.fields_obj, Option.bind_eq_some_iff]

theorem readBudget_limit (h : rd.readBudget (.obj f) = some id) :
    rd.readBudget (.obj (Json.setFields "limit_amount_atomic" (.str s) f)) = some id := by
  rw [readBudget_obj] at h ⊢
  simpa [requiredKey_setFields, defaultKey_setFields, rd.text_str] using ⟨h.1, h.2.2⟩

theorem readBudget_ttl {m : ℤ} (hm : -2 ^ 63 ≤ m ∧ m < 2 ^ 63) (h : rd.readBudget (.obj f) = some id) :
    rd.readBudget (.obj (Json.setFields "reservation_ttl_seconds" (.int m) f)) = some id := by
  rw [readBudget_obj] at h ⊢
  simpa [requiredKey_setFields, defaultKey_setFields, rd.integer_int m hm] using ⟨h.1, h.2.1, h.2.2.1, h.2.2.2.2⟩

theorem optionalText_str (s : String) : rd.optionalText (.str s) = some (some s) := by
  rw [DocumentReader.optionalText, rd.text_str, Option.map_some]
  nofun

theorem readCondition_gt {b : String} {gt gte : Option String} (h : rd.readCondition (.obj f) = some (b, gt, gte)) :
    rd.readCondition (.obj (Json.setFields "claim_amount_atomic_gt" (.str s) f)) = some (b, some s, gte) := by
  rw [readCondition_obj] at h ⊢
  simpa [requiredKey_setFields, defaultKey_setFields, optionalText_str] using ⟨h.1, h.2.2⟩

theorem readAction_decision {r : String} (h : rd.readAction (.obj f) = some (d, r, role)) :
    rd.readAction (.obj (Json.setFields "decision" (.str s) f)) = some (s, r, role) := by
  rw [readAction_obj] at h ⊢
  simpa [requiredKey_setFields, defaultKey_setFields, rd.text_str] using h.2

theorem readAction_role {r : String} (h : rd.readAction (.obj f) = some (d, r, role)) :
    rd.readAction (.obj (Json.setFields "approver_role" (.str s) f)) = some (d, r, some s) := by
  rw [readAction_obj] at h ⊢
  simpa [requiredKey_setFields, defaultKey_setFields, optionalText_str] using ⟨h.1, h.2.1⟩

/-- Two rules that the parser treats alike, whatever the amount, the role and the known decision. -/
structure RuleAlike (r r' : YamlRule) : Prop where
  budgetId : r'.budgetId = r.budgetId
  action : r'.runProjectionAction = r.runProjectionAction
  condition : r'.condition = r.condition
  decision : (parseDecision r.decision).isSome → (parseDecision r'.decision).isSome

theorem RuleAlike.refl (r : YamlRule) : RuleAlike r r := ⟨rfl, rfl, rfl, id⟩

theorem readRule_obj {r : YamlRule} : rd.readRule (.obj f) = some r ↔
    requiredKey f "id" rd.text = some r.id ∧
      requiredKey f "when" rd.readCondition = some (r.budgetId, r.claimAmountAtomicGt, r.claimAmountAtomicGte) ∧
      requiredKey f "then" rd.readAction = some (r.decision, r.reasonCode, r.approverRole) ∧
      defaultKey f "run_projection_action" none rd.optionalText = some r.runProjectionAction ∧
      defaultKey f "condition" none rd.optionalText = some r.condition := by
  obtain ⟨id, b, gt, gte, d, reason, role, action, condition⟩ := r
  simp [DocumentReader.readRule, rd.fields_obj, Option.bind_eq_some_iff]

theorem readSpec_obj : rd.readSpec (.obj f) = some spec ↔
    defaultKey f "budgets" [] (rd.readList rd.readBudget) = some spec.budgets ∧
      defaultKey f "rules" [] (rd.readList rd.readRule) = some spec.rules ∧
      defaultKey f "prediction_policy" none rd.optionalText = some spec.predictionPolicy := by
  obtain ⟨budgets, rules, policy⟩ := spec
  simp [DocumentReader.readSpec, rd.fields_obj, Option.bind_eq_some_iff]

theorem readContract_obj {y : YamlContract} : rd.readContract (.obj f) = some y ↔
    requiredKey f "apiVersion" rd.text = some y.apiVersion ∧ requiredKey f "kind" rd.text = some y.kind ∧
      requiredKey f "metadata" rd.readMetadata = some y.id ∧
      requiredKey f "spec" rd.readSpec = some ⟨y.budgets, y.rules, y.predictionPolicy⟩ := by
  obtain ⟨apiVersion, kind, id, budgets, rules, policy⟩ := y
  simp [DocumentReader.readContract, rd.fields_obj, Option.bind_eq_some_iff]
  grind [cases YamlSpec]

theorem obj_of_child? (hkey : Json.index? key.toList = none) (hc : v.child? key = some c)
    (hset : v.setChild? key c' = some v') :
    ∃ f, v = .obj f ∧ f.lookup key = some c ∧ v' = .obj (Json.setFields key c' f) := by
  cases v with
  | obj f =>
    rw [Json.setChild?, Option.ite_none_right_eq_some] at hset
    exact ⟨f, rfl, hc, (Option.some.inj hset.2).symm⟩
  | arr items =>
    rw [Json.child?, hkey] at hc
    cases hc
  | _ => cases hc

theorem arr_of_child? {items : List Json} (hitems : rd.items v = some items) (hc : v.child? (toString n) = some c)
    (hset : v.setChild? (toString n) c' = some v') :
    v = .arr items ∧ items[n]? = some c ∧ v' = .arr (items.set n c') := by
  cases v with
  | obj f =>
    rw [rd.items_obj] at hitems
    cases hitems
  | arr l =>
    rw [rd.items_arr] at hitems
    cases hitems
    rw [Json.child?, Json.index?_toString] at hc
    rw [Json.setChild?, Json.index?_toString, Option.bind_eq_bind, Option.bind_some,
      Option.ite_none_right_eq_some] at hset
    exact ⟨rfl, hc, (Option.some.inj hset.2).symm⟩
  | _ => cases hc

theorem mapM_set {β : Type} {g : α → Option β} {R : β → β → Prop} (hrefl : ∀ y, R y y) {l : List α} {ys : List β}
    (h : l.mapM g = some ys) {i : ℕ} {a a' : α} (ha : l[i]? = some a)
    (hstep : ∀ y, g a = some y → ∃ y', g a' = some y' ∧ R y y') :
    ∃ ys', (l.set i a').mapM g = some ys' ∧ List.Forall₂ R ys ys' := by
  induction l generalizing i ys with
  | nil => cases ha
  | cons x l ih =>
    rw [List.mapM_cons] at h
    obtain ⟨y, hy, h⟩ := Option.bind_eq_some_iff.mp h
    obtain ⟨zs, hzs, h⟩ := Option.bind_eq_some_iff.mp h
    cases h
    cases i with
    | zero =>
      cases ha
      obtain ⟨y', hy', hR⟩ := hstep y hy
      refine ⟨y' :: zs, ?_, .cons hR (List.forall₂_same.mpr fun z _ => hrefl z)⟩
      rw [List.set_cons_zero, List.mapM_cons, hy', hzs]
      rfl
    | succ i =>
      obtain ⟨zs', hzs', hall⟩ := ih hzs ha
      refine ⟨y :: zs', ?_, .cons (hrefl y) hall⟩
      rw [List.set_cons_succ, List.mapM_cons, hy, hzs']
      rfl

theorem readList_replaced {read : Json → Option α} {R : α → α → Prop} (hrefl : ∀ y, R y y) {ys : List α}
    (h : rd.readList read v = some ys) (hc : v.child? (toString n) = some c)
    (hset : v.setChild? (toString n) c' = some v')
    (hstep : ∀ y, read c = some y → ∃ y', read c' = some y' ∧ R y y') :
    ∃ ys', rd.readList read v' = some ys' ∧ List.Forall₂ R ys ys' := by
  obtain ⟨items, hitems, hys⟩ := Option.bind_eq_some_iff.mp h
  obtain ⟨-, hget, rfl⟩ := arr_of_child? hitems hc hset
  rw [DocumentReader.readList, rd.items_arr]
  exact mapM_set hrefl hys hget hstep

def Leaf.Fits (leaf : Leaf) (v : Json) : Prop :=
  match leaf with
  | .reservationTtlSeconds => ∃ m, v = .int m ∧ -2 ^ 63 ≤ m ∧ m < 2 ^ 63
  | .decision => ∃ s, v = .str s ∧ (parseDecision s).isSome
  | _ => ∃ s, v = .str s

theorem eq_str_of_asStr? (h : v.asStr? = some s) : v = .str s := by
  cases v with
  | str t => rw [Option.some.inj h]
  | _ => cases h

theorem fits_of_validateValue {leaf : Leaf} {u : Unit} (h : validateValue v leaf = .ok u) : leaf.Fits v := by
  cases leaf with
  | reservationTtlSeconds =>
    obtain ⟨m, hm, -⟩ := found_bind_eq_ok.mp h
    cases v with
    | int k =>
      rw [Json.asI64?, Option.ite_none_right_eq_some] at hm
      exact ⟨k, rfl, hm.1⟩
    | _ => cases hm
  | decision =>
    obtain ⟨s, hs, h⟩ := found_bind_eq_ok.mp h
    have hmem := check_eq_ok.mp h
    have hall : ∀ s ∈ decisions, (parseDecision s).isSome := by decide
    exact ⟨s, eq_str_of_asStr? hs, hall s hmem⟩
  | _ =>
    obtain ⟨s, hs, -⟩ := found_bind_eq_ok.mp h
    exact ⟨s, eq_str_of_asStr? hs⟩

theorem replace?_key (hkey : Json.index? key.toList = none) {p : List String}
    (h : v.replace? (key :: p) x = some v') :
    ∃ f c c', v = .obj f ∧ f.lookup key = some c ∧ c.replace? p x = some c' ∧ v' = .obj (Json.setFields key c' f) := by
  obtain ⟨c, c', hc, hc', hset⟩ := Json.replace?_cons h
  obtain ⟨f, rfl, hlookup, rfl⟩ := obj_of_child? hkey hc hset
  exact ⟨f, c, c', rfl, hlookup, hc', rfl⟩

def Leaf.tail : Leaf → List String
  | .limitAmountAtomic => ["limit_amount_atomic"]
  | .reservationTtlSeconds => ["reservation_ttl_seconds"]
  | .claimAmountAtomicGt => ["when", "claim_amount_atomic_gt"]
  | .decision => ["then", "decision"]
  | .approverRole => ["then", "approver_role"]

theorem readBudget_replaced {leaf : Leaf} (hleaf : leaf.isBudget = true) (hfits : leaf.Fits x)
    (h : rd.readBudget v = some id) (hrep : v.replace? leaf.tail x = some v') : rd.readBudget v' = some id := by
  cases leaf with
  | limitAmountAtomic =>
    obtain ⟨f, c, c', rfl, -, hc', rfl⟩ := replace?_key (by decide) hrep
    cases hc'
    obtain ⟨s, rfl⟩ := hfits
    exact readBudget_limit h
  | reservationTtlSeconds =>
    obtain ⟨f, c, c', rfl, -, hc', rfl⟩ := replace?_key (by decide) hrep
    cases hc'
    obtain ⟨m, rfl, hm⟩ := hfits
    exact readBudget_ttl hm h
  | _ => cases hleaf

theorem readAction_of_readRule {r : YamlRule} (h : rd.readRule (.obj f) = some r) (hthen : f.lookup "then" = some c) :
    rd.readAction c = some (r.decision, r.reasonCode, r.approverRole) := by
  rw [← (readRule_obj.mp h).2.2.1, requiredKey, hthen]
  rfl

theorem readRule_then {r : YamlRule} (h : rd.readRule (.obj f) = some r)
    (hnew : rd.readAction c' = some (d, r.reasonCode, role)) :
    rd.readRule (.obj (Json.setFields "then" c' f)) = some { r with decision := d, approverRole := role } := by
  have hr := readRule_obj.mp h
  rw [readRule_obj]
  simpa [requiredKey_setFields, defaultKey_setFields, hnew] using ⟨hr.1, hr.2.1, hr.2.2.2⟩

theorem readRule_replaced {leaf : Leaf} {r : YamlRule} (hleaf : leaf.isBudget = false) (hfits : leaf.Fits x)
    (h : rd.readRule v = some r) (hrep : v.replace? leaf.tail x = some v') :
    ∃ r', rd.readRule v' = some r' ∧ RuleAlike r r' := by
  cases leaf with
  | limitAmountAtomic => cases hleaf
  | reservationTtlSeconds => cases hleaf
  | claimAmountAtomicGt =>
    obtain ⟨f, c, c', rfl, hwhen, hc', rfl⟩ := replace?_key (by decide) hrep
    obtain ⟨g, d, d', rfl, -, hd', rfl⟩ := replace?_key (by decide) hc'
    cases hd'
    obtain ⟨s, rfl⟩ := hfits
    rw [readRule_obj, requiredKey, requiredKey, hwhen] at h
    refine ⟨{ r with claimAmountAtomicGt := some s }, ?_, ⟨rfl, rfl, rfl, id⟩⟩
    rw [readRule_obj]
    simpa [requiredKey_setFields, defaultKey_setFields, readCondition_gt h.2.1] using ⟨h.1, h.2.2⟩
  | decision =>
    obtain ⟨f, c, c', rfl, hthen, hc', rfl⟩ := replace?_key (by decide) hrep
    obtain ⟨g, d, d', rfl, -, hd', rfl⟩ := replace?_key (by decide) hc'
    cases hd'
    obtain ⟨s, rfl, hknown⟩ := hfits
    have haction := readAction_decision (s := s) (readAction_of_readRule h hthen)
    exact ⟨_, readRule_then h haction, ⟨rfl, rfl, rfl, fun _ => hknown⟩⟩
  | approverRole =>
    obtain ⟨f, c, c', rfl, hthen, hc', rfl⟩ := replace?_key (by decide) hrep
    obtain ⟨g, d, d', rfl, -, hd', rfl⟩ := replace?_key (by decide) hc'
    cases hd'
    obtain ⟨s, rfl⟩ := hfits
    have haction := readAction_role (s := s) (readAction_of_readRule h hthen)
    exact ⟨_, readRule_then h haction, ⟨rfl, rfl, rfl, id⟩⟩

structure ContractAlike (y y' : YamlContract) : Prop where
  apiVersion : y'.apiVersion = y.apiVersion
  kind : y'.kind = y.kind
  id : y'.id = y.id
  budgets : y'.budgets = y.budgets
  policy : y'.predictionPolicy = y.predictionPolicy
  rules : List.Forall₂ RuleAlike y.rules y'.rules

theorem readSpec_budgets {leaf : Leaf} (hleaf : leaf.isBudget = true) (hfits : leaf.Fits x)
    (h : rd.readSpec v = some spec) (hrep : v.replace? ("budgets" :: toString n :: leaf.tail) x = some v') :
    rd.readSpec v' = some spec := by
  obtain ⟨g, l, l', rfl, hl, hl', rfl⟩ := replace?_key (by decide) hrep
  obtain ⟨item, item', hitem, hitem', hset⟩ := Json.replace?_cons hl'
  have hspec := readSpec_obj.mp h
  have hlist : rd.readList rd.readBudget l = some spec.budgets := by
    rw [← hspec.1, defaultKey, hl]
  obtain ⟨ys, hys, hsame⟩ := readList_replaced (R := Eq) (fun _ => rfl) hlist hitem hset fun id hid =>
    ⟨id, readBudget_replaced hleaf hfits hid hitem', rfl⟩
  rw [List.forall₂_eq_eq_eq] at hsame
  rw [readSpec_obj]
  simpa [defaultKey_setFields, hys, ← hsame] using hspec.2

theorem readSpec_rules {leaf : Leaf} (hleaf : leaf.isBudget = false) (hfits : leaf.Fits x)
    (h : rd.readSpec v = some spec) (hrep : v.replace? ("rules" :: toString n :: leaf.tail) x = some v') :
    ∃ rules, rd.readSpec v' = some { spec with rules := rules } ∧ List.Forall₂ RuleAlike spec.rules rules := by
  obtain ⟨g, l, l', rfl, hl, hl', rfl⟩ := replace?_key (by decide) hrep
  obtain ⟨item, item', hitem, hitem', hset⟩ := Json.replace?_cons hl'
  have hspec := readSpec_obj.mp h
  have hlist : rd.readList rd.readRule l = some spec.rules := by
    rw [← hspec.2.1, defaultKey, hl]
  obtain ⟨rules, hrules, halike⟩ := readList_replaced RuleAlike.refl hlist hitem hset fun r hr =>
    readRule_replaced hleaf hfits hr hitem'
  refine ⟨rules, ?_, halike⟩
  rw [readSpec_obj]
  simpa [defaultKey_setFields, hrules] using ⟨hspec.1, hspec.2.2⟩

theorem readContract_replaced {doc doc' : Json} {y : YamlContract} {leaf : Leaf} (hfits : leaf.Fits x)
    (h : rd.readContract doc = some y) (hrep : doc.replace? (leaf.parts n) x = some doc') :
    ∃ y', rd.readContract doc' = some y' ∧ ContractAlike y y' := by
  have hbudget (hleaf : leaf.isBudget = true) (hparts : leaf.parts n = "spec" :: "budgets" :: toString n :: leaf.tail) :
      ∃ y', rd.readContract doc' = some y' ∧ ContractAlike y y' := by
    rw [hparts] at hrep
    obtain ⟨f, spec, spec', rfl, hspec, hspec', rfl⟩ := replace?_key (by decide) hrep
    have hy := readContract_obj.mp h
    have hread : rd.readSpec spec = some ⟨y.budgets, y.rules, y.predictionPolicy⟩ := by
      rw [← hy.2.2.2, requiredKey, hspec]
      rfl
    refine ⟨y, ?_, ⟨rfl, rfl, rfl, rfl, rfl, List.forall₂_same.mpr fun r _ => .refl r⟩⟩
    rw [readContract_obj]
    simpa [requiredKey_setFields, readSpec_budgets hleaf hfits hread hspec'] using ⟨hy.1, hy.2.1, hy.2.2.1⟩
  have hrule (hleaf : leaf.isBudget = false) (hparts : leaf.parts n = "spec" :: "rules" :: toString n :: leaf.tail) :
      ∃ y', rd.readContract doc' = some y' ∧ ContractAlike y y' := by
    rw [hparts] at hrep
    obtain ⟨f, spec, spec', rfl, hspec, hspec', rfl⟩ := replace?_key (by decide) hrep
    have hy := readContract_obj.mp h
    have hread : rd.readSpec spec = some ⟨y.budgets, y.rules, y.predictionPolicy⟩ := by
      rw [← hy.2.2.2, requiredKey, hspec]
      rfl
    obtain ⟨rules, hrules, halike⟩ := readSpec_rules hleaf hfits hread hspec'
    refine ⟨{ y with rules := rules }, ?_, ⟨rfl, rfl, rfl, rfl, rfl, halike⟩⟩
    rw [readContract_obj]
    simpa [requiredKey_setFields, hrules] using ⟨hy.1, hy.2.1, hy.2.2.1⟩
  cases leaf with
  | limitAmountAtomic => exact hbudget rfl rfl
  | reservationTtlSeconds => exact hbudget rfl rfl
  | _ => exact hrule rfl rfl

end Replaced

section Parsed

variable {uuid : String → Option Uuid} {version : ApiVersion} {r r' : YamlRule} {rule : Rule}

theorem versioned_ok {α : Type} {default a : α} {fromStr : String → Option α} {text : Option String}
    {e e' : String → String} (h : versioned version default fromStr text e = .ok a) :
    versioned version default fromStr text e' = .ok a := by
  cases version with
  | v1alpha1 => exact h
  | v1alpha2 =>
    cases text with
    | none => exact h
    | some s => exact found_eq_ok.mpr (found_eq_ok.mp h)

theorem RuleAlike.parseRule (halike : RuleAlike r r') (h : parseRule uuid version r = .ok rule) :
    ∃ rule', parseRule uuid version r' = .ok rule' ∧ rule'.runProjectionAction = rule.runProjectionAction := by
  obtain ⟨b, hb, h⟩ := found_bind_eq_ok.mp h
  obtain ⟨hcondition, h⟩ := check_bind_eq_ok.mp h
  obtain ⟨d, hd, h⟩ := found_bind_eq_ok.mp h
  obtain ⟨a, ha, h⟩ := bind_eq_ok.mp h
  cases h
  obtain ⟨d', hd'⟩ := Option.isSome_iff_exists.mp (halike.decision (Option.isSome_of_eq_some hd))
  rw [← halike.budgetId] at hb
  rw [← halike.condition] at hcondition
  rw [← halike.action] at ha
  refine ⟨_, found_bind_eq_ok.mpr ⟨b, hb, check_bind_eq_ok.mpr ⟨hcondition, found_bind_eq_ok.mpr ⟨d', hd',
    bind_eq_ok.mpr ⟨a, versioned_ok ha, rfl⟩⟩⟩⟩, rfl⟩

theorem parseRules_alike {rs rs' : List YamlRule} {rules : List Rule} (halike : List.Forall₂ RuleAlike rs rs')
    (h : parseRules uuid version rs = .ok rules) :
    ∃ rules', parseRules uuid version rs' = .ok rules' ∧
      rules'.map Rule.runProjectionAction = rules.map Rule.runProjectionAction := by
  induction halike generalizing rules with
  | nil =>
    cases h
    exact ⟨[], rfl, rfl⟩
  | cons hr _ ih =>
    obtain ⟨rule, hrule, h⟩ := bind_eq_ok.mp h
    obtain ⟨rest, hrest, h⟩ := bind_eq_ok.mp h
    cases h
    obtain ⟨rule', hrule', haction⟩ := hr.parseRule hrule
    obtain ⟨rest', hrest', hactions⟩ := ih hrest
    refine ⟨rule' :: rest', ?_, by rw [List.map_cons, List.map_cons, haction, hactions]⟩
    rw [parseRules, hrule', ok_bind, hrest', ok_bind]
    rfl

theorem checkPairs_alike {policy : PredictionPolicy} {rules rules' : List Rule} {u : Unit}
    (hactions : rules'.map Rule.runProjectionAction = rules.map Rule.runProjectionAction)
    (h : checkPairs policy rules = .ok u) : checkPairs policy rules' = .ok () := by
  induction rules generalizing rules' with
  | nil =>
    rw [List.map_nil, List.map_eq_nil_iff] at hactions
    rw [hactions]
    rfl
  | cons rule rest ih =>
    cases rules' with
    | nil => cases hactions
    | cons rule' rest' =>
      rw [List.map_cons, List.map_cons, List.cons.injEq] at hactions
      obtain ⟨hpair, h⟩ := check_bind_eq_ok.mp h
      refine check_bind_eq_ok.mpr ⟨?_, ih hactions.2 h⟩
      rw [hactions.1]
      exact hpair

theorem ContractAlike.parseYaml {y y' : YamlContract} {c : Contract} (halike : ContractAlike y y')
    (h : parseYaml uuid y = .ok c) : ∃ c', parseYaml uuid y' = .ok c' := by
  obtain ⟨version, hversion, h⟩ := found_bind_eq_ok.mp h
  obtain ⟨hkind, h⟩ := check_bind_eq_ok.mp h
  obtain ⟨id, hid, h⟩ := found_bind_eq_ok.mp h
  obtain ⟨u, hbudgets, h⟩ := bind_eq_ok.mp h
  obtain ⟨policy, hpolicy, h⟩ := bind_eq_ok.mp h
  obtain ⟨rules, hrules, h⟩ := bind_eq_ok.mp h
  obtain ⟨w, hpairs, -⟩ := bind_eq_ok.mp h
  rw [← halike.apiVersion] at hversion
  rw [← halike.kind] at hkind
  rw [← halike.id] at hid
  rw [← halike.budgets] at hbudgets
  rw [← halike.policy] at hpolicy
  obtain ⟨rules', hrules', hactions⟩ := parseRules_alike halike.rules hrules
  refine ⟨_, found_bind_eq_ok.mpr ⟨version, hversion, check_bind_eq_ok.mpr ⟨hkind, found_bind_eq_ok.mpr ⟨id, hid,
    bind_eq_ok.mpr ⟨u, hbudgets, bind_eq_ok.mpr ⟨policy, versioned_ok hpolicy, bind_eq_ok.mpr ⟨rules', hrules',
      bind_eq_ok.mpr ⟨(), checkPairs_alike hactions hpairs, rfl⟩⟩⟩⟩⟩⟩⟩⟩

end Parsed

section Scoped

variable {other : Json → Json → Option Json} {at' : ℕ → ℕ} {p : PatchOp} {ps : List PatchOp} {doc doc' : Json}
  {leaf : Leaf} {n j : ℕ}

theorem toString_inj {m n : ℕ} (h : toString m = toString n) : m = n := by
  have hm := Json.index?_toString m
  rw [h, Json.index?_toString] at hm
  exact (Option.some.inj hm).symm

def budgetParts (j : ℕ) : List String := ["spec", "budgets", toString j]

theorem leafParts_not_prefix_idParts : ¬leaf.parts n <+: idParts j := by
  cases leaf <;> simp [Leaf.parts, idParts, List.cons_prefix_cons]

theorem idParts_not_prefix_leafParts : ¬idParts j <+: leaf.parts n := by
  cases leaf <;> simp [Leaf.parts, idParts, List.cons_prefix_cons]

theorem leafParts_not_prefix_budgetParts : ¬leaf.parts n <+: budgetParts j := by
  cases leaf <;> simp [Leaf.parts, budgetParts, List.cons_prefix_cons]

theorem budgetParts_prefix_leafParts (h : budgetParts j <+: leaf.parts n) : leaf.isBudget = true ∧ n = j := by
  cases leaf with
  | limitAmountAtomic => exact ⟨rfl, (toString_inj (by simpa [Leaf.parts, budgetParts, List.cons_prefix_cons] using h)).symm⟩
  | reservationTtlSeconds =>
    exact ⟨rfl, (toString_inj (by simpa [Leaf.parts, budgetParts, List.cons_prefix_cons] using h)).symm⟩
  | _ => simp [Leaf.parts, budgetParts, List.cons_prefix_cons] at h

def PatchOp.written (at' : ℕ → ℕ) (leaf : Leaf) (n : ℕ) : ℕ := if leaf.isBudget then at' n else n

structure Scoped (at' : ℕ → ℕ) (ps : List PatchOp) (doc doc' : Json) : Prop where
  nodes : ∀ q, (∀ leaf n, ¬Leaf.parts leaf n <+: q) → (doc'.pointer? q).map Json.node = (doc.pointer? q).map Json.node
  ids : ∀ j, doc'.pointer? (idParts j) = doc.pointer? (idParts j)
  budgets : ∀ j, doc'.pointer? (budgetParts j) ≠ doc.pointer? (budgetParts j) →
    ∃ leaf n v, PatchOp.write leaf n v ∈ ps ∧ leaf.isBudget = true ∧ at' n = j
  pins : ∀ i id, PatchOp.pin i id ∈ ps → doc.pointer? (idParts (at' i)) = some (.str id)

theorem patch_scoped (h : doc.patch other (ps.map (PatchOp.operation at')) = some doc') : Scoped at' ps doc doc' := by
  induction ps generalizing doc with
  | nil =>
    cases h
    exact ⟨fun _ _ => rfl, fun _ => rfl, fun _ hne => absurd rfl hne, fun _ _ hpin => by cases hpin⟩
  | cons p ps ih =>
    obtain ⟨mid, hmid, hrest⟩ := Option.bind_eq_some_iff.mp h
    have hscoped := ih hrest
    cases p with
    | pin i id =>
      obtain ⟨rfl, htest⟩ := Json.apply_test hmid
      refine ⟨hscoped.nodes, hscoped.ids, fun j hne => ?_, fun i' id' hpin => ?_⟩
      · obtain ⟨leaf, n, v, hwrite, hat⟩ := hscoped.budgets j hne
        exact ⟨leaf, n, v, List.mem_cons_of_mem _ hwrite, hat⟩
      · rw [List.mem_cons] at hpin
        obtain heq | hpin := hpin
        · cases heq
          exact htest
        · exact hscoped.pins i' id' hpin
    | write leaf n v =>
      have hreplace : doc.replace? (leaf.parts (PatchOp.written at' leaf n)) v = some mid := hmid
      have hids (j : ℕ) : mid.pointer? (idParts j) = doc.pointer? (idParts j) :=
        Json.pointer?_replace?_of_not_prefix hreplace leafParts_not_prefix_idParts idParts_not_prefix_leafParts
      refine ⟨fun q hq => ?_, fun j => (hscoped.ids j).trans (hids j), fun j hne => ?_, fun i id hpin => ?_⟩
      · exact (hscoped.nodes q hq).trans (Json.node_pointer?_replace? hreplace (hq _ _))
      · by_cases hprefix : budgetParts j <+: leaf.parts (PatchOp.written at' leaf n)
        · obtain ⟨hbudget, hj⟩ := budgetParts_prefix_leafParts hprefix
          rw [PatchOp.written, if_pos hbudget] at hj
          exact ⟨leaf, n, v, List.mem_cons_self .., hbudget, hj⟩
        · have hsame := Json.pointer?_replace?_of_not_prefix hreplace leafParts_not_prefix_budgetParts hprefix
          rw [← hsame] at hne
          obtain ⟨leaf', n', v', hwrite, hat⟩ := hscoped.budgets j hne
          exact ⟨leaf', n', v', List.mem_cons_of_mem _ hwrite, hat⟩
      · rw [List.mem_cons] at hpin
        obtain heq | hpin := hpin
        · cases heq
        · rw [← hids]
          exact hscoped.pins i id hpin

theorem ContractAlike.refl (y : YamlContract) : ContractAlike y y :=
  ⟨rfl, rfl, rfl, rfl, rfl, List.forall₂_same.mpr fun r _ => .refl r⟩

theorem RuleAlike.trans {a b c : YamlRule} (hab : RuleAlike a b) (hbc : RuleAlike b c) : RuleAlike a c where
  budgetId := hbc.budgetId.trans hab.budgetId
  action := hbc.action.trans hab.action
  condition := hbc.condition.trans hab.condition
  decision := hbc.decision ∘ hab.decision

theorem rulesAlike_trans {a b c : List YamlRule} (hab : List.Forall₂ RuleAlike a b) (hbc : List.Forall₂ RuleAlike b c) :
    List.Forall₂ RuleAlike a c := by
  induction hab generalizing c with
  | nil => exact hbc
  | cons hr _ ih =>
    cases hbc with
    | cons hr' hrest => exact .cons (hr.trans hr') (ih hrest)

theorem ContractAlike.trans {a b c : YamlContract} (hab : ContractAlike a b) (hbc : ContractAlike b c) :
    ContractAlike a c where
  apiVersion := hbc.apiVersion.trans hab.apiVersion
  kind := hbc.kind.trans hab.kind
  id := hbc.id.trans hab.id
  budgets := hbc.budgets.trans hab.budgets
  policy := hbc.policy.trans hab.policy
  rules := rulesAlike_trans hab.rules hbc.rules

variable {y : YamlContract}

theorem readContract_patched {rd : DocumentReader} (hok : ∀ p ∈ ps, p.Acceptable)
    (h : doc.patch other (ps.map (PatchOp.operation at')) = some doc') (hread : rd.readContract doc = some y) :
    ∃ y', rd.readContract doc' = some y' ∧ ContractAlike y y' := by
  induction ps generalizing doc y with
  | nil =>
    cases h
    exact ⟨y, hread, .refl y⟩
  | cons p ps ih =>
    rw [List.forall_mem_cons] at hok
    obtain ⟨mid, hmid, hrest⟩ := Option.bind_eq_some_iff.mp h
    cases p with
    | pin i id =>
      obtain ⟨rfl, -⟩ := Json.apply_test hmid
      exact ih hok.2 hrest hread
    | write leaf n v =>
      obtain ⟨y₁, hread₁, halike₁⟩ := readContract_replaced (fits_of_validateValue hok.1) hread hmid
      obtain ⟨y₂, hread₂, halike₂⟩ := ih hok.2 hrest hread₁
      exact ⟨y₂, hread₂, halike₁.trans halike₂⟩

theorem child?_key {v : Json} {key : String} (hkey : Json.index? key.toList = none) : v.child? key = v.get? key := by
  cases v with
  | arr items =>
    rw [Json.child?, hkey]
    rfl
  | _ => rfl

theorem index?_spec : Json.index? "spec".toList = none := by decide

theorem index?_budgets : Json.index? "budgets".toList = none := by decide

theorem index?_id : Json.index? "id".toList = none := by decide

theorem pointer?_idParts (doc : Json) (j : ℕ) :
    doc.pointer? (idParts j) = doc.pointer? (budgetParts j) >>= (·.get? "id") := by
  have happend : idParts j = budgetParts j ++ ["id"] := rfl
  simp only [happend, Json.pointer?_append, Json.pointer?_singleton, child?_key index?_id]

theorem budgets_not_obj {rd : DocumentReader} (hread : rd.readContract doc = some y) (g : Fields) :
    (doc.get? "spec" >>= (·.get? "budgets")) ≠ some (.obj g) := by
  intro hbudgets
  obtain ⟨spec, hspec, hbudgets⟩ := Option.bind_eq_some_iff.mp hbudgets
  cases doc with
  | obj f =>
    have hreadSpec := (readContract_obj.mp hread).2.2.2
    have hlookup : f.lookup "spec" = some spec := hspec
    rw [requiredKey, hlookup] at hreadSpec
    cases spec with
    | obj h =>
      have hlist := (readSpec_obj.mp hreadSpec).1
      have hlookup : h.lookup "budgets" = some (.obj g) := hbudgets
      simp [defaultKey, hlookup, DocumentReader.readList, rd.items_obj] at hlist
    | _ => cases hbudgets
  | _ => cases hspec

theorem getElem?_budgetsOf {rd : DocumentReader} (hread : rd.readContract doc = some y) (j : ℕ) :
    (budgetsOf doc)[j]? = doc.pointer? (budgetParts j) := by
  have hpointer : doc.pointer? (budgetParts j) =
      (doc.get? "spec" >>= (·.get? "budgets")) >>= (·.child? (toString j)) := by
    have happend : budgetParts j = ["spec"] ++ ["budgets"] ++ [toString j] := rfl
    simp only [happend, Json.pointer?_append, Json.pointer?_singleton, child?_key index?_spec, child?_key index?_budgets]
  have hobj := budgets_not_obj hread
  rw [hpointer, budgetsOf]
  cases hbudgets : doc.get? "spec" >>= (·.get? "budgets") with
  | none => rfl
  | some v =>
    cases v with
    | arr l =>
      show l[j]? = Json.index? (toString j).toList >>= fun i => l[i]?
      rw [Json.index?_toString]
      rfl
    | obj g => exact absurd hbudgets (hobj g)
    | _ => rfl

def budgetIds (doc : Json) : List (Option Json) := (budgetsOf doc).map (·.get? "id")

def Proposes (patch : Json) (kind : String) (parts : List String) (v : Json) : Prop :=
  ∃ ops op, patch = .arr ops ∧ op ∈ ops ∧ op.get? "op" = some (.str kind) ∧
    op.get? "path" = some (.str (Json.pathOf parts)) ∧ op.get? "value" = some v

theorem Scoped.budgetIds {rd : DocumentReader} {y' : YamlContract} (h : Scoped at' ps doc doc')
    (hread : rd.readContract doc = some y) (hread' : rd.readContract doc' = some y') :
    budgetIds doc' = budgetIds doc := by
  apply List.ext_getElem?
  intro j
  rw [Registry.budgetIds, Registry.budgetIds, List.getElem?_map, List.getElem?_map]
  have hsome := h.nodes (budgetParts j) fun leaf n => leafParts_not_prefix_budgetParts
  have hids := h.ids j
  rw [pointer?_idParts, pointer?_idParts, ← getElem?_budgetsOf hread', ← getElem?_budgetsOf hread] at hids
  rw [← getElem?_budgetsOf hread', ← getElem?_budgetsOf hread] at hsome
  cases hb : (budgetsOf doc)[j]? with
  | none =>
    rw [hb, Option.map_none, Option.map_eq_none_iff] at hsome
    rw [hsome]
  | some b =>
    rw [hb] at hsome hids
    obtain ⟨b', hb', -⟩ := Option.map_eq_some_iff.mp hsome
    rw [hb'] at hids ⊢
    exact congrArg some hids

theorem proposes_of_mem {ops : List Json} (h : List.Forall₂ Reads ops ps) (hp : p ∈ ps) :
    Proposes (.arr ops) p.kind p.parts p.value := by
  induction h with
  | nil => cases hp
  | @cons op q ops qs hop _ ih =>
    rw [List.mem_cons] at hp
    obtain rfl | hp := hp
    · exact ⟨op :: ops, op, rfl, List.mem_cons_self .., hop.kind, hop.path, hop.value⟩
    · obtain ⟨ops', op', heq, hmem, hrest⟩ := ih hp
      cases heq
      exact ⟨op :: ops, op', rfl, List.mem_cons_of_mem _ hmem, hrest⟩

theorem pin_of_proposes {ops : List Json} {i : ℕ} {v : Json} (h : List.Forall₂ Reads ops ps)
    (hp : Proposes (.arr ops) "test" (idParts i) v) : ∃ id, v = .str id ∧ PatchOp.pin i id ∈ ps := by
  obtain ⟨ops', op, heq, hmem, hkind, hpath, hvalue⟩ := hp
  cases heq
  induction h with
  | nil => cases hmem
  | @cons op' q ops qs hop _ ih =>
    rw [List.mem_cons] at hmem
    obtain rfl | hmem := hmem
    · cases q with
      | pin i' id =>
        have hparts : some (Json.str (Json.pathOf (idParts i'))) = some (.str (Json.pathOf (idParts i))) :=
          hop.path.symm.trans hpath
        have hsegments := congrArg Json.segments (Json.str.inj (Option.some.inj hparts))
        rw [(plain_idParts i').segments, (plain_idParts i).segments] at hsegments
        have hi : i' = i := toString_inj (by simpa [idParts] using hsegments)
        have hid : some (Json.str id) = some v := hop.value.symm.trans hvalue
        exact ⟨id, (Option.some.inj hid).symm, hi ▸ List.mem_cons_self ..⟩
      | write leaf n w =>
        have hreplace : some (Json.str "replace") = some (.str "test") := hop.kind.symm.trans hkind
        exact absurd hreplace (by decide)
    · obtain ⟨id, hv, hpin⟩ := ih hmem
      exact ⟨id, hv, List.mem_cons_of_mem _ hpin⟩

/-- An accepted patch changes leaves only; a changed budget is one that the patch pins at the index it
writes to; and the sidecar still reads the contract. -/
theorem accepted_patch_scoped {Text : Type} {rd : DocumentReader} {uuid : String → Option Uuid} {yaml : Yaml Text}
    {patch : Json} {text text' : Text} {c : Contract} {u : Unit} (hvalid : validate patch = .ok u) (hdoc : yaml.read text = .ok doc)
    (hparse : parseDocument rd uuid doc = .ok c) (happly : applyPatchToYaml other yaml text patch = .ok text') :
    ∃ doc', yaml.read text' = .ok doc' ∧
      (∀ q, (∀ leaf n, ¬Leaf.parts leaf n <+: q) → (doc'.pointer? q).map Json.node = (doc.pointer? q).map Json.node) ∧
      (∀ j : ℕ, (budgetsOf doc')[j]? ≠ (budgetsOf doc)[j]? →
        ∃ (leaf : Leaf) (i : ℕ) (v : Json), leaf.isBudget = true ∧ Proposes patch "replace" (leaf.parts i) v ∧
          (∃ id, Proposes patch "test" (idParts i) (.str id)) ∧
          ∀ id, Proposes patch "test" (idParts i) id → (budgetsOf doc)[j]? >>= (·.get? "id") = some id) ∧
      budgetIds doc' = budgetIds doc ∧ ∃ c', parseDocument rd uuid doc' = .ok c' := by
  obtain ⟨ops, ps, rfl, hreads, hok, hpinned⟩ := validate_ok hvalid
  obtain ⟨value, hvalue, happly⟩ := bind_eq_ok.mp happly
  cases hdoc.symm.trans (mapError_eq_ok.mp hvalue)
  obtain ⟨doc', happly, htext⟩ := bind_eq_ok.mp happly
  obtain ⟨at', hpatch⟩ := applyPatch_ok hreads happly
  obtain ⟨y, hy, hparse⟩ := found_bind_eq_ok.mp hparse
  obtain ⟨y', hy', halike⟩ := readContract_patched hok hpatch hy
  obtain ⟨c', hc'⟩ := halike.parseYaml hparse
  have hscoped := patch_scoped hpatch
  refine ⟨doc', ?_, hscoped.nodes, fun j hne => ?_, hscoped.budgetIds hy hy', c', ?_⟩
  · rw [← Except.ok.inj htext, yaml.read_write]
  · rw [getElem?_budgetsOf hy', getElem?_budgetsOf hy] at hne
    obtain ⟨leaf, i, v, hwrite, hbudget, rfl⟩ := hscoped.budgets j hne
    obtain ⟨id, hpin⟩ := hpinned leaf i v hwrite hbudget
    refine ⟨leaf, i, v, hbudget, proposes_of_mem hreads hwrite, ⟨id, proposes_of_mem hreads hpin⟩, fun w hw => ?_⟩
    obtain ⟨id', rfl, hpin'⟩ := pin_of_proposes hreads hw
    rw [getElem?_budgetsOf hy, ← hscoped.pins i id' hpin', pointer?_idParts]
  · exact found_bind_eq_ok.mpr ⟨y', hy', hc'⟩

end Scoped

section Example

def plainReader : DocumentReader where
  text := Json.asStr?
  integer := Json.asI64?
  bool v := if v = .bool true then some true else if v = .bool false then some false else none
  fields _ v := match v with
    | .obj l => some l
    | _ => none
  items := Json.asArr?
  text_str _ := rfl
  integer_int _ h := if_pos h
  fields_obj _ _ := rfl
  items_arr _ := rfl
  items_obj _ := rfl

def plainYaml : Yaml Json := ⟨.ok, id, fun _ => rfl⟩

def demoBudget (id limit : String) (ttl : ℤ) : Json :=
  .obj [("id", .str id), ("limit_amount_atomic", .str limit), ("currency", .str "USD"),
    ("reservation_ttl_seconds", .int ttl)]

def firstId : String := "44444444-4444-4444-8444-444444444444"

def secondId : String := "55555555-5555-4555-8555-555555555555"

def demoContract (ttl : ℤ) : Json :=
  .obj [("apiVersion", .str "spendguard.ai/v1alpha1"), ("kind", .str "Contract"),
    ("metadata", .obj [("id", .str "33333333-3333-4333-8333-333333333333"), ("name", .str "demo")]),
    ("spec", .obj [("budgets", .arr [demoBudget firstId "1000000000" 600, demoBudget secondId "2000000000" ttl]),
      ("rules", .arr [])])]

def ttlPatch (id : String) (ttl : ℤ) : Json :=
  .arr [.obj [("op", .str "test"), ("path", .str "/spec/budgets/0/id"), ("value", .str id)],
    .obj [("op", .str "replace"), ("path", .str "/spec/budgets/0/reservation_ttl_seconds"), ("value", .int ttl)]]

def demoUuid (s : String) : Option Uuid := if s.length = 36 then some ⟨0, [s]⟩ else none

def noOther : Json → Json → Option Json := fun _ _ => none

theorem second_budget_patched :
    applyPatchToYaml noOther plainYaml (demoContract 300) (ttlPatch secondId 45) = .ok (demoContract 45) ∧
    budgetIds (demoContract 45) = budgetIds (demoContract 300) ∧
    ∃ c, parseDocument plainReader demoUuid (demoContract 45) = .ok c := by
  have happly : applyPatchToYaml noOther plainYaml (demoContract 300) (ttlPatch secondId 45) = .ok (demoContract 45) := by
    decide +kernel
  have hvalid : validate (ttlPatch secondId 45) = .ok () := by decide +kernel
  have hread : plainYaml.read (demoContract 300) = .ok (demoContract 300) := rfl
  have hparse : (parseDocument plainReader demoUuid (demoContract 300)).isOk = true := by decide +kernel
  obtain ⟨c, hc⟩ := isOk_iff_exists.mp hparse
  obtain ⟨doc', hdoc', -, -, hids, haccepted⟩ := accepted_patch_scoped hvalid hread hc happly
  cases hdoc'
  exact ⟨happly, hids, haccepted⟩

end Example

end SpendGuard.Registry
