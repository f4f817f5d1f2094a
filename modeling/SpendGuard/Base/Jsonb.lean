import SpendGuard.Base.Json

/-!
JSON values as a database compares them: objects by their keys, numbers by their value.
-/

namespace SpendGuard.Base.Json

def insertKey (key : String) (v : Json) : List (String × Json) → List (String × Json)
  | [] => [(key, v)]
  | (k, w) :: rest =>
    if key < k then (key, v) :: (k, w) :: rest
    else if key = k then (key, v) :: rest
    else (k, w) :: insertKey key v rest

section Normal

variable (number : String → String)

mutual

/-- One value for all that are equal; `number` is the text of a number in lowest terms. -/
def normal : Json → Json
  | .null => .null
  | .bool b => .bool b
  | .int n => .real (number (toString n))
  | .real text => .real (number text)
  | .str s => .str s
  | .arr items => .arr (normalItems items)
  | .obj fields => .obj (normalFields fields)

def normalItems : List Json → List Json
  | [] => []
  | v :: rest => normal v :: normalItems rest

def normalFields : List (String × Json) → List (String × Json)
  | [] => []
  | (k, v) :: rest => insertKey k (normal v) (normalFields rest)

end

def Same (a b : Json) : Prop := normal number a = normal number b

instance (a b : Json) : Decidable (Same number a b) := inferInstanceAs (Decidable (_ = _))

end Normal

def setFields (key : String) (v : Json) : List (String × Json) → List (String × Json)
  | [] => [(key, v)]
  | (k, w) :: rest => if k = key then (key, v) :: rest else (k, w) :: setFields key v rest

def set? : Json → String → Json → Option Json
  | .obj fields, key, v => some (.obj (setFields key v fields))
  | _, _, _ => none

section Laws

variable {number : String → String} {key k : String} {v w x : Json} {fields : List (String × Json)}

theorem lookup_cons_self : ((k, v) :: fields).lookup k = some v := by
  simp [List.lookup]

theorem lookup_cons_of_ne (h : key ≠ k) : ((k, v) :: fields).lookup key = fields.lookup key := by
  simp [List.lookup, beq_false_of_ne h]

theorem lookup_insertKey :
    (insertKey key v fields).lookup k = if k = key then some v else fields.lookup k := by
  induction fields with
  | nil =>
    split
    case isTrue h => rw [h, insertKey, lookup_cons_self]
    case isFalse h => rw [insertKey, lookup_cons_of_ne h]
  | cons p rest ih =>
    obtain ⟨l, w⟩ := p
    rw [insertKey]
    by_cases h : k = key
    · subst h
      rw [if_pos rfl]
      split
      · exact lookup_cons_self
      · split
        · exact lookup_cons_self
        · next hne => rw [lookup_cons_of_ne hne, ih, if_pos rfl]
    · rw [if_neg h]
      split
      · exact lookup_cons_of_ne h
      · split
        · next heq => rw [lookup_cons_of_ne h, lookup_cons_of_ne (heq ▸ h)]
        · by_cases hl : k = l
          · rw [hl, lookup_cons_self, lookup_cons_self]
          · rw [lookup_cons_of_ne hl, lookup_cons_of_ne hl, ih, if_neg h]

theorem lookup_normalFields : (normalFields number fields).lookup k = (fields.lookup k).map (normal number) := by
  induction fields with
  | nil => rfl
  | cons p rest ih =>
    obtain ⟨l, w⟩ := p
    rw [normalFields, lookup_insertKey]
    split
    case isTrue h => rw [h, lookup_cons_self, Option.map_some]
    case isFalse h => rw [lookup_cons_of_ne h, ih]

theorem get?_normal : (normal number v).get? k = (v.get? k).map (normal number) := by
  cases v with
  | obj fields => exact lookup_normalFields
  | _ => rfl

theorem Same.get? (h : Same number v w) (k : String) :
    (v.get? k).map (normal number) = (w.get? k).map (normal number) := by
  rw [← get?_normal, ← get?_normal, h]

theorem Same.trans (h : Same number v w) (h' : Same number w x) : Same number v x := Eq.trans h h'

theorem lookup_setFields : (setFields key v fields).lookup k = if k = key then some v else fields.lookup k := by
  induction fields with
  | nil =>
    split
    case isTrue h => rw [h, setFields, lookup_cons_self]
    case isFalse h => rw [setFields, lookup_cons_of_ne h]
  | cons p rest ih =>
    obtain ⟨l, w⟩ := p
    rw [setFields]
    split
    case isTrue hl =>
      subst hl
      split
      case isTrue h => rw [h, lookup_cons_self]
      case isFalse h => rw [lookup_cons_of_ne h, lookup_cons_of_ne h]
    case isFalse hl =>
      by_cases hk : k = l
      · subst hk
        rw [lookup_cons_self, lookup_cons_self, if_neg hl]
      · rw [lookup_cons_of_ne hk, lookup_cons_of_ne hk, ih]

theorem get?_of_set? (h : w.set? key v = some x) (k : String) :
    x.get? k = if k = key then some v else w.get? k := by
  cases w with
  | obj fields =>
    cases h
    exact lookup_setFields
  | _ => cases h

end Laws

end SpendGuard.Base.Json
