import SpendGuard.Base.Jsonb

/-!
JSON values with the keys of every object in order.
-/

namespace SpendGuard.Base.Json

mutual

def sortKeys : Json → Json
  | .null => .null
  | .bool b => .bool b
  | .int n => .int n
  | .real text => .real text
  | .str s => .str s
  | .arr items => .arr (sortItems items)
  | .obj fields => .obj (sortFields [] fields)

def sortItems : List Json → List Json
  | [] => []
  | v :: rest => sortKeys v :: sortItems rest

def sortFields (out : List (String × Json)) : List (String × Json) → List (String × Json)
  | [] => out
  | (k, v) :: rest => sortFields (insertKey k (sortKeys v) out) rest

end

theorem sortItems_eq_map (items : List Json) : sortItems items = items.map sortKeys := by
  induction items with
  | nil => rfl
  | cons v items ih => rw [sortItems, ih, List.map_cons]

theorem lookup_sortFields {out fields : List (String × Json)} {k : String} (h : (fields.map Prod.fst).Nodup) :
    (sortFields out fields).lookup k = ((fields.lookup k).map sortKeys).or (out.lookup k) := by
  induction fields generalizing out with
  | nil => rfl
  | cons p fields ih =>
    obtain ⟨l, v⟩ := p
    rw [List.map_cons, List.nodup_cons] at h
    rw [sortFields, ih h.2, lookup_insertKey]
    by_cases hk : k = l
    · subst hk
      have hnone : fields.lookup k = none := List.lookup_eq_none_iff.mpr fun p hp => by
        rw [bne_iff_ne]
        exact fun heq => h.1 (List.mem_map.mpr ⟨p, hp, heq.symm⟩)
      rw [if_pos rfl, hnone, lookup_cons_self]
      rfl
    · rw [if_neg hk, lookup_cons_of_ne hk]

theorem get?_sortKeys {fields : List (String × Json)} {k : String} (h : (fields.map Prod.fst).Nodup) :
    (sortKeys (.obj fields)).get? k = (fields.lookup k).map sortKeys := by
  rw [sortKeys]
  exact (lookup_sortFields h).trans (Option.or_none ..)

end SpendGuard.Base.Json
