import SpendGuard.Base.Check
import SpendGuard.Base.Jsonb
import SpendGuard.Base.Text

/-!
Pointers into JSON values (RFC 6901) and the patches that test and replace what they point to (RFC 6902).
-/

namespace SpendGuard.Base.Json

def index? (t : List Char) : Option ℕ := (parseDigits t).filter fun n => Nat.toDigits 10 n = t

def unescape : List Char → Option (List Char)
  | [] => some []
  | '~' :: '1' :: t => (unescape t).map ('/' :: ·)
  | '~' :: '0' :: t => (unescape t).map ('~' :: ·)
  | '~' :: _ => none
  | c :: t => (unescape t).map (c :: ·)

def slashed (path : String) : Option (List String) :=
  match path.toList with
  | '/' :: t => some ((t.splitOn '/').map String.ofList)
  | _ => none

def segments (path : String) : Option (List String) :=
  if path = "" then some []
  else slashed path >>= fun parts => parts.mapM fun s => (unescape s.toList).map String.ofList

def pathOf (parts : List String) : String := String.ofList ('/' :: ['/'].intercalate (parts.map String.toList))

def child? : Json → String → Option Json
  | .obj fields, key => fields.lookup key
  | .arr items, key => index? key.toList >>= fun i => items[i]?
  | _, _ => none

def setChild? : Json → String → Json → Option Json
  | .obj fields, key, v => if (fields.lookup key).isSome then some (.obj (setFields key v fields)) else none
  | .arr items, key, v =>
    index? key.toList >>= fun i => if i < items.length then some (.arr (items.set i v)) else none
  | _, _, _ => none

def pointer? (v : Json) : List String → Option Json
  | [] => some v
  | key :: rest => v.child? key >>= fun c => c.pointer? rest

def replace? (v : Json) : List String → Json → Option Json
  | [], x => some x
  | key :: rest, x => do
    let c ← v.child? key
    let c' ← c.replace? rest x
    v.setChild? key c'

def node : Json → Json
  | .arr items => .arr (items.map fun _ => .null)
  | .obj fields => .obj (fields.map fun p => (p.1, .null))
  | v => v

/-- Operations other than these two are kept as they are written. -/
inductive Operation
  | test (path : List String) (value : Json)
  | replace (path : List String) (value : Json)
  | other (op : Json)

def Operation.apply (other : Json → Json → Option Json) (doc : Json) : Operation → Option Json
  | .test path value => ((doc.pointer? path).filter fun w => Same id w value).map fun _ => doc
  | .replace path value => doc.replace? path value
  | .other op => other op doc

def patch (other : Json → Json → Option Json) (doc : Json) : List Operation → Option Json
  | [] => some doc
  | op :: ops => op.apply other doc >>= fun doc' => patch other doc' ops

section Texts

variable {parts : List String} {path : String}

theorem slashed_pathOf (hparts : parts ≠ []) (hslash : ∀ s ∈ parts, '/' ∉ s.toList) :
    slashed (pathOf parts) = some parts := by
  have hsplit : (['/'].intercalate (parts.map String.toList)).splitOn '/' = parts.map String.toList :=
    List.splitOn_intercalate '/' (by simpa using hslash) (by simpa using hparts)
  rw [slashed, pathOf, String.toList_ofList]
  simp [hsplit, Function.comp_def]

theorem eq_pathOf (h : slashed path = some parts) : path = pathOf parts := by
  rw [slashed] at h
  split at h
  · next t heq =>
    cases h
    apply String.toList_inj.mp
    rw [pathOf, String.toList_ofList, heq, List.map_map]
    simp [Function.comp_def, List.intercalate_splitOn]
  · cases h

theorem unescape_of_plain {t : List Char} (h : '~' ∉ t) : unescape t = some t := by
  induction t with
  | nil => rfl
  | cons c t ih =>
    rw [List.mem_cons, not_or] at h
    have hc : c ≠ '~' := Ne.symm h.1
    rw [unescape, ih h.2, Option.map_some]
    all_goals simp [hc]

theorem segments_pathOf (hparts : parts ≠ []) (hslash : ∀ s ∈ parts, '/' ∉ s.toList)
    (hplain : ∀ s ∈ parts, '~' ∉ s.toList) : segments (pathOf parts) = some parts := by
  have hne : pathOf parts ≠ "" := fun h => by simpa [pathOf] using congrArg String.toList h
  rw [segments, if_neg hne, slashed_pathOf hparts hslash]
  clear hparts hslash hne
  induction parts with
  | nil => rfl
  | cons s parts ih =>
    have hrest := ih fun s hs => hplain s (List.mem_cons_of_mem _ hs)
    have hs := unescape_of_plain (hplain s (List.mem_cons_self ..))
    simp only [Option.bind_eq_bind, Option.bind_some] at hrest ⊢
    simp [hs, hrest]

end Texts

section Laws

variable {t t' : List Char} {i : ℕ} {key k : String} {p q : List String} {v v' c x : Json}

theorem index?_eq_some (h : index? t = some i) : Nat.toDigits 10 i = t := by
  obtain ⟨-, hi⟩ := Option.filter_eq_some_iff.mp h
  exact of_decide_eq_true hi

theorem index?_toString (n : ℕ) : index? (toString n).toList = some n := by
  have hdigits : (toString n).toList = Nat.toDigits 10 n := Nat.toList_repr
  rw [index?, hdigits, parseDigits_toDigits, Option.filter_some, if_pos (by simp)]

theorem map_fst_setFields {fields : List (String × Json)} (h : (fields.lookup key).isSome = true) :
    (setFields key v fields).map Prod.fst = fields.map Prod.fst := by
  induction fields with
  | nil => cases h
  | cons f rest ih =>
    obtain ⟨l, w⟩ := f
    rw [setFields]
    split
    case isTrue hl => rw [List.map_cons, List.map_cons, hl]
    case isFalse hl =>
      rw [lookup_cons_of_ne (Ne.symm hl)] at h
      rw [List.map_cons, List.map_cons, ih h]

theorem node_setChild? (h : v.setChild? key x = some v') : v'.node = v.node := by
  cases v with
  | obj fields =>
    rw [setChild?, Option.ite_none_right_eq_some] at h
    obtain ⟨hkey, h⟩ := h
    cases h
    have hkeys := congrArg (List.map fun k : String => (k, Json.null)) (map_fst_setFields (v := x) hkey)
    rw [List.map_map, List.map_map] at hkeys
    exact congrArg Json.obj hkeys
  | arr items =>
    obtain ⟨i, -, h⟩ := Option.bind_eq_some_iff.mp h
    rw [Option.ite_none_right_eq_some] at h
    cases h.2
    rw [node, node, List.map_const', List.map_const', List.length_set]
  | _ => cases h

theorem child?_setChild?_self (h : v.setChild? key x = some v') : v'.child? key = some x := by
  cases v with
  | obj fields =>
    rw [setChild?, Option.ite_none_right_eq_some] at h
    cases h.2
    rw [child?, lookup_setFields, if_pos rfl]
  | arr items =>
    obtain ⟨i, hi, h⟩ := Option.bind_eq_some_iff.mp h
    rw [Option.ite_none_right_eq_some] at h
    obtain ⟨hlt, h⟩ := h
    cases h
    rw [child?, hi]
    exact List.getElem?_set_self hlt
  | _ => cases h

theorem child?_setChild?_of_ne (h : v.setChild? key x = some v') (hk : k ≠ key) : v'.child? k = v.child? k := by
  cases v with
  | obj fields =>
    rw [setChild?, Option.ite_none_right_eq_some] at h
    cases h.2
    rw [child?, child?, lookup_setFields, if_neg hk]
  | arr items =>
    obtain ⟨i, hi, h⟩ := Option.bind_eq_some_iff.mp h
    rw [Option.ite_none_right_eq_some] at h
    cases h.2
    rw [child?, child?]
    cases hj : index? k.toList with
    | none => rfl
    | some j =>
      -- one index has one text
      have hij : i ≠ j := by
        rintro rfl
        exact hk (String.toList_inj.mp ((index?_eq_some hj).symm.trans (index?_eq_some hi)))
      exact List.getElem?_set_ne hij
  | _ => cases h

theorem replace?_cons (h : v.replace? (key :: p) x = some v') :
    ∃ c c', v.child? key = some c ∧ c.replace? p x = some c' ∧ v.setChild? key c' = some v' := by
  obtain ⟨c, hc, h⟩ := Option.bind_eq_some_iff.mp h
  obtain ⟨c', hc', h⟩ := Option.bind_eq_some_iff.mp h
  exact ⟨c, c', hc, hc', h⟩

theorem pointer?_of_child? (h : v.child? key = some c) : v.pointer? (key :: p) = c.pointer? p := by
  rw [pointer?, h]
  rfl

theorem pointer?_append : v.pointer? (p ++ q) = v.pointer? p >>= fun c => c.pointer? q := by
  induction p generalizing v with
  | nil => rfl
  | cons key p ih =>
    rw [List.cons_append, pointer?, pointer?]
    cases v.child? key with
    | none => rfl
    | some c => exact ih

theorem pointer?_singleton : v.pointer? [key] = v.child? key := by
  rw [pointer?]
  cases v.child? key with
  | none => rfl
  | some c => rfl

theorem pointer?_replace?_self (h : v.replace? p x = some v') : v'.pointer? p = some x := by
  induction p generalizing v v' with
  | nil =>
    cases h
    rfl
  | cons key p ih =>
    obtain ⟨c, c', -, hc', hset⟩ := replace?_cons h
    rw [pointer?_of_child? (child?_setChild?_self hset), ih hc']

theorem node_pointer?_replace? (h : v.replace? p x = some v') (hq : ¬p <+: q) :
    (v'.pointer? q).map node = (v.pointer? q).map node := by
  induction p generalizing v v' q with
  | nil => exact absurd List.nil_prefix hq
  | cons key p ih =>
    obtain ⟨c, c', hc, hc', hset⟩ := replace?_cons h
    cases q with
    | nil => exact congrArg some (node_setChild? hset)
    | cons k q =>
      by_cases hk : k = key
      · subst hk
        rw [pointer?_of_child? (child?_setChild?_self hset), pointer?_of_child? hc]
        exact ih hc' fun hpq => hq (List.cons_prefix_cons.mpr ⟨rfl, hpq⟩)
      · rw [pointer?, pointer?, child?_setChild?_of_ne hset hk]

theorem pointer?_replace?_of_not_prefix (h : v.replace? p x = some v') (hpq : ¬p <+: q) (hqp : ¬q <+: p) :
    v'.pointer? q = v.pointer? q := by
  induction p generalizing v v' q with
  | nil => exact absurd List.nil_prefix hpq
  | cons key p ih =>
    obtain ⟨c, c', hc, hc', hset⟩ := replace?_cons h
    cases q with
    | nil => exact absurd List.nil_prefix hqp
    | cons k q =>
      by_cases hk : k = key
      · subst hk
        rw [pointer?_of_child? (child?_setChild?_self hset), pointer?_of_child? hc]
        exact ih hc' (fun h => hpq (List.cons_prefix_cons.mpr ⟨rfl, h⟩))
          (fun h => hqp (List.cons_prefix_cons.mpr ⟨rfl, h⟩))
      · rw [pointer?, pointer?, child?_setChild?_of_ne hset hk]

theorem apply_test {other : Json → Json → Option Json} {doc doc' : Json} {s : String}
    (h : (Operation.test p (.str s)).apply other doc = some doc') : doc' = doc ∧ doc.pointer? p = some (.str s) := by
  obtain ⟨w, hw, rfl⟩ := Option.map_eq_some_iff.mp h
  obtain ⟨hp, hsame⟩ := Option.filter_eq_some_iff.mp hw
  have hsame : normal id w = .str s := of_decide_eq_true hsame
  refine ⟨rfl, ?_⟩
  cases w with
  | str s' => rw [hp, ← hsame, normal]
  | _ => cases hsame

end Laws

end SpendGuard.Base.Json
