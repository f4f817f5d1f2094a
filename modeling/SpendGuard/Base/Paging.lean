import Mathlib.Order.Lattice
import SpendGuard.Base.Queue

/-!
Paging by key: each page holds the first rows, in the order of a key, whose key is above the cursor, and
the cursor for the next page is the key of its last row.  Rows with equal keys come in any order, which
may differ from page to page.
-/

namespace SpendGuard.Base

variable {α κ : Type} [LinearOrder κ]

section Keys

variable {key : α → κ}

instance keyTrans : IsTrans α (fun a b => key a ≤ key b) := ⟨fun _ _ _ => le_trans⟩

instance keyTotal : Std.Total (fun a b : α => key a ≤ key b) := ⟨fun a b => le_total (key a) (key b)⟩

end Keys

variable (key : α → κ) (plan : Option κ → List α → List α) (size : ℕ) (rows : List α)

def above (after : Option κ) : List α := rows.filter fun a => after.all (· < key a)

/-- They come in the order of their keys; which of two rows with equal keys comes first is up to `plan`. -/
def page (after : Option κ) : List α :=
  ((plan after (above key rows after)).insertionSort fun a b => key a ≤ key b).take size

def cursorAfter (p : List α) : Option κ := if p.length = size then p.getLast?.map key else none

/-- All pages from a cursor on; `none` if there are more of them than `fuel`. -/
def collect : ℕ → Option κ → Option (List α)
  | 0, _ => none
  | fuel + 1, after =>
    let p := page key plan size rows after
    match cursorAfter key size p with
    | none => some p
    | some c => (collect fuel (some c)).map (p ++ ·)

def Aligned (size : ℕ) (keys : List κ) : Prop :=
  ∀ j a b, keys[(j + 1) * size - 1]? = some a → keys[(j + 1) * size]? = some b → a < b

def sortedKeys (l : List α) : List κ := (l.map key).insertionSort (· ≤ ·)

variable {key plan size rows}

@[simp] theorem above_none : above key rows none = rows := by
  simp [above]

theorem collect_unique {n m : ℕ} {after : Option κ} {out out' : List α}
    (h : collect key plan size rows n after = some out) (h' : collect key plan size rows m after = some out') :
    out = out' := by
  induction n generalizing m after out out' with
  | zero => cases h
  | succ n ih =>
    cases m with
    | zero => cases h'
    | succ m =>
      simp only [collect] at h h'
      cases hc : cursorAfter key size (page key plan size rows after) with
      | none =>
        rw [hc] at h h'
        cases h
        cases h'
        rfl
      | some c =>
        simp only [hc, Option.map_eq_some_iff] at h h'
        obtain ⟨rest, hrest, rfl⟩ := h
        obtain ⟨rest', hrest', rfl⟩ := h'
        rw [ih hrest hrest']

theorem pairwise_sortedKeys (l : List α) : (sortedKeys key l).Pairwise (· ≤ ·) :=
  List.pairwise_insertionSort _ _

theorem map_key_eq_sortedKeys {l l' : List α} (h : l.Perm l') (hl : l.Pairwise fun a b => key a ≤ key b) :
    l.map key = sortedKeys key l' := by
  apply List.Perm.eq_of_pairwise' (r := (· ≤ ·))
  · rw [List.pairwise_map]
    exact hl
  · exact pairwise_sortedKeys l'
  · exact (h.map key).trans (List.perm_insertionSort _ _).symm

theorem aligned_drop {keys : List κ} {c : κ} (hsize : 0 < size) (hlast : keys[size - 1]? = some c) :
    Aligned size keys ↔ (∀ b, keys[size]? = some b → c < b) ∧ Aligned size (keys.drop size) := by
  have hshift (j : ℕ) : size + ((j + 1) * size - 1) = (j + 1 + 1) * size - 1 := by
    have hpos : size ≤ (j + 1) * size := Nat.le_mul_of_pos_left size (Nat.succ_pos j)
    rw [Nat.succ_mul (j + 1)]
    omega
  have hshift' (j : ℕ) : size + (j + 1) * size = (j + 1 + 1) * size := by
    rw [Nat.succ_mul (j + 1), Nat.add_comm]
  constructor
  · intro h
    constructor
    · intro b hb
      exact h 0 c b (by simpa using hlast) (by simpa using hb)
    · intro j a b ha hb
      rw [List.getElem?_drop, hshift] at ha
      rw [List.getElem?_drop, hshift'] at hb
      exact h (j + 1) a b ha hb
  · rintro ⟨hfirst, hrest⟩ j a b ha hb
    cases j with
    | zero =>
      simp only [Nat.zero_add, Nat.one_mul] at ha hb
      rw [hlast] at ha
      cases ha
      exact hfirst b hb
    | succ j =>
      apply hrest j a b
      · rw [List.getElem?_drop, hshift]
        exact ha
      · rw [List.getElem?_drop, hshift']
        exact hb

theorem aligned_of_length_le {keys : List κ} (h : keys.length ≤ size) : Aligned size keys := by
  intro j a b _ hb
  obtain ⟨hlt, -⟩ := List.getElem?_eq_some_iff.mp hb
  have hle : size ≤ (j + 1) * size := Nat.le_mul_of_pos_left size (Nat.succ_pos j)
  omega

section Traversal

variable {l : List α} {x : α}

theorem page_split (hl : l.Pairwise fun a b => key a ≤ key b) (hx : (l.take size).getLast? = some x) :
    (∀ a ∈ l.take size, key a ≤ key x) ∧ ∀ b ∈ l.drop size, key x ≤ key b := by
  have hsplit := List.dropLast_append_getLast? x (by simpa using hx)
  rw [← List.take_append_drop size l, List.pairwise_append] at hl
  obtain ⟨hpage, -, hacross⟩ := hl
  constructor
  · intro a ha
    rw [← hsplit] at ha hpage
    rcases List.mem_append.mp ha with ha | ha
    · exact (List.pairwise_append.mp hpage).2.2 a ha x (by simp)
    · rw [List.mem_singleton.mp ha]
  · intro b hb
    exact hacross x (List.mem_of_getLast? hx) b hb

theorem filter_above_eq (hl : l.Pairwise fun a b => key a ≤ key b) (hx : (l.take size).getLast? = some x) :
    l.filter (fun a => key x < key a) = (l.drop size).filter fun a => key x < key a := by
  have hnone : (l.take size).filter (fun a => key x < key a) = [] := by
    rw [List.filter_eq_nil_iff]
    intro a ha
    simpa using (page_split hl hx).1 a ha
  conv_lhs => rw [← List.take_append_drop size l, List.filter_append, hnone, List.nil_append]

theorem filter_above_length_iff (hl : l.Pairwise fun a b => key a ≤ key b) :
    ((l.drop size).filter fun a => key x < key a).length = (l.drop size).length ↔
      ∀ b, (l.map key)[size]? = some b → key x < b := by
  rw [List.length_filter_eq_length_iff]
  constructor
  · intro hall b hb
    obtain ⟨y, hy, rfl⟩ := Option.map_eq_some_iff.mp (List.getElem?_map ▸ hb)
    have hmem : y ∈ l.drop size := by
      apply List.mem_of_getElem? (i := 0)
      rwa [List.getElem?_drop]
    simpa using hall y hmem
  · intro hnext y hy
    cases hdrop : l.drop size with
    | nil =>
      rw [hdrop] at hy
      cases hy
    | cons z rest =>
      have hz : l[size]? = some z := by
        have hhead := congrArg (·[0]?) hdrop
        simpa [List.getElem?_drop] using hhead
      have hxz := hnext (key z) (by rw [List.getElem?_map, hz]; rfl)
      have hsorted : (l.drop size).Pairwise fun a b => key a ≤ key b := hl.sublist (List.drop_sublist _ _)
      rw [hdrop] at hy hsorted
      rcases List.mem_cons.mp hy with rfl | hy
      · simpa using hxz
      · simpa using lt_of_lt_of_le hxz ((List.pairwise_cons.mp hsorted).1 y hy)

theorem aligned_step {out rest : List α} (hl : l.Pairwise fun a b => key a ≤ key b) (hfull : size ≤ l.length)
    (hsize : 0 < size) (hx : (l.take size).getLast? = some x)
    (hrest : rest.Perm ((l.drop size).filter fun a => key x < key a)) (hout : out.length ≤ rest.length)
    (hiff : out.length = rest.length ↔ Aligned size (sortedKeys key rest)) :
    (l.take size ++ out).length = l.length ↔ Aligned size (l.map key) := by
  have hlast : (l.map key)[size - 1]? = some (key x) := by
    rw [List.getLast?_eq_getElem?, List.length_take_of_le hfull, List.getElem?_take_of_lt (by omega)] at hx
    rw [List.getElem?_map, hx]
    rfl
  have hshorter : ((l.drop size).filter fun a => key x < key a).length ≤ (l.drop size).length :=
    List.length_filter_le _ _
  have hdrop : (l.drop size).length = l.length - size := List.length_drop
  have hlength := hrest.length_eq
  have hsplit : (l.take size ++ out).length = l.length ↔
      ((l.drop size).filter fun a => key x < key a).length = (l.drop size).length ∧
        out.length = rest.length := by
    rw [List.length_append, List.length_take_of_le hfull]
    omega
  rw [hsplit, hiff, filter_above_length_iff hl, aligned_drop hsize hlast]
  apply and_congr_right
  intro hnext
  -- all the rows behind the page are above it, so the rest has their keys
  have hsame := List.length_filter_eq_length_iff.mp ((filter_above_length_iff hl).mpr hnext)
  rw [List.filter_eq_self.mpr hsame] at hrest
  rw [← map_key_eq_sortedKeys hrest.symm (hl.sublist (List.drop_sublist _ _)), List.map_drop]

variable (hplan : ∀ after l, (plan after l).Perm l) (hsize : 0 < size) {after : Option κ}

theorem above_cursor (hx : x ∈ above key rows after) :
    above key rows (some (key x)) = (above key rows after).filter fun a => key x < key a := by
  obtain ⟨-, hafter⟩ := List.mem_filter.mp hx
  rw [above, above, List.filter_filter]
  apply List.filter_congr
  intro a _
  cases after with
  | none => simp
  | some c =>
    simp only [Option.all_some, decide_eq_true_eq] at hafter ⊢
    by_cases hlt : key x < key a
    · simp [hlt, hafter.trans hlt]
    · simp [hlt]

include hplan hsize

/-- The pages end; they hold no row twice and none that is not asked for; and they hold all of them
exactly if they are aligned. -/
theorem collect_spec (fuel : ℕ) (hfuel : (above key rows after).length < fuel) :
    ∃ out, collect key plan size rows fuel after = some out ∧ out.Subperm (above key rows after) ∧
      (out.length = (above key rows after).length ↔
        Aligned size (sortedKeys key (above key rows after))) := by
  induction fuel generalizing after with
  | zero => cases hfuel
  | succ fuel ih =>
    generalize hR : above key rows after = R at hfuel ⊢
    generalize hl : ((plan after R).insertionSort fun a b => key a ≤ key b) = l
    have hperm : l.Perm R := hl ▸ (List.perm_insertionSort _ _).trans (hplan after R)
    have hsorted : l.Pairwise fun a b => key a ≤ key b := hl ▸ List.pairwise_insertionSort _ _
    have hkeys : l.map key = sortedKeys key R := map_key_eq_sortedKeys hperm hsorted
    have hpage : page key plan size rows after = l.take size := by rw [page, hR, hl]
    rw [collect, hpage, ← hperm.length_eq, ← hkeys]
    by_cases hfull : size ≤ l.length
    · have hlen : (l.take size).length = size := List.length_take_of_le hfull
      obtain ⟨x, hx⟩ : ∃ x, (l.take size).getLast? = some x := by
        rw [← Option.isSome_iff_exists, List.getLast?_isSome, ← List.length_pos_iff, hlen]
        exact hsize
      have hmem : x ∈ above key rows after :=
        hR ▸ hperm.subset (List.mem_of_mem_take (List.mem_of_getLast? hx))
      have hnext : (above key rows (some (key x))).Perm ((l.drop size).filter fun a => key x < key a) := by
        rw [above_cursor hmem, hR, ← filter_above_eq hsorted hx]
        exact (hperm.filter _).symm
      have hshorter : ((l.drop size).filter fun a => key x < key a).length ≤ (l.drop size).length :=
        List.length_filter_le _ _
      have hdrop : (l.drop size).length = l.length - size := List.length_drop
      have hless : (above key rows (some (key x))).length < fuel := by
        have hlength := hperm.length_eq
        rw [hnext.length_eq]
        omega
      obtain ⟨out, hout, hsub, hiff⟩ := ih hless
      have hcursor : cursorAfter key size (l.take size) = some (key x) := by
        rw [cursorAfter, if_pos hlen, hx]
        rfl
      refine ⟨l.take size ++ out, by simp [hcursor, hout], ?_, ?_⟩
      · apply List.Subperm.trans _ hperm.subperm
        conv_rhs => rw [← List.take_append_drop size l]
        exact (List.Subperm.refl _).append ((hsub.trans hnext.subperm).trans List.filter_sublist.subperm)
      · exact aligned_step hsorted hfull hsize hx hnext hsub.length_le hiff
    · have hshort : (l.take size) = l := List.take_of_length_le (by omega)
      have hend : cursorAfter key size l = none := if_neg (by omega)
      rw [hshort, hend]
      refine ⟨l, rfl, hperm.subperm, ?_⟩
      simp only [true_iff]
      exact aligned_of_length_le (by simp; omega)

end Traversal

section Top

variable {after : Option κ} {a : α}

/-- Where no two rows have one key, the row with the highest key is on the first page exactly if all rows
above the cursor are. -/
theorem mem_page_of_top (hplan : ∀ l, (plan after l).Perm l) (hkeys : (rows.map key).Nodup)
    (ha : a ∈ above key rows after) (htop : ∀ b ∈ above key rows after, key b ≤ key a) :
    a ∈ page key plan size rows after ↔ (above key rows after).length ≤ size := by
  let l := (plan after (above key rows after)).insertionSort fun a b => key a ≤ key b
  have hperm : l.Perm (above key rows after) := (List.perm_insertionSort _ _).trans (hplan _)
  have hstrict : l.Pairwise fun a b => key a < key b := by
    have hnodup : l.Pairwise fun a b => key a ≠ key b := by
      have hmap : (l.map key).Nodup := (hperm.map key).nodup_iff.mpr (hkeys.sublist (List.filter_sublist.map key))
      exact List.pairwise_map.mp hmap
    exact ((List.pairwise_insertionSort _ _).and hnodup).imp fun h => lt_of_le_of_ne h.1 h.2
  change a ∈ l.take size ↔ _
  rw [← hperm.length_eq]
  constructor
  · intro hmem
    by_contra hlong
    rw [not_le] at hlong
    have hdrop : l.drop size ≠ [] := by
      rw [ne_eq, List.drop_eq_nil_iff]
      omega
    obtain ⟨b, hb⟩ := List.exists_mem_of_ne_nil _ hdrop
    rw [← List.take_append_drop size l, List.pairwise_append] at hstrict
    have hlater := hstrict.2.2 a hmem b hb
    exact absurd (htop b (hperm.mem_iff.mp (List.mem_of_mem_drop hb))) (not_le.mpr hlater)
  · intro hshort
    rw [List.take_of_length_le hshort]
    exact hperm.mem_iff.mpr ha

theorem above_of_mem_page (hplan : ∀ l, (plan after l).Perm l) (ha : a ∈ page key plan size rows after) :
    a ∈ above key rows after := by
  have hsorted := List.mem_of_mem_take ha
  rw [List.mem_insertionSort] at hsorted
  exact (hplan _).mem_iff.mp hsorted

end Top

end SpendGuard.Base
