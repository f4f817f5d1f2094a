import Mathlib.Data.List.Basic
import Mathlib.Data.List.Perm.Basic
import Mathlib.Data.List.Nodup

/-!
Queues of distinct elements that are joined at the back, and what stands behind an element.
-/

namespace SpendGuard.Base

variable {α β : Type} [DecidableEq α]

def behind (a : α) : List α → List α
  | [] => []
  | b :: q => if b = a then q else behind a q

@[simp] theorem behind_cons_self (a : α) (q : List α) : behind a (a :: q) = q := if_pos rfl

variable {a b : α} {q : List α}

theorem behind_cons_of_ne (h : b ≠ a) (q : List α) : behind a (b :: q) = behind a q := if_neg h

theorem behind_append (h : a ∈ q) (b : α) : behind a (q ++ [b]) = behind a q ++ [b] := by
  induction q with
  | nil => cases h
  | cons c q ih =>
    by_cases hc : c = a
    · rw [hc, List.cons_append, behind_cons_self, behind_cons_self]
    · rw [List.cons_append, behind_cons_of_ne hc, behind_cons_of_ne hc]
      exact ih ((List.mem_cons.mp h).resolve_left (Ne.symm hc))

theorem behind_last (h : a ∉ q) : behind a (q ++ [a]) = [] := by
  induction q with
  | nil => exact behind_cons_self a []
  | cons c q ih =>
    rw [List.mem_cons, not_or] at h
    rw [List.cons_append, behind_cons_of_ne (Ne.symm h.1)]
    exact ih h.2

theorem behind_filter (h : a ≠ b) (q : List α) :
    behind a (q.filter (· ≠ b)) = (behind a q).filter (· ≠ b) := by
  induction q with
  | nil => rfl
  | cons c q ih =>
    by_cases hc : c = a
    · rw [hc, List.filter_cons_of_pos (by simpa using h), behind_cons_self, behind_cons_self]
    · by_cases hb : c = b
      · rw [List.filter_cons_of_neg (by simp [hb]), behind_cons_of_ne hc, ih]
      · rw [List.filter_cons_of_pos (by simpa using hb), behind_cons_of_ne hc, behind_cons_of_ne hc, ih]

theorem length_behind_lt (h : a ∈ q) : (behind a q).length < q.length := by
  induction q with
  | nil => cases h
  | cons c q ih =>
    by_cases hc : c = a
    · rw [hc, behind_cons_self]
      exact Nat.lt_succ_self _
    · rw [behind_cons_of_ne hc]
      exact Nat.lt_succ_of_lt (ih ((List.mem_cons.mp h).resolve_left (Ne.symm hc)))

theorem perm_cons_filter_ne (hq : q.Nodup) (h : a ∈ q) : (a :: q.filter (· ≠ a)).Perm q := by
  rw [List.perm_ext_iff_of_nodup (List.nodup_cons.mpr ⟨by simp, hq.filter _⟩) hq]
  intro b
  by_cases hb : b = a
  · simp [hb, h]
  · simp [hb]

theorem filter_ne_of_not_mem (h : a ∉ q) : q.filter (· ≠ a) = q := by
  rw [List.filter_eq_self]
  intro b hb
  simpa using fun heq : b = a => h (heq ▸ hb)

theorem lookup_filter_ne [BEq α] [LawfulBEq α] (h : a ≠ b) (l : List (α × β)) :
    (l.filter (·.1 ≠ b)).lookup a = l.lookup a := by
  induction l with
  | nil => rfl
  | cons p l ih =>
    by_cases hp : p.1 = b
    · rw [List.filter_cons_of_neg (by simp [hp]), ih, List.lookup_cons, beq_false_of_ne (hp ▸ h)]
    · rw [List.filter_cons_of_pos (by simp [hp]), List.lookup_cons, List.lookup_cons, ih]

theorem lookup_filter_self [BEq α] [LawfulBEq α] (a : α) (l : List (α × β)) :
    (l.filter (·.1 ≠ a)).lookup a = none := by
  rw [List.lookup_eq_none_iff]
  intro p hp
  have hne : p.1 ≠ a := by simpa using (List.mem_filter.mp hp).2
  exact bne_iff_ne.mpr (Ne.symm hne)

end SpendGuard.Base
