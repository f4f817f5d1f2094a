import Mathlib.Data.List.Sort
import Mathlib.Data.List.Perm.Subperm

/-!
Work taken in rounds from the front of an ordered queue in which some entries can never be done.
-/

namespace SpendGuard.Base

variable {α : Type}

section Sorted

variable {r : α → α → Prop} [DecidableRel r] [IsTrans α r]

theorem filter_orderedInsert (p : α → Bool) (a : α) {l : List α} (hl : l.Pairwise r) :
    (l.orderedInsert r a).filter p = if p a then (l.filter p).orderedInsert r a else l.filter p := by
  induction l with
  | nil => cases hp : p a <;> simp [hp]
  | cons b l ih =>
    obtain ⟨hb, hl⟩ := List.pairwise_cons.mp hl
    by_cases hab : r a b
    · -- what is kept of `b :: l` stays above `a`
      have habove : ∀ c ∈ (b :: l).filter p, r a c := by
        intro c hc
        rcases List.mem_cons.mp (List.mem_of_mem_filter hc) with rfl | hmem
        · exact hab
        · exact IsTrans.trans a b c hab (hb c hmem)
      rw [List.orderedInsert_cons_of_le _ _ hab, List.filter_cons]
      split
      · cases hkept : (b :: l).filter p with
        | nil => rfl
        | cons c k => rw [List.orderedInsert_cons_of_le _ _ (habove c (by simp [hkept]))]
      · rfl
    · rw [List.orderedInsert_of_not_le _ _ hab, List.filter_cons, ih hl, List.filter_cons]
      cases p a <;> cases p b <;> simp [hab]

theorem insertionSort_filter [Std.Total r] (p : α → Bool) (l : List α) :
    (l.filter p).insertionSort r = (l.insertionSort r).filter p := by
  induction l with
  | nil => rfl
  | cons a l ih =>
    rw [List.insertionSort_cons, filter_orderedInsert p a (List.pairwise_insertionSort r l),
      List.filter_cons, ← ih]
    split <;> rfl

end Sorted

variable {doable : α → Bool} {b : ℕ} {q q' : List α}

/-- What a round does to the queue: it drops some of its first `b` entries, all of them doable, and at
least one if there is one. -/
structure Round (b : ℕ) (doable : α → Bool) (q q' : List α) : Prop where
  sublist : q'.Sublist q
  dropped : ∀ a ∈ q, a ∉ q' → doable a = true ∧ a ∈ q.take b
  progress : (∃ a ∈ q.take b, doable a = true) → q'.length < q.length

/-- Ahead of every doable entry there are fewer than `b` of the others. -/
def Unblocked (b : ℕ) (doable : α → Bool) (q : List α) : Prop :=
  ∀ p a s, q = p ++ a :: s → doable a = true → p.countP (!doable ·) < b

theorem split_of_sublist {p s : List α} {a : α} (h : (p ++ a :: s).Sublist q) :
    ∃ p' s', q = p' ++ a :: s' ∧ p.Sublist p' ∧ s.Sublist s' := by
  obtain ⟨r₁, r₂, rfl, hp, hs⟩ := List.append_sublist_iff.mp h
  obtain ⟨t₁, t₂, rfl, ha, hbehind⟩ := List.cons_sublist_iff.mp hs
  obtain ⟨u, v, rfl⟩ := List.append_of_mem ha
  refine ⟨r₁ ++ u, v ++ t₂, by simp, hp.trans (List.sublist_append_left _ _), ?_⟩
  exact hbehind.trans (List.sublist_append_right _ _)

namespace Round

theorem countP_eq (h : Round b doable q q') (hq : q.Nodup) :
    q'.countP (!doable ·) = q.countP (!doable ·) := by
  apply Nat.le_antisymm (h.sublist.countP_le)
  rw [List.countP_eq_length_filter, List.countP_eq_length_filter]
  apply List.Subperm.length_le
  apply List.subperm_of_subset (hq.filter _)
  intro a ha
  obtain ⟨hmem, hbad⟩ := List.mem_filter.mp ha
  rw [List.mem_filter]
  refine ⟨?_, hbad⟩
  by_contra hgone
  have hdoable := (h.dropped a hmem hgone).1
  simp [hdoable] at hbad

theorem countP_ahead (h : Round b doable q q') (hq : q.Nodup) {p s : List α} {a : α}
    (hsplit : q' = p ++ a :: s) :
    ∃ p' s', q = p' ++ a :: s' ∧ p.countP (!doable ·) = p'.countP (!doable ·) := by
  obtain ⟨p', s', hq', hp, hs⟩ := split_of_sublist (hsplit ▸ h.sublist)
  refine ⟨p', s', hq', ?_⟩
  have htotal := h.countP_eq hq
  have hahead : p.countP (!doable ·) ≤ p'.countP (!doable ·) := hp.countP_le
  have hbehind : s.countP (!doable ·) ≤ s'.countP (!doable ·) := hs.countP_le
  rw [hsplit, hq', List.countP_append, List.countP_append, List.countP_cons, List.countP_cons] at htotal
  omega

theorem unblocked (h : Round b doable q q') (hq : q.Nodup) (hclear : Unblocked b doable q) :
    Unblocked b doable q' := by
  intro p a s hsplit ha
  obtain ⟨p', s', hq', hcount⟩ := h.countP_ahead hq hsplit
  rw [hcount]
  exact hclear p' a s' hq' ha

theorem blocked (h : Round b doable q q') (hq : q.Nodup) {p s : List α} {a : α}
    (hsplit : q = p ++ a :: s) (hahead : b ≤ p.countP (!doable ·)) :
    ∃ p' s', q' = p' ++ a :: s' ∧ b ≤ p'.countP (!doable ·) := by
  have hlen : b ≤ p.length := hahead.trans List.countP_le_length
  have hnotin : a ∉ p ∧ a ∉ s := by
    rw [hsplit, List.nodup_middle, List.nodup_cons, List.mem_append, not_or] at hq
    exact hq.1
  have hmem : a ∈ q' := by
    by_contra hgone
    have htaken := (h.dropped a (by simp [hsplit]) hgone).2
    rw [hsplit, List.take_append_of_le_length hlen] at htaken
    exact hnotin.1 (List.mem_of_mem_take htaken)
  obtain ⟨p', s', hsplit'⟩ := List.append_of_mem hmem
  obtain ⟨p₁, s₁, hq₁, hcount⟩ := h.countP_ahead hq hsplit'
  have hsame := (List.append_cons_inj_of_notMem hnotin.1 hnotin.2).mp (hsplit.symm.trans hq₁)
  refine ⟨p', s', hsplit', ?_⟩
  rw [hcount, ← hsame.1]
  exact hahead

end Round

theorem Unblocked.reach (hclear : Unblocked b doable q) (hex : ∃ a ∈ q, doable a = true) :
    ∃ a ∈ q.take b, doable a = true := by
  obtain ⟨a, hfind⟩ := Option.isSome_iff_exists.mp (List.find?_isSome.mpr hex)
  obtain ⟨ha, p, s, hsplit, hahead⟩ := List.find?_eq_some_iff_append.mp hfind
  have hcount : p.countP (!doable ·) = p.length := List.countP_eq_length.mpr hahead
  have hlen := hclear p a s hsplit ha
  refine ⟨a, ?_, ha⟩
  obtain ⟨k, hk⟩ := Nat.exists_eq_add_of_lt (hcount ▸ hlen)
  rw [hsplit, hk, Nat.add_assoc, List.take_length_add_append]
  simp

section Rounds

variable {qs : ℕ → List α} (hround : ∀ n, Round b doable (qs n) (qs (n + 1))) (hq : (qs 0).Nodup)

include hround

theorem sublist_of_rounds (n : ℕ) : (qs n).Sublist (qs 0) := by
  induction n with
  | zero => exact List.Sublist.refl _
  | succ n ih => exact (hround n).sublist.trans ih

include hq

theorem unblocked_of_rounds (hclear : Unblocked b doable (qs 0)) (n : ℕ) : Unblocked b doable (qs n) := by
  induction n with
  | zero => exact hclear
  | succ n ih => exact (hround n).unblocked ((sublist_of_rounds hround n).nodup hq) ih

theorem length_of_rounds (hclear : Unblocked b doable (qs 0)) (n : ℕ) :
    (∀ a ∈ qs n, doable a = false) ∨ (qs n).length + n ≤ (qs 0).length := by
  induction n with
  | zero => exact Or.inr (Nat.le_refl _)
  | succ n ih =>
    by_cases hex : ∃ a ∈ qs n, doable a = true
    · have hless := (hround n).progress ((unblocked_of_rounds hround hq hclear n).reach hex)
      rcases ih with hdone | hlen
      · obtain ⟨a, ha, hdoable⟩ := hex
        rw [hdone a ha] at hdoable
        cases hdoable
      · right
        omega
    · left
      intro a ha
      rw [← Bool.not_eq_true]
      intro hdoable
      exact hex ⟨a, (hround n).sublist.subset ha, hdoable⟩

theorem blocked_of_rounds {p s : List α} {a : α} (hsplit : qs 0 = p ++ a :: s)
    (hahead : b ≤ p.countP (!doable ·)) (n : ℕ) :
    ∃ p' s', qs n = p' ++ a :: s' ∧ b ≤ p'.countP (!doable ·) := by
  induction n with
  | zero => exact ⟨p, s, hsplit, hahead⟩
  | succ n ih =>
    obtain ⟨p', s', hsplit', hahead'⟩ := ih
    exact (hround n).blocked ((sublist_of_rounds hround n).nodup hq) hsplit' hahead'

/-- As many rounds as there are entries do everything that can be done exactly if nothing is blocked. -/
theorem drained_iff_unblocked :
    (∀ a ∈ qs (qs 0).length, doable a = false) ↔ Unblocked b doable (qs 0) := by
  constructor
  · intro hdone p a s hsplit ha
    by_contra hahead
    obtain ⟨p', s', hsplit', -⟩ :=
      blocked_of_rounds hround hq hsplit (Nat.le_of_not_lt hahead) (qs 0).length
    have hgone := hdone a (by rw [hsplit']; simp)
    rw [ha] at hgone
    cases hgone
  · intro hclear
    rcases length_of_rounds hround hq hclear (qs 0).length with hdone | hlen
    · exact hdone
    · have hempty : qs (qs 0).length = [] := List.length_eq_zero_iff.mp (by omega)
      simp [hempty]

end Rounds

end SpendGuard.Base
