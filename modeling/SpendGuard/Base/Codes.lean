import Mathlib
import SpendGuard.Base.Queue

/-!
Texts that are put together without separators: when the parts can be told apart again.  A stable sort by a key, which
is told apart by the elements of each key in their order.
-/

namespace SpendGuard.Base

variable {α β : Type}

def PrefixFree (code : Set (List α)) : Prop :=
  ∀ x ∈ code, ∀ y ∈ code, ∀ s t, x ++ s = y ++ t → x.length = y.length

theorem PrefixFree.append_inj {code : Set (List α)} (h : PrefixFree code) {x y s t : List α} (hx : x ∈ code)
    (hy : y ∈ code) (heq : x ++ s = y ++ t) : x = y ∧ s = t :=
  List.append_inj heq (h x hx y hy s t heq)

theorem append_cons_inj {p : α → Prop} {x y s t : List α} {a b : α} (hx : ∀ c ∈ x, p c) (hy : ∀ c ∈ y, p c)
    (ha : ¬p a) (hb : ¬p b) (heq : x ++ a :: s = y ++ b :: t) : x = y ∧ a = b ∧ s = t := by
  induction x generalizing y with
  | nil =>
    cases y with
    | nil => exact ⟨rfl, List.cons.inj heq⟩
    | cons c y =>
      cases (List.cons.inj heq).1
      exact absurd (hy a (List.mem_cons_self ..)) ha
  | cons c x ih =>
    cases y with
    | nil =>
      cases (List.cons.inj heq).1
      exact absurd (hx b (List.mem_cons_self ..)) hb
    | cons d y =>
      obtain ⟨rfl, htail⟩ := List.cons.inj heq
      rw [List.forall_mem_cons] at hx hy
      obtain ⟨rfl, hrest⟩ := ih hx.2 hy.2 htail
      exact ⟨rfl, hrest⟩

def Decodes (text : β → List α) (valid : Set β) : Prop :=
  ∀ x ∈ valid, ∀ y ∈ valid, ∀ s t, text x ++ s = text y ++ t → x = y ∧ s = t

theorem Decodes.flatMap {text : β → List α} {valid : Set β} (h : Decodes text valid) {mark s t : List α}
    (hmark : ∀ x, mark <+: text x) (hs : ¬mark <+: s) (ht : ¬mark <+: t) {xs ys : List β} (hxs : ∀ x ∈ xs, x ∈ valid)
    (hys : ∀ y ∈ ys, y ∈ valid) (heq : xs.flatMap text ++ s = ys.flatMap text ++ t) : xs = ys ∧ s = t := by
  induction xs generalizing ys with
  | nil =>
    cases ys with
    | nil => exact ⟨rfl, heq⟩
    | cons y ys =>
      rw [List.flatMap_cons, List.append_assoc] at heq
      exact absurd ((hmark y).trans ⟨_, heq.symm⟩) hs
  | cons x xs ih =>
    cases ys with
    | nil =>
      rw [List.flatMap_cons, List.append_assoc] at heq
      exact absurd ((hmark x).trans ⟨_, heq⟩) ht
    | cons y ys =>
      rw [List.forall_mem_cons] at hxs hys
      rw [List.flatMap_cons, List.flatMap_cons, List.append_assoc, List.append_assoc] at heq
      obtain ⟨rfl, htail⟩ := h x hxs.1 y hys.1 _ _ heq
      obtain ⟨rfl, hrest⟩ := ih hxs.2 hys.2 htail
      exact ⟨rfl, hrest⟩

theorem option_append_inj {γ : Type} {text : β → List α} {cut : β → γ}
    (h : ∀ x y s t, cut x = cut y → text x ++ s = text y ++ t → x = y ∧ s = t) {o o' : Option β} {s t : List α}
    (hcut : o.map cut = o'.map cut) (heq : (o.map text).getD [] ++ s = (o'.map text).getD [] ++ t) :
    o = o' ∧ s = t := by
  cases o with
  | none =>
    cases o' with
    | none => exact ⟨rfl, heq⟩
    | some y => cases hcut
  | some x =>
    cases o' with
    | none => cases hcut
    | some y =>
      obtain ⟨rfl, hrest⟩ := h x y s t (Option.some.inj hcut) heq
      exact ⟨rfl, hrest⟩

section Stable

variable {κ : Type} [LinearOrder κ] (key : α → κ)

def sortByKey (l : List α) : List α := l.insertionSort fun a b => key a ≤ key b

local instance totalByKey : Std.Total fun a b => key a ≤ key b := ⟨fun a b => le_total (key a) (key b)⟩

local instance transByKey : IsTrans α fun a b => key a ≤ key b := ⟨fun _ _ _ => le_trans⟩

theorem pairwise_sortByKey (l : List α) : (sortByKey key l).Pairwise fun a b => key a ≤ key b :=
  List.pairwise_insertionSort _ l

theorem filter_sortByKey (k : κ) (l : List α) : (sortByKey key l).filter (key · = k) = l.filter (key · = k) := by
  rw [sortByKey, ← insertionSort_filter]
  refine List.Pairwise.insertionSort_eq ((List.pairwise_of_forall_mem_list fun a ha b hb => ?_))
  have ha := of_decide_eq_true (List.mem_filter.mp ha).2
  have hb := of_decide_eq_true (List.mem_filter.mp hb).2
  exact (ha.trans hb.symm).le

variable {key}

theorem eq_of_filter_eq {l l' : List α} (hl : l.Pairwise fun a b => key a ≤ key b)
    (hl' : l'.Pairwise fun a b => key a ≤ key b) (h : ∀ k, l.filter (key · = k) = l'.filter (key · = k)) : l = l' := by
  induction l generalizing l' with
  | nil =>
    cases l' with
    | nil => rfl
    | cons b l' => simpa using h (key b)
  | cons a l ih =>
    cases l' with
    | nil => simpa using h (key a)
    | cons b l' =>
      rw [List.pairwise_cons] at hl hl'
      have hmem (c : α) : c ∈ a :: l ↔ c ∈ b :: l' := by
        have hc := congrArg (c ∈ ·) (h (key c))
        simpa only [List.mem_filter, decide_true, and_true, eq_iff_iff] using hc
      have hba : key b ≤ key a := by
        rcases List.mem_cons.mp ((hmem a).mp (List.mem_cons_self ..)) with rfl | ha
        · exact le_rfl
        · exact hl'.1 a ha
      have hab : key a ≤ key b := by
        rcases List.mem_cons.mp ((hmem b).mpr (List.mem_cons_self ..)) with rfl | hb
        · exact le_rfl
        · exact hl.1 b hb
      have hkey := le_antisymm hab hba
      have hhead := h (key a)
      simp only [List.filter_cons, hkey, decide_true, if_true, List.cons.injEq] at hhead
      obtain ⟨rfl, -⟩ := hhead
      refine congrArg (a :: ·) (ih hl.2 hl'.2 fun k => ?_)
      have hk := h k
      simp only [List.filter_cons] at hk
      split at hk
      · exact (List.cons.inj hk).2
      · exact hk

theorem sortByKey_eq_iff {l l' : List α} : sortByKey key l = sortByKey key l' ↔
    ∀ k, l.filter (key · = k) = l'.filter (key · = k) := by
  constructor
  · intro h k
    rw [← filter_sortByKey key k l, ← filter_sortByKey key k l', h]
  · intro h
    refine eq_of_filter_eq (pairwise_sortByKey key l) (pairwise_sortByKey key l') fun k => ?_
    rw [filter_sortByKey, filter_sortByKey, h k]

theorem perm_sortByKey (l : List α) : (sortByKey key l).Perm l := List.perm_insertionSort _ l

end Stable

end SpendGuard.Base
