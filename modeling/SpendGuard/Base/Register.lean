import Mathlib.Data.List.Basic
import Mathlib.Data.Nat.Notation
import Mathlib.Tactic.Common

/-!
A register fenced by epochs: a grant to a new owner raises the epoch, and a write is logged with the
epoch at which it was accepted.
-/

namespace SpendGuard.Base

structure Register (ω δ : Type) where
  epoch : ℕ
  owner : Option ω
  grants : List (ℕ × ω)
  log : List (ℕ × δ)

namespace Register

variable {ω δ : Type}

inductive Move (x : Register ω δ) : Register ω δ → Prop
  | stay : Move x x
  | renew {w : ω} (h : x.owner = some w) : Move x { x with grants := x.grants ++ [(x.epoch, w)] }
  | grant (w : ω) :
      Move x { x with epoch := x.epoch + 1, owner := some w, grants := x.grants ++ [(x.epoch + 1, w)] }
  | write (ds : List δ) : Move x { x with log := x.log ++ ds.map fun d => (x.epoch, d) }

/-- The grants and the log are a history that leads to the epoch and the owner. -/
structure Consistent (x : Register ω δ) : Prop where
  grants_le : ∀ a ∈ x.grants, a.1 ≤ x.epoch
  current : ∀ w, (x.epoch, w) ∈ x.grants → x.owner = some w
  unique : ∀ a ∈ x.grants, ∀ b ∈ x.grants, a.1 = b.1 → a.2 = b.2
  log_le : ∀ d ∈ x.log, d.1 ≤ x.epoch
  ordered : x.log.Pairwise fun a b => a.1 ≤ b.1

structure Advances (x y : Register ω δ) : Prop where
  epoch_le : x.epoch ≤ y.epoch
  owner_eq : x.epoch = y.epoch → x.owner = y.owner
  grants : ∃ new, y.grants = x.grants ++ new
  log : ∃ new, y.log = x.log ++ new ∧ ∀ d ∈ new, x.epoch ≤ d.1

variable {x y z : Register ω δ}

namespace Consistent

theorem granted (h : x.Consistent) {e : ℕ} {w : ω} (he : x.epoch ≤ e)
    (howner : e = x.epoch → x.owner = some w) :
    (⟨e, some w, x.grants ++ [(e, w)], x.log⟩ : Register ω δ).Consistent := by
  -- an old grant of the same epoch can only be of the current one
  have hsame : ∀ a ∈ x.grants, a.1 = e → a.2 = w := by
    rintro ⟨e', w'⟩ ha rfl
    have hcurrent : e' = x.epoch := Nat.le_antisymm (h.grants_le _ ha) he
    subst hcurrent
    have howner' := (h.current w' ha).symm.trans (howner rfl)
    exact Option.some.inj howner'
  constructor
  · intro a ha
    rw [List.mem_append, List.mem_singleton] at ha
    cases ha with
    | inl hold => exact Nat.le_trans (h.grants_le a hold) he
    | inr hnew =>
      subst hnew
      exact Nat.le_refl _
  · intro w' hw'
    rw [List.mem_append, List.mem_singleton] at hw'
    cases hw' with
    | inl hold => exact congrArg some (hsame _ hold rfl).symm
    | inr hnew => exact congrArg some (Prod.mk.inj hnew).2.symm
  · intro a ha b hb hab
    rw [List.mem_append, List.mem_singleton] at ha hb
    cases ha with
    | inl ha =>
      cases hb with
      | inl hb => exact h.unique a ha b hb hab
      | inr hb =>
        subst hb
        exact hsame a ha hab
    | inr ha =>
      subst ha
      cases hb with
      | inl hb => exact (hsame b hb hab.symm).symm
      | inr hb => exact hb ▸ rfl
  · intro d hd
    exact Nat.le_trans (h.log_le d hd) he
  · exact h.ordered

theorem move (h : x.Consistent) (hm : x.Move y) : y.Consistent := by
  cases hm with
  | stay => exact h
  | @renew w hw =>
    have hgranted := h.granted (Nat.le_refl x.epoch) fun _ => hw
    rwa [← hw] at hgranted
  | grant w => exact h.granted (Nat.le_succ _) fun he => absurd he (Nat.succ_ne_self _)
  | write ds =>
    refine ⟨h.grants_le, h.current, h.unique, ?_, ?_⟩
    · intro d hd
      rw [List.mem_append, List.mem_map] at hd
      rcases hd with hold | ⟨_, _, rfl⟩
      · exact h.log_le d hold
      · exact Nat.le_refl _
    · rw [List.pairwise_append]
      refine ⟨h.ordered, ?_, ?_⟩
      · rw [List.pairwise_map]
        exact List.pairwise_of_forall fun _ _ => Nat.le_refl _
      · intro a ha b hb
        obtain ⟨_, _, rfl⟩ := List.mem_map.mp hb
        exact h.log_le a ha

end Consistent

namespace Advances

theorem refl (x : Register ω δ) : x.Advances x :=
  ⟨Nat.le_refl _, fun _ => rfl, ⟨[], by simp⟩, ⟨[], by simp⟩⟩

theorem trans (h : x.Advances y) (h' : y.Advances z) : x.Advances z := by
  obtain ⟨grants, hgrants⟩ := h.grants
  obtain ⟨grants', hgrants'⟩ := h'.grants
  obtain ⟨log, hlog, hfrom⟩ := h.log
  obtain ⟨log', hlog', hfrom'⟩ := h'.log
  refine ⟨Nat.le_trans h.epoch_le h'.epoch_le, ?_, ⟨grants ++ grants', ?_⟩, ⟨log ++ log', ?_, ?_⟩⟩
  · intro he
    have hle := h.epoch_le
    have hle' := h'.epoch_le
    rw [h.owner_eq (by omega), h'.owner_eq (by omega)]
  · rw [hgrants', hgrants, List.append_assoc]
  · rw [hlog', hlog, List.append_assoc]
  · intro d hd
    rw [List.mem_append] at hd
    cases hd with
    | inl hd => exact hfrom d hd
    | inr hd => exact Nat.le_trans h.epoch_le (hfrom' d hd)

theorem of_move (h : x.Move y) : x.Advances y := by
  cases h with
  | stay => exact refl x
  | @renew w hw => exact ⟨Nat.le_refl _, fun _ => rfl, ⟨_, rfl⟩, ⟨[], by simp⟩⟩
  | grant w =>
    exact ⟨Nat.le_succ _, fun he => absurd he (Nat.succ_ne_self _).symm, ⟨_, rfl⟩, ⟨[], by simp⟩⟩
  | write ds =>
    refine ⟨Nat.le_refl _, fun _ => rfl, ⟨[], by simp⟩, ⟨_, rfl, ?_⟩⟩
    intro d hd
    obtain ⟨_, _, rfl⟩ := List.mem_map.mp hd
    exact Nat.le_refl _

theorem log_after_grant (h : x.Advances y) (hx : x.Consistent) :
    ∃ new, y.log = x.log ++ new ∧ ∀ a ∈ x.grants, ∀ d ∈ new, a.1 ≤ d.1 := by
  obtain ⟨new, hlog, hfrom⟩ := h.log
  refine ⟨new, hlog, ?_⟩
  intro a ha d hd
  exact Nat.le_trans (hx.grants_le a ha) (hfrom d hd)

end Advances

end Register

end SpendGuard.Base
