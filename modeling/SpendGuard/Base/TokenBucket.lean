import Mathlib

/-!
Token buckets in the abstract: a level for each owner that grows at a rate up to a burst, and from which a call
takes one.
-/

namespace SpendGuard.Base

variable {τ α : Type} [Field α] [LinearOrder α]

structure Meter (τ α : Type) where
  level : τ → α
  time : α

/-- A call of an owner at a time, and whether it was let through. -/
structure Served (τ α : Type) where
  owner : τ
  time : α
  accepted : Bool
  deriving DecidableEq

namespace Meter

section Def

variable [DecidableEq τ] (rate burst : α)

def levelAt (m : Meter τ α) (now : α) (owner : τ) : α := min (m.level owner + (now - m.time) * rate) burst

def take (m : Meter τ α) (owner : τ) (now : α) : Bool × Meter τ α :=
  if 1 ≤ m.levelAt rate burst now owner then
    (true, ⟨Function.update (m.levelAt rate burst now) owner (m.levelAt rate burst now owner - 1), now⟩)
  else (false, ⟨m.levelAt rate burst now, now⟩)

def serve : Meter τ α → List (τ × α) → List (Served τ α)
  | _, [] => []
  | m, (owner, now) :: calls =>
    ⟨owner, now, (m.take rate burst owner now).1⟩ :: (m.take rate burst owner now).2.serve calls

def Within (owner : τ) (t₁ t₂ : α) (s : Served τ α) : Bool :=
  decide (s.owner = owner ∧ s.accepted = true ∧ t₁ ≤ s.time ∧ s.time ≤ t₂)

end Def

section Levels

variable [IsStrictOrderedRing α] {rate burst x now now' t₀ : α} {m : Meter τ α} {owner : τ}

theorem min_refill (hrate : 0 ≤ rate) (hnow : now ≤ now') :
    min (min (x + (now - t₀) * rate) burst + (now' - now) * rate) burst = min (x + (now' - t₀) * rate) burst := by
  have hgrow : 0 ≤ (now' - now) * rate := mul_nonneg (sub_nonneg.mpr hnow) hrate
  rw [← min_add_add_right, min_assoc, min_eq_right (le_add_of_nonneg_right hgrow)]
  congr 1
  ring

theorem levelAt_le (hrate : 0 ≤ rate) (hnow : now ≤ now') :
    m.levelAt rate burst now' owner ≤ m.levelAt rate burst now owner + (now' - now) * rate := by
  rw [levelAt, levelAt, ← min_refill hrate hnow]
  exact min_le_left _ _

theorem levelAt_nonneg (hrate : 0 ≤ rate) (hburst : 0 ≤ burst) (hm : 0 ≤ m.level owner) (hnow : m.time ≤ now) :
    0 ≤ m.levelAt rate burst now owner :=
  le_min (add_nonneg hm (mul_nonneg (sub_nonneg.mpr hnow) hrate)) hburst

end Levels

section Take

variable [DecidableEq τ] {rate burst now : α} {m : Meter τ α} {owner : τ}

@[simp] theorem take_time : (m.take rate burst owner now).2.time = now := by
  unfold take
  split <;> rfl

theorem take_level (t : τ) : (m.take rate burst owner now).2.level t = m.levelAt rate burst now t -
    if owner = t ∧ (m.take rate burst owner now).1 = true then 1 else 0 := by
  unfold take
  split
  · by_cases ht : owner = t
    · subst ht
      simp
    · simp [ht, Ne.symm ht]
  · simp

theorem take_accepted : (m.take rate burst owner now).1 = true ↔ 1 ≤ m.levelAt rate burst now owner := by
  unfold take
  split
  · next h => exact iff_of_true rfl h
  · next h => exact iff_of_false nofun h

end Take

section Bound

variable [DecidableEq τ] [IsStrictOrderedRing α] {rate burst : α} {owner : τ} {t₁ t₂ : α}

theorem take_nonneg {m : Meter τ α} {owner : τ} {now : α} (hrate : 0 ≤ rate) (hburst : 0 ≤ burst)
    (hm : ∀ t, 0 ≤ m.level t) (hnow : m.time ≤ now) (t : τ) : 0 ≤ (m.take rate burst owner now).2.level t := by
  have hlevel := levelAt_nonneg hrate hburst (hm t) hnow
  rw [take_level]
  split
  · next h =>
    obtain ⟨rfl, haccepted⟩ := h
    exact sub_nonneg.mpr (take_accepted.mp haccepted)
  · rwa [sub_zero]

theorem take_levelAt_le {m : Meter τ α} {o : τ} {now now' : α} (hrate : 0 ≤ rate) (hnow : now ≤ now') :
    (m.take rate burst o now).2.levelAt rate burst now' owner ≤ m.levelAt rate burst now' owner := by
  have hlevel : (m.take rate burst o now).2.level owner ≤ m.levelAt rate burst now owner := by
    rw [take_level]
    split
    · linarith
    · rw [sub_zero]
  calc (m.take rate burst o now).2.levelAt rate burst now' owner
      ≤ min (m.levelAt rate burst now owner + (now' - now) * rate) burst := by
        rw [levelAt, take_time]
        exact min_le_min_right _ (add_le_add_left hlevel _)
    _ = m.levelAt rate burst now' owner := min_refill hrate hnow

omit [IsStrictOrderedRing α] in
theorem countP_eq_zero_of_late {m : Meter τ α} {calls : List (τ × α)} (hlate : ∀ c ∈ calls, t₂ < c.2) :
    (m.serve rate burst calls).countP (Within owner t₁ t₂) = 0 := by
  induction calls generalizing m with
  | nil => rfl
  | cons c calls ih =>
    obtain ⟨o, now⟩ := c
    rw [List.forall_mem_cons] at hlate
    rw [serve, List.countP_cons_of_neg, ih hlate.2]
    simp [Within, hlate.1]

/-- What an owner is let through between two times is covered by what it has at the first and what flows in. -/
theorem countP_within_le {m : Meter τ α} {calls : List (τ × α)} (hrate : 0 ≤ rate) (hburst : 0 ≤ burst)
    (hm : ∀ t, 0 ≤ m.level t) (hcalls : (m.time :: calls.map Prod.snd).Pairwise (· ≤ ·)) (hle : max t₁ m.time ≤ t₂) :
    ((m.serve rate burst calls).countP (Within owner t₁ t₂) : α) ≤
      m.levelAt rate burst (max t₁ m.time) owner + (t₂ - max t₁ m.time) * rate := by
  induction calls generalizing m with
  | nil =>
    have hlevel := levelAt_nonneg hrate hburst (hm owner) (le_max_right t₁ m.time)
    have hflow : 0 ≤ (t₂ - max t₁ m.time) * rate := mul_nonneg (sub_nonneg.mpr hle) hrate
    simpa [serve] using add_nonneg hlevel hflow
  | cons c calls ih =>
    obtain ⟨o, now⟩ := c
    rw [List.map_cons, List.pairwise_cons, List.forall_mem_cons] at hcalls
    obtain ⟨⟨hnow, -⟩, hcalls⟩ := hcalls
    have hlevel := levelAt_nonneg hrate hburst (hm owner) (le_max_right t₁ m.time)
    have hflow : 0 ≤ (t₂ - max t₁ m.time) * rate := mul_nonneg (sub_nonneg.mpr hle) hrate
    by_cases hlate : t₂ < now
    · -- from here on every call is too late
      rw [countP_eq_zero_of_late, Nat.cast_zero]
      · exact add_nonneg hlevel hflow
      · rw [List.forall_mem_cons]
        refine ⟨hlate, fun c hc => ?_⟩
        exact lt_of_lt_of_le hlate ((List.pairwise_cons.mp hcalls).1 c.2 (List.mem_map_of_mem hc))
    · have hrest := @ih (m.take rate burst o now).2 (take_nonneg hrate hburst hm hnow)
        (by rwa [take_time]) (by
          rw [take_time]
          exact max_le ((le_max_left _ _).trans hle) (not_lt.mp hlate))
      rw [take_time] at hrest
      rw [serve, List.countP_cons, Nat.cast_add]
      by_cases hearly : now < t₁
      · have hwithin : Within owner t₁ t₂ ⟨o, now, (m.take rate burst o now).1⟩ = false := by
          simp [Within, not_le.mpr hearly]
        rw [max_eq_left hearly.le] at hrest
        rw [max_eq_left (hnow.trans hearly.le), hwithin]
        have hkept : (m.take rate burst o now).2.levelAt rate burst t₁ owner ≤ m.levelAt rate burst t₁ owner :=
          take_levelAt_le hrate hearly.le
        simpa using hrest.trans (add_le_add hkept le_rfl)
      · rw [max_eq_right (not_lt.mp hearly)] at hrest
        have hs : max t₁ m.time ≤ now := max_le (not_lt.mp hearly) hnow
        have hgrown : m.levelAt rate burst now owner ≤
            m.levelAt rate burst (max t₁ m.time) owner + (now - max t₁ m.time) * rate := levelAt_le hrate hs
        have hleft : (m.take rate burst o now).2.levelAt rate burst now owner ≤ m.levelAt rate burst now owner -
            if o = owner ∧ (m.take rate burst o now).1 = true then 1 else 0 := by
          rw [levelAt, take_time, sub_self, zero_mul, add_zero, take_level]
          exact min_le_left _ _
        have hcount : ((if Within owner t₁ t₂ ⟨o, now, (m.take rate burst o now).1⟩ = true then 1 else 0 : ℕ) : α) =
            if o = owner ∧ (m.take rate burst o now).1 = true then 1 else 0 := by
          simp [Within, not_lt.mp hearly, not_lt.mp hlate]
        have hsum : (now - max t₁ m.time) * rate + (t₂ - now) * rate = (t₂ - max t₁ m.time) * rate := by ring
        rw [hcount]
        linarith

end Bound

end Meter

end SpendGuard.Base
