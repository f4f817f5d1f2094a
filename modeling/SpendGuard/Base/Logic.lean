import SpendGuard.Base.Proc

/-!
Pre- and postconditions for a procedure that shares its database with others.  The part of the
state a lock protects is named by a projection `π`: it changes only by the procedure's own writes
while the lock is held, and everything else may change between two reads.
-/

namespace SpendGuard.Base.Proc

variable {σ κ ε α β τ : Type}

/-- Every normal end of the procedure, started when the protected part is `y` and no earlier than
`t₀`, satisfies `Q`. -/
def wp (π : σ → τ) (t₀ : ℕ) : Proc σ κ ε α → (α → τ → Prop) → τ → Prop
  | .pure a, Q, y => Q a y
  | .raise _, _, _ => True
  | .observe k, Q, y => ∀ v t, t₀ ≤ t → π v = y → (k v t).wp π t₀ Q y
  | .modify f k, Q, y => ∃ y', (∀ v, π v = y → π (f v) = y') ∧ k.wp π t₀ Q y'
  | .lock _ k, Q, y => k.wp π t₀ Q y

section Rules

variable {π : σ → τ} {t₀ : ℕ} {y : τ} {Q Q' : α → τ → Prop}

@[simp] theorem wp_pure {a : α} : wp π t₀ (Pure.pure a : Proc σ κ ε α) Q y ↔ Q a y := Iff.rfl

variable {e : ε} {x : Proc σ κ ε α}

@[simp] theorem wp_raise : wp π t₀ (.raise e : Proc σ κ ε α) Q y := trivial

@[simp] theorem wp_read {Q : σ → τ → Prop} :
    wp π t₀ (read : Proc σ κ ε σ) Q y ↔ ∀ v, π v = y → Q v y :=
  ⟨fun h v hv => h v t₀ (Nat.le_refl _) hv, fun h v _ _ hv => h v hv⟩

@[simp] theorem wp_acquire {l : κ} {Q : Unit → τ → Prop} :
    wp π t₀ (acquire l : Proc σ κ ε Unit) Q y ↔ Q () y := Iff.rfl

@[simp] theorem wp_require {p : Prop} [Decidable p] {Q : Unit → τ → Prop} :
    wp (κ := κ) π t₀ (require p e) Q y ↔ (p → Q () y) := by
  unfold require
  split <;> simp_all [wp]

@[simp] theorem wp_demand {o : Option α} :
    wp (κ := κ) π t₀ (demand o e) Q y ↔ ∀ a, o = some a → Q a y := by
  cases o <;> simp [demand, wp]

theorem wp_clock {Q : ℕ → τ → Prop} (h : ∀ t, t₀ ≤ t → Q t y) :
    wp π t₀ (clock : Proc σ κ ε ℕ) Q y := fun _ t ht _ => h t ht

theorem wp_write {f : σ → σ} (y' : τ) {Q : Unit → τ → Prop} (hf : ∀ v, π v = y → π (f v) = y')
    (h : Q () y') : wp π t₀ (write f : Proc σ κ ε Unit) Q y := ⟨y', hf, h⟩

@[simp] theorem wp_bind {f : α → Proc σ κ ε β} {Q : β → τ → Prop} :
    wp π t₀ (x >>= f) Q y ↔ wp π t₀ x (fun a y' => wp π t₀ (f a) Q y') y := by
  change wp π t₀ (x.bind f) Q y ↔ _
  induction x generalizing y with
  | pure a => rfl
  | raise e => rfl
  | observe k ih => exact forall₂_congr fun v t => forall₂_congr fun _ _ => ih v t
  | modify g k ih => exact exists_congr fun y' => and_congr_right fun _ => ih
  | lock l k ih => exact ih

theorem wp_mono (hQ : ∀ a y, Q a y → Q' a y) (h : wp π t₀ x Q y) :
    wp π t₀ x Q' y := by
  induction x generalizing y with
  | pure a => exact hQ a y h
  | raise e => trivial
  | observe k ih => exact fun v t ht hv => ih v t (h v t ht hv)
  | modify g k ih =>
    obtain ⟨y', hy, h⟩ := h
    exact ⟨y', hy, ih h⟩
  | lock l k ih => exact ih h

theorem exec_of_wp {s s' : σ} {a : α} (h : wp π t₀ x Q (π s))
    (hx : exec t₀ x s = .ok (a, s')) : Q a (π s') := by
  induction x generalizing s with
  | pure b =>
    cases hx
    exact h
  | raise e => cases hx
  | observe k ih => exact ih s t₀ (h s t₀ (Nat.le_refl _) rfl) hx
  | modify g k ih =>
    obtain ⟨y', hy, h⟩ := h
    have hs : π (g s) = y' := hy s rfl
    exact ih (hs ▸ h) hx
  | lock l k ih => exact ih h hx

end Rules

/-- Every write of the procedure satisfies `P`. -/
def Writes (P : (σ → σ) → Prop) : Proc σ κ ε α → Prop
  | .pure _ => True
  | .raise _ => True
  | .observe k => ∀ v t, (k v t).Writes P
  | .modify f k => P f ∧ k.Writes P
  | .lock _ k => k.Writes P

section Writes

variable {P P' : (σ → σ) → Prop}

@[simp] theorem writes_pure {a : α} : Writes P (Pure.pure a : Proc σ κ ε α) := trivial

@[simp] theorem writes_read : Writes P (read : Proc σ κ ε σ) := fun _ _ => trivial

@[simp] theorem writes_clock : Writes P (clock : Proc σ κ ε ℕ) := fun _ _ => trivial

@[simp] theorem writes_acquire {l : κ} : Writes P (acquire l : Proc σ κ ε Unit) := trivial

@[simp] theorem writes_write {f : σ → σ} : Writes P (write f : Proc σ κ ε Unit) ↔ P f :=
  and_iff_left trivial

@[simp] theorem writes_require {p : Prop} [Decidable p] {e : ε} :
    Writes P (require p e : Proc σ κ ε Unit) := by
  unfold require
  split <;> trivial

@[simp] theorem writes_demand {o : Option α} {e : ε} : Writes P (demand o e : Proc σ κ ε α) := by
  cases o <;> trivial

@[simp] theorem writes_ofExcept {x : Except ε α} : Writes P (ofExcept x : Proc σ κ ε α) := by
  cases x <;> trivial

namespace Writes

variable {x : Proc σ κ ε α}

theorem bind {f : α → Proc σ κ ε β} (hx : Writes P x)
    (hf : ∀ a, Writes P (f a)) : Writes P (x >>= f) := by
  change Writes P (x.bind f)
  induction x with
  | pure a => exact hf a
  | raise e => trivial
  | observe k ih => exact fun v t => ih v t (hx v t)
  | modify g k ih => exact ⟨hx.1, ih hx.2⟩
  | lock l k ih => exact ih hx

theorem map {f : α → β} (hx : Writes P x) : Writes P (f <$> x) :=
  hx.bind (f := fun a => Pure.pure (f a)) fun _ => writes_pure

theorem mono (hP : ∀ f, P f → P' f) (hx : Writes P x) : Writes P' x := by
  induction x with
  | pure a => trivial
  | raise e => trivial
  | observe k ih => exact fun v t => ih v t (hx v t)
  | modify g k ih => exact ⟨hP g hx.1, ih hx.2⟩
  | lock l k ih => exact ih hx

theorem wp {π : σ → τ} {J : τ → Prop} {t₀ : ℕ} {y : τ} (hx : Writes P x)
    (hP : ∀ f y, P f → J y → ∃ y', (∀ v, π v = y → π (f v) = y') ∧ J y') (hy : J y) :
    wp π t₀ x (fun _ y => J y) y := by
  induction x generalizing y with
  | pure a => exact hy
  | raise e => trivial
  | observe k ih => exact fun v t _ _ => ih v t (hx v t) hy
  | modify g k ih =>
    obtain ⟨y', hg, hy'⟩ := hP g y hx.1 hy
    exact ⟨y', hg, ih hx.2 hy'⟩
  | lock l k ih => exact ih hx hy

end Writes

end Writes

/-- The procedure never writes the part `π` of the state. -/
abbrev Quiet (π : σ → τ) : Proc σ κ ε α → Prop := Writes fun f => ∀ v, π (f v) = π v

variable {x : Proc σ κ ε α}

theorem Quiet.wp {π : σ → τ} {Q : α → τ → Prop} {t₀ : ℕ} {y : τ}
    (hx : Quiet π x) (h : ∀ a, Q a y) : wp π t₀ x Q y := by
  have hsame : Proc.wp π t₀ x (fun _ z => z = y) y :=
    Writes.wp hx (fun f z hf hz => ⟨z, fun v hv => (hf v).trans hv, hz⟩) rfl
  apply wp_mono _ hsame
  rintro a z rfl
  exact h a

theorem Quiet.exec_eq {π : σ → τ} {t₀ : ℕ} {s s' : σ} {a : α} (hx : Quiet π x)
    (h : exec t₀ x s = .ok (a, s')) : π s' = π s :=
  exec_of_wp (Q := fun _ y => y = π s) (hx.wp fun _ => rfl) h

theorem Quiet.wp_bind {π : σ → τ} {f : α → Proc σ κ ε β} {Q : β → τ → Prop}
    {t₀ : ℕ} {y : τ} (hx : Quiet π x) (h : ∀ a, Proc.wp π t₀ (f a) Q y) :
    Proc.wp π t₀ (x >>= f) Q y := Proc.wp_bind.mpr (Quiet.wp hx h)

end SpendGuard.Base.Proc
