import SpendGuard.Base.Interleave

/-!
What a transaction has written and which locks it holds when it comes to its end, whatever it read on
the way from states that agree on a part no call writes.
-/

namespace SpendGuard.Base

variable {ι σ κ ε ρ γ β τ : Type}

/-- Every normal end of the procedure, reached with the writes `w` and the locks `h` so far and no
earlier than `t`, satisfies `Q`, if what it reads satisfies `I`. -/
def Proc.Ends (I : σ → Prop) (Q : (σ → σ) → List κ → ℕ → Prop) :
    ℕ → (σ → σ) → List κ → Proc σ κ ε ρ → Prop
  | t, w, h, .pure _ => Q w h t
  | _, _, _, .raise _ => True
  | t, w, h, .observe k => ∀ v t', t ≤ t' → I v → (k v t').Ends I Q t' w h
  | t, w, h, .modify f k => k.Ends I Q t (f ∘ w) h
  | t, w, h, .lock l k => k.Ends I Q t w (l :: h)

theorem Proc.ends_of_forall {I : σ → Prop} {Q : (σ → σ) → List κ → ℕ → Prop} (hQ : ∀ w h t, Q w h t)
    (p : Proc σ κ ε ρ) (t : ℕ) (w : σ → σ) (h : List κ) : p.Ends I Q t w h := by
  induction p generalizing t w h with
  | pure a => exact hQ w h t
  | raise e => trivial
  | observe k ih => exact fun v t' _ _ => ih v t' t' w h
  | modify f k ih => exact ih t (f ∘ w) h
  | lock l k ih => exact ih t w (l :: h)

theorem Proc.Ends.map {α : Type} {I : σ → Prop} {Q : (σ → σ) → List κ → ℕ → Prop} {f : α → ρ}
    {p : Proc σ κ ε α} {t : ℕ} {w : σ → σ} {h : List κ} (hp : p.Ends I Q t w h) :
    (f <$> p).Ends I Q t w h := by
  change (p.bind fun a => .pure (f a)).Ends I Q t w h
  induction p generalizing t w h with
  | pure a => exact hp
  | raise e => trivial
  | observe k ih => exact fun v t' ht hv => ih v t' (hp v t' ht hv)
  | modify g k ih => exact ih hp
  | lock l k ih => exact ih hp

/-- A session whose writes leave `π` alone and whose end satisfies what its call promises. -/
def Session.Ends (π : σ → τ) (x : τ) (Q : γ → (σ → σ) → List κ → ℕ → Prop) (now : ℕ) :
    Session σ κ ε ρ γ β → Prop
  | .client _ => True
  | .running c p w h _ => p.Quiet π ∧ (∀ v, π (w v) = π v) ∧
      ∃ t ≤ now, p.Ends (fun v => π v = x) (Q c) t w h

structure Config.Ends (π : σ → τ) (x : τ) (Q : γ → (σ → σ) → List κ → ℕ → Prop)
    (g : Config ι σ κ ε ρ γ β) : Prop where
  session : ∀ i, (g.session i).Ends π x Q g.clock
  unwritten : π g.committed = x

namespace Config.Ends

variable [DecidableEq ι] {π : σ → τ} {x : τ} {Q : γ → (σ → σ) → List κ → ℕ → Prop}
  {g g' : Config ι σ κ ε ρ γ β} {body : γ → Proc σ κ ε ρ} {ok : γ → σ → Prop}

theorem set {i : ι} {q : Session σ κ ε ρ γ β} (hg : g.Ends π x Q) (hq : q.Ends π x Q g.clock) :
    (g.set i q).Ends π x Q where
  session j := by
    rw [set_session]
    split
    · exact hq
    · exact hg.session j
  unwritten := hg.unwritten

theorem step (hquiet : ∀ c, (body c).Quiet π)
    (hbody : ∀ c, (body c).Ends (fun v => π v = x) (Q c) 0 id []) (hg : g.Ends π x Q)
    (h : Step body ok g g') : g'.Ends π x Q := by
  cases h with
  | tick t ht =>
    refine ⟨?_, hg.unwritten⟩
    intro i
    have hi := hg.session i
    cases hq : g.session i with
    | client c => trivial
    | running c p w h n =>
      rw [hq] at hi
      obtain ⟨hp, hw, t₁, ht₁, hends⟩ := hi
      exact ⟨hp, hw, t₁, Nat.le_trans ht₁ ht, hends⟩
  | start i hi => exact hg.set ⟨hquiet _, fun _ => rfl, 0, Nat.zero_le _, hbody _⟩
  | observe i hi =>
    have hq := hg.session i
    rw [hi] at hq
    obtain ⟨hp, hw, t, ht, hends⟩ := hq
    apply hg.set
    exact ⟨hp _ _, hw, g.clock, Nat.le_refl _, hends _ _ ht ((hw _).trans hg.unwritten)⟩
  | modify i hi =>
    have hq := hg.session i
    rw [hi] at hq
    obtain ⟨hp, hw, t, ht, hends⟩ := hq
    exact hg.set ⟨hp.2, fun v => (hp.1 _).trans (hw v), t, ht, hends⟩
  | lock i hi _ =>
    have hq := hg.session i
    rw [hi] at hq
    exact hg.set hq
  | commit i hi _ =>
    have hq := hg.session i
    rw [hi] at hq
    exact ⟨(hg.set (i := i) (q := .client _) trivial).session, (hq.2.1 _).trans hg.unwritten⟩
  | abort i hi => exact hg.set trivial

theorem run (hquiet : ∀ c, (body c).Quiet π)
    (hbody : ∀ c, (body c).Ends (fun v => π v = x) (Q c) 0 id []) (hg : g.Ends π x Q)
    (h : Run body ok g g') : g'.Ends π x Q := by
  induction h with
  | refl => exact hg
  | tail _ hstep ih => exact ih.step hquiet hbody hstep

end Config.Ends

theorem Config.ends_of_clients {π : σ → τ} {Q : γ → (σ → σ) → List κ → ℕ → Prop}
    {g : Config ι σ κ ε ρ γ β} (hg : ∀ i, ∃ c, g.session i = .client c) :
    g.Ends π (π g.committed) Q where
  session i := by
    obtain ⟨c, hc⟩ := hg i
    rw [hc]
    trivial
  unwritten := rfl

end SpendGuard.Base
