import SpendGuard.Base.Schedule

/-!
Clients with one call each: what the calls can have done before the first of them comes to its end,
and how a call ends that has the system to itself from then on.
-/

namespace SpendGuard.Base

variable {ι σ κ ε ρ γ τ α : Type}

namespace Proc

/-- What is left of the procedure `q`, with its writes and locks so far, after some of its accesses
to a system in which nothing has been committed since `s`. -/
inductive Residual (s : σ) (q : Proc σ κ ε ρ) : Proc σ κ ε ρ → (σ → σ) → List κ → Prop
  | start : Residual s q q id []
  | observe {k w h} (t : ℕ) : Residual s q (.observe k) w h → Residual s q (k (w s) t) w h
  | modify {f p w h} : Residual s q (.modify f p) w h → Residual s q p (f ∘ w) h
  | lock {l p w h} : Residual s q (.lock l p) w h → Residual s q p w (l :: h)

theorem Residual.wp {π : σ → τ} {Q : ρ → τ → Prop} {s : σ} {q p : Proc σ κ ε ρ} {w : σ → σ}
    {h : List κ} (hp : Residual s q p w h) (hq : wp π 0 q Q (π s)) : wp π 0 p Q (π (w s)) := by
  induction hp with
  | start => exact hq
  | observe t _ ih => exact ih _ t (Nat.zero_le t) rfl
  | modify _ ih =>
    obtain ⟨y, hy, hwp⟩ := ih
    have hs := hy _ rfl
    exact hs ▸ hwp
  | lock _ ih => exact ih

/-- Every run of the procedure alone, at times up to `T`, comes to a normal end that satisfies `Q`. -/
def Solo (T : ℕ) (Q : ρ → σ → Prop) : Proc σ κ ε ρ → σ → Prop
  | .pure a, s => Q a s
  | .raise _, _ => False
  | .observe k, s => ∀ t ≤ T, (k s t).Solo T Q s
  | .modify f k, s => k.Solo T Q (f s)
  | .lock _ k, s => k.Solo T Q s

section Solo

variable {T : ℕ} {s : σ} {Q : ρ → σ → Prop}

@[simp] theorem solo_pure {a : ρ} : Solo T Q (Pure.pure a : Proc σ κ ε ρ) s ↔ Q a s := Iff.rfl

@[simp] theorem solo_read {Q : σ → σ → Prop} : Solo T Q (read : Proc σ κ ε σ) s ↔ Q s s :=
  ⟨fun h => h 0 (Nat.zero_le T), fun h _ _ => h⟩

@[simp] theorem solo_clock {Q : ℕ → σ → Prop} :
    Solo T Q (clock : Proc σ κ ε ℕ) s ↔ ∀ t ≤ T, Q t s := Iff.rfl

@[simp] theorem solo_acquire {l : κ} {Q : Unit → σ → Prop} :
    Solo T Q (acquire l : Proc σ κ ε Unit) s ↔ Q () s := Iff.rfl

@[simp] theorem solo_write {f : σ → σ} {Q : Unit → σ → Prop} :
    Solo T Q (write f : Proc σ κ ε Unit) s ↔ Q () (f s) := Iff.rfl

@[simp] theorem solo_require {p : Prop} [Decidable p] {e : ε} {Q : Unit → σ → Prop} :
    Solo (κ := κ) T Q (require p e) s ↔ p ∧ Q () s := by
  unfold require
  split <;> simp_all [Solo]

@[simp] theorem solo_demand {o : Option ρ} {e : ε} :
    Solo (κ := κ) T Q (demand o e) s ↔ ∃ a, o = some a ∧ Q a s := by
  cases o <;> simp [demand, Solo]

@[simp] theorem solo_bind {x : Proc σ κ ε α} {f : α → Proc σ κ ε ρ} :
    Solo T Q (x >>= f) s ↔ Solo T (fun a s' => Solo T Q (f a) s') x s := by
  change Solo T Q (x.bind f) s ↔ _
  induction x generalizing s with
  | pure a => rfl
  | raise e => rfl
  | observe k ih => exact forall₂_congr fun t _ => ih s t
  | modify g k ih => exact ih
  | lock l k ih => exact ih

theorem Solo.mono {Q' : ρ → σ → Prop} {p : Proc σ κ ε ρ} (hQ : ∀ a s, Q a s → Q' a s)
    (h : Solo T Q p s) : Solo T Q' p s := by
  induction p generalizing s with
  | pure a => exact hQ a s h
  | raise e => exact h
  | observe k ih => exact fun t ht => ih s t (h t ht)
  | modify g k ih => exact ih h
  | lock l k ih => exact ih h

theorem Solo.exec {p : Proc σ κ ε ρ} (h : Solo T Q p s) :
    ∃ a s', exec T p s = .ok (a, s') ∧ Q a s' := by
  induction p generalizing s with
  | pure a => exact ⟨a, s, rfl, h⟩
  | raise e => exact h.elim
  | observe k ih => exact ih s T (h T (Nat.le_refl T))
  | modify g k ih => exact ih h
  | lock l k ih => exact ih h

end Solo

end Proc

variable {body : γ → Proc σ κ ε ρ} {ok : γ → σ → Prop}

section Racing

/-- The session has a call `c` to make or is making it, and has committed nothing. -/
def Session.Racing (body : γ → Proc σ κ ε ρ) (s : σ) (c : γ) :
    Session σ κ ε ρ γ (Except ε ρ) → Prop
  | .client q => q = .call c .done
  | .running c' p w h n => c' = c ∧ n = .done ∧ Proc.Residual s (body c) p w h

structure Config.Racing (body : γ → Proc σ κ ε ρ) (s : σ) (calls : ι → γ)
    (g : Config ι σ κ ε ρ γ (Except ε ρ)) : Prop where
  session : ∀ i, (g.session i).Racing body s (calls i)
  committed : g.committed = s
  exclusive : ∀ i j l, l ∈ (g.session i).held → l ∈ (g.session j).held → i = j

def Config.Decided (g : Config ι σ κ ε ρ γ (Except ε ρ)) : Prop := ∃ i r, g.session i = .client (.done r)

variable [DecidableEq ι] {s : σ} {calls : ι → γ} {g g' : Config ι σ κ ε ρ γ (Except ε ρ)}

theorem Config.Decided.step (h : Step body ok g g') (hg : g.Decided) : g'.Decided := by
  obtain ⟨i, r, hi⟩ := hg
  have hset : ∀ j q, g.session j ≠ .client (.done r) → (g.set j q).session i = .client (.done r) := by
    intro j q hj
    rw [set_session, if_neg (by rintro rfl; exact hj hi)]
    exact hi
  cases h with
  | tick t ht => exact ⟨i, r, hi⟩
  | start j hj => exact ⟨i, r, hset j _ (by simp [hj])⟩
  | observe j hj => exact ⟨i, r, hset j _ (by simp [hj])⟩
  | modify j hj => exact ⟨i, r, hset j _ (by simp [hj])⟩
  | lock j hj _ => exact ⟨i, r, hset j _ (by simp [hj])⟩
  | commit j hj _ => exact ⟨i, r, hset j _ (by simp [hj])⟩
  | abort j hj => exact ⟨i, r, hset j _ (by simp [hj])⟩

namespace Config.Racing

theorem set {i : ι} {q : Session σ κ ε ρ γ (Except ε ρ)} (hg : g.Racing body s calls)
    (hq : q.Racing body s (calls i)) (hl : ∀ l ∈ q.held, ∀ j, j ≠ i → l ∉ (g.session j).held) :
    (g.set i q).Racing body s calls where
  session j := by
    rw [set_session]
    split
    · next hj => exact hj ▸ hq
    · exact hg.session j
  committed := hg.committed
  exclusive j k l := by
    simp only [set_session]
    split <;> split
    · exact fun _ _ => (‹j = i›).trans (‹k = i›).symm
    · exact fun hj hk => absurd hk (hl l hj k ‹_›)
    · exact fun hj hk => absurd hj (hl l hk j ‹_›)
    · exact hg.exclusive j k l

omit [DecidableEq ι] in
theorem others_free {i : ι} (hg : g.Racing body s calls) :
    ∀ l ∈ (g.session i).held, ∀ j, j ≠ i → l ∉ (g.session j).held :=
  fun l hi j hj h => hj (hg.exclusive j i l h hi)

theorem step (hg : g.Racing body s calls) (h : Step body ok g g') :
    g'.Racing body s calls ∨ g'.Decided := by
  cases h with
  | tick t ht => exact .inl ⟨hg.session, hg.committed, hg.exclusive⟩
  | start i hi =>
    left
    have hq := hg.session i
    rw [hi] at hq
    cases hq
    exact hg.set ⟨rfl, rfl, .start⟩ (by simp)
  | observe i hi =>
    left
    have hq := hg.session i
    rw [hi] at hq
    obtain ⟨rfl, rfl, hp⟩ := hq
    rw [hg.committed]
    exact hg.set ⟨rfl, rfl, hp.observe _⟩ fun l hl => hg.others_free l (by rwa [hi])
  | modify i hi =>
    left
    have hq := hg.session i
    rw [hi] at hq
    obtain ⟨rfl, rfl, hp⟩ := hq
    exact hg.set ⟨rfl, rfl, hp.modify⟩ fun l hl => hg.others_free l (by rwa [hi])
  | lock i hi hfree =>
    left
    have hq := hg.session i
    rw [hi] at hq
    obtain ⟨rfl, rfl, hp⟩ := hq
    refine hg.set ⟨rfl, rfl, hp.lock⟩ ?_
    intro l hl
    rcases List.mem_cons.mp hl with rfl | hl
    · exact hfree
    · exact hg.others_free l (by rwa [hi])
  | @commit i c a w h n hi _ =>
    right
    have hq := hg.session i
    rw [hi] at hq
    refine ⟨i, .ok a, ?_⟩
    change (g.set i _).session i = _
    rw [set_session, if_pos rfl, hq.2.1]
  | @abort i c e w h n hi =>
    right
    have hq := hg.session i
    rw [hi] at hq
    refine ⟨i, .error e, ?_⟩
    rw [set_session, if_pos rfl, hq.2.1]

theorem run (hg : g.Racing body s calls) (h : Run body ok g g') :
    g'.Racing body s calls ∨ g'.Decided := by
  induction h with
  | refl => exact .inl hg
  | tail _ hstep ih =>
    rcases ih with hracing | hdecided
    · exact hracing.step hstep
    · exact .inr (hdecided.step hstep)

omit [DecidableEq ι] in
theorem eq_of_returning? {i : ι} (hg : g.Racing body s calls) (h : (g.session i).returning?.isSome) :
    ∃ a w held, g.session i = .running (calls i) (.pure a) w held .done := by
  obtain ⟨c, hc⟩ := Option.isSome_iff_exists.mp h
  obtain ⟨a, w, held, next, hi⟩ := Session.eq_of_returning? hc
  have hq := hg.session i
  rw [hi] at hq
  obtain ⟨rfl, rfl, -⟩ := hq
  exact ⟨a, w, held, hi⟩

end Config.Racing

omit [DecidableEq ι] in
theorem Config.racing_of_clients (hg : ∀ i, g.session i = .client (.call (calls i) .done)) :
    g.Racing body g.committed calls where
  session i := by
    rw [hg]
    rfl
  committed := rfl
  exclusive i j l hi := by simp [hg] at hi

end Racing

section Alone

variable {j : ι} {s : σ} {T : ℕ} {Q : ρ → σ → Prop} {g g' : Config ι σ κ ε ρ γ (Except ε ρ)}

/-- The call of the session will end as `Q` says, or has done so. -/
def Session.Settles (body : γ → Proc σ κ ε ρ) (s : σ) (T : ℕ) (Q : ρ → σ → Prop) (committed : σ) :
    Session σ κ ε ρ γ (Except ε ρ) → Prop
  | .client (.call c n) => n = .done ∧ committed = s ∧ (body c).Solo T Q s
  | .client (.done r) => ∃ a, r = .ok a ∧ Q a committed
  | .running _ p w _ n => n = .done ∧ committed = s ∧ p.Solo T Q (w s)

/-- Given enough moves in a row, session `j` finishes its call as `Q` says. -/
def Config.Finishes [DecidableEq ι] [Fintype ι] [DecidableEq κ] (body : γ → Proc σ κ ε ρ) (j : ι) (Q : ρ → σ → Prop)
    (g : Config ι σ κ ε ρ γ (Except ε ρ)) : Prop :=
  ∃ n a, (g.play body (List.replicate n (.session j))).session j = .client (.done (.ok a)) ∧
    Q a (g.play body (List.replicate n (.session j))).committed

theorem Config.Finishes.of_advance [DecidableEq ι] [Fintype ι] [DecidableEq κ]
    (h : g.advance body j = some g') (hg' : g'.Finishes body j Q) : g.Finishes body j Q := by
  obtain ⟨n, a, hdone, hQ⟩ := hg'
  have hplay : g.play body (List.replicate (n + 1) (.session j)) =
      g'.play body (List.replicate n (.session j)) := by
    rw [List.replicate_succ, play, List.foldl_cons, move, h]
    rfl
  exact ⟨n + 1, a, hplay ▸ hdone, hplay ▸ hQ⟩

/-- Only the call of session `j` is still under way. -/
structure Config.Alone (body : γ → Proc σ κ ε ρ) (j : ι) (s : σ) (T : ℕ) (Q : ρ → σ → Prop)
    (g : Config ι σ κ ε ρ γ (Except ε ρ)) : Prop where
  others : ∀ i, i ≠ j → ∃ r, g.session i = .client (.done r)
  session : (g.session j).Settles body s T Q g.committed

namespace Config.Alone

theorem others_free (hg : g.Alone body j s T Q) (l : κ) : ∀ i, i ≠ j → l ∉ (g.session i).held := by
  intro i hi
  obtain ⟨r, hr⟩ := hg.others i hi
  simp [hr]

variable [DecidableEq ι]

theorem set {q : Session σ κ ε ρ γ (Except ε ρ)} {t : σ} (hg : g.Alone body j s T Q)
    (hq : q.Settles body s T Q t) : Config.Alone body j s T Q { g.set j q with committed := t } where
  others i hi := by
    obtain ⟨r, hr⟩ := hg.others i hi
    refine ⟨r, ?_⟩
    change (g.set j q).session i = _
    rw [set_session, if_neg hi]
    exact hr
  session := by
    change ((g.set j q).session j).Settles body s T Q t
    rw [set_session, if_pos rfl]
    exact hq

theorem mover {i : ι} {q : Session σ κ ε ρ γ (Except ε ρ)} (hg : g.Alone body j s T Q)
    (hi : g.session i = q) (hq : ∀ r, q ≠ .client (.done r)) :
    i = j ∧ q.Settles body s T Q g.committed := by
  by_cases hij : i = j
  · subst hij
    exact ⟨rfl, hi ▸ hg.session⟩
  · obtain ⟨r, hr⟩ := hg.others i hij
    exact absurd (hi.symm.trans hr) (hq r)

theorem step (hg : g.Alone body j s T Q) (hT : g.clock ≤ T) (h : Step body ok g g') :
    g'.Alone body j s T Q := by
  cases h with
  | tick t ht => exact ⟨hg.others, hg.session⟩
  | start i hi =>
    obtain ⟨rfl, rfl, hs, hp⟩ := hg.mover hi (by simp)
    exact hg.set ⟨rfl, hs, hp⟩
  | observe i hi =>
    obtain ⟨rfl, rfl, hs, hp⟩ := hg.mover hi (by simp)
    rw [hs]
    exact hg.set ⟨rfl, hs, hp _ hT⟩
  | modify i hi =>
    obtain ⟨rfl, rfl, hs, hp⟩ := hg.mover hi (by simp)
    exact hg.set ⟨rfl, hs, hp⟩
  | lock i hi _ =>
    obtain ⟨rfl, rfl, hs, hp⟩ := hg.mover hi (by simp)
    exact hg.set ⟨rfl, hs, hp⟩
  | commit i hi _ =>
    obtain ⟨rfl, rfl, hs, hp⟩ := hg.mover hi (by simp)
    rw [hs]
    exact hg.set ⟨_, rfl, hp⟩
  | abort i hi =>
    obtain ⟨_, _, _, hp⟩ := hg.mover hi (by simp)
    exact hp.elim

theorem run (hg : g.Alone body j s T Q) (h : Run body ok g g') (hT : g'.clock ≤ T) :
    g'.Alone body j s T Q := by
  induction h with
  | refl => exact hg
  | tail _ hstep ih =>
    have hclock := Nat.le_trans hstep.clock_le hT
    exact (ih hclock).step hclock hstep

variable [Fintype ι] [DecidableEq κ]

theorem finishes_running {c : γ} {p : Proc σ κ ε ρ} {w : σ → σ} {h : List κ}
    {n : Except ε ρ → Client γ ε ρ (Except ε ρ)} (hg : g.Alone body j s T Q) (hT : g.clock ≤ T)
    (hj : g.session j = .running c p w h n) : g.Finishes body j Q := by
  induction p generalizing g w h with
  | pure a =>
    have hmove : g.advance body j =
        some { g.set j (.client (n (.ok a))) with committed := w g.committed } := by
      rw [advance, hj]
    have hsettles := hg.session
    rw [hj] at hsettles
    obtain ⟨rfl, hs, hQ⟩ := hsettles
    refine .of_advance hmove ⟨0, a, ?_, hs ▸ hQ⟩
    exact Function.update_self j _ g.session
  | raise e =>
    have hsettles := hg.session
    rw [hj] at hsettles
    exact hsettles.2.2.elim
  | observe k ih =>
    have hmove : g.advance body j = some (g.set j (.running c (k (w g.committed) g.clock) w h n)) := by
      rw [advance, hj]
    apply Finishes.of_advance hmove
    exact ih _ _ (hg.step hT (advance_step hmove)) hT (Function.update_self j _ g.session)
  | modify f k ih =>
    have hmove : g.advance body j = some (g.set j (.running c k (f ∘ w) h n)) := by
      rw [advance, hj]
    apply Finishes.of_advance hmove
    exact ih (hg.step hT (advance_step hmove)) hT (Function.update_self j _ g.session)
  | lock l k ih =>
    have hmove : g.advance body j = some (g.set j (.running c k w (l :: h) n)) := by
      rw [advance, hj]
      exact if_pos (hg.others_free l)
    apply Finishes.of_advance hmove
    exact ih (hg.step hT (advance_step hmove)) hT (Function.update_self j _ g.session)

theorem finishes (hg : g.Alone body j s T Q) (hT : g.clock ≤ T) : g.Finishes body j Q := by
  have hsettles := hg.session
  cases hj : g.session j with
  | running c p w h n => exact hg.finishes_running hT hj
  | client q =>
    rw [hj] at hsettles
    cases q with
    | done r =>
      obtain ⟨a, rfl, hQ⟩ := hsettles
      exact ⟨0, a, hj, hQ⟩
    | call c n =>
      have hmove : g.advance body j = some (g.set j (.running c (body c) id [] n)) := by
        rw [advance, hj]
      apply Finishes.of_advance hmove
      exact (hg.step hT (advance_step hmove)).finishes_running hT (Function.update_self j _ g.session)

end Config.Alone

end Alone

end SpendGuard.Base
