import SpendGuard.Base.Interleave

/-!
Runs given by a schedule: which session moves next, or what time it becomes.
-/

namespace SpendGuard.Base

variable {ι σ κ ε ρ γ β : Type} [DecidableEq ι] [Fintype ι] [DecidableEq κ]

inductive Move (ι : Type)
  | session (i : ι)
  | time (t : ℕ)

def Session.answer? : Session σ κ ε ρ γ β → Option β
  | .client (.done b) => some b
  | _ => none

omit [DecidableEq ι] [Fintype ι] [DecidableEq κ] in
theorem Session.eq_of_answer? {q : Session σ κ ε ρ γ β} {b : β} (h : q.answer? = some b) : q = .client (.done b) := by
  unfold answer? at h
  split at h
  · exact congrArg _ (congrArg _ (Option.some.inj h))
  · cases h

def Session.returning? : Session σ κ ε ρ γ β → Option γ
  | .running c (.pure _) _ _ _ => some c
  | _ => none

omit [DecidableEq κ] in
theorem Session.eq_of_returning? {q : Session σ κ ε ρ γ β} {c : γ} (h : q.returning? = some c) :
    ∃ a w held next, q = .running c (.pure a) w held next := by
  unfold returning? at h
  split at h
  · cases h
    exact ⟨_, _, _, _, rfl⟩
  · cases h

namespace Config

/-- The next move of session `i`, if it has one and does not wait for a lock. -/
def advance (body : γ → Proc σ κ ε ρ) (g : Config ι σ κ ε ρ γ β) (i : ι) :
    Option (Config ι σ κ ε ρ γ β) :=
  match g.session i with
  | .client (.done _) => none
  | .client (.call c n) => some (g.set i (.running c (body c) id [] n))
  | .running c (.observe k) w h n =>
    some (g.set i (.running c (k (w g.committed) g.clock) w h n))
  | .running c (.modify f p) w h n => some (g.set i (.running c p (f ∘ w) h n))
  | .running c (.lock l p) w h n =>
    if ∀ j, j ≠ i → l ∉ (g.session j).held then some (g.set i (.running c p w (l :: h) n)) else none
  | .running _ (.pure a) w _ n =>
    some { g.set i (.client (n (.ok a))) with committed := w g.committed }
  | .running _ (.raise e) _ _ n => some (g.set i (.client (n (.error e))))

def move (body : γ → Proc σ κ ε ρ) (g : Config ι σ κ ε ρ γ β) : Move ι → Config ι σ κ ε ρ γ β
  | .session i => (g.advance body i).getD g
  | .time t => if g.clock ≤ t then { g with clock := t } else g

def play (body : γ → Proc σ κ ε ρ) (g : Config ι σ κ ε ρ γ β) (moves : List (Move ι)) :
    Config ι σ κ ε ρ γ β :=
  moves.foldl (move body) g

variable {body : γ → Proc σ κ ε ρ} {g g' : Config ι σ κ ε ρ γ β}

theorem advance_step_of {ok : γ → σ → Prop} {i : ι} (h : g.advance body i = some g')
    (hok : ∀ c, (g.session i).returning? = some c → ok c g.committed) : Step body ok g g' := by
  unfold advance at h
  split at h
  · cases h
  · next hi =>
    cases h
    exact .start i hi
  · next hi =>
    cases h
    exact .observe i hi
  · next hi =>
    cases h
    exact .modify i hi
  · next hi =>
    split at h
    · next hfree =>
      cases h
      exact .lock i hi hfree
    · cases h
  · next hi =>
    cases h
    exact .commit i hi (hok _ (by rw [hi]; rfl))
  · next hi =>
    cases h
    exact .abort i hi

theorem advance_step {i : ι} (h : g.advance body i = some g') :
    Step body (fun _ _ => True) g g' := advance_step_of h fun _ _ => trivial

/-- If the move is a commit, it meets `ok`. -/
def moveOk (ok : γ → σ → Bool) (g : Config ι σ κ ε ρ γ β) : Move ι → Bool
  | .session i => (g.session i).returning?.all fun c => ok c g.committed
  | .time _ => true

def playOk (body : γ → Proc σ κ ε ρ) (ok : γ → σ → Bool) :
    Config ι σ κ ε ρ γ β → List (Move ι) → Bool
  | _, [] => true
  | g, m :: moves => g.moveOk ok m && (g.move body m).playOk body ok moves

theorem move_run {ok : γ → σ → Bool} (m : Move ι) (hok : g.moveOk ok m = true) :
    Run body (fun c s => ok c s = true) g (g.move body m) := by
  cases m with
  | session i =>
    cases hi : g.advance body i with
    | none =>
      rw [move, hi]
      exact .refl
    | some g' =>
      rw [move, hi]
      apply Relation.ReflTransGen.single
      apply advance_step_of hi
      intro c hc
      simpa [moveOk, hc] using hok
  | time t =>
    rw [move]
    split
    · next ht => exact .single (.tick t ht)
    · exact .refl

theorem play_commit {i : ι} {c : γ} {a : ρ} {w : σ → σ} {h : List κ} {n : Except ε ρ → Client γ ε ρ β}
    (hi : g.session i = .running c (.pure a) w h n) (moves : List (Move ι)) :
    g.play body (.session i :: moves) =
      ({ g.set i (.client (n (.ok a))) with committed := w g.committed } : Config ι σ κ ε ρ γ β).play
        body moves := by
  rw [play, List.foldl_cons, move, advance, hi]
  rfl

theorem play_run_of {ok : γ → σ → Bool} {moves : List (Move ι)} (h : g.playOk body ok moves = true) :
    Run body (fun c s => ok c s = true) g (g.play body moves) := by
  induction moves generalizing g with
  | nil => exact .refl
  | cons m moves ih =>
    rw [playOk, Bool.and_eq_true] at h
    exact (move_run m h.1).trans (ih h.2)

theorem playOk_true (moves : List (Move ι)) : g.playOk body (fun _ _ => true) moves = true := by
  induction moves generalizing g with
  | nil => rfl
  | cons m moves ih =>
    rw [playOk, ih, Bool.and_true]
    cases m <;> simp [moveOk]

theorem play_run (moves : List (Move ι)) : Run body (fun _ _ => True) g (g.play body moves) := by
  simpa using play_run_of (playOk_true moves)

end Config

/-- Every call the client may still issue satisfies `P`, whatever it is answered. -/
def Client.Calls (P : γ → Prop) : Client γ ε ρ β → Prop
  | .done _ => True
  | .call c next => P c ∧ ∀ r, (next r).Calls P

def Session.Calls (P : γ → Prop) : Session σ κ ε ρ γ β → Prop
  | .client c => c.Calls P
  | .running c _ _ _ next => P c ∧ ∀ r, (next r).Calls P

structure Config.Calls (P : γ → Prop) (g : Config ι σ κ ε ρ γ β) : Prop where
  session : ∀ i, (g.session i).Calls P

namespace Config.Calls

variable {body : γ → Proc σ κ ε ρ} {P : γ → Prop} {g g' : Config ι σ κ ε ρ γ β}

omit [Fintype ι] [DecidableEq κ]

theorem set {i : ι} {q : Session σ κ ε ρ γ β} (hg : g.Calls P) (hq : q.Calls P) :
    (g.set i q).Calls P where
  session j := by
    rw [set_session]
    split
    · exact hq
    · exact hg.session j

theorem commit {i : ι} {c : γ} {a : ρ} {w : σ → σ} {h : List κ} {n : Except ε ρ → Client γ ε ρ β}
    (hg : g.Calls P) (hi : g.session i = .running c (.pure a) w h n) :
    ({ g.set i (.client (n (.ok a))) with committed := w g.committed } :
      Config ι σ κ ε ρ γ β).Calls P := by
  have hq := hg.session i
  rw [hi] at hq
  exact ⟨(hg.set (i := i) (q := .client (n (.ok a))) (hq.2 _)).session⟩

theorem step (hg : g.Calls P) (h : Step body (fun _ _ => True) g g') :
    Step body (fun c _ => P c) g g' ∧ g'.Calls P := by
  have hat : ∀ {i q}, g.session i = q → q.Calls P := fun hi => hi ▸ hg.session _
  cases h with
  | tick t ht => exact ⟨.tick t ht, ⟨hg.session⟩⟩
  | start i hi => exact ⟨.start i hi, hg.set ⟨(hat hi).1, (hat hi).2⟩⟩
  | observe i hi => exact ⟨.observe i hi, hg.set ⟨(hat hi).1, (hat hi).2⟩⟩
  | modify i hi => exact ⟨.modify i hi, hg.set ⟨(hat hi).1, (hat hi).2⟩⟩
  | lock i hi hfree => exact ⟨.lock i hi hfree, hg.set ⟨(hat hi).1, (hat hi).2⟩⟩
  | commit i hi _ => exact ⟨.commit i hi (hat hi).1, hg.commit hi⟩
  | abort i hi => exact ⟨.abort i hi, hg.set ((hat hi).2 _)⟩

theorem congr {body' : γ → Proc σ κ ε ρ} {ok : γ → σ → Prop} (hbody : ∀ c, P c → body c = body' c)
    (hg : g.Calls P) (h : Run body ok g g') : Run body' ok g g' := by
  suffices Run body' ok g g' ∧ g'.Calls P from this.1
  induction h with
  | refl => exact ⟨.refl, hg⟩
  | tail _ hstep ih =>
    refine ⟨ih.1.tail ?_, (ih.2.step hstep.weaken).2⟩
    cases hstep with
    | tick t ht => exact .tick t ht
    | start i hi =>
      have hq := ih.2.session i
      rw [hi] at hq
      rw [hbody _ hq.1]
      exact .start i hi
    | observe i hi => exact .observe i hi
    | modify i hi => exact .modify i hi
    | lock i hi hfree => exact .lock i hi hfree
    | commit i hi hok => exact .commit i hi hok
    | abort i hi => exact .abort i hi

theorem run (hg : g.Calls P) (h : Run body (fun _ _ => True) g g') :
    Run body (fun c _ => P c) g g' ∧ g'.Calls P := by
  induction h with
  | refl => exact ⟨.refl, hg⟩
  | tail _ hstep ih =>
    obtain ⟨hstep, hcalls⟩ := ih.2.step hstep
    exact ⟨ih.1.tail hstep, hcalls⟩

end Config.Calls

end SpendGuard.Base
