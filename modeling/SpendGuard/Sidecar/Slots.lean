import SpendGuard.Sidecar.Idempotency
import SpendGuard.Base.Fifo

/-!
What the idempotency cache holds after any history of calls: a key keeps the slot that its first `put` took until a
`get` finds it expired, or until too many keys have joined the queue behind it.
-/

namespace SpendGuard.Sidecar

open Base Ledger

inductive CacheOp
  | get (now : ℕ) (key : String) (fingerprint : Bytes)
  | put (now : ℕ) (key : String) (fingerprint : Bytes) (r : DecisionResponse)

namespace IdempotencyCache

def new (capacity : ℕ) (ttlSecs : ℤ) : IdempotencyCache := ⟨[], [], max capacity 1, (max ttlSecs 1).toNat⟩

def apply (c : IdempotencyCache) : CacheOp → IdempotencyCache
  | .get now key fingerprint => (c.get now key fingerprint).2
  | .put now key fingerprint r => c.put now key fingerprint r

def run (c : IdempotencyCache) (ops : List CacheOp) : IdempotencyCache := ops.foldl apply c

/-- A time is no more than `ttl_secs` whole seconds ago. -/
def Fresh (c : IdempotencyCache) (now insertedAt : ℕ) : Prop := (now - insertedAt) / 1000000 ≤ c.ttlSecs

instance (c : IdempotencyCache) (now insertedAt : ℕ) : Decidable (c.Fresh now insertedAt) :=
  inferInstanceAs (Decidable (_ ≤ _))

def inserts (c : IdempotencyCache) : CacheOp → Option String
  | .put _ key _ _ => if c.slot? key = none then some key else none
  | .get _ _ _ => none

def drops (c : IdempotencyCache) : CacheOp → Option String
  | .get now key _ => (c.slot? key).bind fun e => if c.Fresh now e.insertedAt then none else some key
  | .put _ _ _ _ => none

def joined (c : IdempotencyCache) (newcomers : List String) (op : CacheOp) : List String :=
  match c.inserts op, c.drops op with
  | some key, _ => newcomers ++ [key]
  | none, some key => newcomers.filter (· ≠ key)
  | none, none => newcomers

/-- Of a key that has a slot: no call drops it, and fewer than `capacity` other keys are newly inserted at any time
and not dropped again. -/
def Kept (key : String) : IdempotencyCache → List String → List CacheOp → Prop
  | _, _, [] => True
  | c, newcomers, op :: ops =>
    c.drops op ≠ some key ∧ (c.joined newcomers op).length < c.capacity ∧
      Kept key (c.apply op) (c.joined newcomers op) ops

end IdempotencyCache

def putEntry (key : String) (e : Option CacheEntry) : CacheOp → Option CacheEntry
  | .put now k fingerprint r => if k = key then some ⟨fingerprint, r, now⟩ else e
  | .get _ _ _ => e

/-- What the last `put` of a key has brought. -/
def latestPut (key : String) (ops : List CacheOp) : Option CacheEntry := ops.foldl (putEntry key) none

namespace IdempotencyCache

/-- A `put` made a slot for the key, which was kept since; the last `put` of the key brought the entry. -/
def Holds (c : IdempotencyCache) (ops : List CacheOp) (key : String) (e : CacheEntry) : Prop :=
  ∃ before now fingerprint r after, ops = before ++ .put now key fingerprint r :: after ∧
    (c.run before).slot? key = none ∧
    Kept key ((c.run before).put now key fingerprint r) [] after ∧
    latestPut key (.put now key fingerprint r :: after) = some e

structure WellFormed (c : IdempotencyCache) : Prop where
  nodup : c.order.Nodup
  keys : (c.map.map Prod.fst).Perm c.order
  bounded : c.order.length ≤ c.capacity
  positive : 0 < c.capacity

section WellFormed

variable {c : IdempotencyCache} {now : ℕ} {key : String} {fingerprint : Bytes} {r : DecisionResponse} {op : CacheOp}

theorem WellFormed.mem_order_iff (h : c.WellFormed) : key ∈ c.order ↔ (c.slot? key).isSome := by
  rw [← h.keys.mem_iff, ← not_iff_not, Option.not_isSome_iff_eq_none, slot?, List.lookup_eq_none_iff, List.mem_map]
  constructor
  · intro hnot p hp
    exact bne_iff_ne.mpr fun heq => hnot ⟨p, hp, heq.symm⟩
  · rintro hne ⟨p, hp, rfl⟩
    exact bne_iff_ne.mp (hne p hp) rfl

theorem map_filter_fst (l : List (String × CacheEntry)) (k : String) :
    (l.filter (·.1 ≠ k)).map Prod.fst = (l.map Prod.fst).filter (· ≠ k) := by
  rw [List.filter_map]
  rfl

theorem wellFormed_new (capacity : ℕ) (ttlSecs : ℤ) : (new capacity ttlSecs).WellFormed :=
  ⟨List.nodup_nil, .nil, Nat.zero_le _, by simp [new]⟩

theorem WellFormed.drop (h : c.WellFormed) :
    WellFormed { c with map := c.map.filter (·.1 ≠ key), order := c.order.filter (· ≠ key) } where
  nodup := h.nodup.filter _
  keys := by
    rw [map_filter_fst]
    exact h.keys.filter _
  bounded := Nat.le_trans (List.length_filter_le _ _) h.bounded
  positive := h.positive

inductive Effect (c : IdempotencyCache) : CacheOp → IdempotencyCache → Prop
  | answered {now : ℕ} {key : String} {fingerprint : Bytes} (hdrops : c.drops (.get now key fingerprint) = none) :
      Effect c (.get now key fingerprint) c
  | dropped {now : ℕ} {key : String} {fingerprint : Bytes} (hdrops : c.drops (.get now key fingerprint) = some key) :
      Effect c (.get now key fingerprint)
        { c with map := c.map.filter (·.1 ≠ key), order := c.order.filter (· ≠ key) }
  | refreshed {now : ℕ} {key : String} {fingerprint : Bytes} {r : DecisionResponse} {old : CacheEntry}
      (hslot : c.slot? key = some old) :
      Effect c (.put now key fingerprint r)
        { c with map := (key, ⟨fingerprint, r, now⟩) :: c.map.filter (·.1 ≠ key) }
  | joined {now : ℕ} {key : String} {fingerprint : Bytes} {r : DecisionResponse} (hslot : c.slot? key = none)
      (hroom : c.order.length < c.capacity) :
      Effect c (.put now key fingerprint r)
        { c with map := (key, ⟨fingerprint, r, now⟩) :: c.map, order := c.order ++ [key] }
  | displaced {now : ℕ} {key : String} {fingerprint : Bytes} {r : DecisionResponse} {oldest : String}
      {rest : List String} (hslot : c.slot? key = none) (horder : c.order = oldest :: rest)
      (hfull : c.capacity ≤ c.order.length) :
      Effect c (.put now key fingerprint r)
        { c with
          map := (key, ⟨fingerprint, r, now⟩) :: c.map.filter (·.1 ≠ oldest)
          order := rest ++ [key] }

theorem effect_get (c : IdempotencyCache) (now : ℕ) (key : String) (fingerprint : Bytes) :
    c.Effect (.get now key fingerprint) (c.apply (.get now key fingerprint)) := by
  rw [apply, get]
  cases hslot : c.slot? key with
  | none => exact .answered (by simp [drops, hslot])
  | some e =>
    dsimp only
    split
    · next hfresh =>
      have hfresh : c.Fresh now e.insertedAt := hfresh
      exact .answered (by simp [drops, hslot, hfresh])
    · next hstale =>
      have hstale : ¬c.Fresh now e.insertedAt := hstale
      exact .dropped (by simp [drops, hslot, hstale])

theorem WellFormed.effect (h : c.WellFormed) (op : CacheOp) : c.Effect op (c.apply op) := by
  cases op with
  | get now key fingerprint => exact effect_get c now key fingerprint
  | put now key fingerprint r =>
    rw [apply, put]
    split
    · next hsome =>
      obtain ⟨old, hold⟩ := Option.isSome_iff_exists.mp hsome
      exact .refreshed hold
    · next hnone =>
      have hslot := Option.not_isSome_iff_eq_none.mp hnone
      split
      · next hfull =>
        cases horder : c.order with
        | nil =>
          rw [horder] at hfull
          exact absurd hfull (Nat.not_le.mpr h.positive)
        | cons oldest rest => exact .displaced hslot horder hfull
      · next hroom => exact .joined hslot (Nat.lt_of_not_le hroom)

theorem WellFormed.not_mem_order (h : c.WellFormed) (hslot : c.slot? key = none) : key ∉ c.order := by
  rw [h.mem_order_iff, hslot]
  exact Bool.false_ne_true

theorem WellFormed.apply (h : c.WellFormed) (op : CacheOp) : (c.apply op).WellFormed := by
  have heffect := h.effect op
  generalize c.apply op = c' at heffect
  cases heffect with
  | answered => exact h
  | dropped => exact h.drop
  | @refreshed now key _ _ old hslot =>
    refine ⟨h.nodup, ?_, h.bounded, h.positive⟩
    have hmem := h.mem_order_iff.mpr (Option.isSome_iff_exists.mpr ⟨old, hslot⟩)
    rw [List.map_cons, map_filter_fst]
    exact ((h.keys.filter _).cons key).trans (perm_cons_filter_ne h.nodup hmem)
  | @joined now key _ _ hslot hroom =>
    refine ⟨?_, ?_, ?_, h.positive⟩
    · rw [List.nodup_append]
      refine ⟨h.nodup, List.nodup_singleton _, fun a ha b hb heq => h.not_mem_order hslot ?_⟩
      exact List.mem_singleton.mp hb ▸ heq ▸ ha
    · rw [List.map_cons]
      exact (h.keys.cons key).trans (List.perm_append_singleton key _).symm
    · rw [List.length_append, List.length_singleton]
      exact hroom
  | @displaced now key _ _ oldest rest hslot horder hfull =>
    have hnodup := h.nodup
    have hkeys := h.keys
    have hbounded := h.bounded
    have hnot := h.not_mem_order hslot
    rw [horder] at hnodup hkeys hbounded hnot
    obtain ⟨holdest, hrest⟩ := List.nodup_cons.mp hnodup
    refine ⟨?_, ?_, ?_, h.positive⟩
    · rw [List.nodup_append]
      refine ⟨hrest, List.nodup_singleton _, fun a ha b hb heq => hnot (List.mem_cons_of_mem _ ?_)⟩
      exact List.mem_singleton.mp hb ▸ heq ▸ ha
    · have hfilter : (oldest :: rest).filter (· ≠ oldest) = rest := by
        rw [List.filter_cons_of_neg (by simp), filter_ne_of_not_mem holdest]
      rw [List.map_cons, map_filter_fst]
      exact ((hfilter ▸ hkeys.filter _).cons key).trans (List.perm_append_singleton key _).symm
    · rw [List.length_append, List.length_singleton]
      exact hbounded

theorem WellFormed.config_apply (h : c.WellFormed) (op : CacheOp) :
    (c.apply op).capacity = c.capacity ∧ (c.apply op).ttlSecs = c.ttlSecs := by
  have heffect := h.effect op
  generalize c.apply op = c' at heffect
  cases heffect <;> exact ⟨rfl, rfl⟩

theorem WellFormed.run (h : c.WellFormed) (ops : List CacheOp) : (c.run ops).WellFormed := by
  induction ops generalizing c with
  | nil => exact h
  | cons op ops ih => exact ih (h.apply op)

theorem WellFormed.config_run (h : c.WellFormed) (ops : List CacheOp) :
    (c.run ops).capacity = c.capacity ∧ (c.run ops).ttlSecs = c.ttlSecs := by
  induction ops generalizing c with
  | nil => exact ⟨rfl, rfl⟩
  | cons op ops ih =>
    obtain ⟨hcapacity, httl⟩ := ih (h.apply op)
    exact ⟨hcapacity.trans (h.config_apply op).1, httl.trans (h.config_apply op).2⟩

end WellFormed

structure Tracks (c : IdempotencyCache) (key : String) (e : CacheEntry) (newcomers : List String) : Prop where
  slot : c.slot? key = some e
  behind : behind key c.order = newcomers

section Tracks

variable {c : IdempotencyCache} {key : String} {e : CacheEntry} {newcomers : List String} {op : CacheOp}

theorem joined_of_new {now : ℕ} {k : String} {fingerprint : Bytes} {r : DecisionResponse} (hslot : c.slot? k = none) :
    c.joined newcomers (.put now k fingerprint r) = newcomers ++ [k] := by
  simp [joined, inserts, hslot]

theorem joined_of_known {now : ℕ} {k : String} {fingerprint : Bytes} {r : DecisionResponse} {old : CacheEntry}
    (hslot : c.slot? k = some old) : c.joined newcomers (.put now k fingerprint r) = newcomers := by
  simp [joined, inserts, drops, hslot]

theorem Tracks.ne_of_new (ht : c.Tracks key e newcomers) {k : String} (hslot : c.slot? k = none) : k ≠ key := by
  rintro rfl
  rw [ht.slot] at hslot
  cases hslot

theorem Tracks.mem_order (ht : c.Tracks key e newcomers) (h : c.WellFormed) : key ∈ c.order := by
  rw [h.mem_order_iff, ht.slot]
  rfl

theorem Tracks.apply (ht : c.Tracks key e newcomers) (h : c.WellFormed) (hdrops : c.drops op ≠ some key)
    (hroom : (c.joined newcomers op).length < c.capacity) :
    ∃ e', putEntry key (some e) op = some e' ∧ (c.apply op).Tracks key e' (c.joined newcomers op) := by
  have hmem := ht.mem_order h
  have heffect := h.effect op
  generalize c.apply op = c' at heffect
  cases heffect with
  | answered hanswered =>
    refine ⟨e, rfl, ?_⟩
    rw [joined, hanswered]
    exact ht
  | @dropped now k _ hdropped =>
    have hne : key ≠ k := fun heq => hdrops (heq ▸ hdropped)
    refine ⟨e, rfl, ?_, ?_⟩
    · rw [← ht.slot]
      exact lookup_filter_ne hne c.map
    · rw [joined, hdropped, ← ht.behind]
      exact behind_filter hne c.order
  | @refreshed now k fingerprint r old hslot =>
    rw [joined_of_known hslot]
    by_cases hk : k = key
    · subst hk
      exact ⟨_, if_pos rfl, List.lookup_cons_self, ht.behind⟩
    · refine ⟨e, if_neg hk, ?_, ht.behind⟩
      rw [← ht.slot, slot?, List.lookup_cons, beq_false_of_ne (Ne.symm hk)]
      exact lookup_filter_ne (Ne.symm hk) c.map
  | @joined now k fingerprint r hslot hlt =>
    have hk := ht.ne_of_new hslot
    refine ⟨e, if_neg hk, ?_, ?_⟩
    · rw [← ht.slot, slot?, List.lookup_cons, beq_false_of_ne (Ne.symm hk)]
      rfl
    · rw [joined_of_new hslot, ← ht.behind]
      exact behind_append hmem k
  | @displaced now k fingerprint r oldest rest hslot horder hfull =>
    have hk := ht.ne_of_new hslot
    rw [joined_of_new hslot, List.length_append, List.length_singleton] at hroom
    have hbehind := ht.behind
    rw [horder] at hbehind hmem hfull
    -- the oldest key has all others behind it
    have holdest : oldest ≠ key := by
      rintro rfl
      rw [behind_cons_self] at hbehind
      rw [List.length_cons, hbehind] at hfull
      omega
    refine ⟨e, if_neg hk, ?_, ?_⟩
    · rw [← ht.slot, slot?, List.lookup_cons, beq_false_of_ne (Ne.symm hk)]
      exact lookup_filter_ne (Ne.symm holdest) c.map
    · rw [behind_cons_of_ne holdest] at hbehind
      rw [joined_of_new hslot, ← hbehind]
      exact behind_append ((List.mem_cons.mp hmem).resolve_left (Ne.symm holdest)) k

theorem Tracks.kept (ht : c.Tracks key e newcomers) (h : c.WellFormed) (hsome : (c.apply op).slot? key ≠ none) :
    c.drops op ≠ some key ∧ (c.joined newcomers op).length < c.capacity := by
  have hmem := ht.mem_order h
  have hlength := length_behind_lt hmem
  rw [ht.behind] at hlength
  have hbounded := h.bounded
  have heffect := h.effect op
  generalize c.apply op = c' at heffect hsome
  cases heffect with
  | answered hanswered =>
    rw [joined, hanswered]
    exact ⟨nofun, by dsimp only [inserts]; omega⟩
  | @dropped now k _ hdropped =>
    constructor
    · intro hdrops
      rw [hdropped] at hdrops
      cases hdrops
      exact hsome (lookup_filter_self key c.map)
    · rw [joined, hdropped]
      have := List.length_filter_le (fun x => decide (x ≠ k)) newcomers
      dsimp only [inserts]
      omega
  | @refreshed now k fingerprint r old hslot =>
    rw [joined_of_known hslot]
    exact ⟨nofun, by omega⟩
  | @joined now k fingerprint r hslot hlt =>
    rw [joined_of_new hslot, List.length_append, List.length_singleton]
    exact ⟨nofun, by omega⟩
  | @displaced now k fingerprint r oldest rest hslot horder hfull =>
    have hk := ht.ne_of_new hslot
    have holdest : oldest ≠ key := by
      rintro rfl
      apply hsome
      rw [slot?, List.lookup_cons, beq_false_of_ne (Ne.symm hk)]
      exact lookup_filter_self oldest c.map
    have hbehind := ht.behind
    rw [horder, behind_cons_of_ne holdest] at hbehind
    rw [horder] at hmem hbounded
    have hrest := length_behind_lt ((List.mem_cons.mp hmem).resolve_left (Ne.symm holdest))
    rw [hbehind] at hrest
    rw [List.length_cons] at hbounded
    rw [joined_of_new hslot, List.length_append, List.length_singleton]
    exact ⟨nofun, by omega⟩

end Tracks

section History

variable {c : IdempotencyCache} {key : String} {e : CacheEntry} {newcomers : List String}

theorem run_append (c : IdempotencyCache) (ops ops' : List CacheOp) : c.run (ops ++ ops') = (c.run ops).run ops' :=
  List.foldl_append

theorem Kept.tracks {ops : List CacheOp} (hkept : Kept key c newcomers ops) (h : c.WellFormed)
    (ht : c.Tracks key e newcomers) :
    ∃ e' newcomers', ops.foldl (putEntry key) (some e) = some e' ∧ (c.run ops).Tracks key e' newcomers' := by
  induction ops generalizing c e newcomers with
  | nil => exact ⟨e, newcomers, rfl, ht⟩
  | cons op ops ih =>
    obtain ⟨hdrops, hroom, hkept⟩ := hkept
    obtain ⟨e', hentry, ht'⟩ := ht.apply h hdrops hroom
    obtain ⟨e'', newcomers', hlatest, htracks⟩ := ih hkept (h.apply op) ht'
    exact ⟨e'', newcomers', by rw [List.foldl_cons, hentry, hlatest], htracks⟩

theorem Kept.append {ops : List CacheOp} (hkept : Kept key c newcomers ops) (h : c.WellFormed)
    (ht : c.Tracks key e newcomers) {op : CacheOp} (hsome : ((c.run ops).apply op).slot? key ≠ none) :
    Kept key c newcomers (ops ++ [op]) := by
  induction ops generalizing c e newcomers with
  | nil =>
    obtain ⟨hdrops, hroom⟩ := ht.kept h hsome
    exact ⟨hdrops, hroom, trivial⟩
  | cons o ops ih =>
    obtain ⟨hdrops, hroom, hkept⟩ := hkept
    obtain ⟨e', -, ht'⟩ := ht.apply h hdrops hroom
    exact ⟨hdrops, hroom, ih hkept (h.apply o) ht' hsome⟩

theorem tracks_put {now : ℕ} {fingerprint : Bytes} {r : DecisionResponse} (h : c.WellFormed)
    (hslot : c.slot? key = none) : (c.put now key fingerprint r).Tracks key ⟨fingerprint, r, now⟩ [] := by
  refine ⟨slot?_put, ?_⟩
  have hnot := h.not_mem_order hslot
  have heffect := h.effect (.put now key fingerprint r)
  rw [IdempotencyCache.apply] at heffect
  generalize c.put now key fingerprint r = c' at heffect
  cases heffect with
  | refreshed hold =>
    rw [hslot] at hold
    cases hold
  | joined _ _ => exact behind_last hnot
  | displaced _ horder _ =>
    rw [horder, List.mem_cons, not_or] at hnot
    exact behind_last hnot.2

theorem Holds.slot {ops : List CacheOp} (hholds : c.Holds ops key e) (h : c.WellFormed) :
    (c.run ops).slot? key = some e := by
  obtain ⟨before, now, fingerprint, r, after, rfl, hnone, hkept, hlatest⟩ := hholds
  have hbefore := h.run before
  obtain ⟨e', newcomers, hentry, htracks⟩ :=
    hkept.tracks (hbefore.apply (.put now key fingerprint r)) (tracks_put hbefore hnone)
  rw [latestPut, List.foldl_cons, putEntry, if_pos rfl, hentry] at hlatest
  cases hlatest
  rw [run_append]
  exact htracks.slot

theorem WellFormed.creates {op : CacheOp} (h : c.WellFormed) (hnone : c.slot? key = none)
    (hsome : (c.apply op).slot? key ≠ none) : ∃ now fingerprint r, op = .put now key fingerprint r := by
  have heffect := h.effect op
  generalize c.apply op = c' at heffect hsome
  have hfilter (k : String) : (c.map.filter (·.1 ≠ k)).lookup key = none := by
    by_cases hk : key = k
    · rw [hk]
      exact lookup_filter_self k c.map
    · rw [lookup_filter_ne hk]
      exact hnone
  cases heffect with
  | answered => exact absurd hnone hsome
  | dropped => exact absurd (hfilter _) hsome
  | @refreshed now k fingerprint r old hslot =>
    by_cases hk : k = key
    · exact ⟨now, fingerprint, r, hk ▸ rfl⟩
    · rw [slot?, List.lookup_cons, beq_false_of_ne (Ne.symm hk)] at hsome
      exact absurd (hfilter k) hsome
  | @joined now k fingerprint r hslot hroom =>
    by_cases hk : k = key
    · exact ⟨now, fingerprint, r, hk ▸ rfl⟩
    · rw [slot?, List.lookup_cons, beq_false_of_ne (Ne.symm hk)] at hsome
      exact absurd hnone hsome
  | @displaced now k fingerprint r oldest rest hslot horder hfull =>
    by_cases hk : k = key
    · exact ⟨now, fingerprint, r, hk ▸ rfl⟩
    · rw [slot?, List.lookup_cons, beq_false_of_ne (Ne.symm hk)] at hsome
      exact absurd (hfilter oldest) hsome

theorem holds_of_slot {ops : List CacheOp} (h : c.WellFormed) (hempty : ∀ k, c.slot? k = none)
    (hslot : (c.run ops).slot? key ≠ none) : ∃ e, c.Holds ops key e := by
  induction ops using List.reverseRecOn with
  | nil => exact absurd (hempty key) hslot
  | append_singleton ops op ih =>
    rw [run_append] at hslot
    by_cases hbefore : (c.run ops).slot? key = none
    · obtain ⟨now, fingerprint, r, rfl⟩ := (h.run ops).creates hbefore hslot
      exact ⟨⟨fingerprint, r, now⟩, ops, now, fingerprint, r, [], rfl, hbefore, trivial, if_pos rfl⟩
    · -- the slot was there, and the last call has kept it
      obtain ⟨e, before, now, fingerprint, r, after, rfl, hnone, hkept, -⟩ := ih hbefore
      have hwf := h.run before
      have hput := hwf.apply (.put now key fingerprint r)
      rw [run_append] at hslot
      have hkept' := hkept.append hput (tracks_put hwf hnone) hslot
      obtain ⟨e', newcomers, hlatest, -⟩ := hkept'.tracks hput (tracks_put hwf hnone)
      refine ⟨e', before, now, fingerprint, r, after ++ [op], by simp, hnone, hkept', ?_⟩
      rw [latestPut, List.foldl_cons, putEntry, if_pos rfl, hlatest]

structure Remembers (start : IdempotencyCache) (ops : List CacheOp) : Prop where
  keys : ((start.run ops).map.map Prod.fst).Perm (start.run ops).order
  nodup : (start.run ops).order.Nodup
  bounded : (start.run ops).order.length ≤ start.capacity
  answers : ∀ now key fingerprint, ((start.run ops).get now key fingerprint).1 ≠ .miss ↔
    ∃ e, start.Holds ops key e ∧ start.Fresh now e.insertedAt
  answer : ∀ now key fingerprint e, start.Holds ops key e → start.Fresh now e.insertedAt →
    ((start.run ops).get now key fingerprint).1 =
      if e.requestFingerprint = fingerprint then .hit e.response else .conflict e.requestFingerprint

/-- A cache answers from what its key's last `put` has brought, if the key was kept and that is not too long ago. -/
theorem new_remembers (capacity : ℕ) (ttlSecs : ℤ) (ops : List CacheOp) : (new capacity ttlSecs).Remembers ops := by
  have hstart := wellFormed_new capacity ttlSecs
  have hwf := hstart.run ops
  obtain ⟨hcapacity, httl⟩ := hstart.config_run ops
  have hanswer (now : ℕ) (key : String) (fingerprint : Bytes) (e : CacheEntry)
      (hholds : (new capacity ttlSecs).Holds ops key e) (hfresh : (new capacity ttlSecs).Fresh now e.insertedAt) :
      (((new capacity ttlSecs).run ops).get now key fingerprint).1 =
        if e.requestFingerprint = fingerprint then .hit e.response else .conflict e.requestFingerprint := by
    rw [Fresh, ← httl] at hfresh
    rw [get, hholds.slot hstart]
    dsimp only
    rw [if_pos hfresh]
  refine ⟨hwf.keys, hwf.nodup, hcapacity ▸ hwf.bounded, fun now key fingerprint => ⟨fun hmiss => ?_, ?_⟩, hanswer⟩
  · have hslot : ((new capacity ttlSecs).run ops).slot? key ≠ none := by
      intro hnone
      rw [get, hnone] at hmiss
      exact hmiss rfl
    obtain ⟨e, hholds⟩ := holds_of_slot hstart (fun _ => rfl) hslot
    refine ⟨e, hholds, ?_⟩
    by_contra hstale
    rw [Fresh, ← httl] at hstale
    rw [get, hholds.slot hstart] at hmiss
    dsimp only at hmiss
    rw [if_neg hstale] at hmiss
    exact hmiss rfl
  · rintro ⟨e, hholds, hfresh⟩
    rw [hanswer now key fingerprint e hholds hfresh]
    split <;> simp

end History

section Example

def demoResponse : DecisionResponse := { decisionId := "d", decision := .continued }

def newKeys : IdempotencyCache → List CacheOp → List String
  | _, [] => []
  | c, op :: ops => (c.inserts op).toList ++ newKeys (c.apply op) ops

/-- A second key expires while the first is put again, and is dropped when it is asked for; then a third comes. -/
def refreshedOps : List CacheOp :=
  [.put 0 "a" [2] demoResponse, .put 600000000 "k" [1] demoResponse, .get 601000000 "a" [2],
    .put 601000000 "b" [3] demoResponse]

/-- As many other keys as the cache has room for came since, and the key is still there; and an entry is served for
most of a second longer than its time. -/
theorem refreshed_key_outlives_capacity :
    ((new 2 600).put 0 "k" [1] demoResponse).newKeys refreshedOps = ["a", "b"] ∧
      ((((new 2 600).put 0 "k" [1] demoResponse).run refreshedOps).get 601000000 "k" [1]).1 = .hit demoResponse ∧
      (((new 2 600).put 0 "k" [1] demoResponse).get 600900000 "k" [1]).1 = .hit demoResponse := by
  decide +kernel

end Example

end IdempotencyCache

end SpendGuard.Sidecar
