import SpendGuard.Registry.Documents

/-!
Publishing a patched bundle: the archive, its signature and the hash in `runtime.env` are replaced one after
the other, and a recovery pass applies every approved patch again.
-/

namespace SpendGuard.Registry

open Base Ledger

def hashKey : String := "SPENDGUARD_SIDECAR_CONTRACT_BUNDLE_HASH_HEX"

def hashLine (hash : String) : String := hashKey ++ "=" ++ hash

def writesHash (line : String) : Bool := (hashKey ++ "=").toList.isPrefixOf line.toList

def updateRuntimeEnv (env : List String) (hash : String) : List String :=
  let out := env.map fun line => if writesHash line then hashLine hash else line
  if env.any writesHash then out else out ++ [hashLine hash]

def isWhite (c : Char) : Bool :=
  let n := c.toNat
  9 ≤ n && n ≤ 13 || n = 32 || n = 0x85 || n = 0xa0 || n = 0x1680 || 0x2000 ≤ n && n ≤ 0x200a || n = 0x2028 ||
    n = 0x2029 || n = 0x202f || n = 0x205f || n = 0x3000

def trim (t : List Char) : List Char := ((t.dropWhile isWhite).reverse.dropWhile isWhite).reverse

def unquote (v : List Char) : List Char :=
  if 2 ≤ v.length ∧ (v.head? = some '"' ∧ v.getLast? = some '"' ∨ v.head? = some '\'' ∧ v.getLast? = some '\'') then
    v.tail.dropLast
  else v

def hashValue (line : String) : Option (List Char) :=
  let trimmed := trim line.toList
  if trimmed.head? = some '#' ∨ trimmed = [] then none
  else
    match splitOnce '=' ((stripFront "export ".toList trimmed).getD trimmed) with
    | none => none
    | some (k, v) => if trim k = hashKey.toList then some (unquote (trim v)) else none

def parseRuntimeEnvHash (env : List String) : Option String :=
  (env.findSome? hashValue).bind fun v => if v = [] then none else some (String.ofList v)

def IsHex (hash : String) : Prop := hash ≠ "" ∧ ∀ c ∈ hash.toList, c.isDigit = true ∨ 'a' ≤ c ∧ c ≤ 'f'

structure Packing (Archive Text : Type) where
  yaml : Yaml Text
  read : Archive → Except String (Text × String)
  pack : Text × String → Archive
  sha256Hex : Archive → String
  read_pack (b : Text × String) : read (pack b) = .ok b
  hex (a : Archive) : IsHex (sha256Hex a)

structure Disk (Archive : Type) where
  tgz : Archive
  sig : String
  runtimeEnv : List String
  deriving DecidableEq

section Publish

variable {Archive Text : Type} (other : Json → Json → Option Json) (pk : Packing Archive Text)

def applyUnderLock (patch : Json) (d : Disk Archive) : Except String (String × List (Disk Archive)) := do
  let (contractYaml, manifest) ← (pk.read d.tgz).mapError ("read contract bundle: " ++ ·)
  let newYaml ← (applyPatchToYaml other pk.yaml contractYaml patch).mapError
    ("apply RFC-6902 patch to contract YAML: " ++ ·)
  let newTgz := pk.pack (newYaml, manifest)
  let newHash := pk.sha256Hex newTgz
  if newHash = pk.sha256Hex d.tgz then return (newHash, [])
  else
    let archived := { d with tgz := newTgz }
    let signed := { archived with sig := "demo-cosign-placeholder" }
    return (newHash, [archived, signed, { signed with runtimeEnv := updateRuntimeEnv d.runtimeEnv newHash }])

/-- The disk after a run that stops when it has replaced `k` files. -/
def interrupted (d : Disk Archive) (run : Json × ℕ) : Disk Archive :=
  match applyUnderLock other pk run.1 d with
  | .ok (_, states) => (states.take run.2).getLastD d
  | .error _ => d

/-- One pass over the approved patches, in their order; a failure is logged and the next one is tried. -/
def recoverPending : List Json → Disk Archive → List (Except String String) × Disk Archive
  | [], d => ([], d)
  | patch :: rest, d =>
    match applyUnderLock other pk patch d with
    | .ok (hash, states) =>
      let r := recoverPending rest (states.getLastD d)
      (.ok hash :: r.1, r.2)
    | .error e =>
      let r := recoverPending rest d
      (.error e :: r.1, r.2)

def Consistent (d : Disk Archive) : Prop := parseRuntimeEnvHash d.runtimeEnv = some (pk.sha256Hex d.tgz)

def Changes (d : Disk Archive) (patch : Json) : Prop :=
  ∃ hash states, applyUnderLock other pk patch d = .ok (hash, states) ∧ hash ≠ pk.sha256Hex d.tgz

def PlainEnv (env : List String) : Prop := ∀ line ∈ env, (hashValue line).isSome → writesHash line = true

end Publish

section Recorded

variable {hash : String} {env : List String} {t : List Char}

theorem trim_of_not_white (h : ∀ c ∈ t, isWhite c = false) : trim t = t := by
  have hdrop (l : List Char) (hl : ∀ c ∈ l, isWhite c = false) : l.dropWhile isWhite = l := by
    cases l with
    | nil => rfl
    | cons c l =>
      rw [List.dropWhile_cons, hl c (List.mem_cons_self ..)]
      rfl
  rw [trim, hdrop t h, hdrop t.reverse (by simpa using h), List.reverse_reverse]

theorem isWhite_of_bounds {c : Char} (h : 33 ≤ c.toNat ∧ c.toNat ≤ 126) : isWhite c = false := by
  simp only [isWhite, Bool.or_eq_false_iff, Bool.and_eq_false_iff, decide_eq_false_iff_not]
  omega

theorem IsHex.bounds (h : IsHex hash) : ∀ c ∈ hash.toList, 48 ≤ c.toNat ∧ c.toNat ≤ 102 := by
  intro c hc
  obtain hdigit | ⟨hlow, hhigh⟩ := h.2 c hc
  · have hbounds := digit_bounds hdigit
    omega
  · have hlow : 97 ≤ c.toNat := hlow
    have hhigh : c.toNat ≤ 102 := hhigh
    omega

theorem IsHex.not_white (h : IsHex hash) : ∀ c ∈ hash.toList, isWhite c = false := by
  intro c hc
  have hbounds := h.bounds c hc
  exact isWhite_of_bounds (by omega)

theorem unquote_hex (h : IsHex hash) : unquote hash.toList = hash.toList := by
  rw [unquote, if_neg]
  rintro ⟨-, ⟨hhead, -⟩ | ⟨hhead, -⟩⟩
  · exact absurd (h.bounds _ (List.mem_of_head? hhead)) (by decide)
  · exact absurd (h.bounds _ (List.mem_of_head? hhead)) (by decide)

theorem toList_hashLine (hash : String) : (hashLine hash).toList = hashKey.toList ++ '=' :: hash.toList := by
  simp [hashLine]

theorem hashKey_not_white : ∀ c ∈ hashKey.toList, isWhite c = false := by
  have hbounds : ∀ c ∈ hashKey.toList, 33 ≤ c.toNat ∧ c.toNat ≤ 126 := by simp [hashKey]
  exact fun c hc => isWhite_of_bounds (hbounds c hc)

theorem hashValue_hashLine (h : IsHex hash) : hashValue (hashLine hash) = some hash.toList := by
  have hwhite : ∀ c ∈ (hashLine hash).toList, isWhite c = false := by
    rw [toList_hashLine]
    simp only [List.mem_append, List.mem_cons]
    rintro c (hc | rfl | hc)
    · exact hashKey_not_white c hc
    · decide
    · exact h.not_white c hc
  have hexport : stripFront "export ".toList (hashLine hash).toList = none := by
    rw [toList_hashLine]
    rfl
  have hsplit : splitOnce '=' (hashLine hash).toList = some (hashKey.toList, hash.toList) := by
    rw [toList_hashLine]
    exact splitOnce_append (by decide +kernel) _
  have hstart : ¬((hashLine hash).toList.head? = some '#' ∨ (hashLine hash).toList = []) := by
    rw [toList_hashLine]
    rintro (hhead | hnil)
    · have hhead : some 'S' = some '#' := hhead
      exact absurd hhead (by decide)
    · exact absurd hnil (List.cons_ne_nil _ _)
  rw [hashValue]
  simp only [trim_of_not_white hwhite, if_neg hstart, hexport, Option.getD_none, hsplit,
    trim_of_not_white hashKey_not_white, if_true, trim_of_not_white h.not_white, unquote_hex h]

theorem writesHash_hashLine (hash : String) : writesHash (hashLine hash) = true := by
  rw [writesHash, toList_hashLine, List.isPrefixOf_iff_prefix]
  exact ⟨hash.toList, by simp⟩

theorem findSome?_rewritten {v : List Char} (hvalue : hashValue (hashLine hash) = some v) (henv : PlainEnv env)
    (hany : env.any writesHash = true) :
    (env.map fun line => if writesHash line then hashLine hash else line).findSome? hashValue = some v := by
  induction env with
  | nil => cases hany
  | cons line env ih =>
    rw [List.map_cons, List.findSome?_cons]
    split
    · next w hw =>
      split at hw
      · exact hw.symm.trans hvalue
      · next hwrites => exact absurd (henv line (List.mem_cons_self ..) (Option.isSome_of_eq_some hw)) hwrites
    · next hw =>
      split at hw
      · rw [hvalue] at hw
        cases hw
      · next hwrites =>
        rw [List.any_cons, Bool.or_eq_true] at hany
        exact ih (fun l hl => henv l (List.mem_cons_of_mem _ hl)) (hany.resolve_left hwrites)

theorem findSome?_unwritten (henv : PlainEnv env) (hnone : ∀ line ∈ env, writesHash line = false) :
    (env.map fun line => if writesHash line then hashLine hash else line).findSome? hashValue = none := by
  rw [List.findSome?_eq_none_iff]
  intro line hline
  obtain ⟨l, hl, rfl⟩ := List.mem_map.mp hline
  rw [hnone l hl, if_neg Bool.false_ne_true, ← Option.not_isSome_iff_eq_none]
  intro hsome
  exact absurd ((henv l hl hsome).symm.trans (hnone l hl)) (by decide)

theorem parseRuntimeEnvHash_update (hhash : IsHex hash) (henv : PlainEnv env) :
    parseRuntimeEnvHash (updateRuntimeEnv env hash) = some hash := by
  have hvalue := hashValue_hashLine hhash
  have hne : hash.toList ≠ [] := fun hnil => hhash.1 (String.toList_inj.mp hnil)
  have hfound : (updateRuntimeEnv env hash).findSome? hashValue = some hash.toList := by
    rw [updateRuntimeEnv]
    split
    case isTrue hany => exact findSome?_rewritten hvalue henv hany
    case isFalse hany =>
      rw [List.findSome?_append, findSome?_unwritten henv (by simpa using hany)]
      simp [hvalue]
  rw [parseRuntimeEnvHash, hfound, Option.bind_some, if_neg hne, String.ofList_toList]

theorem plainEnv_update (henv : PlainEnv env) : PlainEnv (updateRuntimeEnv env hash) := by
  have hmem {line : String} (h : line ∈ updateRuntimeEnv env hash) : line = hashLine hash ∨ line ∈ env := by
    rw [updateRuntimeEnv] at h
    split at h
    · obtain ⟨l, hl, rfl⟩ := List.mem_map.mp h
      split
      · exact .inl rfl
      · exact .inr hl
    · rw [List.mem_append, List.mem_singleton] at h
      obtain h | h := h
      · obtain ⟨l, hl, rfl⟩ := List.mem_map.mp h
        split
        · exact .inl rfl
        · exact .inr hl
      · exact .inl h
  intro line hline hsome
  obtain rfl | hline := hmem hline
  · exact writesHash_hashLine hash
  · exact henv line hline hsome

end Recorded

section Recovery

variable {Archive Text : Type} {other : Json → Json → Option Json} {pk : Packing Archive Text} {d : Disk Archive}
  {patch : Json} {patches : List Json} {hash : String} {states : List (Disk Archive)}

def Disk.published (d : Disk Archive) (tgz : Archive) (hash : String) : Disk Archive :=
  ⟨tgz, "demo-cosign-placeholder", updateRuntimeEnv d.runtimeEnv hash⟩

theorem applyUnderLock_ok (h : applyUnderLock other pk patch d = .ok (hash, states)) :
    hash = pk.sha256Hex d.tgz ∧ states = [] ∨
    hash ≠ pk.sha256Hex d.tgz ∧ ∃ tgz, hash = pk.sha256Hex tgz ∧
      states = [{ d with tgz := tgz }, { d with tgz := tgz, sig := "demo-cosign-placeholder" },
        d.published tgz hash] := by
  obtain ⟨⟨contractYaml, manifest⟩, -, h⟩ := bind_eq_ok.mp h
  obtain ⟨newYaml, -, h⟩ := bind_eq_ok.mp h
  simp only at h
  split at h
  case isTrue hsame =>
    cases h
    exact .inl ⟨hsame, rfl⟩
  case isFalse hnew =>
    cases h
    exact .inr ⟨hnew, _, rfl, rfl⟩

theorem changes_iff (h : applyUnderLock other pk patch d = .ok (hash, states)) :
    Changes other pk d patch ↔ hash ≠ pk.sha256Hex d.tgz := by
  constructor
  · rintro ⟨hash', states', h', hne⟩
    cases h.symm.trans h'
    exact hne
  · exact fun hne => ⟨hash, states, h, hne⟩

theorem consistent_published (henv : PlainEnv d.runtimeEnv) (tgz : Archive) :
    Consistent pk (d.published tgz (pk.sha256Hex tgz)) := parseRuntimeEnvHash_update (pk.hex tgz) henv

theorem recoverPending_cons_ok (h : applyUnderLock other pk patch d = .ok (hash, states)) :
    recoverPending other pk (patch :: patches) d =
      (.ok hash :: (recoverPending other pk patches (states.getLastD d)).1,
        (recoverPending other pk patches (states.getLastD d)).2) := by
  rw [recoverPending, h]

/-- A pass without failures leaves the hash of the archive recorded exactly if it was recorded before, or
one of the patches changes the archive that the pass finds. -/
theorem consistent_recoverPending_iff (henv : PlainEnv d.runtimeEnv)
    (hok : ∀ r ∈ (recoverPending other pk patches d).1, r.isOk = true) :
    Consistent pk (recoverPending other pk patches d).2 ↔ Consistent pk d ∨ ∃ p ∈ patches, Changes other pk d p := by
  induction patches generalizing d with
  | nil => simp [recoverPending]
  | cons patch patches ih =>
    cases h : applyUnderLock other pk patch d with
    | error e =>
      rw [recoverPending, h] at hok
      exact absurd (hok _ (List.mem_cons_self ..)) Bool.false_ne_true
    | ok r =>
      obtain ⟨hash, states⟩ := r
      rw [recoverPending_cons_ok h] at hok ⊢
      simp only [List.forall_mem_cons] at hok
      rw [List.exists_mem_cons_iff, changes_iff h]
      obtain ⟨hsame, rfl⟩ | ⟨hnew, tgz, rfl, rfl⟩ := applyUnderLock_ok h
      · rw [List.getLastD_nil] at hok ⊢
        rw [ih henv hok.2, hsame]
        simp
      · have hlast : ([{ d with tgz := tgz }, { d with tgz := tgz, sig := "demo-cosign-placeholder" },
            d.published tgz (pk.sha256Hex tgz)] : List (Disk Archive)).getLastD d =
            d.published tgz (pk.sha256Hex tgz) := rfl
        rw [hlast] at hok ⊢
        have hdone := (ih (plainEnv_update henv) hok.2).mpr (.inl (consistent_published henv tgz))
        exact iff_of_true hdone (.inr (.inl hnew))

theorem plainEnv_interrupted (henv : PlainEnv d.runtimeEnv) (run : Json × ℕ) :
    PlainEnv (interrupted other pk d run).runtimeEnv := by
  rw [interrupted]
  split
  case h_2 => exact henv
  case h_1 hash states h =>
    obtain ⟨-, rfl⟩ | ⟨-, tgz, rfl, rfl⟩ := applyUnderLock_ok h
    · simpa using henv
    · match run.2 with
      | 0 => exact henv
      | 1 => exact henv
      | 2 => exact henv
      | k + 3 =>
        rw [List.take_of_length_le (by simp)]
        exact plainEnv_update henv

/-- Whatever runs were cut short before, the pass completes the publish under that condition only. -/
theorem recovery_completes_publish_iff (henv : PlainEnv d.runtimeEnv) (runs : List (Json × ℕ)) (patches : List Json)
    (hok : ∀ r ∈ (recoverPending other pk patches (runs.foldl (interrupted other pk) d)).1, r.isOk = true) :
    Consistent pk (recoverPending other pk patches (runs.foldl (interrupted other pk) d)).2 ↔
      Consistent pk (runs.foldl (interrupted other pk) d) ∨
        ∃ p ∈ patches, Changes other pk (runs.foldl (interrupted other pk) d) p := by
  refine consistent_recoverPending_iff ?_ hok
  clear hok
  induction runs generalizing d with
  | nil => exact henv
  | cons run runs ih => exact ih (plainEnv_interrupted henv run)

theorem applyUnderLock_same {y y' : Text} {manifest : String} (hread : pk.read d.tgz = .ok (y, manifest))
    (hpatch : applyPatchToYaml other pk.yaml y patch = .ok y')
    (hsame : pk.sha256Hex (pk.pack (y', manifest)) = pk.sha256Hex d.tgz) :
    applyUnderLock other pk patch d = .ok (pk.sha256Hex d.tgz, []) := by
  rw [applyUnderLock, hread, Except.mapError, ok_bind]
  simp only [hpatch, Except.mapError, ok_bind, hsame, if_true]
  rfl

theorem applyUnderLock_new {y y' : Text} {manifest : String} (hread : pk.read d.tgz = .ok (y, manifest))
    (hpatch : applyPatchToYaml other pk.yaml y patch = .ok y')
    (hnew : pk.sha256Hex (pk.pack (y', manifest)) ≠ pk.sha256Hex d.tgz) :
    applyUnderLock other pk patch d = .ok (pk.sha256Hex (pk.pack (y', manifest)),
      [{ d with tgz := pk.pack (y', manifest) },
        { d with tgz := pk.pack (y', manifest), sig := "demo-cosign-placeholder" },
        d.published (pk.pack (y', manifest)) (pk.sha256Hex (pk.pack (y', manifest)))]) := by
  rw [applyUnderLock, hread, Except.mapError, ok_bind]
  simp only [hpatch, Except.mapError, ok_bind, hnew, if_false]
  rfl

end Recovery

section Example

def demoPacking : Packing (Json × String) Json where
  yaml := plainYaml
  read := .ok
  pack := id
  sha256Hex b := if b.1 = demoContract 300 then "a0" else if b.1 = demoContract 45 then "b1" else "c2"
  read_pack _ := rfl
  hex b := by
    have hhex : ∀ s ∈ ["a0", "b1", "c2"], s ≠ "" ∧ ∀ c ∈ s.toList, c.isDigit = true ∨ 'a' ≤ c ∧ c ≤ 'f' := by
      simp
    split
    · exact hhex _ (by simp)
    · split
      · exact hhex _ (by simp)
      · exact hhex _ (by simp)

theorem demo_hash : demoPacking.sha256Hex (demoContract 300, "") = "a0" ∧
    demoPacking.sha256Hex (demoContract 45, "") = "b1" ∧ demoPacking.sha256Hex (demoContract 60, "") = "c2" := by
  decide +kernel

theorem parseRuntimeEnvHash_hashLine {hash : String} (h : IsHex hash) :
    parseRuntimeEnvHash [hashLine hash] = some hash := by
  have hne : hash.toList ≠ [] := fun hnil => h.1 (String.toList_inj.mp hnil)
  rw [parseRuntimeEnvHash, List.findSome?_cons, hashValue_hashLine h, Option.bind_some, if_neg hne,
    String.ofList_toList]

theorem hash_ne : demoPacking.sha256Hex (demoContract 45, "") ≠ demoPacking.sha256Hex (demoContract 300, "") ∧
    demoPacking.sha256Hex (demoContract 60, "") ≠ demoPacking.sha256Hex (demoContract 45, "") := by
  rw [demo_hash.1, demo_hash.2.1, demo_hash.2.2]
  decide

def TtlPatched (old new : ℤ) : Prop :=
  applyPatchToYaml noOther plainYaml (demoContract old) (ttlPatch secondId new) = .ok (demoContract new)

instance (old new : ℤ) : Decidable (TtlPatched old new) := inferInstanceAs (Decidable (_ = _))

theorem ttl_patched : TtlPatched 300 45 ∧ TtlPatched 45 45 ∧ TtlPatched 45 60 ∧ TtlPatched 60 45 := by
  decide +kernel

section Demo

variable {old new : ℤ} {sig : String} {env : List String}

def demoState (ttl : ℤ) (sig : String) (env : List String) : Disk (Json × String) := ⟨(demoContract ttl, ""), sig, env⟩

theorem demo_new (hpatch : TtlPatched old new)
    (hnew : demoPacking.sha256Hex (demoContract new, "") ≠ demoPacking.sha256Hex (demoContract old, "")) :
    applyUnderLock noOther demoPacking (ttlPatch secondId new) (demoState old sig env) =
      .ok (demoPacking.sha256Hex (demoContract new, ""), [demoState new sig env,
        demoState new "demo-cosign-placeholder" env, demoState new "demo-cosign-placeholder"
          (updateRuntimeEnv env (demoPacking.sha256Hex (demoContract new, "")))]) :=
  applyUnderLock_new rfl hpatch hnew

theorem demo_same (hpatch : TtlPatched old old) :
    applyUnderLock noOther demoPacking (ttlPatch secondId old) (demoState old sig env) =
      .ok (demoPacking.sha256Hex (demoContract old, ""), []) :=
  applyUnderLock_same rfl hpatch rfl

theorem demo_changes (hpatch : TtlPatched old new)
    (hnew : demoPacking.sha256Hex (demoContract new, "") ≠ demoPacking.sha256Hex (demoContract old, "")) :
    Changes noOther demoPacking (demoState old sig env) (ttlPatch secondId new) :=
  ⟨_, _, demo_new hpatch hnew, hnew⟩

theorem demo_recover (hpatch : TtlPatched old new)
    (hnew : demoPacking.sha256Hex (demoContract new, "") ≠ demoPacking.sha256Hex (demoContract old, ""))
    (hback : TtlPatched new old) :
    ∀ r ∈ (recoverPending noOther demoPacking [ttlPatch secondId new, ttlPatch secondId old]
      (demoState old sig env)).1, r.isOk = true := by
  rw [recoverPending_cons_ok (demo_new hpatch hnew), List.forall_mem_cons]
  refine ⟨rfl, ?_⟩
  rw [List.getLastD_cons, List.getLastD_cons, List.getLastD_cons, List.getLastD_nil,
    recoverPending_cons_ok (demo_new hback hnew.symm), List.forall_mem_cons]
  exact ⟨rfl, by simp [recoverPending]⟩

end Demo

theorem demo_interrupted :
    interrupted noOther demoPacking (demoState 300 "" [hashLine "a0"]) (ttlPatch secondId 45, 1) =
      demoState 45 "" [hashLine "a0"] := by
  rw [interrupted, demo_new ttl_patched.1 hash_ne.1]
  rfl

theorem demo_recorded : parseRuntimeEnvHash [hashLine "a0"] = some "a0" :=
  parseRuntimeEnvHash_hashLine ⟨by decide, by simp⟩

/-- For the pass there is nothing left to do. -/
theorem recovery_leaves_old_hash :
    Consistent demoPacking (demoState 300 "" [hashLine "a0"]) ∧
    recoverPending noOther demoPacking [ttlPatch secondId 45]
      (interrupted noOther demoPacking (demoState 300 "" [hashLine "a0"]) (ttlPatch secondId 45, 1)) =
        ([.ok "b1"], demoState 45 "" [hashLine "a0"]) ∧
    ¬Consistent demoPacking (demoState 45 "" [hashLine "a0"]) := by
  refine ⟨?_, ?_, fun hconsistent => ?_⟩
  · exact demo_recorded.trans (congrArg some demo_hash.1.symm)
  · rw [demo_interrupted, recoverPending_cons_ok (demo_same ttl_patched.2.1), demo_hash.2.1]
    rfl
  · have hhash := demo_recorded.symm.trans (hconsistent.trans (congrArg some demo_hash.2.1))
    exact absurd hhash (by decide)

theorem plainEnv_hashLine (hash : String) : PlainEnv [hashLine hash] := by
  intro line hline _
  rw [List.mem_singleton.mp hline]
  exact writesHash_hashLine hash

/-- With an earlier patch of the same budget, the pass writes all files again. -/
theorem recovery_publishes :
    Consistent demoPacking (recoverPending noOther demoPacking [ttlPatch secondId 60, ttlPatch secondId 45]
      ([(ttlPatch secondId 45, 1)].foldl (interrupted noOther demoPacking) (demoState 300 "" [hashLine "a0"]))).2 := by
  have hstart : [(ttlPatch secondId 45, 1)].foldl (interrupted noOther demoPacking)
      (demoState 300 "" [hashLine "a0"]) = demoState 45 "" [hashLine "a0"] := by
    rw [List.foldl_cons, List.foldl_nil, demo_interrupted]
  have hiff := @recovery_completes_publish_iff _ _ noOther demoPacking (demoState 300 "" [hashLine "a0"])
    (plainEnv_hashLine "a0") [(ttlPatch secondId 45, 1)] [ttlPatch secondId 60, ttlPatch secondId 45]
  rw [hstart] at hiff ⊢
  refine (hiff (demo_recover ttl_patched.2.2.1 hash_ne.2 ttl_patched.2.2.2)).mpr (.inr ⟨_, List.mem_cons_self .., ?_⟩)
  exact demo_changes ttl_patched.2.2.1 hash_ne.2

end Example

end SpendGuard.Registry
