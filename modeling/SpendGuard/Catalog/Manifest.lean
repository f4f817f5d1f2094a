import SpendGuard.Base.Base64
import SpendGuard.Base.Check
import SpendGuard.Base.Sorted
import SpendGuard.Base.Text
import SpendGuard.Sidecar.Companion

/-!
The endpoint catalog: the publisher stores a catalog and a signed manifest that points to it, and a sidecar
fetches both and checks them.
-/

namespace SpendGuard.Catalog

open Base Sidecar

/-- Nanoseconds from `10 ^ 9` on are those of a leap second. -/
structure Instant where
  sec : ℤ
  frac : ℕ
  bound : frac < 2 * 10 ^ 9
  deriving DecidableEq

namespace Instant

def sub (t : Instant) : ℕ := t.frac % 10 ^ 9

def whole (t : Instant) : Instant := ⟨t.sec, t.frac - t.sub, Nat.lt_of_le_of_lt (Nat.sub_le ..) t.bound⟩

def after (t u : Instant) : Prop := u.sec < t.sec ∨ u.sec = t.sec ∧ u.frac < t.frac

instance (t u : Instant) : Decidable (t.after u) := inferInstanceAs (Decidable (_ ∨ _))

def ofClock (sec : ℤ) (nanos : Fin (10 ^ 9)) : Instant := ⟨sec, nanos, by have := nanos.isLt; omega⟩

theorem sub_ofClock (sec : ℤ) (nanos : Fin (10 ^ 9)) : (ofClock sec nanos).sub = nanos := Nat.mod_eq_of_lt nanos.isLt

theorem whole_eq_iff {t : Instant} : t.whole = t ↔ t.sub = 0 := by
  have hle : t.sub ≤ t.frac := Nat.mod_le ..
  rw [Instant.mk.injEq]
  show t.sec = t.sec ∧ t.frac - t.sub = t.frac ↔ t.sub = 0
  omega

end Instant

/-- How times are written: to the digits that they have, for a version id, and in messages. -/
structure Rfc3339 where
  auto : Instant → String
  stamp : Instant → String
  display : Instant → String
  parse : String → Option Instant
  parse_auto (t : Instant) : parse (auto t) = some t

namespace Rfc3339

def secs (rf : Rfc3339) (t : Instant) : String := rf.auto t.whole

theorem auto_inj (rf : Rfc3339) {t u : Instant} (h : rf.auto t = rf.auto u) : t = u := by
  have hparse := congrArg rf.parse h
  rw [rf.parse_auto, rf.parse_auto] at hparse
  exact Option.some.inj hparse

end Rfc3339

structure Serde (Text : Type) where
  parse : Text → Option Json
  print : Json → Text
  parse_print (v : Json) : parse (print v) = some v

structure KeyPair (Text : Type) where
  sign : Text → List UInt8
  verify : Text → List UInt8 → Bool
  length_sign (m : Text) : (sign m).length = 64

/-- Only what was signed is verified, and each signature for its own text alone. -/
structure KeyPair.Ideal {Text : Type} (kp : KeyPair Text) (signed : Text → Prop) : Prop where
  correct : ∀ m, signed m → kp.verify m (kp.sign m) = true
  binding : ∀ m m', signed m → kp.verify m' (kp.sign m) = true → m' = m
  made : ∀ m signature, kp.verify m signature = true → signed m

section Texts

variable {Text : Type} (sd : Serde Text)

def canonicalize (v : Json) : Text := sd.print v.sortKeys

theorem canonicalize_inj {v w : Json} (h : canonicalize sd v = canonicalize sd w) : v.sortKeys = w.sortKeys := by
  have hparse := congrArg sd.parse h
  rw [canonicalize, canonicalize, sd.parse_print, sd.parse_print] at hparse
  exact Option.some.inj hparse

end Texts

structure TenantOverride where
  tenantId : String
  currentCatalogVersionId : String
  currentCatalogUrl : String
  currentCatalogHash : String

def TenantOverride.value (o : TenantOverride) : Json :=
  .obj [("tenant_id", .str o.tenantId), ("current_catalog_version_id", .str o.currentCatalogVersionId),
    ("current_catalog_url", .str o.currentCatalogUrl), ("current_catalog_hash", .str o.currentCatalogHash)]

structure ManifestSigningBody where
  manifestVersion : String
  currentCatalogVersionId : String
  currentCatalogUrl : String
  currentCatalogHash : String
  issuedAt : Instant
  validUntil : Instant
  signingKeyId : String
  tenantOverrides : List TenantOverride

def overridesField (overrides : List Json) : List (String × Json) :=
  if overrides = [] then [] else [("tenant_overrides", .arr overrides)]

namespace ManifestSigningBody

variable (rf : Rfc3339) (b : ManifestSigningBody)

def head : List (String × Json) :=
  [("manifest_version", .str b.manifestVersion), ("current_catalog_version_id", .str b.currentCatalogVersionId),
    ("current_catalog_url", .str b.currentCatalogUrl), ("current_catalog_hash", .str b.currentCatalogHash),
    ("issued_at", .str (rf.auto b.issuedAt)), ("valid_until", .str (rf.auto b.validUntil)),
    ("signing_key_id", .str b.signingKeyId)]

def value : Json := .obj (b.head rf ++ overridesField (b.tenantOverrides.map TenantOverride.value))

def manifest (signature : String) : Json :=
  .obj (b.head rf ++ ("signature", .str signature) :: overridesField (b.tenantOverrides.map TenantOverride.value))

end ManifestSigningBody

def signManifestBody {Text : Type} (sd : Serde Text) (rf : Rfc3339) (kp : KeyPair Text) (b : ManifestSigningBody) :
    String :=
  String.ofList (Base64.encode (kp.sign (canonicalize sd (b.value rf))))

structure PublisherConfig where
  manifestValiditySeconds : ℕ
  signingKeyId : String
  publicBaseUrl : String

def splitScheme (name raw : String) (requireHttps : Bool) : Except String (String × List Char) :=
  match stripFront "https://".toList raw.toList, stripFront "http://".toList raw.toList with
  | some rest, _ => .ok ("https", rest)
  | none, some rest =>
    if requireHttps then .error (name ++ " must be https:// (require_https=true)") else .ok ("http", rest)
  | none, none => .error (name ++ " must start with https:// or http://; got '" ++ raw ++ "'")

def validateBaseUrl (s envVarLabel : String) (requireHttps : Bool) : Except String String := do
  let name := "SPENDGUARD_ENDPOINT_CATALOG_" ++ envVarLabel
  let raw := trim s
  let quoted := name ++ " ('" ++ raw ++ "')"
  check (raw ≠ "") (name ++ " must be a non-empty URL")
  check (raw.toList.any isWhitespace = false) (quoted ++ " must not contain whitespace")
  let (scheme, rest) ← splitScheme name raw requireHttps
  let authority := rest.rdropWhile (· = '/')
  check (authority ≠ []) (quoted ++ " must include a host")
  check ('/' ∉ authority ∧ '?' ∉ authority ∧ '#' ∉ authority)
    (quoted ++ " is a base URL — it MUST NOT include path / query / fragment (publisher appends path itself)")
  check (authority.head? ≠ some '@' ∧ authority.getLast? ≠ some '@')
    (quoted ++ " has empty userinfo or host around '@'")
  check (authority.head? ≠ some ':' ∧ authority.getLast? ≠ some ':') (quoted ++ " has empty host or port around ':'")
  let hostPortion := authority.rtakeWhile (· ≠ '@')
  check (hostPortion.takeWhile (· ≠ ':') ≠ []) (quoted ++ " resolves to empty host")
  return scheme ++ "://" ++ String.ofList authority

/-- What the two writes to the store leave, and the body that was signed. -/
structure Publication (Text : Type) where
  catalogKey : String
  catalog : Text
  body : ManifestSigningBody
  manifest : Text

/-- `u64 as i64`. -/
def asI64 (n : ℕ) : ℤ := if n < 2 ^ 63 then n else n - 2 ^ 64

section Publish

variable {Text : Type} (sd : Serde Text) (rf : Rfc3339) (kp : KeyPair Text) (sha256Hex : Text → String)
  (schemaErrors : Json → List String)

def publish (cfg : PublisherConfig) (catalog : Json) (sec : ℤ) (nanos : Fin (10 ^ 9)) (v7 : String)
    (overrides : List TenantOverride) : Except String (Publication Text) := do
  let now := Instant.ofClock sec nanos
  let versionId := "ctlg-" ++ rf.stamp now ++ "-" ++ v7
  let catalog ← found (catalog.set? "catalog_version_id" (.str versionId)) "catalog body must be a JSON object"
  check (schemaErrors catalog = [])
    ("catalog body fails catalog.schema.json validation:\n  - " ++ "\n  - ".intercalate (schemaErrors catalog))
  let validity := asI64 cfg.manifestValiditySeconds
  check (-9223372036854775 ≤ validity ∧ validity ≤ 9223372036854775) "Duration::seconds out of bounds"
  let publicBase ← validateBaseUrl cfg.publicBaseUrl "PUBLIC_BASE_URL" true
  let body : ManifestSigningBody :=
    { manifestVersion := "1.0.0"
      currentCatalogVersionId := versionId
      currentCatalogUrl := publicBase ++ "/v1/catalog/" ++ versionId
      currentCatalogHash := sha256Hex (canonicalize sd catalog)
      issuedAt := now
      validUntil := .ofClock (sec + validity) nanos
      signingKeyId := cfg.signingKeyId
      tenantOverrides := overrides }
  return { catalogKey := "catalogs/" ++ versionId ++ ".json"
           catalog := canonicalize sd catalog
           body
           manifest := sd.print (body.manifest rf (signManifestBody sd rf kp body)) }

def Published (p : Publication Text) : Prop :=
  ∃ cfg catalog sec nanos v7 overrides,
    publish sd rf kp sha256Hex schemaErrors cfg catalog sec nanos v7 overrides = .ok p

end Publish

inductive RefreshError
  | internal (message : String)
  | manifestSignatureInvalid (message : String)
  | manifestStale (message : String)
  deriving DecidableEq

structure Manifest where
  manifestVersion : String
  currentCatalogVersionId : String
  currentCatalogUrl : String
  currentCatalogHash : String
  issuedAt : Instant
  validUntil : Instant
  signingKeyId : String
  signature : String
  tenantOverrides : List Json

def single (fields : List (String × Json)) (key : String) : Except String (Option Json) :=
  match fields.filter (·.1 = key) with
  | [] => .ok none
  | [(_, v)] => .ok (some v)
  | _ => .error ("duplicate field `" ++ key ++ "`")

def readText (fields : List (String × Json)) (key : String) : Except String String := do
  let v ← found (← single fields key) ("missing field `" ++ key ++ "`")
  found v.asStr? "invalid type: expected a string"

def readOverrides (fields : List (String × Json)) : Except String (List Json) := do
  found (((← single fields "tenant_overrides").getD (.arr [])).asArr?) "invalid type: expected a sequence"

def manifestKeys : List String :=
  ["manifest_version", "current_catalog_version_id", "current_catalog_url", "current_catalog_hash", "issued_at",
    "valid_until", "signing_key_id", "signature", "tenant_overrides"]

def manifestFields : Json → Except String (List (String × Json))
  | .obj fields => .ok fields
  | .arr items => do
    check (items.length ≤ manifestKeys.length) "trailing characters"
    return manifestKeys.zip items
  | _ => .error "invalid type: expected struct Manifest"

structure CachedCatalog where
  versionId : String
  fetchedAt : Instant
  validUntil : Instant
  body : Json

section Refresh

variable {Text : Type} (sd : Serde Text) (rf : Rfc3339) (kp : KeyPair Text) (sha256Hex : Text → String)

def readTime (fields : List (String × Json)) (key : String) : Except String Instant := do
  found (rf.parse (← readText fields key)) "input contains invalid characters"

def readManifest (text : Text) : Except String Manifest := do
  let fields ← manifestFields (← found (sd.parse text) "expected value")
  return { manifestVersion := ← readText fields "manifest_version"
           currentCatalogVersionId := ← readText fields "current_catalog_version_id"
           currentCatalogUrl := ← readText fields "current_catalog_url"
           currentCatalogHash := ← readText fields "current_catalog_hash"
           issuedAt := ← readTime rf fields "issued_at"
           validUntil := ← readTime rf fields "valid_until"
           signingKeyId := ← readText fields "signing_key_id"
           signature := ← readText fields "signature"
           tenantOverrides := ← readOverrides fields }

def Manifest.head (m : Manifest) : List (String × Json) :=
  [("manifest_version", .str m.manifestVersion), ("current_catalog_version_id", .str m.currentCatalogVersionId),
    ("current_catalog_url", .str m.currentCatalogUrl), ("current_catalog_hash", .str m.currentCatalogHash),
    ("issued_at", .str (rf.secs m.issuedAt)), ("valid_until", .str (rf.secs m.validUntil)),
    ("signing_key_id", .str m.signingKeyId)]

def Manifest.value (m : Manifest) : Json := .obj (m.head rf ++ overridesField m.tenantOverrides)

def verifyManifestSignature (m : Manifest) : Except RefreshError Unit := do
  let sig ← found (Base64.decode m.signature.toList) (.manifestSignatureInvalid "base64 sig decode")
  check (sig.length = 64) (.manifestSignatureInvalid "signature length")
  check (kp.verify (canonicalize sd (m.value rf)) sig = true) (.manifestSignatureInvalid "verify: signature error")

def checkBodyHash (m : Manifest) (body : Text) : Except RefreshError Unit :=
  check (sha256Hex body = m.currentCatalogHash) (.manifestSignatureInvalid
    ("catalog body hash mismatch: expected=" ++ m.currentCatalogHash ++ ", actual=" ++ sha256Hex body))

/-- `fetch` answers for a URL; the clock is read before the catalog is fetched and after. -/
def refreshOnce (fetch : String → Option Text) (manifestUrl : String) (now fetchedAt : Instant) :
    Except RefreshError CachedCatalog := do
  let text ← found (fetch manifestUrl) (.internal ("fetch manifest " ++ manifestUrl))
  let m ← (readManifest sd rf text).mapError fun e => .internal ("parse manifest json: " ++ e)
  check (trim m.signingKeyId ≠ "") (.manifestSignatureInvalid "missing signing_key_id")
  verifyManifestSignature sd rf kp m
  check (¬now.after m.validUntil)
    (.manifestStale ("manifest valid_until " ++ rf.display m.validUntil ++ " already past"))
  let body ← found (fetch m.currentCatalogUrl) (.internal "fetch catalog body")
  checkBodyHash sha256Hex m body
  let value ← found (sd.parse body) (.internal "parse catalog body")
  return { versionId := m.currentCatalogVersionId, fetchedAt, validUntil := m.validUntil, body := value }

end Refresh

section Covered

variable {Text : Type} {sd : Serde Text} {rf : Rfc3339} {kp : KeyPair Text} {sha256Hex : Text → String}
  {schemaErrors : Json → List String} {m : Manifest} {b : ManifestSigningBody} {p : Publication Text}

structure Covers (m : Manifest) (b : ManifestSigningBody) : Prop where
  manifestVersion : m.manifestVersion = b.manifestVersion
  currentCatalogVersionId : m.currentCatalogVersionId = b.currentCatalogVersionId
  currentCatalogUrl : m.currentCatalogUrl = b.currentCatalogUrl
  currentCatalogHash : m.currentCatalogHash = b.currentCatalogHash
  issuedAt : m.issuedAt.whole = b.issuedAt
  validUntil : m.validUntil.whole = b.validUntil
  signingKeyId : m.signingKeyId = b.signingKeyId
  tenantOverrides : m.tenantOverrides.map Json.sortKeys = b.tenantOverrides.map (Json.sortKeys ∘ TenantOverride.value)

theorem nodup_keys {fields : List (String × Json)} (h : fields.map Prod.fst = manifestKeys.take 7)
    (overrides : List Json) : ((fields ++ overridesField overrides).map Prod.fst).Nodup := by
  rw [List.map_append, h, overridesField]
  split
  · decide
  · show (manifestKeys.take 7 ++ ["tenant_overrides"]).Nodup
    decide

theorem str_of_sortKeys {s t : String} (h : (some (Json.str s)).map Json.sortKeys = (some (Json.str t)).map Json.sortKeys) :
    s = t := Json.str.inj (Option.some.inj h)

theorem overrides_of_sortKeys {l k : List Json}
    (h : ((overridesField l).lookup "tenant_overrides").map Json.sortKeys =
      ((overridesField k).lookup "tenant_overrides").map Json.sortKeys) : l.map Json.sortKeys = k.map Json.sortKeys := by
  rw [overridesField, overridesField] at h
  split at h
  case isTrue hl =>
    split at h
    case isTrue hk => rw [hl, hk]
    case isFalse => cases h
  case isFalse =>
    split at h
    case isTrue => cases h
    case isFalse =>
      have hitems : Json.arr (Json.sortItems l) = .arr (Json.sortItems k) := Option.some.inj h
      rw [← Json.sortItems_eq_map, ← Json.sortItems_eq_map, Json.arr.inj hitems]

theorem covers_of_canonicalize (h : canonicalize sd (m.value rf) = canonicalize sd (b.value rf)) : Covers m b := by
  have hsorted := canonicalize_inj sd h
  have hkey (key : String) : ((m.head rf ++ overridesField m.tenantOverrides).lookup key).map Json.sortKeys =
      ((b.head rf ++ overridesField (b.tenantOverrides.map TenantOverride.value)).lookup key).map Json.sortKeys := by
    rw [← Json.get?_sortKeys (nodup_keys rfl _), ← Json.get?_sortKeys (nodup_keys rfl _)]
    exact congrArg (·.get? key) hsorted
  exact {
    manifestVersion := str_of_sortKeys (hkey "manifest_version")
    currentCatalogVersionId := str_of_sortKeys (hkey "current_catalog_version_id")
    currentCatalogUrl := str_of_sortKeys (hkey "current_catalog_url")
    currentCatalogHash := str_of_sortKeys (hkey "current_catalog_hash")
    issuedAt := rf.auto_inj (str_of_sortKeys (hkey "issued_at"))
    validUntil := rf.auto_inj (str_of_sortKeys (hkey "valid_until"))
    signingKeyId := str_of_sortKeys (hkey "signing_key_id")
    tenantOverrides := (overrides_of_sortKeys (hkey "tenant_overrides")).trans (List.map_map ..) }

def ManifestSigningBody.received (b : ManifestSigningBody) (signature : String) : Manifest :=
  { b with signature, tenantOverrides := b.tenantOverrides.map TenantOverride.value }

theorem readManifest_print (signature : String) :
    readManifest sd rf (sd.print (b.manifest rf signature)) = .ok (b.received signature) := by
  rw [readManifest, sd.parse_print, found_some, ok_bind, ManifestSigningBody.manifest, manifestFields, ok_bind,
    overridesField]
  split
  case isTrue hnone =>
    simp [readText, readTime, readOverrides, single, ManifestSigningBody.head, ManifestSigningBody.received,
      Json.asStr?, Json.asArr?, rf.parse_auto, hnone]
  case isFalse =>
    simp [readText, readTime, readOverrides, single, ManifestSigningBody.head, ManifestSigningBody.received,
      Json.asStr?, Json.asArr?, rf.parse_auto]

theorem verifyManifestSignature_ok {u : Unit} :
    verifyManifestSignature sd rf kp m = .ok u ↔ ∃ sig, Base64.decode m.signature.toList = some sig ∧
      sig.length = 64 ∧ kp.verify (canonicalize sd (m.value rf)) sig = true := by
  rw [verifyManifestSignature, found_bind_eq_ok]
  simp only [check_bind_eq_ok, check_eq_ok]

structure Publication.Made (sd : Serde Text) (rf : Rfc3339) (kp : KeyPair Text) (sha256Hex : Text → String)
    (p : Publication Text) : Prop where
  manifest : p.manifest = sd.print (p.body.manifest rf (signManifestBody sd rf kp p.body))
  hash : p.body.currentCatalogHash = sha256Hex p.catalog
  sub : p.body.validUntil.sub = p.body.issuedAt.sub

theorem Published.made (h : Published sd rf kp sha256Hex schemaErrors p) : p.Made sd rf kp sha256Hex := by
  obtain ⟨cfg, catalog, sec, nanos, v7, overrides, h⟩ := h
  obtain ⟨catalog', -, h⟩ := found_bind_eq_ok.mp h
  obtain ⟨-, h⟩ := check_bind_eq_ok.mp h
  obtain ⟨-, h⟩ := check_bind_eq_ok.mp h
  obtain ⟨publicBase, -, h⟩ := bind_eq_ok.mp h
  rw [← Except.ok.inj h]
  exact ⟨rfl, rfl, by rw [Instant.sub_ofClock, Instant.sub_ofClock]⟩

variable (sd rf) in
theorem canonicalize_received_iff (signature : String) :
    canonicalize sd ((b.received signature).value rf) = canonicalize sd (b.value rf) ↔
      b.issuedAt.sub = 0 ∧ b.validUntil.sub = 0 := by
  constructor
  · intro h
    have hcovers := covers_of_canonicalize h
    exact ⟨Instant.whole_eq_iff.mp hcovers.issuedAt, Instant.whole_eq_iff.mp hcovers.validUntil⟩
  · intro h
    have hvalue : (b.received signature).value rf = b.value rf := by
      simp only [Manifest.value, Manifest.head, ManifestSigningBody.received, ManifestSigningBody.value,
        ManifestSigningBody.head, Rfc3339.secs, Instant.whole_eq_iff.mpr h.1, Instant.whole_eq_iff.mpr h.2]
    rw [hvalue]

theorem decode_signManifestBody :
    Base64.decode (signManifestBody sd rf kp b).toList = some (kp.sign (canonicalize sd (b.value rf))) := by
  rw [signManifestBody, String.toList_ofList, Base64.decode_encode]

theorem verify_received_iff {signed : Text → Prop} {u : Unit} (hkey : kp.Ideal signed)
    (hsigned : signed (canonicalize sd (b.value rf))) :
    verifyManifestSignature sd rf kp (b.received (signManifestBody sd rf kp b)) = .ok u ↔
      b.issuedAt.sub = 0 ∧ b.validUntil.sub = 0 := by
  rw [← canonicalize_received_iff sd rf (signManifestBody sd rf kp b), verifyManifestSignature_ok]
  constructor
  · rintro ⟨sig, hsig, -, hverify⟩
    cases hsig.symm.trans decode_signManifestBody
    exact hkey.binding _ _ hsigned hverify
  · intro hsame
    refine ⟨_, decode_signManifestBody, kp.length_sign _, ?_⟩
    rw [hsame]
    exact hkey.correct _ hsigned

theorem verify_shifted {signed : Text → Prop} (hkey : kp.Ideal signed) (hsigned : signed (canonicalize sd (b.value rf)))
    (hissued : b.issuedAt.sub = 0) {t : Instant} (ht : t.whole = b.validUntil) :
    verifyManifestSignature sd rf kp (({ b with validUntil := t } : ManifestSigningBody).received
      (signManifestBody sd rf kp b)) = .ok () := by
  refine verifyManifestSignature_ok.mpr ⟨_, decode_signManifestBody, kp.length_sign _, ?_⟩
  have hvalue : (({ b with validUntil := t } : ManifestSigningBody).received (signManifestBody sd rf kp b)).value rf =
      b.value rf := by
    simp only [Manifest.value, Manifest.head, ManifestSigningBody.received, ManifestSigningBody.value,
      ManifestSigningBody.head, Rfc3339.secs, Instant.whole_eq_iff.mpr hissued, ht]
  rw [hvalue]
  exact hkey.correct _ hsigned

/-- A sidecar accepts what was published exactly if it was published on the second, and accepts nothing else
but for the parts of a second in the manifest's times. -/
theorem published_catalog_accepted_iff {published : Publication Text → Prop}
    (hpublished : ∀ p, published p → Published sd rf kp sha256Hex schemaErrors p)
    (hkey : kp.Ideal fun text => ∃ p, published p ∧ canonicalize sd (p.body.value rf) = text)
    (hsha : ∀ p body, published p → sha256Hex body = sha256Hex p.catalog → body = p.catalog) :
    (∀ p, published p → ∃ m, readManifest sd rf p.manifest = .ok m ∧
      (verifyManifestSignature sd rf kp m = .ok () ↔ p.body.issuedAt.sub = 0) ∧
      checkBodyHash sha256Hex m p.catalog = .ok ()) ∧
    ∀ text m body, readManifest sd rf text = .ok m → verifyManifestSignature sd rf kp m = .ok () →
      checkBodyHash sha256Hex m body = .ok () → ∃ p, published p ∧ Covers m p.body ∧ body = p.catalog ∧
        (m.issuedAt = p.body.issuedAt ∧ m.validUntil = p.body.validUntil ↔
          m.issuedAt.sub = 0 ∧ m.validUntil.sub = 0) := by
  refine ⟨fun p hp => ?_, fun text m body _ hverify hbody => ?_⟩
  · have hmade := (hpublished p hp).made
    refine ⟨p.body.received (signManifestBody sd rf kp p.body), ?_, ?_, ?_⟩
    · rw [hmade.manifest, readManifest_print]
    · rw [verify_received_iff hkey ⟨p, hp, rfl⟩, hmade.sub, and_self]
    · exact check_eq_ok.mpr hmade.hash.symm
  · obtain ⟨sig, -, -, hverify⟩ := verifyManifestSignature_ok.mp hverify
    obtain ⟨p, hp, htext⟩ := hkey.made _ _ hverify
    have hcovers := covers_of_canonicalize htext.symm
    have hhash : sha256Hex body = sha256Hex p.catalog := by
      rw [check_eq_ok.mp hbody, hcovers.currentCatalogHash, (hpublished p hp).made.hash]
    refine ⟨p, hp, hcovers, hsha p body hp hhash, ?_⟩
    rw [← hcovers.issuedAt, ← hcovers.validUntil, ← Instant.whole_eq_iff, ← Instant.whole_eq_iff, eq_comm,
      @eq_comm _ m.validUntil]

end Covered

section Example

def plainSerde : Serde Json := ⟨some, id, fun _ => rfl⟩

theorem dot_notMem_toString (n : ℤ) : '.' ∉ (toString n).toList := by
  have hnat (k : ℕ) : '.' ∉ (toString k).toList := fun h => absurd (isDigit_of_mem_repr h) (by decide)
  cases n with
  | ofNat k => exact hnat k
  | negSucc k =>
    show '.' ∉ ("-" ++ toString (k + 1)).toList
    rw [String.toList_append, List.mem_append]
    exact fun h => h.elim (by decide) (hnat (k + 1))

def plainTime : Rfc3339 where
  auto t := toString t.sec ++ "." ++ toString t.frac
  stamp _ := "2026-05-07T10:00:00Z"
  display _ := ""
  parse s := do
    let (sec, frac) ← splitOnce '.' s.toList
    let sec ← parseSigned sec
    let frac ← parseDigits frac
    if h : frac < 2 * 10 ^ 9 then some ⟨sec, frac, h⟩ else none
  parse_auto t := by
    have htext : (toString t.sec ++ "." ++ toString t.frac).toList =
        (toString t.sec).toList ++ '.' :: (toString t.frac).toList := by
      simp
    have hfrac : parseDigits (toString t.frac).toList = some t.frac := Nat.toList_repr ▸ parseDigits_toDigits t.frac
    rw [htext, splitOnce_append (dot_notMem_toString t.sec)]
    simp only [Option.bind_eq_bind, Option.bind_some, parseSigned_toString, hfrac, dif_pos t.bound]

def singleKey (signed : Json) : KeyPair Json where
  sign _ := List.replicate 64 0
  verify m sig := m = signed && sig = List.replicate 64 0
  length_sign _ := by simp

theorem singleKey_ideal (signed : Json) : (singleKey signed).Ideal (· = signed) where
  correct := by
    rintro _ rfl
    simp [singleKey]
  binding := by
    rintro m m' rfl h
    exact of_decide_eq_true (Bool.and_eq_true_iff.mp h).1
  made := by
    intro m sig h
    exact of_decide_eq_true (Bool.and_eq_true_iff.mp h).1

def demoVersion : String := "ctlg-2026-05-07T10:00:00Z-019e0103a0aabb"

def demoCatalog : Json := .obj [("catalog_version_id", .str demoVersion)]

def demoSha (text : Json) : String := if text = demoCatalog then "aa" else "bb"

def demoBody (nanos : Fin (10 ^ 9)) : ManifestSigningBody where
  manifestVersion := "1.0.0"
  currentCatalogVersionId := demoVersion
  currentCatalogUrl := "https://host" ++ "/v1/catalog/" ++ demoVersion
  currentCatalogHash := demoSha demoCatalog
  issuedAt := .ofClock 1778148000 nanos
  validUntil := .ofClock 1778148600 nanos
  signingKeyId := "key-1"
  tenantOverrides := []

def demoKey (nanos : Fin (10 ^ 9)) : KeyPair Json := singleKey (canonicalize plainSerde ((demoBody nanos).value plainTime))

def demoPublication (nanos : Fin (10 ^ 9)) : Publication Json where
  catalogKey := "catalogs/" ++ demoVersion ++ ".json"
  catalog := demoCatalog
  body := demoBody nanos
  manifest := plainSerde.print ((demoBody nanos).manifest plainTime
    (signManifestBody plainSerde plainTime (demoKey nanos) (demoBody nanos)))

theorem demo_url : validateBaseUrl "https://host" "PUBLIC_BASE_URL" true = .ok "https://host" := by decide +kernel

theorem demo_published (nanos : Fin (10 ^ 9)) :
    Published plainSerde plainTime (demoKey nanos) demoSha (fun _ => []) (demoPublication nanos) := by
  refine ⟨⟨600, "key-1", "https://host"⟩, .obj [], 1778148000, nanos, "019e0103a0aabb", [], ?_⟩
  have hversion : "ctlg-" ++ plainTime.stamp (.ofClock 1778148000 nanos) ++ "-" ++ "019e0103a0aabb" = demoVersion := rfl
  rw [publish]
  simp only [hversion, demo_url, ok_bind, check_of, Json.set?, Json.setFields, found_some]
  rfl

/-- A manifest of a time within a second is refused; one that was published on the second is accepted with
another end of its validity. -/
theorem fractional_times_diverge :
    (Published plainSerde plainTime (demoKey 123456789) demoSha (fun _ => []) (demoPublication 123456789) ∧
      ∃ m, readManifest plainSerde plainTime (demoPublication 123456789).manifest = .ok m ∧
        verifyManifestSignature plainSerde plainTime (demoKey 123456789) m ≠ .ok ()) ∧
    (Published plainSerde plainTime (demoKey 0) demoSha (fun _ => []) (demoPublication 0) ∧
      ∃ text m, readManifest plainSerde plainTime text = .ok m ∧
        verifyManifestSignature plainSerde plainTime (demoKey 0) m = .ok () ∧
        checkBodyHash demoSha m (demoPublication 0).catalog = .ok () ∧
        m.validUntil ≠ (demoPublication 0).body.validUntil) := by
  have hsub : (demoBody 123456789).issuedAt.sub ≠ 0 := by decide
  have hissued : (demoBody 0).issuedAt.sub = 0 := by decide
  have hwhole : (⟨1778148600, 999999999, by decide⟩ : Instant).whole = (demoBody 0).validUntil := by decide
  refine ⟨⟨demo_published _, _, readManifest_print _, fun hverify => ?_⟩,
    demo_published _, _, _, readManifest_print _, verify_shifted (singleKey_ideal _) rfl hissued hwhole,
    check_eq_ok.mpr rfl, ?_⟩
  · exact hsub ((verify_received_iff (singleKey_ideal _) rfl).mp hverify).1
  · decide

theorem demo_accepted :
    ∃ m, readManifest plainSerde plainTime (demoPublication 0).manifest = .ok m ∧
      verifyManifestSignature plainSerde plainTime (demoKey 0) m = .ok () ∧
      checkBodyHash demoSha m (demoPublication 0).catalog = .ok () := by
  have hsigned : (fun text => ∃ p, p = demoPublication 0 ∧ canonicalize plainSerde (p.body.value plainTime) = text) =
      (· = canonicalize plainSerde ((demoBody 0).value plainTime)) := by
    funext text
    exact propext ⟨fun ⟨_, rfl, h⟩ => h.symm, fun h => ⟨_, rfl, h.symm⟩⟩
  have hkey : (demoKey 0).Ideal fun text =>
      ∃ p, p = demoPublication 0 ∧ canonicalize plainSerde (p.body.value plainTime) = text := by
    rw [hsigned]
    exact singleKey_ideal _
  have hsha (p : Publication Json) (body : Json) (hp : p = demoPublication 0)
      (h : demoSha body = demoSha p.catalog) : body = p.catalog := by
    rw [hp] at h ⊢
    by_contra hne
    have hbody : demoSha body = "bb" := if_neg hne
    have hcatalog : demoSha (demoPublication 0).catalog = "aa" := if_pos rfl
    rw [hbody, hcatalog] at h
    exact absurd h (by decide)
  obtain ⟨m, hread, hverify, hbody⟩ := (published_catalog_accepted_iff (fun p hp => hp ▸ demo_published 0) hkey hsha).1
    (demoPublication 0) rfl
  exact ⟨m, hread, hverify.mpr rfl, hbody⟩

end Example

end SpendGuard.Catalog
