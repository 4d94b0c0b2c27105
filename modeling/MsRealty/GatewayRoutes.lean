import MsRealty.UntypedValues
import MsRealty.Urls

/-!
# The configuration of the gateway

The first part of `forward` in `gateway/worker.ts`: the origins of the gateway and the reviewed
artifact of legacy routes, which it checks on every request. The artifact is a JSON text that is
pinned by its digest; a rule of it names a page of a legacy host, by its decoded path and its
query, and either keeps it or moves it for good. The target of a moved page is checked not to be
a moved page of the target host.

The parser of hosts, the digest and `JSON.parse` are those of the runtime.
-/

namespace Gateway

open CanonicalText Untyped Urls

/-! ## The runtime -/

/-- **What the runtime gives**: the parser of hosts, the digest of a text in hexadecimal and
`JSON.parse`, which is `none` where it throws. -/
structure Runtime where
  hosts : HostParser
  digest : List Char → List Char
  parseJson : List Char → Option Value

/-- **`GatewayEnv`**, as far as the answers of the gateway itself depend on it. -/
structure GatewayEnv where
  staging : String
  originUrl : List Char
  originVerifySecret : List Char
  publicOrigin : List Char
  clientOrigin : List Char
  staffOrigin : List Char
  legacyRoutesJson : List Char
  legacyRoutesSha256 : List Char
  legacyTargetHost : Option (List Char)

/-- **`bareHttps`**: an origin is an `https` URL with nothing but a host and a port. -/
def bareHttps (r : Runtime) (raw : List Char) : Option (Url r.hosts) := do
  let u ← parse r.hosts raw
  if u.scheme ≠ .https ∨ u.username ≠ [] ∨ u.password ≠ [] ∨ u.search ≠ [] ∨ u.hash ≠ [] ∨
      u.pathname ≠ ['/'] then none
  else some u

/-! ## Rules -/

/-- **`safePath`**: a path that starts with one slash and has no backslash, line break or
hash. -/
def safePath (path : JsString) : Bool :=
  [unit '/'].isPrefixOf path && !([unit '/', unit '/'].isPrefixOf path) &&
    path.all fun u => !([unit '\\', unit '\r', unit '\n', unit '#'].contains u)

/-- What becomes of a legacy page: it is kept (200) or moved for good (301). -/
inductive RouteStatus
  | kept
  | moved
  deriving DecidableEq

/-- `[200, 301].includes(status)`, with the status. -/
def routeStatus : Value → Option RouteStatus
  | .number (some 200) => some .kept
  | .number (some 301) => some .moved
  | _ => none

/-- **`LegacyRoute`**, of the statuses that are accepted. -/
structure LegacyRoute where
  host : JsString
  path : JsString
  query : JsString
  status : RouteStatus
  targetPath : JsString

/-- The legacy hosts, `/^makler-realty\.(com|ru)$/`. -/
def legacyHosts : List (List Char) := ["makler-realty.com".toList, "makler-realty.ru".toList]

/-- What identifies a page, `JSON.stringify([rule.host, rule.path, rule.query])`. -/
def LegacyRoute.key (rule : LegacyRoute) : JsString × JsString × JsString :=
  (rule.host, rule.path, rule.query)

/-- What is asked of a rule. -/
def LegacyRoute.Reviewed (rule : LegacyRoute) : Prop :=
  rule.host ∈ legacyHosts.map toUnits ∧ safePath rule.path = true ∧
    (∀ u ∈ rule.path, u ≠ unit '%' ∧ u ≠ unit '?') ∧
    (rule.query = [] ∨ rule.query.head? = some (unit '?')) ∧ safePath rule.targetPath = true

instance (rule : LegacyRoute) : Decidable rule.Reviewed :=
  haveI : Decidable (∀ u ∈ rule.path, u ≠ unit '%' ∧ u ≠ unit '?') := List.decidableBAll _ _
  inferInstanceAs (Decidable (_ ∧ _ ∧ _ ∧ _ ∧ _))

/-- The host that every target has, `env.LEGACY_TARGET_HOST ?? publicOrigin.host`. -/
def targetHost {r : Runtime} (env : GatewayEnv) (publicOrigin : Url r.hosts) : JsString :=
  toUnits (env.legacyTargetHost.getD publicOrigin.hostText)

/-- **The checks of one rule.** -/
def readRule (target : JsString) : Value → Option LegacyRoute
  | .object members => do
    let host ← (member members "host").string?
    let path ← (member members "path").string?
    let query ← (member members "query").string?
    let status ← routeStatus (member members "status")
    let targetPath ← (member members "targetPath").string?
    let itsTarget ← (member members "targetHost").string?
    let rule : LegacyRoute := { host, path, query, status, targetPath }
    if rule.Reviewed ∧ itsTarget = target then some rule else none
  | _ => none

/-- The loop over the rules, with the keys of those before. -/
def readRules (target : JsString) (keys : List (JsString × JsString × JsString)) :
    List Value → Option (List LegacyRoute)
  | [] => some []
  | value :: values => do
    let rule ← readRule target value
    if rule.key ∈ keys then none
    else
      let rules ← readRules target (rule.key :: keys) values
      pure (rule :: rules)

/-- Whether a target is no moved page of the target host. The search among the rules throws at
the first one of that host if the path of the target is not decoded. -/
def isFinal {r : Runtime} (target : JsString) (rules : List LegacyRoute)
    (url : Url r.hosts) : Bool :=
  let onTarget := rules.filter fun next => next.host = target
  onTarget.isEmpty ||
    (Percent.decode? url.pathname).any fun path =>
      !onTarget.any fun next => next.path = toUnits path && next.query = toUnits url.search &&
        next.status = .moved

/-- **The check of a moved page's target.** -/
def targetAccepted {r : Runtime} (target : JsString) (publicOrigin : Url r.hosts)
    (rules : List LegacyRoute) (rule : LegacyRoute) : Bool :=
  rule.status ≠ .moved ||
    (resolve publicOrigin (ofUnits rule.targetPath)).any fun url => isFinal target rules url

/-! ## The configuration -/

/-- **A configuration that the gateway accepts.** -/
structure Configuration (r : Runtime) where
  origin : Url r.hosts
  publicOrigin : Url r.hosts
  clientOrigin : Url r.hosts
  staffOrigin : Url r.hosts
  rules : List LegacyRoute

/-- The three origins that the gateway answers for. -/
def Configuration.origins {r : Runtime} (c : Configuration r) : List (Url r.hosts) :=
  [c.publicOrigin, c.clientOrigin, c.staffOrigin]

/-- `/^[0-9a-f]{64}$/.test(text)`. -/
def isDigest (text : List Char) : Bool :=
  text.length = 64 ∧ text.all fun c => c.isDigit || ('a' ≤ c && c ≤ 'f')

/-- The rules of the artifact, if it is the one that is pinned. -/
def readArtifact (r : Runtime) (env : GatewayEnv) (target : JsString) : Option (List LegacyRoute) :=
  if isDigest env.legacyRoutesSha256 = true ∧
      r.digest env.legacyRoutesJson = env.legacyRoutesSha256 then
    match r.parseJson env.legacyRoutesJson with
    | some (.array values) => if values.length > 20000 then none else readRules target [] values
    | _ => none
  else none

/-- **The configuration of a request**, none where the gateway answers 503. -/
def configure (r : Runtime) (env : GatewayEnv) : Option (Configuration r) := do
  let origin ← bareHttps r env.originUrl
  let publicOrigin ← bareHttps r env.publicOrigin
  let clientOrigin ← bareHttps r env.clientOrigin
  let staffOrigin ← bareHttps r env.staffOrigin
  let hosts := [publicOrigin.hostText, clientOrigin.hostText, staffOrigin.hostText]
  if (toUnits env.originVerifySecret).length < 32 ∨ hosts.any (· = origin.hostText) ∨
      ¬ hosts.Nodup then
    none
  else
    let target := targetHost env publicOrigin
    let rules ← readArtifact r env target
    if rules.all (targetAccepted target publicOrigin rules) then
      some { origin, publicOrigin, clientOrigin, staffOrigin, rules }
    else none

/-! ## What is accepted -/

/-- An origin has the scheme `https` and no credentials. -/
structure IsOrigin {hosts : HostParser} (url : Url hosts) : Prop where
  scheme : url.scheme = .https
  username : url.username = []
  password : url.password = []

theorem isOrigin_of_bareHttps {r : Runtime} {raw : List Char} {url : Url r.hosts}
    (h : bareHttps r raw = some url) : IsOrigin url := by
  obtain ⟨u, -, hu⟩ := Option.bind_eq_some_iff.mp h
  split at hu
  · cases hu
  · rename_i hbare
    cases hu
    simp only [not_or, not_not] at hbare
    exact ⟨hbare.1, hbare.2.1, hbare.2.2.1⟩

theorem reviewed_of_readRule {target : JsString} {value : Value} {rule : LegacyRoute}
    (h : readRule target value = some rule) : rule.Reviewed := by
  cases value with
  | object members =>
    simp only [readRule, Option.bind_eq_bind, Option.bind_eq_some_iff] at h
    obtain ⟨host, -, path, -, query, -, status, -, targetPath, -, itsTarget, -, h⟩ := h
    split at h
    · rename_i hreviewed
      cases h
      exact hreviewed.1
    · cases h
  | _ => cases h

theorem reviewed_of_readRules {target : JsString} {values : List Value} {rules : List LegacyRoute}
    {keys : List (JsString × JsString × JsString)} (h : readRules target keys values = some rules) :
    ∀ rule ∈ rules, rule.Reviewed := by
  induction values generalizing rules keys with
  | nil =>
    cases h
    exact fun rule hrule => absurd hrule List.not_mem_nil
  | cons value values ih =>
    simp only [readRules, Option.bind_eq_bind, Option.bind_eq_some_iff] at h
    obtain ⟨rule, hrule, h⟩ := h
    -- a page with two rules is refused
    split at h
    · cases h
    · obtain ⟨rest, hrest, h⟩ := Option.bind_eq_some_iff.mp h
      cases h
      exact List.forall_mem_cons.mpr ⟨reviewed_of_readRule hrule, ih hrest⟩

theorem reviewed_of_readArtifact {r : Runtime} {env : GatewayEnv} {target : JsString}
    {rules : List LegacyRoute} (h : readArtifact r env target = some rules) :
    ∀ rule ∈ rules, rule.Reviewed := by
  rw [readArtifact] at h
  -- the digest, the JSON, the number of rules
  split at h
  · split at h
    · split at h
      · cases h
      · exact reviewed_of_readRules h
    · cases h
  · cases h

/-- **What the gateway knows of a configuration that it accepts.** -/
structure Configuration.Sound {r : Runtime} (env : GatewayEnv) (c : Configuration r) : Prop where
  origins : ∀ url ∈ c.origins, IsOrigin url
  reviewed : ∀ rule ∈ c.rules, rule.Reviewed
  final : ∀ rule ∈ c.rules, rule.status = .moved →
    ∃ url, resolve c.publicOrigin (ofUnits rule.targetPath) = some url ∧
      isFinal (targetHost env c.publicOrigin) c.rules url = true

/-- **An accepted configuration is sound.** -/
theorem configure_sound {r : Runtime} {env : GatewayEnv} {c : Configuration r}
    (h : configure r env = some c) : c.Sound env := by
  simp only [configure, Option.bind_eq_bind, Option.bind_eq_some_iff] at h
  obtain ⟨origin, -, publicOrigin, hpublic, clientOrigin, hclient, staffOrigin, hstaff, h⟩ := h
  split at h
  · cases h
  obtain ⟨rules, hrules, h⟩ := Option.bind_eq_some_iff.mp h
  split at h
  · rename_i htargets
    cases h
    refine ⟨?_, reviewed_of_readArtifact hrules, fun rule hrule hmoved => ?_⟩
    · simp only [Configuration.origins, List.forall_mem_cons]
      exact ⟨isOrigin_of_bareHttps hpublic, isOrigin_of_bareHttps hclient,
        isOrigin_of_bareHttps hstaff, fun url hurl => absurd hurl List.not_mem_nil⟩
    · have htarget := List.all_eq_true.mp htargets rule hrule
      rw [targetAccepted, hmoved] at htarget
      exact (Option.any_eq_true _ _).mp htarget
  · cases h

end Gateway
