import MsRealty.GatewayRoutes

/-!
# The answers of the gateway

`forward` and `gateway` of `gateway/worker.ts`, up to the request to the origin: a request is
denied, redirected, answered from the stored media or sent on. A redirect of the gateway is
computed at once for the protocol, the host and the legacy page, before any of them is made
canonical on its own.

What the origin answers is passed on, its redirects too; these are none of the gateway.
-/

namespace Gateway

open CanonicalText Untyped Urls

variable {r : Runtime}

/-! ## Requests -/

/-- **A request**, as far as the answers of the gateway itself depend on it: its method, its
URL, the header `x-msr-legacy-host` and what `accessAuthorized` says of it. -/
structure Request (r : Runtime) where
  method : String
  url : Url r.hosts
  legacyHost : Option (List Char)
  authorized : Bool

/-- `["GET", "HEAD"].includes(request.method)`. -/
def Request.isRead (request : Request r) : Bool := ["GET", "HEAD"].contains request.method

/-- The host of the request, in lower case. -/
def Request.host (request : Request r) : List Char := request.url.hostText.map Char.toLower

/-- Whether a truthy header names the legacy host. -/
def Request.hasHeader (request : Request r) : Bool :=
  request.legacyHost.any fun header => header ≠ []

/-- `sourceHeader ?? host`: here an empty header counts. -/
def Request.source (request : Request r) : List Char := request.legacyHost.getD request.host

/-- The prefix of a host that is not canonical. -/
def www : List Char := ['w', 'w', 'w', '.']

/-- `text.replace(/^www\./, "")`. -/
def stripWww (text : List Char) : List Char :=
  if www.isPrefixOf text then text.drop www.length else text

/-- The legacy host that the request is for, if it is for one. -/
def Request.sourceHost (request : Request r) : List Char := stripWww request.source

/-- `/%(?:2f|5c)/i.test(path)`. -/
def encodesSlash (path : List Char) : Bool :=
  ['%', '2', 'f'] <:+: path.map Char.toLower || ['%', '5', 'c'] <:+: path.map Char.toLower

/-- The decoded path, if its spelling may name a reviewed page. -/
def Request.sourcePath (request : Request r) : Option (List Char) :=
  if encodesSlash request.url.pathname then none else Percent.decode? request.url.pathname

/-- Whether the request is for an upload of a legacy host. -/
def Request.legacyPhoto (request : Request r) : Bool :=
  "/wp-content/uploads/".toList.isPrefixOf request.url.pathname &&
    legacyHosts.contains request.sourceHost

/-! ## Routes and destinations -/

/-- The rule for the request's page. -/
def Configuration.rule? (c : Configuration r) (request : Request r) : Option LegacyRoute :=
  c.rules.find? fun entry => entry.host = toUnits request.sourceHost &&
    request.sourcePath.any (fun path => entry.path = toUnits path) &&
    entry.query = toUnits request.url.search

/-- The rule that moves the request's page, if there is one. -/
def Configuration.moved? (c : Configuration r) (request : Request r) : Option LegacyRoute :=
  (c.rule? request).filter fun rule => rule.status = .moved

/-- Whether the host is one that the gateway answers for. -/
def Configuration.current (c : Configuration r) (host : List Char) : Bool :=
  c.origins.any (fun url => url.hostText = host) || host = www ++ c.publicOrigin.hostText

/-- Whether a header names a legacy host where it must not, or no legacy host. -/
def headerRefused (env : GatewayEnv) (c : Configuration r) (request : Request r) : Bool :=
  request.legacyHost.any fun header => header ≠ [] &&
    (env.staging ≠ "true" || request.host ≠ c.publicOrigin.hostText ||
      !(legacyHosts ++ legacyHosts.map (www ++ ·)).contains header)

/-- **The final equivalent page** of a request; `none` where `new URL` throws. -/
def Configuration.destination (c : Configuration r) (env : GatewayEnv) (request : Request r) :
    Option (Url r.hosts) :=
  match c.moved? request with
  | some rule =>
    (resolve c.publicOrigin (ofUnits rule.targetPath)).map fun target =>
      (c.publicOrigin.setPathname target.pathname).setSearch target.search
  | none =>
    let destination :=
      (c.publicOrigin.setPathname request.url.pathname).setSearch request.url.search
    if (c.rule? request).isSome || request.legacyPhoto then
      some (destination.setHost
        (if env.staging = "true" then c.publicOrigin.hostText else request.sourceHost))
    else if request.host ≠ www ++ c.publicOrigin.hostText then
      some (destination.setHost request.host)
    else some destination

/-! ## Answers -/

/-- **An answer of the gateway.** A request that is sent on has the host and the path that the
origin is told, and `failed` is an exception that nobody catches. -/
inductive Answer (r : Runtime)
  | denied (status : ℕ)
  | redirect (location : List Char)
  | legacyMedia (sourceHost : Option (List Char))
  | mapAsset
  | upstream (target : Url r.hosts) (publicHost renderedPath : List Char)
  | failed
  deriving DecidableEq

/-- The URL at the origin that a request is sent on to: the reviewed one of a kept page, or its
own path, which is assigned as a path. -/
def Configuration.target (c : Configuration r) (request : Request r) : Option (Url r.hosts) :=
  match c.rule? request with
  | some rule =>
    (resolve c.origin (ofUnits rule.targetPath)).map fun reviewed =>
      (c.origin.setPathname reviewed.pathname).setSearch reviewed.search
  | none => some ((c.origin.setPathname request.url.pathname).setSearch request.url.search)

/-- **What is answered to a canonical request** that no rule moves. -/
def Configuration.serve (c : Configuration r) (request : Request r) : Answer r :=
  if request.legacyPhoto then .legacyMedia (some request.sourceHost)
  else if "/legacy-media/".toList.isPrefixOf request.url.pathname then
    if request.host = c.publicOrigin.hostText then .legacyMedia none else .denied 404
  else if "/maps/".toList.isPrefixOf request.url.pathname then
    if request.host = c.publicOrigin.hostText then .mapAsset else .denied 404
  else
    match c.target request with
    | none => .failed
    | some target =>
      if target.scheme = c.origin.scheme ∧ target.hostText = c.origin.hostText then
        .upstream target
          (if (c.rule? request).isSome then c.publicOrigin.hostText else request.host)
          (request.url.pathname ++ request.url.search)
      else .denied 503

/-- Whether the request is redirected: its page is moved, or it is not canonical. -/
def Configuration.redirects (c : Configuration r) (request : Request r) : Bool :=
  (c.moved? request).isSome || request.url.scheme ≠ .https || www.isPrefixOf request.source

/-- **`forward`.** -/
def forward (r : Runtime) (env : GatewayEnv) (request : Request r) : Answer r :=
  match configure r env with
  | none => .denied 503
  | some c =>
    if headerRefused env c request then .denied 400
    else if (c.rule? request).isNone && (!c.current request.host || request.hasHeader) &&
        !request.legacyPhoto then .denied 404
    else
      match c.destination env request with
      | none => .failed
      | some destination =>
        if (c.rule? request).isSome && !request.isRead then .denied 405
        else if c.redirects request then
          if request.isRead then .redirect destination.href else .denied 405
        else c.serve request

/-- **`gateway`.** On staging, a request has to be authorized. -/
def gateway (r : Runtime) (env : GatewayEnv) (request : Request r) : Answer r :=
  if env.staging ≠ "true" ∧ env.staging ≠ "false" then .denied 503
  else if env.staging = "true" ∧ request.authorized = false then .denied 403
  else forward r env request

end Gateway
