import MsRealty.GatewayForward

/-!
# Redirects of the gateway do not chain

A redirect of the gateway leads to an `https` address of a host that it answers for, and a `GET`
of that address is not redirected again (`gateway_redirects_once`). The argument compares how
the two requests are matched against the rules: the path and the query of the location are those
of the first request, or those of the target that the artifact was checked with, and its host is
the one that the rules were searched for, or one that no rule has.

The check of the artifact knows the target host only by the name that the configuration gives
it. So it says something of the public host if that name is its own, or if no rule can name the
public host at all.
-/

namespace Gateway

open CanonicalText Untyped Urls

variable {r : Runtime}

/-! ## Hosts -/

theorem toLower_of_not_isUpper {c : Char} (h : c.isUpper = false) : c.toLower = c :=
  dif_neg (of_decide_eq_false h)

/-- The host of a URL is in lower case. -/
theorem toLower_hostText {hosts : HostParser} (url : Url hosts) :
    url.hostText.map Char.toLower = url.hostText := by
  refine (List.map_congr_left fun c hc => toLower_of_not_isUpper ?_).trans (List.map_id _)
  rcases mem_hostText hc with hc | rfl | hc
  · exact (url.host.isHost.visible hc).2.2.2
  · rfl
  · rw [Bool.eq_false_iff]
    intro hupper
    have hlast : c.toNat ≤ 57 := (Char.isDigit_iff_toNat.mp hc).2
    have hfirst := (Percent.isUpper_iff.mp hupper).1
    omega

@[simp] theorem Request.host_eq (request : Request r) : request.host = request.url.hostText :=
  toLower_hostText request.url

theorem stripWww_of_not {text : List Char} (h : www.isPrefixOf text = false) :
    stripWww text = text := by
  rw [stripWww, h, if_neg Bool.false_ne_true]

theorem stripWww_www (text : List Char) : stripWww (www ++ text) = text := by
  simp [stripWww, www]

theorem not_www_of_legacy : ∀ host ∈ legacyHosts, www.isPrefixOf host = false := by decide

theorem legacyHosts_plain (name : List Char) (h : name ∈ legacyHosts) : IsPlainDomain name := by
  have hhead : ∀ name ∈ legacyHosts, name.head?.any Char.isLower = true := by decide
  have hchars : ∀ c ∈ legacyHosts.flatten, c.isLower = true ∨ c = '-' ∨ c = '.' :=
    List.all_iff_forall_prop.mp rfl
  have hhyphens : ∀ name ∈ legacyHosts, ¬ ['-', '-'] <:+: name := by decide
  exact ⟨hhead name h, fun c hc => hchars c (List.mem_flatten.mpr ⟨name, h, hc⟩), hhyphens name h⟩

/-! ## Rules -/

/-- A rule is for a page of a legacy host. -/
theorem sourceHost_legacy {env : GatewayEnv} {c : Configuration r} (hc : c.Sound env)
    {request : Request r} {rule : LegacyRoute} (h : c.rule? request = some rule) :
    request.sourceHost ∈ legacyHosts := by
  obtain ⟨host, hhost, heq⟩ := List.mem_map.mp (hc.reviewed rule (List.mem_of_find?_eq_some h)).1
  have hfound := List.find?_some h
  simp only [Bool.and_eq_true, decide_eq_true_eq] at hfound
  rw [hfound.1.1] at heq
  rwa [← toUnits_inj.mp heq]

theorem rule?_congr {c : Configuration r} {a b : Request r} (hhost : a.sourceHost = b.sourceHost)
    (hpath : a.url.pathname = b.url.pathname) (hquery : a.url.search = b.url.search) :
    c.rule? a = c.rule? b := by
  simp only [Configuration.rule?, Request.sourcePath, hhost, hpath, hquery]

/-! ## What a redirect is -/

theorem serve_ne_redirect (c : Configuration r) (request : Request r) (location : List Char) :
    c.serve request ≠ .redirect location := by
  rw [Configuration.serve]
  split
  · exact nofun
  · split
    · split <;> exact nofun
    · split
      · split <;> exact nofun
      · split
        · exact nofun
        · split <;> exact nofun

/-- **What the gateway has found of a request that it redirects.** -/
structure Redirected (env : GatewayEnv) (c : Configuration r) (request : Request r)
    (url : Url r.hosts) : Prop where
  header : headerRefused env c request = false
  known : (c.rule? request).isSome = true ∨
    c.current request.host = true ∧ request.hasHeader = false ∨ request.legacyPhoto = true
  destination : c.destination env request = some url
  redirects : c.redirects request = true

theorem redirected_of_gateway {env : GatewayEnv} {c : Configuration r}
    (hc : configure r env = some c) {request : Request r} {location : List Char}
    (h : gateway r env request = .redirect location) :
    (env.staging = "true" ∨ env.staging = "false") ∧
      ∃ url, Redirected env c request url ∧ location = url.href := by
  rw [gateway] at h
  split_ifs at h with hstaging hauthorized
  have hmode : env.staging = "true" ∨ env.staging = "false" := by
    rw [not_and_or, not_not, not_not] at hstaging
    exact hstaging
  refine ⟨hmode, ?_⟩
  simp only [forward, hc] at h
  split at h
  · cases h
  rename_i hheader
  split at h
  · cases h
  rename_i hknown
  split at h
  · cases h
  rename_i destination hdestination
  split at h
  · cases h
  split at h
  · rename_i hredirects
    split at h
    · cases h
      refine ⟨destination, ⟨eq_false_of_ne_true hheader, ?_, hdestination, hredirects⟩, rfl⟩
      have hcases : ∀ rule current header photo : Bool,
          ¬ (!rule && (!current || header) && !photo) = true →
            rule = true ∨ current = true ∧ header = false ∨ photo = true := by decide
      rw [← Option.not_isSome] at hknown
      exact hcases _ _ _ _ hknown
    · cases h
  · exact absurd h (serve_ne_redirect c request location)

/-! ## What is set of a destination -/

/-- A URL is for the page of another one: the same path and query. -/
structure SamePage {hosts : HostParser} (url page : Url hosts) : Prop where
  pathname : url.pathname = page.pathname
  search : url.search = page.search

/-- A URL is that of an origin with the page of another URL. -/
structure OnOrigin {hosts : HostParser} (url origin page : Url hosts) : Prop
    extends SamePage url page where
  scheme : url.scheme = origin.scheme
  username : url.username = origin.username
  password : url.password = origin.password

theorem onOrigin_set {hosts : HostParser} (origin page : Url hosts) :
    OnOrigin ((origin.setPathname page.pathname).setSearch page.search) origin page where
  pathname := by
    show pathText (origin.setPathname page.pathname).path = _
    rw [setPathname_pathname]
    rfl
  search := search_setSearch _ page
  scheme := rfl
  username := rfl
  password := rfl

/-- The host of another URL is set, with its port. -/
theorem onOrigin_setHost {hosts : HostParser} {url origin page : Url hosts}
    (h : OnOrigin url origin page) (hport : url.port = none) (other : Url hosts)
    (hscheme : other.scheme = url.scheme) :
    OnOrigin (url.setHost other.hostText) origin page ∧
      (url.setHost other.hostText).hostText = other.hostText := by
  obtain ⟨scheme, username, password, host, port, path, path_ne, query, fragment⟩ := other
  obtain rfl : scheme = url.scheme := hscheme
  have hset : url.setHost (host.text ++ portText port) =
      { url with host, port := port <|> url.port } := setHost_text url host port
  have hport' : (port <|> url.port) = port := by
    rw [hport]
    cases port <;> rfl
  rw [hport'] at hset
  show OnOrigin (url.setHost (host.text ++ portText port)) origin page ∧
    (url.setHost (host.text ++ portText port)).hostText = host.text ++ portText port
  rw [hset]
  exact ⟨⟨⟨h.pathname, h.search⟩, h.scheme, h.username, h.password⟩, rfl⟩

/-- A legacy host is set; there is no port to be left. -/
theorem onOrigin_setLegacy {hosts : HostParser} {url origin page : Url hosts}
    (h : OnOrigin url origin page) (hport : url.port = none) {name : List Char}
    (hname : name ∈ legacyHosts) :
    OnOrigin (url.setHost name) origin page ∧ (url.setHost name).hostText = name := by
  have hplain : IsPlainDomain name := legacyHosts_plain name hname
  set host : Host hosts := ⟨name, hosts.parse_plain hplain⟩
  have hset : url.setHost (host.text ++ portText none) =
      { url with host, port := none <|> url.port } := setHost_text url host none
  have htext : host.text ++ portText (none : Option (Port url.scheme)) = name := List.append_nil name
  rw [htext] at hset
  rw [hset]
  refine ⟨⟨⟨h.pathname, h.search⟩, h.scheme, h.username, h.password⟩, ?_⟩
  show name ++ portText (none <|> url.port) = name
  rw [hport]
  exact List.append_nil name

/-! ## The second request -/

/-- **A `GET` of a URL**, with no header for a legacy host. The fragment is not sent. -/
structure Follows (url : Url r.hosts) (follow : Request r) : Prop where
  method : follow.method = "GET"
  sameUrl : follow.url.withoutFragment = url.withoutFragment
  header : follow.legacyHost = none

theorem Follows.hostText {url : Url r.hosts} {follow : Request r} (h : Follows url follow) :
    follow.url.hostText = url.hostText := by
  show follow.url.withoutFragment.hostText = url.withoutFragment.hostText
  rw [h.sameUrl]

theorem Follows.scheme {url : Url r.hosts} {follow : Request r} (h : Follows url follow) :
    follow.url.scheme = url.scheme := by
  show follow.url.withoutFragment.scheme = url.withoutFragment.scheme
  rw [h.sameUrl]

theorem Follows.samePage {url page : Url r.hosts} {follow : Request r} (h : Follows url follow)
    (hpage : SamePage url page) : SamePage follow.url page := by
  have hpathname : follow.url.withoutFragment.pathname = url.withoutFragment.pathname := by
    rw [h.sameUrl]
  have hsearch : follow.url.withoutFragment.search = url.withoutFragment.search := by
    rw [h.sameUrl]
  exact ⟨hpathname.trans hpage.pathname, hsearch.trans hpage.search⟩

theorem Follows.source {url : Url r.hosts} {follow : Request r} (h : Follows url follow) :
    follow.source = url.hostText := by
  rw [Request.source, h.header, Option.getD_none, Request.host_eq, h.hostText]

theorem Follows.sourceHost {url : Url r.hosts} {follow : Request r} (h : Follows url follow)
    (hwww : www.isPrefixOf url.hostText = false) : follow.sourceHost = url.hostText := by
  rw [Request.sourceHost, h.source, stripWww_of_not hwww]

/-- **A canonical request that no rule moves is not redirected.** -/
theorem not_redirected {env : GatewayEnv} {c : Configuration r} (hc : configure r env = some c)
    {url : Url r.hosts} {follow : Request r} (h : Follows url follow)
    (hscheme : url.scheme = .https) (hwww : www.isPrefixOf url.hostText = false)
    (hmoved : c.moved? follow = none) (location : List Char) :
    gateway r env follow ≠ .redirect location := by
  intro hredirect
  obtain ⟨-, next, hnext, -⟩ := redirected_of_gateway hc hredirect
  have hredirects := hnext.redirects
  -- the three reasons of a redirect: the rule, the protocol and the `www.`
  rw [Configuration.redirects, hmoved, h.scheme, hscheme, h.source, hwww] at hredirects
  exact absurd hredirects (by decide)

/-! ## Pages that are not moved again -/

/-- No rule is for a host that is no legacy host. -/
theorem moved?_of_not_legacy {env : GatewayEnv} {c : Configuration r} (hc : c.Sound env)
    {request : Request r} (h : request.sourceHost ∉ legacyHosts) : c.moved? request = none := by
  have hrule : c.rule? request = none := by
    cases hrule : c.rule? request with
    | none => rfl
    | some rule => exact absurd (sourceHost_legacy hc hrule) h
  rw [Configuration.moved?, hrule, Option.filter_none]

/-- **The target of a moved page is not moved**, where the checks of the artifact are about the
public host. -/
theorem moved?_of_final {env : GatewayEnv} {c : Configuration r}
    {target : Url r.hosts} (hfinal : isFinal (targetHost env c.publicOrigin) c.rules target = true)
    (htarget : targetHost env c.publicOrigin = toUnits c.publicOrigin.hostText)
    {request : Request r} (hhost : request.sourceHost = c.publicOrigin.hostText)
    (hpage : SamePage request.url target) : c.moved? request = none := by
  cases hmoved : c.moved? request with
  | none => rfl
  | some next =>
    obtain ⟨hrule, hstatus⟩ := Option.filter_eq_some_iff.mp hmoved
    have hmem := List.mem_of_find?_eq_some hrule
    have hfound := List.find?_some hrule
    simp only [Bool.and_eq_true, decide_eq_true_eq] at hfound hstatus
    obtain ⟨⟨hnext, hpath⟩, hquery⟩ := hfound
    obtain ⟨path, hsource, hpath⟩ := (Option.any_eq_true _ _).mp hpath
    -- the decoded path of the request is that of the target
    have hdecoded : Percent.decode? target.pathname = some path := by
      rw [Request.sourcePath] at hsource
      split at hsource
      · cases hsource
      · rw [← hpage.pathname, hsource]
    rw [hhost, ← htarget] at hnext
    have hon : next ∈ c.rules.filter fun next => next.host = targetHost env c.publicOrigin :=
      List.mem_filter.mpr ⟨hmem, decide_eq_true hnext⟩
    simp only [isFinal, hdecoded, Option.any_some, Bool.or_eq_true, List.isEmpty_iff,
      Bool.not_eq_true', List.any_eq_false] at hfinal
    -- the artifact has no rule for the host, or none for this page
    rcases hfinal with hnil | hnone
    · rw [hnil] at hon
      exact absurd hon List.not_mem_nil
    · refine absurd ?_ (hnone next hon)
      rw [hpath, hquery, hpage.search, hstatus]
      simp

/-- Whether a host is one that a redirect may lead to. -/
def Configuration.KnownHost (c : Configuration r) (host : List Char) : Prop :=
  host ∈ c.origins.map Url.hostText ∨ host ∈ legacyHosts

/-- **Where a redirect leads**: to a canonical address of a known host, whose page no rule
moves. -/
structure Landing (c : Configuration r) (url : Url r.hosts) : Prop where
  scheme : url.scheme = .https
  username : url.username = []
  password : url.password = []
  host : c.KnownHost url.hostText
  settled : ∀ follow, Follows url follow → c.moved? follow = none

/-- The page of the request is not moved where the rules are searched for the same host. -/
theorem settled_of_same {c : Configuration r} {request : Request r} {url : Url r.hosts}
    (hpage : SamePage url request.url) (hmoved : c.moved? request = none)
    (hwww : www.isPrefixOf url.hostText = false) (hhost : url.hostText = request.sourceHost) :
    ∀ follow, Follows url follow → c.moved? follow = none := by
  intro follow hfollow
  have hsame := hfollow.samePage hpage
  have hrule : c.rule? follow = c.rule? request :=
    rule?_congr ((hfollow.sourceHost hwww).trans hhost) hsame.pathname hsame.search
  rwa [Configuration.moved?, hrule]

/-- No page of a public host is moved that is no legacy host. -/
theorem settled_of_public {env : GatewayEnv} {c : Configuration r} (hc : c.Sound env)
    (h : c.publicOrigin.hostText ∉ legacyHosts)
    (hwww : www.isPrefixOf c.publicOrigin.hostText = false) {url : Url r.hosts}
    (hhost : url.hostText = c.publicOrigin.hostText) :
    ∀ follow, Follows url follow → c.moved? follow = none := by
  intro follow hfollow
  refine moved?_of_not_legacy hc ?_
  rwa [hfollow.sourceHost (by rwa [hhost]), hhost]

/-- A request for a kept page or for an upload is for a legacy host. -/
theorem sourceHost_of_kept {env : GatewayEnv} {c : Configuration r} (hc : c.Sound env)
    {request : Request r}
    (h : ((c.rule? request).isSome || request.legacyPhoto) = true) :
    request.sourceHost ∈ legacyHosts := by
  rcases Bool.or_eq_true_iff.mp h with hrule | hphoto
  · obtain ⟨rule, hrule⟩ := Option.isSome_iff_exists.mp hrule
    exact sourceHost_legacy hc hrule
  · rw [Request.legacyPhoto, Bool.and_eq_true, List.contains_eq_mem, decide_eq_true_eq] at hphoto
    exact hphoto.2

section Landing

variable {env : GatewayEnv} {c : Configuration r} {request : Request r} {url : Url r.hosts}
  (hc : c.Sound env) (hwww : ∀ url ∈ c.origins, www.isPrefixOf url.hostText = false)
  (hport : c.publicOrigin.port = none)
  (hlegacy : c.publicOrigin.hostText ∈ legacyHosts → env.staging = "false" ∧
    targetHost env c.publicOrigin = toUnits c.publicOrigin.hostText)

include hc

/-- The public origin is canonical, so what is on it is, but for the host. -/
theorem landing_onOrigin {page : Url r.hosts} (hset : OnOrigin url c.publicOrigin page)
    (hhost : c.KnownHost url.hostText)
    (hsettled : ∀ follow, Follows url follow → c.moved? follow = none) : Landing c url := by
  obtain ⟨hscheme, hname, hpassword⟩ := hc.origins _ List.mem_cons_self
  exact ⟨hset.scheme.trans hscheme, hset.username.trans hname, hset.password.trans hpassword,
    hhost, hsettled⟩

include hwww hlegacy

/-- The destination of a moved page. -/
theorem landing_moved {rule : LegacyRoute} (hmoved : c.moved? request = some rule)
    (h : c.destination env request = some url) : Landing c url := by
  have hpublic : c.publicOrigin ∈ c.origins := List.mem_cons_self
  rw [Configuration.destination, hmoved] at h
  obtain ⟨target, htarget, rfl⟩ := Option.map_eq_some_iff.mp h
  have hset := onOrigin_set c.publicOrigin target
  have hknown : c.KnownHost c.publicOrigin.hostText := Or.inl (List.mem_map_of_mem hpublic)
  refine landing_onOrigin hc hset hknown ?_
  -- only on a legacy host is there a rule that may be for the target
  by_cases hhost : c.publicOrigin.hostText ∈ legacyHosts
  · intro follow hfollow
    obtain ⟨hrule, hstatus⟩ := Option.filter_eq_some_iff.mp hmoved
    obtain ⟨url, hurl, hfinal⟩ := hc.final rule (List.mem_of_find?_eq_some hrule)
      (of_decide_eq_true hstatus)
    rw [htarget] at hurl
    cases hurl
    exact moved?_of_final hfinal (hlegacy hhost).2 (hfollow.sourceHost (hwww c.publicOrigin hpublic))
      (hfollow.samePage hset.toSamePage)
  · exact settled_of_public hc hhost (hwww c.publicOrigin hpublic) rfl

include hport

/-- The destination of a page that is kept, or of an upload. -/
theorem landing_kept (hmoved : c.moved? request = none)
    (hkept : ((c.rule? request).isSome || request.legacyPhoto) = true)
    (h : c.destination env request = some url) : Landing c url := by
  have hpublic : c.publicOrigin ∈ c.origins := List.mem_cons_self
  have hset := onOrigin_set c.publicOrigin request.url
  have hsource := sourceHost_of_kept hc hkept
  simp only [Configuration.destination, hmoved, hkept, if_true] at h
  cases h
  -- on staging the public host answers for the legacy ones
  by_cases hstaging : env.staging = "true"
  · rw [if_pos hstaging]
    obtain ⟨hset, hhost⟩ := onOrigin_setHost hset hport c.publicOrigin rfl
    refine landing_onOrigin hc hset (Or.inl (by rw [hhost]; exact List.mem_map_of_mem hpublic)) ?_
    refine settled_of_public hc (fun hmem => ?_) (hwww _ hpublic) hhost
    rw [hstaging] at hlegacy
    exact absurd (hlegacy hmem).1 (by decide)
  · rw [if_neg hstaging]
    obtain ⟨hset, hhost⟩ := onOrigin_setLegacy hset hport hsource
    refine landing_onOrigin hc hset (Or.inr (by rwa [hhost]))
      (settled_of_same hset.toSamePage hmoved ?_ hhost)
    rw [hhost]
    exact not_www_of_legacy _ hsource

omit hlegacy

/-- The destination of any other page. -/
theorem landing_current (hmoved : c.moved? request = none)
    (hkept : ((c.rule? request).isSome || request.legacyPhoto) = false)
    (hsource : request.source = request.url.hostText)
    (hcurrent : c.current request.host = true)
    (h : c.destination env request = some url) : Landing c url := by
  have hpublic : c.publicOrigin ∈ c.origins := List.mem_cons_self
  have hset := onOrigin_set c.publicOrigin request.url
  rw [Request.host_eq] at hcurrent
  simp only [Configuration.destination, hmoved, hkept, Request.host_eq, Bool.false_eq_true,
    if_false] at h
  -- a `www.` before the public host is dropped; every other current host stays
  split at h
  · rename_i hne
    cases h
    have horigin : ∃ origin ∈ c.origins, origin.hostText = request.url.hostText := by
      rw [Configuration.current, Bool.or_eq_true, decide_eq_true_eq, List.any_eq_true] at hcurrent
      obtain ⟨origin, hmem, heq⟩ := hcurrent.resolve_right hne
      exact ⟨origin, hmem, of_decide_eq_true heq⟩
    obtain ⟨origin, hmem, heq⟩ := horigin
    have hsame : origin.scheme = c.publicOrigin.scheme := by
      rw [(hc.origins _ hmem).scheme, (hc.origins _ hpublic).scheme]
    rw [← heq]
    obtain ⟨hset, hhost⟩ := onOrigin_setHost hset hport origin hsame
    have hcanonical : www.isPrefixOf origin.hostText = false := hwww _ hmem
    refine landing_onOrigin hc hset (Or.inl (by rw [hhost]; exact List.mem_map_of_mem hmem))
      (settled_of_same hset.toSamePage hmoved (by rwa [hhost]) ?_)
    rw [hhost, Request.sourceHost, hsource, ← heq, stripWww_of_not hcanonical]
  · rename_i heq
    rw [not_not] at heq
    cases h
    have hhost : c.publicOrigin.hostText = request.sourceHost := by
      rw [Request.sourceHost, hsource, heq, stripWww_www]
    have hknown : c.KnownHost c.publicOrigin.hostText := Or.inl (List.mem_map_of_mem hpublic)
    exact landing_onOrigin hc hset hknown
      (settled_of_same hset.toSamePage hmoved (hwww c.publicOrigin hpublic) hhost)

include hlegacy

theorem landing_of_redirected (hheader : request.legacyHost ≠ some [])
    (h : Redirected env c request url) : Landing c url := by
  cases hmoved : c.moved? request with
  | some rule => exact landing_moved hc hwww hlegacy hmoved h.destination
  | none =>
    cases hkept : (c.rule? request).isSome || request.legacyPhoto with
    | true => exact landing_kept hc hwww hport hlegacy hmoved hkept h.destination
    | false =>
      obtain ⟨hrule, hphoto⟩ := Bool.or_eq_false_iff.mp hkept
      rcases h.known with hknown | ⟨hcurrent, hnone⟩ | hknown
      · rw [hrule] at hknown
        cases hknown
      · -- The header is absent: an empty one would count for the rules, and not here.
        have hsource : request.source = request.url.hostText := by
          rw [Request.source, ← Request.host_eq]
          cases hlegacyHost : request.legacyHost with
          | none => rfl
          | some header =>
            rw [Request.hasHeader, hlegacyHost, Option.any_some, decide_eq_false_iff_not,
              not_not] at hnone
            exact absurd (hlegacyHost.trans (congrArg some hnone)) hheader
        exact landing_current hc hwww hport hmoved hkept hsource hcurrent h.destination
      · rw [hphoto] at hknown
        cases hknown

end Landing

/-- **Redirects of the gateway do not chain.** -/
theorem gateway_redirects_once (r : Runtime) (env : GatewayEnv) (c : Configuration r)
    (hc : configure r env = some c)
    (hwww : ∀ url ∈ c.origins, www.isPrefixOf url.hostText = false)
    (hport : c.publicOrigin.port = none)
    (hlegacy : c.publicOrigin.hostText ∈ legacyHosts → env.staging = "false" ∧
      targetHost env c.publicOrigin = toUnits c.publicOrigin.hostText)
    (request : Request r) (hheader : request.legacyHost ≠ some []) (location : List Char)
    (h : gateway r env request = .redirect location) :
    ∃ url, parse r.hosts location = some url ∧ url.href = location ∧ url.scheme = .https ∧
      c.KnownHost url.hostText ∧
      ∀ follow, Follows url follow → ∀ next, gateway r env follow ≠ .redirect next := by
  obtain ⟨-, url, hredirected, rfl⟩ := redirected_of_gateway hc h
  have hlanding := landing_of_redirected (configure_sound hc) hwww hport hlegacy hheader hredirected
  refine ⟨url, parse_href url hlanding.username hlanding.password, rfl, hlanding.scheme,
    hlanding.host, fun follow hfollow next => ?_⟩
  have hcanonical : www.isPrefixOf url.hostText = false := by
    rcases hlanding.host with hhost | hhost
    · obtain ⟨origin, horigin, heq⟩ := List.mem_map.mp hhost
      rw [← heq]
      exact hwww origin horigin
    · exact not_www_of_legacy _ hhost
  exact not_redirected hc hfollow hlanding.scheme hcanonical (hlanding.settled follow hfollow) next

/-! ## Runs of the gateway -/

/-- An artifact: its JSON text, the digest of this and its value. -/
structure Artifact where
  json : List Char
  digest : List Char
  value : Value

/-- A runtime, as far as it is asked about the artifact and plain domains. -/
def Artifact.runtime (artifact : Artifact) : Runtime where
  hosts := .plain
  digest text := if text = artifact.json then artifact.digest else []
  parseJson text := if text = artifact.json then some artifact.value else none

/-- A configuration with an artifact, on the live hosts but for the public one. -/
def Artifact.env (artifact : Artifact) (staging publicOrigin targetHost : String) :
    GatewayEnv where
  staging := staging
  originUrl := "https://origin.invalid".toList
  originVerifySecret := List.replicate 32 's'
  publicOrigin := publicOrigin.toList
  clientOrigin := "https://my.makler-realty.com".toList
  staffOrigin := "https://app.makler-realty.com".toList
  legacyRoutesJson := artifact.json
  legacyRoutesSha256 := artifact.digest
  legacyTargetHost := some targetHost.toList

/-- A page that is moved, as JSON. -/
def movedJson (host path targetHost targetPath : String) : List Char :=
  let field (name value : String) : List Char :=
    '"' :: name.toList ++ '"' :: ':' :: '"' :: value.toList ++ ['"', ',']
  '{' :: field "host" host ++ field "path" path ++ field "query" "" ++
    field "targetHost" targetHost ++ field "targetPath" targetPath ++
    "\"status\":301".toList ++ ['}']

/-- A page that is moved, as a value. -/
def movedValue (host path targetHost targetPath : String) : Value :=
  .object [(units "host", .string (units host)), (units "path", .string (units path)),
    (units "query", .string []), (units "targetHost", .string (units targetHost)),
    (units "targetPath", .string (units targetPath)), (units "status", .number (some 301))]

/-- What the gateway answers to a `GET` of a URL. -/
def Artifact.answer (artifact : Artifact) (env : GatewayEnv) (url : String)
    (legacyHost : Option (List Char)) : Option (Answer artifact.runtime) :=
  (parse artifact.runtime.hosts url.toList).map fun url =>
    gateway artifact.runtime env { method := "GET", url, legacyHost, authorized := true }

/-- An artifact that moves an upload. -/
def uploadArtifact : Artifact where
  json := '[' :: movedJson "makler-realty.com" "/wp-content/uploads/a" "makler-realty.com" "/end" ++
    [']']
  digest := "836e0a22d1a702e4811b115cb7c8e7be".toList ++ "a77ebe66d51ce8b094d5e2f418114778".toList
  value := .array [movedValue "makler-realty.com" "/wp-content/uploads/a" "makler-realty.com" "/end"]

/-- The live configuration of this artifact. -/
def uploadEnv : GatewayEnv :=
  uploadArtifact.env "false" "https://makler-realty.com" "makler-realty.com"

theorem isSome_uploadConfiguration : (configure uploadArtifact.runtime uploadEnv).isSome = true := by
  decide +kernel

/-- What is read of the live configuration. -/
def uploadConfiguration : Configuration uploadArtifact.runtime :=
  (configure uploadArtifact.runtime uploadEnv).get isSome_uploadConfiguration

theorem isSome_uploadUrl : (parse uploadArtifact.runtime.hosts
    "http://www.makler-realty.com/wp-content/uploads/a".toList).isSome = true := by decide +kernel

/-- A request for the upload, at a host and with a protocol that are not canonical. -/
def uploadRequest : Request uploadArtifact.runtime where
  method := "GET"
  url := (parse uploadArtifact.runtime.hosts
    "http://www.makler-realty.com/wp-content/uploads/a".toList).get isSome_uploadUrl
  legacyHost := none
  authorized := true

theorem gateway_redirects_once_upload :
    gateway uploadArtifact.runtime uploadEnv uploadRequest =
        .redirect "https://makler-realty.com/end".toList ∧
      ∃ url, parse uploadArtifact.runtime.hosts "https://makler-realty.com/end".toList = some url ∧
        ∀ follow, Follows url follow → ∀ next,
          gateway uploadArtifact.runtime uploadEnv follow ≠ .redirect next := by
  have hconditions :
      (∀ url ∈ uploadConfiguration.origins, www.isPrefixOf url.hostText = false) ∧
      uploadConfiguration.publicOrigin.port = none ∧
      targetHost uploadEnv uploadConfiguration.publicOrigin =
        toUnits uploadConfiguration.publicOrigin.hostText := by decide +kernel
  have hredirect : gateway uploadArtifact.runtime uploadEnv uploadRequest =
      .redirect "https://makler-realty.com/end".toList := by decide +kernel
  obtain ⟨hwww, hport, htarget⟩ := hconditions
  obtain ⟨url, hparse, -, -, -, hsettled⟩ := gateway_redirects_once _ uploadEnv
    uploadConfiguration (Option.some_get isSome_uploadConfiguration).symm hwww hport
    (fun _ => ⟨rfl, htarget⟩) uploadRequest nofun _ hredirect
  exact ⟨hredirect, url, hparse, hsettled⟩

/-- An artifact for a target host of another name, in which a page is moved to itself. -/
def renamedArtifact : Artifact where
  json := '[' :: movedJson "makler-realty.com" "/old" "pages.invalid" "/old" ++ [']']
  digest := "88c7a2a943aff0ab8a26e56bc8e537df".toList ++ "7424b44bf70b8537ffaa9130942059fc".toList
  value := .array [movedValue "makler-realty.com" "/old" "pages.invalid" "/old"]

/-- The same artifact on staging, with a legacy host as the public one. -/
def stagingEnv : GatewayEnv :=
  uploadArtifact.env "true" "https://makler-realty.com" "makler-realty.com"

/-- Four redirects that do not settle: a page is moved to itself where the target host of the
artifact is not the public one; on staging, an upload of one legacy host leads to a page of the
public one, which is a legacy host too; a port of the public origin is left on another host; and
an empty header hides the rule for the page. -/
theorem gateway_chains :
    renamedArtifact.answer
        (renamedArtifact.env "false" "https://makler-realty.com" "pages.invalid")
        "https://makler-realty.com/old" none =
      some (.redirect "https://makler-realty.com/old".toList) ∧
    (uploadArtifact.answer stagingEnv "http://makler-realty.ru/wp-content/uploads/a" none =
        some (.redirect "https://makler-realty.com/wp-content/uploads/a".toList) ∧
      uploadArtifact.answer stagingEnv "https://makler-realty.com/wp-content/uploads/a" none =
        some (.redirect "https://makler-realty.com/end".toList)) ∧
    (uploadArtifact.answer
        (uploadArtifact.env "false" "https://makler-realty.com:8443" "makler-realty.com")
        "http://my.makler-realty.com/" none =
        some (.redirect "https://my.makler-realty.com:8443/".toList) ∧
      "my.makler-realty.com:8443" ∉ ["makler-realty.com:8443", "my.makler-realty.com",
        "app.makler-realty.com", "makler-realty.com", "makler-realty.ru"]) ∧
    uploadArtifact.answer uploadEnv "http://makler-realty.com/wp-content/uploads/a" (some []) =
      some (.redirect "https://makler-realty.com/wp-content/uploads/a".toList) ∧
    uploadArtifact.answer uploadEnv "https://makler-realty.com/wp-content/uploads/a" none =
      some (.redirect "https://makler-realty.com/end".toList) := by
  refine ⟨?_, ⟨?_, ?_⟩, ⟨?_, by decide⟩, ?_, ?_⟩ <;> decide +kernel

end Gateway
