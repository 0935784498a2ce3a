import LeaveCli.Host.OpenRoute

/-!
# Registration and attachment address one relay

Both addresses are cut from the relay's URL as text. `attach` puts `ws` in the place of every `http`
in it, so that the endpoint it dials is `RelayUrl.endpoint`, with the authority and the base path so
edited (`split_attachEndpoint`). They are those of the registration exactly when neither has `http`
in it (`sameRelay_iff`).
-/

namespace LeaveCli.Host

open Lib Transport

/-- A relay's URL: `http(s)://authority/base-path`. -/
structure RelayUrl where
  secure : Bool
  authority : Str
  /-- Empty, or from its first slash on. -/
  path : Str
  authority_ne : authority ≠ []
  authority_ends : ∀ c ∈ authority, endsAuthority c = false
  path_starts : ∀ c ∈ path.head?, c = '/'

namespace RelayUrl

variable (url : RelayUrl)

def scheme : Str := if url.secure then "https" else "http"

def text : Str := (⟨url.scheme, url.authority, url.path⟩ : UrlParts).text

/-- The path without the slashes at its end. -/
def basePath : Str := trimEndSlashes url.path

end RelayUrl

/-- The registration and the endpoint differ in nothing but the scheme and the final path. -/
structure SameRelay (registration endpoint : UrlParts) (routeId : Str) : Prop where
  scheme : registration.scheme = "http" ∧ endpoint.scheme = "ws" ∨
    registration.scheme = "https" ∧ endpoint.scheme = "wss"
  authority : endpoint.authority = registration.authority
  base : ∃ base, registration.target = base ++ ("/api/v1/routes" : Str) ∧
    endpoint.target = base ++ ("/api/v1/ws/" : Str) ++ routeId

/-! ## The two addresses -/

section

variable (url : RelayUrl)

theorem trimEndSlashes_append {s : Str} (hlast : ∀ hne : s ≠ [], s.getLast hne ≠ '/') (t : Str) :
    trimEndSlashes (s ++ t) = s ++ trimEndSlashes t := by
  unfold trimEndSlashes
  induction t using List.reverseRecOn with
  | nil =>
    rw [List.append_nil, List.rdropWhile_nil, List.append_nil, List.rdropWhile_eq_self_iff]
    intro hne
    simpa using hlast hne
  | append_singleton t c ih =>
    rw [← List.append_assoc]
    by_cases hc : c = '/'
    · rw [List.rdropWhile_concat_pos _ _ _ (by simpa using hc),
        List.rdropWhile_concat_pos _ _ _ (by simpa using hc), ih]
    · rw [List.rdropWhile_concat_neg _ _ _ (by simpa using hc),
        List.rdropWhile_concat_neg _ _ _ (by simpa using hc)]
      exact List.append_assoc ..

theorem trimEndSlashes_text :
    trimEndSlashes url.text = (⟨url.scheme, url.authority, url.basePath⟩ : UrlParts).text := by
  apply trimEndSlashes_append
  intro hne hslash
  rw [List.getLast_append_of_ne_nil hne url.authority_ne] at hslash
  have hends := url.authority_ends _ (List.getLast_mem url.authority_ne)
  rw [hslash] at hends
  exact absurd hends (by decide)

/-- A path: empty, or from its first slash on. -/
def Rooted (path : Str) : Prop := ∀ c ∈ path.head?, c = '/'

theorem Rooted.cases {path : Str} (h : Rooted path) : path = [] ∨ ∃ rest, path = '/' :: rest := by
  cases path with
  | nil => exact .inl rfl
  | cons c rest => exact .inr ⟨rest, by rw [h c rfl]⟩

theorem Rooted.ends {path : Str} (h : Rooted path) (rest : Str) :
    ∀ c ∈ (path ++ '/' :: rest).head?, endsAuthority c = true := by
  intro c hc
  rcases h.cases with rfl | ⟨more, rfl⟩
  · rw [← Option.some.inj hc]
    rfl
  · rw [← Option.some.inj hc]
    rfl

theorem rooted_basePath : Rooted url.basePath := by
  intro c hc
  apply url.path_starts c
  have hprefix : url.basePath <+: url.path := List.rdropWhile_prefix _ _
  obtain ⟨more, hmore⟩ := hprefix
  rw [← hmore, List.head?_append, Option.mem_def.1 hc]
  rfl

theorem replace_slash (path : Str) : replace ("http" : Str) ("ws" : Str) ('/' :: path) =
    '/' :: replace ("http" : Str) ("ws" : Str) path :=
  replace_append_of_head ['/'] (by decide) (by decide) path

theorem Rooted.replace {path : Str} (h : Rooted path) :
    Rooted (replace ("http" : Str) ("ws" : Str) path) := by
  rcases h.cases with rfl | ⟨rest, rfl⟩
  · intro c hc
    cases hc
  · intro c hc
    rw [replace_slash] at hc
    exact (Option.some.inj hc).symm

/-- `http` does not reach over the slashes. -/
theorem replace_text : replace ("http" : Str) ("ws" : Str) (trimEndSlashes url.text) =
    (⟨if url.secure then "wss" else "ws", replace ("http" : Str) ("ws" : Str) url.authority,
      replace ("http" : Str) ("ws" : Str) url.basePath⟩ : UrlParts).text := by
  have hne : ("http" : Str) ≠ [] := by decide
  have hrest : replace ("http" : Str) ("ws" : Str) (url.authority ++ url.basePath) =
      replace ("http" : Str) ("ws" : Str) url.authority ++
        replace ("http" : Str) ("ws" : Str) url.basePath := by
    rcases (rooted_basePath url).cases with hempty | ⟨path, hpath⟩
    · rw [hempty, List.append_nil, replace_nil, List.append_nil]
    · rw [hpath, replace_append_cons hne (by decide), replace_slash]
  rw [trimEndSlashes_text]
  unfold UrlParts.text RelayUrl.scheme
  simp only [List.append_assoc]
  cases url.secure with
  | false =>
    show Lib.replace ("http" : Str) ("ws" : Str) (("http" : Str) ++ (("://" : Str) ++ _)) = _
    rw [replace_pattern hne, replace_append_of_head "://".toList (by decide) hne, hrest]
    rfl
  | true =>
    show Lib.replace ("http" : Str) ("ws" : Str) (("http" : Str) ++ (("s://" : Str) ++ _)) = _
    rw [replace_pattern hne, replace_append_of_head "s://".toList (by decide) hne, hrest]
    rfl

theorem split_registrationUrl : UrlParts.split (registrationUrl url.text) =
    some ⟨url.scheme, url.authority, url.basePath ++ ("/api/v1/routes" : Str)⟩ := by
  have htext : registrationUrl url.text =
      (⟨url.scheme, url.authority, url.basePath ++ ("/api/v1/routes" : Str)⟩ : UrlParts).text := by
    rw [registrationUrl, trimEndSlashes_text, UrlParts.text, UrlParts.text, List.append_assoc]
  rw [htext]
  apply UrlParts.split_text
  exact {
    scheme := by
      show ':' ∉ url.scheme
      unfold RelayUrl.scheme
      split <;> decide
    authority := url.authority_ends
    target := (rooted_basePath url).ends _ }

theorem split_attachEndpoint (routeId : Str) :
    UrlParts.split (attachEndpoint url.text routeId) =
      some ⟨if url.secure then "wss" else "ws", replace ("http" : Str) ("ws" : Str) url.authority,
        replace ("http" : Str) ("ws" : Str) url.basePath ++ ("/api/v1/ws/" : Str) ++ routeId⟩ := by
  have htext : attachEndpoint url.text routeId =
      (⟨if url.secure then "wss" else "ws", replace ("http" : Str) ("ws" : Str) url.authority,
        replace ("http" : Str) ("ws" : Str) url.basePath ++ ("/api/v1/ws/" : Str) ++ routeId⟩ :
        UrlParts).text := by
    rw [attachEndpoint, replace_text, UrlParts.text, UrlParts.text]
    simp only [List.append_assoc]
  rw [htext]
  apply UrlParts.split_text
  exact {
    scheme := by
      show ':' ∉ (if url.secure then ("wss" : Str) else "ws")
      split <;> decide
    authority := fun c hc => by
      rcases mem_of_mem_replace (by decide) hc with hc | hc
      · exact url.authority_ends c hc
      · exact (by decide : ∀ c ∈ ("ws" : Str), endsAuthority c = false) c hc
    target := by
      rw [List.append_assoc]
      exact (rooted_basePath url).replace.ends _ }

end

/-- The endpoint is that of the relay the route was registered with exactly when there is no further
`http` in the relay's URL. `open_route` sends to these two addresses only, and the token to the
second. -/
theorem sameRelay_iff (url : RelayUrl) (routeId : Str) :
    ((∃ registration endpoint, UrlParts.split (registrationUrl url.text) = some registration ∧
        UrlParts.split (attachEndpoint url.text routeId) = some endpoint ∧
        SameRelay registration endpoint routeId) ↔
      ¬ ("http" : Str) <:+: url.authority ∧ ¬ ("http" : Str) <:+: url.basePath) ∧
    ∀ (network : RelayNetwork) (secret : Str),
      ∀ outbound ∈ (openRoute network ⟨url.text, secret⟩).emitted,
        outbound = .post (registrationUrl url.text) [("x-leave-registration-secret", secret)] ∨
        ∃ registered, network.registered = .ok registered ∧
          outbound = .dial ⟨attachEndpoint url.text registered.routeId,
            [(routeTokenHeader, registered.token)]⟩ := by
  refine ⟨?_, fun network secret outbound houtbound => mem_openRoute houtbound⟩
  have hlt : ("ws" : Str).length < ("http" : Str).length := by decide
  rw [← replace_eq_self_iff hlt, ← replace_eq_self_iff hlt]
  constructor
  · intro hcase
    obtain ⟨registration, endpoint, hregistration, hendpoint, hsame⟩ := hcase
    rw [split_registrationUrl] at hregistration
    rw [split_attachEndpoint] at hendpoint
    obtain rfl := Option.some.inj hregistration
    obtain rfl := Option.some.inj hendpoint
    obtain ⟨base, hbase, hbase'⟩ := hsame.base
    have hreplaced : replace ("http" : Str) ("ws" : Str) url.basePath = base := by
      rw [List.append_assoc, List.append_assoc] at hbase'
      exact List.append_cancel_right hbase'
    refine ⟨hsame.authority, ?_⟩
    rw [hreplaced]
    exact (List.append_cancel_right hbase).symm
  · intro hkept
    obtain ⟨hauthority, hbase⟩ := hkept
    refine ⟨_, _, split_registrationUrl url, split_attachEndpoint url routeId, ?_⟩
    exact {
      scheme := by
        unfold RelayUrl.scheme
        cases url.secure with
        | false => exact .inl ⟨rfl, rfl⟩
        | true => exact .inr ⟨rfl, rfl⟩
      authority := hauthority
      base := ⟨url.basePath, rfl, by rw [hbase]⟩ }

/-- A relay behind a host name with `http` in it. -/
def proxiedRelay : RelayUrl where
  secure := true
  authority := "relay.httpbin.example"
  path := []
  authority_ne := by decide
  authority_ends := by decide
  path_starts := by decide

/-- The token of a route on `relay.httpbin.example` is sent to `relay.wsbin.example`. -/
theorem proxiedRelay_elsewhere :
    UrlParts.split (registrationUrl proxiedRelay.text) =
      some ⟨"https", "relay.httpbin.example", "/api/v1/routes"⟩ ∧
    UrlParts.split (attachEndpoint proxiedRelay.text "route-1") =
      some ⟨"wss", "relay.wsbin.example", "/api/v1/ws/route-1"⟩ ∧
    ¬ ∃ registration endpoint,
      UrlParts.split (registrationUrl proxiedRelay.text) = some registration ∧
        UrlParts.split (attachEndpoint proxiedRelay.text "route-1") = some endpoint ∧
        SameRelay registration endpoint "route-1" := by
  have hregistered : UrlParts.split (registrationUrl proxiedRelay.text) =
      some ⟨"https", "relay.httpbin.example", "/api/v1/routes"⟩ := by decide
  have hdialled : UrlParts.split (attachEndpoint proxiedRelay.text "route-1") =
      some ⟨"wss", "relay.wsbin.example", "/api/v1/ws/route-1"⟩ := by decide
  refine ⟨hregistered, hdialled, fun hcase => ?_⟩
  obtain ⟨registration, endpoint, hregistration, hendpoint, hsame⟩ := hcase
  rw [hregistered] at hregistration
  rw [hdialled] at hendpoint
  obtain rfl := Option.some.inj hregistration
  obtain rfl := Option.some.inj hendpoint
  exact absurd hsame.authority (by decide)

end LeaveCli.Host
