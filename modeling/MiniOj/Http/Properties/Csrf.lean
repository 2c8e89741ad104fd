import MiniOj.Http.Csrf

/-!
# Which origins the CSRF guard lets through

Without `CSRF_TRUSTED_ORIGINS` the guard compares the `Origin` header with the address the
server listens on, and not with the `Host` header of the request.

* `checkCsrf_eq_some_iff` — when a request is handled
* `checkCsrf_sameOrigin_iff` — when the guard tells the site's own pages from foreign ones
-/

namespace MiniOj.Http

open Infra

variable {env : Option Bytes} {cfg : HttpConfig} {req : Request}

/-- A request is handled when its origin is given and not trusted, and always with 403. -/
theorem checkCsrf_eq_some_iff (r : Response) : checkCsrf env cfg req = some r ↔
    isStateChanging req.method = true ∧ req.getHeaderValue "Origin" ≠ [] ∧
      req.getHeaderValue "Origin" ∉ trustedOrigins env cfg ∧
      writeError 403 (utf8 "cross-origin request rejected by CSRF guard") = r := by
  have hmem : originAllowed (req.getHeaderValue "Origin") (trustedOrigins env cfg) = true ↔
      req.getHeaderValue "Origin" ∈ trustedOrigins env cfg := by
    unfold originAllowed
    rw [List.any_eq_true]
    constructor
    · rintro ⟨t, ht, heq⟩
      rwa [eq_of_beq heq]
    · exact fun h => ⟨_, h, beq_self_eq_true _⟩
  unfold checkCsrf
  cases hs : isStateChanging req.method with
  | false => exact ⟨fun h => (nomatch h), fun h => absurd h.1 Bool.false_ne_true⟩
  | true =>
    rw [if_neg (by decide)]
    dsimp only
    by_cases ho : req.getHeaderValue "Origin" = []
    · rw [if_pos (List.isEmpty_iff.mpr ho)]
      exact ⟨fun h => (nomatch h), fun h => absurd ho h.2.1⟩
    · rw [if_neg fun h => ho (List.isEmpty_iff.mp h)]
      by_cases ht : req.getHeaderValue "Origin" ∈ trustedOrigins env cfg
      · rw [if_pos (hmem.mpr ht)]
        exact ⟨fun h => (nomatch h), fun h => absurd ht h.2.2.1⟩
      · rw [if_neg fun h => ht (hmem.mp h), Option.some.injEq]
        exact ⟨fun h => ⟨rfl, ho, ht, h⟩, fun h => h.2.2.2⟩

theorem checkCsrf_eq_none_iff : checkCsrf env cfg req = none ↔
    (isStateChanging req.method = true → req.getHeaderValue "Origin" ≠ [] →
      req.getHeaderValue "Origin" ∈ trustedOrigins env cfg) := by
  cases h : checkCsrf env cfg req with
  | none =>
    refine ⟨fun _ hs ho => ?_, fun _ => rfl⟩
    by_contra ht
    rw [(checkCsrf_eq_some_iff _).mpr ⟨hs, ho, ht, rfl⟩] at h
    cases h
  | some r =>
    obtain ⟨hs, ho, ht, -⟩ := (checkCsrf_eq_some_iff r).mp h
    exact ⟨fun h => (nomatch h), fun h => absurd (h hs ho) ht⟩

/-! ## Own pages and foreign ones -/

/-- The schemes of web pages. -/
def schemes : List Bytes := [utf8 "http://", utf8 "https://"]

/-- The origin is `http://` or `https://` and the `Host` header. -/
def SameOrigin (req : Request) : Prop :=
  ∃ scheme ∈ schemes, req.getHeaderValue "Origin" = scheme ++ req.getHeaderValue "Host"

/-- The host is the one the server listens on; for `0.0.0.0`, also the local ones over HTTP. -/
def NamesListener (cfg : HttpConfig) (scheme host : Bytes) : Prop :=
  host = (if cfg.host = [] then utf8 "localhost" else cfg.host) ∨
    cfg.host = utf8 "0.0.0.0" ∧ scheme = utf8 "http://" ∧
      (host = utf8 "localhost" ∨ host = utf8 "127.0.0.1")

/-- An origin names one host under one scheme. -/
theorem scheme_append_inj {s t x y : Bytes} (hs : s ∈ schemes) (ht : t ∈ schemes)
    (h : s ++ x = t ++ y) : s = t ∧ x = y := by
  have hother : ∀ x y : Bytes, utf8 "http://" ++ x ≠ utf8 "https://" ++ y := by
    intro x y h
    -- the fifth byte is `:` on one side and `s` on the other
    have h4 := congrArg (fun l : Bytes => l[4]?) h
    exact absurd h4 (by show some (58 : UInt8) ≠ some 115; decide)
  unfold schemes at hs ht
  rw [List.mem_cons, List.mem_singleton] at hs ht
  rcases hs with rfl | rfl <;> rcases ht with rfl | rfl
  · exact ⟨rfl, List.append_cancel_left h⟩
  · exact absurd h (hother x y)
  · exact absurd h.symm (hother y x)
  · exact ⟨rfl, List.append_cancel_left h⟩

/-- The default list trusts the listener, under the name it was given in the configuration. -/
theorem mem_defaultOrigins {origin : Bytes} : origin ∈ defaultOrigins cfg ↔
    ∃ scheme ∈ schemes, ∃ host, origin = scheme ++ host ∧ NamesListener cfg scheme host := by
  have hempty : (if cfg.host.isEmpty = true then utf8 "localhost" else cfg.host) =
      if cfg.host = [] then utf8 "localhost" else cfg.host := by
    cases cfg.host <;> rfl
  have hany : (if cfg.host = [] then utf8 "localhost" else cfg.host) = utf8 "0.0.0.0" ↔
      cfg.host = utf8 "0.0.0.0" := by
    split
    · next h =>
      rw [h]
      decide
    · exact Iff.rfl
  unfold defaultOrigins
  dsimp only
  rw [hempty, List.mem_append, List.mem_cons, List.mem_singleton]
  have hlocal : origin ∈ (if (if cfg.host = [] then utf8 "localhost" else cfg.host) =
      utf8 "0.0.0.0" then [utf8 "http://localhost", utf8 "http://127.0.0.1"] else []) ↔
      cfg.host = utf8 "0.0.0.0" ∧
        (origin = utf8 "http://" ++ utf8 "localhost" ∨
          origin = utf8 "http://" ++ utf8 "127.0.0.1") := by
    by_cases h0 : cfg.host = utf8 "0.0.0.0"
    · rw [if_pos (hany.mpr h0), List.mem_cons, List.mem_singleton]
      exact ⟨fun ho => ⟨h0, ho⟩, fun ho => ho.2⟩
    · rw [if_neg fun h => h0 (hany.mp h)]
      exact ⟨fun ho => (nomatch ho), fun ho => absurd ho.1 h0⟩
  rw [hlocal]
  constructor
  · rintro ((rfl | rfl) | ⟨h0, rfl | rfl⟩)
    · exact ⟨_, List.mem_cons_self, _, rfl, Or.inl rfl⟩
    · exact ⟨_, List.mem_cons_of_mem _ List.mem_cons_self, _, rfl, Or.inl rfl⟩
    · exact ⟨_, List.mem_cons_self, _, rfl, Or.inr ⟨h0, rfl, Or.inl rfl⟩⟩
    · exact ⟨_, List.mem_cons_self, _, rfl, Or.inr ⟨h0, rfl, Or.inr rfl⟩⟩
  · rintro ⟨scheme, hscheme, host, rfl, rfl | ⟨h0, rfl, rfl | rfl⟩⟩
    · unfold schemes at hscheme
      rw [List.mem_cons, List.mem_singleton] at hscheme
      rcases hscheme with rfl | rfl
      · exact Or.inl (Or.inl rfl)
      · exact Or.inl (Or.inr rfl)
    · exact Or.inr ⟨h0, Or.inl rfl⟩
    · exact Or.inr ⟨h0, Or.inr rfl⟩

/--
**When the guard tells own pages from foreign ones.**

Without `CSRF_TRUSTED_ORIGINS`: a request from a page of the site passes and one from any other
page is refused with 403, exactly when the host that the origin names is the `Host` of the
request if and only if it is the one the server listens on.
-/
theorem checkCsrf_sameOrigin_iff (cfg : HttpConfig) (req : Request)
    (hmethod : req.method ∈ [utf8 "POST", utf8 "PUT", utf8 "DELETE", utf8 "PATCH"]) :
    ((SameOrigin req → checkCsrf none cfg req = none) ∧
      (req.getHeaderValue "Origin" ≠ [] → ¬ SameOrigin req →
        ∃ r, checkCsrf none cfg req = some r ∧ r.status = 403)) ↔
    ∀ scheme ∈ schemes, ∀ host, req.getHeaderValue "Origin" = scheme ++ host →
      (host = req.getHeaderValue "Host" ↔ NamesListener cfg scheme host) := by
  have hchanging : isStateChanging req.method = true := by
    rcases List.mem_cons.mp hmethod with h | h
    · rw [h]
      decide
    rcases List.mem_cons.mp h with h | h
    · rw [h]
      decide
    rcases List.mem_cons.mp h with h | h
    · rw [h]
      decide
    · rw [List.mem_singleton.mp h]
      decide
  have htrusted : trustedOrigins none cfg = defaultOrigins cfg := rfl
  have hnonempty : ∀ scheme ∈ schemes, ∀ host : Bytes, scheme ++ host ≠ [] := by
    intro scheme hscheme host h
    obtain ⟨rfl, -⟩ := List.append_eq_nil_iff.mp h
    exact absurd hscheme (by decide)
  rw [checkCsrf_eq_none_iff, htrusted]
  constructor
  · rintro ⟨hown, hforeign⟩ scheme hscheme host horigin
    have hne : req.getHeaderValue "Origin" ≠ [] := by
      rw [horigin]
      exact hnonempty scheme hscheme host
    constructor
    · rintro rfl
      have hin := hown ⟨scheme, hscheme, horigin⟩ hchanging hne
      obtain ⟨scheme', hscheme', host', heq, hnames⟩ := mem_defaultOrigins.mp hin
      obtain ⟨rfl, rfl⟩ := scheme_append_inj hscheme hscheme' (horigin.symm.trans heq)
      exact hnames
    · intro hnames
      by_contra hother
      have hnot : ¬ SameOrigin req := by
        rintro ⟨scheme', hscheme', heq⟩
        exact hother (scheme_append_inj hscheme hscheme' (horigin.symm.trans heq)).2
      obtain ⟨r, hr, -⟩ := hforeign hne hnot
      exact ((checkCsrf_eq_some_iff r).mp hr).2.2.1
        (mem_defaultOrigins.mpr ⟨scheme, hscheme, host, horigin, hnames⟩)
  · intro h
    refine ⟨?_, ?_⟩
    · rintro ⟨scheme, hscheme, horigin⟩ - -
      exact mem_defaultOrigins.mpr
        ⟨scheme, hscheme, _, horigin, (h scheme hscheme _ horigin).mp rfl⟩
    · intro hne hnot
      refine ⟨_, (checkCsrf_eq_some_iff _).mpr ⟨hchanging, hne, fun hin => ?_, rfl⟩, rfl⟩
      obtain ⟨scheme, hscheme, host, horigin, hnames⟩ := mem_defaultOrigins.mp hin
      refine hnot ⟨scheme, hscheme, ?_⟩
      rw [horigin, (h scheme hscheme host horigin).mpr hnames]

/-- A server listening on `localhost`. -/
def localConfig : HttpConfig where
  host := utf8 "localhost"

/-- It is asked by that name and without a port. -/
def localLogin : Request where
  method := utf8 "POST"
  path := utf8 "/api/auth/login"
  remoteAddr := utf8 "127.0.0.1"
  headers := [(utf8 "Host", utf8 "localhost"), (utf8 "Origin", utf8 "http://localhost")]

theorem checkCsrf_sameOrigin_localhost :
    ((SameOrigin localLogin → checkCsrf none localConfig localLogin = none) ∧
      (localLogin.getHeaderValue "Origin" ≠ [] → ¬ SameOrigin localLogin →
        ∃ r, checkCsrf none localConfig localLogin = some r ∧ r.status = 403)) ↔
    ∀ scheme ∈ schemes, ∀ host, localLogin.getHeaderValue "Origin" = scheme ++ host →
      (host = localLogin.getHeaderValue "Host" ↔ NamesListener localConfig scheme host) :=
  checkCsrf_sameOrigin_iff localConfig localLogin (by decide)

/-- A browser on the site's own login page: the server listens on `127.0.0.1:8080`, and the
port is part of `Host` and of `Origin`. -/
theorem checkCsrf_rejects_own_page : ¬ ∀ (cfg : HttpConfig) (req : Request),
    req.method ∈ [utf8 "POST", utf8 "PUT", utf8 "DELETE", utf8 "PATCH"] →
      (SameOrigin req → checkCsrf none cfg req = none) ∧
      (req.getHeaderValue "Origin" ≠ [] → ¬ SameOrigin req →
        ∃ r, checkCsrf none cfg req = some r ∧ r.status = 403) := by
  intro h
  have hown := (h { host := utf8 "127.0.0.1" } {
    method := utf8 "POST", path := utf8 "/api/auth/login", remoteAddr := utf8 "127.0.0.1"
    headers := [(utf8 "Host", utf8 "127.0.0.1:8080"),
      (utf8 "Origin", utf8 "http://127.0.0.1:8080")] } (by decide)).1
  have hpass := checkCsrf_eq_none_iff.mp
    (hown ⟨utf8 "http://", List.mem_cons_self, by decide⟩) (by decide) (by decide)
  exact absurd hpass (by decide)

end MiniOj.Http
