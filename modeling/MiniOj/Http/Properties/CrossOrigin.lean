import MiniOj.Http.Properties.Calls
import MiniOj.Http.Properties.Csrf

/-!
# Requests from other origins

The guard looks at four methods only, so that every handler of the others has to leave the
tables alone.

* `reads_routing_of_foreign` — the calls behind a request with a foreign `Origin`
* `foreign_origin_changes_nothing`
-/

namespace MiniOj.Http

open Infra Db

variable {env : Env} {cfg : Config} {req : Request}

/-- The request carries an `Origin` that `checkCsrf` does not trust. -/
def Foreign (cfg : Config) (req : Request) : Prop :=
  req.getHeaderValue "Origin" ≠ [] ∧
    req.getHeaderValue "Origin" ∉ trustedOrigins cfg.trustedOrigins cfg.http

instance : Decidable (Foreign cfg req) := inferInstanceAs (Decidable (_ ∧ _))

/-- What a method that the guard does not look at can reach. -/
theorem reads_handlerOf {handler : Handler Response} (hm : isStateChanging req.method = false)
    (h : handlerOf cfg req = some handler) : handler.Only Call.Reads := by
  obtain ⟨table, htable, hdispatch⟩ := Option.bind_eq_some_iff.mp h
  have hne : ∀ method, isStateChanging method = true → req.method ≠ method := by
    rintro method hmethod rfl
    rw [hmethod] at hm
    cases hm
  unfold Routes.table at htable
  rw [if_neg (hne (utf8 "POST") (by decide)), if_neg (hne (utf8 "PUT") (by decide)),
    if_neg (hne (utf8 "DELETE") (by decide))] at htable
  split at htable
  · cases htable
    exact reads_of_get hdispatch
  · split at htable
    · cases htable
      cases hdispatch
    · cases htable

/-- **A request from a foreign origin only reads.** -/
theorem reads_routing_of_foreign (h : Foreign cfg req) : (routing cfg req).Only Call.Reads := by
  unfold routing
  cases hm : isStateChanging req.method with
  | true =>
    -- the guard answers, if the rate limiter has not
    obtain ⟨refused, hrefused⟩ : ∃ r, checkCsrf cfg.trustedOrigins cfg.http req = some r := by
      refine Option.ne_none_iff_exists'.mp fun hnone => ?_
      exact h.2 (checkCsrf_eq_none_iff.mp hnone hm h.1)
    refine ⟨trivial, fun r => ?_⟩
    cases r with
    | some refused => trivial
    | none =>
      dsimp only
      rw [hrefused]
      trivial
  | false =>
    refine Program.Only.bind (reads_preRouting cfg req) fun handled => ?_
    cases handled with
    | some res => trivial
    | none =>
      dsimp only
      split
      · next handler hhandler => exact reads_handlerOf hm hhandler
      · trivial

/-- **Requests from foreign origins change nothing.** Whatever the database holds and whichever
statements fail, the six tables are afterwards as they were. -/
theorem foreign_origin_changes_nothing (env : Env) (cfg : Config) (b : Backend) (req : Request)
    (h : Foreign cfg req) : b.SameTables ((routing cfg req).run env.exec b).2 :=
  run_reads (reads_routing_of_foreign h) b

/-! ## A page that deletes problems -/

/-- A configuration without a password hash and without a seed file. -/
def bareConfig : Config where
  crypt := ⟨fun _ _ => none, fun _ _ => []⟩
  readJson := fun _ => .error (.invalid [])
  seed := ⟨utf8 "backend/seed/problems.json", none⟩

/-- Nothing fails, the random source is full of zeros, and every submission is accepted. -/
def calmEnv : Env where
  mysql := .healthy
  refusal := fun _ => []
  random := fun _ n => .ok (List.replicate n 0)
  judge := fun _ _ => .ok ⟨.AC, 0, 0, [], []⟩

/-- One problem and nobody registered. -/
def oneProblem : Backend where
  db := .resting
    { Bank.empty with problems := [⟨1, utf8 "A+B", [], .easy, 500, 256, 0, 0⟩] } ⟨2, 1, 1⟩
  accounts := ⟨[], [], 1⟩
  limiter := .create {}
  now := 0

def foreignDelete : Request where
  method := utf8 "DELETE"
  path := utf8 "/api/admin/problems/1"
  headers := [(utf8 "Origin", utf8 "http://evil.example")]
  remoteAddr := utf8 "192.0.2.1"

theorem foreign_origin_changes_nothing_delete :
    oneProblem.SameTables ((routing bareConfig foreignDelete).run calmEnv.exec oneProblem).2 :=
  foreign_origin_changes_nothing calmEnv bareConfig oneProblem foreignDelete (by decide)

end MiniOj.Http
