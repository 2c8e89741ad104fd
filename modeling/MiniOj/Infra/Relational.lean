import MiniOj.Infra.Program
import Mathlib.Data.List.Forall2

/-!
# Two runs side by side

Two programs, or one program twice, are run from two states; the states are related by `R` and
stay so.

* `Agree` — results related by `Q` or the same exception, and related states, at the end of both
* `Agree.bind` and its companions — the rules
* `Only.agree` — one program run twice, when its calls answer the same
* `trace` — the calls that a run makes
-/

namespace MiniOj.Infra.Program

variable {Cmd : Type} {Reply : Cmd → Type} {ε σ τ α β γ δ : Type}

/-- Results related by `Q`, or the same exception. -/
def SameOutcome (Q : α → β → Prop) : Except ε α → Except ε β → Prop
  | .ok a, .ok b => Q a b
  | .error e, .error e' => e = e'
  | _, _ => False

theorem sameOutcome_eq {x y : Except ε α} : SameOutcome (· = ·) x y ↔ x = y := by
  cases x <;> cases y <;> simp [SameOutcome]

section Agree

variable (exec : (c : Cmd) → σ → Reply c × σ) (exec' : (c : Cmd) → τ → Reply c × τ)
  (R : σ → τ → Prop)

/-- From related states, `p` and `q` come to the same outcome and to related states. -/
def Agree (Q : α → β → Prop) (p : Program Cmd Reply ε α) (q : Program Cmd Reply ε β) : Prop :=
  ∀ s t, R s t → SameOutcome Q (p.run exec s).1 (q.run exec' t).1 ∧
    R (p.run exec s).2 (q.run exec' t).2

/-- A call that answers related replies and keeps the states related. -/
def Parallel (c : Cmd) (P : Reply c → Reply c → Prop) : Prop :=
  ∀ s t, R s t → P (exec c s).1 (exec' c t).1 ∧ R (exec c s).2 (exec' c t).2

variable {exec exec' R} {Q : α → β → Prop} {p : Program Cmd Reply ε α} {q : Program Cmd Reply ε β}

theorem Agree.ret {a : α} {b : β} (h : Q a b) :
    Agree exec exec' R Q (ret a : Program Cmd Reply ε α) (ret b) :=
  fun _ _ hst => ⟨h, hst⟩

theorem Agree.throw (e : ε) : Agree exec exec' R Q (throw e : Program Cmd Reply ε α) (throw e) :=
  fun _ _ hst => ⟨rfl, hst⟩

/-- The same call on both sides, and then programs that agree on related replies. -/
theorem Agree.call {c : Cmd} {P : Reply c → Reply c → Prop} (hc : Parallel exec exec' R c P)
    {k : Reply c → Program Cmd Reply ε α} {k' : Reply c → Program Cmd Reply ε β}
    (hk : ∀ r r', P r r' → Agree exec exec' R Q (k r) (k' r')) :
    Agree exec exec' R Q (call c k) (call c k') := by
  intro s t hst
  obtain ⟨hp, hr⟩ := hc s t hst
  exact hk _ _ hp _ _ hr

/-- Sequences agree when their parts do. -/
theorem Agree.bind {P : γ → δ → Prop} (hpq : Agree exec exec' R Q p q)
    {f : α → Program Cmd Reply ε γ} {g : β → Program Cmd Reply ε δ}
    (hfg : ∀ a b, Q a b → Agree exec exec' R P (f a) (g b)) :
    Agree exec exec' R P (p >>= f) (q >>= g) := by
  intro s t hst
  obtain ⟨ho, hr⟩ := hpq s t hst
  rw [run_bind, run_bind]
  generalize p.run exec s = x at ho hr
  generalize q.run exec' t = y at ho hr
  obtain ⟨x, s'⟩ := x
  obtain ⟨y, t'⟩ := y
  cases x <;> cases y
  · exact ⟨ho, hr⟩
  · exact ho.elim
  · exact ho.elim
  · exact hfg _ _ ho _ _ hr

theorem run_andFinally_bind (exec : (c : Cmd) → σ → Reply c × σ) (p : Program Cmd Reply ε α)
    (last : Program Cmd Reply ε Unit) (s : σ) : (p.andFinally last).run exec s =
      match p.run exec s with
      | (.ok a, s') => (last >>= fun _ => ret a).run exec s'
      | (.error e, s') => (last >>= fun _ => throw e).run exec s' := by
  induction p generalizing s with
  | ret a => rfl
  | throw e => rfl
  | call c k ih => exact ih _ _

/-- What is done at the end agrees with itself. -/
theorem Agree.andFinally (hpq : Agree exec exec' R Q p q) {last : Program Cmd Reply ε Unit}
    (hl : Agree exec exec' R (· = ·) last last) :
    Agree exec exec' R Q (p.andFinally last) (q.andFinally last) := by
  intro s t hst
  obtain ⟨ho, hr⟩ := hpq s t hst
  rw [run_andFinally_bind, run_andFinally_bind]
  generalize p.run exec s = x at ho hr
  generalize q.run exec' t = y at ho hr
  obtain ⟨x, s'⟩ := x
  obtain ⟨y, t'⟩ := y
  cases x <;> cases y
  · cases ho
    exact Agree.bind (P := Q) hl (fun _ _ _ => .throw _) s' t' hr
  · exact ho.elim
  · exact ho.elim
  · exact Agree.bind (P := Q) hl (fun _ _ _ => .ret ho) s' t' hr

/-- **One program run twice**: when its calls answer the same, so does the program. -/
theorem Only.agree {ok : Cmd → Prop} (h : ∀ c, ok c → Parallel exec exec' R c (· = ·))
    {p : Program Cmd Reply ε α} (hp : p.Only ok) : Agree exec exec' R (· = ·) p p := by
  induction p with
  | ret a => exact .ret rfl
  | throw e => exact .throw e
  | call c k ih =>
    refine .call (h c hp.1) fun r r' hr => ?_
    subst hr
    exact ih r (hp.2 r)

end Agree

/-! ## The calls of a run -/

variable (exec : (c : Cmd) → σ → Reply c × σ)

/-- The calls that a run makes, in order. -/
def trace : Program Cmd Reply ε α → σ → List Cmd
  | ret _, _ => []
  | throw _, _ => []
  | call c k, s => c :: (k (exec c s).1).trace (exec c s).2

variable {exec}

@[simp] theorem trace_pure (a : α) (s : σ) :
    trace exec (pure a : Program Cmd Reply ε α) s = [] := rfl

/-- The calls of a sequence; after a throw there are none. -/
theorem trace_bind (p : Program Cmd Reply ε α) (f : α → Program Cmd Reply ε β) (s : σ) :
    trace exec (p >>= f) s = trace exec p s ++
      match p.run exec s with
      | (.ok a, s') => trace exec (f a) s'
      | (.error _, _) => [] := by
  induction p generalizing s with
  | ret a => rfl
  | throw e => rfl
  | call c k ih => exact congrArg (c :: ·) (ih _ _)

/-- A program makes no call that it may not make. -/
theorem Only.trace {ok : Cmd → Prop} {p : Program Cmd Reply ε α} (hp : p.Only ok) :
    ∀ {s : σ} {c : Cmd}, c ∈ p.trace exec s → ok c := by
  induction p with
  | ret a => intro s c h; cases h
  | throw e => intro s c h; cases h
  | call d k ih =>
    intro s c h
    rcases List.mem_cons.mp h with rfl | h
    · exact hp.1
    · exact ih _ (hp.2 _) h

end MiniOj.Infra.Program
