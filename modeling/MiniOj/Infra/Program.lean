import MiniOj.Infra.Transition

/-!
# Programs that call on a shared state

A program returns, throws, or makes a call and goes on with the reply. Such a tree can be run
to its end (`run`), or call by call while others change the state between two calls
(`interleave`).

* `Program.andFinally`, `Program.onThrow` — destructors
* `run_bind` and its companions — a run follows the structure of the program
* `Only ok` — every call that the program can make is one of `ok`
* `Ends` — what a run comes to, with a rule for each construct
* `Under rely` — what a program guarantees when the others move the state along `rely`
* `under_of_reachable` — the guarantee holds in every interleaving
-/

namespace MiniOj.Infra

/-- A program that makes calls `c : Cmd` with replies in `Reply c`. -/
inductive Program (Cmd : Type) (Reply : Cmd → Type) (ε α : Type) where
  | ret (a : α)
  | throw (e : ε)
  | call (c : Cmd) (k : Reply c → Program Cmd Reply ε α)

namespace Program

variable {Cmd : Type} {Reply : Cmd → Type} {ε σ α β : Type}

/-- The second program goes on after the first. -/
def bind : Program Cmd Reply ε α → (α → Program Cmd Reply ε β) → Program Cmd Reply ε β
  | ret a, f => f a
  | throw e, _ => throw e
  | call c k, f => call c fun r => (k r).bind f

instance : Monad (Program Cmd Reply ε) where
  pure := ret
  bind := bind

/-- Sequencing is associative. -/
theorem bind_assoc {γ : Type} (p : Program Cmd Reply ε α) (f : α → Program Cmd Reply ε β)
    (g : β → Program Cmd Reply ε γ) : (p >>= f) >>= g = p >>= fun a => f a >>= g := by
  induction p with
  | ret a => rfl
  | throw e => rfl
  | call c k ih => exact congrArg (call c) (funext fun r => ih r)

/-- A value at the end changes nothing. -/
theorem bind_ret (p : Program Cmd Reply ε α) : p >>= ret = p := by
  induction p with
  | ret a => rfl
  | throw e => rfl
  | call c k ih => exact congrArg (call c) (funext fun r => ih r)

instance : LawfulMonad (Program Cmd Reply ε) :=
  .mk' _ (fun p => bind_ret p) (fun _ _ => rfl) (fun p f g => bind_assoc p f g)

/-- `try { p } catch (e) { handler(e) }`. -/
def tryCatch : Program Cmd Reply ε α → (ε → Program Cmd Reply ε α) → Program Cmd Reply ε α
  | ret a, _ => ret a
  | throw e, handler => handler e
  | call c k, handler => call c fun r => (k r).tryCatch handler

/-- Run `last` when `p` is left by an exception. -/
def onThrow (p : Program Cmd Reply ε α) (last : Program Cmd Reply ε Unit) : Program Cmd Reply ε α :=
  p.tryCatch fun e => last.bind fun _ => throw e

/-- Run `last` when the program is left, by return or by exception. -/
def andFinally : Program Cmd Reply ε α → Program Cmd Reply ε Unit → Program Cmd Reply ε α
  | ret a, last => last.bind fun _ => ret a
  | throw e, last => last.bind fun _ => throw e
  | call c k, last => call c fun r => (k r).andFinally last

/-- Replace every call by a program that makes other calls. -/
def expand {Cmd' : Type} {Reply' : Cmd' → Type}
    (h : (c : Cmd) → Program Cmd' Reply' ε (Reply c)) :
    Program Cmd Reply ε α → Program Cmd' Reply' ε α
  | ret a => ret a
  | throw e => throw e
  | call c k => h c >>= fun r => (k r).expand h

/-- Calls are expanded in both parts. -/
@[simp] theorem expand_bind {Cmd' : Type} {Reply' : Cmd' → Type}
    (h : (c : Cmd) → Program Cmd' Reply' ε (Reply c)) (p : Program Cmd Reply ε α)
    (f : α → Program Cmd Reply ε β) :
    (p >>= f).expand h = p.expand h >>= fun a => (f a).expand h := by
  induction p with
  | ret a => rfl
  | throw e => rfl
  | call c k ih =>
    show (h c >>= fun r => (k r >>= f).expand h) =
      (h c >>= fun r => (k r).expand h) >>= fun a => (f a).expand h
    rw [bind_assoc]
    exact congrArg (h c >>= ·) (funext ih)

/-! ## Runs -/

variable (exec : (c : Cmd) → σ → Reply c × σ)

/-- Run the program with nobody else at work. -/
def run : Program Cmd Reply ε α → σ → Except ε α × σ
  | ret a, s => (.ok a, s)
  | throw e, s => (.error e, s)
  | call c k, s => (k (exec c s).1).run (exec c s).2

/-- A call, and then what comes after its answer. -/
theorem run_call (c : Cmd) (k : Reply c → Program Cmd Reply ε α) (s : σ) :
    run exec (call c k) s = run exec (k (exec c s).1) (exec c s).2 := rfl

/-- **The rule for sequencing.** -/
theorem run_bind (p : Program Cmd Reply ε α) (f : α → Program Cmd Reply ε β) (s : σ) :
    run exec (p >>= f) s =
      match run exec p s with
      | (.ok a, s') => run exec (f a) s'
      | (.error e, s') => (.error e, s') := by
  induction p generalizing s with
  | ret a => rfl
  | throw e => rfl
  | call c k ih => exact ih _ _

/-- **The rule for handlers of exceptions.** -/
theorem run_tryCatch (p : Program Cmd Reply ε α) (handler : ε → Program Cmd Reply ε α) (s : σ) :
    run exec (p.tryCatch handler) s =
      match run exec p s with
      | (.ok a, s') => (.ok a, s')
      | (.error e, s') => run exec (handler e) s' := by
  induction p generalizing s with
  | ret a => rfl
  | throw e => rfl
  | call c k ih => exact ih _ _

/-- A destructor that cannot fail takes every state to `f` of it. -/
def Always (last : Program Cmd Reply ε Unit) (f : σ → σ) : Prop :=
  ∀ s, run exec last s = (.ok (), f s)

variable {exec}

/-- A clean-up that runs only when there is an exception. -/
theorem run_onThrow {p : Program Cmd Reply ε α} {last : Program Cmd Reply ε Unit} {f : σ → σ}
    (h : Always exec last f) (s : σ) :
    run exec (p.onThrow last) s =
      match run exec p s with
      | (.ok a, s') => (.ok a, s')
      | (.error e, s') => (.error e, f s') := by
  rw [onThrow, run_tryCatch]
  split
  · rfl
  · next e s' _ =>
    exact (run_bind exec last (fun _ => throw e) s').trans (by rw [h s']; rfl)

/-- **The rule for destructors.** -/
theorem run_andFinally {p : Program Cmd Reply ε α} {last : Program Cmd Reply ε Unit} {f : σ → σ}
    (h : Always exec last f) (s : σ) :
    run exec (p.andFinally last) s = ((run exec p s).1, f (run exec p s).2) := by
  induction p generalizing s with
  | ret a => exact (run_bind exec last (fun _ => ret a) s).trans (by rw [h s]; rfl)
  | throw e => exact (run_bind exec last (fun _ => throw e) s).trans (by rw [h s]; rfl)
  | call c k ih => exact ih _ _

/-! ## What a run ends in -/

/-- The program, run alone from `s`, comes to an outcome and a state that meet `post`. -/
def Ends (exec : (c : Cmd) → σ → Reply c × σ) (p : Program Cmd Reply ε α) (s : σ)
    (post : Except ε α → σ → Prop) : Prop :=
  post (p.run exec s).1 (p.run exec s).2

/-- A weaker condition at the end. -/
theorem Ends.mono {p : Program Cmd Reply ε α} {s : σ} {post post' : Except ε α → σ → Prop}
    (h : Ends exec p s post) (hpost : ∀ r s', post r s' → post' r s') : Ends exec p s post' :=
  hpost _ _ h

theorem Ends.ret {a : α} {s : σ} {post : Except ε α → σ → Prop} (h : post (.ok a) s) :
    Ends exec (ret a) s post := h

theorem Ends.throw {e : ε} {s : σ} {post : Except ε α → σ → Prop} (h : post (.error e) s) :
    Ends exec (throw e) s post := h

/-- The rule for sequencing. -/
theorem Ends.bind {p : Program Cmd Reply ε α} {f : α → Program Cmd Reply ε β} {s : σ}
    {post : Except ε β → σ → Prop}
    (h : Ends exec p s fun r s' => match r with
      | .ok a => Ends exec (f a) s' post
      | .error e => post (.error e) s') : Ends exec (p >>= f) s post := by
  unfold Ends at h ⊢
  rw [run_bind]
  generalize p.run exec s = x at h ⊢
  obtain ⟨r, s'⟩ := x
  cases r <;> exact h

/-- The rule for destructors: one that throws replaces the outcome. -/
theorem Ends.andFinally {p : Program Cmd Reply ε α} {last : Program Cmd Reply ε Unit} {s : σ}
    {post : Except ε α → σ → Prop}
    (h : Ends exec p s fun r s' => Ends exec last s' fun r' s'' => match r' with
      | .ok _ => post r s''
      | .error e => post (.error e) s'') : Ends exec (p.andFinally last) s post := by
  induction p generalizing s with
  | ret a =>
    have hlast : Ends exec last s fun r' s'' => match r' with
      | .ok _ => post (.ok a) s''
      | .error e => post (.error e) s'' := h
    refine Ends.bind (p := last) (hlast.mono fun r s' hr => ?_)
    cases r <;> exact hr
  | throw e =>
    have hlast : Ends exec last s fun r' s'' => match r' with
      | .ok _ => post (.error e) s''
      | .error e' => post (.error e') s'' := h
    refine Ends.bind (p := last) (hlast.mono fun r s' hr => ?_)
    cases r <;> exact hr
  | call c k ih => exact ih (exec c s).1 h

/-! ## Calls of one kind -/

/-- Whatever the replies, the program makes only calls of `ok`. -/
def Only (ok : Cmd → Prop) : Program Cmd Reply ε α → Prop
  | ret _ => True
  | throw _ => True
  | call c k => ok c ∧ ∀ r, (k r).Only ok

/-- A wider set of calls. -/
theorem Only.mono {ok ok' : Cmd → Prop} (h : ∀ c, ok c → ok' c) {p : Program Cmd Reply ε α}
    (hp : p.Only ok) : p.Only ok' := by
  induction p with
  | ret a => trivial
  | throw e => trivial
  | call c k ih => exact ⟨h c hp.1, fun r => ih r (hp.2 r)⟩

variable {ok : Cmd → Prop}

/-- A program makes calls. -/
theorem Only.any (p : Program Cmd Reply ε α) : p.Only fun _ => True := by
  induction p with
  | ret a => trivial
  | throw e => trivial
  | call c k ih => exact ⟨trivial, ih⟩

theorem Only.pure (a : α) : (pure a : Program Cmd Reply ε α).Only ok := trivial

/-- The calls of both parts. -/
theorem Only.bind {p : Program Cmd Reply ε α} {f : α → Program Cmd Reply ε β} (hp : p.Only ok)
    (hf : ∀ a, (f a).Only ok) : (p >>= f).Only ok := by
  induction p with
  | ret a => exact hf a
  | throw e => trivial
  | call c k ih => exact ⟨hp.1, fun r => ih r (hp.2 r)⟩

/-- The calls of the program and of the handler. -/
theorem Only.tryCatch {p : Program Cmd Reply ε α} {handler : ε → Program Cmd Reply ε α}
    (hp : p.Only ok) (hh : ∀ e, (handler e).Only ok) : (p.tryCatch handler).Only ok := by
  induction p with
  | ret a => trivial
  | throw e => exact hh e
  | call c k ih => exact ⟨hp.1, fun r => ih r (hp.2 r)⟩

/-- The calls of the program and of the destructor. -/
theorem Only.andFinally {p : Program Cmd Reply ε α} {last : Program Cmd Reply ε Unit}
    (hp : p.Only ok) (hl : last.Only ok) : (p.andFinally last).Only ok := by
  induction p with
  | ret a => exact Only.bind hl fun _ => trivial
  | throw e => exact Only.bind hl fun _ => trivial
  | call c k ih => exact ⟨hp.1, fun r => ih r (hp.2 r)⟩

/-- The calls of all turns of a loop. -/
theorem Only.mapM {β : Type} {f : α → Program Cmd Reply ε β} (hf : ∀ a, (f a).Only ok)
    (as : List α) : (as.mapM f).Only ok := by
  induction as with
  | nil => exact Only.pure []
  | cons a as ih =>
    rw [List.mapM_cons]
    exact (hf a).bind fun b => ih.bind fun bs => Only.pure (b :: bs)

/-- **What every call of `ok` keeps, a run of them keeps.** -/
theorem Only.run {I : σ → Prop} (h : ∀ c s, ok c → I s → I (exec c s).2)
    {p : Program Cmd Reply ε α} (hp : p.Only ok) {s : σ} (hs : I s) : I (p.run exec s).2 := by
  induction p generalizing s with
  | ret a => exact hs
  | throw e => exact hs
  | call c k ih => exact ih _ (hp.2 _) (h c s hp.1 hs)

/-! ## Interleaving -/

variable (exec)

/-- The next call of the program (`none`), or a step of the environment. -/
def interleave (env : σ → β → Option σ) (c : Program Cmd Reply ε α × σ) :
    Option β → Option (Program Cmd Reply ε α × σ)
  | some b => (env c.2 b).map fun s' => (c.1, s')
  | none =>
    match c.1 with
    | call d k => some (k (exec d c.2).1, (exec d c.2).2)
    | _ => none

/-- Whatever steps along `rely` others take before each call and before the end, the outcome
meets `post`. -/
def Under (rely : σ → σ → Prop) (post : Except ε α → σ → Prop) :
    Program Cmd Reply ε α → σ → Prop
  | ret a, s => ∀ s', rely s s' → post (.ok a) s'
  | throw e, s => ∀ s', rely s s' → post (.error e) s'
  | call c k, s => ∀ s', rely s s' → (k (exec c s').1).Under rely post (exec c s').2

variable {exec} {rely : σ → σ → Prop} {post : Except ε α → σ → Prop}

/-- What holds under any interference holds after some of it. -/
theorem Under.later (htrans : ∀ s t u, rely s t → rely t u → rely s u)
    {p : Program Cmd Reply ε α} {s s' : σ} (h : Under exec rely post p s) (hs : rely s s') :
    Under exec rely post p s' := by
  cases p with
  | ret a => exact fun u hu => h u (htrans s s' u hs hu)
  | throw e => exact fun u hu => h u (htrans s s' u hs hu)
  | call c k => exact fun u hu => h u (htrans s s' u hs hu)

/-- The rule for sequencing: the second program starts where the first one ends. -/
theorem Under.bind (hrefl : ∀ s, rely s s) {post : Except ε β → σ → Prop}
    {p : Program Cmd Reply ε α} {f : α → Program Cmd Reply ε β} {s : σ}
    (h : Under exec rely (fun r s => match r with
      | .ok a => Under exec rely post (f a) s
      | .error e => Under exec rely post (throw e) s) p s) :
    Under exec rely post (p >>= f) s := by
  induction p generalizing s with
  | ret a => exact h s (hrefl s)
  | throw e => exact h s (hrefl s)
  | call c k ih => exact fun s' hs => ih _ (h s' hs)

/-- A weaker condition at the end. -/
theorem Under.mono {post' : Except ε α → σ → Prop} (hpost : ∀ r s, post r s → post' r s)
    {p : Program Cmd Reply ε α} {s : σ} (h : Under exec rely post p s) :
    Under exec rely post' p s := by
  induction p generalizing s with
  | ret a => exact fun s' hs => hpost _ _ (h s' hs)
  | throw e => exact fun s' hs => hpost _ _ (h s' hs)
  | call c k ih => exact fun s' hs => ih _ (h s' hs)

/-- The rule for destructors. -/
theorem Under.andFinally (hrefl : ∀ s, rely s s) {p : Program Cmd Reply ε α}
    {last : Program Cmd Reply ε Unit} {s : σ}
    (h : Under exec rely (fun r s => Under exec rely (fun r' s => match r' with
      | .ok _ => ∀ s', rely s s' → post r s'
      | .error e => ∀ s', rely s s' → post (.error e) s') last s) p s) :
    Under exec rely post (p.andFinally last) s := by
  have habsorb : ∀ (q : Program Cmd Reply ε α) r s, (∀ s, Under exec rely post q s =
      ∀ s', rely s s' → post r s') → Under exec rely (fun r' s => match r' with
        | .ok _ => ∀ s', rely s s' → post r s'
        | .error e => ∀ s', rely s s' → post (.error e) s') last s →
      Under exec rely post (last.bind fun _ => q) s := by
    intro q r s hq hl
    refine Under.bind hrefl (p := last) (f := fun _ => q) (hl.mono fun r' s hr => ?_)
    cases r' with
    | ok _ => exact (hq s).mpr hr
    | error e => exact hr
  induction p generalizing s with
  | ret a => exact habsorb (ret a) (.ok a) s (fun _ => rfl) (h s (hrefl s))
  | throw e => exact habsorb (throw e) (.error e) s (fun _ => rfl) (h s (hrefl s))
  | call c k ih => exact fun s' hs => ih _ (h s' hs)

/-- **The guarantee holds along every interleaving** of the program's calls with steps of the
environment. -/
theorem under_of_reachable {env : σ → β → Option σ} (hrefl : ∀ s, rely s s)
    (htrans : ∀ s t u, rely s t → rely t u → rely s u)
    (henv : ∀ s b s', env s b = some s' → rely s s') {init : Program Cmd Reply ε α × σ → Prop}
    (h0 : ∀ c, init c → Under exec rely post c.1 c.2) {c : Program Cmd Reply ε α × σ}
    (h : Reachable (interleave exec env) init c) : Under exec rely post c.1 c.2 := by
  refine h.invariant (I := fun c => Under exec rely post c.1 c.2) h0 ?_
  rintro ⟨p, s⟩ act c' hI - hstep
  cases act with
  | some b =>
    obtain ⟨s', hs, rfl⟩ := Option.map_eq_some_iff.mp hstep
    exact hI.later htrans (henv s b s' hs)
  | none =>
    cases p with
    | ret a => cases hstep
    | throw e => cases hstep
    | call c k =>
      cases hstep
      exact hI s (hrefl s)

end Program

end MiniOj.Infra
