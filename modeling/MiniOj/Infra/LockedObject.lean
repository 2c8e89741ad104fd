import Mathlib.Data.List.Induction
import MiniOj.Infra.Threads

/-!
# An object behind a lock

Threads act on a part of the shared state that only the one with the lock changes. That part
stands for an abstract object with operations of its own. When each thread accounts for its
changes by operations, every interleaving is a sequence of operations, each of them done by one
action of one thread.

* `Chain` — a sequence of operations
* `LockedObject`, `LockedObject.Laws` — the lock, the part, the object, and what the lock is for
* `Performs` — the operations that a program does, call by call
* `Linearized` — a run as a sequence of operations
* `linearized_of_run` — every run is one
-/

namespace MiniOj.Infra

variable {A O : Type}

/-! ## Sequences of operations -/

/-- The steps of a list of operations. -/
inductive Chain (does : A → O → A → Prop) : A → List O → A → Prop
  | nil (a : A) : Chain does a [] a
  | cons {a b c : A} {o : O} {os : List O} (h : does a o b) (hs : Chain does b os c) :
    Chain does a (o :: os) c

namespace Chain

variable {does : A → O → A → Prop} {a b c : A} {o : O} {os os' : List O}

theorem single (h : does a o b) : Chain does a [o] b := .cons h (.nil b)

theorem append (h : Chain does a os b) (h' : Chain does b os' c) : Chain does a (os ++ os') c := by
  induction h with
  | nil => exact h'
  | cons ho _ ih => exact .cons ho (ih h')

end Chain

/-! ## The lock -/

/-- An object and the lock that guards it, in the terms of the threads around it. -/
structure LockedObject (L S F A O : Type) where
  /-- the thread has the lock -/
  holds : L → Bool
  /-- some thread has it -/
  busy : S → Bool
  /-- the part that only the thread with the lock changes -/
  guarded : S → F
  /-- what the part stands for -/
  abs : F → A
  inv : F → Prop
  does : A → O → A → Prop

variable {Cmd : Type} {Reply : Cmd → Type} {ε α γ L S F ρ β : Type}

/-- What a call may do to the lock, and to the part while another thread has the lock. -/
structure LockedObject.Laws (M : LockedObject L S F A O)
    (exec : (c : Cmd) → L → S → Option (Reply c × L × S)) : Prop where
  others : ∀ {c l s r l' s'}, exec c l s = some (r, l', s') → M.holds l = false →
    M.busy s = true → M.holds l' = false ∧ M.busy s' = true ∧ M.guarded s' = M.guarded s
  own : ∀ {c l s r l' s'}, exec c l s = some (r, l', s') → M.busy s = M.holds l →
    M.busy s' = M.holds l'

/-! ## What a program does -/

namespace Program

variable (M : LockedObject L S F A O) (exec : (c : Cmd) → L → S → Option (Reply c × L × S))

/-- Each call, on a part that meets the invariant and that has not changed if the thread has the
lock, does some operations. `done` are those of the calls before; at the end `post` holds of all
of them, of what the thread owns, of the part and of the outcome. -/
def Performs (post : List O → L → F → Except ε α → Prop) :
    Program Cmd Reply ε α → List O → L → F → Prop
  | ret a, done, l, f => post done l f (.ok a)
  | throw e, done, l, f => post done l f (.error e)
  | call c k, done, l, f => ∀ s, M.inv (M.guarded s) → (M.holds l = true → M.guarded s = f) →
      ∀ r l' s', exec c l s = some (r, l', s') →
        M.inv (M.guarded s') ∧
        ∃ ops, Chain M.does (M.abs (M.guarded s)) ops (M.abs (M.guarded s')) ∧
          (k r).Performs post (done ++ ops) l' (M.guarded s')

variable {M exec} {post : List O → L → F → Except ε α → Prop} {done : List O} {l : L} {f : F}

/-- A call that leaves the part as it is. -/
theorem Performs.unchanged {p : Program Cmd Reply ε α} {s s' : S}
    (hsame : M.guarded s' = M.guarded s) (hinv : M.inv (M.guarded s))
    (h : p.Performs M exec post done l (M.guarded s')) : M.inv (M.guarded s') ∧ ∃ ops,
      Chain M.does (M.abs (M.guarded s)) ops (M.abs (M.guarded s')) ∧
        p.Performs M exec post (done ++ ops) l (M.guarded s') := by
  refine ⟨hsame ▸ hinv, [], ?_, ?_⟩
  · rw [hsame]
    exact .nil _
  · rw [List.append_nil]
    exact h

end Program

/-! ## Runs -/

/-- It is thread `i` that makes a call. -/
def ThreadAction.calls (i : Nat) : ThreadAction ρ β → Bool
  | .call j => j == i
  | _ => false

/-- What the programs are started with, in this order. -/
def arrivals (actions : List (ThreadAction ρ β)) : List ρ :=
  actions.filterMap fun
    | .start r => some r
    | _ => none

/-- The operations that the actions of a thread do, when `effects` has those of each action. -/
def opsBy (i : Nat) (actions : List (ThreadAction ρ β)) (effects : List (List O)) : List O :=
  ((actions.zip effects).filter fun p => p.1.calls i).flatMap Prod.snd

theorem opsBy_push {actions : List (ThreadAction ρ β)} {effects : List (List O)}
    (h : effects.length = actions.length) (i : Nat) (a : ThreadAction ρ β) (ops : List O) :
    opsBy i (actions ++ [a]) (effects ++ [ops]) =
      opsBy i actions effects ++ if a.calls i then ops else [] := by
  unfold opsBy
  rw [List.zip_append h.symm, List.filter_append, List.flatMap_append]
  cases hc : a.calls i <;> simp [hc]

namespace Threads

variable (M : LockedObject L S F A O) (exec : (c : Cmd) → L → S → Option (Reply c × L × S))
  (post : ρ → List O → L → F → Except ε α → Prop)

/-- The operations of `effects`, one list for each action, lead from `a₀` to what the shared
state stands for, and each program has done those of its own actions. -/
structure Linearized (a₀ : A) (actions : List (ThreadAction ρ β)) (effects : List (List O))
    (s : Threads Cmd Reply ε α L S) : Prop where
  length : effects.length = actions.length
  chain : Chain M.does a₀ effects.flatten (M.abs (M.guarded s.shared))
  inv : M.inv (M.guarded s.shared)
  calls : ∀ p ∈ actions.zip effects, p.2 ≠ [] → ∃ i, p.1 = .call i
  count : s.threads.length = (arrivals actions).length
  performs : ∀ (i : Nat) (r : ρ) (t : Thread Cmd Reply ε α L), (arrivals actions)[i]? = some r →
    s.threads[i]? = some t →
    t.program.Performs M exec (post r) (opsBy i actions effects) t.own (M.guarded s.shared)
  /-- no operations of a thread before it is there -/
  fresh : ∀ i, s.threads.length ≤ i → opsBy i actions effects = []
  alone : ∀ (i j : Nat) (t u : Thread Cmd Reply ε α L), s.threads[i]? = some t →
    s.threads[j]? = some u → M.holds t.own = true → M.holds u.own = true → i = j
  busy : ∀ t ∈ s.threads, M.holds t.own = true → M.busy s.shared = true
  owner : M.busy s.shared = true → ∃ t ∈ s.threads, M.holds t.own = true

variable {M exec post} {spawn : ρ → Thread Cmd Reply ε α L} {env : S → β → Option S} {a₀ : A}
  {actions : List (ThreadAction ρ β)} {effects : List (List O)} {s s' : Threads Cmd Reply ε α L S}

theorem arrivals_push (actions : List (ThreadAction ρ β)) (r : ρ) :
    arrivals (actions ++ [.start r]) = arrivals actions ++ [r] := by
  simp [arrivals]

theorem Linearized.start (h : Linearized M exec post a₀ actions effects s) (r : ρ)
    (hown : M.holds (spawn r).own = false)
    (hprogram : ∀ f, M.inv f → (spawn r).program.Performs M exec (post r) [] (spawn r).own f) :
    Linearized M exec post a₀ (actions ++ [.start r]) (effects ++ [[]])
      { s with threads := s.threads ++ [spawn r] } where
  length := by simp [h.length]
  chain := by
    rw [List.flatten_append, List.flatten_singleton, List.append_nil]
    exact h.chain
  inv := h.inv
  calls p hp hne := by
    rw [List.zip_append h.length.symm] at hp
    rcases List.mem_append.mp hp with hp | hp
    · exact h.calls p hp hne
    · cases List.mem_singleton.mp hp
      exact absurd rfl hne
  count := by
    rw [arrivals_push]
    simp [h.count]
  performs i r' t hr ht := by
    have hops : opsBy i (actions ++ [.start r]) (effects ++ [[]]) = opsBy i actions effects := by
      rw [opsBy_push h.length, ite_self, List.append_nil]
    rw [hops]
    rw [arrivals_push] at hr
    dsimp only at ht
    by_cases hi : i < s.threads.length
    · rw [List.getElem?_append_left hi] at ht
      rw [List.getElem?_append_left (h.count ▸ hi)] at hr
      exact h.performs i r' t hr ht
    · have hlen : s.threads.length ≤ i := Nat.le_of_not_lt hi
      rw [h.fresh i hlen]
      rw [List.getElem?_append_right hlen] at ht
      rw [List.getElem?_append_right (h.count ▸ hlen), ← h.count] at hr
      cases List.mem_singleton.mp (List.mem_of_getElem? ht)
      cases List.mem_singleton.mp (List.mem_of_getElem? hr)
      exact hprogram _ h.inv
  fresh i hi := by
    rw [opsBy_push h.length, ite_self, List.append_nil]
    refine h.fresh i (Nat.le_trans ?_ hi)
    simp
  alone i j t u ht hu hht hhu := by
    have hold : ∀ (k : Nat) (v : Thread Cmd Reply ε α L), (s.threads ++ [spawn r])[k]? = some v →
        M.holds v.own = true → s.threads[k]? = some v := by
      intro k v hv hhv
      by_cases hk : k < s.threads.length
      · rwa [List.getElem?_append_left hk] at hv
      · rw [List.getElem?_append_right (Nat.le_of_not_lt hk)] at hv
        cases List.mem_singleton.mp (List.mem_of_getElem? hv)
        rw [hown] at hhv
        cases hhv
    exact h.alone i j t u (hold i t ht hht) (hold j u hu hhu) hht hhu
  busy t ht hht := by
    rcases List.mem_append.mp ht with ht | ht
    · exact h.busy t ht hht
    · cases List.mem_singleton.mp ht
      rw [hown] at hht
      cases hht
  owner hb := by
    obtain ⟨t, ht, hht⟩ := h.owner hb
    exact ⟨t, List.mem_append_left _ ht, hht⟩

theorem Linearized.other (h : Linearized M exec post a₀ actions effects s) (b : β) {shared : S}
    (hguarded : M.guarded shared = M.guarded s.shared) (hbusy : M.busy shared = M.busy s.shared) :
    Linearized M exec post a₀ (actions ++ [.env b]) (effects ++ [[]]) { s with shared } where
  length := by simp [h.length]
  chain := by
    rw [List.flatten_append, List.flatten_singleton, List.append_nil]
    exact hguarded ▸ h.chain
  inv := hguarded ▸ h.inv
  calls p hp hne := by
    rw [List.zip_append h.length.symm] at hp
    rcases List.mem_append.mp hp with hp | hp
    · exact h.calls p hp hne
    · cases List.mem_singleton.mp hp
      exact absurd rfl hne
  count := by simpa [arrivals] using h.count
  performs i r t hr ht := by
    rw [opsBy_push h.length, ite_self, List.append_nil]
    have harrivals : arrivals (actions ++ [.env b]) = arrivals actions := by simp [arrivals]
    rw [harrivals] at hr
    exact hguarded ▸ h.performs i r t hr ht
  fresh i hi := by
    rw [opsBy_push h.length, ite_self, List.append_nil]
    exact h.fresh i hi
  alone := h.alone
  busy t ht hht := hbusy ▸ h.busy t ht hht
  owner hb := h.owner (hbusy ▸ hb)

/-- The part is another one, but the thread does not have the lock. -/
theorem performs_of_free {post : List O → L → F → Except ε α → Prop}
    (hpost : ∀ done l f f' r, M.holds l = false → post done l f r → post done l f' r)
    {p : Program Cmd Reply ε α} {done : List O} {l : L} {f : F} (hl : M.holds l = false)
    (h : p.Performs M exec post done l f) (f' : F) : p.Performs M exec post done l f' := by
  cases p with
  | ret a => exact hpost _ _ _ _ _ hl h
  | throw e => exact hpost _ _ _ _ _ hl h
  | call c k =>
    intro s hinv _
    exact h s hinv fun hheld => absurd (hl.symm.trans hheld) (by decide)

theorem Linearized.call (hlaws : M.Laws exec)
    (hpost : ∀ r done l f f' x, M.holds l = false → post r done l f x → post r done l f' x)
    (h : Linearized M exec post a₀ actions effects s) {i : Nat}
    (hstep : step exec spawn env s (.call i) = some s') :
    ∃ ops, Linearized M exec post a₀ (actions ++ [.call i]) (effects ++ [ops]) s' := by
  obtain ⟨c, k, own, x, own', shared', hi, hexec, rfl⟩ := step_call hstep
  have hlt : i < s.threads.length := (List.getElem?_eq_some_iff.mp hi).1
  obtain ⟨r, hr⟩ : ∃ r, (arrivals actions)[i]? = some r :=
    ⟨_, List.getElem?_eq_getElem (h.count ▸ hlt)⟩
  have harrivals : arrivals (actions ++ [.call i]) = arrivals actions := by simp [arrivals]
  obtain ⟨hinv, ops, hops, hk⟩ := h.performs i r _ hr hi s.shared h.inv (fun _ => rfl) x own'
    shared' hexec
  -- another thread with the lock sees the part as it was
  have hothers : ∀ j u, j ≠ i → s.threads[j]? = some u → M.holds u.own = true →
      M.holds own' = false ∧ M.busy shared' = true ∧ M.guarded shared' = M.guarded s.shared := by
    intro j u hj hu hhu
    refine hlaws.others hexec ?_ (h.busy u (List.mem_of_getElem? hu) hhu)
    rw [← Bool.not_eq_true]
    exact fun hown => hj (h.alone j i u _ hu hi hhu hown)
  refine ⟨ops, ?_, ?_, hinv, ?_, ?_, ?_, ?_, ?_, ?_, ?_⟩
  · simp [h.length]
  · rw [List.flatten_append, List.flatten_singleton]
    exact h.chain.append hops
  · intro p hp hne
    rw [List.zip_append h.length.symm] at hp
    rcases List.mem_append.mp hp with hp | hp
    · exact h.calls p hp hne
    · cases List.mem_singleton.mp hp
      exact ⟨i, rfl⟩
  · rw [harrivals, List.length_set, h.count]
  · intro j r' t hr' ht
    rw [harrivals] at hr'
    rw [opsBy_push h.length]
    by_cases hj : j = i
    · subst hj
      rw [List.getElem?_set_self hlt] at ht
      cases ht
      cases hr.symm.trans hr'
      have hmine : ThreadAction.calls (ρ := ρ) (β := β) j (.call j) = true := beq_self_eq_true j
      rw [hmine, if_pos rfl]
      exact hk
    · rw [List.getElem?_set_ne (Ne.symm hj)] at ht
      have hnot : ThreadAction.calls (ρ := ρ) (β := β) j (.call i) = false :=
        beq_eq_false_iff_ne.mpr (Ne.symm hj)
      rw [hnot, if_neg Bool.false_ne_true, List.append_nil]
      have hold := h.performs j r' t hr' ht
      cases hheld : M.holds t.own with
      | true => exact (hothers j t hj ht hheld).2.2 ▸ hold
      | false => exact performs_of_free (hpost r') hheld hold _
  · intro j hj
    rw [List.length_set] at hj
    have hnot : ThreadAction.calls (ρ := ρ) (β := β) j (.call i) = false :=
      beq_eq_false_iff_ne.mpr (by omega)
    rw [opsBy_push h.length, hnot, if_neg Bool.false_ne_true, List.append_nil]
    exact h.fresh j hj
  · have hself : ∀ j u, j ≠ i → (s.threads.set i ⟨k x, own'⟩)[j]? = some u →
        s.threads[j]? = some u := by
      intro j u hj hu
      rwa [List.getElem?_set_ne (Ne.symm hj)] at hu
    have hmine : ∀ u, (s.threads.set i ⟨k x, own'⟩)[i]? = some u → u = ⟨k x, own'⟩ := by
      intro u hu
      rw [List.getElem?_set_self hlt] at hu
      exact (Option.some.inj hu).symm
    intro j j' t u ht hu hht hhu
    by_cases hj : j = i
    · by_cases hj' : j' = i
      · exact hj.trans hj'.symm
      · rw [hj] at ht
        rw [hmine t ht, (hothers j' u hj' (hself j' u hj' hu) hhu).1] at hht
        cases hht
    · by_cases hj' : j' = i
      · rw [hj'] at hu
        rw [hmine u hu, (hothers j t hj (hself j t hj ht) hht).1] at hhu
        cases hhu
      · exact h.alone j j' t u (hself j t hj ht) (hself j' u hj' hu) hht hhu
  · intro t ht hht
    obtain ⟨j, hj⟩ := List.mem_iff_getElem?.mp ht
    by_cases hji : j = i
    · rw [hji, List.getElem?_set_self hlt] at hj
      cases hj
      dsimp only at hht ⊢
      -- the lock was its own or free, or the law for the others says that it does not have it
      by_cases hown : M.holds own = true
      · rw [hlaws.own hexec ((h.busy _ (List.mem_of_getElem? hi) hown).trans hown.symm), hht]
      · rw [Bool.not_eq_true] at hown
        cases hbusy : M.busy s.shared with
        | false => rw [hlaws.own hexec (hbusy.trans hown.symm), hht]
        | true =>
          rw [(hlaws.others hexec hown hbusy).1] at hht
          cases hht
    · rw [List.getElem?_set_ne (Ne.symm hji)] at hj
      exact (hothers j t hji hj hht).2.1
  · intro hbusy'
    have hmine : M.busy s.shared = M.holds own → ∃ t ∈ s.threads.set i ⟨k x, own'⟩,
        M.holds t.own = true := fun hsame =>
      ⟨⟨k x, own'⟩, List.mem_of_getElem? (List.getElem?_set_self hlt),
        (hlaws.own hexec hsame).symm.trans hbusy'⟩
    cases hbusy : M.busy s.shared with
    | false =>
      refine hmine (hbusy.trans ?_)
      cases hown : M.holds own with
      | false => rfl
      | true => exact hbusy.symm.trans (h.busy _ (List.mem_of_getElem? hi) hown)
    | true =>
      obtain ⟨t, ht, hht⟩ := h.owner hbusy
      obtain ⟨j, hj⟩ := List.mem_iff_getElem?.mp ht
      by_cases hji : j = i
      · subst hji
        cases hi.symm.trans hj
        exact hmine (hbusy.trans hht.symm)
      · refine ⟨t, List.mem_of_getElem? (i := j) ?_, hht⟩
        rwa [List.getElem?_set_ne (Ne.symm hji)]

/-- **Every run is a sequence of operations** of the abstract object, each done by one action of
one thread. -/
theorem linearized_of_run (hlaws : M.Laws exec)
    (hpost : ∀ r done l f f' x, M.holds l = false → post r done l f x → post r done l f' x)
    (hspawn : ∀ r ∈ arrivals actions, M.holds (spawn r).own = false ∧
      ∀ f, M.inv f → (spawn r).program.Performs M exec (post r) [] (spawn r).own f)
    (henv : ∀ s b s', env s b = some s' → M.guarded s' = M.guarded s ∧ M.busy s' = M.busy s)
    {s₀ : Threads Cmd Reply ε α L S} (h0 : s₀.threads = []) (hfree : M.busy s₀.shared = false)
    (hinv : M.inv (M.guarded s₀.shared))
    (hrun : run (step exec spawn env) s₀ actions = some s) :
    ∃ effects, Linearized M exec post (M.abs (M.guarded s₀.shared)) actions effects s := by
  induction actions using List.reverseRecOn generalizing s with
  | nil =>
    cases hrun
    refine ⟨[], rfl, .nil _, hinv, nofun, ?_, nofun, fun _ _ => rfl, ?_, ?_, ?_⟩
    · rw [h0]
      rfl
    · intro i j t u ht
      rw [h0] at ht
      cases ht
    · intro t ht
      rw [h0] at ht
      cases ht
    · intro hbusy
      rw [hfree] at hbusy
      cases hbusy
  | append_singleton actions a ih =>
    rw [run_append] at hrun
    obtain ⟨t, ht, hlast⟩ := Option.bind_eq_some_iff.mp hrun
    obtain ⟨s', hstep, hend⟩ := run_cons_some.mp hlast
    cases hend
    have harrivals : arrivals (actions ++ [a]) = arrivals actions ++ arrivals [a] :=
      List.filterMap_append
    obtain ⟨effects, h⟩ := ih (fun r hr =>
      hspawn r (harrivals ▸ List.mem_append_left (arrivals [a]) hr)) ht
    cases a with
    | start r =>
      cases hstep
      have hr := hspawn r (harrivals ▸ List.mem_append_right _ (List.mem_singleton_self r))
      exact ⟨_, h.start r hr.1 hr.2⟩
    | call i =>
      obtain ⟨ops, hops⟩ := h.call hlaws hpost hstep
      exact ⟨_, hops⟩
    | env b =>
      obtain ⟨shared, hb, rfl⟩ := Option.map_eq_some_iff.mp hstep
      exact ⟨_, h.other b (henv _ _ _ hb).1 (henv _ _ _ hb).2⟩

end Threads

end MiniOj.Infra
