import MiniOj.Infra.Program

/-!
# Threads

Any number of programs at the same time, each making its calls one after another. A call acts on
what belongs to the thread and on what all threads share; `none` says that the thread has to wait.

* `Threads.step` — a program is started, makes its next call, or the environment acts
* `Follows rule` — every call obeys a rule about what belongs to the thread at that moment
* `Guards rely` — while the others move the shared state along `rely`, so does every call
* `Threads.follows`, `Threads.relies` — the two, for all threads in every run
* `Threads.keeps` — an invariant that every call of a rule keeps
-/

namespace MiniOj.Infra

/-- What is left of a program, and what belongs to it alone. -/
structure Thread (Cmd : Type) (Reply : Cmd → Type) (ε α L : Type) where
  program : Program Cmd Reply ε α
  own : L

/-- What is shared, and the threads with what each has of its own. -/
structure Threads (Cmd : Type) (Reply : Cmd → Type) (ε α L S : Type) where
  shared : S
  /-- in the order in which they were started -/
  threads : List (Thread Cmd Reply ε α L)

/-- A thread starts or makes its next call, or something else happens. -/
inductive ThreadAction (ρ β : Type) where
  | start (r : ρ)
  | call (thread : Nat)
  | env (b : β)

variable {Cmd : Type} {Reply : Cmd → Type} {ε α γ L S ρ β : Type}

/-! ## Programs of a thread -/

namespace Program

variable (exec : (c : Cmd) → L → S → Option (Reply c × L × S))

/-- Every call obeys the rule. -/
def Follows (rule : L → Cmd → Prop) : L → Program Cmd Reply ε α → Prop
  | _, ret _ => True
  | _, throw _ => True
  | l, call c k => rule l c ∧ ∀ s r l' s', exec c l s = some (r, l', s') → (k r).Follows rule l'

/-- Every call is a step along `rely`, and the outcome meets `post`, whatever steps along `rely`
others take before each call and before the end. -/
def Guards (rely : S → S → Prop) (post : Except ε α → S → Prop) : Program Cmd Reply ε α → S → Prop
  | ret a, s => ∀ s', rely s s' → post (.ok a) s'
  | throw e, s => ∀ s', rely s s' → post (.error e) s'
  | call c k, s => ∀ l s', rely s s' → ∀ r l' s'', exec c l s' = some (r, l', s'') →
      rely s' s'' ∧ (k r).Guards rely post s''

variable {exec} {rule : L → Cmd → Prop}

theorem Only.follows {ok : Cmd → Prop} (h : ∀ l c, ok c → rule l c) {p : Program Cmd Reply ε α}
    (hp : p.Only ok) (l : L) : p.Follows exec rule l := by
  induction p generalizing l with
  | ret a => trivial
  | throw e => trivial
  | call c k ih => exact ⟨h l c hp.1, fun s r l' s' _ => ih r (hp.2 r) l'⟩

theorem Follows.bind {p : Program Cmd Reply ε γ} {f : γ → Program Cmd Reply ε α} {l : L}
    (hp : p.Follows exec rule l) (hf : ∀ a l, (f a).Follows exec rule l) :
    (p >>= f).Follows exec rule l := by
  induction p generalizing l with
  | ret a => exact hf a l
  | throw e => trivial
  | call c k ih => exact ⟨hp.1, fun s r l' s' hs => ih r (hp.2 s r l' s' hs)⟩

theorem Follows.tryCatch {p : Program Cmd Reply ε α} {handler : ε → Program Cmd Reply ε α} {l : L}
    (hp : p.Follows exec rule l) (hh : ∀ e l, (handler e).Follows exec rule l) :
    (p.tryCatch handler).Follows exec rule l := by
  induction p generalizing l with
  | ret a => trivial
  | throw e => exact hh e l
  | call c k ih => exact ⟨hp.1, fun s r l' s' hs => ih r (hp.2 s r l' s' hs)⟩

theorem Follows.andFinally {p : Program Cmd Reply ε α} {last : Program Cmd Reply ε Unit} {l : L}
    (hp : p.Follows exec rule l) (hl : ∀ l, last.Follows exec rule l) :
    (p.andFinally last).Follows exec rule l := by
  induction p generalizing l with
  | ret a => exact Follows.bind (p := last) (hl l) fun _ _ => trivial
  | throw e => exact Follows.bind (p := last) (hl l) fun _ _ => trivial
  | call c k ih => exact ⟨hp.1, fun s r l' s' hs => ih r (hp.2 s r l' s' hs)⟩

variable {rely : S → S → Prop}

theorem Guards.later {post : Except ε α → S → Prop}
    (htrans : ∀ s t u, rely s t → rely t u → rely s u) {p : Program Cmd Reply ε α} {s s' : S}
    (h : p.Guards exec rely post s) (hs : rely s s') : p.Guards exec rely post s' := by
  cases p with
  | ret a => exact fun u hu => h u (htrans s s' u hs hu)
  | throw e => exact fun u hu => h u (htrans s s' u hs hu)
  | call c k => exact fun l u hu => h l u (htrans s s' u hs hu)

theorem Guards.mono {post post' : Except ε α → S → Prop} (hpost : ∀ r s, post r s → post' r s)
    {p : Program Cmd Reply ε α} {s : S} (h : p.Guards exec rely post s) :
    p.Guards exec rely post' s := by
  induction p generalizing s with
  | ret a => exact fun s' hs => hpost _ _ (h s' hs)
  | throw e => exact fun s' hs => hpost _ _ (h s' hs)
  | call c k ih =>
    intro l s' hs r l' s'' hexec
    obtain ⟨hrely, hk⟩ := h l s' hs r l' s'' hexec
    exact ⟨hrely, ih r hk⟩

/-- A program whose calls are all steps along `rely`. -/
theorem Only.guards {ok : Cmd → Prop}
    (h : ∀ c l s r l' s', ok c → exec c l s = some (r, l', s') → rely s s')
    {p : Program Cmd Reply ε α} (hp : p.Only ok) (s : S) :
    p.Guards exec rely (fun _ _ => True) s := by
  induction p generalizing s with
  | ret a => exact fun _ _ => trivial
  | throw e => exact fun _ _ => trivial
  | call c k ih =>
    exact fun l s' _ r l' s'' hexec => ⟨h c l s' r l' s'' hp.1 hexec, ih r (hp.2 r) s''⟩

/-- The rule for sequencing: the second program starts where the first one ends. -/
theorem Guards.bind (hrefl : ∀ s, rely s s) {post : Except ε α → S → Prop}
    {p : Program Cmd Reply ε γ} {f : γ → Program Cmd Reply ε α} {s : S}
    (h : p.Guards exec rely (fun r s => match r with
      | .ok a => (f a).Guards exec rely post s
      | .error e => ∀ s', rely s s' → post (.error e) s') s) :
    (p >>= f).Guards exec rely post s := by
  induction p generalizing s with
  | ret a => exact h s (hrefl s)
  | throw e => exact h s (hrefl s)
  | call c k ih =>
    intro l s' hs r l' s'' hexec
    obtain ⟨hrely, hk⟩ := h l s' hs r l' s'' hexec
    exact ⟨hrely, ih r hk⟩

/-- The rule for handlers of exceptions. -/
theorem Guards.tryCatch (hrefl : ∀ s, rely s s) {post : Except ε α → S → Prop}
    {p : Program Cmd Reply ε α} {handler : ε → Program Cmd Reply ε α} {s : S}
    (h : p.Guards exec rely (fun r s => match r with
      | .ok a => ∀ s', rely s s' → post (.ok a) s'
      | .error e => (handler e).Guards exec rely post s) s) :
    (p.tryCatch handler).Guards exec rely post s := by
  induction p generalizing s with
  | ret a => exact h s (hrefl s)
  | throw e => exact h s (hrefl s)
  | call c k ih =>
    intro l s' hs r l' s'' hexec
    obtain ⟨hrely, hk⟩ := h l s' hs r l' s'' hexec
    exact ⟨hrely, ih r hk⟩

/-- What others and the program itself do on the way is along `rely`. -/
theorem Guards.from_start (htrans : ∀ s t u, rely s t → rely t u → rely s u)
    {post : Except ε α → S → Prop} {p : Program Cmd Reply ε α} {s₀ s : S} (h₀ : rely s₀ s)
    (h : p.Guards exec rely post s) :
    p.Guards exec rely (fun r s => post r s ∧ rely s₀ s) s := by
  induction p generalizing s with
  | ret a => exact fun s' hs => ⟨h s' hs, htrans _ _ _ h₀ hs⟩
  | throw e => exact fun s' hs => ⟨h s' hs, htrans _ _ _ h₀ hs⟩
  | call c k ih =>
    intro l s' hs r l' s'' hexec
    obtain ⟨hrely, hk⟩ := h l s' hs r l' s'' hexec
    exact ⟨hrely, ih r (htrans _ _ _ (htrans _ _ _ h₀ hs) hrely) hk⟩

/-- The rule for destructors that cannot fail: what holds of the outcome has to last. -/
theorem Guards.andFinally (hrefl : ∀ s, rely s s) (htrans : ∀ s t u, rely s t → rely t u → rely s u)
    {post : Except ε α → S → Prop} {p : Program Cmd Reply ε α} {last : Program Cmd Reply ε Unit}
    {s : S} (hlast : ∀ s, last.Guards exec rely (fun r _ => r = .ok ()) s)
    (h : p.Guards exec rely post s) (hpost : ∀ r s s', post r s → rely s s' → post r s') :
    (p.andFinally last).Guards exec rely post s := by
  have hend : ∀ (q : Program Cmd Reply ε α) r s, (∀ s', (∀ s'', rely s' s'' → post r s'') →
      q.Guards exec rely post s') → post r s → (last >>= fun _ => q).Guards exec rely post s := by
    intro q r s hq hr
    refine Guards.bind hrefl (((hlast s).from_start htrans (hrefl s)).mono fun r' s' hr' => ?_)
    obtain ⟨rfl, hs'⟩ := hr'
    exact hq s' fun s'' hs'' => hpost r s s'' hr (htrans _ _ _ hs' hs'')
  induction p generalizing s with
  | ret a => exact hend (ret a) (.ok a) s (fun _ h => h) (h s (hrefl s))
  | throw e => exact hend (throw e) (.error e) s (fun _ h => h) (h s (hrefl s))
  | call c k ih =>
    intro l s' hs r l' s'' hexec
    obtain ⟨hrely, hk⟩ := h l s' hs r l' s'' hexec
    exact ⟨hrely, ih r hk⟩

end Program

/-! ## Runs -/

namespace Threads

variable (exec : (c : Cmd) → L → S → Option (Reply c × L × S))
  (spawn : ρ → Thread Cmd Reply ε α L) (env : S → β → Option S)

/-- One action; `none` when the call has to wait. -/
def step (s : Threads Cmd Reply ε α L S) : ThreadAction ρ β → Option (Threads Cmd Reply ε α L S)
  | .start r => some { s with threads := s.threads ++ [spawn r] }
  | .call i =>
    match s.threads[i]? with
    | some ⟨.call c k, own⟩ =>
      (exec c own s.shared).map fun (r, own, shared) =>
        { shared, threads := s.threads.set i ⟨k r, own⟩ }
    | _ => none
  | .env b => (env s.shared b).map fun shared => { s with shared }

variable {exec spawn env} {init : Threads Cmd Reply ε α L S → Prop}
  {ok : Threads Cmd Reply ε α L S → ThreadAction ρ β → Prop} {s s' : Threads Cmd Reply ε α L S}

/-- The call of a thread. -/
theorem step_call {i : Nat} (h : step exec spawn env s (.call i) = some s') :
    ∃ c k own r own' shared', s.threads[i]? = some ⟨.call c k, own⟩ ∧
      exec c own s.shared = some (r, own', shared') ∧
      s' = { shared := shared', threads := s.threads.set i ⟨k r, own'⟩ } := by
  unfold step at h
  dsimp only at h
  split at h
  · next c k own hi =>
    obtain ⟨⟨r, own', shared'⟩, hexec, rfl⟩ := Option.map_eq_some_iff.mp h
    exact ⟨c, k, own, r, own', shared', hi, hexec, rfl⟩
  · cases h

/-- **Rules are followed in every run**, if the programs started follow them. -/
theorem follows {rule : L → Cmd → Prop} (h0 : ∀ s, init s → s.threads = [])
    (hspawn : ∀ r, (spawn r).program.Follows exec rule (spawn r).own)
    (h : ReachableWhen (step exec spawn env) init ok s) :
    ∀ t ∈ s.threads, t.program.Follows exec rule t.own := by
  refine h.invariant (I := fun s => ∀ t ∈ s.threads, t.program.Follows exec rule t.own)
    (fun s hs t ht => by rw [h0 s hs] at ht; cases ht) fun s a s' hI _ hstep => ?_
  cases a with
  | start r =>
    cases hstep
    intro t ht
    rcases List.mem_append.mp ht with ht | ht
    · exact hI t ht
    · rw [List.mem_singleton.mp ht]
      exact hspawn r
  | call i =>
    obtain ⟨c, k, own, r, own', shared', hi, hexec, rfl⟩ := step_call hstep
    intro t ht
    rcases List.mem_or_eq_of_mem_set ht with ht | rfl
    · exact hI t ht
    · exact (hI _ (List.mem_of_getElem? hi)).2 _ _ _ _ hexec
  | env b =>
    obtain ⟨shared, -, rfl⟩ := Option.map_eq_some_iff.mp hstep
    exact hI

/-- **What calls that obey the rule keep, every run keeps.** -/
theorem keeps {rule : L → Cmd → Prop} {I : S → Prop}
    (h0 : ∀ s, init s → I s.shared ∧ s.threads = [])
    (hspawn : ∀ r, (spawn r).program.Follows exec rule (spawn r).own)
    (hexec : ∀ c l s r l' s', rule l c → exec c l s = some (r, l', s') → I s → I s')
    (henv : ∀ s b s', env s b = some s' → I s → I s')
    (h : ReachableWhen (step exec spawn env) init ok s) : I s.shared := by
  refine h.invariant_with (I := fun s => I s.shared)
    (fun s hs => follows (fun s hs => (h0 s hs).2) hspawn hs) (fun s hs => (h0 s hs).1)
    fun s a s' hfollows hI _ hstep => ?_
  cases a with
  | start r =>
    cases hstep
    exact hI
  | call i =>
    obtain ⟨c, k, own, r, own', shared', hi, hcall, rfl⟩ := step_call hstep
    exact hexec c own s.shared r own' shared' (hfollows _ (List.mem_of_getElem? hi)).1 hcall hI
  | env b =>
    obtain ⟨shared, hb, rfl⟩ := Option.map_eq_some_iff.mp hstep
    exact henv s.shared b shared hb hI

/-- **Everything that happens is along `rely`**, if the programs started guarantee it. -/
theorem relies {rely : S → S → Prop} {s₀ : S} (hrefl : ∀ s, rely s s)
    (htrans : ∀ s t u, rely s t → rely t u → rely s u)
    (h0 : ∀ s, init s → s.shared = s₀ ∧ s.threads = [])
    (henv : ∀ s b s', env s b = some s' → rely s s')
    (hspawn : ∀ s r, rely s₀ s.shared → ok s (.start r) →
      (spawn r).program.Guards exec rely (fun _ _ => True) s.shared)
    (h : ReachableWhen (step exec spawn env) init ok s) : rely s₀ s.shared := by
  refine (h.invariant (I := fun s => rely s₀ s.shared ∧
    ∀ t ∈ s.threads, t.program.Guards exec rely (fun _ _ => True) s.shared) ?_ ?_).1
  · intro s hs
    obtain ⟨hshared, hthreads⟩ := h0 s hs
    rw [hshared, hthreads]
    exact ⟨hrefl s₀, fun t ht => (nomatch ht)⟩
  · rintro s a s' ⟨hI, hthreads⟩ hok hstep
    cases a with
    | start r =>
      cases hstep
      refine ⟨hI, fun t ht => ?_⟩
      rcases List.mem_append.mp ht with ht | ht
      · exact hthreads t ht
      · rw [List.mem_singleton.mp ht]
        exact hspawn s r hI hok
    | call i =>
      obtain ⟨c, k, own, r, own', shared', hi, hexec, rfl⟩ := step_call hstep
      obtain ⟨hrely, hk⟩ := hthreads _ (List.mem_of_getElem? hi) own s.shared (hrefl _) _ _ _ hexec
      refine ⟨htrans _ _ _ hI hrely, fun t ht => ?_⟩
      rcases List.mem_or_eq_of_mem_set ht with ht | rfl
      · exact (hthreads t ht).later htrans hrely
      · exact hk
    | env b =>
      obtain ⟨shared, henv', rfl⟩ := Option.map_eq_some_iff.mp hstep
      have hrely := henv _ _ _ henv'
      exact ⟨htrans _ _ _ hI hrely, fun t ht => (hthreads t ht).later htrans hrely⟩

end Threads

end MiniOj.Infra
