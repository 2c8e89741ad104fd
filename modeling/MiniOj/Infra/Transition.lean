/-!
# Labelled transitions given by a step function

`step s a = some s'` means that action `a` is enabled in `s` and leads to `s'`.
A step function is executable, so a concrete schedule can be evaluated; every
interleaving is one list of actions.

* `run` — perform a list of actions; `history` — the steps it takes; `emitted` — what they give out
* `ReachableWhen ok` — states reached by actions that all meet `ok`; `Reachable` asks nothing
* `ReachableWhen.invariant` — the induction over a run, done once
* `ReachableWhen.congr` — systems with the same steps reach the same states
* `Leads own goal` — some actions of `own` alone lead to `goal`
* `Simulation` — every run of one system is a run of another under a map of states
-/

namespace MiniOj.Infra

variable {σ τ α β : Type}

/-! ## Runs -/

/-- Perform the actions in order; `none` as soon as one of them is not enabled. -/
def run (step : σ → α → Option σ) : σ → List α → Option σ
  | s, [] => some s
  | s, a :: as => (step s a).bind fun s' => run step s' as

variable {step : σ → α → Option σ}

@[simp] theorem run_nil (s : σ) : run step s [] = some s := rfl

theorem run_cons (s : σ) (a : α) (as : List α) :
    run step s (a :: as) = (step s a).bind fun s' => run step s' as := rfl

theorem run_cons_some {s s' : σ} {a : α} {as : List α} :
    run step s (a :: as) = some s' ↔ ∃ t, step s a = some t ∧ run step t as = some s' := by
  rw [run_cons, Option.bind_eq_some_iff]

theorem run_append (s : σ) (as bs : List α) :
    run step s (as ++ bs) = (run step s as).bind fun t => run step t bs := by
  induction as generalizing s with
  | nil => rfl
  | cons a as ih =>
    rw [List.cons_append, run_cons, run_cons, Option.bind_assoc]
    congr 1
    funext t
    exact ih t

/-- What every action of a list keeps, the whole list keeps. -/
theorem run_invariant {I : σ → Prop} {as : List α}
    (hs : ∀ s a s', a ∈ as → I s → step s a = some s' → I s') :
    ∀ {s s' : σ}, I s → run step s as = some s' → I s' := by
  induction as with
  | nil =>
    intro s s' h hr
    cases hr
    exact h
  | cons a as ih =>
    intro s s' h hr
    obtain ⟨t, hat, hrt⟩ := run_cons_some.mp hr
    exact ih (fun s b s' hb => hs s b s' (List.mem_cons_of_mem _ hb))
      (hs s a t List.mem_cons_self h hat) hrt

/-- The steps of a run: the state before, the action, the state after. -/
def history (step : σ → α → Option σ) : σ → List α → List (σ × α × σ)
  | _, [] => []
  | s, a :: as =>
    match step s a with
    | some s' => (s, a, s') :: history step s' as
    | none => []

theorem history_cons {s s' : σ} {a : α} {as : List α} (h : step s a = some s') :
    history step s (a :: as) = (s, a, s') :: history step s' as := by
  rw [history, h]

theorem history_mono {as bs : List α} (h : as <+: bs) (s : σ) :
    history step s as <+: history step s bs := by
  induction as generalizing bs s with
  | nil => exact List.nil_prefix
  | cons a as ih =>
    obtain ⟨cs, rfl⟩ := h
    rw [List.cons_append, history, history]
    cases step s a with
    | none => exact List.nil_prefix
    | some s' => exact (List.prefix_cons_inj _).mpr (ih (List.prefix_append as cs) s')

/-- What the steps of a run give out, in their order. -/
def emitted (step : σ → α → Option σ) (out : σ → α → List β) (s : σ) (as : List α) : List β :=
  (history step s as).flatMap fun m => out m.1 m.2.1

variable {out : σ → α → List β}

theorem emitted_cons {s s' : σ} {a : α} {as : List α} (h : step s a = some s') :
    emitted step out s (a :: as) = out s a ++ emitted step out s' as := by
  rw [emitted, history_cons h, List.flatMap_cons]
  rfl

theorem emitted_mono {as bs : List α} (h : as <+: bs) (s : σ) :
    emitted step out s as <+: emitted step out s bs := by
  obtain ⟨tail, ht⟩ := history_mono h s
  rw [emitted, emitted, ← ht, List.flatMap_append]
  exact List.prefix_append _ _

/-- **The induction over a run and what it gives out.** -/
theorem run_emitted {R : σ → List β → Prop}
    (hs : ∀ s a s' w, R s w → step s a = some s' → R s' (w ++ out s a)) {as : List α} :
    ∀ {s s' : σ} {w : List β}, R s w → run step s as = some s' →
      R s' (w ++ emitted step out s as) := by
  induction as with
  | nil =>
    intro s s' w h hr
    cases hr
    rwa [emitted, history, List.flatMap_nil, List.append_nil]
  | cons a as ih =>
    intro s s' w h hr
    obtain ⟨t, hat, hrt⟩ := run_cons_some.mp hr
    rw [emitted_cons hat, ← List.append_assoc]
    exact ih (hs s a t w h hat) hrt

/-! ## Reachable states -/

/-- States reached from `init` by actions that each meet `ok` in the state they are taken in. -/
inductive ReachableWhen (step : σ → α → Option σ) (init : σ → Prop) (ok : σ → α → Prop) :
    σ → Prop
  | init {s : σ} (h : init s) : ReachableWhen step init ok s
  | step {s s' : σ} (a : α) (h : ReachableWhen step init ok s) (ha : ok s a)
      (hs : step s a = some s') : ReachableWhen step init ok s'

/-- States reached from `init` by any actions. -/
abbrev Reachable (step : σ → α → Option σ) (init : σ → Prop) : σ → Prop :=
  ReachableWhen step init fun _ _ => True

variable {init : σ → Prop} {ok : σ → α → Prop}

/-- **The induction over a run.** What holds at the start and is kept by every step holds
in every state reached. -/
theorem ReachableWhen.invariant {I : σ → Prop} (h0 : ∀ s, init s → I s)
    (hs : ∀ s a s', I s → ok s a → step s a = some s' → I s') {s : σ}
    (h : ReachableWhen step init ok s) : I s := by
  induction h with
  | init h => exact h0 _ h
  | step a _ ha hstep ih => exact hs _ a _ ih ha hstep

/-- An invariant may be shown with the help of one already known. -/
theorem ReachableWhen.invariant_with {J I : σ → Prop}
    (hJ : ∀ s, ReachableWhen step init ok s → J s) (h0 : ∀ s, init s → I s)
    (hs : ∀ s a s', J s → I s → ok s a → step s a = some s' → I s') {s : σ}
    (h : ReachableWhen step init ok s) : I s := by
  induction h with
  | init h => exact h0 _ h
  | step a hr ha hstep ih => exact hs _ a _ (hJ _ hr) ih ha hstep

/-- **Two systems with the same steps inside an invariant** reach the same states. -/
theorem ReachableWhen.congr {I : σ → Prop} {step' : σ → α → Option σ} (h0 : ∀ s, init s → I s)
    (hs : ∀ s a s', I s → ok s a → step s a = some s' → I s')
    (heq : ∀ s a, I s → ok s a → step' s a = step s a) {s : σ} :
    ReachableWhen step' init ok s ↔ ReachableWhen step init ok s := by
  constructor
  · intro h
    induction h with
    | init h => exact .init h
    | step a _ ha hstep ih =>
      rw [heq _ a (ih.invariant h0 hs) ha] at hstep
      exact .step a ih ha hstep
  · intro h
    induction h with
    | init h => exact .init h
    | step a hr ha hstep ih => exact .step a ih ha ((heq _ a (hr.invariant h0 hs) ha).trans hstep)

/-- A run goes on with actions that meet `ok` in every state. -/
theorem ReachableWhen.run {s s' : σ} {as : List α} (h : ReachableWhen step init ok s)
    (hok : ∀ a ∈ as, ∀ t, ok t a) (hr : run step s as = some s') :
    ReachableWhen step init ok s' :=
  run_invariant (fun t a _ ha hs hstep => .step a hs (hok a ha t) hstep) h hr

theorem Reachable.run {s s' : σ} {as : List α} (h : Reachable step init s)
    (hr : run step s as = some s') : Reachable step init s' :=
  ReachableWhen.run h (fun _ _ _ => trivial) hr

/-- The state a concrete schedule ends in is reachable. -/
theorem exists_reachable_of_run (step : σ → α → Option σ) {s : σ} (as : List α) (p : σ → Bool)
    (h0 : init s) (h : (Infra.run step s as).map p = some true) :
    ∃ s', Reachable step init s' ∧ p s' = true := by
  cases hr : Infra.run step s as with
  | none => simp [hr] at h
  | some s' =>
    rw [hr] at h
    exact ⟨s', Reachable.run (.init h0) hr, by simpa using h⟩

/-- The same for a schedule whose actions are checked against `ok` on the way. -/
theorem exists_reachableWhen_of_run (step : σ → α → Option σ) (check : σ → α → Bool)
    (hcheck : ∀ s a, check s a = true → ok s a) {s : σ} (as : List α) (p : σ → Bool)
    (h0 : init s)
    (h : (Infra.run (fun s a => if check s a then step s a else none) s as).map p = some true) :
    ∃ s', ReachableWhen step init ok s' ∧ p s' = true := by
  obtain ⟨s', hr, hp⟩ := Option.map_eq_some_iff.mp h
  refine ⟨s', run_invariant (fun s a t _ hs hstep => ?_) (.init h0) hr, hp⟩
  rw [Option.ite_none_right_eq_some] at hstep
  exact .step a hs (hcheck s a hstep.1) hstep.2

/-! ## Where some actions can lead -/

/-- Some actions of `own` alone lead from `s` to a state of `goal`. -/
def Leads (step : σ → α → Option σ) (own : α → Prop) (goal : σ → Prop) (s : σ) : Prop :=
  ∃ as s', (∀ a ∈ as, own a) ∧ Infra.run step s as = some s' ∧ goal s'

variable {own : α → Prop} {goal : σ → Prop}

theorem Leads.here {s : σ} (h : goal s) : Leads step own goal s :=
  ⟨[], s, by simp, rfl, h⟩

theorem Leads.next {s s' : σ} {a : α} (ha : own a) (hs : step s a = some s')
    (h : Leads step own goal s') : Leads step own goal s := by
  obtain ⟨as, t, hown, hr, hg⟩ := h
  refine ⟨a :: as, t, ?_, run_cons_some.mpr ⟨s', hs, hr⟩, hg⟩
  intro b hb
  rcases List.mem_cons.mp hb with rfl | hb
  · exact ha
  · exact hown b hb

/-- **The variant rule.** While a measure can be lowered inside `I` until `goal` holds,
`goal` is reached. -/
theorem Leads.of_measure {I : σ → Prop} (m : σ → Nat)
    (hdec : ∀ s, I s → goal s ∨ ∃ a s', own a ∧ step s a = some s' ∧ I s' ∧ m s' < m s) :
    ∀ {s : σ}, I s → Leads step own goal s := by
  suffices h : ∀ n s, m s = n → I s → Leads step own goal s from fun {s} hI => h (m s) s rfl hI
  intro n
  induction n using Nat.strongRecOn with
  | _ n ih =>
    intro s hn hI
    rcases hdec s hI with hg | ⟨a, s', ha, hs, hI', hlt⟩
    · exact .here hg
    · exact .next ha hs (ih (m s') (hn ▸ hlt) s' rfl hI')

/-- What the actions of `own` cannot leave keeps `goal` out of reach. -/
theorem not_leads_of_invariant {I : σ → Prop}
    (hs : ∀ s a s', own a → I s → step s a = some s' → I s') (hg : ∀ s, I s → ¬ goal s)
    {s : σ} (h : I s) : ¬ Leads step own goal s := by
  rintro ⟨as, t, hown, hr, ht⟩
  exact hg t (run_invariant (fun s a s' ha => hs s a s' (hown a ha)) h hr) ht

/-! ## Simulation -/

/-- Every step taken inside `I` is, under `abs`, a (possibly empty) run of the abstract system. -/
structure Simulation (step : σ → α → Option σ) (I : σ → Prop) (step' : τ → β → Option τ) where
  abs : σ → τ
  trace : σ → α → List β
  keep : ∀ s a s', I s → step s a = some s' → I s'
  commutes : ∀ s a s', I s → step s a = some s' →
    Infra.run step' (abs s) (trace s a) = some (abs s')

/-- **Runs are mapped to runs**, and actions counted on one side are counted on the other. -/
theorem Simulation.run_count {I : σ → Prop} {step' : τ → β → Option τ}
    (S : Simulation step I step') {p : β → Bool} {q : α → Bool}
    (hpq : ∀ s a, (S.trace s a).countP p = (q a).toNat) {as : List α} :
    ∀ {s s' : σ}, I s → Infra.run step s as = some s' →
      I s' ∧ ∃ bs, Infra.run step' (S.abs s) bs = some (S.abs s') ∧ bs.countP p = as.countP q := by
  induction as with
  | nil =>
    intro s s' h hr
    cases hr
    exact ⟨h, [], rfl, rfl⟩
  | cons a as ih =>
    intro s s' h hr
    obtain ⟨t, hat, hrt⟩ := run_cons_some.mp hr
    obtain ⟨hI, bs, hbs, hcount⟩ := ih (S.keep s a t h hat) hrt
    refine ⟨hI, S.trace s a ++ bs, ?_, ?_⟩
    · rw [run_append, S.commutes s a t h hat, Option.bind_some, hbs]
    · rw [List.countP_append, hpq, hcount, List.countP_cons]
      cases q a <;> simp <;> omega

end MiniOj.Infra
