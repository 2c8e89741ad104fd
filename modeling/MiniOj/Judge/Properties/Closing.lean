import MiniOj.Judge.Properties.Calls

/-!
# Which descriptors `compileSource` closes

The reader thread closes the read end of the error pipe, and after the join the calling
thread closes the same number again. Between the two another thread may have got it.

* `closes_own_iff` — a call closes only what it owns, in every interleaving, exactly when it
  ends before the reader is started
* `closes_foreign` — the second `close` hits a descriptor that another thread has just opened
-/

namespace MiniOj.Judge

open Infra

variable {now : Nat} {k k' : Kernel} {c c' : Call} {s : Server}

/-- Every `close` of the call found a descriptor that the call had opened and not yet closed. -/
def Call.ClosesOwn (c : Call) : Prop :=
  ∀ found ∈ c.closed, ∃ f, found = some f ∧
    (f = .other 0 ∨ ∃ n e side, c.ends n = some e ∧ f = fileOf e side)

/-! ## Calls that start no reader -/

structure NoReader (k : Kernel) (c : Call) : Prop where
  inv : CallInv k c
  unstarted : ∀ n closes, .startReader n closes ∉ c.todo
  readers : ∀ n, c.readers n = none
  closesOwn : c.ClosesOwn

theorem closesOwn_append {found : Option File} {closed : List (Option File)} {f : File}
    (h : ∀ found ∈ closed, ∃ f, found = some f ∧
      (f = .other 0 ∨ ∃ n e side, c.ends n = some e ∧ f = fileOf e side))
    (hf : found = some f) (hown : f = .other 0 ∨ ∃ n e side, c.ends n = some e ∧ f = fileOf e side) :
    ∀ found' ∈ closed ++ [found], ∃ f, found' = some f ∧
      (f = .other 0 ∨ ∃ n e side, c.ends n = some e ∧ f = fileOf e side) := by
  intro found' hm
  rcases List.mem_append.mp hm with hm | hm
  · exact h found' hm
  · rw [List.mem_singleton.mp hm]
    exact ⟨f, hf, hown⟩

theorem NoReader.mainMove (h : NoReader k c) (hm : MainMove 0 now k c k' c') : NoReader k' c' := by
  have hD := h.inv.descriptors
  have hun : ∀ n closes, .startReader n closes ∉ c'.todo := by
    intro n closes hin
    obtain ⟨s₀, rest, ht, hto | ⟨s', hto, hkind⟩⟩ := hm.todo
    · exact h.unstarted n closes (mem_todo ht (hto ▸ hin))
    · rw [hto] at hin
      rcases List.mem_cons.mp hin with rfl | hin
      · rcases hkind with ⟨-, hl⟩ | ⟨bytes, bytes', -, hs'⟩
        · exact hl.elim
        · cases hs'
      · exact h.unstarted n closes (mem_todo ht hin)
  have hinv := h.inv.mainMove hm
  cases hm with
  | closeSource rest ht fd hs =>
    refine ⟨hinv, hun, h.readers, closesOwn_append h.closesOwn ?_ (Or.inl rfl)⟩
    rcases hD.source (head_mem_todo ht) with hin | ⟨fd', hs', hg⟩
    · rw [ht, mem_cons_ne (by simp)] at hin
      exact absurd hin (hD.tail ht).1.1
    · rw [hs] at hs'
      cases hs'
      exact hg
  | pipe n rest ht =>
    refine ⟨hinv, hun, h.readers, fun found hm => ?_⟩
    obtain ⟨f, hf, hown⟩ := h.closesOwn found hm
    refine ⟨f, hf, hown.imp id ?_⟩
    rintro ⟨m, e, side, he, hfile⟩
    have hmn : m ≠ n := by
      rintro rfl
      rw [(hD.unopened m (head_mem_todo ht)).1] at he
      cases he
    exact ⟨m, e, side, (Function.update_of_ne hmn _ _).trans he, hfile⟩
  | close n side rest ht e he =>
    refine ⟨hinv, hun, h.readers,
      closesOwn_append h.closesOwn (hD.get_of_open he ⟨?_, ?_⟩) (Or.inr ⟨n, e, side, he, rfl⟩)⟩
    · exact head_mem_todo ht
    · intro r _ hr
      rw [h.readers n] at hr
      cases hr
  | startReader n closes rest ht =>
    exact absurd (head_mem_todo ht) (h.unstarted n closes)
  | _ => exact ⟨hinv, hun, h.readers, h.closesOwn⟩

theorem closesOwn_of_noReader {script : List Stmt} {limit : Int} {capacity : Nat}
    (hs : WellScripted script) (hno : ∀ n closes, .startReader n closes ∉ script)
    (h : Reachable Server.step (Server.Init capacity [.fresh script limit]) s) :
    ∃ c, s.calls = [c] ∧ c.ClosesOwn := by
  have key : ∃ c, s.calls = [c] ∧ NoReader s.kernel c := by
    refine h.invariant_with (J := fun s => ∃ c, s.calls = [c] ∧ CallInv s.kernel c)
      (I := fun s => ∃ c, s.calls = [c] ∧ NoReader s.kernel c)
      (fun _ hr => callInv_of_reachable hs hr) ?_ ?_
    · intro s h0
      obtain ⟨c, hc, hI⟩ := callInv_of_reachable hs (.init h0)
      rw [h0.calls] at hc
      cases hc
      exact ⟨_, h0.calls, hI, hno, fun _ => rfl, fun _ hm => nomatch hm⟩
    · rintro s a s' - ⟨c, hc, hN⟩ - hstep
      obtain ⟨c', hc', hm⟩ := soloMove_of_step hc hstep
      refine ⟨c', hc', ?_⟩
      have hinv := hN.inv.soloMove hm
      cases hm with
      | main k' c' hm => exact hN.mainMove hm
      | reader n k' c' hm =>
        have : ∃ r, c.readers n = some r := by cases hm <;> exact ⟨_, ‹_›⟩
        obtain ⟨r, hr⟩ := this
        rw [hN.readers n] at hr
        cases hr
      | _ => exact ⟨hinv, hN.unstarted, hN.readers, hN.closesOwn⟩
  obtain ⟨c, hc, hN⟩ := key
  exact ⟨c, hc, hN.closesOwn⟩

/-! ## Calls that start the reader -/

/-- The child ends, the reader closes its descriptor, `others` happens, and then the calling
thread joins the reader and closes the number. -/
def closingRun (others : List Action) : List Action :=
  List.replicate 7 (.main 0) ++
    [.proc 0 (.die (.exited 0)), .reader 0 .stderrPipe, .reader 0 .stderrPipe] ++ others ++
    List.replicate 3 (.main 0)

/-- What the four `close` calls find. -/
theorem closed_closingRun {request : CompileRequest} (h : request.workingDirectory ≠ [])
    (capacity : Nat) :
    (run Server.step (Server.idle capacity [.compileSource request .started]) (closingRun [])).map
        (fun s => s.calls.map Call.closed) =
      some [[some (.other 0), some (.writeEnd 0), some (.readEnd 0), none]] := by
  unfold Call.compileSource compileSourceCalls
  rw [if_neg h]
  rfl

/-- **When `compileSource` closes only its own descriptors.** In every interleaving with the
descriptor operations of other threads, exactly when the call ends before the reader thread
is started: without a working directory, or when the source file, the pipe or the child
cannot be made. -/
theorem closes_own_iff (request : CompileRequest) (spawn : Spawn) (capacity : Nat) :
    (∀ s c, Reachable Server.step (Server.Init capacity [.compileSource request spawn]) s →
        s.calls = [c] → c.ClosesOwn) ↔
      request.workingDirectory = [] ∨ spawn ≠ .started := by
  constructor
  · intro h
    by_cases hdir : request.workingDirectory = []
    · exact Or.inl hdir
    refine Or.inr fun hspawn => ?_
    subst hspawn
    have hrun := closed_closingRun hdir capacity
    obtain ⟨s, hs, hclosed⟩ := Option.map_eq_some_iff.mp hrun
    obtain ⟨c, hc, hcl⟩ := List.map_eq_singleton_iff.mp hclosed
    have hreach := Reachable.run (.init (Server.init_idle capacity _)) hs
    obtain ⟨f, hf, -⟩ := h s c hreach hc none (by rw [hcl]; simp)
    cases hf
  · intro h s c hreach hc
    have hno : ∀ n closes, .startReader n closes ∉ compileSourceCalls request spawn := by
      intro n closes hin
      unfold compileSourceCalls at hin
      rcases h with hdir | hspawn
      · simp [hdir] at hin
      · split at hin
        · cases hin
        · cases spawn with
          | started => exact hspawn rfl
          | _ => simp at hin
    obtain ⟨c', hc', hown⟩ :=
      closesOwn_of_noReader (wellScripted_compileSource request spawn) hno hreach
    rw [hc] at hc'
    cases hc'
    exact hown

/-- The only call has closed a connection that belongs to thread 7. -/
def closesOther (s : Server) : Bool :=
  match s.calls with
  | [c] => c.closed.contains (some (.other 7))
  | _ => false

/-- Another thread accepts a connection between the two `close` calls and gets the number;
the second `close` takes the connection away from it. -/
theorem closes_foreign :
    ¬ ∀ (request : CompileRequest) (spawn : Spawn) (capacity : Nat) (s : Server) (c : Call),
      Reachable Server.step (Server.Init capacity [.compileSource request spawn]) s →
      s.calls = [c] → c.ClosesOwn := by
  intro h
  obtain ⟨s, hreach, hp⟩ := exists_reachable_of_run Server.step (closingRun [.openOther 7])
    closesOther
    (Server.init_idle 65536 [.compileSource { sourceCode := [], workingDirectory := [47] } .started])
    (by decide)
  unfold closesOther at hp
  split at hp
  · next c hc =>
    rw [List.contains_iff_mem] at hp
    -- what the call closed is neither its source file nor an end of its pipe
    obtain ⟨f, hf, hown⟩ := h _ _ _ s c hreach hc _ hp
    cases hf
    rcases hown with hown | ⟨n, e, side, -, hown⟩
    · cases hown
    · cases side <;> cases hown
  · cases hp

end MiniOj.Judge
