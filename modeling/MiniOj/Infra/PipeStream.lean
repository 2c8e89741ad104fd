import MiniOj.Infra.Holding

/-!
# What goes through a pipe

A pipe is first in, first out: what a process writes is appended, what anybody reads comes off
the front.

* `puts` — the bytes that one call of a process adds to a pipe
* `content_procStep` — a step of a process adds just these, unless it may read from the pipe
-/

namespace MiniOj.Infra.Kernel

variable {k k' : Kernel} {p pid : Nat}

/-- The bytes that a process adds to pipe `p`: as many as `write` reports. -/
def puts (k : Kernel) (p pid : Nat) : ProcAction → List UInt8
  | .call (.write fd bytes) =>
    match k.procs[pid]? with
    | some proc =>
      if proc.fds.get fd = some (.writeEnd p) then
        match k.write (some (.writeEnd p)) bytes with
        | some (_, some written) => bytes.take written
        | _ => []
      else []
    | none => []
  | _ => []

/-- Without a descriptor for the write end nothing is added. -/
theorem puts_eq_nil (h : ∀ proc ∈ k.procs, ¬ proc.fds.Holds (.writeEnd p)) (a : ProcAction) :
    k.puts p pid a = [] := by
  unfold puts
  split
  · next fd bytes =>
    split
    · next proc hproc =>
      exact if_neg fun hg => h proc (List.mem_of_getElem? hproc) ⟨fd, hg⟩
    · rfl
  · rfl

/-- What `write` reports is at the end of the pipe. -/
theorem content_write (hp : p < k.pipes.length) {bytes : List UInt8} {written : Option Nat}
    (h : k.write (some (.writeEnd p)) bytes = some (k', written)) :
    k'.content p = k.content p ++ written.elim [] bytes.take := by
  rcases write_cases h with ⟨q, room, hq, -, -, -, -, rfl, rfl⟩ | ⟨rfl, hnone⟩
  · cases hq
    rw [content_set_self hp, Option.elim_some, List.length_take, ← List.take_eq_take_min]
  · by_cases hb : bytes = []
    · subst hb
      cases written <;> simp
    · rw [hnone p rfl hb, Option.elim_none, List.append_nil]

/-- A `write` into something else leaves the pipe alone. -/
theorem content_write_other {g : Option File} (hg : g ≠ some (.writeEnd p)) {bytes : List UInt8}
    {written : Option Nat} (h : k.write g bytes = some (k', written)) :
    k'.content p = k.content p := by
  rcases write_cases h with ⟨q, room, hq, -, -, -, -, -, rfl⟩ | ⟨rfl, -⟩
  · refine content_set_ne ?_
    rintro rfl
    exact hg hq
  · rfl

theorem content_read_other {g : Option File} (hg : g ≠ some (.readEnd p)) {size : Nat}
    {got : Option (List UInt8)} (h : k.read g size = some (k', got)) :
    k'.content p = k.content p := by
  rcases read_cases h with ⟨q, hq, -, -, rfl⟩ | ⟨-, -, -, -, -, rfl⟩ | ⟨-, -, rfl⟩
  · refine content_set_ne ?_
    rintro rfl
    exact hg hq
  · rfl
  · rfl

theorem content_exit (k : Kernel) (pid : Nat) (status : WaitStatus) :
    (k.exit pid status).content p = k.content p := by
  rcases exit_cases k pid status with ⟨-, he⟩ | ⟨proc, -, -, he⟩ <;> rw [he]
  rfl

theorem puts_call {proc : Proc} (hproc : k.procs[pid]? = some proc) {fd : Nat}
    {bytes : List UInt8} {written : Option Nat}
    (hw : k.write (proc.fds.get fd) bytes = some (k', written)) :
    k.puts p pid (.call (.write fd bytes)) =
      if proc.fds.get fd = some (.writeEnd p) then written.elim [] bytes.take else [] := by
  simp only [puts, hproc]
  by_cases hg : proc.fds.get fd = some (.writeEnd p)
  · rw [hg] at hw
    rw [if_pos hg, if_pos hg, hw]
    cases written <;> rfl
  · rw [if_neg hg, if_neg hg]

theorem content_syscall {proc : Proc} (hproc : k.procs[pid]? = some proc) (hp : p < k.pipes.length)
    (hread : ¬ proc.fds.Holds (.readEnd p)) {c : Syscall} (h : k.syscall pid proc c = some k') :
    k'.content p = k.content p ++ k.puts p pid (.call c) := by
  cases c with
  | read fd size =>
    obtain ⟨⟨k₁, got⟩, hr, rfl⟩ := Option.map_eq_some_iff.mp h
    rw [content_read_other (fun hg => hread ⟨fd, hg⟩) hr]
    exact (List.append_nil _).symm
  | write fd bytes =>
    obtain ⟨⟨k₁, written⟩, hw, rfl⟩ := Option.map_eq_some_iff.mp h
    rw [puts_call hproc hw]
    by_cases hg : proc.fds.get fd = some (.writeEnd p)
    · rw [if_pos hg]
      rw [hg] at hw
      exact content_write hp hw
    · rw [if_neg hg, List.append_nil]
      exact content_write_other hg hw
  | pipe =>
    cases h
    exact (content_push rfl p).trans (List.append_nil _).symm
  | close fd => cases h; exact (List.append_nil _).symm
  | dup2 old new => cases h; exact (List.append_nil _).symm
  | openFile owner => cases h; exact (List.append_nil _).symm
  | fork => cases h; exact (List.append_nil _).symm

/-- **What a step of a process adds to a pipe** that no process may read from. -/
theorem content_procStep {a : ProcAction} (h : k.procStep pid a = some k')
    (hp : p < k.pipes.length)
    (hread : ∀ proc ∈ k.procs, proc.setup = [] → ¬ proc.fds.Holds (.readEnd p)) :
    k'.content p = k.content p ++ k.puts p pid a := by
  unfold procStep at h
  split at h
  · cases h
  next proc hproc =>
  split at h
  · split at h
    · split at h
      · cases h
        exact (content_exit k pid _).trans (List.append_nil _).symm
      · cases h
        exact (List.append_nil _).symm
    · next c hs =>
      exact content_syscall hproc hp (hread proc (List.mem_of_getElem? hproc) hs) h
    · cases h
      exact (content_exit k pid _).trans (List.append_nil _).symm
    · cases h
  · cases h

end MiniOj.Infra.Kernel
