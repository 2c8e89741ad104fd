import MiniOj.Judge.Syscalls

/-!
# What a submission leaves behind

Which failing system calls make `runPipeline` leave descriptors, children or its work directory
behind, or end the server. `Track` accounts for what is open, unwaited and unjoined after each
call; the rules of `Ends` follow the source with it.

* `cleanedUp_iff` — everything is cleaned up exactly when no call that the run makes is one of
  four kinds and fails
* `leaks_pipes` — a submission whose second pipe fails
-/

namespace MiniOj.Judge.Sys

open Infra
open Http (PipelineInput)

variable {m : Machine} {s₀ s s' : Os} {α : Type}

/-- The program, run alone on the machine, ends in `Q`. -/
abbrev Ends (m : Machine) (p : Calling α) (s : Os) (Q : Except Abort α → Os → Prop) : Prop :=
  Program.Ends m.exec p s Q

/-! ## The account -/

/-- What a run owes at some point, and the tables it has filled. -/
structure Account where
  /-- descriptors opened and not closed -/
  fds : List Nat
  /-- children forked and not waited for -/
  kids : List Nat
  unjoined : List Nat
  readers : List (Nat × Bool)
  directories : List Bytes
  /-- directories that the run has created -/
  created : List Bytes

/-- The calls whose failure the source does not clean up after. -/
def SysCall.Harmful : SysCall → Bool
  | pipe .runBinary .stdoutPipe | pipe .runBinary .stderrPipe => true
  | startReader _ _ _ => true
  | removeAll _ => true
  | _ => false

/-- Since `s₀` the run has come to owe what `a` says; `harm` says whether a harmful call has
failed. -/
structure Track (s₀ : Os) (a : Account) (harm : Prop) (s : Os) : Prop where
  same : ∀ fd, fd ∉ a.fds → s.kernel.server.get fd = s₀.kernel.server.get fd
  opened : ∀ fd ∈ a.fds, s₀.kernel.server.get fd = none ∧ s.kernel.server.get fd ≠ none
  earlier : s₀.kernel.procs.length ≤ s.kernel.procs.length
  waited : ∀ pid proc, s₀.kernel.procs.length ≤ pid → s.kernel.procs[pid]? = some proc →
    pid ∉ a.kids → proc.life = .reaped
  running : ∀ pid ∈ a.kids, s₀.kernel.procs.length ≤ pid ∧
    ∃ proc, s.kernel.procs[pid]? = some proc ∧ proc.life = .running
  unjoined : s.unjoined = a.unjoined
  readers : s.readers = a.readers
  directories : s.directories = a.directories
  log : ∃ new, s.log = s₀.log ++ new ∧
    (harm ↔ ∃ c, (c, true) ∈ new ∧ c.Harmful = true) ∧
    ∀ dir, (.createDirectories dir, false) ∈ new ↔ dir ∈ a.created

variable {a : Account} {harm : Prop}

/-- At the start nothing is owed, and nothing harmful has happened. -/
theorem Track.start (s : Os) :
    Track s ⟨[], [], s.unjoined, s.readers, s.directories, []⟩ False s := by
  refine ⟨fun _ _ => rfl, nofun, Nat.le_refl _, ?_, nofun, rfl, rfl, rfl, [], by simp, by simp,
    by simp⟩
  intro pid proc hle hp
  have := (List.getElem?_eq_some_iff.mp hp).1
  omega

theorem Machine.log_perform (m : Machine) (s : Os) (c : SysCall) (e : Option Bytes) :
    (m.perform s c e).2.log = s.log := by
  cases c <;> cases e <;> rfl

/-- A call that is not `createDirectories` is added to the log. -/
theorem Track.record {c : SysCall} (hc : ∀ dir, c ≠ .createDirectories dir)
    (h : Track s₀ a harm (m.perform s c (m.error s c)).2) :
    Track s₀ a (harm ∨ (m.error s c).isSome = true ∧ c.Harmful = true) (m.exec c s).2 := by
  obtain ⟨new, hlog, hharm, hcreated⟩ := h.log
  rw [m.log_perform] at hlog
  refine ⟨h.same, h.opened, h.earlier, h.waited, h.running, h.unjoined, h.readers, h.directories,
    new ++ [(c, (m.error s c).isSome)], ?_, ?_, ?_⟩
  · show s.log ++ _ = _
    rw [hlog, List.append_assoc]
  · rw [hharm]
    constructor
    · rintro (⟨d, hd, hh⟩ | ⟨he, hh⟩)
      · exact ⟨d, List.mem_append_left _ hd, hh⟩
      · exact ⟨c, by simp [he], hh⟩
    · rintro ⟨d, hd, hh⟩
      rcases List.mem_append.mp hd with hd | hd
      · exact .inl ⟨d, hd, hh⟩
      · simp only [List.mem_singleton, Prod.mk.injEq] at hd
        obtain ⟨rfl, he⟩ := hd
        exact .inr ⟨he.symm, hh⟩
  · intro dir
    rw [← hcreated dir, List.mem_append, List.mem_singleton]
    simp only [Prod.mk.injEq, or_iff_left_iff_imp]
    rintro ⟨rfl, -⟩
    exact absurd rfl (hc dir)

/-- The descriptors owed matter as a set. -/
theorem Track.fds_congr (h : Track s₀ a harm s) {fds : List Nat}
    (hfds : ∀ fd, fd ∈ fds ↔ fd ∈ a.fds) : Track s₀ { a with fds } harm s :=
  ⟨fun fd hfd => h.same fd fun hm => hfd ((hfds fd).mpr hm),
    fun fd hfd => h.opened fd ((hfds fd).mp hfd), h.earlier, h.waited, h.running, h.unjoined,
    h.readers, h.directories, h.log⟩

/-- The order of the children does not matter. -/
theorem Track.kids_congr (h : Track s₀ a harm s) {kids : List Nat}
    (hkids : ∀ pid, pid ∈ kids ↔ pid ∈ a.kids) : Track s₀ { a with kids } harm s :=
  ⟨h.same, h.opened, h.earlier,
    fun pid proc hle hp hpid => h.waited pid proc hle hp fun hm => hpid ((hkids pid).mpr hm),
    fun pid hpid => h.running pid ((hkids pid).mp hpid), h.unjoined, h.readers, h.directories,
    h.log⟩

/-! ## The rules -/

/-- The rule for a call whose failure is harmless. -/
theorem Track.call (s₀ : Os) (harm : Prop) {c : SysCall} {k : c.Reply → Calling α}
    {Q : Except Abort α → Os → Prop} (hc : ∀ dir, c ≠ .createDirectories dir)
    (hharm : c.Harmful = false)
    (h : ∀ e, ∃ a', Track s₀ a' harm (m.perform s c e).2 ∧
      ∀ s', Track s₀ a' harm s' → Ends m (k (m.perform s c e).1) s' Q) :
    Ends m (.call c k) s Q := by
  obtain ⟨a', htrack, hk⟩ := h (m.error s c)
  exact hk _ (by simpa [hharm] using htrack.record hc)

/-- The rule for a call whose failure is harmful. -/
theorem Track.harmfulCall (s₀ : Os) (harm : Prop) {c : SysCall} {k : c.Reply → Calling α}
    {Q : Except Abort α → Os → Prop} (hc : ∀ dir, c ≠ .createDirectories dir)
    (hharm : c.Harmful = true)
    (hfail : ∀ e, ∃ a', Track s₀ a' harm (m.perform s c (some e)).2 ∧
      ∀ s', Track s₀ a' True s' → Ends m (k (m.perform s c (some e)).1) s' Q)
    (hok : ∃ a', Track s₀ a' harm (m.perform s c none).2 ∧
      ∀ s', Track s₀ a' harm s' → Ends m (k (m.perform s c none).1) s' Q) :
    Ends m (.call c k) s Q := by
  show Ends m (k (m.perform s c (m.error s c)).1) (m.exec c s).2 Q
  have hrecord := fun a => @Track.record m s₀ s a harm c hc
  cases he : m.error s c with
  | some e =>
    obtain ⟨a', htrack, hk⟩ := hfail e
    rw [he] at hrecord
    exact hk _ (by simpa [hharm] using hrecord a' htrack)
  | none =>
    obtain ⟨a', htrack, hk⟩ := hok
    rw [he] at hrecord
    exact hk _ (by simpa using hrecord a' htrack)

/-- A call that changes nothing the account speaks of. -/
theorem Track.neutral {c : SysCall} {k : c.Reply → Calling α} {Q : Except Abort α → Os → Prop}
    (h : Track s₀ a harm s) (hsame : ∀ e, ∃ counter, (m.perform s c e).2 = { s with counter })
    (hc : ∀ dir, c ≠ .createDirectories dir) (hharm : c.Harmful = false)
    (hk : ∀ r s', Track s₀ a harm s' → Ends m (k r) s' Q) : Ends m (.call c k) s Q := by
  refine Track.call s₀ harm hc hharm fun e => ⟨a, ?_, fun s' hs' => hk _ s' hs'⟩
  obtain ⟨counter, hs⟩ := hsame e
  rw [hs]
  exact ⟨h.same, h.opened, h.earlier, h.waited, h.running, h.unjoined, h.readers, h.directories,
    h.log⟩

/-- Close a number that was free when the run began, whether or not it is open now. -/
theorem Track.closeFd (h : Track s₀ a harm s) {fd : Nat}
    (hfd : s₀.kernel.server.get fd = none) :
    Track s₀ { a with fds := a.fds.filter (· != fd) } harm
      { s with kernel := s.kernel.close fd } := by
  have hself : (s.kernel.close fd).server.get fd = none := FdTable.get_put_self _ _ _
  have hother : ∀ n, n ≠ fd → (s.kernel.close fd).server.get n = s.kernel.server.get n :=
    fun n hn => FdTable.get_put_ne _ _ hn
  refine ⟨fun n hn => ?_, fun n hn => ?_, h.earlier, h.waited, h.running, h.unjoined, h.readers,
    h.directories, h.log⟩
  · by_cases hne : n = fd
    · rw [hne]
      exact hself.trans hfd.symm
    · exact (hother n hne).trans (h.same n fun hmem => hn (by simp [hmem, hne]))
  · obtain ⟨hmem, hne⟩ : n ∈ a.fds ∧ n ≠ fd := by simpa using hn
    obtain ⟨hbefore, hnow⟩ := h.opened n hmem
    exact ⟨hbefore, fun hnone => hnow ((hother n hne).symm.trans hnone)⟩

/-- One descriptor less is owed. -/
theorem Track.close {n : PipeName} {side : Side} {e : PipeEnds} {k : Unit → Calling α}
    {Q : Except Abort α → Os → Prop} (h : Track s₀ a harm s)
    (hfd : s₀.kernel.server.get (fdOf e side) = none)
    (hk : ∀ s', Track s₀ { a with fds := a.fds.filter (· != fdOf e side) } harm s' →
      Ends m (k ()) s' Q) : Ends m (Sys.close n side e >>= k) s Q :=
  Track.call s₀ harm (c := .close n side (fdOf e side)) (k := k) (by simp) rfl fun _ =>
    ⟨_, h.closeFd hfd, hk⟩

/-- One descriptor more is owed. -/
theorem Track.openFd {k' : Kernel} {fd : Nat} {f : File} (h : Track s₀ a harm s)
    (hfree : s.kernel.server.get fd = none) (hserver : k'.server = s.kernel.server.put fd (some f))
    (hprocs : k'.procs = s.kernel.procs) :
    Track s₀ { a with fds := fd :: a.fds } harm { s with kernel := k' } := by
  have hnew : fd ∉ a.fds := fun hm => (h.opened fd hm).2 hfree
  refine ⟨fun n hn => ?_, fun n hn => ?_, hprocs ▸ h.earlier, hprocs ▸ h.waited,
    hprocs ▸ h.running, h.unjoined, h.readers, h.directories, h.log⟩
  · show k'.server.get n = _
    rw [List.mem_cons, not_or] at hn
    rw [hserver, FdTable.get_put_ne _ _ hn.1]
    exact h.same n hn.2
  · show _ ∧ k'.server.get n ≠ none
    rw [hserver]
    rcases List.mem_cons.mp hn with rfl | hn
    · exact ⟨by rw [← h.same n hnew, hfree], by simp⟩
    · have hne : n ≠ fd := fun he => hnew (he ▸ hn)
      rw [FdTable.get_put_ne _ _ hne]
      exact h.opened n hn

/-- The source file is opened, or not. -/
theorem Track.openSource {path : Bytes} {k : Option Nat → Calling α}
    {Q : Except Abort α → Os → Prop} (h : Track s₀ a harm s)
    (hfail : ∀ s', Track s₀ a harm s' → Ends m (k none) s' Q)
    (hok : ∀ fd s', Track s₀ { a with fds := fd :: a.fds } harm s' → Ends m (k (some fd)) s' Q) :
    Ends m (.call (.openSource path) k) s Q := by
  refine Track.call s₀ harm (by simp) rfl fun e => ?_
  cases e with
  | some e => exact ⟨a, h, hfail⟩
  | none => exact ⟨_, h.openFd (FdTable.get_lowest _) rfl rfl, hok _⟩

/-- Two descriptors more are owed. -/
theorem Track.openPipe (h : Track s₀ a harm s) :
    Track s₀ { a with fds := s.kernel.pipe.1.write :: s.kernel.pipe.1.read :: a.fds } harm
      { s with kernel := s.kernel.pipe.2 } := by
  let r := s.kernel.server.lowest
  let k' : Kernel := { s.kernel with
    server := s.kernel.server.put r (some (.readEnd s.kernel.pipes.length)) }
  have hread : Track s₀ { a with fds := r :: a.fds } harm { s with kernel := k' } :=
    h.openFd (FdTable.get_lowest _) rfl rfl
  exact hread.openFd (FdTable.get_lowest k'.server) rfl rfl

/-- A pipe whose failure the caller cleans up after. -/
theorem Track.pipe {starter : Starter} {n : PipeName} {k : Except Bytes PipeEnds → Calling α}
    {Q : Except Abort α → Os → Prop} (h : Track s₀ a harm s)
    (hharm : (SysCall.pipe starter n).Harmful = false)
    (hfail : ∀ e s', Track s₀ a harm s' → Ends m (k (.error e)) s' Q)
    (hok : ∀ e s', Track s₀ { a with fds := e.write :: e.read :: a.fds } harm s' →
      Ends m (k (.ok e)) s' Q) : Ends m (.call (.pipe starter n) k) s Q := by
  refine Track.call s₀ harm (by simp) hharm fun e => ?_
  cases e with
  | some e => exact ⟨a, h, hfail e⟩
  | none => exact ⟨_, h.openPipe, hok _⟩

/-- A pipe that cannot be made while another is open. -/
theorem Track.harmfulPipe {starter : Starter} {n : PipeName} {k : Except Bytes PipeEnds → Calling α}
    {Q : Except Abort α → Os → Prop} (h : Track s₀ a harm s)
    (hharm : (SysCall.pipe starter n).Harmful = true)
    (hfail : ∀ e s', Track s₀ a True s' → Ends m (k (.error e)) s' Q)
    (hok : ∀ e s', Track s₀ { a with fds := e.write :: e.read :: a.fds } harm s' →
      Ends m (k (.ok e)) s' Q) : Ends m (.call (.pipe starter n) k) s Q :=
  Track.harmfulCall s₀ harm (by simp) hharm (fun e => ⟨a, h, hfail e⟩) ⟨_, h.openPipe, hok _⟩

/-- One child more is owed. -/
theorem Track.fork {child : List SetupCall} {k : Except Bytes Nat → Calling α}
    {Q : Except Abort α → Os → Prop} (h : Track s₀ a harm s)
    (hfail : ∀ e s', Track s₀ a harm s' → Ends m (k (.error e)) s' Q)
    (hok : ∀ pid s', Track s₀ { a with kids := pid :: a.kids } harm s' →
      Ends m (k (.ok pid)) s' Q) : Ends m (.call (.fork child) k) s Q := by
  refine Track.call s₀ harm (by simp) rfl fun e => ?_
  cases e with
  | some e => exact ⟨a, h, hfail e⟩
  | none =>
    refine ⟨{ a with kids := s.kernel.procs.length :: a.kids }, ?_, hok _⟩
    refine ⟨h.same, h.opened, ?_, ?_, ?_, h.unjoined, h.readers, h.directories, h.log⟩
    · have hle := h.earlier
      simp only [Machine.perform, Kernel.fork, List.length_append]
      omega
    · intro pid proc hle hp hpid
      rw [List.mem_cons, not_or] at hpid
      simp only [Machine.perform, Kernel.fork] at hp
      rw [List.getElem?_append] at hp
      split at hp
      · exact h.waited pid proc hle hp hpid.2
      · next hlt =>
        have hlast := (List.getElem?_eq_some_iff.mp hp).1
        simp only [List.length_singleton] at hlast
        omega
    · intro pid hpid
      simp only [Machine.perform, Kernel.fork]
      rcases List.mem_cons.mp hpid with rfl | hpid
      · exact ⟨h.earlier, _, List.getElem?_concat_length .., rfl⟩
      · obtain ⟨hle, proc, hp, hrunning⟩ := h.running pid hpid
        refine ⟨hle, proc, ?_, hrunning⟩
        rw [List.getElem?_append_left (List.getElem?_eq_some_iff.mp hp).1]
        exact hp

/-- The status of a child that has ended is read at once. -/
theorem waitpid_exit {k : Kernel} {pid : Nat} {proc : Proc} {status : WaitStatus}
    (hp : k.procs[pid]? = some proc) (hrunning : proc.life = .running) :
    (k.exit pid status).waitpid pid =
      ({ k with procs := k.procs.set pid { proc with fds := [], life := .reaped } },
        .ended status) := by
  have hlt := (List.getElem?_eq_some_iff.mp hp).1
  have hexit : k.exit pid status = { k with
      procs := k.procs.set pid { proc with fds := [], life := .zombie status } } := by
    simp only [Kernel.exit, hp]
    exact if_pos hrunning
  simp [hexit, Kernel.waitpid, List.getElem?_set_self hlt]

/-- **The wait loop settles its child**, however it ends. -/
theorem Track.wait {pid start : Nat} {limit : Int} {k : LoopEnd → Calling α}
    {Q : Except Abort α → Os → Prop} (h : Track s₀ a harm s) (hpid : pid ∈ a.kids)
    (hk : ∀ loopEnd s', Track s₀ { a with kids := a.kids.filter (· != pid) } harm s' →
      Ends m (k loopEnd) s' Q) : Ends m (.call (.wait pid start limit) k) s Q := by
  obtain ⟨hle, proc, hp, hrunning⟩ := h.running pid hpid
  refine Track.call s₀ harm (by simp) rfl fun e => ⟨_, ?_, hk _⟩
  simp only [Machine.perform, Machine.waitFor, waitpid_exit hp hrunning]
  refine ⟨h.same, h.opened, ?_, ?_, ?_, h.unjoined, h.readers, h.directories, h.log⟩
  · rw [List.length_set]
    exact h.earlier
  · intro pid' proc' hle' hp' hpid'
    rw [List.getElem?_set] at hp'
    split at hp'
    · split at hp'
      · cases hp'
        rfl
      · cases hp'
    · next hne =>
      refine h.waited pid' proc' hle' hp' fun hm => hpid' ?_
      simpa using ⟨hm, fun he => hne he.symm⟩
  · intro pid' hpid'
    obtain ⟨hm, hne⟩ : pid' ∈ a.kids ∧ pid' ≠ pid := by simpa using hpid'
    obtain ⟨hle', proc', hp', hrunning'⟩ := h.running pid' hm
    exact ⟨hle', proc', by rw [List.getElem?_set_ne hne.symm]; exact hp', hrunning'⟩

/-- One thread more is owed, and a failure here is harmful. -/
theorem Track.startReader {n : PipeName} {fd : Nat} {closes : Bool}
    {k : Except Bytes Nat → Calling α} {Q : Except Abort α → Os → Prop} (h : Track s₀ a harm s)
    (hfail : ∀ e s', Track s₀ a True s' → Ends m (k (.error e)) s' Q)
    (hok : ∀ s', Track s₀ { a with
        readers := a.readers ++ [(fd, closes)], unjoined := a.readers.length :: a.unjoined }
        harm s' → Ends m (k (.ok a.readers.length)) s' Q) :
    Ends m (.call (.startReader n fd closes) k) s Q := by
  refine Track.harmfulCall s₀ harm (by simp) rfl (fun e => ⟨a, h, hfail e⟩) ⟨{ a with
    readers := a.readers ++ [(fd, closes)], unjoined := a.readers.length :: a.unjoined }, ?_, ?_⟩
  · refine ⟨h.same, h.opened, h.earlier, h.waited, h.running, ?_, ?_, h.directories, h.log⟩
    · simp only [Machine.perform, h.readers, h.unjoined]
    · simp only [Machine.perform, h.readers]
  · simpa only [Machine.perform, h.readers] using hok

/-- A thread that is joined has closed what it was to close. -/
theorem Track.join {n : PipeName} {thread : Nat} {k : Bytes → Calling α}
    {Q : Except Abort α → Os → Prop} (h : Track s₀ a harm s)
    {fd : Nat} {closes : Bool} (hreader : a.readers[thread]? = some (fd, closes))
    (hfd : closes = true → s₀.kernel.server.get fd = none)
    (hk : ∀ sink s', Track s₀ { a with
        unjoined := a.unjoined.filter (· != thread)
        fds := if closes then a.fds.filter (· != fd) else a.fds } harm s' →
      Ends m (k sink) s' Q) : Ends m (.call (.join n thread) k) s Q := by
  refine Track.call s₀ harm (by simp) rfl fun e => ⟨_, ?_, hk _⟩
  have hjoined : Track s₀ { a with unjoined := a.unjoined.filter (· != thread) } harm
      { s with unjoined := s.unjoined.filter (· != thread) } :=
    ⟨h.same, h.opened, h.earlier, h.waited, h.running, by rw [h.unjoined], h.readers,
      h.directories, h.log⟩
  rw [← h.readers] at hreader
  simp only [Machine.perform, hreader]
  cases closes with
  | true => exact hjoined.closeFd (hfd rfl)
  | false => exact hjoined

/-- Destroying a thread that is not joined ends the process. -/
theorem Track.destroyThread {thread : Nat} {Q : Except Abort Unit → Os → Prop}
    (h : Track s₀ a harm s)
    (hk : ∀ s', Track s₀ a harm s' →
      Q (if thread ∈ a.unjoined then .error .terminate else .ok ()) s') :
    Ends m (Sys.destroyThread thread) s Q := by
  refine Track.call s₀ harm (by simp) rfl fun e => ⟨a, h, fun s' hs' => ?_⟩
  have hQ := hk s' hs'
  simp only [Machine.perform, h.unjoined]
  split at hQ
  · next hmem =>
    simp only [hmem, decide_true, if_true]
    exact hQ
  · next hmem =>
    simp only [hmem, decide_false]
    exact hQ

/-! ## `compileSource` -/

variable {unjoined : List Nat} {readers : List (Nat × Bool)} {directories created : List Bytes}

/-- Between the steps of the pipeline nothing is owed. -/
abbrev nothingOwed (unjoined : List Nat) (readers : List (Nat × Bool))
    (directories created : List Bytes) : Account :=
  { fds := [], kids := [], unjoined, readers, directories, created }

/-- A step of the pipeline is left with nothing owed, -/
def Settled (s₀ : Os) (directories created : List Bytes) (s : Os) : Prop :=
  ∃ unjoined readers, Track s₀ (nothingOwed unjoined readers directories created) False s

/-- or a harmful call has failed and a child is still there. -/
def Abandoned (s₀ : Os) (s : Os) : Prop :=
  ∃ a, Track s₀ a True s ∧ a.kids ≠ []

/-- What is owed to nobody is settled. -/
theorem Track.settled (h : Track s₀ a False s) (hfds : ∀ fd, fd ∉ a.fds)
    (hkids : ∀ pid, pid ∉ a.kids) : Settled s₀ a.directories a.created s := by
  have hclosed : Track s₀ { a with fds := [] } False s := h.fds_congr (by simpa using hfds)
  have hwaited : Track s₀ { a with fds := [], kids := [] } False s :=
    hclosed.kids_congr (by simpa using hkids)
  exact ⟨a.unjoined, a.readers, hwaited⟩

/-- The part of `compileSource` behind `fork`. -/
theorem compileSourceWait_ends {request : CompileRequest} {stderr : PipeEnds} {start pid : Nat}
    {fds : List Nat} (hfds : ∀ fd ∈ fds, fd = stderr.read)
    (hfree : s₀.kernel.server.get stderr.read = none)
    (h : Track s₀ ⟨fds, [pid], unjoined, readers, directories, created⟩ False s) :
    Ends m (compileSourceWait request stderr start pid) s fun r s' =>
      (∃ result, r = .ok result) ∧ Settled s₀ directories created s' ∨
        (∃ what, r = .error (.exception what)) ∧ Abandoned s₀ s' := by
  refine h.startReader (fun what s₁ h => .inr ⟨⟨what, rfl⟩, _, h, by simp⟩) fun s₁ h => ?_
  refine Program.Ends.andFinally (h.wait (by simp) fun loopEnd s₂ h => ?_)
  refine h.join (by simp : _ = some (stderr.read, true)) (fun _ => hfree) fun sink s₃ h => ?_
  show Ends m (close .stderrPipe .read stderr >>= _) s₃ _
  refine h.close hfree fun s₄ h => ?_
  refine h.neutral (fun e => ⟨_, rfl⟩) (by simp) rfl fun now s₅ h => Program.Ends.ret ?_
  refine h.destroyThread fun s₆ h => ?_
  have hjoined : readers.length ∉ (readers.length :: unjoined).filter (· != readers.length) := by
    simp
  rw [if_neg hjoined]
  refine .inl ⟨⟨_, rfl⟩, h.settled (fun fd hfd => ?_) (by simp)⟩
  simp only [fdOf, if_true, List.mem_filter, bne_iff_ne] at hfd
  exact hfd.2 (hfds fd hfd.1.1)

/-- **`compileSource` settles everything, or throws and leaves something open.** -/
theorem compileSource_ends {request : CompileRequest}
    (h : Track s₀ (nothingOwed unjoined readers directories created) False s) :
    Ends m (compileSource request) s fun r s' =>
      (∃ result, r = .ok result) ∧ Settled s₀ directories created s' ∨
        (∃ what, r = .error (.exception what)) ∧ Abandoned s₀ s' := by
  have hsettled : ∀ (result : CompileResult) s', Settled s₀ directories created s' →
      Ends (α := CompileResult) m (.ret result) s' fun r s' =>
        (∃ result, r = .ok result) ∧ Settled s₀ directories created s' ∨
          (∃ what, r = .error (.exception what)) ∧ Abandoned s₀ s' :=
    fun result s' h => .inl ⟨⟨result, rfl⟩, h⟩
  unfold compileSource
  split
  · exact hsettled _ _ ⟨_, _, h⟩
  refine h.openSource (fun s₁ h => hsettled _ _ ⟨_, _, h⟩) fun fd s₁ h => ?_
  have hfd := (h.opened fd (by simp)).1
  refine h.neutral (fun e => ⟨_, rfl⟩) (by simp) rfl fun _ s₂ h => ?_
  refine Track.call s₀ False (by simp) rfl fun e => ⟨_, h.closeFd hfd, fun s₃ h => ?_⟩
  obtain ⟨unjoined, readers, h⟩ := h.settled (by simp) (by simp)
  refine h.pipe rfl (fun e s₄ h => hsettled _ _ ⟨_, _, h⟩) fun stderr s₄ h => ?_
  have hread := (h.opened stderr.read (by simp)).1
  have hwrite := (h.opened stderr.write (by simp)).1
  refine h.neutral (fun e => ⟨_, rfl⟩) (by simp) rfl fun start s₅ h => ?_
  refine h.fork (fun e s₆ h => ?_) fun pid s₆ h => ?_
  · refine h.close hread fun s₇ h => ?_
    refine h.close hwrite fun s₈ h => ?_
    exact hsettled _ _ (h.settled (fun fd hfd => by simp [fdOf] at hfd) (by simp))
  · refine h.close hwrite fun s₇ h => compileSourceWait_ends (fun fd hfd => ?_) hread h
    simp [fdOf] at hfd
    omega

/-! ## `runBinary` -/

/-- A harmful call has failed and a descriptor is still open. -/
def Leaking (s₀ : Os) (s : Os) : Prop :=
  ∃ a, Track s₀ a True s ∧ a.fds ≠ []

/-- How `runBinary` and the loop around it are left; with `refused` results where a pipe after the
first has failed. -/
inductive Left (s₀ : Os) (directories created : List Bytes) (refused : α → Prop) :
    Except Abort α → Os → Prop
  | settled (result : α) {s : Os} (h : Settled s₀ directories created s) :
    Left s₀ directories created refused (.ok result) s
  | leaking (result : α) (hrefused : refused result) {s : Os} (h : Leaking s₀ s) :
    Left s₀ directories created refused (.ok result) s
  | abandoned (what : Bytes) {s : Os} (h : Abandoned s₀ s) :
    Left s₀ directories created refused (.error (.exception what)) s
  | terminated {a : Account} {s : Os} (h : Track s₀ a True s) :
    Left s₀ directories created refused (.error .terminate) s

/-- What a run may leave behind. -/
abbrev RunLeft (s₀ : Os) (directories created : List Bytes) :=
  Left s₀ directories created fun result : RunResult => result.status = .spawnError

/-- If the second thread does not start, the first one is still joinable when it is destroyed. -/
theorem runBinaryReaders_ends {request : RunRequest} {stdout stderr : PipeEnds}
    {start pid : Nat} {fds : List Nat}
    (hfds : ∀ fd ∈ fds, fd = stdout.read ∨ fd = stderr.read)
    (hstdout : s₀.kernel.server.get stdout.read = none)
    (hstderr : s₀.kernel.server.get stderr.read = none)
    (h : Track s₀ ⟨fds, [pid], unjoined, readers, directories, created⟩ False s) :
    Ends m (runBinaryReaders request stdout stderr start pid) s
      (RunLeft s₀ directories created) := by
  refine h.startReader (fun what s₁ h => .abandoned what ⟨_, h, by simp⟩) fun s₁ h => ?_
  refine Program.Ends.andFinally ?_
  refine h.startReader (fun what s₂ h => Program.Ends.throw ?_) fun s₂ h => ?_
  · refine h.destroyThread fun s₃ h => ?_
    rw [if_pos (List.mem_cons_self ..)]
    exact .terminated h
  refine Program.Ends.andFinally (h.wait (by simp) fun loopEnd s₃ h => ?_)
  refine h.join (by simp : _ = some (stdout.read, false)) nofun fun stdoutSink s₄ h => ?_
  refine h.join (by simp : _ = some (stderr.read, false)) nofun fun stderrSink s₅ h => ?_
  show Ends m (close .stdoutPipe .read stdout >>= _) s₅ _
  refine h.close hstdout fun s₆ h => ?_
  refine h.close hstderr fun s₇ h => ?_
  refine h.neutral (fun e => ⟨_, rfl⟩) (by simp) rfl fun maxRss s₈ h => ?_
  refine h.neutral (fun e => ⟨_, rfl⟩) (by simp) rfl fun now s₉ h => Program.Ends.ret ?_
  refine h.destroyThread fun s₁₀ h => ?_
  rw [if_neg (by simp)]
  refine h.destroyThread fun s₁₁ h => ?_
  rw [if_neg (by simp)]
  refine .settled _ (h.settled (fun fd hfd => ?_) (by simp))
  simp only [fdOf, List.mem_filter, bne_iff_ne] at hfd
  obtain ⟨⟨hfd, hne⟩, hne'⟩ := hfd
  exact (hfds fd hfd).elim hne hne'

/-- Feeding the child opens nothing. -/
theorem Track.feed {request : RunRequest} {stdin : PipeEnds} {k : Unit → Calling α}
    {Q : Except Abort α → Os → Prop} (h : Track s₀ a harm s)
    (hk : ∀ s', Track s₀ a harm s' → Ends m (k ()) s' Q) :
    Ends m (Sys.feed request stdin >>= k) s Q := by
  unfold Sys.feed
  split
  · exact hk s h
  · exact h.neutral (fun e => ⟨_, rfl⟩) (by simp) rfl fun _ s' h => hk s' h

/-- **`runBinary` settles everything, or leaves something behind.** -/
theorem runBinary_ends {request : RunRequest}
    (h : Track s₀ (nothingOwed unjoined readers directories created) False s) :
    Ends m (runBinary request) s (RunLeft s₀ directories created) := by
  have hsettled : ∀ (result : RunResult) s', Settled s₀ directories created s' →
      Ends (α := RunResult) m (.ret result) s' (RunLeft s₀ directories created) :=
    fun result s' h => .settled result h
  have hleaking : ∀ message s', Leaking s₀ s' →
      Ends m (.ret (spawnError message)) s' (RunLeft s₀ directories created) :=
    fun message s' h => Program.Ends.ret (.leaking _ (by rfl) h)
  unfold runBinary
  split
  · exact hsettled _ _ ⟨_, _, h⟩
  refine h.neutral (fun e => ⟨_, rfl⟩) (by simp) rfl fun error s₁ h => ?_
  cases error with
  | some error => exact hsettled _ _ ⟨_, _, h⟩
  | none =>
  refine h.pipe rfl (fun e s₂ h => hsettled _ _ ⟨_, _, h⟩) fun stdin s₂ h => ?_
  refine h.harmfulPipe rfl (fun e s₃ h => hleaking _ _ ⟨_, h, by simp⟩) fun stdout s₃ h => ?_
  refine h.harmfulPipe rfl (fun e s₄ h => hleaking _ _ ⟨_, h, by simp⟩) fun stderr s₄ h => ?_
  refine h.neutral (fun e => ⟨_, rfl⟩) (by simp) rfl fun start s₅ h => ?_
  have hfree := fun fd hfd => (h.opened fd hfd).1
  simp only [List.mem_cons, List.not_mem_nil, or_false, forall_eq_or_imp, forall_eq] at hfree
  obtain ⟨hew, her, how, hor, hiw, hir⟩ := hfree
  refine h.fork (fun e s₆ h => ?_) fun pid s₆ h => ?_
  · refine h.close hir fun s₇ h => ?_
    refine h.close hiw fun s₈ h => ?_
    refine h.close hor fun s₉ h => ?_
    refine h.close how fun s₁₀ h => ?_
    refine h.close her fun s₁₁ h => ?_
    refine h.close hew fun s₁₂ h => ?_
    exact hsettled _ _ (h.settled (fun fd hfd => by simp [fdOf] at hfd) (by simp))
  · refine h.close hir fun s₇ h => ?_
    refine h.close how fun s₈ h => ?_
    refine h.close hew fun s₉ h => ?_
    refine h.feed fun s₁₀ h => ?_
    refine h.close hiw fun s₁₁ h => ?_
    refine runBinaryReaders_ends (fun fd hfd => ?_) hor her h
    simp [fdOf] at hfd
    omega

/-! ## `runPipeline` -/

/-- One directory more is owed. -/
theorem Track.createDirectories {dir : Bytes} {k : Option Bytes → Calling α}
    {Q : Except Abort α → Os → Prop} (h : Track s₀ a harm s)
    (hfail : ∀ e s', Track s₀ a harm s' → Ends m (k (some e)) s' Q)
    (hok : ∀ s', Track s₀
      { a with directories := dir :: a.directories, created := dir :: a.created } harm s' →
      Ends m (k none) s' Q) : Ends m (.call (.createDirectories dir) k) s Q := by
  obtain ⟨new, hlog, hharm, hcreated⟩ := h.log
  show Ends m (k (m.perform s (.createDirectories dir) (m.error s (.createDirectories dir))).1)
    (m.exec (.createDirectories dir) s).2 Q
  cases he : m.error s (.createDirectories dir) with
  | some e =>
    refine hfail e _ ?_
    simp only [Machine.exec, he]
    refine ⟨h.same, h.opened, h.earlier, h.waited, h.running, h.unjoined, h.readers, h.directories,
      new ++ [(.createDirectories dir, true)], by simp [hlog], ?_, ?_⟩
    · rw [hharm]
      simp [SysCall.Harmful, or_and_right, exists_or]
    · simpa using hcreated
  | none =>
    refine hok _ ?_
    simp only [Machine.exec, he]
    refine ⟨h.same, h.opened, h.earlier, h.waited, h.running, h.unjoined, h.readers, ?_,
      new ++ [(.createDirectories dir, false)], by simp [hlog], ?_, ?_⟩
    · simp only [Machine.perform, h.directories]
    · rw [hharm]
      simp
    · intro dir'
      simp [hcreated dir', or_comm]

/-- One directory less is owed, unless it cannot be removed. -/
theorem Track.removeAll {dir : Bytes} {k : Unit → Calling α} {Q : Except Abort α → Os → Prop}
    (h : Track s₀ a harm s) (hfail : ∀ s', Track s₀ a True s' → Ends m (k ()) s' Q)
    (hok : ∀ s', Track s₀ { a with directories := a.directories.filter (· != dir) } harm s' →
      Ends m (k ()) s' Q) : Ends m (.call (.removeAll dir) k) s Q := by
  refine Track.harmfulCall s₀ harm (by simp) rfl (fun e => ⟨a, h, hfail⟩) ⟨_, ?_, hok⟩
  exact ⟨h.same, h.opened, h.earlier, h.waited, h.running, h.unjoined, h.readers,
    by simp only [Machine.perform, h.directories], h.log⟩

/-- A run that cannot be started ends the loop. -/
theorem push_verdict_ne_AC {l : LoopState} {testcase : TestCase} {run : RunResult}
    (h : run.status = .spawnError) : (l.push testcase run).verdict ≠ .AC := by
  simp only [LoopState.push, aggregateVerdict, caseResult, h, mapRunStatus]
  split
  · simp
  · next hne => exact hne

/-- The loop ends with the run that leaks. -/
theorem judgeTestcases_ends {input : PipelineInput} {workDir : Bytes} {testcases : List TestCase}
    {l : LoopState} (h : Settled s₀ directories created s) :
    Ends m ((judgeTestcases input workDir testcases l).expand step) s
      (Left s₀ directories created fun _ => True) := by
  induction testcases generalizing l s with
  | nil => exact .settled l h
  | cons testcase testcases ih =>
    obtain ⟨unjoined, readers, htrack⟩ := h
    refine Program.Ends.bind ((runBinary_ends htrack).mono fun r s' hleft => ?_)
    cases hleft with
    | settled result h =>
      show Ends m (Program.expand step (if _ then _ else _)) s' _
      split
      · exact .settled _ h
      · exact ih h
    | leaking result hrefused h =>
      show Ends m (Program.expand step (if _ then _ else _)) s' _
      rw [if_pos (push_verdict_ne_AC hrefused)]
      exact .leaking _ trivial h
    | abandoned what h => exact .abandoned what h
    | terminated h => exact .terminated h

/-- When `runPipeline` is left in `s'`, whatever it has taken since `s` is given back, and the
server still runs. -/
structure CleanedUp (s : Os) (r : Except Abort SubmissionResult) (s' : Os) : Prop where
  descriptors : ∀ fd, s'.kernel.server.get fd = s.kernel.server.get fd
  children : ∀ pid proc, s.kernel.procs.length ≤ pid → s'.kernel.procs[pid]? = some proc →
    proc.life = .reaped
  workDir : ∀ dir, (.createDirectories dir, false) ∈ s'.log.drop s.log.length →
    dir ∉ s'.directories
  running : r ≠ .error .terminate

/-- No harmful call has failed since `s`. -/
def Harmless (s s' : Os) : Prop :=
  ∀ c, (c, true) ∈ s'.log.drop s.log.length → c.Harmful = false

/-- What has been harmful can be read off the calls. -/
theorem Track.harmless_iff (h : Track s₀ a harm s) : Harmless s₀ s ↔ ¬ harm := by
  obtain ⟨new, hlog, hharm, -⟩ := h.log
  rw [Harmless, hlog, List.drop_left, hharm]
  simp

/-- What is settled is cleaned up. -/
theorem Settled.cleanedUp {r : Except Abort SubmissionResult}
    (h : Settled s₀ directories created s) (hr : r ≠ .error .terminate)
    (hdir : ∀ dir ∈ created, dir ∉ directories) : CleanedUp s₀ r s ∧ Harmless s₀ s := by
  obtain ⟨unjoined, readers, h⟩ := h
  refine ⟨⟨fun fd => h.same fd (by simp), fun pid proc hle hp => h.waited pid proc hle hp (by simp),
    fun dir hmem => ?_, hr⟩, h.harmless_iff.mpr not_false⟩
  obtain ⟨new, hlog, -, hcreated⟩ := h.log
  rw [hlog, List.drop_left, hcreated] at hmem
  rw [h.directories]
  exact hdir dir hmem

/-- A descriptor or a child left behind is not cleaned up. -/
theorem Leaking.not_cleanedUp {r : Except Abort SubmissionResult} (h : Leaking s₀ s) :
    ¬ CleanedUp s₀ r s ∧ ¬ Harmless s₀ s := by
  obtain ⟨a, h, hfds⟩ := h
  refine ⟨fun hclean => ?_, fun hh => h.harmless_iff.mp hh trivial⟩
  obtain ⟨fd, hfd⟩ := List.exists_mem_of_ne_nil _ hfds
  obtain ⟨hbefore, hnow⟩ := h.opened fd hfd
  exact hnow ((hclean.descriptors fd).trans hbefore)

/-- Nor is what an exception has left. -/
theorem Abandoned.not_cleanedUp {r : Except Abort SubmissionResult} (h : Abandoned s₀ s) :
    ¬ CleanedUp s₀ r s ∧ ¬ Harmless s₀ s := by
  obtain ⟨a, h, hkids⟩ := h
  refine ⟨fun hclean => ?_, fun hh => h.harmless_iff.mp hh trivial⟩
  obtain ⟨pid, hpid⟩ := List.exists_mem_of_ne_nil _ hkids
  obtain ⟨hle, proc, hp, hrunning⟩ := h.running pid hpid
  rw [hclean.children pid proc hle hp] at hrunning
  cases hrunning

/-- Both hold, or neither does. -/
def Tied (s₀ : Os) (r : Except Abort SubmissionResult) (s : Os) : Prop :=
  CleanedUp s₀ r s ∧ Harmless s₀ s ∨ ¬ CleanedUp s₀ r s ∧ ¬ Harmless s₀ s

/-- The end of the pipeline: the directory is removed, if that does not fail. -/
theorem removeAll_ends {dir : Bytes} {result : SubmissionResult}
    (h : Settled s₀ (dir :: directories) [dir] s) :
    Ends m (.call (.removeAll dir) fun _ => .ret result) s (Tied s₀) := by
  obtain ⟨unjoined, readers, h⟩ := h
  refine h.removeAll (fun s₁ h => Program.Ends.ret (.inr ⟨fun hclean => ?_, ?_⟩))
    fun s₁ h => Program.Ends.ret (.inl ?_)
  · obtain ⟨new, hlog, -, hcreated⟩ := h.log
    refine hclean.workDir dir ?_ (by simp [h.directories])
    rw [hlog, List.drop_left, hcreated]
    simp
  · exact fun hh => h.harmless_iff.mp hh trivial
  · exact Settled.cleanedUp ⟨_, _, h⟩ (by simp) (by simp)

/-- Removing the directory does not make up for a leak. -/
theorem removeAll_ends_of_leaking {dir : Bytes} {result : SubmissionResult}
    (h : Leaking s₀ s) : Ends m (.call (.removeAll dir) fun _ => .ret result) s (Tied s₀) := by
  obtain ⟨a, h, hfds⟩ := h
  exact h.removeAll (fun s₁ h => .inr (Leaking.not_cleanedUp ⟨_, h, hfds⟩))
    fun s₁ h => .inr (Leaking.not_cleanedUp ⟨_, h, hfds⟩)

/-- **Each run of the pipeline** is cleaned up exactly when no harmful call has failed. -/
theorem runPipeline_ends {input : PipelineInput} :
    Ends m (runPipeline input) s₀ (Tied s₀) := by
  have h := Track.start s₀
  show Ends m (makeWorkDir >>= _) s₀ _
  refine h.neutral (fun e => ⟨_, rfl⟩) (by simp) rfl fun suffix s₁ h => ?_
  refine h.neutral (fun e => ⟨s₁.counter, by cases e <;> rfl⟩) (by simp) rfl fun dir s₂ h => ?_
  cases dir with
  | error what => exact Program.Ends.throw (.inl (Settled.cleanedUp ⟨_, _, h⟩ (by simp) nofun))
  | ok dir =>
  refine h.neutral (fun e => ⟨_, rfl⟩) (by simp) rfl fun pid s₃ h => ?_
  refine h.createDirectories (fun e s₄ h => ?_) fun s₄ h => ?_
  · exact Program.Ends.ret (.inl (Settled.cleanedUp ⟨_, _, h⟩ (by simp) nofun))
  show Ends m (compileSource (compileRequest input _) >>= _) s₄ _
  refine Program.Ends.bind ((compileSource_ends h).mono fun r s₅ hcompile => ?_)
  rcases hcompile with ⟨⟨compile, rfl⟩, h⟩ | ⟨⟨what, rfl⟩, h⟩
  · show Ends m (Program.expand step (if _ then _ else _)) s₅ _
    split
    · exact removeAll_ends h
    · rw [Program.expand_bind]
      refine Program.Ends.bind ((judgeTestcases_ends h).mono fun r s₆ hleft => ?_)
      cases hleft with
      | settled l h => exact removeAll_ends h
      | leaking l _ h => exact removeAll_ends_of_leaking h
      | abandoned what h => exact .inr h.not_cleanedUp
      | terminated h =>
        exact .inr ⟨fun hclean => hclean.running rfl, fun hh => h.harmless_iff.mp hh trivial⟩
  · exact .inr h.not_cleanedUp

/-- **A submission gives everything back** and leaves the server running, by return or by
exception, exactly when no call that fails on the way is the start of a reader thread, the second
or third pipe of `runBinary` or the removal of the work directory. -/
theorem cleanedUp_iff (m : Machine) (input : PipelineInput) (s : Os) :
    CleanedUp s ((runPipeline input).run m.exec s).1 ((runPipeline input).run m.exec s).2 ↔
      ∀ c, (c, true) ∈ ((runPipeline input).run m.exec s).2.log.drop s.log.length →
        c.Harmful = false := by
  have htied : Tied s ((runPipeline input).run m.exec s).1 ((runPipeline input).run m.exec s).2 :=
    runPipeline_ends
  rcases htied with ⟨hclean, hharmless⟩ | ⟨hclean, hharmless⟩
  · exact iff_of_true hclean hharmless
  · exact iff_of_false hclean hharmless

/-- A machine whose twelfth call fails, if it is one that may. -/
def failingTwelfth : Machine where
  fails n := if n = 11 then some (utf8 "Resource temporarily unavailable") else none
  pid := 1
  tempDirectory := utf8 "/tmp"
  clock _ := 0
  ending _ := some (.exited 0)
  sink _ := []
  maxRss _ := 0

/-- The server before its first submission. -/
def freshOs : Os where
  kernel :=
    { server := List.replicate 3 (some (.other 1)), procs := [], pipes := [], capacity := 1 }
  directories := []
  counter := 0
  readers := []
  unjoined := []
  log := []

/-- A submission without testcases. -/
def emptySubmission : PipelineInput :=
  { sourceCode := [], testcases := [], runTimeoutMs := 500, memoryLimitBytes := 268435456 }

/-- When the thread that reads the compiler's messages cannot be started, the compiler is not
waited for. -/
theorem leaves_compiler :
    ¬ ∀ (m : Machine) (input : PipelineInput) (s : Os),
      CleanedUp s ((runPipeline input).run m.exec s).1 ((runPipeline input).run m.exec s).2 := by
  intro h
  have hrunning : (((runPipeline emptySubmission).run failingTwelfth.exec
      freshOs).2.kernel.procs[0]?).map Proc.life = some .running := by decide
  obtain ⟨proc, hp, hlife⟩ := Option.map_eq_some_iff.mp hrunning
  have hreaped := (h failingTwelfth emptySubmission freshOs).children 0 proc (Nat.zero_le _) hp
  rw [hlife] at hreaped
  cases hreaped

end MiniOj.Judge.Sys
