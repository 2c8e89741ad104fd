import MiniOj.Judge.Properties.Moves

/-!
# The descriptors of a call

`Descriptors` says which numbers of the server's table belong to a call: exactly those it has
opened and not closed yet. It is kept by every step of the call, and by every step of the
rest of the system that leaves these numbers alone.
-/

namespace MiniOj.Judge

open Infra

variable {owner now : Nat} {k k' : Kernel} {c c' : Call} {n m : PipeName} {side : Side}
  {e e' : PipeEnds}

/-- An end is an end of its pipe. -/
theorem fileOf_pipe (e : PipeEnds) (side : Side) : (fileOf e side).pipe = some e.id := by
  cases side <;> rfl

/-- Different ends are different files. -/
theorem fileOf_inj {side' : Side} (h : fileOf e side = fileOf e' side') :
    e.id = e'.id ∧ side = side' := by
  cases side <;> cases side' <;> simp_all [fileOf]

/-- After `pipe` the table has the two new ends beside what it had. -/
theorem get_pipe_fileOf {fd : Nat} {f : File} :
    k.pipe.2.server.get fd = some f ↔
      (∃ side, fd = fdOf k.pipe.1 side ∧ f = fileOf k.pipe.1 side) ∨ k.server.get fd = some f := by
  rw [Kernel.get_pipe, ← or_assoc]
  refine or_congr ⟨?_, ?_⟩ Iff.rfl
  · rintro (⟨hfd, hf⟩ | ⟨hfd, hf⟩)
    · exact ⟨.write, hfd, hf⟩
    · exact ⟨.read, hfd, hf⟩
  · rintro ⟨side, hfd, hf⟩
    cases side with
    | read => exact Or.inr ⟨hfd, hf⟩
    | write => exact Or.inl ⟨hfd, hf⟩

/-- The call has a descriptor for this end: its `close` is still to come, unless a reader
thread that closes the descriptor itself has finished. -/
def Call.Open (c : Call) (n : PipeName) (side : Side) : Prop :=
  .close n side ∈ c.todo ∧
    ∀ r, side = .read → c.readers n = some r → r.closes = true → r.pc ≠ .finished

/-- **What a call has open**, told by the statements that are still to come. -/
structure Descriptors (owner : Nat) (k : Kernel) (c : Call) : Prop where
  disciplined : Disciplined c.todo
  unopened : ∀ n, .pipe n ∈ c.todo → c.ends n = none ∧ c.readers n = none
  opened : ∀ n side, .close n side ∈ c.todo → .pipe n ∈ c.todo ∨ ∃ e, c.ends n = some e
  fresh : ∀ n e, c.ends n = some e → e.id < k.pipes.length
  distinct : ∀ n m e e', c.ends n = some e → c.ends m = some e' → e.id = e'.id → n = m
  /-- the server's table has the ends of the call's pipes at the open numbers only -/
  table : ∀ n e side fd, c.ends n = some e →
    (k.server.get fd = some (fileOf e side) ↔ fd = fdOf e side ∧ c.Open n side)
  unstarted : ∀ n closes, .startReader n closes ∈ c.todo → c.readers n = none
  started : ∀ n r, c.readers n = some r →
    .closeSource ∉ c.todo ∧ ∃ e, c.ends n = some e ∧ r.fd = e.read
  /-- a reader that closes its descriptor is started when nothing else is left open -/
  lone : ∀ n r, c.readers n = some r → r.closes = true →
    ∀ m side, .close m side ∈ c.todo → m = n ∧ side = .read
  closer : ∀ n r, c.readers n = some r → r.pc = .closing → r.closes = true
  source : .closeSource ∈ c.todo → .openSource ∈ c.todo ∨
    ∃ fd, c.source = some fd ∧ k.server.get fd = some (.other owner)
  sourceClosed : ∀ fd, k.server.get fd = some (.other owner) →
    .openSource ∉ c.todo ∧ .closeSource ∈ c.todo ∧ c.source = some fd

/-! ## Steps that leave the descriptors alone -/

/-- The statements that open or close a descriptor, or hand one to a thread. -/
def Stmt.Touches : Stmt → Prop
  | .openSource | .closeSource | .pipe _ | .close _ _ | .startReader _ _ => True
  | _ => False

/-- A statement that touches no descriptor is done. -/
theorem mem_cons_touches {s s₀ : Stmt} {rest : List Stmt} (h₀ : ¬ s₀.Touches) (hs : s.Touches) :
    s ∈ s₀ :: rest ↔ s ∈ rest := by
  rw [List.mem_cons]
  exact ⟨fun h => h.resolve_left fun he => h₀ (he ▸ hs), Or.inr⟩

/-- The files that a call may own: ends of existing pipes, and its source file. -/
def Concerns (owner : Nat) (k : Kernel) (f : File) : Prop :=
  f = .other owner ∨ ∃ p, f.pipe = some p ∧ p < k.pipes.length

/-- The ends of a call are its own. -/
theorem Descriptors.concerns (h : Descriptors owner k c) (he : c.ends n = some e) (side : Side) :
    Concerns owner k (fileOf e side) :=
  Or.inr ⟨e.id, fileOf_pipe e side, h.fresh n e he⟩

/-- **The frame rule.** A step that neither moves the call's descriptors in the table nor
changes what the call has open keeps `Descriptors`. -/
theorem Descriptors.frame (h : Descriptors owner k c) (hl : k.pipes.length ≤ k'.pipes.length)
    (hget : ∀ fd f, Concerns owner k f → (k'.server.get fd = some f ↔ k.server.get fd = some f))
    (hd : Disciplined c'.todo) (hends : c'.ends = c.ends) (hsource : c'.source = c.source)
    (htodo : ∀ s, s.Touches → (s ∈ c'.todo ↔ s ∈ c.todo))
    (hreaders : ∀ n r', c'.readers n = some r' →
      ∃ r, c.readers n = some r ∧ r'.fd = r.fd ∧ r'.closes = r.closes)
    (hcloser : ∀ n r, c'.readers n = some r → r.pc = .closing → r.closes = true)
    (hopen : ∀ n side, c'.Open n side ↔ c.Open n side) : Descriptors owner k' c' := by
  have hnone : ∀ n, c.readers n = none → c'.readers n = none := by
    intro n hn
    cases hr : c'.readers n with
    | none => rfl
    | some r' =>
      obtain ⟨r, hr, -⟩ := hreaders n r' hr
      rw [hn] at hr
      cases hr
  have hpipe : ∀ n, .pipe n ∈ c'.todo ↔ .pipe n ∈ c.todo := fun n => htodo (.pipe n) trivial
  have hclose : ∀ n side, .close n side ∈ c'.todo ↔ .close n side ∈ c.todo := fun n side =>
    htodo (.close n side) trivial
  have hopenSource := htodo .openSource trivial
  have hcloseSource := htodo .closeSource trivial
  exact {
    disciplined := hd
    unopened := fun n hn => by
      obtain ⟨he, hr⟩ := h.unopened n ((hpipe n).mp hn)
      exact ⟨by rw [hends]; exact he, hnone n hr⟩
    opened := fun n side hc => by
      rw [hends, hpipe]
      exact h.opened n side ((hclose n side).mp hc)
    fresh := fun n e he => Nat.lt_of_lt_of_le (h.fresh n e (hends ▸ he)) hl
    distinct := fun n m e e' he he' => h.distinct n m e e' (hends ▸ he) (hends ▸ he')
    table := fun n e side fd he => by
      rw [hends] at he
      rw [hget fd _ (h.concerns he side), hopen]
      exact h.table n e side fd he
    unstarted := fun n closes hs =>
      hnone n (h.unstarted n closes ((htodo (.startReader n closes) trivial).mp hs))
    started := fun n r' hr' => by
      obtain ⟨r, hr, hfd, -⟩ := hreaders n r' hr'
      rw [hcloseSource, hends, hfd]
      exact h.started n r hr
    lone := fun n r' hr' hcl m side hc => by
      obtain ⟨r, hr, -, hcl'⟩ := hreaders n r' hr'
      exact h.lone n r hr (hcl' ▸ hcl) m side ((hclose m side).mp hc)
    closer := hcloser
    source := fun hc => by
      rw [hopenSource, hsource]
      refine (h.source (hcloseSource.mp hc)).imp id fun ⟨fd, hfd, hg⟩ => ⟨fd, hfd, ?_⟩
      exact (hget fd _ (Or.inl rfl)).mpr hg
    sourceClosed := fun fd hg => by
      rw [hopenSource, hcloseSource, hsource]
      exact h.sourceClosed fd ((hget fd _ (Or.inl rfl)).mp hg) }

/-- The kernel changes, the call does not. -/
theorem Descriptors.kernel (h : Descriptors owner k c) (hl : k.pipes.length ≤ k'.pipes.length)
    (hget : ∀ fd f, Concerns owner k f → (k'.server.get fd = some f ↔ k.server.get fd = some f)) :
    Descriptors owner k' c :=
  h.frame hl hget h.disciplined rfl rfl (fun _ _ => Iff.rfl) (fun _ r hr => ⟨r, hr, rfl, rfl⟩)
    h.closer fun _ _ => Iff.rfl

/-- The calling thread passes a statement that opens and closes nothing. -/
theorem Descriptors.pass (h : Descriptors owner k c) {s : Stmt} {rest : List Stmt}
    (ht : c.todo = s :: rest) (hs : ¬ s.Touches) (hl : k.pipes.length ≤ k'.pipes.length)
    (hserver : k'.server = k.server) (hd : Disciplined c'.todo) (hends : c'.ends = c.ends)
    (hsource : c'.source = c.source) (hreaders : c'.readers = c.readers)
    (htodo : ∀ s, s.Touches → (s ∈ c'.todo ↔ s ∈ rest)) : Descriptors owner k' c' := by
  have hmem : ∀ s', s'.Touches → (s' ∈ c'.todo ↔ s' ∈ c.todo) := fun s' hs' => by
    rw [htodo s' hs', ht, mem_cons_touches hs hs']
  refine h.frame hl (fun fd f _ => by rw [hserver]) hd hends hsource hmem ?_ ?_ ?_
  · intro n r hr
    exact ⟨r, hreaders ▸ hr, rfl, rfl⟩
  · intro n r hr
    exact h.closer n r (hreaders ▸ hr)
  · intro n side
    unfold Call.Open
    rw [hmem (.close n side) trivial, hreaders]

/-! ## Steps of the calling thread -/

/-- Writing opens and closes nothing. -/
theorem write_frame {g : Option File} {bytes : List UInt8} {written : Option Nat}
    (h : k.write g bytes = some (k', written)) :
    k.pipes.length ≤ k'.pipes.length ∧ k'.server = k.server := by
  rcases Kernel.write_cases h with ⟨p, room, -, -, -, -, -, -, rfl⟩ | ⟨rfl, -⟩
  · exact ⟨by simp, rfl⟩
  · exact ⟨Nat.le_refl _, rfl⟩

/-- A child that ends closes nothing of the server. -/
theorem exit_frame (k : Kernel) (pid : Nat) (status : WaitStatus) :
    k.pipes.length ≤ (k.exit pid status).pipes.length ∧ (k.exit pid status).server = k.server := by
  rcases Kernel.exit_cases k pid status with ⟨-, h⟩ | ⟨proc, -, -, h⟩ <;> rw [h]
  · exact ⟨Nat.le_refl _, rfl⟩
  · exact ⟨Nat.le_refl _, rfl⟩

/-- Below the head of `todo`. -/
theorem Descriptors.tail (h : Descriptors owner k c) {s : Stmt} {rest : List Stmt}
    (ht : c.todo = s :: rest) : s.Fits rest ∧ Disciplined rest := by
  have := h.disciplined
  rwa [ht] at this

theorem mem_cons_ne {s s₀ : Stmt} {rest : List Stmt} (hs : s ≠ s₀) :
    s ∈ s₀ :: rest ↔ s ∈ rest := by
  rw [List.mem_cons]
  exact or_iff_right hs

/-- The ends of a pipe are known when it is not still to be made. -/
theorem Descriptors.ends_of_close (h : Descriptors owner k c) {s : Stmt} {rest : List Stmt}
    (ht : c.todo = s :: rest) (hs : .pipe n ≠ s) (hno : .pipe n ∉ rest)
    (hc : .close n side ∈ c.todo) : ∃ e, c.ends n = some e := by
  rcases h.opened n side hc with hin | he
  · rw [ht, mem_cons_ne hs] at hin
    exact absurd hin hno
  · exact he

/-- The source file is opened. -/
theorem Descriptors.openSource (h : Descriptors owner k c) {rest : List Stmt}
    (ht : c.todo = .openSource :: rest) :
    Descriptors owner (k.openFile owner).2
      { c with todo := rest, source := some (k.openFile owner).1 } := by
  obtain ⟨⟨hno, hcl⟩, hd⟩ := h.tail ht
  have hmem : ∀ s, s ≠ .openSource → (s ∈ rest ↔ s ∈ c.todo) := fun s hs => by
    rw [ht, mem_cons_ne hs]
  have hnone : ∀ fd, k.server.get fd ≠ some (.other owner) := fun fd hg =>
    (h.sourceClosed fd hg).1 (head_mem_todo ht)
  exact {
    disciplined := hd
    unopened := fun n hn => h.unopened n ((hmem _ (by simp)).mp hn)
    opened := fun n side hc => by
      rw [hmem _ (by simp)]
      exact h.opened n side ((hmem _ (by simp)).mp hc)
    fresh := h.fresh
    distinct := h.distinct
    table := fun n e side fd he => by
      unfold Call.Open
      rw [Kernel.get_openFile, hmem _ (by simp)]
      refine Iff.trans (or_iff_right fun ⟨_, hf⟩ => ?_) (h.table n e side fd he)
      cases side <;> cases hf
    unstarted := fun n closes hs => h.unstarted n closes ((hmem _ (by simp)).mp hs)
    started := fun n r hr => by
      rw [hmem _ (by simp)]
      exact h.started n r hr
    lone := fun n r hr hcl m side hc => h.lone n r hr hcl m side ((hmem _ (by simp)).mp hc)
    closer := h.closer
    source := fun _ => Or.inr ⟨_, rfl, Kernel.get_openFile.mpr (Or.inl ⟨rfl, rfl⟩)⟩
    sourceClosed := fun fd hg => by
      rcases Kernel.get_openFile.mp hg with ⟨rfl, -⟩ | hg
      · exact ⟨hno, hcl, rfl⟩
      · exact absurd hg (hnone fd) }

/-- It is closed. -/
theorem Descriptors.closeSource (h : Descriptors owner k c) {rest : List Stmt} {fd : Nat}
    {closed : List (Option File)} (ht : c.todo = .closeSource :: rest) (hs : c.source = some fd) :
    Descriptors owner (k.close fd) { c with todo := rest, closed := closed } := by
  obtain ⟨⟨hno, hcl⟩, hd⟩ := h.tail ht
  have hmem : ∀ s, s ≠ .closeSource → (s ∈ rest ↔ s ∈ c.todo) := fun s hs => by
    rw [ht, mem_cons_ne hs]
  -- the number to be closed refers to the source file, not to a pipe
  have hfile : k.server.get fd = some (.other owner) := by
    rcases h.source (head_mem_todo ht) with hin | ⟨fd', hs', hg⟩
    · exact absurd ((hmem _ (by simp)).mpr hin) hno
    · rw [hs] at hs'
      rw [Option.some.inj hs']
      exact hg
  exact {
    disciplined := hd
    unopened := fun n hn => h.unopened n ((hmem _ (by simp)).mp hn)
    opened := fun n side hc => by
      rw [hmem _ (by simp)]
      exact h.opened n side ((hmem _ (by simp)).mp hc)
    fresh := h.fresh
    distinct := h.distinct
    table := fun n e side fd' he => by
      unfold Call.Open
      rw [Kernel.get_close, hmem _ (by simp)]
      refine Iff.trans (and_iff_right_of_imp fun hg => ?_) (h.table n e side fd' he)
      rintro rfl
      rw [hg] at hfile
      cases side <;> cases hfile
    unstarted := fun n closes hs => h.unstarted n closes ((hmem _ (by simp)).mp hs)
    started := fun n r hr => ⟨hcl, (h.started n r hr).2⟩
    lone := fun n r hr hcl m side hc => h.lone n r hr hcl m side ((hmem _ (by simp)).mp hc)
    closer := h.closer
    source := fun hc => absurd hc hcl
    sourceClosed := fun fd' hg => by
      obtain ⟨hne, hg⟩ := Kernel.get_close.mp hg
      have := (h.sourceClosed fd' hg).2.2
      rw [hs] at this
      exact absurd (Option.some.inj this).symm hne }

/-- A pipe is made. -/
theorem Descriptors.pipe (h : Descriptors owner k c) (hwf : k.WellFormed) {rest : List Stmt}
    (ht : c.todo = .pipe n :: rest) :
    Descriptors owner k.pipe.2
      { c with todo := rest, ends := Function.update c.ends n (some k.pipe.1) } := by
  obtain ⟨⟨hno, hread, hwrite⟩, hd⟩ := h.tail ht
  obtain ⟨-, hnr⟩ := h.unopened n (head_mem_todo ht)
  have hmem : ∀ s, s ≠ .pipe n → (s ∈ rest ↔ s ∈ c.todo) := fun s hs => by
    rw [ht, mem_cons_ne hs]
  have hpipe : ∀ m, .pipe m ∈ rest → m ≠ n := by
    rintro m hm rfl
    exact hno hm
  have hin : ∀ side, .close n side ∈ rest := fun side => by cases side <;> assumption
  -- nobody has an end of the pipe that is being made
  have hnew : ∀ fd side, k.server.get fd ≠ some (fileOf k.pipe.1 side) := fun fd side hg =>
    absurd (hwf _ _ (fileOf_pipe k.pipe.1 side) (Or.inl ⟨fd, hg⟩)) (Nat.lt_irrefl _)
  have hold : ∀ m e side side', c.ends m = some e → fileOf e side ≠ fileOf k.pipe.1 side' :=
    fun m e side side' he hf =>
      absurd (h.fresh m e he) (by rw [(fileOf_inj hf).1]; exact Nat.lt_irrefl _)
  exact {
    disciplined := hd
    unopened := fun m hm => by
      dsimp only
      rw [Function.update_of_ne (hpipe m hm)]
      exact h.unopened m ((hmem _ (by simpa using hpipe m hm)).mp hm)
    opened := fun m side hc => by
      dsimp only
      by_cases hmn : m = n
      · subst hmn
        exact Or.inr ⟨_, Function.update_self ..⟩
      · rw [Function.update_of_ne hmn, hmem _ (by simpa using hmn)]
        exact h.opened m side ((hmem _ (by simp)).mp hc)
    fresh := fun m e he => by
      rw [Kernel.pipe_pipes, List.length_append, List.length_singleton]
      rcases of_update_some he with ⟨-, rfl⟩ | ⟨-, he⟩
      · exact Nat.lt_succ_self _
      · exact Nat.lt_succ_of_lt (h.fresh m e he)
    distinct := fun m m' e e' he he' hid => by
      rcases of_update_some he with ⟨hm, rfl⟩ | ⟨-, he⟩ <;>
        rcases of_update_some he' with ⟨hm', rfl⟩ | ⟨-, he'⟩
      · rw [hm, hm']
      · exact absurd (h.fresh m' e' he') (by rw [← hid]; exact Nat.lt_irrefl _)
      · exact absurd (h.fresh m e he) (by rw [hid]; exact Nat.lt_irrefl _)
      · exact h.distinct m m' e e' he he' hid
    table := fun m e side fd he => by
      unfold Call.Open
      dsimp only
      rw [get_pipe_fileOf]
      rcases of_update_some he with ⟨rfl, rfl⟩ | ⟨hmn, he⟩
      · have hopen : .close m side ∈ rest ∧ ∀ r, side = .read → c.readers m = some r →
            r.closes = true → r.pc ≠ .finished :=
          ⟨hin side, fun r _ hr => by rw [hnr] at hr; cases hr⟩
        rw [and_iff_left hopen, or_iff_left (hnew fd side)]
        refine ⟨?_, fun hfd => ⟨side, hfd, rfl⟩⟩
        rintro ⟨side', hfd, hf⟩
        rw [(fileOf_inj hf).2]
        exact hfd
      · rw [or_iff_right fun ⟨side', _, hf⟩ => hold m e side side' he hf, hmem _ (by simp)]
        exact h.table m e side fd he
    unstarted := fun m closes hs => h.unstarted m closes ((hmem _ (by simp)).mp hs)
    started := fun m r hr => by
      dsimp only
      have hmn : m ≠ n := by
        rintro rfl
        rw [hnr] at hr
        cases hr
      rw [Function.update_of_ne hmn, hmem _ (by simp)]
      exact h.started m r hr
    lone := fun m r hr hcl m' side hc => h.lone m r hr hcl m' side ((hmem _ (by simp)).mp hc)
    closer := h.closer
    source := fun hc => by
      rw [hmem _ (by simp)]
      refine (h.source ((hmem _ (by simp)).mp hc)).imp id fun ⟨fd, hfd, hg⟩ => ⟨fd, hfd, ?_⟩
      exact get_pipe_fileOf.mpr (Or.inr hg)
    sourceClosed := fun fd hg => by
      rw [hmem _ (by simp), hmem _ (by simp)]
      rcases get_pipe_fileOf.mp hg with ⟨side, -, hf⟩ | hg
      · cases side <;> cases hf
      · exact h.sourceClosed fd hg }

/-- What a `close` of the calling thread finds, unless a reader has closed the number before. -/
theorem Descriptors.get_of_open (h : Descriptors owner k c) (he : c.ends n = some e)
    (ho : c.Open n side) : k.server.get (fdOf e side) = some (fileOf e side) :=
  (h.table n e side _ he).mpr ⟨rfl, ho⟩

/-- An end is closed. -/
theorem Descriptors.close (h : Descriptors owner k c) {rest : List Stmt}
    {closed : List (Option File)} (ht : c.todo = .close n side :: rest) (he : c.ends n = some e) :
    Descriptors owner (k.close (fdOf e side)) { c with todo := rest, closed := closed } := by
  obtain ⟨⟨hno, hnp, hns⟩, hd⟩ := h.tail ht
  have hmem : ∀ s, s ≠ .close n side → (s ∈ rest ↔ s ∈ c.todo) := fun s hs => by
    rw [ht, mem_cons_ne hs]
  have hin : .close n side ∈ c.todo := head_mem_todo ht
  -- the other ends that are open are at other numbers
  have hother : ∀ m e' side', c.ends m = some e' → c.Open m side' → (m, side') ≠ (n, side) →
      fdOf e' side' ≠ fdOf e side := by
    intro m e' side' he' ho hne hfd
    have hg := h.get_of_open he' ho
    have hopen : c.Open n side := by
      refine ⟨hin, fun r hs hr hcl _ => hne ?_⟩
      obtain ⟨rfl, rfl⟩ := h.lone n r hr hcl m side' ho.1
      rw [hs]
    rw [hfd, h.get_of_open he hopen, Option.some.injEq] at hg
    obtain ⟨hid, rfl⟩ := fileOf_inj hg
    exact hne (by rw [h.distinct n m e e' he he' hid])
  exact {
    disciplined := hd
    unopened := fun m hm => h.unopened m ((hmem _ (by simp)).mp hm)
    opened := fun m side' hc => by
      rw [hmem _ (by simp)]
      have hcs : Stmt.close m side' ≠ .close n side := fun hcs => hno (hcs ▸ hc)
      exact h.opened m side' ((hmem _ hcs).mp hc)
    fresh := h.fresh
    distinct := h.distinct
    table := fun m e' side' fd he' => by
      rw [Kernel.get_close, h.table m e' side' fd he']
      by_cases hms : (m, side') = (n, side)
      · cases hms
        rw [he] at he'
        cases he'
        exact ⟨fun ⟨hne, hfd, _⟩ => absurd hfd hne, fun ⟨_, ho⟩ => absurd ho.1 hno⟩
      · have hcs : Stmt.close m side' ≠ .close n side := fun hcs => by
          cases hcs
          exact hms rfl
        unfold Call.Open
        dsimp only
        rw [hmem _ hcs]
        refine and_iff_right_of_imp fun ⟨hfd, ho⟩ => ?_
        rw [hfd]
        exact hother m e' side' he' ho hms
    unstarted := fun m closes hs => h.unstarted m closes ((hmem _ (by simp)).mp hs)
    started := fun m r hr => by
      rw [hmem _ (by simp)]
      exact h.started m r hr
    lone := fun m r hr hcl m' side' hc => by
      have hcs : Stmt.close m' side' ≠ .close n side := fun hcs => hno (hcs ▸ hc)
      exact h.lone m r hr hcl m' side' ((hmem _ hcs).mp hc)
    closer := h.closer
    source := fun hc => absurd hc hns
    sourceClosed := fun fd hg => by
      rw [hmem _ (by simp), hmem _ (by simp)]
      exact h.sourceClosed fd (Kernel.get_close.mp hg).2 }

/-- A reader takes over its end. -/
theorem Descriptors.startReader (h : Descriptors owner k c) {rest : List Stmt} {closes : Bool}
    (ht : c.todo = .startReader n closes :: rest) (he : c.ends n = some e) :
    Descriptors owner k { c with
      todo := rest
      readers := Function.update c.readers n
        (some { fd := e.read, closes, pc := .reading, sink := [] }) } := by
  obtain ⟨⟨hno, -, hnp, hns, hlone⟩, hd⟩ := h.tail ht
  have hnr := h.unstarted n closes (head_mem_todo ht)
  have hmem : ∀ s, s ≠ .startReader n closes → (s ∈ rest ↔ s ∈ c.todo) := fun s hs => by
    rw [ht, mem_cons_ne hs]
  exact {
    disciplined := hd
    unopened := fun m hm => by
      have hmn : m ≠ n := by
        rintro rfl
        exact hnp hm
      dsimp only
      rw [Function.update_of_ne hmn]
      exact h.unopened m ((hmem _ (by simp)).mp hm)
    opened := fun m side hc => by
      rw [hmem _ (by simp)]
      exact h.opened m side ((hmem _ (by simp)).mp hc)
    fresh := h.fresh
    distinct := h.distinct
    table := fun m e' side fd he' => by
      rw [h.table m e' side fd he']
      unfold Call.Open
      dsimp only
      rw [hmem _ (by simp)]
      by_cases hmn : m = n
      · subst hmn
        rw [Function.update_self, hnr]
        simp
      · rw [Function.update_of_ne hmn]
    unstarted := fun m closes' hs => by
      have hmn : m ≠ n := by
        rintro rfl
        exact hno _ hs
      dsimp only
      rw [Function.update_of_ne hmn]
      exact h.unstarted m closes' ((hmem _ (by simp [hmn])).mp hs)
    started := fun m r hr => by
      dsimp only at hr ⊢
      refine ⟨hns, ?_⟩
      rcases of_update_some hr with ⟨rfl, rfl⟩ | ⟨-, hr⟩
      · exact ⟨e, he, rfl⟩
      · exact (h.started m r hr).2
    lone := fun m r hr hcl m' side hc => by
      rcases of_update_some hr with ⟨rfl, rfl⟩ | ⟨-, hr⟩
      · exact hlone hcl m' side hc
      · exact h.lone m r hr hcl m' side ((hmem _ (by simp)).mp hc)
    closer := fun m r hr hpc => by
      rcases of_update_some hr with ⟨rfl, rfl⟩ | ⟨-, hr⟩
      · cases hpc
      · exact h.closer m r hr hpc
    source := fun hc => absurd hc hns
    sourceClosed := fun fd hg => by
      rw [hmem _ (by simp), hmem _ (by simp)]
      exact h.sourceClosed fd hg }

/-- **`Descriptors` is kept by every step of the calling thread.** -/
theorem Descriptors.mainMove (h : Descriptors owner k c) (hwf : k.WellFormed)
    (hm : MainMove owner now k c k' c') : Descriptors owner k' c' := by
  cases hm with
  | openSource rest ht => exact h.openSource ht
  | closeSource rest ht fd hs => exact h.closeSource ht hs
  | pipe n rest ht => exact h.pipe hwf ht
  | startClock rest ht =>
    exact h.pass ht id (Nat.le_refl _) rfl (h.tail ht).2 rfl rfl rfl fun _ _ => Iff.rfl
  | fork child rest ht =>
    exact h.pass ht id (Nat.le_refl _) rfl (h.tail ht).2 rfl rfl rfl fun _ _ => Iff.rfl
  | close n side rest ht e he => exact h.close ht he
  | fed bytes rest ht _ written hw =>
    obtain ⟨hl, hs⟩ := write_frame hw
    exact h.pass ht id hl hs (h.tail ht).2 rfl rfl rfl fun _ _ => Iff.rfl
  | feeding bytes rest ht _ written hlt hw =>
    obtain ⟨hl, hs⟩ := write_frame hw
    exact h.pass ht id hl hs ⟨(h.tail ht).1, (h.tail ht).2⟩ rfl rfl rfl
      fun _ hs => mem_cons_touches id hs
  | startReader n closes rest ht e he => exact h.startReader ht he
  | waited s hs rest ht pid hp proc hproc status hl =>
    rcases hs with rfl | rfl <;>
      exact h.pass ht id (Nat.le_refl _) rfl (h.tail ht).2 rfl rfl rfl fun _ _ => Iff.rfl
  | waitFailed s hs rest ht pid hp hl timedOut =>
    rcases hs with rfl | rfl <;>
      exact h.pass ht id (Nat.le_refl _) rfl (h.tail ht).2 rfl rfl rfl fun _ _ => Iff.rfl
  | waitAlive rest ht pid hp proc hproc hl =>
    exact h.pass ht id (Nat.le_refl _) rfl ⟨(h.tail ht).1, (h.tail ht).2⟩ rfl rfl rfl
      fun _ hs => mem_cons_touches id hs
  | kill rest ht hup pid hp =>
    obtain ⟨hl, hs⟩ := exit_frame k pid (.signaled 9)
    exact h.pass ht id hl hs ⟨(h.tail ht).1, (h.tail ht).2⟩ rfl rfl rfl
      fun _ hs => mem_cons_touches id hs
  | sleep rest ht hup =>
    exact h.pass ht id (Nat.le_refl _) rfl ⟨(h.tail ht).1, (h.tail ht).2⟩ rfl rfl rfl
      fun _ hs => mem_cons_touches id hs
  | join n rest ht r hr hf =>
    exact h.pass ht id (Nat.le_refl _) rfl (h.tail ht).2 rfl rfl rfl fun _ _ => Iff.rfl

/-! ## Steps of the reader threads -/

/-- The reader goes on or ends, and its descriptor stays as it is. -/
theorem Descriptors.readerStays (h : Descriptors owner k c) (hl : k.pipes.length ≤ k'.pipes.length)
    (hserver : k'.server = k.server) {r r' : Reader} (hr : c.readers n = some r)
    (hpc : r.pc = .reading) (hfd : r'.fd = r.fd) (hcl : r'.closes = r.closes)
    (hclosing : r'.pc = .closing → r'.closes = true)
    (hfinished : r'.closes = true → r'.pc ≠ .finished) :
    Descriptors owner k' { c with readers := Function.update c.readers n (some r') } := by
  refine h.frame hl (fun fd f _ => by rw [hserver]) h.disciplined rfl rfl (fun _ _ => Iff.rfl)
    ?_ ?_ ?_
  · intro m r₁ hr₁
    rcases of_update_some hr₁ with ⟨rfl, rfl⟩ | ⟨-, hr₁⟩
    · exact ⟨r, hr, hfd, hcl⟩
    · exact ⟨r₁, hr₁, rfl, rfl⟩
  · intro m r₁ hr₁ hpc₁
    rcases of_update_some hr₁ with ⟨rfl, rfl⟩ | ⟨-, hr₁⟩
    · exact hclosing hpc₁
    · exact h.closer m r₁ hr₁ hpc₁
  · intro m side
    unfold Call.Open
    dsimp only
    refine and_congr Iff.rfl ?_
    by_cases hmn : m = n
    · subst hmn
      rw [Function.update_self, hr]
      constructor
      · intro _ r₁ _ hr₁ _ hf
        cases hr₁
        rw [hpc] at hf
        cases hf
      · intro _ r₁ _ hr₁ hc₁
        cases hr₁
        exact hfinished hc₁
    · rw [Function.update_of_ne hmn]

/-- The reader closes its descriptor, the last one the call has open. -/
theorem Descriptors.readerClose (h : Descriptors owner k c) {r : Reader} {closed : List (Option File)}
    (hr : c.readers n = some r) (hpc : r.pc = .closing) :
    Descriptors owner (k.close r.fd) { c with
      readers := Function.update c.readers n (some { r with pc := .finished })
      closed := closed } := by
  have hcl := h.closer n r hr hpc
  obtain ⟨hns, e, he, hfd⟩ := h.started n r hr
  have hreaders : ∀ m r', Function.update c.readers n (some { r with pc := .finished }) m = some r' →
      ∃ r₀, c.readers m = some r₀ ∧ r'.fd = r₀.fd ∧ r'.closes = r₀.closes ∧
        (r'.pc = .closing → r₀.pc = .closing) := by
    intro m r' hr'
    rcases of_update_some hr' with ⟨rfl, rfl⟩ | ⟨-, hr'⟩
    · exact ⟨r, hr, rfl, rfl, fun h => by cases h⟩
    · exact ⟨r', hr', rfl, rfl, id⟩
  have hnone : ∀ m, c.readers m = none →
      Function.update c.readers n (some { r with pc := .finished }) m = none := by
    intro m hm
    have hmn : m ≠ n := by
      rintro rfl
      rw [hr] at hm
      cases hm
    rw [Function.update_of_ne hmn]
    exact hm
  exact {
    disciplined := h.disciplined
    unopened := fun m hm => ⟨(h.unopened m hm).1, hnone m (h.unopened m hm).2⟩
    opened := h.opened
    fresh := h.fresh
    distinct := h.distinct
    table := fun m e' side fd he' => by
      rw [Kernel.get_close, h.table m e' side fd he']
      constructor
      · rintro ⟨hne, hfd', ho⟩
        obtain ⟨rfl, rfl⟩ := h.lone n r hr hcl m side ho.1
        rw [he] at he'
        cases he'
        exact absurd (hfd'.trans hfd.symm) hne
      · rintro ⟨-, ho⟩
        obtain ⟨rfl, rfl⟩ := h.lone n r hr hcl m side ho.1
        exact absurd rfl (ho.2 _ rfl (Function.update_self ..) hcl)
    unstarted := fun m closes hs => hnone m (h.unstarted m closes hs)
    started := fun m r' hr' => by
      obtain ⟨r₀, hr₀, hfd₀, -, -⟩ := hreaders m r' hr'
      rw [hfd₀]
      exact h.started m r₀ hr₀
    lone := fun m r' hr' hcl' m' side hc => by
      obtain ⟨r₀, hr₀, -, hcl₀, -⟩ := hreaders m r' hr'
      exact h.lone m r₀ hr₀ (hcl₀ ▸ hcl') m' side hc
    closer := fun m r' hr' hpc' => by
      obtain ⟨r₀, hr₀, -, hcl₀, hpc₀⟩ := hreaders m r' hr'
      rw [hcl₀]
      exact h.closer m r₀ hr₀ (hpc₀ hpc')
    source := fun hc => absurd hc hns
    sourceClosed := fun fd hg => h.sourceClosed fd (Kernel.get_close.mp hg).2 }

/-- **`Descriptors` is kept by every step of a reader thread.** -/
theorem Descriptors.readerMove (h : Descriptors owner k c) (hm : ReaderMove n k c k' c') :
    Descriptors owner k' c' := by
  cases hm with
  | got r hr hpc p hp hne =>
    refine h.readerStays ?_ ?_ hr hpc ?_ ?_ ?_ ?_
    · simp
    · rfl
    · rfl
    · rfl
    · intro hc
      rw [hpc] at hc
      cases hc
    · intro _ hf
      rw [hpc] at hf
      cases hf
  | stop r hr hpc hw =>
    refine h.readerStays (Nat.le_refl _) rfl hr hpc rfl rfl ?_ ?_
    · intro hc
      cases hcl : r.closes with
      | true => rfl
      | false => rw [hcl] at hc; cases hc
    · intro hcl hf
      rw [if_pos hcl] at hf
      cases hf
  | close r hr hpc => exact h.readerClose hr hpc

/-! ## Steps of everybody else -/

/-- Children do nothing to the descriptors of the server. -/
theorem Descriptors.procMove (h : Descriptors owner k c) {pid : Nat}
    (hm : Kernel.ProcMove k pid k') : Descriptors owner k' c :=
  h.kernel hm.length_pipes fun fd f _ => by rw [hm.server]

/-- Somebody else opens a file. -/
theorem Descriptors.openOther (h : Descriptors owner k c) {other : Nat} (ho : other ≠ owner) :
    Descriptors owner (k.openFile other).2 c := by
  refine h.kernel (Nat.le_refl _) fun fd f hf => ?_
  rw [Kernel.get_openFile]
  refine or_iff_right fun ⟨_, hfo⟩ => ?_
  rcases hf with rfl | ⟨p, hp, -⟩
  · exact ho (File.other.inj hfo).symm
  · rw [hfo] at hp
    cases hp

/-- Somebody else closes one. -/
theorem Descriptors.closeOther (h : Descriptors owner k c) {other fd : Nat} (ho : other ≠ owner)
    (hg : k.server.get fd = some (.other other)) : Descriptors owner (k.close fd) c := by
  refine h.kernel (Nat.le_refl _) fun fd' f hf => ?_
  rw [Kernel.get_close]
  refine and_iff_right_of_imp fun hg' => ?_
  rintro rfl
  rw [hg] at hg'
  cases hg'
  rcases hf with hf | ⟨p, hp, -⟩
  · exact ho (File.other.inj hf)
  · cases hp

/-- A call that has not started yet owns nothing. -/
theorem descriptors_fresh {script : List Stmt} {limit : Int} (hs : WellScripted script)
    (ht : ∀ f, k.server.Holds f → ∃ other, f = .other other ∧ other ≠ owner) :
    Descriptors owner k (.fresh script limit) where
  disciplined := hs.disciplined
  unopened := fun _ _ => ⟨rfl, rfl⟩
  opened := fun n side hc => Or.inl (hs.opens n side hc)
  fresh := fun _ _ he => by cases he
  distinct := fun _ _ _ _ he => by cases he
  table := fun _ _ _ _ he => by cases he
  unstarted := fun _ _ _ => rfl
  started := fun _ _ hr => by cases hr
  lone := fun _ _ hr => by cases hr
  closer := fun _ _ hr => by cases hr
  source := fun hc => Or.inl (hs.opensSource hc)
  sourceClosed := fun fd hg => by
    obtain ⟨other, hf, hne⟩ := ht _ ⟨fd, hg⟩
    exact absurd (File.other.inj hf).symm hne

end MiniOj.Judge
