import MiniOj.Infra.LockedObject
import MiniOj.Util.Config
import MiniOj.Util.Logger
import MiniOj.Util.Properties.Dotenv

/-!
# Lines of the log

However the threads that log are interleaved, each call writes its line in one piece or, below the
minimum level, nothing, and the lines are read back as what was logged.

* `logObject` — the output behind the mutex, an entry appended at a time
* `performs_log` — what one call does
* `readEntry_line` — a line is read as its entry
* `log_lines` — runs
-/

namespace MiniOj.Util.Logger

open Infra Calendar

/-- What a call of `log` has logged, with the time that it has read. -/
structure LogEntry where
  time : Instant
  request : LogRequest
  deriving DecidableEq, Repr

/-- The line of the message. -/
def LogEntry.line (e : LogEntry) : Bytes := (pieces e.time e.request).flatten

/-! ## The mutex -/

/-- The output up to the line that is being written. -/
def written : Bytes × Option Nat → Bytes
  | (output, none) => output
  | (output, some n) => output.take n

/-- The output behind the mutex. -/
def logObject (requests : List LogRequest) :
    LockedObject Local Shared (Bytes × Option Nat) Bytes LogEntry where
  holds l := l.holds
  busy s := s.mutex.isSome
  guarded s := (s.output, s.mutex)
  abs := written
  inv f := ∀ n, f.2 = some n → n ≤ f.1.length
  does output e output' := e.request ∈ requests ∧ output' = output ++ e.line

variable {requests : List LogRequest} {minimumLevel : LogLevel} {c : Call} {l l' : Local}
  {s s' : Shared} {req : LogRequest} {clock : Instant}

/-- **Only the thread with the mutex writes.** -/
theorem laws_logObject (requests : List LogRequest) : (logObject requests).Laws execute where
  others := by
    intro c l s r l' s' h hown hbusy
    have hfree : l.holds = false := hown
    have hlocked : s.mutex.isSome = true := hbusy
    cases c with
    | now =>
      cases h
      exact ⟨hown, hbusy, rfl⟩
    | lock =>
      rw [execute, if_pos hlocked] at h
      cases h
    | write | unlock =>
      rw [execute, hfree, if_neg Bool.false_ne_true] at h
      cases h
  own := by
    intro c l s r l' s' h hsame
    have hsame : s.mutex.isSome = l.holds := hsame
    cases c with
    | now =>
      cases h
      exact hsame
    | lock =>
      rw [execute] at h
      split at h
      · cases h
      · cases h
        rfl
    | write | unlock =>
      rw [execute] at h
      split at h
      · cases h
        first | exact hsame | rfl
      · cases h

/-! ## One call -/

/-- The entry of a call, if it is not below the minimum level. -/
def entries (minimumLevel : LogLevel) (req : LogRequest) (time : Instant) : List LogEntry :=
  if req.level.rank < minimumLevel.rank then [] else [⟨time, req⟩]

/-- The thread has left the mutex and done what its arguments ask for. -/
def Logged (minimumLevel : LogLevel) (req : LogRequest) (done : List LogEntry) (l : Local)
    (_ : Bytes × Option Nat) (_ : Except Empty Unit) : Prop :=
  l.holds = false ∧ done = entries minimumLevel req l.read

variable {post : List LogEntry → Local → Bytes × Option Nat → Except Empty Unit → Prop}
  {done : List LogEntry}

/-- While a line is written the lines before it are all there is. -/
theorem performs_writeAll {p : Action Unit} {n : Nat} (hl : l.holds = true) :
    ∀ {texts : List Bytes} {output : Bytes}, n ≤ output.length →
      p.Performs (logObject requests) execute post done l (output ++ texts.flatten, some n) →
      (writeAll texts >>= fun _ => p).Performs (logObject requests) execute post done l
        (output, some n)
  | [], output, _, hp => by
    rw [List.flatten_nil, List.append_nil] at hp
    exact hp
  | text :: texts, output, hn, hp => by
    intro s hinv hsame r l' s' hexec
    obtain ⟨rfl, hmutex⟩ : s.output = output ∧ s.mutex = some n := Prod.mk.inj (hsame hl)
    rw [execute, if_pos hl] at hexec
    cases hexec
    rw [List.flatten_cons, ← List.append_assoc] at hp
    have hlong : n ≤ (s.output ++ text).length := by
      rw [List.length_append]
      exact Nat.le_add_right_of_le hn
    have hafter : (logObject requests).guarded { s with output := s.output ++ text } =
        (s.output ++ text, some n) := congrArg (Prod.mk _) hmutex
    have hbefore : (logObject requests).guarded s = (s.output, some n) :=
      congrArg (Prod.mk _) hmutex
    have htake : written (s.output ++ text, some n) = written (s.output, some n) :=
      List.take_append_of_le_length hn
    rw [hafter, hbefore]
    refine ⟨fun k hk => Option.some.inj hk ▸ hlong, [], ?_, ?_⟩
    · show Chain _ (written (s.output, some n)) [] (written (s.output ++ text, some n))
      rw [htake]
      exact .nil _
    · rw [List.append_nil]
      exact performs_writeAll hl hlong hp

/-- **One call** appends its entry when it leaves the mutex, or nothing. -/
theorem performs_log (hreq : req ∈ requests) (f : Bytes × Option Nat) :
    (log minimumLevel req).Performs (logObject requests) execute (Logged minimumLevel req) [] {}
      f := by
  unfold log
  split
  · next hlow => exact ⟨rfl, (if_pos hlow).symm⟩
  · next hlevel =>
    intro before hinv _ now l' s' hexec
    cases hexec
    refine Program.Performs.unchanged rfl hinv ?_
    intro s hinv _ r l' s' hexec
    rw [execute] at hexec
    split at hexec
    · cases hexec
    next hfree =>
    cases hexec
    have hnone : s.mutex = none := Option.not_isSome_iff_eq_none.mp hfree
    have hbefore : (logObject requests).guarded s = (s.output, none) := congrArg (Prod.mk _) hnone
    rw [hbefore]
    refine ⟨fun n hn => (Option.some.inj hn).symm.le, [], ?_, ?_⟩
    · show Chain _ s.output [] (s.output.take s.output.length)
      rw [List.take_length]
      exact .nil _
    refine performs_writeAll rfl (Nat.le_refl _) ?_
    intro t _ hsame r l' s' hexec
    obtain ⟨houtput, hmutex⟩ := Prod.mk.inj (hsame rfl)
    cases hexec
    refine ⟨nofun, [⟨before.clock, req⟩], .single ⟨hreq, ?_⟩, rfl, ?_⟩
    · show t.output = (written (t.output, t.mutex)) ++ _
      rw [houtput, hmutex]
      show _ = (s.output ++ _).take s.output.length ++ _
      rw [List.take_left' rfl]
      rfl
    · exact (if_neg hlevel).symm

/-! ## Nobody is stuck -/

/-- The stream is for those who have the mutex. -/
def Disciplined (l : Local) : Call → Prop
  | .now | .lock => l.holds = false
  | .write _ | .unlock => l.holds = true

theorem follows_writeAll {p : Action Unit} (hl : l.holds = true)
    (hp : p.Follows execute Disciplined l) :
    ∀ texts : List Bytes, (writeAll texts >>= fun _ => p).Follows execute Disciplined l
  | [] => hp
  | text :: texts => by
    refine ⟨hl, fun s r l' s' hexec => ?_⟩
    rw [execute, if_pos hl] at hexec
    cases hexec
    exact follows_writeAll hl hp texts

theorem follows_log (minimumLevel : LogLevel) (req : LogRequest) :
    (log minimumLevel req).Follows execute Disciplined {} := by
  unfold log
  split
  · trivial
  refine ⟨rfl, fun s now l' s' hexec => ?_⟩
  cases hexec
  refine ⟨rfl, fun s r l' s' hexec => ?_⟩
  rw [execute] at hexec
  split at hexec
  · cases hexec
  cases hexec
  refine follows_writeAll rfl ?_ _
  exact ⟨rfl, fun _ _ _ _ _ => trivial⟩

/-- A thread that keeps to the rule goes on, or the mutex is locked. -/
theorem step_call_isSome {S : State} {i : Nat} {t : Thread Call Call.Reply Empty Unit Local}
    (ht : S.threads[i]? = some t) (hrule : t.program.Follows execute Disciplined t.own)
    (hgoing : t.program ≠ .ret ()) (hfree : t.own.holds = true ∨ S.shared.mutex = none) :
    (step minimumLevel S (.call i)).isSome = true := by
  obtain ⟨program, own⟩ := t
  cases program with
  | ret => exact absurd rfl hgoing
  | throw e => exact e.elim
  | call c k =>
    have hexec : (execute c own S.shared).isSome = true := by
      have hc := hrule.1
      cases c with
      | now => rfl
      | lock =>
        have hnone := hfree.resolve_left fun hheld => absurd (hc.symm.trans hheld) (by decide)
        rw [execute, hnone]
        rfl
      | write | unlock =>
        have hheld : own.holds = true := hc
        rw [execute, if_pos hheld]
        rfl
    unfold step Threads.step
    simp only [ht, Option.isSome_map]
    exact hexec

/-! ## Reading the log -/

/-- What a line shows of an entry. -/
structure LogRecord where
  milliseconds : Nat
  request : LogRequest
  deriving DecidableEq, Repr

/-- What can be read of it again. -/
def LogEntry.record (e : LogEntry) : LogRecord := ⟨e.time.val / 10 ^ 6, e.request⟩

/-- The text after the first blank. -/
def afterBlank (s : Bytes) : Bytes := (s.dropWhile (· != 32)).drop 1

/-- The text after a byte. -/
def expect (b : UInt8) : Bytes → Option Bytes
  | [] => none
  | c :: s => if c = b then some s else none

/-- The level with this name. -/
def readLevel (name : Bytes) : Option LogLevel :=
  [.debug, .info, .warning, .error].find? fun level => logLevelName level == name

/-- Time, level, component and message of a line. -/
def readEntry (line : Bytes) : Option LogRecord := do
  let (moment, s) ← readMoment 84 line
  let s ← expect 46 s
  let (milliseconds, s) ← readDigits 3 s
  let s ← expect 90 s
  let s ← expect 32 s
  let level ← readLevel (s.takeWhile (· != 32))
  return ⟨timegm moment * 1000 + milliseconds, level, (afterBlank s).takeWhile (· != 32),
    afterBlank (afterBlank s)⟩

/-- The lines of the output; `none` when one of them is none. -/
def readLog (output : Bytes) : Option (List LogRecord) := (linesFrom [] output).mapM readEntry

/-- The component is a word, and nothing goes over the end of the line. -/
structure Plain (req : LogRequest) : Prop where
  word : 32 ∉ req.component
  component : 10 ∉ req.component
  message : 10 ∉ req.message

/-- A line without its end. -/
def LogEntry.body (e : LogEntry) : Bytes :=
  strftime 84 (gmtime (e.time.val / 10 ^ 9)) ++ 46 :: (digits 3 (e.time.val / 10 ^ 6 % 1000) ++
    90 :: 32 :: (logLevelName e.request.level ++ 32 :: (e.request.component ++
      32 :: e.request.message)))

theorem LogEntry.line_eq (e : LogEntry) : e.line = e.body ++ [10] := by
  unfold line pieces body
  have hdot : utf8 "." = [46] := by decide
  have hzone : utf8 "Z" = [90] := by decide
  have hblank : utf8 " " = [32] := by decide
  have hend : utf8 "\n" = [10] := by decide
  rw [hdot, hzone, hblank, hend]
  simp

theorem newline_notMem_digits {s : Bytes} (h : s.all Sql.isDigit = true) : 10 ∉ s := fun hmem =>
  absurd (List.all_eq_true.mp h 10 hmem) (by decide)

theorem newline_notMem_strftime (m : Moment) : 10 ∉ strftime 84 m := by
  have hyear := newline_notMem_digits (all_decimal m.year)
  have htwo : ∀ n, 10 ∉ digits 2 n := fun n => newline_notMem_digits (all_digits 2 n)
  unfold strftime
  simp only [List.mem_append, List.mem_cons, not_or, htwo, hyear, not_false_eq_true, and_true]
  decide

theorem newline_notMem_body {e : LogEntry} (h : Plain e.request) : 10 ∉ e.body := by
  have htime := newline_notMem_strftime (gmtime (e.time.val / 10 ^ 9))
  have hdigits := newline_notMem_digits (all_digits 3 (e.time.val / 10 ^ 6 % 1000))
  have hlevel : 10 ∉ logLevelName e.request.level := by cases e.request.level <;> decide
  unfold LogEntry.body
  simp only [List.mem_append, List.mem_cons, not_or, htime, hdigits, hlevel, h.component,
    h.message, not_false_eq_true, and_true]
  decide

theorem takeWhile_word {a rest : Bytes} (h : 32 ∉ a) :
    (a ++ 32 :: rest).takeWhile (· != 32) = a := by
  rw [takeWhile_ne_append, takeWhile_ne_eq_self h]

theorem afterBlank_word {a rest : Bytes} (h : 32 ∉ a) : afterBlank (a ++ 32 :: rest) = rest := by
  unfold afterBlank
  rw [List.dropWhile_append_of_pos (ne_of_notMem h), List.dropWhile_cons_of_neg (by simp)]
  rfl

theorem readLevel_logLevelName (level : LogLevel) :
    readLevel (logLevelName level) = some level := by cases level <;> decide

/-- **A line is read as its entry.** -/
theorem readEntry_body {e : LogEntry} (h : Plain e.request) :
    readEntry e.body = some e.record := by
  have hbound := e.time.isLt
  have hyear := year_gmtime (e.time.val / 10 ^ 9)
  have hlate := (year_gmtime_lt_iff (e.time.val / 10 ^ 9)).mpr (by omega)
  have hname : 32 ∉ logLevelName e.request.level := by cases e.request.level <;> decide
  have hmilliseconds : e.time.val / 10 ^ 6 % 1000 < 10 ^ 3 := Nat.mod_lt _ (by decide)
  have htime : e.time.val / 10 ^ 9 * 1000 + e.time.val / 10 ^ 6 % 1000 = e.time.val / 10 ^ 6 := by
    omega
  unfold readEntry LogEntry.body
  rw [readMoment_strftime (by omega) hlate]
  simp only [Option.bind_eq_bind, Option.bind_some, expect, if_true,
    readDigits_digits hmilliseconds, takeWhile_word hname, readLevel_logLevelName,
    afterBlank_word hname, takeWhile_word h.word, afterBlank_word h.word, timegm_gmtime, htime]
  rfl

/-- **Lines are read as their entries.** -/
theorem readLog_lines : ∀ {es : List LogEntry}, (∀ e ∈ es, Plain e.request) →
    readLog (es.flatMap LogEntry.line) = some (es.map LogEntry.record)
  | [], _ => rfl
  | e :: es, h => by
    have hplain := h e List.mem_cons_self
    have ih : (linesFrom [] (es.flatMap LogEntry.line)).mapM readEntry =
        some (es.map LogEntry.record) :=
      readLog_lines fun e' he' => h e' (List.mem_cons_of_mem _ he')
    unfold readLog
    rw [List.flatMap_cons, LogEntry.line_eq, List.append_assoc, List.singleton_append,
      linesFrom_append (newline_notMem_body hplain), List.nil_append, List.mapM_cons,
      readEntry_body hplain, ih]
    rfl

/-! ## Runs -/

/-- A run of the logger, `effects` having the entries that each action adds to the output: they
are added by calls of threads, and each call that is over has added its own, or nothing when it
is below the minimum level. -/
structure LogHistory (minimumLevel : LogLevel) (actions : List (ThreadAction LogRequest Instant))
    (effects : List (List LogEntry)) (S : State) : Prop where
  length : effects.length = actions.length
  calls : ∀ p ∈ actions.zip effects, p.2 ≠ [] → ∃ i, p.1 = .call i
  requests : ∀ e ∈ effects.flatten, e.request ∈ arrivals actions
  finished : ∀ (i : Nat) (req : LogRequest) (t : Thread Call Call.Reply Empty Unit Local),
    (arrivals actions)[i]? = some req → S.threads[i]? = some t → t.program = .ret () →
    t.own.holds = false ∧ opsBy i actions effects = entries minimumLevel req t.own.read
  lines : written (S.shared.output, S.shared.mutex) = effects.flatten.flatMap LogEntry.line
  /-- without the mutex there is no line that is being written -/
  free : S.shared.mutex = none → S.shared.output = effects.flatten.flatMap LogEntry.line
  /-- a thread goes on, or another one does that has the mutex -/
  progress : ∀ (i : Nat) (t : Thread Call Call.Reply Empty Unit Local), S.threads[i]? = some t →
    t.program ≠ .ret () → (step minimumLevel S (.call i)).isSome = true ∨
      ∃ (j : Nat) (u : Thread Call Call.Reply Empty Unit Local), S.threads[j]? = some u ∧
        u.own.holds = true ∧ (step minimumLevel S (.call j)).isSome = true

theorem chain_lines {out out' : Bytes} {es : List LogEntry}
    (h : Chain (logObject requests).does out es out') :
    (∀ e ∈ es, e.request ∈ requests) ∧ out' = out ++ es.flatMap LogEntry.line := by
  induction h with
  | nil => exact ⟨nofun, (List.append_nil _).symm⟩
  | cons ho _ ih =>
    obtain ⟨hmem, rfl⟩ := ho
    refine ⟨fun e he => ?_, ?_⟩
    · rcases List.mem_cons.mp he with rfl | he
      · exact hmem
      · exact ih.1 e he
    · rw [ih.2, List.flatMap_cons, List.append_assoc]

/--
**Threads that log at the same time** add whole lines, each call its own, with the time that it
has read; as long as a call is not over some thread can go on; and when the components are words and
nothing holds a line end, the log is read as what was logged, in the order of the lines.
-/
theorem log_lines (minimumLevel : LogLevel) (clock : Instant)
    (actions : List (ThreadAction LogRequest Instant)) (S : State)
    (hrun : run (step minimumLevel) (create clock) actions = some S) :
    ∃ effects, LogHistory minimumLevel actions effects S ∧
      ((∀ req ∈ arrivals actions, Plain req) →
        readLog (written (S.shared.output, S.shared.mutex)) =
          some (effects.flatten.map LogEntry.record)) := by
  let M := logObject (arrivals actions)
  have hspawn : ∀ req ∈ arrivals actions, M.holds (spawn minimumLevel req).own = false ∧
      ∀ f, M.inv f → (spawn minimumLevel req).program.Performs M execute
        (Logged minimumLevel req) [] (spawn minimumLevel req).own f :=
    fun req hreq => ⟨rfl, fun f _ => performs_log hreq f⟩
  have hclock : ∀ s time s', setClock s time = some s' →
      M.guarded s' = M.guarded s ∧ M.busy s' = M.busy s := by
    intro s time s' ht
    cases ht
    exact ⟨rfl, rfl⟩
  have hinv : M.inv (M.guarded (create clock).shared) := nofun
  obtain ⟨effects, h⟩ := Threads.linearized_of_run (laws_logObject (arrivals actions))
    (fun _ _ _ _ _ _ hfree hpost => ⟨hfree, hpost.2⟩) hspawn hclock rfl rfl hinv hrun
  obtain ⟨hrequests, hlines⟩ := chain_lines h.chain
  have hwritten : written (S.shared.output, S.shared.mutex) =
      effects.flatten.flatMap LogEntry.line := hlines
  have hover : ∀ (i : Nat) (req : LogRequest) (t : Thread Call Call.Reply Empty Unit Local),
      (arrivals actions)[i]? = some req → S.threads[i]? = some t → t.program = .ret () →
      t.own.holds = false ∧ opsBy i actions effects = entries minimumLevel req t.own.read := by
    intro i req t hreq ht hret
    have hpost := h.performs i req t hreq ht
    rw [hret] at hpost
    exact hpost
  have hreach : Reachable (step minimumLevel) (· = create clock) S :=
    Reachable.run (.init rfl) hrun
  have hrules : ∀ t ∈ S.threads, t.program.Follows execute Disciplined t.own := by
    refine Threads.follows ?_ (follows_log minimumLevel) hreach
    rintro _ rfl
    rfl
  refine ⟨effects, ⟨h.length, h.calls, hrequests, hover, hwritten, ?_, ?_⟩, fun hplain => ?_⟩
  · intro hnone
    rw [hnone] at hwritten
    exact hwritten
  · intro i t ht hgoing
    cases hmutex : S.shared.mutex with
    | none =>
      exact .inl (step_call_isSome ht (hrules t (List.mem_of_getElem? ht)) hgoing (.inr hmutex))
    | some n =>
      have hbusy : M.busy S.shared = true := by
        show S.shared.mutex.isSome = true
        rw [hmutex]
        rfl
      obtain ⟨u, hu, hheld⟩ := h.owner hbusy
      obtain ⟨j, hj⟩ := List.mem_iff_getElem?.mp hu
      have hlt : j < S.threads.length := (List.getElem?_eq_some_iff.mp hj).1
      have hreq := List.getElem?_eq_getElem (h.count ▸ hlt)
      -- a call that is over has given the mutex back
      have hunfinished : u.program ≠ .ret () := fun hret =>
        absurd (hheld.symm.trans (hover j _ u hreq hj hret).1) (by decide)
      exact .inr ⟨j, u, hj, hheld, step_call_isSome hj (hrules u hu) hunfinished (.inl hheld)⟩
  · rw [hwritten]
    exact readLog_lines fun e he => hplain e.request (hrequests e he)

/-- Two threads; the second waits for the first. -/
def twoCalls : List (ThreadAction LogRequest Instant) :=
  [.start ⟨.info, utf8 "seed", utf8 "done"⟩, .start ⟨.error, utf8 "pool", utf8 "lost"⟩,
    .call 0, .call 0, .env ⟨2000000000, by decide⟩, .call 1] ++ List.replicate 12 (.call 0) ++
      List.replicate 5 (.call 1)

theorem log_lines_two :
    let S := (run (step .info) (create 1000000000) twoCalls).get (by decide +kernel)
    ∃ effects, LogHistory .info twoCalls effects S ∧
      ((∀ req ∈ arrivals twoCalls, Plain req) →
        readLog (written (S.shared.output, S.shared.mutex)) =
          some (effects.flatten.map LogEntry.record)) :=
  log_lines .info 1000000000 twoCalls _ (Option.some_get _).symm

/-! ## The level of the configuration -/

/-- The level of a validated configuration is one. -/
theorem parseLogLevel_isSome_of_validate {config : AppConfig} (h : config.validate = .ok ()) :
    (parseLogLevel config.loggingLevel).isSome = true := by
  unfold AppConfig.validate at h
  dsimp only at h
  split_ifs at h with _ _ _ _ _ _ hlevel
  unfold parseLogLevel
  split_ifs with hdebug hinfo hwarning herror
  all_goals first | rfl | exact absurd ⟨hdebug, hinfo, hwarning, herror⟩ hlevel

end MiniOj.Util.Logger
