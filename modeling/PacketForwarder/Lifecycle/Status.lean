import PacketForwarder.Lifecycle
import PacketForwarder.Stop

/-!
# The status `start()` returns

`exit` throws an exception with a status.  If it comes from `main`, `start()` catches it
and returns the status.  If it comes from a thread, `with_catcher` catches it, requests a
stop, and lets the thread end: the status is dropped, and `main`, which the stop makes
leave its loop, ends in `exit(EXIT_SUCCESS)`.

* `StartRun.Step` — `main` and the threads as in `Lifecycle`, with the flags of
  `StopState`: a thread may call `exit` at any time, and `main` leaves its loop when a
  flag says so;
* `StartRun.Reachable.life`, `StartRun.Reachable.calledOnce` — what holds of the parts
  holds of the whole;
* `exitSig_of_exits` — once a thread has called `exit`, the loop of `main` will be left;
* `start_status_iff` — the status tells whether anyone failed exactly if no thread has
  failed without `main`;
* `start_success_after_failure` — a fetch error in `thread_up` ends in `EXIT_SUCCESS`.
-/

namespace PacketForwarder

/-! ## Threads, flags and exceptions -/

/-- A thread of the forwarder is `main` or one that it has spawned. -/
inductive FwdThread
  | main
  | worker (w : Worker)
  deriving DecidableEq

/-- The threads that call `check_stop`. -/
inductive StopParty
  | forwarder (t : FwdThread)
  /-- A thread of the application, in `stop()`. -/
  | application (n : ℕ)
  deriving DecidableEq

/-- A run of `start()`, with its threads and the flags of `lora_comms.cc`. -/
structure StartRun where
  life : Lifecycle
  stop : StopState StopParty
  /-- `main` has registered its handler in this run. -/
  registered : Bool
  /-- The threads that `mem_exit` has thrown out of their routine. -/
  thrown : List Worker
  /-- For the statements: who has called `exit(EXIT_FAILURE)` before `start()` returned. -/
  failed : List FwdThread

/-- A step belongs to `main`, to a thread or to the application. -/
inductive RunLabel
  /-- The call `main` is in returns. -/
  | call (r : CallResult)
  /-- `main` calls `sigaction` for its three signals. -/
  | register
  /-- A thread calls `exit`; `with_catcher` requests a stop. -/
  | exits (w : Worker) (status : ExitStatus)
  /-- A thread returns from its routine by itself. -/
  | ends (w : Worker)
  /-- The application calls `stop()`. -/
  | stop (n : ℕ)
  /-- The handler returns to `check_stop`. -/
  | callHandler (p : StopParty)
  /-- Too many `PULL_DATA` without an acknowledgement: `thread_down` sets `exit_sig`. -/
  | autoquit
  deriving DecidableEq

/-- The status of an exception of `main`, from the moment it is thrown. -/
def MainPc.status : MainPc → Option ExitStatus
  | .thrown status | .returned status => some status
  | _ => none

/-- `start()` has returned. -/
def Lifecycle.returned (s : Lifecycle) : Bool :=
  match s.pc with
  | .returned _ => true
  | _ => false

namespace StartRun

/-- `start()` is called after `reset()`. -/
def start (gpsEnabled : Bool) : StartRun := ⟨.start gpsEnabled, .reset, false, [], []⟩

/-- `main` goes on; it is recorded if it throws `EXIT_FAILURE`. -/
def call (gpsPath : Bool) (s : StartRun) (r : CallResult) : StartRun :=
  let life := s.life.call gpsPath r
  { s with
    life := life
    failed := if life.pc = .thrown .failure then .main :: s.failed else s.failed }

/-- `main` registers `sig_handler`. -/
def register (s : StartRun) : StartRun :=
  let main := StopParty.forwarder .main
  { s with
    stop := ((s.stop.memSigaction main .sigquit).memSigaction main .sigint).memSigaction main
      .sigterm
    registered := true }

/-- `mem_exit` in a thread, up to the end of the critical section of `check_stop`. -/
def exits (s : StartRun) (w : Worker) (status : ExitStatus) : StartRun :=
  { s with
    stop := s.stop.checkStop (.forwarder (.worker w)) false true
    thrown := w :: s.thrown
    failed :=
      if status = .failure ∧ s.life.returned = false then .worker w :: s.failed else s.failed }

/-- The state that a step leads to. -/
def step (gpsPath : Bool) (s : StartRun) : RunLabel → StartRun
  | .call r => s.call gpsPath r
  | .register => s.register
  | .exits w status => s.exits w status
  | .ends w => { s with life := s.life.ends w }
  | .stop n => { s with stop := s.stop.checkStop (.application n) false true }
  | .callHandler p => { s with stop := s.stop.step (.callHandler p) }
  | .autoquit => { s with stop := s.stop.sigHandler .sigterm }

/-- Nobody goes on from within `check_stop`; the loop of `main` is left when a flag is set. -/
def Enabled (s : StartRun) : RunLabel → Prop
  | .call r =>
    s.life.Enabled (.call r) ∧ .forwarder .main ∉ s.stop.calling ∧
      (s.life.pc = .loop →
        s.registered = true ∧ (r = .ok → s.stop.exitSig = true ∨ s.stop.quitSig = true))
  | .register => s.life.pc = .loop ∧ s.registered = false
  | .exits w _ => s.life.workers w = .running ∧ w ∉ s.thrown
  | .ends w => s.life.workers w = .running ∧ .forwarder (.worker w) ∉ s.stop.calling
  | .stop n => .application n ∉ s.stop.calling
  | .callHandler p => p ∈ s.stop.calling
  | .autoquit => s.life.workers .down = .running ∧ Worker.down ∉ s.thrown

instance (s : StartRun) (l : RunLabel) : Decidable (s.Enabled l) :=
  match l with
  | .call _ => inferInstanceAs (Decidable (_ ∧ _ ∧ (_ → _ ∧ (_ → _ ∨ _))))
  | .register | .exits _ _ | .ends _ | .autoquit => inferInstanceAs (Decidable (_ ∧ _))
  | .stop _ => inferInstanceAs (Decidable (_ ∉ _))
  | .callHandler _ => inferInstanceAs (Decidable (_ ∈ _))

/-- The transitions are the steps that can be taken. -/
def Step (gpsPath : Bool) (s : StartRun) (l : RunLabel) (s' : StartRun) : Prop :=
  s.Enabled l ∧ s' = s.step gpsPath l

/-- The states of a run of `start()`. -/
abbrev Reachable (gpsPath gpsEnabled : Bool) (s : StartRun) : Prop :=
  Runs.Reaches (Step gpsPath) Runs.anyStep (start gpsEnabled) s

variable {gpsPath gpsEnabled : Bool} {s s' : StartRun}

/-! ## The parts -/

/-- To `main` and the threads, a step is one of theirs or nothing. -/
theorem Step.life {l : RunLabel} (hst : Step gpsPath s l s') :
    s'.life = s.life ∨ ∃ l', Lifecycle.Step gpsPath s.life l' s'.life := by
  obtain ⟨hen, rfl⟩ := hst
  cases l with
  | call r => exact .inr ⟨.call r, hen.1, rfl⟩
  | ends w => exact .inr ⟨.ends w, hen.1, rfl⟩
  | register => exact .inl rfl
  | exits w status => exact .inl rfl
  | stop n => exact .inl rfl
  | callHandler p => exact .inl rfl
  | autoquit => exact .inl rfl

/-- **A run of `start()` is one of its life cycle.** -/
theorem Reachable.life (h : Reachable gpsPath gpsEnabled s) :
    Lifecycle.ReachableBy gpsPath gpsEnabled Runs.anyStep s.life := by
  induction h with
  | start => exact .start
  | next _ _ hst ih =>
    rcases hst.life with hsame | ⟨l', hl⟩
    · rw [hsame]
      exact ih
    · exact ih.next trivial hl

/-- The handler is still called once after `main` has registered it. -/
theorem calledOnce_register (h : s.stop.CalledOnce) : s.register.stop.CalledOnce :=
  ((h.memSigaction _ .sigquit).memSigaction _ .sigint).memSigaction _ .sigterm

theorem Step.calledOnce {l : RunLabel} (hst : Step gpsPath s l s') (h : s.stop.CalledOnce) :
    s'.stop.CalledOnce := by
  obtain ⟨hen, rfl⟩ := hst
  cases l with
  | call r => exact h
  | ends w => exact h
  | register => exact calledOnce_register h
  | exits w status => exact h.checkStop _ false true
  | stop n => exact h.checkStop _ false true
  | callHandler p => exact h.callHandler hen
  | autoquit => exact ⟨h.flags, h.calls, fun _ => rfl⟩

/-- **The handler is called once** where it is registered and a stop is requested, and never
otherwise. -/
theorem Reachable.calledOnce (h : Reachable gpsPath gpsEnabled s) : s.stop.CalledOnce :=
  h.invariant (I := fun s => s.stop.CalledOnce) StopState.calledOnce_reset
    fun _ _ _ _ hs _ hst => hst.calledOnce hs

/-! ## A stop by a thread that fails -/

/-- What the flags and the exceptions have to do with each other. -/
structure StopsOk (s : StartRun) : Prop where
  handler : s.registered = true → s.stop.signalHandler = true
  request : s.thrown ≠ [] → s.stop.stopRequested = true

/-- `check_stop` only adds to the flags and takes none back. -/
theorem checkStop_flags {ι : Type*} (s : StopState ι) (t : ι) (handler requestStop : Bool) :
    (s.checkStop t handler requestStop).signalHandler = (s.signalHandler || handler) ∧
      (s.checkStop t handler requestStop).stopRequested = (s.stopRequested || requestStop) := by
  unfold StopState.checkStop
  simp only
  split
  · exact ⟨rfl, rfl⟩
  · exact ⟨rfl, rfl⟩

/-- So the flags it finds set stay so. -/
theorem StopsOk.checkStop (h : s.StopsOk) (t : StopParty) (requestStop : Bool) :
    StopsOk { s with stop := s.stop.checkStop t false requestStop } := by
  obtain ⟨hhandler, hrequest⟩ := checkStop_flags s.stop t false requestStop
  refine ⟨fun hreg => ?_, fun hthrown => ?_⟩
  · show (s.stop.checkStop t false requestStop).signalHandler = true
    rw [hhandler, h.handler hreg]
    rfl
  · show (s.stop.checkStop t false requestStop).stopRequested = true
    rw [hrequest, h.request hthrown]
    rfl

/-- Of the three signals only `SIGTERM` reaches `check_stop`. -/
theorem register_stop (s : StartRun) :
    s.register.stop = s.stop.checkStop (.forwarder .main) true false := rfl

theorem Step.stopsOk {l : RunLabel} (hst : Step gpsPath s l s') (h : s.StopsOk) : s'.StopsOk := by
  obtain ⟨hen, rfl⟩ := hst
  cases l with
  | call r => exact ⟨h.handler, h.request⟩
  | ends w => exact ⟨h.handler, h.request⟩
  | register =>
    obtain ⟨hhandler, hrequest⟩ := checkStop_flags s.stop (.forwarder .main) true false
    refine ⟨fun _ => ?_, fun hthrown => ?_⟩
    · show s.register.stop.signalHandler = true
      rw [register_stop, hhandler, Bool.or_true]
    · show s.register.stop.stopRequested = true
      rw [register_stop, hrequest, h.request hthrown]
      rfl
  | exits w status =>
    obtain ⟨-, hrequest⟩ := checkStop_flags s.stop (.forwarder (.worker w)) false true
    refine ⟨fun hreg => (h.checkStop _ true).handler hreg, fun _ => ?_⟩
    show (s.stop.checkStop _ false true).stopRequested = true
    rw [hrequest, Bool.or_true]
  | stop n => exact h.checkStop _ true
  | callHandler p => exact ⟨h.handler, h.request⟩
  | autoquit => exact ⟨h.handler, h.request⟩

/-- **A failure of a thread ends the run.**  Once a thread has called `exit`, `main` has
registered its handler and no one is in it, `exit_sig` is set. -/
theorem exitSig_of_exits (h : Reachable gpsPath gpsEnabled s) (hreg : s.registered = true)
    (hthrown : s.thrown ≠ []) (hcalling : s.stop.calling = []) : s.stop.exitSig = true := by
  have hstart : (start gpsEnabled).StopsOk := by
    refine ⟨fun hreg => ?_, fun hthrown => absurd rfl hthrown⟩
    cases hreg
  have hok : s.StopsOk := h.invariant hstart fun _ _ _ _ hs _ hst => hst.stopsOk hs
  obtain ⟨hflags, hcalls, hexits⟩ := h.calledOnce
  rw [hok.handler hreg, hok.request hthrown] at hflags
  rw [hflags, hcalling] at hcalls
  refine hexits ?_
  simp only [List.length_nil, Bool.and_self, if_true] at hcalls
  omega

end StartRun

/-! ## The status -/

namespace Lifecycle

variable {s : Lifecycle}

/-- An exception of `main` is what `start()` returns. -/
theorem call_of_status (gpsPath : Bool) (r : CallResult) {status : ExitStatus}
    (h : s.pc.status = some status) : (s.call gpsPath r).pc = .returned status := by
  obtain ⟨pc, gpsEnabled, workers⟩ := s
  cases pc with
  | thrown st =>
    cases h
    rfl
  | returned st =>
    cases h
    rfl
  | _ => cases h

/-- Before there is one, `start()` does not return. -/
theorem call_ne_returned (gpsPath : Bool) (r : CallResult) (status : ExitStatus)
    (h : s.pc.status = none) : (s.call gpsPath r).pc ≠ .returned status := by
  generalize hs' : s.call gpsPath r = s'
  have hcalled : s.Called gpsPath r s' := hs' ▸ called_call gpsPath s r
  cases hcalled with
  | leads hleads =>
    rintro rfl
    generalize s.pc = pc at h hleads
    cases hleads with
    | configure _ hto => cases hto
    | network _ hto => cases hto
    | joined _ hto => rcases hto with hto | hto <;> cases hto
    | returns => cases h
    | returned => cases h
  | @create w _ =>
    show (w.next s.gpsEnabled).elim MainPc.loop MainPc.create ≠ _
    cases w.next s.gpsEnabled with
    | none => exact nofun
    | some w' => exact nofun
  | gpsEnable _ => exact nofun
  | fails _ _ => exact nofun
  | createFails _ _ => exact nofun

end Lifecycle

namespace StartRun

variable {gpsPath gpsEnabled : Bool} {s s' : StartRun}

/-- The invariant: the status of `main`'s exception says whether `main` failed. -/
def StatusOk (s : StartRun) : Prop :=
  s.life.pc.status = some .failure ↔ .main ∈ s.failed

theorem StatusOk.call (h : s.StatusOk) (r : CallResult) : (s.call gpsPath r).StatusOk := by
  unfold StatusOk StartRun.call
  simp only
  cases hstatus : s.life.pc.status with
  | some status =>
    have hpc := Lifecycle.call_of_status gpsPath r hstatus
    unfold StatusOk at h
    rw [hstatus] at h
    rw [hpc, if_neg (by exact nofun)]
    exact h
  | none =>
    have hno : .main ∉ s.failed := by
      intro hmain
      have := h.mpr hmain
      rw [hstatus] at this
      cases this
    by_cases hthrown : (s.life.call gpsPath r).pc = .thrown .failure
    · rw [if_pos hthrown, hthrown]
      exact ⟨fun _ => List.mem_cons_self, fun _ => rfl⟩
    · rw [if_neg hthrown]
      refine ⟨fun hfail => ?_, fun hmain => absurd hmain hno⟩
      cases hpc : (s.life.call gpsPath r).pc with
      | thrown status =>
        rw [hpc] at hfail
        cases hfail
        exact absurd hpc hthrown
      | returned status => exact absurd hpc (Lifecycle.call_ne_returned gpsPath r status hstatus)
      | _ =>
        rw [hpc] at hfail
        cases hfail

theorem Step.statusOk {l : RunLabel} (hst : Step gpsPath s l s') (h : s.StatusOk) :
    s'.StatusOk := by
  obtain ⟨hen, rfl⟩ := hst
  cases l with
  | call r => exact h.call r
  | exits w status =>
    have hmain : .main ∈ (s.exits w status).failed ↔ .main ∈ s.failed := by
      show .main ∈ (if status = .failure ∧ s.life.returned = false then
        FwdThread.worker w :: s.failed else s.failed) ↔ _
      split
      · simp
      · exact Iff.rfl
    exact Iff.trans h hmain.symm
  | register => exact h
  | ends w => exact h
  | stop n => exact h
  | callHandler p => exact h
  | autoquit => exact h

/-- `start()` returns `EXIT_FAILURE` exactly if `main` called it. -/
theorem returned_failure_iff (h : Reachable gpsPath gpsEnabled s) {status : ExitStatus}
    (hpc : s.life.pc = .returned status) : status = .failure ↔ .main ∈ s.failed := by
  have hstart : (start gpsEnabled).StatusOk :=
    ⟨fun h => (by cases h), fun h => (by cases h)⟩
  have hok : s.StatusOk := h.invariant hstart fun _ _ _ _ hs _ hst => hst.statusOk hs
  unfold StatusOk at hok
  rw [hpc] at hok
  rw [← hok]
  exact ⟨fun heq => congrArg some heq, fun heq => Option.some.inj heq⟩

/-- **What the status tells.**  In every run that ends, `start()` returns `EXIT_FAILURE` if
any thread has called `exit(EXIT_FAILURE)` and `EXIT_SUCCESS` otherwise, exactly if no
thread has called it or `main` has too. -/
theorem start_status_iff (h : Reachable gpsPath gpsEnabled s) {status : ExitStatus}
    (hpc : s.life.pc = .returned status) :
    (status = .failure ↔ s.failed ≠ []) ↔
      ((∃ w, .worker w ∈ s.failed) → .main ∈ s.failed) := by
  rw [returned_failure_iff h hpc]
  constructor
  · rintro hiff ⟨w, hw⟩
    exact hiff.mpr (List.ne_nil_of_mem hw)
  · intro hmain
    refine ⟨List.ne_nil_of_mem, fun hne => ?_⟩
    obtain ⟨t, ht⟩ := List.exists_mem_of_ne_nil _ hne
    cases t with
    | main => exact ht
    | worker w => exact hmain ⟨w, ht⟩

/-! ## Runs on fixed inputs -/

/-- From the start to the loop of `main`, with a debug configuration and without GPS. -/
def toLoop : List RunLabel := List.replicate 14 (.call .ok) ++ [.register]

/-- The threads end, and `main` joins them. -/
def joinThreads : List RunLabel :=
  [.ends .down, .call .ok, .call .ok, .ends .timersync, .ends .jit, .call .ok, .call .ok,
    .call .ok, .call .ok]

/-- A run that is ended by `stop()`. -/
theorem start_status_after_stop :
    let s := Runs.after (step false) (start false)
      (toLoop ++ [.stop 0, .callHandler (.application 0), .call .ok, .ends .up] ++ joinThreads)
    (ExitStatus.success = .failure ↔ s.failed ≠ []) ↔
      ((∃ w, .worker w ∈ s.failed) → .main ∈ s.failed) :=
  start_status_iff
    (show Reachable false false _ from
      Runs.Reaches.start.after (fun s l => s.Enabled l) (fun _ _ hl => ⟨trivial, hl, rfl⟩)
        (by decide)) rfl

/-- **A failure that is lost.**  `lgw_receive` fails, `thread_up` calls `exit(EXIT_FAILURE)`,
which stops the forwarder, and `start()` returns `EXIT_SUCCESS`. -/
theorem start_success_after_failure :
    ¬∀ s, Reachable false false s → ∀ status, s.life.pc = .returned status →
      (status = .failure ↔ s.failed ≠ []) := by
  intro h
  have hrun := h
    (Runs.after (step false) (start false)
      (toLoop ++ [.exits .up .failure, .callHandler (.forwarder (.worker .up)), .call .ok,
        .ends .up] ++ joinThreads))
    (Runs.Reaches.start.after (fun s l => s.Enabled l)
      (fun _ _ hl => ⟨trivial, hl, rfl⟩) (by decide))
  exact absurd ((hrun .success (by decide)).mpr (by decide)) (by decide)

end StartRun

end PacketForwarder
