import PacketForwarder.Lib.Runs

/-!
# Stopping

How a request to stop reaches the signal handler of `main`.  `check_stop` is called
by `stop()` from the application, by `with_catcher` in a thread that has ended in
`mem_exit`, and by `mem_sigaction` when `main` registers its handler.  It combines
three flags under `stop_mutex` and calls the handler after it has given the lock back.

* `checkStop` — the critical section;
* `sigHandler` — the handler;
* `StopState.Step` — the calls of any number of threads, in any order;
* `stop_once` — the handler is called once, and exactly if it is registered and a stop
  has been requested.
-/

namespace PacketForwarder

/-! ## The source -/

/-- The signals `main` has a handler for. -/
inductive Signal
  | sigquit
  | sigint
  | sigterm
  deriving DecidableEq

/-- The flags of `lora_comms.cc` and of `main`, since `reset()`, and the threads that are
outside the lock with the handler in their hands. -/
structure StopState (ι : Type*) where
  /-- `signal_handler` is `sig_handler` and not null. -/
  signalHandler : Bool
  signalHandlerCalled : Bool
  stopRequested : Bool
  exitSig : Bool
  quitSig : Bool
  /-- `h` is not null in these threads, and `h(SIGTERM)` has not returned. -/
  calling : List ι
  /-- How often the registered handler has returned from a call with `SIGTERM`. -/
  called : ℕ
  deriving DecidableEq

namespace StopState

variable {ι : Type*}

/-- The flags as `reset()` leaves them, with no handler registered. -/
def reset : StopState ι where
  signalHandler := false
  signalHandlerCalled := false
  stopRequested := false
  exitSig := false
  quitSig := false
  calling := []
  called := 0

/-- `check_stop(handler, request_stop)` in thread `t`, up to the end of its critical
section. -/
def checkStop (s : StopState ι) (t : ι) (handler requestStop : Bool) : StopState ι :=
  let s := { s with
    signalHandler := s.signalHandler || handler
    stopRequested := s.stopRequested || requestStop }
  if s.signalHandler && s.stopRequested && !s.signalHandlerCalled then
    { s with signalHandlerCalled := true, calling := t :: s.calling }
  else s

/-- `sig_handler`. -/
def sigHandler (s : StopState ι) : Signal → StopState ι
  | .sigquit => { s with quitSig := true }
  | .sigint | .sigterm => { s with exitSig := true }

/-- `mem_sigaction` with `sig_handler`. -/
def memSigaction (s : StopState ι) (t : ι) (signum : Signal) : StopState ι :=
  if signum = .sigterm then s.checkStop t true false else s

end StopState

/-! ## Any number of threads -/

/-- A step is a critical section of one of the functions that touch the flags. -/
inductive StopLabel (ι : Type*)
  /-- The application calls `stop()`, from any of its threads. -/
  | stop (t : ι)
  /-- An `ExitException` ends a thread; `with_catcher` requests a stop. -/
  | catchExit (t : ι)
  /-- `main` registers a handler for one of the signals. -/
  | sigaction (t : ι) (signum : Signal)
  /-- The handler is called in the second part of `check_stop`, without the lock. -/
  | callHandler (t : ι)

namespace StopState

variable {ι : Type*} [DecidableEq ι]

/-- The state that a step leads to. -/
def step (s : StopState ι) : StopLabel ι → StopState ι
  | .stop t | .catchExit t => s.checkStop t false true
  | .sigaction t signum => s.memSigaction t signum
  | .callHandler t =>
    { s.sigHandler .sigterm with calling := s.calling.erase t, called := s.called + 1 }

/-- A thread that has the handler is still in `check_stop`. -/
def Enabled (s : StopState ι) : StopLabel ι → Prop
  | .stop t | .catchExit t | .sigaction t _ => t ∉ s.calling
  | .callHandler t => t ∈ s.calling

instance (s : StopState ι) (l : StopLabel ι) : Decidable (s.Enabled l) :=
  match l with
  | .stop t | .catchExit t | .sigaction t _ => inferInstanceAs (Decidable (t ∉ s.calling))
  | .callHandler t => inferInstanceAs (Decidable (t ∈ s.calling))

/-- The transitions are the steps of threads that are where these start. -/
def Step (s : StopState ι) (l : StopLabel ι) (s' : StopState ι) : Prop :=
  s.Enabled l ∧ s' = s.step l

/-- The states since the last `reset()`. -/
abbrev Reachable (s : StopState ι) : Prop := Runs.Reaches Step Runs.anyStep reset s

/-- **The invariant.**  `signal_handler_called` tells both whether there is a handler and a
request, and whether the handler is being called or has been called. -/
structure CalledOnce (s : StopState ι) : Prop where
  flags : s.signalHandlerCalled = (s.signalHandler && s.stopRequested)
  calls : s.calling.length + s.called = if s.signalHandlerCalled then 1 else 0
  exits : 0 < s.called → s.exitSig = true

variable {s s' : StopState ι}

omit [DecidableEq ι] in
theorem calledOnce_reset : CalledOnce (reset : StopState ι) :=
  ⟨rfl, rfl, fun h => absurd h (lt_irrefl 0)⟩

omit [DecidableEq ι] in
theorem CalledOnce.checkStop (h : s.CalledOnce) (t : ι) (handler requestStop : Bool) :
    (s.checkStop t handler requestStop).CalledOnce := by
  have hcalls := h.calls
  unfold StopState.checkStop
  simp only
  split
  · rename_i hcall
    rw [Bool.and_eq_true, Bool.not_eq_true'] at hcall
    obtain ⟨hboth, hnot⟩ := hcall
    refine ⟨hboth.symm, ?_, h.exits⟩
    rw [hnot] at hcalls
    show s.calling.length + 1 + s.called = 1
    simp only [Bool.false_eq_true, if_false] at hcalls
    omega
  · rename_i hcall
    refine ⟨?_, hcalls, h.exits⟩
    have hflags := h.flags
    show s.signalHandlerCalled = ((s.signalHandler || handler) && (s.stopRequested || requestStop))
    cases hcalled : s.signalHandlerCalled with
    | true =>
      rw [hcalled] at hflags
      obtain ⟨hhandler, hrequest⟩ := Bool.and_eq_true_iff.mp hflags.symm
      rw [hhandler, hrequest]
      rfl
    | false =>
      rw [hcalled, Bool.not_false, Bool.and_true, Bool.not_eq_true] at hcall
      exact hcall.symm

theorem CalledOnce.callHandler (h : s.CalledOnce) {t : ι} (ht : t ∈ s.calling) :
    CalledOnce
      { s.sigHandler .sigterm with calling := s.calling.erase t, called := s.called + 1 } := by
  refine ⟨h.flags, ?_, fun _ => rfl⟩
  show (s.calling.erase t).length + (s.called + 1) = if s.signalHandlerCalled then 1 else 0
  have hpos : 0 < s.calling.length := List.length_pos_of_mem ht
  rw [← h.calls, List.length_erase_of_mem ht]
  omega

omit [DecidableEq ι] in
theorem CalledOnce.memSigaction (h : s.CalledOnce) (t : ι) (signum : Signal) :
    (s.memSigaction t signum).CalledOnce := by
  unfold StopState.memSigaction
  split
  · exact h.checkStop t true false
  · exact h

theorem Step.calledOnce {l : StopLabel ι} (hst : Step s l s') (h : s.CalledOnce) :
    s'.CalledOnce := by
  obtain ⟨hen, rfl⟩ := hst
  cases l with
  | stop t => exact h.checkStop t false true
  | catchExit t => exact h.checkStop t false true
  | sigaction t signum => exact h.memSigaction t signum
  | callHandler t => exact h.callHandler hen

/-- `signal_handler_called` stays set until the next `reset()`. -/
theorem signalHandlerCalled_step (l : StopLabel ι) (h : s.signalHandlerCalled = true) :
    (s.step l).signalHandlerCalled = true := by
  have hcheck : ∀ t handler requestStop,
      (s.checkStop t handler requestStop).signalHandlerCalled = true := by
    intro t handler requestStop
    unfold StopState.checkStop
    simp only
    split
    · rfl
    · exact h
  cases l with
  | stop t => exact hcheck t false true
  | catchExit t => exact hcheck t false true
  | sigaction t signum =>
    unfold step memSigaction
    simp only
    split
    · exact hcheck t true false
    · exact h
  | callHandler t => exact h

theorem Reachable.calledOnce (h : Reachable s) : s.CalledOnce :=
  h.invariant calledOnce_reset fun _ _ _ _ hs _ hst => hst.calledOnce hs

end StopState

/-- **Stop is neither lost nor doubled.**  In every state since the last `reset()`, the
handler has been called or is being called at most once in all; it has or is exactly if a
handler is registered and a stop has been requested; and once such a call has returned,
`exit_sig` is set. -/
theorem stop_once {ι : Type*} [DecidableEq ι] (s : StopState ι) (h : s.Reachable) :
    s.calling.length + s.called ≤ 1 ∧
      (s.calling.length + s.called = 1 ↔ s.signalHandler = true ∧ s.stopRequested = true) ∧
      (0 < s.called → s.exitSig = true) := by
  have hs := h.calledOnce
  have hflags := hs.flags
  refine ⟨?_, ?_, hs.exits⟩
  · rw [hs.calls]
    split
    · exact le_rfl
    · exact Nat.zero_le 1
  · rw [hs.calls, hflags, ← Bool.and_eq_true]
    cases s.signalHandler && s.stopRequested with
    | true => exact ⟨fun _ => rfl, fun _ => rfl⟩
    | false => exact ⟨fun h => (by cases h), fun h => (by cases h)⟩

/-- A stop before the handler is registered, and another one after it has been called. -/
theorem stop_once_requested_early :
    let s := Runs.after StopState.step (StopState.reset : StopState ℕ)
      [.stop 1, .sigaction 0 .sigterm, .callHandler 0, .stop 1]
    s.calling.length + s.called ≤ 1 ∧
      (s.calling.length + s.called = 1 ↔ s.signalHandler = true ∧ s.stopRequested = true) ∧
      (0 < s.called → s.exitSig = true) :=
  stop_once _
    (Runs.Reaches.start.after StopState.Enabled (fun _ _ hl => ⟨trivial, hl, rfl⟩) (by decide))

end PacketForwarder
