import PacketForwarder.Hal
import PacketForwarder.Stop

/-!
# Waiting

`wait_ms` is compiled to `mem_wait_ms`, which sleeps for what is over a whole number of seconds
together with the first second, and then second by second.  Before each sleep it looks, under
`stop_mutex`, whether the signal handler has been called.

* `memWaitDly`, `memWaitSlp` — the delay, and the piece of it that is slept next;
* `MemWait.Step` — the thread that waits, and any number of threads that request a stop or
  register the handler meanwhile.  There is no `reset()`: it is not to be called while a
  thread is in the packet forwarder;
* `MemWait.Exact` — the invariant without a stop: what has been requested and what is left make
  the delay, and each pass takes one off `passes`;
* `MemWait.Stopping` — the invariant once the handler has been called;
* `wait_exact_and_interruptible` — a delay below 2 ^ 63 is slept exactly, in a bounded number
  of steps; and after the handler has been called at most the sleep under way is completed.
-/

namespace PacketForwarder

/-! ## The source -/

/-- `dly` before the loop; `a` is unsigned in the first division and signed in the second. -/
def memWaitDly (a : BitVec 64) : Timespec where
  tvSec := (a.toNat / 1000 : ℕ)
  tvNsec := a.toInt.tmod 1000 * 1000000

namespace Timespec

/-- The condition under which the loop of `mem_wait_ms` goes on. -/
def Pending (dly : Timespec) : Prop := 0 < dly.tvSec ∨ dly.tvSec = 0 ∧ 100000 < dly.tvNsec

instance (dly : Timespec) : Decidable dly.Pending :=
  inferInstanceAs (Decidable (0 < dly.tvSec ∨ dly.tvSec = 0 ∧ 100000 < dly.tvNsec))

/-- `slp`. -/
def slp (dly : Timespec) : Timespec where
  tvSec := min dly.tvSec 1
  tvNsec := dly.tvNsec

/-- What is left of `dly` after the sleep `slp`. -/
def minus (dly slp : Timespec) : Timespec where
  tvSec := dly.tvSec - slp.tvSec
  tvNsec := 0

/-- A time in nanoseconds. -/
def ns (t : Timespec) : ℤ := t.tvSec * 1000000000 + t.tvNsec

/-- An argument `clock_nanosleep` accepts, below 2 s. -/
structure ShortSleep (slp : Timespec) : Prop where
  sec : 0 ≤ slp.tvSec
  nsec : 0 ≤ slp.tvNsec ∧ slp.tvNsec < 1000000000
  short : slp.ns < 2000000000

/-- A delay of no negative number of seconds and of a whole number of milliseconds. -/
structure Millis (dly : Timespec) : Prop where
  sec : 0 ≤ dly.tvSec
  nsec : ∃ k : ℕ, k < 1000 ∧ dly.tvNsec = k * 1000000

/-- How often the loop has still to be passed. -/
def passes (dly : Timespec) : ℕ := max dly.tvSec.toNat (if 100000 < dly.tvNsec then 1 else 0)

variable {dly : Timespec}

theorem Millis.shortSleep (h : dly.Millis) : dly.slp.ShortSleep := by
  obtain ⟨k, hk, hnsec⟩ := h.nsec
  have hsec := h.sec
  refine ⟨?_, ⟨?_, ?_⟩, ?_⟩
  · exact le_min hsec (by decide)
  · show 0 ≤ dly.tvNsec
    omega
  · show dly.tvNsec < 1000000000
    omega
  · show min dly.tvSec 1 * 1000000000 + dly.tvNsec < 2000000000
    omega

/-- Only whole seconds are left after a sleep. -/
theorem Millis.minus (h : dly.Millis) : (dly.minus dly.slp).Millis := by
  have hsec := h.sec
  refine ⟨?_, 0, by decide, rfl⟩
  show 0 ≤ dly.tvSec - min dly.tvSec 1
  omega

theorem ns_slp_add_minus (dly : Timespec) : dly.slp.ns + (dly.minus dly.slp).ns = dly.ns := by
  unfold ns slp minus
  ring

theorem Millis.passes_minus (h : dly.Millis) (hpending : dly.Pending) :
    (dly.minus dly.slp).passes + 1 = dly.passes := by
  have hsec := h.sec
  unfold Pending at hpending
  unfold passes Timespec.minus slp
  simp only [show ¬(100000 : ℤ) < 0 by decide, if_false]
  split
  · omega
  · omega

theorem Millis.passes_eq_zero (h : dly.Millis) (hpending : ¬dly.Pending) : dly.passes = 0 := by
  have hsec := h.sec
  unfold Pending at hpending
  unfold passes
  rw [if_neg (by omega)]
  omega

/-- Less than 0.1 ms left is nothing left. -/
theorem Millis.ns_eq_zero (h : dly.Millis) (hpending : ¬dly.Pending) : dly.ns = 0 := by
  obtain ⟨k, hk, hnsec⟩ := h.nsec
  have hsec := h.sec
  unfold Pending at hpending
  unfold ns
  omega

end Timespec

section Delay

variable {a : BitVec 64}

theorem memWaitDly_tvNsec (h : a.toNat < 2 ^ 63) :
    (memWaitDly a).tvNsec = (a.toNat % 1000 : ℕ) * 1000000 := by
  have hsigned : a.toInt = a.toNat := BitVec.toInt_eq_toNat_of_lt (by omega)
  show a.toInt.tmod 1000 * 1000000 = _
  rw [hsigned, Int.tmod_eq_emod_of_nonneg (Int.natCast_nonneg a.toNat)]
  norm_cast

theorem millis_memWaitDly (h : a.toNat < 2 ^ 63) : (memWaitDly a).Millis :=
  ⟨Int.natCast_nonneg _, a.toNat % 1000, Nat.mod_lt _ (by decide), memWaitDly_tvNsec h⟩

theorem ns_memWaitDly (h : a.toNat < 2 ^ 63) : (memWaitDly a).ns = a.toNat * 1000000 := by
  have hdiv := Nat.div_add_mod a.toNat 1000
  rw [Timespec.ns, memWaitDly_tvNsec h]
  show ((a.toNat / 1000 : ℕ) : ℤ) * 1000000000 + (a.toNat % 1000 : ℕ) * 1000000 = _
  omega

theorem passes_memWaitDly_le (a : BitVec 64) : (memWaitDly a).passes ≤ a.toNat / 1000 + 1 := by
  refine max_le ?_ ?_
  · show ((a.toNat / 1000 : ℕ) : ℤ).toNat ≤ _
    omega
  · split
    · exact Nat.le_add_left 1 _
    · exact Nat.zero_le _

end Delay

/-- Where the thread that waits is in `mem_wait_ms`. -/
inductive WaitPc
  /-- The thread is at the head of the loop. -/
  | head
  /-- The thread is in the call of `clock_nanosleep` with the argument `slp`. -/
  | sleeping (slp : Timespec)
  | returned
  deriving DecidableEq

/-- A thread in `mem_wait_ms`, and what the others have made of the flags. -/
structure MemWait (ι : Type*) where
  stop : StopState ι
  pc : WaitPc
  dly : Timespec
  /-- What `clock_nanosleep` was called with, the latest last: recorded for the statements. -/
  requested : List Timespec
  /-- How many of these calls returned 0: recorded for the statements. -/
  completed : ℕ
  deriving DecidableEq

/-- The steps of the thread that waits and of the others. -/
inductive WaitLabel (ι : Type*)
  /-- The thread that waits goes from the head of the loop to `clock_nanosleep`, or returns. -/
  | test
  /-- `clock_nanosleep` returns, 0 or an error. -/
  | wake (ok : Bool)
  /-- Another thread makes a step of its own. -/
  | other (l : StopLabel ι)

/-- Whether it is the thread that waits that moves. -/
def WaitLabel.own {ι : Type*} : WaitLabel ι → Bool
  | .test | .wake _ => true
  | .other _ => false

/-- Whether a call of `clock_nanosleep` fails in this step. -/
def WaitLabel.fails {ι : Type*} : WaitLabel ι → Bool
  | .wake ok => !ok
  | .test | .other _ => false

namespace MemWait

variable {ι : Type*}

/-- The state in which `mem_wait_ms(a)` is called. -/
def start (stop : StopState ι) (a : BitVec 64) : MemWait ι where
  stop := stop
  pc := .head
  dly := memWaitDly a
  requested := []
  completed := 0

/-- The step from the head of the loop: the thread goes on to sleep, or it returns. -/
def test (s : MemWait ι) : MemWait ι :=
  if s.dly.Pending then
    if s.stop.signalHandlerCalled then { s with pc := .returned }
    else { s with pc := .sleeping s.dly.slp, requested := s.requested ++ [s.dly.slp] }
  else { s with pc := .returned }

/-- From `clock_nanosleep`; an error ends the loop. -/
def wake (s : MemWait ι) (slp : Timespec) (ok : Bool) : MemWait ι :=
  if ok then { s with pc := .head, dly := s.dly.minus slp, completed := s.completed + 1 }
  else { s with pc := .returned }

section Transitions

variable [DecidableEq ι]

/-- The state after a step. -/
def next (s : MemWait ι) : WaitLabel ι → MemWait ι
  | .test => s.test
  | .wake ok =>
    match s.pc with
    | .sleeping slp => s.wake slp ok
    | .head | .returned => s
  | .other l => { s with stop := s.stop.step l }

/-- The thread that waits is at this place; another thread can take this step. -/
def Enabled (s : MemWait ι) : WaitLabel ι → Prop
  | .test => s.pc = .head
  | .wake _ => s.pc ≠ .head ∧ s.pc ≠ .returned
  | .other l => s.stop.Enabled l

instance (s : MemWait ι) (l : WaitLabel ι) : Decidable (s.Enabled l) :=
  match l with
  | .test => inferInstanceAs (Decidable (s.pc = .head))
  | .wake _ => inferInstanceAs (Decidable (s.pc ≠ .head ∧ s.pc ≠ .returned))
  | .other l => inferInstanceAs (Decidable (s.stop.Enabled l))

/-- A step that is possible in the state leads to the next state. -/
def Step (s : MemWait ι) (l : WaitLabel ι) (s' : MemWait ι) : Prop := s.Enabled l ∧ s' = s.next l

/-- What a step can do to the state, with one constructor for each branch of the loop. -/
inductive Effect (s : MemWait ι) : WaitLabel ι → MemWait ι → Prop
  /-- The thread returns because the whole delay has been slept. -/
  | ends : s.pc = .head → ¬s.dly.Pending → Effect s .test { s with pc := .returned }
  /-- The thread returns because the handler has been called. -/
  | stopped : s.pc = .head → s.dly.Pending → s.stop.signalHandlerCalled = true →
      Effect s .test { s with pc := .returned }
  | sleeps : s.pc = .head → s.dly.Pending → s.stop.signalHandlerCalled = false →
      Effect s .test
        { s with pc := .sleeping s.dly.slp, requested := s.requested ++ [s.dly.slp] }
  | wakes {slp : Timespec} : s.pc = .sleeping slp →
      Effect s (.wake true)
        { s with pc := .head, dly := s.dly.minus slp, completed := s.completed + 1 }
  | fails {slp : Timespec} : s.pc = .sleeping slp →
      Effect s (.wake false) { s with pc := .returned }
  | other (l : StopLabel ι) : Effect s (.other l) { s with stop := s.stop.step l }

variable {s s' : MemWait ι} {l : WaitLabel ι}

theorem test_effect (hpc : s.pc = .head) : Effect s .test s.test := by
  unfold test
  split
  · rename_i hpending
    cases hcalled : s.stop.signalHandlerCalled with
    | true => exact .stopped hpc hpending hcalled
    | false => exact .sleeps hpc hpending hcalled
  · rename_i hpending
    exact .ends hpc hpending

theorem Step.effect (h : Step s l s') : Effect s l s' := by
  obtain ⟨hen, rfl⟩ := h
  cases l with
  | test => exact test_effect hen
  | wake ok =>
    obtain ⟨hhead, hreturned⟩ := hen
    cases hpc : s.pc with
    | head => exact absurd hpc hhead
    | returned => exact absurd hpc hreturned
    | sleeping slp =>
      simp only [next, hpc]
      cases ok with
      | true => exact .wakes hpc
      | false => exact .fails hpc
  | other l => exact .other l

/-- Until it has returned, the thread that waits can go on. -/
theorem exists_step (h : s.pc ≠ .returned) :
    ∃ l s', WaitLabel.own l = true ∧ WaitLabel.fails l = false ∧ Step s l s' := by
  cases hpc : s.pc with
  | head => exact ⟨.test, _, rfl, rfl, hpc, rfl⟩
  | sleeping slp =>
    refine ⟨.wake true, _, rfl, rfl, ⟨?_, h⟩, rfl⟩
    rw [hpc]
    exact WaitPc.noConfusion
  | returned => exact absurd hpc h

end Transitions

/-! ## Without a stop -/

/-- The number of sleeps that are under way, 0 or 1. -/
def underWay (s : MemWait ι) : ℕ :=
  match s.pc with
  | .sleeping _ => 1
  | .head | .returned => 0

theorem underWay_eq_zero {s : MemWait ι} (h : ∀ slp, s.pc ≠ .sleeping slp) : s.underWay = 0 := by
  cases hpc : s.pc with
  | sleeping slp => exact absurd hpc (h slp)
  | head => simp only [underWay, hpc]
  | returned => simp only [underWay, hpc]

theorem underWay_le_one (s : MemWait ι) : s.underWay ≤ 1 := by
  unfold underWay
  split <;> decide

/-- What is left of the delay when the sleep under way is over. -/
def left (s : MemWait ι) : Timespec :=
  match s.pc with
  | .head => s.dly
  | .sleeping slp => s.dly.minus slp
  | .returned => ⟨0, 0⟩

/-- How many steps the thread that waits has still to make. -/
def stepsLeft (s : MemWait ι) : ℕ :=
  match s.pc with
  | .head => 2 * s.left.passes + 1
  | .sleeping _ => 2 * s.left.passes + 2
  | .returned => 0

/-- **The invariant of the runs in which no stop cuts the wait short.** -/
structure Exact (a : BitVec 64) (s : MemWait ι) (ls : List (WaitLabel ι)) : Prop where
  steps : ls.countP WaitLabel.own + s.stepsLeft = 2 * (memWaitDly a).passes + 1
  millis : s.left.Millis
  sum : (s.requested.map Timespec.ns).sum + s.left.ns = a.toNat * 1000000
  short : ∀ slp ∈ s.requested, slp.ShortSleep
  all : s.completed + s.underWay = s.requested.length

variable {s s' : MemWait ι} {l : WaitLabel ι} {a : BitVec 64} {ls : List (WaitLabel ι)}

theorem exact_start (stop : StopState ι) (h : a.toNat < 2 ^ 63) : Exact a (start stop a) [] where
  steps := Nat.zero_add _
  millis := millis_memWaitDly h
  sum := (zero_add _).trans (ns_memWaitDly h)
  short _ hslp := absurd hslp List.not_mem_nil
  all := rfl

theorem countP_own_append (ls : List (WaitLabel ι)) (l : WaitLabel ι) :
    (ls ++ [l]).countP WaitLabel.own = ls.countP WaitLabel.own + if l.own then 1 else 0 := by
  rw [List.countP_append, List.countP_singleton]

/-- At the head of the loop it is about `dly`. -/
theorem Exact.head (h : Exact a s ls) (hpc : s.pc = .head) :
    ls.countP WaitLabel.own + (2 * s.dly.passes + 1) = 2 * (memWaitDly a).passes + 1 ∧
      s.dly.Millis ∧ (s.requested.map Timespec.ns).sum + s.dly.ns = a.toNat * 1000000 ∧
      s.completed = s.requested.length := by
  have hleft : s.left = s.dly := by
    simp only [left, hpc]
  have hmillis := h.millis
  have hsteps := h.steps
  have hsum := h.sum
  have hall := h.all
  simp only [stepsLeft, hpc] at hsteps
  simp only [underWay, hpc] at hall
  rw [hleft] at hmillis hsteps hsum
  exact ⟨hsteps, hmillis, hsum, hall⟩

theorem Exact.ends (h : Exact a s ls) (hpc : s.pc = .head) (hpending : ¬s.dly.Pending) :
    Exact a { s with pc := .returned } (ls ++ [.test]) := by
  obtain ⟨hsteps, hmillis, hsum, hall⟩ := h.head hpc
  rw [hmillis.passes_eq_zero hpending] at hsteps
  rw [hmillis.ns_eq_zero hpending] at hsum
  refine ⟨?_, ⟨le_rfl, 0, by decide, rfl⟩, hsum, h.short, hall⟩
  rw [countP_own_append]
  exact hsteps

theorem Exact.sleeps (h : Exact a s ls) (hpc : s.pc = .head) (hpending : s.dly.Pending) :
    Exact a { s with pc := .sleeping s.dly.slp, requested := s.requested ++ [s.dly.slp] }
      (ls ++ [.test]) := by
  obtain ⟨hsteps, hmillis, hsum, hall⟩ := h.head hpc
  refine ⟨?_, hmillis.minus, ?_, ?_, ?_⟩
  · have hpasses := hmillis.passes_minus hpending
    rw [countP_own_append]
    show _ + 1 + (2 * (s.dly.minus s.dly.slp).passes + 2) = _
    omega
  · have hsplit := Timespec.ns_slp_add_minus s.dly
    show ((s.requested ++ [s.dly.slp]).map Timespec.ns).sum + (s.dly.minus s.dly.slp).ns = _
    rw [List.map_append, List.sum_append, List.map_singleton, List.sum_singleton]
    omega
  · intro slp hslp
    obtain hslp | hslp := List.mem_append.mp hslp
    · exact h.short slp hslp
    · rw [List.mem_singleton.mp hslp]
      exact hmillis.shortSleep
  · show s.completed + 1 = (s.requested ++ [s.dly.slp]).length
    rw [List.length_append, List.length_singleton, hall]

theorem Exact.wakes {slp : Timespec} (h : Exact a s ls) (hpc : s.pc = .sleeping slp) :
    Exact a { s with pc := .head, dly := s.dly.minus slp, completed := s.completed + 1 }
      (ls ++ [.wake true]) := by
  have hleft : s.left = s.dly.minus slp := by
    simp only [left, hpc]
  have hmillis := h.millis
  have hsteps := h.steps
  have hsum := h.sum
  rw [hleft] at hmillis hsum
  have hall := h.all
  simp only [stepsLeft, hpc, hleft] at hsteps
  simp only [underWay, hpc] at hall
  refine ⟨?_, hmillis, hsum, h.short, hall⟩
  rw [countP_own_append]
  show _ + 1 + (2 * (s.dly.minus slp).passes + 1) = _
  omega

variable [DecidableEq ι]

theorem Effect.exact (he : Effect s l s') (hcalled : s.stop.signalHandlerCalled = false)
    (hfails : l.fails = false) (h : Exact a s ls) : Exact a s' (ls ++ [l]) := by
  cases he with
  | ends hpc hpending => exact h.ends hpc hpending
  | stopped hpc hpending hstop =>
    rw [hcalled] at hstop
    cases hstop
  | sleeps hpc hpending hstop => exact h.sleeps hpc hpending
  | wakes hpc => exact h.wakes hpc
  | fails hpc => cases hfails
  | other l =>
    refine ⟨?_, h.millis, h.sum, h.short, h.all⟩
    rw [countP_own_append]
    exact h.steps

theorem Effect.called (he : Effect s l s') (h : s.stop.signalHandlerCalled = true) :
    s'.stop.signalHandlerCalled = true := by
  cases he with
  | other l => exact s.stop.signalHandlerCalled_step l h
  | ends | stopped | sleeps | wakes | fails => exact h

/-- The invariant in every run in which the handler has not been called and no sleep has
failed. -/
theorem exact_of_trace {stop : StopState ι} (hlt : a.toNat < 2 ^ 63)
    (h : Runs.Trace Step (start stop a) ls s) (hcalled : s.stop.signalHandlerCalled = false)
    (hfails : ∀ l ∈ ls, WaitLabel.fails l = false) : Exact a s ls := by
  refine Runs.Trace.invariant (I := fun s ls => s.stop.signalHandlerCalled = false →
    (∀ l ∈ ls, WaitLabel.fails l = false) → Exact a s ls) ?_ ?_ h hcalled hfails
  · exact fun _ _ => exact_start stop hlt
  · intro s ls l s' ih hst hcalled hfails
    -- the flag is never cleared
    have hbefore : s.stop.signalHandlerCalled = false := by
      by_contra hset
      rw [hst.effect.called (Bool.eq_true_of_not_eq_false hset)] at hcalled
      cases hcalled
    have hs := ih hbefore fun l hl => hfails l (List.mem_append_left _ hl)
    exact hst.effect.exact hbefore
      (hfails l (List.mem_append_right ls (List.mem_singleton_self l))) hs

/-! ## After a stop -/

/-- How many steps are left once the handler has been called. -/
def stepsToStop (s : MemWait ι) : ℕ :=
  match s.pc with
  | .head => 1
  | .sleeping _ => 2
  | .returned => 0

omit [DecidableEq ι] in
theorem stepsToStop_le_two (s : MemWait ι) : s.stepsToStop ≤ 2 := by
  unfold stepsToStop
  split <;> decide

/-- **The invariant after a stop** in the state `s₀`. -/
structure Stopping (s₀ s : MemWait ι) (ls : List (WaitLabel ι)) : Prop where
  called : s.stop.signalHandlerCalled = true
  completed : s.completed + s.underWay ≤ s₀.completed + s₀.underWay
  steps : ls.countP WaitLabel.own + s.stepsToStop ≤ s₀.stepsToStop

theorem Effect.stopping {s₀ : MemWait ι} (he : Effect s l s') (h : Stopping s₀ s ls) :
    Stopping s₀ s' (ls ++ [l]) := by
  have hcompleted := h.completed
  have hsteps := h.steps
  refine ⟨he.called h.called, ?_, ?_⟩
  · cases he with
    | ends hpc hpending => exact (Nat.le_add_right _ _).trans hcompleted
    | stopped hpc hpending hstop => exact (Nat.le_add_right _ _).trans hcompleted
    | sleeps hpc hpending hstop =>
      rw [h.called] at hstop
      cases hstop
    | wakes hpc =>
      simp only [underWay, hpc] at hcompleted
      exact hcompleted
    | fails hpc => exact (Nat.le_add_right _ _).trans hcompleted
    | other l => exact hcompleted
  · rw [countP_own_append]
    cases he with
    | ends hpc hpending =>
      simp only [stepsToStop, hpc] at hsteps
      exact hsteps
    | stopped hpc hpending hstop =>
      simp only [stepsToStop, hpc] at hsteps
      exact hsteps
    | sleeps hpc hpending hstop =>
      rw [h.called] at hstop
      cases hstop
    | wakes hpc =>
      simp only [stepsToStop, hpc] at hsteps
      exact hsteps
    | fails hpc =>
      simp only [stepsToStop, hpc] at hsteps
      exact (Nat.le_succ _).trans hsteps
    | other l => exact hsteps

theorem stopping_of_trace (h : Runs.Trace Step s ls s')
    (hcalled : s.stop.signalHandlerCalled = true) : Stopping s s' ls :=
  h.invariant ⟨hcalled, le_rfl, (Nat.zero_add _).le⟩ fun _ _ _ _ hs hst => hst.effect.stopping hs

end MemWait

/-- **`mem_wait_ms` sleeps exactly as asked and stays interruptible.**  As long as the handler
has not been called and no sleep has failed, a call with `a` below 2 ^ 63 makes a bounded
number of steps and can go on until it has returned, every sleep it requests is valid and
below 2 s, and when it has returned they have all been completed and make `a` milliseconds.
From any state in which the handler has been called it completes at most one sleep, which was
then under way, and makes at most two steps. -/
theorem wait_exact_and_interruptible {ι : Type*} [DecidableEq ι] {stop : StopState ι}
    {a : BitVec 64} {ls : List (WaitLabel ι)} {s : MemWait ι}
    (h : Runs.Trace MemWait.Step (MemWait.start stop a) ls s) :
    (a.toNat < 2 ^ 63 → s.stop.signalHandlerCalled = false →
      (∀ l ∈ ls, WaitLabel.fails l = false) →
        ls.countP WaitLabel.own ≤ 2 * (a.toNat / 1000) + 3 ∧
        (s.pc ≠ .returned →
          ∃ l s', WaitLabel.own l = true ∧ WaitLabel.fails l = false ∧ MemWait.Step s l s') ∧
        (∀ slp ∈ s.requested, slp.ShortSleep) ∧
        (s.pc = .returned → s.completed = s.requested.length ∧
          (s.requested.map Timespec.ns).sum = a.toNat * 1000000)) ∧
      (s.stop.signalHandlerCalled = true →
        ∀ ls' s', Runs.Trace MemWait.Step s ls' s' →
          s'.completed ≤ s.completed + 1 ∧
          (s'.completed = s.completed + 1 → ∃ slp, s.pc = .sleeping slp) ∧
          ls'.countP WaitLabel.own ≤ 2) := by
  refine ⟨fun hlt hcalled hfails => ?_, fun hcalled ls' s' htrace => ?_⟩
  · have hs := MemWait.exact_of_trace hlt h hcalled hfails
    have hpasses := passes_memWaitDly_le a
    have hsteps := hs.steps
    refine ⟨by omega, MemWait.exists_step, hs.short, fun hpc => ?_⟩
    have hall := hs.all
    have hsum := hs.sum
    simp only [MemWait.underWay, hpc] at hall
    simp only [MemWait.left, hpc] at hsum
    exact ⟨hall, (add_zero _).symm.trans hsum⟩
  · have hs := MemWait.stopping_of_trace htrace hcalled
    have hcompleted := hs.completed
    have hsteps := hs.steps
    have hunder := s.underWay_le_one
    have hstop := s.stepsToStop_le_two
    refine ⟨by omega, fun hone => ?_, by omega⟩
    by_contra hnot
    rw [MemWait.underWay_eq_zero fun slp hpc => hnot ⟨slp, hpc⟩] at hcompleted
    omega

/-- A delay of 1.5 s without a stop, and one of a minute with a stop during its first sleep. -/
theorem wait_exact_and_interruptible_runs :
    let reset : StopState ℕ := StopState.reset
    let slept := Runs.after MemWait.next (MemWait.start reset 1500)
      [.test, .other (.stop 1), .wake true, .test]
    let called := Runs.after MemWait.next (MemWait.start reset 60000)
      [.other (.sigaction 0 .sigterm), .test, .other (.stop 1)]
    let left := Runs.after MemWait.next called [.other (.callHandler 1), .wake true, .test]
    (slept.pc = .returned ∧ (slept.requested.map Timespec.ns).sum = 1500 * 1000000) ∧
      left.pc = .returned ∧ left.completed ≤ called.completed + 1 := by
  have hrun : ∀ (s : MemWait ℕ) ls, Runs.Along MemWait.next MemWait.Enabled s ls →
      Runs.Trace MemWait.Step s ls (Runs.after MemWait.next s ls) :=
    fun _ _ ha => Runs.Trace.after MemWait.Enabled (fun _ _ hl => ⟨hl, rfl⟩) ha
  refine ⟨⟨by decide +kernel, ?_⟩, by decide +kernel, ?_⟩
  · exact ((wait_exact_and_interruptible (hrun _ _ (by decide +kernel))).1 (by decide)
      (by decide +kernel) (by decide)).2.2.2 (by decide +kernel) |>.2
  · exact ((wait_exact_and_interruptible (hrun _ _ (by decide +kernel))).2 (by decide +kernel) _ _
      (hrun _ _ (by decide +kernel))).1

end PacketForwarder
