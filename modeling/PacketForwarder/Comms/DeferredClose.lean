import PacketForwarder.Comms

/-!
# Closing the log queues when they are empty

`LogQueue::close(false)` only notes that the queue is to be closed; the close is
completed by the reader that finds the queue empty, in `wait_for_not_empty`, and
this reader notifies nobody.

* `NoStuckReader` — no reader sleeps at a closed queue without a notification;
* `NobodyLeftWaiting` — the close is not completed while another reader sleeps;
* `deferred_close_reaches_readers` — under this condition no reader gets stuck, and
  the first time it is not met one does.
-/

namespace PacketForwarder

namespace WaitQueue

open Monitor

variable {ι : Type*} [DecidableEq ι] {c : QueueConfig} {s s' : WaitQueue ι} {l : QueueLabel ι}
  {o : Outcome}

/-- No reader is parked without a notification while the queue is closed. -/
def NoStuckReader (s : WaitQueue ι) : Prop :=
  ∀ t p, s.parked t = some p → recvCv p.call = true → p.notified = false → s.closed = false

/-- A reader that finds the queue empty and completes a deferred close does so when no other
reader is parked without a notification. -/
def NobodyLeftWaiting (s : WaitQueue ι) : QueueLabel ι → Prop
  | .recv _ _ _ _ =>
    s.closed = false → s.closePending = true → s.q = [] →
      ∀ t p, s.parked t = some p → recvCv p.call = true → p.notified = true
  | _ => True

/-- Writers, readers that wait as long as it takes, and closes. -/
def Undisturbed (_ : WaitQueue ι) : QueueLabel ι → Prop
  | .recv _ _ timeout _ => timeout < 0
  | .reset => False
  | _ => True

instance (s : WaitQueue ι) (l : QueueLabel ι) : Decidable (s.Undisturbed l) :=
  match l with
  | .recv _ _ timeout _ => inferInstanceAs (Decidable (timeout < 0))
  | .reset => inferInstanceAs (Decidable False)
  | .send _ _ _ _ | .resume _ _ _ | .close _ => inferInstanceAs (Decidable True)

omit [DecidableEq ι] in
/-- What keeps a reader asleep, as a reason to sleep. -/
theorem noStuckReader_iff :
    NoStuckReader s ↔ Justified (fun k => recvCv k = true → s.closed = false) s.parked := by
  constructor
  · intro h t p hp hn hk
    exact h t p hp hk hn
  · intro h t p hp hk hn
    exact h t p hp hn hk

/-- Only the completion of a deferred close can leave a reader stuck. -/
theorem Effect.noStuckReader (h : Effect c s l s' o) (hok : s.NobodyLeftWaiting l)
    (hs : s.NoStuckReader) : s'.NoStuckReader := by
  rw [noStuckReader_iff] at hs
  cases h with
  | @parks t call deadline hp hsleep ht hm =>
    rw [noStuckReader_iff]
    refine hs.park _ _ fun _ => ?_
    cases call with
    | send buf hwm => exact hsleep.1
    | recv len => exact hsleep.1
  | fails hp =>
    rw [noStuckReader_iff]
    exact hs.leave _
  | nothing hl =>
    rw [noStuckReader_iff]
    exact hs.leave _
  | sends hp hc hroom => exact fun _ _ _ _ _ => hc
  | receives hp hc hq => exact fun _ _ _ _ _ => hc
  | @completes t len timeout stale hl hcls hpend hc hq =>
    subst hl
    -- By the condition on the step, whoever still waits has been notified.
    have hnotified : Justified (fun k => recvCv k = false) s.parked := by
      intro u p hp hn
      by_contra hk
      have hp' := hok hc hpend hq u p hp (by simpa using hk)
      rw [hn] at hp'
      cases hp'
    intro u p hp hk hn
    have hsend : recvCv p.call = false := hnotified.leave t u p hp hn
    rw [hk] at hsend
    cases hsend
  | closes hl hwhy =>
    rw [noStuckReader_iff]
    have hsend : Justified (fun _ => True) (notifyAll sendCv s.parked) :=
      hs.notifyAll fun _ _ _ => trivial
    refine hsend.notifyAll ?_
    intro k hk _ hk'
    rw [hk] at hk'
    cases hk'
  | defers hl hcls =>
    rw [noStuckReader_iff]
    exact hs
  | resets hl => exact fun _ _ _ _ _ => rfl

/-- A reader that completes the close while another one sleeps leaves that one stuck. -/
theorem nobodyLeftWaiting_of_step (hcls : c.cls = .logQueue)
    (hs : (s.step c l).1.NoStuckReader) : s.NobodyLeftWaiting l := by
  cases l with
  | recv t len timeout stale =>
    intro hc hpend hq u p hp hk
    have hstep : (s.step c (.recv t len timeout stale)).1 = { s with closed := true } := by
      simp [step, dequeue, waitForNotEmpty, hc, hpend, hq, hcls]
    rw [hstep] at hs
    by_contra hn
    have hopen : true = false := hs u p hp hk (by simpa using hn)
    cases hopen
  | send t buf hwm timeout => trivial
  | resume t timedOut stale => trivial
  | close immediately => trivial
  | reset => trivial

end WaitQueue

open WaitQueue

/-- **Where a deferred close reaches every reader.**  As long as no deferred
close is completed while another reader is parked without a notification, no reader is
ever parked without a notification at a closed queue; and the first completion that does
not respect this leaves such a reader behind. -/
theorem deferred_close_reaches_readers {ι : Type*} [DecidableEq ι] (sendBuflen : ℕ)
    (s : WaitQueue ι) (h : WaitQueue.ReachableBy ⟨.logQueue, sendBuflen⟩ NobodyLeftWaiting s) :
    s.NoStuckReader ∧
      ∀ l s', Step ⟨.logQueue, sendBuflen⟩ s l s' →
        (s'.NoStuckReader ↔ s.NobodyLeftWaiting l) := by
  have hs : s.NoStuckReader := by
    refine Runs.Reaches.invariant (I := NoStuckReader) (fun _ _ h => by cases h) ?_ h
    intro s l s' _ hs hok hstep
    obtain ⟨o, he⟩ := hstep.effect
    exact he.noStuckReader hok hs
  refine ⟨hs, ?_⟩
  intro l s' hstep
  constructor
  · intro hs'
    rw [hstep.2] at hs'
    exact nobodyLeftWaiting_of_step rfl hs'
  · intro hok
    obtain ⟨o, he⟩ := hstep.effect
    exact he.noStuckReader hok hs

/-- A reader waits, and the empty queue is closed. -/
theorem deferred_close_reaches_readers_one_reader :
    let c : QueueConfig := ⟨.logQueue, 1024⟩
    let s := exec c (init : WaitQueue ℕ) [.recv 0 80 (-1) 0, .close false]
    s.NoStuckReader ∧ ∀ l s', Step c s l s' → (s'.NoStuckReader ↔ s.NobodyLeftWaiting l) :=
  deferred_close_reaches_readers 1024 _
    (reachableBy_exec
      (.intro ⟨fun _ h => (by cases h), by decide⟩ (.intro ⟨trivial, trivial⟩ trivial)))

/-- Two readers wait for one message.  The close is deferred while it is in the queue.  The
first reader takes the message, the second one wakes up for nothing and sleeps again; when
the first reader comes back it completes the close, and the second one is never told. -/
theorem deferred_close_leaves_reader :
    ¬∀ s : WaitQueue ℕ, WaitQueue.ReachableBy ⟨.logQueue, 1024⟩ Undisturbed s →
      s.NoStuckReader := by
  intro h
  have hrun := h (exec ⟨.logQueue, 1024⟩ init
    [.recv 0 80 (-1) 0, .recv 1 80 (-1) 0, .send 2 [104, 105] (-1) (-1), .close false,
      .resume 0 false 2, .resume 1 false 0, .recv 0 80 (-1) 0]) (reachableBy_exec (by decide))
  have hstuck : true = false := hrun 1 ⟨.recv 80, false, false⟩ (by decide) rfl rfl
  cases hstuck

end PacketForwarder
