import PacketForwarder.Hal
import PacketForwarder.Lib.Monitor
import PacketForwarder.Lib.Runs

/-!
# In-memory queues

The queues of `lora_comms.cc` that replace the sockets, and those that hold log
messages.  `Queue` and `LogQueue` are monitors: every operation is one critical
section, or several with the calling thread parked in between, at `send_cv` or
`recv_cv`.

* `WaitQueue` — the fields of the object and the threads parked in it;
* `push`, `pop`, `waitLoop`, `enqueue`, `dequeue`, `close`, `reset` — the source;
* `WaitQueue.step` — one critical section of any thread, as a transition;
* `Effect`, `step_effect` — all that a critical section can do, from which the
  invariants follow.
-/

namespace PacketForwarder

open Monitor

/-! ## The object -/

/-- A message in a queue is the bytes that were sent, as many as the queue takes. -/
abbrev Message := List U8

/-- What a waiting call of `send` or `recv` was made with. -/
inductive Call
  /-- `send(buf, len, hwm, ..)`, waiting for the high-water mark. -/
  | send (buf : List U8) (hwm : ℤ)
  /-- `recv(buf, len, ..)`, waiting for a message. -/
  | recv (len : ℕ)
  deriving DecidableEq

/-- The calls that wait at `send_cv`. -/
def sendCv : Call → Bool
  | .send _ _ => true
  | .recv _ => false

/-- The calls that wait at `recv_cv`. -/
def recvCv : Call → Bool
  | .send _ _ => false
  | .recv _ => true

/-- Which class a queue is of. -/
inductive QueueClass
  | queue
  | logQueue
  deriving DecidableEq

/-- A queue as it was constructed. -/
structure QueueConfig where
  cls : QueueClass
  /-- `send_buflen`. -/
  sendBuflen : ℕ

/-- `NB_PKT_MAX`. -/
@[simp] abbrev nbPktMax : ℕ := 8

/-- `STATUS_SIZE`. -/
@[simp] abbrev statusSize : ℕ := 200

/-- `TX_BUFF_SIZE`, which is `recv_from_buflen`. -/
@[simp] abbrev txBuffSize : ℕ := 540 * nbPktMax + 30 + statusSize

/-- `RX_BUFF_SIZE`; `send_to_buflen` is one less. -/
@[simp] abbrev rxBuffSize : ℕ := 1000

/-- Each link has two queues, one for each direction. -/
inductive Direction
  | fromFwd
  | toFwd
  deriving DecidableEq

/-- How the queues of a link are constructed. -/
def Direction.config : Direction → QueueConfig
  | .fromFwd => ⟨.queue, txBuffSize⟩
  | .toFwd => ⟨.queue, rxBuffSize - 1⟩

/-- `WaitQueue`, `Queue` or `LogQueue`, with the threads parked in it. -/
structure WaitQueue (ι : Type*) where
  q : List Message
  /-- `ssize_t`; it cannot overflow before the memory does. -/
  size : ℤ
  closed : Bool
  /-- Of a `LogQueue`; of a `Queue` it is never set. -/
  closePending : Bool
  parked : Parking ι Call

/-- `errno` after a call that failed. -/
inductive Errno
  | ebadf
  | eagain
  deriving DecidableEq

/-- What a critical section ends with. -/
inductive Outcome
  /-- The thread has parked and gives the lock back. -/
  | waits
  /-- `send` returns `ret`; the message is in the queue. -/
  | sent (msg : Message) (ret : ℤ)
  /-- `recv` returns `ret`; `bytes` of the message have been copied to the caller. -/
  | received (msg : Message) (bytes : List U8) (ret : ℤ)
  /-- The call returns -1 and sets `errno`. -/
  | fails (errno : Errno)
  /-- `send` returns 0, since the high-water mark lets nothing in. -/
  | nothing
  /-- The queue has been closed and emptied. -/
  | discards (msgs : List Message)
  /-- An operation that neither sends nor receives has returned. -/
  | done
  deriving DecidableEq

/-- A size as the `int` that `enqueue` and `dequeue` return. -/
def toInt (n : ℕ) : ℤ := (BitVec.ofNat 32 n).toInt

namespace WaitQueue

variable {ι : Type*}

/-- A queue is empty and open when it has been constructed. -/
def init : WaitQueue ι where
  q := []
  size := 0
  closed := false
  closePending := false
  parked := nobody

/-! ## Operations -/

/-- What `Queue::send` does once there is room. -/
def push (c : QueueConfig) (s : WaitQueue ι) (buf : List U8) : WaitQueue ι × Outcome :=
  let msg := buf.take c.sendBuflen
  ({ s with
    q := s.q ++ [msg]
    size := s.size + msg.length
    parked := notifyAll recvCv s.parked }, .sent msg (toInt msg.length))

/-- What `Queue::recv` does once there is a message, `el`.  Its size is read again after
`q.pop()` has destroyed it; `stale` is what that gives. -/
def pop (s : WaitQueue ι) (el : Message) (rest : List Message) (len stale : ℕ) :
    WaitQueue ι × Outcome :=
  let r := min el.length len
  ({ s with
    q := rest
    size := s.size - stale
    parked := notifyAll sendCv s.parked }, .received el (el.take r) (toInt r))

/-- The bytes `recv` copies and their number. -/
theorem pop_outcome (s : WaitQueue ι) (el : Message) (rest : List Message) (len stale : ℕ) :
    (s.pop el rest len stale).2 = .received el (el.take len) (toInt (el.take len).length) := by
  have htake : el.take (min el.length len) = el.take len := by
    rw [min_comm, ← List.take_take, List.take_length]
  have hlen : min el.length len = (el.take len).length := by
    rw [List.length_take, min_comm]
  unfold pop
  simp only
  rw [htake, hlen]

section Operations

variable [DecidableEq ι]

/-- The loop in `cv.wait` and `cv.wait_for`, with the lock held: test `closed_or_pred`, and
go on with the call or sleep.  A thread whose deadline has passed does not sleep again. -/
def waitLoop (c : QueueConfig) (s : WaitQueue ι) (t : ι) (call : Call) (deadline timedOut : Bool)
    (stale : ℕ) : WaitQueue ι × Outcome :=
  let awake := { s with parked := leave s.parked t }
  let sleep :=
    if timedOut then (awake, .fails .eagain)
    else ({ s with parked := park s.parked t call deadline }, .waits)
  if s.closed then (awake, .fails .ebadf)
  else
    match call, s.q with
    | .send buf hwm, _ => if s.size < hwm then awake.push c buf else sleep
    | .recv _, [] => sleep
    | .recv len, el :: rest => awake.pop el rest len stale

/-- `WaitQueue::wait`, and the call it is part of; timeouts are in microseconds. -/
def wait (c : QueueConfig) (s : WaitQueue ι) (t : ι) (call : Call) (timeout : ℤ) (stale : ℕ) :
    WaitQueue ι × Outcome :=
  if timeout = 0 then (s, .fails .eagain)
  else s.waitLoop c t call (0 < timeout) false stale

/-- `WaitQueue::enqueue` for `Queue::send`. -/
def enqueue (c : QueueConfig) (s : WaitQueue ι) (t : ι) (buf : List U8) (hwm timeout : ℤ) :
    WaitQueue ι × Outcome :=
  if s.closed then (s, .fails .ebadf)
  else if hwm = 0 then (s, .nothing)
  else if 0 < hwm ∧ hwm ≤ s.size then s.wait c t (.send buf hwm) timeout 0
  else s.push c buf

/-- `wait_for_not_empty`, which `LogQueue` overrides. -/
def waitForNotEmpty (c : QueueConfig) (s : WaitQueue ι) (t : ι) (len : ℕ) (timeout : ℤ)
    (stale : ℕ) : WaitQueue ι × Outcome :=
  match c.cls with
  | .queue => s.wait c t (.recv len) timeout stale
  | .logQueue =>
    if s.closePending then ({ s with closed := true }, .fails .ebadf)
    else s.wait c t (.recv len) timeout stale

/-- `WaitQueue::dequeue` for `Queue::recv`. -/
def dequeue (c : QueueConfig) (s : WaitQueue ι) (t : ι) (len : ℕ) (timeout : ℤ) (stale : ℕ) :
    WaitQueue ι × Outcome :=
  if s.closed then (s, .fails .ebadf)
  else
    match s.q with
    | [] => s.waitForNotEmpty c t len timeout stale
    | el :: rest => s.pop el rest len stale

end Operations

/-- `WaitQueue::maybe_close`. -/
def maybeClose (s : WaitQueue ι) (test : Bool) : WaitQueue ι × Outcome :=
  if test then
    ({ s with
      q := []
      size := 0
      closed := true
      parked := notifyAll recvCv (notifyAll sendCv s.parked) }, .discards s.q)
  else (s, .done)

/-- `Queue::close`, or `LogQueue::close(immediately)`. -/
def close (c : QueueConfig) (s : WaitQueue ι) (immediately : Bool) : WaitQueue ι × Outcome :=
  match c.cls with
  | .queue => s.maybeClose true
  | .logQueue => { s with closePending := true }.maybeClose (immediately || s.q.isEmpty)

/-- `Queue::reset` or `LogQueue::reset`. -/
def reset (c : QueueConfig) (s : WaitQueue ι) : WaitQueue ι × Outcome :=
  match c.cls with
  | .queue => ({ s with closed := false }, .done)
  | .logQueue => ({ s with closePending := false, closed := false }, .done)

end WaitQueue

/-! ## Critical sections -/

/-- Who takes the lock, and what for. -/
inductive QueueLabel (ι : Type*)
  | send (t : ι) (buf : List U8) (hwm timeout : ℤ)
  | recv (t : ι) (len : ℕ) (timeout : ℤ) (stale : ℕ)
  /-- A parked thread has the lock again: notified, after its deadline, or spuriously. -/
  | resume (t : ι) (timedOut : Bool) (stale : ℕ)
  | close (immediately : Bool)
  | reset

/-- What reading the size of a destroyed message gives. -/
def QueueLabel.stale {ι : Type*} : QueueLabel ι → ℕ
  | .recv _ _ _ stale | .resume _ _ stale => stale
  | .send _ _ _ _ | .close _ | .reset => 0

/-- The timeout of a call that is made. -/
def QueueLabel.timeout {ι : Type*} : QueueLabel ι → Option ℤ
  | .send _ _ _ timeout | .recv _ _ timeout _ => some timeout
  | .resume _ _ _ | .close _ | .reset => none

/-- A send has a high-water mark that it may have to wait for. -/
def QueueLabel.PositiveMark {ι : Type*} : QueueLabel ι → Prop
  | .send _ _ hwm _ => 0 < hwm
  | .recv _ _ _ _ | .resume _ _ _ | .close _ | .reset => True

namespace WaitQueue

variable {ι : Type*} [DecidableEq ι]

/-- One critical section runs from taking the lock to giving it back. -/
def step (c : QueueConfig) (s : WaitQueue ι) : QueueLabel ι → WaitQueue ι × Outcome
  | .send t buf hwm timeout => s.enqueue c t buf hwm timeout
  | .recv t len timeout stale => s.dequeue c t len timeout stale
  | .resume t timedOut stale =>
    match s.parked t with
    | some p => s.waitLoop c t p.call p.deadline timedOut stale
    | none => (s, .done)
  | .close immediately => s.close c immediately
  | .reset => s.reset c

/-- A thread makes one call at a time, and a deadline passes only where there is one.  No
message is longer than an `int` can tell: the links have buffers of a few kilobytes, and
what `LogQueue::write` sends has a length `vsnprintf` has returned. -/
def Enabled (c : QueueConfig) (s : WaitQueue ι) : QueueLabel ι → Prop
  | .send t buf _ _ => s.parked t = none ∧ (buf.take c.sendBuflen).length < 2 ^ 31
  | .recv t _ _ _ => s.parked t = none
  | .resume t timedOut _ => ∃ p, s.parked t = some p ∧ (timedOut = true → p.deadline = true)
  | .close _ | .reset => True

instance (c : QueueConfig) (s : WaitQueue ι) (l : QueueLabel ι) : Decidable (s.Enabled c l) :=
  match l with
  | .send _ _ _ _ => inferInstanceAs (Decidable (_ ∧ _))
  | .recv t _ _ _ => inferInstanceAs (Decidable (s.parked t = none))
  | .resume t timedOut _ =>
    decidable_of_iff ((s.parked t).any fun p => !timedOut || p.deadline)
      (by cases timedOut <;> simp [Enabled, Option.any_eq_true, Option.isSome_iff_exists])
  | .close _ | .reset => inferInstanceAs (Decidable True)

/-- The transitions of a queue are the critical sections that are enabled. -/
def Step (c : QueueConfig) (s : WaitQueue ι) (l : QueueLabel ι) (s' : WaitQueue ι) : Prop :=
  s.Enabled c l ∧ s' = (s.step c l).1

/-- The states reached by critical sections that satisfy `ok`. -/
abbrev ReachableBy (c : QueueConfig) (ok : WaitQueue ι → QueueLabel ι → Prop) (s : WaitQueue ι) :
    Prop :=
  Runs.Reaches (Step c) ok init s

/-- The state after some critical sections. -/
def exec (c : QueueConfig) (s : WaitQueue ι) (ls : List (QueueLabel ι)) : WaitQueue ι :=
  Runs.after (fun s l => (s.step c l).1) s ls

/-- The critical sections are enabled in turn, and satisfy `ok`. -/
abbrev Executable (c : QueueConfig) (ok : WaitQueue ι → QueueLabel ι → Prop) (s : WaitQueue ι)
    (ls : List (QueueLabel ι)) : Prop :=
  Runs.Along (fun s l => (s.step c l).1) (fun s l => ok s l ∧ s.Enabled c l) s ls

theorem reachableBy_exec {c : QueueConfig} {ok : WaitQueue ι → QueueLabel ι → Prop}
    {ls : List (QueueLabel ι)} (h : Executable c ok init ls) : ReachableBy c ok (exec c init ls) :=
  Runs.Reaches.start.after _ (fun _ _ hl => ⟨hl.1, hl.2, rfl⟩) h

/-! ## What a critical section can do -/

/-- The call that a label makes or resumes, and whether it waits with a deadline. -/
inductive Pending (s : WaitQueue ι) : QueueLabel ι → ι → Call → Bool → Prop
  | send {t : ι} {buf : List U8} {hwm timeout : ℤ} :
    Pending s (.send t buf hwm timeout) t (.send buf hwm) (0 < timeout)
  | recv {t : ι} {len : ℕ} {timeout : ℤ} {stale : ℕ} :
    Pending s (.recv t len timeout stale) t (.recv len) (0 < timeout)
  | resume {t : ι} {p : Parked Call} {timedOut : Bool} {stale : ℕ} (h : s.parked t = some p) :
    Pending s (.resume t timedOut stale) t p.call p.deadline

/-- A call sleeps as long as the queue has no room, or no message, for it. -/
def Sleeps (s : WaitQueue ι) : Call → Prop
  | .send _ hwm => s.closed = false ∧ hwm ≤ s.size
  | .recv _ => s.closed = false ∧ s.q = []

/-- The effects of a critical section, each with what is known of the state before. -/
inductive Effect (c : QueueConfig) (s : WaitQueue ι) (l : QueueLabel ι) :
    WaitQueue ι → Outcome → Prop
  | parks {t : ι} {call : Call} {deadline : Bool} (hp : Pending s l t call deadline)
    (hs : s.Sleeps call) (ht : l.timeout ≠ some 0) (hm : l.PositiveMark) :
    Effect c s l { s with parked := park s.parked t call deadline } .waits
  | fails {t : ι} {call : Call} {deadline : Bool} {errno : Errno}
    (hp : Pending s l t call deadline) :
    Effect c s l { s with parked := leave s.parked t } (.fails errno)
  | nothing {t : ι} {buf : List U8} {timeout : ℤ} (hl : l = .send t buf 0 timeout) :
    Effect c s l { s with parked := leave s.parked t } .nothing
  | sends {t : ι} {buf : List U8} {hwm : ℤ} {deadline : Bool}
    (hp : Pending s l t (.send buf hwm) deadline) (hc : s.closed = false)
    (hroom : 0 < hwm → s.size < hwm) :
    Effect c s l ({ s with parked := leave s.parked t }.push c buf).1
      (.sent (buf.take c.sendBuflen) (toInt (buf.take c.sendBuflen).length))
  | receives {t : ι} {len : ℕ} {deadline : Bool} {el : Message} {rest : List Message}
    (hp : Pending s l t (.recv len) deadline) (hc : s.closed = false) (hq : s.q = el :: rest) :
    Effect c s l ({ s with parked := leave s.parked t }.pop el rest len l.stale).1
      (.received el (el.take len) (toInt (el.take len).length))
  | completes {t : ι} {len : ℕ} {timeout : ℤ} {stale : ℕ} (hl : l = .recv t len timeout stale)
    (hcls : c.cls = .logQueue) (hpend : s.closePending = true) (hc : s.closed = false)
    (hq : s.q = []) :
    Effect c s l { s with closed := true, parked := leave s.parked t } (.fails .ebadf)
  | closes {immediately pending : Bool} (hl : l = .close immediately)
    (hwhy : c.cls = .queue ∨ immediately = true ∨ s.q = []) :
    Effect c s l ({ s with closePending := pending }.maybeClose true).1 (.discards s.q)
  | defers (hl : l = .close false) (hcls : c.cls = .logQueue) :
    Effect c s l { s with closePending := true } .done
  | resets {pending : Bool} (hl : l = .reset) :
    Effect c s l { s with closePending := pending, closed := false } .done

variable {c : QueueConfig} {s : WaitQueue ι} {l : QueueLabel ι} {t : ι} {call : Call}
  {deadline : Bool}

omit [DecidableEq ι] in
/-- A label is about one call. -/
theorem Pending.unique {t' : ι} {call' : Call} {deadline' : Bool} (h : Pending s l t call deadline)
    (h' : Pending s l t' call' deadline') : t' = t ∧ call' = call ∧ deadline' = deadline := by
  cases h with
  | send =>
    cases h'
    exact ⟨rfl, rfl, rfl⟩
  | recv =>
    cases h'
    exact ⟨rfl, rfl, rfl⟩
  | resume h =>
    cases h' with
    | resume h' =>
      rw [h] at h'
      cases h'
      exact ⟨rfl, rfl, rfl⟩

theorem effect_waitLoop (hp : Pending s l t call deadline) (ht : l.timeout ≠ some 0)
    (hm : l.PositiveMark) (timedOut : Bool) :
    Effect c s l (s.waitLoop c t call deadline timedOut l.stale).1
      (s.waitLoop c t call deadline timedOut l.stale).2 := by
  have hsleep : s.Sleeps call →
      Effect c s l
        (if timedOut then ({ s with parked := leave s.parked t }, Outcome.fails .eagain)
          else ({ s with parked := park s.parked t call deadline }, .waits)).1
        (if timedOut then ({ s with parked := leave s.parked t }, Outcome.fails .eagain)
          else ({ s with parked := park s.parked t call deadline }, .waits)).2 := by
    intro hs
    cases timedOut with
    | true => exact .fails hp
    | false => exact .parks hp hs ht hm
  unfold waitLoop
  simp only
  split
  · exact .fails hp
  · rename_i hc
    rw [Bool.not_eq_true] at hc
    split
    · split
      · rename_i hroom
        exact .sends hp hc fun _ => hroom
      · rename_i hfull
        exact hsleep ⟨hc, not_lt.mp hfull⟩
    · rename_i hq
      exact hsleep ⟨hc, hq⟩
    · rename_i el rest hq
      rw [pop_outcome]
      exact .receives hp hc hq

/-- A call that fails at once leaves the queue as it was. -/
theorem effect_fails (hp : Pending s l t call deadline) (h0 : s.parked t = none) (errno : Errno) :
    Effect c s l s (.fails errno) := by
  have hfails : Effect c s l { s with parked := leave s.parked t } (.fails errno) := .fails hp
  rwa [leave_eq_self h0] at hfails

theorem effect_wait (hp : Pending s l t call deadline) (h0 : s.parked t = none) {timeout : ℤ}
    (hm : l.PositiveMark) (ht : l.timeout = some timeout) (hd : deadline = decide (0 < timeout)) :
    Effect c s l (s.wait c t call timeout l.stale).1 (s.wait c t call timeout l.stale).2 := by
  unfold wait
  split
  · exact effect_fails hp h0 .eagain
  · rename_i hne
    have hne' : l.timeout ≠ some 0 := by
      rw [ht]
      simpa using hne
    rw [← hd]
    exact effect_waitLoop hp hne' hm false

theorem effect_enqueue {buf : List U8} {hwm timeout : ℤ} (h0 : s.parked t = none)
    (hl : l = .send t buf hwm timeout) :
    Effect c s l (s.enqueue c t buf hwm timeout).1 (s.enqueue c t buf hwm timeout).2 := by
  subst hl
  have hp : Pending s (.send t buf hwm timeout) t (.send buf hwm) (0 < timeout) := .send
  unfold enqueue
  split
  · exact effect_fails hp h0 .ebadf
  · rename_i hc
    rw [Bool.not_eq_true] at hc
    split
    · rename_i hz
      subst hz
      have hnothing : Effect c s (.send t buf 0 timeout) { s with parked := leave s.parked t }
          .nothing := .nothing rfl
      rwa [leave_eq_self h0] at hnothing
    · split
      · rename_i hwait
        exact effect_wait hp h0 hwait.1 rfl rfl
      · rename_i hroom
        have hsends := Effect.sends (c := c) hp hc fun hpos =>
          not_le.mp fun hle => hroom ⟨hpos, hle⟩
        rwa [leave_eq_self h0] at hsends

theorem effect_dequeue {len : ℕ} {timeout : ℤ} {stale : ℕ} (h0 : s.parked t = none)
    (hl : l = .recv t len timeout stale) :
    Effect c s l (s.dequeue c t len timeout stale).1 (s.dequeue c t len timeout stale).2 := by
  subst hl
  have hp : Pending s (.recv t len timeout stale) t (.recv len) (0 < timeout) := .recv
  unfold dequeue
  split
  · exact effect_fails hp h0 .ebadf
  · rename_i hc
    rw [Bool.not_eq_true] at hc
    split
    · rename_i hq
      unfold waitForNotEmpty
      split
      · exact effect_wait hp h0 trivial rfl rfl
      · rename_i hcls
        split
        · rename_i hpend
          have hcompletes : Effect c s (.recv t len timeout stale)
              { s with closed := true, parked := leave s.parked t } (.fails .ebadf) :=
            .completes rfl hcls hpend hc hq
          rwa [leave_eq_self h0] at hcompletes
        · exact effect_wait hp h0 trivial rfl rfl
    · rename_i el rest hq
      have hrecv := Effect.receives (c := c) hp hc hq
      rw [leave_eq_self h0] at hrecv
      rwa [pop_outcome]

theorem effect_close {immediately : Bool} (hl : l = .close immediately) :
    Effect c s l (s.close c immediately).1 (s.close c immediately).2 := by
  subst hl
  unfold close
  split
  · rename_i hcls
    exact .closes rfl (.inl hcls)
  · rename_i hcls
    cases htest : immediately || s.q.isEmpty with
    | true =>
      have hwhy : immediately = true ∨ s.q = [] := by
        simpa using htest
      exact .closes rfl (.inr hwhy)
    | false =>
      have himm : immediately = false := (Bool.or_eq_false_iff.mp htest).1
      subst himm
      exact .defers rfl hcls

/-- **What a critical section can do.** -/
theorem step_effect (h : s.Enabled c l) : Effect c s l (s.step c l).1 (s.step c l).2 := by
  cases l with
  | send t buf hwm timeout => exact effect_enqueue h.1 rfl
  | recv t len timeout stale => exact effect_dequeue h rfl
  | resume t timedOut stale =>
    obtain ⟨p, hp, -⟩ := h
    unfold step
    simp only [hp]
    exact effect_waitLoop (.resume hp) (by simp [QueueLabel.timeout]) trivial timedOut
  | close immediately => exact effect_close rfl
  | reset =>
    unfold step reset
    simp only
    split
    · exact .resets rfl
    · exact .resets rfl

/-- Every transition has one of these effects, with what its critical section ends with. -/
theorem Step.effect {s' : WaitQueue ι} (h : Step c s l s') : ∃ o, Effect c s l s' o := by
  obtain ⟨hen, rfl⟩ := h
  exact ⟨_, step_effect hen⟩

end WaitQueue

end PacketForwarder
