import PacketForwarder.Comms
import PacketForwarder.Lifecycle
import PacketForwarder.Stop

/-!
# Stopping a gateway that waits on a link

The two links with their settings, the threads of the forwarder that use them
(`thread_up` the uplink, `thread_down` the downlink), and any number of threads of
the application.  After a stop `main` joins the threads of the forwarder before
`start()` closes the links; a thread that waits without a deadline is then on its own.

* `Link`, `LinkSystem.step` — the links, and all that can happen to them, from the
  moment `main` opens them, which puts their settings back;
* `WaitsBounded` — a thread of the forwarder does not begin to wait for ever;
* `stop_cannot_hang` — under this condition no thread of the forwarder is ever parked
  without a deadline.
-/

namespace PacketForwarder

open Monitor

/-! ## Links -/

instance : Fintype Direction where
  elems := {.fromFwd, .toFwd}
  complete d := by cases d <;> decide

/-- `Link`; timeouts are in microseconds. -/
structure Link (ι : Type*) where
  fromFwdSendHwm : ℤ
  fromFwdSendTimeout : ℤ
  toFwdRecvTimeout : ℤ
  queue : Direction → WaitQueue ι

/-- `to_microseconds`. -/
def toMicroseconds : Option Timeval → ℤ
  | some tv => tv.us
  | none => -1

/-- `mem_setsockopt`: zero means to block. -/
def socketTimeout (tv : Timeval) : ℤ :=
  toMicroseconds (if tv.tvSec ≠ 0 ∨ tv.tvUsec ≠ 0 then some tv else none)

namespace Link

variable {ι : Type*}

/-- A link as `reset()` leaves it, open and with the default settings. -/
def reset : Link ι where
  fromFwdSendHwm := -1
  fromFwdSendTimeout := -1
  toFwdRecvTimeout := -1
  queue _ := .init

/-- `Link::reset`, whatever has been set and whoever is parked. -/
def reopen (link : Link ι) : Link ι where
  fromFwdSendHwm := -1
  fromFwdSendTimeout := -1
  toFwdRecvTimeout := -1
  queue d := ((link.queue d).reset d.config).1

/-- A reopened link leaves everyone parked who was parked on it. -/
@[simp] theorem parked_reopen (link : Link ι) (d : Direction) :
    (link.reopen.queue d).parked = (link.queue d).parked := by
  cases d <;> rfl

variable [DecidableEq ι]

/-- A critical section of one of the queues. -/
def onQueue (link : Link ι) (d : Direction) (l : QueueLabel ι) : Link ι :=
  { link with queue := Function.update link.queue d ((link.queue d).step d.config l).1 }

/-- `Link::close`. -/
def close (link : Link ι) : Link ι :=
  (link.onQueue .fromFwd (.close true)).onQueue .toFwd (.close true)

end Link

/-! ## The system -/

/-- A thread that uses the links. -/
inductive Party (α : Type*)
  /-- `thread_up` or `thread_down`, each of which has a link of its own. -/
  | fwd (k : CommLink)
  | app (a : α)
  deriving DecidableEq

/-- What the links are part of.  `β` are the threads that may call `check_stop`. -/
structure LinkSystem (α β : Type*) where
  links : CommLink → Link (Party α)
  /-- `next_socket`: how many links `main` has opened. -/
  nextSocket : ℕ
  /-- The forwarder has set the timeout of its socket. -/
  configured : CommLink → Bool
  /-- The thread of the forwarder has ended. -/
  ended : CommLink → Bool
  stop : StopState β

/-- A step is a call of one of the parties, or one of `start()` and `stop()`. -/
inductive LinkLabel (α β : Type*)
  | setGwSendHwm (k : CommLink) (hwm : ℤ)
  | setGwSendTimeout (k : CommLink) (timeout : Option Timeval)
  | setGwRecvTimeout (k : CommLink) (timeout : Option Timeval)
  /-- `main` opens the next link, which `Link::reset` gives the default settings. -/
  | memSocket
  /-- The forwarder sets the timeouts of its link, and sends and receives on it. -/
  | memSetsockopt (k : CommLink)
  | memSend (k : CommLink) (buf : List U8)
  | memRecv (k : CommLink) (len stale : ℕ)
  /-- The application sends and receives on the other ends, with timeouts of its own. -/
  | sendTo (a : α) (k : CommLink) (buf : List U8) (hwm : ℤ) (timeout : Option Timeval)
  | recvFrom (a : α) (k : CommLink) (len : ℕ) (timeout : Option Timeval) (stale : ℕ)
  /-- A parked thread has the lock again. -/
  | resume (k : CommLink) (d : Direction) (t : Party α) (timedOut : Bool) (stale : ℕ)
  | stopping (l : StopLabel β)
  /-- `thread_down` gives up after too many `PULL_DATA` without an answer. -/
  | autoquit
  /-- A thread of the forwarder returns, or ends in `mem_exit`. -/
  | ends (k : CommLink)
  /-- `start()` closes both links when the threads of the forwarder have ended. -/
  | closeLinks

/-- The part of the configuration that the links depend on, which is `push_timeout_ms`. -/
structure LinkConfig where
  pushTimeoutMs : ℕ

/-- `push_timeout_half` and `pull_timeout`. -/
def LinkConfig.timeout (cfg : LinkConfig) : CommLink → Timeval
  | .uplink => ⟨0, 500 * cfg.pushTimeoutMs⟩
  | .downlink => ⟨0, 200 * 1000⟩

namespace LinkSystem

variable {α β : Type*}

/-- The links as `reset()` leaves them, with no socket opened. -/
def reset : LinkSystem α β where
  links _ := .reset
  nextSocket := 0
  configured _ := false
  ended _ := false
  stop := .reset

variable [DecidableEq α] [DecidableEq β]

/-- One of the links is changed, and the other one stays. -/
def updateLink (s : LinkSystem α β) (k : CommLink) (f : Link (Party α) → Link (Party α)) :
    LinkSystem α β :=
  { s with links := Function.update s.links k (f (s.links k)) }

/-- `mem_socket`: the link is reset, with what the application may have set; a third one is
refused. -/
def memSocket (s : LinkSystem α β) : LinkSystem α β :=
  if 1 < s.nextSocket then s
  else
    let k : CommLink := if s.nextSocket = 0 then .uplink else .downlink
    { s.updateLink k Link.reopen with nextSocket := s.nextSocket + 1 }

/-- The critical section of a queue that a label stands for. -/
def queueLabel (s : LinkSystem α β) :
    LinkLabel α β → Option (CommLink × Direction × QueueLabel (Party α))
  | .memSend k buf =>
    some (k, .fromFwd,
      .send (.fwd k) buf (s.links k).fromFwdSendHwm (s.links k).fromFwdSendTimeout)
  | .memRecv k len stale =>
    some (k, .toFwd, .recv (.fwd k) len (s.links k).toFwdRecvTimeout stale)
  | .sendTo a k buf hwm timeout =>
    some (k, .toFwd, .send (.app a) buf hwm (toMicroseconds timeout))
  | .recvFrom a k len timeout stale =>
    some (k, .fromFwd, .recv (.app a) len (toMicroseconds timeout) stale)
  | .resume k d t timedOut stale => some (k, d, .resume t timedOut stale)
  | _ => none

/-- A step is a critical section of a queue, or it changes what is around the queues. -/
def step (cfg : LinkConfig) (s : LinkSystem α β) (l : LinkLabel α β) : LinkSystem α β :=
  match s.queueLabel l with
  | some (k, d, ql) => s.updateLink k fun link => link.onQueue d ql
  | none =>
    match l with
    | .setGwSendHwm k hwm => s.updateLink k fun link => { link with fromFwdSendHwm := hwm }
    | .setGwSendTimeout k timeout =>
      s.updateLink k fun link => { link with fromFwdSendTimeout := toMicroseconds timeout }
    | .setGwRecvTimeout k timeout =>
      s.updateLink k fun link => { link with toFwdRecvTimeout := toMicroseconds timeout }
    | .memSocket => s.memSocket
    | .memSetsockopt k =>
      { s.updateLink k fun link =>
          { link with toFwdRecvTimeout := socketTimeout (cfg.timeout k) } with
        configured := Function.update s.configured k true }
    | .stopping l => { s with stop := s.stop.step l }
    | .autoquit => { s with stop := { s.stop with exitSig := true } }
    | .ends k => { s with ended := Function.update s.ended k true }
    | .closeLinks => { s with links := fun k => (s.links k).close }
    | _ => s

/-- A thread that is not in a call. -/
def Idle (s : LinkSystem α β) (t : Party α) : Prop := ∀ k d, ((s.links k).queue d).parked t = none

/-- `main` opens both links before it creates the threads of the forwarder, which set their
timeout before they use their link; it joins them before `start()` closes the links. -/
def MayStart (s : LinkSystem α β) : LinkLabel α β → Prop
  | .memSend k _ | .memRecv k _ _ =>
    s.configured k = true ∧ s.ended k = false ∧ s.Idle (.fwd k)
  | .memSetsockopt k => s.nextSocket = 2 ∧ s.ended k = false ∧ s.Idle (.fwd k)
  | .ends k => s.ended k = false ∧ s.Idle (.fwd k)
  | .autoquit => s.ended .downlink = false ∧ s.Idle (.fwd .downlink)
  | .sendTo a _ _ _ _ | .recvFrom a _ _ _ _ => s.Idle (.app a)
  | .stopping l => s.stop.Enabled l
  | .closeLinks => ∀ k, s.ended k = true
  | .setGwSendHwm _ _ | .setGwSendTimeout _ _ | .setGwRecvTimeout _ _ | .memSocket
  | .resume _ _ _ _ _ => True

/-- The critical section is one of its queue. -/
def QueueEnabled (s : LinkSystem α β) (l : LinkLabel α β) : Prop :=
  match s.queueLabel l with
  | some (k, d, ql) => ((s.links k).queue d).Enabled d.config ql
  | none => True

/-- A step can be taken where its call may start and the queue is ready for it. -/
def Enabled (s : LinkSystem α β) (l : LinkLabel α β) : Prop := s.MayStart l ∧ s.QueueEnabled l

instance (s : LinkSystem α β) (t : Party α) : Decidable (s.Idle t) :=
  inferInstanceAs (Decidable (∀ k d, ((s.links k).queue d).parked t = none))

instance (s : LinkSystem α β) (l : LinkLabel α β) : Decidable (s.MayStart l) :=
  match l with
  | .memSend k _ | .memRecv k _ _ =>
    inferInstanceAs (Decidable (s.configured k = true ∧ s.ended k = false ∧ s.Idle (.fwd k)))
  | .memSetsockopt k =>
    inferInstanceAs (Decidable (s.nextSocket = 2 ∧ s.ended k = false ∧ s.Idle (.fwd k)))
  | .ends k => inferInstanceAs (Decidable (s.ended k = false ∧ s.Idle (.fwd k)))
  | .autoquit =>
    inferInstanceAs (Decidable (s.ended .downlink = false ∧ s.Idle (.fwd .downlink)))
  | .sendTo a _ _ _ _ | .recvFrom a _ _ _ _ => inferInstanceAs (Decidable (s.Idle (.app a)))
  | .stopping l => inferInstanceAs (Decidable (s.stop.Enabled l))
  | .closeLinks => inferInstanceAs (Decidable (∀ k, s.ended k = true))
  | .setGwSendHwm _ _ | .setGwSendTimeout _ _ | .setGwRecvTimeout _ _ | .memSocket
  | .resume _ _ _ _ _ => inferInstanceAs (Decidable True)

instance (s : LinkSystem α β) (l : LinkLabel α β) : Decidable (s.QueueEnabled l) := by
  unfold QueueEnabled
  split <;> infer_instance

instance (s : LinkSystem α β) (l : LinkLabel α β) : Decidable (s.Enabled l) :=
  inferInstanceAs (Decidable (_ ∧ _))

/-- The transitions are the steps that can be taken. -/
def Step (cfg : LinkConfig) (s : LinkSystem α β) (l : LinkLabel α β) (s' : LinkSystem α β) :
    Prop :=
  s.Enabled l ∧ s' = s.step cfg l

/-- The states reached since `reset()` by steps that satisfy `ok`. -/
abbrev ReachableBy (cfg : LinkConfig) (ok : LinkSystem α β → LinkLabel α β → Prop)
    (s : LinkSystem α β) : Prop :=
  Runs.Reaches (Step cfg) ok reset s

/-- `exit_sig` is set, and a thread of the forwarder sleeps with nothing to wake it. -/
def Hangs (s : LinkSystem α β) : Prop :=
  s.stop.exitSig = true ∧ ∃ k d k' p, ((s.links k).queue d).parked (.fwd k') = some p ∧
    p.deadline = false ∧ p.notified = false

/-- A thread of the forwarder has to wait only with a timeout: neither does it send to a queue
that has reached the high-water mark, nor receive from an empty one, while the timeout is
negative. -/
def WaitsBounded (s : LinkSystem α β) : LinkLabel α β → Prop
  | .memSend k buf =>
    ((s.links k).queue .fromFwd).Sleeps (.send buf (s.links k).fromFwdSendHwm) →
      0 < (s.links k).fromFwdSendHwm → 0 ≤ (s.links k).fromFwdSendTimeout
  | .memRecv k len _ =>
    ((s.links k).queue .toFwd).Sleeps (.recv len) → 0 ≤ (s.links k).toFwdRecvTimeout
  | _ => True

/-! ## Threads of the forwarder do not wait for ever -/

/-- A parked thread of the forwarder has a deadline. -/
def Timed (t : Party α) (p : Parked Call) : Prop := ∀ k, t = .fwd k → p.deadline = true

/-- On a queue: only a call of the forwarder without a timeout can break this. -/
theorem timed_of_effect {c : QueueConfig} {q q' : WaitQueue (Party α)}
    {l : QueueLabel (Party α)} {o : Outcome} (h : WaitQueue.Effect c q l q' o)
    (hl : ∀ k call timeout, WaitQueue.Pending q l (.fwd k) call (0 < timeout) → q.Sleeps call →
      l.PositiveMark → l.timeout = some timeout → 0 ≤ timeout)
    (hq : Everyone Timed q.parked) : Everyone Timed q'.parked := by
  cases h with
  | @parks t call deadline hp hsleep ht hm =>
    refine hq.park t ?_
    rintro k rfl
    show deadline = true
    cases hp with
    | send =>
      have hpos := hl k _ _ .send hsleep hm rfl
      have hne := fun h0 => ht (congrArg some h0)
      simpa using lt_of_le_of_ne hpos (Ne.symm hne)
    | recv =>
      have hpos := hl k _ _ .recv hsleep hm rfl
      have hne := fun h0 => ht (congrArg some h0)
      simpa using lt_of_le_of_ne hpos (Ne.symm hne)
    | resume hpark => exact hq _ _ hpark k rfl
  | fails hp => exact hq.leave _
  | nothing hl' => exact hq.leave _
  | sends hp hc hroom => exact (hq.leave _).notifyAll _ fun _ _ _ ht => ht
  | receives hp hc hqueue => exact (hq.leave _).notifyAll _ fun _ _ _ ht => ht
  | completes hl' hcls hpend hc hqueue => exact hq.leave _
  | closes hl' hwhy =>
    exact (hq.notifyAll _ fun _ _ _ ht => ht).notifyAll _ fun _ _ _ ht => ht
  | defers hl' hcls => exact hq
  | resets hl' => exact hq

/-- **The invariant**: everyone who is parked in a queue has a deadline. -/
def AllTimed (s : LinkSystem α β) : Prop := ∀ k d, Everyone Timed ((s.links k).queue d).parked

variable {cfg : LinkConfig} {s s' : LinkSystem α β} {l : LinkLabel α β}

omit [DecidableEq α] [DecidableEq β] in
/-- What holds of the changed link and of the others holds of all. -/
theorem forall_updateLink (P : CommLink → Link (Party α) → Prop) {k : CommLink}
    {f : Link (Party α) → Link (Party α)} (hk : P k (f (s.links k)))
    (h : ∀ k', P k' (s.links k')) (k' : CommLink) : P k' ((s.updateLink k f).links k') :=
  (Function.forall_update_iff s.links P).mpr ⟨hk, fun k' _ => h k'⟩ k'

omit [DecidableEq α] [DecidableEq β] in
/-- A change of one link that is harmless to its queues. -/
theorem AllTimed.updateLink (h : s.AllTimed) (k : CommLink) {f : Link (Party α) → Link (Party α)}
    (hf : ∀ d, Everyone Timed ((f (s.links k)).queue d).parked) : (s.updateLink k f).AllTimed := by
  exact forall_updateLink (fun _ link => ∀ d, Everyone Timed (link.queue d).parked) hf h

/-- One critical section of a queue of a link. -/
theorem everyone_onQueue {link : Link (Party α)} (d : Direction) {ql : QueueLabel (Party α)}
    (hen : (link.queue d).Enabled d.config ql)
    (hl : ∀ k call timeout, WaitQueue.Pending (link.queue d) ql (.fwd k) call (0 < timeout) →
      (link.queue d).Sleeps call → ql.PositiveMark → ql.timeout = some timeout → 0 ≤ timeout)
    (h : ∀ d, Everyone Timed (link.queue d).parked) (d' : Direction) :
    Everyone Timed ((link.onQueue d ql).queue d').parked := by
  have hchanged := timed_of_effect (WaitQueue.step_effect hen) hl (h d)
  exact (Function.forall_update_iff link.queue fun _ q => Everyone Timed q.parked).mpr
    ⟨hchanged, fun d' _ => h d'⟩ d'

omit [DecidableEq α] [DecidableEq β] in
/-- The condition, as it is about the queues. -/
theorem WaitsBounded.timeout_nonneg (hok : s.WaitsBounded l) {k : CommLink} {d : Direction}
    {ql : QueueLabel (Party α)} (hql : s.queueLabel l = some (k, d, ql)) (k' : CommLink)
    (call : Call) (timeout : ℤ)
    (hp : WaitQueue.Pending ((s.links k).queue d) ql (.fwd k') call (0 < timeout))
    (hsleep : ((s.links k).queue d).Sleeps call) (hm : ql.PositiveMark)
    (ht : ql.timeout = some timeout) : 0 ≤ timeout := by
  cases l with
  | memSend k₀ buf =>
    cases hql
    cases ht
    cases hp
    exact hok hsleep hm
  | memRecv k₀ len stale =>
    cases hql
    cases ht
    cases hp
    exact hok hsleep
  | sendTo a k₀ buf hwm tv =>
    cases hql
    cases hp
  | recvFrom a k₀ len tv stale =>
    cases hql
    cases hp
  | resume k₀ d₀ t timedOut stale =>
    cases hql
    cases ht
  | setGwSendHwm k₀ hwm => cases hql
  | setGwSendTimeout k₀ tv => cases hql
  | setGwRecvTimeout k₀ tv => cases hql
  | memSocket => cases hql
  | memSetsockopt k₀ => cases hql
  | stopping l => cases hql
  | autoquit => cases hql
  | ends k₀ => cases hql
  | closeLinks => cases hql

omit [DecidableEq β] in
/-- Closing a link notifies everyone. -/
theorem everyone_close {link : Link (Party α)}
    (h : ∀ d, Everyone Timed (link.queue d).parked) (d : Direction) :
    Everyone Timed (link.close.queue d).parked := by
  have hclose : ∀ {link : Link (Party α)} d₀, (∀ d, Everyone Timed (link.queue d).parked) →
      ∀ d, Everyone Timed ((link.onQueue d₀ (.close true)).queue d).parked := by
    intro link d₀ hlink d
    have hen : (link.queue d₀).Enabled d₀.config (.close true) := trivial
    refine everyone_onQueue d₀ hen ?_ hlink d
    intro k call timeout hp
    cases hp
  exact hclose .toFwd (hclose .fromFwd h) d

omit [DecidableEq α] [DecidableEq β] in
/-- Opening a link wakes nobody and parks nobody. -/
theorem AllTimed.memSocket (h : s.AllTimed) : s.memSocket.AllTimed := by
  unfold LinkSystem.memSocket
  split
  · exact h
  · exact h.updateLink _ fun d => by
      rw [Link.parked_reopen]
      exact h _ d

theorem Step.allTimed (hst : Step cfg s l s') (hok : s.WaitsBounded l) (h : s.AllTimed) :
    s'.AllTimed := by
  obtain ⟨⟨-, hqueue⟩, rfl⟩ := hst
  unfold step
  unfold QueueEnabled at hqueue
  split
  · rename_i k d ql hql
    rw [hql] at hqueue
    exact h.updateLink k (everyone_onQueue d hqueue (hok.timeout_nonneg hql) (h k))
  · split
    · exact h.updateLink _ (h _)
    · exact h.updateLink _ (h _)
    · exact h.updateLink _ (h _)
    · exact h.memSocket
    · rename_i k _
      have hset : (s.updateLink k fun link =>
          { link with toFwdRecvTimeout := socketTimeout (cfg.timeout k) }).AllTimed :=
        h.updateLink k (h k)
      exact hset
    · exact h
    · exact h
    · exact h
    · exact fun k => everyone_close (h k)
    · exact h

theorem ReachableBy.allTimed (h : ReachableBy cfg WaitsBounded s) : s.AllTimed := by
  have hreset : (reset : LinkSystem α β).AllTimed := fun _ _ => everyone_nobody
  exact h.invariant hreset fun _ _ _ _ hs hok hst => hst.allTimed hok hs

/-! ## Settings that are enough -/

/-- The application sets no negative timeout, and a high-water mark that has to be waited for
only while there is a timeout for sending, which `mem_socket` takes away. -/
def SaneSettings (s : LinkSystem α β) : LinkLabel α β → Prop
  | .setGwSendHwm k hwm => 0 < hwm → 0 ≤ (s.links k).fromFwdSendTimeout
  | .setGwSendTimeout _ timeout | .setGwRecvTimeout _ timeout => 0 ≤ toMicroseconds timeout
  | _ => True

instance (s : LinkSystem α β) (l : LinkLabel α β) : Decidable (s.SaneSettings l) :=
  match l with
  | .setGwSendHwm k hwm =>
    inferInstanceAs (Decidable (0 < hwm → 0 ≤ (s.links k).fromFwdSendTimeout))
  | .setGwSendTimeout _ timeout | .setGwRecvTimeout _ timeout =>
    inferInstanceAs (Decidable (0 ≤ toMicroseconds timeout))
  | .memSocket | .memSetsockopt _ | .memSend _ _ | .memRecv _ _ _ | .sendTo _ _ _ _ _
  | .recvFrom _ _ _ _ _ | .resume _ _ _ _ _ | .stopping _ | .autoquit | .ends _ | .closeLinks =>
    inferInstanceAs (Decidable True)

/-- What these settings come to; the timeout for receiving is the forwarder's own once it is
set, since by then both links are open. -/
structure SettingsOk (s : LinkSystem α β) : Prop where
  opened : ∀ k, s.configured k = true → s.nextSocket = 2
  send : ∀ k, 0 < (s.links k).fromFwdSendHwm → 0 ≤ (s.links k).fromFwdSendTimeout
  recv : ∀ k, s.configured k = true → 0 ≤ (s.links k).toFwdRecvTimeout

theorem socketTimeout_pos {us : ℤ} (h : 0 < us) : 0 ≤ socketTimeout ⟨0, us⟩ := by
  have hset : socketTimeout ⟨0, us⟩ = us := by
    unfold socketTimeout
    rw [if_pos (.inr h.ne')]
    simp [toMicroseconds, Timeval.us]
  rw [hset]
  exact h.le

omit [DecidableEq α] [DecidableEq β] in
/-- The settings stay sane where one link gets other ones that are. -/
theorem SettingsOk.updateLink (h : s.SettingsOk) (k : CommLink)
    {f : Link (Party α) → Link (Party α)}
    (hsend : 0 < (f (s.links k)).fromFwdSendHwm → 0 ≤ (f (s.links k)).fromFwdSendTimeout)
    (hrecv : s.configured k = true → 0 ≤ (f (s.links k)).toFwdRecvTimeout) :
    (s.updateLink k f).SettingsOk := by
  refine ⟨h.opened, ?_, ?_⟩
  · exact forall_updateLink
      (fun _ link => 0 < link.fromFwdSendHwm → 0 ≤ link.fromFwdSendTimeout) hsend h.send
  · exact forall_updateLink
      (fun k link => s.configured k = true → 0 ≤ link.toFwdRecvTimeout) hrecv h.recv

omit [DecidableEq α] [DecidableEq β] in
/-- Opening a link puts its settings back, which matters only before the forwarder has set
its timeout. -/
theorem SettingsOk.memSocket (h : s.SettingsOk) : s.memSocket.SettingsOk := by
  unfold LinkSystem.memSocket
  split
  · exact h
  · rename_i hfew
    have hnone : ∀ k, s.configured k ≠ true := by
      intro k hk
      have := h.opened k hk
      omega
    have hset := h.updateLink (if s.nextSocket = 0 then .uplink else .downlink)
      (f := Link.reopen) (fun hpos => absurd hpos (by decide : ¬(0 : ℤ) < -1))
      fun hk => absurd hk (hnone _)
    exact ⟨fun k hk => absurd hk (hnone k), hset.send, hset.recv⟩

theorem Step.settingsOk (hst : Step cfg s l s') (hcfg : 0 < cfg.pushTimeoutMs)
    (hok : s.SaneSettings l) (h : s.SettingsOk) : s'.SettingsOk := by
  obtain ⟨⟨hstart, -⟩, rfl⟩ := hst
  unfold step
  split
  · exact h.updateLink _ (h.send _) (h.recv _)
  · split
    · exact h.updateLink _ hok (h.recv _)
    · exact h.updateLink _ (fun _ => hok) (h.recv _)
    · exact h.updateLink _ (h.send _) fun _ => hok
    · exact h.memSocket
    · rename_i k _
      have htimeout : 0 ≤ socketTimeout (cfg.timeout k) := by
        cases k with
        | uplink => exact socketTimeout_pos (by omega)
        | downlink => exact socketTimeout_pos (by omega)
      have hset : (s.updateLink k fun link =>
          { link with toFwdRecvTimeout := socketTimeout (cfg.timeout k) }).SettingsOk :=
        h.updateLink k (h.send k) fun _ => htimeout
      refine ⟨fun _ _ => hstart.1, hset.send, ?_⟩
      -- `configured` has changed too, but only for the link whose timeout is new.
      intro k' hconf
      by_cases hk : k' = k
      · show 0 ≤ (Function.update s.links k _ k').toFwdRecvTimeout
        rw [hk, Function.update_self]
        exact htimeout
      · have hconf' : Function.update s.configured k true k' = true := hconf
        rw [Function.update_of_ne hk] at hconf'
        exact hset.recv k' hconf'
    · exact ⟨h.opened, h.send, h.recv⟩
    · exact ⟨h.opened, h.send, h.recv⟩
    · exact ⟨h.opened, h.send, h.recv⟩
    · exact ⟨h.opened, h.send, h.recv⟩
    · exact h

omit [DecidableEq α] [DecidableEq β] in
/-- With these settings every wait of the forwarder has a timeout. -/
theorem SettingsOk.waitsBounded (h : s.SettingsOk) (hen : s.Enabled l) : s.WaitsBounded l := by
  cases l with
  | memSend k buf => exact fun _ => h.send k
  | memRecv k len stale => exact fun _ => h.recv k hen.1.1
  | sendTo a k buf hwm tv => trivial
  | recvFrom a k len tv stale => trivial
  | resume k d t timedOut stale => trivial
  | setGwSendHwm k hwm => trivial
  | setGwSendTimeout k tv => trivial
  | setGwRecvTimeout k tv => trivial
  | memSocket => trivial
  | memSetsockopt k => trivial
  | stopping l => trivial
  | autoquit => trivial
  | ends k => trivial
  | closeLinks => trivial

theorem ReachableBy.of_saneSettings (hcfg : 0 < cfg.pushTimeoutMs)
    (h : ReachableBy cfg SaneSettings s) : ReachableBy cfg WaitsBounded s := by
  have hreset : (reset : LinkSystem α β).SettingsOk :=
    ⟨(fun _ h => by cases h), fun _ h => absurd h (by decide : ¬(0 : ℤ) < -1),
      fun _ h => by cases h⟩
  have hboth : ReachableBy cfg WaitsBounded s ∧ s.SettingsOk := by
    refine Runs.Reaches.invariant
      (I := fun s => ReachableBy cfg WaitsBounded s ∧ s.SettingsOk) ⟨.start, hreset⟩ ?_ h
    intro s l s' _ hs hok hst
    exact ⟨hs.1.next (hs.2.waitsBounded hst.1) hst, hst.settingsOk hcfg hok hs.2⟩
  exact hboth.1

end LinkSystem

open LinkSystem

/-- **Where stopping cannot hang.**  As long as no thread of the forwarder has to wait on a link
without a timeout, no state that is reached has `exit_sig` set and a thread of the
forwarder parked there without a deadline and without a notification, whatever the
settings and the application do.  Enough for that are a positive `push_timeout_ms`, no
negative timeout, and a positive high-water mark only while there is a timeout for sending. -/
theorem stop_cannot_hang {α β : Type*} [DecidableEq α] [DecidableEq β] (cfg : LinkConfig)
    (s : LinkSystem α β) :
    (LinkSystem.ReachableBy cfg WaitsBounded s → ¬s.Hangs) ∧
      (0 < cfg.pushTimeoutMs → LinkSystem.ReachableBy cfg SaneSettings s →
        LinkSystem.ReachableBy cfg WaitsBounded s) := by
  refine ⟨?_, fun hcfg h => h.of_saneSettings hcfg⟩
  rintro h ⟨-, k, d, k', p, hp, hdeadline, -⟩
  have htimed : p.deadline = true := h.allTimed k d _ _ hp k' rfl
  rw [hdeadline] at htimed
  cases htimed

/-- `thread_up` waits for an answer, and the application stops the gateway. -/
def stopWhileWaiting : List (LinkLabel ℕ ℕ) :=
  [.memSocket, .memSocket, .memSetsockopt .uplink, .memSend .uplink [2, 0, 0, 0],
    .memRecv .uplink 32 0, .stopping (.sigaction 0 .sigterm), .stopping (.stop 1),
    .stopping (.callHandler 1)]

/-- The condition is met with the default of 100 ms. -/
theorem stop_cannot_hang_default :
    ¬(Runs.after (step ⟨100⟩) (reset : LinkSystem ℕ ℕ) stopWhileWaiting).Hangs :=
  (stop_cannot_hang ⟨100⟩ _).1
    ((stop_cannot_hang ⟨100⟩ _).2 (by decide)
      (Runs.Reaches.start.after (fun s l => s.SaneSettings l ∧ s.Enabled l)
        (fun _ _ hl => ⟨hl.1, hl.2, rfl⟩) (by decide)))

/-- With `push_timeout_ms` 0, which `setsockopt` takes as no timeout at all. -/
theorem stop_hangs :
    ¬∀ s : LinkSystem ℕ ℕ, LinkSystem.ReachableBy ⟨0⟩ Runs.anyStep s → ¬s.Hangs := by
  intro h
  refine h (Runs.after (step ⟨0⟩) reset stopWhileWaiting)
    (Runs.Reaches.start.after Enabled (fun _ _ hl => ⟨trivial, hl, rfl⟩) (by decide)) ?_
  exact ⟨by decide, .uplink, .toFwd, .uplink, ⟨.recv 32, false, false⟩, by decide, rfl, rfl⟩

end PacketForwarder
