import PacketForwarder.Comms

/-!
# No lost wake-up on a link

Whoever is parked in the `Queue` of a link without a notification under way has a
reason to be: the queue is open, and it is full for a sender, empty for a receiver.

* `Effect.sleeps` — every critical section keeps this, whoever makes it;
* `no_lost_wakeup` — it holds in every reachable state.
-/

namespace PacketForwarder

namespace WaitQueue

open Monitor

variable {ι : Type*} [DecidableEq ι] {c : QueueConfig} {s s' : WaitQueue ι} {l : QueueLabel ι}
  {o : Outcome}

/-- A `LogQueue` may complete a deferred close, which notifies nobody; all other critical
sections notify everyone who loses the reason to sleep. -/
theorem Effect.sleeps (h : Effect c s l s' o) (hcls : c.cls = .queue)
    (hs : Justified s.Sleeps s.parked) : Justified s'.Sleeps s'.parked := by
  cases h with
  | parks hp hsleep ht hm => exact hs.park _ _ hsleep
  | fails hp => exact hs.leave _
  | nothing hl => exact hs.leave _
  | sends hp hc hroom =>
    -- The readers are woken, and a sender that sleeps still does not fit in.
    refine (hs.leave _).notifyAll ?_
    intro k hk hsleep
    cases k with
    | send buf hwm =>
      refine ⟨hsleep.1, hsleep.2.trans ?_⟩
      show s.size ≤ s.size + _
      omega
    | recv len => cases hk
  | receives hp hc hq =>
    refine (hs.leave _).notifyAll ?_
    intro k hk hsleep
    cases k with
    | send buf hwm => cases hk
    | recv len =>
      have hnil : s.q = [] := hsleep.2
      rw [hq] at hnil
      cases hnil
  | completes hl hlog hpend hc hq =>
    rw [hcls] at hlog
    cases hlog
  | closes hl hwhy =>
    have hsend : Justified (fun k => sendCv k = false) (notifyAll sendCv s.parked) :=
      hs.notifyAll fun k hk _ => hk
    refine hsend.notifyAll ?_
    intro k hrecv hsend
    cases k with
    | send buf hwm => cases hsend
    | recv len => cases hrecv
  | defers hl hlog =>
    rw [hcls] at hlog
    cases hlog
  | resets hl =>
    refine hs.mono ?_
    intro k hsleep
    cases k with
    | send buf hwm => exact ⟨rfl, hsleep.2⟩
    | recv len => exact ⟨rfl, hsleep.2⟩

/-- The invariant holds in every state that is reached by such critical sections. -/
theorem ReachableBy.sleeps {ok : WaitQueue ι → QueueLabel ι → Prop} (h : ReachableBy c ok s)
    (hcls : c.cls = .queue) : Justified s.Sleeps s.parked := by
  refine Runs.Reaches.invariant (I := fun s => Justified s.Sleeps s.parked) justified_nobody ?_ h
  intro s l s' _ hs _ hstep
  obtain ⟨o, he⟩ := hstep.effect
  exact he.sleeps hcls hs

end WaitQueue

open WaitQueue in
/-- **No lost wake-up.**  Whatever senders, receivers, `close` and `reset` do on a `Queue`, a
sender that is parked without a notification waits for a mark the buffered data still
reaches, and a receiver that is parked without one waits at an empty queue; and the queue
is open. -/
theorem no_lost_wakeup {ι : Type*} [DecidableEq ι] (sendBuflen : ℕ) (s : WaitQueue ι)
    (h : WaitQueue.ReachableBy ⟨.queue, sendBuflen⟩ Runs.anyStep s) (t : ι)
    (p : Monitor.Parked Call) (ht : s.parked t = some p) (hn : p.notified = false) :
    (∀ buf hwm, p.call = .send buf hwm → s.closed = false ∧ hwm ≤ s.size) ∧
      ∀ len, p.call = .recv len → s.closed = false ∧ s.q = [] := by
  have hsleep : s.Sleeps p.call := h.sleeps rfl t p ht hn
  constructor
  · intro buf hwm hcall
    rwa [hcall] at hsleep
  · intro len hcall
    rwa [hcall] at hsleep

/-- A second sender finds three bytes buffered, and waits until there are none. -/
theorem no_lost_wakeup_second_sender :
    let c : QueueConfig := ⟨.queue, 999⟩
    let s := ((WaitQueue.init : WaitQueue ℕ).step c (.send 0 [1, 2, 3] 1 (-1))).1
    let s := (s.step c (.send 1 [4] 1 (-1))).1
    s.closed = false ∧ 1 ≤ s.size :=
  (no_lost_wakeup 999 _
    (.next (.next .start trivial ⟨by decide, rfl⟩) trivial ⟨by decide, rfl⟩) 1
    ⟨.send [4] 1, false, false⟩ (by decide) rfl).1 [4] 1 rfl

end PacketForwarder
