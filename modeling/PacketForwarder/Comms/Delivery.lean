import PacketForwarder.Comms

/-!
# Messages are delivered in order, and once

What goes into a queue and what comes out of it, in any interleaving of critical
sections.  The events of a run are recorded with the labels of their critical
sections; the thread of an event is in the call it has made last.

* `accepted`, `received`, `fates` — what a list of events did to messages;
* `Effect.books` — one critical section keeps the books balanced: what was queued and
  what is accepted is what meets its fate and what is queued afterwards;
* `delivered_in_order` — over a run from an empty queue, messages are received in the
  order they were accepted in, except for those that a close has discarded.
-/

namespace PacketForwarder

open Monitor

variable {ι : Type*}

/-! ## Events -/

/-- A critical section and what it ended with. -/
abbrev QueueEvent (ι : Type*) := QueueLabel ι × Outcome

/-- A message that leaves the queue has been delivered, or discarded by a close. -/
inductive Fate
  | delivered
  | discarded
  deriving DecidableEq

namespace Outcome

/-- The message a send has put into the queue. -/
def takenIn : Outcome → List Message
  | .sent msg _ => [msg]
  | _ => []

/-- The message a receive has taken out of the queue. -/
def handedOut : Outcome → List Message
  | .received msg _ _ => [msg]
  | _ => []

/-- The messages that are in the queue no more. -/
def fates : Outcome → List (Message × Fate)
  | .received msg _ _ => [(msg, .delivered)]
  | .discards msgs => msgs.map fun msg => (msg, .discarded)
  | _ => []

theorem handedOut_eq (o : Outcome) :
    o.handedOut = (o.fates.filter fun f => f.2 = .delivered).map Prod.fst := by
  cases o with
  | discards msgs =>
    have hnone : ((msgs.map fun msg => (msg, Fate.discarded)).filter
        fun f => f.2 = .delivered) = [] := by
      simp
    show [] = _
    rw [fates, hnone, List.map_nil]
  | received msg bytes ret => rfl
  | waits => rfl
  | sent msg ret => rfl
  | fails errno => rfl
  | nothing => rfl
  | done => rfl

end Outcome

/-- The messages sent successfully, in order. -/
def accepted (es : List (QueueEvent ι)) : List Message := es.flatMap fun e => e.2.takenIn

/-- The messages that were received, in the order of the receives. -/
def received (es : List (QueueEvent ι)) : List Message := es.flatMap fun e => e.2.handedOut

/-- The messages that have left the queue and how, in order. -/
def fates (es : List (QueueEvent ι)) : List (Message × Fate) := es.flatMap fun e => e.2.fates

/-- What is received is what is delivered. -/
theorem received_eq_delivered (es : List (QueueEvent ι)) :
    received es = ((fates es).filter fun f => f.2 = .delivered).map Prod.fst := by
  unfold received fates
  induction es with
  | nil => rfl
  | cons e es ih =>
    rw [List.flatMap_cons, List.flatMap_cons, List.filter_append, List.map_append, ih,
      e.2.handedOut_eq]

/-! ## Calls -/

/-- The thread that has the lock for a call. -/
def QueueLabel.thread : QueueLabel ι → Option ι
  | .send t _ _ _ | .recv t _ _ _ | .resume t _ _ => some t
  | .close _ | .reset => none

/-- The call of a label; `k` is the one that a resumed thread has made before. -/
def QueueLabel.call (k : Option Call) : QueueLabel ι → Option Call
  | .send _ buf hwm _ => some (.send buf hwm)
  | .recv _ len _ _ => some (.recv len)
  | .resume _ _ _ => k
  | .close _ | .reset => none

section Calls

variable [DecidableEq ι]

/-- The call that thread `t` has made and that has not returned. -/
def openCall (t : ι) (es : List (QueueEvent ι)) : Option Call :=
  es.foldl (fun k e =>
    if e.1.thread = some t then (if e.2 = .waits then e.1.call k else none) else k) none

theorem openCall_append (t : ι) (es : List (QueueEvent ι)) (e : QueueEvent ι) :
    openCall t (es ++ [e]) =
      if e.1.thread = some t then (if e.2 = .waits then e.1.call (openCall t es) else none)
      else openCall t es := by
  unfold openCall
  rw [List.foldl_append]
  rfl

/-- Thread `t` is in `call` when `l` happens after `es`. -/
def InCall (es : List (QueueEvent ι)) (l : QueueLabel ι) (t : ι) (call : Call) : Prop :=
  l.thread = some t ∧ l.call (openCall t es) = some call

/-- An event is what its call asks for: the message is the start of what was to be sent,
the bytes are the start of the message, and the call returns their number; messages are
discarded only by `Queue::close` and `LogQueue::close(true)`. -/
def AsCalled (c : QueueConfig) (es : List (QueueEvent ι)) (e : QueueEvent ι) : Prop :=
  match e.2 with
  | .sent msg ret =>
    ∃ t buf hwm, InCall es e.1 t (.send buf hwm) ∧
      msg = buf.take (min buf.length c.sendBuflen) ∧ ret = msg.length
  | .received msg bytes ret =>
    ∃ t len, InCall es e.1 t (.recv len) ∧ bytes = msg.take len ∧ ret = bytes.length
  | .discards msgs =>
    msgs ≠ [] → ∃ immediately, e.1 = .close immediately ∧
      (c.cls = .queue ∨ immediately = true)
  | _ => True

end Calls

namespace WaitQueue

variable [DecidableEq ι] {c : QueueConfig} {s s' : WaitQueue ι} {l : QueueLabel ι}
  {o : Outcome}

/-- A critical section as an event. -/
def EventStep (c : QueueConfig) (s : WaitQueue ι) (e : QueueEvent ι) (s' : WaitQueue ι) : Prop :=
  s.Enabled c e.1 ∧ s.step c e.1 = (s', e.2)

theorem EventStep.effect {e : QueueEvent ι} (h : EventStep c s e s') : Effect c s e.1 s' e.2 := by
  obtain ⟨hen, hstep⟩ := h
  have he := step_effect hen
  rwa [hstep] at he

/-! ## The books -/

/-- **One critical section.**  What was queued and what is accepted is what meets its fate
and what is queued afterwards. -/
theorem Effect.books (h : Effect c s l s' o) :
    s.q ++ o.takenIn = o.fates.map Prod.fst ++ s'.q := by
  cases h with
  | parks hp hsleep ht hm => exact List.append_nil _
  | fails hp => exact List.append_nil _
  | nothing hl => exact List.append_nil _
  | sends hp hc hroom => rfl
  | receives hp hc hq =>
    rw [hq]
    exact List.append_nil _
  | completes hl hcls hpend hc hq => exact List.append_nil _
  | closes hl hwhy =>
    show s.q ++ [] = (s.q.map fun msg => (msg, Fate.discarded)).map Prod.fst ++ []
    rw [List.map_map]
    simp [Function.comp_def]
  | defers hl hcls => exact List.append_nil _
  | resets hl => exact List.append_nil _

/-- **The books balance over a run**: what was accepted has met its fate, or is still queued. -/
theorem books {es : List (QueueEvent ι)} (h : Runs.Trace (EventStep c) s es s') :
    s.q ++ accepted es = (fates es).map Prod.fst ++ s'.q := by
  unfold accepted fates
  induction h with
  | nil => exact List.append_nil _
  | cons hst _ ih =>
    rw [List.flatMap_cons, List.flatMap_cons, List.map_append, ← List.append_assoc,
      hst.effect.books, List.append_assoc, ih, List.append_assoc]

/-! ## Who waits, and for what -/

/-- What a run relies on: every parked thread is in the call it has made, and no length is
more than an `int` can tell. -/
structure RunInv (c : QueueConfig) (s : WaitQueue ι) (es : List (QueueEvent ι)) : Prop where
  calls : ∀ t, waitsFor s.parked t = openCall t es
  queued : ∀ msg ∈ s.q, msg.length < 2 ^ 31
  waiting : Everyone (fun _ p => ∀ buf hwm, p.call = .send buf hwm →
    (buf.take c.sendBuflen).length < 2 ^ 31) s.parked

omit [DecidableEq ι] in
theorem Pending.thread {t : ι} {call : Call} {deadline : Bool} (hp : Pending s l t call deadline) :
    l.thread = some t := by
  cases hp with
  | send => rfl
  | recv => rfl
  | resume h => rfl

/-- The call that goes on is the one its thread has made. -/
theorem Pending.inCall {t : ι} {call : Call} {deadline : Bool} {es : List (QueueEvent ι)}
    (hp : Pending s l t call deadline) (hs : s.RunInv c es) : InCall es l t call := by
  refine ⟨hp.thread, ?_⟩
  cases hp with
  | send => rfl
  | recv => rfl
  | @resume t p timedOut stale h =>
    show openCall t es = some p.call
    rw [← hs.calls t, waitsFor, h]
    rfl

/-- What is sent has a length an `int` can tell. -/
theorem Pending.length_lt {t : ι} {call : Call} {deadline : Bool} {es : List (QueueEvent ι)}
    (hp : Pending s l t call deadline) (hen : s.Enabled c l) (hs : s.RunInv c es) {buf : List U8}
    {hwm : ℤ} (hcall : call = .send buf hwm) : (buf.take c.sendBuflen).length < 2 ^ 31 := by
  cases hp with
  | send =>
    cases hcall
    exact hen.2
  | recv => cases hcall
  | resume h => exact hs.waiting _ _ h buf hwm hcall

/-- Only the thread of a label can have another call afterwards. -/
theorem calls_of_leave {es : List (QueueEvent ι)} {t : ι} (hl : l.thread = some t)
    (ho : o ≠ .waits) (hs : s.RunInv c es) {w : Parking ι Call}
    (hw : ∀ u, waitsFor w u = waitsFor (leave s.parked t) u) (u : ι) :
    waitsFor w u = openCall u (es ++ [(l, o)]) := by
  rw [hw, waitsFor_leave, openCall_append]
  by_cases hu : u = t
  · subst hu
    rw [if_pos rfl, if_pos hl, if_neg ho]
  · have hne : l.thread ≠ some u := by
      rw [hl]
      simpa using Ne.symm hu
    rw [if_neg hu, if_neg hne, hs.calls u]

/-- A critical section of no thread leaves all calls alone. -/
theorem calls_of_no_thread {es : List (QueueEvent ι)} (hl : l.thread = none) (hs : s.RunInv c es)
    {w : Parking ι Call} (hw : ∀ u, waitsFor w u = waitsFor s.parked u) (u : ι) :
    waitsFor w u = openCall u (es ++ [(l, o)]) := by
  have hne : l.thread ≠ some u := by
    rw [hl]
    exact fun h => by cases h
  rw [hw, openCall_append, if_neg hne, hs.calls u]

theorem Effect.calls {es : List (QueueEvent ι)} (h : Effect c s l s' o) (hs : s.RunInv c es)
    (u : ι) : waitsFor s'.parked u = openCall u (es ++ [(l, o)]) := by
  cases h with
  | @parks t call deadline hp hsleep ht hm =>
    show waitsFor (park s.parked t call deadline) u = _
    rw [waitsFor_park, openCall_append]
    by_cases hu : u = t
    · subst hu
      rw [if_pos rfl, if_pos hp.thread, if_pos rfl]
      exact (hp.inCall hs).2.symm
    · have hne : l.thread ≠ some u := by
        rw [hp.thread]
        simpa using Ne.symm hu
      rw [if_neg hu, if_neg hne, hs.calls u]
  | fails hp => exact calls_of_leave hp.thread (by simp) hs (fun _ => rfl) u
  | @nothing t buf timeout hl =>
    exact calls_of_leave (t := t) (by rw [hl]; rfl) (by simp) hs (fun _ => rfl) u
  | sends hp hc hroom =>
    exact calls_of_leave hp.thread (by simp) hs (fun _ => waitsFor_notifyAll) u
  | receives hp hc hq =>
    exact calls_of_leave hp.thread (by simp) hs (fun _ => waitsFor_notifyAll) u
  | @completes t len timeout stale hl hcls hpend hc hq =>
    exact calls_of_leave (t := t) (by rw [hl]; rfl) (by simp) hs (fun _ => rfl) u
  | closes hl hwhy =>
    refine calls_of_no_thread (by rw [hl]; rfl) hs (fun _ => ?_) u
    exact waitsFor_notifyAll.trans waitsFor_notifyAll
  | defers hl hcls => exact calls_of_no_thread (by rw [hl]; rfl) hs (fun _ => rfl) u
  | resets hl => exact calls_of_no_thread (by rw [hl]; rfl) hs (fun _ => rfl) u

theorem EventStep.runInv {es : List (QueueEvent ι)} {e : QueueEvent ι} (h : EventStep c s e s')
    (hs : s.RunInv c es) : s'.RunInv c (es ++ [e]) := by
  have he := h.effect
  obtain ⟨hen, -⟩ := h
  obtain ⟨l, o⟩ := e
  dsimp only at he hen
  refine ⟨he.calls hs, ?_, ?_⟩
  · cases he with
    | @sends t buf hwm deadline hp hc hroom =>
      intro msg hmsg
      rcases List.mem_append.mp hmsg with hold | hnew
      · exact hs.queued msg hold
      · rw [List.mem_singleton.mp hnew]
        exact hp.length_lt hen hs rfl
    | @receives t len deadline el rest hp hc hq =>
      intro msg hmsg
      apply hs.queued msg
      rw [hq]
      exact List.mem_cons_of_mem _ hmsg
    | closes hl hwhy => exact fun _ hmsg => by cases hmsg
    | parks hp hsleep ht hm => exact hs.queued
    | fails hp => exact hs.queued
    | nothing hl => exact hs.queued
    | completes hl hcls hpend hc hq => exact hs.queued
    | defers hl hcls => exact hs.queued
    | resets hl => exact hs.queued
  · cases he with
    | parks hp hsleep ht hm =>
      exact hs.waiting.park _ fun _ _ hcall => hp.length_lt hen hs hcall
    | sends hp hc hroom => exact (hs.waiting.leave _).notifyAll _ fun _ _ _ hf => hf
    | receives hp hc hq => exact (hs.waiting.leave _).notifyAll _ fun _ _ _ hf => hf
    | closes hl hwhy =>
      exact (hs.waiting.notifyAll _ fun _ _ _ hf => hf).notifyAll _ fun _ _ _ hf => hf
    | fails hp => exact hs.waiting.leave _
    | nothing hl => exact hs.waiting.leave _
    | completes hl hcls hpend hc hq => exact hs.waiting.leave _
    | defers hl hcls => exact hs.waiting
    | resets hl => exact hs.waiting

theorem runInv {es : List (QueueEvent ι)} (h : Runs.Trace (EventStep c) init es s) :
    s.RunInv c es := by
  refine Runs.Trace.invariant (I := RunInv c) ?_ (fun _ _ _ _ hs hst => hst.runInv hs) h
  exact ⟨fun _ => rfl, fun _ hmsg => (by cases hmsg), everyone_nobody⟩

theorem toInt_of_lt {n : ℕ} (h : n < 2 ^ 31) : toInt n = n := by
  unfold toInt
  rw [BitVec.toInt_ofNat']
  apply Int.bmod_eq_of_le
  · omega
  · omega

/-- **Every event is what its call asks for.** -/
theorem EventStep.asCalled {es : List (QueueEvent ι)} {e : QueueEvent ι} (h : EventStep c s e s')
    (hs : s.RunInv c es) : AsCalled c es e := by
  have he := h.effect
  obtain ⟨hen, -⟩ := h
  obtain ⟨l, o⟩ := e
  dsimp only at he hen
  cases he with
  | @sends t buf hwm deadline hp hc hroom =>
    refine ⟨t, buf, hwm, hp.inCall hs, ?_, toInt_of_lt (hp.length_lt hen hs rfl)⟩
    rw [min_comm, ← List.take_take, List.take_length]
  | @receives t len deadline el rest hp hc hq =>
    refine ⟨t, len, hp.inCall hs, rfl, toInt_of_lt ?_⟩
    have hlen : el.length < 2 ^ 31 := hs.queued el (by rw [hq]; exact List.mem_cons_self)
    exact lt_of_le_of_lt (List.length_take_le' _ _) hlen
  | @closes immediately pending hl hwhy =>
    intro hne
    refine ⟨immediately, hl, ?_⟩
    rcases hwhy with hcls | himm | hq
    · exact .inl hcls
    · exact .inr himm
    · exact absurd hq hne
  | parks hp hsleep ht hm => trivial
  | fails hp => trivial
  | nothing hl => trivial
  | completes hl hcls hpend hc hq => trivial
  | defers hl hcls => trivial
  | resets hl => trivial

end WaitQueue

open WaitQueue

/-- **Messages are delivered in order, and once.**  Over any run of critical sections the
messages accepted are those that have met their fate, in the same order, and those still
queued; the messages received are those whose fate it was to be delivered.  Every event
is what its call asks for.  And a close keeps sessions apart: when messages are
discarded, everything accepted before has met its fate, and what is received later has
been accepted later. -/
theorem delivered_in_order [DecidableEq ι] (c : QueueConfig) (es : List (QueueEvent ι))
    (s : WaitQueue ι) (h : Runs.Trace (EventStep c) init es s) :
    accepted es = (fates es).map Prod.fst ++ s.q ∧
      received es = ((fates es).filter fun f => f.2 = .delivered).map Prod.fst ∧
      (∀ es₁ e es₂, es = es₁ ++ e :: es₂ → AsCalled c es₁ e) ∧
      ∀ es₁ l msgs es₂, es = es₁ ++ (l, .discards msgs) :: es₂ →
        accepted es₁ = (fates es₁).map Prod.fst ++ msgs ∧
          accepted es₂ = (fates es₂).map Prod.fst ++ s.q := by
  refine ⟨books h, received_eq_delivered es, ?_, ?_⟩
  · rintro es₁ e es₂ rfl
    obtain ⟨s₁, h₁, h₂⟩ := Runs.Trace.append_iff.mp h
    cases h₂ with
    | cons hst _ => exact hst.asCalled (runInv h₁)
  · rintro es₁ l msgs es₂ rfl
    obtain ⟨s₁, h₁, h₂⟩ := Runs.Trace.append_iff.mp h
    cases h₂ with
    | @cons _ s₂ _ _ _ hst hrest =>
      have he := hst.effect
      dsimp only at he
      generalize hdiscards : Outcome.discards msgs = o at he
      cases he with
      | closes hl hwhy =>
        cases hdiscards
        exact ⟨books h₁, books hrest⟩
      | parks hp hsleep ht hm => cases hdiscards
      | fails hp => cases hdiscards
      | nothing hl => cases hdiscards
      | sends hp hc hroom => cases hdiscards
      | receives hp hc hq => cases hdiscards
      | completes hl hcls hpend hc hq => cases hdiscards
      | defers hl hcls => cases hdiscards
      | resets hl => cases hdiscards

/-- A reader waits with room for two bytes of the three that are sent to it, the next message is
discarded when the queue is closed, and one is sent in the session after that. -/
theorem delivered_in_order_two_sessions :
    let c : QueueConfig := ⟨.queue, 999⟩
    let es : List (QueueEvent ℕ) :=
      [(.recv 0 2 (-1) 0, .waits), (.send 1 [1, 2, 3] (-1) (-1), .sent [1, 2, 3] 3),
        (.send 1 [4] (-1) (-1), .sent [4] 1), (.resume 0 false 3, .received [1, 2, 3] [1, 2] 2),
        (.close true, .discards [[4]]), (.reset, .done), (.send 1 [5] (-1) (-1), .sent [5] 1)]
    let s := exec c init (es.map Prod.fst)
    accepted es = (fates es).map Prod.fst ++ s.q ∧
      received es = ((fates es).filter fun f => f.2 = .delivered).map Prod.fst ∧
      (∀ es₁ e es₂, es = es₁ ++ e :: es₂ → AsCalled c es₁ e) ∧
      ∀ es₁ l msgs es₂, es = es₁ ++ (l, .discards msgs) :: es₂ →
        accepted es₁ = (fates es₁).map Prod.fst ++ msgs ∧
          accepted es₂ = (fates es₂).map Prod.fst ++ s.q :=
  delivered_in_order ⟨.queue, 999⟩ _ _
    (.cons ⟨by decide, rfl⟩ (.cons ⟨by decide, rfl⟩ (.cons ⟨by decide, rfl⟩
      (.cons ⟨by decide, rfl⟩ (.cons ⟨by decide, rfl⟩ (.cons ⟨by decide, rfl⟩
        (.cons ⟨by decide, rfl⟩ .nil)))))))

end PacketForwarder
