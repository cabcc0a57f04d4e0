import PacketForwarder.Comms

/-!
# The size of what is buffered

`size` is kept apart from the queue.  `Queue::recv` reads the size of the message it
has removed through a reference to the element that `q.pop()` has just destroyed;
what this gives is no longer the queue's business.

* `SizeOk` — `size` is what the queued messages add up to, and a closed queue is empty;
* `ReadsFormerSize` — the destroyed message still tells its size;
* `size_is_buffered` — under this condition every critical section keeps `SizeOk`, and
  high-water marks bound what is buffered.
-/

namespace PacketForwarder

/-- The bytes of the queued messages. -/
def buffered (q : List Message) : ℕ := (q.map List.length).sum

@[simp] theorem buffered_nil : buffered [] = 0 := rfl

@[simp] theorem buffered_cons (el : Message) (rest : List Message) :
    buffered (el :: rest) = el.length + buffered rest := by
  unfold buffered
  rw [List.map_cons, List.sum_cons]

@[simp] theorem buffered_append (q q' : List Message) :
    buffered (q ++ q') = buffered q + buffered q' := by
  unfold buffered
  rw [List.map_append, List.sum_append]

namespace WaitQueue

open Monitor

variable {ι : Type*} [DecidableEq ι] {c : QueueConfig} {s s' : WaitQueue ι} {l : QueueLabel ι}
  {o : Outcome}

/-- `size` and `closed` agree with the queue. -/
structure SizeOk (s : WaitQueue ι) : Prop where
  size : s.size = buffered s.q
  closed : s.closed = true → s.q = []

/-- The size of a message that `q.pop()` destroys is read unchanged. -/
def ReadsFormerSize (s : WaitQueue ι) : QueueLabel ι → Prop
  | .recv _ _ _ stale | .resume _ _ stale => ∀ el ∈ s.q.head?, stale = el.length
  | .send _ _ _ _ | .close _ | .reset => True

omit [DecidableEq ι] in
theorem sizeOk_init : SizeOk (init : WaitQueue ι) := ⟨rfl, fun _ => rfl⟩

/-- A receive leaves the right size exactly if it has read the right size. -/
theorem sizeOk_pop_iff {el : Message} {rest : List Message} (hs : s.SizeOk) (hc : s.closed = false)
    (hq : s.q = el :: rest) (t : ι) (len stale : ℕ) :
    ({ s with parked := leave s.parked t }.pop el rest len stale).1.SizeOk ↔ stale = el.length := by
  have hsize := hs.size
  rw [hq, buffered_cons] at hsize
  constructor
  · intro h
    have hafter : s.size - stale = buffered rest := h.size
    omega
  · intro h
    refine ⟨?_, fun hclosed => ?_⟩
    · show s.size - stale = buffered rest
      omega
    · have hopen : s.closed = true := hclosed
      rw [hc] at hopen
      cases hopen

omit [DecidableEq ι] in
theorem Pending.stale_eq {t : ι} {call : Call} {deadline : Bool} {el : Message}
    {rest : List Message} (hp : Pending s l t call deadline) (hcall : recvCv call = true)
    (hok : s.ReadsFormerSize l) (hq : s.q = el :: rest) : l.stale = el.length := by
  have hhead : el ∈ s.q.head? := by
    rw [hq]
    rfl
  cases hp with
  | send => cases hcall
  | recv => exact hok el hhead
  | resume hpark => exact hok el hhead

/-- **Every critical section keeps the books**, if it reads the right size. -/
theorem Effect.sizeOk (h : Effect c s l s' o) (hok : s.ReadsFormerSize l) (hs : s.SizeOk) :
    s'.SizeOk := by
  cases h with
  | parks hp hsleep ht hm => exact ⟨hs.size, hs.closed⟩
  | fails hp => exact ⟨hs.size, hs.closed⟩
  | nothing hl => exact ⟨hs.size, hs.closed⟩
  | @sends t buf hwm deadline hp hc hroom =>
    refine ⟨?_, fun hclosed => ?_⟩
    · show s.size + (buf.take c.sendBuflen).length = buffered (s.q ++ [buf.take c.sendBuflen])
      rw [hs.size, buffered_append, buffered_cons, buffered_nil]
      omega
    · have hopen : s.closed = true := hclosed
      rw [hc] at hopen
      cases hopen
  | @receives t len deadline el rest hp hc hq =>
    rw [sizeOk_pop_iff hs hc hq]
    exact hp.stale_eq rfl hok hq
  | completes hl hcls hpend hc hq => exact ⟨hs.size, fun _ => hq⟩
  | closes hl hwhy => exact ⟨rfl, fun _ => rfl⟩
  | defers hl hcls => exact ⟨hs.size, hs.closed⟩
  | resets hl => exact ⟨hs.size, fun h => by cases h⟩

theorem ReachableBy.sizeOk {ok : WaitQueue ι → QueueLabel ι → Prop} (h : ReachableBy c ok s)
    (hok : ∀ s l, ok s l → s.ReadsFormerSize l) : s.SizeOk := by
  refine Runs.Reaches.invariant (I := SizeOk) sizeOk_init ?_ h
  intro s l s' _ hs hl hstep
  obtain ⟨o, he⟩ := hstep.effect
  exact he.sizeOk (hok s l hl) hs

/-! ## High-water marks -/

/-- Every send has a high-water mark between 1 and `H`. -/
def HwmWithin (H : ℤ) : QueueLabel ι → Prop
  | .send _ _ hwm _ => 1 ≤ hwm ∧ hwm ≤ H
  | _ => True

/-- A sender that waits has such a mark. -/
def MarkWithin (H : ℤ) : Call → Prop
  | .send _ hwm => 1 ≤ hwm ∧ hwm ≤ H
  | .recv _ => True

/-- What is buffered, and what those who wait will let be buffered, is bounded. -/
structure Bounded (c : QueueConfig) (H : ℤ) (s : WaitQueue ι) : Prop where
  size : s.size < H + c.sendBuflen
  marks : Everyone (fun _ p => MarkWithin H p.call) s.parked

omit [DecidableEq ι] in
theorem Pending.markWithin {t : ι} {call : Call} {deadline : Bool} {H : ℤ}
    (hp : Pending s l t call deadline) (hl : HwmWithin H l)
    (hs : Everyone (fun _ p => MarkWithin H p.call) s.parked) : MarkWithin H call := by
  cases hp with
  | send => exact hl
  | recv => trivial
  | resume h => exact hs _ _ h

theorem Effect.bounded {H : ℤ} (h : Effect c s l s' o) (hH : 1 ≤ H) (hl : HwmWithin H l)
    (hs : s.Bounded c H) : s'.Bounded c H := by
  cases h with
  | parks hp hsleep ht hm => exact ⟨hs.size, hs.marks.park _ (hp.markWithin hl hs.marks)⟩
  | fails hp => exact ⟨hs.size, hs.marks.leave _⟩
  | nothing hl' => exact ⟨hs.size, hs.marks.leave _⟩
  | @sends t buf hwm deadline hp hc hroom =>
    obtain ⟨hlow, hhigh⟩ : 1 ≤ hwm ∧ hwm ≤ H := hp.markWithin hl hs.marks
    have hsize : s.size < hwm := hroom (by omega)
    refine ⟨?_, (hs.marks.leave _).notifyAll _ fun _ _ _ hm => hm⟩
    show s.size + (buf.take c.sendBuflen).length < H + c.sendBuflen
    have hlen := List.length_take_le c.sendBuflen buf
    omega
  | @receives t len deadline el rest hp hc hq =>
    refine ⟨?_, (hs.marks.leave _).notifyAll _ fun _ _ _ hm => hm⟩
    show s.size - l.stale < H + c.sendBuflen
    have hsize := hs.size
    omega
  | completes hl' hcls hpend hc hq => exact ⟨hs.size, hs.marks.leave _⟩
  | closes hl' hwhy =>
    refine ⟨?_, (hs.marks.notifyAll _ fun _ _ _ hm => hm).notifyAll _ fun _ _ _ hm => hm⟩
    show (0 : ℤ) < H + c.sendBuflen
    omega
  | defers hl' hcls => exact ⟨hs.size, hs.marks⟩
  | resets hl' => exact ⟨hs.size, hs.marks⟩

/-! ## Refused sends -/

/-- A send that fails or has the high-water mark 0 changes nothing. -/
theorem step_of_refused {t : ι} {buf : List U8} {hwm : ℤ} {deadline : Bool}
    (hen : s.Enabled c l) (hp : Pending s l t (.send buf hwm) deadline)
    (ho : (s.step c l).2 = .nothing ∨ ∃ errno, (s.step c l).2 = .fails errno) :
    (s.step c l).1 = { s with parked := leave s.parked t } := by
  have he := step_effect hen
  generalize s.step c l = r at he ho
  obtain ⟨s', o⟩ := r
  dsimp only at he ho ⊢
  cases he with
  | fails hp' =>
    obtain ⟨rfl, -, -⟩ := hp.unique hp'
    rfl
  | nothing hl =>
    subst hl
    cases hp
    rfl
  | completes hl hcls hpend hc hq =>
    subst hl
    cases hp
  | parks hp' hsleep ht hm => simp at ho
  | sends hp' hc hroom => simp at ho
  | receives hp' hc hq => simp at ho
  | closes hl hwhy => simp at ho
  | defers hl hcls => simp at ho
  | resets hl => simp at ho

end WaitQueue

namespace WaitQueue

variable {ι : Type*} [DecidableEq ι] {c : QueueConfig} {s : WaitQueue ι} {l : QueueLabel ι}

instance (s : WaitQueue ι) (l : QueueLabel ι) : Decidable (s.ReadsFormerSize l) :=
  match l with
  | .recv _ _ _ stale => inferInstanceAs (Decidable (∀ el ∈ s.q.head?, stale = el.length))
  | .resume _ _ stale => inferInstanceAs (Decidable (∀ el ∈ s.q.head?, stale = el.length))
  | .send _ _ _ _ | .close _ | .reset => inferInstanceAs (Decidable True)

/-- A receive keeps the books exactly if it reads the right size. -/
theorem sizeOk_of_received_iff (hs : s.SizeOk) (hen : s.Enabled c l) {msg : Message}
    {bytes : List U8} {ret : ℤ} (ho : (s.step c l).2 = .received msg bytes ret) :
    (s.step c l).1.SizeOk ↔ l.stale = msg.length := by
  have he := step_effect hen
  generalize s.step c l = r at he ho ⊢
  obtain ⟨s', o⟩ := r
  dsimp only at he ho ⊢
  cases he with
  | @receives t len deadline el rest hp hc hq =>
    have hmsg : el = msg := (Outcome.received.inj ho).1
    rw [sizeOk_pop_iff hs hc hq, hmsg]
  | parks hp hsleep ht hm => cases ho
  | fails hp => cases ho
  | nothing hl => cases ho
  | sends hp hc hroom => cases ho
  | completes hl hcls hpend hc hq => cases ho
  | closes hl hwhy => cases ho
  | defers hl hcls => cases ho
  | resets hl => cases ho

theorem ReachableBy.bounded {H : ℤ} (hH : 1 ≤ H) {ok : WaitQueue ι → QueueLabel ι → Prop}
    (h : ReachableBy c ok s) (hok : ∀ s l, ok s l → HwmWithin H l) : s.Bounded c H := by
  have hinit : Bounded c H (init : WaitQueue ι) := by
    refine ⟨?_, Monitor.everyone_nobody⟩
    show (0 : ℤ) < H + c.sendBuflen
    omega
  refine Runs.Reaches.invariant (I := Bounded c H) hinit ?_ h
  intro s l s' _ hs hl hstep
  obtain ⟨o, he⟩ := hstep.effect
  exact he.bounded hH (hok s l hl) hs

end WaitQueue

open WaitQueue

/-- **When `size` is the size.**  As long as a message that `q.pop()` has destroyed still
tells its size, `size` is what the queued messages add up to, a closed queue is empty, and
high-water marks up to `H` keep `size` below `H + send_buflen`, however many senders
wait; a receive that reads another size breaks this at once.  A send that is refused
changes nothing but that its thread is no longer parked. -/
theorem size_is_buffered {ι : Type*} [DecidableEq ι] (c : QueueConfig) :
    (∀ s : WaitQueue ι, WaitQueue.ReachableBy c ReadsFormerSize s →
      s.size = buffered s.q ∧ (s.closed = true → s.q = [] ∧ s.size = 0)) ∧
    (∀ (H : ℤ) (s : WaitQueue ι), 1 ≤ H →
      WaitQueue.ReachableBy c (fun _ l => HwmWithin H l) s → s.size < H + c.sendBuflen) ∧
    (∀ (s : WaitQueue ι) l msg bytes ret, WaitQueue.ReachableBy c ReadsFormerSize s →
      s.Enabled c l → (s.step c l).2 = .received msg bytes ret →
      ((s.step c l).1.SizeOk ↔ l.stale = msg.length)) ∧
    ∀ (s : WaitQueue ι) l t buf hwm deadline, s.Enabled c l →
      Pending s l t (.send buf hwm) deadline →
      ((s.step c l).2 = .nothing ∨ ∃ errno, (s.step c l).2 = .fails errno) →
      (s.step c l).1 = { s with parked := Monitor.leave s.parked t } := by
  refine ⟨?_, ?_, ?_, ?_⟩
  · intro s h
    have hs : s.SizeOk := h.sizeOk fun _ _ hok => hok
    refine ⟨hs.size, fun hc => ?_⟩
    have hq : s.q = [] := hs.closed hc
    refine ⟨hq, ?_⟩
    rw [hs.size, hq]
    rfl
  · intro H s hH h
    exact (h.bounded hH fun _ _ hok => hok).size
  · intro s l msg bytes ret h hen ho
    exact sizeOk_of_received_iff (h.sizeOk fun _ _ hok => hok) hen ho
  · intro s l t buf hwm deadline hen hp ho
    exact step_of_refused hen hp ho

/-- Three bytes are sent, two of them received. -/
theorem size_is_buffered_three_bytes :
    let s := exec ⟨.queue, 999⟩ (init : WaitQueue ℕ)
      [.send 0 [1, 2, 3] 1 (-1), .recv 1 2 (-1) 3]
    s.size = buffered s.q ∧ (s.closed = true → s.q = [] ∧ s.size = 0) :=
  (size_is_buffered ⟨.queue, 999⟩).1 _ (reachableBy_exec (by decide))

/-- One byte is sent and received, and the destroyed message seems empty: the queue is
empty and `size` is 1. -/
theorem size_is_not_buffered :
    ¬∀ s : WaitQueue ℕ, WaitQueue.ReachableBy ⟨.queue, 999⟩ Runs.anyStep s →
      s.size = buffered s.q := by
  intro h
  have hrun := h (exec ⟨.queue, 999⟩ init [.send 0 [1] (-1) (-1), .recv 1 10 (-1) 0])
    (.next (.next .start trivial ⟨by decide, rfl⟩) trivial ⟨by decide, rfl⟩)
  exact absurd hrun (by decide)

end PacketForwarder
