import Mathlib

/-!
# Threads parked in a monitor

A monitor is a lock with condition variables.  A thread that finds its condition
false parks: it gives the lock back and sleeps until it is notified, until its
deadline passes, or spuriously; it then has to take the lock again and to test its
condition once more.

* `Parked`, `Parking` — who is parked, what for, with or without a deadline, and
  whether a notification is already under way;
* `park`, `leave`, `notifyAll` — what a critical section does to them;
* `Justified` — every thread without a notification has a reason to sleep.  The
  lemmas about it are the rules by which a monitor is shown to lose no wake-up: a
  thread may park for a reason, and whoever takes a reason away must notify.
-/

namespace Monitor

variable {ι κ : Type*}

/-- A parked thread waits until it is notified or its deadline has passed. -/
structure Parked (κ : Type*) where
  /-- The call that the thread goes on with when it has the lock again. -/
  call : κ
  /-- It does not wait for ever. -/
  deadline : Bool
  /-- It has been notified, but has not had the lock since. -/
  notified : Bool
  deriving DecidableEq

/-- The threads that are parked, each with what it waits for. -/
abbrev Parking (ι κ : Type*) := ι → Option (Parked κ)

/-- A monitor in which nobody is parked. -/
def nobody : Parking ι κ := fun _ => none

/-- Thread `t` parks, or parks again. -/
def park [DecidableEq ι] (w : Parking ι κ) (t : ι) (call : κ) (deadline : Bool) : Parking ι κ :=
  Function.update w t (some ⟨call, deadline, false⟩)

/-- Thread `t` goes on, and is parked no more. -/
def leave [DecidableEq ι] (w : Parking ι κ) (t : ι) : Parking ι κ := Function.update w t none

/-- Notify every thread parked on a condition variable. -/
def notifyAll (cv : κ → Bool) (w : Parking ι κ) : Parking ι κ :=
  fun t => (w t).map fun p => { p with notified := p.notified || cv p.call }

/-! ## Who is parked afterwards -/

section Frame

variable {w : Parking ι κ} {t u : ι} {call : κ} {deadline : Bool} {cv : κ → Bool} {p : Parked κ}

theorem park_apply [DecidableEq ι] :
    park w t call deadline u = if u = t then some ⟨call, deadline, false⟩ else w u := by
  unfold park
  rw [Function.update_apply]

theorem leave_apply [DecidableEq ι] : leave w t u = if u = t then none else w u := by
  unfold leave
  rw [Function.update_apply]

/-- A thread that is not parked has nothing to leave. -/
theorem leave_eq_self [DecidableEq ι] (h : w t = none) : leave w t = w := by
  unfold leave
  rw [← h, Function.update_eq_self]

/-- What a parked thread waits for. -/
def waitsFor (w : Parking ι κ) (t : ι) : Option κ := (w t).map Parked.call

theorem waitsFor_park [DecidableEq ι] :
    waitsFor (park w t call deadline) u = if u = t then some call else waitsFor w u := by
  unfold waitsFor
  rw [park_apply, apply_ite (Option.map Parked.call)]
  rfl

theorem waitsFor_leave [DecidableEq ι] :
    waitsFor (leave w t) u = if u = t then none else waitsFor w u := by
  unfold waitsFor
  rw [leave_apply, apply_ite (Option.map Parked.call)]
  rfl

@[simp] theorem waitsFor_notifyAll : waitsFor (notifyAll cv w) t = waitsFor w t := by
  unfold waitsFor notifyAll
  rw [Option.map_map]
  rfl

/-- A notification changes neither what a thread waits for nor its deadline. -/
theorem exists_of_notifyAll (h : notifyAll cv w t = some p) :
    ∃ p₀, w t = some p₀ ∧ p₀.call = p.call ∧ p₀.deadline = p.deadline ∧
      p.notified = (p₀.notified || cv p₀.call) := by
  obtain ⟨p₀, hw, rfl⟩ := Option.map_eq_some_iff.mp h
  exact ⟨p₀, hw, rfl, rfl, rfl⟩

end Frame

/-! ## Reasons to sleep -/

/-- Every parked thread without a notification has a reason to sleep. -/
def Justified (reason : κ → Prop) (w : Parking ι κ) : Prop :=
  ∀ t p, w t = some p → p.notified = false → reason p.call

/-- Every parked thread is as described. -/
def Everyone (good : ι → Parked κ → Prop) (w : Parking ι κ) : Prop :=
  ∀ t p, w t = some p → good t p

section Rules

variable {reason reason' : κ → Prop} {w : Parking ι κ}

theorem justified_nobody : Justified reason (nobody : Parking ι κ) :=
  fun _ _ h => by cases h

/-- Reasons may be replaced by weaker ones. -/
theorem Justified.mono (h : Justified reason w) (hr : ∀ k, reason k → reason' k) :
    Justified reason' w :=
  fun t p hp hn => hr _ (h t p hp hn)

/-- Who has a reason may park. -/
theorem Justified.park [DecidableEq ι] (h : Justified reason w) (t : ι) {call : κ}
    (deadline : Bool) (hr : reason call) : Justified reason (park w t call deadline) := by
  intro u p hp hn
  rw [park_apply] at hp
  split at hp
  · cases hp
    exact hr
  · exact h u p hp hn

theorem Justified.leave [DecidableEq ι] (h : Justified reason w) (t : ι) :
    Justified reason (leave w t) := by
  intro u p hp hn
  rw [leave_apply] at hp
  split at hp
  · cases hp
  · exact h u p hp hn

/-- **Who takes reasons away must notify.**  Reasons have to survive only for the
threads that are not notified. -/
theorem Justified.notifyAll {cv : κ → Bool} (h : Justified reason w)
    (hr : ∀ k, cv k = false → reason k → reason' k) : Justified reason' (notifyAll cv w) := by
  intro t p hp hn
  obtain ⟨p₀, hw, hcall, -, hnot⟩ := exists_of_notifyAll hp
  rw [hn] at hnot
  obtain ⟨hn₀, hcv⟩ := Bool.or_eq_false_iff.mp hnot.symm
  rw [← hcall]
  exact hr _ hcv (h t p₀ hw hn₀)

variable {good : ι → Parked κ → Prop}

theorem everyone_nobody : Everyone good (nobody : Parking ι κ) :=
  fun _ _ h => by cases h

theorem Everyone.park [DecidableEq ι] (h : Everyone good w) (t : ι) {call : κ} {deadline : Bool}
    (hp : good t ⟨call, deadline, false⟩) : Everyone good (park w t call deadline) := by
  intro u p hu
  rw [park_apply] at hu
  split at hu
  · rename_i heq
    cases hu
    rw [heq]
    exact hp
  · exact h u p hu

theorem Everyone.leave [DecidableEq ι] (h : Everyone good w) (t : ι) :
    Everyone good (leave w t) := by
  intro u p hu
  rw [leave_apply] at hu
  split at hu
  · cases hu
  · exact h u p hu

theorem Everyone.notifyAll (cv : κ → Bool) (h : Everyone good w)
    (hn : ∀ t p b, good t p → good t { p with notified := b }) :
    Everyone good (notifyAll cv w) := by
  intro t p hp
  obtain ⟨p₀, hw, rfl⟩ := Option.map_eq_some_iff.mp hp
  exact hn _ _ _ (h t p₀ hw)

end Rules

end Monitor
