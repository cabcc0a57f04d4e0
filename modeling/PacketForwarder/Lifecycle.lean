import PacketForwarder.Lib.Runs

/-!
# From `start()` to its return

`start()` runs `main`, which sets everything up, spawns its threads, and joins them
once it has been told to stop.  `exit` is compiled to `mem_exit`, which throws an
exception that `start()` catches: whatever `main` had still to do is skipped.

* `MainPc`, `Lifecycle.call` — `main`, from one call that may fail to the next;
* `Lifecycle.called_call` — what a call can do, from which all invariants follow;
* `Lifecycle.Step` — `main` and the ends of the threads, in any order;
* `SpawnsAllOrNone` — no `pthread_create` fails once a thread has been created;
* `returns_after_threads` — under this condition no thread is left when `start()`
  returns; a failure that does not respect it can leave one running.
-/

namespace PacketForwarder

/-! ## `main` -/

/-- The links, one for each socket. -/
inductive CommLink
  | uplink
  | downlink
  deriving DecidableEq

instance : Fintype CommLink where
  elems := {.uplink, .downlink}
  complete link := by cases link <;> decide

/-- The threads that `main` spawns, each with a rank in that order. -/
inductive Worker
  | up
  | down
  | jit
  | timersync
  | gps
  | valid
  deriving DecidableEq

namespace Worker

instance : Fintype Worker where
  elems := {up, down, jit, timersync, gps, valid}
  complete w := by cases w <;> decide

/-- The order in which `main` creates and joins the threads. -/
def rank : Worker → ℕ
  | up => 0
  | down => 1
  | jit => 2
  | timersync => 3
  | gps => 4
  | valid => 5

/-- The next thread to be created or joined, if there is one. -/
def next (gpsEnabled : Bool) : Worker → Option Worker
  | up => some down
  | down => some jit
  | jit => some timersync
  | timersync => if gpsEnabled then some gps else none
  | gps => some valid
  | valid => none

end Worker

/-- What one of these threads is doing. -/
inductive WorkerState
  | absent
  | running
  /-- It has returned, or ended in `mem_exit`. -/
  | ended
  deriving DecidableEq

/-- The configuration files: a debug file alone, or a global file and then a local one, or a
local one alone. -/
inductive CfgFile
  | debug
  | global
  | localToo
  | localOnly
  deriving DecidableEq

/-- `EXIT_SUCCESS` and `EXIT_FAILURE`. -/
inductive ExitStatus
  | success
  | failure
  deriving DecidableEq

/-- The calls of `main` that may fail, and where it can be otherwise. -/
inductive MainPc
  | access (file : CfgFile)
  | parseSX1301 (file : CfgFile)
  | parseGateway (file : CfgFile)
  | gpsEnable
  | getaddrinfo (link : CommLink)
  | socket (link : CommLink)
  | connect (link : CommLink)
  | lgwStart
  | create (w : Worker)
  /-- In the loop, with the signal handlers registered. -/
  | loop
  | join (w : Worker)
  | gpsDisable
  | lgwStop
  /-- `mem_exit` has thrown; `start()` is to close the links. -/
  | thrown (status : ExitStatus)
  /-- `start()` has returned. -/
  | returned (status : ExitStatus)
  deriving DecidableEq

/-- How one of the calls that `main` makes can end. -/
inductive CallResult
  | ok
  | fails
  /-- The parsers of the configuration call `exit` if a file is no JSON. -/
  | exits
  deriving DecidableEq

/-- `main` and its threads, during one call of `start()`. -/
structure Lifecycle where
  pc : MainPc
  gpsEnabled : Bool
  workers : Worker → WorkerState

namespace Lifecycle

/-- `start()` is called.  `gps_enabled` keeps its value from one start to the next. -/
def start (gpsEnabled : Bool) : Lifecycle := ⟨.access .debug, gpsEnabled, fun _ => .absent⟩

/-- `exit(EXIT_FAILURE)`. -/
def exitFailure (s : Lifecycle) : Lifecycle := { s with pc := .thrown .failure }

/-- A call without which there is no going on. -/
def goOn (s : Lifecycle) (r : CallResult) (pc : MainPc) : Lifecycle :=
  if r = .ok then { s with pc := pc } else s.exitFailure

/-- After the configuration: GPS, if there is a path for it. -/
def startGps (gpsPath : Bool) (s : Lifecycle) : Lifecycle :=
  { s with pc := if gpsPath then .gpsEnable else .getaddrinfo .uplink }

/-- `main` and `start()`, from the end of one call to the next call. -/
def call (gpsPath : Bool) (s : Lifecycle) (r : CallResult) : Lifecycle :=
  match s.pc with
  | .access .debug =>
    if r = .ok then { s with pc := .parseSX1301 .debug } else { s with pc := .access .global }
  | .access .global =>
    if r = .ok then { s with pc := .parseSX1301 .global } else { s with pc := .access .localOnly }
  | .access .localToo =>
    if r = .ok then { s with pc := .parseSX1301 .localToo } else s.startGps gpsPath
  | .access .localOnly => s.goOn r (.parseSX1301 .localOnly)
  | .parseSX1301 file =>
    -- the result is not checked for a local file that comes after a global one
    if r = .ok ∨ (r = .fails ∧ file = .localToo) then { s with pc := .parseGateway file }
    else s.exitFailure
  | .parseGateway file =>
    if r = .ok ∨ (r = .fails ∧ file = .localToo) then
      if file = .global then { s with pc := .access .localToo } else s.startGps gpsPath
    else s.exitFailure
  | .gpsEnable => { s with gpsEnabled := r = .ok, pc := .getaddrinfo .uplink }
  | .getaddrinfo link => s.goOn r (.socket link)
  | .socket link => s.goOn r (.connect link)
  | .connect .uplink => s.goOn r (.getaddrinfo .downlink)
  | .connect .downlink => s.goOn r .lgwStart
  | .lgwStart => s.goOn r (.create .up)
  | .create w =>
    if r = .ok then
      { s with
        pc := (w.next s.gpsEnabled).elim .loop .create
        workers := Function.update s.workers w .running }
    else s.exitFailure
  | .loop => if r = .ok then { s with pc := .join .up } else s
  | .join w =>
    { s with
      pc := (w.next s.gpsEnabled).elim (if s.gpsEnabled then .gpsDisable else .lgwStop) .join }
  | .gpsDisable => { s with pc := .lgwStop }
  | .lgwStop => { s with pc := .thrown .success }
  | .thrown status => { s with pc := .returned status }
  | .returned _ => s

/-- A thread ends, by itself or in `mem_exit`. -/
def ends (s : Lifecycle) (w : Worker) : Lifecycle :=
  { s with workers := Function.update s.workers w .ended }

end Lifecycle

/-! ## The system -/

/-- A step belongs to `main` or to one of the threads. -/
inductive LifeLabel
  /-- The call `main` is in returns; for the loop, `ok` says that a signal ends it. -/
  | call (r : CallResult)
  | ends (w : Worker)

namespace Lifecycle

/-- The state that a step leads to. -/
def step (gpsPath : Bool) (s : Lifecycle) : LifeLabel → Lifecycle
  | .call r => s.call gpsPath r
  | .ends w => s.ends w

/-- `pthread_join` (and `pthread_cancel`, which is compiled to it) returns when the thread has
ended. -/
def Enabled (s : Lifecycle) : LifeLabel → Prop
  | .call _ => ∀ w, s.pc = .join w → s.workers w = .ended
  | .ends w => s.workers w = .running

/-- The transitions are the steps that can be taken. -/
def Step (gpsPath : Bool) (s : Lifecycle) (l : LifeLabel) (s' : Lifecycle) : Prop :=
  s.Enabled l ∧ s' = s.step gpsPath l

/-- No `pthread_create` fails once a thread has been created. -/
def SpawnsAllOrNone (s : Lifecycle) : LifeLabel → Prop
  | .call r => ∀ w, s.pc = .create w → r ≠ .ok → ∀ w', s.workers w' = .absent
  | .ends _ => True

instance (s : Lifecycle) (l : LifeLabel) : Decidable (s.Enabled l) :=
  match l with
  | .call _ => inferInstanceAs (Decidable (∀ w, s.pc = .join w → s.workers w = .ended))
  | .ends w => inferInstanceAs (Decidable (s.workers w = .running))

instance (s : Lifecycle) (l : LifeLabel) : Decidable (s.SpawnsAllOrNone l) :=
  match l with
  | .call r =>
    inferInstanceAs
      (Decidable (∀ w, s.pc = .create w → r ≠ .ok → ∀ w', s.workers w' = .absent))
  | .ends _ => inferInstanceAs (Decidable True)

/-- The runs whose steps satisfy `ok`. -/
abbrev ReachableBy (gpsPath gpsEnabled : Bool) (ok : Lifecycle → LifeLabel → Prop)
    (s : Lifecycle) : Prop :=
  Runs.Reaches (Step gpsPath) ok (start gpsEnabled) s

end Lifecycle

/-! ## What a call can do -/

/-- The stages of `main`: configuration, GPS, network, the threads, the loop, the joins, the
end, and the exception. -/
def MainPc.stage : MainPc → ℕ
  | .access _ | .parseSX1301 _ | .parseGateway _ => 0
  | .gpsEnable => 1
  | .getaddrinfo _ | .socket _ | .connect _ | .lgwStart => 2
  | .create w => 3 + w.rank
  | .loop => 9
  | .join _ => 10
  | .gpsDisable | .lgwStop => 11
  | .thrown _ => 12
  | .returned _ => 13

/-- Where `main` goes on to, when nothing but its place changes. -/
inductive MainPc.Leads (gpsPath gpsEnabled : Bool) : MainPc → MainPc → Prop
  | configure {pc pc' : MainPc} : pc.stage = 0 → pc'.stage = 0 → Leads gpsPath gpsEnabled pc pc'
  | startGps {pc : MainPc} : pc.stage = 0 → gpsPath = true → Leads gpsPath gpsEnabled pc .gpsEnable
  | skipGps {pc : MainPc} : pc.stage = 0 → gpsPath = false →
      Leads gpsPath gpsEnabled pc (.getaddrinfo .uplink)
  | network {pc pc' : MainPc} : pc.stage = 2 → pc'.stage = 2 → Leads gpsPath gpsEnabled pc pc'
  | spawn : Leads gpsPath gpsEnabled .lgwStart (.create .up)
  | stays : Leads gpsPath gpsEnabled .loop .loop
  | stops : Leads gpsPath gpsEnabled .loop (.join .up)
  | join {w w' : Worker} : w.next gpsEnabled = some w' →
      Leads gpsPath gpsEnabled (.join w) (.join w')
  | joined {w : Worker} {pc' : MainPc} : w.next gpsEnabled = none →
      pc' = .gpsDisable ∨ pc' = .lgwStop → Leads gpsPath gpsEnabled (.join w) pc'
  | gpsDisable : Leads gpsPath gpsEnabled .gpsDisable .lgwStop
  | lgwStop : Leads gpsPath gpsEnabled .lgwStop (.thrown .success)
  | returns {status : ExitStatus} : Leads gpsPath gpsEnabled (.thrown status) (.returned status)
  | returned {status : ExitStatus} : Leads gpsPath gpsEnabled (.returned status) (.returned status)

namespace Lifecycle

/-- What a call of `main` can do. -/
inductive Called (gpsPath : Bool) (s : Lifecycle) : CallResult → Lifecycle → Prop
  | leads {r : CallResult} {pc : MainPc} : s.pc.Leads gpsPath s.gpsEnabled pc →
      Called gpsPath s r { s with pc := pc }
  | gpsEnable {r : CallResult} : s.pc = .gpsEnable →
      Called gpsPath s r { s with gpsEnabled := r = .ok, pc := .getaddrinfo .uplink }
  | create {w : Worker} : s.pc = .create w →
      Called gpsPath s .ok
        { s with
          pc := (w.next s.gpsEnabled).elim .loop .create
          workers := Function.update s.workers w .running }
  | fails {r : CallResult} : r ≠ .ok → s.pc.stage = 0 ∨ s.pc.stage = 2 →
      Called gpsPath s r s.exitFailure
  | createFails {r : CallResult} {w : Worker} : r ≠ .ok → s.pc = .create w →
      Called gpsPath s r s.exitFailure

variable {s : Lifecycle} {gpsPath : Bool}

/-- A call without which there is no going on. -/
theorem called_goOn (r : CallResult) {pc : MainPc} (hstage : s.pc.stage = 0 ∨ s.pc.stage = 2)
    (hleads : s.pc.Leads gpsPath s.gpsEnabled pc) : s.Called gpsPath r (s.goOn r pc) := by
  unfold goOn
  split
  · exact .leads hleads
  · rename_i hr
    exact .fails hr hstage

theorem called_startGps (r : CallResult) (h : s.pc.stage = 0) :
    s.Called gpsPath r (s.startGps gpsPath) := by
  cases hpath : gpsPath with
  | true => exact .leads (.startGps h rfl)
  | false => exact .leads (.skipGps h rfl)

/-- **What a call can do.**  The calls of `main` are looked at here, and nowhere below. -/
theorem called_call (gpsPath : Bool) (s : Lifecycle) (r : CallResult) :
    s.Called gpsPath r (s.call gpsPath r) := by
  obtain ⟨pc, gpsEnabled, workers⟩ := s
  unfold call
  cases pc with
  | access file =>
    cases file with
    | debug =>
      simp only
      split
      · exact .leads (.configure rfl rfl)
      · exact .leads (.configure rfl rfl)
    | global =>
      simp only
      split
      · exact .leads (.configure rfl rfl)
      · exact .leads (.configure rfl rfl)
    | localToo =>
      simp only
      split
      · exact .leads (.configure rfl rfl)
      · exact called_startGps r rfl
    | localOnly => exact called_goOn r (.inl rfl) (.configure rfl rfl)
  | parseSX1301 file =>
    simp only
    split
    · exact .leads (.configure rfl rfl)
    · rename_i hr
      exact .fails (fun hok => hr (.inl hok)) (.inl rfl)
  | parseGateway file =>
    simp only
    split
    · split
      · exact .leads (.configure rfl rfl)
      · exact called_startGps r rfl
    · rename_i hr
      exact .fails (fun hok => hr (.inl hok)) (.inl rfl)
  | gpsEnable => exact .gpsEnable rfl
  | getaddrinfo link => exact called_goOn r (.inr rfl) (.network rfl rfl)
  | socket link => exact called_goOn r (.inr rfl) (.network rfl rfl)
  | connect link =>
    cases link with
    | uplink => exact called_goOn r (.inr rfl) (.network rfl rfl)
    | downlink => exact called_goOn r (.inr rfl) (.network rfl rfl)
  | lgwStart => exact called_goOn r (.inr rfl) .spawn
  | create w =>
    simp only
    split
    · rename_i hr
      rw [hr]
      exact .create rfl
    · rename_i hr
      exact .createFails hr rfl
  | loop =>
    simp only
    split
    · exact .leads .stops
    · exact .leads .stays
  | join w =>
    refine .leads ?_
    cases hnext : w.next gpsEnabled with
    | some w' => exact .join hnext
    | none =>
      refine .joined hnext ?_
      cases gpsEnabled with
      | true => exact .inl rfl
      | false => exact .inr rfl
  | gpsDisable => exact .leads .gpsDisable
  | lgwStop => exact .leads .lgwStop
  | thrown status => exact .leads .returns
  | returned status => exact .leads .returned

end Lifecycle

namespace Lifecycle

/-! ## Which threads there can be -/

/-- No thread of the forwarder is running any more. -/
def Quiet (s : Lifecycle) : Prop := ∀ w, s.workers w ≠ .running

/-- No thread from rank `n` on has been created. -/
def AbsentFrom (s : Lifecycle) (n : ℕ) : Prop := ∀ w : Worker, n ≤ w.rank → s.workers w = .absent

/-- The threads there can be at each point of `main`. -/
def Allows (s : Lifecycle) : MainPc → Prop
  | .access _ | .parseSX1301 _ | .parseGateway _ | .gpsEnable | .getaddrinfo _ | .socket _
  | .connect _ | .lgwStart => s.AbsentFrom 0
  | .create w => s.AbsentFrom w.rank ∧ (4 ≤ w.rank → s.gpsEnabled = true)
  | .loop => s.gpsEnabled = false → s.AbsentFrom 4
  | .join w =>
    (∀ w' : Worker, w'.rank < w.rank → s.workers w' ≠ .running) ∧
      (s.gpsEnabled = false → ∀ w' : Worker, 4 ≤ w'.rank → s.workers w' ≠ .running)
  | .gpsDisable | .lgwStop | .thrown _ | .returned _ => s.Quiet

/-- **The invariant**: the threads are in a state that is possible where `main` is. -/
def ThreadsOk (s : Lifecycle) : Prop := s.Allows s.pc

variable {s s' : Lifecycle} {gpsPath gpsEnabled : Bool}

theorem AbsentFrom.quiet (h : s.AbsentFrom 0) : s.Quiet := by
  intro w hw
  rw [h w (Nat.zero_le _)] at hw
  cases hw

theorem AbsentFrom.ends {n : ℕ} (h : s.AbsentFrom n) {w : Worker} (hw : s.workers w = .running) :
    (s.ends w).AbsentFrom n := by
  intro w' hrank
  have hne : w' ≠ w := by
    rintro rfl
    rw [h w' hrank] at hw
    cases hw
  show Function.update s.workers w .ended w' = .absent
  rw [Function.update_of_ne hne, h w' hrank]

theorem ends_ne_running {w w' : Worker} (h : s.workers w' ≠ .running) :
    (s.ends w).workers w' ≠ .running := by
  show Function.update s.workers w .ended w' ≠ .running
  by_cases hw : w' = w
  · rw [hw, Function.update_self]
    decide
  · rwa [Function.update_of_ne hw]

/-- A thread that ends is not missed anywhere. -/
theorem Allows.ends {pc : MainPc} (h : s.Allows pc) {w : Worker} (hw : s.workers w = .running) :
    (s.ends w).Allows pc := by
  cases pc with
  | create w' => exact ⟨h.1.ends hw, h.2⟩
  | loop => exact fun hgps => (h hgps).ends hw
  | join w' =>
    exact ⟨fun v hv => ends_ne_running (h.1 v hv), fun hgps v hv => ends_ne_running (h.2 hgps v hv)⟩
  | gpsDisable => exact fun v => ends_ne_running (h v)
  | lgwStop => exact fun v => ends_ne_running (h v)
  | thrown status => exact fun v => ends_ne_running (h v)
  | returned status => exact fun v => ends_ne_running (h v)
  | access file => exact AbsentFrom.ends h hw
  | parseSX1301 file => exact AbsentFrom.ends h hw
  | parseGateway file => exact AbsentFrom.ends h hw
  | gpsEnable => exact AbsentFrom.ends h hw
  | getaddrinfo link => exact AbsentFrom.ends h hw
  | socket link => exact AbsentFrom.ends h hw
  | connect link => exact AbsentFrom.ends h hw
  | lgwStart => exact AbsentFrom.ends h hw

/-! ## Before any thread -/

theorem threadsOk_exitFailure (h : s.AbsentFrom 0) : s.exitFailure.ThreadsOk := h.quiet

/-- Up to the network there is no thread. -/
theorem allows_iff_absentFrom {pc : MainPc} (hstage : pc.stage ≤ 2) :
    s.Allows pc ↔ s.AbsentFrom 0 := by
  cases pc with
  | access file => exact Iff.rfl
  | parseSX1301 file => exact Iff.rfl
  | parseGateway file => exact Iff.rfl
  | gpsEnable => exact Iff.rfl
  | getaddrinfo link => exact Iff.rfl
  | socket link => exact Iff.rfl
  | connect link => exact Iff.rfl
  | lgwStart => exact Iff.rfl
  | create w =>
    have hcreate : 3 + w.rank ≤ 2 := hstage
    omega
  | _ => simp [MainPc.stage] at hstage

/-! ## Spawning and joining -/

/-- The thread that follows has the next rank. -/
theorem rank_of_next {w w' : Worker} (h : w.next gpsEnabled = some w') : w'.rank = w.rank + 1 := by
  cases w with
  | timersync =>
    cases gpsEnabled with
    | true =>
      cases h
      rfl
    | false => cases h
  | valid => cases h
  | up =>
    cases h
    rfl
  | down =>
    cases h
    rfl
  | jit =>
    cases h
    rfl
  | gps =>
    cases h
    rfl

/-- Without GPS the timer thread is the last one. -/
theorem rank_of_next_none {w : Worker} (h : w.next gpsEnabled = none) :
    w.rank = 5 ∨ gpsEnabled = false ∧ w.rank = 3 := by
  cases w with
  | timersync =>
    cases gpsEnabled with
    | true => cases h
    | false => exact .inr ⟨rfl, rfl⟩
  | valid => exact .inl rfl
  | up => cases h
  | down => cases h
  | jit => cases h
  | gps => cases h

/-- Only with GPS is there a thread from rank 4 on. -/
theorem gpsEnabled_of_next {w w' : Worker} (h : w.next gpsEnabled = some w')
    (hrank : 4 ≤ w'.rank) : 4 ≤ w.rank ∨ gpsEnabled = true := by
  cases gpsEnabled with
  | true => exact .inr rfl
  | false =>
    cases w with
    | gps => exact .inl le_rfl
    | timersync => cases h
    | valid => cases h
    | up =>
      cases h
      exact absurd hrank (by decide)
    | down =>
      cases h
      exact absurd hrank (by decide)
    | jit =>
      cases h
      exact absurd hrank (by decide)

theorem rank_injective {w w' : Worker} (h : w.rank = w'.rank) : w = w' := by
  cases w <;> cases w' <;> first | rfl | cases h

/-- The thread that has just been created is the only new one. -/
theorem AbsentFrom.create {w : Worker} (h : s.AbsentFrom w.rank) (pc : MainPc) :
    AbsentFrom { s with pc := pc, workers := Function.update s.workers w .running }
      (w.rank + 1) := by
  intro w' hrank
  have hne : w' ≠ w := by
    rintro rfl
    omega
  show Function.update s.workers w .running w' = .absent
  rw [Function.update_of_ne hne]
  exact h w' (by omega)

theorem threadsOk_create {w : Worker} (h : s.Allows (.create w)) :
    ThreadsOk { s with
      pc := (w.next s.gpsEnabled).elim .loop .create
      workers := Function.update s.workers w .running } := by
  obtain ⟨habsent, hgps⟩ := h
  cases hnext : w.next s.gpsEnabled with
  | some w' =>
    refine ⟨?_, fun hrank => ?_⟩
    · rw [rank_of_next hnext]
      exact habsent.create _
    · rcases gpsEnabled_of_next hnext hrank with hw | hgps'
      · exact hgps hw
      · exact hgps'
  | none =>
    intro hoff
    have hlast := habsent.create (w := w) .loop
    rcases rank_of_next_none hnext with hrank | ⟨-, hrank⟩
    · have hon : s.gpsEnabled = true := hgps (by omega)
      have hoff' : s.gpsEnabled = false := hoff
      rw [hon] at hoff'
      cases hoff'
    · rw [hrank] at hlast
      exact hlast

/-- What has ended joins what had been joined before. -/
theorem ne_running_of_join {w w' : Worker} (h : s.Allows (.join w)) (hw : s.workers w = .ended)
    (hrank : w'.rank < w.rank + 1) : s.workers w' ≠ .running := by
  rcases Nat.lt_succ_iff_lt_or_eq.mp hrank with hlt | heq
  · exact h.1 w' hlt
  · rw [rank_injective heq, hw]
    decide

theorem threadsOk_join {w w' : Worker} (h : s.Allows (.join w)) (hw : s.workers w = .ended)
    (hnext : w.next s.gpsEnabled = some w') : ThreadsOk { s with pc := .join w' } := by
  refine ⟨fun v hv => ?_, h.2⟩
  rw [rank_of_next hnext] at hv
  exact ne_running_of_join h hw hv

/-- After the last join there is no thread left. -/
theorem quiet_of_joined {w : Worker} (h : s.Allows (.join w)) (hw : s.workers w = .ended)
    (hnext : w.next s.gpsEnabled = none) : s.Quiet := by
  intro v
  rcases rank_of_next_none hnext with hrank | ⟨hoff, hrank⟩
  · refine ne_running_of_join h hw ?_
    rw [hrank]
    cases v <;> decide
  · by_cases hv : 4 ≤ v.rank
    · exact h.2 hoff v hv
    · exact ne_running_of_join h hw (by omega)

/-! ## Every step -/

/-- The threads stay as they should be where nothing but the place of `main` changes. -/
theorem ThreadsOk.leads {pc' : MainPc} (h : s.ThreadsOk)
    (hj : ∀ w, s.pc = .join w → s.workers w = .ended)
    (hleads : s.pc.Leads gpsPath s.gpsEnabled pc') : ThreadsOk { s with pc := pc' } := by
  have hbefore : s.pc.stage ≤ 2 → s.AbsentFrom 0 := fun hstage =>
    (allows_iff_absentFrom hstage).mp h
  have hearly : ∀ {pc' : MainPc}, pc'.stage ≤ 2 → s.AbsentFrom 0 →
      ThreadsOk { s with pc := pc' } := fun hstage habsent =>
    (allows_iff_absentFrom hstage).mpr habsent
  unfold ThreadsOk at h
  generalize hpc : s.pc = pc at h hleads hbefore
  cases hleads with
  | configure hfrom hto => exact hearly (by omega) (hbefore (by omega))
  | startGps hfrom _ => exact hearly (by decide) (hbefore (by omega))
  | skipGps hfrom _ => exact hearly (by decide) (hbefore (by omega))
  | network hfrom hto => exact hearly hto.le (hbefore hfrom.le)
  | spawn => exact ⟨h, fun hrank => absurd hrank (by decide)⟩
  | stays => exact h
  | stops =>
    refine ⟨fun w' hrank => absurd hrank (Nat.not_lt_zero _), fun hgps w' hrank hrun => ?_⟩
    have habsent : s.workers w' = .absent := h hgps w' hrank
    have hrun' : s.workers w' = .running := hrun
    rw [habsent] at hrun'
    cases hrun'
  | join hnext => exact threadsOk_join h (hj _ hpc) hnext
  | joined hnext hto =>
    have hquiet := quiet_of_joined h (hj _ hpc) hnext
    rcases hto with rfl | rfl
    · exact hquiet
    · exact hquiet
  | gpsDisable => exact h
  | lgwStop => exact h
  | returns => exact h
  | returned => exact h

/-- **One call of `main` keeps the invariant**, where a join returns only after its thread. -/
theorem ThreadsOk.call {r : CallResult} (h : s.ThreadsOk)
    (hj : ∀ w, s.pc = .join w → s.workers w = .ended) (hok : s.SpawnsAllOrNone (.call r)) :
    (s.call gpsPath r).ThreadsOk := by
  generalize hs' : s.call gpsPath r = s'
  have hcalled : s.Called gpsPath r s' := hs' ▸ called_call gpsPath s r
  cases hcalled with
  | leads hleads => exact h.leads hj hleads
  | gpsEnable hpc =>
    unfold ThreadsOk at h
    rw [hpc] at h
    exact h
  | create hpc =>
    unfold ThreadsOk at h
    rw [hpc] at h
    exact threadsOk_create h
  | fails _ hstage => exact threadsOk_exitFailure ((allows_iff_absentFrom (by omega)).mp h)
  | createFails hr hpc => exact threadsOk_exitFailure fun w' _ => hok _ hpc hr w'

theorem Step.threadsOk {l : LifeLabel} (hst : Step gpsPath s l s') (hok : s.SpawnsAllOrNone l)
    (h : s.ThreadsOk) : s'.ThreadsOk := by
  obtain ⟨hen, rfl⟩ := hst
  cases l with
  | call r => exact h.call hen hok
  | ends w => exact Allows.ends h hen

theorem ReachableBy.threadsOk (h : ReachableBy gpsPath gpsEnabled SpawnsAllOrNone s) :
    s.ThreadsOk := by
  have hstart : (start gpsEnabled).ThreadsOk := fun _ _ => rfl
  exact h.invariant hstart fun _ _ _ _ hs hok hst => hst.threadsOk hok hs

end Lifecycle

open Lifecycle

/-- **When `start()` returns after all its threads.**  As long as no `pthread_create` fails
once a thread has been created, every thread has ended when `start()` returns; and when
one does fail while a thread is running, `start()` can return with that thread running. -/
theorem returns_after_threads (gpsPath gpsEnabled : Bool) (s : Lifecycle)
    (h : Lifecycle.ReachableBy gpsPath gpsEnabled SpawnsAllOrNone s) :
    (∀ status, s.pc = .returned status → ∀ w, s.workers w = .absent ∨ s.workers w = .ended) ∧
      ∀ w w' (r : CallResult), s.pc = .create w → r ≠ .ok → s.workers w' = .running →
        ∃ s', Lifecycle.ReachableBy gpsPath gpsEnabled Runs.anyStep s' ∧
          s'.pc = .returned .failure ∧ s'.workers w' = .running := by
  have hs : s.ThreadsOk := h.threadsOk
  constructor
  · intro status hpc w
    unfold ThreadsOk at hs
    rw [hpc] at hs
    have hquiet : s.workers w ≠ .running := hs w
    cases hw : s.workers w with
    | absent => exact .inl rfl
    | running => exact absurd hw hquiet
    | ended => exact .inr rfl
  · intro w w' r hpc hr hw'
    have hthrown : s.call gpsPath r = s.exitFailure := by
      unfold call
      rw [hpc]
      exact if_neg hr
    have hreach : Lifecycle.ReachableBy gpsPath gpsEnabled Runs.anyStep s :=
      h.mono fun _ _ _ => trivial
    have hfail : Step gpsPath s (.call r) s.exitFailure := by
      refine ⟨?_, hthrown.symm⟩
      intro v hv
      rw [hpc] at hv
      cases hv
    have hreturn : Step gpsPath s.exitFailure (.call .ok) { s with pc := .returned .failure } :=
      ⟨fun _ hv => (by cases hv), rfl⟩
    exact ⟨_, (hreach.next trivial hfail).next trivial hreturn, rfl, hw'⟩

/-- The calls of `main` up to its loop, with a debug configuration and without GPS. -/
def callsToLoop : List LifeLabel := List.replicate 14 (.call .ok)

/-- The threads see the stop and end, and `main` joins them. -/
def stopped : List LifeLabel :=
  [.call .ok, .ends .up, .ends .down, .call .ok, .call .ok, .ends .timersync, .ends .jit,
    .call .ok, .call .ok, .call .ok, .call .ok]

/-- From the first start to a regular end. -/
theorem returns_after_threads_regular :
    let s := Runs.after (step false) (start false) (callsToLoop ++ stopped)
    (∀ status, s.pc = .returned status → ∀ w, s.workers w = .absent ∨ s.workers w = .ended) ∧
      ∀ w w' (r : CallResult), s.pc = .create w → r ≠ .ok → s.workers w' = .running →
        ∃ s', Lifecycle.ReachableBy false false Runs.anyStep s' ∧ s'.pc = .returned .failure ∧
          s'.workers w' = .running :=
  returns_after_threads false false _
    (Runs.Reaches.start.after (fun s l => s.SpawnsAllOrNone l ∧ s.Enabled l)
      (fun _ _ hl => ⟨hl.1, hl.2, rfl⟩) (by decide))

/-- The second `pthread_create` fails, and the upstream thread goes on. -/
theorem returns_with_thread_running :
    ¬∀ s, Lifecycle.ReachableBy false false Runs.anyStep s → ∀ status, s.pc = .returned status →
      ∀ w, s.workers w = .absent ∨ s.workers w = .ended := by
  intro h
  have hrun := h
    (Runs.after (step false) (start false)
      (List.replicate 11 (.call .ok) ++ [.call .fails, .call .ok]))
    (Runs.Reaches.start.after (fun s l => s.Enabled l)
      (fun _ _ hl => ⟨trivial, hl, rfl⟩) (by decide))
  exact absurd (hrun .failure (by decide) .up) (by decide)

end PacketForwarder
