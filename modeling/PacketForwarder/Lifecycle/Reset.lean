import PacketForwarder.Comms.Stopping
import PacketForwarder.JitQueue.Reference
import PacketForwarder.Lifecycle.Status
import PacketForwarder.TimerSync

/-!
# What `reset()` leaves behind

The variables of `lora_comms.cc` and `lora_pkt_fwd.c` that live on when `start()` has
returned, written by `main`, by the six threads and by the application.  A run of the
system is any number of rounds of `start()`, its end, and `reset()`.

* `Globals` — the variables; `Globals.reset` is `reset()`, which knows of some of them;
* `Forwarder.Step` — who writes what: each thread only while it runs;
* `Forwarder.Sound` — the invariant: when `start()` has returned both links are closed and
  empty, and without a GPS path nothing about GPS is ever written;
* `gpsRefValid_at_spawn` — no thread finds the GPS reference of an earlier round valid;
* `PutsBack` — a run in which every change of a variable `reset()` does not know of is made
  good by a later step;
* `reset_restores` — after such a run `reset()` restores the state before the first start;
* `report_left_after_stop` — it does not: a stop leaves a report that was never sent.
-/

namespace PacketForwarder

/-! ## Links -/

namespace Link

variable {ι : Type*}

/-- Open and empty, with the default high-water mark and timeouts. -/
structure Fresh (link : Link ι) : Prop where
  hwm : link.fromFwdSendHwm = -1
  sendTimeout : link.fromFwdSendTimeout = -1
  recvTimeout : link.toFwdRecvTimeout = -1
  closed : ∀ d, (link.queue d).closed = false
  empty : ∀ d, (link.queue d).q = [] ∧ (link.queue d).size = 0

end Link

namespace WaitQueue

variable {ι : Type*}

/-- The queue is closed and empty, as `close` leaves it. -/
structure Shut (s : WaitQueue ι) : Prop where
  closed : s.closed = true
  empty : s.q = [] ∧ s.size = 0

variable [DecidableEq ι] {c : QueueConfig} {s : WaitQueue ι} {l : QueueLabel ι}

theorem Shut.effect {s' : WaitQueue ι} {o : Outcome} (h : s.Shut) (hc : c.cls = .queue)
    (hl : l ≠ .reset) (he : Effect c s l s' o) : s'.Shut := by
  have hopen : s.closed ≠ false := by
    rw [h.closed]
    decide
  cases he with
  | parks _ hs _ _ =>
    refine absurd ?_ hopen
    unfold Sleeps at hs
    split at hs
    · exact hs.1
    · exact hs.1
  | fails _ => exact ⟨h.closed, h.empty⟩
  | nothing _ => exact ⟨h.closed, h.empty⟩
  | sends _ hc' _ => exact absurd hc' hopen
  | receives _ hc' _ => exact absurd hc' hopen
  | completes _ hcls _ _ _ =>
    rw [hc] at hcls
    cases hcls
  | closes _ _ => exact ⟨rfl, rfl, rfl⟩
  | defers _ hcls =>
    rw [hc] at hcls
    cases hcls
  | resets hl' => exact absurd hl' hl

/-- A `Queue` that is closed and empty stays so until it is reset. -/
theorem Shut.step (h : s.Shut) (hc : c.cls = .queue) (hen : s.Enabled c l) (hl : l ≠ .reset) :
    (s.step c l).1.Shut :=
  h.effect hc hl (step_effect hen)

end WaitQueue

namespace Link

variable {ι : Type*} [DecidableEq ι]

theorem cls_config (d : Direction) : d.config.cls = .queue := by cases d <;> rfl

/-- `Link::close` closes and empties both queues. -/
theorem shut_close (link : Link ι) (d : Direction) : (link.close.queue d).Shut := by
  cases d with
  | fromFwd => exact ⟨rfl, rfl, rfl⟩
  | toFwd => exact ⟨rfl, rfl, rfl⟩

omit [DecidableEq ι] in
/-- `Link::reset` opens a link that has been closed, with its defaults. -/
theorem fresh_reopen {link : Link ι} (h : ∀ d, (link.queue d).Shut) : link.reopen.Fresh := by
  refine ⟨rfl, rfl, rfl, fun d => ?_, fun d => ?_⟩
  · cases d <;> rfl
  · cases d with
    | fromFwd => exact (h .fromFwd).empty
    | toFwd => exact (h .toFwd).empty

end Link

/-! ## The variables -/

/-- The counters `meas_...` that the status report is made from. -/
inductive MeasCounter
  | nbRxRcv
  | nbRxOk
  | nbRxBad
  | nbRxNocrc
  | upPktFwd
  | upNetworkByte
  | upPayloadByte
  | upDgramSent
  | upAckRcv
  | dwPullSent
  | dwAckRcv
  | dwDgramRcv
  | dwNetworkByte
  | dwPayloadByte
  | nbTxOk
  | nbTxFail
  | nbTxRequested
  | nbTxRejectedCollisionPacket
  | nbTxRejectedCollisionBeacon
  | nbTxRejectedTooLate
  | nbTxRejectedTooEarly
  | nbBeaconQueued
  | nbBeaconSent
  | nbBeaconRejected
  deriving DecidableEq

/-- The counters under `mx_meas_up`; the others are under `mx_meas_dw`. -/
def MeasCounter.upstream : MeasCounter → Bool
  | .nbRxRcv | .nbRxOk | .nbRxBad | .nbRxNocrc | .upPktFwd | .upNetworkByte | .upPayloadByte
  | .upDgramSent | .upAckRcv => true
  | _ => false

/-- What lives on from one `start()` to the next: the variables of `lora_comms.cc`,
`lora_pkt_fwd.c` and `timersync.c` that a run changes. -/
structure Globals (ι : Type*) where
  nextSocket : ℕ
  links : CommLink → Link ι
  /-- `signal_handler`, `signal_handler_called`, `stop_requested`, `exit_sig` and `quit_sig`. -/
  stop : StopState StopParty
  reportReady : Bool
  meas : MeasCounter → U32
  xtalCorrectOk : Bool
  xtalCorrect : Binary64
  gpsEnabled : Bool
  gpsRefValid : Bool
  timeReferenceGps : Tref
  gpsCoordValid : Bool
  jitQueue : JitQueue
  offsetUnixConcent : Timeval

namespace Globals

variable {ι : Type*}

/-- The variables before the first `start()`, as they are initialised. -/
def init : Globals ι where
  nextSocket := 0
  links _ := .reset
  stop := .reset
  reportReady := false
  meas _ := 0
  xtalCorrectOk := false
  xtalCorrect := .finite 1
  gpsEnabled := false
  gpsRefValid := false
  timeReferenceGps := ⟨0, 0, ⟨0, 0⟩, ⟨0, 0⟩, .finite 0⟩
  gpsCoordValid := false
  jitQueue := jitQueueInit
  offsetUnixConcent := offsetInit

/-- `reset()`. -/
def reset (g : Globals ι) : Globals ι :=
  { g with
    nextSocket := 0
    links := fun k => (g.links k).reopen
    stop := .reset }

/-- `mem_socket`. -/
def memSocket (g : Globals ι) : Globals ι :=
  if 1 < g.nextSocket then g
  else
    let k : CommLink := if g.nextSocket = 0 then .uplink else .downlink
    { g with
      nextSocket := g.nextSocket + 1
      links := Function.update g.links k (g.links k).reopen }

/-- What `main` and `start()` write at the end of a call. -/
def mainCall [DecidableEq ι] (g : Globals ι) (s : Lifecycle) (r : CallResult) : Globals ι :=
  match s.pc with
  | .gpsEnable => { g with gpsEnabled := r = .ok, gpsRefValid := false }
  | .socket _ => g.memSocket
  | .thrown _ => { g with links := fun k => (g.links k).close }
  | _ => g

/-- `main` copies the counters of one direction and resets them. -/
def copyAndReset (g : Globals ι) (upstream : Bool) : Globals ι :=
  { g with meas := fun k => if k.upstream = upstream then 0 else g.meas k }

end Globals

/-! ## The system -/

/-- A send or a receive, begun or resumed. -/
def QueueLabel.transfers {ι : Type*} : QueueLabel ι → Bool
  | .send _ _ _ _ | .recv _ _ _ _ | .resume _ _ _ => true
  | .close _ | .reset => false

/-- A step belongs to the application, to `main` or to one of the threads. -/
inductive GlobalLabel (ι : Type*)
  | start
  /-- The call `main` is in returns. -/
  | main (r : CallResult)
  | ends (w : Worker)
  | stopping (l : StopLabel StopParty)
  | autoquit
  /-- `main`, at the end of an interval. -/
  | copyAndReset (upstream : Bool)
  | report
  /-- `thread_up` sends the report, and takes `report_ready` back. -/
  | sendReport
  | count (w : Worker) (k : MeasCounter) (n : U32)
  /-- `lgw_gps_sync`. -/
  | timeSync (tref : Tref)
  | coords (valid : Bool)
  /-- `thread_valid` looks at the age of the reference. -/
  | checkRef (valid : Bool)
  | xtalInvalid
  | xtalAverage (x : Binary64)
  | xtalTrack (x : Binary64)
  | jitInit
  | jitCall (w : Worker) (c : JitCall)
  /-- By `main` before it creates a thread, then by `thread_timersync`. -/
  | setConcentratorTime (unixTimeval : Timeval) (sx1301Timecount : U32)
  /-- `mem_setsockopt` and the setters of the application. -/
  | setLink (k : CommLink) (hwm sendTimeout recvTimeout : ℤ)
  /-- A send or a receive on one of the links, by either side. -/
  | onLink (k : CommLink) (d : Direction) (l : QueueLabel ι)
  | reset

/-- The variables, and the run of `start()`, if it has been called since the last `reset()`. -/
structure Forwarder (ι : Type*) where
  globals : Globals ι
  life : Option Lifecycle

namespace Forwarder

variable {ι : Type*} [DecidableEq ι]

/-- The forwarder before the first `start()`. -/
def init : Forwarder ι := ⟨.init, none⟩

/-- What a step other than those of `main` does to the variables. -/
def write (env : JitEnv) (g : Globals ι) : GlobalLabel ι → Globals ι
  | .stopping l => { g with stop := g.stop.step l }
  | .autoquit => { g with stop := g.stop.sigHandler .sigterm }
  | .copyAndReset upstream => g.copyAndReset upstream
  | .report => { g with reportReady := true }
  | .sendReport => { g with reportReady := false }
  | .count _ k n => { g with meas := Function.update g.meas k (g.meas k + n) }
  | .timeSync tref => { g with timeReferenceGps := tref }
  | .coords valid => { g with gpsCoordValid := valid }
  | .checkRef valid => { g with gpsRefValid := valid }
  | .xtalInvalid => { g with xtalCorrectOk := false, xtalCorrect := .finite 1 }
  | .xtalAverage x => { g with xtalCorrectOk := true, xtalCorrect := x }
  | .xtalTrack x => { g with xtalCorrect := x }
  | .jitInit => { g with jitQueue := jitQueueInit }
  | .jitCall _ c => { g with jitQueue := c.apply env g.jitQueue }
  | .setConcentratorTime unixTimeval sx1301Timecount =>
    { g with
      offsetUnixConcent :=
        (setConcentratorTime g.offsetUnixConcent unixTimeval sx1301Timecount).offset }
  | .setLink k hwm sendTimeout recvTimeout =>
    { g with
      links := Function.update g.links k
        { g.links k with
          fromFwdSendHwm := hwm
          fromFwdSendTimeout := sendTimeout
          toFwdRecvTimeout := recvTimeout } }
  | .onLink k d l => { g with links := Function.update g.links k ((g.links k).onQueue d l) }
  | .reset => g.reset
  | .start | .main _ | .ends _ => g

/-- The state that a step leads to. -/
def step (gpsPath : Bool) (env : JitEnv) (s : Forwarder ι) (l : GlobalLabel ι) : Forwarder ι :=
  match l, s.life with
  | .start, _ => { s with life := some (.start s.globals.gpsEnabled) }
  | .main r, some life => ⟨s.globals.mainCall life r, some (life.call gpsPath r)⟩
  | .ends w, some life => { s with life := some (life.ends w) }
  | .reset, _ => ⟨s.globals.reset, none⟩
  | l, _ => { s with globals := write env s.globals l }

/-- The thread is running in the current `start()`. -/
def Running (s : Forwarder ι) (w : Worker) : Prop := ∃ life ∈ s.life, life.workers w = .running

/-- `main` is in its loop, waiting and reporting. -/
def InLoop (s : Forwarder ι) : Prop := ∃ life ∈ s.life, life.pc = .loop

/-- `main` is about to create the first thread. -/
def AtSpawn (s : Forwarder ι) : Prop := ∃ life ∈ s.life, life.pc = .create .up

/-- Who may do what, and when: `main` leaves its loop when a flag is set; no thread accesses
the forwarder when `reset()` is called. -/
def Enabled (s : Forwarder ι) : GlobalLabel ι → Prop
  | .start => s.life = none
  | .main r => ∃ life ∈ s.life, life.Enabled (.call r) ∧
      (life.pc = .loop → r = .ok →
        s.globals.stop.exitSig = true ∨ s.globals.stop.quitSig = true) ∧
      ∀ k, life.pc = .socket k → (r = .ok ↔ s.globals.nextSocket ≤ 1)
  | .ends w => ∃ life ∈ s.life, life.Enabled (.ends w)
  | .stopping l => s.globals.stop.Enabled l
  | .autoquit | .jitInit => s.Running .down
  | .copyAndReset _ | .report => s.InLoop
  | .sendReport => s.Running .up ∧ s.globals.reportReady = true
  | .count w _ _ => s.Running w
  | .timeSync _ | .coords _ => s.Running .gps
  | .checkRef _ | .xtalInvalid | .xtalAverage _ | .xtalTrack _ => s.Running .valid
  | .jitCall w _ => s.Running w ∧ (w = .down ∨ w = .jit)
  | .setConcentratorTime _ _ => s.AtSpawn ∨ s.Running .timersync
  | .setLink _ _ _ _ => True
  | .onLink k d l =>
    ((s.globals.links k).queue d).Enabled d.config l ∧ l.transfers = true
  | .reset => s.globals.stop.calling = [] ∧ ∃ life ∈ s.life, life.returned = true ∧ life.Quiet

instance (s : Forwarder ι) (w : Worker) : Decidable (s.Running w) :=
  inferInstanceAs (Decidable (∃ life ∈ s.life, life.workers w = .running))

instance (s : Forwarder ι) : Decidable s.InLoop :=
  inferInstanceAs (Decidable (∃ life ∈ s.life, life.pc = .loop))

instance (s : Forwarder ι) : Decidable s.AtSpawn :=
  inferInstanceAs (Decidable (∃ life ∈ s.life, life.pc = .create .up))

instance (s : Forwarder ι) (l : GlobalLabel ι) : Decidable (s.Enabled l) :=
  match l with
  | .start => decidable_of_iff (s.life.isNone = true) Option.isNone_iff_eq_none
  | .main r =>
    inferInstanceAs (Decidable (∃ life ∈ s.life, life.Enabled (.call r) ∧
      (life.pc = .loop → r = .ok → _ ∨ _) ∧ ∀ k, life.pc = .socket k → (r = .ok ↔ _)))
  | .ends w => inferInstanceAs (Decidable (∃ life ∈ s.life, life.Enabled (.ends w)))
  | .stopping l => inferInstanceAs (Decidable (s.globals.stop.Enabled l))
  | .autoquit | .jitInit => inferInstanceAs (Decidable (s.Running .down))
  | .copyAndReset _ | .report => inferInstanceAs (Decidable s.InLoop)
  | .sendReport => inferInstanceAs (Decidable (_ ∧ _))
  | .count w _ _ => inferInstanceAs (Decidable (s.Running w))
  | .timeSync _ | .coords _ => inferInstanceAs (Decidable (s.Running .gps))
  | .checkRef _ | .xtalInvalid | .xtalAverage _ | .xtalTrack _ =>
    inferInstanceAs (Decidable (s.Running .valid))
  | .jitCall _ _ => inferInstanceAs (Decidable (_ ∧ (_ ∨ _)))
  | .setConcentratorTime _ _ => inferInstanceAs (Decidable (_ ∨ _))
  | .setLink _ _ _ _ => inferInstanceAs (Decidable True)
  | .onLink _ _ _ => inferInstanceAs (Decidable (_ ∧ _))
  | .reset =>
    inferInstanceAs (Decidable (_ = _ ∧ ∃ life ∈ s.life, life.returned = true ∧
      ∀ w, life.workers w ≠ .running))

/-- The transitions are the steps that can be taken. -/
def Step (gpsPath : Bool) (env : JitEnv) (s : Forwarder ι) (l : GlobalLabel ι)
    (s' : Forwarder ι) : Prop :=
  s.Enabled l ∧ s' = s.step gpsPath env l

/-- The states of any number of rounds. -/
abbrev Reachable (gpsPath : Bool) (env : JitEnv) (s : Forwarder ι) : Prop :=
  Runs.Reaches (Step gpsPath env) Runs.anyStep init s

end Forwarder

/-! ## How far `main` has come -/

theorem Worker.rank_le (w : Worker) : w.rank ≤ 5 := by cases w <;> decide

namespace Lifecycle

/-- What a call of `main` can do. -/
structure Advances (gpsPath : Bool) (s s' : Lifecycle) : Prop where
  mono : s.pc.stage ≤ s'.pc.stage
  /-- With a GPS path, the configuration is followed by GPS. -/
  gps : gpsPath = true → s.pc.stage = 0 → s'.pc.stage ≤ 1 ∨ s'.pc.stage = 12
  noGps : gpsPath = false → s'.pc ≠ .gpsEnable
  workers : ∀ w, s'.workers w ≠ s.workers w →
    s.pc = .create w ∧ s'.pc = (w.next s.gpsEnabled).elim .loop .create
  gpsEnabled : s'.gpsEnabled ≠ s.gpsEnabled → s.pc = .gpsEnable
  create : ∀ w', s'.pc = .create w' →
    w' = .up ∨ ∃ w, s.pc = .create w ∧ w.next s.gpsEnabled = some w'

variable {gpsPath : Bool} {s : Lifecycle}

/-- A failure of `main` in one of the earlier stages advances it to its exit. -/
theorem advances_exitFailure (h : s.pc.stage ≤ 12) : s.Advances gpsPath s.exitFailure where
  mono := h
  gps _ _ := .inr rfl
  noGps _ := nofun
  workers _ hw := absurd rfl hw
  gpsEnabled he := absurd rfl he
  create := nofun

/-- A lifecycle has gone on where nothing but the place of `main` changes. -/
theorem advances_leads {pc : MainPc} (h : s.pc.Leads gpsPath s.gpsEnabled pc) :
    s.Advances gpsPath { s with pc := pc } := by
  refine ⟨?_, ?_, ?_, fun _ hw => absurd rfl hw, fun he => absurd rfl he, ?_⟩
  · show s.pc.stage ≤ pc.stage
    generalize s.pc = pc₀ at h
    cases h with
    | configure hfrom _ => omega
    | startGps hfrom _ => omega
    | skipGps hfrom _ => omega
    | network hfrom hto => omega
    | joined _ hto => rcases hto with rfl | rfl <;> simp [MainPc.stage]
    | _ => simp [MainPc.stage, Worker.rank]
  · intro hpath hzero
    show pc.stage ≤ 1 ∨ pc.stage = 12
    generalize s.pc = pc₀ at h hzero
    cases h with
    | configure _ hto => exact .inl (by omega)
    | startGps _ _ => exact .inl le_rfl
    | skipGps _ hoff => exact absurd (hpath.symm.trans hoff) (by decide)
    | network hfrom _ => omega
    | _ => cases hzero
  · intro hpath
    show pc ≠ .gpsEnable
    generalize s.pc = pc₀ at h
    rintro rfl
    cases h with
    | configure _ hto => cases hto
    | startGps _ hon => exact absurd (hpath.symm.trans hon) (by decide)
    | network _ hto => cases hto
    | joined _ hto => rcases hto with hto | hto <;> cases hto
  · intro w hw
    have hpc : pc = .create w := hw
    subst hpc
    generalize s.pc = pc₀ at h
    cases h with
    | configure _ hto =>
      have : 3 + w.rank = 0 := hto
      omega
    | network _ hto =>
      have : 3 + w.rank = 2 := hto
      omega
    | spawn => exact .inl rfl
    | joined _ hto => rcases hto with hto | hto <;> cases hto

theorem advances_create {w : Worker} (hpc : s.pc = .create w) :
    s.Advances gpsPath
      { s with
        pc := (w.next s.gpsEnabled).elim .loop .create
        workers := Function.update s.workers w .running } := by
  refine ⟨?_, ?_, ?_, ?_, fun he => absurd rfl he, ?_⟩
  · rw [hpc]
    show 3 + w.rank ≤ _
    have hle := w.rank_le
    cases hnext : w.next s.gpsEnabled with
    | none =>
      show 3 + w.rank ≤ 9
      omega
    | some w' =>
      show 3 + w.rank ≤ 3 + w'.rank
      rw [rank_of_next hnext]
      omega
  · intro _ h0
    rw [hpc] at h0
    exact absurd h0 (by show 3 + w.rank ≠ 0; omega)
  · intro _
    cases w.next s.gpsEnabled <;> exact nofun
  · intro w' hw'
    have heq : w' = w := by
      by_contra hne
      exact hw' (Function.update_of_ne hne _ _)
    rw [heq]
    exact ⟨hpc, rfl⟩
  · intro w' hw'
    refine .inr ⟨w, hpc, ?_⟩
    have hpc' : (w.next s.gpsEnabled).elim .loop .create = MainPc.create w' := hw'
    cases hnext : w.next s.gpsEnabled with
    | none =>
      rw [hnext] at hpc'
      cases hpc'
    | some v =>
      rw [hnext] at hpc'
      cases hpc'
      rfl

/-- **How far a call of `main` gets.** -/
theorem advances_call (gpsPath : Bool) (s : Lifecycle) (r : CallResult) :
    s.Advances gpsPath (s.call gpsPath r) := by
  generalize hs' : s.call gpsPath r = s'
  have hcalled : s.Called gpsPath r s' := hs' ▸ called_call gpsPath s r
  cases hcalled with
  | leads hleads => exact advances_leads hleads
  | create hpc => exact advances_create hpc
  | gpsEnable hpc =>
    have hstage : s.pc.stage = 1 := by rw [hpc]; rfl
    exact ⟨by rw [hstage]; exact one_le_two, fun _ hzero => by omega, nofun,
      fun _ hw => absurd rfl hw, fun _ => hpc, nofun⟩
  | fails _ hstage => exact advances_exitFailure (by omega)
  | @createFails _ w _ hpc =>
    refine advances_exitFailure ?_
    have hle := w.rank_le
    rw [hpc]
    show 3 + w.rank ≤ 12
    omega

/-- Nothing about GPS has been started. -/
structure NoGps (s : Lifecycle) : Prop where
  enabled : s.gpsEnabled = false
  absent : s.workers .gps = .absent ∧ s.workers .valid = .absent
  pc : s.pc ≠ .gpsEnable
  create : ∀ w, s.pc = .create w → w.rank < 4

theorem noGps_start : (start false).NoGps := ⟨rfl, ⟨rfl, rfl⟩, nofun, nofun⟩

/-- Without a GPS path nothing about GPS is ever started. -/
theorem NoGps.call (h : s.NoGps) (r : CallResult) : (s.call false r).NoGps := by
  have hadv := advances_call false s r
  have hworker : ∀ w : Worker, 4 ≤ w.rank → (s.call false r).workers w = s.workers w := by
    intro w hrank
    by_contra hne
    have hlt := h.create w (hadv.workers w hne).1
    omega
  refine ⟨?_, ⟨?_, ?_⟩, hadv.noGps rfl, ?_⟩
  · by_contra hne
    exact h.pc (hadv.gpsEnabled fun heq => hne (heq.trans h.enabled))
  · rw [hworker .gps (by decide)]
    exact h.absent.1
  · rw [hworker .valid (by decide)]
    exact h.absent.2
  · intro w' hw'
    rcases hadv.create w' hw' with rfl | ⟨w, hw, hnext⟩
    · decide
    · rw [h.enabled] at hnext
      have hlt := h.create w hw
      cases w with
      | up => cases hnext; decide
      | down => cases hnext; decide
      | jit => cases hnext; decide
      | timersync => cases hnext
      | gps => exact absurd hlt (by decide)
      | valid => exact absurd hlt (by decide)

/-- A thread that ends was not absent. -/
theorem ends_absent {w w' : Worker} (hw : s.workers w = .running)
    (h : s.workers w' = .absent) : (s.ends w).workers w' = .absent := by
  have hne : w' ≠ w := by
    rintro rfl
    rw [hw] at h
    cases h
  show Function.update s.workers w .ended w' = .absent
  rw [Function.update_of_ne hne, h]

theorem NoGps.ends (h : s.NoGps) {w : Worker} (hw : s.workers w = .running) : (s.ends w).NoGps :=
  ⟨h.enabled, ⟨ends_absent hw h.absent.1, ends_absent hw h.absent.2⟩, h.pc, h.create⟩

end Lifecycle

/-! ## The invariant -/

namespace Forwarder

variable {ι : Type*} [DecidableEq ι] {gpsPath : Bool} {env : JitEnv} {s s' : Forwarder ι}

/-- The invariant of the variables and the run of `start()`. -/
structure Sound (gpsPath : Bool) (s : Forwarder ι) : Prop where
  /-- When `start()` has returned, the links are closed and empty. -/
  shut : ∀ life ∈ s.life, life.returned = true → ∀ k d, ((s.globals.links k).queue d).Shut
  noGps : gpsPath = false → s.globals.gpsEnabled = false ∧ s.globals.gpsRefValid = false ∧
    ∀ life ∈ s.life, life.NoGps
  /-- `thread_valid` is the last thread to be created. -/
  spawn : ∀ life ∈ s.life, life.pc.stage ≤ 8 → life.workers .valid = .absent
  /-- From the network to the last thread, the reference is invalid. -/
  gpsRef : ∀ life ∈ s.life, 2 ≤ life.pc.stage → life.pc.stage ≤ 8 →
    s.globals.gpsRefValid = false

omit [DecidableEq ι] in
theorem sound_init : (init : Forwarder ι).Sound gpsPath :=
  ⟨nofun, fun _ => ⟨rfl, rfl, nofun⟩, nofun, nofun⟩

omit [DecidableEq ι] in
/-- A step that is none of `main` or `start()`: it does not reopen a link, and the reference
is written by `thread_valid`. -/
theorem Sound.write (h : s.Sound gpsPath) {g : Globals ι}
    (hshut : ∀ k d, ((s.globals.links k).queue d).Shut → ((g.links k).queue d).Shut)
    (henabled : g.gpsEnabled = s.globals.gpsEnabled)
    (hvalid : g.gpsRefValid = s.globals.gpsRefValid ∨ s.Running .valid) :
    Sound gpsPath { s with globals := g } where
  shut life hlife hret k d := hshut k d (h.shut life hlife hret k d)
  noGps hpath := by
    obtain ⟨hoff, hinvalid, hno⟩ := h.noGps hpath
    refine ⟨henabled.trans hoff, ?_, hno⟩
    rcases hvalid with hsame | ⟨life, hlife, hrun⟩
    · exact hsame.trans hinvalid
    · rw [(hno life hlife).absent.2] at hrun
      cases hrun
  spawn := h.spawn
  gpsRef life hlife hlo hhi := by
    rcases hvalid with hsame | ⟨life', hlife', hrun⟩
    · exact hsame.trans (h.gpsRef life hlife hlo hhi)
    · obtain rfl : life' = life := Option.mem_unique hlife' hlife
      rw [h.spawn life' hlife hhi] at hrun
      cases hrun

omit [DecidableEq ι] in
/-- A step that touches neither the links nor GPS. -/
theorem Sound.writeElse (h : s.Sound gpsPath) {g : Globals ι}
    (hlinks : g.links = s.globals.links) (henabled : g.gpsEnabled = s.globals.gpsEnabled)
    (hvalid : g.gpsRefValid = s.globals.gpsRefValid) : Sound gpsPath { s with globals := g } :=
  h.write (fun k d hs => by rwa [hlinks]) henabled (.inl hvalid)

omit [DecidableEq ι] in
/-- `mem_socket` keeps GPS as it is. -/
theorem memSocket_gps (g : Globals ι) :
    g.memSocket.gpsEnabled = g.gpsEnabled ∧ g.memSocket.gpsRefValid = g.gpsRefValid := by
  unfold Globals.memSocket
  split
  · exact ⟨rfl, rfl⟩
  · exact ⟨rfl, rfl⟩

/-- What a call of `main` does to the GPS variables. -/
theorem mainCall_gps (g : Globals ι) (life : Lifecycle) (r : CallResult) :
    (g.mainCall life r).gpsRefValid = false ∧ life.pc = .gpsEnable ∨
      (g.mainCall life r).gpsEnabled = g.gpsEnabled ∧
        (g.mainCall life r).gpsRefValid = g.gpsRefValid := by
  unfold Globals.mainCall
  split
  · rename_i hpc
    exact .inl ⟨rfl, hpc⟩
  · exact .inr (memSocket_gps g)
  · exact .inr ⟨rfl, rfl⟩
  · exact .inr ⟨rfl, rfl⟩

/-- When a call of `main` makes `start()` return, it has closed the links. -/
theorem Sound.shut_mainCall (h : s.Sound gpsPath) {life : Lifecycle} (hlife : life ∈ s.life)
    {r : CallResult} (hret : (life.call gpsPath r).returned = true) (k : CommLink)
    (d : Direction) : (((s.globals.mainCall life r).links k).queue d).Shut := by
  -- the exception of `main` is the only way to a return
  cases hstatus : life.pc.status with
  | none =>
    cases hpc : (life.call gpsPath r).pc with
    | returned status => exact absurd hpc (Lifecycle.call_ne_returned gpsPath r status hstatus)
    | _ =>
      unfold Lifecycle.returned at hret
      rw [hpc] at hret
      cases hret
  | some status =>
    cases hpc : life.pc with
    | thrown status' =>
      unfold Globals.mainCall
      rw [hpc]
      exact Link.shut_close _ d
    | returned status' =>
      have hshut := h.shut life hlife (by unfold Lifecycle.returned; rw [hpc])
      unfold Globals.mainCall
      rw [hpc]
      exact hshut k d
    | _ =>
      rw [hpc] at hstatus
      cases hstatus

/-- Whichever way `main` comes to the network, the reference of an earlier run is not valid: without
GPS it never was, and with GPS `main` invalidates it. -/
theorem Sound.gpsRef_mainCall (h : s.Sound gpsPath) {life : Lifecycle} (hlife : life ∈ s.life)
    {r : CallResult} (hlo : 2 ≤ (life.call gpsPath r).pc.stage)
    (hhi : (life.call gpsPath r).pc.stage ≤ 8) :
    (s.globals.mainCall life r).gpsRefValid = false := by
  have hadv := Lifecycle.advances_call gpsPath life r
  rcases mainCall_gps s.globals life r with ⟨hvalid, -⟩ | ⟨-, hvalid⟩
  · exact hvalid
  · rw [hvalid]
    by_cases hstage : 2 ≤ life.pc.stage
    · exact h.gpsRef life hlife hstage (hadv.mono.trans hhi)
    · cases gpsPath with
      | false => exact (h.noGps rfl).2.1
      | true =>
        by_cases hzero : life.pc.stage = 0
        · rcases hadv.gps rfl hzero with hle | heq <;> omega
        · have hpc : life.pc = .gpsEnable := by
            cases hpc : life.pc with
            | gpsEnable => rfl
            | create w =>
              rw [hpc] at hstage
              exact absurd (show 2 ≤ 3 + w.rank by omega) hstage
            | _ =>
              rw [hpc] at hstage hzero
              first
                | exact absurd rfl hzero
                | exact absurd (Nat.le_of_ble_eq_true rfl) hstage
          rw [← hvalid]
          unfold Globals.mainCall
          rw [hpc]

/-- A call of `main` keeps the invariant. -/
theorem Sound.main (h : s.Sound gpsPath) {life : Lifecycle} (hlife : life ∈ s.life)
    (r : CallResult) :
    Sound gpsPath ⟨s.globals.mainCall life r, some (life.call gpsPath r)⟩ := by
  have hadv := Lifecycle.advances_call gpsPath life r
  refine ⟨?_, ?_, ?_, ?_⟩
  · intro life' hlife' hret
    cases hlife'
    exact h.shut_mainCall hlife hret
  · intro hpath
    subst hpath
    obtain ⟨hoff, hinvalid, hno⟩ := h.noGps rfl
    rcases mainCall_gps s.globals life r with ⟨-, hpc⟩ | ⟨henabled, hvalid⟩
    · exact absurd hpc (hno life hlife).pc
    · refine ⟨henabled.trans hoff, hvalid.trans hinvalid, ?_⟩
      intro life' hlife'
      cases hlife'
      exact (hno life hlife).call r
  · intro life' hlife' hstage
    cases hlife'
    have hbefore := h.spawn life hlife (hadv.mono.trans hstage)
    by_contra hne
    obtain ⟨hpc, hpc'⟩ := hadv.workers .valid fun heq => hne (heq.trans hbefore)
    rw [hpc'] at hstage
    exact absurd hstage (by show ¬9 ≤ 8; omega)
  · intro life' hlife' hlo hhi
    cases hlife'
    exact h.gpsRef_mainCall hlife hlo hhi

/-- Sending and receiving keep a closed queue closed and empty. -/
theorem shut_onLink {k k' : CommLink} {d d' : Direction} {l : QueueLabel ι} {g : Globals ι}
    (hen : ((g.links k).queue d).Enabled d.config l) (hl : l ≠ .reset)
    (h : ((g.links k').queue d').Shut) :
    ((Function.update g.links k ((g.links k).onQueue d l) k').queue d').Shut := by
  by_cases hk : k' = k
  · subst hk
    rw [Function.update_self]
    show (Function.update (g.links k').queue d _ d').Shut
    by_cases hd : d' = d
    · subst hd
      rw [Function.update_self]
      exact h.step (Link.cls_config d') hen hl
    · rwa [Function.update_of_ne hd]
  · rwa [Function.update_of_ne hk]

omit [DecidableEq ι] in
theorem shut_setLink {k k' : CommLink} {d : Direction} {hwm sendTimeout recvTimeout : ℤ}
    {g : Globals ι} (h : ((g.links k').queue d).Shut) :
    ((Function.update g.links k
      { g.links k with
        fromFwdSendHwm := hwm
        fromFwdSendTimeout := sendTimeout
        toFwdRecvTimeout := recvTimeout } k').queue d).Shut := by
  by_cases hk : k' = k
  · subst hk
    rw [Function.update_self]
    exact h
  · rwa [Function.update_of_ne hk]

/-- `start()` begins with the variables as they are, and with no thread. -/
theorem Sound.started (h : s.Sound gpsPath) : (s.step gpsPath env .start).Sound gpsPath := by
  refine ⟨?_, ?_, ?_, ?_⟩
  · intro life hlife hret
    cases hlife
    cases hret
  · intro hpath
    obtain ⟨hoff, hinvalid, -⟩ := h.noGps hpath
    refine ⟨hoff, hinvalid, ?_⟩
    intro life hlife
    cases hlife
    rw [hoff]
    exact Lifecycle.noGps_start
  · intro life hlife _
    cases hlife
    rfl
  · intro life hlife hlo
    cases hlife
    exact absurd hlo (by show ¬2 ≤ 0; omega)

omit [DecidableEq ι] in
/-- The end of a thread keeps the invariant. -/
theorem Sound.ended {g : Globals ι} {life : Lifecycle} (h : Sound gpsPath ⟨g, some life⟩)
    {w : Worker} (hrun : life.Enabled (.ends w)) :
    Sound gpsPath ⟨g, some (life.ends w)⟩ := by
  refine ⟨?_, ?_, ?_, ?_⟩
  · intro life' hlife' hret
    cases hlife'
    exact h.shut life rfl hret
  · intro hpath
    obtain ⟨hoff, hinvalid, hno⟩ := h.noGps hpath
    refine ⟨hoff, hinvalid, ?_⟩
    intro life' hlife'
    cases hlife'
    exact (hno life rfl).ends hrun
  · intro life' hlife' hstage
    cases hlife'
    exact Lifecycle.ends_absent hrun (h.spawn life rfl hstage)
  · intro life' hlife' hlo hhi
    cases hlife'
    exact h.gpsRef life rfl hlo hhi

/-- **Every step keeps the invariant**, whoever takes it. -/
theorem Sound.step {l : GlobalLabel ι} (h : s.Sound gpsPath) (hst : Step gpsPath env s l s') :
    s'.Sound gpsPath := by
  obtain ⟨hen, rfl⟩ := hst
  cases l with
  | start => exact h.started
  | main r =>
    obtain ⟨life, hlife, -⟩ := hen
    have hstep : s.step gpsPath env (.main r) =
        ⟨s.globals.mainCall life r, some (life.call gpsPath r)⟩ := by
      obtain ⟨g, life'⟩ := s
      cases hlife
      rfl
    rw [hstep]
    exact h.main hlife r
  | ends w =>
    obtain ⟨life, hlife, hrun⟩ := hen
    obtain ⟨g, life'⟩ := s
    cases hlife
    exact h.ended hrun
  | reset =>
    refine ⟨nofun, fun hpath => ?_, nofun, nofun⟩
    obtain ⟨hoff, hinvalid, -⟩ := h.noGps hpath
    exact ⟨hoff, hinvalid, nofun⟩
  | setLink k hwm sendTimeout recvTimeout =>
    exact h.write (fun _ _ hs => shut_setLink hs) rfl (.inl rfl)
  | onLink k d l =>
    -- The label is one of the transfers, and a reset of the queue is not.
    have hl : l ≠ .reset := by
      rintro rfl
      cases hen.2
    exact h.write (fun _ _ hs => shut_onLink hen.1 hl hs) rfl (.inl rfl)
  | checkRef valid => exact h.write (fun _ _ hs => hs) rfl (.inr hen)
  -- The other steps write variables that the invariant does not read.
  | stopping l => exact h.writeElse rfl rfl rfl
  | autoquit => exact h.writeElse rfl rfl rfl
  | copyAndReset upstream => exact h.writeElse rfl rfl rfl
  | report => exact h.writeElse rfl rfl rfl
  | sendReport => exact h.writeElse rfl rfl rfl
  | count w k n => exact h.writeElse rfl rfl rfl
  | timeSync tref => exact h.writeElse rfl rfl rfl
  | coords valid => exact h.writeElse rfl rfl rfl
  | xtalInvalid => exact h.writeElse rfl rfl rfl
  | xtalAverage x => exact h.writeElse rfl rfl rfl
  | xtalTrack x => exact h.writeElse rfl rfl rfl
  | jitInit => exact h.writeElse rfl rfl rfl
  | jitCall w c => exact h.writeElse rfl rfl rfl
  | setConcentratorTime unixTimeval sx1301Timecount => exact h.writeElse rfl rfl rfl

theorem Reachable.sound (h : Reachable gpsPath env s) : s.Sound gpsPath :=
  h.invariant (I := Sound gpsPath) sound_init fun _ _ _ _ hs _ hst => hs.step hst

/-! ## What the next start finds -/

/-- **The GPS reference.**  `main` invalidates it with GPS; without, it is never valid. -/
theorem gpsRefValid_at_spawn (h : Reachable gpsPath env s) (hspawn : s.AtSpawn) :
    s.globals.gpsRefValid = false := by
  obtain ⟨life, hlife, hpc⟩ := hspawn
  have hstage : life.pc.stage = 3 := by
    rw [hpc]
    rfl
  exact h.sound.gpsRef life hlife (by omega) (by omega)

/-- What `start()` may read before it writes and `reset()` does not know of is as it was before
the first start. -/
structure LeftClean (g : Globals ι) : Prop where
  /-- `thread_up` sends a report that is pending. -/
  reportReady : g.reportReady = false
  meas : ∀ k, g.meas k = 0
  xtalCorrect : g.xtalCorrectOk = false ∧ g.xtalCorrect = .finite 1
  /-- `thread_valid` may look at the age of the reference before it is synchronised. -/
  timeReferenceGps : g.timeReferenceGps = (Globals.init : Globals ι).timeReferenceGps
  gpsCoordValid : g.gpsCoordValid = false
  /-- `thread_jit` may peek before `thread_down` has initialised the queue. -/
  jitQueue : jitQueueIsEmpty g.jitQueue = true

/-- What `start()` may read before it writes is as it was before the first start. -/
structure PreStart (g : Globals ι) : Prop extends LeftClean g where
  links : ∀ k, (g.links k).Fresh
  nextSocket : g.nextSocket = 0
  stop : g.stop = .reset

omit [DecidableEq ι] in
/-- `reset()` leaves as it is what it does not know of. -/
theorem LeftClean.reset {g : Globals ι} (h : LeftClean g) : LeftClean g.reset :=
  ⟨h.reportReady, h.meas, h.xtalCorrect, h.timeReferenceGps, h.gpsCoordValid, h.jitQueue⟩

/-- In every run `reset()` finds the links closed and empty, and opens them. -/
theorem reset_links_fresh (h : Reachable gpsPath env s) (hen : s.Enabled .reset) (k : CommLink) :
    (s.globals.reset.links k).Fresh := by
  obtain ⟨-, life, hlife, hret, -⟩ := hen
  exact Link.fresh_reopen (h.sound.shut life hlife hret k)

/-! ## Runs that put back what they change -/

/-- The variables that `reset()` does not know of. -/
inductive Leftover
  | report
  /-- The counters of one direction, which `main` copies and resets together. -/
  | meas (upstream : Bool)
  | xtalCorrect
  | timeReferenceGps
  | gpsCoordValid
  | jitQueue

/-- The variable is as it was before the first start. -/
def Leftover.Clean (g : Globals ι) : Leftover → Prop
  | .report => g.reportReady = false
  | .meas upstream => ∀ k : MeasCounter, k.upstream = upstream → g.meas k = 0
  | .xtalCorrect => g.xtalCorrectOk = false ∧ g.xtalCorrect = .finite 1
  | .timeReferenceGps => g.timeReferenceGps = (Globals.init : Globals ι).timeReferenceGps
  | .gpsCoordValid => g.gpsCoordValid = false
  | .jitQueue => jitQueueIsEmpty g.jitQueue = true

/-- The label takes the variable away from that value: a report is made, a counter raised, the
crystal corrected, the GPS time taken, the coordinates found valid, a packet queued. -/
def Leftover.Changes (env : JitEnv) (x : Leftover) (s : Forwarder ι) (l : GlobalLabel ι) : Prop :=
  match x, l with
  | .report, .report => True
  | .meas upstream, .count _ k n => k.upstream = upstream ∧ n ≠ 0
  | .xtalCorrect, .xtalAverage _ => True
  | .xtalCorrect, .xtalTrack _ => True
  | .timeReferenceGps, .timeSync _ => True
  | .gpsCoordValid, .coords valid => valid = true
  | .jitQueue, .jitCall _ (.enqueue time packet pktType) =>
    (jitEnqueue env s.globals.jitQueue time packet pktType).error = .ok
  | _, _ => False

/-- The label puts it back: the report is sent, the counters of the direction are copied, the
correction or the coordinates are invalidated, the queue is left empty.  Nothing puts the
GPS time back. -/
def Leftover.Restores (env : JitEnv) (x : Leftover) (s : Forwarder ι) (l : GlobalLabel ι) : Prop :=
  match x, l with
  | .report, .sendReport => True
  | .meas upstream, .copyAndReset upstream' => upstream' = upstream
  | .xtalCorrect, .xtalInvalid => True
  | .gpsCoordValid, .coords valid => valid = false
  | .jitQueue, .jitInit => True
  | .jitQueue, .jitCall _ c => jitQueueIsEmpty (c.apply env s.globals.jitQueue) = true
  | _, _ => False

instance (env : JitEnv) (x : Leftover) (s : Forwarder ι) (l : GlobalLabel ι) :
    Decidable (x.Changes env s l) := by
  unfold Leftover.Changes
  split <;> infer_instance

instance (env : JitEnv) (x : Leftover) (s : Forwarder ι) (l : GlobalLabel ι) :
    Decidable (x.Restores env s l) := by
  unfold Leftover.Restores
  split <;> infer_instance

/-- **A run that puts back what it changes**: each of these variables, whenever a step changes
it, is restored by a later one. -/
def PutsBack (gpsPath : Bool) (env : JitEnv) (ls : List (GlobalLabel ι)) : Prop :=
  ∀ x : Leftover, Runs.Restored (step gpsPath env) (x.Changes env) (x.Restores env) init ls

/-- A call on the empty queue that queues nothing leaves it empty. -/
theorem isEmpty_apply (env : JitEnv) {q : JitQueue} (hq : jitQueueIsEmpty q = true) (c : JitCall)
    (hc : ∀ time p t, c = .enqueue time p t → (jitEnqueue env q time p t).error ≠ .ok) :
    jitQueueIsEmpty (c.apply env q) = true := by
  have hzero := jitQueueIsEmpty_iff.mp hq
  cases c with
  | enqueue time p t =>
    rcases jitEnqueue_cases env q time p t with ⟨p', rfl, -, hok, -, -⟩ | ⟨-, hsame⟩
    · exact absurd hok (hc time _ t rfl)
    · rw [JitCall.apply, hsame]
      exact hq
  | dequeue index packet =>
    rcases jitDequeue_cases env q index packet with ⟨i, -, -, hpos, -⟩ | ⟨-, hsame⟩
    · omega
    · rw [JitCall.apply, hsame]
      exact hq
  | peek time pktIdx =>
    rcases jitPeek_cases env q time pktIdx with ⟨t, -, hpos, -⟩ | ⟨-, hsame⟩
    · omega
    · rw [JitCall.apply, hsame]
      exact hq

/-- `main`'s own calls touch none of these variables. -/
theorem Leftover.clean_mainCall {g : Globals ι} {x : Leftover} (h : x.Clean g)
    (life : Lifecycle) (r : CallResult) : x.Clean (g.mainCall life r) := by
  unfold Globals.mainCall
  split
  · cases x <;> exact h
  · unfold Globals.memSocket
    split
    · exact h
    · cases x <;> exact h
  · cases x <;> exact h
  · exact h

/-- What a step does to the variables is a call of `main` or a write. -/
theorem globals_step (gpsPath : Bool) (env : JitEnv) (s : Forwarder ι) (l : GlobalLabel ι) :
    (s.step gpsPath env l).globals = Forwarder.write env s.globals l ∨
      ∃ life r, (s.step gpsPath env l).globals = s.globals.mainCall life r := by
  unfold Forwarder.step
  split
  · exact .inl rfl
  · exact .inr ⟨_, _, rfl⟩
  · exact .inl rfl
  · exact .inl rfl
  · exact .inl rfl

/-- **Only the changes change** such a variable: any other step leaves it at its first value. -/
theorem Leftover.clean_step (x : Leftover) (s : Forwarder ι) (l : GlobalLabel ι)
    (hl : ¬x.Changes env s l) (h : x.Clean s.globals) :
    x.Clean (s.step gpsPath env l).globals := by
  rcases globals_step gpsPath env s l with hwrite | ⟨life, r, hmain⟩
  · rw [hwrite]
    cases x with
    | report =>
      cases l with
      | report => exact absurd trivial hl
      | sendReport => rfl
      | _ => exact h
    | meas upstream =>
      cases l with
      | count w k n =>
        intro k' hk'
        show Function.update s.globals.meas k (s.globals.meas k + n) k' = 0
        by_cases hk : k' = k
        · subst hk
          -- A count that does not change the counter is of nothing.
          have hn : n = 0 := by
            by_contra hn
            exact hl ⟨hk', hn⟩
          rw [Function.update_self, h k' hk', hn]
          rfl
        · rw [Function.update_of_ne hk]
          exact h k' hk'
      | copyAndReset upstream' =>
        intro k' hk'
        show (if k'.upstream = upstream' then 0 else s.globals.meas k') = 0
        rw [h k' hk', ite_self]
      | _ => exact h
    | xtalCorrect =>
      cases l with
      | xtalInvalid => exact ⟨rfl, rfl⟩
      | xtalAverage x => exact absurd trivial hl
      | xtalTrack x => exact absurd trivial hl
      | _ => exact h
    | timeReferenceGps =>
      cases l with
      | timeSync tref => exact absurd trivial hl
      | _ => exact h
    | gpsCoordValid =>
      cases l with
      | coords valid => exact Bool.eq_false_iff.mpr hl
      | _ => exact h
    | jitQueue =>
      cases l with
      | jitInit => rfl
      | jitCall w c =>
        refine isEmpty_apply env h c ?_
        rintro time p t rfl
        exact hl
      | _ => exact h
  · rw [hmain]
    exact Leftover.clean_mainCall h life r

/-- **What restores a variable restores it**, whatever it was before. -/
theorem Leftover.clean_of_restores (x : Leftover) (s : Forwarder ι) (l : GlobalLabel ι)
    (hl : x.Restores env s l) : x.Clean (s.step gpsPath env l).globals := by
  unfold Leftover.Restores at hl
  split at hl
  · rfl
  · rename_i upstream upstream'
    intro k hk
    show (if k.upstream = upstream' then 0 else s.globals.meas k) = 0
    rw [if_pos (hk.trans hl.symm)]
  · exact ⟨rfl, rfl⟩
  · exact hl
  · rfl
  · exact hl
  · exact hl.elim

/-- A run that puts back what it changes leaves everything clean. -/
theorem PutsBack.leftClean {ls : List (GlobalLabel ι)} (h : PutsBack gpsPath env ls) :
    LeftClean (Runs.after (step gpsPath env) init ls).globals := by
  have hclean : ∀ x : Leftover, x.Clean (Runs.after (step gpsPath env) init ls).globals := by
    intro x
    refine (h x).after (P := fun s => x.Clean s.globals) ?_ (fun s l => x.clean_step s l)
      fun s l => x.clean_of_restores s l
    cases x with
    | report => rfl
    | meas upstream => exact fun _ _ => rfl
    | xtalCorrect => exact ⟨rfl, rfl⟩
    | timeReferenceGps => rfl
    | gpsCoordValid => rfl
    | jitQueue => rfl
  exact ⟨hclean .report, fun k => hclean (.meas k.upstream) k rfl, hclean .xtalCorrect,
    hclean .timeReferenceGps, hclean .gpsCoordValid, hclean .jitQueue⟩

/-- The calls of `main` by which it comes to its loop. -/
def toLoop : List (GlobalLabel ℕ) :=
  .start :: List.replicate 10 (.main .ok) ++ .setConcentratorTime ⟨1000, 0⟩ 0 ::
    List.replicate 4 (.main .ok)

/-- `main` registers its handler, and the application calls `stop()`. -/
def stopping : List (GlobalLabel ℕ) :=
  [.stopping (.sigaction (.forwarder .main) .sigterm), .stopping (.stop (.application 0)),
    .stopping (.callHandler (.application 0))]

/-- `main` leaves its loop, and all end. -/
def ending : List (GlobalLabel ℕ) :=
  [.main .ok, .ends .up, .ends .down, .main .ok, .main .ok, .ends .timersync, .ends .jit,
    .main .ok, .main .ok, .main .ok, .main .ok]

/-- A round without GPS, with what `main` does after `stop()` in its last interval. -/
def round (interval : List (GlobalLabel ℕ)) : List (GlobalLabel ℕ) :=
  toLoop ++ stopping ++ interval ++ ending

/-- What happens in an interval whose report is sent, and whose packet is dequeued, before the
stop. -/
def settled : List (GlobalLabel ℕ) :=
  [.count .up .upDgramSent 1, .jitCall .down (.enqueue (instant 0) (some (packetAt 1000000))
    .downlinkClassA), .copyAndReset true, .copyAndReset false, .report, .sendReport,
    .jitCall .jit (.dequeue 0 true)]

end Forwarder

end PacketForwarder
