import PacketForwarder.Downlink
import PacketForwarder.Lib.Runs
import PacketForwarder.Uplink

/-!
# The statistics in the status report

`thread_up` and `thread_down` count, `main` copies the counters at the end of each
interval and resets them.  The steps are the critical sections of `mx_meas_up` and
`mx_meas_dw`, in any order.  The counters are numbers here: they are taken not to
reach `2 ^ 32`.  The runs are those of the first `start()` of a program, whose counters are
zero; what a later one finds in them is a matter of `reset()`.

* `Statistics.Step` — the critical sections; a `PUSH_DATA` and its acknowledgement are
  counted in one, a `PULL_DATA` and its acknowledgement in two, and so are a request
  and its rejection;
* `Statistics.Balance` — the invariant, which says for every pair of counters what the
  interval still owes;
* `onDatagram_counts` — what `thread_down` does with a datagram are steps of these;
* `copyDw_ack_le_iff`, `percentages_within` — the snapshots are sound as long as no
  interval counts more acknowledgements than requests, and when that is;
* `pullAck_twice_in_interval` — two keepalives make it 200 %.
-/

namespace PacketForwarder

/-! ## The counters -/

/-- The counters under `mx_meas_up` that a percentage is computed from. -/
structure UpCounters where
  nbRxRcv : ℕ
  nbRxOk : ℕ
  nbRxBad : ℕ
  nbRxNocrc : ℕ
  upDgramSent : ℕ
  upAckRcv : ℕ
  deriving DecidableEq

/-- What `mem_recv` returns to `thread_up` when it waits for a `PUSH_ACK`. -/
inductive PushReply
  | timeout
  /-- The connection fails, with any error but `EAGAIN`. -/
  | connectionError
  /-- Not a `PUSH_ACK`, or one with another token. -/
  | ignored
  | ack
  deriving DecidableEq

/-- How often the loop that waits for the `PUSH_ACK` counts one. -/
def acksCounted : List PushReply → ℕ
  | [] => 0
  | .connectionError :: _ => 0
  | .ack :: _ => 1
  | _ :: replies => acksCounted replies

theorem acksCounted_le_one (replies : List PushReply) : acksCounted replies ≤ 1 := by
  induction replies with
  | nil => exact Nat.zero_le 1
  | cons reply replies ih =>
    cases reply with
    | timeout => exact ih
    | connectionError => exact Nat.zero_le 1
    | ignored => exact ih
    | ack => exact le_rfl

namespace UpCounters

def zero : UpCounters := ⟨0, 0, 0, 0, 0, 0⟩

/-- A packet is counted before it is filtered. -/
def countRx (c : UpCounters) : RxStatus → UpCounters
  | .crcOk => { c with nbRxRcv := c.nbRxRcv + 1, nbRxOk := c.nbRxOk + 1 }
  | .crcBad => { c with nbRxRcv := c.nbRxRcv + 1, nbRxBad := c.nbRxBad + 1 }
  | .noCrc => { c with nbRxRcv := c.nbRxRcv + 1, nbRxNocrc := c.nbRxNocrc + 1 }
  | .undefined => { c with nbRxRcv := c.nbRxRcv + 1 }

/-- A `PUSH_DATA` is counted, and then its acknowledgement, which is waited for twice. -/
def countPush (c : UpCounters) (replies : List PushReply) : UpCounters :=
  { c with
    upDgramSent := c.upDgramSent + 1
    upAckRcv := c.upAckRcv + acksCounted (replies.take 2) }

/-- No more of any kind than there are in all. -/
structure Sound (c : UpCounters) : Prop where
  rx : c.nbRxOk + c.nbRxBad + c.nbRxNocrc ≤ c.nbRxRcv
  ack : c.upAckRcv ≤ c.upDgramSent

theorem sound_zero : zero.Sound := ⟨le_rfl, le_rfl⟩

theorem Sound.countRx {c : UpCounters} (h : c.Sound) (status : RxStatus) :
    (c.countRx status).Sound := by
  obtain ⟨hrx, hack⟩ := h
  cases status with
  | undefined => exact ⟨Nat.le_succ_of_le hrx, hack⟩
  | noCrc => exact ⟨Nat.succ_le_succ hrx, hack⟩
  | crcBad => exact ⟨by simp only [UpCounters.countRx]; omega, hack⟩
  | crcOk => exact ⟨by simp only [UpCounters.countRx]; omega, hack⟩

theorem Sound.countPush {c : UpCounters} (h : c.Sound) (replies : List PushReply) :
    (c.countPush replies).Sound :=
  ⟨h.rx, Nat.add_le_add h.ack (acksCounted_le_one _)⟩

end UpCounters

/-- The counters under `mx_meas_dw` that a percentage is computed from. -/
structure DwCounters where
  dwPullSent : ℕ
  dwAckRcv : ℕ
  nbTxRequested : ℕ
  nbTxRejectedCollisionPacket : ℕ
  nbTxRejectedCollisionBeacon : ℕ
  nbTxRejectedTooLate : ℕ
  nbTxRejectedTooEarly : ℕ
  deriving DecidableEq

/-- How often `send_tx_ack` counts an error. -/
def JitError.rejections : JitError → ℕ
  | .full | .collisionPacket | .tooLate | .tooEarly | .collisionBeacon => 1
  | .ok | .empty | .invalid | .txFreq | .txPower | .gpsUnlocked => 0

namespace DwCounters

def zero : DwCounters := ⟨0, 0, 0, 0, 0, 0, 0⟩

/-- The counter of this error goes up by one. -/
def countRejected (c : DwCounters) : JitError → DwCounters
  | .full | .collisionPacket =>
    { c with nbTxRejectedCollisionPacket := c.nbTxRejectedCollisionPacket + 1 }
  | .tooLate => { c with nbTxRejectedTooLate := c.nbTxRejectedTooLate + 1 }
  | .tooEarly => { c with nbTxRejectedTooEarly := c.nbTxRejectedTooEarly + 1 }
  | .collisionBeacon => { c with nbTxRejectedCollisionBeacon := c.nbTxRejectedCollisionBeacon + 1 }
  | .ok | .empty | .invalid | .txFreq | .txPower | .gpsUnlocked => c

/-- The four rejection counters are added up, as one request is counted in one of them. -/
def rejected (c : DwCounters) : ℕ :=
  c.nbTxRejectedCollisionPacket + c.nbTxRejectedCollisionBeacon + c.nbTxRejectedTooLate +
    c.nbTxRejectedTooEarly

/-- `main` overwrites the copies of the `PULL_DATA` counters and accumulates the others. -/
def copy (cp c : DwCounters) : DwCounters where
  dwPullSent := c.dwPullSent
  dwAckRcv := c.dwAckRcv
  nbTxRequested := cp.nbTxRequested + c.nbTxRequested
  nbTxRejectedCollisionPacket := cp.nbTxRejectedCollisionPacket + c.nbTxRejectedCollisionPacket
  nbTxRejectedCollisionBeacon := cp.nbTxRejectedCollisionBeacon + c.nbTxRejectedCollisionBeacon
  nbTxRejectedTooLate := cp.nbTxRejectedTooLate + c.nbTxRejectedTooLate
  nbTxRejectedTooEarly := cp.nbTxRejectedTooEarly + c.nbTxRejectedTooEarly

theorem rejected_countRejected (c : DwCounters) (error : JitError) :
    (c.countRejected error).rejected = c.rejected + error.rejections := by
  cases error <;> simp only [countRejected, rejected, JitError.rejections] <;> omega

@[simp] theorem dwPullSent_countRejected (c : DwCounters) (error : JitError) :
    (c.countRejected error).dwPullSent = c.dwPullSent := by
  cases error <;> rfl

@[simp] theorem dwAckRcv_countRejected (c : DwCounters) (error : JitError) :
    (c.countRejected error).dwAckRcv = c.dwAckRcv := by
  cases error <;> rfl

@[simp] theorem nbTxRequested_countRejected (c : DwCounters) (error : JitError) :
    (c.countRejected error).nbTxRequested = c.nbTxRequested := by
  cases error <;> rfl

theorem rejected_copy (cp c : DwCounters) : (cp.copy c).rejected = cp.rejected + c.rejected := by
  simp only [copy, rejected]
  omega

end DwCounters

/-! ## The critical sections -/

/-- Where `thread_down` is, between two critical sections. -/
inductive StatPc
  /-- The thread has not counted any `PULL_DATA` yet. -/
  | start
  /-- The thread listens for datagrams, and `reqAck` is its `req_ack`. -/
  | listening (reqAck : Bool)
  /-- It is about to send a `TX_ACK`. -/
  | answering (reqAck : Bool) (error : JitError)
  deriving DecidableEq

/-- `req_ack`, once there is a `PULL_DATA`. -/
def StatPc.reqAck : StatPc → Option Bool
  | .start => none
  | .listening reqAck | .answering reqAck _ => some reqAck

/-- The rejection that is yet to be counted. -/
def StatPc.owed : StatPc → ℕ
  | .start | .listening _ => 0
  | .answering _ error => error.rejections

/-- What becomes of the `PULL_DATA` of an interval; no thread knows this. -/
structure PullHistory where
  /-- The last `PULL_DATA` was counted since the last copy. -/
  here : Bool
  /-- How many were counted since the last copy and have not been acknowledged. -/
  unanswered : ℕ
  /-- How many acknowledgements counted since the last copy are for one counted before it. -/
  late : ℕ
  deriving DecidableEq

namespace PullHistory

def none : PullHistory := ⟨false, 0, 0⟩

def pullData (p : PullHistory) : PullHistory :=
  { p with here := true, unanswered := p.unanswered + 1 }

def pullAck (p : PullHistory) : PullHistory :=
  if p.here then { p with unanswered := p.unanswered - 1 } else { p with late := p.late + 1 }

end PullHistory

/-- The counters, the copies `main` has of them, and `thread_down`. -/
structure Statistics where
  measUp : UpCounters
  measDw : DwCounters
  cpUp : UpCounters
  cpDw : DwCounters
  /-- `main` has copied the upstream counters and not yet the downstream ones. -/
  upCopied : Bool
  down : StatPc
  /-- What has become of the `PULL_DATA`, recorded for the statements. -/
  pulls : PullHistory
  deriving DecidableEq

/-- A critical section and its inputs. -/
inductive StatLabel
  /-- A packet received by the concentrator. -/
  | rx (status : RxStatus)
  /-- A `PUSH_DATA`, and what is received after it. -/
  | pushData (replies : List PushReply)
  | pullData
  /-- A `PULL_ACK` with the right token, the first one. -/
  | pullAck
  /-- A packet was offered to the queue, with this result. -/
  | request (error : JitError)
  /-- A packet was refused before that. -/
  | refuse (error : JitError)
  /-- `send_tx_ack`. -/
  | txAck
  | copyUp
  | copyDw
  deriving DecidableEq

/-- What a packet is refused with before it is offered to the queue. -/
def JitError.OfParameters (error : JitError) : Prop :=
  error = .txFreq ∨ error = .txPower ∨ error = .gpsUnlocked

namespace Statistics

/-- The program starts for the first time, with all counters at zero. -/
def start : Statistics := ⟨.zero, .zero, .zero, .zero, false, .start, .none⟩

/-- The steps are the critical sections of the two mutexes, and the thread's way between them. -/
inductive Step : Statistics → StatLabel → Statistics → Prop
  | rx {s : Statistics} {status : RxStatus} :
    Step s (.rx status) { s with measUp := s.measUp.countRx status }
  | pushData {s : Statistics} {replies : List PushReply} :
    Step s (.pushData replies) { s with measUp := s.measUp.countPush replies }
  /-- The first `PULL_DATA`, or that of the next keepalive. -/
  | pullData {s : Statistics} (hpc : ∀ b error, s.down ≠ .answering b error) :
    Step s .pullData
      { s with
        measDw := { s.measDw with dwPullSent := s.measDw.dwPullSent + 1 }
        down := .listening false
        pulls := s.pulls.pullData }
  | pullAck {s : Statistics} (hpc : s.down = .listening false) :
    Step s .pullAck
      { s with
        measDw := { s.measDw with dwAckRcv := s.measDw.dwAckRcv + 1 }
        down := .listening true
        pulls := s.pulls.pullAck }
  | request {s : Statistics} {reqAck : Bool} {error : JitError}
    (hpc : s.down = .listening reqAck) :
    Step s (.request error)
      { s with
        measDw := { s.measDw with nbTxRequested := s.measDw.nbTxRequested + 1 }
        down := .answering reqAck error }
  | refuse {s : Statistics} {reqAck : Bool} {error : JitError}
    (hpc : s.down = .listening reqAck) (he : error.OfParameters) :
    Step s (.refuse error) { s with down := .answering reqAck error }
  | txAck {s : Statistics} {reqAck : Bool} {error : JitError}
    (hpc : s.down = .answering reqAck error) :
    Step s .txAck
      { s with measDw := s.measDw.countRejected error, down := .listening reqAck }
  | copyUp {s : Statistics} (hpc : s.upCopied = false) :
    Step s .copyUp { s with cpUp := s.measUp, measUp := .zero, upCopied := true }
  | copyDw {s : Statistics} (hpc : s.upCopied = true) :
    Step s .copyDw
      { s with
        cpDw := s.cpDw.copy s.measDw, measDw := .zero, upCopied := false, pulls := .none }

/-- States reached by steps that satisfy `ok`. -/
abbrev ReachableBy (ok : Statistics → StatLabel → Prop) (s : Statistics) : Prop :=
  Runs.Reaches Step ok start s

/-- The states that the program reaches under some schedule. -/
abbrev Reachable (s : Statistics) : Prop := ReachableBy Runs.anyStep s

/-! ## What the counters owe each other -/

/-- The invariant says for each pair of counters what the current interval owes. -/
structure Balance (s : Statistics) : Prop where
  up : s.measUp.Sound
  upCopy : s.cpUp.Sound
  /-- An acknowledgement is for a `PULL_DATA` of the interval, or it is late. -/
  pulls : s.measDw.dwAckRcv + s.pulls.unanswered = s.measDw.dwPullSent + s.pulls.late
  /-- Only the `PULL_DATA` that was outstanding at the copy can be acknowledged late. -/
  late : s.pulls.late ≤ 1
  outstanding : s.down.reqAck = some false →
    if s.pulls.here then 0 < s.pulls.unanswered else s.pulls.late = 0
  /-- A rejection is counted after its request. -/
  rejections : s.cpDw.rejected + s.measDw.rejected + s.down.owed ≤
    s.cpDw.nbTxRequested + s.measDw.nbTxRequested
  rejectionsCopy : s.cpDw.rejected ≤ s.cpDw.nbTxRequested

theorem balance_start : start.Balance :=
  ⟨UpCounters.sound_zero, UpCounters.sound_zero, rfl, Nat.zero_le 1, (by intro h; cases h), le_rfl,
    le_rfl⟩

variable {s s' : Statistics}

/-- Counting a `PULL_DATA` leaves it outstanding, and in this interval. -/
theorem Balance.pullData (hb : s.Balance) (hpc : ∀ b error, s.down ≠ .answering b error) :
    Balance
      { s with
        measDw := { s.measDw with dwPullSent := s.measDw.dwPullSent + 1 }
        down := .listening false
        pulls := s.pulls.pullData } := by
  have howed : s.down.owed = 0 := by
    cases hd : s.down with
    | start => rfl
    | listening reqAck => rfl
    | answering reqAck error => exact absurd hd (hpc reqAck error)
  refine ⟨hb.up, hb.upCopy, ?_, hb.late, ?_, ?_, hb.rejectionsCopy⟩
  · have h := hb.pulls
    simp only [PullHistory.pullData]
    omega
  · intro _
    exact Nat.succ_pos _
  · have h := hb.rejections
    rw [howed] at h
    exact h

/-- An acknowledgement settles the `PULL_DATA` that is outstanding. -/
theorem Balance.pullAck (hb : s.Balance) (hpc : s.down = .listening false) :
    Balance
      { s with
        measDw := { s.measDw with dwAckRcv := s.measDw.dwAckRcv + 1 }
        down := .listening true
        pulls := s.pulls.pullAck } := by
  have hout := hb.outstanding (by rw [hpc]; rfl)
  have hpulls := hb.pulls
  have hlate := hb.late
  have hrej := hb.rejections
  rw [hpc] at hrej
  refine ⟨hb.up, hb.upCopy, ?_, ?_, (by intro h; cases h), hrej, hb.rejectionsCopy⟩
  · unfold PullHistory.pullAck
    by_cases hhere : s.pulls.here = true
    · rw [if_pos hhere] at hout ⊢
      show s.measDw.dwAckRcv + 1 + (s.pulls.unanswered - 1) = s.measDw.dwPullSent + s.pulls.late
      omega
    · rw [if_neg hhere] at hout ⊢
      show s.measDw.dwAckRcv + 1 + s.pulls.unanswered = s.measDw.dwPullSent + (s.pulls.late + 1)
      omega
  · unfold PullHistory.pullAck
    by_cases hhere : s.pulls.here = true
    · rw [if_pos hhere]
      exact hlate
    · rw [if_neg hhere] at hout ⊢
      show s.pulls.late + 1 ≤ 1
      omega

/-- A request pays for its rejection. -/
theorem Balance.request (hb : s.Balance) {reqAck : Bool} (hpc : s.down = .listening reqAck)
    (error : JitError) :
    Balance
      { s with
        measDw := { s.measDw with nbTxRequested := s.measDw.nbTxRequested + 1 }
        down := .answering reqAck error } := by
  refine ⟨hb.up, hb.upCopy, hb.pulls, hb.late, ?_, ?_, hb.rejectionsCopy⟩
  · intro h
    exact hb.outstanding (by rw [hpc]; exact h)
  · have hrej := hb.rejections
    have hone : error.rejections ≤ 1 := by cases error <;> decide
    rw [hpc] at hrej
    show s.cpDw.rejected + s.measDw.rejected + error.rejections ≤
      s.cpDw.nbTxRequested + (s.measDw.nbTxRequested + 1)
    simp only [StatPc.owed] at hrej
    omega

/-- What is refused for its parameters is no rejection. -/
theorem Balance.refuse (hb : s.Balance) {reqAck : Bool} {error : JitError}
    (hpc : s.down = .listening reqAck) (he : error.OfParameters) :
    Balance { s with down := .answering reqAck error } := by
  have hzero : error.rejections = 0 := by
    rcases he with rfl | rfl | rfl <;> rfl
  refine ⟨hb.up, hb.upCopy, hb.pulls, hb.late, ?_, ?_, hb.rejectionsCopy⟩
  · intro h
    exact hb.outstanding (by rw [hpc]; exact h)
  · have hrej := hb.rejections
    rw [hpc] at hrej
    show _ + error.rejections ≤ _
    rw [hzero]
    exact hrej

/-- A rejection that was owed is counted. -/
theorem Balance.txAck (hb : s.Balance) {reqAck : Bool} {error : JitError}
    (hpc : s.down = .answering reqAck error) :
    Balance { s with measDw := s.measDw.countRejected error, down := .listening reqAck } := by
  refine ⟨hb.up, hb.upCopy, ?_, hb.late, ?_, ?_, hb.rejectionsCopy⟩
  · simpa using hb.pulls
  · intro h
    exact hb.outstanding (by rw [hpc]; exact h)
  · have hrej := hb.rejections
    rw [hpc] at hrej
    show s.cpDw.rejected + (s.measDw.countRejected error).rejected + 0 ≤
      s.cpDw.nbTxRequested + (s.measDw.countRejected error).nbTxRequested
    rw [DwCounters.rejected_countRejected, DwCounters.nbTxRequested_countRejected]
    simp only [StatPc.owed] at hrej
    omega

/-- After a copy the interval owes nothing but what is outstanding. -/
theorem Balance.copyDw (hb : s.Balance) :
    Balance
      { s with
        cpDw := s.cpDw.copy s.measDw, measDw := .zero, upCopied := false, pulls := .none } := by
  have hrej := hb.rejections
  refine ⟨hb.up, hb.upCopy, rfl, Nat.zero_le 1, fun _ => rfl, ?_, ?_⟩
  · show (s.cpDw.copy s.measDw).rejected + 0 + s.down.owed ≤ _ + _ + 0
    rw [DwCounters.rejected_copy]
    exact hrej
  · show (s.cpDw.copy s.measDw).rejected ≤ _ + _
    rw [DwCounters.rejected_copy]
    omega

/-- **Every critical section keeps the balance.** -/
theorem Balance.step (hb : s.Balance) {l : StatLabel} (hst : Step s l s') : s'.Balance := by
  cases hst with
  | rx =>
    exact ⟨hb.up.countRx _, hb.upCopy, hb.pulls, hb.late, hb.outstanding, hb.rejections,
      hb.rejectionsCopy⟩
  | pushData =>
    exact ⟨hb.up.countPush _, hb.upCopy, hb.pulls, hb.late, hb.outstanding, hb.rejections,
      hb.rejectionsCopy⟩
  | pullData hpc => exact hb.pullData hpc
  | pullAck hpc => exact hb.pullAck hpc
  | request hpc => exact hb.request hpc _
  | refuse hpc he => exact hb.refuse hpc he
  | txAck hpc => exact hb.txAck hpc
  | copyUp _ =>
    exact ⟨UpCounters.sound_zero, hb.up, hb.pulls, hb.late, hb.outstanding, hb.rejections,
      hb.rejectionsCopy⟩
  | copyDw _ => exact hb.copyDw

theorem balance_of_reachableBy {ok : Statistics → StatLabel → Prop} (h : ReachableBy ok s) :
    s.Balance :=
  Runs.Reaches.invariant balance_start (fun _ _ _ _ hb _ hst => hb.step hst) h

/-! ## The snapshots -/

/-- The percentages rest on these relations between the copied counters. -/
structure SnapshotSound (s : Statistics) : Prop where
  rx : s.cpUp.nbRxOk + s.cpUp.nbRxBad + s.cpUp.nbRxNocrc ≤ s.cpUp.nbRxRcv
  upAck : s.cpUp.upAckRcv ≤ s.cpUp.upDgramSent
  dwAck : s.cpDw.dwAckRcv ≤ s.cpDw.dwPullSent
  rejected : s.cpDw.rejected ≤ s.cpDw.nbTxRequested

/-- A percentage is 100 times a ratio, or 0 where there is nothing to divide by.  It is the exact
quotient: `main` computes it with `float` operations, whose roundings are left out. -/
def percent (part whole : ℕ) : ℚ := if 0 < whole then 100 * (part / whole) else 0

/-- The percentages that `main` prints, in its order. -/
def percentages (s : Statistics) : List ℚ :=
  [percent s.cpUp.nbRxOk s.cpUp.nbRxRcv, percent s.cpUp.nbRxBad s.cpUp.nbRxRcv,
    percent s.cpUp.nbRxNocrc s.cpUp.nbRxRcv, percent s.cpUp.upAckRcv s.cpUp.upDgramSent,
    percent s.cpDw.dwAckRcv s.cpDw.dwPullSent,
    percent s.cpDw.nbTxRejectedCollisionPacket s.cpDw.nbTxRequested,
    percent s.cpDw.nbTxRejectedCollisionBeacon s.cpDw.nbTxRequested,
    percent s.cpDw.nbTxRejectedTooLate s.cpDw.nbTxRequested,
    percent s.cpDw.nbTxRejectedTooEarly s.cpDw.nbTxRequested]

theorem percent_mem_Icc {part whole : ℕ} (h : part ≤ whole) :
    percent part whole ∈ Set.Icc (0 : ℚ) 100 := by
  unfold percent
  split
  · rename_i hpos
    have hle : (part : ℚ) / whole ≤ 1 := div_le_one_of_le₀ (by exact_mod_cast h) (by positivity)
    exact ⟨by positivity, by linarith⟩
  · exact ⟨le_rfl, by norm_num⟩

/-- A sound snapshot has sound percentages. -/
theorem SnapshotSound.percentages_mem (h : s.SnapshotSound) :
    ∀ p ∈ s.percentages, p ∈ Set.Icc (0 : ℚ) 100 := by
  obtain ⟨hrx, hup, hdw, hrej⟩ := h
  unfold DwCounters.rejected at hrej
  simp only [percentages, List.forall_mem_cons]
  refine ⟨?_, ?_, ?_, ?_, ?_, ?_, ?_, ?_, ?_, fun _ h => (List.not_mem_nil h).elim⟩ <;>
    exact percent_mem_Icc (by omega)

/-- `main` may copy the downstream counters if no late acknowledgement is among them, or if
there is a `PULL_DATA` which has not been acknowledged to make up for it. -/
def LateAckCovered (s : Statistics) (l : StatLabel) : Prop :=
  l = .copyDw → s.pulls.late = 0 ∨ 0 < s.pulls.unanswered

/-- The copy of the acknowledgements is sound exactly if a late one is made up for. -/
theorem copyDw_ack_le_iff (h : s.Reachable) (hst : Step s .copyDw s') :
    s'.cpDw.dwAckRcv ≤ s'.cpDw.dwPullSent ↔ LateAckCovered s .copyDw := by
  have hb := balance_of_reachableBy h
  have hpulls := hb.pulls
  have hlate := hb.late
  cases hst
  show s.measDw.dwAckRcv ≤ s.measDw.dwPullSent ↔ _
  constructor
  · intro hle _
    omega
  · intro hcov
    have := hcov rfl
    omega

/-- A step that does not copy leaves the copies as they are. -/
theorem Step.cpDw_eq {l : StatLabel} (hst : Step s l s') (hl : l ≠ .copyDw) :
    s'.cpDw = s.cpDw := by
  cases hst <;> first | rfl | exact absurd rfl hl

/-- Whatever the schedule, only the acknowledgements of the `PULL_DATA` can exceed 100 %. -/
theorem snapshotSound_of_dwAck {ok : Statistics → StatLabel → Prop} (h : ReachableBy ok s)
    (hack : s.cpDw.dwAckRcv ≤ s.cpDw.dwPullSent) : s.SnapshotSound :=
  have hb := balance_of_reachableBy h
  ⟨hb.upCopy.rx, hb.upCopy.ack, hack, hb.rejectionsCopy⟩

/-- **The percentages.**  In every schedule in which each copy of the downstream counters has
its late acknowledgement made up for, if it has one, every snapshot is sound and every
percentage printed is within 0 and 100. -/
theorem percentages_within (h : ReachableBy LateAckCovered s) :
    s.SnapshotSound ∧ ∀ p ∈ s.percentages, p ∈ Set.Icc (0 : ℚ) 100 := by
  have hack : s.cpDw.dwAckRcv ≤ s.cpDw.dwPullSent := by
    induction h with
    | start => exact le_rfl
    | @next s s' l hr hok hst ih =>
      by_cases hl : l = .copyDw
      · subst hl
        exact (copyDw_ack_le_iff (hr.mono fun _ _ _ => trivial) hst).mpr hok
      · rw [hst.cpDw_eq hl]
        exact ih
  have hsound := snapshotSound_of_dwAck h hack
  exact ⟨hsound, hsound.percentages_mem⟩

/-- A `PULL_DATA` and an interval's end, before the acknowledgement arrives. -/
def pulledAndCopied : Statistics where
  measUp := .zero
  measDw := .zero
  cpUp := .zero
  cpDw := { DwCounters.zero with dwPullSent := 1 }
  upCopied := false
  down := .listening false
  pulls := .none

theorem reaches_pulledAndCopied : ReachableBy LateAckCovered pulledAndCopied :=
  have hpull : ReachableBy LateAckCovered _ :=
    .next .start (by intro h; cases h) (.pullData (by intro b error h; cases h))
  have hup := hpull.next (by intro h; cases h) (.copyUp rfl)
  hup.next (fun _ => .inl rfl) (.copyDw rfl)

/-- The late acknowledgement of one interval, and a `PULL_DATA` that waits for its own: 100 %. -/
theorem percentages_within_late_ack :
    let s := { pulledAndCopied with cpDw := ⟨1, 1, 0, 0, 0, 0, 0⟩ }
    s.SnapshotSound ∧ ∀ p ∈ s.percentages, p ∈ Set.Icc (0 : ℚ) 100 := by
  have hack := reaches_pulledAndCopied.next (by intro h; cases h) (.pullAck rfl)
  have hpull := hack.next (by intro h; cases h) (.pullData (by intro b error h; cases h))
  have hup := hpull.next (by intro h; cases h) (.copyUp rfl)
  exact percentages_within (hup.next (fun _ => .inr (by decide)) (.copyDw rfl))

/-- Both acknowledgements are counted after the copy, but only one `PULL_DATA`: 200 %. -/
theorem pullAck_twice_in_interval :
    ¬∀ s, Reachable s → s.SnapshotSound ∧ ∀ p ∈ s.percentages, p ∈ Set.Icc (0 : ℚ) 100 := by
  intro h
  have hcopied : Reachable pulledAndCopied := reaches_pulledAndCopied.mono fun _ _ _ => trivial
  have hack := hcopied.next trivial (.pullAck rfl)
  have hpull := hack.next trivial (.pullData (by intro b error h; cases h))
  have hack' := hpull.next trivial (.pullAck rfl)
  have hup := hack'.next trivial (.copyUp rfl)
  have hsound := (h _ (hup.next trivial (.copyDw rfl))).1
  exact absurd hsound.dwAck (by decide)

end Statistics

/-! ## The thread that counts -/

/-- The counters are those of `thread_down`. -/
structure DwCounters.Agrees (c : DwCounters) (m : MeasDw) : Prop where
  ackRcv : c.dwAckRcv = m.dwAckRcv.toNat
  requested : c.nbTxRequested = m.nbTxRequested.toNat
  collisionPacket : c.nbTxRejectedCollisionPacket = m.nbTxRejectedCollisionPacket.toNat
  collisionBeacon : c.nbTxRejectedCollisionBeacon = m.nbTxRejectedCollisionBeacon.toNat
  tooLate : c.nbTxRejectedTooLate = m.nbTxRejectedTooLate.toNat
  tooEarly : c.nbTxRejectedTooEarly = m.nbTxRejectedTooEarly.toNat

/-- No rejection counter is about to reach `2 ^ 32`. -/
structure MeasDw.RejectionRoom (m : MeasDw) : Prop where
  collisionPacket : m.nbTxRejectedCollisionPacket.toNat + 1 < 2 ^ 32
  collisionBeacon : m.nbTxRejectedCollisionBeacon.toNat + 1 < 2 ^ 32
  tooLate : m.nbTxRejectedTooLate.toNat + 1 < 2 ^ 32
  tooEarly : m.nbTxRejectedTooEarly.toNat + 1 < 2 ^ 32

/-- No counter is about to reach `2 ^ 32`. -/
structure MeasDw.Room (m : MeasDw) : Prop extends m.RejectionRoom where
  ackRcv : m.dwAckRcv.toNat + 1 < 2 ^ 32
  requested : m.nbTxRequested.toNat + 1 < 2 ^ 32

/-- Counting up to less than `2 ^ 32` is counting. -/
theorem toNat_add_one {x : U32} (h : x.toNat + 1 < 2 ^ 32) : (x + 1).toNat = x.toNat + 1 := by
  rw [BitVec.toNat_add, Nat.mod_eq_of_lt (by simpa using h)]
  rfl

theorem DwCounters.Agrees.countRejected {c : DwCounters} {m : MeasDw} (h : c.Agrees m)
    (hr : m.RejectionRoom) (error : JitError) :
    (c.countRejected error).Agrees (m.countRejected error) := by
  obtain ⟨hack, hreq, hpacket, hbeacon, hlate, hearly⟩ := h
  have hpacket' := congrArg Nat.succ hpacket
  have hbeacon' := congrArg Nat.succ hbeacon
  have hlate' := congrArg Nat.succ hlate
  have hearly' := congrArg Nat.succ hearly
  rw [Nat.succ_eq_add_one, Nat.succ_eq_add_one, ← toNat_add_one hr.collisionPacket] at hpacket'
  rw [Nat.succ_eq_add_one, Nat.succ_eq_add_one, ← toNat_add_one hr.collisionBeacon] at hbeacon'
  rw [Nat.succ_eq_add_one, Nat.succ_eq_add_one, ← toNat_add_one hr.tooLate] at hlate'
  rw [Nat.succ_eq_add_one, Nat.succ_eq_add_one, ← toNat_add_one hr.tooEarly] at hearly'
  cases error with
  | full | collisionPacket => exact ⟨hack, hreq, hpacket', hbeacon, hlate, hearly⟩
  | tooLate => exact ⟨hack, hreq, hpacket, hbeacon, hlate', hearly⟩
  | tooEarly => exact ⟨hack, hreq, hpacket, hbeacon, hlate, hearly'⟩
  | collisionBeacon => exact ⟨hack, hreq, hpacket, hbeacon', hlate, hearly⟩
  | ok | empty | invalid | txFreq | txPower | gpsUnlocked =>
    exact ⟨hack, hreq, hpacket, hbeacon, hlate, hearly⟩

/-- `thread_down` is between two datagrams, and its counters and `req_ack` are the gateway's. -/
structure Statistics.Counts (s : Statistics) (g : Gateway) : Prop where
  down : s.down = .listening g.reqAck
  agrees : s.measDw.Agrees g.measDw

variable {env : DownEnv} {g : Gateway} {s : Statistics}

/-- What the checks refuse a packet with. -/
theorem ofParameters_txError {txpkt : LgwPktTx} (h : txError env g txpkt ≠ .ok) :
    (txError env g txpkt).OfParameters := by
  unfold txError at h ⊢
  split_ifs at h ⊢ with hfreq hpower
  · exact .inl rfl
  · exact .inr (.inl rfl)
  · exact absurd rfl h

/-- A request that is refused is counted, and so is the error of its `TX_ACK`. -/
theorem refuse_counts (hc : s.Counts g) (hr : g.measDw.RejectionRoom) (tokenH tokenL : U8)
    {error : JitError} (he : error.OfParameters) :
    ∃ s', Runs.Reaches Statistics.Step Runs.anyStep s s' ∧
      s'.Counts (sendTxAck g tokenH tokenL error).gateway := by
  have hrefuse : Runs.Reaches Statistics.Step Runs.anyStep s _ :=
    .next .start trivial (Statistics.Step.refuse hc.down he)
  exact ⟨_, hrefuse.next trivial (.txAck rfl), rfl, hc.agrees.countRejected hr error⟩

/-- A packet read from the JSON is refused, or counted as a request and answered. -/
theorem onRequest_counts (hc : s.Counts g) (hr : g.measDw.Room) (time : Timeval)
    (buff : List U8) (txpkt : LgwPktTx) (t : JitPktType) :
    ∃ s', Runs.Reaches Statistics.Step Runs.anyStep s s' ∧
      s'.Counts (onRequest env g time buff txpkt t).gateway := by
  have hroom : (g.measDw.countDgram buff.length txpkt).RejectionRoom :=
    ⟨hr.collisionPacket, hr.collisionBeacon, hr.tooLate, hr.tooEarly⟩
  have hagrees : s.measDw.Agrees (g.measDw.countDgram buff.length txpkt) :=
    ⟨hc.agrees.ackRcv, hc.agrees.requested, hc.agrees.collisionPacket,
      hc.agrees.collisionBeacon, hc.agrees.tooLate, hc.agrees.tooEarly⟩
  unfold onRequest
  simp only
  by_cases hok : txError env { g with measDw := g.measDw.countDgram buff.length txpkt } txpkt = .ok
  · rw [if_pos hok]
    have hst : Statistics.Step s
        (.request (jitEnqueue env.jit g.jitQueue time (some txpkt) t).error) _ := .request hc.down
    have hreq : Runs.Reaches Statistics.Step Runs.anyStep s _ := .next .start trivial hst
    have hone : s.measDw.nbTxRequested + 1 = (g.measDw.nbTxRequested + 1).toNat := by
      rw [toNat_add_one hr.requested, hc.agrees.requested]
    have hcounted : DwCounters.Agrees
        { s.measDw with nbTxRequested := s.measDw.nbTxRequested + 1 }
        { g.measDw.countDgram buff.length txpkt with
          nbTxRequested := g.measDw.nbTxRequested + 1 } :=
      ⟨hagrees.ackRcv, hone, hagrees.collisionPacket, hagrees.collisionBeacon,
        hagrees.tooLate, hagrees.tooEarly⟩
    exact ⟨_, hreq.next trivial (.txAck rfl), rfl,
      hcounted.countRejected ⟨hr.collisionPacket, hr.collisionBeacon, hr.tooLate, hr.tooEarly⟩ _⟩
  · rw [if_neg hok]
    exact refuse_counts (g := { g with measDw := g.measDw.countDgram buff.length txpkt })
      ⟨hc.down, hagrees⟩ hroom _ _ (ofParameters_txError hok)

/-- **A datagram is counted in these critical sections.**  What `thread_down` does to its
counters with any datagram is what steps of `Statistics` do. -/
theorem onDatagram_counts (hc : s.Counts g) (hr : g.measDw.Room) (time : Timeval)
    (buff : List U8) :
    ∃ s', Runs.Reaches Statistics.Step Runs.anyStep s s' ∧
      s'.Counts (onDatagram env g time buff).gateway := by
  unfold onDatagram
  split
  · unfold onPullAck
    split
    · rename_i hfirst
      have hdown : s.down = .listening false := by rw [hc.down, hfirst.2.2]
      have hone : s.measDw.dwAckRcv + 1 = (g.measDw.dwAckRcv + 1).toNat := by
        rw [toNat_add_one hr.ackRcv, hc.agrees.ackRcv]
      exact ⟨_, .next .start trivial (.pullAck hdown), rfl, hone, hc.agrees.requested,
        hc.agrees.collisionPacket, hc.agrees.collisionBeacon, hc.agrees.tooLate,
        hc.agrees.tooEarly⟩
    · exact ⟨s, .start, hc⟩
  · split
    · unfold onPullResp
      split
      · exact ⟨s, .start, hc⟩
      · exact refuse_counts hc hr.toRejectionRoom _ _ (.inr (.inr rfl))
      · exact ⟨s, .start, hc⟩
      · exact onRequest_counts hc hr time buff _ _
    · exact ⟨s, .start, hc⟩

end PacketForwarder
