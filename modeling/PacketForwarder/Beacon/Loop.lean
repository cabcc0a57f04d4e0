import PacketForwarder.Beacon
import PacketForwarder.JitQueue.Verdict
import PacketForwarder.Lib.Search

/-!
# Whether the beacon loop ends

`thread_down` fills up the beacons in the queue in a loop that it leaves when none is
missing, or when the GPS reference is lost.  After any failure it tries one period
later.  Here the reference stays valid, no other thread touches the queue, and each
pass reads a reference and a time of its own.

* `BeaconLoop.pass` — one pass; `pass_step` and `pass_system` make it a step of
  `thread_down` on the beacons and on the queue;
* `SlotFound` — what the search for the next beacon's slot needs: a queue that is not
  full, and a retry whose count is not too late and clear of the queue;
* `beaconLoop_ends_iff` — the loop ends exactly if every search that begins finds it;
* `slotFound_const_iff` — with a time that stands still the retries are forgotten: the
  slots are the counts at multiples of a power of two from the first;
* `beaconLoop_on_full_queue` — in a full queue no retry helps.
-/

namespace PacketForwarder

open Circle

variable {c : BeaconConf} {gps2cnt : Gps2cnt} {env : JitEnv}

/-! ## The count of a GPS time -/

/-- The reference's count and the microseconds elapsed since, modulo `2 ^ 32`. -/
def countAt (tref : Tref) (t : Timespec) : U32 :=
  tref.countUs + BitVec.ofInt 32
    ((t.tvSec - tref.gps.tvSec) * 1000000 + (t.tvNsec - tref.gps.tvNsec) / 1000)

/-- What `lgw_gps2cnt` is taken to do. -/
def CountsElapsed (gps2cnt : Gps2cnt) : Prop := ∀ tref t, gps2cnt tref t = some (countAt tref t)

/-- The count of the slot for the next beacon after the given number of retries. -/
def slotCount (c : BeaconConf) (s : BeaconState) (tref : Tref) (retry : U32) : U32 :=
  countAt tref ⟨nextBeaconGpsTime c { s with retry := retry } tref, 0⟩

/-- The slots depend on the last beacon only. -/
theorem slotCount_congr {s s' : BeaconState} (h : s'.lastBeaconGpsTime = s.lastBeaconGpsTime)
    (tref : Tref) (retry : U32) : slotCount c s' tref retry = slotCount c s tref retry := by
  unfold slotCount nextBeaconGpsTime
  simp only [h]

/-- Each retry moves the slot on by one period, whatever wraps in between. -/
theorem slotCount_retry (c : BeaconConf) (s : BeaconState) (tref : Tref) (retry : U32) :
    slotCount c s tref retry = slotCount c s tref 0 + retry * (c.beaconPeriod * 1000000) := by
  have hbase : nextBeaconGpsTime c { s with retry := retry } tref =
      nextBeaconGpsTime c { s with retry := 0 } tref + (retry * c.beaconPeriod).toNat := by
    unfold nextBeaconGpsTime
    simp
  have hprod : BitVec.ofInt 32 (((retry * c.beaconPeriod).toNat : ℤ) * 1000000) =
      retry * (c.beaconPeriod * 1000000) := by
    rw [BitVec.ofInt_mul, BitVec.ofInt_natCast, BitVec.ofNat_toNat, BitVec.setWidth_eq, mul_assoc]
    rfl
  unfold slotCount countAt
  simp only
  rw [hbase, add_assoc, ← hprod, ← BitVec.ofInt_add]
  congr 2
  ring

/-- A beacon may depart at the given count: it is not too late, and its guard and the frame
it reserves are clear of the queue. -/
structure SlotFree (q : JitQueue) (timeUs count : U32) : Prop where
  late : 32500 < ahead timeUs count
  clear : ∀ n ∈ q.live, jitCollisionTest count (packetPreDelay .beacon) beaconReserved
    n.pkt.countUs n.preDelay n.postDelay = false

/-- With one queue for both critical sections the answer is that of `jit_enqueue`. -/
theorem beaconError_self (env : JitEnv) (q : JitQueue) (time : Timeval) (packet : LgwPktTx) :
    beaconError env q q time packet = (jitEnqueue env q time (some packet) .beacon).error := by
  unfold beaconError jitEnqueue
  split <;> rfl

/-- **A beacon is accepted exactly if there is room and its slot is free.** -/
theorem beaconError_ok_iff (hcnt : CountsElapsed gps2cnt) (env : JitEnv) (q : JitQueue)
    (s : BeaconState) (tref : Tref) (time : Timeval) :
    beaconError env q q time (nextBeacon c gps2cnt s tref) = .ok ↔
      jitQueueIsFull q = false ∧ SlotFree q time.lowUs (slotCount c s tref s.retry) := by
  have hcount : (nextBeacon c gps2cnt s tref).countUs = slotCount c s tref s.retry := by
    unfold nextBeacon
    simp only [hcnt tref, Option.getD_some]
    rfl
  have hdeparture : (nodeFor env q time.lowUs (nextBeacon c gps2cnt s tref) .beacon).pkt.countUs =
      slotCount c s tref s.retry := hcount
  rw [beaconError_self, jitEnqueue_ok_iff]
  refine and_congr_right fun _ => ?_
  constructor
  · rintro ⟨hlate, -, hclear⟩
    rw [hdeparture] at hlate
    refine ⟨hlate, fun n hn => ?_⟩
    have htest := hclear n hn
    unfold overlaps at htest
    rw [hdeparture] at htest
    exact htest
  · rintro ⟨hlate, hclear⟩
    refine ⟨?_, ?_, fun n hn => ?_⟩
    · rw [hdeparture]
      exact hlate
    · rintro (ht | ht) <;> cases ht
    · unfold overlaps
      rw [hdeparture]
      exact hclear n hn

/-! ## The loop -/

/-- What one pass reads: the GPS reference, and the concentrator's time. -/
structure PassInput where
  tref : Tref
  time : Timeval

/-- The queue and the beacon variables, at the head of the loop. -/
structure BeaconLoop where
  queue : JitQueue
  beacons : BeaconState

namespace BeaconLoop

/-- `beacon_loop = JIT_NUM_BEACON_IN_QUEUE - jit_queue.num_beacon; retry = 0`. -/
def enter (q : JitQueue) (s : BeaconState) : BeaconLoop where
  queue := q
  beacons :=
    { s with
      beaconLoop := BitVec.ofNat 8 jitNumBeaconInQueue - q.numBeacon
      retry := 0
      looping := true }

/-- The loop is done when its own test fails. -/
def Done (c : BeaconConf) (x : BeaconLoop) : Prop :=
  x.beacons.beaconLoop = 0 ∨ c.beaconPeriod = 0

instance (c : BeaconConf) (x : BeaconLoop) : Decidable (x.Done c) :=
  inferInstanceAs (Decidable (_ ∨ _))

/-- One pass, if the loop has not ended. -/
def pass (c : BeaconConf) (gps2cnt : Gps2cnt) (env : JitEnv) (i : PassInput) (x : BeaconLoop) :
    BeaconLoop :=
  if x.Done c then x
  else
    let packet := nextBeacon c gps2cnt x.beacons i.tref
    { queue := (jitEnqueue env x.queue i.time (some packet) .beacon).queue
      beacons := beaconAttempt c gps2cnt env x.beacons i.tref x.queue x.queue i.time }

/-- The loop is where `n` passes with these inputs have taken it. -/
def passes (c : BeaconConf) (gps2cnt : Gps2cnt) (env : JitEnv) (inputs : ℕ → PassInput) :
    ℕ → BeaconLoop → BeaconLoop
  | 0, x => x
  | n + 1, x => pass c gps2cnt env (inputs n) (passes c gps2cnt env inputs n x)

variable {x : BeaconLoop}

/-- `jit_enqueue` accepts the beacon of this pass. -/
def Accepts (c : BeaconConf) (gps2cnt : Gps2cnt) (env : JitEnv) (i : PassInput)
    (x : BeaconLoop) : Prop :=
  beaconError env x.queue x.queue i.time (nextBeacon c gps2cnt x.beacons i.tref) = .ok

/-- To the beacons a pass is a step of `thread_down`. -/
theorem pass_step (gps2cnt : Gps2cnt) (env : JitEnv) (hl : x.beacons.looping = true)
    (hd : ¬x.Done c) (i : PassInput) :
    BeaconStep c gps2cnt env x.beacons (.attempt i.tref x.queue x.queue i.time)
      (pass c gps2cnt env i x).beacons := by
  obtain ⟨hb, hp⟩ := not_or.mp hd
  unfold pass
  rw [if_neg hd]
  exact .attempt hl hb hp

/-- A pass that is not accepted: the queue and the last beacon are as they were. -/
theorem pass_of_rejected {i : PassInput} (hd : ¬x.Done c) (hrej : ¬x.Accepts c gps2cnt env i) :
    let x' := pass c gps2cnt env i x
    x'.queue = x.queue ∧ x'.beacons.beaconLoop = x.beacons.beaconLoop ∧
      x'.beacons.lastBeaconGpsTime = x.beacons.lastBeaconGpsTime ∧
      x'.beacons.retry = x.beacons.retry + 1 := by
  have hqueue : (jitEnqueue env x.queue i.time
      (some (nextBeacon c gps2cnt x.beacons i.tref)) .beacon).queue = x.queue := by
    rcases jitEnqueue_cases env x.queue i.time (some (nextBeacon c gps2cnt x.beacons i.tref))
      .beacon with ⟨-, -, -, hok, -⟩ | ⟨-, hq⟩
    · rw [← beaconError_self] at hok
      exact absurd hok hrej
    · exact hq
  unfold pass
  rw [if_neg hd]
  refine ⟨hqueue, ?_⟩
  unfold Accepts at hrej
  unfold beaconAttempt
  simp only [hrej, if_false]
  exact ⟨trivial, trivial, trivial⟩

/-- A pass that is accepted: one beacon less is missing, and the next search begins. -/
theorem pass_of_accepted {i : PassInput} (hd : ¬x.Done c) (hok : x.Accepts c gps2cnt env i) :
    let x' := pass c gps2cnt env i x
    x'.beacons.beaconLoop = x.beacons.beaconLoop - 1 ∧ x'.beacons.retry = 0 := by
  unfold pass
  rw [if_neg hd]
  unfold Accepts at hok
  unfold beaconAttempt
  simp only [hok, if_true]
  exact ⟨trivial, trivial⟩

/-- To the queue a pass is one or two critical sections of `thread_down`. -/
theorem pass_system (gps2cnt : Gps2cnt) (env : JitEnv) (hd : ¬x.Done c) (i : PassInput)
    (jit : JitPc) :
    Runs.Reaches (System.Step env) Runs.anyStep ⟨x.queue, .beacons x.beacons.beaconLoop, jit⟩
      ⟨(pass c gps2cnt env i x).queue, .beacons (pass c gps2cnt env i x).beacons.beaconLoop,
        jit⟩ := by
  have hb := (not_or.mp hd).1
  by_cases hfull : jitQueueIsFull x.queue = true
  · have hrej : ¬x.Accepts c gps2cnt env i := by
      unfold Accepts beaconError
      rw [if_pos hfull]
      exact nofun
    obtain ⟨hq, hloop, -⟩ := pass_of_rejected hd hrej
    rw [hq, hloop]
    exact .start
  · have hroom : jitQueueIsFull x.queue = false := by simpa using hfull
    have herror := beaconError_self env x.queue i.time (nextBeacon c gps2cnt x.beacons i.tref)
    have hlocked : jitEnqueue env x.queue i.time
          (some (nextBeacon c gps2cnt x.beacons i.tref)) .beacon =
        jitEnqueueLocked env x.queue i.time (nextBeacon c gps2cnt x.beacons i.tref) .beacon := by
      unfold jitEnqueue
      simp only [hroom, Bool.false_eq_true, if_false]
    have hqueue : (pass c gps2cnt env i x).queue =
        (jitEnqueueLocked env x.queue i.time (nextBeacon c gps2cnt x.beacons i.tref)
          .beacon).queue := by
      unfold pass
      rw [if_neg hd, ← hlocked]
    have hloop : (pass c gps2cnt env i x).beacons.beaconLoop =
        if (jitEnqueueLocked env x.queue i.time (nextBeacon c gps2cnt x.beacons i.tref)
          .beacon).error = .ok then x.beacons.beaconLoop - 1 else x.beacons.beaconLoop := by
      rw [← hlocked, ← herror]
      split
      · rename_i hok
        exact (pass_of_accepted hd hok).1
      · rename_i hrej
        exact (pass_of_rejected hd hrej).2.1
    have htest : Runs.Reaches (System.Step env) Runs.anyStep
        ⟨x.queue, .beacons x.beacons.beaconLoop, jit⟩
        ⟨x.queue, .beaconTested x.beacons.beaconLoop, jit⟩ :=
      .next .start trivial (.beaconTest rfl hb hroom)
    rw [hqueue, hloop]
    exact htest.next trivial (.beaconInsert rfl)

/-! ## The searches -/

/-- A beacon is missing, and no retry has been made for it. -/
def Searching (x : BeaconLoop) : Prop := x.beacons.beaconLoop ≠ 0 ∧ x.beacons.retry = 0

/-- Retry `k` finds the queue not full, and its slot free at the time of that pass; `inputs`
are those of the passes from the beginning of the search. -/
def SlotAt (c : BeaconConf) (x : BeaconLoop) (inputs : ℕ → PassInput) (k : ℕ) : Prop :=
  jitQueueIsFull x.queue = false ∧
    SlotFree x.queue (inputs k).time.lowUs
      (slotCount c x.beacons (inputs k).tref (BitVec.ofNat 32 k))

/-- Some retry finds a slot the queue accepts the beacon in. -/
def SlotFound (c : BeaconConf) (x : BeaconLoop) (inputs : ℕ → PassInput) : Prop :=
  ∃ k, x.SlotAt c inputs k

section Searches

variable (hcnt : CountsElapsed gps2cnt) (hp : c.beaconPeriod ≠ 0) (inputs : ℕ → PassInput)
  (x₀ : BeaconLoop)

include hp in
theorem not_done_of_eq {x' : BeaconLoop} (hs : x.Searching)
    (hloop : x'.beacons.beaconLoop = x.beacons.beaconLoop) : ¬x'.Done c := by
  rintro (h0 | h0)
  · exact hs.1 (hloop ▸ h0)
  · exact hp h0

include hcnt hp

/-- As long as nothing is accepted, a search only counts its retries. -/
theorem passes_of_miss {n k : ℕ} (hs : (passes c gps2cnt env inputs n x₀).Searching)
    (hmiss : ∀ j < k, ¬(passes c gps2cnt env inputs n x₀).SlotAt c (fun k => inputs (n + k)) j) :
    let x := passes c gps2cnt env inputs n x₀
    let x' := passes c gps2cnt env inputs (n + k) x₀
    x'.queue = x.queue ∧ x'.beacons.beaconLoop = x.beacons.beaconLoop ∧
      x'.beacons.lastBeaconGpsTime = x.beacons.lastBeaconGpsTime ∧
      x'.beacons.retry = BitVec.ofNat 32 k := by
  induction k with
  | zero => exact ⟨rfl, rfl, rfl, hs.2⟩
  | succ k ih =>
    obtain ⟨hq, hloop, hlast, hretry⟩ := ih fun j hj => hmiss j (Nat.lt_succ_of_lt hj)
    have hrej : ¬(passes c gps2cnt env inputs (n + k) x₀).Accepts c gps2cnt env
        (inputs (n + k)) := by
      intro hok
      unfold Accepts at hok
      rw [beaconError_ok_iff hcnt, hretry, slotCount_congr hlast, hq] at hok
      exact hmiss k (Nat.lt_succ_self k) hok
    obtain ⟨hq', hloop', hlast', hretry'⟩ := pass_of_rejected (not_done_of_eq hp hs hloop) hrej
    refine ⟨hq'.trans hq, hloop'.trans hloop, hlast'.trans hlast, hretry'.trans ?_⟩
    rw [hretry, BitVec.ofNat_add]
    rfl

/-- With the first slot that is found a beacon is queued. -/
theorem passes_of_hit {n k : ℕ} (hs : (passes c gps2cnt env inputs n x₀).Searching)
    (hmiss : ∀ j < k, ¬(passes c gps2cnt env inputs n x₀).SlotAt c (fun k => inputs (n + k)) j)
    (hhit : (passes c gps2cnt env inputs n x₀).SlotAt c (fun k => inputs (n + k)) k) :
    let x := passes c gps2cnt env inputs n x₀
    let x' := passes c gps2cnt env inputs (n + k + 1) x₀
    x'.beacons.beaconLoop = x.beacons.beaconLoop - 1 ∧ x'.beacons.retry = 0 := by
  obtain ⟨hq, hloop, hlast, hretry⟩ := passes_of_miss hcnt hp inputs x₀ hs hmiss
  have hok : (passes c gps2cnt env inputs (n + k) x₀).Accepts c gps2cnt env
      (inputs (n + k)) := by
    unfold Accepts
    rw [beaconError_ok_iff hcnt, hretry, slotCount_congr hlast, hq]
    exact hhit
  obtain ⟨hloop', hretry'⟩ := pass_of_accepted (not_done_of_eq hp hs hloop) hok
  refine ⟨hloop'.trans ?_, hretry'⟩
  rw [hloop]

/-- The loop as a loop of searches, of which each begins with `retry = 0`. -/
def searches (env : JitEnv) (hretry : x₀.beacons.retry = 0) : Searches where
  todo n := (passes c gps2cnt env inputs n x₀).beacons.beaconLoop.toNat
  Begins n := (passes c gps2cnt env inputs n x₀).beacons.retry = 0
  Hit n k := (passes c gps2cnt env inputs n x₀).SlotAt c (fun k => inputs (n + k)) k
  begins_zero := hretry
  done n h0 := by
    have hd : (passes c gps2cnt env inputs n x₀).Done c := .inl (BitVec.eq_of_toNat_eq h0)
    show (pass c gps2cnt env (inputs n) (passes c gps2cnt env inputs n x₀)).beacons.beaconLoop.toNat
      = 0
    unfold pass
    rw [if_pos hd]
    exact h0
  miss n k hb ht hmiss := by
    have hs : (passes c gps2cnt env inputs n x₀).Searching :=
      ⟨fun h0 => by rw [h0] at ht; exact absurd ht (by decide), hb⟩
    exact congrArg BitVec.toNat (passes_of_miss hcnt hp inputs x₀ hs hmiss).2.1
  hit n k hb ht hmiss hhit := by
    have hs : (passes c gps2cnt env inputs n x₀).Searching :=
      ⟨fun h0 => by rw [h0] at ht; exact absurd ht (by decide), hb⟩
    obtain ⟨hloop, hretry⟩ := passes_of_hit hcnt hp inputs x₀ hs hmiss hhit
    refine ⟨hretry, ?_⟩
    rw [hloop]
    bv_omega

/-- **When the loop ends.**  It ends after finitely many passes exactly if every search that
begins finds a slot: the queue is not full, and for some number of retries the count of
the slot is more than 32.5 ms ahead and its window clear of the queue. -/
theorem beaconLoop_ends_iff (q : JitQueue) (s : BeaconState) :
    (∃ n, (passes c gps2cnt env inputs n (enter q s)).Done c) ↔
      ∀ n, (passes c gps2cnt env inputs n (enter q s)).Searching →
        (passes c gps2cnt env inputs n (enter q s)).SlotFound c fun k => inputs (n + k) := by
  have hiff := (searches hcnt hp inputs (enter q s) env rfl).ends_iff
  constructor
  · rintro ⟨m, hm⟩ n hs
    refine hiff.mp ⟨m, ?_⟩ n hs.2 ?_
    · exact congrArg BitVec.toNat (hm.resolve_right hp)
    · exact Nat.pos_of_ne_zero fun h0 => hs.1 (BitVec.eq_of_toNat_eq h0)
  · intro hfound
    obtain ⟨m, hm⟩ := hiff.mpr fun n hb ht =>
      hfound n ⟨fun h0 => by simp [searches, h0] at ht, hb⟩
    exact ⟨m, .inl (BitVec.eq_of_toNat_eq hm)⟩

/-- In a full queue with a beacon missing the loop never ends. -/
theorem not_done_of_full {q : JitQueue} (hfull : jitQueueIsFull q = true)
    (hmissing : BitVec.ofNat 8 jitNumBeaconInQueue - q.numBeacon ≠ 0) (s : BeaconState) (n : ℕ) :
    ¬(passes c gps2cnt env inputs n (enter q s)).Done c := by
  have hs : (passes c gps2cnt env inputs 0 (enter q s)).Searching := ⟨hmissing, rfl⟩
  have hmiss : ∀ j < n, ¬(passes c gps2cnt env inputs 0 (enter q s)).SlotAt c
      (fun k => inputs (0 + k)) j := by
    rintro j - ⟨hroom, -⟩
    exact absurd (hfull.symm.trans hroom) (by decide)
  have hkept := passes_of_miss hcnt hp inputs (enter q s) hs hmiss
  rw [Nat.zero_add] at hkept
  exact not_done_of_eq hp hs hkept.2.1

end Searches

/-- How far apart the slots lie on the circle of the counts. -/
def slotSpacing (c : BeaconConf) : ℕ := (c.beaconPeriod * 1000000).toNat.gcd (2 ^ 32)

/-- **The slots of a search**, when the reference and the time stand still: the counts at
multiples of the spacing from the first. -/
theorem slotFound_const_iff (c : BeaconConf) (x : BeaconLoop) (i : PassInput) :
    x.SlotFound c (fun _ => i) ↔
      jitQueueIsFull x.queue = false ∧ ∃ count, SlotFree x.queue i.time.lowUs count ∧
        slotSpacing c ∣ ahead (slotCount c x.beacons i.tref 0) count := by
  constructor
  · rintro ⟨k, hfull, hfree⟩
    refine ⟨hfull, _, hfree, (exists_mul_eq_iff _ _).mp ⟨k, ?_⟩⟩
    rw [slotCount_retry c x.beacons i.tref (BitVec.ofNat 32 k), add_sub_cancel_left]
  · rintro ⟨hfull, count, hfree, hdvd⟩
    obtain ⟨k, hk⟩ := (exists_mul_eq_iff _ _).mpr hdvd
    refine ⟨k, hfull, ?_⟩
    rw [slotCount_retry, hk, add_sub_cancel]
    exact hfree

/-! ## Runs on fixed inputs -/

/-- The inputs of a pass at GPS second `gpsSec`, with the concentrator's counter at 0. -/
def passAt (gpsSec : ℤ) : PassInput := ⟨trefAt gpsSec, instant 0⟩

/-- A `lgw_gps2cnt` for an exact crystal. -/
def countsElapsed : Gps2cnt := fun tref t => some (countAt tref t)

/-- With an empty queue and a period of 128 s, three passes queue three beacons, and the first
search has found its slot. -/
theorem beaconLoop_ends_three_beacons :
    let x := enter jitQueueInit (beaconStart 128)
    (∃ n, (passes (everySeconds 128) countsElapsed .reference (fun _ => passAt 1024) n x).Done
        (everySeconds 128)) ∧ x.SlotFound (everySeconds 128) fun _ => passAt 1024 := by
  have hends : ∃ n, (passes (everySeconds 128) countsElapsed .reference
      (fun _ => passAt 1024) n (enter jitQueueInit (beaconStart 128))).Done
        (everySeconds 128) := ⟨3, by decide +kernel⟩
  exact ⟨hends, (beaconLoop_ends_iff (fun _ _ => rfl) (by decide) (fun _ => passAt 1024)
    jitQueueInit (beaconStart 128)).mp hends 0 ⟨by decide, rfl⟩⟩

/-- Downlinks for 32 successive seconds fill the queue. -/
def fillQueue : List JitCall :=
  (List.range 32).map fun k =>
    .enqueue (instant 0) (some (packetAt (BitVec.ofNat 32 (1000000 * (k + 1))))) .downlinkClassB

/-- They fill the queue, in which there is no beacon. -/
theorem fillQueue_fills :
    jitQueueIsFull (jitRun .reference fillQueue) = true ∧
      (jitRun .reference fillQueue).numBeacon = 0 := by
  decide +kernel

/-- **No retry helps in a full queue.**  With 32 downlinks and no beacon in the queue the loop
goes on for ever. -/
theorem beaconLoop_on_full_queue :
    ¬∀ q, Reachable .reference q → ∀ (c : BeaconConf) (s : BeaconState) (i : PassInput),
      6 ≤ c.beaconPeriod.toNat →
        ∃ n, (passes c countsElapsed .reference (fun _ => i) n (enter q s)).Done c := by
  intro h
  obtain ⟨hfull, hnone⟩ := fillQueue_fills
  obtain ⟨n, hn⟩ := h _ (reachable_jitRun .reference fillQueue) (everySeconds 128)
    (beaconStart 128) (passAt 1024) (by decide)
  have hmissing :
      BitVec.ofNat 8 jitNumBeaconInQueue - (jitRun .reference fillQueue).numBeacon ≠ 0 := by
    rw [hnone]
    decide
  exact not_done_of_full (fun _ _ => rfl) (by decide) (fun _ => passAt 1024) hfull hmissing
    (beaconStart 128) n hn

end BeaconLoop

end PacketForwarder
