import PacketForwarder.Hal
import PacketForwarder.Lib.Runs

/-!
# The concentrator's clock

`timersync.c`: the forwarder keeps the offset between the host's clock and the
concentrator's microsecond counter, and reads the concentrator's time as the
host's time less that offset.

* `timersub` — the difference of two instants, with a borrow of one second;
* `setConcentratorTime` — the offset that makes the host's clock read the counter;
* `getConcentratorTime` — the concentrator's time at a time of the host.

The counter has 32 bits and the time read has not: what `jit_enqueue` and
`jit_peek` use is the time cut back to 32 bits, and
`getConcentratorTime_tracks_counter` shows that this is the counter, roll-overs
included.
-/

namespace PacketForwarder

/-! ## Instants -/

namespace Timeval

/-- The microseconds are a proper part of a second, as `gettimeofday` gives them. -/
def Normalised (t : Timeval) : Prop := 0 ≤ t.tvUsec ∧ t.tvUsec < 1000000

instance (t : Timeval) : Decidable t.Normalised := inferInstanceAs (Decidable (_ ∧ _))

/-- `tv_sec * 1000000UL + tv_usec`, which is computed in 64 bits, as a `uint32_t`. -/
def unsignedUs (t : Timeval) : U32 :=
  (BitVec.ofInt 64 t.tvSec * 1000000 + BitVec.ofInt 64 t.tvUsec).setWidth 32

/-- The 64 bits on the way lose nothing of the 32 that are kept. -/
theorem unsignedUs_eq_lowUs (t : Timeval) : t.unsignedUs = t.lowUs := by
  have hwide : BitVec.ofInt 64 t.tvSec * 1000000 + BitVec.ofInt 64 t.tvUsec =
      BitVec.ofInt 64 t.us := by
    rw [us, BitVec.ofInt_add, BitVec.ofInt_mul]
    rfl
  rw [unsignedUs, lowUs, hwide]
  apply BitVec.eq_of_toNat_eq
  rw [BitVec.toNat_setWidth, BitVec.toNat_ofInt, BitVec.toNat_ofInt]
  omega

end Timeval

/-- `timersub`. -/
def timersub (a b : Timeval) : Timeval :=
  let sec := a.tvSec - b.tvSec
  let usec := a.tvUsec - b.tvUsec
  if usec < 0 then ⟨sec - 1, usec + 1000000⟩ else ⟨sec, usec⟩

/-- The borrow moves a second from one field to the other. -/
@[simp] theorem timersub_us (a b : Timeval) : (timersub a b).us = a.us - b.us := by
  unfold timersub
  by_cases hborrow : a.tvUsec - b.tvUsec < 0
  · simp only [hborrow, if_true, Timeval.us]
    ring
  · simp only [hborrow, if_false, Timeval.us]
    ring

/-- One borrow is enough for normalised operands. -/
theorem timersub_normalised {a b : Timeval} (ha : a.Normalised) (hb : b.Normalised) :
    (timersub a b).Normalised := by
  obtain ⟨ha₁, ha₂⟩ := ha
  obtain ⟨hb₁, hb₂⟩ := hb
  unfold timersub
  by_cases hborrow : a.tvUsec - b.tvUsec < 0
  · simp only [hborrow, if_true]
    constructor <;> simp only <;> omega
  · simp only [hborrow, if_false]
    constructor <;> simp only <;> omega

/-! ## The offset -/

/-- The time of the concentrator that a counter value stands for. -/
def concentratorTimeval (sx1301Timecount : U32) : Timeval :=
  let sec := sx1301Timecount.toNat / 1000000
  ⟨sec, sx1301Timecount.toNat - sec * 1000000⟩

@[simp] theorem concentratorTimeval_us (count : U32) :
    (concentratorTimeval count).us = count.toNat := by
  simp [concentratorTimeval, Timeval.us]

theorem concentratorTimeval_normalised (count : U32) :
    (concentratorTimeval count).Normalised := by
  constructor <;> simp only [concentratorTimeval] <;> omega

/-- `offset_unix_concent` before the first synchronisation. -/
def offsetInit : Timeval := ⟨0, 0⟩

/-- What `set_concentrator_time` computes from the two clocks. -/
structure SyncResult where
  /-- `offset_unix_concent`. -/
  offset : Timeval
  /-- `offset_drift`, which the function only reports. -/
  drift : Timeval
  deriving DecidableEq, Repr

/-- `set_concentrator_time`, with what `gettimeofday` and `lgw_get_trigcnt` answer.
The count is 0 if `lgw_get_trigcnt` fails. -/
def setConcentratorTime (offset unixTimeval : Timeval) (sx1301Timecount : U32) : SyncResult :=
  let new := timersub unixTimeval (concentratorTimeval sx1301Timecount)
  ⟨new, timersub new offset⟩

/-- `get_concentrator_time`: its status and `*concent_time`; `concentTime` tells
whether the output pointer is not null. -/
def getConcentratorTime (offset : Timeval) (concentTime : Bool) (unixTime : Timeval) :
    ℤ × Option Timeval :=
  if concentTime = false then (-1, none) else (0, some (timersub unixTime offset))

/-! ## Runs -/

/-- One synchronisation: the host's time and the counter read for it. -/
structure Sync where
  unixTimeval : Timeval
  sx1301Timecount : U32
  deriving DecidableEq, Repr

/-- The offset after synchronisations in turn. -/
def offsetAfter (syncs : List Sync) : Timeval :=
  Runs.after (fun offset s => (setConcentratorTime offset s.unixTimeval s.sx1301Timecount).offset)
    offsetInit syncs

/-- Only the last synchronisation is remembered. -/
theorem offsetAfter_append (syncs : List Sync) (s : Sync) :
    offsetAfter (syncs ++ [s]) =
      timersub s.unixTimeval (concentratorTimeval s.sx1301Timecount) := by
  simp [offsetAfter, Runs.after, setConcentratorTime]

/-- The offset is normalised in every state reached. -/
theorem offsetAfter_normalised {syncs : List Sync}
    (hsyncs : ∀ s ∈ syncs, s.unixTimeval.Normalised) : (offsetAfter syncs).Normalised := by
  induction syncs using List.reverseRecOn with
  | nil => exact ⟨le_rfl, by decide⟩
  | append_singleton syncs s _ =>
    rw [offsetAfter_append]
    exact timersub_normalised (hsyncs s (by simp)) (concentratorTimeval_normalised _)

/-- The reported drift is the change of the offset, to the microsecond. -/
theorem setConcentratorTime_drift (offset unixTimeval : Timeval) (count : U32) :
    (setConcentratorTime offset unixTimeval count).drift.us =
      (setConcentratorTime offset unixTimeval count).offset.us - offset.us :=
  timersub_us _ _

/-- The time read after a synchronisation, on the counter's 32 bits. -/
theorem timersub_lowUs (u u₀ : Timeval) (count : U32) :
    (timersub u (timersub u₀ (concentratorTimeval count))).lowUs =
      count + BitVec.ofInt 32 (u.us - u₀.us) := by
  have hus : (timersub u (timersub u₀ (concentratorTimeval count))).us =
      count.toNat + (u.us - u₀.us) := by
    rw [timersub_us, timersub_us, concentratorTimeval_us]
    ring
  rw [Timeval.lowUs, hus, BitVec.ofInt_add]
  rw [BitVec.ofInt_natCast, BitVec.ofNat_toNat, BitVec.setWidth_eq]

/-- **The clock follows the counter.**  After any synchronisations the time of the
concentrator is normalised; and after the last of them, which read the counter
`s.sx1301Timecount` at `s.unixTimeval`, the 32 bits of it that the queue uses at
`u` are the counter advanced by the microseconds since then, modulo `2 ^ 32`. -/
theorem getConcentratorTime_tracks_counter (syncs : List Sync) (u : Timeval)
    (hsyncs : ∀ s ∈ syncs, s.unixTimeval.Normalised) (hu : u.Normalised) :
    ∃ time, getConcentratorTime (offsetAfter syncs) true u = (0, some time) ∧
      time.Normalised ∧
      ∀ earlier s, syncs = earlier ++ [s] →
        time.unsignedUs = s.sx1301Timecount + BitVec.ofInt 32 (u.us - s.unixTimeval.us) ∧
        time.lowUs = time.unsignedUs := by
  refine ⟨timersub u (offsetAfter syncs), rfl, timersub_normalised hu
    (offsetAfter_normalised hsyncs), ?_⟩
  rintro earlier s rfl
  rw [Timeval.unsignedUs_eq_lowUs, offsetAfter_append]
  exact ⟨timersub_lowUs _ _ _, rfl⟩

/-- A counter read six ticks before it rolls over, and used two seconds later. -/
theorem getConcentratorTime_past_rollOver :
    ∃ time, getConcentratorTime (offsetAfter [⟨⟨100, 999999⟩, 4294967290⟩]) true ⟨103, 2⟩ =
        (0, some time) ∧
      time.Normalised ∧ time.lowUs = 1999997 := by
  obtain ⟨time, hget, hnorm, hlow⟩ :=
    getConcentratorTime_tracks_counter [⟨⟨100, 999999⟩, 4294967290⟩] ⟨103, 2⟩ (by decide)
      (by decide)
  obtain ⟨hcount, hus⟩ := hlow [] _ rfl
  refine ⟨time, hget, hnorm, ?_⟩
  rw [hus, hcount]
  decide

end PacketForwarder
