import PacketForwarder.Threads

/-!
# The beacons

`thread_down` keeps the queue loaded with beacons, one for each multiple of
`beacon_period` on the GPS clock.  The next beacon's time is the slot after the
last one queued, or after the current GPS time if none was, and one period later
for each attempt that failed since.

* `beaconSetup` — the beacon packet and the variables of `thread_down` before its
  main loop;
* `nextBeacon` — the time and the packet of one attempt;
* `BeaconStep` — the beacon part of `thread_down` over its whole life, for any GPS
  references, any numbers of beacons found in the queue, and any queues met at the
  two critical sections of `jit_enqueue`;
* `beacons_on_grid` — the beacons queued lie on multiples of the period, each later
  than the one before, and carry the data of their own time, as long as
  `retry * beacon_period` does not wrap to something else than a multiple;
* `beacon_off_grid` — with a period of a day and a queue that is full for long enough
  it does.
-/

namespace PacketForwarder

variable {env : JitEnv} {gps2cnt : Gps2cnt}

/-! ## The beacon frame -/

/-- The beacon settings of the configuration, which no thread changes. -/
structure BeaconConf where
  beaconPeriod : U32
  beaconFreqHz : U32
  beaconFreqNb : U8
  beaconFreqStep : U32
  beaconDatarate : U8
  beaconBwHz : U32
  beaconPower : U8
  beaconInfodesc : U8

/-- The inner loop of `crc16` shifts the register by one bit. -/
def crc16Bit (x : U16) : U16 := if x &&& 0x8000 ≠ 0 then (x <<< 1) ^^^ 0x1021 else x <<< 1

/-- The outer loop of `crc16` takes one byte into the register. -/
def crc16Byte (x : U16) (b : U8) : U16 := crc16Bit^[8] (x ^^^ b.setWidth 16 <<< 8)

/-- `crc16`. -/
def crc16 (data : List U8) : U16 := data.foldl crc16Byte 0

/-- `beacon_pkt.bandwidth`; another setting ends the thread. -/
def beaconBandwidth (beaconBwHz : U32) : Option Bandwidth :=
  if beaconBwHz = 125000 then some .bw125kHz
  else if beaconBwHz = 500000 then some .bw500kHz
  else none

/-- `beacon_pkt.datarate`, `beacon_RFU1_size` and `beacon_RFU2_size`; another setting
ends the thread. -/
def beaconFormat (beaconDatarate : U8) : Option (Datarate × ℕ × ℕ) :=
  if beaconDatarate = 8 then some (.loraSf8, 1, 3)
  else if beaconDatarate = 9 then some (.loraSf9, 2, 0)
  else if beaconDatarate = 10 then some (.loraSf10, 3, 1)
  else if beaconDatarate = 12 then some (.loraSf12, 5, 3)
  else none

/-- `field_latitude` and `field_longitude` are cut to 24 bits, as signed numbers. -/
def clampField (v : BitVec 32) : BitVec 32 :=
  if (0x007FFFFF : BitVec 32).slt v then 0x007FFFFF
  else if v.slt 0xFF800000 then 0xFF800000
  else v

/-- The three bytes of a coordinate. -/
def fieldBytes (v : BitVec 32) : List U8 :=
  [v.setWidth 8, (v >>> 8).setWidth 8, (v >>> 16).setWidth 8]

/-- A CRC as it is transmitted. -/
def crcBytes (crc : U16) : List U8 := [crc.setWidth 8, (crc >>> 8).setWidth 8]

/-- The payload before the first beacon: all but the time and its CRC. -/
def beaconPayload (c : BeaconConf) (latitude longitude : BitVec 32) (rfu1 rfu2 : ℕ)
    (payload : Slots U8 payloadMax) : Slots U8 payloadMax :=
  let gatewayPart := c.beaconInfodesc :: fieldBytes (clampField latitude) ++
    fieldBytes (clampField longitude) ++ List.replicate rfu2 0
  let payload := payload.write 0 (List.replicate rfu1 0)
  let payload := payload.write (rfu1 + 6) gatewayPart
  payload.write (rfu1 + 6 + (7 + rfu2)) (crcBytes (crc16 (payload.slice (6 + rfu1) (7 + rfu2))))

/-! ## The state of `thread_down` -/

/-- A beacon in the queue, and what it was computed from. -/
structure QueuedBeacon where
  /-- The GPS second the beacon is for. -/
  gpsTime : ℤ
  /-- The reference its count was computed from. -/
  tref : Tref
  /-- The node that `jit_enqueue` has put into the queue for it. -/
  node : JitNode

/-- The variables of `thread_down` that concern beacons. -/
structure BeaconState where
  /-- `beacon_RFU1_size`. -/
  beaconRfu1Size : ℕ
  beaconPkt : LgwPktTx
  /-- `last_beacon_gps_time.tv_sec`; zero when no beacon has been queued. -/
  lastBeaconGpsTime : ℤ
  beaconLoop : U8
  /-- The number of the retry, which is an `int` in the source. -/
  retry : U32
  /-- Inside the loop over the beacons still to be queued. -/
  looping : Bool
  measNbBeaconQueued : U32
  measNbBeaconRejected : U32
  /-- The beacons queued so far, the latest first: recorded for the statements. -/
  log : List QueuedBeacon

/-- What `thread_down` does before its main loop, if it gets there; `stack` is what was
in `beacon_pkt`. -/
def beaconSetup (c : BeaconConf) (latitude longitude : BitVec 32) (stack : LgwPktTx) :
    Option BeaconState :=
  (beaconBandwidth c.beaconBwHz).bind fun bandwidth =>
    (beaconFormat c.beaconDatarate).map fun (datarate, rfu1, rfu2) =>
      { beaconRfu1Size := rfu1
        beaconPkt :=
          { stack with
            txMode := .onGps
            rfChain := 0
            rfPower := c.beaconPower
            modulation := .lora
            bandwidth := bandwidth
            datarate := datarate
            size := BitVec.ofNat 16 (rfu1 + 4 + 2 + 7 + rfu2 + 2)
            coderate := .lora4_5
            invertPol := false
            preamble := 10
            noCrc := true
            noHeader := true
            payload := beaconPayload c latitude longitude rfu1 rfu2 stack.payload }
        lastBeaconGpsTime := 0
        beaconLoop := 0
        retry := 0
        looping := false
        measNbBeaconQueued := 0
        measNbBeaconRejected := 0
        log := [] }

/-! ## One attempt -/

/-- `next_beacon_gps_time.tv_sec`.  The product is one of `unsigned int`s. -/
def nextBeaconGpsTime (c : BeaconConf) (s : BeaconState) (tref : Tref) : ℤ :=
  let period : ℤ := c.beaconPeriod.toNat
  let slot :=
    if s.lastBeaconGpsTime = 0 then tref.gps.tvSec + (period - tref.gps.tvSec.tmod period)
    else s.lastBeaconGpsTime + period
  slot + (s.retry * c.beaconPeriod).toNat

/-- `beacon_chan`. -/
def beaconChan (c : BeaconConf) (gpsTime : ℤ) : U8 :=
  if 1 < c.beaconFreqNb then
    BitVec.ofInt 8 ((gpsTime.tdiv c.beaconPeriod.toNat).tmod c.beaconFreqNb.toNat)
  else 0

/-- The four bytes of the time. -/
def timeBytes (gpsTime : ℤ) : List U8 :=
  let byte (k : ℕ) : U8 := BitVec.ofInt 8 (gpsTime >>> (8 * k))
  [byte 0, byte 1, byte 2, byte 3]

/-- The payload is loaded with another time, and its checksum is computed again. -/
def loadTime (rfu1 : ℕ) (gpsTime : ℤ) (payload : Slots U8 payloadMax) : Slots U8 payloadMax :=
  let payload := payload.write rfu1 (timeBytes gpsTime)
  payload.write (rfu1 + 4) (crcBytes (crc16 (payload.slice 0 (4 + rfu1))))

/-- The packet of one attempt; the answer of `lgw_gps2cnt` is not looked at. -/
def nextBeacon (c : BeaconConf) (gps2cnt : Gps2cnt) (s : BeaconState) (tref : Tref) : LgwPktTx :=
  let gpsTime := nextBeaconGpsTime c s tref
  { s.beaconPkt with
    countUs := (gps2cnt tref ⟨gpsTime, 0⟩).getD s.beaconPkt.countUs
    freqHz := c.beaconFreqHz + (beaconChan c gpsTime).setWidth 32 * c.beaconFreqStep
    payload := loadTime s.beaconRfu1Size gpsTime s.beaconPkt.payload }

/-- What `jit_enqueue` answers when it finds `tested` in its first critical section and
`met` in the second. -/
def beaconError (env : JitEnv) (tested met : JitQueue) (time : Timeval) (packet : LgwPktTx) :
    JitError :=
  if jitQueueIsFull tested then .full else (jitEnqueueLocked env met time packet .beacon).error

/-- One pass through the body of the loop, with a valid GPS reference. -/
def beaconAttempt (c : BeaconConf) (gps2cnt : Gps2cnt) (env : JitEnv) (s : BeaconState)
    (tref : Tref) (tested met : JitQueue) (time : Timeval) : BeaconState :=
  let packet := nextBeacon c gps2cnt s tref
  let error := beaconError env tested met time packet
  if error = .ok then
    { s with
      beaconPkt := packet
      measNbBeaconQueued := s.measNbBeaconQueued + 1
      beaconLoop := s.beaconLoop - 1
      retry := 0
      lastBeaconGpsTime := nextBeaconGpsTime c s tref
      log := ⟨nextBeaconGpsTime c s tref, tref, nodeFor env met time.lowUs packet .beacon⟩ ::
        s.log }
  else
    { s with
      beaconPkt := packet
      measNbBeaconRejected :=
        if error = .collisionBeacon then s.measNbBeaconRejected else s.measNbBeaconRejected + 1
      retry := s.retry + 1 }

/-! ## Runs -/

/-- What happens to the beacon part of `thread_down`. -/
inductive BeaconEvent
  /-- `num_beacon` is read, and the loop begins. -/
  | enter (numBeacon : U8)
  /-- A beacon is offered to the queue. -/
  | attempt (tref : Tref) (tested met : JitQueue) (time : Timeval)
  /-- The loop ends: nothing left to queue, no beacon period, or no valid GPS reference. -/
  | leave

/-- The beacon part of `thread_down`: the loop is entered, makes attempts, and is left. -/
inductive BeaconStep (c : BeaconConf) (gps2cnt : Gps2cnt) (env : JitEnv) :
    BeaconState → BeaconEvent → BeaconState → Prop
  | enter {s : BeaconState} {numBeacon : U8} (hl : s.looping = false) :
    BeaconStep c gps2cnt env s (.enter numBeacon)
      { s with
        beaconLoop := BitVec.ofNat 8 jitNumBeaconInQueue - numBeacon
        retry := 0
        looping := true }
  | attempt {s : BeaconState} {tref : Tref} {tested met : JitQueue} {time : Timeval}
    (hl : s.looping = true) (hb : s.beaconLoop ≠ 0) (hp : c.beaconPeriod ≠ 0) :
    BeaconStep c gps2cnt env s (.attempt tref tested met time)
      (beaconAttempt c gps2cnt env s tref tested met time)
  | leave {s : BeaconState} (hl : s.looping = true) :
    BeaconStep c gps2cnt env s .leave { s with looping := false }

/-- **On the grid.**  When the queue accepts a beacon, the 32-bit product of the number
of retries and the period is a multiple of the period; and the GPS time the first
slot is taken from is not before the GPS epoch. -/
def KeepsGrid (c : BeaconConf) (gps2cnt : Gps2cnt) (env : JitEnv) (s : BeaconState) :
    BeaconEvent → Prop
  | .attempt tref tested met time =>
    beaconError env tested met time (nextBeacon c gps2cnt s tref) = .ok →
      c.beaconPeriod.toNat ∣ (s.retry * c.beaconPeriod).toNat ∧
        (s.lastBeaconGpsTime = 0 → 0 ≤ tref.gps.tvSec)
  | _ => True

/-! ## The data of a time -/

/-- The payload time field, little endian. -/
def timeField (rfu1 : ℕ) (packet : LgwPktTx) : ℤ :=
  let byte (k : ℕ) : ℤ := (packet.payload.getD (rfu1 + k) 0).toNat
  byte 0 + 2 ^ 8 * byte 1 + 2 ^ 16 * byte 2 + 2 ^ 24 * byte 3

/-- A beacon lies on a multiple of the period, and its node carries the data of that
time: the time field, the frequency of the channel, and the count. -/
structure OfItsTime (c : BeaconConf) (gps2cnt : Gps2cnt) (rfu1 : ℕ) (b : QueuedBeacon) :
    Prop where
  grid : (c.beaconPeriod.toNat : ℤ) ∣ b.gpsTime
  time : timeField rfu1 b.node.pkt = b.gpsTime % 2 ^ 32
  channel : b.node.pkt.freqHz = c.beaconFreqHz +
    BitVec.ofInt 32 (b.gpsTime / c.beaconPeriod.toNat % max 1 c.beaconFreqNb.toNat) *
      c.beaconFreqStep
  count : gps2cnt b.tref ⟨b.gpsTime, 0⟩ = some b.node.pkt.countUs

/-- The CRC does not touch the time. -/
theorem getD_loadTime {rfu1 k : ℕ} (hrfu : rfu1 ≤ 5) (hk : k < 4) (gpsTime : ℤ)
    (payload : Slots U8 payloadMax) :
    (loadTime rfu1 gpsTime payload).getD (rfu1 + k) 0 = (timeBytes gpsTime).getD k 0 := by
  have hlen : (timeBytes gpsTime).length = 4 := rfl
  unfold loadTime
  simp only
  rw [Slots.getD_write_of_lt _ (by omega), Slots.getD_write _ (by omega)]
  rw [hlen]
  show rfu1 + 4 ≤ 256
  omega

theorem toNat_ofInt_byte (z : ℤ) : ((BitVec.ofInt 8 z).toNat : ℤ) = z % 256 := by
  rw [BitVec.toNat_ofInt]
  show (((z % 256).toNat : ℕ) : ℤ) = z % 256
  omega

/-- The four bytes make up the low 32 bits of the time. -/
theorem timeField_nextBeacon (c : BeaconConf) (gps2cnt : Gps2cnt) {s : BeaconState}
    (hrfu : s.beaconRfu1Size ≤ 5) (tref : Tref) :
    timeField s.beaconRfu1Size (nextBeacon c gps2cnt s tref) =
      nextBeaconGpsTime c s tref % 2 ^ 32 := by
  unfold timeField nextBeacon
  simp only
  rw [getD_loadTime hrfu (by omega), getD_loadTime hrfu (by omega),
    getD_loadTime hrfu (by omega), getD_loadTime hrfu (by omega)]
  simp only [timeBytes, List.getD_cons_zero, List.getD_cons_succ, toNat_ofInt_byte,
    Int.shiftRight_eq_div_pow]
  generalize nextBeaconGpsTime c s tref = t
  omega

/-- For a time that is not negative, C's division and remainder are the usual ones. -/
theorem setWidth_beaconChan {c : BeaconConf} {gpsTime : ℤ} (ht : 0 ≤ gpsTime) :
    (beaconChan c gpsTime).setWidth 32 =
      BitVec.ofInt 32 (gpsTime / c.beaconPeriod.toNat % max 1 c.beaconFreqNb.toNat) := by
  have hslot : 0 ≤ gpsTime / (c.beaconPeriod.toNat : ℤ) := Int.ediv_nonneg ht (Int.natCast_nonneg _)
  apply BitVec.eq_of_toNat_eq
  unfold beaconChan
  split
  · rename_i hnb
    rw [BitVec.lt_def] at hnb
    replace hnb : 1 < c.beaconFreqNb.toNat := hnb
    have hmax : max 1 c.beaconFreqNb.toNat = c.beaconFreqNb.toNat := by omega
    have hlt := c.beaconFreqNb.isLt
    rw [Int.tdiv_eq_ediv_of_nonneg ht, Int.tmod_eq_emod_of_nonneg hslot, hmax]
    generalize gpsTime / (c.beaconPeriod.toNat : ℤ) = m at hslot ⊢
    generalize c.beaconFreqNb.toNat = n at hnb hlt ⊢
    rw [BitVec.toNat_setWidth, BitVec.toNat_ofInt, BitVec.toNat_ofInt]
    have hlo := Int.emod_nonneg m (show (n : ℤ) ≠ 0 by omega)
    have hhi := Int.emod_lt_of_pos m (show (0 : ℤ) < n by omega)
    generalize m % (n : ℤ) = r at hlo hhi ⊢
    omega
  · rename_i hnb
    rw [BitVec.lt_def] at hnb
    replace hnb : ¬1 < c.beaconFreqNb.toNat := hnb
    have hmax : max 1 c.beaconFreqNb.toNat = 1 := by omega
    rw [hmax]
    show 0 = (BitVec.ofInt 32 (_ % 1)).toNat
    rw [Int.emod_one]
    rfl

/-! ## One step -/

/-- What holds of the beacons at any moment. -/
structure BeaconsOk (c : BeaconConf) (gps2cnt : Gps2cnt) (s : BeaconState) : Prop where
  rfu : s.beaconRfu1Size ≤ 5
  nonneg : 0 ≤ s.lastBeaconGpsTime
  grid : (c.beaconPeriod.toNat : ℤ) ∣ s.lastBeaconGpsTime
  /-- Zero is not taken for the time of a beacon. -/
  none : s.lastBeaconGpsTime = 0 → s.log = []
  latest : ∀ b ∈ s.log, b.gpsTime ≤ s.lastBeaconGpsTime
  increasing : s.log.Pairwise fun later earlier => earlier.gpsTime < later.gpsTime
  ofItsTime : ∀ b ∈ s.log, OfItsTime c gps2cnt s.beaconRfu1Size b

/-- The slot an attempt aims at: on the grid, and after the last beacon. -/
theorem nextBeaconGpsTime_spec {c : BeaconConf} {s : BeaconState} {tref : Tref}
    (hi : BeaconsOk c gps2cnt s) (hp : c.beaconPeriod ≠ 0)
    (hretry : c.beaconPeriod.toNat ∣ (s.retry * c.beaconPeriod).toNat)
    (hgps : s.lastBeaconGpsTime = 0 → 0 ≤ tref.gps.tvSec) :
    (c.beaconPeriod.toNat : ℤ) ∣ nextBeaconGpsTime c s tref ∧
      s.lastBeaconGpsTime < nextBeaconGpsTime c s tref := by
  have hpos : 0 < c.beaconPeriod.toNat :=
    Nat.pos_of_ne_zero fun h => hp (BitVec.eq_of_toNat_eq h)
  have hprod : (c.beaconPeriod.toNat : ℤ) ∣ ((s.retry * c.beaconPeriod).toNat : ℤ) :=
    Int.natCast_dvd_natCast.mpr hretry
  unfold nextBeaconGpsTime
  simp only
  split
  · rename_i hlast
    have hnow := hgps hlast
    rw [Int.tmod_eq_emod_of_nonneg hnow, hlast]
    have hslot : (c.beaconPeriod.toNat : ℤ) ∣
        tref.gps.tvSec + (c.beaconPeriod.toNat - tref.gps.tvSec % c.beaconPeriod.toNat) := by
      have hsub := Int.dvd_self_sub_emod (x := tref.gps.tvSec) (m := (c.beaconPeriod.toNat : ℤ))
      have hsum : tref.gps.tvSec + (c.beaconPeriod.toNat - tref.gps.tvSec % c.beaconPeriod.toNat) =
          tref.gps.tvSec - tref.gps.tvSec % c.beaconPeriod.toNat + c.beaconPeriod.toNat := by ring
      rw [hsum]
      exact dvd_add hsub (dvd_refl _)
    have hlt := Int.emod_lt_of_pos tref.gps.tvSec (show (0 : ℤ) < c.beaconPeriod.toNat by omega)
    exact ⟨dvd_add hslot hprod, by omega⟩
  · exact ⟨dvd_add (dvd_add hi.grid (dvd_refl _)) hprod, by omega⟩

/-- **One step.**  A step on the grid keeps what holds of the beacons. -/
theorem BeaconsOk.step {c : BeaconConf} {s s' : BeaconState} {e : BeaconEvent}
    (hcnt : ∀ tref t, (gps2cnt tref t).isSome) (hi : BeaconsOk c gps2cnt s)
    (hok : KeepsGrid c gps2cnt env s e) (h : BeaconStep c gps2cnt env s e s') :
    BeaconsOk c gps2cnt s' := by
  cases h with
  | enter hl => exact ⟨hi.rfu, hi.nonneg, hi.grid, hi.none, hi.latest, hi.increasing, hi.ofItsTime⟩
  | leave hl => exact ⟨hi.rfu, hi.nonneg, hi.grid, hi.none, hi.latest, hi.increasing, hi.ofItsTime⟩
  | @attempt tref tested met time hl hb hp =>
    unfold beaconAttempt
    simp only
    split
    · rename_i haccept
      obtain ⟨hretry, hgps⟩ := hok haccept
      obtain ⟨hgrid, hlater⟩ := nextBeaconGpsTime_spec hi hp hretry hgps
      have hpos : 0 < nextBeaconGpsTime c s tref := hi.nonneg.trans_lt hlater
      refine ⟨hi.rfu, hpos.le, hgrid, fun h0 => absurd h0 hpos.ne', ?_, ?_, ?_⟩
      · rintro b (_ | ⟨_, hb⟩)
        · exact le_rfl
        · exact (hi.latest b hb).trans hlater.le
      · exact List.pairwise_cons.mpr
          ⟨fun b hb => (hi.latest b hb).trans_lt hlater, hi.increasing⟩
      · rintro b (_ | ⟨_, hb⟩)
        · refine ⟨hgrid, timeField_nextBeacon c gps2cnt hi.rfu tref, ?_, ?_⟩
          · show c.beaconFreqHz + (beaconChan c _).setWidth 32 * c.beaconFreqStep = _
            rw [setWidth_beaconChan hpos.le]
          · obtain ⟨count, hcount⟩ := Option.isSome_iff_exists.mp
              (hcnt tref ⟨nextBeaconGpsTime c s tref, 0⟩)
            show gps2cnt tref _ = some ((gps2cnt tref _).getD _)
            rw [hcount]
            rfl
        · exact hi.ofItsTime b hb
    · exact ⟨hi.rfu, hi.nonneg, hi.grid, hi.none, hi.latest, hi.increasing, hi.ofItsTime⟩

/-! ## All runs -/

theorem beaconFormat_rfu1_le {beaconDatarate : U8} {datarate : Datarate} {rfu1 rfu2 : ℕ}
    (h : beaconFormat beaconDatarate = some (datarate, rfu1, rfu2)) : rfu1 ≤ 5 := by
  unfold beaconFormat at h
  split_ifs at h
  all_goals cases h
  all_goals decide

/-- What the beacon variables are at first. -/
theorem beaconSetup_spec {c : BeaconConf} {latitude longitude : BitVec 32} {stack : LgwPktTx}
    {s : BeaconState} (h : beaconSetup c latitude longitude stack = some s) :
    s.beaconRfu1Size ≤ 5 ∧ s.lastBeaconGpsTime = 0 ∧ s.looping = false ∧ s.log = [] := by
  obtain ⟨bandwidth, -, h⟩ := Option.bind_eq_some_iff.mp h
  obtain ⟨⟨datarate, rfu1, rfu2⟩, hformat, rfl⟩ := Option.map_eq_some_iff.mp h
  exact ⟨beaconFormat_rfu1_le hformat, rfl, rfl, rfl⟩

/-- **The beacons lie on the grid.**  In every run of `thread_down` on the grid the beacons
queued are multiples of the period, each later than the one queued before it, and the
time field, the frequency and the count of each are those of its own time. -/
theorem beacons_on_grid {c : BeaconConf} {latitude longitude : BitVec 32} {stack : LgwPktTx}
    {s₀ s : BeaconState} (h₀ : beaconSetup c latitude longitude stack = some s₀)
    (hcnt : ∀ tref t, (gps2cnt tref t).isSome)
    (h : Runs.Reaches (BeaconStep c gps2cnt env) (KeepsGrid c gps2cnt env) s₀ s) :
    s.log.Pairwise (fun later earlier => earlier.gpsTime < later.gpsTime) ∧
      ∀ b ∈ s.log, OfItsTime c gps2cnt s.beaconRfu1Size b := by
  obtain ⟨hrfu, hlast, -, hlog⟩ := beaconSetup_spec h₀
  have hstart : BeaconsOk c gps2cnt s₀ := by
    refine ⟨hrfu, hlast.ge, ?_, fun _ => hlog, ?_, ?_, ?_⟩
    · rw [hlast]
      exact dvd_zero _
    all_goals
      rw [hlog]
      simp
  have hi := Runs.Reaches.invariant hstart (fun _ _ _ _ hi hok hst => hi.step hcnt hok hst) h
  exact ⟨hi.increasing, hi.ofItsTime⟩

/-! ## The queue's view -/

/-- A full queue: the attempt is one critical section of `thread_down`. -/
theorem beaconAttempt_full {s : System} {b : BeaconState} (c : BeaconConf) (gps2cnt : Gps2cnt)
    (tref : Tref) (met : JitQueue) (time : Timeval) (hd : s.down = .beacons b.beaconLoop)
    (hb : b.beaconLoop ≠ 0) (hf : jitQueueIsFull s.queue = true) :
    System.Step env s .beaconTest s ∧
      (beaconAttempt c gps2cnt env b tref s.queue met time).beaconLoop = b.beaconLoop ∧
      (beaconAttempt c gps2cnt env b tref s.queue met time).log = b.log := by
  have herr : beaconError env s.queue met time (nextBeacon c gps2cnt b tref) = .full :=
    if_pos hf
  refine ⟨.beaconFull hd hb hf, ?_⟩
  unfold beaconAttempt
  simp only [herr, reduceCtorEq, if_false]
  exact ⟨trivial, trivial⟩

/-- **The beacons logged are those inserted.**  The second critical section of an attempt
is a step of `thread_down` on the queue, which inserts the node of the beacon that is
logged, or nothing if none is. -/
theorem beaconAttempt_insert {s : System} {b : BeaconState} {tested : JitQueue}
    (c : BeaconConf) (gps2cnt : Gps2cnt) (tref : Tref) (time : Timeval)
    (hd : s.down = .beaconTested b.beaconLoop) (ht : jitQueueIsFull tested = false) :
    ∃ s', System.Step env s (.beaconInsert time (nextBeacon c gps2cnt b tref)) s' ∧
      s'.down = .beacons (beaconAttempt c gps2cnt env b tref tested s.queue time).beaconLoop ∧
      s'.jit = s.jit ∧
      ((beaconAttempt c gps2cnt env b tref tested s.queue time).log = b.log ∧
          s'.queue = s.queue ∨
        ∃ beacon, (beaconAttempt c gps2cnt env b tref tested s.queue time).log =
            beacon :: b.log ∧ s'.queue = insertNode env s.queue beacon.node) := by
  have herr : beaconError env tested s.queue time (nextBeacon c gps2cnt b tref) =
      (jitEnqueueLocked env s.queue time (nextBeacon c gps2cnt b tref) .beacon).error := by
    unfold beaconError
    rw [ht]
    rfl
  refine ⟨_, .beaconInsert hd, ?_⟩
  unfold beaconAttempt
  simp only [herr]
  rcases jitEnqueueLocked_cases env s.queue time (nextBeacon c gps2cnt b tref) .beacon with
    ⟨hok, -, hq⟩ | ⟨hok, hq⟩
  · rw [if_pos hok, if_pos hok]
    exact ⟨rfl, trivial, .inr ⟨_, rfl, hq⟩⟩
  · rw [if_neg hok, if_neg hok]
    exact ⟨rfl, trivial, .inl ⟨rfl, hq⟩⟩

/-! ## Runs on fixed inputs -/

/-- `lgw_gps2cnt` for an exact crystal: the reference's count and the time since. -/
def elapsedGps2cnt : Gps2cnt := fun tref t =>
  some (tref.countUs + BitVec.ofInt 32 ((t.tvSec - tref.gps.tvSec) * 1000000))

/-- The default beacon settings with the given period. -/
def everySeconds (period : U32) : BeaconConf where
  beaconPeriod := period
  beaconFreqHz := 869525000
  beaconFreqNb := 1
  beaconFreqStep := 0
  beaconDatarate := 9
  beaconBwHz := 125000
  beaconPower := 14
  beaconInfodesc := 0

/-- A reference with count 0 at the given GPS second. -/
def trefAt (gpsSec : ℤ) : Tref := ⟨0, 0, ⟨0, 0⟩, ⟨gpsSec, 0⟩, .finite 1⟩

/-- The variables of `thread_down` before its main loop. -/
def beaconStart (period : U32) : BeaconState :=
  (beaconSetup (everySeconds period) 0 0 .zero).get rfl

/-- The same in the loop over three beacons. -/
def beaconEntered (period : U32) : BeaconState :=
  { beaconStart period with
    beaconLoop := BitVec.ofNat 8 jitNumBeaconInQueue - 0
    retry := 0
    looping := true }

/-- The first beacon, 128 s after GPS second 1024. -/
theorem beacons_on_grid_first_beacon :
    let s := beaconAttempt (everySeconds 128) elapsedGps2cnt .reference (beaconEntered 128)
      (trefAt 1024) jitQueueInit jitQueueInit (instant 0)
    s.log.Pairwise (fun later earlier => earlier.gpsTime < later.gpsTime) ∧
      ∀ b ∈ s.log, OfItsTime (everySeconds 128) elapsedGps2cnt s.beaconRfu1Size b :=
  beacons_on_grid (show beaconSetup (everySeconds 128) 0 0 .zero = some (beaconStart 128) from
    (Option.some_get _).symm) (fun _ _ => rfl)
    (.next (.next .start (show KeepsGrid _ _ _ _ (.enter 0) from trivial) (.enter rfl))
      (fun _ => ⟨by decide, fun _ => by decide⟩) (.attempt rfl (by decide) (by decide)))

/-- A queue that stays full answers every attempt with `JIT_ERROR_FULL`. -/
theorem reaches_retries (c : BeaconConf) (gps2cnt : Gps2cnt) (env : JitEnv) {s : BeaconState}
    {tested : JitQueue} (hl : s.looping = true) (hb : s.beaconLoop ≠ 0) (hp : c.beaconPeriod ≠ 0)
    (hfull : jitQueueIsFull tested = true) (tref : Tref) (n : ℕ) :
    ∃ s', Runs.Reaches (BeaconStep c gps2cnt env) Runs.anyStep s s' ∧ s'.looping = true ∧
      s'.beaconLoop ≠ 0 ∧ s'.lastBeaconGpsTime = s.lastBeaconGpsTime ∧
      s'.retry = s.retry + BitVec.ofNat 32 n := by
  induction n with
  | zero => exact ⟨s, .start, hl, hb, rfl, (BitVec.add_zero _).symm⟩
  | succ n ih =>
    obtain ⟨s', hr, hl', hb', hlast, hretry⟩ := ih
    have herr : beaconError env tested tested (instant 0) (nextBeacon c gps2cnt s' tref) = .full :=
      if_pos hfull
    refine ⟨beaconAttempt c gps2cnt env s' tref tested tested (instant 0),
      .next hr trivial (.attempt hl' hb' hp), ?_⟩
    unfold beaconAttempt
    simp only [herr, reduceCtorEq, if_false]
    refine ⟨hl', hb', hlast, ?_⟩
    rw [hretry, BitVec.add_assoc, BitVec.ofNat_add]
    rfl

/-- An empty queue accepts a beacon that is not too late. -/
theorem beaconError_empty {time : Timeval} {packet : LgwPktTx}
    (h : ¬packet.countUs - time.lowUs ≤ txStartDelay + txMarginDelay + txJitDelay) :
    beaconError env jitQueueInit jitQueueInit time packet = .ok := by
  unfold beaconError jitEnqueueLocked
  have hnew : (nodeFor env jitQueueInit time.lowUs packet .beacon).pkt.countUs =
      packet.countUs := rfl
  simp only [hnew]
  rw [if_neg (by decide), if_neg h, if_neg (by rintro ⟨ht | ht, -⟩ <;> cases ht)]
  rfl

/-- **A beacon off the grid.**  With a period of a day, a queue that is full for 49711
passes of the loop makes the product wrap: the beacon that is accepted then is queued
for GPS second 149504, which is no multiple of the period. -/
theorem beacon_off_grid :
    ∃ s, Runs.Reaches (BeaconStep (everySeconds 86400) elapsedGps2cnt .reference) Runs.anyStep
        (beaconStart 86400) s ∧
      ∃ b ∈ s.log, b.gpsTime = 149504 ∧ ¬(86400 ∣ b.gpsTime) := by
  obtain ⟨s, hr, hl, hb, hlast, hretry⟩ := reaches_retries (everySeconds 86400)
    elapsedGps2cnt .reference (s := beaconEntered 86400) rfl (by decide) (by decide)
    (show jitQueueIsFull ⟨32, 0, .replicate 32 .zero⟩ = true from rfl) (trefAt 0) 49711
  have htime : nextBeaconGpsTime (everySeconds 86400) s (trefAt 0) = 149504 := by
    unfold nextBeaconGpsTime
    rw [hlast, hretry]
    decide +kernel
  have haccept : beaconError .reference jitQueueInit jitQueueInit (instant 0)
      (nextBeacon (everySeconds 86400) elapsedGps2cnt s (trefAt 0)) = .ok := by
    refine beaconError_empty ?_
    unfold nextBeacon
    simp only [htime, elapsedGps2cnt, Option.getD_some]
    decide +kernel
  refine ⟨beaconAttempt (everySeconds 86400) elapsedGps2cnt .reference s (trefAt 0) jitQueueInit
    jitQueueInit (instant 0), .next (.trans (.next .start trivial (.enter rfl)) hr) trivial
    (.attempt hl hb (by decide)), ?_⟩
  unfold beaconAttempt
  simp only [haccept, if_true]
  refine ⟨_, List.mem_cons_self, htime, ?_⟩
  simp only [htime]
  decide

end PacketForwarder
