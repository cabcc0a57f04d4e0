import PacketForwarder.Hal
import PacketForwarder.Lib.Runs
import PacketForwarder.Lib.StreamTail

/-!
# The receive buffer of `thread_gps`

`thread_gps` reads a few bytes at a time from the serial port, looks for frames in all it has,
drops everything up to the end of the last one, and the oldest bytes if the next read might not
fit.  The indices are `size_t`, with subtractions that could wrap.

* `Scan.step`, `scan` — the scan, one position after the other, with what the HAL answers;
* `GpsThread.Step` — the loop, for any bytes in any pieces and any answers of the HAL;
* `scan_spec` — the scan ends at the end of the bytes, with its indices in order;
* `gps_buffer` — in every run there is room for every read, no subtraction wraps, and the
  buffer holds the last bytes that have come.
-/

namespace PacketForwarder

/-! ## The HAL -/

/-- `LGW_GPS_MIN_MSG_SIZE`. -/
@[simp] abbrev lgwGpsMinMsgSize : ℕ := 8

/-- `sizeof serial_buff`. -/
@[simp] abbrev serialBuffSize : ℕ := 128

/-- `enum gps_msg`, those the code names. -/
inductive GpsMsg
  | unknown
  | invalid
  | incomplete
  | nmeaRmc
  | ubxNavTimegps
  /-- Any other answer of the two parsers. -/
  | other
  deriving DecidableEq

/-- What the scan uses of the HAL, and what it answers. -/
structure GpsHal where
  /-- `LGW_GPS_UBX_SYNC_CHAR`. -/
  ubxSyncChar : U8
  /-- `LGW_GPS_NMEA_SYNC_CHAR`. -/
  nmeaSyncChar : U8
  /-- The kind of the message at the start of the bytes, and `frame_size`. -/
  lgwParseUbx : List U8 → GpsMsg × BitVec 64
  lgwParseNmea : List U8 → GpsMsg

/-- **A frame is not larger than what was given**, unless it is incomplete. -/
def GpsHal.FrameFits (hal : GpsHal) : Prop :=
  ∀ bytes, (hal.lgwParseUbx bytes).1 ≠ .incomplete →
    (hal.lgwParseUbx bytes).2.toNat ≤ bytes.length

/-! ## The scan -/

/-- What a frame is good for. -/
inductive GpsAction
  /-- `gps_process_sync()`. -/
  | sync
  /-- `gps_process_coords()`. -/
  | coords
  deriving DecidableEq

/-- A UBX sync character: `frame_size`, and what is done. -/
def ubxFrame (hal : GpsHal) (bytes : List U8) : BitVec 64 × Option GpsAction :=
  let (latestMsg, frameSize) := hal.lgwParseUbx bytes
  if 0 < frameSize then
    if latestMsg = .incomplete then (0, none)
    else if latestMsg = .invalid then (0, none)
    else (frameSize, if latestMsg = .ubxNavTimegps then some .sync else none)
  else (0, none)

/-- An NMEA sync character: the frame ends with the first line feed. -/
def nmeaFrame (hal : GpsHal) (bytes : List U8) : BitVec 64 × Option GpsAction :=
  match bytes.findIdx? fun x => x = 0x0a with
  | some nmeaEnd =>
    let latestMsg := hal.lgwParseNmea (bytes.take (nmeaEnd + 1))
    if latestMsg = .invalid ∨ latestMsg = .unknown then (0, none)
    else (BitVec.ofNat 64 (nmeaEnd + 1), if latestMsg = .nmeaRmc then some .coords else none)
  | none => (0, none)

/-- What is at the start of some bytes. -/
def frameAt (hal : GpsHal) (bytes : List U8) : BitVec 64 × Option GpsAction :=
  if bytes.head? = some hal.ubxSyncChar then ubxFrame hal bytes
  else if bytes.head? = some hal.nmeaSyncChar then nmeaFrame hal bytes
  else (0, none)

/-- The variables of the scan over the buffer. -/
structure Scan where
  rdIdx : BitVec 64
  frameEndIdx : BitVec 64
  /-- What has been done, the latest last. -/
  actions : List GpsAction

/-- One pass through the body of the scan. -/
def Scan.step (hal : GpsHal) (serialBuff : Slots U8 serialBuffSize) (wrIdx : BitVec 64)
    (x : Scan) : Scan :=
  let (frameSize, action) :=
    frameAt hal (serialBuff.slice x.rdIdx.toNat (wrIdx - x.rdIdx).toNat)
  if 0 < frameSize then
    { rdIdx := x.rdIdx + frameSize
      frameEndIdx := x.rdIdx + frameSize
      actions := x.actions ++ action.toList }
  else { x with rdIdx := x.rdIdx + 1, actions := x.actions ++ action.toList }

/-- `while (rd_idx < wr_idx)`, for so many passes at most. -/
def Scan.run (hal : GpsHal) (serialBuff : Slots U8 serialBuffSize) (wrIdx : BitVec 64) :
    ℕ → Scan → Scan
  | 0, x => x
  | fuel + 1, x =>
    if x.rdIdx < wrIdx then Scan.run hal serialBuff wrIdx fuel (x.step hal serialBuff wrIdx)
    else x

/-! ## The loop of the thread -/

/-- The variables of `thread_gps` that live from one read to the next. -/
structure GpsThread where
  serialBuff : Slots U8 serialBuffSize
  wrIdx : BitVec 64
  /-- The bytes read so far: recorded for the statements. -/
  received : List U8

namespace GpsThread

/-- The thread before its loop, with an empty buffer. -/
def start : GpsThread := ⟨.replicate serialBuffSize 0, 0, []⟩

/-- The thread after `read` has put a chunk behind what is in the buffer. -/
def afterRead (s : GpsThread) (chunk : List U8) : GpsThread where
  serialBuff := s.serialBuff.write s.wrIdx.toNat chunk
  wrIdx := s.wrIdx + BitVec.ofNat 64 chunk.length
  received := s.received ++ chunk

/-- The scan, with as many passes as there are bytes. -/
def scan (hal : GpsHal) (s : GpsThread) : Scan :=
  Scan.run hal s.serialBuff s.wrIdx s.wrIdx.toNat ⟨0, 0, []⟩

/-- `memcpy(serial_buff, &serial_buff[i], wr_idx - i)`, and `wr_idx -= i`. -/
def dropFirst (s : GpsThread) (i : BitVec 64) : GpsThread :=
  { s with
    serialBuff := s.serialBuff.moveDown i.toNat (s.wrIdx - i).toNat
    wrIdx := s.wrIdx - i }

/-- The bytes up to the end of the last frame are removed. -/
def removeFrames (s : GpsThread) (frameEndIdx : BitVec 64) : GpsThread :=
  if frameEndIdx ≠ 0 then s.dropFirst frameEndIdx else s

/-- The next read might not fit into what is left of the buffer. -/
def Overflows (s : GpsThread) : Prop :=
  BitVec.ofNat 64 serialBuffSize - s.wrIdx < BitVec.ofNat 64 lgwGpsMinMsgSize

instance (s : GpsThread) : Decidable s.Overflows := inferInstanceAs (Decidable (_ < _))

/-- The oldest bytes are dropped where the buffer could overflow with the next read. -/
def preventOverflow (s : GpsThread) : GpsThread :=
  if s.Overflows then s.dropFirst (BitVec.ofNat 64 lgwGpsMinMsgSize) else s

/-- What is left when the frames are removed. -/
def compacted (hal : GpsHal) (s : GpsThread) (chunk : List U8) : GpsThread :=
  (s.afterRead chunk).removeFrames ((s.afterRead chunk).scan hal).frameEndIdx

end GpsThread

/-- What `read` returns to the thread. -/
inductive GpsEvent
  /-- Nothing is read, and the loop goes on with `continue`. -/
  | fails
  /-- Some bytes are read; the HAL answers as given. -/
  | read (chunk : List U8) (hal : GpsHal)

/-- A chunk has from 1 to `LGW_GPS_MIN_MSG_SIZE` bytes. -/
def IsChunk (chunk : List U8) : Prop := 0 < chunk.length ∧ chunk.length ≤ lgwGpsMinMsgSize

instance (chunk : List U8) : Decidable (IsChunk chunk) := inferInstanceAs (Decidable (_ ∧ _))

/-- The loop of the thread reads, scans what it has, and goes on to the next read. -/
inductive GpsThread.Step : GpsThread → GpsEvent → GpsThread → Prop
  | fails {s : GpsThread} : Step s .fails s
  | read {s : GpsThread} {chunk : List U8} {hal : GpsHal} (hchunk : IsChunk chunk)
      (hfits : hal.FrameFits) :
      Step s (.read chunk hal) (s.compacted hal chunk).preventOverflow

/-! ## The scan ends -/

variable {hal : GpsHal}

theorem ubxFrame_le (hfits : hal.FrameFits) (bytes : List U8) :
    (ubxFrame hal bytes).1.toNat ≤ bytes.length := by
  have hle := hfits bytes
  unfold ubxFrame
  rcases hparse : hal.lgwParseUbx bytes with ⟨latestMsg, frameSize⟩
  rw [hparse] at hle
  dsimp only at hle ⊢
  split
  · split
    · exact Nat.zero_le _
    · rename_i hcomplete
      split
      · exact Nat.zero_le _
      · exact hle hcomplete
  · exact Nat.zero_le _

theorem nmeaFrame_le (hal : GpsHal) (bytes : List U8) :
    (nmeaFrame hal bytes).1.toNat ≤ bytes.length := by
  unfold nmeaFrame
  split
  · rename_i nmeaEnd hend
    have hlt := (List.findIdx?_eq_some_iff_findIdx_eq.mp hend).1
    dsimp only
    split
    · exact Nat.zero_le _
    · rw [BitVec.toNat_ofNat]
      exact (Nat.mod_le _ _).trans hlt
  · exact Nat.zero_le _

/-- No frame is larger than the bytes there are. -/
theorem frameAt_le (hfits : hal.FrameFits) (bytes : List U8) :
    (frameAt hal bytes).1.toNat ≤ bytes.length := by
  unfold frameAt
  split
  · exact ubxFrame_le hfits bytes
  · split
    · exact nmeaFrame_le hal bytes
    · exact Nat.zero_le _

variable {serialBuff : Slots U8 serialBuffSize} {wrIdx : BitVec 64}

/-- The indices of the scan are in order. -/
structure Scan.Ordered (wrIdx : BitVec 64) (x : Scan) : Prop where
  frameEnd_le : x.frameEndIdx.toNat ≤ x.rdIdx.toNat
  rd_le : x.rdIdx.toNat ≤ wrIdx.toNat

/-- **One pass** gets on, and not too far. -/
theorem Scan.Ordered.step {x : Scan} (hi : x.Ordered wrIdx)
    (serialBuff : Slots U8 serialBuffSize) (hfits : hal.FrameFits)
    (hwr : wrIdx.toNat ≤ serialBuffSize) (hlt : x.rdIdx < wrIdx) :
    (x.step hal serialBuff wrIdx).Ordered wrIdx ∧
      x.rdIdx.toNat < (x.step hal serialBuff wrIdx).rdIdx.toNat := by
  obtain ⟨hframe, hrd⟩ := hi
  rw [BitVec.lt_def] at hlt
  have hlen : (serialBuff.slice x.rdIdx.toNat (wrIdx - x.rdIdx).toNat).length ≤
      wrIdx.toNat - x.rdIdx.toNat := by
    have hsub : (wrIdx - x.rdIdx).toNat = wrIdx.toNat - x.rdIdx.toNat := by bv_omega
    rw [Slots.slice, hsub]
    exact List.length_take_le _ _
  simp only [serialBuffSize] at hwr
  have hsize := (frameAt_le hfits _).trans hlen
  unfold Scan.step
  dsimp only
  generalize frameAt hal (serialBuff.slice x.rdIdx.toNat (wrIdx - x.rdIdx).toNat) = frame at hsize ⊢
  split
  · rename_i hpos
    have hadd : (x.rdIdx + frame.1).toNat = x.rdIdx.toNat + frame.1.toNat := by bv_omega
    have hframePos : 0 < frame.1.toNat := by bv_omega
    exact ⟨⟨le_rfl, by dsimp only; omega⟩, by dsimp only; omega⟩
  · have hadd : (x.rdIdx + 1).toNat = x.rdIdx.toNat + 1 := by bv_omega
    exact ⟨⟨by dsimp only; omega, by dsimp only; omega⟩, by dsimp only; omega⟩

/-- **The scan ends** when it has come to the end of the bytes, which it does in no more passes
than there are bytes. -/
theorem Scan.Ordered.run {x : Scan} (hi : x.Ordered wrIdx) (hfits : hal.FrameFits)
    (hwr : wrIdx.toNat ≤ serialBuffSize) {fuel : ℕ} (hfuel : wrIdx.toNat ≤ x.rdIdx.toNat + fuel) :
    (Scan.run hal serialBuff wrIdx fuel x).Ordered wrIdx ∧
      ¬(Scan.run hal serialBuff wrIdx fuel x).rdIdx < wrIdx := by
  induction fuel generalizing x with
  | zero =>
    refine ⟨hi, fun hlt => ?_⟩
    rw [BitVec.lt_def] at hlt
    change x.rdIdx.toNat < wrIdx.toNat at hlt
    omega
  | succ fuel ih =>
    unfold Scan.run
    split
    · rename_i hlt
      obtain ⟨hnext, hgain⟩ := hi.step serialBuff hfits hwr hlt
      exact ih hnext (by omega)
    · rename_i hend
      exact ⟨hi, hend⟩

namespace GpsThread

theorem scan_spec {s : GpsThread} (hfits : hal.FrameFits)
    (hwr : s.wrIdx.toNat ≤ serialBuffSize) :
    (s.scan hal).Ordered s.wrIdx ∧ ¬(s.scan hal).rdIdx < s.wrIdx :=
  Scan.Ordered.run ⟨le_rfl, Nat.zero_le _⟩ hfits hwr (Nat.le_add_left _ _)

/-! ## The buffer -/

/-- The buffer holds the last `wr_idx` bytes that were read, in order. -/
def HoldsLast (s : GpsThread) : Prop :=
  s.wrIdx.toNat ≤ s.received.length ∧
    s.serialBuff.live s.wrIdx.toNat = s.received.drop (s.received.length - s.wrIdx.toNat)

/-- **One pass of the loop.**  The scan ends with its indices in order; no subtraction wraps;
and after each of the two moves the buffer holds the last bytes. -/
structure PassOk (hal : GpsHal) (s : GpsThread) (chunk : List U8) : Prop where
  ends : ¬((s.afterRead chunk).scan hal).rdIdx < (s.afterRead chunk).wrIdx
  ordered : ((s.afterRead chunk).scan hal).Ordered (s.afterRead chunk).wrIdx
  frames : BitVec.usubOverflow (s.afterRead chunk).wrIdx
    ((s.afterRead chunk).scan hal).frameEndIdx = false
  room : BitVec.usubOverflow (BitVec.ofNat 64 serialBuffSize) (s.compacted hal chunk).wrIdx = false
  oldest : (s.compacted hal chunk).Overflows →
    BitVec.usubOverflow (s.compacted hal chunk).wrIdx (BitVec.ofNat 64 lgwGpsMinMsgSize) = false
  compacted : (s.compacted hal chunk).HoldsLast
  kept : (s.compacted hal chunk).preventOverflow.HoldsLast

/-- What holds whenever the thread is about to read. -/
structure BufferOk (s : GpsThread) : Prop where
  room : s.wrIdx.toNat + lgwGpsMinMsgSize ≤ serialBuffSize
  tail : s.serialBuff.HoldsTail s.wrIdx.toNat s.received

theorem holdsLast_of_holdsTail {s : GpsThread}
    (h : s.serialBuff.HoldsTail s.wrIdx.toNat s.received) : s.HoldsLast :=
  ⟨h.length_le, h.live_eq_drop⟩

theorem holdsTail_dropFirst {s : GpsThread} {i : BitVec 64}
    (h : s.serialBuff.HoldsTail s.wrIdx.toNat s.received) (hi : i.toNat ≤ s.wrIdx.toNat) :
    (s.dropFirst i).serialBuff.HoldsTail (s.dropFirst i).wrIdx.toNat (s.dropFirst i).received := by
  have hsub : (s.wrIdx - i).toNat = s.wrIdx.toNat - i.toNat := by bv_omega
  show (s.serialBuff.moveDown i.toNat (s.wrIdx - i).toNat).HoldsTail (s.wrIdx - i).toNat s.received
  rw [hsub]
  exact h.moveDown hi

/-- What is read is written behind the bytes that are there. -/
theorem BufferOk.afterRead {s : GpsThread} (hi : s.BufferOk) {chunk : List U8}
    (hchunk : IsChunk chunk) :
    (s.afterRead chunk).serialBuff.HoldsTail (s.afterRead chunk).wrIdx.toNat
      (s.afterRead chunk).received := by
  obtain ⟨hroom, htail⟩ := hi
  obtain ⟨hpos, hlen⟩ := hchunk
  simp only [lgwGpsMinMsgSize, serialBuffSize] at hroom hlen
  have hadd : (s.wrIdx + BitVec.ofNat 64 chunk.length).toNat = s.wrIdx.toNat + chunk.length := by
    rw [BitVec.toNat_add, BitVec.toNat_ofNat]
    omega
  show (s.serialBuff.write s.wrIdx.toNat chunk).HoldsTail
    (s.wrIdx + BitVec.ofNat 64 chunk.length).toNat _
  rw [hadd]
  exact htail.write (by simp only [serialBuffSize]; omega)

/-- What is left when the frames are removed. -/
theorem BufferOk.compacted {s : GpsThread} (hi : s.BufferOk) {chunk : List U8}
    (hchunk : IsChunk chunk) (hfits : hal.FrameFits) :
    (s.compacted hal chunk).serialBuff.HoldsTail (s.compacted hal chunk).wrIdx.toNat
      (s.compacted hal chunk).received := by
  have hread := hi.afterRead hchunk
  obtain ⟨hordered, -⟩ := scan_spec hfits hread.le
  unfold GpsThread.compacted removeFrames
  split
  · exact holdsTail_dropFirst hread (hordered.frameEnd_le.trans hordered.rd_le)
  · exact hread

/-- **One pass** from a buffer with room for it. -/
theorem BufferOk.pass {s : GpsThread} (hi : s.BufferOk) {chunk : List U8}
    (hchunk : IsChunk chunk) (hfits : hal.FrameFits) :
    s.PassOk hal chunk ∧ (s.compacted hal chunk).preventOverflow.BufferOk := by
  obtain ⟨hordered, hends⟩ := scan_spec hfits (hi.afterRead hchunk).le
  have hframe := hordered.frameEnd_le.trans hordered.rd_le
  have hcompacted := hi.compacted hchunk hfits
  have hle := hcompacted.le
  generalize hu : s.compacted hal chunk = u at hcompacted hle
  simp only [serialBuffSize] at hle
  -- The buffer overflows if less than a message fits into what is left of it.
  have hoverflows : u.Overflows ↔ 120 < u.wrIdx.toNat := by
    unfold Overflows
    simp only [serialBuffSize, lgwGpsMinMsgSize]
    bv_omega
  have hkept : u.preventOverflow.BufferOk := by
    unfold preventOverflow
    split
    · rename_i hover
      have hlarge := hoverflows.mp hover
      refine ⟨?_, holdsTail_dropFirst hcompacted ?_⟩
      · show (u.wrIdx - BitVec.ofNat 64 8).toNat + 8 ≤ 128
        bv_omega
      · show 8 ≤ u.wrIdx.toNat
        omega
    · rename_i hover
      have hsmall := mt hoverflows.mpr hover
      refine ⟨?_, hcompacted⟩
      show u.wrIdx.toNat + 8 ≤ 128
      omega
  refine ⟨⟨hends, hordered, ?_, ?_, ?_, ?_, ?_⟩, hkept⟩
  · exact decide_eq_false (not_lt.mpr hframe)
  · rw [hu]
    exact decide_eq_false (not_lt.mpr hle)
  · rw [hu]
    intro hover
    have hlarge := hoverflows.mp hover
    refine decide_eq_false (not_lt.mpr ?_)
    show 8 ≤ u.wrIdx.toNat
    omega
  · rw [hu]
    exact holdsLast_of_holdsTail hcompacted
  · rw [hu]
    exact holdsLast_of_holdsTail hkept.tail

theorem BufferOk.step {s s' : GpsThread} {e : GpsEvent} (hi : s.BufferOk)
    (h : GpsThread.Step s e s') : s'.BufferOk := by
  cases h with
  | fails => exact hi
  | read hchunk hfits => exact (hi.pass hchunk hfits).2

end GpsThread

/-- **The receive buffer.**  Whatever has come in, in whatever pieces, whenever the thread is
about to read there is room for it and the buffer holds the last bytes that came; and whatever
comes next, the pass goes well. -/
theorem gps_buffer {s : GpsThread}
    (h : Runs.Reaches GpsThread.Step Runs.anyStep GpsThread.start s) :
    s.wrIdx.toNat + lgwGpsMinMsgSize ≤ serialBuffSize ∧ s.HoldsLast ∧
      ∀ (chunk : List U8) (hal : GpsHal), IsChunk chunk → hal.FrameFits → s.PassOk hal chunk := by
  have hstart : GpsThread.start.BufferOk := ⟨by decide, Slots.holdsTail_nil _⟩
  have hi := Runs.Reaches.invariant hstart (fun _ _ _ _ hi _ hst => hi.step hst) h
  exact ⟨hi.room, GpsThread.holdsLast_of_holdsTail hi.tail,
    fun chunk hal hchunk hfits => (hi.pass hchunk hfits).1⟩

/-- A HAL that finds a UBX message of two bytes wherever there are two. -/
def twoByteHal : GpsHal where
  ubxSyncChar := 0xb5
  nmeaSyncChar := 0x24
  lgwParseUbx bytes := if bytes.length < 2 then (.incomplete, 8) else (.ubxNavTimegps, 2)
  lgwParseNmea _ := .nmeaRmc

theorem frameFits_twoByteHal : twoByteHal.FrameFits := by
  intro bytes hcomplete
  unfold twoByteHal at hcomplete ⊢
  dsimp only at hcomplete ⊢
  split
  · rename_i hshort
    rw [if_pos hshort] at hcomplete
    exact absurd rfl hcomplete
  · rename_i hlong
    exact not_lt.mp hlong

/-- A message and the start of another one, then the rest of it. -/
theorem gps_buffer_two_reads :
    (GpsThread.start.compacted twoByteHal [0xb5, 1, 0xb5]).preventOverflow.PassOk twoByteHal
      [2, 0x24, 10] :=
  (gps_buffer (.next .start trivial (.read (by decide) frameFits_twoByteHal))).2.2
    [2, 0x24, 10] twoByteHal (by decide) frameFits_twoByteHal

end PacketForwarder
