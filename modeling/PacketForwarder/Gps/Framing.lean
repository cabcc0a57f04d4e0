import PacketForwarder.Gps
import PacketForwarder.Lib.Receiver

/-!
# `thread_gps` as a receiver of frames

What the thread does with its indices and its buffer, in terms of the bytes alone: it is the
receiver of `Lib.Receiver`, which holds at most 120 bytes and drops 8.

* `GpsThread.frames` — the frames the scan finds;
* `scan_frames` — they are those of the bytes in the buffer, and so are the calls;
* `pass_receives` — one pass of the loop is one step of the receiver.
-/

namespace PacketForwarder

/-! ## The source -/

/-- How much the thread holds at most when it is about to read. -/
@[simp] abbrev heldMax : ℕ := serialBuffSize - lgwGpsMinMsgSize

/-- What the HAL finds at the start of some bytes, of which the buffer holds 128 at most. -/
def GpsHal.read (hal : GpsHal) (bytes : List U8) : ℕ × Option GpsAction :=
  let frame := frameAt hal (bytes.take serialBuffSize)
  (frame.1.toNat, frame.2)

/-- The frame at `rd_idx`, if there is one; `offset` is where it begins in all that was read. -/
def Scan.found (hal : GpsHal) (s : GpsThread) (x : Scan) :
    Option (Framing.Found U8 (Option GpsAction)) :=
  let bytes := s.serialBuff.slice x.rdIdx.toNat (s.wrIdx - x.rdIdx).toNat
  let (frameSize, action) := frameAt hal bytes
  if 0 < frameSize then
    some
      { offset := s.received.length - s.wrIdx.toNat + x.rdIdx.toNat
        elements := bytes.take frameSize.toNat
        value := action }
  else none

/-- The frames the scan finds in so many passes at most. -/
def Scan.frames (hal : GpsHal) (s : GpsThread) :
    ℕ → Scan → List (Framing.Found U8 (Option GpsAction))
  | 0, _ => []
  | fuel + 1, x =>
    if x.rdIdx < s.wrIdx then
      (x.found hal s).toList ++ Scan.frames hal s fuel (x.step hal s.serialBuff s.wrIdx)
    else []

namespace GpsThread

/-- The frames that the scan of the thread finds in its buffer. -/
def frames (hal : GpsHal) (s : GpsThread) : List (Framing.Found U8 (Option GpsAction)) :=
  Scan.frames hal s s.wrIdx.toNat ⟨0, 0, []⟩

/-- The bytes in the buffer that have not been consumed. -/
def bytes (s : GpsThread) : List U8 := s.serialBuff.live s.wrIdx.toNat

/-- One pass of the loop, with what was read. -/
def pass (hal : GpsHal) (s : GpsThread) (chunk : List U8) : GpsThread :=
  (s.compacted hal chunk).preventOverflow

/-- The thread as a receiver, with what it has received and what it holds. -/
def held (s : GpsThread) : Framing.Held U8 := ⟨s.received.length, s.bytes⟩

end GpsThread

/-! ## The scan -/

variable {hal : GpsHal}

theorem ubxFrame_action {bytes : List U8} (h : (ubxFrame hal bytes).1 = 0) :
    (ubxFrame hal bytes).2 = none := by
  unfold ubxFrame at h ⊢
  dsimp only at h ⊢
  split
  · rename_i hpos
    rw [if_pos hpos] at h
    split
    · rfl
    · rename_i hcomplete
      rw [if_neg hcomplete] at h
      split
      · rfl
      · rename_i hvalid
        rw [if_neg hvalid] at h
        change (hal.lgwParseUbx bytes).2 = 0 at h
        rw [h] at hpos
        exact absurd hpos (by decide)
  · rfl

theorem nmeaFrame_action {bytes : List U8} (hlen : bytes.length ≤ serialBuffSize)
    (h : (nmeaFrame hal bytes).1 = 0) : (nmeaFrame hal bytes).2 = none := by
  unfold nmeaFrame at h ⊢
  split
  · rename_i nmeaEnd hend
    have hlt := (List.findIdx?_eq_some_iff_findIdx_eq.mp hend).1
    rw [hend] at h
    dsimp only at h ⊢
    split
    · rfl
    · rename_i hvalid
      rw [if_neg hvalid] at h
      have hzero := congrArg BitVec.toNat h
      simp only [serialBuffSize] at hlen
      rw [BitVec.toNat_ofNat, Nat.mod_eq_of_lt (by omega)] at hzero
      exact absurd hzero (Nat.succ_ne_zero nmeaEnd)
  · rfl

/-- Without a frame nothing is done. -/
theorem frameAt_action {bytes : List U8} (hlen : bytes.length ≤ serialBuffSize)
    (h : (frameAt hal bytes).1 = 0) : (frameAt hal bytes).2 = none := by
  unfold frameAt at h ⊢
  split
  · rename_i hubx
    rw [if_pos hubx] at h
    exact ubxFrame_action h
  · rename_i hubx
    rw [if_neg hubx] at h
    split
    · rename_i hnmea
      rw [if_pos hnmea] at h
      exact nmeaFrame_action hlen h
    · rfl

/-- In the buffer, it is what the scan finds. -/
theorem read_eq {bytes : List U8} (hlen : bytes.length ≤ serialBuffSize) :
    hal.read bytes = ((frameAt hal bytes).1.toNat, (frameAt hal bytes).2) := by
  rw [GpsHal.read, List.take_of_length_le hlen]

/-- What the frames are good for. -/
def calls (frames : List (Framing.Found U8 (Option GpsAction))) : List GpsAction :=
  frames.filterMap (·.value)

theorem calls_cons (f : Framing.Found U8 (Option GpsAction))
    (fs : List (Framing.Found U8 (Option GpsAction))) :
    calls (f :: fs) = f.value.toList ++ calls fs := by
  rw [calls, List.filterMap_cons, calls]
  cases f.value <;> rfl

theorem calls_append (fs fs' : List (Framing.Found U8 (Option GpsAction))) :
    calls (fs ++ fs') = calls fs ++ calls fs' :=
  List.filterMap_append

variable {s : GpsThread} {x : Scan}

/-- The bytes from `rd_idx` on are a suffix of those in the buffer. -/
theorem slice_eq_drop (s : GpsThread) (hrd : x.rdIdx.toNat ≤ s.wrIdx.toNat) :
    s.serialBuff.slice x.rdIdx.toNat (s.wrIdx - x.rdIdx).toNat = s.bytes.drop x.rdIdx.toNat := by
  have hsub : (s.wrIdx - x.rdIdx).toNat = s.wrIdx.toNat - x.rdIdx.toNat := by bv_omega
  rw [hsub, Slots.slice, GpsThread.bytes, Slots.live, List.drop_take]

/-- One pass where a frame begins. -/
theorem Scan.step_frame (hwr : s.wrIdx.toNat ≤ serialBuffSize) (hfits : hal.FrameFits)
    (hrd : x.rdIdx.toNat ≤ s.wrIdx.toNat) (hpos : 0 < (hal.read (s.bytes.drop x.rdIdx.toNat)).1) :
    x.found hal s = some
        ⟨s.received.length - s.wrIdx.toNat + x.rdIdx.toNat,
          (s.bytes.drop x.rdIdx.toNat).take (hal.read (s.bytes.drop x.rdIdx.toNat)).1,
          (hal.read (s.bytes.drop x.rdIdx.toNat)).2⟩ ∧
      (x.step hal s.serialBuff s.wrIdx).rdIdx.toNat =
        x.rdIdx.toNat + (hal.read (s.bytes.drop x.rdIdx.toNat)).1 ∧
      (x.step hal s.serialBuff s.wrIdx).frameEndIdx =
        (x.step hal s.serialBuff s.wrIdx).rdIdx ∧
      (x.step hal s.serialBuff s.wrIdx).actions =
        x.actions ++ (hal.read (s.bytes.drop x.rdIdx.toNat)).2.toList := by
  have hle := frameAt_le hfits (s.bytes.drop x.rdIdx.toNat)
  have hlen : (s.bytes.drop x.rdIdx.toNat).length = s.wrIdx.toNat - x.rdIdx.toNat := by
    rw [List.length_drop, GpsThread.bytes, Slots.length_live_of_le _ hwr]
  rw [read_eq (by omega)] at hpos ⊢
  simp only [serialBuffSize] at hwr
  unfold Scan.found Scan.step
  rw [slice_eq_drop s hrd]
  dsimp only at hpos hle ⊢
  generalize frameAt hal (s.bytes.drop x.rdIdx.toNat) = frame at hpos hle ⊢
  have hsize : 0 < frame.1 := by
    rw [BitVec.lt_def]
    exact hpos
  have hadd : (x.rdIdx + frame.1).toNat = x.rdIdx.toNat + frame.1.toNat := by
    rw [BitVec.toNat_add]
    omega
  rw [if_pos hsize, if_pos hsize]
  exact ⟨rfl, hadd, rfl, rfl⟩

/-- One pass of the scan where no frame begins goes on by one byte. -/
theorem Scan.step_skip (hwr : s.wrIdx.toNat ≤ serialBuffSize)
    (hrd : x.rdIdx.toNat < s.wrIdx.toNat) (hzero : (hal.read (s.bytes.drop x.rdIdx.toNat)).1 = 0) :
    x.found hal s = none ∧
      (x.step hal s.serialBuff s.wrIdx).rdIdx.toNat = x.rdIdx.toNat + 1 ∧
      (x.step hal s.serialBuff s.wrIdx).frameEndIdx = x.frameEndIdx ∧
      (x.step hal s.serialBuff s.wrIdx).actions = x.actions := by
  have hlen : (s.bytes.drop x.rdIdx.toNat).length ≤ serialBuffSize := by
    rw [List.length_drop, GpsThread.bytes, Slots.length_live_of_le _ hwr]
    omega
  rw [read_eq hlen] at hzero
  simp only [serialBuffSize] at hwr
  have hnone : (frameAt hal (s.bytes.drop x.rdIdx.toNat)).1 = 0 := BitVec.eq_of_toNat_eq hzero
  have haction := frameAt_action hlen hnone
  unfold Scan.found Scan.step
  rw [slice_eq_drop s hrd.le]
  dsimp only
  rw [hnone, haction, if_neg (by decide), if_neg (by decide)]
  have hadd : (x.rdIdx + 1).toNat = x.rdIdx.toNat + 1 := by bv_omega
  exact ⟨rfl, hadd, rfl, List.append_nil _⟩

/-- The rest of a scan finds the frames in the bytes from `rd_idx` on. -/
structure Scan.Finds (hal : GpsHal) (s : GpsThread) (fuel : ℕ) (x : Scan) : Prop where
  frames : x.frames hal s fuel =
    Framing.frames hal.read s.received.length (s.bytes.drop x.rdIdx.toNat)
  actions : (Scan.run hal s.serialBuff s.wrIdx fuel x).actions =
    x.actions ++ calls (x.frames hal s fuel)
  frameEnd : (Scan.run hal s.serialBuff s.wrIdx fuel x).frameEndIdx.toNat =
    if x.frames hal s fuel = [] then x.frameEndIdx.toNat
    else s.wrIdx.toNat - (Framing.rest hal.read (s.bytes.drop x.rdIdx.toNat)).length

theorem Scan.finds_ended (hwr : s.wrIdx.toNat ≤ serialBuffSize) (fuel : ℕ)
    (hend : ¬x.rdIdx.toNat < s.wrIdx.toNat) : x.Finds hal s fuel := by
  have hlt : ¬x.rdIdx < s.wrIdx := by rwa [BitVec.lt_def]
  have hnil : s.bytes.drop x.rdIdx.toNat = [] := by
    refine List.drop_eq_nil_of_le ?_
    rw [GpsThread.bytes, Slots.length_live_of_le _ hwr]
    exact not_lt.mp hend
  have hnone : x.frames hal s fuel = [] := by
    cases fuel with
    | zero => rfl
    | succ fuel => exact if_neg hlt
  have hrun : Scan.run hal s.serialBuff s.wrIdx fuel x = x := by
    cases fuel with
    | zero => rfl
    | succ fuel => exact if_neg hlt
  constructor <;> rw [hnone]
  · rw [hnil]
    rfl
  · rw [hrun]
    exact (List.append_nil _).symm
  · rw [hrun]
    rfl

section Pass

variable {fuel : ℕ} (hrd : x.rdIdx.toNat < s.wrIdx.toNat)
include hrd

theorem Scan.run_succ : Scan.run hal s.serialBuff s.wrIdx (fuel + 1) x =
    Scan.run hal s.serialBuff s.wrIdx fuel (x.step hal s.serialBuff s.wrIdx) :=
  if_pos (by rwa [BitVec.lt_def])

theorem Scan.frames_succ : x.frames hal s (fuel + 1) =
    (x.found hal s).toList ++ (x.step hal s.serialBuff s.wrIdx).frames hal s fuel :=
  if_pos (by rwa [BitVec.lt_def])

variable (hwr : s.wrIdx.toNat ≤ serialBuffSize)
include hwr

theorem Scan.finds_skip (hzero : (hal.read (s.bytes.drop x.rdIdx.toNat)).1 = 0)
    (h : (x.step hal s.serialBuff s.wrIdx).Finds hal s fuel) : x.Finds hal s (fuel + 1) := by
  obtain ⟨hnone, hstep, hframeEnd, hdone⟩ := Scan.step_skip hwr hrd hzero
  have hlength : s.bytes.length = s.wrIdx.toNat := Slots.length_live_of_le _ hwr
  have hcons := List.drop_eq_getElem_cons (l := s.bytes) (i := x.rdIdx.toNat) (by omega)
  rw [hcons, ← hstep] at hzero
  rw [← hstep] at hcons
  have hframes : x.frames hal s (fuel + 1) =
      (x.step hal s.serialBuff s.wrIdx).frames hal s fuel := by
    rw [Scan.frames_succ hrd, hnone, Option.toList_none, List.nil_append]
  constructor <;> rw [hframes]
  · rw [h.frames, hcons, Framing.frames_skip hzero]
  · rw [Scan.run_succ hrd, h.actions, hdone]
  · rw [Scan.run_succ hrd, h.frameEnd, hframeEnd]
    split
    · rfl
    · rename_i hsome
      rw [h.frames, Framing.frames_eq_nil_iff] at hsome
      rw [hcons, Framing.rest_skip hzero hsome]

theorem Scan.finds_frame (hfits : hal.FrameFits) (hcome : s.wrIdx.toNat ≤ s.received.length)
    (hpos : 0 < (hal.read (s.bytes.drop x.rdIdx.toNat)).1)
    (hle : (x.step hal s.serialBuff s.wrIdx).rdIdx.toNat ≤ s.wrIdx.toNat)
    (h : (x.step hal s.serialBuff s.wrIdx).Finds hal s fuel) : x.Finds hal s (fuel + 1) := by
  obtain ⟨hsome, hstep, hframeEnd, hdone⟩ := Scan.step_frame hwr hfits hrd.le hpos
  have hlength : s.bytes.length = s.wrIdx.toNat := Slots.length_live_of_le _ hwr
  have hne : s.bytes.drop x.rdIdx.toNat ≠ [] :=
    List.ne_nil_of_length_pos (by rw [List.length_drop]; omega)
  have hdrop : (s.bytes.drop x.rdIdx.toNat).drop (hal.read (s.bytes.drop x.rdIdx.toNat)).1 =
      s.bytes.drop (x.step hal s.serialBuff s.wrIdx).rdIdx.toNat := by
    rw [hstep, List.drop_drop]
  have hoffset : s.received.length - s.wrIdx.toNat + x.rdIdx.toNat =
      s.received.length - (s.bytes.drop x.rdIdx.toNat).length := by
    rw [List.length_drop]
    omega
  have hframes : x.frames hal s (fuel + 1) = _ := Scan.frames_succ hrd
  rw [hsome, Option.toList_some, List.singleton_append] at hframes
  constructor <;> rw [hframes]
  · rw [Framing.frames_frame hne hpos, hdrop, h.frames, hoffset]
  · rw [Scan.run_succ hrd, h.actions, hdone, calls_cons, List.append_assoc]
  · rw [Scan.run_succ hrd, h.frameEnd, hframeEnd, if_neg (List.cons_ne_nil _ _),
      Framing.rest_frame hne hpos, hdrop]
    split
    · -- it is the last frame
      rename_i hnil
      rw [h.frames, Framing.frames_eq_nil_iff] at hnil
      rw [hnil.rest, List.length_drop, hlength]
      omega
    · rfl

end Pass

/-- **The rest of a scan**, with enough passes. -/
theorem Scan.finds (hfits : hal.FrameFits) (hwr : s.wrIdx.toNat ≤ serialBuffSize)
    (hcome : s.wrIdx.toNat ≤ s.received.length) {fuel : ℕ} (hi : x.Ordered s.wrIdx)
    (hfuel : s.wrIdx.toNat ≤ x.rdIdx.toNat + fuel) : x.Finds hal s fuel := by
  induction fuel generalizing x with
  | zero => exact Scan.finds_ended hwr 0 (not_lt.mpr hfuel)
  | succ fuel ih =>
    by_cases hrd : x.rdIdx.toNat < s.wrIdx.toNat
    · obtain ⟨hnext, hgain⟩ := hi.step s.serialBuff hfits hwr (by rwa [BitVec.lt_def])
      have hlater := ih hnext (by omega)
      rcases Nat.eq_zero_or_pos (hal.read (s.bytes.drop x.rdIdx.toNat)).1 with hzero | hpos
      · exact Scan.finds_skip hrd hwr hzero hlater
      · exact Scan.finds_frame hrd hwr hfits hcome hpos hnext.rd_le hlater
    · exact Scan.finds_ended hwr (fuel + 1) hrd

namespace GpsThread

theorem length_bytes (hwr : s.wrIdx.toNat ≤ serialBuffSize) : s.bytes.length = s.wrIdx.toNat :=
  Slots.length_live_of_le _ hwr

/-- **The scan** finds the frames in the bytes of the buffer, and does what they are good for. -/
theorem scan_frames (hfits : hal.FrameFits) (hwr : s.wrIdx.toNat ≤ serialBuffSize)
    (hcome : s.wrIdx.toNat ≤ s.received.length) :
    s.frames hal = Framing.frames hal.read s.received.length s.bytes ∧
      (s.scan hal).actions = calls (s.frames hal) ∧
      s.bytes.drop (s.scan hal).frameEndIdx.toNat = Framing.rest hal.read s.bytes := by
  obtain ⟨hframes, hactions, hend⟩ := Scan.finds (x := ⟨0, 0, []⟩) hfits hwr hcome
    ⟨le_rfl, Nat.zero_le _⟩ (Nat.le_add_left _ _)
  refine ⟨hframes, hactions, ?_⟩
  have hsuffix := List.suffix_iff_eq_drop.mp (Framing.rest_suffix hal.read s.bytes)
  rw [scan, hend]
  split
  · rename_i hnone
    rw [hframes, Framing.frames_eq_nil_iff] at hnone
    exact hnone.rest.symm
  · rw [← length_bytes hwr]
    exact hsuffix.symm

/-! ## One pass -/

theorem bytes_afterRead {chunk : List U8} (hlen : s.wrIdx.toNat + chunk.length ≤ serialBuffSize) :
    (s.afterRead chunk).bytes = s.bytes ++ chunk := by
  have hadd : (s.wrIdx + BitVec.ofNat 64 chunk.length).toNat = s.wrIdx.toNat + chunk.length := by
    simp only [serialBuffSize] at hlen
    rw [BitVec.toNat_add, BitVec.toNat_ofNat]
    omega
  show (s.serialBuff.write s.wrIdx.toNat chunk).live
    (s.wrIdx + BitVec.ofNat 64 chunk.length).toNat = _
  rw [hadd, Slots.live_write_append _ hlen, bytes]

theorem bytes_dropFirst {i : BitVec 64} (hwr : s.wrIdx.toNat ≤ serialBuffSize)
    (hi : i.toNat ≤ s.wrIdx.toNat) : (s.dropFirst i).bytes = s.bytes.drop i.toNat := by
  have hsub : (s.wrIdx - i).toNat = s.wrIdx.toNat - i.toNat := by bv_omega
  show (s.serialBuff.moveDown i.toNat (s.wrIdx - i).toNat).live (s.wrIdx - i).toNat = _
  rw [hsub, Slots.live_moveDown _ hwr hi, bytes]

theorem bytes_removeFrames {i : BitVec 64} (hwr : s.wrIdx.toNat ≤ serialBuffSize)
    (hi : i.toNat ≤ s.wrIdx.toNat) : (s.removeFrames i).bytes = s.bytes.drop i.toNat := by
  unfold removeFrames
  split
  · exact bytes_dropFirst hwr hi
  · rename_i hzero
    rw [not_ne_iff.mp hzero]
    rfl

theorem overflows_iff (hwr : s.wrIdx.toNat ≤ serialBuffSize) :
    s.Overflows ↔ heldMax < s.wrIdx.toNat := by
  unfold Overflows
  simp only [serialBuffSize, lgwGpsMinMsgSize, heldMax] at hwr ⊢
  bv_omega

theorem bytes_preventOverflow (hwr : s.wrIdx.toNat ≤ serialBuffSize) :
    s.preventOverflow.bytes = Framing.trim heldMax lgwGpsMinMsgSize s.bytes := by
  have hover := overflows_iff hwr
  unfold preventOverflow Framing.trim
  rw [length_bytes hwr]
  split
  · rename_i hlarge
    rw [hover] at hlarge
    rw [if_pos hlarge]
    refine bytes_dropFirst hwr ?_
    simp only [heldMax, serialBuffSize, lgwGpsMinMsgSize] at hlarge
    show 8 ≤ s.wrIdx.toNat
    omega
  · rename_i hsmall
    rw [hover] at hsmall
    rw [if_neg hsmall]

/-- The thread holds what is behind the last frame, as far as the overflow prevention leaves it. -/
theorem bytes_pass (hi : s.BufferOk) {chunk : List U8} (hchunk : IsChunk chunk)
    (hfits : hal.FrameFits) :
    (s.pass hal chunk).bytes = Framing.trim heldMax lgwGpsMinMsgSize
      (Framing.rest hal.read (s.bytes ++ chunk)) := by
  have hlen : s.wrIdx.toNat + chunk.length ≤ serialBuffSize :=
    (Nat.add_le_add_left hchunk.2 _).trans hi.room
  have hread := hi.afterRead hchunk
  have hcompacted := hi.compacted hchunk hfits
  obtain ⟨hordered, -⟩ := scan_spec hfits hread.le
  obtain ⟨-, -, hrest⟩ := scan_frames hfits hread.le hread.length_le
  rw [pass, bytes_preventOverflow hcompacted.le, compacted,
    bytes_removeFrames hread.le (hordered.frameEnd_le.trans hordered.rd_le), hrest,
    bytes_afterRead hlen]

/-- **One pass** is one step of a receiver. -/
theorem pass_receives (hi : s.BufferOk) {chunk : List U8} (hchunk : IsChunk chunk)
    (hfits : hal.FrameFits) :
    ((s.afterRead chunk).frames hal, (s.pass hal chunk).held) =
        Framing.receive hal.read heldMax lgwGpsMinMsgSize s.held chunk ∧
      ((s.afterRead chunk).scan hal).actions = calls ((s.afterRead chunk).frames hal) := by
  have hlen : s.wrIdx.toNat + chunk.length ≤ serialBuffSize :=
    (Nat.add_le_add_left hchunk.2 _).trans hi.room
  have hread := hi.afterRead hchunk
  obtain ⟨hframes, hcalls, -⟩ := scan_frames hfits hread.le hread.length_le
  refine ⟨?_, hcalls⟩
  have hreceived : (s.pass hal chunk).received = s.received ++ chunk := by
    unfold pass preventOverflow compacted removeFrames
    split <;> split <;> rfl
  rw [hframes, held, hreceived, bytes_pass hi hchunk hfits, bytes_afterRead hlen,
    Framing.receive, held, List.length_append]
  show (Framing.frames hal.read (s.received ++ chunk).length _, _) = _
  rw [List.length_append]

end GpsThread

end PacketForwarder
