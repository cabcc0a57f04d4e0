import PacketForwarder.Gps.Timing

/-!
# The copies of `thread_gps`

Bytes are removed from the front of `serial_buff` by copying the rest down with `memcpy`, whose
ranges must not overlap: no more bytes may be copied than they are moved.

* `copiesDisjoint_iff_length` — one pass, in terms of the bytes in the buffer;
* `behind`, `Regular` — the bytes of the stream since the last frame, and reads that leave few of
  them;
* `copies_disjoint` — a run of such reads copies without overlap;
* `copies_overlap` — a run in which the copies overlap: 128 bytes without a frame.
-/

namespace PacketForwarder

namespace GpsThread

/-- The thread after a pass of its loop. -/
def next (s : GpsThread) : GpsEvent → GpsThread
  | .fails => s
  | .read chunk hal => s.pass hal chunk

/-- `memcpy(serial_buff, &serial_buff[i], n)` copies between ranges that do not overlap. -/
def CopyDisjoint (i n : BitVec 64) : Prop := n.toNat ≤ i.toNat

instance (i n : BitVec 64) : Decidable (CopyDisjoint i n) := inferInstanceAs (Decidable (_ ≤ _))

/-- Every `memcpy` of a pass copies between ranges that do not overlap. -/
def CopiesDisjoint (s : GpsThread) : GpsEvent → Prop
  | .fails => True
  | .read chunk hal =>
    let u := s.afterRead chunk
    let frameEndIdx := (u.scan hal).frameEndIdx
    let v := s.compacted hal chunk
    let oldest := BitVec.ofNat 64 lgwGpsMinMsgSize
    (frameEndIdx ≠ 0 → CopyDisjoint frameEndIdx (u.wrIdx - frameEndIdx)) ∧
      (v.Overflows → CopyDisjoint oldest (v.wrIdx - oldest))

instance (s : GpsThread) : (e : GpsEvent) → Decidable (s.CopiesDisjoint e)
  | .fails => inferInstanceAs (Decidable True)
  | .read _ _ => inferInstanceAs (Decidable ((_ → _) ∧ (_ → _)))

variable {hal : GpsHal} {s s' : GpsThread}

/-- How many bytes are left when the frames are removed. -/
theorem wrIdx_removeFrames {i : BitVec 64} (hi : i.toNat ≤ s.wrIdx.toNat) :
    (s.removeFrames i).wrIdx.toNat = s.wrIdx.toNat - i.toNat := by
  unfold removeFrames
  split
  · show (s.wrIdx - i).toNat = s.wrIdx.toNat - i.toNat
    bv_omega
  · rename_i hzero
    rw [not_ne_iff.mp hzero]
    rfl

/-- Dropping the oldest bytes moves more of them than it drops. -/
theorem oldest_overlap {wrIdx : BitVec 64} (hlarge : heldMax < wrIdx.toNat) :
    ¬CopyDisjoint (BitVec.ofNat 64 lgwGpsMinMsgSize)
      (wrIdx - BitVec.ofNat 64 lgwGpsMinMsgSize) := by
  unfold CopyDisjoint
  simp only [heldMax, serialBuffSize, lgwGpsMinMsgSize] at hlarge ⊢
  bv_omega

section Pass

variable (hi : s.BufferOk) {chunk : List U8} (hchunk : IsChunk chunk) (hfits : hal.FrameFits)
include hi hchunk hfits

/-- The indices of a pass, in terms of the bytes: all that are there, those up to the end of the
last frame, and those behind it. -/
theorem indices_eq :
    (s.afterRead chunk).wrIdx.toNat = (s.bytes ++ chunk).length ∧
      ((s.afterRead chunk).scan hal).frameEndIdx.toNat =
        (s.bytes ++ chunk).length - (Framing.rest hal.read (s.bytes ++ chunk)).length ∧
      (s.compacted hal chunk).wrIdx.toNat =
        (Framing.rest hal.read (s.bytes ++ chunk)).length := by
  have hread := hi.afterRead hchunk
  have hbytes := bytes_afterRead (s := s) ((Nat.add_le_add_left hchunk.2 _).trans hi.room)
  obtain ⟨hordered, -⟩ := scan_spec hfits hread.le
  have hend := hordered.frameEnd_le.trans hordered.rd_le
  obtain ⟨-, -, hrest⟩ := scan_frames hfits hread.le hread.length_le
  have hlength := length_bytes hread.le
  have hleft : (s.compacted hal chunk).wrIdx.toNat = _ := wrIdx_removeFrames hend
  rw [hbytes] at hrest hlength
  have hbehind := congrArg List.length hrest
  rw [List.length_drop, hlength] at hbehind
  rw [hleft, hlength]
  exact ⟨rfl, by omega, hbehind⟩

/-- The copies of a pass: the second one always overlaps. -/
theorem copiesDisjoint_iff_length :
    s.CopiesDisjoint (.read chunk hal) ↔
      ((Framing.rest hal.read (s.bytes ++ chunk)).length ≠ (s.bytes ++ chunk).length →
        2 * (Framing.rest hal.read (s.bytes ++ chunk)).length ≤ (s.bytes ++ chunk).length) ∧
      (Framing.rest hal.read (s.bytes ++ chunk)).length ≤ heldMax := by
  obtain ⟨hread, hend, hleft⟩ := indices_eq hi hchunk hfits
  have hle := (Framing.rest_suffix hal.read (s.bytes ++ chunk)).length_le
  have hover := overflows_iff (hi.compacted hchunk hfits).le
  rw [hleft] at hover
  unfold CopiesDisjoint
  dsimp only
  rw [hover]
  refine and_congr ?_ ⟨fun h => ?_, fun h hlarge => absurd h (not_le.mpr hlarge)⟩
  · have hzero : ((s.afterRead chunk).scan hal).frameEndIdx ≠ 0 ↔
        (Framing.rest hal.read (s.bytes ++ chunk)).length ≠ (s.bytes ++ chunk).length := by
      rw [ne_eq, ← BitVec.toNat_inj, hend]
      show ¬_ = 0 ↔ _
      omega
    have hmoved : ((s.afterRead chunk).wrIdx - ((s.afterRead chunk).scan hal).frameEndIdx).toNat =
        (Framing.rest hal.read (s.bytes ++ chunk)).length := by
      bv_omega
    rw [hzero, CopyDisjoint, hmoved, hend]
    refine imp_congr_right fun _ => ?_
    omega
  · by_contra hlarge
    rw [← hleft, not_le] at hlarge
    exact oldest_overlap hlarge (h (by rwa [← hleft]))

/-- As long as what is behind the last frame fits, none of it is dropped. -/
theorem bytes_pass_of_le (hshort : (Framing.rest hal.read (s.bytes ++ chunk)).length ≤ heldMax) :
    (s.pass hal chunk).bytes = Framing.rest hal.read (s.bytes ++ chunk) := by
  rw [bytes_pass hi hchunk hfits]
  exact if_neg (not_lt.mpr hshort)

end Pass

/-! ## Runs -/

/-- What may be read: from 1 to `LGW_GPS_MIN_MSG_SIZE` bytes, with a HAL that reports no frame
larger than what it was given. -/
def Allowed : GpsEvent → Prop
  | .fails => True
  | .read chunk hal => IsChunk chunk ∧ hal.FrameFits

theorem step_next {e : GpsEvent} (h : Allowed e) : Step s e (s.next e) := by
  cases e with
  | fails => exact .fails
  | read chunk hal => exact .read h.1 h.2

theorem trace_of_allowed (s : GpsThread) {events : List GpsEvent} (h : ∀ e ∈ events, Allowed e) :
    Runs.Trace Step s events (Runs.after next s events) := by
  induction events generalizing s with
  | nil => exact .nil
  | cons e events ih =>
    exact .cons (step_next (h e (List.mem_cons_self ..)))
      (ih (s.next e) fun e' he' => h e' (List.mem_cons_of_mem e he'))

end GpsThread

/-! ## What has come since the last frame -/

/-- The bytes of the stream behind the end of the last frame found, when this happens next. -/
def behind (bytes : List U8) : GpsEvent → List U8
  | .fails => bytes
  | .read chunk hal => Framing.rest hal.read (bytes ++ chunk)

/-- After the read no more bytes have come since the last frame than the buffer holds. -/
def ShortGap (bytes : List U8) : GpsEvent → Prop
  | .fails => True
  | .read chunk hal => (Framing.rest hal.read (bytes ++ chunk)).length ≤ heldMax

/-- If the read completes frames, the last of them ends among the bytes just read, and at least
`LGW_GPS_MIN_MSG_SIZE` bytes after the frame before. -/
def EndsInChunk (bytes : List U8) : GpsEvent → Prop
  | .fails => True
  | .read chunk hal => ¬Framing.Quiet hal.read (bytes ++ chunk) →
    (Framing.rest hal.read (bytes ++ chunk)).length < chunk.length ∧
      lgwGpsMinMsgSize + (Framing.rest hal.read (bytes ++ chunk)).length ≤ (bytes ++ chunk).length

/-- A read that gives the copies no more to move than the distance. -/
def Regular (bytes : List U8) (e : GpsEvent) : Prop := ShortGap bytes e ∧ EndsInChunk bytes e

instance (bytes : List U8) : (e : GpsEvent) → Decidable (ShortGap bytes e)
  | .fails => inferInstanceAs (Decidable True)
  | .read _ _ => inferInstanceAs (Decidable (_ ≤ _))

/-- A HAL that finds a frame by its own bytes, and none shorter than `LGW_GPS_MIN_MSG_SIZE`. -/
structure GpsHal.Punctual (hal : GpsHal) : Prop where
  own : hal.SelfDelimiting
  ubx : ∀ bytes, (hal.lgwParseUbx bytes).1 ≠ .incomplete → (hal.lgwParseUbx bytes).1 ≠ .invalid →
    0 < (hal.lgwParseUbx bytes).2 → lgwGpsMinMsgSize ≤ (hal.lgwParseUbx bytes).2.toNat
  nmea : ∀ sentence, hal.lgwParseNmea sentence ≠ .invalid → hal.lgwParseNmea sentence ≠ .unknown →
    lgwGpsMinMsgSize ≤ sentence.length

theorem ubxFrame_min {hal : GpsHal} (h : hal.Punctual) {bytes : List U8}
    (hpos : 0 < (ubxFrame hal bytes).1) : lgwGpsMinMsgSize ≤ (ubxFrame hal bytes).1.toNat := by
  unfold ubxFrame at hpos ⊢
  dsimp only at hpos ⊢
  split
  · rename_i hsize
    rw [if_pos hsize] at hpos
    split
    · rename_i hincomplete
      rw [if_pos hincomplete] at hpos
      exact absurd hpos (by decide)
    · rename_i hcomplete
      rw [if_neg hcomplete] at hpos
      split
      · rename_i hinvalid
        rw [if_pos hinvalid] at hpos
        exact absurd hpos (by decide)
      · rename_i hvalid
        exact h.ubx bytes hcomplete hvalid hsize
  · rename_i hsize
    rw [if_neg hsize] at hpos
    exact absurd hpos (by decide)

theorem nmeaFrame_min {hal : GpsHal} (h : hal.Punctual) {bytes : List U8}
    (hlen : bytes.length ≤ serialBuffSize) (hpos : 0 < (nmeaFrame hal bytes).1) :
    lgwGpsMinMsgSize ≤ (nmeaFrame hal bytes).1.toNat := by
  unfold nmeaFrame at hpos ⊢
  cases hend : bytes.findIdx? fun x => x = 0x0a with
  | none =>
    rw [hend] at hpos
    change (0 : BitVec 64) < 0 at hpos
    exact absurd hpos (by decide)
  | some nmeaEnd =>
    have hlt := (List.findIdx?_eq_some_iff_findIdx_eq.mp hend).1
    rw [hend] at hpos
    dsimp only at hpos ⊢
    by_cases hbad : hal.lgwParseNmea (bytes.take (nmeaEnd + 1)) = .invalid ∨
        hal.lgwParseNmea (bytes.take (nmeaEnd + 1)) = .unknown
    · rw [if_pos hbad] at hpos
      exact absurd hpos (by decide)
    · -- The sentence is the frame, and the parser refuses short ones.
      have hsentence := h.nmea _ (fun hi => hbad (.inl hi)) fun hu => hbad (.inr hu)
      rw [List.length_take, Nat.min_eq_left hlt] at hsentence
      simp only [serialBuffSize] at hlen
      rw [if_neg hbad, BitVec.toNat_ofNat, Nat.mod_eq_of_lt (by omega)]
      exact hsentence

/-- A parser that is punctual finds no frame that is shorter than the minimum. -/
theorem GpsHal.Punctual.min {hal : GpsHal} (h : hal.Punctual) {bytes : List U8}
    (hpos : 0 < (hal.read bytes).1) : lgwGpsMinMsgSize ≤ (hal.read bytes).1 := by
  have hlen : (bytes.take serialBuffSize).length ≤ serialBuffSize := List.length_take_le _ _
  unfold GpsHal.read frameAt at hpos ⊢
  dsimp only at hpos ⊢
  split
  · rename_i hubx
    rw [if_pos hubx] at hpos
    exact ubxFrame_min h (BitVec.lt_def.mpr hpos)
  · rename_i hubx
    rw [if_neg hubx] at hpos
    split
    · rename_i hnmea
      rw [if_pos hnmea] at hpos
      exact nmeaFrame_min h hlen (BitVec.lt_def.mpr hpos)
    · rename_i hnmea
      rw [if_neg hnmea] at hpos
      exact absurd hpos (by decide)

/-- UBX messages have eight bytes around their payload. -/
theorem punctual_ubxHal : ubxHal.Punctual := by
  refine ⟨selfDelimiting_ubxHal, fun bytes hcomplete hvalid hpos => ?_, fun sentence _ hknown => ?_⟩
  · obtain ⟨msgClass, msgId, low, high, behind, rfl, hlong, hsum⟩ :=
      exists_message hcomplete hvalid hpos
    show lgwGpsMinMsgSize ≤ (ubxParse _).2.toNat
    rw [ubxParse_message hlong hsum, toNat_frameSize]
    simp only [lgwGpsMinMsgSize]
    omega
  · exact absurd rfl hknown

/-- What such a HAL finds, it finds with the last byte of the frame. -/
theorem GpsHal.Punctual.endsInChunk {hal : GpsHal} (h : hal.Punctual) {bytes chunk : List U8}
    (hquiet : Framing.Quiet hal.read bytes) : EndsInChunk bytes (.read chunk hal) := by
  intro hframe
  exact ⟨h.own.read.length_rest_lt hquiet hframe,
    Framing.add_length_rest_le h.own.read.fits (fun _ => h.min) hframe⟩

/-- With such a HAL only the gaps count. -/
theorem GpsHal.Punctual.regular {hal : GpsHal} (h : hal.Punctual) {events : List GpsEvent}
    (hall : ∀ chunk hal', .read chunk hal' ∈ events → hal' = hal) {bytes : List U8}
    (hquiet : Framing.Quiet hal.read bytes) (hgaps : Runs.Along behind ShortGap bytes events) :
    Runs.Along behind Regular bytes events := by
  induction events generalizing bytes with
  | nil => trivial
  | cons e events ih =>
    obtain ⟨hgap, hgaps⟩ := hgaps
    have hlater := fun chunk hal' he => hall chunk hal' (List.mem_cons_of_mem e he)
    cases e with
    | fails => exact ⟨⟨hgap, trivial⟩, ih hlater hquiet hgaps⟩
    | read chunk hal' =>
      obtain rfl := hall chunk hal' (List.mem_cons_self ..)
      exact ⟨⟨hgap, h.endsInChunk hquiet⟩, ih hlater (Framing.quiet_rest _ _) hgaps⟩

namespace GpsThread

variable {hal : GpsHal} {s s' : GpsThread}

/-- A regular read leads to copies that do not overlap. -/
theorem copiesDisjoint_of_regular (hi : s.BufferOk) {chunk : List U8} (hchunk : IsChunk chunk)
    (hfits : hal.FrameFits) (h : Regular s.bytes (.read chunk hal)) :
    s.CopiesDisjoint (.read chunk hal) := by
  obtain ⟨hgap, hends⟩ := h
  rw [copiesDisjoint_iff_length hi hchunk hfits]
  refine ⟨fun hne => ?_, hgap⟩
  have hframe : ¬Framing.Quiet hal.read (s.bytes ++ chunk) := fun hquiet =>
    hne (congrArg List.length hquiet.rest)
  obtain ⟨hlast, hmin⟩ := hends hframe
  have hlen := hchunk.2
  simp only [lgwGpsMinMsgSize] at hlen hmin
  omega

/-- **The run.**  As long as nothing is dropped the buffer holds the bytes behind the last frame:
regular reads move them without overlap, and a read that does so has left a short gap. -/
theorem along_copiesDisjoint {events : List GpsEvent} (h : Runs.Trace Step s events s')
    (hi : s.BufferOk) :
    (Runs.Along behind Regular s.bytes events → Runs.Along next CopiesDisjoint s events) ∧
      (Runs.Along next CopiesDisjoint s events → Runs.Along behind ShortGap s.bytes events) := by
  induction h with
  | nil => exact ⟨fun _ => trivial, fun _ => trivial⟩
  | @cons s t s' e events hst _ ih =>
    have hnext := ih (hi.step hst)
    cases hst with
    | fails =>
      exact ⟨fun h => ⟨trivial, hnext.1 h.2⟩, fun h => ⟨trivial, hnext.2 h.2⟩⟩
    | @read chunk hal hchunk hfits =>
      have hbytes := bytes_pass_of_le hi hchunk hfits
      constructor
      · rintro ⟨hread, hlater⟩
        refine ⟨copiesDisjoint_of_regular hi hchunk hfits hread, hnext.1 ?_⟩
        rw [pass] at hbytes
        rw [hbytes hread.1]
        exact hlater
      · rintro ⟨hread, hlater⟩
        have hgap := ((copiesDisjoint_iff_length hi hchunk hfits).mp hread).2
        have hbehind := hnext.2 hlater
        rw [pass] at hbytes
        rw [hbytes hgap] at hbehind
        exact ⟨hgap, hbehind⟩

end GpsThread

/-- **The copies of a run.**  Whatever comes in, in whatever pieces, and whatever the HAL answers:
every `memcpy` copies between ranges that do not overlap if after every read at most 120 bytes
have come since the last frame, and the last frame a read completes ends among its bytes and is
not too short.  The former is necessary, too, and the latter is so with every HAL that finds a
frame by its own bytes. -/
theorem copies_disjoint {events : List GpsEvent} {s : GpsThread}
    (h : Runs.Trace GpsThread.Step GpsThread.start events s) :
    (Runs.Along behind Regular [] events →
        Runs.Along GpsThread.next GpsThread.CopiesDisjoint GpsThread.start events) ∧
      (Runs.Along GpsThread.next GpsThread.CopiesDisjoint GpsThread.start events →
        Runs.Along behind ShortGap [] events) ∧
      ∀ hal : GpsHal, hal.Punctual →
        (∀ chunk hal', .read chunk hal' ∈ events → hal' = hal) →
          Runs.Along behind ShortGap [] events → Runs.Along behind Regular [] events := by
  have hstart : GpsThread.start.BufferOk := ⟨by decide, Slots.holdsTail_nil _⟩
  obtain ⟨hregular, hgap⟩ := GpsThread.along_copiesDisjoint h hstart
  refine ⟨hregular, hgap, fun hal hpunctual hall hgaps => hpunctual.regular hall ?_ hgaps⟩
  exact fun g hg hne => absurd (List.suffix_nil.mp hg) hne

/-- NAV-TIMEGPS after three bytes of something else, and the beginning of the next one. -/
def timegpsReads : List GpsEvent :=
  ([[1, 2, 3, 0xb5, 0x62, 0x01, 0x20], [0x10, 0, 0, 0, 0, 0, 0, 0], [0, 0, 0, 0, 0, 0, 0, 0],
    [0, 0x31, 0x94, 0xb5, 0x62]] : List (List U8)).map fun chunk => .read chunk ubxHal

/-- The copies are disjoint while NAV-TIMEGPS is read in two pieces. -/
theorem copies_disjoint_timegps :
    Runs.Along GpsThread.next GpsThread.CopiesDisjoint GpsThread.start timegpsReads := by
  have htrace : Runs.Trace GpsThread.Step GpsThread.start timegpsReads
      (Runs.after GpsThread.next GpsThread.start timegpsReads) := by
    refine GpsThread.trace_of_allowed _ fun e he => ?_
    obtain ⟨chunk, hchunk, rfl⟩ := List.mem_map.mp he
    refine ⟨?_, frameFits_ubxHal⟩
    clear he
    revert chunk
    decide
  obtain ⟨hregular, -, hpunctual⟩ := copies_disjoint htrace
  refine hregular (hpunctual ubxHal punctual_ubxHal (fun chunk hal' he => ?_) (by decide +kernel))
  obtain ⟨_, -, heq⟩ := List.mem_map.mp he
  cases heq
  rfl

/-- Sixteen times eight bytes in which no frame begins. -/
def noise : List GpsEvent := List.replicate 16 (.read (List.replicate 8 0) twoByteHal)

/-- When the buffer is full and there is no frame in it, 120 bytes are copied down by 8. -/
theorem copies_overlap :
    Runs.Trace GpsThread.Step GpsThread.start noise
        (Runs.after GpsThread.next GpsThread.start noise) ∧
      ¬Runs.Along GpsThread.next GpsThread.CopiesDisjoint GpsThread.start noise := by
  refine ⟨GpsThread.trace_of_allowed _ fun e he => ?_, by decide +kernel⟩
  rw [List.eq_of_mem_replicate he]
  exact ⟨by decide, frameFits_twoByteHal⟩

end PacketForwarder
