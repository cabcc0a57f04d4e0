import PacketForwarder.Gps.Framing

/-!
# Framing and timing

How many bytes `read` returns depends on when they come.  The scan looks into a frame of which the
last bytes are missing: if it finds another frame there, the first one is lost; and its beginning
may be dropped while it is incomplete.  With the last bytes in the same read it is recognised.

* `GpsThread.log` — the frames that are recognised, and the calls made for them;
* `GpsHal.SelfDelimiting.read` — the scan reads a frame from its own bytes, if `lgw_parse_ubx` does;
* `framing_independent_iff` — when all ways to cut a stream into reads give the same;
* `framing_depends_on_timing` — a UBX message with another one in its payload.
-/

namespace PacketForwarder

/-! ## What is recognised -/

/-- What the thread has done that can be seen from outside. -/
@[ext]
structure GpsLog where
  /-- The frames that were recognised, the latest last. -/
  frames : List (Framing.Found U8 (Option GpsAction))
  /-- The calls of `gps_process_sync` and `gps_process_coords`. -/
  calls : List GpsAction
  deriving DecidableEq

namespace GpsThread

/-- What the thread does with some reads. -/
def log (hal : GpsHal) (s : GpsThread) : List (List U8) → GpsLog
  | [] => ⟨[], []⟩
  | chunk :: chunks =>
    let u := s.afterRead chunk
    let later := (s.pass hal chunk).log hal chunks
    ⟨u.frames hal ++ later.frames, (u.scan hal).actions ++ later.calls⟩

/-- The thread after it has read these chunks in turn. -/
def afterReads (hal : GpsHal) (s : GpsThread) (chunks : List (List U8)) : GpsThread :=
  chunks.foldl (pass hal) s

/-- The bytes come one by one. -/
def afterBytes (hal : GpsHal) (s : GpsThread) (bytes : List U8) : GpsThread :=
  s.afterReads hal (bytes.map fun x => [x])

/-- When `bytes` have come one by one, `x` completes a frame that begins in what was in the buffer,
or has come since, and is not there any more: a frame behind its beginning was recognised, or its
beginning dropped. -/
def PassesOver (hal : GpsHal) (s : GpsThread) (bytes : List U8) (x : U8) : Prop :=
  ∃ g ∈ Framing.looks hal.read (s.bytes ++ bytes),
    (s.afterBytes hal bytes).bytes.length < g.length ∧ Framing.IsFrame hal.read (g ++ [x])

end GpsThread

/-- Wherever in the stream a read of up to 8 bytes begins, its bytes complete no frame that is
passed over when they come one by one. -/
def GpsHal.NonePassedOver (hal : GpsHal) (stream : List U8) : Prop :=
  ∀ before bytes x behind, stream = before ++ bytes ++ x :: behind →
    bytes.length < lgwGpsMinMsgSize →
      ¬(GpsThread.start.afterBytes hal before).PassesOver hal bytes x

/-- A UBX message is found by its own bytes, whatever comes behind. -/
structure GpsHal.SelfDelimiting (hal : GpsHal) : Prop where
  fits : hal.FrameFits
  own : ∀ bytes bytes', (hal.lgwParseUbx bytes).1 ≠ .incomplete →
    (hal.lgwParseUbx bytes).1 ≠ .invalid → 0 < (hal.lgwParseUbx bytes).2 →
      bytes.take (hal.lgwParseUbx bytes).2.toNat <+: bytes' →
        hal.lgwParseUbx bytes' = hal.lgwParseUbx bytes

/-! ## One frame -/

variable {hal : GpsHal}

theorem ubxFrame_own (hself : hal.SelfDelimiting) {bytes bytes' : List U8}
    (hpos : 0 < (ubxFrame hal bytes).1)
    (hpre : bytes.take (ubxFrame hal bytes).1.toNat <+: bytes') :
    ubxFrame hal bytes' = ubxFrame hal bytes := by
  have hown := hself.own bytes bytes'
  suffices hsame : hal.lgwParseUbx bytes' = hal.lgwParseUbx bytes by
    unfold ubxFrame
    rw [hsame]
  unfold ubxFrame at hpos hpre
  dsimp only at hpos hpre
  by_cases hsize : 0 < (hal.lgwParseUbx bytes).2
  · by_cases hincomplete : (hal.lgwParseUbx bytes).1 = .incomplete
    · rw [if_pos hsize, if_pos hincomplete] at hpos
      exact absurd hpos (by decide)
    · by_cases hinvalid : (hal.lgwParseUbx bytes).1 = .invalid
      · rw [if_pos hsize, if_neg hincomplete, if_pos hinvalid] at hpos
        exact absurd hpos (by decide)
      · rw [if_pos hsize, if_neg hincomplete, if_neg hinvalid] at hpre
        exact hown hincomplete hinvalid hsize hpre
  · rw [if_neg hsize] at hpos
    exact absurd hpos (by decide)

theorem nmeaFrame_own {bytes bytes' : List U8} (hlen : bytes.length ≤ serialBuffSize)
    (hpos : 0 < (nmeaFrame hal bytes).1)
    (hpre : bytes.take (nmeaFrame hal bytes).1.toNat <+: bytes') :
    nmeaFrame hal bytes' = nmeaFrame hal bytes := by
  unfold nmeaFrame at hpos hpre ⊢
  cases hend : bytes.findIdx? fun x => x = 0x0a with
  | none =>
    rw [hend] at hpos
    change (0 : BitVec 64) < 0 at hpos
    exact absurd hpos (by decide)
  | some nmeaEnd =>
    have hlt := (List.findIdx?_eq_some_iff_findIdx_eq.mp hend).1
    simp only [serialBuffSize] at hlen
    rw [hend] at hpos hpre
    dsimp only at hpos hpre ⊢
    by_cases hbad : hal.lgwParseNmea (bytes.take (nmeaEnd + 1)) = .invalid ∨
        hal.lgwParseNmea (bytes.take (nmeaEnd + 1)) = .unknown
    · rw [if_pos hbad] at hpos
      exact absurd hpos (by decide)
    · rw [if_neg hbad] at hpre
      dsimp only at hpre
      rw [BitVec.toNat_ofNat, Nat.mod_eq_of_lt (by omega)] at hpre
      obtain ⟨behind, rfl⟩ := hpre
      have hfirst : (bytes.take (nmeaEnd + 1)).findIdx? (fun x => x = 0x0a) = some nmeaEnd := by
        rw [List.findIdx?_take, hend]
        simp
      have htake : (bytes.take (nmeaEnd + 1) ++ behind).take (nmeaEnd + 1) =
          bytes.take (nmeaEnd + 1) := by
        rw [List.take_append_of_le_length (by rw [List.length_take]; omega), List.take_take,
          Nat.min_self]
      rw [List.findIdx?_append, hfirst]
      dsimp only [Option.or]
      rw [htake]

/-- What begins with the same frame is read alike. -/
theorem frameAt_own (hself : hal.SelfDelimiting) {bytes bytes' : List U8}
    (hlen : bytes.length ≤ serialBuffSize) (hpos : 0 < (frameAt hal bytes).1)
    (hpre : bytes.take (frameAt hal bytes).1.toNat <+: bytes') :
    frameAt hal bytes' = frameAt hal bytes := by
  have hhead : bytes'.head? = bytes.head? := by
    have hsize : (frameAt hal bytes).1.toNat ≠ 0 := by
      rw [BitVec.lt_def] at hpos
      exact hpos.ne'
    obtain ⟨behind, rfl⟩ := hpre
    cases bytes with
    | nil =>
      have hfits := frameAt_le hself.fits ([] : List U8)
      exact absurd (Nat.le_zero.mp hfits) hsize
    | cons y bytes =>
      obtain ⟨n, hn⟩ := Nat.exists_eq_succ_of_ne_zero hsize
      rw [hn]
      rfl
  unfold frameAt at hpos hpre ⊢
  rw [hhead]
  split
  · rename_i hubx
    rw [if_pos hubx] at hpos hpre
    exact ubxFrame_own hself hpos hpre
  · rename_i hubx
    rw [if_neg hubx] at hpos hpre
    split
    · rename_i hnmea
      rw [if_pos hnmea] at hpos hpre
      exact nmeaFrame_own hlen hpos hpre
    · rfl

/-- **The scan reads a frame from its own bytes.** -/
theorem GpsHal.SelfDelimiting.read (hself : hal.SelfDelimiting) :
    Framing.SelfDelimiting hal.read := by
  refine ⟨fun bytes => ?_, fun bytes bytes' hpos hpre => ?_⟩
  · exact (frameAt_le hself.fits _).trans (List.length_take_le' _ _)
  · have hlen : (bytes.take serialBuffSize).length ≤ serialBuffSize := List.length_take_le _ _
    have hle := (frameAt_le hself.fits (bytes.take serialBuffSize)).trans hlen
    unfold GpsHal.read at hpos hpre ⊢
    dsimp only at hpos hpre ⊢
    have hbegins : (bytes.take serialBuffSize).take
        (frameAt hal (bytes.take serialBuffSize)).1.toNat <+: bytes'.take serialBuffSize := by
      rw [List.take_take, Nat.min_eq_left hle]
      exact List.prefix_take_iff.mpr ⟨hpre, (List.length_take_le _ _).trans hle⟩
    have hsame := frameAt_own hself hlen (BitVec.lt_def.mpr hpos) hbegins
    rw [hsame]

/-! ## The reads -/

namespace GpsThread

variable {s : GpsThread}

/-- **The reads** are the pieces a receiver gets. -/
theorem log_receives (hi : s.BufferOk) (hfits : hal.FrameFits) {chunks : List (List U8)}
    (hchunks : ∀ chunk ∈ chunks, IsChunk chunk) :
    ((s.log hal chunks).frames, (s.afterReads hal chunks).held) =
        Framing.receiveAll hal.read heldMax lgwGpsMinMsgSize s.held chunks ∧
      (s.log hal chunks).calls = PacketForwarder.calls (s.log hal chunks).frames := by
  induction chunks generalizing s with
  | nil => exact ⟨rfl, rfl⟩
  | cons chunk chunks ih =>
    have hchunk := hchunks chunk (List.mem_cons_self ..)
    obtain ⟨hpass, hcalls⟩ := pass_receives hi hchunk hfits
    obtain ⟨hlater, hcallsLater⟩ := ih (s := s.pass hal chunk) (hi.pass hchunk hfits).2
      fun c hc => hchunks c (List.mem_cons_of_mem chunk hc)
    refine ⟨?_, ?_⟩
    · simp only [Framing.receiveAll, ← hpass, ← hlater]
      rfl
    · show _ ++ _ = PacketForwarder.calls (_ ++ _)
      rw [calls_append, ← hcallsLater, ← hcalls]

theorem BufferOk.afterReads (hi : s.BufferOk) (hfits : hal.FrameFits) {chunks : List (List U8)}
    (hchunks : ∀ chunk ∈ chunks, IsChunk chunk) : (s.afterReads hal chunks).BufferOk := by
  induction chunks generalizing s with
  | nil => exact hi
  | cons chunk chunks ih =>
    exact ih (hi.pass (hchunks chunk (List.mem_cons_self ..)) hfits).2
      fun c hc => hchunks c (List.mem_cons_of_mem chunk hc)

end GpsThread

theorem isChunk_of_cutInto {stream : List U8} {chunks : List (List U8)}
    (h : Framing.CutInto lgwGpsMinMsgSize stream chunks) : ∀ chunk ∈ chunks, IsChunk chunk :=
  fun chunk hchunk => ⟨h.pos chunk hchunk, h.le chunk hchunk⟩

namespace GpsThread

variable {s : GpsThread}

theorem bufferOk_start : start.BufferOk := ⟨by decide, Slots.holdsTail_nil _⟩

/-- The bytes come one by one. -/
theorem BufferOk.afterBytes (hi : s.BufferOk) (hfits : hal.FrameFits) (bytes : List U8) :
    (s.afterBytes hal bytes).BufferOk ∧
      (s.afterBytes hal bytes).held =
        (Framing.oneByOne hal.read heldMax lgwGpsMinMsgSize s.held bytes).2 := by
  have hchunks := isChunk_of_cutInto (Framing.cutInto_oneByOne (by decide) bytes)
  exact ⟨hi.afterReads hfits hchunks, congrArg Prod.snd (log_receives hi hfits hchunks).1⟩

theorem passesOver_iff (hi : s.BufferOk) (hfits : hal.FrameFits) (bytes : List U8) (x : U8) :
    s.PassesOver hal bytes x ↔
      Framing.PassedOver hal.read heldMax lgwGpsMinMsgSize s.held bytes x := by
  have hheld := (hi.afterBytes hfits bytes).2
  unfold PassesOver Framing.PassedOver
  rw [← hheld]
  rfl

end GpsThread

/-- A frame is passed over by the thread where the receiver passes it over. -/
theorem nonePassedOver_iff (hfits : hal.FrameFits) (stream : List U8) :
    hal.NonePassedOver stream ↔
      Framing.NonePassedOver hal.read heldMax lgwGpsMinMsgSize stream := by
  unfold GpsHal.NonePassedOver Framing.NonePassedOver
  refine forall_congr' fun before => forall_congr' fun bytes => forall_congr' fun x =>
    forall_congr' fun behind => imp_congr_right fun _ => imp_congr_right fun _ => not_congr ?_
  obtain ⟨hi, hheld⟩ := GpsThread.bufferOk_start.afterBytes hfits before
  rw [GpsThread.passesOver_iff hi hfits, hheld]
  rfl

/-- **Framing and timing.**  All ways to cut a stream into reads of 1 to `LGW_GPS_MIN_MSG_SIZE`
bytes give the same frames and the same calls, exactly if none is passed over that the rest of a
read would complete. -/
theorem framing_independent_iff (hself : hal.SelfDelimiting) (stream : List U8) :
    (∀ chunks chunks', Framing.CutInto lgwGpsMinMsgSize stream chunks →
        Framing.CutInto lgwGpsMinMsgSize stream chunks' →
          GpsThread.start.log hal chunks = GpsThread.start.log hal chunks') ↔
      hal.NonePassedOver stream := by
  have hlog : ∀ chunks, Framing.CutInto lgwGpsMinMsgSize stream chunks →
      (GpsThread.start.log hal chunks).frames = (Framing.receiveAll hal.read heldMax
          lgwGpsMinMsgSize Framing.Held.start chunks).1 ∧
        (GpsThread.start.log hal chunks).calls = calls (GpsThread.start.log hal chunks).frames := by
    intro chunks hcut
    obtain ⟨hframes, hcalls⟩ := GpsThread.log_receives GpsThread.bufferOk_start hself.fits
      (isChunk_of_cutInto hcut)
    exact ⟨congrArg Prod.fst hframes, hcalls⟩
  rw [nonePassedOver_iff hself.fits, ← Framing.receiveAll_eq_iff hself.read
    (by decide) (by decide)]
  refine forall_congr' fun chunks => forall_congr' fun chunks' => forall_congr' fun hcut =>
    forall_congr' fun hcut' => ?_
  obtain ⟨hframes, hcalls⟩ := hlog chunks hcut
  obtain ⟨hframes', hcalls'⟩ := hlog chunks' hcut'
  constructor
  · intro hsame
    rw [← hframes, ← hframes', hsame]
  · intro hsame
    rw [← hframes, ← hframes'] at hsame
    exact GpsLog.ext hsame (by rw [hcalls, hcalls', hsame])

/-! ## Two messages -/

/-- The checksum of a UBX message, over its class, number, length and payload. -/
def ubxChecksum (bytes : List U8) : List U8 :=
  let (ckA, ckB) := bytes.foldl (fun (ckA, ckB) x => (ckA + x, ckB + (ckA + x))) (0, 0)
  [ckA, ckB]

/-- `lgw_parse_ubx` for the format of UBX messages. -/
def ubxParse : List U8 → GpsMsg × BitVec 64
  | sync :: sync' :: msgClass :: msgId :: low :: high :: behind =>
    let payload := low.toNat + 256 * high.toNat
    let frameSize := BitVec.ofNat 64 (6 + payload + 2)
    if sync ≠ 0xb5 ∨ sync' ≠ 0x62 then (.other, 0)
    else if behind.length < payload + 2 then (.incomplete, frameSize)
    else if (behind.drop payload).take 2 ≠
        ubxChecksum (msgClass :: msgId :: low :: high :: behind.take payload) then
      (.invalid, frameSize)
    else (if msgClass = 1 ∧ msgId = 0x20 then .ubxNavTimegps else .other, frameSize)
  | _ => (.other, 0)

/-- A HAL that finds the UBX messages, and no NMEA sentence. -/
def ubxHal : GpsHal where
  ubxSyncChar := 0xb5
  nmeaSyncChar := 0x24
  lgwParseUbx := ubxParse
  lgwParseNmea _ := .unknown

theorem toNat_frameSize (low high : U8) :
    (BitVec.ofNat 64 (6 + (low.toNat + 256 * high.toNat) + 2)).toNat =
      6 + (low.toNat + 256 * high.toNat) + 2 := by
  have hlow := low.isLt
  have hhigh := high.isLt
  rw [BitVec.toNat_ofNat, Nat.mod_eq_of_lt (by omega)]

section Message

variable {msgClass msgId low high : U8} {behind : List U8}

/-- A whole message whose checksum is right is found. -/
theorem ubxParse_message (hlong : low.toNat + 256 * high.toNat + 2 ≤ behind.length)
    (hsum : (behind.drop (low.toNat + 256 * high.toNat)).take 2 =
      ubxChecksum
        (msgClass :: msgId :: low :: high :: behind.take (low.toNat + 256 * high.toNat))) :
    ubxParse (0xb5 :: 0x62 :: msgClass :: msgId :: low :: high :: behind) =
      (if msgClass = 1 ∧ msgId = 0x20 then .ubxNavTimegps else .other,
        BitVec.ofNat 64 (6 + (low.toNat + 256 * high.toNat) + 2)) := by
  simp only [ubxParse]
  rw [if_neg (by decide), if_neg (by omega), if_neg (not_not.mpr hsum)]

/-- The payload and the checksum are in the message. -/
theorem payload_congr {behind' : List U8} {n : ℕ} (h : behind'.take (n + 2) = behind.take (n + 2)) :
    behind'.take n = behind.take n ∧ (behind'.drop n).take 2 = (behind.drop n).take 2 := by
  have hpayload := congrArg (List.take n) h
  have hchecksum := congrArg (List.drop n) h
  rw [List.take_take, List.take_take, Nat.min_eq_left (Nat.le_add_right n 2)] at hpayload
  rw [List.drop_take, List.drop_take, Nat.add_sub_cancel_left] at hchecksum
  exact ⟨hpayload, hchecksum⟩

/-- Whatever is found is such a message. -/
theorem exists_message {bytes : List U8} (hcomplete : (ubxParse bytes).1 ≠ .incomplete)
    (hvalid : (ubxParse bytes).1 ≠ .invalid) (hpos : 0 < (ubxParse bytes).2) :
    ∃ msgClass msgId low high behind,
      bytes = 0xb5 :: 0x62 :: msgClass :: msgId :: low :: high :: behind ∧
        low.toNat + 256 * high.toNat + 2 ≤ behind.length ∧
        (behind.drop (low.toNat + 256 * high.toNat)).take 2 = ubxChecksum
          (msgClass :: msgId :: low :: high :: behind.take (low.toNat + 256 * high.toNat)) := by
  unfold ubxParse at hcomplete hvalid hpos
  split at hpos
  · rename_i sync sync' msgClass msgId low high behind
    dsimp only at hcomplete hvalid hpos
    by_cases hsync : sync ≠ 0xb5 ∨ sync' ≠ 0x62
    · rw [if_pos hsync] at hpos
      exact absurd hpos (by decide)
    · rw [if_neg hsync] at hcomplete hvalid
      by_cases hshort : behind.length < low.toNat + 256 * high.toNat + 2
      · rw [if_pos hshort] at hcomplete
        exact absurd rfl hcomplete
      · rw [if_neg hshort] at hvalid
        rw [not_or, not_not, not_not] at hsync
        refine ⟨msgClass, msgId, low, high, behind, by rw [hsync.1, hsync.2], not_lt.mp hshort, ?_⟩
        by_contra hsum
        rw [if_pos hsum] at hvalid
        exact absurd rfl hvalid
  · exact absurd hpos (by decide)

end Message

theorem frameFits_ubxHal : ubxHal.FrameFits := by
  intro bytes hcomplete
  change (ubxParse bytes).1 ≠ .incomplete at hcomplete
  show (ubxParse bytes).2.toNat ≤ bytes.length
  unfold ubxParse at hcomplete ⊢
  split
  · rename_i sync sync' msgClass msgId low high behind
    dsimp only at hcomplete ⊢
    split
    · exact Nat.zero_le _
    · rename_i hsync
      rw [if_neg hsync] at hcomplete
      split
      · rename_i hshort
        rw [if_pos hshort] at hcomplete
        exact absurd rfl hcomplete
      · rename_i hlong
        split <;> rw [toNat_frameSize] <;> simp only [List.length_cons] <;> omega
  · exact Nat.zero_le _

theorem selfDelimiting_ubxHal : ubxHal.SelfDelimiting := by
  refine ⟨frameFits_ubxHal, fun bytes bytes' hcomplete hvalid hpos hpre => ?_⟩
  change bytes.take (ubxParse bytes).2.toNat <+: bytes' at hpre
  show ubxParse bytes' = ubxParse bytes
  obtain ⟨msgClass, msgId, low, high, behind, rfl, hlong, hsum⟩ :=
    exists_message hcomplete hvalid hpos
  rw [ubxParse_message hlong hsum, toNat_frameSize] at hpre
  rw [ubxParse_message hlong hsum]
  generalize hn : low.toNat + 256 * high.toNat = n at hlong hsum hpre
  obtain ⟨more, rfl⟩ := hpre
  have htake : (behind.take (n + 2) ++ more).take (n + 2) = behind.take (n + 2) := by
    rw [List.take_append_of_le_length (by rw [List.length_take]; omega), List.take_take,
      Nat.min_self]
  have hbehind : (0xb5 :: 0x62 :: msgClass :: msgId :: low :: high :: behind).take (6 + n + 2) =
      0xb5 :: 0x62 :: msgClass :: msgId :: low :: high :: behind.take (n + 2) := by
    rw [show 6 + n + 2 = n + 2 + 6 by omega]
    rfl
  rw [hbehind]
  simp only [List.cons_append]
  have hlength : n + 2 ≤ (behind.take (n + 2) ++ more).length := by
    rw [List.length_append, List.length_take]
    omega
  obtain ⟨hpayload, hchecksum⟩ := payload_congr htake
  rw [← hpayload, ← hchecksum] at hsum
  subst hn
  exact ubxParse_message hlength hsum

/-- NAV-TIMEGPS, with zeros as its payload. -/
def timegps : List U8 :=
  [0xb5, 0x62, 0x01, 0x20, 0x10, 0x00] ++ List.replicate 16 0 ++ [0x31, 0x94]

/-- NAV-TIMEGPS is found however its bytes come. -/
theorem framing_independent_timegps :
    ubxHal.NonePassedOver timegps ∧
      ∀ chunks chunks', Framing.CutInto lgwGpsMinMsgSize timegps chunks →
        Framing.CutInto lgwGpsMinMsgSize timegps chunks' →
          GpsThread.start.log ubxHal chunks = GpsThread.start.log ubxHal chunks' := by
  have hnone : ubxHal.NonePassedOver timegps :=
    (nonePassedOver_iff frameFits_ubxHal timegps).mpr (by decide +kernel)
  exact ⟨hnone, (framing_independent_iff selfDelimiting_ubxHal timegps).mpr hnone⟩

/-- NAV-TIMEGPS, with a poll of MON-VER as the second half of its payload. -/
def nestedMessages : List U8 :=
  [0xb5, 0x62, 0x01, 0x20, 0x10, 0x00] ++
    [0, 0, 0, 0, 0, 0, 0, 0] ++ [0xb5, 0x62, 0x0a, 0x04, 0x00, 0x00, 0x0e, 0x34] ++ [0x98, 0x8a]

/-- When the last two bytes come in a read of their own, the message inside is recognised, and the
time is not synchronised. -/
theorem framing_depends_on_timing :
    ubxHal.SelfDelimiting ∧
      ∃ chunks chunks', Framing.CutInto lgwGpsMinMsgSize nestedMessages chunks ∧
        Framing.CutInto lgwGpsMinMsgSize nestedMessages chunks' ∧
        (GpsThread.start.log ubxHal chunks).calls = [.sync] ∧
        (GpsThread.start.log ubxHal chunks').calls = [] := by
  refine ⟨selfDelimiting_ubxHal,
    [nestedMessages.take 8, (nestedMessages.drop 8).take 8, nestedMessages.drop 16],
    [nestedMessages.take 8, (nestedMessages.drop 8).take 8, (nestedMessages.drop 16).take 6,
      nestedMessages.drop 22], ⟨?_, ?_, ?_⟩, ⟨?_, ?_, ?_⟩, ?_, ?_⟩ <;> decide +kernel

end PacketForwarder
