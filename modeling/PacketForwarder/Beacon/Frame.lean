import PacketForwarder.Beacon

/-!
# The beacon frame

What the payload of a beacon reads as, after any number of beacons.

* `readBeacon` — a frame taken apart by the layout of its datarate;
* `IsFrame` — the payload in one piece: all of it is fixed from the start but the time and
  its CRC, and loading a time leaves the rest alone (`IsFrame.loadTime`);
* `beacon_frame` — what was filled in is what is read back, in any beacon of any run.
-/

namespace PacketForwarder

variable {env : JitEnv} {gps2cnt : Gps2cnt} {c : BeaconConf} {latitude longitude : BitVec 32}

/-! ## Reading a frame -/

/-- The number of some bytes, the lowest first. -/
def littleEndian (bytes : List U8) : ℕ := Nat.ofDigits 256 (bytes.map BitVec.toNat)

/-- A signed number of 24 bits. -/
def signExtend24 (n : ℕ) : ℤ := (BitVec.ofNat 24 n).toInt

/-- The `k` bytes of a frame from index `i` on are a field of it. -/
def fieldAt (frame : List U8) (i k : ℕ) : List U8 := (frame.drop i).take k

/-- The fields of a beacon, in the order in which they stand in its frame. -/
structure BeaconFrame where
  rfu1 : List U8
  time : ℕ
  crc1 : ℕ
  infodesc : ℕ
  latitude : ℤ
  longitude : ℤ
  rfu2 : List U8
  crc2 : ℕ
  deriving DecidableEq

/-- Take a frame apart: RFU1, time (4), CRC 1 (2), infodesc (1), latitude (3), longitude (3),
RFU2, CRC 2 (2). -/
def readBeacon (rfu1 rfu2 : ℕ) (frame : List U8) : BeaconFrame where
  rfu1 := fieldAt frame 0 rfu1
  time := littleEndian (fieldAt frame rfu1 4)
  crc1 := littleEndian (fieldAt frame (rfu1 + 4) 2)
  infodesc := littleEndian (fieldAt frame (rfu1 + 6) 1)
  latitude := signExtend24 (littleEndian (fieldAt frame (rfu1 + 7) 3))
  longitude := signExtend24 (littleEndian (fieldAt frame (rfu1 + 10) 3))
  rfu2 := fieldAt frame (rfu1 + 13) rfu2
  crc2 := littleEndian (fieldAt frame (rfu1 + 13 + rfu2) 2)

/-- A coordinate within 24 bits, as a signed number. -/
def clamp24 (v : ℤ) : ℤ := max (-2 ^ 23) (min (2 ^ 23 - 1) v)

/-- What a packet reads as by the layout of its datarate. -/
def LgwPktTx.beacon (rfu1 rfu2 : ℕ) (packet : LgwPktTx) : BeaconFrame :=
  readBeacon rfu1 rfu2 (packet.payload.live packet.size.toNat)

/-- `k` bytes of what is sent. -/
def LgwPktTx.bytesAt (packet : LgwPktTx) (i k : ℕ) : List U8 :=
  fieldAt (packet.payload.live packet.size.toNat) i k

/-- **The fixed part.**  The length is the size of the packet, and all but the time and its
CRC reads as it was filled in. -/
structure CarriesConf (c : BeaconConf) (latitude longitude : BitVec 32) (rfu1 rfu2 : ℕ)
    (packet : LgwPktTx) : Prop where
  size_eq : packet.size.toNat = rfu1 + 4 + 2 + 1 + 3 + 3 + rfu2 + 2
  length_eq : (packet.payload.live packet.size.toNat).length = packet.size.toNat
  rfu1_zero : (packet.beacon rfu1 rfu2).rfu1 = List.replicate rfu1 0
  infodesc_eq : (packet.beacon rfu1 rfu2).infodesc = c.beaconInfodesc.toNat
  latitude_eq : (packet.beacon rfu1 rfu2).latitude = clamp24 latitude.toInt
  longitude_eq : (packet.beacon rfu1 rfu2).longitude = clamp24 longitude.toInt
  rfu2_zero : (packet.beacon rfu1 rfu2).rfu2 = List.replicate rfu2 0
  crc2_eq : (packet.beacon rfu1 rfu2).crc2 = (crc16 (packet.bytesAt (rfu1 + 6) (7 + rfu2))).toNat

/-- **A beacon of its time**: the time too, and the CRC of all before it. -/
structure CarriesBeacon (c : BeaconConf) (latitude longitude : BitVec 32) (rfu1 rfu2 : ℕ)
    (gpsTime : ℤ) (packet : LgwPktTx) : Prop
    extends CarriesConf c latitude longitude rfu1 rfu2 packet where
  time_eq : (packet.beacon rfu1 rfu2).time = (gpsTime % 2 ^ 32).toNat
  crc1_eq : (packet.beacon rfu1 rfu2).crc1 = (crc16 (packet.bytesAt 0 (rfu1 + 4))).toNat

/-! ## Bytes -/

theorem littleEndian_timeBytes (gpsTime : ℤ) :
    littleEndian (timeBytes gpsTime) = (gpsTime % 2 ^ 32).toNat := by
  have hdigits : (littleEndian (timeBytes gpsTime) : ℤ) = gpsTime % 2 ^ 32 := by
    simp only [littleEndian, timeBytes, List.map_cons, List.map_nil, Nat.ofDigits_cons,
      Nat.ofDigits_nil, Nat.cast_add, Nat.cast_mul, Nat.cast_ofNat, Nat.cast_zero,
      toNat_ofInt_byte, Int.shiftRight_eq_div_pow]
    omega
  omega

theorem littleEndian_crcBytes (crc : U16) : littleEndian (crcBytes crc) = crc.toNat := by
  have hlt := crc.isLt
  simp only [littleEndian, crcBytes, List.map_cons, List.map_nil, Nat.ofDigits_cons,
    Nat.ofDigits_nil, BitVec.toNat_setWidth, BitVec.toNat_ushiftRight,
    Nat.shiftRight_eq_div_pow]
  omega

theorem littleEndian_fieldBytes (v : BitVec 32) :
    littleEndian (fieldBytes v) = v.toNat % 2 ^ 24 := by
  simp only [littleEndian, fieldBytes, List.map_cons, List.map_nil, Nat.ofDigits_cons,
    Nat.ofDigits_nil, BitVec.toNat_setWidth, BitVec.toNat_ushiftRight,
    Nat.shiftRight_eq_div_pow]
  omega

theorem toInt_clampField (v : BitVec 32) : (clampField v).toInt = clamp24 v.toInt := by
  have hmax : (0x007FFFFF : BitVec 32).toInt = 2 ^ 23 - 1 := by decide
  have hmin : (0xFF800000 : BitVec 32).toInt = -2 ^ 23 := by decide
  unfold clampField clamp24
  simp only [BitVec.slt_iff_toInt_lt, hmax, hmin]
  split_ifs
  · rw [hmax]
    omega
  · rw [hmin]
    omega
  · omega

/-- A coordinate is read back within 24 bits. -/
theorem signExtend24_fieldBytes (v : BitVec 32) :
    signExtend24 (littleEndian (fieldBytes (clampField v))) = clamp24 v.toInt := by
  have hclamp := toInt_clampField v
  have hwide := BitVec.toInt_eq_toNat_cond (clampField v)
  have hlt := (clampField v).isLt
  have hlow : -2 ^ 23 ≤ clamp24 v.toInt := le_max_left _ _
  have hhigh : clamp24 v.toInt ≤ 2 ^ 23 - 1 :=
    max_le (by norm_num) (min_le_left _ _)
  rw [littleEndian_fieldBytes, signExtend24, BitVec.toInt_eq_toNat_cond, BitVec.toNat_ofNat]
  rw [hclamp] at hwide
  split_ifs at hwide ⊢ <;> omega

/-! ## The payload in one piece -/

/-- The part of the frame that is the gateway's. -/
def gatewayPart (c : BeaconConf) (latitude longitude : BitVec 32) (rfu2 : ℕ) : List U8 :=
  c.beaconInfodesc :: fieldBytes (clampField latitude) ++ fieldBytes (clampField longitude) ++
    List.replicate rfu2 0

/-- The payload starts with a frame; `middle` is where the time and its CRC are. -/
def IsFrame (c : BeaconConf) (latitude longitude : BitVec 32) (rfu1 rfu2 : ℕ)
    (middle : List U8) (payload : Slots U8 payloadMax) : Prop :=
  middle.length = 6 ∧ ∃ rest, payload.cells = List.replicate rfu1 0 ++ middle ++
    (gatewayPart c latitude longitude rfu2 ++
      crcBytes (crc16 (gatewayPart c latitude longitude rfu2)) ++ rest)

theorem length_gatewayPart (rfu2 : ℕ) :
    (gatewayPart c latitude longitude rfu2).length = 7 + rfu2 := by
  simp [gatewayPart, fieldBytes]
  omega

theorem exists_split {l : List U8} {n : ℕ} (h : n ≤ l.length) :
    ∃ pre post, l = pre ++ post ∧ pre.length = n :=
  ⟨l.take n, l.drop n, (List.take_append_drop n l).symm, List.length_take_of_le h⟩

/-- The first fill leaves the six bytes for the time and its CRC as they were. -/
theorem exists_isFrame_beaconPayload (c : BeaconConf) (latitude longitude : BitVec 32)
    {rfu1 rfu2 : ℕ} (hfit : rfu1 + rfu2 ≤ 8) (payload : Slots U8 payloadMax) :
    ∃ middle, IsFrame c latitude longitude rfu1 rfu2 middle
      (beaconPayload c latitude longitude rfu1 rfu2 payload) := by
  have hcells : payload.cells.length = 256 := payload.length_cells
  obtain ⟨a, l1, h1, ha⟩ := exists_split (l := payload.cells) (n := rfu1) (by omega)
  rw [h1, List.length_append] at hcells
  obtain ⟨middle, l2, h2, hmiddle⟩ := exists_split (l := l1) (n := 6) (by omega)
  rw [h2, List.length_append] at hcells
  obtain ⟨g, l3, h3, hg⟩ := exists_split (l := l2) (n := 7 + rfu2) (by omega)
  rw [h3, List.length_append] at hcells
  obtain ⟨k, rest, h4, hk⟩ := exists_split (l := l3) (n := 2) (by omega)
  have hlen : (gatewayPart c latitude longitude rfu2).length = 7 + rfu2 := length_gatewayPart rfu2
  have hpre : (List.replicate rfu1 (0 : U8) ++ middle).length = rfu1 + 6 := by simp [hmiddle]
  have hstart : payload.cells = [] ++ a ++ (middle ++ g ++ (k ++ rest)) := by
    simp [h1, h2, h3, h4]
  have hzeros : (payload.write 0 (List.replicate rfu1 0)).cells =
      List.replicate rfu1 0 ++ middle ++ g ++ (k ++ rest) := by
    refine (payload.cells_write hstart rfl (by simp [ha])).trans ?_
    simp
  have hpart := Slots.cells_write _ hzeros hpre (hg.trans hlen.symm)
  have hslice := Slots.slice_eq hpart (hpre.trans (Nat.add_comm _ _)) hlen
  rw [← List.append_assoc] at hpart
  have hcrc := Slots.cells_write (l := crcBytes (crc16 (gatewayPart c latitude longitude rfu2))) _
    hpart (i := rfu1 + 6 + (7 + rfu2)) (by rw [List.length_append, hpre, hlen]) hk
  refine ⟨middle, hmiddle, rest, ?_⟩
  show (Slots.write _ (rfu1 + 6 + (7 + rfu2)) (crcBytes (crc16 (Slots.slice
    ((payload.write 0 (List.replicate rfu1 0)).write (rfu1 + 6)
      (gatewayPart c latitude longitude rfu2)) (6 + rfu1) (7 + rfu2))))).cells = _
  rw [hslice]
  refine hcrc.trans ?_
  simp only [List.append_assoc]

/-- The time and its CRC, after the zeros. -/
def timePart (rfu1 : ℕ) (gpsTime : ℤ) : List U8 :=
  timeBytes gpsTime ++ crcBytes (crc16 (List.replicate rfu1 0 ++ timeBytes gpsTime))

/-- **Loading a time** writes the time and its CRC and nothing else. -/
theorem IsFrame.loadTime {rfu1 rfu2 : ℕ} {middle : List U8} {payload : Slots U8 payloadMax}
    (h : IsFrame c latitude longitude rfu1 rfu2 middle payload) (gpsTime : ℤ) :
    IsFrame c latitude longitude rfu1 rfu2 (timePart rfu1 gpsTime)
      (loadTime rfu1 gpsTime payload) := by
  obtain ⟨hmiddle, rest, hcells⟩ := h
  obtain ⟨old, oldCrc, rfl, hold⟩ := exists_split (l := middle) (n := 4) (by omega)
  rw [List.length_append] at hmiddle
  have hstart : payload.cells = List.replicate rfu1 0 ++ old ++ (oldCrc ++
      (gatewayPart c latitude longitude rfu2 ++
        crcBytes (crc16 (gatewayPart c latitude longitude rfu2)) ++ rest)) := by
    rw [hcells]
    simp only [List.append_assoc]
  have htime := payload.cells_write (l := timeBytes gpsTime) hstart List.length_replicate hold
  have hpre : (List.replicate rfu1 (0 : U8) ++ timeBytes gpsTime).length = 4 + rfu1 := by
    rw [List.length_append, List.length_replicate, Nat.add_comm]
    rfl
  have hslice : (payload.write rfu1 (timeBytes gpsTime)).slice 0 (4 + rfu1) =
      List.replicate rfu1 0 ++ timeBytes gpsTime :=
    Slots.slice_eq (show _ = [] ++ _ ++ _ from htime) rfl hpre
  rw [← List.append_assoc] at htime
  have hcrc := Slots.cells_write
    (l := crcBytes (crc16 (List.replicate rfu1 0 ++ timeBytes gpsTime))) _ htime
    (hpre.trans (Nat.add_comm _ _)) (by show oldCrc.length = 2; omega)
  refine ⟨rfl, rest, ?_⟩
  unfold PacketForwarder.loadTime
  dsimp only
  rw [hslice, hcrc, timePart]
  simp only [List.append_assoc]

/-! ## What the payload reads as -/

/-- A field of a frame that is put together from it and what is around it. -/
theorem fieldAt_append (pre mid post : List U8) {i k : ℕ} (hi : pre.length = i)
    (hk : mid.length = k) : fieldAt (pre ++ (mid ++ post)) i k = mid := by
  rw [fieldAt, ← hi, ← hk, List.drop_left, List.take_left]

/-- Every field is found where the layout says it is. -/
theorem readBeacon_append (rfu1 time crc1 info lat lon rfu2 crc2 : List U8)
    (htime : time.length = 4) (hcrc1 : crc1.length = 2) (hinfo : info.length = 1)
    (hlat : lat.length = 3) (hlon : lon.length = 3) (hcrc2 : crc2.length = 2) :
    readBeacon rfu1.length rfu2.length
        (rfu1 ++ (time ++ (crc1 ++ (info ++ (lat ++ (lon ++ (rfu2 ++ crc2))))))) =
      { rfu1 := rfu1
        time := littleEndian time
        crc1 := littleEndian crc1
        infodesc := littleEndian info
        latitude := signExtend24 (littleEndian lat)
        longitude := signExtend24 (littleEndian lon)
        rfu2 := rfu2
        crc2 := littleEndian crc2 } := by
  have h0 := fieldAt_append [] rfu1 (time ++ (crc1 ++ (info ++ (lat ++ (lon ++ (rfu2 ++ crc2))))))
    (i := 0) rfl rfl
  have h1 := fieldAt_append rfu1 time (crc1 ++ (info ++ (lat ++ (lon ++ (rfu2 ++ crc2))))) rfl htime
  have h2 := fieldAt_append (rfu1 ++ time) crc1 (info ++ (lat ++ (lon ++ (rfu2 ++ crc2))))
    (i := rfu1.length + 4) (by simp [htime]) hcrc1
  have h3 := fieldAt_append (rfu1 ++ time ++ crc1) info (lat ++ (lon ++ (rfu2 ++ crc2)))
    (i := rfu1.length + 6) (by simp [htime, hcrc1]) hinfo
  have h4 := fieldAt_append (rfu1 ++ time ++ crc1 ++ info) lat (lon ++ (rfu2 ++ crc2))
    (i := rfu1.length + 7) (by simp [htime, hcrc1, hinfo]) hlat
  have h5 := fieldAt_append (rfu1 ++ time ++ crc1 ++ info ++ lat) lon (rfu2 ++ crc2)
    (i := rfu1.length + 10) (by simp [htime, hcrc1, hinfo, hlat]) hlon
  have h6 := fieldAt_append (rfu1 ++ time ++ crc1 ++ info ++ lat ++ lon) rfu2 crc2
    (i := rfu1.length + 13) (by simp [htime, hcrc1, hinfo, hlat, hlon]) rfl
  have h7 := fieldAt_append (rfu1 ++ time ++ crc1 ++ info ++ lat ++ lon ++ rfu2) crc2 []
    (i := rfu1.length + 13 + rfu2.length)
    (by simp only [List.length_append, htime, hcrc1, hinfo, hlat, hlon]) hcrc2
  simp only [List.append_assoc, List.append_nil, List.nil_append] at h0 h1 h2 h3 h4 h5 h6 h7
  rw [readBeacon, h0, h1, h2, h3, h4, h5, h6, h7]

/-- What a payload in one piece reads as. -/
theorem IsFrame.reads {rfu1 rfu2 : ℕ} {time crc : List U8} {payload : Slots U8 payloadMax}
    (h : IsFrame c latitude longitude rfu1 rfu2 (time ++ crc) payload) (htime : time.length = 4) :
    readBeacon rfu1 rfu2 (payload.live (rfu1 + 15 + rfu2)) =
        { rfu1 := List.replicate rfu1 0
          time := littleEndian time
          crc1 := littleEndian crc
          infodesc := c.beaconInfodesc.toNat
          latitude := clamp24 latitude.toInt
          longitude := clamp24 longitude.toInt
          rfu2 := List.replicate rfu2 0
          crc2 := (crc16 (gatewayPart c latitude longitude rfu2)).toNat } ∧
      fieldAt (payload.live (rfu1 + 15 + rfu2)) 0 (rfu1 + 4) = List.replicate rfu1 0 ++ time ∧
      fieldAt (payload.live (rfu1 + 15 + rfu2)) (rfu1 + 6) (7 + rfu2) =
        gatewayPart c latitude longitude rfu2 := by
  obtain ⟨hmiddle, rest, hcells⟩ := h
  have hcrc : crc.length = 2 := by
    rw [List.length_append] at hmiddle
    omega
  have hgateway : (gatewayPart c latitude longitude rfu2).length = 7 + rfu2 :=
    length_gatewayPart rfu2
  generalize hk : crcBytes (crc16 (gatewayPart c latitude longitude rfu2)) = crc2 at hcells
  have hcrc2 : crc2.length = 2 := by rw [← hk]; rfl
  -- The parts of the frame stand one behind the other, from the first byte on.
  have hlive : payload.live (rfu1 + 15 + rfu2) =
      List.replicate rfu1 0 ++
        (time ++ (crc ++ (gatewayPart c latitude longitude rfu2 ++ crc2))) := by
    have hwhole : payload.cells = (List.replicate rfu1 0 ++ (time ++ (crc ++
        (gatewayPart c latitude longitude rfu2 ++ crc2)))) ++ rest := by
      rw [hcells]
      simp only [List.append_assoc]
    refine Slots.live_eq hwhole ?_
    simp only [List.length_append, List.length_replicate, hgateway, htime, hcrc, hcrc2]
    omega
  rw [hlive]
  refine ⟨?_, ?_, ?_⟩
  · have hread := readBeacon_append (List.replicate rfu1 0) time crc [c.beaconInfodesc]
      (fieldBytes (clampField latitude)) (fieldBytes (clampField longitude))
      (List.replicate rfu2 0) crc2 htime hcrc rfl rfl rfl hcrc2
    simp only [List.length_replicate, signExtend24_fieldBytes] at hread
    rw [← hk, littleEndian_crcBytes] at hread
    rw [← hk]
    simpa [gatewayPart, littleEndian] using hread
  · have hcommon := fieldAt_append [] (List.replicate rfu1 0 ++ time)
      (crc ++ (gatewayPart c latitude longitude rfu2 ++ crc2)) (i := 0) (k := rfu1 + 4) rfl
      (by simp [htime])
    simpa using hcommon
  · have hpart := fieldAt_append (List.replicate rfu1 0 ++ time ++ crc)
      (gatewayPart c latitude longitude rfu2) crc2 (i := rfu1 + 6) (by simp [htime, hcrc]) hgateway
    simpa using hpart

theorem IsFrame.carriesConf {rfu1 rfu2 : ℕ} {middle : List U8} {packet : LgwPktTx}
    (h : IsFrame c latitude longitude rfu1 rfu2 middle packet.payload) (hfit : rfu1 + rfu2 ≤ 8)
    (hsize : packet.size.toNat = rfu1 + 15 + rfu2) :
    CarriesConf c latitude longitude rfu1 rfu2 packet := by
  obtain ⟨time, crc, rfl, htime⟩ := exists_split (l := middle) (n := 4) (by have := h.1; omega)
  obtain ⟨hread, -, hpart⟩ := h.reads htime
  rw [← hsize] at hread hpart
  refine ⟨by omega, ?_, ?_, ?_, ?_, ?_, ?_, ?_⟩
  · exact Slots.length_live_of_le _ (by rw [hsize, payloadMax]; omega)
  all_goals simp only [LgwPktTx.beacon, LgwPktTx.bytesAt, hread, hpart]

theorem IsFrame.carriesBeacon {rfu1 rfu2 : ℕ} {gpsTime : ℤ} {packet : LgwPktTx}
    (h : IsFrame c latitude longitude rfu1 rfu2 (timePart rfu1 gpsTime) packet.payload)
    (hfit : rfu1 + rfu2 ≤ 8) (hsize : packet.size.toNat = rfu1 + 15 + rfu2) :
    CarriesBeacon c latitude longitude rfu1 rfu2 gpsTime packet := by
  obtain ⟨hread, hcommon, -⟩ := IsFrame.reads h rfl
  rw [← hsize] at hread hcommon
  refine ⟨h.carriesConf hfit hsize, ?_, ?_⟩
  · rw [LgwPktTx.beacon, hread]
    exact littleEndian_timeBytes gpsTime
  · rw [LgwPktTx.beacon, LgwPktTx.bytesAt, hread, hcommon]
    exact littleEndian_crcBytes _

/-! ## All runs -/

/-- What holds of the packet of the beacons at any moment. -/
structure FrameInv (c : BeaconConf) (latitude longitude : BitVec 32) (rfu1 rfu2 : ℕ)
    (s : BeaconState) : Prop where
  rfu1_eq : s.beaconRfu1Size = rfu1
  size_eq : s.beaconPkt.size.toNat = rfu1 + 15 + rfu2
  frame : ∃ middle, IsFrame c latitude longitude rfu1 rfu2 middle s.beaconPkt.payload

theorem beaconFormat_le {beaconDatarate : U8} {datarate : Datarate} {rfu1 rfu2 : ℕ}
    (h : beaconFormat beaconDatarate = some (datarate, rfu1, rfu2)) : rfu1 + rfu2 ≤ 8 := by
  unfold beaconFormat at h
  split_ifs at h
  all_goals cases h
  all_goals decide

theorem frameInv_beaconSetup {stack : LgwPktTx} {s₀ : BeaconState} {datarate : Datarate}
    {rfu1 rfu2 : ℕ} (hformat : beaconFormat c.beaconDatarate = some (datarate, rfu1, rfu2))
    (h₀ : beaconSetup c latitude longitude stack = some s₀) :
    FrameInv c latitude longitude rfu1 rfu2 s₀ := by
  have hfit := beaconFormat_le hformat
  obtain ⟨bandwidth, -, h⟩ := Option.bind_eq_some_iff.mp h₀
  rw [hformat] at h
  obtain rfl := Option.some.inj h
  refine ⟨rfl, ?_, exists_isFrame_beaconPayload c latitude longitude hfit stack.payload⟩
  show (BitVec.ofNat 16 (rfu1 + 4 + 2 + 7 + rfu2 + 2)).toNat = _
  rw [BitVec.toNat_ofNat]
  omega

/-- **One step.**  No step touches anything but the time and its CRC. -/
theorem FrameInv.step {rfu1 rfu2 : ℕ} {s s' : BeaconState} {e : BeaconEvent}
    (hi : FrameInv c latitude longitude rfu1 rfu2 s) (h : BeaconStep c gps2cnt env s e s') :
    FrameInv c latitude longitude rfu1 rfu2 s' := by
  obtain ⟨hrfu, hsize, middle, hframe⟩ := hi
  cases h with
  | enter hl => exact ⟨hrfu, hsize, middle, hframe⟩
  | leave hl => exact ⟨hrfu, hsize, middle, hframe⟩
  | @attempt tref tested met time hl hb hp =>
    have hnext : IsFrame c latitude longitude rfu1 rfu2
        (timePart rfu1 (nextBeaconGpsTime c s tref)) (nextBeacon c gps2cnt s tref).payload := by
      rw [← hrfu] at hframe ⊢
      exact hframe.loadTime _
    unfold beaconAttempt
    dsimp only
    split
    · exact ⟨hrfu, hsize, _, hnext⟩
    · exact ⟨hrfu, hsize, _, hnext⟩

theorem isFrame_foldl_loadTime {rfu1 rfu2 : ℕ} {middle : List U8} {payload : Slots U8 payloadMax}
    (h : IsFrame c latitude longitude rfu1 rfu2 middle payload) (times : List ℤ) :
    ∃ middle', IsFrame c latitude longitude rfu1 rfu2 middle'
      (times.foldl (fun payload t => loadTime rfu1 t payload) payload) := by
  induction times generalizing middle payload with
  | nil => exact ⟨middle, h⟩
  | cons t times ih => exact ih (h.loadTime t)

/-- **The beacon frame.**  After the first fill, whatever was on the stack, all but the time
and its CRC reads as it was filled in; after any updates of the time the payload reads as a
beacon of the latest; and so does the packet of every attempt, in every run of
`thread_down`. -/
theorem beacon_frame {stack : LgwPktTx} {s₀ : BeaconState} {datarate : Datarate}
    {rfu1 rfu2 : ℕ} (hformat : beaconFormat c.beaconDatarate = some (datarate, rfu1, rfu2))
    (h₀ : beaconSetup c latitude longitude stack = some s₀) :
    CarriesConf c latitude longitude rfu1 rfu2 s₀.beaconPkt ∧
      (∀ (times : List ℤ) (gpsTime : ℤ), CarriesBeacon c latitude longitude rfu1 rfu2 gpsTime
        { s₀.beaconPkt with
          payload := (times ++ [gpsTime]).foldl
            (fun payload t => loadTime s₀.beaconRfu1Size t payload) s₀.beaconPkt.payload }) ∧
      ∀ (gps2cnt : Gps2cnt) (env : JitEnv) (s : BeaconState),
        Runs.Reaches (BeaconStep c gps2cnt env) Runs.anyStep s₀ s → ∀ tref : Tref,
          CarriesBeacon c latitude longitude rfu1 rfu2 (nextBeaconGpsTime c s tref)
            (nextBeacon c gps2cnt s tref) := by
  have hfit := beaconFormat_le hformat
  have hstart := frameInv_beaconSetup hformat h₀
  refine ⟨?_, ?_, ?_⟩
  · obtain ⟨-, hsize, middle, hframe⟩ := hstart
    exact hframe.carriesConf hfit hsize
  · intro times gpsTime
    obtain ⟨hrfu, hsize, middle, hframe⟩ := hstart
    obtain ⟨middle', hbefore⟩ := isFrame_foldl_loadTime hframe times
    refine IsFrame.carriesBeacon ?_ hfit hsize
    rw [hrfu, List.foldl_append]
    exact hbefore.loadTime gpsTime
  · intro gps2cnt env s h tref
    obtain ⟨hrfu, hsize, middle, hframe⟩ :=
      Runs.Reaches.invariant hstart (fun _ _ _ _ hi _ hst => hi.step hst) h
    refine IsFrame.carriesBeacon ?_ hfit hsize
    rw [← hrfu] at hframe ⊢
    exact hframe.loadTime _

/-- The default settings: the third time is what is read. -/
theorem beacon_frame_three_times :
    CarriesBeacon (everySeconds 128) 0 0 2 0 1408
      { (beaconStart 128).beaconPkt with
        payload := [1152, 1280, 1408].foldl
          (fun payload t => loadTime (beaconStart 128).beaconRfu1Size t payload)
          (beaconStart 128).beaconPkt.payload } :=
  (beacon_frame
    (show beaconFormat (everySeconds 128).beaconDatarate = some (.loraSf9, 2, 0) by decide)
    (show beaconSetup (everySeconds 128) 0 0 .zero = some (beaconStart 128) from
      (Option.some_get _).symm)).2.1 [1152, 1280] 1408

end PacketForwarder
