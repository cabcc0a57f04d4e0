import PacketForwarder.Uplink.Pieces

/-!
# The size of an uplink

`buff_up` has 540 bytes for each of the packets, but the longest packet takes 558.

* `rxpkLength` — the length of a packet, from the widths of its numbers;
* `datagramLength` — the length of the whole datagram;
* `UpFits` — it is less than the size of the buffer;
* `push_data_in_range_iff` — `thread_up` stays in its buffer exactly if it is.
-/

namespace PacketForwarder

open TextBuffer

variable {env : UpEnv} {g : UpGateway}

/-! ## Lengths -/

/-- The number of characters that `%0<width>i` prints. -/
def paddedWidth (width : ℕ) (z : ℤ) : ℕ :=
  max width ((decide (z < 0)).toNat + decimalWidth z.natAbs)

/-- The number of characters that `%.<places>f` prints. -/
def fixedWidth (places : ℕ) (x : FiniteFloat) : ℕ :=
  (Decimal.fixed places x.negative x.magnitude).width

/-- The length of `"time"`; it is 37 for a year of four digits. -/
def timeLength (env : UpEnv) (localRef : Tref) (p : LgwPktRx) : ℕ :=
  match env.lgwCnt2utc localRef p.countUs with
  | none => 0
  | some pktUtcTime =>
    let x := gmtime pktUtcTime.tvSec
    17 + paddedWidth 4 (x.tmYear + 1900) + paddedWidth 2 (x.tmMon + 1) +
      paddedWidth 2 x.tmMday + paddedWidth 2 x.tmHour + paddedWidth 2 x.tmMin +
      paddedWidth 2 x.tmSec + paddedWidth 6 (pktUtcTime.tvNsec.tdiv 1000)

/-- The length of the member `"tmms"`, which is there only if the conversion succeeds. -/
def tmmsLength (env : UpEnv) (localRef : Tref) (p : LgwPktRx) : ℕ :=
  match env.lgwCnt2gps localRef p.countUs with
  | none => 0
  | some pktGpsTime => 8 + decimalWidth (gpsTimeMs env pktGpsTime).toNat

/-- The length of the members that give the RX time, which need a valid reference. -/
def gpsLength (env : UpEnv) (ref : Option Tref) (p : LgwPktRx) : ℕ :=
  match ref with
  | none => 0
  | some localRef => timeLength env localRef p + tmmsLength env localRef p

/-- The length of the member `"stat"`, whose value has a sign if the CRC is bad. -/
def statLength : RxStatus → ℕ
  | .crcBad => 10
  | _ => 9

/-- The length of the spreading factor of `"datr"`. -/
def datarateLength : Datarate → ℕ
  | .loraSf10 | .loraSf11 | .loraSf12 => 13
  | _ => 12

/-- The length of `"modu"`, and of what depends on it. -/
def modulationLength (p : LgwPktRx) : ℕ :=
  match p.modulation with
  | .lora => 14 + datarateLength p.datarate + 6 + 13 + 8 + fixedWidth 1 p.snr
  | .fsk => 13 + 8 + decimalWidth p.datarate.value.toNat
  | .undefined => 0

/-- The length of a packet, from brace to brace. -/
def rxpkLength (env : UpEnv) (ref : Option Tref) (p : LgwPktRx) : ℕ :=
  1 + (7 + decimalWidth p.countUs.toNat) + gpsLength env ref p +
    (8 + decimalWidth p.ifChain.toNat) + (8 + decimalWidth p.rfChain.toNat) +
    (8 + decimalWidth (p.freqHz.toNat / 1000000) + 7) + statLength p.status +
    modulationLength p + (8 + fixedWidth 0 p.rssi) + (8 + decimalWidth p.size.toNat) +
    (9 + 4 * ((p.size.toNat + 2) / 3) + 2)

/-- The length of the datagram up to the report: the header and a brace, or the header, the
array with a comma or bracket after each packet, and a comma if there is a report. -/
def lengthBeforeReport (env : UpEnv) (g : UpGateway) (rxpkt : List LgwPktRx) : ℕ :=
  if g.pktInDgram rxpkt = 0 then 12 + 1
  else 12 + 9 + ((g.forwarded rxpkt).map fun p => rxpkLength env (g.localRef rxpkt) p + 1).sum +
    g.report.isSome.toNat

/-- The length of the whole datagram behind its header, with the report and the last brace. -/
def datagramLength (env : UpEnv) (g : UpGateway) (rxpkt : List LgwPktRx) : ℕ :=
  lengthBeforeReport env g rxpkt + g.report.elim 0 List.length + 1

/-- The datagram fits `buff_up`, with a terminator.  With an empty report the thread ends
before the last brace. -/
def UpFits (env : UpEnv) (g : UpGateway) (rxpkt : List LgwPktRx) : Prop :=
  if g.report = some [] then lengthBeforeReport env g rxpkt ≤ txBuffSize
  else datagramLength env g rxpkt < txBuffSize

/-! ## The length of a packet -/

theorem length_formatPadded (width : ℕ) (z : ℤ) :
    (formatPadded width z).length = paddedWidth width z := by
  have hsign : (Decimal.signText (decide (z < 0))).length = (decide (z < 0)).toNat := by
    cases decide (z < 0) with
    | false => rfl
    | true => rfl
  unfold formatPadded paddedWidth
  rw [List.length_append, length_digits, hsign]
  omega

@[simp] theorem length_formatUnsigned {w : ℕ} (x : BitVec w) :
    (formatUnsigned x).length = decimalWidth x.toNat := by
  rw [formatUnsigned, Decimal.length_text]
  simp [Decimal.width, Decimal.ofNat]

@[simp] theorem length_formatFixed (places : ℕ) (x : FiniteFloat) :
    (formatFixed places x).length = fixedWidth places x :=
  Decimal.length_text _

/-- The frequency in MHz is a double next to the exact one. -/
theorem exists_freqMhz (p : LgwPktRx) :
    ∃ q : ℚ, p.freqMhz = .finite q ∧ 0 ≤ q ∧ |q * 10 ^ 6 - p.freqHz.toNat| < 1 / 2 := by
  have hlt : (p.freqHz.toNat : ℚ) < 2 ^ 32 := by exact_mod_cast p.freqHz.isLt
  have hnonneg : (0 : ℚ) ≤ p.freqHz.toNat := Nat.cast_nonneg _
  by_cases hzero : p.freqHz.toNat = 0
  · refine ⟨0, ?_, le_rfl, ?_⟩
    · unfold LgwPktRx.freqMhz
      rw [hzero]
      simp [Binary64.div, Binary64.ofRat]
    · rw [hzero]
      norm_num
  · have hone : (1 : ℚ) ≤ p.freqHz.toNat := by exact_mod_cast Nat.one_le_iff_ne_zero.mpr hzero
    have habs : |(p.freqHz.toNat : ℚ) / 1000000| = p.freqHz.toNat / 1000000 :=
      abs_of_nonneg (by positivity)
    obtain ⟨q, hq, herr⟩ := Binary64.exists_ofRat_eq_finite
      (show |(p.freqHz.toNat : ℚ) / 1000000| ≤ 2 ^ 64 by rw [habs]; linarith)
    rw [habs, abs_le] at herr
    refine ⟨q, hq, ?_, ?_⟩
    · linarith
    · rw [abs_lt]
      constructor <;> linarith

/-- The frequency in MHz, as a numeral with all its places. -/
def freqDecimal (p : LgwPktRx) : Decimal where
  negative := false
  whole := p.freqHz.toNat / 10 ^ 6
  places := 6
  fraction := p.freqHz.toNat % 10 ^ 6
  fraction_lt := Nat.mod_lt _ (by positivity)

/-- **The frequency is printed exactly.**  The rounding to a `double` is undone by the
rounding to six places. -/
theorem formatDouble_freqMhz (p : LgwPktRx) :
    formatDouble 6 p.freqMhz = (freqDecimal p).text := by
  obtain ⟨q, hq, hnonneg, herr⟩ := exists_freqMhz p
  have habs : ((q.nnabs : ℚ≥0) : ℚ) = q := by
    rw [Rat.coe_nnabs, abs_of_nonneg hnonneg]
  rw [← habs] at herr
  rw [hq, formatDouble, formatFixed, Decimal.fixed_eq herr]
  simp [freqDecimal, not_lt.mpr hnonneg]

theorem length_formatDouble_freqMhz (p : LgwPktRx) :
    (formatDouble 6 p.freqMhz).length = decimalWidth (p.freqHz.toNat / 1000000) + 7 := by
  rw [formatDouble_freqMhz, Decimal.length_text]
  simp [Decimal.width, freqDecimal]

theorem length_gpsPieces (env : UpEnv) (ref : Option Tref) (p : LgwPktRx) :
    (piecesText (gpsPieces env ref p)).length = gpsLength env ref p := by
  unfold gpsPieces gpsLength
  cases ref with
  | none => rfl
  | some localRef =>
    have htime : (piecesText (timePieces env localRef p)).length = timeLength env localRef p := by
      unfold timePieces timeLength
      cases env.lgwCnt2utc localRef p.countUs with
      | none => rfl
      | some pktUtcTime =>
        simp [Piece.text, length_formatPadded, cstr]
        omega
    have htmms : (piecesText (tmmsPieces env localRef p)).length = tmmsLength env localRef p := by
      unfold tmmsPieces tmmsLength
      cases env.lgwCnt2gps localRef p.countUs with
      | none => rfl
      | some pktGpsTime =>
        simp [Piece.text, cstr]
        omega
    simp only [piecesText_append, List.length_append, htime, htmms]

theorem length_modulationPieces {p : LgwPktRx} (h : p.Known) :
    (piecesText (modulationPieces p)).length = modulationLength p := by
  unfold modulationPieces modulationLength
  cases hmodulation : p.modulation with
  | undefined => exact absurd hmodulation h.modulation
  | fsk =>
    simp [Piece.text, cstr]
    omega
  | lora =>
    have hdatarate : (piecesText (dataratePieces p.datarate)).length =
        datarateLength p.datarate := by
      cases hrate : p.datarate with
      | bps rate => exact absurd hrate (h.datarate hmodulation rate)
      | _ => rfl
    have hbandwidth : (piecesText (bandwidthPieces p.bandwidth)).length = 6 := by
      cases hband : p.bandwidth with
      | undefined => exact absurd hband (h.bandwidth hmodulation)
      | _ => rfl
    have hcoderate : (piecesText (coderatePieces p.coderate)).length = 13 := by
      cases hcode : p.coderate with
      | none => exact absurd hcode (h.coderate hmodulation)
      | some coderate =>
        cases coderate with
        | _ => rfl
    simp [hdatarate, hbandwidth, hcoderate, Piece.text, cstr]
    omega

theorem length_rxpkText {p : LgwPktRx} (h : p.Known) (env : UpEnv) (ref : Option Tref) :
    (rxpkText env ref p).length = rxpkLength env ref p := by
  have hstat : (piecesText (statPieces p.status)).length = statLength p.status := by
    cases hstatus : p.status with
    | undefined => exact absurd hstatus h.status
    | _ => rfl
  unfold rxpkText rxpkPieces rxpkLength
  simp only [piecesText_append, List.length_append, length_gpsPieces, hstat,
    length_modulationPieces h]
  simp [Piece.text, length_formatDouble_freqMhz, length_base64Text, length_data, cstr]
  omega

/-! ## The length of the datagram -/

theorem known_of_mem_forwarded {rxpkt : List LgwPktRx} (h : ∀ p ∈ rxpkt, p.Known) :
    ∀ p ∈ g.forwarded rxpkt, p.Known :=
  fun p hp => h p (List.mem_of_mem_filter hp)

theorem length_moreRxpk {rxpkt : List LgwPktRx} (h : ∀ p ∈ rxpkt, p.Known) (env : UpEnv)
    (ref : Option Tref) :
    (moreRxpk env ref rxpkt).length = (rxpkt.map fun p => rxpkLength env ref p + 1).sum := by
  induction rxpkt with
  | nil => rfl
  | cons p rxpkt ih =>
    obtain ⟨hp, hrest⟩ := List.forall_mem_cons.mp h
    have hcons : moreRxpk env ref (p :: rxpkt) =
        cstr "," ++ rxpkText env ref p ++ moreRxpk env ref rxpkt := List.flatMap_cons
    rw [hcons, List.length_append, List.length_append, ih hrest, length_rxpkText hp,
      List.map_cons, List.sum_cons]
    simp [cstr]
    omega

/-- Each packet has a comma, but the last. -/
theorem length_rxpkArray {rxpkt : List LgwPktRx} (h : ∀ p ∈ rxpkt, p.Known) (hne : rxpkt ≠ [])
    (env : UpEnv) (ref : Option Tref) :
    (rxpkArray env ref rxpkt).length + 1 = (rxpkt.map fun p => rxpkLength env ref p + 1).sum := by
  cases rxpkt with
  | nil => exact absurd rfl hne
  | cons p rxpkt =>
    obtain ⟨hp, hrest⟩ := List.forall_mem_cons.mp h
    rw [rxpkArray, List.length_append, length_moreRxpk hrest, length_rxpkText hp, List.map_cons,
      List.sum_cons]
    omega

theorem length_textBeforeReport {rxpkt : List LgwPktRx} (h : ∀ p ∈ g.forwarded rxpkt, p.Known)
    (env : UpEnv) :
    12 + (textBeforeReport env g rxpkt).length = lengthBeforeReport env g rxpkt := by
  unfold textBeforeReport lengthBeforeReport
  by_cases hzero : g.pktInDgram rxpkt = 0
  · rw [if_pos hzero, if_pos hzero]
    rfl
  · have hne : g.forwarded rxpkt ≠ [] := fun hnil => hzero (List.length_eq_zero_iff.mpr hnil)
    have harray := length_rxpkArray h hne env (g.localRef rxpkt)
    rw [if_neg hzero, if_neg hzero, ← harray]
    cases g.report with
    | none =>
      simp [cstr]
      omega
    | some report =>
      simp [cstr]
      omega

theorem length_datagramText {rxpkt : List LgwPktRx} (h : ∀ p ∈ g.forwarded rxpkt, p.Known)
    (env : UpEnv) :
    12 + (datagramText env g rxpkt).length = datagramLength env g rxpkt := by
  unfold datagramText datagramLength
  rw [← length_textBeforeReport h]
  cases g.report with
  | none =>
    simp [cstr]
    omega
  | some report =>
    simp [cstr]
    omega

/-! ## The buffer -/

/-- Printing nothing stays in the buffer, also at its very end, where there is no room for the
terminator. -/
theorem within_print_nil {b : UpBuff} (hwithin : b.Within txBuffSize)
    (h : b.index ≤ txBuffSize) : (b.print 0 (roomAt b.index) []).Within txBuffSize := by
  refine within_write.mpr ⟨hwithin, ?_⟩
  rcases h.eq_or_lt with heq | hlt
  · have hroom : roomAt b.index = 0 := by
      rw [heq]
      rfl
    exact .inl (if_pos hroom)
  · right
    rw [List.take_nil]
    split
    · exact h
    · exact hlt

/-- The datagram that is sent has the length computed here, and is composed in the buffer if
it fits. -/
theorem exists_sendDatagram {rxpkt : List LgwPktRx} (h : ∀ p ∈ g.forwarded rxpkt, p.Known)
    (hsome : g.pktInDgram rxpkt ≠ 0 ∨ g.report ≠ none) (hreport : g.report ≠ some [])
    (env : UpEnv) (memory : ℕ → U8) (tokenH tokenL : U8) :
    ∃ b, pushData env g memory tokenH tokenL rxpkt = sendDatagram b ∧
      b.index = datagramLength env g rxpkt ∧
      (datagramLength env g rxpkt < txBuffSize → b.Within txBuffSize) := by
  obtain ⟨b, hb, happends⟩ := pushData_sends h hsome hreport env memory tokenH tokenL
  have hindex : b.index = 12 + (datagramText env g rxpkt).length := happends.index
  rw [length_datagramText h] at hindex
  refine ⟨b, hb, hindex, fun hlt => ?_⟩
  refine happends.within ?_ (within_startDatagram memory tokenH tokenL)
  show 12 + _ < _
  rwa [length_datagramText h]

/-- What is sent was composed in the buffer, and so was its terminator, exactly if there was
room for both. -/
theorem inRange_sendDatagram {b : UpBuff} (hwithin : b.index < txBuffSize → b.Within txBuffSize) :
    (sendDatagram b).buff.Within txBuffSize ∧
        (∀ datagram ∈ (sendDatagram b).sent, datagram.length ≤ txBuffSize) ↔
      b.index < txBuffSize := by
  have hbuff : (sendDatagram b).buff = b.write b.index [0] := rfl
  have hsent : (sendDatagram b).sent = [b.contents] := rfl
  rw [hbuff, hsent, List.forall_mem_singleton, length_contents, within_write]
  constructor
  · rintro ⟨⟨-, hnil | hle⟩, -⟩
    · cases hnil
    · exact hle
  · intro hlt
    exact ⟨⟨hwithin hlt, .inr hlt⟩, hlt.le⟩

/-- **The size of an uplink.**  For packets with known numbers, whatever their widths, all
that `thread_up` writes is in its buffer and what it sends no longer than that, exactly if
the datagram fits. -/
theorem push_data_in_range_iff (env : UpEnv) (g : UpGateway) (memory : ℕ → U8)
    (tokenH tokenL : U8) (rxpkt : List LgwPktRx) (h : ∀ p ∈ rxpkt, p.Known) :
    let r := pushData env g memory tokenH tokenL rxpkt
    (r.buff.Within txBuffSize ∧ ∀ datagram ∈ r.sent, datagram.length ≤ txBuffSize) ↔
      UpFits env g rxpkt := by
  intro r
  replace h := known_of_mem_forwarded (g := g) h
  unfold UpFits
  by_cases hempty : g.report = some []
  · obtain ⟨b, hr, hindex, hwithin⟩ := pushData_empty_report h hempty env memory tokenH tokenL
    have hr' : r = ⟨b.print 0 (roomAt b.index) [], [], true⟩ := hr
    rw [if_pos hempty, hr', ← length_textBeforeReport h, ← hindex]
    constructor
    · rintro ⟨hprint, -⟩
      exact hwithin.mp (within_write.mp hprint).1
    · intro hle
      exact ⟨within_print_nil (hwithin.mpr hle) hle, fun d hd => absurd hd List.not_mem_nil⟩
  · rw [if_neg hempty]
    by_cases hsome : g.pktInDgram rxpkt ≠ 0 ∨ g.report ≠ none
    · obtain ⟨b, hr, hindex, hwithin⟩ :=
        exists_sendDatagram h hsome hempty env memory tokenH tokenL
      have hr' : r = sendDatagram b := hr
      rw [← hindex] at hwithin ⊢
      rw [hr']
      exact inRange_sendDatagram hwithin
    · rw [not_or, not_not, not_not] at hsome
      obtain ⟨b, hr, hwithin⟩ := pushData_of_nothing h hsome.1 hsome.2 env memory tokenH tokenL
      have hr' : r = ⟨b, [], false⟩ := hr
      have hfits : datagramLength env g rxpkt < txBuffSize := by
        rw [datagramLength, lengthBeforeReport, if_pos hsome.1, hsome.2]
        decide
      rw [hr']
      exact iff_of_true ⟨hwithin, fun d hd => absurd hd List.not_mem_nil⟩ hfits

/-! ## The longest packet -/

theorem paddedWidth_eq {width : ℕ} {z : ℤ} (hwidth : width ≠ 0) (hz : 0 ≤ z)
    (h : z.toNat < 10 ^ width) : paddedWidth width z = width := by
  have habs : z.natAbs = z.toNat := by omega
  have hle := decimalWidth_le hwidth h
  unfold paddedWidth
  rw [habs, decide_eq_false (not_lt.mpr hz)]
  simpa using hle

theorem gmtime_ranges (t : ℤ) :
    0 ≤ (gmtime t).tmMon ∧ (gmtime t).tmMon ≤ 11 ∧
      0 ≤ (gmtime t).tmMday ∧ (gmtime t).tmMday ≤ 99 ∧
      0 ≤ (gmtime t).tmHour ∧ (gmtime t).tmHour ≤ 23 ∧
      0 ≤ (gmtime t).tmMin ∧ (gmtime t).tmMin ≤ 59 ∧
      0 ≤ (gmtime t).tmSec ∧ (gmtime t).tmSec ≤ 59 := by
  unfold gmtime
  simp only
  refine ⟨?_, ?_, ?_, ?_, ?_, ?_, ?_, ?_, ?_, ?_⟩ <;> omega

/-- The widths a packet is expected to have: chains of one digit, levels of at most three
digits before the point, a UTC time with a year of four digits and a GPS time of 13
digits. -/
structure LgwPktRx.Expected (env : UpEnv) (ref : Option Tref) (p : LgwPktRx) : Prop
    extends p.Known where
  ifChain : p.ifChain.toNat < 10
  rfChain : p.rfChain.toNat < 10
  rssi : (Decimal.fixed 0 p.rssi.negative p.rssi.magnitude).whole < 1000
  snr : (Decimal.fixed 1 p.snr.negative p.snr.magnitude).whole < 1000
  utc : ∀ localRef ∈ ref, ∀ t ∈ env.lgwCnt2utc localRef p.countUs,
    0 ≤ (gmtime t.tvSec).tmYear + 1900 ∧ (gmtime t.tvSec).tmYear + 1900 ≤ 9999 ∧
      0 ≤ t.tvNsec ∧ t.tvNsec < 1000000000
  gps : ∀ localRef ∈ ref, ∀ t ∈ env.lgwCnt2gps localRef p.countUs,
    decimalWidth (gpsTimeMs env t).toNat = 13

theorem timeLength_le {localRef : Tref} {p : LgwPktRx}
    (h : p.Expected env (some localRef)) : timeLength env localRef p ≤ 37 := by
  have hutc := h.utc localRef rfl
  unfold timeLength
  cases ht : env.lgwCnt2utc localRef p.countUs with
  | none => exact Nat.zero_le _
  | some t =>
    obtain ⟨hyear, hyear', hnsec, hnsec'⟩ := hutc t ht
    obtain ⟨hmon, hmon', hday, hday', hhour, hhour', hmin, hmin', hsec, hsec'⟩ :=
      gmtime_ranges t.tvSec
    have hus : 0 ≤ t.tvNsec.tdiv 1000 := Int.tdiv_nonneg hnsec (by decide)
    have hus' : t.tvNsec.tdiv 1000 < 1000000 := by
      rw [Int.tdiv_eq_ediv_of_nonneg hnsec]
      omega
    simp only
    rw [paddedWidth_eq (by decide) hyear (by omega),
      paddedWidth_eq (by decide) (by omega) (by omega),
      paddedWidth_eq (by decide) hday (by omega), paddedWidth_eq (by decide) hhour (by omega),
      paddedWidth_eq (by decide) hmin (by omega), paddedWidth_eq (by decide) hsec (by omega),
      paddedWidth_eq (by decide) hus (by omega)]

theorem tmmsLength_le {localRef : Tref} {p : LgwPktRx}
    (h : p.Expected env (some localRef)) : tmmsLength env localRef p ≤ 21 := by
  have hgps := h.gps localRef rfl
  unfold tmmsLength
  cases ht : env.lgwCnt2gps localRef p.countUs with
  | none => exact Nat.zero_le _
  | some t => exact (congrArg (8 + ·) (hgps t ht)).le

theorem gpsLength_le {ref : Option Tref} {p : LgwPktRx} (h : p.Expected env ref) :
    gpsLength env ref p ≤ 58 := by
  cases ref with
  | none => exact Nat.zero_le _
  | some localRef => exact Nat.add_le_add (timeLength_le h) (tmmsLength_le h)

/-- The width of a level: a sign, the digits before the point, and those after it. -/
theorem fixedWidth_le {places : ℕ} {x : FiniteFloat}
    (h : (Decimal.fixed places x.negative x.magnitude).whole < 1000) :
    fixedWidth places x ≤ 1 + 3 + if places = 0 then 0 else places + 1 := by
  have hwhole : decimalWidth (Decimal.fixed places x.negative x.magnitude).whole ≤ 3 :=
    decimalWidth_le (by decide) h
  have hsign := Bool.toNat_le x.negative
  unfold fixedWidth Decimal.width
  exact Nat.add_le_add (Nat.add_le_add hsign hwhole) le_rfl

theorem modulationLength_le {ref : Option Tref} {p : LgwPktRx} (h : p.Expected env ref) :
    modulationLength p ≤ 60 := by
  have hsnr := fixedWidth_le h.snr
  have hrate : decimalWidth p.datarate.value.toNat ≤ 10 :=
    decimalWidth_le (by decide) (p.datarate.value.isLt.trans (by decide))
  have hdatarate : datarateLength p.datarate ≤ 13 := by
    cases p.datarate with
    | bps rate => exact Nat.le_succ 12
    | _ => decide
  unfold modulationLength
  split
  · simp only [one_ne_zero, if_false] at hsnr
    omega
  · omega
  · exact Nat.zero_le _

/-- **The longest packet.**  With its comma it takes 558 bytes. -/
theorem rxpkLength_le {ref : Option Tref} {p : LgwPktRx} (h : p.Expected env ref) :
    rxpkLength env ref p ≤ 557 := by
  have hcount : decimalWidth p.countUs.toNat ≤ 10 :=
    decimalWidth_le (by decide) (p.countUs.isLt.trans (by decide))
  have hif : decimalWidth p.ifChain.toNat ≤ 1 := decimalWidth_le (by decide) h.ifChain
  have hrf : decimalWidth p.rfChain.toNat ≤ 1 := decimalWidth_le (by decide) h.rfChain
  have hfreq : decimalWidth (p.freqHz.toNat / 1000000) ≤ 4 := by
    refine decimalWidth_le (by decide) ?_
    have hlt := p.freqHz.isLt
    omega
  have hsize : decimalWidth p.size.toNat ≤ 3 :=
    decimalWidth_le (by decide) (p.size_le.trans_lt (by decide))
  have hstat : statLength p.status ≤ 10 := by cases p.status <;> decide
  have hrssi := fixedWidth_le h.rssi
  have hgps := gpsLength_le h
  have hmodulation := modulationLength_le h
  have hle := p.size_le
  simp only [if_true] at hrssi
  unfold rxpkLength
  omega

/-- What the buffer is large enough for: as many packets as there can be, of the expected
widths, and a report of up to 54 bytes. -/
theorem upFits_of_expected {rxpkt : List LgwPktRx} (hnb : rxpkt.length ≤ nbPktMax)
    (h : ∀ p ∈ rxpkt, p.Expected env (g.localRef rxpkt))
    (hreport : g.report.elim 0 List.length ≤ 54) : UpFits env g rxpkt := by
  have hsum : ((g.forwarded rxpkt).map fun p => rxpkLength env (g.localRef rxpkt) p + 1).sum ≤
      8 * 558 := by
    have hbound := List.sum_le_card_nsmul
      ((g.forwarded rxpkt).map fun p => rxpkLength env (g.localRef rxpkt) p + 1) 558
      (List.forall_mem_map.mpr fun p hp =>
        Nat.succ_le_succ (rxpkLength_le (h p (List.mem_of_mem_filter hp))))
    rw [List.length_map, smul_eq_mul] at hbound
    have hfilter : (g.forwarded rxpkt).length ≤ 8 :=
      (List.length_filter_le _ _).trans hnb
    exact hbound.trans (Nat.mul_le_mul_right 558 hfilter)
  have hcomma := Bool.toNat_le g.report.isSome
  have hbefore : lengthBeforeReport env g rxpkt ≤ 4486 := by
    unfold lengthBeforeReport
    split
    · decide
    · omega
  unfold UpFits datagramLength
  simp only [txBuffSize, nbPktMax, statusSize]
  split <;> omega

/-! ## Eight long packets and a report -/

/-- A packet of 255 bytes with SF12, received on 868.1 MHz at -120 dBm with an SNR of -20 dB. -/
def longPacket : LgwPktRx where
  freqHz := 868100000
  ifChain := 7
  status := .crcOk
  countUs := 3512348611
  rfChain := 1
  modulation := .lora
  bandwidth := .bw125kHz
  datarate := .loraSf12
  coderate := some .lora4_8
  rssi := ⟨true, 120⟩
  snr := ⟨true, 20⟩
  size := 255
  payload := .replicate payloadMax 0
  size_le := by decide

/-- The UTC and GPS times of the first second of 2025. -/
def UpEnv.reference : UpEnv where
  lgwCnt2utc _ _ := some ⟨1735689600, 123456789⟩
  lgwCnt2gps _ _ := some ⟨1419724818, 123456789⟩
  castOutside _ _ := 0

/-- A gateway that forwards valid packets and has a time reference. -/
def UpGateway.reference (report : Option CString) : UpGateway where
  fwdValidPkt := true
  fwdErrorPkt := false
  fwdNocrcPkt := false
  gpsEnabled := true
  gpsRefValid := true
  timeReferenceGps := ⟨0, 0, ⟨0, 0⟩, ⟨0, 0⟩, .finite 1⟩
  report := report

/-- A report of a gateway without coordinates. -/
def exampleReport : CString :=
  cstr ("\"stat\":\x7b\"time\":\"2025-01-01 00:00:00 GMT\",\"rxnb\":8,\"rxok\":8,\"rxfw\":8," ++
    "\"ackr\":100.0,\"dwnb\":0,\"txnb\":0\x7d")

/-- The widths of that packet are expected ones. -/
theorem expected_longPacket (ref : Option Tref) : longPacket.Expected .reference ref where
  status := by decide
  modulation := by decide
  datarate _ rate := Datarate.noConfusion
  bandwidth _ := by decide
  coderate _ := by decide
  ifChain := by decide
  rfChain := by decide
  rssi := by decide +kernel
  snr := by decide +kernel
  utc localRef _ t ht := by
    cases ht
    decide
  gps localRef _ t ht := by
    cases ht
    decide +kernel

/-- With a small packet everything is in range. -/
theorem push_data_in_range_iff_report :
    let r := pushData .reference (.reference (some exampleReport)) (fun _ => 0) 18 52 [longPacket]
    (r.buff.Within txBuffSize ∧ ∀ datagram ∈ r.sent, datagram.length ≤ txBuffSize) ↔
      UpFits .reference (.reference (some exampleReport)) [longPacket] :=
  push_data_in_range_iff .reference (.reference (some exampleReport)) (fun _ => 0) 18 52
    [longPacket] (List.forall_mem_singleton.mpr (expected_longPacket none).toKnown)

/-- Eight such packets and a report of 99 bytes make a datagram of 4562 bytes, which is written
and sent from a buffer of 4550. -/
theorem not_push_data_in_range :
    let g := UpGateway.reference (some exampleReport)
    let rxpkt := List.replicate nbPktMax longPacket
    let r := pushData .reference g (fun _ => 0) 18 52 rxpkt
    (∀ p ∈ rxpkt, p.Expected .reference (g.localRef rxpkt)) ∧ exampleReport.length < statusSize ∧
      (∀ datagram ∈ r.sent, datagram.length = 4562) ∧ r.sent.length = 1 ∧
      ¬r.buff.Within txBuffSize := by
  intro g rxpkt r
  have hexpected : ∀ p ∈ rxpkt, p.Expected .reference (g.localRef rxpkt) := by
    intro p hp
    rw [List.eq_of_mem_replicate hp]
    exact expected_longPacket _
  obtain ⟨b, hr, hindex, -⟩ := exists_sendDatagram
    (known_of_mem_forwarded fun p hp => (hexpected p hp).toKnown)
    (show g.pktInDgram rxpkt ≠ 0 ∨ g.report ≠ none from .inl (by decide)) (by decide)
    .reference (fun _ => 0) 18 52
  have hlen : datagramLength .reference g rxpkt = 4562 := by decide +kernel
  rw [hlen] at hindex
  have hr' : r = sendDatagram b := hr
  rw [hr']
  refine ⟨hexpected, by decide, ?_, rfl, ?_⟩
  · exact List.forall_mem_singleton.mpr (by rw [length_contents, hindex])
  · intro hwithin
    rcases (within_write.mp hwithin).2 with hnil | hle
    · cases hnil
    · rw [hindex] at hle
      exact absurd hle (by decide)

end PacketForwarder
