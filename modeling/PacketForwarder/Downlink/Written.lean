import PacketForwarder.Downlink.Indices
import PacketForwarder.Lib.Rounding
import PacketForwarder.Parson.Compact
import PacketForwarder.Uplink.Text

/-!
# What was written for the downlink

The fields of a request, as far as the sender writes them the way the forwarder writes its own.

* `Favourable` — frequencies that lie farther above their power of two in MHz than in Hz;
* `toNat_hz_of_decimal` — **they arrive as they were written**; any other one may arrive one
  hertz lower: `thread_down` cuts off what is behind the point;
* `requestedModulation_lora`, `requestedModulation_fsk` — the modulation;
* `requestedPacket_eq` — all of the packet.
-/

namespace PacketForwarder

open Binary64

/-- `(uint32_t)((double)(1.0e6) * json_value_get_number(val))`. -/
def hzOfMhz (env : DownEnv) (mhz : Binary64) : U32 := env.castU 32 ((finite 1000000).mul mhz)

/-- A number of hertz between a power of two and a million times a power of two. -/
def Favourable (hz : ℕ) : Prop := ∃ m : ℕ, 2 ^ (m + 20) < hz ∧ hz < 10 ^ 6 * 2 ^ (m + 1)

/-- A decimal numeral in MHz, counted in Hz. -/
def microUnits (d : Decimal) : ℕ := d.whole * 10 ^ 6 + d.fraction

theorem value_eq_div {d : Decimal} (hsign : d.negative = false) (hplaces : d.places = 6) :
    Scientific.value ⟨d, none⟩ = microUnits d / 1000000 := by
  simp only [Scientific.value, hsign, hplaces, microUnits, Scientific.exponentToInt,
    Bool.false_eq_true, if_false, one_mul]
  have hpower : powerOf 10 (0 - ((6 : ℕ) : ℤ)) = 1 / 1000000 := by decide +kernel
  rw [hpower]
  push_cast
  ring

/-- **A favourable frequency arrives as it was written**, any other one no more than one hertz
lower. -/
theorem toNat_hz_of_decimal (env : DownEnv) {d : Decimal} (hsign : d.negative = false)
    (hplaces : d.places = 6) (hpos : 0 < microUnits d) (hlt : microUnits d < 2 ^ 32) :
    ((hzOfMhz env (ofRat (Scientific.value ⟨d, none⟩))).toNat = microUnits d ∨
        (hzOfMhz env (ofRat (Scientific.value ⟨d, none⟩))).toNat + 1 = microUnits d) ∧
      (Favourable (microUnits d) →
        (hzOfMhz env (ofRat (Scientific.value ⟨d, none⟩))).toNat = microUnits d) := by
  rw [value_eq_div hsign hplaces]
  generalize microUnits d = hz at hpos hlt ⊢
  have hscale : (finite 1000000).mul (ofRat ((hz : ℚ) / 1000000)) =
      (finite ((1000000 : ℕ) : ℚ)).mul (ofRat ((hz : ℚ) / ((1000000 : ℕ) : ℚ))) := by
    norm_num
  unfold hzOfMhz DownEnv.castU
  rw [hscale]
  constructor
  · rcases truncated_mul_ofRat_div (s := 1000000) (by decide) (by decide) hpos (by omega)
      with hsame | hless
    · exact .inl (toNat_toUnsigned hsame hlt)
    · have hpred : (hz : ℤ) - 1 = (hz - 1 : ℕ) := by omega
      rw [hpred] at hless
      refine .inr ?_
      rw [toNat_toUnsigned hless (by omega)]
      omega
  · rintro ⟨m, hlow, hhigh⟩
    have hm : m + 20 ≤ 52 := by
      have hpow : 2 ^ (m + 20) < 2 ^ 32 := hlow.trans hlt
      have hexp := (Nat.pow_lt_pow_iff_right (by decide)).mp hpow
      omega
    have hexact := mul_ofRat_div (s := 1000000) (n := hz) (b := m + 20) (a := m) (by omega) hm ?_
      hlow ?_
    · rw [hexact, toNat_toUnsigned (truncated_natCast hz) hlt]
    · rw [pow_add, zpow_natCast]
      have hpos : (0 : ℚ) < 2 ^ m := by positivity
      push_cast
      linarith
    · have hexp : ((m : ℤ) + 1) = ((m + 1 : ℕ) : ℤ) := by push_cast; rfl
      rw [hexp, zpow_natCast]
      exact_mod_cast hhigh

/-! ## In a request -/

section
variable {env : DownEnv} {g : Gateway} {txpk : JsonObject} {t : JitPktType}

theorem ok_bind {α β : Type} (a : α) (f : α → Except Abort β) : (Except.ok a >>= f) = f a := rfl

/-- A natural number that fits is converted exactly. -/
theorem castU_natCast {n w : ℕ} (h : n < 2 ^ w) : (env.castU w (finite n)).toNat = n :=
  toNat_toUnsigned (truncated_natCast n) h

/-- A number that is printed with `%u` is read again. -/
theorem castU_unsigned {w : ℕ} (hw : w ≤ 53) (x : BitVec w) :
    env.castU w (jsonValueGetNumber (some (printedValue (unsignedJson x)))) = x := by
  have hsmall : x.toNat < 2 ^ 53 := x.isLt.trans_le (Nat.pow_le_pow_right (by decide) hw)
  refine BitVec.eq_of_toNat_eq ?_
  rw [unsignedJson, printedValue_ofNat hsmall]
  exact castU_natCast x.isLt

/-- A LoRa packet, with the names of the uplinks. -/
theorem requestedModulation_lora {datarate : Datarate} {bandwidth : Bandwidth}
    {coderate : Coderate} {codr : CString} (hrate : ∀ rate, datarate ≠ .bps rate)
    (hband : bandwidth ≠ .undefined) (hcoderate : loraCoderate codr = some coderate)
    (hmodu : jsonObjectGetString txpk "modu" = some (cstr "LORA"))
    (hdatr : jsonObjectGetString txpk "datr" =
      some (datarateText datarate ++ bandwidthText bandwidth))
    (hcodr : jsonObjectGetString txpk "codr" = some codr) (p : LgwPktTx) :
    requestedModulation env txpk p = .ok { p with
      modulation := .lora
      datarate := datarate
      bandwidth := bandwidth
      coderate := coderate
      invertPol := optionalBool txpk "ipol"
      preamble := loraPreamble env txpk } := by
  unfold requestedModulation requestedLora mandatoryString
  rw [hmodu, hdatr, hcodr]
  simp only [Option.elim, ok_bind, if_true, scanDatr_datarateText hrate hband,
    loraDatarate_spreadingFactor hrate, loraBandwidth_kHz hband, hcoderate]
  rfl

/-- An FSK packet with these parameters is read from its fields. -/
theorem requestedModulation_fsk {datr fdev : JsonValue}
    (hmodu : jsonObjectGetString txpk "modu" = some (cstr "FSK"))
    (hdatr : jsonObjectGetValue txpk "datr" = some datr)
    (hfdev : jsonObjectGetValue txpk "fdev" = some fdev) (p : LgwPktTx) :
    requestedModulation env txpk p = .ok { p with
      modulation := .fsk
      datarate := .bps (env.castU 32 (jsonValueGetNumber datr))
      fDev := env.castU 8 ((jsonValueGetNumber fdev).div 1000)
      preamble := fskPreamble env txpk } := by
  have hother : cstr "FSK" ≠ cstr "LORA" := by decide
  unfold requestedModulation requestedFsk mandatoryString mandatory
  rw [hmodu, hdatr, hfdev]
  simp only [Option.elim, ok_bind, if_neg hother, if_true]
  rfl

/-- The payload is decoded from the text it was encoded as. -/
theorem requestedPayload_base64Text {data : List U8} (h : data.length ≤ payloadMax) :
    requestedPayload (base64Text data) = .ok ((Slots.replicate payloadMax 0).write 0 data) := by
  obtain ⟨chars, hchars⟩ := exists_encodedAs data
  rw [requestedPayload, hchars.base64Text_eq, b64ToBin_encoded hchars h]

/-- A packet with all of its fields. -/
theorem requestedPacket_eq {immediate : Bool} {countUs : U32} {freq rfch size : JsonValue}
    {data : List U8} {modulated : LgwPktTx}
    (htime : requestedTime env g txpk = .ok (immediate, countUs, t))
    (hfreq : jsonObjectGetValue txpk "freq" = some freq)
    (hrfch : jsonObjectGetValue txpk "rfch" = some rfch)
    (hmodulation : requestedModulation env txpk { LgwPktTx.zero with
      countUs := countUs
      noCrc := optionalBool txpk "ncrc"
      freqHz := hzOfMhz env (jsonValueGetNumber freq)
      rfChain := env.castU 8 (jsonValueGetNumber rfch)
      rfPower := requestedPower env g txpk } = .ok modulated)
    (hsize : jsonObjectGetValue txpk "size" = some size)
    (hdata : jsonObjectGetString txpk "data" = some (base64Text data))
    (hlen : data.length ≤ payloadMax) :
    requestedPacket env g txpk = .ok ({ modulated with
      size := env.castU 16 (jsonValueGetNumber size)
      payload := (Slots.replicate payloadMax 0).write 0 data
      txMode := if immediate then .immediate else .timestamped }, t) := by
  unfold requestedPacket mandatory mandatoryString
  rw [htime, hfreq, hrfch, hsize, hdata]
  simp only [Option.elim, ok_bind, requestedPayload_base64Text hlen]
  rw [← hzOfMhz, hmodulation]
  rfl

end

end PacketForwarder
