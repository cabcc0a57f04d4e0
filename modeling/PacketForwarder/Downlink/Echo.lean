import PacketForwarder.Downlink.Written
import PacketForwarder.Uplink.Accepted

/-!
# A downlink that repeats an uplink

A server may answer with the frequency, the modulation and the data of an uplink, in the words
the gateway has used for them.

* `rxpkFields` — the entry of an uplink, as a server parses it;
* `Repeats` — a request with its fields;
* `echo_understood` — **the gateway reads what it has reported**.
-/

namespace PacketForwarder

/-- The names a request has in common with an entry. -/
def sharedNames : List String := ["freq", "modu", "datr", "codr", "size", "data"]

/-- The fields of an entry, as they are parsed. -/
def rxpkFields (env : UpEnv) (ref : Option Tref) (p : LgwPktRx) : JsonObject :=
  (jsonValueGetObject (some (printedValue (rxpkJson env ref p)))).getD []

/-- What an entry says under the names in common an object says as well. -/
def Repeats (entry txpk : JsonObject) : Prop :=
  ∀ name ∈ sharedNames, ∀ v, jsonObjectGetValue entry name = some v →
    jsonObjectGetValue txpk name = some v

theorem Repeats.cons {entry txpk : JsonObject} (h : Repeats entry txpk) {m : CString × JsonValue}
    (hm : ∀ name ∈ sharedNames, m.1 ≠ cstr name) : Repeats entry (m :: txpk) := by
  intro name hname v hv
  rw [jsonObjectGetValue, List.find?_cons, decide_eq_false (hm name hname)]
  exact h name hname v hv

/-! ## An entry -/

theorem printedMembers_eq (ms : List (PlainText × Json)) :
    printedMembers ms = ms.map fun m => (m.1.bytes, printedValue m.2) := by
  induction ms with
  | nil => rfl
  | cons m ms ih => rw [printedMembers, ih, List.map_cons]

/-- A member that an entry is written with is found in it by its name. -/
theorem getValue_rxpkFields (env : UpEnv) (ref : Option Tref) (p : LgwPktRx) {n : PlainText}
    {v : Json} {ms : List (PlainText × Json)} (hms : rxpkJson env ref p = .object ms)
    (hmem : (n, v) ∈ ms) {name : String} (hname : n.bytes = cstr name) :
    jsonObjectGetValue (rxpkFields env ref p) name = some (printedValue v) := by
  obtain ⟨ms', hms', hleaves⟩ := leaves_rxpkJson env ref p
  cases Json.object.inj (hms.symm.trans hms')
  have hnodup : (ms.map fun m => m.1.bytes).Nodup := hleaves.sublist.nodup (by decide)
  have hfields : rxpkFields env ref p = ms.map fun m => (m.1.bytes, printedValue m.2) := by
    rw [rxpkFields, hms, printedValue, ← printedMembers_eq]
    rfl
  rw [hfields]
  refine jsonObjectGetValue_of_mem ?_ ?_
  · rw [List.map_map]
    exact hnodup
  · rw [← hname]
    exact List.mem_map_of_mem (f := fun m => (m.1.bytes, printedValue m.2)) hmem

theorem loraCoderate_coderateText {coderate : Coderate} (h : coderate ≠ .undefined) :
    loraCoderate (coderateText (some coderate)) = some coderate := by
  cases coderate with
  | undefined => exact absurd rfl h
  | _ => rfl

section
variable {upEnv : UpEnv} {ref : Option Tref} {p : LgwPktRx} {txpk : JsonObject} {env : DownEnv}

/-- A field that the request repeats has the value it has in the entry. -/
theorem Repeats.getValue (h : Repeats (rxpkFields upEnv ref p) txpk) {n : PlainText} {v : Json}
    {ms : List (PlainText × Json)} (hms : rxpkJson upEnv ref p = .object ms) (hmem : (n, v) ∈ ms)
    {name : String} (hname : n.bytes = cstr name) (hshared : name ∈ sharedNames) :
    jsonObjectGetValue txpk name = some (printedValue v) :=
  h name hshared _ (getValue_rxpkFields upEnv ref p hms hmem hname)

theorem Repeats.getString (h : Repeats (rxpkFields upEnv ref p) txpk) {n t : PlainText}
    {ms : List (PlainText × Json)} (hms : rxpkJson upEnv ref p = .object ms)
    (hmem : (n, Json.string t) ∈ ms) {name : String} (hname : n.bytes = cstr name)
    (hshared : name ∈ sharedNames) :
    jsonObjectGetString txpk name = some t.bytes := by
  rw [jsonObjectGetString, h.getValue hms hmem hname hshared]
  exact congrArg some (takeWhile_bytes t)

/-- The modulation is part of the entry. -/
theorem mem_rxpkJson (env : UpEnv) (ref : Option Tref) {p : LgwPktRx} {m : PlainText × Json}
    (hm : m ∈ modulationMembers p) : ∃ ms, rxpkJson env ref p = .object ms ∧ m ∈ ms := by
  refine ⟨_, rfl, ?_⟩
  simp only [List.mem_cons, List.mem_append]
  tauto

theorem Repeats.getModulation (h : Repeats (rxpkFields upEnv ref p) txpk) {n t : PlainText}
    (hm : (n, Json.string t) ∈ modulationMembers p) {name : String} (hname : n.bytes = cstr name)
    (hshared : name ∈ sharedNames) :
    jsonObjectGetString txpk name = some t.bytes := by
  obtain ⟨ms, hms, hmem⟩ := mem_rxpkJson upEnv ref hm
  exact h.getString hms hmem hname hshared

/-- What a packet has of an uplink. -/
structure Echoes (p : LgwPktRx) (p' : LgwPktTx) : Prop where
  /-- The frequency in Hz is that of the uplink, or one hertz less. -/
  freqHz : p'.freqHz.toNat = p.freqHz.toNat ∨ p'.freqHz.toNat + 1 = p.freqHz.toNat
  favourable : Favourable p.freqHz.toNat → p'.freqHz = p.freqHz
  modulation : p'.modulation = p.modulation
  lora : p.modulation = .lora → p'.datarate = p.datarate ∧ p'.bandwidth = p.bandwidth ∧
    some p'.coderate = p.coderate
  fsk : p.modulation = .fsk → p'.datarate = .bps p.datarate.value
  size : p'.size = p.size
  payload : p'.payload.live p'.size.toNat = p.data

/-- The modulation is read again; the other fields stay as they are. -/
theorem Repeats.exists_modulation (h : Repeats (rxpkFields upEnv ref p) txpk) (hp : p.Known)
    (hcoderate : p.modulation = .lora → p.coderate ≠ some .undefined)
    (hfdev : p.modulation = .fsk → jsonObjectGetValue txpk "fdev" ≠ none) (p₀ : LgwPktTx) :
    ∃ p', requestedModulation env txpk p₀ = .ok p' ∧ p'.modulation = p.modulation ∧
      (p.modulation = .lora → p'.datarate = p.datarate ∧ p'.bandwidth = p.bandwidth ∧
        some p'.coderate = p.coderate) ∧
      (p.modulation = .fsk → p'.datarate = .bps p.datarate.value) ∧ p'.freqHz = p₀.freqHz := by
  cases hmodulation : p.modulation with
  | undefined => exact absurd hmodulation hp.modulation
  | lora =>
    obtain ⟨coderate, hc⟩ := Option.ne_none_iff_exists'.mp (hp.coderate hmodulation)
    have hdefined : coderate ≠ .undefined := fun hu => hcoderate hmodulation (by rw [hc, hu])
    have hmodu : jsonObjectGetString txpk "modu" = some (cstr "LORA") :=
      h.getModulation (n := moduName) (t := loraName)
        (by simp [modulationMembers, hmodulation]) rfl (by decide)
    have hdatr : jsonObjectGetString txpk "datr" =
        some (datarateText p.datarate ++ bandwidthText p.bandwidth) :=
      h.getModulation (n := datrName) (t := ⟨_, plain_datr p.datarate p.bandwidth⟩)
        (by simp [modulationMembers, hmodulation]) rfl (by decide)
    have hcodr : jsonObjectGetString txpk "codr" = some (coderateText (some coderate)) := by
      rw [← hc]
      exact h.getModulation (n := codrName) (t := ⟨_, plain_coderateText p.coderate⟩)
        (by simp [modulationMembers, hmodulation]) rfl (by decide)
    have hread : requestedModulation env txpk p₀ = _ :=
      requestedModulation_lora (hp.datarate hmodulation) (hp.bandwidth hmodulation)
        (loraCoderate_coderateText hdefined) hmodu hdatr hcodr p₀
    refine ⟨_, hread, rfl, fun _ => ⟨rfl, rfl, hc.symm⟩, ?_, rfl⟩
    intro hfsk
    cases hfsk
  | fsk =>
    obtain ⟨fdev, hsome⟩ := Option.ne_none_iff_exists'.mp (hfdev hmodulation)
    have hmodu : jsonObjectGetString txpk "modu" = some (cstr "FSK") :=
      h.getModulation (n := moduName) (t := fskName)
        (by simp [modulationMembers, hmodulation]) rfl (by decide)
    obtain ⟨ms, hms, hmem⟩ := mem_rxpkJson upEnv ref (p := p)
      (m := (datrName, unsignedJson p.datarate.value))
      (by simp [modulationMembers, hmodulation])
    have hdatr : jsonObjectGetValue txpk "datr" = some _ := h.getValue hms hmem rfl (by decide)
    have hread : requestedModulation env txpk p₀ = _ :=
      requestedModulation_fsk hmodu hdatr hsome p₀
    rw [castU_unsigned (by decide)] at hread
    refine ⟨_, hread, rfl, ?_, fun _ => rfl, rfl⟩
    intro hlora
    cases hlora

/-- **The gateway reads what it has reported.**  A request that repeats an uplink asks for a packet
with the modulation, the datarate, the bandwidth, the coding rate and the data of the uplink, on
its frequency or one hertz lower. -/
theorem echo_understood (h : Repeats (rxpkFields upEnv ref p) txpk) (hp : p.Known)
    (hfreq : 0 < p.freqHz.toNat)
    (hcoderate : p.modulation = .lora → p.coderate ≠ some .undefined)
    (hfdev : p.modulation = .fsk → jsonObjectGetValue txpk "fdev" ≠ none) {g : Gateway}
    {immediate : Bool} {countUs : U32} {t : JitPktType}
    (htime : requestedTime env g txpk = .ok (immediate, countUs, t))
    (hrfch : jsonObjectGetValue txpk "rfch" ≠ none) :
    ∃ p', requestedPacket env g txpk = .ok (p', t) ∧ Echoes p p' := by
  obtain ⟨rfch, hrfch⟩ := Option.ne_none_iff_exists'.mp hrfch
  have hfreqValue : jsonObjectGetValue txpk "freq" = some _ :=
    h.getValue rfl (n := freqName) (v := .number (freqDecimal p)) (by simp) rfl (by decide)
  have hsize : jsonObjectGetValue txpk "size" = some _ :=
    h.getValue rfl (n := sizeName) (v := unsignedJson p.size) (by simp) rfl (by decide)
  have hdata : jsonObjectGetString txpk "data" = some (base64Text p.data) :=
    h.getString rfl (n := dataName) (t := ⟨base64Text p.data, plain_base64Text p.data⟩)
      (by simp) rfl (by decide)
  have hlen : p.data.length = p.size.toNat := length_data p
  have hmax : p.data.length ≤ payloadMax := by
    have hsizeMax := p.size_le
    simp only [payloadMax]
    omega
  have hunits : microUnits (freqDecimal p) = p.freqHz.toNat := Nat.div_add_mod' _ _
  obtain ⟨hnear, hexact⟩ := toNat_hz_of_decimal env (d := freqDecimal p) rfl rfl (by omega)
    (by rw [hunits]; exact p.freqHz.isLt)
  rw [hunits] at hnear hexact
  obtain ⟨modulated, hread, hmodulation, hlora, hfsk, hhz⟩ := h.exists_modulation hp hcoderate hfdev
    { LgwPktTx.zero with
      countUs := countUs
      noCrc := optionalBool txpk "ncrc"
      freqHz := hzOfMhz env (.ofRat (Scientific.value ⟨freqDecimal p, none⟩))
      rfChain := env.castU 8 (jsonValueGetNumber rfch)
      rfPower := requestedPower env g txpk }
  have hpacket := requestedPacket_eq htime hfreqValue hrfch hread hsize hdata hmax
  rw [castU_unsigned (by decide)] at hpacket
  exact ⟨_, hpacket, {
    freqHz := hhz ▸ hnear
    favourable := fun hf => BitVec.eq_of_toNat_eq ((congrArg BitVec.toNat hhz).trans (hexact hf))
    modulation := hmodulation
    lora := hlora
    fsk := hfsk
    size := rfl
    payload := by
      rw [← hlen]
      exact Slots.live_write _ hmax }⟩

end

/-- An uplink that is sent back at once, on the first RF chain. -/
theorem echo_understood_at_once :
    let txpk := (cstr "imme", .boolean true) :: (cstr "rfch", .number (.finite 0)) ::
      rxpkFields .reference none longPacket
    ∃ p', requestedPacket .reference .reference txpk = .ok (p', .downlinkClassC) ∧
      Echoes longPacket p' := by
  intro txpk
  have hrepeats : Repeats (rxpkFields .reference none longPacket) txpk :=
    Repeats.cons (Repeats.cons (fun _ _ _ hv => hv) (by decide)) (by decide)
  have hrfch : jsonObjectGetValue txpk "rfch" = some (.number (.finite 0)) := rfl
  exact echo_understood hrepeats (expected_longPacket none).toKnown (by decide) (by decide)
    (by decide) rfl (hrfch ▸ Option.some_ne_none _)

end PacketForwarder
