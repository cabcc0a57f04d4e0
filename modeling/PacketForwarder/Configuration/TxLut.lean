import PacketForwarder.Configuration
import PacketForwarder.Downlink.Indices

/-!
# The TX gain table

`parse_SX1301_configuration` reads the objects `tx_lut_0` to `tx_lut_15`, each into the element
of its own number, and counts those that are there; `thread_down` takes the count for the
number of elements in use.

* `txGain` — one element as it is configured;
* `parseTxGainLut` — the loop; `powers_parseTxGainLut` relates it to what `thread_down` reads;
* `tx_lut_exact_iff` — the elements in use are the configured ones, and the power check accepts
  the configured powers, exactly if nothing but zeros is configured after a gap.
-/

namespace PacketForwarder

/-! ## The table -/

/-- `struct lgw_tx_gain_s` with all its fields. -/
structure TxGain extends LgwTxGain where
  digGain : U8
  paGain : U8
  dacGain : U8
  mixGain : U8
  deriving DecidableEq

/-- An element after `memset(&txlut, 0, sizeof txlut)`. -/
def TxGain.zero : TxGain := ⟨⟨0⟩, 0, 0, 0, 0⟩

/-- `struct lgw_tx_gain_lut_s`. -/
structure TxGainLut where
  lut : Slots TxGain txGainLutSizeMax
  size : U8

/-- The part of the gain table that `thread_down` reads is its powers. -/
def TxGainLut.powers (txlut : TxGainLut) : LgwTxGainLut :=
  ⟨txlut.lut.map TxGain.toLgwTxGain, txlut.size⟩

/-! ## The configuration -/

/-- A field of an element that is a number, or else its default. -/
def gainField (conf : JsonObject) (path : List String) (convert : Binary64 → U8) (default : U8) :
    U8 :=
  match jsonObjectDotgetValue (some conf) path with
  | some (.number x) => convert x
  | _ => default

/-- The object `tx_lut_i`, if there is one. -/
def txGain (env : ConfEnv) (conf : JsonObject) (i : ℕ) : Option TxGain :=
  let name := "tx_lut_" ++ toString i
  let unsigned (x : Binary64) : U8 := x.toUnsigned env.castOutside 8
  let signed (x : Binary64) : U8 := x.toSigned env.castOutside 8
  match jsonObjectGetValue conf name with
  | some (.object _) =>
    some
      { paGain := gainField conf [name, "pa_gain"] unsigned 0
        dacGain := gainField conf [name, "dac_gain"] unsigned 3
        digGain := gainField conf [name, "dig_gain"] unsigned 0
        mixGain := gainField conf [name, "mix_gain"] unsigned 0
        rfPower := gainField conf [name, "rf_power"] signed 0 }
  | _ => none

/-- One pass of the loop reads the object of one index. -/
def TxGainLut.read (f : ℕ → Option TxGain) (txlut : TxGainLut) (i : ℕ) : TxGainLut :=
  match f i with
  | some gain => ⟨txlut.lut.set i gain, txlut.size + 1⟩
  | none => txlut

/-- The gain table as the loop over all indices leaves it. -/
def parseTxGainLut (env : ConfEnv) (conf : JsonObject) : TxGainLut :=
  (List.range txGainLutSizeMax).foldl (TxGainLut.read (txGain env conf))
    ⟨.replicate txGainLutSizeMax .zero, 0⟩

/-- The elements that are configured, by their numbers. -/
def configuredGains (env : ConfEnv) (conf : JsonObject) : List TxGain :=
  (List.range txGainLutSizeMax).filterMap (txGain env conf)

/-! ## The loop -/

/-- Every pass sets an element and counts it, or does nothing. -/
theorem foldl_read (f : ℕ → Option TxGain) (l : List ℕ) (txlut : TxGainLut) :
    l.foldl (TxGainLut.read f) txlut =
      ⟨txlut.lut.setSome f l, txlut.size + BitVec.ofNat 8 (l.filterMap f).length⟩ := by
  induction l generalizing txlut with
  | nil => simp [Slots.setSome]
  | cons i l ih =>
    rw [List.foldl_cons, ih]
    unfold TxGainLut.read
    cases hi : f i with
    | none => simp [Slots.setSome, hi]
    | some gain =>
      simp only [Slots.setSome, List.foldl_cons, hi, Option.elim_some,
        List.filterMap_cons_some hi, List.length_cons, TxGainLut.mk.injEq, true_and]
      rw [Nat.add_comm, BitVec.ofNat_add, BitVec.add_assoc]
      rfl

theorem lut_parseTxGainLut (env : ConfEnv) (conf : JsonObject) :
    (parseTxGainLut env conf).lut =
      .setSome (txGain env conf) (List.range txGainLutSizeMax) (.replicate _ .zero) := by
  rw [parseTxGainLut, foldl_read]

/-- The count of the gain table is the number of its objects, since it does not wrap. -/
theorem size_parseTxGainLut (env : ConfEnv) (conf : JsonObject) :
    (parseTxGainLut env conf).size.toNat = (configuredGains env conf).length := by
  have hle : (configuredGains env conf).length ≤ txGainLutSizeMax := by
    have hfilter := List.length_filterMap_le (txGain env conf) (List.range txGainLutSizeMax)
    rwa [List.length_range] at hfilter
  rw [parseTxGainLut, foldl_read]
  show (0 + BitVec.ofNat 8 (configuredGains env conf).length).toNat = _
  rw [zero_add, BitVec.toNat_ofNat]
  exact Nat.mod_eq_of_lt (hle.trans_lt (by decide))

/-- **What `thread_down` reads** is the table of the powers that are configured. -/
theorem powers_parseTxGainLut (env : ConfEnv) (conf : JsonObject) :
    (parseTxGainLut env conf).powers =
      parseTxLut fun i => (txGain env conf i).map TxGain.toLgwTxGain := by
  have hstart : TxGainLut.powers ⟨.replicate txGainLutSizeMax .zero, 0⟩ =
      ⟨.replicate txGainLutSizeMax ⟨0⟩, 0⟩ := by
    have hmap : (Slots.replicate txGainLutSizeMax TxGain.zero).map TxGain.toLgwTxGain =
        .replicate txGainLutSizeMax ⟨0⟩ := Slots.ext List.map_replicate
    rw [TxGainLut.powers, hmap]
  unfold parseTxLut parseTxGainLut
  rw [← hstart]
  refine (List.foldl_hom TxGainLut.powers fun txlut i => ?_).symm
  unfold TxGainLut.read
  dsimp only
  cases txGain env conf i with
  | none => rfl
  | some gain =>
    have hset : (txlut.lut.set i gain).map TxGain.toLgwTxGain =
        (txlut.lut.map TxGain.toLgwTxGain).set i gain.toLgwTxGain := Slots.ext List.map_set
    simp only [Option.map_some, TxGainLut.powers, hset]

/-! ## The elements in use -/

/-- **The table is exact**: the elements in use are those configured, in order, and the power
check of `thread_down` accepts what one of them has. -/
structure TxLutExact (env : ConfEnv) (conf : JsonObject) : Prop where
  elements : (parseTxGainLut env conf).lut.live (parseTxGainLut env conf).size.toNat =
    configuredGains env conf
  powers : ∀ rfPower, powerSupported (parseTxGainLut env conf).powers rfPower = true ↔
    ∃ gain ∈ configuredGains env conf, gain.rfPower = rfPower

/-- The elements in use are the configured ones unless one that is not zero comes after a
gap. -/
theorem live_parseTxGainLut_iff (env : ConfEnv) (conf : JsonObject) :
    (parseTxGainLut env conf).lut.live (parseTxGainLut env conf).size.toNat =
        configuredGains env conf ↔
      ∀ i j, i < j → j < txGainLutSizeMax → txGain env conf i = none →
        ∀ gain ∈ txGain env conf j, gain = .zero := by
  rw [size_parseTxGainLut, lut_parseTxGainLut]
  exact Slots.live_setSome_eq_iff (txGain env conf) .zero

/-- **When the table is exact**: for any configuration, exactly if all elements configured after
a number that is missing are zero. -/
theorem tx_lut_exact_iff (env : ConfEnv) (conf : JsonObject) :
    TxLutExact env conf ↔
      ∀ i j, i < j → j < txGainLutSizeMax → txGain env conf i = none →
        ∀ gain ∈ txGain env conf j, gain = .zero := by
  rw [← live_parseTxGainLut_iff]
  refine ⟨fun h => h.elements, fun h => ⟨h, fun rfPower => ?_⟩⟩
  have hpowers : (parseTxGainLut env conf).powers.lut.live
      (parseTxGainLut env conf).powers.size.toNat =
        (configuredGains env conf).map TxGain.toLgwTxGain := by
    rw [← h]
    exact Slots.live_map _ _ _
  unfold powerSupported
  rw [hpowers]
  simp

/-- Two elements, with a number between them missing. -/
def gappedConf : JsonObject :=
  [(cstr "tx_lut_0", .object [(cstr "rf_power", .number (.finite 14))]),
    (cstr "tx_lut_2", .object [(cstr "rf_power", .number (.finite 20))])]

/-- The second element is not among the two in use. -/
theorem tx_lut_gap : ¬TxLutExact acceptingConfEnv gappedConf := by
  intro h
  have hmissing : txGain acceptingConfEnv gappedConf 1 = none := rfl
  obtain ⟨gain, hgain, hdac⟩ : ∃ gain, txGain acceptingConfEnv gappedConf 2 = some gain ∧
      gain.dacGain = 3 := ⟨_, rfl, rfl⟩
  have hzero := (live_parseTxGainLut_iff _ _).mp h.elements 1 2 (by decide) (by decide) hmissing
    gain hgain
  rw [hzero] at hdac
  exact absurd hdac (by decide)

end PacketForwarder
