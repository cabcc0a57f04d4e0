import PacketForwarder.Beacon
import PacketForwarder.Downlink
import PacketForwarder.Lifecycle
import PacketForwarder.Uplink

/-!
# The gateway configuration

The settings of the gateway, and `parse_gateway_configuration`, which reads them from a file
one by one and answers with an error when it comes to a beacon period that is too short.

* `GatewaySettings` — the settings; `GatewaySettings.initial` what they are before any file;
* `parseGatewayConfiguration` — its result and the settings it leaves;
* `Parsed` — what it can do: nothing, all of an object, or what comes before the period and
  the period.
-/

namespace PacketForwarder

/-! ## The settings -/

/-- The settings that the gateway part of a configuration file makes. -/
structure GatewaySettings extends BeaconConf where
  lgwm : BitVec 64
  servAddr : CString
  servPortUp : CString
  servPortDown : CString
  /-- The keepalive interval, an `int`, in seconds. -/
  keepaliveTime : BitVec 32
  statInterval : U32
  /-- `push_timeout_half.tv_usec`. -/
  pushTimeoutHalf : BitVec 64
  fwdValidPkt : Bool
  fwdErrorPkt : Bool
  fwdNocrcPkt : Bool
  gpsTtyPath : CString
  /-- `reference_coord`. -/
  referenceLat : Binary64
  referenceLon : Binary64
  referenceAlt : BitVec 16
  gpsFakeEnable : Bool
  autoquitThreshold : U32

/-- The settings of a program that has just been loaded. -/
def GatewaySettings.initial : GatewaySettings where
  lgwm := 0
  servAddr := cstr "127.0.0.1"
  servPortUp := cstr "1780"
  servPortDown := cstr "1782"
  keepaliveTime := 5
  statInterval := 30
  pushTimeoutHalf := 100 * 500
  fwdValidPkt := true
  fwdErrorPkt := false
  fwdNocrcPkt := false
  gpsTtyPath := []
  referenceLat := .finite 0
  referenceLon := .finite 0
  referenceAlt := 0
  gpsFakeEnable := false
  beaconPeriod := 0
  beaconFreqHz := 869525000
  beaconFreqNb := 1
  beaconFreqStep := 0
  beaconDatarate := 9
  beaconBwHz := 125000
  beaconPower := 14
  beaconInfodesc := 0
  autoquitThreshold := 0

/-- `gps_tty_path[0] != '\0'`. -/
def GatewaySettings.gpsPath (s : GatewaySettings) : Bool := !s.gpsTtyPath.isEmpty

/-! ## Files -/

/-- A configuration file, as `main` finds it. -/
inductive ConfFile
  /-- `access(path, R_OK)` fails. -/
  | unreadable
  /-- `json_parse_file_with_comments` returns a null pointer. -/
  | noJson
  | json (root : JsonValue)

/-- `access(path, R_OK) == 0`. -/
def ConfFile.readable : ConfFile → Bool
  | unreadable => false
  | noJson | json _ => true

/-- The file is a JSON text. -/
def ConfFile.isJson : ConfFile → Bool
  | unreadable | noJson => false
  | json _ => true

/-- The object of the given name. -/
def ConfFile.object (name : String) : ConfFile → Option JsonObject
  | json root => (jsonValueGetObject (some root)).bind fun object => jsonObjectGetObject object name
  | unreadable | noJson => none

/-- What the configuration depends on and is not modelled here. -/
structure ConfEnv where
  /-- A conversion to an integer type the number does not fit. -/
  castOutside : (w : ℕ) → Binary64 → BitVec w
  /-- Whether `parse_SX1301_configuration` and the HAL accept an object `SX1301_conf`. -/
  sx1301Accepts : CfgFile → JsonObject → Bool

/-- A concentrator that accepts every setting it is given. -/
def acceptingConfEnv : ConfEnv where
  castOutside _ _ := 0
  sx1301Accepts _ _ := true

/-- `parse_SX1301_configuration`. -/
def parseSX1301Configuration (env : ConfEnv) (name : CfgFile) (file : ConfFile) : CallResult :=
  match file with
  | .json _ =>
    match file.object "SX1301_conf" with
    | some conf => if env.sx1301Accepts name conf then .ok else .fails
    | none => .fails
  | .unreadable | .noJson => .exits

/-! ## Fields -/

/-- `sscanf(str, "%llx", &ull)`, with zero in `ull`. -/
def scanLlx (str : CString) : BitVec 64 :=
  let str := str.dropWhile isSpaceByte
  let negative := str.head? = some 45
  let str := if negative ∨ str.head? = some 43 then str.drop 1 else str
  let str := if str.take 2 = cstr "0x" ∨ str.take 2 = cstr "0X" then str.drop 2 else str
  let value := (str.takeWhile fun x => (hexDigit x).isSome).foldl
    (fun v x => 16 * v + (hexDigit x).getD 0) 0
  if 2 ^ 64 ≤ value then BitVec.allOnes 64
  else if negative then -BitVec.ofNat 64 value
  else BitVec.ofNat 64 value
where
  /-- The value of a hexadecimal digit. -/
  hexDigit (x : U8) : Option ℕ :=
    if 48 ≤ x ∧ x ≤ 57 then some (x.toNat - 48)
    else if 97 ≤ x ∧ x ≤ 102 then some (x.toNat - 87)
    else if 65 ≤ x ∧ x ≤ 70 then some (x.toNat - 55)
    else none

/-- `STRNCPY_SAFE`, up to the terminator. -/
def strncpySafe (src : CString) (n : ℕ) : CString := src.take (n - 1)

section

variable (conf : JsonObject) (name : String)

/-- A field that is there is read as a number, whatever it is. -/
def onNumber (assign : Binary64 → GatewaySettings → GatewaySettings) (s : GatewaySettings) :
    GatewaySettings :=
  match jsonObjectGetValue conf name with
  | some val => assign (jsonValueGetNumber (some val)) s
  | none => s

/-- Take a field over if it is a string. -/
def onString (assign : CString → GatewaySettings → GatewaySettings) (s : GatewaySettings) :
    GatewaySettings :=
  match jsonObjectGetString conf name with
  | some str => assign str s
  | none => s

/-- A field that is `true` or `false`. -/
def onBoolean (assign : Bool → GatewaySettings → GatewaySettings) (s : GatewaySettings) :
    GatewaySettings :=
  match jsonObjectGetValue conf name with
  | some (.boolean b) => assign b s
  | _ => s

end

/-- `serv_port_up` and `serv_port_down`: eight bytes, printed as a `uint16_t`. -/
def servPort (env : ConfEnv) (x : Binary64) : CString :=
  (formatUnsigned (x.toUnsigned env.castOutside 16)).take (8 - 1)

/-- The fields that are read before the beacon period. -/
def assignBeforePeriod (env : ConfEnv) (conf : JsonObject) (s : GatewaySettings) :
    GatewaySettings :=
  s |> onString conf "gateway_ID" (fun str s => { s with lgwm := scanLlx str })
    |> onString conf "server_address" (fun str s => { s with servAddr := strncpySafe str 65 })
    |> onNumber conf "serv_port_up" (fun x s => { s with servPortUp := servPort env x })
    |> onNumber conf "serv_port_down" (fun x s => { s with servPortDown := servPort env x })
    |> onNumber conf "keepalive_interval"
      (fun x s => { s with keepaliveTime := x.toSigned env.castOutside 32 })
    |> onNumber conf "stat_interval"
      (fun x s => { s with statInterval := x.toUnsigned env.castOutside 32 })
    |> onNumber conf "push_timeout_ms"
      (fun x s => { s with pushTimeoutHalf := 500 * x.toSigned env.castOutside 64 })
    |> onBoolean conf "forward_crc_valid" (fun b s => { s with fwdValidPkt := b })
    |> onBoolean conf "forward_crc_error" (fun b s => { s with fwdErrorPkt := b })
    |> onBoolean conf "forward_crc_disabled" (fun b s => { s with fwdNocrcPkt := b })
    |> onString conf "gps_tty_path" (fun str s => { s with gpsTtyPath := strncpySafe str 65 })
    |> onNumber conf "ref_latitude" (fun x s => { s with referenceLat := x })
    |> onNumber conf "ref_longitude" (fun x s => { s with referenceLon := x })
    |> onNumber conf "ref_altitude"
      (fun x s => { s with referenceAlt := x.toSigned env.castOutside 16 })
    |> onBoolean conf "fake_gps" (fun b s => { s with gpsFakeEnable := b })

/-- The fields that are read after the beacon period. -/
def assignAfterPeriod (env : ConfEnv) (conf : JsonObject) (s : GatewaySettings) :
    GatewaySettings :=
  s |> onNumber conf "beacon_freq_hz"
      (fun x s => { s with beaconFreqHz := x.toUnsigned env.castOutside 32 })
    |> onNumber conf "beacon_freq_nb"
      (fun x s => { s with beaconFreqNb := x.toUnsigned env.castOutside 8 })
    |> onNumber conf "beacon_freq_step"
      (fun x s => { s with beaconFreqStep := x.toUnsigned env.castOutside 32 })
    |> onNumber conf "beacon_datarate"
      (fun x s => { s with beaconDatarate := x.toUnsigned env.castOutside 8 })
    |> onNumber conf "beacon_bw_hz"
      (fun x s => { s with beaconBwHz := x.toUnsigned env.castOutside 32 })
    |> onNumber conf "beacon_power"
      (fun x s => { s with beaconPower := x.toSigned env.castOutside 8 })
    |> onNumber conf "beacon_infodesc"
      (fun x s => { s with beaconInfodesc := x.toUnsigned env.castOutside 8 })
    |> onNumber conf "autoquit_threshold"
      (fun x s => { s with autoquitThreshold := x.toUnsigned env.castOutside 32 })

/-- The beacon period of a configuration, where the field is there. -/
def confPeriod (env : ConfEnv) (conf : JsonObject) : Option U32 :=
  (jsonObjectGetValue conf "beacon_period").map fun val =>
    (jsonValueGetNumber (some val)).toUnsigned env.castOutside 32

/-- "invalid configuration for Beacon period, must be >= 6s". -/
def InvalidPeriod (period : U32) : Prop := 0 < period ∧ period < 6

instance (period : U32) : Decidable (InvalidPeriod period) :=
  inferInstanceAs (Decidable (_ ∧ _))

/-- **`parse_gateway_configuration`.**  The period is assigned before it is looked at. -/
def parseGatewayConfiguration (env : ConfEnv) (file : ConfFile) (s : GatewaySettings) :
    CallResult × GatewaySettings :=
  match file with
  | .unreadable | .noJson => (.exits, s)
  | .json _ =>
    match file.object "gateway_conf" with
    | none => (.fails, s)
    | some conf =>
      let s := assignBeforePeriod env conf s
      match confPeriod env conf with
      | none => (.ok, assignAfterPeriod env conf s)
      | some period =>
        let s := { s with beaconPeriod := period }
        if InvalidPeriod s.beaconPeriod then (.fails, s)
        else (.ok, assignAfterPeriod env conf s)

/-! ## What the parser can do -/

section

variable {β : Type*} {conf : JsonObject} {name : String} {s : GatewaySettings}

/-- What an assignment keeps, a field keeps. -/
theorem onNumber_frame (f : GatewaySettings → β)
    {assign : Binary64 → GatewaySettings → GatewaySettings}
    (h : ∀ x s, f (assign x s) = f s) : f (onNumber conf name assign s) = f s := by
  unfold onNumber
  split
  · exact h _ _
  · rfl

theorem onString_frame (f : GatewaySettings → β)
    {assign : CString → GatewaySettings → GatewaySettings}
    (h : ∀ x s, f (assign x s) = f s) : f (onString conf name assign s) = f s := by
  unfold onString
  split
  · exact h _ _
  · rfl

theorem onBoolean_frame (f : GatewaySettings → β)
    {assign : Bool → GatewaySettings → GatewaySettings}
    (h : ∀ x s, f (assign x s) = f s) : f (onBoolean conf name assign s) = f s := by
  unfold onBoolean
  split
  · exact h _ _
  · rfl

end

variable {env : ConfEnv} {conf : JsonObject} {s : GatewaySettings}

/-- The other fields leave the period alone. -/
theorem beaconPeriod_assignBeforePeriod :
    (assignBeforePeriod env conf s).beaconPeriod = s.beaconPeriod := by
  simp [assignBeforePeriod, onNumber_frame (fun s => s.beaconPeriod),
    onString_frame (fun s => s.beaconPeriod), onBoolean_frame (fun s => s.beaconPeriod)]

theorem beaconPeriod_assignAfterPeriod :
    (assignAfterPeriod env conf s).beaconPeriod = s.beaconPeriod := by
  simp [assignAfterPeriod, onNumber_frame (fun s => s.beaconPeriod)]

/-- **What the parser can do**: nothing; or it stops at the period, with that and all before
it assigned; or it takes all of the object. -/
inductive Parsed (env : ConfEnv) (file : ConfFile) (s : GatewaySettings) :
    CallResult × GatewaySettings → Prop
  | exits (hjson : file.isJson = false) : Parsed env file s (.exits, s)
  | missing (hjson : file.isJson = true) (h : file.object "gateway_conf" = none) :
      Parsed env file s (.fails, s)
  | rejected {conf : JsonObject} {period : U32} {s' : GatewaySettings}
      (h : file.object "gateway_conf" = some conf) (hperiod : confPeriod env conf = some period)
      (hinvalid : InvalidPeriod period) (hs : s'.beaconPeriod = period) :
      Parsed env file s (.fails, s')
  | taken {conf : JsonObject} {s' : GatewaySettings}
      (h : file.object "gateway_conf" = some conf)
      (hvalid : ∀ period ∈ confPeriod env conf, ¬InvalidPeriod period)
      (hs : s'.beaconPeriod = (confPeriod env conf).getD s.beaconPeriod) :
      Parsed env file s (.ok, s')

theorem parsed (env : ConfEnv) (file : ConfFile) (s : GatewaySettings) :
    Parsed env file s (parseGatewayConfiguration env file s) := by
  unfold parseGatewayConfiguration
  split
  · exact .exits rfl
  · exact .exits rfl
  · split
    · rename_i hconf
      exact .missing rfl hconf
    · rename_i conf hconf
      dsimp only
      split
      · rename_i hperiod
        refine .taken hconf ?_ ?_
        · simp [hperiod]
        · simp [hperiod, beaconPeriod_assignAfterPeriod, beaconPeriod_assignBeforePeriod]
      · rename_i period hperiod
        split
        · rename_i hinvalid
          exact .rejected hconf hperiod hinvalid rfl
        · rename_i hvalid
          refine .taken hconf ?_ ?_
          · simpa [hperiod] using hvalid
          · simp [hperiod, beaconPeriod_assignAfterPeriod]

/-- **The period is assigned in any case**, if the file gives one. -/
theorem beaconPeriod_parseGatewayConfiguration (env : ConfEnv) (file : ConfFile)
    (s : GatewaySettings) :
    (parseGatewayConfiguration env file s).2.beaconPeriod =
      ((file.object "gateway_conf").bind (confPeriod env)).getD s.beaconPeriod := by
  have hparsed := parsed env file s
  generalize parseGatewayConfiguration env file s = result at hparsed ⊢
  cases hparsed with
  | exits hjson =>
    cases file with
    | unreadable => rfl
    | noJson => rfl
    | json root => cases hjson
  | missing hjson h => rw [h, Option.bind_none, Option.getD_none]
  | rejected h hperiod hinvalid hs => rw [h, Option.bind_some, hperiod, hs, Option.getD_some]
  | taken h hvalid hs => rw [h, Option.bind_some, hs]

end PacketForwarder
