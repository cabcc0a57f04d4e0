import PacketForwarder.Configuration

/-!
# The configuration files

`main` reads a debug file alone, or a global file and then a local one, or a local one alone,
before it does anything else.

* `Startup.Step` — `main` with the settings: what the calls of the configuration answer is
  determined by the files, all later calls may answer anything;
* `ConfigurationKept` — no thread is created with a beacon period that is too short, and a
  local configuration that is rejected changes nothing;
* `configuration_kept_iff` — exactly when that is so: the result of the parser is not looked at
  for a local file that comes after a global one.
-/

namespace PacketForwarder

/-! ## `main` with its settings -/

/-- The three configuration files, each of which may be missing. -/
structure ConfFiles where
  debugConf : ConfFile
  globalConf : ConfFile
  localConf : ConfFile

/-- The file of the given name. -/
def ConfFiles.file (files : ConfFiles) : CfgFile → ConfFile
  | .debug => files.debugConf
  | .global => files.globalConf
  | .localToo | .localOnly => files.localConf

/-- What a call of the configuration answers, and the settings it leaves. -/
def confCall (env : ConfEnv) (files : ConfFiles) (s : GatewaySettings) :
    MainPc → Option (CallResult × GatewaySettings)
  | .access name => some (if (files.file name).readable then .ok else .fails, s)
  | .parseSX1301 name => some (parseSX1301Configuration env name (files.file name), s)
  | .parseGateway name => some (parseGatewayConfiguration env (files.file name) s)
  | _ => none

/-- `main`, its threads and the settings. -/
structure Startup where
  life : Lifecycle
  settings : GatewaySettings
  /-- What the global configuration left: recorded for the statements. -/
  afterGlobal : Option GatewaySettings
  /-- Whether the local configuration was rejected after a global one: likewise. -/
  localRejected : Bool

namespace Startup

/-- A call of the configuration returns. -/
def configure (x : Startup) (r : CallResult) (s : GatewaySettings) : Startup where
  life := x.life.call s.gpsPath r
  settings := s
  afterGlobal := if x.life.pc = .parseGateway .global then some s else x.afterGlobal
  localRejected :=
    if x.life.pc = .parseGateway .localToo then decide (r = .fails) else x.localRejected

/-- The transitions of `main` while it reads the files. -/
inductive Step (env : ConfEnv) (files : ConfFiles) : Startup → LifeLabel → Startup → Prop
  | configure {x : Startup} {r : CallResult} {s : GatewaySettings}
      (h : confCall env files x.settings x.life.pc = some (r, s)) :
      Step env files x (.call r) (x.configure r s)
  | call {x : Startup} {r : CallResult}
      (h : confCall env files x.settings x.life.pc = none) (hlife : x.life.Enabled (.call r)) :
      Step env files x (.call r) { x with life := x.life.call x.settings.gpsPath r }
  | ends {x : Startup} {w : Worker} (hlife : x.life.Enabled (.ends w)) :
      Step env files x (.ends w) { x with life := x.life.ends w }

/-- `start()` is called, with the settings there are. -/
def start (gpsEnabled : Bool) (s : GatewaySettings) : Startup :=
  ⟨Lifecycle.start gpsEnabled, s, none, false⟩

/-- The states that some run of one `start()` reaches. -/
abbrev Reachable (env : ConfEnv) (files : ConfFiles) (gpsEnabled : Bool) (s₀ : GatewaySettings)
    (x : Startup) : Prop :=
  Runs.Reaches (Step env files) Runs.anyStep (start gpsEnabled s₀) x

/-- `main` creates its threads, or has created them. -/
def Spawning (x : Startup) : Prop := 3 ≤ x.life.pc.stage ∧ x.life.pc.stage < 12

/-- **What the configuration is to see to.** -/
structure ConfigurationKept (x : Startup) : Prop where
  period : x.Spawning → x.settings.beaconPeriod = 0 ∨ 6 ≤ x.settings.beaconPeriod.toNat
  localKept : x.localRejected = true → x.afterGlobal = some x.settings

/-- **Every step is one of `main` and its threads.** -/
theorem Step.life {env : ConfEnv} {files : ConfFiles} {x x' : Startup} {l : LifeLabel}
    (h : Step env files x l x') : Lifecycle.Step x'.settings.gpsPath x.life l x'.life := by
  cases h with
  | configure h =>
    refine ⟨fun w hw => ?_, rfl⟩
    rw [hw] at h
    cases h
  | call h hlife => exact ⟨hlife, rfl⟩
  | ends hlife => exact ⟨hlife, rfl⟩

end Startup

/-! ## The files that are taken -/

section

variable (env : ConfEnv) (files : ConfFiles)

/-- Both parsers of the configuration accept what is in a file. -/
structure Accepts (name : CfgFile) (conf : JsonObject) : Prop where
  sx1301 : parseSX1301Configuration env name (files.file name) = .ok
  object : (files.file name).object "gateway_conf" = some conf
  valid : ∀ period ∈ confPeriod env conf, ¬InvalidPeriod period

/-- **A global configuration is overridden** by a local one that is not valid. -/
structure Overridden : Prop where
  debugConf : files.debugConf.readable = false
  globalConf : ∃ conf, Accepts env files .global conf
  localConf : ∃ conf, files.localConf.object "gateway_conf" = some conf ∧
    ∃ period ∈ confPeriod env conf, InvalidPeriod period

/-- No file gives a beacon period, among those that `main` reads to get past the
configuration. -/
inductive PeriodUnset : Prop
  | debug {conf : JsonObject} (h : Accepts env files .debug conf)
      (hunset : confPeriod env conf = none)
  | global {conf : JsonObject} (hdebug : files.debugConf.readable = false)
      (h : Accepts env files .global conf) (hunset : confPeriod env conf = none)
      (hlocal : files.localConf.readable = true → files.localConf.isJson = true ∧
        ∀ conf' ∈ files.localConf.object "gateway_conf", confPeriod env conf' = none)
  | localOnly {conf : JsonObject} (hdebug : files.debugConf.readable = false)
      (hglobal : files.globalConf.readable = false) (h : Accepts env files .localOnly conf)
      (hunset : confPeriod env conf = none)

end

/-! ## Getting past the configuration -/

theorem not_invalidPeriod_iff {period : U32} :
    ¬InvalidPeriod period ↔ period = 0 ∨ 6 ≤ period.toNat := by
  unfold InvalidPeriod
  bv_omega

namespace Startup

variable {env : ConfEnv} {files : ConfFiles} {s₀ : GatewaySettings}

/-- What is known of the files when a parser is called, other than on a local file after a
global one. -/
def Comes (files : ConfFiles) : CfgFile → Prop
  | .debug => True
  | .global => files.debugConf.readable = false
  | .localToo => False
  | .localOnly => files.debugConf.readable = false ∧ files.globalConf.readable = false

/-- **The invariant**, for a configuration that is not overridden and settings that are not
left as they were with too short a period. -/
inductive Ok (env : ConfEnv) (files : ConfFiles) (s₀ : GatewaySettings) : Startup → Prop
  | access {name : CfgFile} {gpsEnabled : Bool} {workers : Worker → WorkerState}
      (hcomes : Comes files name) :
      Ok env files s₀ ⟨⟨.access name, gpsEnabled, workers⟩, s₀, none, false⟩
  | parseSX1301 {name : CfgFile} {gpsEnabled : Bool} {workers : Worker → WorkerState}
      (hcomes : Comes files name) :
      Ok env files s₀ ⟨⟨.parseSX1301 name, gpsEnabled, workers⟩, s₀, none, false⟩
  | parseGateway {name : CfgFile} {gpsEnabled : Bool} {workers : Worker → WorkerState}
      (hcomes : Comes files name)
      (hsx1301 : parseSX1301Configuration env name (files.file name) = .ok) :
      Ok env files s₀ ⟨⟨.parseGateway name, gpsEnabled, workers⟩, s₀, none, false⟩
  | localToo {pc : MainPc} {gpsEnabled : Bool} {workers : Worker → WorkerState}
      {s : GatewaySettings} {conf : JsonObject}
      (hpc : pc = .access .localToo ∨ pc = .parseSX1301 .localToo ∨ pc = .parseGateway .localToo)
      (hdebug : files.debugConf.readable = false) (hglobal : Accepts env files .global conf)
      (hs : s.beaconPeriod = (confPeriod env conf).getD s₀.beaconPeriod) :
      Ok env files s₀ ⟨⟨pc, gpsEnabled, workers⟩, s, some s, false⟩
  | configured {x : Startup} (hstage : x.life.pc.stage ≠ 0)
      (hperiod : x.life.pc.stage < 12 → ¬InvalidPeriod x.settings.beaconPeriod)
      (hlocal : x.localRejected = true → x.afterGlobal = some x.settings) : Ok env files s₀ x

theorem stage_startGps (life : Lifecycle) (gpsPath : Bool) :
    (life.startGps gpsPath).pc.stage ≠ 0 := by
  cases gpsPath with
  | true => exact Nat.one_ne_zero
  | false => exact two_ne_zero

/-- Past the configuration `main` does not come back to it, nor from its end to anything
before. -/
theorem stage_call {life : Lifecycle} (gpsPath : Bool) (r : CallResult)
    (h : life.pc.stage ≠ 0) :
    (life.call gpsPath r).pc.stage ≠ 0 ∧
      ((life.call gpsPath r).pc.stage < 12 → life.pc.stage < 12) := by
  have hcalled := Lifecycle.called_call gpsPath life r
  generalize life.call gpsPath r = life' at hcalled ⊢
  obtain ⟨pc, gpsEnabled, workers⟩ := life
  cases hcalled with
  | @leads _ pc' hleads =>
    show pc'.stage ≠ 0 ∧ (pc'.stage < 12 → pc.stage < 12)
    cases hleads with
    | configure h0 => exact absurd h0 h
    | startGps h0 => exact absurd h0 h
    | skipGps h0 => exact absurd h0 h
    | network h2 h2' =>
      change pc.stage = 2 at h2
      exact ⟨by omega, fun _ => by omega⟩
    | joined hnext hpc => rcases hpc with rfl | rfl <;> simp [MainPc.stage]
    | _ => simp [MainPc.stage]
  | gpsEnable hpc =>
    obtain rfl : pc = _ := hpc
    simp [MainPc.stage]
  | @create w hpc =>
    obtain rfl : pc = _ := hpc
    refine ⟨?_, fun _ => ?_⟩
    · cases w.next gpsEnabled <;> simp [MainPc.stage]
    · cases w <;> simp [MainPc.stage, Worker.rank]
  | fails hr hpc => simp [Lifecycle.exitFailure, MainPc.stage]
  | createFails hr hpc => simp [Lifecycle.exitFailure, MainPc.stage]

/-- The other calls do not read the files. -/
theorem confCall_eq_none {s : GatewaySettings} {pc : MainPc} (hstage : pc.stage ≠ 0) :
    confCall env files s pc = none := by
  cases pc with
  | access name => exact absurd rfl hstage
  | parseSX1301 name => exact absurd rfl hstage
  | parseGateway name => exact absurd rfl hstage
  | _ => rfl

/-- The calls after the configuration do not touch the settings. -/
theorem Ok.life {x : Startup} {life : Lifecycle}
    (hperiod : x.life.pc.stage < 12 → ¬InvalidPeriod x.settings.beaconPeriod)
    (hlocal : x.localRejected = true → x.afterGlobal = some x.settings)
    (hlife : life.pc.stage ≠ 0 ∧ (life.pc.stage < 12 → x.life.pc.stage < 12)) :
    Ok env files s₀ { x with life := life } :=
  .configured hlife.1 (fun h => hperiod (hlife.2 h)) hlocal

/-- Only the parsers of the gateway configuration are recorded. -/
theorem configure_eq {x : Startup} (r : CallResult) (s : GatewaySettings)
    (hglobal : x.life.pc ≠ .parseGateway .global) (hlocal : x.life.pc ≠ .parseGateway .localToo) :
    x.configure r s = ⟨x.life.call s.gpsPath r, s, x.afterGlobal, x.localRejected⟩ := by
  simp [configure, hglobal, hlocal]

/-- `exit(EXIT_FAILURE)`. -/
theorem Ok.exitFailure {life : Lifecycle} {s : GatewaySettings} {g : Option GatewaySettings} :
    Ok env files s₀ ⟨life.exitFailure, s, g, false⟩ :=
  .configured (Nat.succ_ne_zero 11) (fun h => absurd h (lt_irrefl 12)) (absurd · Bool.false_ne_true)

/-- Whether there is a file decides where `main` goes on. -/
theorem Ok.access_step {name : CfgFile} {gpsEnabled : Bool} {workers : Worker → WorkerState}
    (hcomes : Comes files name) :
    Ok env files s₀ (configure ⟨⟨.access name, gpsEnabled, workers⟩, s₀, none, false⟩
      (if (files.file name).readable then .ok else .fails) s₀) := by
  rw [configure_eq _ _ (by simp) (by simp)]
  cases hread : (files.file name).readable with
  | true =>
    cases name with
    | debug => exact .parseSX1301 hcomes
    | global => exact .parseSX1301 hcomes
    | localToo => exact hcomes.elim
    | localOnly => exact .parseSX1301 hcomes
  | false =>
    cases name with
    | debug => exact .access hread
    | global => exact .access ⟨hcomes, hread⟩
    | localToo => exact hcomes.elim
    | localOnly => exact .exitFailure

/-- A file the concentrator does not accept ends `main`. -/
theorem Ok.parseSX1301_step {name : CfgFile} {gpsEnabled : Bool} {workers : Worker → WorkerState}
    (hcomes : Comes files name) :
    Ok env files s₀ (configure ⟨⟨.parseSX1301 name, gpsEnabled, workers⟩, s₀, none, false⟩
      (parseSX1301Configuration env name (files.file name)) s₀) := by
  have hname : name ≠ .localToo := by
    rintro rfl
    exact hcomes
  rw [configure_eq _ _ (by simp) (by simp)]
  cases hr : parseSX1301Configuration env name (files.file name) with
  | ok => exact .parseGateway hcomes hr
  | fails =>
    simp only [Lifecycle.call, hname, reduceCtorEq, and_false, or_false, if_false]
    exact .exitFailure
  | exits => exact .exitFailure

/-- A period that a file gives, or that was there before. -/
theorem not_invalidPeriod_of_taken {conf : JsonObject} {s s' : GatewaySettings}
    (hs : s'.beaconPeriod = (confPeriod env conf).getD s.beaconPeriod)
    (hvalid : ∀ period ∈ confPeriod env conf, ¬InvalidPeriod period)
    (hunset : confPeriod env conf = none → ¬InvalidPeriod s.beaconPeriod) :
    ¬InvalidPeriod s'.beaconPeriod := by
  rw [hs]
  cases hp : confPeriod env conf with
  | none => exact hunset hp
  | some period => exact hvalid period hp

/-- The configuration has come to its end, and `main` goes on to the GPS. -/
theorem Ok.startGps {life : Lifecycle} {s : GatewaySettings} {g : Option GatewaySettings}
    {b : Bool} (hperiod : ¬InvalidPeriod s.beaconPeriod) (hlocal : b = true → g = some s) :
    Ok env files s₀ ⟨life.startGps s.gpsPath, s, g, b⟩ :=
  .configured (stage_startGps life s.gpsPath) (fun _ => hperiod) hlocal

theorem Ok.startGps_taken {life : Lifecycle} {s : GatewaySettings} {g : Option GatewaySettings}
    (hperiod : ¬InvalidPeriod s.beaconPeriod) :
    Ok env files s₀ ⟨life.startGps s.gpsPath, s, g, false⟩ :=
  .startGps hperiod (absurd · Bool.false_ne_true)

/-- A file whose gateway configuration is not taken ends `main`, unless it is a local one that
comes after a global one. -/
theorem Ok.parseGateway_step {name : CfgFile} {gpsEnabled : Bool}
    {workers : Worker → WorkerState} {r : CallResult} {s : GatewaySettings}
    (hset : ¬(InvalidPeriod s₀.beaconPeriod ∧ PeriodUnset env files)) (hcomes : Comes files name)
    (hsx1301 : parseSX1301Configuration env name (files.file name) = .ok)
    (hparsed : Parsed env (files.file name) s₀ (r, s)) :
    Ok env files s₀
      (configure ⟨⟨.parseGateway name, gpsEnabled, workers⟩, s₀, none, false⟩ r s) := by
  have hname : name ≠ .localToo := by
    rintro rfl
    exact hcomes
  have hrejected : ∀ (r : CallResult) (s : GatewaySettings), r ≠ .ok → Ok env files s₀
      (configure ⟨⟨.parseGateway name, gpsEnabled, workers⟩, s₀, none, false⟩ r s) := by
    intro r s hr
    simp only [configure, Lifecycle.call, hr, hname, and_false, or_false, if_false,
      MainPc.parseGateway.injEq]
    exact .exitFailure
  cases hparsed with
  | exits hjson => exact hrejected _ _ (by decide)
  | missing hjson h => exact hrejected _ _ (by decide)
  | rejected h hperiod hinvalid hs => exact hrejected _ _ (by decide)
  | taken h hvalid hs =>
    have haccepts : Accepts env files name _ := ⟨hsx1301, h, hvalid⟩
    cases name with
    | debug =>
      refine .startGps_taken (not_invalidPeriod_of_taken hs hvalid fun hunset hinvalid => ?_)
      exact hset ⟨hinvalid, .debug haccepts hunset⟩
    | global => exact .localToo (.inl rfl) hcomes haccepts hs
    | localToo => exact hcomes.elim
    | localOnly =>
      refine .startGps_taken (not_invalidPeriod_of_taken hs hvalid fun hunset hinvalid => ?_)
      exact hset ⟨hinvalid, .localOnly hcomes.1 hcomes.2 haccepts hunset⟩

/-- A file with an object is a JSON text. -/
theorem isJson_of_object {file : ConfFile} {name : String} {object : JsonObject}
    (h : file.object name = some object) : file.isJson = true := by
  cases file with
  | json root => rfl
  | unreadable => cases h
  | noJson => cases h

/-- **A local file after a global one.** -/
theorem Ok.localToo_step {pc : MainPc} {gpsEnabled : Bool} {workers : Worker → WorkerState}
    {r : CallResult} {s s' : GatewaySettings} {conf : JsonObject} (hover : ¬Overridden env files)
    (hset : ¬(InvalidPeriod s₀.beaconPeriod ∧ PeriodUnset env files))
    (hpc : pc = .access .localToo ∨ pc = .parseSX1301 .localToo ∨ pc = .parseGateway .localToo)
    (hdebug : files.debugConf.readable = false) (hglobal : Accepts env files .global conf)
    (hs : s.beaconPeriod = (confPeriod env conf).getD s₀.beaconPeriod)
    (hsome : confCall env files s pc = some (r, s')) :
    Ok env files s₀ (configure ⟨⟨pc, gpsEnabled, workers⟩, s, some s, false⟩ r s') := by
  -- the period after the global file, if the local one says nothing about it
  have hkept (hlocal : files.localConf.readable = true → files.localConf.isJson = true ∧
      ∀ conf' ∈ files.localConf.object "gateway_conf", confPeriod env conf' = none) :
      ¬InvalidPeriod s.beaconPeriod :=
    not_invalidPeriod_of_taken hs hglobal.valid fun hunset hinvalid =>
      hset ⟨hinvalid, .global hdebug hglobal hunset hlocal⟩
  rcases hpc with rfl | rfl | rfl
  · cases Option.some.inj hsome
    rw [configure_eq _ _ (by simp) (by simp)]
    cases hread : (files.file .localToo).readable with
    | true => exact .localToo (.inr (.inl rfl)) hdebug hglobal hs
    | false =>
      have hmissing : files.localConf.readable = false := hread
      exact .startGps_taken (hkept fun h => absurd (hmissing.symm.trans h) (by decide))
  · cases Option.some.inj hsome
    rw [configure_eq _ _ (by simp) (by simp)]
    cases hr : parseSX1301Configuration env .localToo (files.file .localToo) with
    | ok => exact .localToo (.inr (.inr rfl)) hdebug hglobal hs
    | fails => exact .localToo (.inr (.inr rfl)) hdebug hglobal hs
    | exits => exact .exitFailure
  · have hparsed := parsed env (files.file .localToo) s
    rw [show parseGatewayConfiguration env (files.file .localToo) s = (r, s') from
      Option.some.inj hsome] at hparsed
    cases hparsed with
    | exits hjson => exact .exitFailure
    | missing hjson h =>
      refine .startGps (hkept fun _ => ⟨hjson, fun conf' hconf => ?_⟩) (fun _ => rfl)
      rw [show files.localConf.object "gateway_conf" = none from h] at hconf
      cases hconf
    | rejected h hperiod hinvalid hs' =>
      exact absurd ⟨hdebug, ⟨conf, hglobal⟩, _, h, _, hperiod, hinvalid⟩ hover
    | taken h hvalid hs' =>
      refine .startGps_taken (not_invalidPeriod_of_taken hs' hvalid fun hunset => ?_)
      refine hkept fun _ => ⟨isJson_of_object h, fun conf' hconf => ?_⟩
      obtain rfl := Option.some.inj (h.symm.trans hconf)
      exact hunset

/-- **One step keeps the invariant**, if no file overrides an earlier one with settings that are not
valid. -/
theorem Ok.step {x x' : Startup} {l : LifeLabel} (hover : ¬Overridden env files)
    (hset : ¬(InvalidPeriod s₀.beaconPeriod ∧ PeriodUnset env files)) (hi : Ok env files s₀ x)
    (h : Step env files x l x') : Ok env files s₀ x' := by
  cases h with
  | ends hlife =>
    cases hi with
    | access hcomes => exact .access hcomes
    | parseSX1301 hcomes => exact .parseSX1301 hcomes
    | parseGateway hcomes hsx1301 => exact .parseGateway hcomes hsx1301
    | localToo hpc hdebug hglobal hs => exact .localToo hpc hdebug hglobal hs
    | configured hstage hperiod hlocal => exact Ok.life hperiod hlocal ⟨hstage, id⟩
  | call hnone hlife =>
    cases hi with
    | access hcomes => cases hnone
    | parseSX1301 hcomes => cases hnone
    | parseGateway hcomes hsx1301 => cases hnone
    | localToo hpc hdebug hglobal hs => rcases hpc with rfl | rfl | rfl <;> cases hnone
    | configured hstage hperiod hlocal => exact Ok.life hperiod hlocal (stage_call _ _ hstage)
  | @configure r s hsome =>
    cases hi with
    | access hcomes =>
      cases Option.some.inj hsome
      exact .access_step hcomes
    | parseSX1301 hcomes =>
      cases Option.some.inj hsome
      exact .parseSX1301_step hcomes
    | @parseGateway name gpsEnabled workers hcomes hsx1301 =>
      have hparsed := parsed env (files.file name) s₀
      rw [show parseGatewayConfiguration env (files.file name) s₀ = (r, s) from
        Option.some.inj hsome] at hparsed
      exact .parseGateway_step hset hcomes hsx1301 hparsed
    | localToo hpc hdebug hglobal hs =>
      exact .localToo_step hover hset hpc hdebug hglobal hs hsome
    | configured hstage hperiod hlocal =>
      rw [confCall_eq_none hstage] at hsome
      cases hsome

/-! ## Runs into trouble -/

variable {gpsEnabled : Bool}

theorem reachable_configure {x : Startup} {r : CallResult} {s : GatewaySettings}
    (hx : Reachable env files gpsEnabled s₀ x)
    (h : confCall env files x.settings x.life.pc = some (r, s)) :
    Reachable env files gpsEnabled s₀ (x.configure r s) :=
  hx.next trivial (.configure h)

/-- Before the threads, every call may succeed. -/
theorem reachable_call {life : Lifecycle} {s : GatewaySettings} {g : Option GatewaySettings}
    {b : Bool} (hx : Reachable env files gpsEnabled s₀ ⟨life, s, g, b⟩)
    (hstage : life.pc.stage = 1 ∨ life.pc.stage = 2) :
    Reachable env files gpsEnabled s₀ ⟨life.call s.gpsPath .ok, s, g, b⟩ := by
  refine hx.next trivial (.call (confCall_eq_none ?_) fun w hw => ?_)
  · show life.pc.stage ≠ 0
    omega
  · rw [show life.pc = .join w from hw] at hstage
    exact absurd hstage (by simp [MainPc.stage])

/-- `main` can get as far as creating its threads. -/
theorem exists_spawning {life : Lifecycle} {s : GatewaySettings} {g : Option GatewaySettings}
    {b : Bool} (h : Reachable env files gpsEnabled s₀ ⟨life.startGps s.gpsPath, s, g, b⟩) :
    ∃ x, Reachable env files gpsEnabled s₀ x ∧ x.Spawning ∧ x.settings = s := by
  have huplink : ∃ gpsEnabled' workers, Reachable env files gpsEnabled s₀
      ⟨⟨.getaddrinfo .uplink, gpsEnabled', workers⟩, s, g, b⟩ := by
    unfold Lifecycle.startGps at h
    split at h
    · exact ⟨_, _, reachable_call h (.inl rfl)⟩
    · exact ⟨_, _, h⟩
  obtain ⟨gpsEnabled', workers, h⟩ := huplink
  have hsocket := reachable_call h (.inr rfl)
  have hconnect := reachable_call hsocket (.inr rfl)
  have hdownlink := reachable_call hconnect (.inr rfl)
  have hsocket' := reachable_call hdownlink (.inr rfl)
  have hconnect' := reachable_call hsocket' (.inr rfl)
  have hstart := reachable_call hconnect' (.inr rfl)
  exact ⟨_, reachable_call hstart (.inr rfl), ⟨le_rfl, show 3 < 12 by decide⟩, rfl⟩

section

variable {name : CfgFile} {gpsEnabled' : Bool} {workers : Worker → WorkerState}
  {s : GatewaySettings} {g : Option GatewaySettings}

theorem reachable_of_unreadable (hread : (files.file name).readable = false)
    (h : Reachable env files gpsEnabled s₀ ⟨⟨.access name, gpsEnabled', workers⟩, s, g, false⟩) :
    Reachable env files gpsEnabled s₀
      ⟨Lifecycle.call s.gpsPath ⟨.access name, gpsEnabled', workers⟩ .fails, s, g, false⟩ := by
  have hcall := reachable_configure (r := .fails) (s := s) h (by simp [confCall, hread])
  rwa [configure_eq _ _ (by simp) (by simp)] at hcall

/-- A file that is there is handed to the parsers in turn. -/
theorem reachable_parseGateway (hread : (files.file name).readable = true)
    (hsx1301 : parseSX1301Configuration env name (files.file name) = .ok ∨
      parseSX1301Configuration env name (files.file name) = .fails ∧ name = .localToo)
    (h : Reachable env files gpsEnabled s₀ ⟨⟨.access name, gpsEnabled', workers⟩, s, g, false⟩) :
    Reachable env files gpsEnabled s₀
      ⟨⟨.parseGateway name, gpsEnabled', workers⟩, s, g, false⟩ := by
  have hparse : Reachable env files gpsEnabled s₀
      ⟨⟨.parseSX1301 name, gpsEnabled', workers⟩, s, g, false⟩ := by
    have hcall := reachable_configure (r := .ok) (s := s) h (by simp [confCall, hread])
    rw [configure_eq _ _ (by simp) (by simp)] at hcall
    cases name <;> exact hcall
  have hcall := reachable_configure hparse rfl
  rw [configure_eq _ _ (by simp) (by simp)] at hcall
  rcases hsx1301 with hok | ⟨hfails, rfl⟩
  · rwa [hok] at hcall
  · rwa [hfails] at hcall

end

/-- `main` comes to a file if the files before it are not there. -/
theorem reachable_access {name : CfgFile} (hcomes : Comes files name) :
    Reachable env files gpsEnabled s₀
      ⟨⟨.access name, gpsEnabled, fun _ => .absent⟩, s₀, none, false⟩ := by
  cases name with
  | debug => exact .start
  | global =>
    have hdebug : (files.file .debug).readable = false := hcomes
    exact reachable_of_unreadable hdebug .start
  | localToo => exact hcomes.elim
  | localOnly =>
    have hdebug : (files.file .debug).readable = false := hcomes.1
    have hglobal : (files.file .global).readable = false := hcomes.2
    exact reachable_of_unreadable hglobal (reachable_of_unreadable hdebug .start)

theorem readable_of_isJson {file : ConfFile} (h : file.isJson = true) : file.readable = true := by
  cases file with
  | json root => rfl
  | unreadable => cases h
  | noJson => cases h

/-- A file that both parsers accept is taken. -/
theorem exists_taken (gpsEnabled : Bool) (s₀ : GatewaySettings) {name : CfgFile}
    {conf : JsonObject} (hcomes : Comes files name)
    (h : Accepts env files name conf) :
    ∃ s, s.beaconPeriod = (confPeriod env conf).getD s₀.beaconPeriod ∧
      Reachable env files gpsEnabled s₀
        (configure
          ⟨⟨.parseGateway name, gpsEnabled, fun _ => .absent⟩, s₀, none, false⟩ .ok s) := by
  have hread := readable_of_isJson (isJson_of_object h.object)
  have hparse : Reachable env files gpsEnabled s₀ _ :=
    reachable_parseGateway hread (.inl h.sx1301) (reachable_access hcomes)
  have hparsed := parsed env (files.file name) s₀
  generalize hresult : parseGatewayConfiguration env (files.file name) s₀ = result at hparsed
  cases hparsed with
  | exits hjson => exact absurd (isJson_of_object h.object) (by simp [hjson])
  | missing hjson hnone => exact absurd h.object (by simp [hnone])
  | rejected hobject hperiod hinvalid hs =>
    obtain rfl := Option.some.inj (h.object.symm.trans hobject)
    exact absurd hinvalid (h.valid _ hperiod)
  | taken hobject hvalid hs =>
    obtain rfl := Option.some.inj (h.object.symm.trans hobject)
    exact ⟨_, hs, reachable_configure hparse (congrArg some hresult)⟩

/-- After a global file, a local one that is a JSON text does not end `main`. -/
theorem reachable_localToo {s : GatewaySettings} {g : Option GatewaySettings}
    {gpsEnabled' : Bool} {workers : Worker → WorkerState}
    (hjson : files.localConf.isJson = true)
    (h : Reachable env files gpsEnabled s₀
      ⟨⟨.access .localToo, gpsEnabled', workers⟩, s, g, false⟩) :
    ∃ x, Reachable env files gpsEnabled s₀ x ∧ x.Spawning ∧
      x.settings = (parseGatewayConfiguration env files.localConf s).2 := by
  have hsx1301 : parseSX1301Configuration env .localToo (files.file .localToo) = .ok ∨
      parseSX1301Configuration env .localToo (files.file .localToo) = .fails ∧
        CfgFile.localToo = .localToo := by
    have hlocal : (files.file .localToo).isJson = true := hjson
    unfold parseSX1301Configuration
    cases hfile : files.file .localToo with
    | unreadable => simp [hfile, ConfFile.isJson] at hlocal
    | noJson => simp [hfile, ConfFile.isJson] at hlocal
    | json root =>
      dsimp only
      split
      · split <;> simp
      · simp
  have hread : (files.file .localToo).readable = true := readable_of_isJson hjson
  have hparse := reachable_parseGateway hread hsx1301 h
  have hparsed := parsed env files.localConf s
  have hresult : confCall env files s (.parseGateway .localToo) =
    some (parseGatewayConfiguration env files.localConf s) := rfl
  generalize parseGatewayConfiguration env files.localConf s = result at hparsed hresult ⊢
  cases hparsed with
  | exits hnoJson => exact absurd hjson (by simp [hnoJson])
  | missing hjson hnone => exact exists_spawning (reachable_configure hparse hresult)
  | rejected h hperiod hinvalid hs => exact exists_spawning (reachable_configure hparse hresult)
  | taken h hvalid hs => exact exists_spawning (reachable_configure hparse hresult)

/-- **An overridden configuration.**  The threads are created with the invalid period. -/
theorem exists_invalid_of_overridden (h : Overridden env files) :
    ∃ x, Reachable env files gpsEnabled s₀ x ∧ x.Spawning ∧
      InvalidPeriod x.settings.beaconPeriod := by
  obtain ⟨hdebug, ⟨conf, hglobal⟩, conf', hlocal, period, hperiod, hinvalid⟩ := h
  have hcomes : Comes files .global := hdebug
  obtain ⟨s, -, hrun⟩ := exists_taken gpsEnabled s₀ hcomes hglobal
  obtain ⟨x, hx, hspawning, hsettings⟩ := reachable_localToo (isJson_of_object hlocal) hrun
  refine ⟨x, hx, hspawning, ?_⟩
  rwa [hsettings, beaconPeriod_parseGatewayConfiguration, hlocal, Option.bind_some, hperiod,
    Option.getD_some]

/-- A file that is read alone gives the settings the threads are created with. -/
theorem exists_spawning_of_accepts {name : CfgFile} {conf : JsonObject}
    (hcomes : Comes files name) (hname : name ≠ .global) (h : Accepts env files name conf) :
    ∃ x, Reachable env files gpsEnabled s₀ x ∧ x.Spawning ∧
      x.settings.beaconPeriod = (confPeriod env conf).getD s₀.beaconPeriod := by
  obtain ⟨s, hs, hrun⟩ := exists_taken gpsEnabled s₀ hcomes h
  cases name with
  | debug =>
    obtain ⟨x, hx, hspawning, rfl⟩ := exists_spawning hrun
    exact ⟨x, hx, hspawning, hs⟩
  | global => exact absurd rfl hname
  | localToo => exact hcomes.elim
  | localOnly =>
    obtain ⟨x, hx, hspawning, rfl⟩ := exists_spawning hrun
    exact ⟨x, hx, hspawning, hs⟩

/-- A period that is not set stays what it was. -/
theorem exists_invalid_of_unset (hinvalid : InvalidPeriod s₀.beaconPeriod)
    (h : PeriodUnset env files) :
    ∃ x, Reachable env files gpsEnabled s₀ x ∧ x.Spawning ∧
      InvalidPeriod x.settings.beaconPeriod := by
  cases h with
  | debug h hunset =>
    have hcomes : Comes files .debug := trivial
    obtain ⟨x, hx, hspawning, hs⟩ := exists_spawning_of_accepts hcomes (by decide) h
    refine ⟨x, hx, hspawning, ?_⟩
    rwa [hs, hunset]
  | localOnly hdebug hglobal h hunset =>
    have hcomes : Comes files .localOnly := ⟨hdebug, hglobal⟩
    obtain ⟨x, hx, hspawning, hs⟩ := exists_spawning_of_accepts hcomes (by decide) h
    refine ⟨x, hx, hspawning, ?_⟩
    rwa [hs, hunset]
  | global hdebug h hunset hlocal =>
    have hcomes : Comes files .global := hdebug
    obtain ⟨s, hs, hrun⟩ := exists_taken gpsEnabled s₀ hcomes h
    rw [hunset, Option.getD_none] at hs
    cases hread : files.localConf.readable with
    | false =>
      have hmissing : (files.file .localToo).readable = false := hread
      obtain ⟨x, hx, hspawning, rfl⟩ := exists_spawning (reachable_of_unreadable hmissing hrun)
      refine ⟨x, hx, hspawning, ?_⟩
      rwa [hs]
    | true =>
      obtain ⟨hjson, hnone⟩ := hlocal hread
      obtain ⟨x, hx, hspawning, hsettings⟩ := reachable_localToo hjson hrun
      refine ⟨x, hx, hspawning, ?_⟩
      have hunset' : (files.localConf.object "gateway_conf").bind (confPeriod env) = none := by
        rw [Option.bind_eq_none_iff]
        exact fun conf' hconf => hnone conf' hconf
      rwa [hsettings, beaconPeriod_parseGatewayConfiguration, hunset', Option.getD_none, hs]

/-- What the invariant says of the settings. -/
theorem Ok.kept {x : Startup} (h : Ok env files s₀ x) : ConfigurationKept x := by
  have hearly (h0 : x.life.pc.stage = 0) (hlocal : x.localRejected = false) :
      ConfigurationKept x := by
    refine ⟨fun hspawning => ?_, fun hrejected => ?_⟩
    · have hstage := hspawning.1
      omega
    · rw [hlocal] at hrejected
      cases hrejected
  cases h with
  | access hcomes => exact hearly rfl rfl
  | parseSX1301 hcomes => exact hearly rfl rfl
  | parseGateway hcomes hsx1301 => exact hearly rfl rfl
  | localToo hpc hdebug hglobal hs =>
    rcases hpc with rfl | rfl | rfl
    · exact hearly rfl rfl
    · exact hearly rfl rfl
    · exact hearly rfl rfl
  | configured hstage hperiod hlocal =>
    exact ⟨fun hspawning => not_invalidPeriod_iff.mp (hperiod hspawning.2), hlocal⟩

end Startup

/-! ## When the configuration is kept -/

/-- **What the files can do.**  From any settings, no thread is created with a beacon period
from 1 to 5 and a local configuration that is rejected changes nothing, in every run, exactly
if a global configuration is not overridden and no such period is left from before. -/
theorem configuration_kept_iff (env : ConfEnv) (files : ConfFiles) (gpsEnabled : Bool)
    (s₀ : GatewaySettings) :
    (∀ x, Startup.Reachable env files gpsEnabled s₀ x → x.ConfigurationKept) ↔
      ¬Overridden env files ∧ ¬(InvalidPeriod s₀.beaconPeriod ∧ PeriodUnset env files) := by
  constructor
  · intro hall
    refine ⟨fun hover => ?_, fun ⟨hinvalid, hunset⟩ => ?_⟩
    · obtain ⟨x, hx, hspawning, hinvalid⟩ := Startup.exists_invalid_of_overridden hover
      exact not_invalidPeriod_iff.mpr ((hall x hx).period hspawning) hinvalid
    · obtain ⟨x, hx, hspawning, hinvalid⟩ := Startup.exists_invalid_of_unset hinvalid hunset
      exact not_invalidPeriod_iff.mpr ((hall x hx).period hspawning) hinvalid
  · rintro ⟨hover, hset⟩ x hx
    have hstart : Startup.Ok env files s₀ (.start gpsEnabled s₀) := .access trivial
    have hok : Startup.Ok env files s₀ x :=
      Runs.Reaches.invariant hstart (fun _ _ _ _ hi _ hst => hi.step hover hset hst) hx
    exact hok.kept

/-- A gateway configuration with a beacon period. -/
def periodConf (n : ℕ) : JsonObject := [(cstr "beacon_period", .number (.finite n))]

/-- A configuration file that holds nothing but a beacon period. -/
def periodFile (n : ℕ) : ConfFile :=
  .json (.object [(cstr "SX1301_conf", .object []), (cstr "gateway_conf", .object (periodConf n))])

theorem confPeriod_periodConf (env : ConfEnv) {n : ℕ} (h : n < 2 ^ 32) :
    confPeriod env (periodConf n) = some (BitVec.ofNat 32 n) := by
  have hcast : (Binary64.finite n).toUnsigned env.castOutside 32 = BitVec.ofNat 32 n := by
    apply BitVec.eq_of_toNat_eq
    rw [Binary64.toNat_toUnsigned (Binary64.truncated_natCast n) h, BitVec.toNat_ofNat,
      Nat.mod_eq_of_lt h]
  rw [← hcast]
  rfl

/-- A global configuration with a beacon every 128 s, a local one with a beacon every 3 s. -/
def overridingFiles : ConfFiles where
  debugConf := .unreadable
  globalConf := periodFile 128
  localConf := periodFile 3

/-- The threads start with the period that was rejected. -/
theorem configuration_overridden :
    ¬∀ x, Startup.Reachable acceptingConfEnv overridingFiles false .initial x →
      x.ConfigurationKept := by
  have hglobal : Accepts acceptingConfEnv overridingFiles .global (periodConf 128) := by
    refine ⟨rfl, rfl, fun period hperiod => ?_⟩
    rw [confPeriod_periodConf _ (by norm_num)] at hperiod
    obtain rfl := Option.some.inj hperiod
    decide
  have hover : Overridden acceptingConfEnv overridingFiles :=
    ⟨rfl, ⟨_, hglobal⟩, periodConf 3, rfl, _, confPeriod_periodConf _ (by norm_num), by decide⟩
  intro hall
  obtain ⟨x, hx, hspawning, hinvalid⟩ := Startup.exists_invalid_of_overridden hover
  exact not_invalidPeriod_iff.mpr ((hall x hx).period hspawning) hinvalid

end PacketForwarder
