import PacketForwarder.Downlink
import PacketForwarder.Parson.Compact
import PacketForwarder.Uplink.Text

/-!
# What the gateway writes, its parser reads

The texts of `PUSH_DATA` and `TX_ACK` are composed piece by piece; the parser of the downlink has
limits and refuses two members of one name.

* `keepsLimits_rxpkJson`, `keepsLimits_rootJson` — an uplink keeps the limits;
* `text_txAckJson` — a `TX_ACK` is the text of an object;
* `gateway_text_accepted` — **both are parsed as what they are meant to say**.
-/

namespace PacketForwarder

variable {env : UpEnv} {g : UpGateway}

/-! ## Limits -/

/-- A JSON value is a leaf if it is a number or a string. -/
def IsLeaf : Json → Prop
  | .number _ | .string _ => True
  | .array _ | .object _ => False

theorem keepsLimits_leaf {v : Json} (h : IsLeaf v) (levels : ℕ) :
    keepsLimits (levels + 1) v = true := by
  cases v with
  | number d => rfl
  | string t => rfl
  | array items => exact h.elim
  | object members => exact h.elim

theorem membersKeepLimits_iff {levels : ℕ} {ms : List (PlainText × Json)} :
    membersKeepLimits levels ms = true ↔ ∀ m ∈ ms, keepsLimits levels m.2 = true := by
  induction ms with
  | nil => simp [membersKeepLimits]
  | cons m ms ih => simp [membersKeepLimits, ih]

theorem itemsKeepLimits_iff {levels : ℕ} {vs : List Json} :
    itemsKeepLimits levels vs = true ↔ ∀ v ∈ vs, keepsLimits levels v = true := by
  induction vs with
  | nil => simp [itemsKeepLimits]
  | cons v vs ih => simp [itemsKeepLimits, ih]

/-- Members with numbers and strings, whose names are among some others in their order. -/
structure Leaves (names : List CString) (ms : List (PlainText × Json)) : Prop where
  leaf : ∀ m ∈ ms, IsLeaf m.2
  sublist : (ms.map fun m => m.1.bytes).Sublist names

theorem Leaves.nil (names : List CString) : Leaves names [] :=
  ⟨fun _ hm => absurd hm List.not_mem_nil, List.nil_sublist names⟩

theorem Leaves.append {names names' : List CString} {ms ms' : List (PlainText × Json)}
    (h : Leaves names ms) (h' : Leaves names' ms') : Leaves (names ++ names') (ms ++ ms') := by
  refine ⟨List.forall_mem_append.mpr ⟨h.leaf, h'.leaf⟩, ?_⟩
  rw [List.map_append]
  exact h.sublist.append h'.sublist

theorem leaves_of {names : List CString} {ms : List (PlainText × Json)}
    (hleaf : ∀ m ∈ ms, IsLeaf m.2) (hnames : (ms.map fun m => m.1.bytes) = names) :
    Leaves names ms := ⟨hleaf, hnames ▸ .refl _⟩

/-- An object of leaves keeps the limits if their names are different. -/
theorem Leaves.keepsLimits {levels : ℕ} {names : List CString} {ms : List (PlainText × Json)}
    (h : Leaves names ms) (hnodup : names.Nodup) (hlen : names.length ≤ objectMaxCapacity) :
    keepsLimits (levels + 2) (.object ms) = true := by
  have hshort : ms.length ≤ objectMaxCapacity := by
    have hle := h.sublist.length_le
    rw [List.length_map] at hle
    exact hle.trans hlen
  rw [PacketForwarder.keepsLimits,
    membersKeepLimits_iff.mpr fun m hm => keepsLimits_leaf (h.leaf m hm) levels,
    decide_eq_true (h.sublist.nodup hnodup), decide_eq_true hshort]
  rfl

/-! ## Uplinks -/

/-- The names in an entry, at most. -/
def rxpkNames : List CString :=
  [cstr "tmst", cstr "time", cstr "tmms", cstr "chan", cstr "rfch", cstr "freq", cstr "stat",
    cstr "modu", cstr "datr", cstr "codr", cstr "lsnr", cstr "rssi", cstr "size", cstr "data"]

theorem leaves_gpsMembers (env : UpEnv) (ref : Option Tref) (p : LgwPktRx) :
    Leaves ([cstr "time"] ++ [cstr "tmms"]) (gpsMembers env ref p) := by
  unfold gpsMembers
  cases ref with
  | none => exact .nil _
  | some localRef =>
    refine Leaves.append ?_ ?_
    · unfold timeMembers
      cases env.lgwCnt2utc localRef p.countUs with
      | none => exact .nil _
      | some t => exact leaves_of (by simp [IsLeaf]) rfl
    · unfold tmmsMembers
      cases env.lgwCnt2gps localRef p.countUs with
      | none => exact .nil _
      | some t => exact leaves_of (by simp [IsLeaf, unsignedJson]) rfl

theorem leaves_modulationMembers (p : LgwPktRx) :
    Leaves [cstr "modu", cstr "datr", cstr "codr", cstr "lsnr"] (modulationMembers p) := by
  unfold modulationMembers
  cases p.modulation with
  | undefined => exact .nil _
  | lora => exact leaves_of (by simp [IsLeaf, fixedJson]) rfl
  | fsk =>
    exact ⟨by simp [IsLeaf, unsignedJson], ((List.nil_sublist _).cons_cons _).cons_cons _⟩

theorem leaves_rxpkJson (env : UpEnv) (ref : Option Tref) (p : LgwPktRx) :
    ∃ ms, rxpkJson env ref p = .object ms ∧ Leaves rxpkNames ms := by
  have htmst : Leaves [cstr "tmst"] [(jsonName "tmst", unsignedJson p.countUs)] :=
    leaves_of (by simp [IsLeaf, unsignedJson]) rfl
  have hchan : Leaves [cstr "chan", cstr "rfch", cstr "freq", cstr "stat"]
      [(jsonName "chan", unsignedJson p.ifChain), (rfchName, unsignedJson p.rfChain),
        (freqName, .number (freqDecimal p)),
        (jsonName "stat", .number (Decimal.ofInt (statNumber p.status)))] :=
    leaves_of (by simp [IsLeaf, unsignedJson]) rfl
  have hdata : Leaves [cstr "rssi", cstr "size", cstr "data"]
      [(jsonName "rssi", fixedJson 0 p.rssi), (sizeName, unsignedJson p.size),
        (dataName, .string ⟨base64Text p.data, plain_base64Text p.data⟩)] :=
    leaves_of (by simp [IsLeaf, unsignedJson, fixedJson]) rfl
  exact ⟨_, rfl, htmst.append
    ((((leaves_gpsMembers env ref p).append hchan).append (leaves_modulationMembers p)).append
      hdata)⟩

/-- The entry of a packet keeps the limits of the parser on its members and on their nesting. -/
theorem keepsLimits_rxpkJson (levels : ℕ) (env : UpEnv) (ref : Option Tref) (p : LgwPktRx) :
    keepsLimits (levels + 2) (rxpkJson env ref p) = true := by
  obtain ⟨ms, hms, hleaves⟩ := leaves_rxpkJson env ref p
  rw [hms]
  exact hleaves.keepsLimits (by decide) (by decide)

/-- The names in a report, at most. -/
def statNames : List CString :=
  [cstr "time", cstr "lati", cstr "long", cstr "alti", cstr "rxnb", cstr "rxok", cstr "rxfw",
    cstr "ackr", cstr "dwnb", cstr "txnb"]

/-- The object of a status report keeps the limits of the parser on its members and on their
nesting. -/
theorem keepsLimits_report (levels : ℕ) (r : StatReport) :
    keepsLimits (levels + 2) r.json = true := by
  have htime : Leaves [cstr "time"]
      [(timeName, .string ⟨statTimestamp r.t, plain_statTimestamp r.t⟩)] :=
    leaves_of (by simp [IsLeaf]) rfl
  have hcoord : Leaves [cstr "lati", cstr "long", cstr "alti"] (r.coord.elim [] coordMembers) := by
    cases r.coord with
    | none => exact .nil _
    | some coord => exact leaves_of (by simp [coordMembers, IsLeaf, fixedJson]) rfl
  have hcounters : Leaves [cstr "rxnb", cstr "rxok", cstr "rxfw", cstr "ackr", cstr "dwnb",
      cstr "txnb"]
      [(jsonName "rxnb", unsignedJson r.nbRxRcv), (jsonName "rxok", unsignedJson r.nbRxOk),
        (jsonName "rxfw", unsignedJson r.upPktFwd), (jsonName "ackr", fixedJson 1 r.ackPercent),
        (jsonName "dwnb", unsignedJson r.dwDgramRcv),
        (jsonName "txnb", unsignedJson r.nbTxOk)] :=
    leaves_of (by simp [IsLeaf, unsignedJson, fixedJson]) rfl
  have hall : Leaves statNames _ := htime.append (hcoord.append hcounters)
  exact hall.keepsLimits (by decide) (by decide)

/-- **The root object of an uplink datagram keeps the parser's limits.** -/
theorem keepsLimits_rootJson (env : UpEnv) (g : UpGateway) {rxpkt : List LgwPktRx}
    (hlen : rxpkt.length ≤ nbPktMax) (pending : Option StatReport) :
    keepsLimits (maxNesting + 1) (rootJson env g rxpkt pending) = true := by
  have hcount : (g.forwarded rxpkt).length ≤ arrayMaxCapacity :=
    (List.length_filter_le _ rxpkt).trans (hlen.trans (by decide))
  have hrxpk : ∀ m ∈ rxpkMembers env (g.localRef rxpkt) (g.forwarded rxpkt),
      keepsLimits maxNesting m.2 = true := by
    unfold rxpkMembers
    split
    · exact fun m hm => absurd hm List.not_mem_nil
    · rw [List.forall_mem_singleton, keepsLimits, itemsKeepLimits_iff.mpr ?_, List.length_map,
        decide_eq_true hcount]
      · rfl
      · intro v hv
        obtain ⟨p, -, rfl⟩ := List.mem_map.mp hv
        exact keepsLimits_rxpkJson 16 env _ p
  have hstat : ∀ m ∈ statMembers pending, keepsLimits maxNesting m.2 = true := by
    cases pending with
    | none => exact fun m hm => absurd hm List.not_mem_nil
    | some r => exact List.forall_mem_singleton.mpr (keepsLimits_report 17 r)
  have hnames : ((rxpkMembers env (g.localRef rxpkt) (g.forwarded rxpkt) ++
      statMembers pending).map fun m => m.1.bytes).Sublist [cstr "rxpk", cstr "stat"] := by
    rw [List.map_append]
    show List.Sublist _ ([cstr "rxpk"] ++ [cstr "stat"])
    refine List.Sublist.append ?_ ?_
    · unfold rxpkMembers
      split
      · exact List.nil_sublist _
      · exact .refl _
    · cases pending with
      | none => exact List.nil_sublist _
      | some r => exact .refl _
  have hshort := hnames.length_le
  rw [List.length_map] at hshort
  rw [rootJson, keepsLimits,
    membersKeepLimits_iff.mpr (List.forall_mem_append.mpr ⟨hrxpk, hstat⟩),
    decide_eq_true (hnames.nodup (by decide)), decide_eq_true (hshort.trans (by decide))]
  rfl

/-! ## Acknowledgements -/

/-- What stands for an error, without its quotes. -/
def txAckErrorName : JitError → PlainText
  | .full | .collisionPacket => jsonName "COLLISION_PACKET"
  | .tooLate => jsonName "TOO_LATE"
  | .tooEarly => jsonName "TOO_EARLY"
  | .collisionBeacon => jsonName "COLLISION_BEACON"
  | .txFreq => jsonName "TX_FREQ"
  | .txPower => jsonName "TX_POWER"
  | .gpsUnlocked => jsonName "GPS_UNLOCKED"
  | .ok | .empty | .invalid => jsonName "UNKNOWN"

/-- The members of the object that a `TX_ACK` carries. -/
def txAckMembers (error : JitError) : List (PlainText × Json) :=
  [(jsonName "txpk_ack", .object [(jsonName "error", .string (txAckErrorName error))])]

/-- **A `TX_ACK` is the text of an object.** -/
theorem text_txAckJson {error : JitError} (h : error ≠ .ok) :
    txAckJson error = Json.text (.object (txAckMembers error)) := by
  rw [txAckJson, if_neg h]
  cases error with
  | ok => exact absurd rfl h
  | _ => rfl

theorem keepsLimits_txAck (error : JitError) :
    keepsLimits (maxNesting + 1) (.object (txAckMembers error)) = true := by
  cases error <;> decide

/-! ## Both are accepted -/

/-- A datagram that fits its buffer has the text of its root object. -/
theorem text_of_mem_sent {rxpkt : List LgwPktRx} (h : ∀ p ∈ g.forwarded rxpkt, p.Known)
    {pending : Option StatReport} (hpending : g.report = pending.map StatReport.statusReport)
    (hlt : datagramLength env g rxpkt < txBuffSize)
    (hfits : ∀ report ∈ pending, report.text.length < statusSize) {memory : ℕ → U8}
    {tokenH tokenL : U8} {datagram : List U8}
    (hmem : datagram ∈ (pushData env g memory tokenH tokenL rxpkt).sent) :
    datagram.drop 12 = (rootJson env g rxpkt pending).text := by
  have hreport : g.report ≠ some [] := by
    rw [hpending]
    cases pending with
    | none => simp
    | some report => simpa using report.statusReport_ne_nil
  by_cases hsome : g.forwarded rxpkt ≠ [] ∨ pending ≠ none
  · have hsend : g.pktInDgram rxpkt ≠ 0 ∨ g.report ≠ none := by
      refine hsome.imp (mt List.length_eq_zero_iff.mp) fun hne => ?_
      rwa [hpending, ne_eq, Option.map_eq_none_iff]
    obtain ⟨b, hr, happends⟩ := pushData_sends h hsend hreport env memory tokenH tokenL
    rw [hr] at hmem
    rw [List.mem_singleton.mp hmem]
    rw [← length_datagramText h] at hlt
    have hstart : (startDatagram memory tokenH tokenL).contents.length = 12 :=
      TextBuffer.length_contents _
    rw [happends.contents hlt, List.drop_left' hstart, datagramText_eq h hpending hfits hsome env]
  · rw [not_or, not_not, not_not] at hsome
    obtain ⟨b, hr, -⟩ := pushData_of_nothing h (List.length_eq_zero_iff.mpr hsome.1)
      (by rw [hpending, hsome.2, Option.map_none]) env memory tokenH tokenL
    rw [hr] at hmem
    exact absurd hmem List.not_mem_nil

/-- **What the gateway writes, its parser reads.**  A `PUSH_DATA` that fits its buffer is
parsed as an object with the entries of the packets that pass the filter, in their order, and
the report, whatever numbers the other packets have; a `TX_ACK` with an error is parsed as an
object with its name.  Numbers are rounded to doubles, and nothing else is lost. -/
theorem gateway_text_accepted (env : UpEnv) (g : UpGateway) (memory : ℕ → U8) (tokenH tokenL : U8)
    (rxpkt : List LgwPktRx) (h : ∀ p ∈ g.forwarded rxpkt, p.Known)
    (hlen : rxpkt.length ≤ nbPktMax) (pending : Option StatReport)
    (hpending : g.report = pending.map StatReport.statusReport)
    (hlt : datagramLength env g rxpkt < txBuffSize)
    (hfits : ∀ report ∈ pending, report.text.length < statusSize) :
    (∀ datagram ∈ (pushData env g memory tokenH tokenL rxpkt).sent,
      jsonParseStringWithComments (datagram.drop 12) = some (.object (printedMembers
        (rxpkMembers env (g.localRef rxpkt) (g.forwarded rxpkt) ++ statMembers pending)))) ∧
    ∀ (gateway : Gateway) (ackH ackL : U8) (error : JitError), error ≠ .ok →
      jsonParseStringWithComments ((txAck gateway ackH ackL error).drop 12) =
        some (.object [(cstr "txpk_ack",
          .object [(cstr "error", .string (txAckErrorName error).bytes)])]) := by
  constructor
  · intro datagram hmem
    rw [text_of_mem_sent h hpending hlt hfits hmem]
    exact jsonParse_printed (keepsLimits_rootJson env g hlen pending)
  · intro gateway ackH ackL error herror
    have hheader : ([protocolVersion, ackH, ackL, pktTxAck] ++ gateway.netMac.cells).length =
        12 := by
      simp
    rw [txAck, List.drop_left' hheader, text_txAckJson herror,
      jsonParse_printed (keepsLimits_txAck error)]
    rfl

/-- A packet and a report fit the buffer, and a packet of unknown status is skipped. -/
theorem gateway_text_accepted_packet_and_report :
    let g := UpGateway.reference (some exampleStat.statusReport)
    let rxpkt := [{ longPacket with status := .undefined }, longPacket]
    ∀ datagram ∈ (pushData .reference g (fun _ => 0) 18 52 rxpkt).sent,
      jsonParseStringWithComments (datagram.drop 12) = some (.object (printedMembers
        (rxpkMembers .reference (g.localRef rxpkt) (g.forwarded rxpkt) ++
          statMembers (some exampleStat)))) := by
  intro g rxpkt
  have hstat := StatReport.length_text_lt expected_exampleStat
  have hlength : datagramLength .reference g rxpkt < txBuffSize := by decide +kernel
  have hforwarded : g.forwarded rxpkt = [longPacket] := rfl
  exact (gateway_text_accepted .reference g (fun _ => 0) 18 52 rxpkt
    (by rw [hforwarded]; exact List.forall_mem_singleton.mpr (expected_longPacket none).toKnown)
    (by decide) (some exampleStat) rfl hlength fun r hr => Option.mem_some.mp hr ▸ hstat).1

end PacketForwarder
