import PacketForwarder.Lib.JsonText
import PacketForwarder.Uplink

/-!
# Status reports

The text that `main` leaves in `status_report` at the end of each interval, for `thread_up`
to send.

* `StatReport` — what goes into a report;
* `StatReport.text` — the text of its two formats, with coordinates and without;
* `statusReport` — what of it is left in `status_report`;
* `StatReport.json` — the JSON object it is the text of.
-/

namespace PacketForwarder

/-- `struct coord_s`. -/
structure Coord where
  lat : FiniteFloat
  lon : FiniteFloat
  /-- `short`. -/
  alt : BitVec 16

/-- What `main` prints into a report. -/
structure StatReport where
  /-- The time at which the report is made. -/
  t : ℤ
  /-- `cp_gps_coord`, if there are coordinates or they are faked. -/
  coord : Option Coord
  nbRxRcv : U32
  nbRxOk : U32
  upPktFwd : U32
  /-- `100.0 * up_ack_ratio`. -/
  ackPercent : FiniteFloat
  dwDgramRcv : U32
  nbTxOk : U32

/-- `stat_timestamp`: `%F %T %Z` of `strftime`, for a year of four digits. -/
def statTimestamp (t : ℤ) : CString :=
  let x := gmtime t
  formatPadded 4 (x.tmYear + 1900) ++ cstr "-" ++ formatPadded 2 (x.tmMon + 1) ++ cstr "-" ++
    formatPadded 2 x.tmMday ++ cstr " " ++ formatPadded 2 x.tmHour ++ cstr ":" ++
    formatPadded 2 x.tmMin ++ cstr ":" ++ formatPadded 2 x.tmSec ++ cstr " GMT"

/-- The coordinates in the text of a report. -/
def coordText (coord : Coord) : CString :=
  cstr ",\"lati\":" ++ formatFixed 5 coord.lat ++ cstr ",\"long\":" ++ formatFixed 5 coord.lon ++
    cstr ",\"alti\":" ++ formatSigned coord.alt.toInt

/-- The text of a report, as `main` prints it. -/
def StatReport.text (r : StatReport) : CString :=
  cstr "\"stat\":\x7b\"time\":\"" ++ statTimestamp r.t ++ cstr "\"" ++ r.coord.elim [] coordText ++
    cstr ",\"rxnb\":" ++ formatUnsigned r.nbRxRcv ++ cstr ",\"rxok\":" ++ formatUnsigned r.nbRxOk ++
    cstr ",\"rxfw\":" ++ formatUnsigned r.upPktFwd ++ cstr ",\"ackr\":" ++
    formatFixed 1 r.ackPercent ++ cstr ",\"dwnb\":" ++ formatUnsigned r.dwDgramRcv ++
    cstr ",\"txnb\":" ++ formatUnsigned r.nbTxOk ++ cstr "\x7d"

/-- `status_report`: `snprintf` cuts what does not fit. -/
def StatReport.statusReport (r : StatReport) : CString := r.text.take (statusSize - 1)

/-! ## As JSON -/

/-- A name of the source, all of whose characters are plain. -/
def jsonName (s : String) (h : (cstr s).all isPlain = true := by exact of_decide_eq_true rfl) :
    PlainText :=
  ⟨cstr s, List.all_eq_true.mp h⟩

@[simp] theorem bytes_jsonName (s : String) (h : (cstr s).all isPlain = true) :
    (jsonName s h).bytes = cstr s := rfl

/-- The name of a time, in reports and in packets. -/
def timeName : PlainText := jsonName "time"

/-! The names and the values that a packet and a request for a packet have in common. -/

abbrev freqName : PlainText := jsonName "freq"

abbrev rfchName : PlainText := jsonName "rfch"

abbrev moduName : PlainText := jsonName "modu"

abbrev loraName : PlainText := jsonName "LORA"

abbrev fskName : PlainText := jsonName "FSK"

abbrev datrName : PlainText := jsonName "datr"

abbrev codrName : PlainText := jsonName "codr"

abbrev sizeName : PlainText := jsonName "size"

abbrev dataName : PlainText := jsonName "data"

/-- An unsigned number as `%u` prints it, as a value. -/
def unsignedJson {w : ℕ} (x : BitVec w) : Json := .number (Decimal.ofNat x.toNat)

/-- A number as `%.<places>f` prints it, as a value. -/
def fixedJson (places : ℕ) (x : FiniteFloat) : Json :=
  .number (Decimal.fixed places x.negative x.magnitude)

theorem plain_signText (negative : Bool) : ∀ c ∈ Decimal.signText negative, isPlain c = true := by
  cases negative with
  | false => exact fun c h => absurd h List.not_mem_nil
  | true => exact List.forall_mem_singleton.mpr (by decide)

theorem plain_formatPadded (width : ℕ) (z : ℤ) :
    ∀ c ∈ formatPadded width z, isPlain c = true :=
  List.forall_mem_append.mpr ⟨plain_signText _, plain_digits⟩

/-- A date and a time of day. -/
def dateTime (x : Tm) (separator : CString) : CString :=
  formatPadded 4 (x.tmYear + 1900) ++ cstr "-" ++ formatPadded 2 (x.tmMon + 1) ++ cstr "-" ++
    formatPadded 2 x.tmMday ++ separator ++ formatPadded 2 x.tmHour ++ cstr ":" ++
    formatPadded 2 x.tmMin ++ cstr ":" ++ formatPadded 2 x.tmSec

theorem plain_dateTime (x : Tm) {separator : CString} (h : ∀ c ∈ separator, isPlain c = true) :
    ∀ c ∈ dateTime x separator, isPlain c = true := by
  have hdash : ∀ c ∈ cstr "-", isPlain c = true := by simp [cstr, isPlain]
  have hcolon : ∀ c ∈ cstr ":", isPlain c = true := by simp [cstr, isPlain]
  unfold dateTime
  simp only [List.forall_mem_append]
  exact ⟨⟨⟨⟨⟨⟨⟨⟨⟨⟨plain_formatPadded _ _, hdash⟩, plain_formatPadded _ _⟩, hdash⟩,
    plain_formatPadded _ _⟩, h⟩, plain_formatPadded _ _⟩, hcolon⟩, plain_formatPadded _ _⟩,
    hcolon⟩, plain_formatPadded _ _⟩

theorem plain_statTimestamp (t : ℤ) : ∀ c ∈ statTimestamp t, isPlain c = true :=
  List.forall_mem_append.mpr
    ⟨plain_dateTime (gmtime t) (by simp [cstr, isPlain]), by simp [cstr, isPlain]⟩

/-- The coordinates as members of the report. -/
def coordMembers (coord : Coord) : List (PlainText × Json) :=
  [(jsonName "lati", fixedJson 5 coord.lat), (jsonName "long", fixedJson 5 coord.lon),
    (jsonName "alti", .number (Decimal.ofInt coord.alt.toInt))]

/-- The report as a JSON object. -/
def StatReport.json (r : StatReport) : Json :=
  .object ((timeName, .string ⟨statTimestamp r.t, plain_statTimestamp r.t⟩) ::
    (r.coord.elim [] coordMembers ++
      [(jsonName "rxnb", unsignedJson r.nbRxRcv), (jsonName "rxok", unsignedJson r.nbRxOk),
        (jsonName "rxfw", unsignedJson r.upPktFwd), (jsonName "ackr", fixedJson 1 r.ackPercent),
        (jsonName "dwnb", unsignedJson r.dwDgramRcv), (jsonName "txnb", unsignedJson r.nbTxOk)]))

/-- **A report is the member of an object.** -/
theorem StatReport.memberText_json (r : StatReport) :
    Json.memberText (jsonName "stat", r.json) = cstr "," ++ r.text := by
  have hcoord : (r.coord.elim [] coordMembers).flatMap Json.memberText =
      r.coord.elim [] coordText := by
    cases r.coord with
    | none => rfl
    | some coord =>
      simp [coordMembers, coordText, Json.memberText, Json.text, jsonName, fixedJson,
        formatFixed, formatSigned, cstr]
  simp only [Json.memberText, StatReport.json, StatReport.text, Json.text, Json.membersText_eq,
    List.flatMap_append, hcoord]
  simp [Json.memberText, Json.text, jsonName, timeName, unsignedJson, fixedJson, formatUnsigned,
    formatFixed, cstr]

end PacketForwarder
