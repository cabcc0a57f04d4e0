import PacketForwarder.Hal

/-!
# JSON values

The trees `parson` returns and the accessors the forwarder reads them with.  A null
pointer is `none`; the accessors answer it as they answer a value of another type.
-/

namespace PacketForwarder

/-- `JSON_Value`. -/
inductive JsonValue
  | null
  | boolean (b : Bool)
  | number (x : Binary64)
  | string (s : CString)
  | array (values : List JsonValue)
  | object (fields : List (CString × JsonValue))

/-- `JSON_Object`: the names and values, in order. -/
abbrev JsonObject := List (CString × JsonValue)

/-- `json_value_get_object`. -/
def jsonValueGetObject : Option JsonValue → Option JsonObject
  | some (.object fields) => some fields
  | _ => none

/-- `json_value_get_number`. -/
def jsonValueGetNumber : Option JsonValue → Binary64
  | some (.number x) => x
  | _ => .finite 0

/-- `json_value_get_boolean`. -/
def jsonValueGetBoolean : Option JsonValue → ℤ
  | some (.boolean b) => if b then 1 else 0
  | _ => -1

/-- `json_value_get_string`, of which only what comes before the terminator is read. -/
def jsonValueGetString : Option JsonValue → Option CString
  | some (.string s) => some (s.takeWhile (· ≠ 0))
  | _ => none

/-- `json_object_get_value`. -/
def jsonObjectGetValue (object : JsonObject) (name : String) : Option JsonValue :=
  (object.find? fun field => field.1 = cstr name).map Prod.snd

/-- `json_object_get_object`. -/
def jsonObjectGetObject (object : JsonObject) (name : String) : Option JsonObject :=
  jsonValueGetObject (jsonObjectGetValue object name)

/-- `json_object_get_boolean`. -/
def jsonObjectGetBoolean (object : JsonObject) (name : String) : ℤ :=
  jsonValueGetBoolean (jsonObjectGetValue object name)

/-- `json_object_get_string`. -/
def jsonObjectGetString (object : JsonObject) (name : String) : Option CString :=
  jsonValueGetString (jsonObjectGetValue object name)

/-- `json_object_dotget_value`, with a name that is cut at its dots. -/
def jsonObjectDotgetValue : Option JsonObject → List String → Option JsonValue
  | _, [] => none
  | object, [name] => object.bind fun object => jsonObjectGetValue object name
  | object, name :: rest =>
    jsonObjectDotgetValue (object.bind fun object => jsonObjectGetObject object name) rest

end PacketForwarder
