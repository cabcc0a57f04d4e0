import PacketForwarder.Lib.JsonCompact
import PacketForwarder.Parson.Comments

/-!
# What is printed by hand is parsed

The parser on texts without blanks.  There are no comments in them, but a string may hold what
elsewhere would start one.

* `jsonParse_compact` — **a text without blanks is parsed as its value**, comments or not;
* `syntaxValue_compactObject`, `accepts_compactObject` — the value of an object, and what the
  parser accepts of one;
* `printedValue`, `keepsLimits`, `jsonParse_printed` — the same for values that are printed;
* `jsonObjectGetValue_of_mem` — looking up a member.
-/

namespace PacketForwarder

/-! ## Trees without blanks -/

/-- There is nothing to take for a comment. -/
theorem removeComments_compact {tok endToken : CString} {t : JsonSyntax} (h : t.Compact)
    (hend : endToken ≠ []) : removeComments (47 :: tok) endToken t.text = t.text := by
  have hstrips : Strips (47 :: tok) endToken (fun _ => False) (fun b => [b]) :=
    fun b hb => hb.elim
  have hstrip := strip_text hstrips t [] h
  rw [List.append_nil, JsonSyntax.mapBlanks_self] at hstrip
  rw [removeComments_eq_strip (List.cons_ne_nil 47 tok) hend, hstrip]
  exact List.append_nil t.text

/-- **A text without blanks is parsed as its value**: an array or an object that the parser
accepts. -/
theorem jsonParse_compact {t : JsonSyntax} (h : t.Compact) :
    jsonParseStringWithComments t.text =
      if isContainer t && accepts (maxNesting + 1) t then some (syntaxValue t) else none := by
  have hplain : t.AllBlanks Blank.IsPlain := by
    have hmap := h.mapBlanks (Q := Blank.IsPlain) (f := fun b => [b]) fun b hb => hb.elim
    rwa [JsonSyntax.mapBlanks_self] at hmap
  have hnone : ∀ b ∈ ([] : List Blank), Blank.IsPlain b := fun b hb => absurd hb List.not_mem_nil
  have hparse := jsonParseString_text hnone hplain []
  rw [blanksText_nil, List.nil_append, List.append_nil] at hparse
  have hblock : removeComments (cstr "/*") (cstr "*/") t.text = t.text :=
    removeComments_compact h (by decide)
  have hline : removeComments (cstr "//") (cstr "\n") t.text = t.text :=
    removeComments_compact h (by decide)
  rw [jsonParseStringWithComments, hblock, hline, hparse]

theorem isContainer_compactObject (ms : List (PlainText × JsonSyntax)) :
    isContainer (compactObject ms) = true := by
  cases ms <;> rfl

/-- A plain string has no null byte. -/
theorem takeWhile_bytes (t : PlainText) : t.bytes.takeWhile (· ≠ 0) = t.bytes := by
  have hnul : ∀ c : U8, isPlain c = true → c ≠ 0 := by decide
  exact List.takeWhile_eq_self_iff.mpr fun c hc => decide_eq_true (hnul c (t.plain c hc))

@[simp] theorem keyName_compactKey (name : PlainText) :
    keyName (compactKey name) = name.bytes := by
  rw [keyName, compactKey, PlainText.bytes_pieces, takeWhile_bytes]

/-- The value of an array without blanks is the array of the values. -/
@[simp] theorem syntaxValue_compactArray (vs : List JsonSyntax) :
    syntaxValue (compactArray vs) = .array (vs.map syntaxValue) := by
  cases vs with
  | nil => rfl
  | cons v vs =>
    rw [compactArray, syntaxValue]
    refine congrArg JsonValue.array ?_
    induction vs generalizing v with
    | nil => rfl
    | cons w vs ih => simp [compactItems, itemsValues, ih w]

/-- The value of an object without blanks is the object of the values. -/
@[simp] theorem syntaxValue_compactObject (ms : List (PlainText × JsonSyntax)) :
    syntaxValue (compactObject ms) = .object (ms.map fun m => (m.1.bytes, syntaxValue m.2)) := by
  cases ms with
  | nil => rfl
  | cons m ms =>
    rw [compactObject, syntaxValue]
    refine congrArg JsonValue.object ?_
    induction ms generalizing m with
    | nil => simp [compactMembers, membersFields]
    | cons n ms ih => simp [compactMembers, membersFields, ih n]

/-- An array is accepted with its items, if these are not too many. -/
theorem accepts_compactArray {levels : ℕ} {vs : List JsonSyntax}
    (hvs : ∀ v ∈ vs, accepts levels v = true) (hlen : vs.length ≤ arrayMaxCapacity) :
    accepts (levels + 1) (compactArray vs) = true := by
  cases vs with
  | nil => rfl
  | cons v vs =>
    have hitems : acceptsItems levels (compactItems v vs) = true := by
      clear hlen
      induction vs generalizing v with
      | nil => exact hvs v List.mem_cons_self
      | cons w vs ih =>
        obtain ⟨hv, hrest⟩ := List.forall_mem_cons.mp hvs
        rw [compactItems, acceptsItems, hv, ih w hrest]
        rfl
    have hcount : (itemsValues (compactItems v vs)).length ≤ arrayMaxCapacity := by
      have hvalue := syntaxValue_compactArray (v :: vs)
      rw [compactArray, syntaxValue] at hvalue
      rw [JsonValue.array.inj hvalue, List.length_map]
      exact hlen
    rw [compactArray, accepts, hitems, Bool.true_and]
    exact decide_eq_true hcount

/-- An object is accepted with its members, if these have different names and are not too
many. -/
theorem accepts_compactObject {levels : ℕ} {ms : List (PlainText × JsonSyntax)}
    (hms : ∀ m ∈ ms, accepts levels m.2 = true) (hnames : (ms.map fun m => m.1.bytes).Nodup)
    (hlen : ms.length ≤ objectMaxCapacity) :
    accepts (levels + 1) (compactObject ms) = true := by
  cases ms with
  | nil => rfl
  | cons m ms =>
    have hmembers : acceptsMembers levels (compactMembers m ms) = true := by
      clear hnames hlen
      induction ms generalizing m with
      | nil => exact hms m List.mem_cons_self
      | cons n ms ih =>
        obtain ⟨hm, hrest⟩ := List.forall_mem_cons.mp hms
        rw [compactMembers, acceptsMembers, hm, ih n hrest]
        rfl
    have hfields : membersFields (compactMembers m ms) =
        (m :: ms).map fun m => (m.1.bytes, syntaxValue m.2) := by
      have hvalue := syntaxValue_compactObject (m :: ms)
      rw [compactObject, syntaxValue] at hvalue
      exact JsonValue.object.inj hvalue
    have hdistinct : ((membersFields (compactMembers m ms)).map Prod.fst).Nodup := by
      rw [hfields, List.map_map]
      exact hnames
    have hcount : (membersFields (compactMembers m ms)).length ≤ objectMaxCapacity := by
      rw [hfields, List.length_map]
      exact hlen
    rw [compactObject, accepts, hmembers, Bool.true_and, decide_eq_true hdistinct, Bool.true_and]
    exact decide_eq_true hcount

/-! ## Values that are printed -/

mutual

/-- What a printed value is read as. -/
def printedValue : Json → JsonValue
  | .number d => .number (.ofRat (Scientific.value ⟨d, none⟩))
  | .string t => .string t.bytes
  | .array items => .array (printedItems items)
  | .object members => .object (printedMembers members)

def printedItems : List Json → List JsonValue
  | [] => []
  | v :: vs => printedValue v :: printedItems vs

def printedMembers : List (PlainText × Json) → JsonObject
  | [] => []
  | (name, v) :: ms => (name.bytes, printedValue v) :: printedMembers ms

end

mutual

/-- The value keeps the limits of the parser on nesting, with so many levels left, on the number of
members and items, and on repeated names. -/
def keepsLimits : ℕ → Json → Bool
  | 0, _ => false
  | _ + 1, .number _ | _ + 1, .string _ => true
  | levels + 1, .array items => itemsKeepLimits levels items && items.length ≤ arrayMaxCapacity
  | levels + 1, .object members =>
    membersKeepLimits levels members && (members.map fun m => m.1.bytes).Nodup &&
      members.length ≤ objectMaxCapacity

def itemsKeepLimits : ℕ → List Json → Bool
  | _, [] => true
  | levels, v :: vs => keepsLimits levels v && itemsKeepLimits levels vs

def membersKeepLimits : ℕ → List (PlainText × Json) → Bool
  | _, [] => true
  | levels, (_, v) :: ms => keepsLimits levels v && membersKeepLimits levels ms

end

mutual

theorem syntaxValue_toSyntax : ∀ v : Json, syntaxValue v.toSyntax = printedValue v
  | .number _ => rfl
  | .string t => by
    rw [Json.toSyntax, syntaxValue, PlainText.bytes_pieces, printedValue]
  | .array items => by
    rw [Json.toSyntax, syntaxValue_compactArray, itemsValue_toSyntax items, printedValue]
  | .object members => by
    rw [Json.toSyntax, syntaxValue_compactObject, membersValue_toSyntax members, printedValue]

theorem itemsValue_toSyntax : ∀ vs : List Json,
    (Json.itemsToSyntax vs).map syntaxValue = printedItems vs
  | [] => rfl
  | v :: vs => by
    rw [Json.itemsToSyntax, List.map_cons, syntaxValue_toSyntax v, itemsValue_toSyntax vs,
      printedItems]

theorem membersValue_toSyntax : ∀ ms : List (PlainText × Json),
    (Json.membersToSyntax ms).map (fun m => (m.1.bytes, syntaxValue m.2)) = printedMembers ms
  | [] => rfl
  | (name, v) :: ms => by
    rw [Json.membersToSyntax, List.map_cons, syntaxValue_toSyntax v, membersValue_toSyntax ms,
      printedMembers]

end

mutual

theorem accepts_toSyntax : ∀ (levels : ℕ) (v : Json), keepsLimits levels v = true →
    accepts levels v.toSyntax = true
  | 0, _, h => by simp [keepsLimits] at h
  | _ + 1, .number d, _ => by simp [Json.toSyntax, accepts, numberAccepted]
  | _ + 1, .string t, _ => by simp [Json.toSyntax, accepts]
  | levels + 1, .array items, h => by
    rw [keepsLimits, Bool.and_eq_true, decide_eq_true_eq] at h
    rw [Json.toSyntax]
    refine accepts_compactArray (accepts_itemsToSyntax levels items h.1) ?_
    rw [Json.itemsToSyntax_eq, List.length_map]
    exact h.2
  | levels + 1, .object members, h => by
    rw [keepsLimits, Bool.and_eq_true, Bool.and_eq_true, decide_eq_true_eq,
      decide_eq_true_eq] at h
    rw [Json.toSyntax]
    refine accepts_compactObject (accepts_membersToSyntax levels members h.1.1) ?_ ?_
    · rw [Json.membersToSyntax_eq, List.map_map]
      exact h.1.2
    · rw [Json.membersToSyntax_eq, List.length_map]
      exact h.2

theorem accepts_itemsToSyntax : ∀ (levels : ℕ) (vs : List Json),
    itemsKeepLimits levels vs = true → ∀ w ∈ Json.itemsToSyntax vs, accepts levels w = true
  | _, [], _ => by simp [Json.itemsToSyntax]
  | levels, v :: vs, h => by
    rw [itemsKeepLimits, Bool.and_eq_true] at h
    rw [Json.itemsToSyntax]
    exact List.forall_mem_cons.mpr ⟨accepts_toSyntax levels v h.1,
      accepts_itemsToSyntax levels vs h.2⟩

theorem accepts_membersToSyntax : ∀ (levels : ℕ) (ms : List (PlainText × Json)),
    membersKeepLimits levels ms = true →
    ∀ m ∈ Json.membersToSyntax ms, accepts levels m.2 = true
  | _, [], _ => by simp [Json.membersToSyntax]
  | levels, (name, v) :: ms, h => by
    rw [membersKeepLimits, Bool.and_eq_true] at h
    rw [Json.membersToSyntax]
    exact List.forall_mem_cons.mpr ⟨accepts_toSyntax levels v h.1,
      accepts_membersToSyntax levels ms h.2⟩

end

/-- **A printed object is parsed as it is meant.** -/
theorem jsonParse_printed {members : List (PlainText × Json)}
    (h : keepsLimits (maxNesting + 1) (.object members) = true) :
    jsonParseStringWithComments (Json.text (.object members)) =
      some (.object (printedMembers members)) := by
  have hparse := jsonParse_compact (Json.compact_toSyntax (.object members))
  rw [Json.text_toSyntax, accepts_toSyntax _ _ h, syntaxValue_toSyntax, printedValue] at hparse
  rw [hparse, Json.toSyntax, isContainer_compactObject]
  rfl

/-- An integer that a double holds is read exactly. -/
theorem printedValue_ofInt {z : ℤ} (h : |z| < 2 ^ 53) :
    printedValue (.number (Decimal.ofInt z)) = .number (.finite z) := by
  have hvalue : Scientific.value ⟨Decimal.ofInt z, none⟩ = z := by
    have hpower : powerOf 10 (0 - ((0 : ℕ) : ℤ)) = 1 := rfl
    simp only [Scientific.value, Decimal.ofInt, Scientific.exponentToInt, hpower, pow_zero,
      mul_one, add_zero, Nat.cast_natAbs]
    by_cases hz : z < 0
    · simp [hz, abs_of_neg hz]
    · simp [hz, abs_of_nonneg (not_lt.mp hz)]
  rw [printedValue, hvalue, Binary64.ofRat_intCast h]

theorem printedValue_ofNat {n : ℕ} (h : n < 2 ^ 53) :
    printedValue (.number (Decimal.ofNat n)) = .number (.finite n) := by
  have hsame : Decimal.ofNat n = Decimal.ofInt n := by
    ext <;> simp [Decimal.ofNat, Decimal.ofInt]
  rw [hsame, printedValue_ofInt (by rw [Nat.abs_cast]; exact_mod_cast h)]
  rfl

/-! ## Looking up -/

/-- A member is found under its name, if there is no other one of that name. -/
theorem jsonObjectGetValue_of_mem {fields : JsonObject} (hnodup : (fields.map Prod.fst).Nodup)
    {name : String} {v : JsonValue} (h : (cstr name, v) ∈ fields) :
    jsonObjectGetValue fields name = some v := by
  induction fields with
  | nil => exact absurd h List.not_mem_nil
  | cons field fields ih =>
    rw [List.map_cons, List.nodup_cons] at hnodup
    rw [jsonObjectGetValue, List.find?_cons]
    rcases List.mem_cons.mp h with hfirst | hrest
    · rw [← hfirst, decide_eq_true rfl]
      rfl
    · have hne : field.1 ≠ cstr name := fun heq =>
        hnodup.1 (heq ▸ List.mem_map_of_mem hrest)
      rw [decide_eq_false hne]
      exact ih hnodup.2 hrest

/-- There is no member of another name. -/
theorem jsonObjectGetValue_of_not_mem {fields : JsonObject} {name : String}
    (h : cstr name ∉ fields.map Prod.fst) : jsonObjectGetValue fields name = none := by
  rw [jsonObjectGetValue, Option.map_eq_none_iff, List.find?_eq_none]
  intro field hfield
  rw [decide_eq_true_eq]
  exact fun heq => h (heq ▸ List.mem_map_of_mem hfield)

end PacketForwarder
