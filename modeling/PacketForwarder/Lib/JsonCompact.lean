import PacketForwarder.Lib.JsonSyntax
import PacketForwarder.Lib.JsonText

/-!
# Texts without blanks

What programs print by hand has no blanks, escapes and exponents.  As trees of the grammar such
texts are made from lists.

* `JsonSyntax.Compact` — no blanks at all;
* `compactArray`, `compactObject` — the trees, `text_compactArray` and `text_compactObject` their
  texts;
* `Json.toSyntax` — a value that is printed, as a tree with the same text.
-/

/-- A tree is compact where there are no blanks at all in its text. -/
abbrev JsonSyntax.Compact (t : JsonSyntax) : Prop := t.AllBlanks fun _ => False

/-! ## Strings -/

theorem isPlain_allowed {c : BitVec 8} (h : isPlain c = true) : 32 ≤ c ∧ c ≠ 34 ∧ c ≠ 92 := by
  revert c
  decide

/-- A string that is printed as it is. -/
def PlainText.pieces (t : PlainText) : List StringPiece :=
  t.bytes.pmap StringPiece.plain fun c hc => isPlain_allowed (t.plain c hc)

theorem flatMap_pmap_plain {f : StringPiece → List (BitVec 8)}
    (hf : ∀ c allowed, f (.plain c allowed) = [c]) {l : List (BitVec 8)}
    (h : ∀ c ∈ l, 32 ≤ c ∧ c ≠ 34 ∧ c ≠ 92) : (l.pmap StringPiece.plain h).flatMap f = l := by
  induction l with
  | nil => rfl
  | cons c l ih =>
    rw [List.pmap_cons, List.flatMap_cons, hf, ih, List.singleton_append]

@[simp] theorem PlainText.text_pieces (t : PlainText) :
    t.pieces.flatMap StringPiece.text = t.bytes :=
  flatMap_pmap_plain (fun _ _ => rfl) _

@[simp] theorem PlainText.bytes_pieces (t : PlainText) :
    t.pieces.flatMap StringPiece.bytes = t.bytes :=
  flatMap_pmap_plain (fun _ _ => rfl) _

/-! ## Arrays and objects -/

/-- The items of an array, with no blanks around them. -/
def compactItems : JsonSyntax → List JsonSyntax → JsonItems
  | v, [] => .last [] v []
  | v, w :: vs => .more [] v [] (compactItems w vs)

/-- An array that is written without blanks. -/
def compactArray : List JsonSyntax → JsonSyntax
  | [] => .emptyArray []
  | v :: vs => .array (compactItems v vs)

/-- A name with its colon, and no blanks around it. -/
def compactKey (name : PlainText) : Key := ⟨[], name.pieces, []⟩

/-- The members of an object, with no blanks around them. -/
def compactMembers : PlainText × JsonSyntax → List (PlainText × JsonSyntax) → JsonMembers
  | m, [] => .last (compactKey m.1) [] m.2 []
  | m, n :: ms => .more (compactKey m.1) [] m.2 [] (compactMembers n ms)

/-- An object that is written without blanks. -/
def compactObject : List (PlainText × JsonSyntax) → JsonSyntax
  | [] => .emptyObject []
  | m :: ms => .object (compactMembers m ms)

/-- A member of an object after the first. -/
def compactMemberText (m : PlainText × JsonSyntax) : List (BitVec 8) :=
  44 :: 34 :: (m.1.bytes ++ 34 :: 58 :: m.2.text)

theorem text_compactItems (v : JsonSyntax) (vs : List JsonSyntax) :
    (compactItems v vs).text = v.text ++ (vs.flatMap fun w => 44 :: w.text) ++ [93] := by
  induction vs generalizing v with
  | nil => simp [compactItems, JsonItems.text]
  | cons w vs ih => simp [compactItems, JsonItems.text, ih]

theorem text_compactArray (v : JsonSyntax) (vs : List JsonSyntax) :
    (compactArray (v :: vs)).text =
      91 :: (v.text ++ (vs.flatMap fun w => 44 :: w.text) ++ [93]) := by
  rw [compactArray, JsonSyntax.text, text_compactItems]

theorem text_compactMembers (m : PlainText × JsonSyntax) (ms : List (PlainText × JsonSyntax)) :
    (compactMembers m ms).text =
      (compactMemberText m).tail ++ ms.flatMap compactMemberText ++ [125] := by
  induction ms generalizing m with
  | nil => simp [compactMembers, JsonMembers.text, compactKey, Key.text, quotedText,
      compactMemberText]
  | cons n ms ih =>
    simp [compactMembers, JsonMembers.text, compactKey, Key.text, quotedText,
      compactMemberText, ih]

theorem text_compactObject (m : PlainText × JsonSyntax) (ms : List (PlainText × JsonSyntax)) :
    (compactObject (m :: ms)).text =
      123 :: ((compactMemberText m).tail ++ ms.flatMap compactMemberText ++ [125]) := by
  rw [compactObject, JsonSyntax.text, text_compactMembers]

theorem compact_compactArray {vs : List JsonSyntax} (h : ∀ v ∈ vs, v.Compact) :
    (compactArray vs).Compact := by
  cases vs with
  | nil => simp [compactArray, JsonSyntax.Compact, JsonSyntax.AllBlanks]
  | cons v vs =>
    rw [compactArray, JsonSyntax.Compact, JsonSyntax.AllBlanks]
    induction vs generalizing v with
    | nil => simp [compactItems, JsonItems.AllBlanks, h v]
    | cons w vs ih =>
      obtain ⟨hv, hrest⟩ := List.forall_mem_cons.mp h
      simpa [compactItems, JsonItems.AllBlanks] using ⟨hv, ih w hrest⟩

theorem compact_compactObject {ms : List (PlainText × JsonSyntax)} (h : ∀ m ∈ ms, m.2.Compact) :
    (compactObject ms).Compact := by
  cases ms with
  | nil => simp [compactObject, JsonSyntax.Compact, JsonSyntax.AllBlanks]
  | cons m ms =>
    rw [compactObject, JsonSyntax.Compact, JsonSyntax.AllBlanks]
    induction ms generalizing m with
    | nil => simpa [compactMembers, JsonMembers.AllBlanks, compactKey] using h m
    | cons n ms ih =>
      obtain ⟨hm, hrest⟩ := List.forall_mem_cons.mp h
      simpa [compactMembers, JsonMembers.AllBlanks, compactKey] using ⟨hm, ih n hrest⟩

/-! ## Values that are printed -/

namespace Json

mutual

/-- The tree of the text of a value. -/
def toSyntax : Json → JsonSyntax
  | number d => .number ⟨d, none⟩
  | string t => .string t.pieces
  | array items => compactArray (itemsToSyntax items)
  | object members => compactObject (membersToSyntax members)

def itemsToSyntax : List Json → List JsonSyntax
  | [] => []
  | v :: vs => toSyntax v :: itemsToSyntax vs

def membersToSyntax : List (PlainText × Json) → List (PlainText × JsonSyntax)
  | [] => []
  | (name, v) :: ms => (name, toSyntax v) :: membersToSyntax ms

end

theorem itemsToSyntax_eq (vs : List Json) : itemsToSyntax vs = vs.map toSyntax := by
  induction vs with
  | nil => rfl
  | cons v vs ih => rw [itemsToSyntax, ih, List.map_cons]

theorem membersToSyntax_eq (ms : List (PlainText × Json)) :
    membersToSyntax ms = ms.map fun m => (m.1, toSyntax m.2) := by
  induction ms with
  | nil => rfl
  | cons m ms ih => rw [membersToSyntax, ih, List.map_cons]

mutual

/-- **A value has the same text** as the tree it is turned into. -/
theorem text_toSyntax : ∀ v : Json, v.toSyntax.text = v.text
  | number d => by
    simp [toSyntax, JsonSyntax.text, Scientific.text, Scientific.exponentText, text]
  | string t => by simp [toSyntax, JsonSyntax.text, quotedText, text]
  | array [] => rfl
  | array (v :: vs) => by
    rw [toSyntax, itemsToSyntax, text_compactArray, text_toSyntax v, text_itemsToSyntax vs, text,
      itemsText_eq, List.append_assoc]
  | object [] => rfl
  | object ((name, v) :: ms) => by
    rw [toSyntax, membersToSyntax, text_compactObject, text_membersToSyntax ms, text_object_cons,
      membersText_eq, compactMemberText, text_toSyntax v, memberText, List.append_assoc]

theorem text_itemsToSyntax : ∀ vs : List Json,
    (itemsToSyntax vs).flatMap (fun w => 44 :: w.text) = vs.flatMap fun v => 44 :: text v
  | [] => rfl
  | v :: vs => by
    rw [itemsToSyntax, List.flatMap_cons, List.flatMap_cons, text_toSyntax v,
      text_itemsToSyntax vs]

theorem text_membersToSyntax : ∀ ms : List (PlainText × Json),
    (membersToSyntax ms).flatMap compactMemberText = ms.flatMap memberText
  | [] => rfl
  | (name, v) :: ms => by
    rw [membersToSyntax, List.flatMap_cons, List.flatMap_cons, text_membersToSyntax ms,
      compactMemberText, text_toSyntax v, memberText]

end

mutual

theorem compact_toSyntax : ∀ v : Json, v.toSyntax.Compact
  | number _ | string _ => by simp [toSyntax, JsonSyntax.Compact, JsonSyntax.AllBlanks]
  | array items => by
    rw [toSyntax]
    exact compact_compactArray (compact_itemsToSyntax items)
  | object members => by
    rw [toSyntax]
    exact compact_compactObject (compact_membersToSyntax members)

theorem compact_itemsToSyntax : ∀ vs : List Json, ∀ w ∈ itemsToSyntax vs, w.Compact
  | [] => by simp [itemsToSyntax]
  | v :: vs => by
    rw [itemsToSyntax]
    exact List.forall_mem_cons.mpr ⟨compact_toSyntax v, compact_itemsToSyntax vs⟩

theorem compact_membersToSyntax : ∀ ms : List (PlainText × Json),
    ∀ m ∈ membersToSyntax ms, m.2.Compact
  | [] => by simp [membersToSyntax]
  | (name, v) :: ms => by
    rw [membersToSyntax]
    exact List.forall_mem_cons.mpr ⟨compact_toSyntax v, compact_membersToSyntax ms⟩

end

end Json
