import PacketForwarder.Lib.Strtod

/-!
# The syntax of JSON

JSON texts with everything the grammar allows: blanks, escapes, exponents; and, as an
extension that configuration files use, comments between the tokens.

* `Blank`, `StringPiece`, `JsonSyntax` — the trees;
* `JsonSyntax.text` — the text of a tree;
* `StringPiece.bytes` — what a string stands for, in UTF-8;
* `JsonSyntax.mapBlanks` — the tree with other blanks; `AllBlanks` — what holds of its blanks;
* `JsonSyntax.text_ne_zero` — a text has no null byte.

An escape of half a surrogate pair stands for no character and is left out.
-/

/-- The UTF-8 encoding of a code point. -/
def utf8 (cp : ℕ) : List (BitVec 8) :=
  let byte (n : ℕ) : BitVec 8 := BitVec.ofNat 8 n
  if cp < 0x80 then [byte cp]
  else if cp < 0x800 then [byte (0xC0 + cp / 64), byte (0x80 + cp % 64)]
  else if cp < 0x10000 then
    [byte (0xE0 + cp / 4096), byte (0x80 + cp / 64 % 64), byte (0x80 + cp % 64)]
  else
    [byte (0xF0 + cp / 262144), byte (0x80 + cp / 4096 % 64), byte (0x80 + cp / 64 % 64),
      byte (0x80 + cp % 64)]

/-! ## Strings -/

/-- The four digits of a `\u` escape. -/
structure HexQuad where
  a : BitVec 8
  b : BitVec 8
  c : BitVec 8
  d : BitVec 8
  isHex : isHexDigit a = true ∧ isHexDigit b = true ∧ isHexDigit c = true ∧ isHexDigit d = true

namespace HexQuad

def text (q : HexQuad) : List (BitVec 8) := [q.a, q.b, q.c, q.d]

def value (q : HexQuad) : ℕ := valueInBase 16 hexDigitValue q.text

end HexQuad

/-- The characters that are escaped by a letter or by themselves. -/
inductive Escape
  | quote
  | backslash
  | slash
  | backspace
  | formFeed
  | newline
  | carriageReturn
  | tab

namespace Escape

/-- The letter that stands behind the backslash. -/
def letter : Escape → BitVec 8
  | quote => 34
  | backslash => 92
  | slash => 47
  | backspace => 98
  | formFeed => 102
  | newline => 110
  | carriageReturn => 114
  | tab => 116

/-- The character that is meant by the escape. -/
def byte : Escape → BitVec 8
  | quote => 34
  | backslash => 92
  | slash => 47
  | backspace => 8
  | formFeed => 12
  | newline => 10
  | carriageReturn => 13
  | tab => 9

end Escape

/-- What a string is made of. -/
inductive StringPiece
  | plain (c : BitVec 8) (allowed : 32 ≤ c ∧ c ≠ 34 ∧ c ≠ 92)
  | escape (e : Escape)
  /-- A character of the first plane. -/
  | unicode (q : HexQuad) (single : q.value < 0xD800 ∨ 0xDFFF < q.value)
  /-- A character of another plane, in two halves. -/
  | surrogates (lead trail : HexQuad) (isLead : 0xD800 ≤ lead.value ∧ lead.value ≤ 0xDBFF)
      (isTrail : 0xDC00 ≤ trail.value ∧ trail.value ≤ 0xDFFF)

namespace StringPiece

def text : StringPiece → List (BitVec 8)
  | plain c _ => [c]
  | escape e => [92, e.letter]
  | unicode q _ => 92 :: 117 :: q.text
  | surrogates lead trail _ _ => 92 :: 117 :: (lead.text ++ 92 :: 117 :: trail.text)

/-- The bytes that a piece of a string stands for. -/
def bytes : StringPiece → List (BitVec 8)
  | plain c _ => [c]
  | escape e => [e.byte]
  | unicode q _ => utf8 q.value
  | surrogates lead trail _ _ =>
    utf8 (0x10000 + (lead.value - 0xD800) * 0x400 + (trail.value - 0xDC00))

end StringPiece

/-! ## Blanks -/

/-- What may stand between two tokens. -/
inductive Blank
  | space
  | tab
  | newline
  | carriageReturn
  /-- A comment between its tokens, to the first of the ending ones. -/
  | block (body : List (BitVec 8)) (noNul : 0 ∉ body) (ends : ¬[42, 47] <:+: body ++ [42])
  /-- A comment to the end of the line.  What would mean something elsewhere is left out. -/
  | line (body : List (BitVec 8)) (plain : ∀ c ∈ body, c ≠ 0 ∧ c ≠ 10 ∧ c ≠ 34 ∧ c ≠ 92)
      (noBlock : ¬[47, 42] <:+: 47 :: body)

namespace Blank

def text : Blank → List (BitVec 8)
  | space => [32]
  | tab => [9]
  | newline => [10]
  | carriageReturn => [13]
  | block body _ _ => 47 :: 42 :: (body ++ [42, 47])
  | line body _ _ => 47 :: 47 :: (body ++ [10])

def isComment : Blank → Bool
  | block _ _ _ | line _ _ _ => true
  | _ => false

end Blank

/-! ## Values -/

/-- The text of a string, with its quotes. -/
def quotedText (pieces : List StringPiece) : List (BitVec 8) :=
  34 :: (pieces.flatMap StringPiece.text ++ [34])

def blanksText (blanks : List Blank) : List (BitVec 8) := blanks.flatMap Blank.text

/-- The name of a member, with its colon. -/
structure Key where
  before : List Blank
  name : List StringPiece
  after : List Blank

namespace Key

def text (k : Key) : List (BitVec 8) :=
  blanksText k.before ++ (quotedText k.name ++ (blanksText k.after ++ [58]))

def mapBlanks (f : Blank → List Blank) (k : Key) : Key :=
  ⟨k.before.flatMap f, k.name, k.after.flatMap f⟩

end Key

mutual

/-- A value as it is written. -/
inductive JsonSyntax
  | null
  | boolean (b : Bool)
  | number (n : Scientific)
  | string (pieces : List StringPiece)
  | emptyArray (blanks : List Blank)
  | array (items : JsonItems)
  | emptyObject (blanks : List Blank)
  | object (members : JsonMembers)

/-- The items of an array that is not empty. -/
inductive JsonItems
  | last (before : List Blank) (v : JsonSyntax) (after : List Blank)
  | more (before : List Blank) (v : JsonSyntax) (after : List Blank) (rest : JsonItems)

/-- The members of an object that is not empty. -/
inductive JsonMembers
  | last (key : Key) (before : List Blank) (v : JsonSyntax) (after : List Blank)
  | more (key : Key) (before : List Blank) (v : JsonSyntax) (after : List Blank)
      (rest : JsonMembers)

end

mutual

/-- The text of a value, with all its blanks. -/
def JsonSyntax.text : JsonSyntax → List (BitVec 8)
  | .null => [110, 117, 108, 108]
  | .boolean true => [116, 114, 117, 101]
  | .boolean false => [102, 97, 108, 115, 101]
  | .number n => n.text
  | .string pieces => quotedText pieces
  | .emptyArray blanks => 91 :: (blanksText blanks ++ [93])
  | .array items => 91 :: items.text
  | .emptyObject blanks => 123 :: (blanksText blanks ++ [125])
  | .object members => 123 :: members.text

/-- The text of the items of an array, with the bracket. -/
def JsonItems.text : JsonItems → List (BitVec 8)
  | .last before v after => blanksText before ++ (v.text ++ (blanksText after ++ [93]))
  | .more before v after rest =>
    blanksText before ++ (v.text ++ (blanksText after ++ 44 :: rest.text))

/-- The text of the members of an object, with the brace. -/
def JsonMembers.text : JsonMembers → List (BitVec 8)
  | .last key before v after =>
    key.text ++ (blanksText before ++ (v.text ++ (blanksText after ++ [125])))
  | .more key before v after rest =>
    key.text ++ (blanksText before ++ (v.text ++ (blanksText after ++ 44 :: rest.text)))

end

mutual

/-- The tree with each of its blanks replaced by some others. -/
def JsonSyntax.mapBlanks (f : Blank → List Blank) : JsonSyntax → JsonSyntax
  | .null => .null
  | .boolean b => .boolean b
  | .number n => .number n
  | .string pieces => .string pieces
  | .emptyArray blanks => .emptyArray (blanks.flatMap f)
  | .array items => .array (items.mapBlanks f)
  | .emptyObject blanks => .emptyObject (blanks.flatMap f)
  | .object members => .object (members.mapBlanks f)

def JsonItems.mapBlanks (f : Blank → List Blank) : JsonItems → JsonItems
  | .last before v after => .last (before.flatMap f) (v.mapBlanks f) (after.flatMap f)
  | .more before v after rest =>
    .more (before.flatMap f) (v.mapBlanks f) (after.flatMap f) (rest.mapBlanks f)

def JsonMembers.mapBlanks (f : Blank → List Blank) : JsonMembers → JsonMembers
  | .last key before v after =>
    .last (key.mapBlanks f) (before.flatMap f) (v.mapBlanks f) (after.flatMap f)
  | .more key before v after rest =>
    .more (key.mapBlanks f) (before.flatMap f) (v.mapBlanks f) (after.flatMap f)
      (rest.mapBlanks f)

end

mutual

/-- What holds of all the blanks of a tree. -/
def JsonSyntax.AllBlanks (P : Blank → Prop) : JsonSyntax → Prop
  | .null | .boolean _ | .number _ | .string _ => True
  | .emptyArray blanks | .emptyObject blanks => ∀ b ∈ blanks, P b
  | .array items => items.AllBlanks P
  | .object members => members.AllBlanks P

def JsonItems.AllBlanks (P : Blank → Prop) : JsonItems → Prop
  | .last before v after => (∀ b ∈ before, P b) ∧ v.AllBlanks P ∧ ∀ b ∈ after, P b
  | .more before v after rest =>
    (∀ b ∈ before, P b) ∧ v.AllBlanks P ∧ (∀ b ∈ after, P b) ∧ rest.AllBlanks P

def JsonMembers.AllBlanks (P : Blank → Prop) : JsonMembers → Prop
  | .last key before v after =>
    ((∀ b ∈ key.before, P b) ∧ ∀ b ∈ key.after, P b) ∧ (∀ b ∈ before, P b) ∧ v.AllBlanks P ∧
      ∀ b ∈ after, P b
  | .more key before v after rest =>
    ((∀ b ∈ key.before, P b) ∧ ∀ b ∈ key.after, P b) ∧ (∀ b ∈ before, P b) ∧ v.AllBlanks P ∧
      (∀ b ∈ after, P b) ∧ rest.AllBlanks P

end

/-! ## Laws of the trees -/

@[simp] theorem blanksText_nil : blanksText [] = [] := rfl

@[simp] theorem blanksText_cons (b : Blank) (bs : List Blank) :
    blanksText (b :: bs) = b.text ++ blanksText bs := rfl

theorem forall_mem_flatMap {P Q : Blank → Prop} {f : Blank → List Blank}
    (hf : ∀ b, P b → ∀ b' ∈ f b, Q b') {bs : List Blank} (h : ∀ b ∈ bs, P b) :
    ∀ b ∈ bs.flatMap f, Q b := by
  intro b hb
  obtain ⟨b', hmem, hb'⟩ := List.mem_flatMap.mp hb
  exact hf b' (h b' hmem) b hb'

mutual

/-- New blanks have what the map gives them. -/
theorem JsonSyntax.AllBlanks.mapBlanks {P Q : Blank → Prop} {f : Blank → List Blank}
    (hf : ∀ b, P b → ∀ b' ∈ f b, Q b') :
    ∀ {t : JsonSyntax}, t.AllBlanks P → (t.mapBlanks f).AllBlanks Q
  | .null, _ | .boolean _, _ | .number _, _ | .string _, _ => by
    simp [JsonSyntax.mapBlanks, JsonSyntax.AllBlanks]
  | .emptyArray _, h | .emptyObject _, h => by
    simp only [JsonSyntax.AllBlanks, JsonSyntax.mapBlanks] at h ⊢
    exact forall_mem_flatMap hf h
  | .array items, h => by
    simp only [JsonSyntax.AllBlanks, JsonSyntax.mapBlanks] at h ⊢
    exact JsonItems.AllBlanks.mapBlanks hf h
  | .object members, h => by
    simp only [JsonSyntax.AllBlanks, JsonSyntax.mapBlanks] at h ⊢
    exact JsonMembers.AllBlanks.mapBlanks hf h

theorem JsonItems.AllBlanks.mapBlanks {P Q : Blank → Prop} {f : Blank → List Blank}
    (hf : ∀ b, P b → ∀ b' ∈ f b, Q b') :
    ∀ {items : JsonItems}, items.AllBlanks P → (items.mapBlanks f).AllBlanks Q
  | .last before v after, h => by
    simp only [JsonItems.AllBlanks, JsonItems.mapBlanks] at h ⊢
    exact ⟨forall_mem_flatMap hf h.1, JsonSyntax.AllBlanks.mapBlanks hf h.2.1,
      forall_mem_flatMap hf h.2.2⟩
  | .more before v after rest, h => by
    simp only [JsonItems.AllBlanks, JsonItems.mapBlanks] at h ⊢
    exact ⟨forall_mem_flatMap hf h.1, JsonSyntax.AllBlanks.mapBlanks hf h.2.1,
      forall_mem_flatMap hf h.2.2.1, JsonItems.AllBlanks.mapBlanks hf h.2.2.2⟩

theorem JsonMembers.AllBlanks.mapBlanks {P Q : Blank → Prop} {f : Blank → List Blank}
    (hf : ∀ b, P b → ∀ b' ∈ f b, Q b') :
    ∀ {members : JsonMembers}, members.AllBlanks P → (members.mapBlanks f).AllBlanks Q
  | .last key before v after, h => by
    simp only [JsonMembers.AllBlanks, JsonMembers.mapBlanks, Key.mapBlanks] at h ⊢
    exact ⟨⟨forall_mem_flatMap hf h.1.1, forall_mem_flatMap hf h.1.2⟩,
      forall_mem_flatMap hf h.2.1, JsonSyntax.AllBlanks.mapBlanks hf h.2.2.1,
      forall_mem_flatMap hf h.2.2.2⟩
  | .more key before v after rest, h => by
    simp only [JsonMembers.AllBlanks, JsonMembers.mapBlanks, Key.mapBlanks] at h ⊢
    exact ⟨⟨forall_mem_flatMap hf h.1.1, forall_mem_flatMap hf h.1.2⟩,
      forall_mem_flatMap hf h.2.1, JsonSyntax.AllBlanks.mapBlanks hf h.2.2.1,
      forall_mem_flatMap hf h.2.2.2.1, JsonMembers.AllBlanks.mapBlanks hf h.2.2.2.2⟩

end

mutual

/-- What holds of every blank holds of those of a tree. -/
theorem JsonSyntax.allBlanks_of_forall {P : Blank → Prop} (h : ∀ b, P b) :
    ∀ t : JsonSyntax, t.AllBlanks P
  | .null | .boolean _ | .number _ | .string _ | .emptyArray _ | .emptyObject _ => by
    simp [JsonSyntax.AllBlanks, h]
  | .array items => by
    rw [JsonSyntax.AllBlanks]
    exact JsonItems.allBlanks_of_forall h items
  | .object members => by
    rw [JsonSyntax.AllBlanks]
    exact JsonMembers.allBlanks_of_forall h members

theorem JsonItems.allBlanks_of_forall {P : Blank → Prop} (h : ∀ b, P b) :
    ∀ items : JsonItems, items.AllBlanks P
  | .last _ v _ => ⟨fun b _ => h b, JsonSyntax.allBlanks_of_forall h v, fun b _ => h b⟩
  | .more _ v _ rest =>
    ⟨fun b _ => h b, JsonSyntax.allBlanks_of_forall h v, fun b _ => h b,
      JsonItems.allBlanks_of_forall h rest⟩

theorem JsonMembers.allBlanks_of_forall {P : Blank → Prop} (h : ∀ b, P b) :
    ∀ members : JsonMembers, members.AllBlanks P
  | .last _ _ v _ =>
    ⟨⟨fun b _ => h b, fun b _ => h b⟩, fun b _ => h b, JsonSyntax.allBlanks_of_forall h v,
      fun b _ => h b⟩
  | .more _ _ v _ rest =>
    ⟨⟨fun b _ => h b, fun b _ => h b⟩, fun b _ => h b, JsonSyntax.allBlanks_of_forall h v,
      fun b _ => h b, JsonMembers.allBlanks_of_forall h rest⟩

end

mutual

/-- Every blank put in place of itself. -/
theorem JsonSyntax.mapBlanks_self : ∀ t : JsonSyntax, t.mapBlanks (fun b => [b]) = t
  | .null | .boolean _ | .number _ | .string _ => by simp [JsonSyntax.mapBlanks]
  | .emptyArray _ | .emptyObject _ => by simp [JsonSyntax.mapBlanks]
  | .array items => by rw [JsonSyntax.mapBlanks, JsonItems.mapBlanks_self items]
  | .object members => by rw [JsonSyntax.mapBlanks, JsonMembers.mapBlanks_self members]

theorem JsonItems.mapBlanks_self : ∀ items : JsonItems, items.mapBlanks (fun b => [b]) = items
  | .last _ v _ => by simp [JsonItems.mapBlanks, JsonSyntax.mapBlanks_self v]
  | .more _ v _ rest => by
    simp [JsonItems.mapBlanks, JsonSyntax.mapBlanks_self v, JsonItems.mapBlanks_self rest]

theorem JsonMembers.mapBlanks_self :
    ∀ members : JsonMembers, members.mapBlanks (fun b => [b]) = members
  | .last _ _ v _ => by simp [JsonMembers.mapBlanks, Key.mapBlanks, JsonSyntax.mapBlanks_self v]
  | .more _ _ v _ rest => by
    simp [JsonMembers.mapBlanks, Key.mapBlanks, JsonSyntax.mapBlanks_self v,
      JsonMembers.mapBlanks_self rest]

end

/-! ## Null bytes -/

theorem StringPiece.text_ne_zero (p : StringPiece) : ∀ c ∈ p.text, c ≠ 0 := by
  have hhex : ∀ c : BitVec 8, isHexDigit c = true → c ≠ 0 := by decide
  have hquad : ∀ q : HexQuad, ∀ c ∈ q.text, c ≠ 0 := by
    rintro ⟨a, b, c, d, ha, hb, hc, hd⟩
    simpa [HexQuad.text] using ⟨hhex a ha, hhex b hb, hhex c hc, hhex d hd⟩
  cases p with
  | plain c allowed =>
    rw [StringPiece.text, List.forall_mem_singleton]
    rintro rfl
    exact absurd allowed.1 (by decide)
  | escape e => cases e <;> decide
  | unicode q single => simpa [StringPiece.text] using hquad q
  | surrogates lead trail isLead isTrail =>
    have hlead := hquad lead
    have htrail := hquad trail
    intro c hc
    simp only [StringPiece.text, List.mem_cons, List.mem_append] at hc
    rcases hc with rfl | rfl | hmem | rfl | rfl | hmem
    · decide
    · decide
    · exact hlead c hmem
    · decide
    · decide
    · exact htrail c hmem

theorem quotedText_ne_zero (pieces : List StringPiece) : ∀ c ∈ quotedText pieces, c ≠ 0 := by
  intro c hc
  simp only [quotedText, List.mem_cons, List.mem_append, List.mem_flatMap, List.not_mem_nil,
    or_false] at hc
  rcases hc with rfl | ⟨p, -, hmem⟩ | rfl
  · decide
  · exact p.text_ne_zero c hmem
  · decide

theorem Blank.text_ne_zero (b : Blank) : ∀ c ∈ b.text, c ≠ 0 := by
  cases b with
  | space | tab | newline | carriageReturn => decide
  | block body noNul ends =>
    intro c hc
    simp only [Blank.text, List.mem_cons, List.mem_append, List.not_mem_nil, or_false] at hc
    rcases hc with rfl | rfl | hmem | rfl | rfl
    · decide
    · decide
    · rintro rfl
      exact noNul hmem
    · decide
    · decide
  | line body plain noBlock =>
    intro c hc
    simp only [Blank.text, List.mem_cons, List.mem_append, List.not_mem_nil, or_false] at hc
    rcases hc with rfl | rfl | hmem | rfl
    · decide
    · decide
    · exact (plain c hmem).1
    · decide

theorem blanksText_ne_zero (bs : List Blank) : ∀ c ∈ blanksText bs, c ≠ 0 := by
  intro c hc
  obtain ⟨b, -, hmem⟩ := List.mem_flatMap.mp hc
  exact b.text_ne_zero c hmem

theorem Key.text_ne_zero (k : Key) : ∀ c ∈ k.text, c ≠ 0 := by
  simp only [Key.text, List.forall_mem_append, List.forall_mem_singleton]
  exact ⟨blanksText_ne_zero _, quotedText_ne_zero _, blanksText_ne_zero _, by decide⟩

mutual

/-- **A text has no null byte**: it is all there is to a C string. -/
theorem JsonSyntax.text_ne_zero : ∀ t : JsonSyntax, ∀ c ∈ t.text, c ≠ 0
  | .null | .boolean true | .boolean false => by decide
  | .number n => by
    have hall : ∀ c : BitVec 8, Scientific.isNumeralByte c = true → c ≠ 0 := by decide
    exact fun c hc => hall c (n.isNumeralByte_of_mem_text c hc)
  | .string pieces => quotedText_ne_zero pieces
  | .emptyArray blanks | .emptyObject blanks => by
    simp only [JsonSyntax.text, List.forall_mem_cons, List.forall_mem_append]
    exact ⟨by decide, blanksText_ne_zero blanks, by decide⟩
  | .array items => by
    rw [JsonSyntax.text, List.forall_mem_cons]
    exact ⟨by decide, JsonItems.text_ne_zero items⟩
  | .object members => by
    rw [JsonSyntax.text, List.forall_mem_cons]
    exact ⟨by decide, JsonMembers.text_ne_zero members⟩

theorem JsonItems.text_ne_zero : ∀ items : JsonItems, ∀ c ∈ items.text, c ≠ 0
  | .last before v after => by
    simp only [JsonItems.text, List.forall_mem_append]
    exact ⟨blanksText_ne_zero before, JsonSyntax.text_ne_zero v, blanksText_ne_zero after,
      by decide⟩
  | .more before v after rest => by
    simp only [JsonItems.text, List.forall_mem_append, List.forall_mem_cons]
    exact ⟨blanksText_ne_zero before, JsonSyntax.text_ne_zero v, blanksText_ne_zero after,
      by decide, JsonItems.text_ne_zero rest⟩

theorem JsonMembers.text_ne_zero : ∀ members : JsonMembers, ∀ c ∈ members.text, c ≠ 0
  | .last key before v after => by
    simp only [JsonMembers.text, List.forall_mem_append]
    exact ⟨key.text_ne_zero, blanksText_ne_zero before, JsonSyntax.text_ne_zero v,
      blanksText_ne_zero after, by decide⟩
  | .more key before v after rest => by
    simp only [JsonMembers.text, List.forall_mem_append, List.forall_mem_cons]
    exact ⟨key.text_ne_zero, blanksText_ne_zero before, JsonSyntax.text_ne_zero v,
      blanksText_ne_zero after, by decide, JsonMembers.text_ne_zero rest⟩

end
