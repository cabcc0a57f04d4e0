import Mathlib

/-!
# Composing a text in a buffer

C code that composes a text keeps a buffer and the index where the text ends so far.
`memcpy` and single assignments do not look at the size of the buffer; `snprintf` stops at
the end of the room it is given, but returns the length of the whole text.

* `TextBuffer` — the memory from the start of the buffer on, which has no end here, the
  indices written so far, and the index;
* `put`, `putTerminated`, `print` — the ways to add a text;
* `Appends` — a text has been added; in a buffer it fits, nothing was written outside and the
  contents are the old ones followed by it.
-/

/-- A buffer, and what comes after it in memory. -/
structure TextBuffer (α : Type*) where
  memory : ℕ → α
  /-- The indices that have been written. -/
  written : List ℕ
  /-- The index at which the text ends. -/
  index : ℕ

namespace TextBuffer

variable {α : Type*}

/-- The elements are written from index `i` on. -/
def write (b : TextBuffer α) (i : ℕ) (xs : List α) : TextBuffer α where
  memory k := if i ≤ k then xs.getD (k - i) (b.memory k) else b.memory k
  written := b.written ++ List.range' i xs.length
  index := b.index

/-- The text goes on at `index`. -/
def advance (b : TextBuffer α) (n : ℕ) : TextBuffer α := { b with index := b.index + n }

/-- `memcpy`. -/
def put (b : TextBuffer α) (text : List α) : TextBuffer α :=
  (b.write b.index text).advance text.length

/-- A text and its terminator, which the next text overwrites. -/
def putTerminated (nul : α) (b : TextBuffer α) (text : List α) : TextBuffer α :=
  (b.write b.index (text ++ [nul])).advance text.length

/-- `snprintf`. -/
def print (nul : α) (room : ℕ) (b : TextBuffer α) (text : List α) : TextBuffer α :=
  (b.write b.index (if room = 0 then [] else text.take (room - 1) ++ [nul])).advance text.length

/-- The text that has been composed so far. -/
def contents (b : TextBuffer α) : List α := (List.range b.index).map b.memory

/-- All that was written is in a buffer of this size. -/
def Within (size : ℕ) (b : TextBuffer α) : Prop := ∀ k ∈ b.written, k < size

instance (size : ℕ) (b : TextBuffer α) : Decidable (b.Within size) :=
  inferInstanceAs (Decidable (∀ k ∈ b.written, k < size))

@[simp] theorem length_contents (b : TextBuffer α) : b.contents.length = b.index := by
  simp [contents]

theorem within_write {size : ℕ} {b : TextBuffer α} {i : ℕ} {xs : List α} :
    (b.write i xs).Within size ↔ b.Within size ∧ (xs = [] ∨ i + xs.length ≤ size) := by
  have hrange : (∀ k ∈ List.range' i xs.length, k < size) ↔ xs = [] ∨ i + xs.length ≤ size := by
    constructor
    · intro h
      cases xs with
      | nil => exact .inl rfl
      | cons x xs =>
        have hlast := h (i + xs.length) (List.mem_range'_1.mpr ⟨by omega, by simp⟩)
        refine .inr ?_
        rw [List.length_cons]
        omega
    · rintro (rfl | hle) k hk
      · cases hk
      · exact lt_of_lt_of_le (List.mem_range'_1.mp hk).2 hle
  unfold Within write
  rw [List.forall_mem_append, hrange]

theorem within_put {size : ℕ} {b : TextBuffer α} {text : List α} :
    (b.put text).Within size ↔ b.Within size ∧ (text = [] ∨ b.index + text.length ≤ size) :=
  within_write

/-- Below where it is written, memory is as before. -/
theorem memory_write_of_lt (b : TextBuffer α) {i k : ℕ} (h : k < i) (xs : List α) :
    (b.write i xs).memory k = b.memory k :=
  if_neg (not_le.mpr h)

theorem contents_write_of_le (b : TextBuffer α) {i : ℕ} (h : b.index ≤ i) (xs : List α) :
    (b.write i xs).contents = b.contents := by
  unfold contents
  refine List.map_congr_left fun k hk => ?_
  exact memory_write_of_lt b (lt_of_lt_of_le (List.mem_range.mp hk) h) xs

/-- What is written at the index, up to where the index then stands, is added to the
contents. -/
theorem contents_advance_write (b : TextBuffer α) (text rest : List α) :
    ((b.write b.index (text ++ rest)).advance text.length).contents = b.contents ++ text := by
  have hold : (List.range b.index).map (b.write b.index (text ++ rest)).memory = b.contents :=
    contents_write_of_le b le_rfl (text ++ rest)
  have hnew : ((List.range text.length).map (b.index + ·)).map
      (b.write b.index (text ++ rest)).memory = text := by
    rw [List.map_map]
    refine List.ext_getElem (by simp) fun k _ hk => ?_
    simp [write, List.getElem?_append_left hk, List.getElem?_eq_getElem hk]
  show (List.range (b.index + text.length)).map (b.write b.index (text ++ rest)).memory = _
  rw [List.range_add, List.map_append, hold, hnew]

/-- **A text has been added** behind the one that was there. -/
structure Appends (size : ℕ) (b b' : TextBuffer α) (text : List α) : Prop where
  index : b'.index = b.index + text.length
  within : b.index + text.length < size → b.Within size → b'.Within size
  contents : b.index + text.length < size → b'.contents = b.contents ++ text

namespace Appends

variable {size : ℕ} {b b' b'' : TextBuffer α} {text text' : List α}

theorem refl (size : ℕ) (b : TextBuffer α) : Appends size b b [] :=
  ⟨rfl, fun _ h => h, fun _ => (List.append_nil _).symm⟩

theorem trans (h : Appends size b b' text) (h' : Appends size b' b'' text') :
    Appends size b b'' (text ++ text') := by
  have hindex : b'.index + text'.length = b.index + (text ++ text').length := by
    rw [h.index, List.length_append]
    omega
  have hfirst : b.index + (text ++ text').length < size → b.index + text.length < size := by
    rw [List.length_append]
    omega
  refine ⟨?_, ?_, ?_⟩
  · rw [h'.index, hindex]
  · intro hlt hwithin
    exact h'.within (by rwa [hindex]) (h.within (hfirst hlt) hwithin)
  · intro hlt
    rw [h'.contents (by rwa [hindex]), h.contents (hfirst hlt), List.append_assoc]

theorem put (size : ℕ) (b : TextBuffer α) (text : List α) : Appends size b (b.put text) text := by
  refine ⟨rfl, ?_, ?_⟩
  · intro hlt hwithin
    exact within_write.mpr ⟨hwithin, .inr hlt.le⟩
  · intro _
    have hcontents := contents_advance_write b text []
    rwa [List.append_nil] at hcontents

theorem putTerminated (size : ℕ) (nul : α) (b : TextBuffer α) (text : List α) :
    Appends size b (b.putTerminated nul text) text := by
  refine ⟨rfl, ?_, fun _ => contents_advance_write b text [nul]⟩
  intro hlt hwithin
  refine within_write.mpr ⟨hwithin, .inr ?_⟩
  rw [List.length_append, List.length_singleton]
  omega

/-- With room up to the end of the buffer, `snprintf` adds its text. -/
theorem print (nul : α) {room : ℕ} (hroom : b.index < size → room = size - b.index)
    (text : List α) : Appends size b (b.print nul room text) text := by
  have hfull : b.index + text.length < size →
      b.print nul room text = b.putTerminated nul text := by
    intro hlt
    have hr : room = size - b.index := hroom (by omega)
    unfold TextBuffer.print TextBuffer.putTerminated
    rw [if_neg (by omega), List.take_of_length_le (by omega)]
  refine ⟨rfl, ?_, ?_⟩
  · intro hlt hwithin
    rw [hfull hlt]
    exact (putTerminated size nul b text).within hlt hwithin
  · intro hlt
    rw [hfull hlt]
    exact (putTerminated size nul b text).contents hlt

/-- A text that has been added can be taken back to some point of it. -/
theorem rewind {rest : List α} (h : Appends size b b' (text ++ rest))
    (hfit : b.index + (text ++ rest).length < size) :
    Appends size b { b' with index := b'.index - rest.length } text := by
  have hindex : b'.index - rest.length = b.index + text.length := by
    rw [h.index, List.length_append]
    omega
  refine ⟨hindex, fun _ hwithin => h.within hfit hwithin, fun _ => ?_⟩
  have htaken : ({ b' with index := b'.index - rest.length } : TextBuffer α).contents =
      b'.contents.take (b.index + text.length) := by
    unfold TextBuffer.contents
    rw [← List.map_take, List.take_range, hindex, Nat.min_eq_left]
    rw [h.index, List.length_append]
    omega
  rw [htaken, h.contents hfit, ← List.append_assoc, List.take_left']
  rw [List.length_append, length_contents]

end Appends

end TextBuffer
