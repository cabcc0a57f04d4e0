import PacketForwarder.Lib.Slots

/-!
# A buffer that holds the end of a stream

A receive buffer is an array whose first `m` cells are in use: what arrives is written behind
them, and what has been dealt with, or does not fit any more, is dropped from the front by
moving the rest down.

* `moveDown` — move some cells to the start of the array;
* `HoldsTail` — the cells in use are the last elements of all that has arrived, in order;
* `live_write_append`, `live_moveDown` — what is in use after either operation;
* `HoldsTail.write`, `HoldsTail.moveDown` — both operations keep it so, however the stream is
  cut into pieces and whatever is dropped.
-/

namespace Slots

variable {α : Type*} {n m : ℕ} {s : Slots α n} {stream : List α}

/-- Copy the `k` cells from `i` on to the start, as if through a temporary. -/
def moveDown (s : Slots α n) (i k : ℕ) : Slots α n := s.write 0 (s.slice i k)

/-- The first `m` cells hold the last elements of the stream. -/
structure HoldsTail (s : Slots α n) (m : ℕ) (stream : List α) : Prop where
  le : m ≤ n
  suffix : s.live m <:+ stream

theorem HoldsTail.length_le (h : s.HoldsTail m stream) : m ≤ stream.length := by
  have hlen := h.suffix.length_le
  rwa [length_live_of_le s h.le] at hlen

/-- The live cells are exactly the last `m` elements of the stream. -/
theorem HoldsTail.live_eq_drop (h : s.HoldsTail m stream) :
    s.live m = stream.drop (stream.length - m) := by
  have hdrop := List.suffix_iff_eq_drop.mp h.suffix
  rwa [length_live_of_le s h.le] at hdrop

/-- An array holds the tail of the stream before anything has arrived. -/
theorem holdsTail_nil (s : Slots α n) : s.HoldsTail 0 [] := ⟨Nat.zero_le n, List.nil_suffix⟩

/-- What is written behind the live cells is appended to them. -/
theorem live_write_append (s : Slots α n) {l : List α} (h : m + l.length ≤ n) :
    (s.write m l).live (m + l.length) = s.live m ++ l := by
  have hlive : (s.live m).length = m := length_live_of_le s (by omega)
  have hcells : s.cells = s.live m ++ s.slice m l.length ++ s.cells.drop (m + l.length) := by
    rw [live, slice, List.append_assoc, ← List.drop_drop, List.take_append_drop,
      List.take_append_drop]
  have hslice : (s.slice m l.length).length = l.length := by
    simp [slice]
    omega
  exact live_eq (cells_write s hcells hlive hslice) (by rw [List.length_append, hlive])

/-- The tail is kept where what arrives is written behind it. -/
theorem HoldsTail.write (h : s.HoldsTail m stream) {l : List α} (hl : m + l.length ≤ n) :
    (s.write m l).HoldsTail (m + l.length) (stream ++ l) := by
  obtain ⟨before, hbefore⟩ := h.suffix
  refine ⟨hl, before, ?_⟩
  rw [live_write_append s hl, ← List.append_assoc, hbefore]

/-- What is moved to the start is live there. -/
theorem live_moveDown (s : Slots α n) (hm : m ≤ n) {k : ℕ} (hk : k ≤ m) :
    (s.moveDown k (m - k)).live (m - k) = (s.live m).drop k := by
  have hslice : s.slice k (m - k) = (s.live m).drop k := by
    rw [slice, live, List.drop_take]
  have hlen : (s.slice k (m - k)).length = m - k := by
    rw [hslice, List.length_drop, length_live_of_le s hm]
  have hwrite := live_write s (l := s.slice k (m - k)) (by omega)
  rw [hlen, hslice] at hwrite
  rwa [Slots.moveDown, hslice]

/-- The tail is kept where its oldest elements are dropped. -/
theorem HoldsTail.moveDown (h : s.HoldsTail m stream) {k : ℕ} (hk : k ≤ m) :
    (s.moveDown k (m - k)).HoldsTail (m - k) stream := by
  have hle := h.le
  refine ⟨by omega, ?_⟩
  rw [live_moveDown s hle hk]
  exact (List.drop_suffix k _).trans h.suffix

end Slots
