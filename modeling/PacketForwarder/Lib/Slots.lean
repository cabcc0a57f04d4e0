import Mathlib

/-!
# A fixed array with a live prefix

Many embedded queues are a fixed array of `n` cells of which the first `m` are
in use and the rest hold whatever was left there.  `Slots α n` is such an array
(the length is part of the type), and `live s m` is the list of the cells in
use.  The operations are those such code performs on it:

* `set` — write one cell (a write outside the array changes no cell), `write` —
  several in a row, as filling a buffer does;
* `fill` — overwrite the first cells with a list, as sorting in place does;
* `removeSwap` — remove a cell by copying the last live one over it and blanking
  the cell that became free.

What is proved is what each does to the live prefix, up to order:
`live_set_last` (appending), `live_fill`, `live_removeSwap_perm` (removal), and
for a removal *outside* the live prefix `live_removeSwap_dead` (the last live
cell is lost).  `removeSwap_perm` and `cells_fill_perm` say it of the whole array.
`live_setSome_eq_iff` says when the live prefix of a table that was read with gaps, and has as
many cells in use as were written, is what was written.
-/

/-- An array of `n` cells, as a list with that length. -/
structure Slots (α : Type*) (n : ℕ) where
  /-- The cells of the array, in their order. -/
  cells : List α
  /-- There are exactly `n` of them. -/
  length_cells : cells.length = n
  deriving DecidableEq

namespace Slots

variable {α : Type*} {n : ℕ}

attribute [simp] length_cells

@[ext] theorem ext {s t : Slots α n} (h : s.cells = t.cells) : s = t := by
  cases s; cases t; simp_all

/-- An array with the same value in every cell. -/
def replicate (n : ℕ) (x : α) : Slots α n := ⟨List.replicate n x, List.length_replicate⟩

/-- Read cell `i`; outside the array there is only the default. -/
def getD (s : Slots α n) (i : ℕ) (d : α) : α := s.cells.getD i d

/-- Write cell `i`; outside the array nothing is written. -/
def set (s : Slots α n) (i : ℕ) (x : α) : Slots α n :=
  ⟨s.cells.set i x, by simp⟩

/-- Write the elements of `l` to the cells from `i` on. -/
def write (s : Slots α n) (i : ℕ) : List α → Slots α n
  | [] => s
  | x :: l => (s.set i x).write (i + 1) l

/-- The `k` cells from `i` on. -/
def slice (s : Slots α n) (i k : ℕ) : List α := (s.cells.drop i).take k

/-- Overwrite the first cells with the elements of `l`. -/
def fill (s : Slots α n) (l : List α) : Slots α n :=
  ⟨(l ++ s.cells.drop l.length).take n, by simp; omega⟩

/-- The first `m` cells of the array are the live ones. -/
def live (s : Slots α n) (m : ℕ) : List α := s.cells.take m

/-- Remove cell `i`: copy cell `last` over it, then blank cell `last`. -/
def removeSwap (s : Slots α n) (d : α) (i last : ℕ) : Slots α n :=
  (s.set i (s.getD last d)).set last d

/-- The array with `f` applied to every cell. -/
def map {β : Type*} (f : α → β) (s : Slots α n) : Slots β n := ⟨s.cells.map f, by simp⟩

/-- Set those of the cells in `l` for which there is something to write. -/
def setSome (f : ℕ → Option α) (l : List ℕ) (s : Slots α n) : Slots α n :=
  l.foldl (fun s i => (f i).elim s (s.set i)) s

/-! ## Reading -/

@[simp] theorem length_live (s : Slots α n) (m : ℕ) : (s.live m).length = min m n := by
  simp [live]

theorem length_live_of_le (s : Slots α n) {m : ℕ} (h : m ≤ n) : (s.live m).length = m := by
  simp [h]

theorem getElem_live (s : Slots α n) {m i : ℕ} (h : i < (s.live m).length) (d : α) :
    (s.live m)[i] = s.getD i d := by
  have hi : i < s.cells.length := by simp at h ⊢; omega
  simp [live, getD, List.getElem?_eq_getElem hi]

theorem getD_mem_live (s : Slots α n) {m i : ℕ} (him : i < m) (hmn : m ≤ n) (d : α) :
    s.getD i d ∈ s.live m := by
  have h : i < (s.live m).length := by simp; omega
  rw [← getElem_live s h d]
  exact List.getElem_mem h

/-! ## Writing -/

theorem getD_set_self (s : Slots α n) {i : ℕ} (h : i < n) (x d : α) :
    (s.set i x).getD i d = x := by
  simp [set, getD, h]

theorem getD_set_ne (s : Slots α n) {i j : ℕ} (h : i ≠ j) (x d : α) :
    (s.set i x).getD j d = s.getD j d := by
  simp [set, getD, List.getElem?_set_ne h]

/-- Writing from `i` on leaves the cells before `i` alone. -/
theorem getD_write_of_lt (s : Slots α n) {i j : ℕ} (h : j < i) (l : List α) (d : α) :
    (s.write i l).getD j d = s.getD j d := by
  induction l generalizing s i with
  | nil => rfl
  | cons x l ih =>
    rw [write, ih _ (Nat.lt_succ_of_lt h), getD_set_ne _ (by omega)]

/-- What has been written is read back. -/
theorem getD_write (s : Slots α n) {i k : ℕ} {l : List α} (hk : k < l.length)
    (hn : i + l.length ≤ n) (d : α) : (s.write i l).getD (i + k) d = l.getD k d := by
  induction l generalizing s i k with
  | nil => exact absurd hk (Nat.not_lt_zero k)
  | cons x l ih =>
    rw [List.length_cons] at hk hn
    cases k with
    | zero =>
      show ((s.set i x).write (i + 1) l).getD i d = x
      rw [getD_write_of_lt _ (by omega), getD_set_self _ (by omega)]
    | succ k =>
      have hi : i + (k + 1) = i + 1 + k := by omega
      rw [write, hi, ih _ (by omega) (by omega)]
      rfl

/-- Writing as many elements as there were exchanges these elements. -/
theorem cells_write (s : Slots α n) {i : ℕ} {pre old post l : List α}
    (h : s.cells = pre ++ old ++ post) (hi : pre.length = i) (hlen : old.length = l.length) :
    (s.write i l).cells = pre ++ l ++ post := by
  induction l generalizing s i pre old with
  | nil =>
    rw [List.length_eq_zero_iff.mp hlen] at h
    exact h
  | cons x l ih =>
    obtain ⟨y, old, rfl⟩ := List.exists_cons_of_length_eq_add_one hlen
    have hset : (s.set i x).cells = pre ++ [x] ++ old ++ post := by
      show s.cells.set i x = _
      rw [h, ← hi, List.append_assoc, List.set_append_right _ _ le_rfl, Nat.sub_self]
      simp
    rw [write, ih (s.set i x) hset (by simp [hi]) (Nat.succ_inj.mp hlen)]
    simp

/-- The cells between two parts of the array. -/
theorem slice_eq {s : Slots α n} {i k : ℕ} {pre mid post : List α}
    (h : s.cells = pre ++ mid ++ post) (hi : pre.length = i) (hk : mid.length = k) :
    s.slice i k = mid := by
  rw [slice, h, ← hi, ← hk, List.append_assoc, List.drop_left, List.take_left]

theorem live_eq {s : Slots α n} {m : ℕ} {pre post : List α} (h : s.cells = pre ++ post)
    (hm : pre.length = m) : s.live m = pre := by
  rw [live, h, ← hm, List.take_left]

/-- What has been written from the first cell on is live. -/
theorem live_write (s : Slots α n) {l : List α} (h : l.length ≤ n) :
    (s.write 0 l).live l.length = l := by
  refine List.ext_getElem (length_live_of_le _ h) fun k hk hk' => ?_
  have hread := getD_write s hk' (by omega) (l[k]) (i := 0)
  rw [Nat.zero_add] at hread
  rw [getElem_live _ hk l[k], hread, List.getD_eq_getElem]

/-- Writing the first free cell appends to the live prefix. -/
theorem live_set_last (s : Slots α n) {m : ℕ} (h : m < n) (x : α) :
    (s.set m x).live (m + 1) = s.live m ++ [x] := by
  have hm : m < (s.cells.set m x).length := by simpa using h
  simp only [live, set]
  rw [List.take_add_one, List.getElem?_eq_getElem hm, List.take_set_of_le le_rfl]
  simp

/-- Overwriting exactly the live cells puts the list in their place. -/
theorem live_fill (s : Slots α n) {m : ℕ} {l : List α} (hl : l.length = m) (hm : m ≤ n) :
    (s.fill l).live m = l := by
  subst hl
  simp [live, fill, List.take_take, hm]

/-- Overwriting the live cells with a rearrangement of themselves rearranges the array. -/
theorem cells_fill_perm (s : Slots α n) {m : ℕ} {l : List α} (hm : m ≤ n)
    (h : l.Perm (s.live m)) : (s.fill l).cells.Perm s.cells := by
  have hl : l.length = m := by rw [h.length_eq, length_live_of_le s hm]
  have hlen : (l ++ s.cells.drop l.length).length = n := by simp; omega
  have : (s.fill l).cells = l ++ s.cells.drop m := by
    rw [fill, ← hl]
    exact List.take_of_length_le (by rw [hlen])
  rw [this]
  calc (l ++ s.cells.drop m).Perm (s.live m ++ s.cells.drop m) := h.append_right _
    _ = s.cells := List.take_append_drop m s.cells

/-! ## Removing -/

/-- Writing one cell exchanges what it held for what is written. -/
theorem cons_set_perm {l : List α} {i : ℕ} (h : i < l.length) (x : α) :
    (l[i] :: l.set i x).Perm (x :: l) :=
  calc (l[i] :: l.set i x).Perm (l[i] :: x :: l.eraseIdx i) :=
        (List.set_perm_cons_eraseIdx h x).cons _
    _ |>.Perm (x :: l[i] :: l.eraseIdx i) := List.Perm.swap _ _ _
    _ |>.Perm (x :: l) := (List.getElem_cons_eraseIdx_perm h).cons _

/-- Over the whole array, a removal exchanges the removed cell for a blank one,
whichever two cells it is given. -/
theorem removeSwap_perm (s : Slots α n) (d : α) {i last : ℕ} (hi : i < n) (hl : last < n) :
    (s.getD i d :: (s.removeSwap d i last).cells).Perm (d :: s.cells) := by
  set y := s.getD last d with hy
  have hi' : i < s.cells.length := by simpa using hi
  have hl' : last < (s.cells.set i y).length := by simpa using hl
  have hgi : s.getD i d = s.cells[i] := by simp [getD, List.getElem?_eq_getElem hi']
  have hgl : (s.cells.set i y)[last] = y := by
    rw [List.getElem_set]
    split
    · rfl
    · have : last < s.cells.length := by simpa using hl
      simp [hy, getD, List.getElem?_eq_getElem this]
  have h1 := cons_set_perm hi' y
  have h2 := cons_set_perm hl' d
  rw [hgl] at h2
  have h3 : (y :: s.getD i d :: (s.removeSwap d i last).cells).Perm (y :: d :: s.cells) :=
    calc (y :: s.getD i d :: (s.removeSwap d i last).cells).Perm
          (s.getD i d :: y :: (s.removeSwap d i last).cells) := List.Perm.swap _ _ _
      _ |>.Perm (s.getD i d :: d :: s.cells.set i y) := h2.cons _
      _ |>.Perm (d :: s.getD i d :: s.cells.set i y) := List.Perm.swap _ _ _
      _ |>.Perm (d :: y :: s.cells) := by rw [hgi]; exact h1.cons _
      _ |>.Perm (y :: d :: s.cells) := List.Perm.swap _ _ _
  exact h3.cons_inv

/-- The last live cell on its own. -/
theorem live_succ (s : Slots α n) {m : ℕ} (h : m < n) (d : α) :
    s.live (m + 1) = s.live m ++ [s.getD m d] := by
  have hm : m < s.cells.length := by simpa using h
  simp only [live, getD]
  rw [List.take_add_one, List.getElem?_eq_getElem hm]
  simp [List.getElem?_eq_getElem hm]

/-- After a removal the last live cell stands at the removed index. -/
theorem live_removeSwap (s : Slots α n) (d : α) (i m : ℕ) :
    (s.removeSwap d i m).live m = (s.live m).set i (s.getD m d) := by
  simp only [removeSwap, set, live]
  rw [List.take_set_of_le le_rfl, List.take_set]

/-- Removing a live cell takes exactly that cell out of the live prefix, up to order. -/
theorem live_removeSwap_perm (s : Slots α n) (d : α) {i m : ℕ} (hi : i < m + 1) (hm : m < n) :
    (s.getD i d :: (s.removeSwap d i m).live m).Perm (s.live (m + 1)) := by
  rw [live_removeSwap, live_succ s hm d]
  by_cases him : i = m
  · subst him
    rw [List.set_eq_of_length_le (by simp)]
    exact (List.perm_append_singleton _ _).symm
  · have hi' : i < (s.live m).length := by simp; omega
    rw [← getElem_live s hi' d]
    exact (cons_set_perm hi' _).trans (List.perm_append_singleton _ _).symm

/-- Removing a cell behind the live prefix loses the last live cell instead. -/
theorem live_removeSwap_dead (s : Slots α n) (d : α) {i m : ℕ} (hi : m ≤ i) :
    (s.removeSwap d i m).live m = s.live m := by
  rw [live_removeSwap, List.set_eq_of_length_le]
  rw [length_live]
  omega

/-! ## Tables with gaps -/

theorem live_map {β : Type*} (f : α → β) (s : Slots α n) (m : ℕ) :
    (s.map f).live m = (s.live m).map f := List.map_take.symm

theorem cells_setSome (f : ℕ → Option α) (d : α) {m : ℕ} (h : m ≤ n) :
    (setSome f (List.range m) (replicate n d)).cells =
      (List.range m).map (fun i => (f i).getD d) ++ List.replicate (n - m) d := by
  induction m with
  | zero => rfl
  | succ m ih =>
    have hprev := ih (by omega)
    have hlast : List.replicate (n - m) d = d :: List.replicate (n - (m + 1)) d := by
      rw [← List.replicate_succ]
      congr 1
      omega
    have hloop : setSome f (List.range (m + 1)) (replicate n d) =
        (f m).elim (setSome f (List.range m) (replicate n d))
          ((setSome f (List.range m) (replicate n d)).set m) := by
      simp [setSome, List.range_succ]
    rw [hloop, List.range_succ, List.map_append, List.append_assoc]
    cases hm : f m with
    | none =>
      rw [Option.elim_none, hprev, hlast]
      simp [hm]
    | some x =>
      show (setSome f (List.range m) (replicate n d)).cells.set m x = _
      rw [hprev, hlast, List.set_append_right _ _ (by simp)]
      simp [hm]

/-- After a gap there is only the default. -/
theorem take_replicate_append_iff (d : α) (k : ℕ) (l : List (Option α)) :
    (List.replicate (k + 1) d ++ l.map (·.getD d)).take l.reduceOption.length =
        l.reduceOption ↔ ∀ o ∈ l, ∀ a ∈ o, a = d := by
  have hshift (k : ℕ) (rest : List α) :
      List.replicate k d ++ d :: rest = List.replicate (k + 1) d ++ rest := by
    rw [List.replicate_succ', List.append_assoc, List.singleton_append]
  induction l generalizing k with
  | nil => simp
  | cons o l ih =>
    cases o with
    | none =>
      rw [List.reduceOption_cons_of_none, List.map_cons, Option.getD_none, hshift]
      refine (ih (k + 1)).trans ?_
      simp
    | some a =>
      rw [List.reduceOption_cons_of_some, List.map_cons, Option.getD_some, List.length_cons,
        List.replicate_succ, List.cons_append, List.take_succ_cons, List.cons.injEq,
        List.forall_mem_cons]
      have hfirst : (∀ b ∈ some a, b = d) ↔ d = a := by simp [eq_comm]
      rw [hfirst]
      refine and_congr_right fun hd => ?_
      subst hd
      rw [hshift]
      exact ih k

/-- A table read with gaps starts with what was read if nothing but the default comes after
a gap. -/
theorem take_map_getD_iff (d : α) (l : List (Option α)) :
    (l.map (·.getD d)).take l.reduceOption.length = l.reduceOption ↔
      l.Pairwise fun x y => x = none → ∀ a ∈ y, a = d := by
  induction l with
  | nil => simp
  | cons o l ih =>
    cases o with
    | none =>
      have hgap := take_replicate_append_iff d 0 l
      rw [List.reduceOption_cons_of_none, List.pairwise_cons]
      refine hgap.trans ⟨fun h => ⟨fun o ho _ => h o ho, ?_⟩, fun h o ho => h.1 o ho rfl⟩
      exact List.pairwise_of_forall_mem_list fun x _ y hy _ => h y hy
    | some a =>
      rw [List.reduceOption_cons_of_some, List.map_cons, List.length_cons, List.take_succ_cons,
        List.cons.injEq, List.pairwise_cons, ih]
      simp

/-- **When a table with gaps starts with what was written.** -/
theorem live_setSome_eq_iff (f : ℕ → Option α) (d : α) :
    (setSome f (List.range n) (replicate n d)).live ((List.range n).filterMap f).length =
        (List.range n).filterMap f ↔
      ∀ i j, i < j → j < n → f i = none → ∀ a ∈ f j, a = d := by
  have hcells : (setSome f (List.range n) (replicate n d)).cells =
      ((List.range n).map f).map (·.getD d) := by
    rw [cells_setSome f d le_rfl]
    simp
  have hwritten : (List.range n).filterMap f = ((List.range n).map f).reduceOption := by
    rw [List.reduceOption, List.filterMap_map]
    rfl
  rw [live, hcells, hwritten, take_map_getD_iff, List.pairwise_iff_getElem]
  simp only [List.length_map, List.length_range, List.getElem_map, List.getElem_range]
  exact ⟨fun h i j hij hj => h i j (hij.trans hj) hj hij, fun h i j _ hj hij => h i j hij hj⟩

end Slots
