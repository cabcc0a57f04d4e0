import Mathlib

/-!
# Finding frames

A stream is looked through from left to right.  Where a frame begins, the search goes on behind
the frame, elsewhere at the next element; so it needs no synchronisation.

* `frames`, `rest` — the frames that are found, and what is behind the last one;
* `looks` — where a frame is looked for;
* `scan_induction` — the induction along such a search.

A reader is `SelfDelimiting` if a frame is read from its own elements, whatever follows it.

* `scan_concat` — with one more element the same frames are found, and then those behind them,
  unless it completes a frame that has been passed over;
* `frames_append_ne` — and then what is found is not the same;
* `SelfDelimiting.length_rest_lt` — where none has been passed over, the last frame ends among the
  elements that come last.
-/

namespace Framing

variable {α β : Type*}

/-- A frame that has been found. -/
structure Found (α β : Type*) where
  /-- How much of the stream came before it. -/
  offset : ℕ
  elements : List α
  /-- What the reader says of it. -/
  value : β
  deriving DecidableEq

section Scan

variable (read : List α → ℕ × β)

/-- The frames, when the next `k` elements belong to the one before.  A reader tells how many
elements at the start make up a frame, 0 if there is none; `last` elements of the stream have
come. -/
def framesFrom (last : ℕ) : ℕ → List α → List (Found α β)
  | _, [] => []
  | k + 1, _ :: l => framesFrom last k l
  | 0, x :: l =>
    if (read (x :: l)).1 = 0 then framesFrom last 0 l
    else ⟨last - (x :: l).length, (x :: l).take (read (x :: l)).1, (read (x :: l)).2⟩ ::
      framesFrom last ((read (x :: l)).1 - 1) l

/-- The frames in the last elements that have come. -/
def frames (last : ℕ) (l : List α) : List (Found α β) := framesFrom read last 0 l

/-- What is behind the last frame, if there is one. -/
def behindFrom : ℕ → List α → Option (List α)
  | _, [] => none
  | k + 1, _ :: l => behindFrom k l
  | 0, x :: l =>
    if (read (x :: l)).1 = 0 then behindFrom 0 l
    else some ((behindFrom ((read (x :: l)).1 - 1) l).getD ((x :: l).drop (read (x :: l)).1))

/-- What is behind the last frame; everything, if there is no frame. -/
def rest (l : List α) : List α := (behindFrom read 0 l).getD l

/-- Where a frame is looked for. -/
def looksFrom : ℕ → List α → List (List α)
  | _, [] => []
  | k + 1, _ :: l => looksFrom k l
  | 0, x :: l =>
    (x :: l) :: looksFrom (if (read (x :: l)).1 = 0 then 0 else (read (x :: l)).1 - 1) l

/-- What is left from every place on where a frame is looked for. -/
def looks (l : List α) : List (List α) := looksFrom read 0 l

/-- All of it is one frame. -/
def IsFrame (l : List α) : Prop := 0 < (read l).1 ∧ (read l).1 = l.length

instance (l : List α) : Decidable (IsFrame read l) := inferInstanceAs (Decidable (_ ∧ _))

/-- A frame is read from its own elements. -/
structure SelfDelimiting : Prop where
  fits : ∀ l, (read l).1 ≤ l.length
  /-- Whatever begins with the same elements is read alike. -/
  own : ∀ l l', 0 < (read l).1 → l.take (read l).1 <+: l' → read l' = read l

end Scan

variable {read : List α → ℕ × β}

/-! ## One frame after the other -/

theorem framesFrom_eq_drop (last k : ℕ) (l : List α) :
    framesFrom read last k l = frames read last (l.drop k) := by
  induction k generalizing l with
  | zero => rfl
  | succ k ih =>
    cases l with
    | nil => rfl
    | cons x l => exact ih l

theorem behindFrom_eq_drop (k : ℕ) (l : List α) :
    behindFrom read k l = behindFrom read 0 (l.drop k) := by
  induction k generalizing l with
  | zero => rfl
  | succ k ih =>
    cases l with
    | nil => rfl
    | cons x l => exact ih l

theorem looksFrom_eq_drop (k : ℕ) (l : List α) :
    looksFrom read k l = looks read (l.drop k) := by
  induction k generalizing l with
  | zero => rfl
  | succ k ih =>
    cases l with
    | nil => rfl
    | cons x l => exact ih l

section Steps

variable {last : ℕ} {x : α} {l : List α}

@[simp] theorem frames_nil (last : ℕ) : frames read last [] = [] := rfl

@[simp] theorem rest_nil : rest read [] = [] := rfl

@[simp] theorem looks_nil : looks read [] = [] := rfl

theorem frames_skip (h : (read (x :: l)).1 = 0) :
    frames read last (x :: l) = frames read last l := by
  rw [frames, framesFrom, if_pos h, frames]

theorem frames_frame (hl : l ≠ []) (h : 0 < (read l).1) :
    frames read last l = ⟨last - l.length, l.take (read l).1, (read l).2⟩ ::
      frames read last (l.drop (read l).1) := by
  obtain ⟨x, l, rfl⟩ := List.exists_cons_of_ne_nil hl
  rw [frames, framesFrom, if_neg h.ne', framesFrom_eq_drop, List.drop_cons h]

theorem looks_skip (h : (read (x :: l)).1 = 0) :
    looks read (x :: l) = (x :: l) :: looks read l := by
  rw [looks, looksFrom, if_pos h, looks]

theorem looks_frame (hl : l ≠ []) (h : 0 < (read l).1) :
    looks read l = l :: looks read (l.drop (read l).1) := by
  obtain ⟨x, l, rfl⟩ := List.exists_cons_of_ne_nil hl
  rw [looks, looksFrom, if_neg h.ne', looksFrom_eq_drop, List.drop_cons h]

theorem behind_skip (h : (read (x :: l)).1 = 0) :
    behindFrom read 0 (x :: l) = behindFrom read 0 l := by
  rw [behindFrom, if_pos h]

theorem rest_frame (hl : l ≠ []) (h : 0 < (read l).1) :
    rest read l = rest read (l.drop (read l).1) := by
  obtain ⟨x, l, rfl⟩ := List.exists_cons_of_ne_nil hl
  rw [rest, behindFrom, if_neg h.ne', behindFrom_eq_drop, List.drop_cons h, Option.getD_some, rest]

/-- **The induction along a scan**: an element that begins no frame is skipped, a frame at once. -/
theorem scan_induction (read : List α → ℕ × β) {motive : List α → Prop} (nil : motive [])
    (skip : ∀ x l, (read (x :: l)).1 = 0 → motive l → motive (x :: l))
    (frame : ∀ l, l ≠ [] → 0 < (read l).1 → motive (l.drop (read l).1) → motive l)
    (l : List α) : motive l := by
  induction hn : l.length using Nat.strong_induction_on generalizing l with
  | _ n ih =>
    cases l with
    | nil => exact nil
    | cons x l =>
      rw [List.length_cons] at hn
      rcases Nat.eq_zero_or_pos (read (x :: l)).1 with hzero | hpos
      · exact skip x l hzero (ih l.length (by omega) l rfl)
      · refine frame (x :: l) (List.cons_ne_nil x l) hpos (ih _ ?_ _ rfl)
        rw [List.length_drop, List.length_cons]
        omega

end Steps

/-! ## Nothing is found -/

/-- No frame begins anywhere. -/
def Quiet (read : List α → ℕ × β) (l : List α) : Prop :=
  ∀ g, g <:+ l → g ≠ [] → (read g).1 = 0

theorem Quiet.suffix {l l' : List α} (h : Quiet read l) (hs : l' <:+ l) : Quiet read l' :=
  fun g hg => h g (hg.trans hs)

theorem behind_eq_none_iff {l : List α} : behindFrom read 0 l = none ↔ Quiet read l := by
  induction l using scan_induction read with
  | nil => exact ⟨fun _ g hg hne => absurd (List.suffix_nil.mp hg) hne, fun _ => rfl⟩
  | skip x l hzero ih =>
    rw [behind_skip hzero, ih]
    constructor
    · intro h g hg hne
      rcases List.suffix_cons_iff.mp hg with rfl | hg
      · exact hzero
      · exact h g hg hne
    · exact fun h => h.suffix (List.suffix_cons x l)
  | frame l hl hpos =>
    obtain ⟨x, l, rfl⟩ := List.exists_cons_of_ne_nil hl
    rw [behindFrom, if_neg hpos.ne']
    refine ⟨fun h => (by cases h), fun h => ?_⟩
    exact absurd (h _ (List.suffix_refl _) hl) hpos.ne'

theorem frames_eq_nil_iff (last : ℕ) {l : List α} : frames read last l = [] ↔ Quiet read l := by
  rw [← behind_eq_none_iff]
  induction l using scan_induction read with
  | nil => exact ⟨fun _ => rfl, fun _ => rfl⟩
  | skip x l hzero ih => rw [frames_skip hzero, behind_skip hzero, ih]
  | frame l hl hpos =>
    rw [frames_frame hl hpos]
    obtain ⟨x, l, rfl⟩ := List.exists_cons_of_ne_nil hl
    rw [behindFrom, if_neg hpos.ne']
    exact ⟨fun h => (by cases h), fun h => (by cases h)⟩

instance (read : List α → ℕ × β) (l : List α) : Decidable (Quiet read l) :=
  decidable_of_iff (frames read 0 l = []) (frames_eq_nil_iff 0)

theorem Quiet.rest {l : List α} (h : Quiet read l) : rest read l = l := by
  rw [Framing.rest, behind_eq_none_iff.mpr h, Option.getD_none]

theorem rest_skip {x : α} {l : List α} (hzero : (read (x :: l)).1 = 0) (h : ¬Quiet read l) :
    rest read (x :: l) = rest read l := by
  rw [← behind_eq_none_iff] at h
  obtain ⟨r, hr⟩ := Option.ne_none_iff_exists'.mp h
  rw [rest, rest, behind_skip hzero, hr, Option.getD_some, Option.getD_some]

/-- What is behind the last frame is the end of what there was. -/
theorem rest_suffix (read : List α → ℕ × β) (l : List α) : rest read l <:+ l := by
  induction l using scan_induction read with
  | nil => exact List.suffix_refl []
  | skip x l hzero ih =>
    by_cases hquiet : Quiet read l
    · have hall : rest read (x :: l) = x :: l := by
        rw [rest, behind_skip hzero, behind_eq_none_iff.mpr hquiet, Option.getD_none]
      rw [hall]
    · rw [rest_skip hzero hquiet]
      exact ih.trans (List.suffix_cons x l)
  | frame l hl hpos ih =>
    rw [rest_frame hl hpos]
    exact ih.trans (List.drop_suffix _ l)

/-- Behind the last frame there is none. -/
theorem quiet_rest (read : List α → ℕ × β) (l : List α) : Quiet read (rest read l) := by
  induction l using scan_induction read with
  | nil => exact fun g hg hne => absurd (List.suffix_nil.mp hg) hne
  | skip x l hzero ih =>
    by_cases hquiet : Quiet read l
    · rw [← behind_eq_none_iff, ← behind_skip hzero, behind_eq_none_iff] at hquiet
      rw [hquiet.rest]
      exact hquiet
    · rw [rest_skip hzero hquiet]
      exact ih
  | frame l hl hpos ih =>
    rw [rest_frame hl hpos]
    exact ih

/-- A frame is not among what is behind the last one. -/
theorem length_rest_lt {l : List α} (h : ¬Quiet read l) : (rest read l).length < l.length := by
  refine lt_of_le_of_ne (rest_suffix read l).length_le fun hlen => h ?_
  rw [← (rest_suffix read l).eq_of_length hlen]
  exact quiet_rest read l

/-- Before it there is a frame, of the smallest size or more. -/
theorem add_length_rest_le {m : ℕ} (hfits : ∀ l, (read l).1 ≤ l.length)
    (hmin : ∀ l, 0 < (read l).1 → m ≤ (read l).1) {l : List α} (h : ¬Quiet read l) :
    m + (rest read l).length ≤ l.length := by
  induction l using scan_induction read with
  | nil => exact absurd (fun g hg hne => absurd (List.suffix_nil.mp hg) hne) h
  | skip x l hzero ih =>
    have htail : ¬Quiet read l := by
      rw [← behind_eq_none_iff] at h ⊢
      rwa [behind_skip hzero] at h
    rw [rest_skip hzero htail, List.length_cons]
    have := ih htail
    omega
  | frame l hl hpos ih =>
    have hrest := (rest_suffix read (l.drop (read l).1)).length_le
    have hsize := hmin l hpos
    have hle := hfits l
    rw [List.length_drop] at hrest
    rw [rest_frame hl hpos]
    omega

/-- Where there is no frame, one is looked for everywhere. -/
theorem Quiet.mem_looks {l g : List α} (h : Quiet read l) (hg : g <:+ l) (hne : g ≠ []) :
    g ∈ looks read l := by
  induction l with
  | nil => exact absurd (List.suffix_nil.mp hg) hne
  | cons x l ih =>
    rw [looks_skip (h _ (List.suffix_refl _) (List.cons_ne_nil x l))]
    rcases List.suffix_cons_iff.mp hg with rfl | hg
    · exact List.mem_cons_self ..
    · exact List.mem_cons_of_mem _ (ih (h.suffix (List.suffix_cons x l)) hg)

/-- Behind the last frame one is looked for everywhere. -/
theorem mem_looks_of_suffix_rest {l g : List α} (hg : g <:+ rest read l) (hne : g ≠ []) :
    g ∈ looks read l := by
  induction l using scan_induction read with
  | nil => exact absurd (List.suffix_nil.mp hg) hne
  | skip x l hzero ih =>
    by_cases hquiet : Quiet read (x :: l)
    · exact hquiet.mem_looks (hg.trans (rest_suffix read _)) hne
    · rw [← behind_eq_none_iff, behind_skip hzero, behind_eq_none_iff] at hquiet
      rw [rest_skip hzero hquiet] at hg
      rw [looks_skip hzero]
      exact List.mem_cons_of_mem _ (ih hg)
  | frame l hl hpos ih =>
    rw [rest_frame hl hpos] at hg
    rw [looks_frame hl hpos]
    exact List.mem_cons_of_mem _ (ih hg)

theorem suffix_of_mem_looks {l g : List α} (hg : g ∈ looks read l) : g <:+ l := by
  induction l using scan_induction read with
  | nil => cases hg
  | skip x l hzero ih =>
    rw [looks_skip hzero] at hg
    rcases List.mem_cons.mp hg with rfl | hg
    · exact List.suffix_refl _
    · exact (ih hg).trans (List.suffix_cons x l)
  | frame l hl hpos ih =>
    rw [looks_frame hl hpos] at hg
    rcases List.mem_cons.mp hg with rfl | hg
    · exact List.suffix_refl _
    · exact (ih hg).trans (List.drop_suffix _ l)

/-- Elements that begin no frame can be left out. -/
theorem scan_drop (last : ℕ) {k : ℕ} {l : List α}
    (h : ∀ g, g <:+ l → l.length - k < g.length → (read g).1 = 0) :
    frames read last l = frames read last (l.drop k) ∧
      (¬Quiet read (l.drop k) → rest read l = rest read (l.drop k)) := by
  induction k generalizing l with
  | zero => exact ⟨rfl, fun _ => rfl⟩
  | succ k ih =>
    cases l with
    | nil => exact ⟨rfl, fun _ => rfl⟩
    | cons x l =>
      have hlen : (x :: l).length - (k + 1) = l.length - k := by
        rw [List.length_cons]
        omega
      rw [hlen] at h
      have hzero : (read (x :: l)).1 = 0 :=
        h _ (List.suffix_refl _) (by rw [List.length_cons]; omega)
      obtain ⟨hframes, hrest⟩ := ih fun g hg => h g (hg.trans (List.suffix_cons x l))
      refine ⟨by rw [frames_skip hzero, hframes, List.drop_succ_cons], fun hfound => ?_⟩
      rw [List.drop_succ_cons] at hfound ⊢
      rw [rest_skip hzero fun hquiet => hfound (hquiet.suffix (List.drop_suffix k l)), hrest hfound]

/-! ## One more element -/

section Concat

variable (hself : SelfDelimiting read) {l : List α} {x : α}
include hself

/-- A frame is read alike when more follows. -/
theorem read_concat (h : 0 < (read l).1) : read (l ++ [x]) = read l :=
  hself.own l _ h ((List.take_prefix _ l).trans (List.prefix_append l [x]))

/-- With one more element, a frame begins where there was none only if it ends with it. -/
theorem read_concat_eq_zero (hzero : (read l).1 = 0) (hframe : ¬IsFrame read (l ++ [x])) :
    (read (l ++ [x])).1 = 0 := by
  by_contra hne
  have hpos : 0 < (read (l ++ [x])).1 := Nat.pos_of_ne_zero hne
  have hfits := hself.fits (l ++ [x])
  have hshort : (read (l ++ [x])).1 ≤ l.length := by
    have hother : (read (l ++ [x])).1 ≠ (l ++ [x]).length := fun h => hframe ⟨hpos, h⟩
    rw [List.length_append, List.length_singleton] at hfits hother
    omega
  have hsame := hself.own (l ++ [x]) l hpos (by
    rw [List.take_append_of_le_length hshort]
    exact List.take_prefix _ l)
  rw [← hsame, hzero] at hpos
  exact absurd hpos (lt_irrefl 0)

/-- **Looking again** with one more element, the receiver finds the same frames and goes on behind
the last one, unless the element completes a frame that has been passed over. -/
theorem scan_concat (last : ℕ)
    (hover : ∀ g ∈ looks read l, (rest read l).length < g.length → ¬IsFrame read (g ++ [x])) :
    frames read (last + 1) (l ++ [x]) =
        frames read last l ++ frames read (last + 1) (rest read l ++ [x]) ∧
      rest read (l ++ [x]) = rest read (rest read l ++ [x]) := by
  induction l using scan_induction read with
  | nil => exact ⟨rfl, rfl⟩
  | skip y l hzero ih =>
    by_cases hquiet : Quiet read l
    · -- No frame begins behind `y`, so all of the list is the rest.
      have hall : Quiet read (y :: l) := by
        rw [← behind_eq_none_iff, behind_skip hzero, behind_eq_none_iff]
        exact hquiet
      rw [hall.rest, (frames_eq_nil_iff last).mpr hall]
      exact ⟨rfl, rfl⟩
    · rw [rest_skip hzero hquiet] at hover ⊢
      rw [looks_skip hzero] at hover
      have hlen := (rest_suffix read l).length_le
      have hnone : (read (y :: (l ++ [x]))).1 = 0 :=
        read_concat_eq_zero hself hzero
          (hover _ (List.mem_cons_self ..) (by rw [List.length_cons]; omega))
      obtain ⟨hframes, hrest⟩ := ih fun g hg => hover g (List.mem_cons_of_mem _ hg)
      have hfound : ¬Quiet read (l ++ [x]) := by
        rw [← frames_eq_nil_iff (last + 1), hframes]
        intro hnil
        exact hquiet ((frames_eq_nil_iff last).mp (List.append_eq_nil_iff.mp hnil).1)
      exact ⟨by rw [List.cons_append, frames_skip hnone, frames_skip hzero, hframes],
        by rw [List.cons_append, rest_skip hnone hfound, hrest]⟩
  | frame l hl hpos ih =>
    have hread := read_concat hself (x := x) hpos
    have hfits := hself.fits l
    have hne : l ++ [x] ≠ [] := List.append_ne_nil_of_left_ne_nil hl [x]
    have hdrop : (l ++ [x]).drop (read (l ++ [x])).1 = l.drop (read l).1 ++ [x] := by
      rw [hread, List.drop_append_of_le_length hfits]
    have hposx : 0 < (read (l ++ [x])).1 := by rwa [hread]
    rw [rest_frame hl hpos, looks_frame hl hpos] at hover
    obtain ⟨hframes, hrest⟩ := ih fun g hg => hover g (List.mem_cons_of_mem _ hg)
    have hoffset : last + 1 - (l ++ [x]).length = last - l.length := by
      rw [List.length_append, List.length_singleton]
      omega
    refine ⟨?_, ?_⟩
    · rw [frames_frame hne hposx, hdrop, hframes, frames_frame hl hpos, rest_frame hl hpos, hoffset,
        hread, List.take_append_of_le_length hfits, List.cons_append]
    · rw [rest_frame hne hposx, hdrop, hrest, rest_frame hl hpos]

end Concat

/-! ## What is found differs -/

/-- The frames begin where the receiver looks. -/
theorem offset_le_of_mem_frames {last : ℕ} {l : List α} {f : Found α β}
    (hf : f ∈ frames read last l) : last - l.length ≤ f.offset := by
  induction l using scan_induction read with
  | nil => cases hf
  | skip x l hzero ih =>
    rw [frames_skip hzero] at hf
    have hle := ih hf
    rw [List.length_cons]
    omega
  | frame l hl hpos ih =>
    rw [frames_frame hl hpos] at hf
    rcases List.mem_cons.mp hf with rfl | hf
    · exact le_rfl
    · have hle := ih hf
      rw [List.length_drop] at hle
      omega

/-- **A frame that is passed over is missed.**  What is found with the element that completes it
differs from what is found without it and later. -/
theorem frames_append_ne (hself : SelfDelimiting read) {last : ℕ} {l g : List α} {x : α}
    (hg : g ∈ looks read l) (hframe : IsFrame read (g ++ [x])) (hlast : l.length ≤ last) {b : ℕ}
    (hb : b < g.length) {later later' : List (Found α β)}
    (hlater : ∀ f ∈ later', last - b ≤ f.offset) :
    frames read (last + 1) (l ++ [x]) ++ later ≠ frames read last l ++ later' := by
  induction l using scan_induction read with
  | nil => cases hg
  | skip y l hzero ih =>
    rw [looks_skip hzero] at hg
    rw [List.length_cons] at hlast
    have hglen : g.length ≤ l.length + 1 := by
      rcases List.mem_cons.mp hg with rfl | hg
      · exact le_rfl
      · exact (suffix_of_mem_looks hg).length_le.trans (Nat.le_succ _)
    by_cases hhere : IsFrame read (y :: (l ++ [x]))
    · -- the frame that begins here comes before all that is found without it
      rw [List.cons_append, frames_frame (List.cons_ne_nil _ _) hhere.1, frames_skip hzero]
      intro heq
      have hmem : ∃ f ∈ frames read last l ++ later', f.offset = last - (l.length + 1) := by
        rw [← heq]
        refine ⟨_, List.mem_append_left _ (List.mem_cons_self ..), ?_⟩
        show last + 1 - (y :: (l ++ [x])).length = last - (l.length + 1)
        rw [List.length_cons, List.length_append, List.length_singleton]
        omega
      obtain ⟨f, hf, hoffset⟩ := hmem
      rcases List.mem_append.mp hf with hf | hf
      · have hle := offset_le_of_mem_frames hf
        omega
      · have hle := hlater f hf
        omega
    · have hnone : (read (y :: (l ++ [x]))).1 = 0 := read_concat_eq_zero hself hzero hhere
      rw [List.cons_append, frames_skip hnone, frames_skip hzero]
      rcases List.mem_cons.mp hg with rfl | hg
      · exact absurd hframe hhere
      · exact ih hg (by omega)
  | frame l hl hpos ih =>
    have hread := read_concat hself (x := x) hpos
    have hfits := hself.fits l
    have hposx : 0 < (read (l ++ [x])).1 := by rwa [hread]
    have hdrop : (l ++ [x]).drop (read (l ++ [x])).1 = l.drop (read l).1 ++ [x] := by
      rw [hread, List.drop_append_of_le_length hfits]
    rw [frames_frame (List.append_ne_nil_of_left_ne_nil hl [x]) hposx, hdrop,
      frames_frame hl hpos, List.cons_append, List.cons_append]
    intro heq
    rw [looks_frame hl hpos] at hg
    rcases List.mem_cons.mp hg with rfl | hg
    · have hall := hframe.2
      rw [hread, List.length_append, List.length_singleton] at hall
      omega
    · refine ih hg ?_ (List.cons.inj heq).2
      rw [List.length_drop]
      omega
/-- A frame that is read from its own elements cannot be hidden: what comes behind elements that
hold none completes it, and the last one ends there. -/
theorem SelfDelimiting.length_rest_lt (hself : SelfDelimiting read) {l l' : List α}
    (hl : Quiet read l) (h : ¬Quiet read (l ++ l')) :
    (rest read (l ++ l')).length < l'.length := by
  induction l with
  | nil => exact Framing.length_rest_lt h
  | cons x l ih =>
    rw [List.cons_append] at h ⊢
    rcases Nat.eq_zero_or_pos (read (x :: (l ++ l'))).1 with hzero | hpos
    · have htail : ¬Quiet read (l ++ l') := by
        rw [← behind_eq_none_iff] at h ⊢
        rwa [behind_skip hzero] at h
      rw [rest_skip hzero htail]
      exact ih (hl.suffix (List.suffix_cons x l)) htail
    · -- The frame does not end within `x :: l`, where it would have been read already.
      have hlong : (x :: l).length < (read (x :: (l ++ l'))).1 := by
        by_contra hshort
        have hprefix : (x :: (l ++ l')).take (read (x :: (l ++ l'))).1 <+: x :: l :=
          List.prefix_of_prefix_length_le (List.take_prefix _ _) (List.prefix_append (x :: l) l')
            ((List.length_take_le _ _).trans (not_lt.mp hshort))
        have hsame := hself.own _ _ hpos hprefix
        have hnone := hl _ (List.suffix_refl _) (List.cons_ne_nil x l)
        rw [hsame] at hnone
        omega
      have hfits := hself.fits (x :: (l ++ l'))
      have hrest := (rest_suffix read ((x :: (l ++ l')).drop (read (x :: (l ++ l'))).1)).length_le
      rw [rest_frame (List.cons_ne_nil x _) hpos]
      simp only [List.length_drop, List.length_cons, List.length_append] at hlong hfits hrest ⊢
      omega

end Framing
