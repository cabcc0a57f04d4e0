import PacketForwarder.Lib.Framing

/-!
# A receiver of frames

What has come in is kept; after every read the receiver looks for frames in all it has, and
removes everything up to the end of the last one.  Where more than `limit` elements are left, the
oldest `cut` of them are dropped.

* `receive`, `receiveAll` — the receiver, for one piece of the stream and for several;
* `Settled.receive_eq_oneByOne` — a piece may come at once or one element after the other, unless
  a frame is passed over;
* `receiveAll_eq_iff` — all ways to cut a stream into pieces give the same frames exactly if none
  is passed over.
-/

namespace Framing

variable {α β : Type*} {read : List α → ℕ × β}

/-! ## The receiver -/

/-- What the receiver holds after some pieces have come. -/
structure Held (α : Type*) where
  /-- How much of the stream has come. -/
  last : ℕ
  elements : List α
  deriving DecidableEq

/-- The receiver before anything has come. -/
def Held.start : Held α := ⟨0, []⟩

section Receive

variable (read : List α → ℕ × β) (limit cut : ℕ)

/-- Drop the oldest elements, if there are too many. -/
def trim (l : List α) : List α := if limit < l.length then l.drop cut else l

/-- A piece of the stream comes: the frames that are found, and what is held then. -/
def receive (s : Held α) (piece : List α) : List (Found α β) × Held α :=
  (frames read (s.last + piece.length) (s.elements ++ piece),
    ⟨s.last + piece.length, trim limit cut (rest read (s.elements ++ piece))⟩)

/-- Several pieces come in turn, and what is found in each is kept. -/
def receiveAll (s : Held α) : List (List α) → List (Found α β) × Held α
  | [] => ([], s)
  | piece :: pieces =>
    let r := receive read limit cut s piece
    let t := receiveAll r.2 pieces
    (r.1 ++ t.1, t.2)

/-- The elements come one by one. -/
def oneByOne (s : Held α) (l : List α) : List (Found α β) × Held α :=
  receiveAll read limit cut s (l.map fun x => [x])

/-- When `piece` has come one by one, `x` completes a frame that begins in what was held, or has
come since, and has been passed over: a later frame was taken, or its beginning dropped. -/
def PassedOver (s : Held α) (piece : List α) (x : α) : Prop :=
  ∃ g ∈ looks read (s.elements ++ piece),
    (oneByOne read limit cut s piece).2.elements.length < g.length ∧ IsFrame read (g ++ [x])

instance (s : Held α) (piece : List α) (x : α) : Decidable (PassedOver read limit cut s piece x) :=
  inferInstanceAs (Decidable (∃ g ∈ _, _))

/-- No more is held than may be, and there is no frame in it. -/
structure Settled (s : Held α) : Prop where
  quiet : Quiet read s.elements
  le : s.elements.length ≤ limit

end Receive

variable {limit cut : ℕ} {s : Held α}

theorem settled_start : Settled read limit (Held.start : Held α) :=
  ⟨fun _ hg hne => absurd (List.suffix_nil.mp hg) hne, Nat.zero_le limit⟩

theorem trim_suffix (limit cut : ℕ) (l : List α) : trim limit cut l <:+ l := by
  unfold trim
  split
  · exact List.drop_suffix cut l
  · exact List.suffix_refl l

theorem Settled.receive (h : Settled read limit s) {piece : List α} (hlen : piece.length ≤ cut) :
    Settled read limit (receive read limit cut s piece).2 := by
  refine ⟨(quiet_rest read _).suffix (trim_suffix limit cut _), ?_⟩
  have hle := h.le
  have hrest := (rest_suffix read (s.elements ++ piece)).length_le
  rw [List.length_append] at hrest
  show (trim limit cut (rest read (s.elements ++ piece))).length ≤ limit
  unfold trim
  split
  · rw [List.length_drop]
    omega
  · omega

theorem receiveAll_append (s : Held α) (pieces pieces' : List (List α)) :
    receiveAll read limit cut s (pieces ++ pieces') =
      ((receiveAll read limit cut s pieces).1 ++
          (receiveAll read limit cut (receiveAll read limit cut s pieces).2 pieces').1,
        (receiveAll read limit cut (receiveAll read limit cut s pieces).2 pieces').2) := by
  induction pieces generalizing s with
  | nil => rfl
  | cons piece pieces ih =>
    rw [List.cons_append, receiveAll, ih]
    simp only [receiveAll, List.append_assoc]

theorem oneByOne_append (s : Held α) (l l' : List α) :
    oneByOne read limit cut s (l ++ l') =
      ((oneByOne read limit cut s l).1 ++
          (oneByOne read limit cut (oneByOne read limit cut s l).2 l').1,
        (oneByOne read limit cut (oneByOne read limit cut s l).2 l').2) := by
  rw [oneByOne, List.map_append, receiveAll_append]
  rfl

theorem oneByOne_singleton (s : Held α) (x : α) :
    oneByOne read limit cut s [x] = receive read limit cut s [x] := by
  rw [oneByOne, List.map_singleton, receiveAll, receiveAll, List.append_nil]

theorem receiveAll_singleton (s : Held α) (piece : List α) :
    receiveAll read limit cut s [piece] = receive read limit cut s piece := by
  rw [receiveAll, receiveAll, List.append_nil]

theorem Settled.receiveAll (h : Settled read limit s) {pieces : List (List α)}
    (hlen : ∀ piece ∈ pieces, piece.length ≤ cut) :
    Settled read limit (receiveAll read limit cut s pieces).2 := by
  induction pieces generalizing s with
  | nil => exact h
  | cons piece pieces ih =>
    exact ih (h.receive (hlen piece (List.mem_cons_self ..)))
      fun p hp => hlen p (List.mem_cons_of_mem piece hp)

theorem Settled.oneByOne (h : Settled read limit s) (hcut : 0 < cut) (l : List α) :
    Settled read limit (oneByOne read limit cut s l).2 := by
  refine h.receiveAll fun piece hpiece => ?_
  obtain ⟨x, -, rfl⟩ := List.mem_map.mp hpiece
  exact hcut

/-! ## One piece or several -/

section Pieces

variable (hself : SelfDelimiting read) (hlimit : cut ≤ limit + 1)
include hself hlimit

/-- Whether the oldest elements are dropped now or with the next element makes no difference,
unless this completes a frame that begins in them. -/
theorem trim_concat {r : List α} {x : α} (last : ℕ) (hquiet : Quiet read r)
    (hlen : r.length < limit + cut)
    (hover : ∀ g, g <:+ r → (trim limit cut r).length < g.length → ¬IsFrame read (g ++ [x])) :
    frames read last (r ++ [x]) = frames read last (trim limit cut r ++ [x]) ∧
      trim limit cut (rest read (r ++ [x])) =
        trim limit cut (rest read (trim limit cut r ++ [x])) := by
  by_cases hlarge : limit < r.length
  · have hdropped : trim limit cut r = r.drop cut := if_pos hlarge
    rw [hdropped] at hover ⊢
    -- none of the dropped elements begins a frame that ends with `x`
    have hnone : ∀ g, g <:+ r ++ [x] → (r ++ [x]).length - cut < g.length → (read g).1 = 0 := by
      intro g hg hlong
      rw [List.length_append, List.length_singleton] at hlong
      rcases List.eq_nil_or_concat g with rfl | ⟨g, y, rfl⟩
      · exact absurd hlong (Nat.not_lt_zero _)
      · obtain ⟨before, hbefore⟩ := hg
        rw [List.concat_eq_append, ← List.append_assoc] at hbefore
        obtain ⟨hsuffix, hlast⟩ := List.append_inj' hbefore rfl
        rw [List.cons.injEq] at hlast
        rw [List.concat_eq_append, hlast.1]
        rw [List.length_concat] at hlong
        have hg : g <:+ r := ⟨before, hsuffix⟩
        have hne : g ≠ [] := List.ne_nil_of_length_pos (by omega)
        refine read_concat_eq_zero hself (hquiet g hg hne) (hover g hg ?_)
        rw [List.length_drop]
        omega
    have hdrop : (r ++ [x]).drop cut = r.drop cut ++ [x] :=
      List.drop_append_of_le_length (by omega)
    obtain ⟨hsame, hgoes⟩ := scan_drop last hnone
    rw [hdrop] at hsame hgoes
    refine ⟨hsame, ?_⟩
    by_cases hfound : Quiet read (r.drop cut ++ [x])
    · have hall : Quiet read (r ++ [x]) := by
        rw [← frames_eq_nil_iff last, hsame, frames_eq_nil_iff]
        exact hfound
      have hlong : limit < (r ++ [x]).length := by
        rw [List.length_append]
        omega
      have hshort : ¬limit < (r.drop cut ++ [x]).length := by
        rw [List.length_append, List.length_drop, List.length_singleton]
        omega
      rw [hall.rest, hfound.rest, trim, if_pos hlong, trim, if_neg hshort, hdrop]
    · rw [hgoes hfound]
  · have hkept : trim limit cut r = r := if_neg hlarge
    rw [hkept]
    exact ⟨rfl, rfl⟩

/-- A piece with one more element is the piece and then the element, unless this completes a
frame that has been passed over. -/
theorem Settled.receive_concat (h : Settled read limit s) {piece : List α} {x : α}
    (hlen : piece.length < cut)
    (hover : ∀ g ∈ looks read (s.elements ++ piece),
      (Framing.receive read limit cut s piece).2.elements.length < g.length →
        ¬IsFrame read (g ++ [x])) :
    Framing.receive read limit cut s (piece ++ [x]) =
      ((Framing.receive read limit cut s piece).1 ++
          (Framing.receive read limit cut (Framing.receive read limit cut s piece).2 [x]).1,
        (Framing.receive read limit cut (Framing.receive read limit cut s piece).2 [x]).2) := by
  have hle := h.le
  unfold Framing.receive at hover ⊢
  dsimp only at hover ⊢
  simp only [List.length_append, List.length_singleton, ← Nat.add_assoc, ← List.append_assoc]
  have hrest := (rest_suffix read (s.elements ++ piece)).length_le
  have htrim := (trim_suffix limit cut (rest read (s.elements ++ piece))).length_le
  obtain ⟨hframes, hbehind⟩ := scan_concat hself (x := x) (s.last + piece.length)
    fun g hg hlong => hover g hg (htrim.trans_lt hlong)
  obtain ⟨hsame, htrimmed⟩ := trim_concat hself hlimit (x := x) (s.last + piece.length + 1)
    (quiet_rest read (s.elements ++ piece)) (by rw [List.length_append] at hrest; omega)
    fun g hg hlong => hover g (mem_looks_of_suffix_rest hg
      (List.ne_nil_of_length_pos (Nat.zero_lt_of_lt hlong))) hlong
  rw [hframes, hbehind, hsame, htrimmed]

/-- **All at once or one by one.**  A piece may come in one read or in several, unless a frame is
passed over. -/
theorem Settled.receive_eq_oneByOne (h : Settled read limit s) {piece : List α}
    (hlen : piece.length ≤ cut)
    (hover : ∀ p x t, piece = p ++ x :: t → ¬PassedOver read limit cut s p x) :
    Framing.receive read limit cut s piece = Framing.oneByOne read limit cut s piece := by
  induction piece using List.reverseRecOn with
  | nil =>
    rw [Framing.receive, List.append_nil, (frames_eq_nil_iff _).mpr h.quiet, h.quiet.rest, trim,
      if_neg (not_lt.mpr h.le)]
    rfl
  | append_singleton piece x ih =>
    rw [List.length_append, List.length_singleton] at hlen
    have hfirst := ih (by omega) fun p y t hp =>
      hover p y (t ++ [x]) (by rw [hp, List.append_assoc, List.cons_append])
    rw [h.receive_concat hself hlimit (by omega), oneByOne_append, ← hfirst, oneByOne_singleton]
    intro g hg hlong hframe
    refine hover piece x [] rfl ⟨g, hg, ?_, hframe⟩
    rwa [← hfirst]

end Pieces

/-! ## Any pieces -/

/-- A list cut into pieces of 1 to `cut` elements. -/
structure CutInto (cut : ℕ) (l : List α) (pieces : List (List α)) : Prop where
  flatten : pieces.flatten = l
  pos : ∀ piece ∈ pieces, 0 < piece.length
  le : ∀ piece ∈ pieces, piece.length ≤ cut

theorem cutInto_oneByOne (hcut : 0 < cut) (l : List α) : CutInto cut l (l.map fun x => [x]) := by
  refine ⟨?_, ?_, ?_⟩
  · induction l with
    | nil => rfl
    | cons x l ih => rw [List.map_cons, List.flatten_cons, ih, List.singleton_append]
  · intro piece hpiece
    obtain ⟨x, -, rfl⟩ := List.mem_map.mp hpiece
    exact Nat.one_pos
  · intro piece hpiece
    obtain ⟨x, -, rfl⟩ := List.mem_map.mp hpiece
    exact hcut

theorem CutInto.append {l l' : List α} {pieces pieces' : List (List α)} (h : CutInto cut l pieces)
    (h' : CutInto cut l' pieces') : CutInto cut (l ++ l') (pieces ++ pieces') := by
  refine ⟨by rw [List.flatten_append, h.flatten, h'.flatten], ?_, ?_⟩
  · exact fun piece hpiece => (List.mem_append.mp hpiece).elim (h.pos piece) (h'.pos piece)
  · exact fun piece hpiece => (List.mem_append.mp hpiece).elim (h.le piece) (h'.le piece)

/-- Wherever a piece begins, its elements complete no frame that is passed over when they come one
by one. -/
def NonePassedOver (read : List α → ℕ × β) (limit cut : ℕ) (l : List α) : Prop :=
  ∀ v p x t, l = v ++ p ++ x :: t → p.length < cut →
    ¬PassedOver read limit cut (oneByOne read limit cut Held.start v).2 p x

/-- It is enough to look at every element, and at the pieces it may be the end of. -/
theorem nonePassedOver_iff_fin {l : List α} :
    NonePassedOver read limit cut l ↔ ∀ (n : Fin l.length) (k : Fin cut), k.val ≤ n.val →
      ¬PassedOver read limit cut (oneByOne read limit cut Held.start (l.take (n - k))).2
        ((l.take n).drop (n - k)) l[n] := by
  constructor
  · intro h n k hk
    refine h _ _ _ (l.drop (n + 1)) ?_ ?_
    · have hbefore : l.take (n - k) ++ (l.take n).drop (n - k) = l.take n := by
        have hboth := List.take_append_drop (n - k) (l.take n.val)
        rwa [List.take_take, Nat.min_eq_left (Nat.sub_le _ _)] at hboth
      rw [hbefore]
      exact (List.take_append_drop n.val l).symm.trans
        (congrArg _ (List.drop_eq_getElem_cons n.isLt))
    · rw [List.length_drop, List.length_take, Nat.min_eq_left n.isLt.le]
      have hcut := k.isLt
      omega
  · rintro h v p x t rfl hlen
    have hn : v.length + p.length < (v ++ p ++ x :: t).length := by
      simp only [List.length_append, List.length_cons]
      omega
    have hpassed := h ⟨v.length + p.length, hn⟩ ⟨p.length, hlen⟩ (Nat.le_add_left _ _)
    have hboth : (v ++ p ++ x :: t).take (v.length + p.length) = v ++ p := by
      rw [← List.length_append, List.take_left]
    have hbefore : (v ++ p ++ x :: t).take v.length = v := by
      rw [List.append_assoc, List.take_left]
    have hlast : (v ++ p ++ x :: t)[v.length + p.length] = x := by
      rw [List.getElem_append_right (by rw [List.length_append])]
      simp
    simp only [Nat.add_sub_cancel, Fin.getElem_fin, hboth, hbefore, hlast, List.drop_left]
      at hpassed
    exact hpassed

instance (read : List α → ℕ × β) (limit cut : ℕ) (l : List α) :
    Decidable (NonePassedOver read limit cut l) :=
  decidable_of_iff _ nonePassedOver_iff_fin.symm

section Independence

variable (hself : SelfDelimiting read) (hlimit : cut ≤ limit + 1) (hcut : 0 < cut)
include hself hlimit hcut

/-- **The pieces make no difference**, where none is passed over. -/
theorem receiveAll_eq_oneByOne {l : List α} (hnone : NonePassedOver read limit cut l)
    {pieces : List (List α)} (hpieces : CutInto cut l pieces) :
    receiveAll read limit cut Held.start pieces = oneByOne read limit cut Held.start l := by
  have hall : ∀ v, l = v ++ pieces.flatten →
      receiveAll read limit cut (oneByOne read limit cut Held.start v).2 pieces =
        oneByOne read limit cut (oneByOne read limit cut Held.start v).2 pieces.flatten := by
    obtain ⟨-, -, hle⟩ := hpieces
    induction pieces with
    | nil => exact fun _ _ => rfl
    | cons piece pieces ih =>
      intro v hv
      rw [List.flatten_cons] at hv ⊢
      have hpiece := (settled_start.oneByOne hcut v).receive_eq_oneByOne hself hlimit
        (hle piece (List.mem_cons_self ..)) fun p x t hp =>
          hnone v p x (t ++ pieces.flatten) (by rw [hv, hp]; simp) (by
            have hlen := hle piece (List.mem_cons_self ..)
            rw [hp, List.length_append, List.length_cons] at hlen
            omega)
      have hlater := ih (fun q hq => hle q (List.mem_cons_of_mem piece hq)) (v ++ piece)
        (by rw [hv, List.append_assoc])
      rw [oneByOne_append] at hlater
      rw [receiveAll, oneByOne_append, hpiece, hlater]
  have hstart := hall [] hpieces.flatten.symm
  rwa [hpieces.flatten] at hstart

end Independence
theorem offset_le_of_mem_receiveAll {pieces : List (List α)} {f : Found α β}
    (hf : f ∈ (receiveAll read limit cut s pieces).1) : s.last - s.elements.length ≤ f.offset := by
  induction pieces generalizing s with
  | nil => cases hf
  | cons piece pieces ih =>
    have hlength : (s.elements ++ piece).length = s.elements.length + piece.length :=
      List.length_append
    rcases List.mem_append.mp hf with hf | hf
    · have hle := offset_le_of_mem_frames hf
      omega
    · have hle := ih hf
      have htrim := (trim_suffix limit cut (rest read (s.elements ++ piece))).length_le
      have hrest := (rest_suffix read (s.elements ++ piece)).length_le
      change s.last + piece.length - (trim limit cut _).length ≤ f.offset at hle
      omega
/-- What the receiver holds has come. -/
theorem length_le_receiveAll (hs : s.elements.length ≤ s.last) (pieces : List (List α)) :
    (receiveAll read limit cut s pieces).2.elements.length ≤
      (receiveAll read limit cut s pieces).2.last := by
  induction pieces generalizing s with
  | nil => exact hs
  | cons piece pieces ih =>
    refine ih ?_
    have htrim := (trim_suffix limit cut (rest read (s.elements ++ piece))).length_le
    have hrest := (rest_suffix read (s.elements ++ piece)).length_le
    rw [List.length_append] at hrest
    show (trim limit cut (rest read (s.elements ++ piece))).length ≤ s.last + piece.length
    omega

theorem PassedOver.frames_ne (hself : SelfDelimiting read) {p : List α} {x : α}
    (h : PassedOver read limit cut s p x) (hs : s.elements.length ≤ s.last)
    (hpiece : receive read limit cut s p = oneByOne read limit cut s p)
    (later : List (Found α β)) (l : List α) :
    (receive read limit cut s (p ++ [x])).1 ++ later ≠ (oneByOne read limit cut s (p ++ l)).1 := by
  obtain ⟨g, hg, hlong, hframe⟩ := h
  have hlast : (oneByOne read limit cut s p).2.last = s.last + p.length := by
    rw [← hpiece]
    rfl
  have hlength : (s.elements ++ p).length ≤ s.last + p.length := by
    rw [List.length_append]
    omega
  rw [oneByOne_append, ← hpiece, receive, List.length_append, List.length_singleton,
    ← Nat.add_assoc, ← List.append_assoc]
  refine frames_append_ne hself hg hframe hlength hlong fun f hf => ?_
  rw [hpiece] at hf
  rw [← hlast]
  exact offset_le_of_mem_receiveAll hf

section Independence

variable (hself : SelfDelimiting read) (hlimit : cut ≤ limit + 1) (hcut : 0 < cut)
include hself hlimit hcut

/-- **The pieces make no difference exactly where none is passed over.** -/
theorem receiveAll_eq_iff (l : List α) :
    (∀ pieces pieces', CutInto cut l pieces → CutInto cut l pieces' →
        (receiveAll read limit cut Held.start pieces).1 =
          (receiveAll read limit cut Held.start pieces').1) ↔
      NonePassedOver read limit cut l := by
  constructor
  · intro hsame v p
    -- by the length of what comes before the element: up to there nothing is passed over
    induction hn : v.length + p.length using Nat.strong_induction_on generalizing v p with
    | _ n ih =>
      intro x t hl hlen hover
      have hpiece := (settled_start.oneByOne hcut v).receive_eq_oneByOne hself hlimit hlen.le
        fun q y u hq => ih (v.length + q.length) (by rw [← hn, hq]; simp) v q rfl y (u ++ x :: t)
          (by rw [hl, hq]; simp) (by rw [hq] at hlen; simp at hlen; omega)
      have hmid : CutInto cut (p ++ [x]) [p ++ [x]] := by
        refine ⟨by simp, ?_, ?_⟩ <;> simp
        omega
      have hcuts : CutInto cut l ((v.map fun y => [y]) ++ ([p ++ [x]] ++ t.map fun y => [y])) := by
        have hwhole := (cutInto_oneByOne hcut v).append (hmid.append (cutInto_oneByOne hcut t))
        rwa [show v ++ (p ++ [x] ++ t) = l by rw [hl]; simp] at hwhole
      have heq := hsame _ _ hcuts (cutInto_oneByOne hcut l)
      change _ = (oneByOne read limit cut Held.start l).1 at heq
      rw [receiveAll_append, receiveAll_append, receiveAll_singleton, hl, List.append_assoc,
        oneByOne_append] at heq
      have hstart : (Held.start : Held α).elements.length ≤ (Held.start : Held α).last := le_rfl
      exact hover.frames_ne hself (length_le_receiveAll hstart _) hpiece _ _
        (List.append_cancel_left heq)
  · intro hnone pieces pieces' hpieces hpieces'
    rw [receiveAll_eq_oneByOne hself hlimit hcut hnone hpieces,
      receiveAll_eq_oneByOne hself hlimit hcut hnone hpieces']

end Independence

end Framing
