import Mathlib

/-!
# Sorting with a C comparator

A C library sorts through a comparator that answers with the sign of an `int`.
Nothing forces such a comparator to be an order; a sort may only be relied on
where it behaves like one *on the elements at hand*.  That is `OrderOn`.

* `StrictOn` — it is even a strict order of the elements by a key;
* `Ascending` — a list every element of which compares at most equal to the
  later ones;
* `keys_eq_of_perm` — if the comparator looks at a key only, two ascending
  rearrangements of one list carry the same keys in the same order;
* `keys_eraseIdx` and `key_getElem_of_insert` — what that says of a list an
  element was removed from, or an element was added to, and that was sorted
  again;
* `getElem_iff_lt_countP` — a property of small elements holds up to an index, which
  is how many have it;
* `sortBy` — a sort that has the properties the rest of a development may
  assume of the library's one; `stubbornSort` — one that has them and is of no help
  where they say nothing.
-/

namespace CmpOrder

variable {α κ : Type*} {cmp : α → α → ℤ} {l l' : List α}

/-- The comparator is consistent on the members of `l`: opposite questions get
opposite answers, and `≤` is transitive. -/
structure OrderOn (cmp : α → α → ℤ) (l : List α) : Prop where
  /-- Exchanging the arguments exchanges the answers. -/
  antisymm : ∀ a ∈ l, ∀ b ∈ l, cmp a b < 0 ↔ 0 < cmp b a
  /-- Being at most as large is transitive. -/
  trans : ∀ a ∈ l, ∀ b ∈ l, ∀ c ∈ l, cmp a b ≤ 0 → cmp b c ≤ 0 → cmp a c ≤ 0

/-- No element compares greater than a later one. -/
def Ascending (cmp : α → α → ℤ) (l : List α) : Prop := l.Pairwise fun a b => cmp a b ≤ 0

theorem OrderOn.subset (h : OrderOn cmp l) (hs : l' ⊆ l) : OrderOn cmp l' :=
  ⟨fun a ha b hb => h.antisymm a (hs ha) b (hs hb),
    fun a ha b hb c hc => h.trans a (hs ha) b (hs hb) c (hs hc)⟩

theorem OrderOn.perm (h : OrderOn cmp l) (hp : l'.Perm l) : OrderOn cmp l' := h.subset hp.subset

/-- A comparator that answers with the difference of two numbers is consistent. -/
theorem OrderOn.of_sub {f : α → ℤ} (h : ∀ a ∈ l, ∀ b ∈ l, cmp a b = f a - f b) :
    OrderOn cmp l := by
  refine ⟨?_, ?_⟩
  · intro a ha b hb
    rw [h a ha b hb, h b hb a ha]
    omega
  · intro a ha b hb c hc hab hbc
    rw [h a ha b hb] at hab
    rw [h b hb c hc] at hbc
    rw [h a ha c hc]
    omega

/-- The comparator orders the members of `l` strictly by a key. -/
structure StrictOn (cmp : α → α → ℤ) (key : α → κ) (l : List α) : Prop where
  antisymm : ∀ a ∈ l, ∀ b ∈ l, cmp a b < 0 ↔ 0 < cmp b a
  trans : ∀ a ∈ l, ∀ b ∈ l, ∀ c ∈ l, cmp a b < 0 → cmp b c < 0 → cmp a c < 0
  /-- Of different keys one is the smaller. -/
  total : ∀ a ∈ l, ∀ b ∈ l, key a ≠ key b → cmp a b < 0 ∨ cmp b a < 0
  same : ∀ a ∈ l, ∀ b ∈ l, key a = key b → cmp a b = 0

/-- So does one that answers with the difference of two numbers that tell the keys apart. -/
theorem StrictOn.of_sub {key : α → κ} {f : α → ℤ} (h : ∀ a ∈ l, ∀ b ∈ l, cmp a b = f a - f b)
    (hf : ∀ a ∈ l, ∀ b ∈ l, f a = f b ↔ key a = key b) : StrictOn cmp key l := by
  refine ⟨(OrderOn.of_sub h).antisymm, ?_, ?_, ?_⟩
  · intro a ha b hb c hc hab hbc
    rw [h a ha b hb] at hab
    rw [h b hb c hc] at hbc
    rw [h a ha c hc]
    omega
  · intro a ha b hb hne
    have hdiff : f a ≠ f b := mt (hf a ha b hb).mp hne
    rw [h a ha b hb, h b hb a ha]
    omega
  · intro a ha b hb hkey
    rw [h a ha b hb, (hf a ha b hb).mpr hkey, sub_self]

/-- Two elements neither of which is the greater compare equal. -/
theorem OrderOn.eq_zero (h : OrderOn cmp l) {a b : α} (ha : a ∈ l) (hb : b ∈ l)
    (hab : cmp a b ≤ 0) (hba : cmp b a ≤ 0) : cmp a b = 0 := by
  have := h.antisymm a ha b hb
  omega

/-! ## Comparators that look at a key -/

/-- `cmp` compares elements by a key alone, and only equal keys compare equal. -/
structure KeyedBy (cmp : α → α → ℤ) (key : α → κ) : Prop where
  /-- Elements with the same keys compare the same. -/
  congr : ∀ a b a' b', key a = key a' → key b = key b' → cmp a b = cmp a' b'
  /-- Only elements with equal keys compare equal. -/
  zero : ∀ a b, cmp a b = 0 → key a = key b

variable {key : α → κ}

/-- **Ascending rearrangements agree.**  The keys of an ascending list are
determined by its elements. -/
theorem keys_eq_of_perm (hk : KeyedBy cmp key) (ho : OrderOn cmp l) (hp : l'.Perm l)
    (h : Ascending cmp l) (h' : Ascending cmp l') : l'.map key = l.map key := by
  let le : κ → κ → Prop := fun x y => ∃ a ∈ l, ∃ b ∈ l, key a = x ∧ key b = y ∧ cmp a b ≤ 0
  have lift : ∀ m : List α, m ⊆ l → Ascending cmp m → (m.map key).Pairwise le := by
    intro m hm hasc
    rw [List.pairwise_map]
    exact hasc.imp_of_mem fun ha hb hab => ⟨_, hm ha, _, hm hb, rfl, rfl, hab⟩
  refine List.Perm.eq_of_pairwise ?_ (lift l' hp.subset h') (lift l (List.Subset.refl l) h)
    (hp.map key)
  rintro x y - - ⟨a, ha, b, hb, rfl, rfl, hab⟩ ⟨b', hb', a', ha', hkb, hka, hba⟩
  rw [hk.congr b' a' b a hkb hka] at hba
  exact hk.zero a b (ho.eq_zero ha hb hab hba)

/-- Sorting again after removing the element at `i` closes the gap. -/
theorem keys_eraseIdx (hk : KeyedBy cmp key) (ho : OrderOn cmp l) (h : Ascending cmp l) {i : ℕ}
    (hp : l'.Perm (l.eraseIdx i)) (h' : Ascending cmp l') :
    l'.map key = (l.map key).eraseIdx i := by
  have hsub : (l.eraseIdx i).Sublist l := List.eraseIdx_sublist l i
  rw [keys_eq_of_perm hk (ho.subset hsub.subset) hp (h.sublist hsub) h', List.eraseIdx_map]

/-- Sorting again after adding an element that compares greater than the one at
`i` leaves index `i` alone. -/
theorem key_getElem_of_insert (hk : KeyedBy cmp key) {p : α} (ho : OrderOn cmp (p :: l))
    (h : Ascending cmp l) (hp : l'.Perm (p :: l)) (h' : Ascending cmp l') {i : ℕ}
    (hi : i < l.length) (hi' : i < l'.length) (hlt : cmp l[i] p < 0) : key l'[i] = key l[i] := by
  obtain ⟨A, B, rfl⟩ := List.append_of_mem (hp.symm.subset (List.mem_cons_self ..))
  have hAB : (A ++ B).Perm l := (List.perm_middle.symm.trans hp).cons_inv
  have hasc : Ascending cmp (A ++ B) :=
    h'.sublist ((List.Sublist.refl A).append (List.sublist_cons_self p B))
  have hkeys : (A ++ B).map key = l.map key :=
    keys_eq_of_perm hk (ho.subset (List.subset_cons_self p l)) hAB h hasc
  have hiAB : i < (A ++ B).length := by rw [hAB.length_eq]; exact hi
  have hkey : key (A ++ B)[i] = key l[i] := by
    have := congrArg (fun m => m[i]?) hkeys
    rw [List.getElem?_map, List.getElem?_map, List.getElem?_eq_getElem hi,
      List.getElem?_eq_getElem hiAB] at this
    exact Option.some.inj this
  by_cases hlow : i < A.length
  · rw [← hkey, List.getElem_append_left hlow, List.getElem_append_left hlow]
  · -- otherwise `p` was sorted in at or before `i`, against `hlt`
    have hb : (A ++ B)[i] ∈ B := by
      rw [List.getElem_append_right (by omega)]
      exact List.getElem_mem _
    have hpb : cmp p (A ++ B)[i] ≤ 0 :=
      (List.pairwise_cons.mp (List.pairwise_append.mp h').2.1).1 _ hb
    rw [hk.congr p _ p _ rfl hkey] at hpb
    have := (ho.antisymm l[i] (List.mem_cons_of_mem p (List.getElem_mem hi)) p
      (List.mem_cons_self ..)).mp hlt
    omega

/-! ## Initial segments -/

/-- Where a property passes to earlier elements, the elements that have it are the first ones. -/
theorem getElem_iff_lt_countP {p : α → Bool} (h : l.Pairwise fun a b => p b = true → p a = true)
    {i : ℕ} (hi : i < l.length) : p l[i] = true ↔ i < l.countP p := by
  induction l generalizing i with
  | nil => simp at hi
  | cons a l ih =>
    obtain ⟨ha, hl⟩ := List.pairwise_cons.mp h
    by_cases hpa : p a = true
    · rw [List.countP_cons_of_pos hpa]
      cases i with
      | zero => simp [hpa]
      | succ i =>
        rw [List.getElem_cons_succ, ih hl]
        omega
    · have hnone : l.countP p = 0 := List.countP_eq_zero.mpr fun b hb hpb => hpa (ha b hb hpb)
      rw [List.countP_cons_of_neg hpa, hnone]
      have hnot : p (a :: l)[i] ≠ true := by
        rcases List.mem_cons.mp (List.getElem_mem hi) with heq | hmem
        · rw [heq]
          exact hpa
        · exact fun hpi => hpa (ha _ hmem hpi)
      simp [hnot]

/-! ## A sort to stand for the library's -/

/-- Insertion sort by a comparator. -/
def sortBy (cmp : α → α → ℤ) (l : List α) : List α := l.insertionSort fun a b => cmp a b ≤ 0

theorem sortBy_perm (cmp : α → α → ℤ) (l : List α) : (sortBy cmp l).Perm l :=
  List.perm_insertionSort _ l

/-- The result depends on the elements only through the comparator's answers. -/
theorem sortBy_map {β : Type*} (cmp' : β → β → ℤ) (f : α → β)
    (h : ∀ a ∈ l, ∀ b ∈ l, cmp' (f a) (f b) = cmp a b) :
    sortBy cmp' (l.map f) = (sortBy cmp l).map f :=
  (List.map_insertionSort (fun a b => cmp a b ≤ 0) (fun a b => cmp' a b ≤ 0) f l
    fun a ha b hb => by simp only [h a ha b hb]).symm

/-- Where the comparator is consistent, the result is ascending. -/
theorem ascending_sortBy (ho : OrderOn cmp l) : Ascending cmp (sortBy cmp l) := by
  -- on the subtype of members the comparator is a total preorder
  let le : {a // a ∈ l} → {a // a ∈ l} → Prop := fun a b => cmp a b ≤ 0
  have : DecidableRel le := fun a b => inferInstanceAs (Decidable (cmp a b ≤ 0))
  have : Std.Total le := ⟨fun a b => by
    have := ho.antisymm b b.2 a a.2
    simp only [le]
    omega⟩
  have : IsTrans _ le := ⟨fun a b c => ho.trans a a.2 b b.2 c c.2⟩
  have hmap : (l.attach.insertionSort le).map Subtype.val = sortBy cmp l := by
    rw [List.map_insertionSort le (fun a b => cmp a b ≤ 0) Subtype.val l.attach
      fun a _ b _ => Iff.rfl, List.attach_map_subtype_val]
    rfl
  rw [Ascending, ← hmap, List.pairwise_map]
  exact List.pairwise_insertionSort le l.attach

/-! ## A sort that takes its liberty -/

instance OrderOn.decidable (cmp : α → α → ℤ) (l : List α) : Decidable (OrderOn cmp l) :=
  decidable_of_iff ((∀ a ∈ l, ∀ b ∈ l, cmp a b < 0 ↔ 0 < cmp b a) ∧
    ∀ a ∈ l, ∀ b ∈ l, ∀ c ∈ l, cmp a b ≤ 0 → cmp b c ≤ 0 → cmp a c ≤ 0)
    ⟨fun h => ⟨h.1, h.2⟩, fun h => ⟨h.antisymm, h.trans⟩⟩

section Stubborn

variable [DecidableEq α] (x : α)

/-- A sort that puts `x` first wherever the comparator is not consistent, as it may. -/
def stubbornSort (cmp : α → α → ℤ) (l : List α) : List α :=
  if OrderOn cmp l then sortBy cmp l else if x ∈ l then x :: l.erase x else l

theorem stubbornSort_perm (cmp : α → α → ℤ) (l : List α) : (stubbornSort x cmp l).Perm l := by
  unfold stubbornSort
  split
  · exact sortBy_perm cmp l
  · split
    · rename_i hx
      exact (List.perm_cons_erase hx).symm
    · exact List.Perm.refl l

theorem ascending_stubbornSort (ho : OrderOn cmp l) : Ascending cmp (stubbornSort x cmp l) := by
  rw [stubbornSort, if_pos ho]
  exact ascending_sortBy ho

variable {x}

theorem stubbornSort_of_not (ho : ¬OrderOn cmp l) (hx : x ∈ l) :
    stubbornSort x cmp l = x :: l.erase x := by
  rw [stubbornSort, if_neg ho, if_pos hx]

end Stubborn

end CmpOrder
