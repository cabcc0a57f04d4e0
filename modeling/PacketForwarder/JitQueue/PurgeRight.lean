import PacketForwarder.JitQueue.Purge

/-!
# When a peek is right

A queue that is not sorted by the time left may keep an outdated node at index 0, where
the scan does not look after a purge.

* `Stuck` — the invariant of such a scan, for a `qsort_r` that conforms and puts the outdated
  node first wherever the comparator leaves it the choice;
* `peekRight_iff` — for which queues a peek is right, whatever conforming sort it is given;
* `peek_keeps_outdated` — two overdue nodes are enough for it to be wrong, and so is one
  before a node that is due.
-/

namespace PacketForwarder

open Circle

variable {q : JitQueue}

/-! ## A sort that keeps an outdated node first -/

/-- The concrete environment with a sort that puts `x` first wherever it may. -/
def JitEnv.stubborn (x : JitNode) : JitEnv :=
  { JitEnv.reference with
    qsortR := CmpOrder.stubbornSort x
    qsortR_perm := CmpOrder.stubbornSort_perm x }

theorem JitEnv.stubborn_qsortSorts (x : JitNode) : (stubborn x).QsortSorts :=
  fun _ _ ho => CmpOrder.ascending_stubbornSort x ho

section Stuck

variable {timeUs : U32} {l : List JitNode} {x y f : JitNode}

/-- Where the comparator is consistent, what compares at most equal lies less than half a turn
behind. -/
theorem ahead_of_compare_nonpos (ho : CmpOrder.OrderOn compare l) (hx : x ∈ l) (hy : y ∈ l)
    (h : compare x y ≤ 0) : 2 * ahead x.pkt.countUs y.pkt.countUs < 2 ^ 32 := by
  have hle := compare_nonpos.mp h
  by_contra hhalf
  have hne : x.pkt.countUs ≠ y.pkt.countUs := by
    intro heq
    rw [heq, ahead_self] at hhalf
    omega
  have hturn := ahead_add_ahead hne
  have hback : compare y x ≤ 0 := compare_nonpos.mpr (by omega)
  exact hne (compare_keyedBy.zero x y (ho.eq_zero hx hy h hback))

/-- A node that is put before an outdated one, which is put before a third, has more time left
than that, if neither is outdated. -/
theorem timeLeft_lt_of_between (ho : CmpOrder.OrderOn compare l) (hy : y ∈ l) (hx : x ∈ l)
    (hf : f ∈ l) (hyx : compare y x ≤ 0) (hxf : compare x f ≤ 0) (hold : outdated timeUs x)
    (hyf : ¬outdated timeUs y) (hff : ¬outdated timeUs f) :
    timeLeft timeUs f < timeLeft timeUs y := by
  have h₁ := ahead_of_compare_nonpos ho hy hx hyx
  have h₂ := ahead_of_compare_nonpos ho hx hf hxf
  rw [outdated_iff] at hold hyf hff
  unfold timeLeft at *
  have hway : ahead timeUs x.pkt.countUs =
      ahead timeUs y.pkt.countUs + ahead y.pkt.countUs x.pkt.countUs := ahead_eq_add (by omega)
  have hmod := ahead_add_mod timeUs x.pkt.countUs f.pkt.countUs
  have hlt := ahead_lt timeUs x.pkt.countUs
  -- the way from `x` on to `f` passes the current time
  have hwrap : 2 ^ 32 ≤ ahead timeUs x.pkt.countUs + ahead x.pkt.countUs f.pkt.countUs := by
    by_contra hno
    rw [Nat.mod_eq_of_lt (by omega)] at hmod
    omega
  rw [Nat.mod_eq_sub_mod hwrap, Nat.mod_eq_of_lt (by omega)] at hmod
  omega

/-- The first node is outdated, and stays first: it is `x`, or the comparator has put it there. -/
def OldFirst (timeUs : U32) (x : JitNode) (l : List JitNode) : Prop :=
  ∃ y l', l = y :: l' ∧ outdated timeUs y ∧
    (y = x ∨ CmpOrder.OrderOn compare l ∧ CmpOrder.Ascending compare l)

/-- If `x` is put before a node that is not outdated, the sort leaves an outdated node first. -/
theorem oldFirst_stubbornSort (hx : x ∈ l) (hold : outdated timeUs x) (hf : f ∈ l)
    (hff : ¬outdated timeUs f) (hxf : compare x f ≤ 0) :
    OldFirst timeUs x (CmpOrder.stubbornSort x compare l) := by
  by_cases ho : CmpOrder.OrderOn compare l
  · have hperm := CmpOrder.stubbornSort_perm x compare l
    have hasc := CmpOrder.ascending_stubbornSort x ho
    have ho' := ho.perm hperm
    obtain ⟨y, l', hl⟩ := List.exists_cons_of_ne_nil
      (List.ne_nil_of_mem (hperm.symm.subset hx))
    have hx' := hperm.symm.subset hx
    have hf' := hperm.symm.subset hf
    rw [hl] at hasc ho' hx' hf' ⊢
    refine ⟨y, l', rfl, ?_, .inr ⟨ho', hasc⟩⟩
    rcases List.mem_cons.mp hx' with rfl | hxl
    · exact hold
    · by_contra hyf
      obtain ⟨hmin, -⟩ := List.pairwise_cons.mp hasc
      have hless := timeLeft_lt_of_between ho' (by simp) hx' hf' (hmin x hxl) hxf hold hyf hff
      rcases List.mem_cons.mp hf' with rfl | hfl
      · exact lt_irrefl _ hless
      · -- but the nodes that are not outdated are in order
        have hpair : AllFresh timeUs [y, f] := by
          intro n hn
          rcases List.mem_pair.mp hn with rfl | rfl
          · exact not_le.mp hyf
          · exact not_le.mp hff
        have hyfle := hmin f hfl
        rw [hpair.comparesAhead y (by simp) f (by simp)] at hyfle
        unfold timeLeft at hless
        omega
  · rw [CmpOrder.stubbornSort_of_not ho hx]
    exact ⟨x, l.erase x, rfl, hold, .inl rfl⟩

/-- If the comparator has put an outdated node first, the next sort does so too. -/
theorem oldFirst_stubbornSort_of_order (ho : CmpOrder.OrderOn compare l) (hy : y ∈ l)
    (hold : outdated timeUs y) (hmin : ∀ n ∈ l, compare y n ≤ 0) :
    OldFirst timeUs x (CmpOrder.stubbornSort x compare l) := by
  have hperm := CmpOrder.stubbornSort_perm x compare l
  have hasc := CmpOrder.ascending_stubbornSort x ho
  have ho' := ho.perm hperm
  have hy' := hperm.symm.subset hy
  obtain ⟨z, l', hl⟩ := List.exists_cons_of_ne_nil (List.ne_nil_of_mem hy')
  have hz : z ∈ l := hperm.subset (by simp [hl])
  rw [hl] at hasc ho' hy' ⊢
  refine ⟨z, l', rfl, ?_, .inr ⟨ho', hasc⟩⟩
  rcases List.mem_cons.mp hy' with rfl | hyl
  · exact hold
  · have hzy := (List.pairwise_cons.mp hasc).1 y hyl
    have heq := compare_keyedBy.zero y z (ho.eq_zero hy hz (hmin z hz) hzy)
    exact (outdated_congr heq).mp hold

/-- The invariant of a scan that does not get rid of an outdated node: from index 1 on it never
looks at the first one. -/
structure Stuck (timeUs : U32) (x f : JitNode) (s : PeekScan) : Prop where
  wf : s.queue.Wf
  lo : 1 ≤ s.i
  mem : f ∈ s.queue.live
  old : OldFirst timeUs x s.queue.live

/-- **One iteration keeps the scan stuck**: the outdated node stays first, where it is not looked
at. -/
theorem Stuck.body {s : PeekScan} (hff : ¬outdated timeUs f) (hxf : compare x f ≤ 0)
    (h : Stuck timeUs x f s) (hi : s.i < s.queue.numPkt.toNat) :
    Stuck timeUs x f (jitPeekBody (.stubborn x) timeUs s) := by
  obtain ⟨hw, hlo, hmem, y, l', hl, hyold, hy⟩ := h
  rcases jitPeekBody_cases (.stubborn x) timeUs s with ⟨hold, hq, hnext, -⟩ |
    ⟨-, hq, hnext, -⟩
  · obtain ⟨i, hi'⟩ := Nat.exists_eq_add_of_lt (Nat.lt_of_succ_le hlo)
    obtain ⟨l₁, hperm, hlive⟩ := exists_live_removeNode_eq (.stubborn x) hw hi (by omega)
    have hf : f ∈ (removeNode (.stubborn x) s.queue s.i).live := by
      refine (List.mem_filter.mp ((filter_removeNode (.stubborn x) hw hi hold).symm.subset ?_)).1
      exact List.mem_filter.mpr ⟨hmem, by simpa [isFresh] using hff⟩
    refine ⟨hq ▸ wf_removeNode hw (by omega) _, by omega, hq ▸ hf, ?_⟩
    rw [hq, hlive]
    rw [hlive] at hf
    have hf₁ : f ∈ l₁ := (CmpOrder.stubbornSort_perm x compare l₁).subset hf
    rw [hl, show s.i = i + 1 by omega, List.eraseIdx_cons_succ] at hperm
    have hy₁ : y ∈ l₁ := hperm.symm.subset (by simp)
    have hsub : l₁ ⊆ y :: l' := by
      refine List.Subset.trans hperm.subset ?_
      exact List.cons_subset_cons y (List.eraseIdx_sublist l' i).subset
    rcases hy with rfl | ⟨ho, hasc⟩
    · exact oldFirst_stubbornSort hy₁ hyold hf₁ hff hxf
    · rw [hl] at ho hasc
      refine oldFirst_stubbornSort_of_order (ho.subset hsub) hy₁ hyold ?_
      intro n hn
      rcases List.mem_cons.mp (hsub hn) with rfl | hnl
      · exact compare_nonpos.mpr (by rw [ahead_self]; omega)
      · exact (List.pairwise_cons.mp hasc).1 n hnl
  · exact ⟨hq ▸ hw, by omega, hq ▸ hmem, hq ▸ ⟨y, l', hl, hyold, hy⟩⟩

/-- **The whole scan** leaves an outdated node, if after the first purge one is put before a node
that is not outdated. -/
theorem jitPeekScan_stuck (hw : q.Wf) {A B : List JitNode} {n : JitNode}
    (hl : q.live = A ++ n :: B) (hA : ∀ a ∈ A, ¬outdated timeUs a) (hn : outdated timeUs n)
    (hx : x ∈ A ++ B) (hold : outdated timeUs x) (hf : f ∈ A ++ B)
    (hff : ¬outdated timeUs f) (hxf : compare x f ≤ 0) :
    OldFirst timeUs x (jitPeekScan (.stubborn x) q timeUs).queue.live := by
  obtain ⟨hAn, hnn, hnA⟩ := node_of_split (.stubborn x) hw hl
  have hlen := JitQueue.length_live hw
  have hinv : Intact (.stubborn x) q timeUs A.length (jitPeekScan (.stubborn x) q timeUs) ∨
      Stuck timeUs x f (jitPeekScan (.stubborn x) q timeUs) := by
    refine jitPeekScan_invariant (I := fun s => Intact (.stubborn x) q timeUs A.length s ∨
      Stuck timeUs x f s) (.inl (.init _ q timeUs _)) ?_
    rintro s (hintact | hstuck) hi
    · by_cases hlt : s.i < A.length
      · refine .inl (hintact.body hlt ?_)
        rw [hnA _ hlt]
        exact hA _ (List.getElem_mem _)
      · obtain ⟨rfl, hle, -⟩ := hintact
        have hat : s.i = A.length := by omega
        rcases jitPeekBody_cases (.stubborn x) timeUs s with ⟨-, hq, hnext, -⟩ | ⟨hnew, -⟩
        · -- Behind the purge of the first outdated node, the sort leaves an outdated one first.
          have htwo : 1 < s.queue.numPkt.toNat := by
            have hAB := List.length_pos_of_mem hx
            rw [hl] at hlen
            simp only [List.length_append, List.length_cons] at hlen hAB
            omega
          obtain ⟨l₁, hperm, hlive⟩ := exists_live_removeNode_eq (.stubborn x) hw hi htwo
          have hAB := (live_removeNode_perm_eraseIdx (.stubborn x) hw hi).symm.trans
            (hat ▸ live_first_purge (.stubborn x) hw hl)
          have hperm' := hperm.trans hAB
          refine .inr ⟨hq ▸ wf_removeNode hw (by omega) _, by omega, ?_, ?_⟩
          · rw [hq, hlive]
            exact (CmpOrder.stubbornSort_perm x compare l₁).symm.subset (hperm'.symm.subset hf)
          · rw [hq, hlive]
            exact oldFirst_stubbornSort (hperm'.symm.subset hx) hold (hperm'.symm.subset hf) hff hxf
        · rw [hat, hnn] at hnew
          exact absurd hn hnew
    · exact .inr (hstuck.body hff hxf hi)
  rcases hinv with hintact | hstuck
  · have hend := jitPeekScan_done (.stubborn x) q timeUs
    have := hintact.le
    rw [hintact.same] at hend
    omega
  · exact hstuck.old

end Stuck

/-! ## When a peek is right -/

/-- A queue of which a peek makes what it should.  Nothing is outdated, or there is only one node,
or: not all nodes are outdated; after the first outdated one is gone the comparator puts
all others behind the rest; and the node the scan does not look at any more does no harm, as
it already is the candidate, or nothing is due, or another node has as little time left. -/
def PurgeRight (timeUs : U32) (l : List JitNode) : Prop :=
  (∀ n ∈ l, ¬outdated timeUs n) ∨ l.length = 1 ∨
    ∃ A x B, l = A ++ x :: B ∧ (∀ a ∈ A, ¬outdated timeUs a) ∧ outdated timeUs x ∧
      (∃ f ∈ l, ¬outdated timeUs f) ∧ OldBehind timeUs (A ++ B) ∧
      (FirstLeast timeUs A ∨
        (∀ f ∈ l, ¬outdated timeUs f → txJitDelay.toNat ≤ timeLeft timeUs f) ∨
        LeastTwice timeUs l)

/-- Where some node is outdated, there is a first one. -/
theorem exists_first_outdated {timeUs : U32} {l : List JitNode}
    (h : ¬∀ n ∈ l, ¬outdated timeUs n) :
    ∃ A x B, l = A ++ x :: B ∧ (∀ a ∈ A, ¬outdated timeUs a) ∧ outdated timeUs x := by
  cases hfind : l.find? fun n => decide (outdated timeUs n) with
  | none =>
    refine absurd (fun n hn => ?_) h
    simpa using List.find?_eq_none.mp hfind n hn
  | some x =>
    obtain ⟨hx, A, B, hl, hA⟩ := List.find?_eq_some_iff_append.mp hfind
    exact ⟨A, x, B, hl, fun a ha => by simpa using hA a ha, by simpa using hx⟩

/-- If nothing is outdated, the peek is right. -/
theorem peekRight_of_fresh (env : JitEnv) (hw : q.Wf) (hpos : 0 < q.numPkt.toNat) {time : Timeval}
    (hfresh : ∀ n ∈ q.live, ¬outdated time.lowUs n) : PeekRight env q time := by
  have hend := jitPeekScan_done env q time.lowUs
  have hlen := JitQueue.length_live hw
  obtain ⟨hq, hle, hbest⟩ := jitPeekScan_intact env hw hfresh
  rw [hq] at hend
  rw [peekRight_iff_scan hpos, jitPeekScan_perm_iff env hw, hq]
  refine ⟨fun n hn => by simpa [isFresh] using hfresh n hn, ?_⟩
  rcases hbest with ⟨-, hzero⟩ | ⟨k, hk, hki, hmin, -⟩
  · omega
  · have hleast : ∀ n ∈ q.live, timeLeft time.lowUs (q.node env k) ≤ timeLeft time.lowUs n := by
      intro n hn
      obtain ⟨j, hj, rfl⟩ := JitQueue.exists_node_of_mem_live env hn hw
      exact hmin j (by omega)
    rw [hk, JitQueue.nodeAt_natCast]
    by_cases hdue : timeLeft time.lowUs (q.node env k) < txJitDelay.toNat
    · refine .inl ⟨k, by omega, by rw [if_pos hdue], ?_⟩
      rw [List.get_eq_getElem, JitQueue.getElem_live env]
      exact ⟨hdue, hleast⟩
    · exact .inr ⟨by rw [if_neg hdue], fun n hn => (not_lt.mp hdue).trans (hleast n hn)⟩

/-- A single outdated node is dropped, and nothing reported. -/
theorem peekRight_of_single (env : JitEnv) (hw : q.Wf) (hone : q.live.length = 1)
    {time : Timeval} (hold : ¬∀ n ∈ q.live, ¬outdated time.lowUs n) : PeekRight env q time := by
  have hlen := JitQueue.length_live hw
  have hinv : (jitPeekScan env q time.lowUs).queue = q ∧
        (jitPeekScan env q time.lowUs).i = 0 ∧ (jitPeekScan env q time.lowUs).idx = -1 ∨
      (jitPeekScan env q time.lowUs).queue.Wf ∧
        (jitPeekScan env q time.lowUs).queue.numPkt.toNat = 0 ∧
        (jitPeekScan env q time.lowUs).idx = -1 := by
    refine jitPeekScan_invariant (I := fun s => s.queue = q ∧ s.i = 0 ∧ s.idx = -1 ∨
      s.queue.Wf ∧ s.queue.numPkt.toNat = 0 ∧ s.idx = -1) (.inl ⟨rfl, rfl, rfl⟩) ?_
    rintro s (⟨rfl, hzero, hnone⟩ | ⟨-, hempty, -⟩) hi
    · rcases jitPeekBody_cases env time.lowUs s with ⟨-, hq, -, hidx, -⟩ | ⟨hnew, -⟩
      · refine .inr ⟨hq ▸ wf_removeNode hw (by omega) _, ?_, hidx.trans hnone⟩
        rw [hq, numPkt_removeNode env (by omega)]
        omega
      · refine absurd (fun n hn => ?_) hold
        obtain ⟨j, hj, rfl⟩ := JitQueue.exists_node_of_mem_live env hn hw
        rwa [show j = s.i by omega]
    · omega
  have hend := jitPeekScan_done env q time.lowUs
  rcases hinv with ⟨hq, hzero, -⟩ | ⟨hw', hempty, hnone⟩
  · rw [hq] at hend
    omega
  · have hnil : (jitPeekScan env q time.lowUs).queue.live = [] :=
      List.eq_nil_of_length_eq_zero (by rw [JitQueue.length_live hw', hempty])
    rw [peekRight_iff_scan (by omega), jitPeekScan_perm_iff env hw, hnil, hnone, ite_self]
    exact ⟨by simp, .inr ⟨rfl, by simp⟩⟩

/-- With the outdated nodes behind, the peek is right exactly if the node not looked at does no
harm. -/
theorem peekRight_iff_of_behind {env : JitEnv} (hs : env.QsortSorts) (hw : q.Wf) {time : Timeval}
    {A B : List JitNode} {x f : JitNode} (hl : q.live = A ++ x :: B)
    (hA : ∀ a ∈ A, ¬outdated time.lowUs a) (hx : outdated time.lowUs x) (hf : f ∈ q.live)
    (hff : ¬outdated time.lowUs f) (hb : OldBehind time.lowUs (A ++ B)) :
    PeekRight env q time ↔ FirstLeast time.lowUs A ∨
      (∀ f ∈ q.live, ¬outdated time.lowUs f → txJitDelay.toNat ≤ timeLeft time.lowUs f) ∨
      LeastTwice time.lowUs q.live := by
  have hpurging := jitPeekScan_purging hs hw hl hA hx hf hff hb
  obtain ⟨hfresh, hpos', hpick⟩ := hpurging.picksLeast_iff (jitPeekScan_done env q time.lowUs)
  have hperm := (jitPeekScan_perm_iff env hw time.lowUs).mpr hfresh
  have hpos : 0 < q.numPkt.toNat := by
    rw [← JitQueue.length_live hw]
    exact List.length_pos_of_mem hf
  have hdue : (∀ n ∈ (jitPeekScan env q time.lowUs).queue.live,
        txJitDelay.toNat ≤ timeLeft time.lowUs n) ↔
      ∀ f ∈ q.live, ¬outdated time.lowUs f → txJitDelay.toNat ≤ timeLeft time.lowUs f := by
    constructor
    · intro hall g hg hgf
      exact hall g (hperm.symm.subset (List.mem_filter.mpr ⟨hg, by simpa [isFresh] using hgf⟩))
    · intro hall n hn
      obtain ⟨hmem, hnf⟩ := List.mem_filter.mp (hperm.subset hn)
      exact hall n hmem (by simpa [isFresh] using hnf)
  rw [peekRight_iff_scan hpos, and_iff_right hperm, hpick, hdue,
    leastTwice_iff env hpurging.wf hperm hpurging.sorted hpos']

/-- More than one node is never purged to none. -/
theorem numPkt_jitPeekScan_pos (env : JitEnv) (timeUs : U32) (htwo : 1 < q.numPkt.toNat) :
    0 < (jitPeekScan env q timeUs).queue.numPkt.toNat := by
  have hinv : 1 < (jitPeekScan env q timeUs).queue.numPkt.toNat ∨
      0 < (jitPeekScan env q timeUs).queue.numPkt.toNat ∧
        1 ≤ (jitPeekScan env q timeUs).i := by
    refine jitPeekScan_invariant (I := fun s => 1 < s.queue.numPkt.toNat ∨
      0 < s.queue.numPkt.toNat ∧ 1 ≤ s.i) (.inl htwo) ?_
    intro s h hi
    rcases jitPeekBody_cases env timeUs s with ⟨-, hq, hnext, -⟩ | ⟨-, hq, hnext, -⟩
    · rw [hq, numPkt_removeNode env (by omega)]
      omega
    · rw [hq]
      omega
  omega

/-- **When a peek is right.**  For a queue that is not empty: `jit_peek` keeps what it should and
reports what it should, with every `qsort_r` that sorts where the comparator is consistent,
exactly if the queue is one of those of `PurgeRight`. -/
theorem peekRight_iff (hw : q.Wf) (hpos : 0 < q.numPkt.toNat) (time : Timeval) :
    (∀ env : JitEnv, env.QsortSorts → PeekRight env q time) ↔
      PurgeRight time.lowUs q.live := by
  have hlen := JitQueue.length_live hw
  constructor
  · intro hright
    by_cases hfresh : ∀ n ∈ q.live, ¬outdated time.lowUs n
    · exact .inl hfresh
    by_cases hone : q.live.length = 1
    · exact .inr (.inl hone)
    obtain ⟨A, x, B, hl, hA, hx⟩ := exists_first_outdated hfresh
    have hkept : ∀ env : JitEnv, env.QsortSorts →
        ∀ n ∈ (jitPeekScan env q time.lowUs).queue.live, isFresh time.lowUs n = true :=
      fun env hs => (jitPeekScan_perm_iff env hw time.lowUs).mp
        ((peekRight_iff_scan hpos time).mp (hright env hs)).1
    -- otherwise the last of the outdated nodes would stay
    have hsome : ∃ f ∈ q.live, ¬outdated time.lowUs f := by
      have hpos' := numPkt_jitPeekScan_pos .reference (q := q) time.lowUs (by omega)
      obtain ⟨hw', hsub⟩ := jitPeekScan_live .reference hw time.lowUs
      have hmem : (jitPeekScan .reference q time.lowUs).queue.node .reference 0 ∈
          (jitPeekScan .reference q time.lowUs).queue.live := JitQueue.node_mem_live hw' hpos'
      refine ⟨_, hsub.subset hmem, ?_⟩
      simpa [isFresh] using hkept .reference JitEnv.reference_qsortSorts _ hmem
    obtain ⟨f, hf, hff⟩ := hsome
    have hbehind : OldBehind time.lowUs (A ++ B) := by
      intro y hy hyold g hg hgf
      by_contra hyg
      obtain ⟨z, l', hz, hzold, -⟩ :=
        jitPeekScan_stuck hw hl hA hx hy hyold hg hgf (not_lt.mp hyg)
      have hzf := hkept (.stubborn y) (JitEnv.stubborn_qsortSorts y) z (by simp [hz])
      simp [isFresh, hzold] at hzf
    refine .inr (.inr ⟨A, x, B, hl, hA, hx, ⟨f, hf, hff⟩, hbehind, ?_⟩)
    exact (peekRight_iff_of_behind JitEnv.reference_qsortSorts hw hl hA hx hf hff hbehind).mp
      (hright .reference JitEnv.reference_qsortSorts)
  · rintro hright env hs
    by_cases hfresh : ∀ n ∈ q.live, ¬outdated time.lowUs n
    · exact peekRight_of_fresh env hw hpos hfresh
    · rcases hright with hall | hone | ⟨A, x, B, hl, hA, hx, ⟨f, hf, hff⟩, hbehind, hharmless⟩
      · exact absurd hall hfresh
      · exact peekRight_of_single env hw hone hfresh
      · exact (peekRight_iff_of_behind hs hw hl hA hx hf hff hbehind).mpr hharmless

/-- A peek that drops an overdue node before one that is not due yet. -/
theorem peekRight_one_overdue :
    PeekRight .reference (jitRun .reference
      [.enqueue (instant 0) (some (packetAt 1000000)) .downlinkClassA,
        .enqueue (instant 0) (some (packetAt 3000000)) .downlinkClassA]) (instant 2000000) := by
  refine (peekRight_iff (reachable_jitRun _ _).wf (by decide +kernel) (instant 2000000)).mpr
    (.inr (.inr ⟨[], ⟨packetAt 1000000, .downlinkClassA, 31500, 41000⟩,
      [⟨packetAt 3000000, .downlinkClassA, 31500, 41000⟩], by decide +kernel, by simp,
      by decide +kernel, by decide +kernel, ?_, .inr (.inl (by unfold timeLeft; decide +kernel))⟩))
    .reference JitEnv.reference_qsortSorts
  unfold OldBehind
  decide +kernel

/-- **A peek can keep an overdue node, and miss one that is due.**  Of two overdue nodes the first
one is dropped and the other one stays; and behind an overdue node the one to be sent now is
not reported. -/
theorem peek_keeps_outdated :
    (∃ q, Reachable .reference q ∧
        (jitPeek .reference q (some (instant 2000000)) true).queue.live.map
          (fun n => n.pkt.countUs) = [1200000] ∧
        ¬PeekRight .reference q (instant 2000000)) ∧
      ∃ q, Reachable .reference q ∧
        (jitPeek .reference q (some (instant 2000000)) true).queue.live.map
          (fun n => n.pkt.countUs) = [2010000] ∧
        (jitPeek .reference q (some (instant 2000000)) true).pktIdx = some (-1) ∧
        ¬PeekRight .reference q (instant 2000000) := by
  refine ⟨⟨_, reachable_jitRun _
    [.enqueue (instant 0) (some (packetAt 1000000)) .downlinkClassA,
      .enqueue (instant 0) (some (packetAt 1200000)) .downlinkClassA], by decide +kernel, ?_⟩,
    ⟨_, reachable_jitRun _
      [.enqueue (instant 0) (some (packetAt 1000000)) .downlinkClassA,
        .enqueue (instant 0) (some (packetAt 2010000)) .downlinkClassA], by decide +kernel,
      by decide +kernel, ?_⟩⟩
  · intro h
    have hlen := h.kept.length_eq
    revert hlen
    decide +kernel
  · intro h
    rcases h.picked with ⟨i, -, hidx, -⟩ | ⟨-, hall⟩
    · rw [show (jitPeek .reference (jitRun .reference
        [.enqueue (instant 0) (some (packetAt 1000000)) .downlinkClassA,
          .enqueue (instant 0) (some (packetAt 2010000)) .downlinkClassA])
        (some (instant 2000000)) true).pktIdx = some (-1) by decide +kernel] at hidx
      have := Option.some.inj hidx
      omega
    · revert hall
      unfold timeLeft
      decide +kernel

end PacketForwarder
