import PacketForwarder.JitQueue.PeekIndex

/-!
# What a peek keeps and what it reports

`jit_peek` is to drop the outdated nodes and to report the node with the least time
left.  After each purge it means to begin again, but `i = 0; continue;` lets the `for` loop go on
at index 1, so that the node then at index 0 is not looked at any more.

* `PeekRight` — what is asked of one call;
* `jitPeekScan_filter` — whatever the sort does, only outdated nodes are dropped;
* `Intact` — the invariant of the scan before the first purge;
* `Purging` — the invariant between and after the purges, if the comparator puts the outdated
  nodes behind the others; `Purging.picksLeast_iff` — what the scan ends with;
* `jitPeekScan_purging` — the whole scan of such a queue.
-/

namespace PacketForwarder

open Circle

variable {env : JitEnv} {q : JitQueue}

/-! ## What is asked of a peek -/

/-- The time left until the node departs. -/
def timeLeft (timeUs : U32) (n : JitNode) : ℕ := ahead timeUs n.pkt.countUs

theorem outdated_iff {timeUs : U32} {n : JitNode} :
    outdated timeUs n ↔ 512000000 ≤ timeLeft timeUs n := Iff.rfl

/-- A node is fresh where the purge test of `jit_peek` fails. -/
def isFresh (timeUs : U32) (n : JitNode) : Bool := decide ¬outdated timeUs n

theorem isFresh_iff {timeUs : U32} {n : JitNode} :
    isFresh timeUs n = true ↔ timeLeft timeUs n < 512000000 := by
  rw [isFresh, decide_eq_true_eq, outdated_iff, not_le]

/-- The index is that of a node with the least time left, if that is due, and -1 if none is. -/
def PicksLeast (timeUs : U32) (l : List JitNode) (pktIdx : Option ℤ) : Prop :=
  (∃ (i : ℕ) (hi : i < l.length), pktIdx = some (i : ℤ) ∧
      timeLeft timeUs (l.get ⟨i, hi⟩) < txJitDelay.toNat ∧
      ∀ n ∈ l, timeLeft timeUs (l.get ⟨i, hi⟩) ≤ timeLeft timeUs n) ∨
    pktIdx = some (-1) ∧ ∀ n ∈ l, txJitDelay.toNat ≤ timeLeft timeUs n

/-- The peek keeps exactly the nodes that are not outdated, each once, and reports the one
with the least time left. -/
structure PeekRight (env : JitEnv) (q : JitQueue) (time : Timeval) : Prop where
  ok : (jitPeek env q (some time) true).error = .ok
  kept : (jitPeek env q (some time) true).queue.live.Perm
    (q.live.filter (isFresh time.lowUs))
  picked : PicksLeast time.lowUs (jitPeek env q (some time) true).queue.live
    (jitPeek env q (some time) true).pktIdx

/-- A peek of a queue that is not empty, in terms of its scan. -/
theorem peekRight_iff_scan (hpos : 0 < q.numPkt.toNat) (time : Timeval) :
    PeekRight env q time ↔
      (jitPeekScan env q time.lowUs).queue.live.Perm (q.live.filter (isFresh time.lowUs)) ∧
        PicksLeast time.lowUs (jitPeekScan env q time.lowUs).queue.live
          (some (if timeLeft time.lowUs ((jitPeekScan env q time.lowUs).queue.nodeAt env
              (jitPeekScan env q time.lowUs).idx) < txJitDelay.toNat
            then (jitPeekScan env q time.lowUs).idx else -1)) := by
  have hempty : jitQueueIsEmpty q = false := jitQueueIsEmpty_eq_false_iff.mpr hpos
  have hpeek : jitPeek env q (some time) true = jitPeekLocked env q time := by
    simp [jitPeek, hempty]
  constructor
  · rintro ⟨-, hkept, hpicked⟩
    rw [hpeek] at hkept hpicked
    exact ⟨hkept, hpicked⟩
  · rintro ⟨hkept, hpicked⟩
    exact ⟨by rw [hpeek]; rfl, by rw [hpeek]; exact hkept, by rw [hpeek]; exact hpicked⟩

/-! ## What every scan keeps -/

/-- A removal of an outdated node keeps the others. -/
theorem filter_removeNode (env : JitEnv) (hw : q.Wf) {timeUs : U32} {i : ℕ}
    (hi : i < q.numPkt.toNat) (hold : outdated timeUs (q.node env i)) :
    ((removeNode env q i).live.filter (isFresh timeUs)).Perm
      (q.live.filter (isFresh timeUs)) := by
  have hperm := (live_removeNode_perm env hw hi).filter (isFresh timeUs)
  rwa [List.filter_cons_of_neg (by simpa [isFresh] using hold)] at hperm

/-- **The scan drops outdated nodes only**, whatever the sort does. -/
theorem jitPeekScan_filter (env : JitEnv) (hw : q.Wf) (timeUs : U32) :
    ((jitPeekScan env q timeUs).queue.live.filter (isFresh timeUs)).Perm
      (q.live.filter (isFresh timeUs)) := by
  refine (jitPeekScan_invariant (I := fun s => s.queue.Wf ∧
    (s.queue.live.filter (isFresh timeUs)).Perm (q.live.filter (isFresh timeUs)))
    ⟨hw, List.Perm.refl _⟩ ?_).2
  rintro s ⟨hsw, hkept⟩ hi
  rcases jitPeekBody_cases env timeUs s with ⟨hold, hq, -⟩ | ⟨-, hq, -⟩
  · rw [hq]
    exact ⟨wf_removeNode hsw (by omega) _, (filter_removeNode env hsw hi hold).trans hkept⟩
  · rw [hq]
    exact ⟨hsw, hkept⟩

/-- So it keeps the right nodes exactly if no outdated node is left. -/
theorem jitPeekScan_perm_iff (env : JitEnv) (hw : q.Wf) (timeUs : U32) :
    (jitPeekScan env q timeUs).queue.live.Perm (q.live.filter (isFresh timeUs)) ↔
      ∀ n ∈ (jitPeekScan env q timeUs).queue.live, isFresh timeUs n = true := by
  constructor
  · intro hperm n hn
    exact (List.mem_filter.mp (hperm.subset hn)).2
  · intro hfresh
    have hkept := jitPeekScan_filter env hw timeUs
    rwa [List.filter_eq_self.mpr hfresh] at hkept

theorem JitQueue.nodeAt_natCast (k : ℕ) : q.nodeAt env k = q.node env k := by
  unfold JitQueue.nodeAt
  rw [if_neg (by omega), Int.toNat_natCast]

/-! ## Before the first purge -/

/-- The candidate is the first of the nodes looked at with the least time left. -/
def Best (env : JitEnv) (q : JitQueue) (timeUs : U32) (i : ℕ) (idx : ℤ) : Prop :=
  idx = -1 ∧ i = 0 ∨
    ∃ k : ℕ, idx = k ∧ k < i ∧
      (∀ j, j < i → timeLeft timeUs (q.node env k) ≤ timeLeft timeUs (q.node env j)) ∧
      ∀ j, j < k → timeLeft timeUs (q.node env k) < timeLeft timeUs (q.node env j)

/-- The invariant of the first phase, up to index `p`. -/
structure Intact (env : JitEnv) (q : JitQueue) (timeUs : U32) (p : ℕ) (s : PeekScan) : Prop where
  same : s.queue = q
  le : s.i ≤ p
  best : Best env q timeUs s.i s.idx

theorem Intact.init (env : JitEnv) (q : JitQueue) (timeUs : U32) (p : ℕ) :
    Intact env q timeUs p ⟨q, 0, -1, []⟩ := ⟨rfl, Nat.zero_le _, .inl ⟨rfl, rfl⟩⟩

/-- **One iteration of the first phase.** -/
theorem Intact.body {timeUs : U32} {p : ℕ} {s : PeekScan} (h : Intact env q timeUs p s)
    (hi : s.i < p) (hfresh : ¬outdated timeUs (q.node env s.i)) :
    Intact env q timeUs p (jitPeekBody env timeUs s) := by
  obtain ⟨rfl, -, hbest⟩ := h
  rcases jitPeekBody_cases env timeUs s with ⟨hold, -⟩ | ⟨-, hq, hnext, hpick, -⟩
  · exact absurd hold hfresh
  · refine ⟨hq, by omega, .inr ?_⟩
    rw [hnext]
    rcases hbest with ⟨hnone, hzero⟩ | ⟨k, hk, hki, hmin, hstrict⟩
    · rcases hpick with ⟨hpick, -⟩ | ⟨hne, -⟩
      · refine ⟨s.i, hpick, by omega, ?_, by omega⟩
        intro j hj
        rw [show j = s.i by omega]
      · exact absurd hnone hne
    · rw [hk, JitQueue.nodeAt_natCast] at hpick
      rcases hpick with ⟨hpick, hlt⟩ | ⟨-, hpick, hle⟩
      · have hless := hlt (by omega)
        have hall : ∀ j, j < s.i → timeLeft timeUs (s.queue.node env s.i) <
            timeLeft timeUs (s.queue.node env j) := fun j hj => lt_of_lt_of_le hless (hmin j hj)
        refine ⟨s.i, hpick, by omega, ?_, hall⟩
        intro j hj
        rcases Nat.lt_succ_iff_lt_or_eq.mp hj with hj | rfl
        · exact (hall j hj).le
        · exact le_rfl
      · refine ⟨k, hpick, by omega, ?_, hstrict⟩
        intro j hj
        rcases Nat.lt_succ_iff_lt_or_eq.mp hj with hj | rfl
        · exact hmin j hj
        · exact hle

/-- Where nothing is outdated, the whole scan is of the first phase. -/
theorem jitPeekScan_intact (env : JitEnv) (hw : q.Wf) {timeUs : U32}
    (hfresh : ∀ n ∈ q.live, ¬outdated timeUs n) :
    Intact env q timeUs q.numPkt.toNat (jitPeekScan env q timeUs) := by
  refine jitPeekScan_invariant (.init env q timeUs _) ?_
  intro s h hi
  rw [h.same] at hi
  exact h.body hi (hfresh _ (JitQueue.node_mem_live hw hi))

/-! ## Outdated nodes behind the others -/

/-- The comparator puts every outdated node behind every other one. -/
def OldBehind (timeUs : U32) (l : List JitNode) : Prop :=
  ∀ y ∈ l, outdated timeUs y → ∀ f ∈ l, ¬outdated timeUs f → 0 < compare y f

/-- A node the comparator puts behind one that is not outdated is further away. -/
theorem timeLeft_of_behind {timeUs : U32} {y f : JitNode} (hf : ¬outdated timeUs f)
    (h : 0 < compare y f) : 2 * ahead f.pkt.countUs y.pkt.countUs < 2 ^ 32 ∧
      timeLeft timeUs y = timeLeft timeUs f + ahead f.pkt.countUs y.pkt.countUs := by
  rw [outdated_iff, not_le] at hf
  unfold timeLeft at *
  have hlt := ahead_lt f.pkt.countUs y.pkt.countUs
  have hsigned : compare y f = signedAhead f.pkt.countUs y.pkt.countUs := rfl
  rcases signedAhead_cases f.pkt.countUs y.pkt.countUs with ⟨hnear, -⟩ | ⟨-, hd⟩
  · exact ⟨hnear, ahead_eq_add (by omega)⟩
  · omega

/-- Then the comparator compares the times left. -/
theorem OldBehind.comparesAhead {timeUs : U32} {l : List JitNode} (h : OldBehind timeUs l)
    {f : JitNode} (hf : f ∈ l) (hfresh : ¬outdated timeUs f) : ComparesAhead timeUs l := by
  -- both readings are taken from a node that is not outdated
  have hfrom : ∀ {r a b : JitNode}, 2 * ahead r.pkt.countUs a.pkt.countUs < 2 ^ 32 →
      2 * ahead r.pkt.countUs b.pkt.countUs < 2 ^ 32 →
      timeLeft timeUs a = timeLeft timeUs r + ahead r.pkt.countUs a.pkt.countUs →
      timeLeft timeUs b = timeLeft timeUs r + ahead r.pkt.countUs b.pkt.countUs →
      compare a b = timeLeft timeUs a - timeLeft timeUs b := by
    intro r a b ha hb hta htb
    have hsigned : compare a b = signedAhead b.pkt.countUs a.pkt.countUs := rfl
    rw [hsigned, signedAhead_eq_sub hb ha]
    omega
  have hself : ∀ r : JitNode, 2 * ahead r.pkt.countUs r.pkt.countUs < 2 ^ 32 ∧
      timeLeft timeUs r = timeLeft timeUs r + ahead r.pkt.countUs r.pkt.countUs := by simp
  intro a ha b hb
  by_cases hoa : outdated timeUs a
  · by_cases hob : outdated timeUs b
    · obtain ⟨hna, hta⟩ := timeLeft_of_behind hfresh (h a ha hoa f hf hfresh)
      obtain ⟨hnb, htb⟩ := timeLeft_of_behind hfresh (h b hb hob f hf hfresh)
      exact hfrom hna hnb hta htb
    · obtain ⟨hna, hta⟩ := timeLeft_of_behind hob (h a ha hoa b hb hob)
      exact hfrom hna (hself b).1 hta (hself b).2
  · by_cases hob : outdated timeUs b
    · obtain ⟨hnb, htb⟩ := timeLeft_of_behind hoa (h b hb hob a ha hoa)
      exact hfrom (hself a).1 hnb (hself a).2 htb
    · have hpair : AllFresh timeUs [a, b] := by
        intro n hn
        rcases List.mem_pair.mp hn with rfl | rfl
        · exact not_le.mp hoa
        · exact not_le.mp hob
      exact hpair.comparesAhead a (by simp) b (by simp)

/-- The nodes are in the order of the time left. -/
def ByTimeLeft (timeUs : U32) (l : List JitNode) : Prop :=
  l.Pairwise fun a b => timeLeft timeUs a ≤ timeLeft timeUs b

theorem ByTimeLeft.of_ascending {timeUs : U32} {l : List JitNode} (hc : ComparesAhead timeUs l)
    (h : CmpOrder.Ascending compare l) : ByTimeLeft timeUs l := by
  refine h.imp_of_mem ?_
  intro a b ha hb hab
  rw [hc a ha b hb] at hab
  unfold timeLeft
  omega

/-- Between two indices the time left grows. -/
theorem ByTimeLeft.le (env : JitEnv) {timeUs : U32} (hw : q.Wf) (h : ByTimeLeft timeUs q.live)
    {i j : ℕ} (hij : i ≤ j) (hj : j < q.numPkt.toNat) :
    timeLeft timeUs (q.node env i) ≤ timeLeft timeUs (q.node env j) := by
  have hlen := JitQueue.length_live hw
  rcases Nat.eq_or_lt_of_le hij with rfl | hlt
  · exact le_rfl
  · have := List.pairwise_iff_getElem.mp h i j (by omega) (by omega) hlt
    rwa [JitQueue.getElem_live env, JitQueue.getElem_live env] at this

/-- The nodes that are not outdated are the first ones. -/
theorem ByTimeLeft.outdated_iff (env : JitEnv) {timeUs : U32} (hw : q.Wf)
    (h : ByTimeLeft timeUs q.live) {i : ℕ} (hi : i < q.numPkt.toNat) :
    outdated timeUs (q.node env i) ↔ q.live.countP (isFresh timeUs) ≤ i := by
  have hlen := JitQueue.length_live hw
  have hinit : q.live.Pairwise fun a b => isFresh timeUs b = true → isFresh timeUs a = true := by
    refine h.imp ?_
    intro a b hab hb
    rw [isFresh_iff] at hb ⊢
    omega
  have hiff := CmpOrder.getElem_iff_lt_countP hinit (i := i) (by omega)
  rw [JitQueue.getElem_live env, isFresh, decide_eq_true_eq] at hiff
  rw [← not_lt, ← hiff, not_not]

/-- A candidate no worse than the first node has the least time left. -/
theorem ByTimeLeft.least (env : JitEnv) {timeUs : U32} (hw : q.Wf) (h : ByTimeLeft timeUs q.live)
    {k : ℕ} (hk : timeLeft timeUs (q.node env k) ≤ timeLeft timeUs (q.node env 0)) :
    ∀ n ∈ q.live, timeLeft timeUs (q.node env k) ≤ timeLeft timeUs n := by
  intro n hn
  obtain ⟨j, hj, rfl⟩ := JitQueue.exists_node_of_mem_live env hn hw
  exact hk.trans (h.le env hw (Nat.zero_le j) hj)

/-- It is reported, if it is due. -/
theorem ByTimeLeft.picksLeast {timeUs : U32} (hw : q.Wf) (h : ByTimeLeft timeUs q.live)
    {k : ℕ} (hk : k < q.numPkt.toNat)
    (hk0 : timeLeft timeUs (q.node env k) ≤ timeLeft timeUs (q.node env 0)) :
    PicksLeast timeUs q.live
      (some (if timeLeft timeUs (q.nodeAt env (k : ℤ)) < txJitDelay.toNat then (k : ℤ)
        else -1)) := by
  have hlen := JitQueue.length_live hw
  rw [JitQueue.nodeAt_natCast]
  by_cases hdue : timeLeft timeUs (q.node env k) < txJitDelay.toNat
  · refine .inl ⟨k, by omega, by rw [if_pos hdue], ?_⟩
    rw [List.get_eq_getElem, JitQueue.getElem_live env]
    exact ⟨hdue, h.least env hw hk0⟩
  · exact .inr ⟨by rw [if_neg hdue], fun n hn => (not_lt.mp hdue).trans (h.least env hw hk0 n hn)⟩

/-! ## Between and after the purges -/

/-- The invariant of the second phase, with `m` nodes that are not outdated: they come first, and
the scan never gets past them without a purge.  If the candidate of the first phase was
index 0, it stays; any other one is replaced by index 1, as soon as the scan has looked there. -/
structure Purging (env : JitEnv) (timeUs : U32) (l : List JitNode) (m : ℕ) (first : Prop)
    (s : PeekScan) : Prop where
  wf : s.queue.Wf
  subset : s.queue.live ⊆ l
  count : s.queue.live.countP (isFresh timeUs) = m
  sorted : ByTimeLeft timeUs s.queue.live
  lo : 1 ≤ s.i
  hi : s.i ≤ m
  candidate : first → s.idx = 0
  other : ¬first → s.idx = -1 ∧ s.i = 1 ∨
    ∃ k : ℕ, s.idx = k ∧ 1 ≤ k ∧ k < m ∧
      (2 ≤ s.i → timeLeft timeUs (s.queue.node env k) = timeLeft timeUs (s.queue.node env 1))

section Purging

variable {timeUs : U32} {l : List JitNode} {m : ℕ} {first : Prop} {s : PeekScan}

/-- What a purge does to sorted nodes. -/
theorem sorted_after_purge (hs : env.QsortSorts) (hc : ComparesAhead timeUs l) (hw : q.Wf)
    {i : ℕ} (hi : i < q.numPkt.toNat) (hold : outdated timeUs (q.node env i))
    (hsub : (removeNode env q i).live ⊆ l) :
    (removeNode env q i).Wf ∧
      (removeNode env q i).live.countP (isFresh timeUs) = q.live.countP (isFresh timeUs) ∧
      ByTimeLeft timeUs (removeNode env q i).live := by
  have hc' : ComparesAhead timeUs (removeNode env q i).live :=
    fun a ha b hb => hc a (hsub ha) b (hsub hb)
  refine ⟨wf_removeNode hw (by omega) i, ?_, ?_⟩
  · rw [List.countP_eq_length_filter, List.countP_eq_length_filter]
    exact (filter_removeNode env hw hi hold).length_eq
  · exact .of_ascending hc' (sorted_removeNode hs hw (by omega) i hc'.orderOn)

/-- **One iteration of the second phase.** -/
theorem Purging.body (hs : env.QsortSorts) (hc : ComparesAhead timeUs l)
    (h : Purging env timeUs l m first s) (hi : s.i < s.queue.numPkt.toNat) :
    Purging env timeUs l m first (jitPeekBody env timeUs s) := by
  obtain ⟨hw, hsub, hcount, hsorted, hlo, hhi, hcand, hother⟩ := h
  have hplace := hsorted.outdated_iff env hw hi
  rw [hcount] at hplace
  rcases jitPeekBody_cases env timeUs s with ⟨hold, hq, hnext, hidx, -⟩ |
    ⟨hnew, hq, hnext, hpick, -⟩
  · -- at the first outdated node: purge, and begin again at index 1
    have hsub' : (removeNode env s.queue s.i).live ⊆ l :=
      List.Subset.trans (live_removeNode_subperm env hw (by omega) s.i).subset hsub
    obtain ⟨hw', hcount', hsorted'⟩ := sorted_after_purge hs hc hw hi hold hsub'
    refine ⟨hq ▸ hw', hq ▸ hsub', ?_, hq ▸ hsorted', by omega, by omega, ?_, ?_⟩
    · rw [hq, hcount', hcount]
    · intro hf
      rw [hidx, hcand hf]
    · intro hf
      rcases hother hf with ⟨hnone, -⟩ | ⟨k, hk, hk1, hkm, -⟩
      · exact .inl ⟨hidx.trans hnone, hnext⟩
      · exact .inr ⟨k, hidx.trans hk, hk1, hkm, fun h2 => by omega⟩
  · have him : s.i < m := by
      by_contra hge
      exact hnew (hplace.mpr (by omega))
    have hle : ∀ j, j ≤ s.i → timeLeft timeUs (s.queue.node env j) ≤
        timeLeft timeUs (s.queue.node env s.i) := fun j hj => hsorted.le env hw hj hi
    refine ⟨hq ▸ hw, hq ▸ hsub, by rw [hq, hcount], hq ▸ hsorted, by omega, by omega, ?_, ?_⟩
    · intro hf
      have hzero := hcand hf
      rcases hpick with ⟨hpick, hlt⟩ | ⟨-, hpick, -⟩
      · -- index 0 has the least time left
        have hless := hlt (by omega)
        rw [hzero, show (0 : ℤ) = ((0 : ℕ) : ℤ) from rfl, JitQueue.nodeAt_natCast] at hless
        exact absurd (hle 0 (by omega)) (not_le.mpr hless)
      · rw [hpick, hzero]
    · intro hf
      rw [hq]
      rcases hother hf with ⟨hnone, hone⟩ | ⟨k, hk, hk1, hkm, hsame⟩
      · rcases hpick with ⟨hpick, -⟩ | ⟨hne, -⟩
        · exact .inr ⟨1, by rw [hpick, hone], le_rfl, by omega, fun _ => rfl⟩
        · exact absurd hnone hne
      · rw [hk, JitQueue.nodeAt_natCast] at hpick
        rcases hpick with ⟨hpick, hlt⟩ | ⟨-, hpick, hkeep⟩
        · have hless := hlt (by omega)
          by_cases hone : s.i = 1
          · exact .inr ⟨1, by rw [hpick, hone], le_rfl, by omega, fun _ => rfl⟩
          · -- the candidate already has the time left of index 1
            have hk' := hsame (by omega)
            have hle1 := hle 1 (by omega)
            unfold timeLeft at hk' hle1
            omega
        · refine .inr ⟨k, hpick, hk1, hkm, fun _ => ?_⟩
          by_cases hone : s.i = 1
          · rw [hone] at hkeep
            have hkn : k < s.queue.numPkt.toNat := by
              have := List.countP_le_length (p := isFresh timeUs) (l := s.queue.live)
              rw [hcount, JitQueue.length_live hw] at this
              omega
            exact le_antisymm hkeep (hsorted.le env hw hk1 hkn)
          · exact hsame (by omega)

/-- **What the second phase ends with**: no outdated node, and the right index exactly if index 0
was the candidate, or nothing is due, or the node at index 1 is as good as that at index 0. -/
theorem Purging.picksLeast_iff (h : Purging env timeUs l m first s)
    (hend : s.queue.numPkt.toNat ≤ s.i) :
    (∀ n ∈ s.queue.live, isFresh timeUs n = true) ∧ 0 < s.queue.numPkt.toNat ∧
      (PicksLeast timeUs s.queue.live
          (some (if timeLeft timeUs (s.queue.nodeAt env s.idx) < txJitDelay.toNat then s.idx
            else -1)) ↔
        first ∨ (∀ n ∈ s.queue.live, txJitDelay.toNat ≤ timeLeft timeUs n) ∨
          1 < s.queue.numPkt.toNat ∧
            timeLeft timeUs (s.queue.node env 0) = timeLeft timeUs (s.queue.node env 1)) := by
  obtain ⟨hw, -, hcount, hsorted, hlo, hhi, hcand, hother⟩ := h
  have hlen := JitQueue.length_live hw
  have hle := List.countP_le_length (p := isFresh timeUs) (l := s.queue.live)
  have hpos : 0 < s.queue.numPkt.toNat := by omega
  refine ⟨List.countP_eq_length.mp (by omega), hpos, ?_⟩
  by_cases hf : first
  · have hzero : s.idx = ((0 : ℕ) : ℤ) := hcand hf
    rw [hzero]
    exact iff_of_true (hsorted.picksLeast hw hpos le_rfl) (.inl hf)
  · rcases hother hf with ⟨hnone, hone⟩ | ⟨k, hk, hk1, hkm, hsame⟩
    · -- the only node left is at index 0, and was not looked at
      rw [hnone, ite_self]
      constructor
      · rintro (⟨i, -, hi, -⟩ | ⟨-, hall⟩)
        · have := Option.some.inj hi
          omega
        · exact .inr (.inl hall)
      · rintro (hf' | hall | ⟨htwo, -⟩)
        · exact absurd hf' hf
        · exact .inr ⟨rfl, hall⟩
        · omega
    · have hk' := hsame (by omega)
      have h01 := hsorted.le env hw (Nat.zero_le 1) (by omega)
      rw [hk]
      constructor
      · rintro (⟨i, hi, heq, -, hmin⟩ | ⟨-, hall⟩)
        · have heq' := Option.some.inj heq
          have hik : i = k := by
            split at heq' <;> omega
          subst hik
          rw [List.get_eq_getElem, JitQueue.getElem_live env] at hmin
          dsimp only at hmin
          have := hmin (s.queue.node env 0) (JitQueue.node_mem_live hw hpos)
          exact .inr (.inr ⟨by omega, le_antisymm h01 (by omega)⟩)
        · exact .inr (.inl hall)
      · rintro (hf' | hall | ⟨-, heq⟩)
        · exact absurd hf' hf
        · have hnot : ¬timeLeft timeUs (s.queue.nodeAt env (k : ℤ)) < txJitDelay.toNat := by
            rw [JitQueue.nodeAt_natCast, not_lt]
            exact hall _ (JitQueue.node_mem_live hw (by omega))
          exact .inr ⟨by rw [if_neg hnot], hall⟩
        · exact hsorted.picksLeast hw (by omega) (by omega)

end Purging

/-! ## The first purge -/

/-- The first of the nodes has the least time left. -/
def FirstLeast (timeUs : U32) (l : List JitNode) : Prop :=
  ∃ a l', l = a :: l' ∧ ∀ b ∈ l', timeLeft timeUs a ≤ timeLeft timeUs b

section Split

variable {timeUs : U32} {A B : List JitNode} {x : JitNode}

theorem node_of_split (env : JitEnv) (hw : q.Wf) (hl : q.live = A ++ x :: B) :
    A.length < q.numPkt.toNat ∧ q.node env A.length = x ∧
      ∀ (j : ℕ) (hj : j < A.length), q.node env j = A[j] := by
  have hlen := JitQueue.length_live hw
  have hn : A.length < q.live.length := by simp [hl]
  refine ⟨by omega, ?_, ?_⟩
  · rw [← JitQueue.getElem_live env hn]
    simp [hl]
  · intro j hj
    rw [← JitQueue.getElem_live env (by omega)]
    simp [hl, List.getElem_append_left hj]

/-- After the first phase the candidate is index 0 exactly if the first node was the best. -/
theorem Best.zero_iff {idx : ℤ} (hw : q.Wf) (hl : q.live = A ++ x :: B)
    (h : Best env q timeUs A.length idx) : FirstLeast timeUs A ↔ idx = 0 := by
  obtain ⟨-, -, hnode⟩ := node_of_split env hw hl
  constructor
  · rintro ⟨a, A', rfl, hmin⟩
    rcases h with ⟨-, hzero⟩ | ⟨k, hk, hki, -, hstrict⟩
    · simp at hzero
    · cases k with
      | zero => exact hk
      | succ k =>
        have hless := hstrict 0 (by omega)
        rw [hnode _ hki, hnode 0 (by simp)] at hless
        exact absurd (hmin _ (List.getElem_mem _)) (not_le.mpr hless)
  · rintro rfl
    rcases h with ⟨hnone, -⟩ | ⟨k, hk, hki, hmin, -⟩
    · omega
    · obtain rfl : k = 0 := by omega
      cases A with
      | nil => simp at hki
      | cons a A' =>
        refine ⟨a, A', rfl, ?_⟩
        intro b hb
        obtain ⟨j, hj, rfl⟩ := List.getElem_of_mem hb
        have := hmin (j + 1) (by simp; omega)
        rwa [hnode 0 (by simp), hnode (j + 1) (by simp; omega)] at this

/-- The nodes left by the first purge. -/
theorem live_first_purge (env : JitEnv) (hw : q.Wf) (hl : q.live = A ++ x :: B) :
    (removeNode env q A.length).live.Perm (A ++ B) := by
  have hperm := live_removeNode_perm_eraseIdx env hw (node_of_split env hw hl).1
  rwa [hl, List.eraseIdx_append_of_length_le le_rfl, Nat.sub_self, List.eraseIdx_cons_zero]
    at hperm

/-- **The whole scan**, if the other outdated nodes are put behind: it ends in the second phase. -/
theorem jitPeekScan_purging (hs : env.QsortSorts) (hw : q.Wf) (hl : q.live = A ++ x :: B)
    (hA : ∀ a ∈ A, ¬outdated timeUs a) (hx : outdated timeUs x) {f : JitNode}
    (hf : f ∈ q.live) (hff : ¬outdated timeUs f) (hb : OldBehind timeUs (A ++ B)) :
    Purging env timeUs (A ++ B) (q.live.countP (isFresh timeUs)) (FirstLeast timeUs A)
      (jitPeekScan env q timeUs) := by
  obtain ⟨hAn, hnx, hnA⟩ := node_of_split env hw hl
  have hfAB : f ∈ A ++ B := by
    rw [hl, List.mem_append, List.mem_cons] at hf
    rw [List.mem_append]
    rcases hf with hf | rfl | hf
    · exact .inl hf
    · exact absurd hx hff
    · exact .inr hf
  have hc := hb.comparesAhead hfAB hff
  have hAm : A.length ≤ q.live.countP (isFresh timeUs) := by
    have hall : A.countP (isFresh timeUs) = A.length :=
      List.countP_eq_length.mpr fun a ha => by simpa [isFresh] using hA a ha
    rw [hl, List.countP_append, hall]
    omega
  have hm : 1 ≤ q.live.countP (isFresh timeUs) :=
    List.countP_pos_iff.mpr ⟨f, hf, by simpa [isFresh] using hff⟩
  have hinv : Intact env q timeUs A.length (jitPeekScan env q timeUs) ∨
      Purging env timeUs (A ++ B) (q.live.countP (isFresh timeUs)) (FirstLeast timeUs A)
        (jitPeekScan env q timeUs) := by
    refine jitPeekScan_invariant (I := fun s => Intact env q timeUs A.length s ∨
      Purging env timeUs (A ++ B) (q.live.countP (isFresh timeUs)) (FirstLeast timeUs A) s)
      (.inl (.init env q timeUs _)) ?_
    rintro s (hintact | hpurging) hi
    · by_cases hlt : s.i < A.length
      · refine .inl (hintact.body hlt ?_)
        rw [hnA _ hlt]
        exact hA _ (List.getElem_mem _)
      · -- the first outdated node
        obtain ⟨rfl, hle, hbest⟩ := hintact
        have hat : s.i = A.length := by omega
        rcases jitPeekBody_cases env timeUs s with ⟨hold, hq, hnext, hidx, -⟩ | ⟨hnew, -⟩
        · have hperm := live_first_purge env hw hl
          rw [← hat] at hperm
          obtain ⟨hw', hcount', hsorted'⟩ :=
            sorted_after_purge hs hc hw hi hold hperm.subset
          rw [hat] at hbest
          have hzero := hbest.zero_iff hw hl
          refine .inr ⟨hq ▸ hw', hq ▸ hperm.subset, by rw [hq, hcount'], hq ▸ hsorted', by omega,
            by omega, fun hfirst => by rw [hidx]; exact hzero.mp hfirst, fun hfirst => ?_⟩
          rcases hbest with ⟨hnone, -⟩ | ⟨k, hk, hki, -⟩
          · exact .inl ⟨hidx.trans hnone, hnext⟩
          · refine .inr ⟨k, hidx.trans hk, ?_, by omega, fun h2 => by omega⟩
            by_contra hk0
            exact hfirst (hzero.mpr (by omega))
        · rw [hat, hnx] at hnew
          exact absurd hx hnew
    · exact .inr (hpurging.body hs hc hi)
  rcases hinv with hintact | hpurging
  · have hend := jitPeekScan_done env q timeUs
    have := hintact.le
    rw [hintact.same] at hend
    omega
  · exact hpurging

end Split

/-- At least two of the nodes have the least time left. -/
def LeastTwice (timeUs : U32) (l : List JitNode) : Prop :=
  2 ≤ l.countP fun f => decide (∀ g ∈ l, timeLeft timeUs f ≤ timeLeft timeUs g)

section LeastTwice

variable {timeUs : U32} {l T : List JitNode} {n₀ : JitNode}

/-- The first of the nodes that are not outdated, in order, has the least time left of all. -/
theorem timeLeft_head_le (hperm : (n₀ :: T).Perm (l.filter (isFresh timeUs)))
    (hsorted : ByTimeLeft timeUs (n₀ :: T)) {g : JitNode} (hg : g ∈ l) :
    timeLeft timeUs n₀ ≤ timeLeft timeUs g := by
  by_cases hgf : isFresh timeUs g = true
  · rcases List.mem_cons.mp (hperm.symm.subset (List.mem_filter.mpr ⟨hg, hgf⟩)) with rfl | hgT
    · exact le_rfl
    · exact (List.pairwise_cons.mp hsorted).1 g hgT
  · have hfresh₀ := isFresh_iff.mp (List.mem_filter.mp (hperm.subset List.mem_cons_self)).2
    rw [isFresh_iff] at hgf
    omega

/-- The nodes with the least time left are the first one and those behind it that have as much. -/
theorem countP_least (hperm : (n₀ :: T).Perm (l.filter (isFresh timeUs)))
    (hsorted : ByTimeLeft timeUs (n₀ :: T)) :
    (l.countP fun f => decide (∀ g ∈ l, timeLeft timeUs f ≤ timeLeft timeUs g)) =
      (T.countP fun f => decide (timeLeft timeUs f = timeLeft timeUs n₀)) + 1 := by
  obtain ⟨hmem₀, hfresh₀⟩ := List.mem_filter.mp (hperm.subset List.mem_cons_self)
  rw [isFresh_iff] at hfresh₀
  have hleast : ∀ f ∈ l, decide (∀ g ∈ l, timeLeft timeUs f ≤ timeLeft timeUs g) = true ↔
      (decide (timeLeft timeUs f = timeLeft timeUs n₀) && isFresh timeUs f) = true := by
    intro f hf
    rw [decide_eq_true_eq, Bool.and_eq_true, decide_eq_true_eq]
    constructor
    · intro hall
      have heq := le_antisymm (hall n₀ hmem₀) (timeLeft_head_le hperm hsorted hf)
      exact ⟨heq, isFresh_iff.mpr (by omega)⟩
    · rintro ⟨heq, -⟩ g hg
      rw [heq]
      exact timeLeft_head_le hperm hsorted hg
  rw [List.countP_congr hleast, ← List.countP_filter, ← hperm.countP_eq,
    List.countP_cons_of_pos (by simp)]

/-- In order, some node behind the first has as much time left exactly if the second has. -/
theorem ByTimeLeft.exists_same_iff (h : ByTimeLeft timeUs (n₀ :: T)) :
    (∃ f ∈ T, timeLeft timeUs f = timeLeft timeUs n₀) ↔
      ∃ n₁ ∈ T.head?, timeLeft timeUs n₀ = timeLeft timeUs n₁ := by
  obtain ⟨hmin₀, hT⟩ := List.pairwise_cons.mp h
  cases T with
  | nil => simp
  | cons n₁ T =>
    constructor
    · rintro ⟨f, hf, heq⟩
      have h₀₁ := hmin₀ n₁ List.mem_cons_self
      have h₁f : timeLeft timeUs n₁ ≤ timeLeft timeUs f := by
        rcases List.mem_cons.mp hf with rfl | hfT
        · exact le_rfl
        · exact (List.pairwise_cons.mp hT).1 f hfT
      exact ⟨n₁, rfl, by omega⟩
    · rintro ⟨n, hn, heq⟩
      cases hn
      exact ⟨n₁, List.mem_cons_self, heq.symm⟩

/-- In terms of the nodes that are not outdated, in order: the first two have the same time left. -/
theorem leastTwice_iff (env : JitEnv) (hw : q.Wf)
    (hperm : q.live.Perm (l.filter (isFresh timeUs))) (hsorted : ByTimeLeft timeUs q.live)
    (hpos : 0 < q.numPkt.toNat) :
    LeastTwice timeUs l ↔ 1 < q.numPkt.toNat ∧
      timeLeft timeUs (q.node env 0) = timeLeft timeUs (q.node env 1) := by
  have hlen := JitQueue.length_live hw
  obtain ⟨n₀, T, hlive⟩ := List.exists_cons_of_length_pos (l := q.live) (by omega)
  have hnode₀ : q.node env 0 = n₀ := by
    rw [← JitQueue.getElem_live env (by omega)]
    simp [hlive]
  rw [hlive] at hperm hsorted hlen
  have htwice : LeastTwice timeUs l ↔ ∃ f ∈ T, timeLeft timeUs f = timeLeft timeUs n₀ := by
    unfold LeastTwice
    rw [countP_least hperm hsorted, Nat.succ_le_succ_iff, Nat.one_le_iff_ne_zero,
      ← Nat.pos_iff_ne_zero, List.countP_pos_iff]
    simp only [decide_eq_true_eq]
  rw [htwice, hsorted.exists_same_iff, hnode₀]
  cases T with
  | nil =>
    have hone : q.numPkt.toNat = 1 := hlen.symm
    simp [hone]
  | cons n₁ T =>
    have hnode₁ : q.node env 1 = n₁ := by
      rw [← JitQueue.getElem_live env (by simp [hlive])]
      simp [hlive]
    have hlt : 1 < q.numPkt.toNat := by
      simp only [List.length_cons] at hlen
      omega
    simp [hnode₁, hlt]

end LeastTwice

end PacketForwarder
