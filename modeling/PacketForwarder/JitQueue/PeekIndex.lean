import PacketForwarder.JitQueue.Reference

/-!
# The index `jit_peek` works with

The scan keeps the index of its best candidate across purges that shrink and
re-sort the queue, and it resumes at index 1 after a purge, so that the node then
at index 0 is not looked at again.  What index it ends with is settled here.

* `counts_removeNode` — among nodes the comparator can order, a purge closes the gap
  and moves nothing else;
* `Found` — the loop invariant: no node from index 1 up to a high-water mark is
  outdated, and the candidate lies below that mark;
* `jitPeekScan_of_fresh`, `jitPeekScan_of_ordered` — if nothing is outdated, or the
  comparator can order the live nodes, the scan ends with a live index or with -1,
  the latter only if it dropped or skipped every node (`SomeStays`);
* `jitPeekLocked_accesses` — when every access of a peek is inside the array and
  every node it decides by is live.
-/

namespace PacketForwarder

open Circle

variable {env : JitEnv} {q : JitQueue}

/-! ## Purging sorted nodes -/

/-- The departures of the live nodes, in order. -/
def JitQueue.counts (q : JitQueue) : List U32 := q.live.map fun n => n.pkt.countUs

theorem compare_keyedBy : CmpOrder.KeyedBy compare fun n => n.pkt.countUs := by
  refine ⟨?_, ?_⟩
  · intro a b a' b' ha hb
    unfold compare
    rw [ha, hb]
  · intro a b h
    unfold compare at h
    have hsub : a.pkt.countUs - b.pkt.countUs = 0#32 := BitVec.eq_of_toInt_eq (by simpa using h)
    rw [← BitVec.sub_add_cancel a.pkt.countUs b.pkt.countUs, hsub]
    simp

theorem JitQueue.getElem?_counts (env : JitEnv) (hw : q.Wf) {i : ℕ} (hi : i < q.numPkt.toNat) :
    q.counts[i]? = some (q.node env i).pkt.countUs := by
  have hlen : i < q.live.length := by
    rw [JitQueue.length_live hw]
    exact hi
  rw [JitQueue.counts, List.getElem?_map, List.getElem?_eq_getElem hlen,
    JitQueue.getElem_live env hlen]
  rfl

/-- A removal from sorted nodes closes the gap. -/
theorem counts_removeNode (env : JitEnv) (hs : env.QsortSorts) (hw : q.Wf) (hsort : q.Sorted)
    (ho : CmpOrder.OrderOn compare q.live) {i : ℕ} (hi : i < q.numPkt.toNat) :
    (removeNode env q i).counts = q.counts.eraseIdx i := by
  have hperm := live_removeNode_perm_eraseIdx env hw hi
  have hsub := ho.subset (live_removeNode_subperm env hw (by omega) i).subset
  exact CmpOrder.keys_eraseIdx compare_keyedBy ho (hsort ho) hperm
    (sorted_removeNode hs hw (by omega) i hsub)

/-- Below the gap that a removal leaves nothing moves. -/
theorem countUs_removeNode_of_lt (env : JitEnv) (hs : env.QsortSorts) (hw : q.Wf)
    (hsort : q.Sorted) (ho : CmpOrder.OrderOn compare q.live) {i j : ℕ}
    (hi : i < q.numPkt.toNat) (hj : j < i) :
    ((removeNode env q i).node env j).pkt.countUs = (q.node env j).pkt.countUs := by
  have hnum := numPkt_removeNode env (q := q) (by omega) i
  have h := congrArg (fun l => l[j]?) (counts_removeNode env hs hw hsort ho hi)
  simp only [List.getElem?_eraseIdx, if_pos hj] at h
  rw [JitQueue.getElem?_counts env (wf_removeNode hw (by omega) i) (by omega),
    JitQueue.getElem?_counts env hw (by omega)] at h
  exact Option.some.inj h

/-- From the gap on everything moves down by one. -/
theorem countUs_removeNode_of_le (env : JitEnv) (hs : env.QsortSorts) (hw : q.Wf)
    (hsort : q.Sorted) (ho : CmpOrder.OrderOn compare q.live) {i j : ℕ} (hj : i ≤ j)
    (hj' : j + 1 < q.numPkt.toNat) :
    ((removeNode env q i).node env j).pkt.countUs = (q.node env (j + 1)).pkt.countUs := by
  have hnum := numPkt_removeNode env (q := q) (by omega) i
  have h := congrArg (fun l => l[j]?) (counts_removeNode env hs hw hsort ho (i := i) (by omega))
  simp only [List.getElem?_eraseIdx, if_neg (not_lt.mpr hj)] at h
  rw [JitQueue.getElem?_counts env (wf_removeNode hw (by omega) i) (by omega),
    JitQueue.getElem?_counts env hw (by omega)] at h
  exact Option.some.inj h

theorem outdated_congr {timeUs : U32} {a b : JitNode} (h : a.pkt.countUs = b.pkt.countUs) :
    outdated timeUs a ↔ outdated timeUs b := by
  unfold outdated
  rw [h]

/-! ## The accesses of one iteration -/

/-- The candidate is live, or there is none. -/
def PeekScan.Valid (s : PeekScan) : Prop := s.idx = -1 ∨ 0 ≤ s.idx ∧ s.idx < s.queue.numPkt.toNat

theorem readsBelow_ok {num k : ℕ} (hk : k ≤ num) (hnum : num ≤ 32) :
    ∀ a ∈ readsBelow num k, a.Ok := by
  intro a ha
  unfold readsBelow at ha
  rw [List.mem_map] at ha
  obtain ⟨i, hi, rfl⟩ := ha
  rw [List.mem_range] at hi
  refine ⟨?_, ?_, ?_⟩
  · show (0 : ℤ) ≤ i
    omega
  · show (i : ℤ) < 32
    omega
  · intro _
    show (i : ℤ) < num
    omega

theorem removeAccesses_ok {i num : ℕ} (hi : i < 32) (hnum : num < 32) :
    ∀ a ∈ removeAccesses i num, a.Ok := by
  unfold removeAccesses
  refine List.forall_mem_cons.mpr ⟨⟨?_, ?_, nofun⟩, List.forall_mem_cons.mpr
    ⟨⟨?_, ?_, nofun⟩, readsBelow_ok le_rfl (by omega)⟩⟩
  · show (0 : ℤ) ≤ i
    omega
  · show (i : ℤ) < 32
    omega
  · show (0 : ℤ) ≤ num
    omega
  · show (num : ℤ) < 32
    omega

/-- With a live candidate or none, an iteration stays inside the array and decides by
live nodes only. -/
theorem jitPeekBody_accesses (env : JitEnv) (timeUs : U32) {s : PeekScan} (hw : s.queue.Wf)
    (hv : s.Valid) (hi : s.i < s.queue.numPkt.toNat) (ha : ∀ a ∈ s.accesses, a.Ok) :
    ∀ a ∈ (jitPeekBody env timeUs s).accesses, a.Ok := by
  have hle : s.queue.numPkt.toNat ≤ 32 := hw
  have hread : Access.Ok ⟨s.i, s.queue.numPkt.toNat, true⟩ := by
    refine ⟨?_, ?_, fun _ => ?_⟩
    · show (0 : ℤ) ≤ s.i
      omega
    · show (s.i : ℤ) < 32
      omega
    · show (s.i : ℤ) < s.queue.numPkt.toNat
      omega
  have hlast : (s.queue.numPkt - 1).toNat < 32 := by
    rw [toNat_numPkt_sub_one (by omega)]
    omega
  rcases jitPeekBody_cases env timeUs s with ⟨-, -, -, -, hacc⟩ | ⟨-, -, -, -, hacc⟩
  · rw [hacc]
    refine List.forall_mem_append.mpr ⟨ha, List.forall_mem_cons.mpr ⟨hread, ?_⟩⟩
    exact removeAccesses_ok (by omega) hlast
  · rw [hacc]
    refine List.forall_mem_append.mpr ⟨ha, List.forall_mem_cons.mpr ⟨hread, ?_⟩⟩
    split
    · exact fun a h => absurd h List.not_mem_nil
    · rename_i hidx
      obtain ⟨hlo, hhi⟩ := hv.resolve_left hidx
      refine List.forall_mem_cons.mpr
        ⟨⟨hlo, ?_, fun _ => hhi⟩, fun a h => absurd h List.not_mem_nil⟩
      show s.idx < 32
      omega

/-! ## A scan that drops nothing -/

/-- The loop invariant: the queue is untouched, and the candidate lies behind `i`. -/
structure Fresh (q : JitQueue) (s : PeekScan) : Prop where
  same : s.queue = q
  le : s.i ≤ q.numPkt.toNat
  candidate : s.idx = -1 ∧ s.i = 0 ∨ 0 ≤ s.idx ∧ s.idx < s.i
  accesses : ∀ a ∈ s.accesses, a.Ok

theorem Fresh.valid {s : PeekScan} (h : Fresh q s) : s.Valid := by
  rcases h.candidate with ⟨hnone, -⟩ | ⟨hlo, hhi⟩
  · exact .inl hnone
  · refine .inr ⟨hlo, ?_⟩
    have := h.le
    rw [h.same]
    omega

/-- **One iteration** passes over a node, or takes it as the candidate. -/
theorem Fresh.body (env : JitEnv) (hw : q.Wf) {timeUs : U32}
    (hfresh : ∀ n ∈ q.live, ¬outdated timeUs n) {s : PeekScan} (h : Fresh q s)
    (hi : s.i < s.queue.numPkt.toNat) : Fresh q (jitPeekBody env timeUs s) := by
  have hv := h.valid
  obtain ⟨rfl, hle, hcand, hacc⟩ := h
  have hacc' := jitPeekBody_accesses env timeUs hw hv hi hacc
  rcases jitPeekBody_cases env timeUs s with ⟨hold, -⟩ | ⟨-, hq, hnext, hpick, -⟩
  · exact absurd hold (hfresh _ (JitQueue.node_mem_live hw hi))
  · refine ⟨hq, by omega, .inr ?_, hacc'⟩
    rcases hpick with ⟨hpick, -⟩ | ⟨hne, hpick, -⟩
    · exact ⟨by omega, by omega⟩
    · have hfound := hcand.resolve_left fun h => hne h.1
      exact ⟨by omega, by omega⟩

theorem Fresh.init (q : JitQueue) : Fresh q ⟨q, 0, -1, []⟩ :=
  ⟨rfl, Nat.zero_le _, .inl ⟨rfl, rfl⟩, fun _ h => absurd h List.not_mem_nil⟩

/-- Where nothing is outdated, the scan leaves the queue alone and ends with a live
index. -/
theorem jitPeekScan_of_fresh (env : JitEnv) (hw : q.Wf) (hpos : 0 < q.numPkt.toNat)
    {timeUs : U32} (hfresh : ∀ n ∈ q.live, ¬outdated timeUs n) :
    let s := jitPeekScan env q timeUs
    s.queue = q ∧ 0 ≤ s.idx ∧ s.idx < q.numPkt.toNat ∧ ∀ a ∈ s.accesses, a.Ok := by
  obtain ⟨hq, hle, hcand, hacc⟩ := jitPeekScan_invariant (.init q)
    fun s h hi => Fresh.body env hw hfresh h hi
  have hend := jitPeekScan_done env q timeUs
  rw [hq] at hend
  exact ⟨hq, by omega, by omega, hacc⟩

/-! ## A scan of nodes the comparator can order -/

/-- A node the scan will not drop is certain to be looked at: the first one, or one
from index 2 on, since a purge of the first makes the scan skip the second. -/
def SomeStays (env : JitEnv) (q : JitQueue) (timeUs : U32) : Prop :=
  ¬outdated timeUs (q.node env 0) ∨
    ∃ i, 2 ≤ i ∧ i < q.numPkt.toNat ∧ ¬outdated timeUs (q.node env i)

/-- No candidate yet: only indices 0 and 1 have been tried.  If `hope` holds there
still is a node ahead that will not be dropped. -/
def Waiting (env : JitEnv) (timeUs : U32) (hope : Prop) (s : PeekScan) : Prop :=
  s.idx = -1 ∧ (s.i = 0 ∧ 0 < s.queue.numPkt.toNat ∧ (hope → SomeStays env s.queue timeUs) ∨
    s.i = 1 ∧ (hope → ∃ j, 1 ≤ j ∧ j < s.queue.numPkt.toNat ∧
      ¬outdated timeUs (s.queue.node env j)))

/-- A candidate below the high-water mark `m`: no node from index 1 up to the mark is
outdated, so that no purge reaches below it. -/
def Found (env : JitEnv) (timeUs : U32) (s : PeekScan) : Prop :=
  ∃ m : ℕ, 0 ≤ s.idx ∧ s.idx < m ∧ 1 ≤ s.i ∧ s.i ≤ m ∧ m ≤ s.queue.numPkt.toNat ∧
    ∀ j, 1 ≤ j → j < m → ¬outdated timeUs (s.queue.node env j)

/-- The invariant of the loop over the nodes. -/
structure Ordered (env : JitEnv) (timeUs : U32) (hope : Prop) (s : PeekScan) : Prop where
  wf : s.queue.Wf
  sorted : s.queue.Sorted
  order : CmpOrder.OrderOn compare s.queue.live
  candidate : Waiting env timeUs hope s ∨ Found env timeUs s
  accesses : ∀ a ∈ s.accesses, a.Ok

theorem Found.valid {timeUs : U32} {s : PeekScan} (h : Found env timeUs s) : s.Valid := by
  obtain ⟨m, hlo, hhi, -, -, hm, -⟩ := h
  exact .inr ⟨hlo, by omega⟩

section Purge

variable {timeUs : U32} {hope : Prop} {s : PeekScan}

/-- A purge before there is a candidate. -/
theorem Waiting.purge (hs : env.QsortSorts) (hw : s.queue.Wf) (hsort : s.queue.Sorted)
    (ho : CmpOrder.OrderOn compare s.queue.live) (h : Waiting env timeUs hope s)
    (hi : s.i < s.queue.numPkt.toNat) (hold : outdated timeUs (s.queue.node env s.i))
    {s' : PeekScan} (hq : s'.queue = removeNode env s.queue s.i) (hi' : s'.i = 1)
    (hidx : s'.idx = s.idx) : Waiting env timeUs hope s' := by
  have hnum := numPkt_removeNode env (q := s.queue) (by omega) s.i
  -- what lies behind the purged index moves down by one
  have hdown : ∀ j, s.i ≤ j → j + 1 < s.queue.numPkt.toNat →
      ¬outdated timeUs (s.queue.node env (j + 1)) →
      ¬outdated timeUs ((removeNode env s.queue s.i).node env j) := by
    intro j hj hj' hnew
    rw [outdated_congr (countUs_removeNode_of_le env hs hw hsort ho hj hj')]
    exact hnew
  obtain ⟨hnone, h⟩ := h
  refine ⟨hidx.trans hnone, .inr ⟨hi', fun hhope => ?_⟩⟩
  rw [hq, hnum]
  rcases h with ⟨h0, -, h⟩ | ⟨h1, h⟩
  · rcases h hhope with hfirst | ⟨j, hj, hjn, hnew⟩
    · rw [h0] at hold
      exact absurd hold hfirst
    · obtain ⟨j, rfl⟩ : ∃ k, j = k + 1 := ⟨j - 1, by omega⟩
      exact ⟨j, by omega, by omega, hdown j (by omega) hjn hnew⟩
  · obtain ⟨j, hj, hjn, hnew⟩ := h hhope
    have hne : j ≠ s.i := by
      rintro rfl
      exact hnew hold
    obtain ⟨j, rfl⟩ : ∃ k, j = k + 1 := ⟨j - 1, by omega⟩
    exact ⟨j, by omega, by omega, hdown j (by omega) hjn hnew⟩

/-- A purge at or above the high-water mark leaves what lies below it alone. -/
theorem Found.purge (hs : env.QsortSorts) (hw : s.queue.Wf) (hsort : s.queue.Sorted)
    (ho : CmpOrder.OrderOn compare s.queue.live) (h : Found env timeUs s)
    (hi : s.i < s.queue.numPkt.toNat) (hold : outdated timeUs (s.queue.node env s.i))
    {s' : PeekScan} (hq : s'.queue = removeNode env s.queue s.i) (hi' : s'.i = 1)
    (hidx : s'.idx = s.idx) : Found env timeUs s' := by
  have hnum := numPkt_removeNode env (q := s.queue) (by omega) s.i
  obtain ⟨m, hlo, hhi, h1, him, hm, hnew⟩ := h
  have hat : s.i = m := by
    by_contra hne
    exact hnew s.i h1 (by omega) hold
  refine ⟨m, by omega, by omega, by omega, by omega, ?_, ?_⟩
  · rw [hq, hnum]
    omega
  · intro j hj hjm
    rw [hq, outdated_congr (countUs_removeNode_of_lt env hs hw hsort ho hi (by omega))]
    exact hnew j hj hjm

/-- A node that stays becomes the first candidate. -/
theorem Waiting.keep (h : Waiting env timeUs hope s) (hi : s.i < s.queue.numPkt.toNat)
    (hnew : ¬outdated timeUs (s.queue.node env s.i)) {s' : PeekScan} (hq : s'.queue = s.queue)
    (hi' : s'.i = s.i + 1) (hidx : s'.idx = s.i) : Found env timeUs s' := by
  have hsmall : s.i ≤ 1 := by
    rcases h.2 with ⟨h0, -⟩ | ⟨h1, -⟩ <;> omega
  rw [Found, hq]
  refine ⟨s.i + 1, by omega, by omega, by omega, by omega, hi, ?_⟩
  intro j hj hjm
  rw [show j = s.i by omega]
  exact hnew

/-- A node that stays raises the mark if it lies on it. -/
theorem Found.keep (h : Found env timeUs s) (hi : s.i < s.queue.numPkt.toNat)
    (hnew : ¬outdated timeUs (s.queue.node env s.i)) {s' : PeekScan} (hq : s'.queue = s.queue)
    (hi' : s'.i = s.i + 1) (hidx : s'.idx = s.i ∨ s'.idx = s.idx) : Found env timeUs s' := by
  obtain ⟨m, hlo, hhi, h1, him, hm, hbelow⟩ := h
  rw [Found, hq]
  refine ⟨max m (s.i + 1), by omega, by omega, by omega, by omega, by omega, ?_⟩
  intro j hj hjm
  by_cases hjm' : j < m
  · exact hbelow j hj hjm'
  · rw [show j = s.i by omega]
    exact hnew

end Purge

/-- **One iteration** keeps the loop invariant. -/
theorem Ordered.body (hs : env.QsortSorts) {timeUs : U32} {hope : Prop} {s : PeekScan}
    (h : Ordered env timeUs hope s) (hi : s.i < s.queue.numPkt.toNat) :
    Ordered env timeUs hope (jitPeekBody env timeUs s) := by
  obtain ⟨hw, hsort, ho, hcand, hacc⟩ := h
  have hv : s.Valid := by
    rcases hcand with hwait | hfound
    · exact .inl hwait.1
    · exact hfound.valid
  have hacc' := jitPeekBody_accesses env timeUs hw hv hi hacc
  rcases jitPeekBody_cases env timeUs s with ⟨hold, hq, hi', hidx, -⟩ |
    ⟨hnew, hq, hi', hpick, -⟩
  · have hsub := live_removeNode_subperm env hw (by omega) s.i
    refine ⟨hq ▸ wf_removeNode hw (by omega) _, hq ▸ sorted_removeNode hs hw (by omega) _,
      hq ▸ ho.subset hsub.subset, ?_, hacc'⟩
    rcases hcand with hwait | hfound
    · exact .inl (hwait.purge hs hw hsort ho hi hold hq hi' hidx)
    · exact .inr (hfound.purge hs hw hsort ho hi hold hq hi' hidx)
  · refine ⟨hq ▸ hw, hq ▸ hsort, hq ▸ ho, .inr ?_, hacc'⟩
    rcases hcand with hwait | hfound
    · rcases hpick with ⟨hpick, -⟩ | ⟨hne, -⟩
      · exact hwait.keep hi hnew hq hi' hpick
      · exact absurd hwait.1 hne
    · refine hfound.keep hi hnew hq hi' ?_
      rcases hpick with ⟨hpick, -⟩ | ⟨-, hpick, -⟩
      · exact .inl hpick
      · exact .inr hpick

theorem Ordered.init (env : JitEnv) (hw : q.Wf) (hsort : q.Sorted)
    (ho : CmpOrder.OrderOn compare q.live) (hpos : 0 < q.numPkt.toNat) (timeUs : U32) :
    Ordered env timeUs (SomeStays env q timeUs) ⟨q, 0, -1, []⟩ :=
  ⟨hw, hsort, ho, .inl ⟨rfl, .inl ⟨rfl, hpos, id⟩⟩, fun _ h => absurd h List.not_mem_nil⟩

theorem Ordered.valid {timeUs : U32} {hope : Prop} {s : PeekScan}
    (h : Ordered env timeUs hope s) : s.Valid := by
  rcases h.candidate with hwait | hfound
  · exact .inl hwait.1
  · exact hfound.valid

/-- **The run.**  Among nodes the comparator can order the scan ends with a live index
or with none, and with a live one if some node is certain to stay. -/
theorem jitPeekScan_of_ordered (hs : env.QsortSorts) (hw : q.Wf) (hsort : q.Sorted)
    (ho : CmpOrder.OrderOn compare q.live) (hpos : 0 < q.numPkt.toNat) (timeUs : U32) :
    let s := jitPeekScan env q timeUs
    s.Valid ∧ (SomeStays env q timeUs → s.idx ≠ -1) ∧ ∀ a ∈ s.accesses, a.Ok := by
  have h₀ := Ordered.init env hw hsort ho hpos timeUs
  obtain ⟨-, -, -, hcand, hacc⟩ := jitPeekScan_invariant h₀ fun s h hi => h.body hs hi
  have hend := jitPeekScan_done env q timeUs
  rcases hcand with ⟨hnone, hwait⟩ | hfound
  · refine ⟨.inl hnone, ?_, hacc⟩
    intro hstays
    -- the scan cannot have ended with a node still ahead of it
    rcases hwait with ⟨h0, hlen, -⟩ | ⟨h1, h⟩
    · omega
    · obtain ⟨j, hj, hjn, -⟩ := h hstays
      omega
  · have hv := hfound.valid
    obtain ⟨m, hlo, -⟩ := hfound
    exact ⟨hv, fun _ => by omega, hacc⟩

/-! ## The whole peek -/

/-- A peek after which the candidate is live: nothing is outdated, or the comparator
can order the live nodes and some node is certain to stay. -/
def PeekSafe (env : JitEnv) (q : JitQueue) (timeUs : U32) : Prop :=
  (∀ n ∈ q.live, ¬outdated timeUs n) ∨
    CmpOrder.OrderOn compare q.live ∧ SomeStays env q timeUs

/-- Every access of such a peek is inside the array, and every node it decides by is
live. -/
theorem jitPeekLocked_accesses (hs : env.QsortSorts) (hw : q.Wf) (hsort : q.Sorted)
    (hpos : 0 < q.numPkt.toNat) {time : Timeval} (h : PeekSafe env q time.lowUs) :
    ∀ a ∈ (jitPeekLocked env q time).accesses, a.Ok := by
  have hwf := (jitPeekScan_live env hw time.lowUs).1
  have hscan : 0 ≤ (jitPeekScan env q time.lowUs).idx ∧
      (jitPeekScan env q time.lowUs).idx <
        (jitPeekScan env q time.lowUs).queue.numPkt.toNat ∧
      ∀ a ∈ (jitPeekScan env q time.lowUs).accesses, a.Ok := by
    rcases h with hfresh | ⟨ho, hstays⟩
    · obtain ⟨hq, hlo, hhi, hacc⟩ := jitPeekScan_of_fresh env hw hpos hfresh
      exact ⟨hlo, by rw [hq]; exact hhi, hacc⟩
    · obtain ⟨hv, hne, hacc⟩ := jitPeekScan_of_ordered hs hw hsort ho hpos time.lowUs
      obtain ⟨hlo, hhi⟩ := hv.resolve_left (hne hstays)
      exact ⟨hlo, hhi, hacc⟩
  obtain ⟨hlo, hhi, hacc⟩ := hscan
  have hle : (jitPeekScan env q time.lowUs).queue.numPkt.toNat ≤ 32 := hwf
  refine List.forall_mem_append.mpr ⟨hacc, List.forall_mem_cons.mpr
    ⟨⟨hlo, ?_, fun _ => hhi⟩, fun a h => absurd h List.not_mem_nil⟩⟩
  show (jitPeekScan env q time.lowUs).idx < 32
  omega

end PacketForwarder
