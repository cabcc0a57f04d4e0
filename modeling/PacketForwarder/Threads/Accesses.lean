import PacketForwarder.JitQueue.PeekIndex
import PacketForwarder.Threads

/-!
# Accesses to the array of nodes

Which `nodes[k]` the two threads touch, over all their interleavings.

* `accesses_inside` — every access is inside the array, and every node a scheduling
  decision reads is live, as long as each peek is a `PeekSafe` one;
* `peek_reads_before_array` — a peek that purges the only node then reads
  `nodes[-1]`.
-/

namespace PacketForwarder

open Circle

variable {env : JitEnv} {q : JitQueue}

/-! ## Enqueueing -/

theorem slotSearch_reads (asap pre post : U32) (l : List JitNode) :
    (slotSearch asap pre post l).2 ≤ l.length := by
  induction l with
  | nil => exact le_rfl
  | cons n rest ih =>
    cases rest with
    | nil => exact le_rfl
    | cons m rest =>
      unfold slotSearch
      split
      · simp only [List.length_cons] at ih ⊢
        omega
      · simp only [List.length_cons]
        omega

theorem slotAccesses_ok (env : JitEnv) (hw : q.Wf) (timeUs : U32) (p : LgwPktTx) (t : JitPktType) :
    ∀ a ∈ slotAccesses env q timeUs p t, a.Ok := by
  have hle : q.numPkt.toNat ≤ 32 := hw
  unfold slotAccesses
  split
  · unfold asapSlot firstSlot
    simp only
    split
    · exact fun a h => absurd h List.not_mem_nil
    · split
      · exact readsBelow_ok le_rfl hle
      · rename_i hcollide
        refine List.forall_mem_append.mpr ⟨readsBelow_ok ?_ hle, readsBelow_ok ?_ hle⟩
        · have hidx : q.live.findIdx (fun n => jitCollisionTest
              (env.f64ToU32 (timeUs.toNat + 1000000)) (packetPreDelay t)
              (packetPostDelay env p t) n.pkt.countUs n.preDelay n.postDelay) ≤
                q.live.length := List.findIdx_le_length
          rw [JitQueue.length_live hw] at hidx
          omega
        · rw [← JitQueue.length_live hw]
          exact slotSearch_reads _ _ _ _
  · exact fun a h => absurd h List.not_mem_nil

/-- An enqueue stays inside the array and reads live nodes only. -/
theorem jitEnqueueLocked_accesses (hq : q.numPkt.toNat < 32) (time : Timeval) (p : LgwPktTx)
    (t : JitPktType) : ∀ a ∈ (jitEnqueueLocked env q time p t).accesses, a.Ok := by
  have hslot := slotAccesses_ok env (q := q) (Nat.le_of_lt hq) time.lowUs p t
  unfold jitEnqueueLocked
  simp only
  split
  · exact hslot
  · split
    · exact hslot
    · have hreads := List.forall_mem_append.mpr ⟨hslot, readsBelow_ok
        (Nat.min_le_right (q.live.findIdx (overlaps (nodeFor env q time.lowUs p t)) + 1)
          q.numPkt.toNat) (Nat.le_of_lt hq)⟩
      split
      · exact hreads
      · refine List.forall_mem_append.mpr ⟨hreads, List.forall_mem_cons.mpr
          ⟨⟨?_, ?_, nofun⟩, readsBelow_ok le_rfl hq⟩⟩
        · show (0 : ℤ) ≤ q.numPkt.toNat
          omega
        · show (q.numPkt.toNat : ℤ) < 32
          omega

/-- A dequeue of a live index stays inside the array and hands over a live node. -/
theorem jitDequeueLocked_accesses (hw : q.Wf) {i : ℕ} (hi : i < q.numPkt.toNat) :
    ∀ a ∈ (jitDequeueLocked env q i).accesses, a.Ok := by
  have hle : q.numPkt.toNat ≤ 32 := hw
  have hlast : (q.numPkt - 1).toNat < 32 := by
    rw [toNat_numPkt_sub_one (by omega)]
    omega
  refine List.forall_mem_cons.mpr ⟨⟨?_, ?_, fun _ => ?_⟩, removeAccesses_ok (by omega) hlast⟩
  · show (0 : ℤ) ≤ i
    omega
  · show (i : ℤ) < 32
    omega
  · show (i : ℤ) < q.numPkt.toNat
    omega

/-! ## The index `thread_jit` holds -/

/-- What a peek that selects an index has found. -/
theorem jitPeekLocked_selected {time : Timeval} {k : ℤ}
    (hk : (jitPeekLocked env q time).pktIdx = some k) (hpos : -1 < k) :
    k = (jitPeekScan env q time.lowUs).idx ∧
      ahead time.lowUs ((jitPeekLocked env q time).queue.nodeAt env k).pkt.countUs <
        txJitDelay.toNat := by
  rw [jitPeekLocked_queue]
  unfold jitPeekLocked at hk
  simp only [Option.some.injEq] at hk
  split at hk
  · rename_i hdue
    rw [← hk]
    exact ⟨rfl, BitVec.lt_def.mp hdue⟩
  · omega

/-- The index `thread_jit` holds is the index of a live node. -/
def IndexHeld (s : System) : Prop :=
  match s.jit with
  | .selected k _ _ => 0 ≤ k ∧ k < s.queue.numPkt.toNat
  | .dequeueTested k _ _ => k < s.queue.numPkt.toNat
  | .idle | .peekTested => True

/-- The live nodes stay sorted through every step. -/
theorem sorted_step (hs : env.QsortSorts) {s s' : System} {a : Action} (hc : CountersOk s)
    (hsort : s.queue.Sorted) (h : System.Step env s a s') : s'.queue.Sorted := by
  rcases h.queue_cases with hq | ⟨time, p, t, -, hd, -, -, hq⟩ | ⟨time, -, -, hq⟩ |
    ⟨k, n, t, hj, -, hq⟩
  · rw [hq]
    exact hsort
  · rw [hq]
    exact sorted_insertNode hs (hc.room hd) _
  · rw [hq]
    exact sorted_jitPeekScan hs hc.wf hsort _
  · rw [hq]
    exact sorted_removeNode hs hc.wf (hc.present (by rw [hj]; trivial)) _

/-- **The live nodes are sorted** in every interleaving. -/
theorem System.sorted_reached (hs : env.QsortSorts) {ok : System → Action → Prop} {s : System}
    (h : System.ReachableBy env ok s) : s.queue.Sorted := by
  have h₀ : jitQueueInit.Sorted := fun _ => List.Pairwise.nil
  refine Runs.Reaches.invariant (I := fun s => s.queue.Sorted) h₀ ?_ h
  intro s a s' hr hsort _ hst
  exact sorted_step hs (CountersOk.reached hr) hsort hst

/-- The candidate of a peek is live or there is none: either nothing is outdated, or
the comparator can order the live nodes. -/
def PeekOrdered (q : JitQueue) (timeUs : U32) : Prop :=
  (∀ n ∈ q.live, ¬outdated timeUs n) ∨ CmpOrder.OrderOn compare q.live

theorem PeekOrdered.valid (hs : env.QsortSorts) (hw : q.Wf) (hsort : q.Sorted)
    (hpos : 0 < q.numPkt.toNat) {timeUs : U32} (h : PeekOrdered q timeUs) :
    (jitPeekScan env q timeUs).Valid := by
  rcases h with hfresh | ho
  · obtain ⟨hq, hlo, hhi, -⟩ := jitPeekScan_of_fresh env hw hpos hfresh
    exact .inr ⟨hlo, by rw [hq]; exact hhi⟩
  · exact (jitPeekScan_of_ordered hs hw hsort ho hpos timeUs).1

/-- **The step.**  The index stays that of a live node: only `thread_jit` removes nodes,
and while it holds an index it does not. -/
theorem IndexHeld.step (hs : env.QsortSorts) {s s' : System} {a : Action} (hc : CountersOk s)
    (hsort : s.queue.Sorted) (hi : IndexHeld s)
    (hpeek : ∀ time, a = .peek time → PeekOrdered s.queue time.lowUs)
    (h : System.Step env s a s') : IndexHeld s' := by
  -- An index that is held stays live as long as the queue does not shrink.
  have hkeep : s'.jit = s.jit → s.queue.numPkt.toNat ≤ s'.queue.numPkt.toNat → IndexHeld s' := by
    intro hj hnum
    unfold IndexHeld at hi ⊢
    rw [hj]
    split
    · rename_i k n t hk
      rw [hk] at hi
      have hi : 0 ≤ k ∧ k < s.queue.numPkt.toNat := hi
      exact ⟨hi.1, by omega⟩
    · rename_i k n t hk
      rw [hk] at hi
      have hi : k < s.queue.numPkt.toNat := hi
      omega
    · trivial
    · trivial
  have hnum := (hc.step h).2
  cases h with
  | beaconInsert hd => exact hkeep rfl hnum.1.1
  | downlinkInsert hd ht => exact hkeep rfl hnum.1.1
  | peekTest hj he => trivial
  | peekNone hj hk hneg => trivial
  | @peek time k hj hk hpos =>
    have hpkt := hc.present (by rw [hj]; trivial)
    have hv := (hpeek time rfl).valid hs hc.wf hsort hpkt
    obtain ⟨rfl, -⟩ := jitPeekLocked_selected hk hpos
    show 0 ≤ (jitPeekScan env s.queue time.lowUs).idx ∧ (jitPeekScan env s.queue time.lowUs).idx <
      (jitPeekLocked env s.queue time).queue.numPkt.toNat
    rw [jitPeekLocked_queue]
    exact hv.resolve_left (by omega)
  | dequeueRefused hj he => trivial
  | @dequeueTest k n t hj hk he =>
    unfold IndexHeld at hi
    rw [hj] at hi
    have hi : 0 ≤ (k : ℤ) ∧ (k : ℤ) < s.queue.numPkt.toNat := hi
    show k < s.queue.numPkt.toNat
    omega
  | dequeue hj => trivial
  | _ => exact hkeep rfl le_rfl

/-! ## All accesses -/

/-- The accesses to the array that an action makes. -/
def System.accesses (env : JitEnv) (s : System) : Action → List Access
  | .beaconInsert time packet => (jitEnqueueLocked env s.queue time packet .beacon).accesses
  | .downlinkInsert time packet pktType =>
    (jitEnqueueLocked env s.queue time packet pktType).accesses
  | .peek time => (jitPeekLocked env s.queue time).accesses
  | .dequeue =>
    match s.jit with
    | .dequeueTested k _ _ => (jitDequeueLocked env s.queue k).accesses
    | _ => []
  | _ => []

/-- Each peek is one after which the candidate is live. -/
def PeeksSafely (env : JitEnv) (s : System) : Action → Prop
  | .peek time => PeekSafe env s.queue time.lowUs
  | _ => True

theorem PeeksSafely.ordered {s : System} {a : Action} (h : PeeksSafely env s a) {time : Timeval}
    (ha : a = .peek time) : PeekOrdered s.queue time.lowUs := by
  subst ha
  rcases h with hfresh | ⟨ho, -⟩
  · exact .inl hfresh
  · exact .inr ho

/-- **Accesses stay inside.**  In every run of the two threads whose peeks are safe,
every access the next step makes is inside the array, and every node it decides by
is live. -/
theorem accesses_inside (hs : env.QsortSorts) {s : System}
    (h : System.ReachableBy env (PeeksSafely env) s) {a : Action} {s' : System}
    (hok : PeeksSafely env s a) (hst : System.Step env s a s') :
    ∀ x ∈ s.accesses env a, x.Ok := by
  have hc := CountersOk.reached h
  have hsort := System.sorted_reached hs h
  have hheld : IndexHeld s := by
    have h₀ : IndexHeld .init := trivial
    refine Runs.Reaches.invariant h₀ ?_ h
    intro s a s' hr hi hok hst
    exact hi.step hs (CountersOk.reached hr) (System.sorted_reached hs hr)
      (fun time ha => hok.ordered ha) hst
  have hnone : ∀ x ∈ ([] : List Access), x.Ok := fun x h => absurd h List.not_mem_nil
  cases hst with
  | beaconInsert hd => exact jitEnqueueLocked_accesses (hc.room (by rw [hd]; trivial)) _ _ _
  | downlinkInsert hd ht => exact jitEnqueueLocked_accesses (hc.room (by rw [hd]; trivial)) _ _ _
  | peekNone hj hk hneg =>
    exact jitPeekLocked_accesses hs hc.wf hsort (hc.present (by rw [hj]; trivial)) hok
  | peek hj hk hpos =>
    exact jitPeekLocked_accesses hs hc.wf hsort (hc.present (by rw [hj]; trivial)) hok
  | @dequeue k n t hj =>
    unfold IndexHeld at hheld
    unfold System.accesses
    rw [hj] at hheld ⊢
    exact jitDequeueLocked_accesses hc.wf hheld
  | _ => exact hnone

/-- `thread_down` queues one class A packet for 1 s. -/
def oneDownlink (env : JitEnv) : System where
  queue := (jitEnqueueLocked env jitQueueInit (instant 0) (packetAt 1000000)
    .downlinkClassA).queue
  down := .start
  jit := .idle

theorem reaches_oneDownlink {env : JitEnv} {ok : System → Action → Prop}
    (hok : ∀ s a, a.ofJit = false → s.jit = .idle → ok s a) :
    System.ReachableBy env ok (oneDownlink env) :=
  .next (.next (.next (.next .start (hok _ _ rfl rfl) (.readNumBeacon rfl)) (hok _ _ rfl rfl)
    (.leaveBeacons rfl)) (hok _ _ rfl rfl) (.downlinkTest rfl rfl)) (hok _ _ rfl rfl)
    (.downlinkInsert rfl (by decide))

/-- A peek while the only packet is still to come. -/
theorem accesses_inside_one_downlink :
    let s : System := { oneDownlink .reference with jit := .peekTested }
    s.accesses .reference (.peek (instant 900000)) ≠ [] ∧
      ∀ x ∈ s.accesses .reference (.peek (instant 900000)), x.Ok := by
  have hpeek : PeeksSafely .reference { oneDownlink .reference with jit := .peekTested }
      (.peek (instant 900000)) := .inl (by decide +kernel)
  refine ⟨by decide +kernel, accesses_inside JitEnv.reference_qsortSorts
    (.next (l := .peekTest) (reaches_oneDownlink ?_) trivial
      (.peekTest rfl (by decide +kernel))) hpeek
    (.peekNone rfl (k := -1) (by decide +kernel) (by decide))⟩
  intro s a ha _
  cases a with
  | peek time => cases ha
  | _ => trivial

/-- **A peek that purges the only node reads `nodes[-1]`.**  The packet queued for 1 s
is outdated at 2 s; after it has been dropped there is no candidate, and the test
for a packet to be sent reads the node at index -1 all the same. -/
theorem peek_reads_before_array :
    ∃ s, System.ReachableBy .reference Runs.anyStep s ∧ ∃ a s', System.Step .reference s a s' ∧
      ∃ x ∈ s.accesses .reference a, x.index = -1 ∧ ¬x.Ok := by
  refine ⟨{ oneDownlink .reference with jit := .peekTested },
    .next (reaches_oneDownlink fun _ _ _ _ => trivial) trivial (.peekTest rfl (by decide +kernel)),
    .peek (instant 2000000), _, .peekNone rfl (k := -1) (by decide +kernel) (by decide), ?_⟩
  exact ⟨⟨-1, 0, true⟩, by decide +kernel, rfl, by decide⟩

end PacketForwarder
