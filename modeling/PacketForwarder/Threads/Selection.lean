import PacketForwarder.Threads.Accesses

/-!
# The packet dequeued is the packet peeked

`thread_jit` carries an index from `jit_peek` to `jit_dequeue`, and between the two
`thread_down` may insert a node and sort the array again.

* `Distinct` — no two live nodes depart at the same count, so that a count tells
  which node it is;
* `node_insertNode` — an insertion behind a node leaves its index alone;
* `Accepted.sortsBehind` — what passes the tests of `jit_enqueue` departs later than a
  node that was due at the peek, as long as the clock goes forward and everything is
  less than half a turn apart;
* `dequeued_is_picked` — `jit_dequeue` removes and returns the packet `jit_peek`
  selected in every interleaving of such steps;
* `dequeued_is_not_picked` — a beacon for a time already past is accepted, sorts in
  front, and is dequeued instead.
-/

namespace PacketForwarder

open Circle

variable {env : JitEnv} {q : JitQueue}

/-! ## Counts tell nodes apart -/

/-- No two of the nodes depart at the same count. -/
def Distinct (l : List JitNode) : Prop := l.Pairwise fun a b => a.pkt.countUs ≠ b.pkt.countUs

theorem Distinct.subperm {l l' : List JitNode} (h : Distinct l) (hs : l'.Subperm l) :
    Distinct l' := by
  obtain ⟨m, hm, hsub⟩ := hs
  exact (List.Pairwise.sublist hsub h).perm hm fun h => h.symm

theorem Distinct.eq_of_countUs {l : List JitNode} (h : Distinct l) {a b : JitNode} (ha : a ∈ l)
    (hb : b ∈ l) (hab : a.pkt.countUs = b.pkt.countUs) : a = b := by
  by_contra hne
  have : Std.Symm fun a b : JitNode => a.pkt.countUs ≠ b.pkt.countUs := ⟨fun _ _ h => h.symm⟩
  exact List.Pairwise.forall h ha hb hne hab

/-- Nodes at the same count overlap. -/
theorem countUs_ne_of_not_overlaps {a b : JitNode} (h : overlaps a b = false) :
    a.pkt.countUs ≠ b.pkt.countUs := by
  intro heq
  unfold overlaps jitCollisionTest at h
  rw [heq, Bool.or_eq_false_iff, decide_eq_false_iff_not] at h
  apply h.1
  rw [sub_self, BitVec.le_def]
  exact Nat.zero_le _

/-- Every step keeps the counts distinct. -/
theorem distinct_step {s s' : System} {a : Action} (hc : CountersOk s)
    (hd : Distinct s.queue.live) (h : System.Step env s a s') : Distinct s'.queue.live := by
  rcases h.queue_cases with hq | ⟨time, p, t, -, hin, -, hacc, hq⟩ | ⟨time, -, -, hq⟩ |
    ⟨k, n, t, hj, -, hq⟩
  · rw [hq]
    exact hd
  · rw [hq]
    refine Distinct.subperm ?_ (live_insertNode_perm env (hc.room hin) _).subperm
    exact List.pairwise_cons.mpr
      ⟨fun m hm => countUs_ne_of_not_overlaps (hacc.clear m hm), hd⟩
  · rw [hq]
    exact hd.subperm (jitPeekScan_live env hc.wf _).2
  · rw [hq]
    exact hd.subperm (live_removeNode_subperm env hc.wf (hc.present (by rw [hj]; trivial)) _)

theorem System.distinct_reached {ok : System → Action → Prop} {s : System}
    (h : System.ReachableBy env ok s) : Distinct s.queue.live := by
  have h₀ : Distinct jitQueueInit.live := List.Pairwise.nil
  refine Runs.Reaches.invariant (I := fun s => Distinct s.queue.live) h₀ ?_ h
  intro s a s' hr hd _ hst
  exact distinct_step (CountersOk.reached hr) hd hst

/-! ## Inserting behind a node -/

/-- An insertion behind the node at an index leaves that index alone. -/
theorem node_insertNode (hs : env.QsortSorts) (hq : q.numPkt.toNat < 32) (hsort : q.Sorted)
    {n : JitNode} (hd : Distinct (n :: q.live)) (ho : CmpOrder.OrderOn compare (n :: q.live))
    {k : ℕ} (hk : k < q.numPkt.toNat) (hlt : compare (q.node env k) n < 0) :
    (insertNode env q n).node env k = q.node env k := by
  have hw : q.Wf := Nat.le_of_lt hq
  have hw' := wf_insertNode env hq n
  have hperm := live_insertNode_perm env hq n
  have hnum := numPkt_insertNode env hq n
  have hlen : k < q.live.length := by
    rw [JitQueue.length_live hw]
    exact hk
  have hlen' : k < (insertNode env q n).live.length := by
    rw [JitQueue.length_live hw', hnum]
    omega
  have hkey := CmpOrder.key_getElem_of_insert compare_keyedBy ho
    (hsort (ho.subset (List.subset_cons_self _ _))) hperm
    (sorted_insertNode hs hq n (ho.perm hperm)) hlen hlen'
    (by rw [JitQueue.getElem_live env]; exact hlt)
  rw [JitQueue.getElem_live env, JitQueue.getElem_live env] at hkey
  refine Distinct.eq_of_countUs hd ?_ ?_ hkey
  · exact hperm.subset (JitQueue.node_mem_live hw' (by omega))
  · exact List.mem_cons_of_mem _ (JitQueue.node_mem_live hw hk)

/-! ## The node `thread_jit` has picked -/

/-- The node at the index `thread_jit` holds, and the time of the peek that selected it. -/
def JitPc.picked : JitPc → Option (JitNode × Timeval)
  | .selected _ n time | .dequeueTested _ n time => some (n, time)
  | .idle | .peekTested => none

/-- The index `thread_jit` holds still is that of the node it picked, which was due at
the time of the peek. -/
def PickHeld (env : JitEnv) (s : System) : Prop :=
  match s.jit with
  | .selected k n t => s.queue.node env k.toNat = n ∧
      ahead t.lowUs n.pkt.countUs < txJitDelay.toNat
  | .dequeueTested k n t => s.queue.node env k = n ∧
      ahead t.lowUs n.pkt.countUs < txJitDelay.toNat
  | .idle | .peekTested => True

/-- How far ahead of the clock an accepted packet can depart.  Criteria 2 bounds it for
class A and B; for a beacon it is the packet's own count that tells, and for class C the
slot found for it. -/
def reach (env : JitEnv) (q : JitQueue) (timeUs : U32) (packet : LgwPktTx)
    (pktType : JitPktType) : ℕ :=
  if pktType = .downlinkClassA ∨ pktType = .downlinkClassB then txMaxAdvanceDelay
  else ahead timeUs (departure env q timeUs packet pktType)

/-- The live nodes, the clock and the `span` microseconds after it lie on half a turn of
the counter, which begins at some count `first`. -/
def OnArc (q : JitQueue) (timeUs : U32) (span : ℕ) : Prop :=
  ∃ first : U32, ahead first timeUs + span < 2 ^ 31 ∧
    ∀ n ∈ q.live, ahead first n.pkt.countUs < 2 ^ 31

/-- What a step must not do.  A peek must not purge nodes the comparator cannot order.  When
a packet is accepted while `thread_jit` holds an index, the clock must not have gone back
since the peek, nor half a turn on, and nothing in the queue or within the packet's reach
may be half a turn or more apart. -/
structure KeepsPick (env : JitEnv) (s : System) (a : Action) : Prop where
  peek : ∀ time, a = .peek time → PeekOrdered s.queue time.lowUs
  insert : ∀ time p t n peeked, a.insertion = some (time, p, t) →
    s.jit.picked = some (n, peeked) →
    Accepted s.queue time.lowUs (nodeFor env s.queue time.lowUs p t) →
      ahead peeked.lowUs time.lowUs < 2 ^ 31 ∧
        OnArc s.queue time.lowUs (reach env s.queue time.lowUs p t)

/-- Where nothing was outdated at the peek, and nothing accepted since then reaches that
far, only the time that has passed counts. -/
theorem OnArc.of_fresh {timeUs peekedUs : U32} {span : ℕ} (hfresh : AllFresh peekedUs q.live)
    (hspan : ahead peekedUs timeUs + span < 2 ^ 31) : OnArc q timeUs span :=
  ⟨peekedUs, hspan, hfresh.lt⟩

/-- The packet departs within its reach. -/
theorem Accepted.ahead_le_reach {timeUs : U32} {p : LgwPktTx} {t : JitPktType}
    (h : Accepted q timeUs (nodeFor env q timeUs p t)) :
    ahead timeUs (nodeFor env q timeUs p t).pkt.countUs ≤ reach env q timeUs p t := by
  unfold reach
  split_ifs with hclass
  · exact h.early hclass
  · rw [nodeFor_countUs]

/-- On half a turn the comparator is consistent on the live nodes and the new one. -/
theorem OnArc.comparesAhead {timeUs : U32} {span : ℕ} {n : JitNode}
    (hn : ahead timeUs n.pkt.countUs ≤ span) (h : OnArc q timeUs span) :
    ∃ first : U32, ahead first n.pkt.countUs =
        ahead first timeUs + ahead timeUs n.pkt.countUs ∧
      (∀ m ∈ q.live, ahead first m.pkt.countUs < 2 ^ 31) ∧
      ComparesAhead first (n :: q.live) := by
  obtain ⟨first, hspan, hlive⟩ := h
  have hsum : ahead first n.pkt.countUs = ahead first timeUs + ahead timeUs n.pkt.countUs :=
    ahead_eq_add (by omega)
  refine ⟨first, hsum, hlive, .of_lt (List.forall_mem_cons.mpr ⟨?_, hlive⟩)⟩
  omega

/-- **What is accepted sorts behind the pick.**  The node picked is due within `TX_JIT_DELAY`
of the peek, hence of the clock, which has not gone back; by criteria 1 the packet departs
later than that. -/
theorem Accepted.sortsBehind {timeUs peekedUs : U32} {span : ℕ} {n m : JitNode}
    (hacc : Accepted q timeUs n) (hn : ahead timeUs n.pkt.countUs ≤ span)
    (harc : OnArc q timeUs span) (hclock : ahead peekedUs timeUs < 2 ^ 31)
    (hm : m ∈ q.live) (hdue : ahead peekedUs m.pkt.countUs < txJitDelay.toNat) :
    CmpOrder.OrderOn compare (n :: q.live) ∧ compare m n < 0 := by
  obtain ⟨first, hsum, hlive, hcompare⟩ := harc.comparesAhead hn
  have hlate := hacc.late
  have hjit : txJitDelay.toNat = 30000 := rfl
  have hforward : 2 * ahead peekedUs timeUs < 2 ^ 32 := by omega
  have hwithin : 2 * ahead first m.pkt.countUs < 2 ^ 32 := by
    have := hlive m hm
    omega
  have hbefore : ahead first m.pkt.countUs ≤ ahead first timeUs + 30000 :=
    ahead_le_add hforward (by omega) hwithin
  refine ⟨hcompare.orderOn, ?_⟩
  rw [hcompare m (List.mem_cons_of_mem _ hm) n (List.mem_cons_self ..), hsum]
  omega

/-- An insertion that is allowed keeps the pick. -/
theorem PickHeld.insert (hs : env.QsortSorts) {s : System} (hc : CountersOk s)
    (hsort : s.queue.Sorted) (hd : Distinct s.queue.live) (hheld : IndexHeld s)
    (hp : PickHeld env s) (hin : s.down.Inserting) {timeUs : U32} {n : JitNode}
    (hacc : Accepted s.queue timeUs n)
    (hbehind : ∀ m peeked, s.jit.picked = some (m, peeked) → m ∈ s.queue.live →
      ahead peeked.lowUs m.pkt.countUs < txJitDelay.toNat →
        CmpOrder.OrderOn compare (n :: s.queue.live) ∧ compare m n < 0)
    {s' : System} (hj : s'.jit = s.jit) (hq : s'.queue = insertNode env s.queue n) :
    PickHeld env s' := by
  have hd' : Distinct (n :: s.queue.live) := List.pairwise_cons.mpr
    ⟨fun m hm => countUs_ne_of_not_overlaps (hacc.clear m hm), hd⟩
  -- The node picked is live, so that what is inserted sorts behind it and leaves its index.
  have hnode : ∀ (k : ℕ) (m : JitNode) (t : Timeval), s.jit.picked = some (m, t) →
      k < s.queue.numPkt.toNat → s.queue.node env k = m →
      ahead t.lowUs m.pkt.countUs < txJitDelay.toNat →
      (insertNode env s.queue n).node env k = m := by
    intro k m t hm hk hkm hdue
    have hmem : m ∈ s.queue.live := hkm ▸ JitQueue.node_mem_live hc.wf hk
    obtain ⟨ho, hlt⟩ := hbehind m t hm hmem hdue
    rw [node_insertNode hs (hc.room hin) hsort hd' ho hk (by rw [hkm]; exact hlt), hkm]
  unfold PickHeld at hp ⊢
  unfold IndexHeld at hheld
  rw [hj, hq]
  cases hjit : s.jit with
  | idle => trivial
  | peekTested => trivial
  | selected k m t =>
    rw [hjit] at hp hheld
    obtain ⟨hlo, hhi⟩ : 0 ≤ k ∧ k < s.queue.numPkt.toNat := hheld
    exact ⟨hnode k.toNat m t (by rw [hjit]; rfl) (by omega) hp.1 hp.2, hp.2⟩
  | dequeueTested k m t =>
    rw [hjit] at hp hheld
    exact ⟨hnode k m t (by rw [hjit]; rfl) hheld hp.1 hp.2, hp.2⟩

/-- **Every step that is allowed keeps the pick.** -/
theorem PickHeld.step (hs : env.QsortSorts) {s s' : System} {a : Action} (hc : CountersOk s)
    (hsort : s.queue.Sorted) (hd : Distinct s.queue.live) (hheld : IndexHeld s)
    (hp : PickHeld env s) (hok : KeepsPick env s a) (h : System.Step env s a s') :
    PickHeld env s' := by
  have hkeep : s'.queue = s.queue → s'.jit = s.jit → PickHeld env s' := by
    intro hq hj
    unfold PickHeld at hp ⊢
    rw [hq, hj]
    exact hp
  -- What is accepted meanwhile sorts behind the node picked, so that its index stays.
  have hinsert : a.ofJit = false → s'.jit = s.jit → PickHeld env s' := by
    intro ha hj
    rcases h.queue_cases with hq | ⟨time, p, t, hin, hpc, -, hacc, hq⟩ | ⟨time, rfl, -⟩ |
      ⟨k, n, t, hdeq, hidle, -⟩
    · exact hkeep hq hj
    · refine hp.insert hs hc hsort hd hheld hpc hacc (fun m peeked hm hmem hdue => ?_) hj hq
      obtain ⟨hclock, harc⟩ := hok.insert time p t m peeked hin hm hacc
      exact hacc.sortsBehind hacc.ahead_le_reach harc hclock hmem hdue
    · cases ha
    · rw [hj, hdeq] at hidle
      cases hidle
  cases h with
  | beaconInsert hd' => exact hinsert rfl rfl
  | downlinkInsert hd' ht => exact hinsert rfl rfl
  | peekTest hj he => trivial
  | peekNone hj hk hneg => trivial
  | @peek time k hj hk hpos =>
    obtain ⟨-, hdue⟩ := jitPeekLocked_selected hk hpos
    refine ⟨?_, hdue⟩
    show (jitPeekLocked env s.queue time).queue.node env k.toNat =
      (jitPeekLocked env s.queue time).queue.nodeAt env k
    rw [JitQueue.nodeAt, if_neg (by omega)]
  | dequeueRefused hj he => trivial
  | @dequeueTest k n t hj hk he =>
    unfold PickHeld at hp
    rw [hj] at hp
    exact hp
  | dequeue hj => trivial
  | _ => exact hkeep rfl rfl

/-- **The packet dequeued is the packet peeked.**  In every interleaving whose steps keep the
clock going forward, and the queue with what is accepted while an index is held within half
a turn, the dequeue returns that node's packet and class, takes exactly that node out, and
the packet was due at the time of the peek. -/
theorem dequeued_is_picked (hs : env.QsortSorts) {s : System}
    (h : System.ReachableBy env (KeepsPick env) s) {k : ℕ} {n : JitNode} {time : Timeval}
    (hj : s.jit = .dequeueTested k n time) :
    (jitDequeueLocked env s.queue k).out = some (n.pkt, n.pktType) ∧
      (n :: (jitDequeueLocked env s.queue k).queue.live).Perm s.queue.live ∧
      ahead time.lowUs n.pkt.countUs < txJitDelay.toNat := by
  have h₀ : IndexHeld .init ∧ PickHeld env .init := ⟨trivial, trivial⟩
  have hinv : IndexHeld s ∧ PickHeld env s := by
    refine Runs.Reaches.invariant (I := fun s => IndexHeld s ∧ PickHeld env s) h₀ ?_ h
    rintro s a s' hr ⟨hi, hp⟩ hok hst
    have hc := CountersOk.reached hr
    have hsort := System.sorted_reached hs hr
    exact ⟨hi.step hs hc hsort hok.peek hst,
      hp.step hs hc hsort (System.distinct_reached hr) hi hok hst⟩
  obtain ⟨hi, hp⟩ := hinv
  unfold IndexHeld at hi
  unfold PickHeld at hp
  rw [hj] at hi hp
  obtain ⟨hnode, hdue⟩ := hp
  have hperm := live_removeNode_perm env (CountersOk.reached h).wf hi
  rw [hnode] at hperm
  refine ⟨?_, hperm, hdue⟩
  show some ((s.queue.node env k).pkt, (s.queue.node env k).pktType) = _
  rw [hnode]

/-- `thread_jit` picks the packet queued for 1 s, 20 ms before its departure. -/
def onePicked (env : JitEnv) : System where
  queue := (jitPeekLocked env (oneDownlink env).queue (instant 980000)).queue
  down := .start
  jit := .selected (0 : ℕ) ((jitPeekLocked env (oneDownlink env).queue
    (instant 980000)).queue.nodeAt env (0 : ℕ)) (instant 980000)

/-- A step that neither peeks nor inserts cannot lose the pick. -/
theorem KeepsPick.of_other {s : System} {a : Action} (hpeek : ∀ time, a ≠ .peek time)
    (hinsert : a.insertion = none) : KeepsPick env s a := by
  refine ⟨fun time h => absurd h (hpeek time), ?_⟩
  intro time p t n peeked hin _ _
  rw [hinsert] at hin
  cases hin

/-- Nor can one while nothing is picked, if it does not peek. -/
theorem KeepsPick.of_idle {s : System} {a : Action} (hpeek : ∀ time, a ≠ .peek time)
    (hidle : s.jit.picked = none) : KeepsPick env s a := by
  refine ⟨fun time h => absurd h (hpeek time), ?_⟩
  intro time p t n peeked _ hn _
  rw [hidle] at hn
  cases hn

theorem reaches_onePicked :
    System.ReachableBy .reference (KeepsPick .reference) (onePicked .reference) := by
  have h₁ : System.ReachableBy .reference (KeepsPick .reference) (oneDownlink .reference) := by
    refine reaches_oneDownlink fun s a ha hj => .of_idle ?_ (by rw [hj]; rfl)
    rintro time rfl
    cases ha
  have h₂ : KeepsPick .reference { oneDownlink .reference with jit := .peekTested }
      (.peek (instant 980000)) := by
    refine ⟨?_, fun _ _ _ _ _ h => by cases h⟩
    rintro time h
    cases h
    exact .inl (by decide +kernel)
  exact .next (.next h₁ (.of_idle (a := .peekTest) (fun _ h => by cases h) rfl)
    (.peekTest rfl (by decide +kernel))) h₂ (.peek rfl (by decide +kernel) (by decide))

/-- `thread_down` inserts a packet for 3 s before that one is dequeued. -/
def insertedBehind (env : JitEnv) : System :=
  { onePicked env with
    queue := (jitEnqueueLocked env (onePicked env).queue (instant 990000) (packetAt 3000000)
      .downlinkClassA).queue }

theorem reaches_insertedBehind :
    System.ReachableBy .reference (KeepsPick .reference) (insertedBehind .reference) := by
  have hfresh : AllFresh (instant 980000).lowUs (onePicked .reference).queue.live := by
    unfold AllFresh
    decide +kernel
  have hinsert : KeepsPick .reference { onePicked .reference with down := .downlinkTested }
      (.downlinkInsert (instant 990000) (packetAt 3000000) .downlinkClassA) := by
    refine ⟨(fun _ h => by cases h), ?_⟩
    intro time p t n peeked hin hn _
    cases hin
    cases hn
    exact ⟨by decide +kernel, .of_fresh hfresh (by decide +kernel)⟩
  exact .next (.next (.next (.next reaches_onePicked
    (.of_other (a := .readNumBeacon) (fun _ h => by cases h) rfl) (.readNumBeacon rfl))
    (.of_other (a := .leaveBeacons) (fun _ h => by cases h) rfl) (.leaveBeacons rfl))
    (.of_other (a := .downlinkTest) (fun _ h => by cases h) rfl)
    (.downlinkTest rfl (by decide +kernel))) hinsert (.downlinkInsert rfl (by decide))

/-- The packet for 1 s is dequeued, and the one inserted meanwhile stays. -/
theorem dequeued_is_picked_one_downlink :
    let q := (insertedBehind .reference).queue
    let n := (onePicked .reference).queue.nodeAt .reference (0 : ℕ)
    (jitDequeueLocked .reference q 0).out = some (n.pkt, n.pktType) ∧
      (n :: (jitDequeueLocked .reference q 0).queue.live).Perm q.live ∧
      ahead (instant 980000).lowUs n.pkt.countUs < txJitDelay.toNat := by
  refine dequeued_is_picked JitEnv.reference_qsortSorts
    (.next (l := .dequeueTest) reaches_insertedBehind
      (.of_other (fun _ h => by cases h) rfl)
      (.dequeueTest rfl (by decide) (by decide +kernel))) rfl

/-- **A past beacon is dequeued instead.**  While `thread_jit` holds the index of a
packet due in 20 ms, a beacon for five seconds ago is accepted, since its count lies
more than an hour ahead; it sorts in front, and `jit_dequeue` returns it. -/
theorem dequeued_is_not_picked :
    ∃ s, System.ReachableBy .reference Runs.anyStep s ∧ ∃ k n time,
      s.jit = .dequeueTested k n time ∧
        (jitDequeueLocked .reference s.queue k).out ≠ some (n.pkt, n.pktType) := by
  have h₁ : System.ReachableBy .reference Runs.anyStep (onePicked .reference) :=
    reaches_onePicked.mono fun _ _ _ => trivial
  refine ⟨_, .next (.next (.next (.next h₁ trivial (.readNumBeacon rfl)) trivial
    (.beaconTest rfl (by decide +kernel) (by decide +kernel))) trivial
    (@System.Step.beaconInsert .reference _ _ (instant 980000)
      (packetAt (BitVec.ofInt 32 (-4020000))) rfl)) trivial
    (.dequeueTest rfl (by decide) (by decide +kernel)), _, _, _, rfl, ?_⟩
  decide +kernel

end PacketForwarder
