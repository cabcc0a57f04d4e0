import PacketForwarder.JitQueue.PeekIndex

/-!
# Rolling over

The concentrator's counter wraps every 71 minutes.  A scheduler that only looks at
circular differences does not notice: shifting the current time, the packet and all
live nodes by the same number of ticks changes nothing else.

* `Shifted` — one queue is another with every live count shifted;
* `ShiftedCall` — the same of two calls;
* `roll_over_independent` — shifted calls on shifted queues have the same result code
  and index and leave shifted queues, provided the time of a class C packet is not
  within a second of the wrap on either side, and no purge of a peek leaves its candidate
  behind the live nodes;
* `roll_over_visible` — just before the wrap a class C packet is refused as too late
  that is accepted just after it: `time_us + 1E6` is a `double`, and converting it
  back to `uint32_t` need not wrap.
-/

namespace PacketForwarder

variable {env : JitEnv} {q q' : JitQueue} {k : U32}

/-! ## Shifting -/

/-- The same packet, `k` ticks later. -/
def LgwPktTx.shift (k : U32) (p : LgwPktTx) : LgwPktTx := { p with countUs := p.countUs + k }

/-- The same node, `k` ticks later. -/
def JitNode.shift (k : U32) (n : JitNode) : JitNode := { n with pkt := n.pkt.shift k }

/-- A node without its departure is what a shift of the counter leaves alone. -/
def JitNode.unstamped (n : JitNode) : JitNode := { n with pkt := { n.pkt with countUs := 0 } }

@[simp] theorem countUs_shift (k : U32) (n : JitNode) :
    (n.shift k).pkt.countUs = n.pkt.countUs + k := rfl

@[simp] theorem preDelay_shift (k : U32) (n : JitNode) : (n.shift k).preDelay = n.preDelay := rfl

@[simp] theorem postDelay_shift (k : U32) (n : JitNode) :
    (n.shift k).postDelay = n.postDelay := rfl

/-- `q'` is `q` with the count of every live node shifted; of what lies behind the live
nodes only the counts may differ. -/
structure Shifted (k : U32) (q q' : JitQueue) : Prop where
  numPkt : q'.numPkt = q.numPkt
  numBeacon : q'.numBeacon = q.numBeacon
  live : q'.live = q.live.map (JitNode.shift k)
  cells : q'.nodes.cells.map JitNode.unstamped = q.nodes.cells.map JitNode.unstamped

/-- The second call is the first, `k` ticks later. -/
inductive ShiftedCall (k : U32) : JitCall → JitCall → Prop
  | enqueue {time time' : Timeval} (p : Option LgwPktTx) (t : JitPktType)
    (ht : time'.lowUs = time.lowUs + k) :
    ShiftedCall k (.enqueue time p t) (.enqueue time' (p.map (LgwPktTx.shift k)) t)
  | dequeue (index : ℤ) (packet : Bool) : ShiftedCall k (.dequeue index packet)
    (.dequeue index packet)
  | peekNull (pktIdx : Bool) : ShiftedCall k (.peek none pktIdx) (.peek none pktIdx)
  | peek {time time' : Timeval} (pktIdx : Bool) (ht : time'.lowUs = time.lowUs + k) :
    ShiftedCall k (.peek (some time) pktIdx) (.peek (some time') pktIdx)

/-- The result code of a call. -/
def JitCall.error (env : JitEnv) (q : JitQueue) : JitCall → JitError
  | .enqueue time p t => (jitEnqueue env q time p t).error
  | .dequeue index packet => (jitDequeue env q index packet).error
  | .peek time pktIdx => (jitPeek env q time pktIdx).error

/-- The index that a call writes to `*pkt_idx`, which only a peek does. -/
def JitCall.index (env : JitEnv) (q : JitQueue) : JitCall → Option ℤ
  | .peek time pktIdx => (jitPeek env q time pktIdx).pktIdx
  | _ => none

theorem Shifted.wf (h : Shifted k q q') (hw : q.Wf) : q'.Wf := by
  show q'.numPkt.toNat ≤ 32
  rw [h.numPkt]
  exact hw

theorem Shifted.node_eq (h : Shifted k q q') (env : JitEnv) (hw : q.Wf) {i : ℕ}
    (hi : i < q.numPkt.toNat) : q'.node env i = (q.node env i).shift k := by
  have hlen : i < q.live.length := by
    rw [JitQueue.length_live hw]
    exact hi
  have hlen' : i < q'.live.length := by
    rw [JitQueue.length_live (h.wf hw), h.numPkt]
    exact hi
  have hget := congrArg (fun l => l[i]?) h.live
  simp only [List.getElem?_map, List.getElem?_eq_getElem hlen,
    List.getElem?_eq_getElem hlen'] at hget
  rw [JitQueue.getElem_live env, JitQueue.getElem_live env] at hget
  exact Option.some.inj hget

theorem Shifted.node_unstamped (h : Shifted k q q') (env : JitEnv) {i : ℕ} (hi : i < 32) :
    (q'.node env i).unstamped = (q.node env i).unstamped := by
  have hlen : i < q.nodes.cells.length := by
    rw [q.nodes.length_cells]
    exact hi
  have hlen' : i < q'.nodes.cells.length := by
    rw [q'.nodes.length_cells]
    exact hi
  have hget := congrArg (fun l => l[i]?) h.cells
  simp only [List.getElem?_map, List.getElem?_eq_getElem hlen,
    List.getElem?_eq_getElem hlen'] at hget
  unfold JitQueue.node Slots.getD
  rw [List.getD_eq_getElem?_getD, List.getD_eq_getElem?_getD, List.getElem?_eq_getElem hlen,
    List.getElem?_eq_getElem hlen']
  exact Option.some.inj hget

theorem Shifted.node_pktType (h : Shifted k q q') (env : JitEnv) {i : ℕ} (hi : i < 32) :
    (q'.node env i).pktType = (q.node env i).pktType := by
  show (q'.node env i).unstamped.pktType = (q.node env i).unstamped.pktType
  rw [h.node_unstamped env hi]

/-! ## The array operations -/

@[simp] theorem compare_shift (k : U32) (a b : JitNode) :
    compare (a.shift k) (b.shift k) = compare a b := by
  unfold compare
  rw [countUs_shift, countUs_shift, add_sub_add_right_eq_sub]

/-- Sorting commutes with a shift. -/
theorem Shifted.sort (hs : env.QsortByOutcomes) (hw : q.Wf) (h : Shifted k q q') :
    Shifted k (jitSortQueue env q) (jitSortQueue env q') := by
  unfold jitSortQueue
  rw [h.numPkt]
  split
  · exact h
  · have hsort : env.qsortR compare q'.live =
        (env.qsortR compare q.live).map (JitNode.shift k) := by
      rw [h.live]
      exact hs compare (JitNode.shift k) q.live fun a _ b _ => compare_shift k a b
    have hl : (env.qsortR compare q.live).length = q.numPkt.toNat := by
      rw [(env.qsortR_perm _ _).length_eq, JitQueue.length_live hw]
    have hl' : (env.qsortR compare q'.live).length = q.numPkt.toNat := by
      rw [hsort, List.length_map, hl]
    refine ⟨rfl, h.numBeacon, ?_, ?_⟩
    · show Slots.live _ _ = List.map _ (Slots.live _ _)
      rw [Slots.live_fill _ hl' hw, Slots.live_fill _ hl hw, hsort]
    · have hcells := h.cells
      unfold Slots.fill
      simp only [List.map_take, List.map_append, List.map_drop]
      rw [hcells, hl, hl', hsort, List.map_map]
      rfl

/-- Inserting commutes with a shift. -/
theorem Shifted.insertNode (hs : env.QsortByOutcomes) (hq : q.numPkt.toNat < 32)
    (h : Shifted k q q') (n : JitNode) :
    Shifted k (PacketForwarder.insertNode env q n)
      (PacketForwarder.insertNode env q' (n.shift k)) := by
  have hw : (q.numPkt + 1).toNat ≤ 32 := by
    rw [toNat_numPkt_add_one hq]
    exact hq
  have hlive := h.live
  unfold JitQueue.live at hlive
  rw [h.numPkt] at hlive
  refine Shifted.sort hs hw ⟨?_, ?_, ?_, ?_⟩
  · show q'.numPkt + 1 = q.numPkt + 1
    rw [h.numPkt]
  · show (if (n.shift k).pktType = .beacon then q'.numBeacon + 1 else q'.numBeacon) = _
    rw [h.numBeacon]
    rfl
  · show Slots.live _ (q'.numPkt + 1).toNat = List.map _ (Slots.live _ (q.numPkt + 1).toNat)
    rw [h.numPkt, toNat_numPkt_add_one hq, Slots.live_set_last _ hq, Slots.live_set_last _ hq,
      List.map_append, hlive]
    rfl
  · show List.map _ (List.set _ q'.numPkt.toNat _) = List.map _ (List.set _ _ _)
    rw [List.map_set, List.map_set, h.cells, h.numPkt]
    rfl

/-- Removing commutes with a shift. -/
theorem Shifted.removeNode (hs : env.QsortByOutcomes) (hw : q.Wf) (hpos : 0 < q.numPkt.toNat)
    (h : Shifted k q q') {i : ℕ} (hi : i < 32) :
    Shifted k (PacketForwarder.removeNode env q i) (PacketForwarder.removeNode env q' i) := by
  have hle : q.numPkt.toNat ≤ 32 := hw
  have hsub : (q.numPkt - 1).toNat = q.numPkt.toNat - 1 := toNat_numPkt_sub_one hpos
  have hlive := h.live
  unfold JitQueue.live at hlive
  rw [h.numPkt] at hlive
  -- the live nodes but the last, and the last one
  have hinit : q'.nodes.live (q.numPkt.toNat - 1) =
      (q.nodes.live (q.numPkt.toNat - 1)).map (JitNode.shift k) := by
    have := congrArg (List.take (q.numPkt.toNat - 1)) hlive
    unfold Slots.live at this ⊢
    rw [← List.map_take, List.take_take, List.take_take, Nat.min_eq_left (Nat.sub_le _ _)] at this
    exact this
  have hgetD : ∀ (s : Slots JitNode 32) (d d' : JitNode),
      s.getD (q.numPkt.toNat - 1) d = s.getD (q.numPkt.toNat - 1) d' := by
    intro s d d'
    rw [← Slots.getElem_live s (m := q.numPkt.toNat) (by simp; omega), Slots.getElem_live]
  have hlast : q'.nodes.getD (q.numPkt.toNat - 1) .zero =
      (q.nodes.getD (q.numPkt.toNat - 1) .zero).shift k := by
    have := h.node_eq env hw (i := q.numPkt.toNat - 1) (by omega)
    unfold JitQueue.node at this
    rw [hgetD q'.nodes, this, hgetD q.nodes]
  refine Shifted.sort hs ?_ ⟨?_, ?_, ?_, ?_⟩
  · show (q.numPkt - 1).toNat ≤ 32
    omega
  · show q'.numPkt - 1 = q.numPkt - 1
    rw [h.numPkt]
  · show (if (q'.node env i).pktType = .beacon then q'.numBeacon - 1 else q'.numBeacon) = _
    rw [h.node_pktType env hi, h.numBeacon]
  · show Slots.live _ (q'.numPkt - 1).toNat = List.map _ (Slots.live _ (q.numPkt - 1).toNat)
    rw [h.numPkt, hsub, Slots.live_removeSwap, Slots.live_removeSwap, hinit, hlast,
      ← List.map_set]
  · have hcells := h.cells
    unfold Slots.removeSwap Slots.set
    simp only [List.map_set]
    rw [h.numPkt, hsub, hcells, hlast]
    rfl

/-! ## Enqueueing -/

/-- `lgw_time_on_air` depends on the modulation and the size of a packet, not on when it
departs. -/
def JitEnv.AirtimeTimeless (env : JitEnv) : Prop :=
  ∀ (p : LgwPktTx) (c : U32), env.lgwTimeOnAir { p with countUs := c } = env.lgwTimeOnAir p

@[simp] theorem jitCollisionTest_shift (c₁ pre₁ post₁ c₂ pre₂ post₂ k : U32) :
    jitCollisionTest (c₁ + k) pre₁ post₁ (c₂ + k) pre₂ post₂ =
      jitCollisionTest c₁ pre₁ post₁ c₂ pre₂ post₂ := by
  unfold jitCollisionTest
  rw [add_sub_add_right_eq_sub, add_sub_add_right_eq_sub]

theorem slotAfter_shift (pre k : U32) (n : JitNode) :
    slotAfter pre (n.shift k) = slotAfter pre n + k := by
  unfold slotAfter
  rw [countUs_shift, postDelay_shift]
  ac_rfl

/-- The slot search commutes with a shift. -/
theorem slotSearch_shift (asap asap' pre post k : U32) {l : List JitNode} (h : l ≠ []) :
    (slotSearch asap' pre post (l.map (JitNode.shift k))).1 =
      (slotSearch asap pre post l).1 + k := by
  induction l with
  | nil => exact absurd rfl h
  | cons n rest ih =>
    cases rest with
    | nil => exact slotAfter_shift pre k n
    | cons m rest =>
      have ih := ih (by simp)
      simp only [List.map_cons] at ih ⊢
      unfold slotSearch
      rw [slotAfter_shift, countUs_shift, preDelay_shift, postDelay_shift, jitCollisionTest_shift]
      split
      · exact ih
      · rfl

/-- Within the range of `uint32_t` the conversion of a `double` is exact. -/
theorem f64ToU32_add {timeUs : U32} (h : timeUs.toNat + 1000000 < 2 ^ 32) :
    env.f64ToU32 (timeUs.toNat + 1000000) = timeUs + 1000000#32 := by
  have hval : (timeUs + 1000000#32).toNat = timeUs.toNat + 1000000 := by
    rw [BitVec.toNat_add, BitVec.toNat_ofNat, Nat.mod_eq_of_lt (by norm_num : 1000000 < 2 ^ 32),
      Nat.mod_eq_of_lt h]
  rw [← hval] at h ⊢
  unfold JitEnv.f64ToU32
  rw [if_pos h, BitVec.ofNat_toNat, BitVec.setWidth_eq]

/-- There the second from now on commutes with a shift. -/
theorem f64ToU32_add_shift (env : JitEnv) {timeUs : U32} (hlo : timeUs.toNat + 1000000 < 2 ^ 32)
    (hhi : (timeUs + k).toNat + 1000000 < 2 ^ 32) :
    env.f64ToU32 ((timeUs + k).toNat + 1000000) =
      env.f64ToU32 (timeUs.toNat + 1000000) + k := by
  rw [f64ToU32_add hlo, f64ToU32_add hhi, add_right_comm]

theorem packetPostDelay_shift (ha : env.AirtimeTimeless) (p : LgwPktTx) (k : U32)
    (t : JitPktType) : packetPostDelay env (p.shift k) t = packetPostDelay env p t := by
  have : env.lgwTimeOnAir (p.shift k) = env.lgwTimeOnAir p := ha p _
  cases t with
  | beacon => rfl
  | _ =>
    unfold packetPostDelay
    rw [this]

/-- The slot of a class C packet commutes with a shift of the ASAP time. -/
theorem firstSlot_shift (hw : q.Wf) (h : Shifted k q q') (asap pre post : U32) :
    (firstSlot q' (asap + k) pre post).1 = (firstSlot q asap pre post).1 + k := by
  have hsame : ((fun n => jitCollisionTest (asap + k) pre post n.pkt.countUs n.preDelay
      n.postDelay) ∘ JitNode.shift k) =
        fun n => jitCollisionTest asap pre post n.pkt.countUs n.preDelay n.postDelay :=
    funext fun n => jitCollisionTest_shift _ _ _ _ _ _ _
  unfold firstSlot
  simp only
  rw [h.live, List.findIdx_map, hsame, h.numPkt]
  split
  · rfl
  · rename_i hne
    split
    · rfl
    · refine slotSearch_shift _ _ _ _ _ ?_
      intro hnil
      have := JitQueue.length_live hw
      rw [hnil] at this
      exact hne (numPkt_eq_zero.mpr this.symm)

/-- It commutes with a shift of the current time that stays a second away from the wrap. -/
theorem asapSlot_shift (hw : q.Wf) (h : Shifted k q q') {timeUs : U32}
    (hlo : timeUs.toNat + 1000000 < 2 ^ 32) (hhi : (timeUs + k).toNat + 1000000 < 2 ^ 32)
    (pre post : U32) :
    (asapSlot env q' (timeUs + k) pre post).1 = (asapSlot env q timeUs pre post).1 + k := by
  unfold asapSlot
  rw [f64ToU32_add_shift env hlo hhi]
  exact firstSlot_shift hw h _ _ _

/-- The node a packet becomes commutes with a shift; only for class C does the current
time come in. -/
theorem nodeFor_shift (ha : env.AirtimeTimeless) (hw : q.Wf) (h : Shifted k q q')
    {timeUs : U32} {t : JitPktType}
    (hrange : t = .downlinkClassC →
      timeUs.toNat + 1000000 < 2 ^ 32 ∧ (timeUs + k).toNat + 1000000 < 2 ^ 32) (p : LgwPktTx) :
    nodeFor env q' (timeUs + k) (p.shift k) t = (nodeFor env q timeUs p t).shift k := by
  unfold nodeFor scheduled
  rw [packetPostDelay_shift ha]
  by_cases ht : t = .downlinkClassC
  · obtain ⟨hlo, hhi⟩ := hrange ht
    unfold departure
    rw [if_pos ht, if_pos ht, if_pos ht, if_pos ht, packetPostDelay_shift ha,
      asapSlot_shift hw h hlo hhi]
    rfl
  · rw [if_neg ht, if_neg ht]
    rfl

theorem overlaps_shift (a b : JitNode) (k : U32) :
    overlaps (a.shift k) (b.shift k) = overlaps a b := by
  have htarget : targetPreDelay (a.shift k).pktType (b.shift k) = targetPreDelay a.pktType b := rfl
  unfold overlaps
  rw [htarget]
  exact jitCollisionTest_shift _ _ _ _ _ _ _

/-- `jit_enqueue` from the second time it takes the lock commutes with a shift. -/
theorem jitEnqueueLocked_shift (hs : env.QsortByOutcomes) (ha : env.AirtimeTimeless)
    (hq : q.numPkt.toNat < 32) (h : Shifted k q q') {time time' : Timeval}
    (ht : time'.lowUs = time.lowUs + k) {t : JitPktType}
    (hrange : t = .downlinkClassC →
      time.lowUs.toNat + 1000000 < 2 ^ 32 ∧ time'.lowUs.toNat + 1000000 < 2 ^ 32)
    (p : LgwPktTx) :
    (jitEnqueueLocked env q' time' (p.shift k) t).error =
        (jitEnqueueLocked env q time p t).error ∧
      Shifted k (jitEnqueueLocked env q time p t).queue
        (jitEnqueueLocked env q' time' (p.shift k) t).queue := by
  rw [ht] at hrange
  have hw : q.Wf := Nat.le_of_lt hq
  have hnode := nodeFor_shift ha hw h hrange p
  have hfind : q'.live.find? (overlaps ((nodeFor env q time.lowUs p t).shift k)) =
      (q.live.find? (overlaps (nodeFor env q time.lowUs p t))).map (JitNode.shift k) := by
    rw [h.live, List.find?_map]
    congr 2
    funext n
    exact overlaps_shift _ _ _
  have hsub : ((nodeFor env q time.lowUs p t).shift k).pkt.countUs - (time.lowUs + k) =
      (nodeFor env q time.lowUs p t).pkt.countUs - time.lowUs := by
    rw [countUs_shift, add_sub_add_right_eq_sub]
  unfold jitEnqueueLocked
  simp only
  rw [ht, hnode, hfind, hsub]
  split
  · exact ⟨rfl, h⟩
  · split
    · exact ⟨rfl, h⟩
    · cases q.live.find? (overlaps (nodeFor env q time.lowUs p t)) with
      | none => exact ⟨rfl, h.insertNode hs hq _⟩
      | some n => exact ⟨rfl, h⟩

/-! ## Peeking -/

/-- Two scans at the same place of a queue and of the shifted queue. -/
structure ShiftedScan (k : U32) (s s' : PeekScan) : Prop where
  queue : Shifted k s.queue s'.queue
  i : s'.i = s.i
  idx : s'.idx = s.idx

theorem outdated_shift (timeUs k : U32) (n : JitNode) :
    outdated (timeUs + k) (n.shift k) ↔ outdated timeUs n := by
  unfold outdated
  rw [countUs_shift, add_sub_add_right_eq_sub]

/-- One iteration commutes with a shift if its candidate is live. -/
theorem ShiftedScan.body (hs : env.QsortByOutcomes) {timeUs : U32} {s s' : PeekScan}
    (hw : s.queue.Wf) (hv : s.Valid) (hi : s.i < s.queue.numPkt.toNat)
    (h : ShiftedScan k s s') :
    ShiftedScan k (jitPeekBody env timeUs s) (jitPeekBody env (timeUs + k) s') := by
  have hle : s.queue.numPkt.toNat ≤ 32 := hw
  have hnode := h.queue.node_eq env hw hi
  unfold jitPeekBody
  simp only
  rw [h.i, h.idx, hnode]
  by_cases hold : outdated timeUs (s.queue.node env s.i)
  · rw [if_pos hold, if_pos ((outdated_shift _ _ _).mpr hold)]
    exact ⟨h.queue.removeNode hs hw (by omega) (by omega), rfl, rfl⟩
  · rw [if_neg hold, if_neg fun h => hold ((outdated_shift _ _ _).mp h)]
    split
    · exact ⟨h.queue, rfl, rfl⟩
    · rename_i hidx
      obtain ⟨hlo, hhi⟩ := hv.resolve_left hidx
      have hbest : s'.queue.nodeAt env s.idx = (s.queue.nodeAt env s.idx).shift k := by
        unfold JitQueue.nodeAt
        rw [if_neg (by omega), if_neg (by omega)]
        exact h.queue.node_eq env hw (by omega)
      rw [hbest, countUs_shift, countUs_shift, add_sub_add_right_eq_sub,
        add_sub_add_right_eq_sub]
      exact ⟨h.queue, rfl, rfl⟩

/-- A whole scan commutes with a shift if after any number of iterations its candidate is
live or there is none. -/
theorem ShiftedScan.loop (hs : env.QsortByOutcomes) {timeUs : U32} (fuel : ℕ) {s s' : PeekScan}
    (hw : s.queue.Wf) (hv : ∀ n ≤ fuel, (jitPeekLoop env timeUs n s).Valid)
    (h : ShiftedScan k s s') :
    ShiftedScan k (jitPeekLoop env timeUs fuel s) (jitPeekLoop env (timeUs + k) fuel s') := by
  induction fuel generalizing s s' with
  | zero => exact h
  | succ fuel ih =>
    have hnow : s.Valid := hv 0 (Nat.zero_le _)
    have hlater : s.i < s.queue.numPkt.toNat → ∀ n ≤ fuel,
        (jitPeekLoop env timeUs n (jitPeekBody env timeUs s)).Valid := by
      intro hi n hn
      have hsucc := hv (n + 1) (Nat.succ_le_succ hn)
      unfold jitPeekLoop at hsucc
      rwa [if_pos hi] at hsucc
    unfold jitPeekLoop
    rw [h.i, h.queue.numPkt]
    split
    · rename_i hi
      exact ih (wf_jitPeekBody env hw hi) (hlater hi) (h.body hs hw hnow hi)
    · exact h

/-- No purge of the scan leaves it with a candidate that is no longer live. -/
def KeepsCandidate (env : JitEnv) (q : JitQueue) (timeUs : U32) : Prop :=
  ∀ fuel ≤ peekFuel q, (jitPeekLoop env timeUs fuel ⟨q, 0, -1, []⟩).Valid

instance (s : PeekScan) : Decidable s.Valid := inferInstanceAs (Decidable (_ ∨ _))

instance (env : JitEnv) (q : JitQueue) (timeUs : U32) : Decidable (KeepsCandidate env q timeUs) :=
  inferInstanceAs (Decidable (∀ fuel ≤ peekFuel q, _))

/-- Where nothing is outdated nothing is purged, in whatever order the nodes are. -/
theorem keepsCandidate_of_fresh (env : JitEnv) (hw : q.Wf) {timeUs : U32}
    (hfresh : ∀ n ∈ q.live, ¬outdated timeUs n) : KeepsCandidate env q timeUs :=
  fun fuel _ => (jitPeekLoop_invariant (fun _ h hi => Fresh.body env hw hfresh h hi) fuel
    (.init q)).valid

/-- Among sorted nodes that the comparator can order, every purge is behind the candidate. -/
theorem keepsCandidate_of_ordered (hs : env.QsortSorts) (hw : q.Wf) (hsort : q.Sorted)
    (ho : CmpOrder.OrderOn compare q.live) (hpos : 0 < q.numPkt.toNat) (timeUs : U32) :
    KeepsCandidate env q timeUs :=
  fun fuel _ => (jitPeekLoop_invariant (fun _ h hi => h.body hs hi) fuel
    (Ordered.init env hw hsort ho hpos timeUs)).valid

/-- `jit_peek` from the second time it takes the lock commutes with a shift. -/
theorem jitPeekLocked_shift (ho : env.QsortByOutcomes) (hw : q.Wf) (h : Shifted k q q')
    {time time' : Timeval} (ht : time'.lowUs = time.lowUs + k)
    (hpeek : KeepsCandidate env q time.lowUs) :
    (jitPeekLocked env q' time').pktIdx = (jitPeekLocked env q time).pktIdx ∧
      Shifted k (jitPeekLocked env q time).queue (jitPeekLocked env q' time').queue := by
  have hfuel : peekFuel q' = peekFuel q := by
    unfold peekFuel
    rw [h.numPkt]
  have hsim : ShiftedScan k (jitPeekScan env q time.lowUs) (jitPeekScan env q' time'.lowUs) := by
    have h₀ : ShiftedScan k ⟨q, 0, -1, []⟩ ⟨q', 0, -1, []⟩ := ⟨h, rfl, rfl⟩
    unfold jitPeekScan
    rw [hfuel, ht]
    exact h₀.loop ho _ hw hpeek
  have hv : (jitPeekScan env q time.lowUs).Valid := hpeek _ le_rfl
  refine ⟨?_, hsim.queue⟩
  have hwf := (jitPeekScan_live env hw time.lowUs).1
  unfold jitPeekLocked
  simp only
  rw [hsim.idx]
  rcases hv with hnone | ⟨hlo, hhi⟩
  · -- without a candidate the answer is -1, whatever the stray read finds
    rw [hnone, ite_self, ite_self]
  · have hbest : (jitPeekScan env q' time'.lowUs).queue.nodeAt env
        (jitPeekScan env q time.lowUs).idx =
          ((jitPeekScan env q time.lowUs).queue.nodeAt env
            (jitPeekScan env q time.lowUs).idx).shift k := by
      unfold JitQueue.nodeAt
      rw [if_neg (by omega), if_neg (by omega)]
      exact hsim.queue.node_eq env hwf (by omega)
    rw [hbest, ht, countUs_shift, add_sub_add_right_eq_sub]

/-! ## Any call -/

/-- Calls the wrap makes no difference to: not a class C packet within a second before
it, and not a peek that loses its candidate to a purge. -/
def Steady (env : JitEnv) (q : JitQueue) : JitCall → Prop
  | .enqueue time (some _) .downlinkClassC =>
    jitQueueIsFull q = true ∨ time.lowUs.toNat + 1000000 < 2 ^ 32
  | .peek (some time) true => KeepsCandidate env q time.lowUs
  | _ => True

theorem Shifted.isFull (h : Shifted k q q') : jitQueueIsFull q' = jitQueueIsFull q := by
  unfold jitQueueIsFull
  rw [h.numPkt]

theorem Shifted.isEmpty (h : Shifted k q q') : jitQueueIsEmpty q' = jitQueueIsEmpty q := by
  unfold jitQueueIsEmpty
  rw [h.numPkt]

/-- **A roll-over makes no difference.**  If the time, the packet and every live node are
shifted by `k` modulo `2 ^ 32`, a call returns the same result code and the same index
and leaves the same queue, shifted by `k`, provided both calls are steady. -/
theorem roll_over_independent (ho : env.QsortByOutcomes) (ha : env.AirtimeTimeless) (hw : q.Wf)
    (h : Shifted k q q') {c c' : JitCall} (hc : ShiftedCall k c c') (hok : Steady env q c)
    (hok' : Steady env q' c') :
    c'.error env q' = c.error env q ∧ c'.index env q' = c.index env q ∧
      Shifted k (c.apply env q) (c'.apply env q') := by
  cases hc with
  | @enqueue time time' p t ht =>
    unfold JitCall.error JitCall.index JitCall.apply
    simp only
    cases p with
    | none => exact ⟨rfl, trivial, h⟩
    | some p =>
      unfold jitEnqueue
      simp only [Option.map_some]
      rw [h.isFull]
      split
      · exact ⟨rfl, trivial, h⟩
      · rename_i hf
        have hlt := hw.lt_of_not_full (by simpa using hf)
        -- The slot of a class C packet is searched for only if the queue has room.
        have hrange : t = .downlinkClassC →
            time.lowUs.toNat + 1000000 < 2 ^ 32 ∧ time'.lowUs.toNat + 1000000 < 2 ^ 32 := by
          rintro rfl
          refine ⟨hok.resolve_left hf, hok'.resolve_left ?_⟩
          rw [h.isFull]
          exact hf
        obtain ⟨herr, hq⟩ := jitEnqueueLocked_shift ho ha hlt h ht hrange p
        exact ⟨herr, trivial, hq⟩
  | dequeue index packet =>
    unfold JitCall.error JitCall.index JitCall.apply
    simp only
    unfold jitDequeue
    rw [h.isEmpty]
    split
    · exact ⟨rfl, trivial, h⟩
    · split
      · exact ⟨rfl, trivial, h⟩
      · rename_i hidx
        split
        · exact ⟨rfl, trivial, h⟩
        · rename_i hempty
          rw [jitQueueIsEmpty_iff] at hempty
          simp only [jitQueueMax, not_or, not_lt, not_le] at hidx
          exact ⟨rfl, trivial, h.removeNode ho hw (by omega) (by omega)⟩
  | peekNull pktIdx => exact ⟨rfl, rfl, h⟩
  | @peek time time' pktIdx ht =>
    unfold JitCall.error JitCall.index JitCall.apply
    simp only
    unfold jitPeek
    simp only
    rw [h.isEmpty]
    cases pktIdx with
    | false => exact ⟨rfl, rfl, h⟩
    | true =>
      simp only [Bool.true_eq_false, if_false]
      split
      · exact ⟨rfl, rfl, h⟩
      · rename_i hempty
        rw [jitQueueIsEmpty_iff] at hempty
        obtain ⟨hidx, hq⟩ := jitPeekLocked_shift ho hw h ht hok
        exact ⟨rfl, hidx, hq⟩

/-- The empty queue is its own shift. -/
theorem shifted_jitQueueInit (k : U32) : Shifted k jitQueueInit jitQueueInit :=
  ⟨rfl, rfl, rfl, rfl⟩

/-- Three class A packets, not in order, the last of them outdated at 0, all `k` ticks later. -/
def unsorted (k : U32) : JitQueue where
  numPkt := 3
  numBeacon := 0
  nodes := ((jitQueueInit.nodes.set 0 (node 2000)).set 1 (node 1000)).set 2 (node 600000000)
where
  /-- A packet for the given count. -/
  node (countUs : U32) : JitNode :=
    (nodeFor .reference jitQueueInit 0 (packetAt countUs) .downlinkClassA).shift k

theorem shifted_unsorted : Shifted 1000 (unsorted 0) (unsorted 1000) :=
  ⟨rfl, rfl, by decide +kernel, by decide +kernel⟩

/-- A peek that purges the outdated packet of that queue just before and just after a
shift. -/
theorem roll_over_independent_unsorted :
    let c : JitCall := .peek (some (instant 0)) true
    let c' : JitCall := .peek (some (instant 1000)) true
    c'.error .reference (unsorted 1000) = c.error .reference (unsorted 0) ∧
      c'.index .reference (unsorted 1000) = c.index .reference (unsorted 0) ∧
      Shifted 1000 (c.apply .reference (unsorted 0)) (c'.apply .reference (unsorted 1000)) := by
  have hbefore : KeepsCandidate .reference (unsorted 0) (instant 0).lowUs := by decide +kernel
  have hafter : KeepsCandidate .reference (unsorted 1000) (instant 1000).lowUs := by
    decide +kernel
  have hcall : ShiftedCall 1000 (.peek (some (instant 0)) true)
      (.peek (some (instant 1000)) true) :=
    .peek true (by decide +kernel)
  have hw : (unsorted 0).Wf := by
    show 3 ≤ 32
    decide
  intro c c'
  exact roll_over_independent JitEnv.reference_qsortByOutcomes (fun _ _ => rfl) hw shifted_unsorted
    hcall hbefore hafter

/-- **A roll-over shows for class C.**  One millisecond before the counter wraps a class C
packet on an empty queue is refused as too late where the conversion of `time_us + 1E6`
saturates; one millisecond later it is accepted. -/
theorem roll_over_visible :
    ∃ q q' c c', q.Wf ∧ Shifted 1000 q q' ∧ ShiftedCall 1000 c c' ∧
      JitCall.error .reference q c = .tooLate ∧ JitCall.error .reference q' c' = .ok := by
  refine ⟨jitQueueInit, jitQueueInit, .enqueue (instant 4294966296) (some (packetAt 0))
    .downlinkClassC, .enqueue (instant 4294967296) (some ((packetAt 0).shift 1000))
    .downlinkClassC, wf_jitQueueInit, shifted_jitQueueInit 1000,
    .enqueue (some (packetAt 0)) .downlinkClassC ?_, ?_, ?_⟩
  · decide +kernel
  · decide +kernel
  · decide +kernel

end PacketForwarder
