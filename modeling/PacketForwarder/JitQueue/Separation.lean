import PacketForwarder.JitQueue.Reference

/-!
# Live nodes keep clear of one another

`jit_enqueue` compares a new packet with every live node, and relaxes the
comparison for class A and C packets, which ignore the guard before a beacon.
What that adds up to over a whole run is stated here for every pair of live
nodes, in whatever order they came.

* `Clear` — the reservations of two nodes are disjoint on the circle, the guard of
  a beacon being reduced to `txStartDelay` next to a class A or C packet;
* `windows_disjoint` — in every reachable queue any two live nodes are clear of
  one another, and no class B packet lies inside a beacon's guard;
* `not_eligible_after_airtime` — nevertheless a beacon can become due while a class
  A packet before it is still being emitted: the reduced guard leaves out
  `txJitDelay`;
* `eligible_after_airtime` — this is the only way it can happen; a class C packet
  the slot search places among sorted nodes never comes that close
  (`slot_not_close`).
-/

namespace PacketForwarder

open Circle

variable {env : JitEnv} {q : JitQueue}

/-! ## Disjoint reservations -/

/-- The reservations of `a` and `b` are disjoint, with a margin.  The reservation
before `a` is `targetPreDelay b.pktType a`: its own `preDelay`, unless `a` is a
beacon and `b` a class A or C packet. -/
structure Clear (a b : JitNode) : Prop where
  left : (targetPreDelay b.pktType a).toNat + b.postDelay.toNat + txMarginDelay.toNat <
    ahead b.pkt.countUs a.pkt.countUs
  right : (targetPreDelay a.pktType b).toNat + a.postDelay.toNat + txMarginDelay.toNat <
    ahead a.pkt.countUs b.pkt.countUs

theorem Clear.symm {a b : JitNode} (h : Clear a b) : Clear b a := ⟨h.right, h.left⟩

/-- The relaxed reservation is no longer than the node's own. -/
theorem targetPreDelay_le {n : JitNode} (hn : n.Ok) (t : JitPktType) :
    (targetPreDelay t n).toNat ≤ n.preDelay.toNat := by
  unfold targetPreDelay
  split
  · rename_i h
    rw [hn.pre, h.2]
    decide
  · exact le_rfl

theorem JitNode.Ok.preDelay_le {n : JitNode} (hn : n.Ok) : n.preDelay.toNat ≤ 3031500 := by
  rw [hn.pre]
  exact packetPreDelay_le _

/-- Passing the collision test makes the new node clear of the old one. -/
theorem clear_of_not_overlaps {a b : JitNode} (ha : a.Ok) (hb : b.Ok)
    (h : overlaps a b = false) : Clear a b := by
  have hapre := ha.preDelay_le
  have hbpre := hb.preDelay_le
  have hapost := ha.post
  have hbpost := hb.post
  have hat := targetPreDelay_le ha b.pktType
  have hbt := targetPreDelay_le hb a.pktType
  unfold overlaps at h
  rw [jitCollisionTest_eq_false (by omega) (by omega)] at h
  obtain ⟨h₁, h₂⟩ := h
  refine ⟨?_, h₂⟩
  show _ + _ + 1000 < _
  omega

/-- The invariant: every node has the delays of its type, and any two are clear. -/
structure Separated (l : List JitNode) : Prop where
  ok : ∀ n ∈ l, n.Ok
  clear : l.Pairwise Clear

/-- A symmetric relation between the members survives rearranging and removing. -/
theorem pairwise_subperm {R : JitNode → JitNode → Prop} (hR : ∀ {a b}, R a b → R b a)
    {l l' : List JitNode} (h : l'.Subperm l) (hp : l.Pairwise R) : l'.Pairwise R := by
  obtain ⟨m, hm, hs⟩ := h
  exact (hp.sublist hs).perm hm hR

theorem Separated.subperm {l l' : List JitNode} (h : Separated l) (hs : l'.Subperm l) :
    Separated l' :=
  ⟨fun n hn => h.ok n (hs.subset hn), pairwise_subperm Clear.symm hs h.clear⟩

/-- **The step.**  An accepted node keeps the live nodes separated. -/
theorem Separated.cons {timeUs : U32} {n : JitNode} (h : Separated q.live) (hn : n.Ok)
    (ha : Accepted q timeUs n) : Separated (n :: q.live) := by
  refine ⟨List.forall_mem_cons.mpr ⟨hn, h.ok⟩, List.pairwise_cons.mpr ⟨?_, h.clear⟩⟩
  intro m hm
  exact clear_of_not_overlaps hn (h.ok m hm) (ha.clear m hm)

/-- **The run.**  The live nodes of a reachable queue are separated. -/
theorem ReachableBy.separated {ok : JitQueue → JitCall → Prop} (hair : env.AirtimeBounded)
    (h : ReachableBy env ok q) : Separated q.live := by
  refine h.live_invariant ⟨by simp, List.Pairwise.nil⟩ (fun l l' hs hl => hl.subperm hs) ?_
  intro q time p t _ hsep _ hacc
  exact hsep.cons (nodeFor_ok hair _ _ _) hacc

/-- A symmetric relation between all live nodes holds between any two indices. -/
theorem JitQueue.rel_of_pairwise (env : JitEnv) {R : JitNode → JitNode → Prop}
    (hR : ∀ {a b}, R a b → R b a) (hw : q.Wf) (hp : q.live.Pairwise R) {i j : ℕ}
    (hi : i < q.numPkt.toNat) (hj : j < q.numPkt.toNat) (hij : i ≠ j) :
    R (q.node env i) (q.node env j) := by
  have hlen := JitQueue.length_live hw
  rw [List.pairwise_iff_getElem] at hp
  rcases Nat.lt_or_gt_of_ne hij with h | h
  · have := hp i j (by omega) (by omega) h
    rwa [JitQueue.getElem_live env, JitQueue.getElem_live env] at this
  · have := hp j i (by omega) (by omega) h
    rw [JitQueue.getElem_live env, JitQueue.getElem_live env] at this
    exact hR this

/-- **Reserved windows are disjoint.**  In every queue any calls can lead to, any
two live nodes have disjoint reservations on the 32-bit circle; in particular a
class B packet is over before a queued beacon's guard begins. -/
theorem windows_disjoint (hair : env.AirtimeBounded) (h : Reachable env q) {i j : ℕ}
    (hi : i < q.numPkt.toNat) (hj : j < q.numPkt.toNat) (hij : i ≠ j) :
    Clear (q.node env i) (q.node env j) ∧
      ((q.node env i).pktType = .downlinkClassB → (q.node env j).pktType = .beacon →
        beaconGuard.toNat + (q.node env i).postDelay.toNat <
          ahead (q.node env i).pkt.countUs (q.node env j).pkt.countUs) := by
  have hsep := h.separated hair
  have hclear := JitQueue.rel_of_pairwise env Clear.symm h.wf hsep.clear hi hj hij
  refine ⟨hclear, ?_⟩
  intro hB hbeacon
  have hpre : targetPreDelay (q.node env i).pktType (q.node env j) =
      txStartDelay + beaconGuard + txJitDelay := by
    unfold targetPreDelay
    rw [hB, if_neg (by simp), (hsep.ok _ (JitQueue.node_mem_live h.wf hj)).pre, hbeacon]
    rfl
  have hright := hclear.right
  rw [hpre] at hright
  have hval : (txStartDelay + beaconGuard + txJitDelay).toNat = 3031500 := by decide
  have hguard : beaconGuard.toNat = 3000000 := rfl
  omega

/-- A class B packet five seconds before a beacon. -/
theorem windows_disjoint_classB_before_beacon :
    let q := jitRun .reference [.enqueue (instant 0) (some (packetAt 10000000)) .beacon,
      .enqueue (instant 0) (some (packetAt 5000000)) .downlinkClassB]
    Clear (q.node .reference 0) (q.node .reference 1) ∧
      ((q.node .reference 0).pktType = .downlinkClassB →
        (q.node .reference 1).pktType = .beacon →
        beaconGuard.toNat + (q.node .reference 0).postDelay.toNat <
          ahead (q.node .reference 0).pkt.countUs (q.node .reference 1).pkt.countUs) :=
  windows_disjoint JitEnv.reference_airtimeBounded (reachable_jitRun _ _) (by decide +kernel)
    (by decide +kernel) (by decide)

/-! ## Becoming due after the packet before it has ended -/

/-- `b` becomes due (it is less than `txJitDelay` ahead) only after `a`, which
departs before it, has been emitted. -/
def DueAfter (a b : JitNode) : Prop :=
  a.postDelay.toNat + txJitDelay.toNat ≤ ahead a.pkt.countUs b.pkt.countUs

/-- At every time at which `b` is due, the time on air of `a` is over. -/
theorem DueAfter.over {a b : JitNode} (h : DueAfter a b) {t : U32}
    (hdue : ahead t b.pkt.countUs < txJitDelay.toNat) :
    a.postDelay.toNat ≤ ahead a.pkt.countUs t := by
  have h30 : txJitDelay.toNat = 30000 := rfl
  unfold DueAfter at h
  by_cases hcase : ahead a.pkt.countUs t ≤ ahead a.pkt.countUs b.pkt.countUs
  · have := ahead_eq_sub hcase
    omega
  · omega

/-- **A beacon can be due while a class A packet is on the air.**  With a beacon
queued for 10 s, a class A packet departing at 9.949 s with 41 ms on air is
accepted: the beacon may be peeked from 9.970 s, when that packet has 20 ms to go. -/
theorem not_eligible_after_airtime :
    ∃ q, Reachable .reference q ∧ ∃ i j, i < q.numPkt.toNat ∧ j < q.numPkt.toNat ∧ i ≠ j ∧
      ahead (q.node .reference i).pkt.countUs (q.node .reference j).pkt.countUs < 512000000 ∧
      ¬DueAfter (q.node .reference i) (q.node .reference j) ∧
      ∃ t, ahead t (q.node .reference j).pkt.countUs < txJitDelay.toNat ∧
        ahead (q.node .reference i).pkt.countUs t < (q.node .reference i).postDelay.toNat := by
  refine ⟨_, reachable_jitRun _ [.enqueue (instant 0) (some (packetAt 10000000)) .beacon,
    .enqueue (instant 0) (some (packetAt 9949000)) .downlinkClassA], 0, 1, ?_, ?_, by decide, ?_,
    ?_, 9970001, ?_, ?_⟩
  · decide +kernel
  · decide +kernel
  · decide +kernel
  · unfold DueAfter
    decide +kernel
  · decide +kernel
  · decide +kernel

/-- A packet departing at `c` with `post` on the air ends before the reduced guard of
the beacon `b`, but too late for the beacon to be programmed in time. -/
def TooClose (c post : U32) (b : JitNode) : Prop :=
  b.pktType = .beacon ∧
    post.toNat + txStartDelay.toNat + txMarginDelay.toNat < ahead c b.pkt.countUs ∧
    ahead c b.pkt.countUs < post.toNat + txJitDelay.toNat

/-- A call that brings no packet too close to a queued beacon: a class A packet is
not offered for such a time, and neither is a class C packet for which the search
found such a slot.  The latter need not be asked where the comparator can order the
live nodes. -/
def KeepsDistance (env : JitEnv) (q : JitQueue) : JitCall → Prop
  | .enqueue time (some p) .downlinkClassA =>
    Accepted q time.lowUs (nodeFor env q time.lowUs p .downlinkClassA) →
      ∀ b ∈ q.live, ¬TooClose p.countUs (packetPostDelay env p .downlinkClassA) b
  | .enqueue time (some p) .downlinkClassC =>
    Accepted q time.lowUs (nodeFor env q time.lowUs p .downlinkClassC) →
      CmpOrder.OrderOn compare q.live ∨
        ∀ b ∈ q.live, ¬TooClose (departure env q time.lowUs p .downlinkClassC)
          (packetPostDelay env p .downlinkClassC) b
  | _ => True

/-! ### The slot search -/

/-- The slot found comes after some node, and is clear of the next one, if any. -/
theorem slotSearch_cases (asap pre post : U32) {l : List JitNode} (h : l ≠ []) :
    ∃ A n B, l = A ++ n :: B ∧ (slotSearch asap pre post l).1 = slotAfter pre n ∧
      ∀ m ∈ B.head?, jitCollisionTest (slotAfter pre n) pre post m.pkt.countUs m.preDelay
        m.postDelay = false := by
  induction l with
  | nil => exact absurd rfl h
  | cons n rest ih =>
    cases rest with
    | nil => exact ⟨[], n, [], rfl, rfl, by simp⟩
    | cons m rest =>
      by_cases hc : jitCollisionTest (slotAfter pre n) pre post m.pkt.countUs m.preDelay
          m.postDelay = true
      · obtain ⟨A, n', B, hl, hslot, hnext⟩ := ih (by simp)
        refine ⟨n :: A, n', B, by rw [hl]; rfl, ?_, hnext⟩
        rw [slotSearch, if_pos hc]
        exact hslot
      · refine ⟨[], n, m :: rest, rfl, ?_, ?_⟩
        · rw [slotSearch, if_neg hc]
        · intro m' hm'
          cases hm'
          simpa using hc

/-- How far the slot after a node lies ahead of it. -/
theorem ahead_slotAfter {n : JitNode} (hn : n.Ok) :
    ahead n.pkt.countUs (slotAfter (txStartDelay + txJitDelay) n) = n.postDelay.toNat + 62500 := by
  have hpost := hn.post
  have hslot : slotAfter (txStartDelay + txJitDelay) n - n.pkt.countUs = n.postDelay + 62500 := by
    unfold slotAfter
    rw [txStartDelay, txJitDelay, txMarginDelay]
    bv_omega
  rw [ahead, hslot, BitVec.toNat_add]
  show (n.postDelay.toNat + 62500) % 2 ^ 32 = _
  omega

/-- A slot shortly after a node is not close to a beacon that is no later than that
node: the beacon is almost half a turn away. -/
theorem not_tooClose_of_earlier {n b : JitNode} {c post : U32} (hn : n.Ok)
    (hc : ahead n.pkt.countUs c = n.postDelay.toNat + 62500) (hpost : post.toNat ≤ 100000000)
    (hb : compare b n ≤ 0) : ¬TooClose c post b := by
  rintro ⟨-, -, hlt⟩
  have hnpost := hn.post
  have h30 : txJitDelay.toNat = 30000 := rfl
  have hbn := compare_nonpos.mp hb
  have hsum : ahead b.pkt.countUs c = ahead b.pkt.countUs n.pkt.countUs +
      ahead n.pkt.countUs c := ahead_eq_add (by omega)
  have hne : b.pkt.countUs ≠ c := by
    intro h
    rw [← ahead_eq_zero] at h
    omega
  have := ahead_add_ahead hne
  omega

/-- A slot after `n` that is clear of the next node `m` comes before `m`. -/
theorem slot_before_next {n m : JitNode} {c post : U32} (hn : n.Ok) (hm : m.Ok)
    (hclear : Clear n m) (hc : ahead n.pkt.countUs c = n.postDelay.toNat + 62500)
    (hpost : post.toNat ≤ 100000000)
    (htest : jitCollisionTest c (txStartDelay + txJitDelay) post m.pkt.countUs m.preDelay
      m.postDelay = false) :
    ahead n.pkt.countUs c ≤ ahead n.pkt.countUs m.pkt.countUs ∧
      post.toNat + 32500 < ahead c m.pkt.countUs := by
  have hmpost := hm.post
  have hnpost := hn.post
  have hmpre := hm.preDelay_le
  have hpre : (txStartDelay + txJitDelay).toNat = 31500 := by decide
  rw [jitCollisionTest_eq_false (by omega) (by omega), hpre] at htest
  obtain ⟨hafter, hbefore⟩ := htest
  have hmpre' : 31500 ≤ m.preDelay.toNat := by
    rw [hm.pre]
    cases m.pktType <;> decide
  refine ⟨?_, by omega⟩
  by_contra hcon
  -- otherwise the slot would come after `m`, which ends too late for that
  have hsub := ahead_eq_sub (le_of_not_ge hcon)
  have hright := hclear.right
  have hmargin : txMarginDelay.toNat = 1000 := rfl
  unfold targetPreDelay at hright
  split at hright
  · rename_i hbeacon
    have hres : m.postDelay.toNat = 2120000 := by
      rw [hm.beacon hbeacon.2]
      rfl
    omega
  · omega

/-- **The slot search keeps its distance.**  Among sorted nodes the slot it finds is
too close to no beacon. -/
theorem slot_not_close {l : List JitNode} (hsep : Separated l)
    (hasc : CmpOrder.Ascending compare l) (hl : l ≠ []) (asap : U32) {post : U32}
    (hpost : post.toNat ≤ 100000000) {b : JitNode} (hb : b ∈ l) :
    ¬TooClose (slotSearch asap (txStartDelay + txJitDelay) post l).1 post b := by
  obtain ⟨A, n, B, rfl, hslot, hnext⟩ :=
    slotSearch_cases asap (txStartDelay + txJitDelay) post hl
  rw [hslot]
  have hn : n.Ok := hsep.ok n (by simp)
  have hc := ahead_slotAfter hn
  obtain ⟨-, hnB, hAn⟩ := List.pairwise_append.mp hasc
  obtain ⟨hnB, hBB⟩ := List.pairwise_cons.mp hnB
  rcases List.mem_append.mp hb with hbA | hbn
  · exact not_tooClose_of_earlier hn hc hpost (hAn b hbA n (by simp))
  · rcases List.mem_cons.mp hbn with rfl | hbB
    · exact not_tooClose_of_earlier hn hc hpost (by rw [compare_nonpos, ahead_self]; omega)
    · cases B with
      | nil => cases hbB
      | cons m B =>
        have hm : m.Ok := hsep.ok m (by simp)
        have hnm : Clear n m :=
          (List.pairwise_cons.mp (List.pairwise_append.mp hsep.clear).2.1).1 m (by simp)
        obtain ⟨hcm, hdist⟩ := slot_before_next hn hm hnm hc hpost (hnext m rfl)
        rintro ⟨-, -, hlt⟩
        have h30 : txJitDelay.toNat = 30000 := rfl
        have hsubm := ahead_eq_sub hcm
        have hnb := compare_nonpos.mp (hnB b hbB)
        have hnm' := compare_nonpos.mp (hnB m (by simp))
        -- `b` is `m` or comes after it, so it is at least as far from the slot
        have hmb : ahead n.pkt.countUs m.pkt.countUs ≤ ahead n.pkt.countUs b.pkt.countUs := by
          rcases List.mem_cons.mp hbB with rfl | hbB'
          · exact le_rfl
          · have hmb := compare_nonpos.mp ((List.pairwise_cons.mp hBB).1 b hbB')
            by_contra hcon
            have hsub := ahead_eq_sub (le_of_not_ge hcon)
            have hne : b.pkt.countUs ≠ m.pkt.countUs := by
              intro h
              rw [h] at hcon
              exact hcon le_rfl
            have hturn := ahead_add_ahead hne
            have hclear := (List.pairwise_cons.mp (List.pairwise_append.mp hsep.clear).2.1).1 b
              (by simp [hbB'])
            have := hclear.right
            omega
        have hsubb := ahead_eq_sub (hcm.trans hmb)
        omega

/-- The departure of a class C packet is too close to no beacon among sorted nodes. -/
theorem departure_not_close (hair : env.AirtimeBounded) (hw : q.Wf) (hsep : Separated q.live)
    (hasc : CmpOrder.Ascending compare q.live) (timeUs : U32) (p : LgwPktTx) {b : JitNode}
    (hb : b ∈ q.live) :
    ¬TooClose (departure env q timeUs p .downlinkClassC)
      (packetPostDelay env p .downlinkClassC) b := by
  have hpost := packetPostDelay_le hair p .downlinkClassC
  have hne : q.live ≠ [] := List.ne_nil_of_mem hb
  have hpos : q.numPkt ≠ 0 := by
    intro h
    have := List.length_pos_of_mem hb
    rw [JitQueue.length_live hw, numPkt_eq_zero.mp h] at this
    omega
  unfold departure asapSlot firstSlot
  simp only [if_true, if_neg hpos]
  split
  · rename_i hfree
    rw [← JitQueue.length_live hw, List.findIdx_eq_length] at hfree
    have htest := hfree b hb
    have hbOk := hsep.ok b hb
    have hbpre := hbOk.preDelay_le
    have hbpost := hbOk.post
    have hpre : (packetPreDelay .downlinkClassC).toNat = 31500 := by decide
    rw [jitCollisionTest_eq_false (by omega) (by omega)] at htest
    rintro ⟨hbeacon, -, hlt⟩
    dsimp only at hlt
    have hguard : b.preDelay.toNat = 3031500 := by
      rw [hbOk.pre, hbeacon]
      decide
    have h30 : txJitDelay.toNat = 30000 := rfl
    omega
  · exact slot_not_close hsep hasc hne _ hpost hb

/-! ### Runs that keep their distance -/

theorem JitNode.Ok.le_preDelay {n : JitNode} (hn : n.Ok) : 31500 ≤ n.preDelay.toNat := by
  rw [hn.pre]
  cases n.pktType <;> decide

/-- An accepted node that is too close to no beacon becomes due after the live
nodes before it, and they after it. -/
theorem dueAfter_of_accepted {timeUs : U32} {n m : JitNode} (hn : n.Ok) (hm : m.Ok)
    (ha : Accepted q timeUs n) (hmem : m ∈ q.live)
    (hfar : n.pktType = .downlinkClassA ∨ n.pktType = .downlinkClassC →
      ¬TooClose n.pkt.countUs n.postDelay m) : DueAfter n m ∧ DueAfter m n := by
  have h30 : txJitDelay.toNat = 30000 := rfl
  have hnpre := hn.preDelay_le
  have hmpre := hm.preDelay_le
  have hnpre' := hn.le_preDelay
  have hmpre' := hm.le_preDelay
  have hnpost := hn.post
  have hmpost := hm.post
  have hmt := targetPreDelay_le hm n.pktType
  have htest := ha.clear m hmem
  unfold overlaps at htest
  rw [jitCollisionTest_eq_false (by omega) (by omega)] at htest
  obtain ⟨h₁, h₂⟩ := htest
  unfold DueAfter
  refine ⟨?_, by omega⟩
  unfold targetPreDelay at h₂
  split at h₂
  · rename_i hbeacon
    by_contra hcon
    have hstart : txStartDelay.toNat = 1500 := rfl
    have hmargin : txMarginDelay.toNat = 1000 := rfl
    exact hfar hbeacon.1 ⟨hbeacon.2, by omega, by omega⟩
  · omega

/-- A call that keeps its distance departs too close to no beacon. -/
theorem KeepsDistance.far (hair : env.AirtimeBounded) (hw : q.Wf) (hsep : Separated q.live)
    (hsort : q.Sorted) {time : Timeval} {p : LgwPktTx} {t : JitPktType}
    (h : KeepsDistance env q (.enqueue time (some p) t))
    (hacc : Accepted q time.lowUs (nodeFor env q time.lowUs p t))
    (ht : t = .downlinkClassA ∨ t = .downlinkClassC) {b : JitNode} (hb : b ∈ q.live) :
    ¬TooClose (departure env q time.lowUs p t) (packetPostDelay env p t) b := by
  rcases ht with rfl | rfl
  · exact h hacc b hb
  · rcases h hacc with hord | hfar
    · exact departure_not_close hair hw hsep (hsort hord) _ _ hb
    · exact hfar b hb

/-- **A node becomes due only after every node before it has been emitted**, as long
as no call brings a packet too close to a queued beacon. -/
theorem eligible_after_airtime (hair : env.AirtimeBounded) (hs : env.QsortSorts)
    (h : ReachableBy env (KeepsDistance env) q) {i j : ℕ} (hi : i < q.numPkt.toNat)
    (hj : j < q.numPkt.toNat) (hij : i ≠ j) :
    DueAfter (q.node env i) (q.node env j) ∧
      ∀ t, ahead t (q.node env j).pkt.countUs < txJitDelay.toNat →
        (q.node env i).postDelay.toNat ≤ ahead (q.node env i).pkt.countUs t := by
  let R : JitNode → JitNode → Prop := fun a b => DueAfter a b ∧ DueAfter b a
  have hR : ∀ {a b}, R a b → R b a := fun h => h.symm
  have hpair : q.live.Pairwise R := by
    refine h.live_invariant List.Pairwise.nil (fun l l' hsub hl => pairwise_subperm hR hsub hl) ?_
    intro q time p t hr hl hok hacc
    have hsep := hr.separated hair
    have hnode := nodeFor_ok (q := q) hair time.lowUs p t
    refine List.pairwise_cons.mpr ⟨?_, hl⟩
    intro m hm
    refine dueAfter_of_accepted hnode (hsep.ok m hm) hacc hm ?_
    intro ht
    rw [nodeFor_countUs]
    exact hok.far hair hr.wf hsep (hr.sorted hs) hacc ht hm
  have hdue := JitQueue.rel_of_pairwise env hR h.wf hpair hi hj hij
  exact ⟨hdue.1, fun t ht => hdue.1.over ht⟩

/-- A class A packet a hundred milliseconds before a beacon. -/
theorem eligible_after_airtime_classA_before_beacon :
    let q := jitRun .reference [.enqueue (instant 0) (some (packetAt 10000000)) .beacon,
      .enqueue (instant 0) (some (packetAt 9900000)) .downlinkClassA]
    DueAfter (q.node .reference 0) (q.node .reference 1) ∧
      ∀ t, ahead t (q.node .reference 1).pkt.countUs < txJitDelay.toNat →
        (q.node .reference 0).postDelay.toNat ≤
          ahead (q.node .reference 0).pkt.countUs t := by
  have hrun : Runs.Along (JitCall.apply .reference) (KeepsDistance .reference) jitQueueInit
      [.enqueue (instant 0) (some (packetAt 10000000)) .beacon,
        .enqueue (instant 0) (some (packetAt 9900000)) .downlinkClassA] := by
    refine ⟨trivial, fun _ => ?_, trivial⟩
    show ∀ b ∈ _, ¬(_ ∧ _ ∧ _)
    decide +kernel
  exact eligible_after_airtime JitEnv.reference_airtimeBounded JitEnv.reference_qsortSorts
    (reachableBy_jitRun hrun) (by decide +kernel) (by decide +kernel) (by decide)

end PacketForwarder
