import PacketForwarder.JitQueue.Reference

/-!
# Sorting across the roll-over

The counts of the live nodes lie on a circle.  If they all lie in a window shorter than half of it,
the comparator of `jit_sort_queue` orders them as they come in the window, wherever on the circle
this begins: before 0, before the sign changes at `2 ^ 31`, or anywhere else.

* `compare_eq_bmod` — the comparator as the difference of two `int`s, which wraps;
* `InWindow.comparesAhead` — in a window, it compares how far the nodes are from its start;
* `sorts_by_departure` — the comparator is a strict order on the counts, and sorting puts the
  nodes in the order of the window.
-/

namespace PacketForwarder

open Circle

variable {env : JitEnv} {q : JitQueue}

/-- `p_count - q_count`, both `int`. -/
theorem compare_eq_bmod (p q : JitNode) :
    compare p q = (p.pkt.countUs.toInt - q.pkt.countUs.toInt).bmod (2 ^ 32) :=
  BitVec.toInt_sub

/-- The counts lie in the window of `length` microseconds after `start`. -/
def InWindow (start : U32) (length : ℕ) (l : List JitNode) : Prop :=
  ∀ n ∈ l, ahead start n.pkt.countUs ≤ length

instance (start : U32) (length : ℕ) (l : List JitNode) : Decidable (InWindow start length l) :=
  inferInstanceAs (Decidable (∀ n ∈ l, _))

/-- The comparator compares how far the nodes are from the start of the window. -/
theorem InWindow.comparesAhead {start : U32} {length : ℕ} {l : List JitNode}
    (h : InWindow start length l) (hlength : length < 2 ^ 31) : ComparesAhead start l := by
  intro a ha b hb
  have ha' := h a ha
  have hb' := h b hb
  exact signedAhead_eq_sub (by omega) (by omega)

/-- **Sorting across the roll-over.**  If the counts of the live nodes lie in a window shorter than
half a turn of the counter, the comparator orders them strictly, and sorting puts the nodes in the
order in which they depart. -/
theorem sorts_by_departure (hs : env.QsortSorts) (hq : q.Wf) {start : U32} {length : ℕ}
    (hlength : length < 2 ^ 31) (hwindow : InWindow start length q.live) :
    CmpOrder.StrictOn compare (fun n => n.pkt.countUs) q.live ∧
      (jitSortQueue env q).live.Perm q.live ∧
      (jitSortQueue env q).live.Pairwise fun a b =>
        ahead start a.pkt.countUs ≤ ahead start b.pkt.countUs := by
  have hcompare := hwindow.comparesAhead hlength
  have hperm := live_jitSortQueue_perm env hq
  refine ⟨.of_sub hcompare fun a _ b _ => ?_, hperm, ?_⟩
  · rw [Nat.cast_inj, ahead_inj]
  · have hascending := sorted_jitSortQueue hs hq (hcompare.orderOn.perm hperm)
    refine hascending.imp_of_mem fun {a b} ha hb hab => ?_
    rw [hcompare a (hperm.mem_iff.mp ha) b (hperm.mem_iff.mp hb)] at hab
    omega

/-- Three nodes, the first of which departs after the roll-over. -/
def rollingQueue : JitQueue where
  numPkt := 3
  numBeacon := 0
  nodes := ((Slots.replicate jitQueueMax JitNode.zero).write 0
    [{ JitNode.zero with pkt := packetAt 5 }, { JitNode.zero with pkt := packetAt 0xfffffff0 },
      { JitNode.zero with pkt := packetAt 0x80000010 }])

theorem sorts_by_departure_rolling :
    CmpOrder.StrictOn compare (fun n => n.pkt.countUs) rollingQueue.live ∧
      (jitSortQueue .reference rollingQueue).live.Perm rollingQueue.live ∧
      (jitSortQueue .reference rollingQueue).live.Pairwise fun a b =>
        ahead (0x80000010 : U32) a.pkt.countUs ≤ ahead 0x80000010 b.pkt.countUs :=
  sorts_by_departure JitEnv.reference_qsortSorts (by unfold JitQueue.Wf; decide)
    (show 0x7ffffff5 < 2 ^ 31 by decide) (by decide +kernel)

end PacketForwarder
