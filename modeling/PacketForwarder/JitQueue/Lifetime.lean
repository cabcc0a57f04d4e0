import PacketForwarder.JitQueue.Reference

/-!
# How long an accepted packet stays

`jit_peek` drops a node it takes for missed: one that lies `txMaxAdvanceDelay` or
more ahead.  `jit_enqueue` uses the same bound to refuse packets, but only for
class A and B, and only what lies *more* than that ahead.

* `NeverDropped` — from a queue on, no peek between an instant and the departure
  of a node takes that node away, and no enqueue does;
* `never_dropped_iff` — an accepted packet of class A, class B or a beacon is never
  dropped if and only if it was accepted less than `txMaxAdvanceDelay` ahead;
* `dropped_at_the_bound` — a class B packet accepted exactly that far ahead is
  dropped by the next peek.
-/

namespace PacketForwarder

open Circle

variable {env : JitEnv} {q : JitQueue}

/-- A call that may not take away a node waiting from `t` for its departure at `c`: an
enqueue, or a peek at a time from `t` to `c`. -/
def Harmless (t c : U32) : JitCall → Prop
  | .enqueue _ _ _ => True
  | .dequeue _ _ => False
  | .peek none _ => True
  | .peek (some time) _ => ahead t time.lowUs ≤ ahead t c

/-- Whatever calls are made from `q` on, a harmless one never takes `n` away. -/
def NeverDropped (env : JitEnv) (q : JitQueue) (t : U32) (n : JitNode) : Prop :=
  ∀ q', Runs.Reaches (jitStep env) Runs.anyStep q q' → ∀ c, Harmless t n.pkt.countUs c →
    q'.live.count n ≤ (c.apply env q').live.count n

/-! ## A node that is not outdated stays -/

/-- A scan removes no node that is not outdated. -/
theorem count_jitPeekScan (env : JitEnv) (hw : q.Wf) {timeUs : U32} {n : JitNode}
    (hn : ¬outdated timeUs n) :
    q.live.count n ≤ (jitPeekScan env q timeUs).queue.live.count n := by
  have h₀ : q.Wf ∧ q.live.count n ≤ q.live.count n := ⟨hw, le_rfl⟩
  refine (jitPeekScan_invariant
    (I := fun s => s.queue.Wf ∧ q.live.count n ≤ s.queue.live.count n) h₀ ?_).2
  rintro s ⟨hsw, hle⟩ hi
  rcases jitPeekBody_cases env timeUs s with ⟨hold, hq, -⟩ | ⟨-, hq, -⟩
  · rw [hq]
    refine ⟨wf_removeNode hsw (by omega) _, hle.trans ?_⟩
    have hne : s.queue.node env s.i ≠ n := by
      intro h
      rw [h] at hold
      exact hn hold
    rw [← (live_removeNode_perm env hsw hi).count_eq, List.count_cons_of_ne hne]
  · rw [hq]
    exact ⟨hsw, hle⟩

/-- Within its waiting time a node lies no further ahead than when it was accepted. -/
theorem not_outdated_of_between {t t' : U32} {n : JitNode}
    (hfar : ahead t n.pkt.countUs < 512000000) (ht : ahead t t' ≤ ahead t n.pkt.countUs) :
    ¬outdated t' n := by
  have hle := ahead_le_of_le ht
  show ¬(512000000 ≤ ahead t' n.pkt.countUs)
  omega

/-- Less than the bound ahead, a node stays. -/
theorem neverDropped_of_lt (hw : q.Wf) {t : U32} {n : JitNode}
    (hfar : ahead t n.pkt.countUs < 512000000) : NeverDropped env q t n := by
  intro q' hr c hc
  have hw' : q'.Wf := by
    refine Runs.Reaches.invariant hw ?_ hr
    rintro s c s' - hs - hst
    cases hst
    exact (JitCall.live_cases env hs c).1
  cases c with
  | enqueue time p t' =>
    rcases jitEnqueue_cases env q' time p t' with ⟨p', rfl, hf, -, -, hq⟩ | ⟨-, hq⟩
    · simp only [JitCall.apply, hq]
      rw [(live_insertNode_perm env (hw'.lt_of_not_full hf) _).count_eq]
      exact List.count_le_count_cons
    · simp only [JitCall.apply, hq]
      exact le_rfl
  | dequeue index packet => exact hc.elim
  | peek time pktIdx =>
    rcases jitPeek_cases env q' time pktIdx with ⟨t', rfl, -, -, hq⟩ | ⟨-, hq⟩
    · simp only [JitCall.apply, hq]
      exact count_jitPeekScan env hw' (not_outdated_of_between hfar hc)
    · simp only [JitCall.apply, hq]
      exact le_rfl

/-! ## A node that is outdated goes -/

/-- A scan that meets an outdated node drops at least one. -/
theorem numPkt_jitPeekScan_lt (env : JitEnv) (hw : q.Wf) {timeUs : U32} {n : JitNode}
    (hn : n ∈ q.live) (hold : outdated timeUs n) :
    (jitPeekScan env q timeUs).queue.numPkt.toNat < q.numPkt.toNat := by
  let I : PeekScan → Prop := fun s => s.queue.numPkt.toNat < q.numPkt.toNat ∨
    s.queue = q ∧ ∀ k < s.i, ¬outdated timeUs (q.node env k)
  have h₀ : I ⟨q, 0, -1, []⟩ := .inr ⟨rfl, fun k hk => absurd hk (Nat.not_lt_zero k)⟩
  have hend := jitPeekScan_done env q timeUs
  have hI : I (jitPeekScan env q timeUs) := by
    refine jitPeekScan_invariant h₀ ?_
    intro s hs hi
    rcases jitPeekBody_cases env timeUs s with ⟨-, hq, -⟩ | ⟨hnew, hq, hnext, -⟩
    · refine .inl ?_
      rw [hq, numPkt_removeNode env (by omega)]
      rcases hs with hlt | ⟨hsame, -⟩
      · omega
      · rw [hsame] at hi ⊢
        omega
    · rcases hs with hlt | ⟨hsame, hseen⟩
      · exact .inl (by rw [hq]; exact hlt)
      · refine .inr ⟨by rw [hq]; exact hsame, ?_⟩
        intro k hk
        rw [hnext] at hk
        rcases Nat.lt_succ_iff_lt_or_eq.mp hk with hk | rfl
        · exact hseen k hk
        · rw [← hsame]
          exact hnew
  rcases hI with hlt | ⟨hsame, hseen⟩
  · exact hlt
  · obtain ⟨i, hi, rfl⟩ := JitQueue.exists_node_of_mem_live env hn hw
    rw [hsame] at hend
    exact absurd hold (hseen i (by omega))

/-- Peeking over and over at a time at which a live node is outdated drops it. -/
theorem not_neverDropped (hw : q.Wf) {time : Timeval} {n : JitNode}
    (hn : n ∈ q.live) (hold : outdated time.lowUs n) : ¬NeverDropped env q time.lowUs n := by
  induction hnum : q.numPkt.toNat using Nat.strong_induction_on generalizing q with
  | _ m ih =>
    intro hnever
    have hpos : 0 < q.numPkt.toNat := by
      rw [← JitQueue.length_live hw]
      exact List.length_pos_of_mem hn
    let c : JitCall := .peek (some time) true
    have hq : c.apply env q = (jitPeekScan env q time.lowUs).queue := by
      rcases jitPeek_cases env q (some time) true with ⟨t', ht', -, -, hq⟩ | ⟨herr, -⟩
      · cases ht'
        exact hq
      · have hempty : jitQueueIsEmpty q = false := jitQueueIsEmpty_eq_false_iff.mpr hpos
        simp [jitPeek, jitPeekLocked, hempty] at herr
    have hstays := hnever q .start c (by show ahead _ _ ≤ _; rw [ahead_self]; exact Nat.zero_le _)
    have hmem : n ∈ (c.apply env q).live := by
      have := List.count_pos_iff.mpr hn
      exact List.count_pos_iff.mp (by omega)
    have hless : (c.apply env q).numPkt.toNat < m := by
      rw [hq, ← hnum]
      exact numPkt_jitPeekScan_lt env hw hn hold
    refine ih _ hless (JitCall.live_cases env hw c).1 hmem rfl ?_
    intro q' hr
    exact hnever q' ((Runs.Reaches.next .start trivial rfl).trans hr)

/-! ## Accepted packets -/

/-- **When an accepted packet stays.**  A class A packet, a class B packet or a beacon
accepted at `time` is dropped by no peek up to its departure, in no later run, if
and only if that departure was less than `txMaxAdvanceDelay` ahead. -/
theorem never_dropped_iff (hq : Reachable env q) {time : Timeval} {p : LgwPktTx}
    {t : JitPktType} (ht : t ≠ .downlinkClassC)
    (hok : (jitEnqueue env q time (some p) t).error = .ok) :
    NeverDropped env (jitEnqueue env q time (some p) t).queue time.lowUs
        (nodeFor env q time.lowUs p t) ↔
      ahead time.lowUs p.countUs < txMaxAdvanceDelay := by
  have hcount : (nodeFor env q time.lowUs p t).pkt.countUs = p.countUs := by
    rw [nodeFor_countUs, departure, if_neg ht]
  rcases jitEnqueue_cases env q time (some p) t with ⟨p', hp, hf, -, -, hins⟩ | ⟨herr, -⟩
  · cases hp
    have hlt := hq.wf.lt_of_not_full hf
    rw [hins]
    constructor
    · intro hnever
      by_contra hfar
      have hmem : nodeFor env q time.lowUs p t ∈
          (insertNode env q (nodeFor env q time.lowUs p t)).live :=
        (live_insertNode_perm env hlt _).symm.subset (List.mem_cons_self ..)
      refine not_neverDropped (wf_insertNode env hlt _) hmem ?_ hnever
      show _ ≤ ahead _ _
      rw [hcount]
      exact not_lt.mp hfar
    · intro hfar
      refine neverDropped_of_lt (wf_insertNode env hlt _) ?_
      rw [hcount]
      exact hfar
  · exact absurd hok herr

/-- A class A packet one second ahead stays. -/
theorem never_dropped_one_second :
    NeverDropped .reference (jitEnqueue .reference jitQueueInit (instant 0)
        (some (packetAt 1000000)) .downlinkClassA).queue (instant 0).lowUs
        (nodeFor .reference jitQueueInit (instant 0).lowUs (packetAt 1000000) .downlinkClassA) ↔
      ahead (instant 0).lowUs (packetAt 1000000).countUs < txMaxAdvanceDelay :=
  never_dropped_iff .start (by decide) (by decide +kernel)

/-- **The bound itself is on both sides.**  A class B packet exactly
`txMaxAdvanceDelay` ahead is accepted, and the next peek drops it. -/
theorem dropped_at_the_bound :
    (jitEnqueue .reference jitQueueInit (instant 0) (some (packetAt 512000000))
        .downlinkClassB).error = .ok ∧
      ¬NeverDropped .reference (jitEnqueue .reference jitQueueInit (instant 0)
        (some (packetAt 512000000)) .downlinkClassB).queue (instant 0).lowUs
        (nodeFor .reference jitQueueInit (instant 0).lowUs (packetAt 512000000)
          .downlinkClassB) := by
  refine ⟨by decide +kernel, ?_⟩
  intro h
  have hpeek := h _ .start (.peek (some (instant 0)) true)
    (by show ahead _ _ ≤ _; decide +kernel)
  exact absurd hpeek (by decide +kernel)

end PacketForwarder
