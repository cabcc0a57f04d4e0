import PacketForwarder.JitQueue.Separation
import PacketForwarder.JitQueue.Verdict

/-!
# Where a class C packet is placed

An immediate downlink has no departure of its own: `jit_enqueue` tries one second
from now, and then the slots after the live nodes in turn.

* `FirstRoom` — the node after which the search stops; `departure_classC_cases` — the
  departure is the ASAP time if nothing collides with it, else the slot after that node;
* `NoStaleSlotFirst` — no slot that is past has room before one that is not;
  `slotAhead_iff` — then, and only then, the departure of an accepted packet lies ahead of
  now: class C skips the test for departures that are too far ahead, the search does not
  look at the time, and so `accepted_behind` takes a slot that is past;
* `classC_accepted` — after a complete purge no class C packet is refused: the slot found is
  clear of every live node, although the search looked at the next one only.
-/

namespace PacketForwarder

open Circle

variable {env : JitEnv} {q : JitQueue}

/-! ## The slot -/

/-- `asap_count_us` lies one second behind the time of the call. -/
def asapCountUs (env : JitEnv) (timeUs : U32) : U32 := env.f64ToU32 (timeUs.toNat + 1000000)

/-- The test of the search: the packet at `c` against the node, the guard of a beacon
included. -/
def slotCollides (c post : U32) (n : JitNode) : Bool :=
  jitCollisionTest c (packetPreDelay .downlinkClassC) post n.pkt.countUs n.preDelay n.postDelay

/-- Criteria 3 for the packet at `c`: the guard of a beacon is ignored. -/
def slotOverlaps (c post : U32) (n : JitNode) : Bool :=
  jitCollisionTest c (packetPreDelay .downlinkClassC) post n.pkt.countUs
    (targetPreDelay .downlinkClassC n) n.postDelay

/-- The slot that begins where the guard time after a node ends. -/
def slotBehind (n : JitNode) : U32 := slotAfter (packetPreDelay .downlinkClassC) n

/-- The search among these nodes stops at `n`: the slot after `n` does not collide with the next
node, if there is one, and the slots after the nodes before `n` do. -/
inductive FirstRoom (post : U32) : List JitNode → JitNode → Prop
  | last (n : JitNode) : FirstRoom post [n] n
  | here {n m : JitNode} {rest : List JitNode} : slotCollides (slotBehind n) post m = false →
      FirstRoom post (n :: m :: rest) n
  | later {n m k : JitNode} {rest : List JitNode} : slotCollides (slotBehind n) post m = true →
      FirstRoom post (m :: rest) k → FirstRoom post (n :: m :: rest) k

/-- The search takes the slot after the node it stops at. -/
theorem FirstRoom.slotSearch {post : U32} {l : List JitNode} {n : JitNode}
    (h : FirstRoom post l n) (asap : U32) :
    (slotSearch asap (packetPreDelay .downlinkClassC) post l).1 = slotBehind n := by
  induction h with
  | last n => rfl
  | here hroom =>
    unfold slotCollides slotBehind at hroom
    rw [PacketForwarder.slotSearch, if_neg (by simp [hroom])]
    rfl
  | later hfull _ ih =>
    unfold slotCollides slotBehind at hfull
    rw [PacketForwarder.slotSearch, if_pos hfull]
    exact ih

/-- The search stops at one of the slots, at the latest behind the last node. -/
theorem FirstRoom.exists (post : U32) {l : List JitNode} (hl : l ≠ []) :
    ∃ n, FirstRoom post l n := by
  induction l with
  | nil => exact absurd rfl hl
  | cons n rest ih =>
    cases rest with
    | nil => exact ⟨n, .last n⟩
    | cons m rest =>
      by_cases hfull : slotCollides (slotBehind n) post m = true
      · obtain ⟨k, hk⟩ := ih (by simp)
        exact ⟨k, .later hfull hk⟩
      · exact ⟨n, .here (by simpa using hfull)⟩

/-- There is room for the packet behind `n`, the live nodes after it being `B`. -/
def RoomBehind (post : U32) (n : JitNode) (B : List JitNode) : Prop :=
  ∀ m ∈ B.head?, slotCollides (slotBehind n) post m = false

/-- The node it stops at has room behind it, and no earlier one has. -/
theorem FirstRoom.split {post : U32} {l : List JitNode} {n : JitNode} (h : FirstRoom post l n) :
    ∃ A B, l = A ++ n :: B ∧ RoomBehind post n B ∧
      ∀ A' n' B', A = A' ++ n' :: B' → ¬RoomBehind post n' (B' ++ n :: B) := by
  induction h with
  | last n =>
    refine ⟨[], [], rfl, ?_, ?_⟩
    · intro m hm
      cases hm
    · intro A' n' B' hA
      simp at hA
  | @here n m rest hroom =>
    refine ⟨[], m :: rest, rfl, ?_, ?_⟩
    · intro m' hm'
      cases hm'
      exact hroom
    · intro A' n' B' hA
      simp at hA
  | @later n m k rest hfull _ ih =>
    obtain ⟨A, B, hl, hroom, hbefore⟩ := ih
    refine ⟨n :: A, B, by rw [hl]; rfl, hroom, ?_⟩
    intro A' n' B' hA
    cases A' with
    | nil =>
      -- `n` itself has none: the slot behind it collides with `m`.
      obtain ⟨rfl, rfl⟩ := List.cons.inj hA
      rw [← hl]
      intro hn
      have hfree := hn m rfl
      rw [hfull] at hfree
      cases hfree
    | cons a A' => exact hbefore A' n' B' (List.cons.inj hA).2

/-- The slot is the ASAP time if no live node collides with it, else the one after the node the
search stops at. -/
theorem firstSlot_cases (hw : q.Wf) (asap post : U32) :
    ((∀ m ∈ q.live, slotCollides asap post m = false) ∧
        (firstSlot q asap (packetPreDelay .downlinkClassC) post).1 = asap) ∨
      ((∃ m ∈ q.live, slotCollides asap post m = true) ∧
        ∃ n, FirstRoom post q.live n ∧
          (firstSlot q asap (packetPreDelay .downlinkClassC) post).1 = slotBehind n) := by
  have hlen := JitQueue.length_live hw
  unfold firstSlot
  by_cases hempty : q.numPkt = 0
  · have hnil : q.live = [] := List.eq_nil_of_length_eq_zero (by rw [hlen, hempty]; rfl)
    rw [if_pos hempty]
    exact .inl ⟨by simp [hnil], rfl⟩
  · rw [if_neg hempty]
    by_cases hfree : ∀ m ∈ q.live, slotCollides asap post m = false
    · have hidx : (q.live.findIdx fun n => slotCollides asap post n) = q.numPkt.toNat := by
        rw [← hlen]
        exact List.findIdx_eq_length.mpr hfree
      exact .inl ⟨hfree, congrArg Prod.fst (if_pos hidx)⟩
    · have hidx : (q.live.findIdx fun n => slotCollides asap post n) ≠ q.numPkt.toNat := by
        rw [← hlen]
        exact fun h => hfree (List.findIdx_eq_length.mp h)
      have hne : q.live ≠ [] := by
        rintro hnil
        exact hfree (by simp [hnil])
      obtain ⟨n, hn⟩ := FirstRoom.exists post hne
      refine .inr ⟨by simpa using hfree, n, hn, ?_⟩
      exact (congrArg Prod.fst (if_neg hidx)).trans (hn.slotSearch asap)

/-- **Where a class C packet is placed.** -/
theorem departure_classC_cases (env : JitEnv) (hw : q.Wf) (timeUs : U32) (p : LgwPktTx) :
    ((∀ m ∈ q.live, slotCollides (asapCountUs env timeUs)
          (packetPostDelay env p .downlinkClassC) m = false) ∧
        departure env q timeUs p .downlinkClassC = asapCountUs env timeUs) ∨
      ((∃ m ∈ q.live, slotCollides (asapCountUs env timeUs)
          (packetPostDelay env p .downlinkClassC) m = true) ∧
        ∃ n, FirstRoom (packetPostDelay env p .downlinkClassC) q.live n ∧
          departure env q timeUs p .downlinkClassC = slotBehind n) :=
  firstSlot_cases hw _ _

/-- A slot that passes the test of the search passes the last test. -/
theorem slotOverlaps_of_slotCollides {c post : U32} {n : JitNode} (hn : n.Ok)
    (hpost : post.toNat ≤ 100000000) (h : slotCollides c post n = false) :
    slotOverlaps c post n = false := by
  have hpre := hn.preDelay_le
  have hnpost := hn.post
  have htarget := targetPreDelay_le hn .downlinkClassC
  have hown : (packetPreDelay .downlinkClassC).toNat = 31500 := by decide
  unfold slotCollides at h
  rw [jitCollisionTest_eq_false (by omega) (by omega)] at h
  unfold slotOverlaps
  rw [jitCollisionTest_eq_false (by omega) (by omega)]
  omega

/-! ## Whether the slot lies ahead -/

section Ahead

variable {time : Timeval} {p : LgwPktTx}

/-- `jit_enqueue` leaves the departure in the caller's packet. -/
theorem jitEnqueue_packet_countUs (hfull : jitQueueIsFull q = false) (t : JitPktType) :
    (jitEnqueue env q time (some p) t).packet.countUs = departure env q time.lowUs p t := by
  have hlocked : (jitEnqueueLocked env q time p t).packet =
      (nodeFor env q time.lowUs p t).pkt := by
    unfold jitEnqueueLocked
    dsimp only
    split
    · rfl
    · split
      · rfl
      · split <;> rfl
  unfold jitEnqueue
  simp only [hfull, Bool.false_eq_true, if_false]
  rw [hlocked, nodeFor_countUs]

/-- A class C packet is accepted exactly if its slot is not too late and overlaps no live
node: there is no test for what is too far ahead. -/
theorem jitEnqueue_classC_ok_iff :
    (jitEnqueue env q time (some p) .downlinkClassC).error = .ok ↔
      jitQueueIsFull q = false ∧
        32500 < ahead time.lowUs (departure env q time.lowUs p .downlinkClassC) ∧
        ∀ m ∈ q.live, slotOverlaps (departure env q time.lowUs p .downlinkClassC)
          (packetPostDelay env p .downlinkClassC) m = false := by
  rw [jitEnqueue_ok_iff]
  constructor
  · rintro ⟨hfull, hlate, -, hclear⟩
    exact ⟨hfull, hlate, hclear⟩
  · rintro ⟨hfull, hlate, hclear⟩
    exact ⟨hfull, hlate, by simp [nodeFor], hclear⟩

/-- The departure of the packet, if it is accepted, lies ahead of now, in the window in which
`jit_peek` does not take it for outdated. -/
def SlotAhead (env : JitEnv) (q : JitQueue) (time : Timeval) (p : LgwPktTx) : Prop :=
  let r := jitEnqueue env q time (some p) .downlinkClassC
  r.error = .ok →
    (txStartDelay + txMarginDelay + txJitDelay).toNat < ahead time.lowUs r.packet.countUs ∧
      ahead time.lowUs r.packet.countUs < txMaxAdvanceDelay

/-- The slot behind `n` would be accepted outside the window: it is past, as a rule, and
overlaps none of the nodes. -/
def Stale (timeUs post : U32) (l : List JitNode) (n : JitNode) : Prop :=
  txMaxAdvanceDelay ≤ ahead timeUs (slotBehind n) ∧
    ∀ m ∈ l, slotOverlaps (slotBehind n) post m = false

/-- Before every live node with room behind it whose slot is stale there is another one whose
slot is not. -/
def StaleGapsCovered (timeUs post : U32) (l : List JitNode) : Prop :=
  ∀ A n B, l = A ++ n :: B → RoomBehind post n B → Stale timeUs post l n →
    ∃ A' n' B', A = A' ++ n' :: B' ∧ RoomBehind post n' (B' ++ n :: B) ∧ ¬Stale timeUs post l n'

/-- The search takes the first of the slots with room. -/
theorem FirstRoom.staleGapsCovered_iff {timeUs post : U32} {l : List JitNode} {n : JitNode}
    (h : FirstRoom post l n) : StaleGapsCovered timeUs post l ↔ ¬Stale timeUs post l n := by
  obtain ⟨A, B, hl, hroom, hbefore⟩ := h.split
  constructor
  · intro hcovered hstale
    obtain ⟨A', n', B', hA, hroom', -⟩ := hcovered A n B hl hroom hstale
    exact hbefore A' n' B' hA hroom'
  · intro hfirst A₂ n₂ B₂ hl₂ hroom₂ hstale₂
    rw [hl] at hl₂
    rcases List.append_eq_append_iff.mp hl₂ with ⟨C, hA₂, hC⟩ | ⟨C, hA, hC⟩
    · cases C with
      | nil =>
        obtain ⟨rfl, -⟩ := List.cons.inj hC
        exact absurd hstale₂ hfirst
      | cons c C =>
        obtain ⟨rfl, rfl⟩ := List.cons.inj hC
        exact ⟨A, n, C, hA₂, hroom, hfirst⟩
    · cases C with
      | nil =>
        obtain ⟨rfl, -⟩ := List.cons.inj hC
        exact absurd hstale₂ hfirst
      | cons c C =>
        obtain ⟨rfl, rfl⟩ := List.cons.inj hC
        exact absurd hroom₂ (hbefore A₂ n₂ C hA)

/-- What keeps a class C packet out of the past: if the ASAP time is free, the conversion finds
it inside the window; if it is taken, no stale slot behind a live node comes first. -/
structure NoStaleSlotFirst (env : JitEnv) (q : JitQueue) (timeUs post : U32) : Prop where
  asap : (∀ m ∈ q.live, slotCollides (asapCountUs env timeUs) post m = false) →
    ahead timeUs (asapCountUs env timeUs) < txMaxAdvanceDelay
  gaps : (∃ m ∈ q.live, slotCollides (asapCountUs env timeUs) post m = true) →
    StaleGapsCovered timeUs post q.live

/-- Where no live node is past, nor so far ahead that the slot behind it leaves the window, no
slot is stale. -/
theorem staleGapsCovered_of_ahead {timeUs post : U32} {l : List JitNode} (hok : ∀ n ∈ l, n.Ok)
    (hahead : ∀ n ∈ l,
      ahead timeUs n.pkt.countUs + n.postDelay.toNat + 62500 < txMaxAdvanceDelay) :
    StaleGapsCovered timeUs post l := by
  have hmax : txMaxAdvanceDelay = 512000000 := rfl
  rintro A n B rfl - ⟨hfar, -⟩
  have hn : n ∈ A ++ n :: B := by simp
  have hnear := hahead n hn
  have hslot : ahead n.pkt.countUs (slotBehind n) = n.postDelay.toNat + 62500 :=
    ahead_slotAfter (hok n hn)
  have hway : ahead timeUs (slotBehind n) =
      ahead timeUs n.pkt.countUs + ahead n.pkt.countUs (slotBehind n) :=
    ahead_eq_add (by omega)
  omega

/-- **An accepted class C packet departs ahead of now exactly if no stale slot comes first.** -/
theorem slotAhead_iff (hair : env.AirtimeBounded) (h : Reachable env q) :
    SlotAhead env q time p ↔ jitQueueIsFull q = true ∨
      NoStaleSlotFirst env q time.lowUs (packetPostDelay env p .downlinkClassC) := by
  have hmax : txMaxAdvanceDelay = 512000000 := rfl
  have hmin : (txStartDelay + txMarginDelay + txJitDelay).toNat = 32500 := by decide
  have hpost := packetPostDelay_le hair p .downlinkClassC
  have hok := (h.separated hair).ok
  unfold SlotAhead
  by_cases hfull : jitQueueIsFull q = true
  · have hrefused : (jitEnqueue env q time (some p) .downlinkClassC).error = .full := by
      unfold jitEnqueue
      simp [hfull]
    simp [hfull, hrefused]
  · replace hfull : jitQueueIsFull q = false := by simpa using hfull
    simp only [jitEnqueue_classC_ok_iff, jitEnqueue_packet_countUs hfull, hfull, true_and,
      Bool.false_eq_true, false_or]
    rcases departure_classC_cases env h.wf time.lowUs p with ⟨hfree, hdep⟩ |
      ⟨⟨m, hm, hhit⟩, n, hroom, hdep⟩
    · -- The ASAP time is free, and clear of every node by the weaker test, too.
      rw [hdep]
      have hclear : ∀ m ∈ q.live, slotOverlaps (asapCountUs env time.lowUs)
          (packetPostDelay env p .downlinkClassC) m = false :=
        fun m hm => slotOverlaps_of_slotCollides (hok m hm) hpost (hfree m hm)
      constructor
      · intro hahead
        refine ⟨fun _ => ?_, ?_⟩
        · by_contra hfar
          exact hfar (hahead ⟨by omega, hclear⟩).2
        · rintro ⟨m, hm, hhit⟩
          rw [hfree m hm] at hhit
          cases hhit
      · rintro ⟨hasap, -⟩ ⟨hlate, -⟩
        exact ⟨by omega, hasap hfree⟩
    · -- The search takes the slot behind the first node with room.
      rw [hdep]
      constructor
      · intro hahead
        refine ⟨fun hfree => ?_, fun _ => hroom.staleGapsCovered_iff.mpr ?_⟩
        · rw [hfree m hm] at hhit
          cases hhit
        · rintro ⟨hfar, hclear⟩
          have hnear := (hahead ⟨by omega, hclear⟩).2
          omega
      · rintro ⟨-, hgaps⟩ ⟨hlate, hclear⟩
        have hfirst := hroom.staleGapsCovered_iff.mp (hgaps ⟨m, hm, hhit⟩)
        refine ⟨by omega, ?_⟩
        by_contra hfar
        exact hfirst ⟨not_lt.mp hfar, hclear⟩

/-- One packet 50 ms late, one shortly after it and one at the ASAP time: there is no room behind
the late one, and the class C packet is placed behind the second. -/
theorem slotAhead_late_node :
    SlotAhead .reference (jitRun .reference
      [.enqueue (instant 0) (some (packetAt 1000000)) .downlinkClassA,
        .enqueue (instant 0) (some (packetAt 1110000)) .downlinkClassA,
        .enqueue (instant 0) (some (packetAt 2050000)) .downlinkClassA]) (instant 1050000)
      (packetAt 0) := by
  have hlive : (jitRun .reference
      [.enqueue (instant 0) (some (packetAt 1000000)) .downlinkClassA,
        .enqueue (instant 0) (some (packetAt 1110000)) .downlinkClassA,
        .enqueue (instant 0) (some (packetAt 2050000)) .downlinkClassA]).live =
      [⟨packetAt 1000000, .downlinkClassA, 31500, 41000⟩,
        ⟨packetAt 1110000, .downlinkClassA, 31500, 41000⟩,
        ⟨packetAt 2050000, .downlinkClassA, 31500, 41000⟩] := by decide +kernel
  refine (slotAhead_iff JitEnv.reference_airtimeBounded (reachable_jitRun _ _)).mpr
    (.inr ⟨by decide +kernel, fun _ => ?_⟩)
  rw [hlive]
  have hfirst : FirstRoom (packetPostDelay .reference (packetAt 0) .downlinkClassC)
      [⟨packetAt 1000000, .downlinkClassA, 31500, 41000⟩,
        ⟨packetAt 1110000, .downlinkClassA, 31500, 41000⟩,
        ⟨packetAt 2050000, .downlinkClassA, 31500, 41000⟩]
      ⟨packetAt 1110000, .downlinkClassA, 31500, 41000⟩ :=
    .later (by decide +kernel) (.here (by decide +kernel))
  rw [hfirst.staleGapsCovered_iff]
  exact fun hstale => absurd hstale.1 (by decide +kernel)

/-- **A class C packet can be accepted for a time that is past.**  Two class A packets are queued
for 1 s and 3 s, and the first one is overdue at 2 s: the ASAP time 3 s is taken, there is
room after the overdue node, and the packet is accepted for 1.1035 s. -/
theorem accepted_behind :
    let q := jitRun .reference [.enqueue (instant 0) (some (packetAt 1000000)) .downlinkClassA,
      .enqueue (instant 0) (some (packetAt 3000000)) .downlinkClassA]
    Reachable .reference q ∧
      (jitEnqueue .reference q (instant 2000000) (some (packetAt 0)) .downlinkClassC).error = .ok ∧
      (jitEnqueue .reference q (instant 2000000) (some (packetAt 0))
        .downlinkClassC).packet.countUs = 1103500 ∧
      ¬SlotAhead .reference q (instant 2000000) (packetAt 0) := by
  have hok : (jitEnqueue .reference (jitRun .reference
      [.enqueue (instant 0) (some (packetAt 1000000)) .downlinkClassA,
        .enqueue (instant 0) (some (packetAt 3000000)) .downlinkClassA]) (instant 2000000)
      (some (packetAt 0)) .downlinkClassC).error = .ok := by decide +kernel
  refine ⟨reachable_jitRun _ _, hok, by decide +kernel, ?_⟩
  intro hahead
  exact absurd (hahead hok).2 (by decide +kernel)

end Ahead

/-! ## After a complete purge -/

/-- Converting a `double` beyond `UINT32_MAX` wraps. -/
def JitEnv.ConversionWraps (env : JitEnv) : Prop := ∀ v, env.outOfRange v = BitVec.ofNat 32 v

/-- With a conversion that wraps, the ASAP time always lies one second ahead. -/
theorem ahead_asapCountUs (hwrap : env.ConversionWraps) (timeUs : U32) :
    ahead timeUs (asapCountUs env timeUs) = 1000000 := by
  have hasap : asapCountUs env timeUs = timeUs + 1000000#32 := by
    unfold asapCountUs JitEnv.f64ToU32
    rw [hwrap, ite_self, BitVec.ofNat_add, BitVec.ofNat_toNat, BitVec.setWidth_eq]
  rw [hasap, ahead, add_sub_cancel_left]
  rfl

section Fresh

variable {timeUs : U32} {l : List JitNode}

/-- A slot shortly after `n` is clear of a node at least as early. -/
theorem slotOverlaps_of_earlier {n m : JitNode} {post : U32} (hn : n.Ok) (hm : m.Ok)
    (hpost : post.toNat ≤ 100000000) (hclear : Clear m n ∨ m = n)
    (hmn : ahead timeUs m.pkt.countUs ≤ ahead timeUs n.pkt.countUs)
    (hfresh : ahead timeUs n.pkt.countUs < txMaxAdvanceDelay) :
    slotOverlaps (slotBehind n) post m = false := by
  have hmax : txMaxAdvanceDelay = 512000000 := rfl
  have hmargin : txMarginDelay.toNat = 1000 := rfl
  have hown : (packetPreDelay .downlinkClassC).toNat = 31500 := by decide
  have hnpost := hn.post
  have hmpost := hm.post
  have hmpre := hm.preDelay_le
  have htarget := targetPreDelay_le hm .downlinkClassC
  have hc : ahead n.pkt.countUs (slotBehind n) = n.postDelay.toNat + 62500 := ahead_slotAfter hn
  have hdist := ahead_eq_sub hmn
  have hway : ahead m.pkt.countUs (slotBehind n) =
      ahead m.pkt.countUs n.pkt.countUs + ahead n.pkt.countUs (slotBehind n) :=
    ahead_eq_add (by omega)
  have hne : m.pkt.countUs ≠ slotBehind n := by
    intro heq
    rw [← ahead_eq_zero] at heq
    omega
  have hturn := ahead_add_ahead hne
  unfold slotOverlaps
  rw [jitCollisionTest_eq_false (by omega) (by omega)]
  refine ⟨?_, by omega⟩
  rcases hclear with hclear | rfl
  · have := hclear.right
    omega
  · omega

/-- A slot after `n` that is clear of the next node is clear of a later one. -/
theorem slotOverlaps_of_later {n m k : JitNode} {post : U32} (hn : n.Ok) (hm : m.Ok) (hk : k.Ok)
    (hpost : post.toNat ≤ 100000000) (hclear : Clear n m)
    (hroom : slotCollides (slotBehind n) post m = false)
    (hnm : ahead timeUs n.pkt.countUs ≤ ahead timeUs m.pkt.countUs)
    (hmk : ahead timeUs m.pkt.countUs ≤ ahead timeUs k.pkt.countUs)
    (hfresh : ahead timeUs k.pkt.countUs < txMaxAdvanceDelay) :
    slotOverlaps (slotBehind n) post k = false := by
  have hmax : txMaxAdvanceDelay = 512000000 := rfl
  have hown : (packetPreDelay .downlinkClassC).toNat = 31500 := by decide
  have hkpost := hk.post
  have hc : ahead n.pkt.countUs (slotBehind n) = n.postDelay.toNat + 62500 := ahead_slotAfter hn
  obtain ⟨hbefore, hdist⟩ := slot_before_next hn hm hclear hc hpost hroom
  have hdnm := ahead_eq_sub hnm
  have hdnk := ahead_eq_sub (hnm.trans hmk)
  have hcm := ahead_eq_sub hbefore
  have hck : ahead (slotBehind n) k.pkt.countUs =
      ahead n.pkt.countUs k.pkt.countUs - ahead n.pkt.countUs (slotBehind n) :=
    ahead_eq_sub (by omega)
  have hne : slotBehind n ≠ k.pkt.countUs := by
    intro heq
    rw [← ahead_eq_zero] at heq
    omega
  have hturn := ahead_add_ahead hne
  -- next to a class C packet the guard of a beacon does not count
  have htarget : (targetPreDelay .downlinkClassC k).toNat ≤ 31500 := by
    unfold targetPreDelay
    split
    · decide
    · rename_i hnot
      rw [hk.pre]
      have hbeacon : k.pktType ≠ .beacon := fun h => hnot ⟨.inr rfl, h⟩
      revert hbeacon
      cases k.pktType <;> decide
  unfold slotOverlaps
  rw [jitCollisionTest_eq_false (by omega) (by omega)]
  omega

/-- **The slot found is clear of every live node.**  The nodes before it are further away than
the one it follows, the nodes after it further than the one it was tested against. -/
theorem FirstRoom.clear {post : U32} {n : JitNode} (hsep : Separated l)
    (hasc : CmpOrder.Ascending compare l) (hfresh : AllFresh timeUs l)
    (hpost : post.toNat ≤ 100000000) (h : FirstRoom post l n) :
    ∀ m ∈ l, slotOverlaps (slotBehind n) post m = false := by
  obtain ⟨A, B, rfl, hnext, -⟩ := h.split
  have hn : n.Ok := hsep.ok n (by simp)
  have hle : ∀ {a b : JitNode}, a ∈ A ++ n :: B → b ∈ A ++ n :: B → compare a b ≤ 0 →
      ahead timeUs a.pkt.countUs ≤ ahead timeUs b.pkt.countUs := by
    intro a b ha hb hab
    rw [hfresh.comparesAhead a ha b hb] at hab
    omega
  obtain ⟨-, hnB, hAn⟩ := List.pairwise_append.mp hasc
  obtain ⟨-, hcnB, hcAn⟩ := List.pairwise_append.mp hsep.clear
  obtain ⟨hnB, hBB⟩ := List.pairwise_cons.mp hnB
  obtain ⟨hcnB, -⟩ := List.pairwise_cons.mp hcnB
  intro k hk
  rcases List.mem_append.mp hk with hkA | hkB
  · exact slotOverlaps_of_earlier hn (hsep.ok k hk) hpost (.inl (hcAn k hkA n (by simp)))
      (hle hk (by simp) (hAn k hkA n (by simp))) (hfresh n (by simp))
  · rcases List.mem_cons.mp hkB with rfl | hkB
    · exact slotOverlaps_of_earlier hn hn hpost (.inr rfl) le_rfl (hfresh k hk)
    · cases B with
      | nil => cases hkB
      | cons m B =>
        have hm : m ∈ A ++ n :: m :: B := by simp
        have hmk : ahead timeUs m.pkt.countUs ≤ ahead timeUs k.pkt.countUs := by
          rcases List.mem_cons.mp hkB with rfl | hkB'
          · exact le_rfl
          · exact hle hm hk ((List.pairwise_cons.mp hBB).1 k hkB')
        exact slotOverlaps_of_later hn (hsep.ok m hm) (hsep.ok k hk) hpost (hcnB m (by simp))
          (hnext m rfl) (hle (by simp) hm (hnB m (by simp))) hmk (hfresh k hk)

end Fresh

/-- **After a complete purge a class C packet is never refused**, as long as there is a free cell:
its slot is far enough ahead of now, and clear of every live node. -/
theorem classC_accepted (hair : env.AirtimeBounded) (hs : env.QsortSorts)
    (hwrap : env.ConversionWraps) (h : Reachable env q) {time : Timeval} {p : LgwPktTx}
    (hroom : q.numPkt.toNat < jitQueueMax) (hfresh : AllFresh time.lowUs q.live) :
    (jitEnqueue env q time (some p) .downlinkClassC).error = .ok := by
  have hmax : txMaxAdvanceDelay = 512000000 := rfl
  have hpost := packetPostDelay_le hair p .downlinkClassC
  have hsep := h.separated hair
  have hasc := h.sorted hs hfresh.comparesAhead.orderOn
  have hfull : jitQueueIsFull q = false := by
    rw [← Bool.not_eq_true, jitQueueIsFull_iff]
    simp only [jitQueueMax] at hroom
    omega
  rw [jitEnqueue_classC_ok_iff]
  refine ⟨hfull, ?_⟩
  rcases departure_classC_cases env h.wf time.lowUs p with ⟨hfree, hdep⟩ | ⟨-, n, hn, hdep⟩
  · rw [hdep, ahead_asapCountUs hwrap]
    exact ⟨by decide, fun m hm => slotOverlaps_of_slotCollides (hsep.ok m hm) hpost (hfree m hm)⟩
  · rw [hdep]
    refine ⟨?_, hn.clear hsep hasc hfresh hpost⟩
    obtain ⟨A, B, hl, -⟩ := hn.split
    have hmem : n ∈ q.live := by simp [hl]
    have hnpost := (hsep.ok n hmem).post
    have hnear := hfresh n hmem
    have hc : ahead n.pkt.countUs (slotBehind n) = n.postDelay.toNat + 62500 :=
      ahead_slotAfter (hsep.ok n hmem)
    have hway : ahead time.lowUs (slotBehind n) =
        ahead time.lowUs n.pkt.countUs + ahead n.pkt.countUs (slotBehind n) :=
      ahead_eq_add (by omega)
    omega

/-- The concrete environment with a conversion that wraps. -/
def JitEnv.wrapping : JitEnv := { JitEnv.reference with outOfRange := BitVec.ofNat 32 }

theorem JitEnv.wrapping_airtimeBounded : wrapping.AirtimeBounded := reference_airtimeBounded

theorem JitEnv.wrapping_qsortSorts : wrapping.QsortSorts := reference_qsortSorts

/-- A class C packet while a class A packet lies inside the guard of a beacon, and both around
the ASAP time. -/
theorem classC_accepted_inside_guard :
    (jitEnqueue .wrapping (jitRun .wrapping
      [.enqueue (instant 0) (some (packetAt 10000000)) .beacon,
        .enqueue (instant 0) (some (packetAt 9000000)) .downlinkClassA]) (instant 8000000)
      (some (packetAt 0)) .downlinkClassC).error = .ok :=
  classC_accepted JitEnv.wrapping_airtimeBounded JitEnv.wrapping_qsortSorts (fun _ => rfl)
    (reachable_jitRun _ _) (by decide +kernel) (by unfold AllFresh; decide +kernel)

end PacketForwarder
