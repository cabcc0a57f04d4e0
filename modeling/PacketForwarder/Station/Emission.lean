import PacketForwarder.Station

/-!
# What is emitted was asked for

Two things hold of the station in every interleaving of its threads.

* `Answered` — the server learns the truth: each `TX_ACK` is for a `PULL_RESP` of its own, in
  order, and one without an error stands for a packet in the queue, which is permitted and
  the one that was asked for;
* `Traced` — no packet is emitted twice: what is in the array or was taken out of it is, blank
  packets apart, among what was put in;
* `emits_only_admitted` — both, for what is passed to `lgw_send`.

The array is looked at as a whole, dead cells included: an index that is no longer live may
be dequeued, which takes a blank packet or one that was lost earlier.
-/

namespace PacketForwarder

/-! ## Packets in the array -/

/-- What a blank cell stands for. -/
def blank : Entry := JitNode.zero.entry

/-- The packets in all cells of the array. -/
def cellEntries (q : JitQueue) : Multiset Entry := q.nodes.cells.map JitNode.entry

/-- All packets but the blank ones. -/
def written (l : Multiset Entry) : Multiset Entry := l.filter (· ≠ blank)

@[simp] theorem written_add (l l' : Multiset Entry) : written (l + l') = written l + written l' :=
  Multiset.filter_add _ _ _

theorem written_le (l : Multiset Entry) : written l ≤ l := Multiset.filter_le _ _

theorem written_mono {l l' : Multiset Entry} (h : l ≤ l') : written l ≤ written l' :=
  Multiset.filter_le_filter _ h

@[simp] theorem written_blank_cons (l : Multiset Entry) : written (blank ::ₘ l) = written l :=
  Multiset.filter_cons_of_neg _ (by simp)

theorem cellEntries_insertNode_le (env : JitEnv) {q : JitQueue} (hq : q.numPkt.toNat < 32)
    (n : JitNode) : cellEntries (insertNode env q n) ≤ n.entry ::ₘ cellEntries q := by
  have hlen : q.numPkt.toNat < q.nodes.cells.length := by
    rw [q.nodes.length_cells]
    exact hq
  have hsort : cellEntries (insertNode env q n) =
      ((q.nodes.cells.set q.numPkt.toNat n).map JitNode.entry : List Entry) :=
    Multiset.coe_eq_coe.mpr ((cells_insertNode_perm env hq n).map _)
  have hset : (q.nodes.cells[q.numPkt.toNat].entry ::ₘ
      ((q.nodes.cells.set q.numPkt.toNat n).map JitNode.entry : List Entry) : Multiset Entry) =
        n.entry ::ₘ cellEntries q :=
    Multiset.coe_eq_coe.mpr ((Slots.cons_set_perm hlen n).map JitNode.entry)
  rw [hsort, ← hset]
  exact Multiset.le_cons_self _ _

theorem cellEntries_removeNode (env : JitEnv) {q : JitQueue} (hw : q.Wf)
    (hq : 0 < q.numPkt.toNat) {i : ℕ} (hi : i < 32) :
    (q.node env i).entry ::ₘ cellEntries (removeNode env q i) = blank ::ₘ cellEntries q := by
  have hle : q.numPkt.toNat ≤ 32 := hw
  have hlast : q.numPkt.toNat - 1 < 32 := by omega
  have hnode : q.node env i = q.nodes.getD i .zero := by
    rw [JitQueue.node, ← Slots.getElem_live q.nodes (m := 32) (by simpa using hi),
      Slots.getElem_live]
  have hsort : cellEntries (removeNode env q i) =
      ((q.nodes.removeSwap .zero i (q.numPkt.toNat - 1)).cells.map JitNode.entry : List Entry) :=
    Multiset.coe_eq_coe.mpr ((cells_removeNode_perm env hw hq i).map _)
  rw [hsort, hnode]
  exact Multiset.coe_eq_coe.mpr ((q.nodes.removeSwap_perm .zero hi hlast).map JitNode.entry)

/-- A peek writes nothing into the array but blank cells. -/
theorem written_jitPeekScan_le (env : JitEnv) {q : JitQueue} (hw : q.Wf) (timeUs : U32) :
    written (cellEntries (jitPeekScan env q timeUs).queue) ≤ written (cellEntries q) := by
  let I : PeekScan → Prop := fun s =>
    s.queue.Wf ∧ written (cellEntries s.queue) ≤ written (cellEntries q)
  have h₀ : I ⟨q, 0, -1, []⟩ := ⟨hw, le_rfl⟩
  refine (jitPeekScan_invariant h₀ ?_).2
  rintro s ⟨hsw, hle⟩ hi
  rcases jitPeekBody_cases env timeUs s with ⟨-, hq, -⟩ | ⟨-, hq, -⟩
  · have hcell : s.i < 32 := lt_of_lt_of_le hi hsw
    have hrem := congrArg written (cellEntries_removeNode env hsw (by omega) hcell)
    rw [written_blank_cons] at hrem
    show _ ∧ _
    rw [hq]
    refine ⟨wf_removeNode hsw (by omega) _, le_trans ?_ hle⟩
    rw [← hrem]
    exact written_mono (Multiset.le_cons_self _ _)
  · show _ ∧ _
    rw [hq]
    exact ⟨hsw, hle⟩

/-- The array of the queue is blank at first. -/
theorem written_jitQueueInit : written (cellEntries jitQueueInit) = 0 := by
  have hcells : cellEntries jitQueueInit = Multiset.replicate jitQueueMax blank := by
    rw [← Multiset.coe_replicate]
    exact congrArg _ (List.map_replicate ..)
  rw [hcells, written, Multiset.filter_eq_nil]
  intro e he
  rw [Multiset.eq_of_mem_replicate he]
  simp

/-! ## What `thread_down` has at hand -/

/-- The datagram `thread_down` has at hand. -/
def DownPoint.current : DownPoint → List (List U8)
  | .receiving | .ended => []
  | .received msg | .beacons msg | .beaconTested _ _ msg | .handling msg => msg.toList
  | .offering buff _ _ | .offerTested buff _ _ | .answering buff _ => [buff]

/-- The datagram that `thread_down` is going to answer. -/
def DownPoint.pending : DownPoint → List (List U8)
  | .offering buff _ _ | .offerTested buff _ _ | .answering buff _ => [buff]
  | _ => []

/-- The datagram whose packet is in the queue, while its `TX_ACK` is still to be sent. -/
def DownPoint.owed : DownPoint → List (List U8)
  | .answering buff .ok => [buff]
  | _ => []

/-- The datagram an answer is sent as. -/
def Answer.datagram (g : Gateway) (a : Answer) : List U8 :=
  txAck g (byteAt a.buff 1) (byteAt a.buff 2) a.error

/-! ## What a step does to the packets -/

/-- What was dequeued, as the packet and its class. -/
def Dequeued.entry (d : Dequeued) : Entry := (d.pkt, d.pktType)

namespace Station

variable {c : BeaconConf} {env : DownEnv} {g : Gateway} {b : BeaconState}

/-- What was put into the queue. -/
def admittedEntries (s : Station) : Multiset Entry := s.admitted.map Admission.entry

/-- What was taken out of it to be sent. -/
def takenEntries (s : Station) : Multiset Entry := s.taken.map Dequeued.entry

/-- The packets nothing has happened to. -/
structure SamePackets (s s' : Station) : Prop where
  queue : s'.queue = s.queue
  admitted : s'.admitted = s.admitted
  taken : s'.taken = s.taken
  purged : s'.purged = s.purged

/-- A packet has been put into the queue, for a datagram or as a beacon. -/
structure PutIn (env : DownEnv) (s s' : Station) (request : Option (List U8)) (n : JitNode) :
    Prop where
  room : s.queue.numPkt.toNat < 32
  queue : s'.queue = insertNode env.jit s.queue n
  admitted : s'.admitted = s.admitted ++ [⟨n.entry, request⟩]
  taken : s'.taken = s.taken
  purged : s'.purged = s.purged

/-- The queue has been scanned by a peek, which may have dropped packets. -/
structure Scanned (env : DownEnv) (s s' : Station) (time : Timeval) : Prop where
  pc : s.pc = .peekTested
  queue : s'.queue = (jitPeekScan env.jit s.queue time.lowUs).queue
  admitted : s'.admitted = s.admitted
  taken : s'.taken = s.taken
  purged : s'.purged = s.purged + (agenda s.queue - agenda s'.queue).map (·, time)

/-- The packet at an index has been taken out. -/
structure TakenOut (env : DownEnv) (s s' : Station) (k : ℕ) : Prop where
  pc : s.pc = .dequeueTested k
  queue : s'.queue = removeNode env.jit s.queue k
  admitted : s'.admitted = s.admitted
  taken : s'.taken = s.taken ++
    [⟨(s.queue.node env.jit k).pkt, (s.queue.node env.jit k).pktType⟩]
  purged : s'.purged = s.purged

theorem SamePackets.refl (s : Station) : SamePackets s s := ⟨rfl, rfl, rfl, rfl⟩

/-- The caller's packet is left as it is, or would be, in the queue. -/
theorem jitEnqueueLocked_packet (env : JitEnv) (q : JitQueue) (time : Timeval) (p : LgwPktTx)
    (t : JitPktType) :
    (jitEnqueueLocked env q time p t).packet = (nodeFor env q time.lowUs p t).pkt := by
  unfold jitEnqueueLocked
  simp only
  split
  · rfl
  · split
    · rfl
    · split <;> rfl

/-- `insert` puts a packet in, or changes nothing. -/
theorem insert_cases (env : DownEnv) (s : Station) (hroom : s.queue.numPkt.toNat < 32)
    (time : Timeval) (p : LgwPktTx) (t : JitPktType) (request : Option (List U8)) :
    let r := jitEnqueueLocked env.jit s.queue time p t
    (r.error = .ok ∧ PutIn env s (s.insert env.jit time p t request) request
        (nodeFor env.jit s.queue time.lowUs p t)) ∨
      (r.error ≠ .ok ∧ SamePackets s (s.insert env.jit time p t request)) := by
  intro r
  unfold insert
  rcases jitEnqueueLocked_cases env.jit s.queue time p t with ⟨hok, -, hq⟩ | ⟨herr, hq⟩
  · refine .inl ⟨hok, hroom, hq, ?_, rfl, rfl⟩
    simp only [if_pos hok]
    rw [jitEnqueueLocked_packet]
    rfl
  · refine .inr ⟨herr, hq, ?_, rfl, rfl⟩
    simp only [if_neg herr]

/-- **The steps by their effect on the packets.** -/
theorem Step.packets {s s' : Station} {l : Label} {t : System} (hf : Follows s t)
    (hc : CountersOk t) (hst : Step c env s l s') :
    SamePackets s s' ∨ (∃ request n, PutIn env s s' request n) ∨
      (∃ time, l = .jit (.peek time) ∧ Scanned env s s' time) ∨ ∃ k, TakenOut env s s' k := by
  have hroom : t.down.Inserting → s.queue.numPkt.toNat < 32 := by
    rw [← hf.queue]
    exact hc.room
  have hdown := hf.down
  cases hst with
  | @beaconInsert msg tref tested time hd =>
    rw [hd] at hdown
    rcases insert_cases env s (hroom (by rw [hdown]; trivial)) time
      (nextBeacon c env.lgwGps2cnt s.beacons tref) .beacon none with
      ⟨-, hroom', hq, hadm, htak, hpur⟩ | ⟨-, hq, hadm, htak, hpur⟩
    · exact .inr (.inl ⟨none, _, hroom', hq, hadm, htak, hpur⟩)
    · exact .inl ⟨hq, hadm, htak, hpur⟩
  | @offerInsert buff txpkt type time hd =>
    rw [hd] at hdown
    rcases insert_cases env s (hroom (by rw [hdown]; trivial)) time txpkt type
      (some buff) with ⟨-, hroom', hq, hadm, htak, hpur⟩ | ⟨-, hq, hadm, htak, hpur⟩
    · exact .inr (.inl ⟨some buff, _, hroom', hq, hadm, htak, hpur⟩)
    · exact .inl ⟨hq, hadm, htak, hpur⟩
  | @handle msg hd =>
    obtain ⟨g, point, heq, hg, -⟩ := handle_cases env s msg
    rw [heq]
    exact .inl ⟨hg, rfl, rfl, rfl⟩
  | @jit l x hl ht =>
    have hsame : ∀ {x : TxThread}, x.queue = s.queue → x.taken = s.taken →
        purgedBy s.queue x.queue l = 0 →
        SamePackets s { s.withTx x with purged := s.purged + purgedBy s.queue x.queue l } :=
      fun hq htak hpur => ⟨hq, rfl, htak, by rw [hpur]; exact add_zero _⟩
    cases ht with
    | interfere => exact absurd rfl (hl _)
    | peekNone hpc hk hneg => exact .inr (.inr (.inl ⟨_, rfl, hpc, rfl, rfl, rfl, rfl⟩))
    | peek hpc hk hpos => exact .inr (.inr (.inl ⟨_, rfl, hpc, rfl, rfl, rfl, rfl⟩))
    | @dequeue k d hpc hd =>
      refine .inr (.inr (.inr ⟨k, hpc, rfl, rfl, ?_, add_zero _⟩))
      show s.taken ++ [d] = _
      have hout : (s.queue.node env.jit k).pkt = d.pkt ∧
          (s.queue.node env.jit k).pktType = d.pktType := Prod.mk.inj (Option.some.inj hd)
      rw [hout.1, hout.2]
    | _ => exact .inl (hsame rfl rfl rfl)
  | _ => exact .inl ⟨rfl, rfl, rfl, rfl⟩

/-! ## No packet twice -/

/-- What is in the array or was taken out was put in, as often as it is there. -/
def Traced (s : Station) : Prop :=
  written (cellEntries s.queue + s.takenEntries) ≤ s.admittedEntries

/-- **Every step keeps track of the packets**: what it takes out was there, and what it puts in is
admitted. -/
theorem Traced.step {s s' : Station} {l : Label} {t : System} (h : Traced s) (hf : Follows s t)
    (hc : CountersOk t) (hst : Step c env s l s') : Traced s' := by
  have hw : s.queue.Wf := by
    rw [← hf.queue]
    exact hc.wf
  unfold Traced at h ⊢
  rw [written_add] at h ⊢
  unfold takenEntries admittedEntries at h ⊢
  rcases hst.packets hf hc with ⟨hq, hadm, htak, -⟩ | ⟨request, n, hroom, hq, hadm, htak, -⟩ |
    ⟨time, -, -, hq, hadm, htak, -⟩ | ⟨k, hpc, hq, hadm, htak, -⟩
  · rw [hq, hadm, htak]
    exact h
  · have hins : written (cellEntries (insertNode env.jit s.queue n)) ≤
        {n.entry} + written (cellEntries s.queue) := by
      refine (written_mono (cellEntries_insertNode_le env.jit hroom n)).trans ?_
      rw [← Multiset.singleton_add, written_add]
      exact add_le_add (written_le _) le_rfl
    rw [hq, hadm, htak, List.map_append, ← Multiset.coe_add]
    calc _ ≤ {n.entry} + written (cellEntries s.queue) +
          written (s.taken.map Dequeued.entry : List Entry) := add_le_add hins le_rfl
      _ = {n.entry} + (written (cellEntries s.queue) +
          written (s.taken.map Dequeued.entry : List Entry)) := add_assoc _ _ _
      _ ≤ {n.entry} + (s.admitted.map Admission.entry : List Entry) := add_le_add le_rfl h
      _ = _ := add_comm _ _
  · rw [hq, hadm, htak]
    exact (add_le_add (written_jitPeekScan_le env.jit hw _) le_rfl).trans h
  · have hjit := hf.jit
    rw [hpc] at hjit
    obtain ⟨n, time, hjit⟩ := hjit
    have hpos : 0 < s.queue.numPkt.toNat := by
      rw [← hf.queue]
      exact hc.present (by rw [hjit]; trivial)
    have hrem := congrArg written
      (cellEntries_removeNode env.jit hw hpos (hc.inside k n time hjit))
    rw [written_blank_cons, ← Multiset.singleton_add, written_add] at hrem
    rw [hq, hadm, htak, List.map_append, ← Multiset.coe_add, written_add]
    refine le_trans (le_of_eq ?_) h
    rw [← hrem, List.map_singleton, Multiset.coe_singleton, add_comm (written (_ : List Entry)),
      ← add_assoc, add_comm (written (cellEntries _))]
    rfl

/-- Nor is one emitted twice, in any run. -/
theorem traced_of_reaches {ok : Station → Label → Prop} {s : Station}
    (h : Runs.Reaches (Step c env) ok (start g b) s) : Traced s := by
  have h₀ : Traced (start g b) := by
    unfold Traced
    rw [written_add]
    show written (cellEntries jitQueueInit) + written 0 ≤ 0
    rw [written_jitQueueInit]
    exact le_rfl
  refine h.invariant h₀ ?_
  intro s l s' hr htr _ hst
  obtain ⟨t, hf, hc⟩ := exists_counted hr
  exact htr.step hf hc hst

/-! ## The answers -/

/-- The packet is the one a `PULL_RESP` asks for, and it is permitted. -/
structure Asked (env : DownEnv) (g : Gateway) (buff : List U8) (p : LgwPktTx) (t : JitPktType) :
    Prop where
  isPullResp : IsPacket pktPullResp buff
  requested : ∃ g', SameSettings g g' ∧ requested env g' buff = .ok (p, t)
  permitted : Permitted g p

/-- Why a packet is in the queue. -/
def Justified (env : DownEnv) (g : Gateway) (a : Admission) : Prop :=
  match a.request with
  | none => a.entry.2 = .beacon
  | some buff => ∃ p, Asked env g buff p a.entry.2 ∧ GivenAs p a.entry.1 a.entry.2

/-- The datagrams that were answered without an error. -/
def accepted (s : Station) : List (List U8) :=
  (s.answers.filter fun a => a.error = .ok).map Answer.buff

/-- **The server learns the truth** from the acknowledgements, as far as the station has come. -/
structure Answered (env : DownEnv) (g : Gateway) (s : Station) : Prop where
  settings : SameSettings g s.gateway
  /-- Each answer is for a datagram of its own, in order. -/
  inOrder : (s.answers.map Answer.buff ++ s.down.current).Sublist s.received
  /-- Only a `PULL_RESP` is answered, with an error or without. -/
  isPullResp : ∀ buff ∈ s.answers.map Answer.buff ++ s.down.pending, IsPacket pktPullResp buff
  sent : s.sent = s.answers.map (Answer.datagram g)
  /-- A packet is in the queue exactly if the answer has no error. -/
  admitted : s.admitted.filterMap Admission.request = s.accepted ++ s.down.owed
  justified : ∀ a ∈ s.admitted, Justified env g a
  /-- A packet that is about to be offered was asked for. -/
  offered : ∀ buff p t, s.down = .offering buff p t ∨ s.down = .offerTested buff p t →
    Asked env g buff p t

theorem permitted_of_sameSettings {g g' : Gateway} (h : SameSettings g g') {p : LgwPktTx}
    (hp : Permitted g' p) : Permitted g p := by
  refine ⟨?_, ?_, ?_⟩
  · rw [← h.txFreqMin]
    exact hp.low
  · rw [← h.txFreqMax]
    exact hp.high
  · rw [← h.txlut]
    exact hp.power

/-- The queue changes neither frequency nor power. -/
theorem permitted_of_givenAs {p p' : LgwPktTx} {t : JitPktType} (h : GivenAs p p' t)
    (hp : Permitted g p) : Permitted g p' := by
  unfold GivenAs at h
  split at h
  · rw [h]
    exact ⟨hp.low, hp.high, hp.power⟩
  · rw [h]
    exact hp

/-- An answer is the same from every gateway with these settings. -/
theorem txAck_of_sameSettings {g g' : Gateway} (h : SameSettings g g') (tokenH tokenL : U8)
    (error : JitError) : txAck g' tokenH tokenL error = txAck g tokenH tokenL error := by
  unfold txAck
  rw [h.netMac]

/-- An answer with an error stands for no packet. -/
theorem owed_answering {buff : List U8} {error : JitError} (h : error ≠ .ok) :
    (DownPoint.answering buff error).owed = [] := by
  cases error with
  | ok => exact absurd rfl h
  | _ => rfl

/-- What is answered and what is going to be, when there are no new answers. -/
theorem Answered.isPullResp_of {s s' : Station} (h : Answered env g s)
    (hpending : ∀ buff ∈ s'.down.pending, buff ∈ s.down.pending ∨ IsPacket pktPullResp buff)
    (hanswers : s'.answers = s.answers) :
    ∀ buff ∈ s'.answers.map Answer.buff ++ s'.down.pending, IsPacket pktPullResp buff := by
  rw [hanswers]
  intro buff hbuff
  rcases List.mem_append.mp hbuff with hanswer | hbuff
  · exact h.isPullResp buff (List.mem_append_left _ hanswer)
  · rcases hpending buff hbuff with hold | hresp
    · exact h.isPullResp buff (List.mem_append_right _ hold)
    · exact hresp

/-- `thread_down` goes on, with the same answers and the same packets. -/
theorem Answered.move {s s' : Station} (h : Answered env g s)
    (hsettings : SameSettings s.gateway s'.gateway)
    (hcurrent : s'.down.current.Sublist s.down.current) (howed : s'.down.owed = s.down.owed)
    (hpending : ∀ buff ∈ s'.down.pending, buff ∈ s.down.pending ∨ IsPacket pktPullResp buff)
    (hoffered : ∀ buff p t, s'.down = .offering buff p t ∨ s'.down = .offerTested buff p t →
      Asked env g buff p t)
    (hreceived : s'.received = s.received) (hsent : s'.sent = s.sent)
    (hanswers : s'.answers = s.answers) (hadmitted : s'.admitted = s.admitted) :
    Answered env g s' where
  settings := h.settings.trans hsettings
  inOrder := by
    rw [hanswers, hreceived]
    exact (hcurrent.append_left _).trans h.inOrder
  isPullResp := h.isPullResp_of hpending hanswers
  sent := by
    rw [hsent, hanswers]
    exact h.sent
  admitted := by
    rw [hadmitted, howed, accepted, hanswers]
    exact h.admitted
  justified := by
    rw [hadmitted]
    exact h.justified
  offered := hoffered

/-- A packet that is justified is put in. -/
theorem Answered.putIn {s s' : Station} (h : Answered env g s) {request : Option (List U8)}
    {n : JitNode} (hin : PutIn env s s' request n) (hjustified : Justified env g ⟨n.entry, request⟩)
    (hsettings : SameSettings s.gateway s'.gateway) (howed : s.down.owed = [])
    (hcurrent : s'.down.current.Sublist s.down.current) (howed' : s'.down.owed = request.toList)
    (hpending : ∀ buff ∈ s'.down.pending, buff ∈ s.down.pending ∨ IsPacket pktPullResp buff)
    (hoffered : ∀ buff p t, s'.down = .offering buff p t ∨ s'.down = .offerTested buff p t →
      Asked env g buff p t)
    (hreceived : s'.received = s.received) (hsent : s'.sent = s.sent)
    (hanswers : s'.answers = s.answers) : Answered env g s' where
  settings := h.settings.trans hsettings
  inOrder := by
    rw [hanswers, hreceived]
    exact (hcurrent.append_left _).trans h.inOrder
  isPullResp := h.isPullResp_of hpending hanswers
  sent := by
    rw [hsent, hanswers]
    exact h.sent
  admitted := by
    have hnew : [Admission.mk n.entry request].filterMap Admission.request = request.toList := by
      cases request <;> rfl
    rw [hin.admitted, List.filterMap_append, h.admitted, howed, howed', hnew, List.append_nil,
      accepted, accepted, hanswers]
  justified := by
    rw [hin.admitted]
    exact List.forall_mem_append.mpr ⟨h.justified, List.forall_mem_singleton.mpr hjustified⟩
  offered := hoffered

/-- The datagram at hand is answered: it goes from the pending ones to the answered ones, at the
same place. -/
theorem Answered.answer {s : Station} (h : Answered env g s) {buff : List U8} {error : JitError}
    (hd : s.down = .answering buff error) : Answered env g (s.answer buff error) := by
  have horder := h.inOrder
  have hadmitted := h.admitted
  have hresp := h.isPullResp
  rw [hd] at horder hadmitted hresp
  refine ⟨h.settings.trans ⟨rfl, rfl, rfl, rfl, rfl, rfl⟩, ?_, ?_, ?_, ?_, h.justified,
    by simp [Station.answer]⟩
  · show (((s.answers ++ [_]).map Answer.buff) ++ []).Sublist s.received
    rw [List.map_append, List.append_nil]
    exact horder
  · show ∀ x ∈ (s.answers ++ [(⟨buff, error⟩ : Answer)]).map Answer.buff ++ [], _
    rw [List.map_append, List.append_nil]
    exact hresp
  · show s.sent ++ [txAck s.gateway _ _ _] = (s.answers ++ [_]).map _
    rw [List.map_append, h.sent, txAck_of_sameSettings h.settings]
    rfl
  · show s.admitted.filterMap _ = accepted { s with answers := s.answers ++ [_] } ++ []
    rw [hadmitted, List.append_nil, accepted, accepted, List.filter_append, List.map_append]
    congr 1
    cases error <;> rfl

/-- The datagram at hand is handled: it is passed over, or it is a `PULL_RESP` that is refused at
once or offered to the queue. -/
theorem Answered.handle {s : Station} (h : Answered env g s) {msg : Option (List U8)}
    (hd : s.down = .handling msg) : Answered env g (s.handle env msg) := by
  obtain ⟨g', point, heq, -, hsettings, hpoint⟩ := handle_cases env s msg
  rw [heq]
  have howed : s.down.owed = [] := by
    rw [hd]
    rfl
  have hcurrent : s.down.current = msg.toList := by
    rw [hd]
    rfl
  rcases hpoint with rfl | rfl |
    ⟨buff, rfl, hresp, rfl | ⟨txpkt, type, hreq, ⟨rfl, hok⟩ | ⟨rfl, herr⟩⟩⟩
  · exact h.move hsettings (List.nil_sublist _) howed.symm (by simp [DownPoint.pending])
      (by simp) rfl rfl rfl rfl
  · exact h.move hsettings (List.nil_sublist _) howed.symm (by simp [DownPoint.pending])
      (by simp) rfl rfl rfl rfl
  · exact h.move hsettings (by rw [hcurrent]; exact .refl _) howed.symm
      (by simpa [DownPoint.pending] using .inr hresp) (by simp) rfl rfl rfl rfl
  · refine h.move hsettings (by rw [hcurrent]; exact .refl _) howed.symm
      (by simpa [DownPoint.pending] using .inr hresp) ?_ rfl rfl rfl rfl
    rintro _ _ _ (⟨⟨⟩⟩ | ⟨⟨⟩⟩)
    exact ⟨hresp, ⟨s.gateway, h.settings, hreq⟩,
      permitted_of_sameSettings h.settings (permitted_of_txError hok)⟩
  · exact h.move hsettings (by rw [hcurrent]; exact .refl _)
      ((owed_answering herr).trans howed.symm)
      (by simpa [DownPoint.pending] using .inr hresp) (by simp) rfl rfl rfl rfl

/-- **Every step of either thread keeps the answers true.** -/
theorem Answered.step {s s' : Station} {l : Label} {t : System} (h : Answered env g s)
    (hf : Follows s t) (hc : CountersOk t) (hst : Step c env s l s') : Answered env g s' := by
  -- Whoever is about to insert has tested the queue, and it has not grown since.
  have hroom : t.down.Inserting → s.queue.numPkt.toNat < 32 := by
    rw [← hf.queue]
    exact hc.room
  have hdown := hf.down
  have hkept : SameSettings s.gateway s.gateway := .refl _
  have hpending : ∀ buff ∈ s.down.pending, buff ∈ s.down.pending ∨ IsPacket pktPullResp buff :=
    fun _ h => .inl h
  cases hst with
  | pullData hd =>
    exact h.move ⟨rfl, rfl, rfl, rfl, rfl, rfl⟩ (.refl _) rfl hpending h.offered rfl rfl rfl rfl
  | @receive msg hd =>
    have horder := h.inOrder
    have hadmitted := h.admitted
    have hresp := h.isPullResp
    rw [hd] at horder hadmitted hresp
    rw [DownPoint.current, List.append_nil] at horder
    exact ⟨h.settings, horder.append (.refl _), hresp, h.sent, hadmitted, h.justified, by simp⟩
  | enterBeacons hd | leaveBeacons hd | beaconTest hd =>
    exact h.move hkept (by rw [hd]; exact .refl _) (by rw [hd]; rfl) (by simp [DownPoint.pending])
      (by simp) rfl rfl rfl rfl
  | beaconFull hd => exact h.move hkept (.refl _) rfl hpending h.offered rfl rfl rfl rfl
  | @beaconInsert msg tref tested time hd =>
    rw [hd] at hdown
    rcases insert_cases env s (hroom (by rw [hdown]; trivial)) time
      (nextBeacon c env.lgwGps2cnt s.beacons tref) .beacon none with
      ⟨-, hroom', hq, hadm, htak, hpur⟩ | ⟨-, hsame⟩
    · exact h.putIn ⟨hroom', hq, hadm, htak, hpur⟩ rfl
        ⟨rfl, rfl, rfl, rfl, rfl, rfl⟩ (by rw [hd]; rfl) (by rw [hd]; exact .refl _) rfl
        (by simp [DownPoint.pending]) (by simp) rfl rfl rfl
    · exact h.move ⟨rfl, rfl, rfl, rfl, rfl, rfl⟩ (by rw [hd]; exact .refl _) (by rw [hd]; rfl)
        (by simp [DownPoint.pending]) (by simp) rfl rfl rfl hsame.admitted
  | handle hd => exact h.handle hd
  | offerFull hd =>
    exact h.move ⟨rfl, rfl, rfl, rfl, rfl, rfl⟩ (by rw [hd]; exact .refl _) (by rw [hd]; rfl)
      (by rw [hd]; exact fun _ h => .inl h) (by simp) rfl rfl rfl rfl
  | offerTest hd =>
    refine h.move hkept (by rw [hd]; exact .refl _) (by rw [hd]; rfl)
      (by rw [hd]; exact fun _ h => .inl h) ?_ rfl rfl rfl rfl
    rintro _ _ _ (⟨⟨⟩⟩ | ⟨⟨⟩⟩)
    exact h.offered _ _ _ (.inl hd)
  | @offerInsert buff txpkt type time hd =>
    rw [hd] at hdown
    have hasked := h.offered _ _ _ (.inr hd)
    rcases insert_cases env s (hroom (by rw [hdown]; trivial)) time txpkt type (some buff) with
      ⟨hok, hroom', hq, hadm, htak, hpur⟩ | ⟨herr, hsame⟩
    · rw [hok]
      exact h.putIn ⟨hroom', hq, hadm, htak, hpur⟩ ⟨txpkt, hasked, givenAs_scheduled _ _ _⟩
        ⟨rfl, rfl, rfl, rfl, rfl, rfl⟩ (by rw [hd]; rfl) (by rw [hd]; exact .refl _) rfl
        (by rw [hd]; exact fun _ h => .inl h) (by simp) rfl rfl rfl
    · exact h.move ⟨rfl, rfl, rfl, rfl, rfl, rfl⟩ (by rw [hd]; exact .refl _)
        ((owed_answering herr).trans (by rw [hd]; rfl))
        (by rw [hd]; exact fun _ h => .inl h) (by simp) rfl rfl rfl hsame.admitted
  | answer hd => exact h.answer hd
  | @jit l x hl ht =>
    exact h.move ⟨rfl, rfl, rfl, rfl, rfl, rfl⟩ (.refl _) rfl hpending h.offered rfl rfl rfl rfl
  | others =>
    exact h.move ⟨rfl, rfl, rfl, rfl, rfl, rfl⟩ (.refl _) rfl hpending h.offered rfl rfl rfl rfl

/-- The server learns the truth in every run. -/
theorem answered_of_reaches {ok : Station → Label → Prop} {s : Station}
    (h : Runs.Reaches (Step c env) ok (start g b) s) : Answered env g s := by
  have h₀ : Answered env g (start g b) :=
    ⟨⟨rfl, rfl, rfl, rfl, rfl, rfl⟩, .refl _, fun _ h => absurd h List.not_mem_nil, rfl, rfl,
      fun _ h => absurd h List.not_mem_nil,
      fun _ _ _ h => h.elim DownPoint.noConfusion DownPoint.noConfusion⟩
  refine h.invariant h₀ ?_
  intro s l s' hr ha _ hst
  obtain ⟨t, hf, hc⟩ := exists_counted hr
  exact ha.step hf hc hst

/-! ## What is passed on -/

/-- What was passed to `lgw_send`, as it was taken out of the queue. -/
def passedEntries (s : Station) : Multiset Entry := s.passed.map fun x => x.dequeued.entry

/-- What was taken out was passed on, or dropped, or is at hand. -/
theorem takenEntries_eq {ok : Station → Label → Prop} {s : Station}
    (h : Runs.Reaches (Step c env) ok (start g b) s) :
    s.takenEntries = s.passedEntries + (s.dropped.map Dequeued.entry : List Entry) +
      (s.tx.atHand.map Dequeued.entry : List Entry) := by
  have hplaces : s.takenEntries =
      ((s.passed.map Sent.dequeued ++ s.dropped ++ s.tx.atHand).map Dequeued.entry : List Entry) :=
    Multiset.coe_eq_coe.mpr ((TxThread.balance_of_reaches (followsTx h)).places.map _)
  rw [hplaces, List.map_append, List.map_append, List.map_map, ← Multiset.coe_add,
    ← Multiset.coe_add]
  rfl

/-- No packet is passed on more often than it was put in. -/
theorem written_passedEntries_le {ok : Station → Label → Prop} {s : Station}
    (h : Runs.Reaches (Step c env) ok (start g b) s) :
    written s.passedEntries ≤ s.admittedEntries := by
  have htraced := traced_of_reaches h
  have hle : s.passedEntries ≤ s.takenEntries := by
    rw [takenEntries_eq h]
    exact (Multiset.le_add_right _ _).trans (Multiset.le_add_right _ _)
  unfold Traced at htraced
  rw [written_add] at htraced
  exact (written_mono hle).trans ((Multiset.le_add_left _ _).trans htraced)

/-- **What is emitted was asked for.**  In every interleaving of the threads, the packets passed
to `lgw_send` are, blank ones apart, among those put into the queue, each at most as often;
a beacon with its frequency corrected, any other as it was put in; and what was put in is a
beacon, or the permitted packet of a `PULL_RESP` that is answered without an error, as no
other is. -/
theorem emits_only_admitted {ok : Station → Label → Prop} {s : Station}
    (h : Runs.Reaches (Step c env) ok (start g b) s) :
    Answered env g s ∧ written s.passedEntries ≤ s.admittedEntries ∧
      ∀ x ∈ s.passed, (∃ freqHz, x.pkt = x.dequeued.corrected freqHz) ∧
        (x.dequeued.entry = blank ∨ x.dequeued.pktType = .beacon ∨ Permitted g x.pkt) := by
  have hanswered := answered_of_reaches h
  have hsame := (TxThread.balance_of_reaches (followsTx h)).same
  have hwritten := written_passedEntries_le h
  refine ⟨hanswered, hwritten, fun x hx => ⟨hsame x hx, ?_⟩⟩
  by_cases hblank : x.dequeued.entry = blank
  · exact .inl hblank
  have hmem : x.dequeued.entry ∈ s.admittedEntries := by
    refine Multiset.mem_of_le hwritten (Multiset.mem_filter.mpr ⟨?_, hblank⟩)
    exact Multiset.mem_coe.mpr (List.mem_map_of_mem hx)
  obtain ⟨a, ha, hentry⟩ := List.mem_map.mp (Multiset.mem_coe.mp hmem)
  have hjustified := hanswered.justified a ha
  unfold Justified at hjustified
  have htype : a.entry.2 = x.dequeued.pktType := congrArg Prod.snd hentry
  have hpkt : a.entry.1 = x.dequeued.pkt := congrArg Prod.fst hentry
  split at hjustified
  · exact .inr (.inl (htype.symm.trans hjustified))
  · by_cases hbeacon : x.dequeued.pktType = .beacon
    · exact .inr (.inl hbeacon)
    obtain ⟨p, hasked, hgiven⟩ := hjustified
    obtain ⟨freqHz, hcorrected⟩ := hsame x hx
    rw [Dequeued.corrected, if_neg hbeacon] at hcorrected
    refine .inr (.inr ?_)
    rw [hcorrected, ← hpkt]
    exact permitted_of_givenAs hgiven hasked.permitted

/-- A request that passes the checks is about to be offered to the queue. -/
theorem reaches_offering {ok : Station → Label → Prop} {s₀ s : Station} {buff : List U8}
    {p : LgwPktTx} {t : JitPktType} (h : Runs.Reaches (Step c env) ok s₀ s) (hl : ok s .handle)
    (hd : s.down = .handling (some buff)) (hack : ¬IsPacket pktPullAck buff)
    (hresp : IsPacket pktPullResp buff) (hreq : requested env s.gateway buff = .ok (p, t))
    (herr : txError env s.gateway p = .ok) :
    Runs.Reaches (Step c env) ok s₀
      { s with
        gateway := { s.gateway with measDw := s.gateway.measDw.countDgram buff.length p }
        down := .offering buff p t } := by
  have hcounted : txError env
      { s.gateway with measDw := s.gateway.measDw.countDgram buff.length p } p = .ok := herr
  have hhandle := h.next hl (.handle hd)
  unfold handle at hhandle
  simp only [if_neg hack, if_pos hresp] at hhandle
  unfold handleRequest at hhandle
  rw [hreq] at hhandle
  simp only [if_pos hcounted] at hhandle
  exact hhandle

/-- What the example request asks for. -/
def exampleRequested : LgwPktTx × JitPktType :=
  (requested .reference .reference exampleRequest).toOption.get (by decide +kernel)

theorem requested_exampleRequest :
    requested .reference .reference exampleRequest =
      .ok (exampleRequested.1, exampleRequested.2) := by
  have hget : ∀ {x : Except Abort (LgwPktTx × JitPktType)} (h : x.toOption.isSome),
      x = .ok (x.toOption.get h) := by
    intro x h
    cases x with
    | error e => cases h
    | ok r => rfl
  rw [Prod.mk.eta]
  exact hget _

/-- The example request is answered without an error, and its packet is sent 20 ms before its
departure. -/
theorem reaches_requestSent :
    ∃ s, Runs.Reaches (Step (everySeconds 128) .reference) Runs.anyStep
      (start .reference (beaconStart 128)) s ∧ s.accepted.length = 1 ∧ s.passed.length = 1 := by
  have hreceive : Runs.Reaches (Step (everySeconds 128) .reference) Runs.anyStep
      (start .reference (beaconStart 128)) _ :=
    Runs.Reaches.start.next (l := .receive (some exampleRequest)) trivial (.receive rfl)
  have henter := hreceive.next trivial (.enterBeacons rfl)
  have hleave := henter.next trivial (.leaveBeacons rfl)
  have hhandle := reaches_offering (p := exampleRequested.1) (t := exampleRequested.2) hleave
    trivial rfl (by decide +kernel) (by decide +kernel) requested_exampleRequest
    (by decide +kernel)
  have hoffer := hhandle.next trivial (.offerTest rfl (by decide +kernel))
  have hinsert := hoffer.next (l := .offerInsert (instant 0)) trivial (.offerInsert rfl)
  have hanswer := hinsert.next trivial (.answer rfl)
  have hpeekTest := hanswer.next (l := .jit .peekTest) trivial
    (.jit (by simp) (.peekTest rfl (by decide +kernel)))
  have hpeek := hpeekTest.next (l := .jit (.peek (instant 980000))) trivial
    (.jit (by simp) (.peek (k := 0) rfl (by decide +kernel) (by decide)))
  have hdequeueTest := hpeek.next (l := .jit .dequeueTest) trivial
    (.jit (by simp) (.dequeueTest (k := 0) rfl (by decide) (by decide +kernel)))
  have hdequeue := hdequeueTest.next (l := .jit .dequeue) trivial
    (.jit (by simp) (dequeues (k := 0) rfl))
  have hcount := hdequeue.next (l := .jit (.countBeacon 868500000)) trivial
    (.jit (by simp) (.countBeacon rfl))
  have hfree := hcount.next (l := .jit (.status (some .free))) trivial
    (.jit (by simp) (.free rfl (by decide)))
  have hsend := hfree.next (l := .jit (.send true)) trivial (.jit (by simp) (.send rfl))
  exact ⟨_, hsend, by decide +kernel, rfl⟩

/-- A request is answered without an error, and its packet is emitted. -/
theorem emits_only_admitted_request :
    ∃ s : Station, s.accepted.length = 1 ∧ s.passed.length = 1 ∧
      Answered .reference .reference s ∧
      written s.passedEntries ≤ s.admittedEntries ∧
      ∀ x ∈ s.passed, (∃ freqHz, x.pkt = x.dequeued.corrected freqHz) ∧
        (x.dequeued.entry = blank ∨ x.dequeued.pktType = .beacon ∨ Permitted .reference x.pkt) := by
  obtain ⟨s, hrun, haccepted, hpassed⟩ := reaches_requestSent
  exact ⟨s, haccepted, hpassed, emits_only_admitted hrun⟩

end Station

end PacketForwarder
