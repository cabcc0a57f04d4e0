import PacketForwarder.Station.Emission

/-!
# Every packet goes one way

`Station.emits_only_admitted` leaves room for losses.  There are three of them, and no other
if no peek meets both outdated nodes and departures the comparator cannot order.

* `Conserved` — the invariant: what was put in is in the queue, was taken out, or was purged
  by a peek that found it outdated;
* `each_packet_one_way` — with `thread_jit`: it is in the queue, at hand, passed to `lgw_send`,
  dropped because the concentrator was emitting, or purged, and only one of these, once;
* `beacons_emitted_on_grid` — so no slot has its beacon emitted twice, and each beacon is
  that of its slot.
-/

namespace PacketForwarder

open Circle

namespace Station

variable {c : BeaconConf} {env : DownEnv} {g : Gateway} {b : BeaconState}

/-! ## Conservation -/

/-- Every packet put in is in one place. -/
structure Conserved (s : Station) : Prop where
  counted : BeaconsCounted s.queue
  places : s.admittedEntries = agenda s.queue + s.takenEntries + s.purged.map Prod.fst
  outdated : ∀ x ∈ s.purged, txMaxAdvanceDelay ≤ ahead x.2.lowUs x.1.1.countUs

/-- **Every step conserves the packets**, as long as the index that `thread_jit` holds is live. -/
theorem Conserved.step {s s' : Station} {l : Label} {t : System} (h : Conserved s)
    (hf : Follows s t) (hc : CountersOk t) (hheld : IndexHeld t) (hst : Step c env s l s') :
    Conserved s' := by
  have hw : s.queue.Wf := by
    rw [← hf.queue]
    exact hc.wf
  obtain ⟨hcount, hplaces, hold⟩ := h
  unfold admittedEntries takenEntries at hplaces
  rcases hst.packets hf hc with ⟨hq, hadm, htak, hpur⟩ | ⟨request, n, hroom, hq, hadm, htak, hpur⟩ |
    ⟨time, -, -, hq, hadm, htak, hpur⟩ | ⟨k, hpc, hq, hadm, htak, hpur⟩
  · -- The queue is left alone.
    refine ⟨by rw [hq]; exact hcount, ?_, by rw [hpur]; exact hold⟩
    rw [admittedEntries, takenEntries, hq, hadm, htak, hpur]
    exact hplaces
  · -- A packet is put in.
    refine ⟨?_, ?_, by rw [hpur]; exact hold⟩
    · rw [hq]
      exact beaconsCounted_insertNode hroom hcount n
    · rw [admittedEntries, takenEntries, hq, hadm, htak, hpur, agenda_insertNode hroom,
        List.map_append, ← Multiset.coe_add, hplaces, ← Multiset.singleton_add]
      show _ + {n.entry} = _
      ac_rfl
  · -- A peek moves what it drops from the queue to the purged packets.
    obtain ⟨hcount', dropped, hbag, hold'⟩ := jitPeekScan_agenda env.jit hw hcount time.lowUs
    rw [← hq] at hcount' hbag
    have hdropped : agenda s.queue - agenda s'.queue = dropped := by
      rw [hbag, Multiset.add_sub_cancel_right]
    rw [hdropped] at hpur
    refine ⟨hcount', ?_, ?_⟩
    · rw [admittedEntries, takenEntries, hadm, htak, hpur, hplaces, hbag, Multiset.map_add,
        Multiset.map_map]
      have hsame : dropped.map (Prod.fst ∘ fun e => (e, time)) = dropped := Multiset.map_id _
      rw [hsame]
      ac_rfl
    · rw [hpur]
      intro x hx
      rcases Multiset.mem_add.mp hx with hx | hx
      · exact hold x hx
      · obtain ⟨e, he, rfl⟩ := Multiset.mem_map.mp hx
        exact hold' e he
  · -- A packet is taken out, at an index that is live.
    have hjit := hf.jit
    rw [hpc] at hjit
    obtain ⟨n, time, hjit⟩ := hjit
    have hlive : k < s.queue.numPkt.toNat := by
      unfold IndexHeld at hheld
      rw [hjit] at hheld
      rw [← hf.queue]
      exact hheld
    refine ⟨?_, ?_, by rw [hpur]; exact hold⟩
    · rw [hq]
      exact beaconsCounted_removeNode hw hlive hcount
    · rw [admittedEntries, takenEntries, hq, hadm, htak, hpur, List.map_append,
        ← Multiset.coe_add, hplaces, agenda_removeNode env.jit hw hlive, ← Multiset.singleton_add]
      show {(s.queue.node env.jit k).entry} + _ + _ + _ = _ + (_ + {_}) + _
      ac_rfl

/-- In a run whose peeks are ordered, `thread_jit` holds the index of a live node. -/
theorem exists_held (hs : env.jit.QsortSorts) {s : Station}
    (h : Runs.Reaches (Step c env) PeeksOrdered (start g b) s) :
    ∃ t, Follows s t ∧ CountersOk t ∧ IndexHeld t := by
  have hrun : ∃ t, System.ReachableBy env.jit
      (fun t a => ∀ time, a = .peek time → PeekOrdered t.queue time.lowUs) t ∧ Follows s t := by
    refine follows ?_ h
    intro s l t a hf hok hpeek time ha
    rw [hf.queue]
    exact hok time (hpeek time ha)
  obtain ⟨t, ht, hf⟩ := hrun
  refine ⟨t, hf, CountersOk.reached ht, ?_⟩
  have h₀ : IndexHeld .init := trivial
  refine Runs.Reaches.invariant h₀ ?_ ht
  intro t a t' hr hi hok hst
  exact hi.step hs (CountersOk.reached hr) (System.sorted_reached hs hr) hok hst

theorem conserved_of_reaches (hs : env.jit.QsortSorts) {s : Station}
    (h : Runs.Reaches (Step c env) PeeksOrdered (start g b) s) : Conserved s := by
  have h₀ : Conserved (start g b) := ⟨rfl, rfl, fun x hx => absurd hx (Multiset.notMem_zero x)⟩
  refine h.invariant h₀ ?_
  intro s l s' hr hi _ hst
  obtain ⟨t, hf, hc, hheld⟩ := exists_held hs hr
  exact hi.step hf hc hheld hst

/-- **Every packet goes one way.**  In every run whose peeks are ordered, what was put into the
queue is still there, or `thread_jit` has it at hand, or it was passed to `lgw_send`, or
dropped because the concentrator was emitting, or purged by a peek that found it
outdated; each packet once, and in one of these places. -/
theorem each_packet_one_way (hs : env.jit.QsortSorts) {s : Station}
    (h : Runs.Reaches (Step c env) PeeksOrdered (start g b) s) :
    s.admittedEntries = agenda s.queue + s.passedEntries +
        (s.dropped.map Dequeued.entry : List Entry) +
        (s.tx.atHand.map Dequeued.entry : List Entry) + s.purged.map Prod.fst ∧
      ∀ x ∈ s.purged, txMaxAdvanceDelay ≤ ahead x.2.lowUs x.1.1.countUs := by
  obtain ⟨-, hplaces, hold⟩ := conserved_of_reaches hs h
  refine ⟨?_, hold⟩
  rw [hplaces, takenEntries_eq h]
  ac_rfl

/-- One beacon is put in and passed on. -/
theorem each_packet_one_way_beacon :
    ∃ s : Station, s.passed.length = 1 ∧
      s.admittedEntries = agenda s.queue + s.passedEntries +
        (s.dropped.map Dequeued.entry : List Entry) +
        (s.tx.atHand.map Dequeued.entry : List Entry) + s.purged.map Prod.fst ∧
      ∀ x ∈ s.purged, txMaxAdvanceDelay ≤ ahead x.2.lowUs x.1.1.countUs := by
  obtain ⟨s, hrun, hlen⟩ := reaches_beaconSent
  exact ⟨s, hlen, each_packet_one_way JitEnv.reference_qsortSorts
    (hrun.mono fun _ _ h => h.1)⟩

/-! ## Beacons -/

/-- The beacons among some packets, each as often as it is there. -/
def beaconsOf (l : Multiset Entry) : Multiset Entry := l.filter fun e => e.2 = .beacon

/-- The beacons `thread_down` has put in. -/
def loggedEntries (s : Station) : Multiset Entry := s.beacons.log.map fun x => x.node.entry

/-- What `thread_down` has logged is what it has put in. -/
def Logged (s : Station) : Prop := beaconsOf s.admittedEntries = s.loggedEntries

@[simp] theorem beaconsOf_add (l l' : Multiset Entry) :
    beaconsOf (l + l') = beaconsOf l + beaconsOf l' :=
  Multiset.filter_add _ _ _

/-- A blank packet is no beacon, so that leaving these out changes nothing. -/
theorem beaconsOf_written (l : Multiset Entry) : beaconsOf (written l) = beaconsOf l := by
  rw [beaconsOf, written, Multiset.filter_filter]
  refine Multiset.filter_congr fun e _ => and_iff_left_of_imp ?_
  rintro hbeacon rfl
  cases hbeacon

/-- A packet for a datagram is no beacon. -/
theorem beaconsOf_singleton_of_ne {e : Entry} (h : e.2 ≠ .beacon) : beaconsOf {e} = 0 :=
  Multiset.filter_eq_nil.mpr fun _ he => by rwa [Multiset.mem_singleton.mp he]

theorem beaconsOf_singleton {e : Entry} (h : e.2 = .beacon) : beaconsOf {e} = {e} :=
  Multiset.filter_eq_self.mpr fun _ he => by rwa [Multiset.mem_singleton.mp he]

/-- What an attempt logs, `jit_enqueue` has accepted. -/
theorem beaconAttempt_log (c : BeaconConf) (gps2cnt : Gps2cnt) (env : JitEnv) (b : BeaconState)
    (tref : Tref) {tested : JitQueue} (met : JitQueue) (time : Timeval)
    (ht : jitQueueIsFull tested = false) :
    let r := jitEnqueueLocked env met time (nextBeacon c gps2cnt b tref) .beacon
    (r.error = .ok → ∃ x, (beaconAttempt c gps2cnt env b tref tested met time).log = x :: b.log ∧
      x.node = nodeFor env met time.lowUs (nextBeacon c gps2cnt b tref) .beacon) ∧
      (r.error ≠ .ok → (beaconAttempt c gps2cnt env b tref tested met time).log = b.log) := by
  intro r
  have herr : beaconError env tested met time (nextBeacon c gps2cnt b tref) = r.error := by
    unfold beaconError
    rw [ht]
    rfl
  unfold beaconAttempt
  simp only [herr]
  constructor
  · intro hok
    rw [if_pos hok]
    exact ⟨_, rfl, rfl⟩
  · intro herr
    rw [if_neg herr]

/-- **Every step that puts in a beacon logs it.** -/
theorem Logged.step {s s' : Station} {l : Label} {t : System} (h : Logged s)
    (hf : Follows s t) (hc : CountersOk t) (hst : Step c env s l s') : Logged s' := by
  have hroom : t.down.Inserting → s.queue.numPkt.toNat < 32 := by
    rw [← hf.queue]
    exact hc.room
  have hdown := hf.down
  unfold Logged admittedEntries loggedEntries at h ⊢
  cases hst with
  | @beaconInsert msg tref tested time hd =>
    rw [hd] at hdown
    obtain ⟨hlogged, hsame⟩ := beaconAttempt_log c env.lgwGps2cnt env.jit s.beacons tref s.queue
      time (hf.tested _ _ _ hd)
    rcases insert_cases env s (hroom (by rw [hdown]; trivial)) time
      (nextBeacon c env.lgwGps2cnt s.beacons tref) .beacon none with ⟨hok, hin⟩ | ⟨herr, hnone⟩
    · -- The beacon loop logs a beacon exactly if the queue takes it.
      obtain ⟨x, hlog, hnode⟩ := hlogged hok
      have hbeacon : (nodeFor env.jit s.queue time.lowUs
          (nextBeacon c env.lgwGps2cnt s.beacons tref) .beacon).entry.2 = .beacon := rfl
      simp only [hin.admitted, hlog, List.map_append, List.map_cons, List.map_nil, hnode]
      rw [← Multiset.coe_add, beaconsOf_add, h, Multiset.coe_singleton,
        beaconsOf_singleton hbeacon, add_comm, Multiset.singleton_add]
      rfl
    · simp only [hsame herr, hnone.admitted]
      exact h
  | @beaconFull msg tref time hd hl hp hf =>
    have hfull := beaconError_of_full env.jit hf s.queue time
      (nextBeacon c env.lgwGps2cnt s.beacons tref)
    have hlog : (beaconAttempt c env.lgwGps2cnt env.jit s.beacons tref s.queue s.queue time).log =
        s.beacons.log := by
      unfold beaconAttempt
      simp only [if_neg hfull]
    simp only [hlog]
    exact h
  | @offerInsert buff txpkt type time hd =>
    have htype := hf.type _ _ _ (.inr hd)
    rw [hd] at hdown
    rcases insert_cases env s (hroom (by rw [hdown]; trivial)) time txpkt type (some buff) with
      ⟨hok, hin⟩ | ⟨herr, hnone⟩
    · simp only [admitted_countRequested, beacons_countRequested, beacons_insert, hin.admitted,
        List.map_append, List.map_cons, List.map_nil]
      rw [← Multiset.coe_add, beaconsOf_add, h, Multiset.coe_singleton,
        beaconsOf_singleton_of_ne htype, add_zero]
    · simp only [admitted_countRequested, beacons_countRequested, beacons_insert, hnone.admitted]
      exact h
  | @handle msg hd =>
    obtain ⟨g, point, heq, -⟩ := handle_cases env s msg
    rw [heq]
    exact h
  | _ => exact h

theorem logged_of_reaches (hb : b.log = []) {ok : Station → Label → Prop} {s : Station}
    (h : Runs.Reaches (Step c env) ok (start g b) s) : Logged s := by
  have h₀ : Logged (start g b) := by
    unfold Logged loggedEntries
    show beaconsOf 0 = ((b.log.map _ : List Entry) : Multiset Entry)
    rw [hb]
    rfl
  refine h.invariant h₀ ?_
  intro s l s' hr hi _ hst
  obtain ⟨t, hf, hc⟩ := exists_counted hr
  exact hi.step hf hc hst

/-- What holds of the beacons at first. -/
theorem beaconsOk_of_setup {latitude longitude : BitVec 32} {stack : LgwPktTx}
    (h : beaconSetup c latitude longitude stack = some b) (gps2cnt : Gps2cnt) :
    BeaconsOk c gps2cnt b := by
  obtain ⟨hrfu, hlast, -, hlog⟩ := beaconSetup_spec h
  refine ⟨hrfu, hlast.ge, ?_, fun _ => hlog, ?_, ?_, ?_⟩
  · rw [hlast]
    exact dvd_zero _
  all_goals
    rw [hlog]
    simp

/-- **The beacons emitted lie on the grid.**  In every run on the grid the beacons passed to
`lgw_send` are among those logged, each at most once; these have times of their own, all
multiples of the period; and each carries the time, the frequency and the count of its
slot. -/
theorem beacons_emitted_on_grid {latitude longitude : BitVec 32} {stack : LgwPktTx}
    (hb : beaconSetup c latitude longitude stack = some b)
    (hcnt : ∀ tref t, (env.lgwGps2cnt tref t).isSome) {s : Station}
    (h : Runs.Reaches (Step c env) (OnGrid c env) (start g b) s) :
    beaconsOf s.passedEntries ≤ s.loggedEntries ∧
      s.beacons.log.Pairwise (fun later earlier => earlier.gpsTime < later.gpsTime) ∧
      ∀ x ∈ s.beacons.log, OfItsTime c env.lgwGps2cnt s.beacons.beaconRfu1Size x := by
  obtain ⟨-, -, hloop, hlog⟩ := beaconSetup_spec hb
  have hbeacons := (followsBeacons hloop h).invariant (beaconsOk_of_setup hb env.lgwGps2cnt)
    fun _ _ _ _ hi hok hst => hi.step hcnt hok hst
  refine ⟨?_, hbeacons.increasing, hbeacons.ofItsTime⟩
  have hlogged := logged_of_reaches hlog h
  unfold Logged at hlogged
  rw [← hlogged, ← beaconsOf_written]
  exact Multiset.filter_le_filter _ (written_passedEntries_le h)

/-- The beacon of GPS second 1152 is emitted. -/
theorem beacons_emitted_on_grid_first :
    ∃ s : Station, s.passed.length = 1 ∧ beaconsOf s.passedEntries ≤ s.loggedEntries ∧
      s.beacons.log.Pairwise (fun later earlier => earlier.gpsTime < later.gpsTime) ∧
      ∀ x ∈ s.beacons.log,
        OfItsTime (everySeconds 128) elapsedGps2cnt s.beacons.beaconRfu1Size x := by
  obtain ⟨s, hrun, hlen⟩ := reaches_beaconSent
  exact ⟨s, hlen, beacons_emitted_on_grid
    (show beaconSetup (everySeconds 128) 0 0 .zero = some (beaconStart 128) from
      (Option.some_get _).symm) (fun _ _ => rfl) (hrun.mono fun _ _ h => h.2)⟩

end Station

end PacketForwarder
