import PacketForwarder.JitQueue.Reference

/-!
# The verdict on a packet

Which answer `jit_enqueue` gives, for every distance between the packet's
departure and the current time.

* `jitEnqueueLocked_error` — the tests in order, each with the answer it gives;
* `jitEnqueueLocked_ok_iff` — a packet is accepted exactly if it passes them all;
* `SignedVerdict` — the answers in terms of the signed distance: too late up to a
  bound that every past departure is under, too early beyond another one;
* `signedVerdict_iff` — the code keeps to them for departures that do not lie in
  the past, and for no other: its differences are unsigned, so that what is past is
  almost a full turn ahead.
-/

namespace PacketForwarder

open Circle

variable {env : JitEnv} {q : JitQueue}

/-! ## The tests in order -/

/-- The answer is that of the first test the packet fails. -/
theorem jitEnqueueLocked_error (env : JitEnv) (q : JitQueue) (time : Timeval) (p : LgwPktTx)
    (t : JitPktType) :
    (jitEnqueueLocked env q time p t).error =
      if ahead time.lowUs (departure env q time.lowUs p t) ≤ 32500 then .tooLate
      else if (t = .downlinkClassA ∨ t = .downlinkClassB) ∧
          512000000 < ahead time.lowUs (departure env q time.lowUs p t) then .tooEarly
      else match q.live.find? (overlaps (nodeFor env q time.lowUs p t)) with
        | some n => errCollision n.pktType
        | none => .ok := by
  have hlate : departure env q time.lowUs p t - time.lowUs ≤
      txStartDelay + txMarginDelay + txJitDelay ↔
        ahead time.lowUs (departure env q time.lowUs p t) ≤ 32500 := BitVec.le_def
  unfold jitEnqueueLocked
  simp only [nodeFor_countUs, hlate]
  split
  · rfl
  · split
    · rename_i hearly
      exact (if_pos hearly).symm
    · rename_i hearly
      refine Eq.trans ?_ (if_neg hearly).symm
      cases q.live.find? (overlaps (nodeFor env q time.lowUs p t)) <;> rfl

/-- A collision is answered with the error that names it, which depends on the type. -/
theorem errCollision_cases (t : JitPktType) :
    errCollision t = .collisionPacket ∨ errCollision t = .collisionBeacon := by
  cases t <;> simp [errCollision]

/-- **A packet is accepted exactly if it passes every test.** -/
theorem jitEnqueueLocked_ok_iff {time : Timeval} {p : LgwPktTx} {t : JitPktType} :
    (jitEnqueueLocked env q time p t).error = .ok ↔
      Accepted q time.lowUs (nodeFor env q time.lowUs p t) := by
  constructor
  · intro hok
    rcases jitEnqueueLocked_cases env q time p t with ⟨-, hacc, -⟩ | ⟨hne, -⟩
    · exact hacc
    · exact absurd hok hne
  · rintro ⟨hlate, hearly, hclear⟩
    rw [nodeFor_countUs] at hlate hearly
    have hnone : q.live.find? (overlaps (nodeFor env q time.lowUs p t)) = none :=
      List.find?_eq_none.mpr fun n hn => by simp [hclear n hn]
    rw [jitEnqueueLocked_error, if_neg (not_le.mpr hlate),
      if_neg fun h => not_le.mpr h.2 (hearly h.1), hnone]

/-- The same of the whole of `jit_enqueue`. -/
theorem jitEnqueue_ok_iff {time : Timeval} {p : LgwPktTx} {t : JitPktType} :
    (jitEnqueue env q time (some p) t).error = .ok ↔
      jitQueueIsFull q = false ∧ Accepted q time.lowUs (nodeFor env q time.lowUs p t) := by
  unfold jitEnqueue
  by_cases hfull : jitQueueIsFull q = true
  · simp [hfull]
  · simp only [hfull, if_false, jitEnqueueLocked_ok_iff, Bool.false_eq_true, true_and]

/-! ## The signed distance -/

/-- The answers that the distance to the departure asks for: too late for all that is past or
about to be, too early (class A and B only) for what is far ahead, and otherwise
acceptance or a collision. -/
structure SignedVerdict (env : JitEnv) (q : JitQueue) (time : Timeval) (p : LgwPktTx)
    (t : JitPktType) : Prop where
  late : (jitEnqueue env q time (some p) t).error = .tooLate ↔
    signedAhead time.lowUs p.countUs ≤ (txStartDelay + txMarginDelay + txJitDelay).toNat
  early : t = .downlinkClassA ∨ t = .downlinkClassB →
    ((jitEnqueue env q time (some p) t).error = .tooEarly ↔
      (txMaxAdvanceDelay : ℤ) < signedAhead time.lowUs p.countUs)
  otherwise : ((txStartDelay + txMarginDelay + txJitDelay).toNat : ℤ) <
      signedAhead time.lowUs p.countUs →
    (t = .downlinkClassA ∨ t = .downlinkClassB →
      signedAhead time.lowUs p.countUs ≤ txMaxAdvanceDelay) →
    (jitEnqueue env q time (some p) t).error = .ok ∨
      (jitEnqueue env q time (some p) t).error = .collisionPacket ∨
      (jitEnqueue env q time (some p) t).error = .collisionBeacon

section Verdict

variable {time : Timeval} {p : LgwPktTx} {t : JitPktType}

/-- The answer to a packet of class A or B or to a beacon: what the unsigned distance to
its own count says. -/
theorem jitEnqueue_error_of_timed (env : JitEnv) (time : Timeval) (p : LgwPktTx)
    (hfull : jitQueueIsFull q = false) (ht : t ≠ .downlinkClassC) :
    ahead time.lowUs p.countUs ≤ 32500 ∧
        (jitEnqueue env q time (some p) t).error = .tooLate ∨
      32500 < ahead time.lowUs p.countUs ∧
        ((t = .downlinkClassA ∨ t = .downlinkClassB) ∧
            512000000 < ahead time.lowUs p.countUs ∧
            (jitEnqueue env q time (some p) t).error = .tooEarly ∨
          (t = .downlinkClassA ∨ t = .downlinkClassB →
              ahead time.lowUs p.countUs ≤ 512000000) ∧
            ((jitEnqueue env q time (some p) t).error = .ok ∨
              (jitEnqueue env q time (some p) t).error = .collisionPacket ∨
              (jitEnqueue env q time (some p) t).error = .collisionBeacon)) := by
  have hcount : departure env q time.lowUs p t = p.countUs := if_neg ht
  have herror : (jitEnqueue env q time (some p) t).error =
      (jitEnqueueLocked env q time p t).error := by
    unfold jitEnqueue
    simp [hfull]
  rw [herror, jitEnqueueLocked_error, hcount]
  by_cases hlate : ahead time.lowUs p.countUs ≤ 32500
  · exact .inl ⟨hlate, if_pos hlate⟩
  · refine .inr ⟨not_le.mp hlate, ?_⟩
    rw [if_neg hlate]
    by_cases hearly : (t = .downlinkClassA ∨ t = .downlinkClassB) ∧
        512000000 < ahead time.lowUs p.countUs
    · exact .inl ⟨hearly.1, hearly.2, if_pos hearly⟩
    · refine .inr ⟨fun hAB => not_lt.mp fun h => hearly ⟨hAB, h⟩, ?_⟩
      rw [if_neg hearly]
      cases q.live.find? (overlaps (nodeFor env q time.lowUs p t)) with
      | none => exact .inl rfl
      | some n => exact .inr (errCollision_cases n.pktType)

/-- **The verdict is that of the signed distance exactly for departures that are not
past.** -/
theorem signedVerdict_iff (hfull : jitQueueIsFull q = false) (ht : t ≠ .downlinkClassC) :
    SignedVerdict env q time p t ↔ 0 ≤ signedAhead time.lowUs p.countUs := by
  have hbound : (txStartDelay + txMarginDelay + txJitDelay).toNat = 32500 := by decide
  have hmax : txMaxAdvanceDelay = 512000000 := rfl
  have hcases := jitEnqueue_error_of_timed env time p hfull ht
  constructor
  · rintro ⟨hlate, -, -⟩
    by_contra hpast
    -- a past departure is at least half a turn ahead, so it is not answered as too late
    rcases signedAhead_cases time.lowUs p.countUs with ⟨-, hd⟩ | ⟨hfar, -⟩
    · omega
    · have herror := hlate.mpr (by omega)
      rw [herror] at hcases
      simp only [reduceCtorEq, and_false, or_false, and_true] at hcases
      omega
  · intro hpos
    have hd : signedAhead time.lowUs p.countUs = ahead time.lowUs p.countUs := by
      rcases signedAhead_cases time.lowUs p.countUs with ⟨-, hd⟩ | ⟨-, hd⟩
      · exact hd
      · have := ahead_lt time.lowUs p.countUs
        omega
    rcases hcases with ⟨hle, herror⟩ | ⟨hlt, ⟨hAB, hearly, herror⟩ | ⟨hnear, herror⟩⟩
    · refine ⟨?_, ?_, ?_⟩
      · rw [herror, hd, hbound]
        simpa using hle
      · intro _
        rw [herror, hd, hmax]
        simp only [reduceCtorEq, false_iff]
        omega
      · intro hgt
        omega
    · refine ⟨?_, ?_, ?_⟩
      · rw [herror, hd, hbound]
        simp only [reduceCtorEq, false_iff]
        omega
      · intro _
        rw [herror, hd, hmax]
        simpa using hearly
      · intro _ hle
        have := hle hAB
        omega
    · refine ⟨?_, ?_, fun _ _ => herror⟩
      · rw [hd, hbound]
        rcases herror with herror | herror | herror <;> rw [herror] <;>
          simp only [reduceCtorEq, false_iff] <;> omega
      · intro hAB
        have := hnear hAB
        rw [hd, hmax]
        rcases herror with herror | herror | herror <;> rw [herror] <;>
          simp only [reduceCtorEq, false_iff] <;> omega

/-- A class B packet one second ahead. -/
theorem signedVerdict_one_second_ahead :
    SignedVerdict .reference jitQueueInit (instant 1000000) (packetAt 2000000) .downlinkClassB :=
  (signedVerdict_iff (by decide) (by decide)).mpr (by decide)

/-- **What is past is not too late.**  At 2 s a class A packet for 1 s is answered as
too early, and a beacon for 1 s is accepted. -/
theorem past_departure_not_too_late :
    (jitEnqueue .reference jitQueueInit (instant 2000000) (some (packetAt 1000000))
        .downlinkClassA).error = .tooEarly ∧
      (jitEnqueue .reference jitQueueInit (instant 2000000) (some (packetAt 1000000))
        .beacon).error = .ok ∧
      ¬SignedVerdict .reference jitQueueInit (instant 2000000) (packetAt 1000000)
        .downlinkClassA ∧
      ¬SignedVerdict .reference jitQueueInit (instant 2000000) (packetAt 1000000) .beacon := by
  have hA : (jitEnqueue .reference jitQueueInit (instant 2000000) (some (packetAt 1000000))
      .downlinkClassA).error = .tooEarly := by decide +kernel
  have hbeacon : (jitEnqueue .reference jitQueueInit (instant 2000000) (some (packetAt 1000000))
      .beacon).error = .ok := by decide +kernel
  refine ⟨hA, hbeacon, ?_, ?_⟩
  · intro h
    have := h.late.mpr (by decide)
    rw [hA] at this
    cases this
  · intro h
    have := h.late.mpr (by decide)
    rw [hbeacon] at this
    cases this

end Verdict

end PacketForwarder
