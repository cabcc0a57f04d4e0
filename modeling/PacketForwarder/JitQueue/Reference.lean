import PacketForwarder.JitQueue.Spec

/-!
# A concrete environment for the queue

The queue's model leaves open what it calls.  `JitEnv.reference` is one way to
fill it in, on which runs can be evaluated and which satisfies every assumption
the results make: frames of 41 ms, an insertion sort, a conversion that saturates,
and zeroed memory outside the array.
-/

namespace PacketForwarder

/-- Frames of 41 ms (ten bytes at SF7, 125 kHz) and insertion sort. -/
def JitEnv.reference : JitEnv where
  lgwTimeOnAir _ := 41
  qsortR := CmpOrder.sortBy
  qsortR_perm := CmpOrder.sortBy_perm
  outOfRange _ := BitVec.allOnes 32
  stray _ := .zero

namespace JitEnv

theorem reference_airtimeBounded : reference.AirtimeBounded := fun _ => by
  show (41 : U32).toNat ≤ 100000
  decide

theorem reference_qsortSorts : reference.QsortSorts := fun _ _ ho => CmpOrder.ascending_sortBy ho

theorem reference_qsortByOutcomes : reference.QsortByOutcomes :=
  fun cmp f _ h => CmpOrder.sortBy_map cmp f h

end JitEnv

/-- A ten-byte packet that departs at the given count. -/
def packetAt (countUs : U32) : LgwPktTx := { LgwPktTx.zero with countUs := countUs, size := 10 }

/-- The instant `us` microseconds after the concentrator's start. -/
def instant (us : ℤ) : Timeval := ⟨0, us⟩

/-- The queue after the given calls. -/
def jitRun (env : JitEnv) (calls : List JitCall) : JitQueue :=
  Runs.after (JitCall.apply env) jitQueueInit calls

/-- Calls that satisfy `ok` lead to a queue reachable by such calls. -/
theorem reachableBy_jitRun {env : JitEnv} {ok : JitQueue → JitCall → Prop}
    {calls : List JitCall} (h : Runs.Along (JitCall.apply env) ok jitQueueInit calls) :
    ReachableBy env ok (jitRun env calls) :=
  Runs.Reaches.start.after ok (fun _ _ hc => ⟨hc, rfl⟩) h

/-- Any calls lead to a reachable queue. -/
theorem reachable_jitRun (env : JitEnv) (calls : List JitCall) :
    Reachable env (jitRun env calls) := by
  have hany : ∀ q, Runs.Along (JitCall.apply env) Runs.anyStep q calls := by
    induction calls with
    | nil => exact fun _ => trivial
    | cons c cs ih => exact fun _ => ⟨trivial, ih _⟩
  exact reachableBy_jitRun (hany _)

end PacketForwarder
