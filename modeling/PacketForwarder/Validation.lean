import PacketForwarder.Lib.Rounding
import PacketForwarder.Lifecycle.Reset

/-!
# The correction of the crystal

Once a second `thread_valid` looks at the time reference that `thread_gps` keeps.  While it is
young enough the clock errors it carries are averaged, and the average is then tracked by a
low-pass filter; a beacon is sent on its frequency times the inverse of that error.

* `gpsProcessSync` — how `thread_gps` renews the reference;
* `ValidThread.check` — one pass of `thread_valid`;
* `TimeKeeping.Step` — both threads, in any order;
* `ValidThread.write_labels` — a pass is what `Forwarder` knows of it;
* `TimeKeeping.correction_of_streak` — the correction is a function of the errors read since the
  reference was last refused;
* `TimeKeeping.correction_within` — in runs of any length it stays as near to the inverse of the
  errors as rounding allows, and so does the frequency of a beacon.
-/

namespace PacketForwarder

open Binary64

/-! ## `thread_gps` -/

/-- The results of the functions that `gps_process_sync` calls. -/
structure SyncHal where
  /-- UTC and GPS time; `none` if it does not return `LGW_GPS_SUCCESS`. -/
  lgwGpsGet : Option (Timespec × Timespec)
  /-- The counter at the last pulse; `none` if it does not return `LGW_HAL_SUCCESS`. -/
  lgwGetTrigcnt : Option U32
  /-- The reference it leaves behind; with another status there is only a warning. -/
  lgwGpsSync : Tref → U32 → Timespec → Timespec → Tref

/-- `gps_process_sync`, on `time_reference_gps`. -/
def gpsProcessSync (hal : SyncHal) (timeReferenceGps : Tref) : Tref :=
  match hal.lgwGpsGet with
  | none => timeReferenceGps
  | some (utc, gpsTime) =>
    match hal.lgwGetTrigcnt with
    | none => timeReferenceGps
    | some trigTstamp => hal.lgwGpsSync timeReferenceGps trigTstamp utc gpsTime

/-! ## `thread_valid` -/

/-- `GPS_REF_MAX_AGE`. -/
@[simp] abbrev gpsRefMaxAge : ℤ := 30

/-- `XERR_INIT_AVG`. -/
@[simp] abbrev xerrInitAvg : ℕ := 128

/-- `XERR_FILT_COEF`. -/
@[simp] abbrev xerrFiltCoef : ℕ := 256

/-- The variables of `thread_valid` and those it writes for the others. -/
structure ValidThread where
  initCpt : ℕ
  initAcc : Binary64
  gpsRefValid : Bool
  xtalCorrectOk : Bool
  xtalCorrect : Binary64
  deriving DecidableEq

/-- The age of the reference is acceptable: `gps_ref_age`, in seconds. -/
def refOk (now : ℤ) (ref : Tref) : Bool :=
  let gpsRefAge := now - ref.systime
  0 ≤ gpsRefAge ∧ gpsRefAge ≤ gpsRefMaxAge

/-- `xtal_err_cpy`, where the reference is accepted. -/
def acceptedErr (now : ℤ) (ref : Tref) : Option Binary64 :=
  if refOk now ref then some ref.xtalErr else none

namespace ValidThread

/-- The thread when it starts, with what an earlier one has left to the others. -/
def start (gpsRefValid xtalCorrectOk : Bool) (xtalCorrect : Binary64) : ValidThread where
  initCpt := 0
  initAcc := .finite 0
  gpsRefValid := gpsRefValid
  xtalCorrectOk := xtalCorrectOk
  xtalCorrect := xtalCorrect

/-- The correction that the thread computes from the sum of the first errors. -/
def average (initAcc : Binary64) : Binary64 := (Binary64.finite xerrInitAvg).quotient initAcc

/-- One step of the low-pass filter, which moves the correction towards `1 / xtal_err`. -/
def track (xtalCorrect xtalErr : Binary64) : Binary64 :=
  lowPass xerrFiltCoef xtalCorrect ((Binary64.finite 1).quotient xtalErr)

/-- "Manage XTAL correction": without an error where the reference has been refused. -/
def manageXtal (s : ValidThread) : Option Binary64 → ValidThread
  | none =>
    { s with
      xtalCorrectOk := false
      xtalCorrect := .finite 1
      initCpt := 0
      initAcc := .finite 0 }
  | some xtalErr =>
    if s.initCpt < xerrInitAvg then
      { s with
        initAcc := s.initAcc.add xtalErr
        initCpt := s.initCpt + 1 }
    else if s.initCpt = xerrInitAvg then
      { s with
        xtalCorrect := average s.initAcc
        xtalCorrectOk := true
        initCpt := s.initCpt + 1 }
    else { s with xtalCorrect := track s.xtalCorrect xtalErr }

/-- One pass of the loop of `thread_valid`: the age of the reference is checked, and the correction
follows. -/
def check (s : ValidThread) (now : ℤ) (ref : Tref) : ValidThread :=
  { s with gpsRefValid := refOk now ref }.manageXtal (acceptedErr now ref)

/-- What a pass does, one statement under a lock after the other. -/
def labels (ι : Type*) (s : ValidThread) (now : ℤ) (ref : Tref) : List (GlobalLabel ι) :=
  .checkRef (refOk now ref) ::
    match acceptedErr now ref with
    | none => [.xtalInvalid]
    | some xtalErr =>
      if s.initCpt < xerrInitAvg then []
      else if s.initCpt = xerrInitAvg then [.xtalAverage (average s.initAcc)]
      else [.xtalTrack (track s.xtalCorrect xtalErr)]

/-- The variables hold what the thread has written. -/
structure Agrees {ι : Type*} (s : ValidThread) (g : Globals ι) : Prop where
  gpsRefValid : g.gpsRefValid = s.gpsRefValid
  xtalCorrectOk : g.xtalCorrectOk = s.xtalCorrectOk
  xtalCorrect : g.xtalCorrect = s.xtalCorrect

/-- **A pass is what the forwarder knows of it**: these writes and no others. -/
theorem write_labels {ι : Type*} [DecidableEq ι] {s : ValidThread} {g : Globals ι}
    (h : s.Agrees g) (env : JitEnv) (now : ℤ) (ref : Tref) :
    (s.check now ref).Agrees ((s.labels ι now ref).foldl (Forwarder.write env) g) := by
  obtain ⟨-, hok, hcorrect⟩ := h
  unfold labels check manageXtal
  cases acceptedErr now ref with
  | none => exact ⟨rfl, rfl, rfl⟩
  | some xtalErr =>
    by_cases hsum : s.initCpt < xerrInitAvg
    · simp only [hsum, if_true]
      exact ⟨rfl, hok, hcorrect⟩
    · by_cases haverage : s.initCpt = xerrInitAvg
      · simp only [haverage, if_true, if_false, lt_irrefl]
        exact ⟨rfl, rfl, rfl⟩
      · simp only [hsum, haverage, if_false]
        exact ⟨rfl, hok, rfl⟩

end ValidThread

/-! ## The two threads -/

/-- The reference, the thread that looks at it, and what has been seen. -/
structure TimeKeeping where
  timeReferenceGps : Tref
  thread : ValidThread
  /-- Whether some pass has refused the reference since the start. -/
  refused : Bool
  /-- The errors that the accepted references had, since the last refusal or the start. -/
  streak : List Binary64

namespace TimeKeeping

/-- The steps of the two threads that share the reference. -/
inductive Label
  /-- `thread_gps` has found a time message. -/
  | sync (hal : SyncHal)
  /-- `thread_valid`, at the time `now`. -/
  | check (now : ℤ)

/-- The state before the first pass, with no reference refused and no error read. -/
def start (ref : Tref) (thread : ValidThread) : TimeKeeping := ⟨ref, thread, false, []⟩

/-- What has been seen after one more pass. -/
def seen (s : TimeKeeping) : Option Binary64 → Bool × List Binary64
  | none => (true, [])
  | some xtalErr => (s.refused, s.streak ++ [xtalErr])

/-- The two threads take their steps one after the other, since both hold `mx_timeref`. -/
inductive Step : TimeKeeping → Label → TimeKeeping → Prop
  | sync {s : TimeKeeping} {hal : SyncHal} :
    Step s (.sync hal) { s with timeReferenceGps := gpsProcessSync hal s.timeReferenceGps }
  | check {s : TimeKeeping} {now : ℤ} :
    Step s (.check now)
      { s with
        thread := s.thread.check now s.timeReferenceGps
        refused := (s.seen (acceptedErr now s.timeReferenceGps)).1
        streak := (s.seen (acceptedErr now s.timeReferenceGps)).2 }

/-- Where a pass accepts the reference, its error lies between `lo` and `hi`. -/
def ErrWithin (lo hi : ℚ) (s : TimeKeeping) : Label → Prop
  | .sync _ => True
  | .check now => refOk now s.timeReferenceGps = true → Within lo hi s.timeReferenceGps.xtalErr

/-- A reference of the time 100, five millionths fast. -/
def exampleRef : Tref := ⟨100, 0, ⟨0, 0⟩, ⟨0, 0⟩, .finite (1000005 / 1000000)⟩

/-- Any number of passes can follow one another while the reference stays valid. -/
theorem reaches_passes (n : ℕ) : ∃ s : TimeKeeping,
    Runs.Reaches Step (ErrWithin (99999 / 100000) (100001 / 100000))
      (start exampleRef (.start false false (.finite 1))) s ∧
    s.timeReferenceGps = exampleRef ∧ s.streak.length = n := by
  induction n with
  | zero => exact ⟨_, .start, rfl, rfl⟩
  | succ n ih =>
    obtain ⟨s, hs, href, hlen⟩ := ih
    have hstep : Step s (.check 101) _ := .check
    refine ⟨_, hs.next ?_ hstep, href, ?_⟩
    · intro _
      rw [href]
      exact ⟨_, rfl, by norm_num, by norm_num⟩
    · have haccepted : acceptedErr 101 exampleRef = some exampleRef.xtalErr := rfl
      simp [seen, href, haccepted, hlen]

/-! ## A function of the streak -/

/-- The correction after more than `XERR_INIT_AVG` errors in a row; the one that completes the
average is not looked at. -/
def correctionOf (streak : List Binary64) : Binary64 :=
  (streak.drop (xerrInitAvg + 1)).foldl ValidThread.track
    (ValidThread.average ((streak.take xerrInitAvg).foldl add (.finite 0)))

/-- The variables are what the streak makes of them. -/
structure Explained (first : ValidThread) (s : TimeKeeping) : Prop where
  cpt : s.thread.initCpt = min s.streak.length (xerrInitAvg + 1)
  acc : s.thread.initAcc = (s.streak.take xerrInitAvg).foldl add (.finite 0)
  refValid : s.refused = true ∨ s.streak ≠ [] →
    (s.thread.gpsRefValid = true ↔ s.streak ≠ [])
  early : s.streak.length ≤ xerrInitAvg →
    (s.thread.xtalCorrectOk, s.thread.xtalCorrect) =
      if s.refused then (false, .finite 1) else (first.xtalCorrectOk, first.xtalCorrect)
  late : xerrInitAvg < s.streak.length →
    s.thread.xtalCorrectOk = true ∧ s.thread.xtalCorrect = correctionOf s.streak

variable {first : ValidThread} {s s' : TimeKeeping} {l : Label}

theorem explained_start (ref : Tref) (gpsRefValid xtalCorrectOk : Bool) (xtalCorrect : Binary64) :
    (start ref (.start gpsRefValid xtalCorrectOk xtalCorrect)).Explained
      (.start gpsRefValid xtalCorrectOk xtalCorrect) where
  cpt := rfl
  acc := rfl
  refValid h := by simp [start] at h
  early _ := rfl
  late h := by simp [start] at h

/-- A reference is refused: everything starts again. -/
theorem Explained.refuse (now : ℤ) (href : acceptedErr now s.timeReferenceGps = none)
    (hvalid : refOk now s.timeReferenceGps = false) :
    Explained first
      { s with
        thread := s.thread.check now s.timeReferenceGps
        refused := true
        streak := [] } := by
  unfold ValidThread.check ValidThread.manageXtal
  rw [href]
  refine ⟨rfl, rfl, fun _ => ?_, fun _ => rfl, fun hlong => ?_⟩
  · simp [hvalid]
  · simp at hlong

/-- The explanation of the state is kept by a pass that accepts the reference. -/
theorem Explained.accept (hi : s.Explained first) (now : ℤ) {xtalErr : Binary64}
    (href : acceptedErr now s.timeReferenceGps = some xtalErr)
    (hvalid : refOk now s.timeReferenceGps = true) :
    Explained first
      { s with
        thread := s.thread.check now s.timeReferenceGps
        streak := s.streak ++ [xtalErr] } := by
  obtain ⟨hcpt, hacc, -, hearly, hlate⟩ := hi
  unfold ValidThread.check ValidThread.manageXtal
  rw [href]
  dsimp only
  rcases lt_trichotomy s.streak.length xerrInitAvg with hlt | heq | hgt
  · -- The error is added to the sum.
    have hcpt' : s.thread.initCpt = s.streak.length := by
      rw [hcpt]
      exact min_eq_left (by omega)
    rw [if_pos (hcpt' ▸ hlt)]
    refine ⟨?_, ?_, fun _ => by simp [hvalid], fun _ => hearly hlt.le, fun hlong => ?_⟩
    · simp only [hcpt', List.length_append, List.length_singleton]
      exact (min_eq_left (by omega)).symm
    · dsimp only
      rw [List.take_of_length_le (by simp; omega), List.foldl_append, hacc,
        List.take_of_length_le hlt.le]
      rfl
    · simp only [List.length_append, List.length_singleton] at hlong
      omega
  · -- The sum is complete.
    have hcpt' : s.thread.initCpt = xerrInitAvg := by
      rw [hcpt, heq]
      rfl
    rw [if_neg (by omega), if_pos hcpt']
    have htake : (s.streak ++ [xtalErr]).take xerrInitAvg = s.streak.take xerrInitAvg :=
      List.take_append_of_le_length heq.ge
    refine ⟨?_, ?_, fun _ => by simp [hvalid], fun hshort => ?_, fun _ => ⟨rfl, ?_⟩⟩
    · simp [hcpt', heq]
    · dsimp only
      rw [htake]
      exact hacc
    · simp only [List.length_append, List.length_singleton] at hshort
      omega
    · dsimp only
      rw [correctionOf, htake, ← hacc, List.drop_of_length_le (by simp [heq]), List.foldl_nil]
  · -- The average is tracked.
    have hcpt' : s.thread.initCpt = xerrInitAvg + 1 := by
      rw [hcpt]
      exact min_eq_right hgt
    rw [if_neg (by omega), if_neg (by omega)]
    have htake : (s.streak ++ [xtalErr]).take xerrInitAvg = s.streak.take xerrInitAvg :=
      List.take_append_of_le_length hgt.le
    obtain ⟨hok, hcorrect⟩ := hlate hgt
    refine ⟨?_, ?_, fun _ => by simp [hvalid], fun hshort => ?_, fun _ => ⟨hok, ?_⟩⟩
    · simp only [hcpt', List.length_append, List.length_singleton]
      exact (min_eq_right (by omega)).symm
    · dsimp only
      rw [htake]
      exact hacc
    · simp only [List.length_append, List.length_singleton] at hshort
      omega
    · dsimp only
      rw [hcorrect, correctionOf, correctionOf, htake, List.drop_append_of_le_length hgt,
        List.foldl_append]
      rfl

theorem Explained.step (hi : s.Explained first) (h : Step s l s') : s'.Explained first := by
  cases h with
  | sync => exact ⟨hi.cpt, hi.acc, hi.refValid, hi.early, hi.late⟩
  | check =>
    rename_i now
    cases hvalid : refOk now s.timeReferenceGps with
    | false =>
      have href : acceptedErr now s.timeReferenceGps = none := by simp [acceptedErr, hvalid]
      rw [href]
      exact .refuse now href hvalid
    | true =>
      have href : acceptedErr now s.timeReferenceGps = some s.timeReferenceGps.xtalErr := by
        simp [acceptedErr, hvalid]
      rw [href]
      exact hi.accept now href hvalid

/-- **The correction is a function of the streak.**  However often the reference is renewed in
between: while no more than 128 errors have been read since a reference was refused there is no
correction, but before the first refusal that of an earlier run; then it is the inverse of the
average of the first 128, filtered with every error from the 130th on. -/
theorem correction_of_streak (ref : Tref) (gpsRefValid xtalCorrectOk : Bool)
    (xtalCorrect : Binary64)
    (h : Runs.Reaches Step Runs.anyStep
      (start ref (.start gpsRefValid xtalCorrectOk xtalCorrect)) s) :
    s.Explained (.start gpsRefValid xtalCorrectOk xtalCorrect) :=
  h.invariant (explained_start ref gpsRefValid xtalCorrectOk xtalCorrect)
    fun _ _ _ _ hi _ hst => hi.step hst

/-- Two hundred passes later there is a correction. -/
theorem correction_of_streak_two_hundred : ∃ s : TimeKeeping, s.streak.length = 200 ∧
    s.thread.initCpt = 129 ∧ s.thread.xtalCorrectOk = true ∧
      s.thread.xtalCorrect = correctionOf s.streak := by
  obtain ⟨s, hs, -, hlen⟩ := reaches_passes 200
  have hexplained := correction_of_streak exampleRef false false (.finite 1)
    (hs.mono fun _ _ _ => trivial)
  refine ⟨s, hlen, ?_, hexplained.late (by rw [hlen]; decide)⟩
  rw [hexplained.cpt, hlen]
  rfl

end TimeKeeping

/-! ## Near to the inverse of the errors -/

section Numbers

variable {lo hi : ℚ}

/-- How far roundings take the correction away from its range. -/
def correctionSlack : ℚ := 1 / 2 ^ 38

/-- A correction of errors between `lo` and `hi`. -/
abbrev CorrectionOf (lo hi : ℚ) (x : Binary64) : Prop :=
  Within (1 / hi - correctionSlack) (1 / lo + correctionSlack) x

/-- The inverses of errors within the range. -/
theorem inverse_bounds (hlo : 1 / 2 ≤ lo) (hlohi : lo ≤ hi) (hhi : hi ≤ 2) :
    1 / 2 ≤ 1 / hi ∧ 1 / hi ≤ 1 / lo ∧ 1 / lo ≤ 2 := by
  have hlopos : 0 < lo := by linarith
  have hhipos : 0 < hi := by linarith
  refine ⟨?_, one_div_le_one_div_of_le hlopos hlohi, ?_⟩
  · exact one_div_le_one_div_of_le hhipos hhi
  · rw [div_le_iff₀ hlopos]
    linarith

/-- The inverse `1 / xtal_err_cpy` lies between the inverses of the bounds, up to its rounding. -/
theorem within_inverse {x : Binary64} (hlo : 1 / 2 ≤ lo) (hlohi : lo ≤ hi) (hhi : hi ≤ 2)
    (hx : Within lo hi x) :
    Within (1 / hi - 1 / 2 ^ 49) (1 / lo + 1 / 2 ^ 49) ((Binary64.finite 1).quotient x) := by
  obtain ⟨q, rfl, hq⟩ := hx
  obtain ⟨hlow, -, hhigh⟩ := inverse_bounds hlo hlohi hhi
  have hqpos : 0 < q := by linarith
  have hqlow : 1 / hi ≤ 1 / q := one_div_le_one_div_of_le hqpos hq.2
  have hqhigh : 1 / q ≤ 1 / lo := one_div_le_one_div_of_le (by linarith) hq.1
  obtain ⟨y, hy, hy₁, hy₂⟩ := exists_ofRat_small (r := 1 / q) (by linarith) (by linarith)
  refine ⟨y, ?_, by linarith, by linarith⟩
  rw [quotient_finite 1 hqpos.ne', hy]

/-- The filter keeps the correction in its range. -/
theorem correctionOf_track {x xtalErr : Binary64} (hlo : 1 / 2 ≤ lo) (hlohi : lo ≤ hi)
    (hhi : hi ≤ 2) (hx : CorrectionOf lo hi x) (hxtal : Within lo hi xtalErr) :
    CorrectionOf lo hi (ValidThread.track x xtalErr) := by
  obtain ⟨hlow, -, hhigh⟩ := inverse_bounds hlo hlohi hhi
  -- One part of the slack is the rounding of the inverse, the rest is that of the filter.
  have hsplitLow : 1 / hi - correctionSlack = 1 / hi - 1 / 2 ^ 49 - (1 / 2 ^ 38 - 1 / 2 ^ 49) := by
    rw [correctionSlack]
    ring
  have hsplitHigh : 1 / lo + correctionSlack = 1 / lo + 1 / 2 ^ 49 + (1 / 2 ^ 38 - 1 / 2 ^ 49) := by
    rw [correctionSlack]
    ring
  unfold CorrectionOf at hx ⊢
  rw [hsplitLow, hsplitHigh] at hx ⊢
  refine within_lowPass (by decide) ?_ ?_ ?_ ?_ hx (within_inverse hlo hlohi hhi hxtal)
  · linarith
  · norm_num
  · linarith
  · norm_num

/-- A number of errors over a sum that is near to that many of them. -/
theorem average_bounds {sum : ℚ} (hlo : 1 / 2 ≤ lo) (hlohi : lo ≤ hi) (hhi : hi ≤ 2)
    (hlow : 128 * (lo - 1 / 2 ^ 43) ≤ sum) (hhigh : sum ≤ 128 * (hi + 1 / 2 ^ 43)) :
    1 / hi - 1 / 2 ^ 40 ≤ 128 / sum ∧ 128 / sum ≤ 1 / lo + 1 / 2 ^ 40 := by
  obtain ⟨hinvLow, hinv, hinvHigh⟩ := inverse_bounds hlo hlohi hhi
  have hsumPos : 0 < sum := by linarith
  have hlone : lo ≠ 0 := by linarith
  have hhine : hi ≠ 0 := by linarith
  constructor
  · have hexpand : (1 / hi - 1 / 2 ^ 40) * (128 * (hi + 1 / 2 ^ 43)) =
        128 + 128 * (1 / hi / 2 ^ 43 - hi / 2 ^ 40 - 1 / 2 ^ 83) := by
      field_simp
      ring
    rw [le_div_iff₀ hsumPos]
    calc (1 / hi - 1 / 2 ^ 40) * sum ≤ (1 / hi - 1 / 2 ^ 40) * (128 * (hi + 1 / 2 ^ 43)) :=
          mul_le_mul_of_nonneg_left hhigh (by linarith)
      _ ≤ 128 := by
        rw [hexpand]
        linarith
  · have hexpand : (1 / lo + 1 / 2 ^ 40) * (128 * (lo - 1 / 2 ^ 43)) =
        128 + 128 * (lo / 2 ^ 40 - 1 / lo / 2 ^ 43 - 1 / 2 ^ 83) := by
      field_simp
      ring
    rw [div_le_iff₀ hsumPos]
    calc 128 ≤ (1 / lo + 1 / 2 ^ 40) * (128 * (lo - 1 / 2 ^ 43)) := by
          rw [hexpand]
          linarith
      _ ≤ (1 / lo + 1 / 2 ^ 40) * sum := mul_le_mul_of_nonneg_left hlow (by linarith)

/-- The correction is within its bounds after the average of the first errors is taken. -/
theorem correctionOf_average {xs : List Binary64} (hlo : 1 / 2 ≤ lo) (hlohi : lo ≤ hi)
    (hhi : hi ≤ 2) (hxs : ∀ x ∈ xs, Within lo hi x) (hlen : xs.length = xerrInitAvg) :
    CorrectionOf lo hi (ValidThread.average (xs.foldl add (.finite 0))) := by
  have hbound : ((128 : ℕ) : ℚ) * (hi + 1) ≤ 2 ^ 51 := by
    push_cast
    linarith
  obtain ⟨sum, hsum, hsumLow, hsumHigh⟩ := within_foldl_add (by linarith) hlohi hbound xs hxs
    hlen.le
  rw [hlen] at hsumLow hsumHigh
  push_cast at hsumLow hsumHigh
  have hlow : 128 * (lo - 1 / 2 ^ 43) ≤ sum := le_trans (by linarith) hsumLow
  have hhigh : sum ≤ 128 * (hi + 1 / 2 ^ 43) := hsumHigh.trans (by linarith)
  obtain ⟨hquotLow, hquotHigh⟩ := average_bounds hlo hlohi hhi hlow hhigh
  obtain ⟨hinvLow, -, hinvHigh⟩ := inverse_bounds hlo hlohi hhi
  have hsumNe : sum ≠ 0 := by linarith
  obtain ⟨y, hy, hy₁, hy₂⟩ := exists_ofRat_small (r := 128 / sum) (by linarith) (by linarith)
  refine ⟨y, ?_, ?_, ?_⟩
  · rw [ValidThread.average, hsum]
    push_cast
    rw [quotient_finite _ hsumNe, hy]
  · rw [correctionSlack]
    linarith
  · rw [correctionSlack]
    linarith

/-- **The correction is within its bounds after a streak of any length.** -/
theorem correctionOf_streak {streak : List Binary64} (hlo : 1 / 2 ≤ lo) (hlohi : lo ≤ hi)
    (hhi : hi ≤ 2) (hstreak : ∀ x ∈ streak, Within lo hi x) (hlen : xerrInitAvg < streak.length) :
    CorrectionOf lo hi (TimeKeeping.correctionOf streak) := by
  have haverage : CorrectionOf lo hi
      (ValidThread.average ((streak.take xerrInitAvg).foldl add (.finite 0))) :=
    correctionOf_average hlo hlohi hhi (fun x hx => hstreak x (List.mem_of_mem_take hx))
      (List.length_take_of_le hlen.le)
  have htracked : ∀ x ∈ streak.drop (xerrInitAvg + 1), Within lo hi x :=
    fun x hx => hstreak x (List.mem_of_mem_drop hx)
  unfold TimeKeeping.correctionOf
  generalize ValidThread.average _ = x at haverage
  generalize streak.drop _ = errs at htracked
  induction errs generalizing x with
  | nil => exact haverage
  | cons xtalErr errs ih =>
    obtain ⟨hfirst, hrest⟩ := List.forall_mem_cons.mp htracked
    exact ih _ (correctionOf_track hlo hlohi hhi haverage hfirst) hrest

end Numbers

/-! ## The frequency of a beacon -/

/-- `(uint32_t)(xtal_correct * (double)pkt.freq_hz)`. -/
def correctedFreq (castOutside : (w : ℕ) → Binary64 → BitVec w) (xtalCorrect : Binary64)
    (freqHz : U32) : U32 :=
  (xtalCorrect.mul (.finite freqHz.toNat)).toUnsigned castOutside 32

/-- Without a correction the frequency stays as it is. -/
theorem correctedFreq_one (castOutside : (w : ℕ) → Binary64 → BitVec w) (freqHz : U32) :
    correctedFreq castOutside (.finite 1) freqHz = freqHz := by
  have hexact : (Binary64.finite 1).mul (.finite freqHz.toNat) = .finite freqHz.toNat := by
    have hlt : |(freqHz.toNat : ℤ)| < 2 ^ 53 := by
      rw [abs_of_nonneg (Int.natCast_nonneg _)]
      have hlt32 := freqHz.isLt
      omega
    have hint := ofRat_intCast hlt
    rw [mul_finite, one_mul]
    exact_mod_cast hint
  apply BitVec.eq_of_toNat_eq
  rw [correctedFreq, hexact, toNat_toUnsigned (truncated_natCast _) freqHz.isLt]

/-- With one it is as near to the true one as the truncation allows. -/
theorem correctedFreq_bounds {lo hi : ℚ} {xtalCorrect : Binary64} (hlo : 1 / 2 ≤ lo)
    (hlohi : lo ≤ hi) (hhi : hi ≤ 2) (hx : CorrectionOf lo hi xtalCorrect)
    (castOutside : (w : ℕ) → Binary64 → BitVec w) {freqHz : U32}
    (hfits : freqHz.toNat / lo + 1 ≤ 2 ^ 32) :
    freqHz.toNat / hi - 2 < (correctedFreq castOutside xtalCorrect freqHz).toNat ∧
      (correctedFreq castOutside xtalCorrect freqHz).toNat < freqHz.toNat / lo + 1 := by
  obtain ⟨c, rfl, hc⟩ := hx
  obtain ⟨hinvLow, hinv, hinvHigh⟩ := inverse_bounds hlo hlohi hhi
  unfold correctedFreq
  have hfreq : (freqHz.toNat : ℚ) ≤ 2 ^ 32 := by exact_mod_cast freqHz.isLt.le
  generalize freqHz.toNat = f at hfreq hfits ⊢
  have hf : (0 : ℚ) ≤ f := Nat.cast_nonneg f
  have hslack : (f : ℚ) * correctionSlack ≤ 1 / 4 := by
    rw [correctionSlack]
    linarith
  have hlow : f / hi - 1 / 4 ≤ c * f := by
    have hmul := mul_le_mul_of_nonneg_right hc.1 hf
    have hexpand : (1 / hi - correctionSlack) * f = f / hi - f * correctionSlack := by ring
    linarith
  have hhigh : c * f ≤ f / lo + 1 / 4 := by
    have hmul := mul_le_mul_of_nonneg_right hc.2 hf
    have hexpand : (1 / lo + correctionSlack) * f = f / lo + f * correctionSlack := by ring
    linarith
  have hquot : (0 : ℚ) ≤ f / hi := div_nonneg hf (by linarith)
  have hsize : |c * f| ≤ 2 ^ 33 := abs_le.mpr ⟨by linarith, by linarith⟩
  obtain ⟨q, hq, herror⟩ := exists_ofRat_within hsize (by norm_num)
  rw [abs_le] at herror
  have hqlow : f / hi - 1 / 2 ≤ q := by linarith
  have hqhigh : q ≤ f / lo + 1 / 2 := by linarith
  obtain ⟨k, hk, hklow, hkhigh⟩ := exists_truncated (q := q) (by linarith)
  have hkq : (k : ℚ) < f / lo + 1 := by
    have hnonneg : (0 : ℚ) ≤ f / lo := div_nonneg hf (by linarith)
    refine hkhigh.trans_lt (max_lt ?_ ?_)
    · linarith
    · linarith
  have hkfits : k < 2 ^ 32 := by
    have hltq : (k : ℚ) < 2 ^ 32 := hkq.trans_le hfits
    exact_mod_cast hltq
  rw [mul_finite, hq, toNat_toUnsigned hk hkfits]
  exact ⟨by linarith, hkq⟩

/-! ## Runs of any length -/

/-- What a thread may find: no correction, or one of errors between `lo` and `hi`. -/
def ValidThread.Sound (lo hi : ℚ) (s : ValidThread) : Prop :=
  (s.xtalCorrectOk = false → s.xtalCorrect = .finite 1) ∧
    (s.xtalCorrectOk = true → CorrectionOf lo hi s.xtalCorrect)

namespace TimeKeeping

variable {lo hi : ℚ} {s : TimeKeeping} {first : ValidThread}

/-- Where the errors lie between `lo` and `hi`, all that have been read do. -/
theorem streak_within {ref : Tref}
    (h : Runs.Reaches Step (ErrWithin lo hi) (start ref first) s) :
    ∀ x ∈ s.streak, Within lo hi x := by
  refine h.invariant (I := fun s => ∀ x ∈ s.streak, Within lo hi x) ?_ ?_
  · intro x hx
    exact absurd hx List.not_mem_nil
  · intro s l s' _ hi hok hst
    cases hst with
    | sync => exact hi
    | check =>
      rename_i now
      unfold seen acceptedErr
      cases hvalid : refOk now s.timeReferenceGps with
      | false =>
        intro x hx
        simp at hx
      | true =>
        intro x hx
        simp only [if_true, List.mem_append, List.mem_singleton] at hx
        rcases hx with hx | rfl
        · exact hi x hx
        · exact hok hvalid

/-- A state whose correction is explained by a streak of bounded errors is sound. -/
theorem Explained.sound (hi' : s.Explained first) (hlo : 1 / 2 ≤ lo) (hlohi : lo ≤ hi)
    (hhi : hi ≤ 2) (hstreak : ∀ x ∈ s.streak, Within lo hi x) (hfirst : first.Sound lo hi) :
    s.thread.Sound lo hi := by
  rcases le_or_gt s.streak.length xerrInitAvg with hshort | hlong
  · have hearly := hi'.early hshort
    cases hrefused : s.refused with
    | false =>
      rw [hrefused] at hearly
      obtain ⟨hok, hcorrect⟩ := Prod.mk.inj hearly
      unfold ValidThread.Sound
      rw [hok, hcorrect]
      exact hfirst
    | true =>
      rw [hrefused] at hearly
      obtain ⟨hok, hcorrect⟩ := Prod.mk.inj hearly
      unfold ValidThread.Sound
      rw [hok, hcorrect]
      exact ⟨fun _ => rfl, fun h => absurd h (by decide)⟩
  · obtain ⟨hok, hcorrect⟩ := hi'.late hlong
    unfold ValidThread.Sound
    rw [hok, hcorrect]
    exact ⟨fun h => absurd h (by decide), fun _ =>
      correctionOf_streak hlo hlohi hhi hstreak hlong⟩

/-- **The correction stays within its range.**  Where the errors that are read lie between `lo`
and `hi`, in a run of any length the correction lies between their inverses but for `2 ^ -38`,
from the first that is valid: the roundings of the filter do not add up.  So a beacon is sent
within two hertz of its frequency corrected by such an error, and without a valid correction on
its frequency as it is. -/
theorem correction_within (ref : Tref) (gpsRefValid xtalCorrectOk : Bool) (xtalCorrect : Binary64)
    (hlo : 1 / 2 ≤ lo) (hlohi : lo ≤ hi) (hhi : hi ≤ 2)
    (hfirst : (ValidThread.start gpsRefValid xtalCorrectOk xtalCorrect).Sound lo hi)
    (h : Runs.Reaches Step (ErrWithin lo hi)
      (start ref (.start gpsRefValid xtalCorrectOk xtalCorrect)) s) :
    s.thread.Sound lo hi ∧ ∀ (castOutside : (w : ℕ) → Binary64 → BitVec w) (freqHz : U32),
      (s.thread.xtalCorrectOk = false →
        correctedFreq castOutside s.thread.xtalCorrect freqHz = freqHz) ∧
      (s.thread.xtalCorrectOk = true → freqHz.toNat / lo + 1 ≤ 2 ^ 32 →
        freqHz.toNat / hi - 2 <
          (correctedFreq castOutside s.thread.xtalCorrect freqHz).toNat ∧
        (correctedFreq castOutside s.thread.xtalCorrect freqHz).toNat <
          freqHz.toNat / lo + 1) := by
  have hexplained : s.Explained (.start gpsRefValid xtalCorrectOk xtalCorrect) :=
    h.invariant (explained_start ref gpsRefValid xtalCorrectOk xtalCorrect)
      fun _ _ _ _ hi _ hst => hi.step hst
  have hsound := hexplained.sound hlo hlohi hhi (streak_within h) hfirst
  refine ⟨hsound, fun castOutside freqHz => ⟨fun hnone => ?_, fun hok hfits => ?_⟩⟩
  · rw [hsound.1 hnone, correctedFreq_one]
  · exact correctedFreq_bounds hlo hlohi hhi (hsound.2 hok) castOutside hfits

theorem sound_first (lo hi : ℚ) (gpsRefValid : Bool) :
    (ValidThread.start gpsRefValid false (.finite 1)).Sound lo hi :=
  ⟨fun _ => rfl, fun h => absurd h Bool.false_ne_true⟩

/-- A beacon on 869.525 MHz after as many. -/
theorem correction_within_two_hundred : ∃ s : TimeKeeping, s.streak.length = 200 ∧
    (s.thread.xtalCorrectOk = true →
      869516303 ≤ (correctedFreq (fun _ _ => 0) s.thread.xtalCorrect 869525000).toNat ∧
        (correctedFreq (fun _ _ => 0) s.thread.xtalCorrect 869525000).toNat ≤ 869533696) := by
  obtain ⟨s, hs, -, hlen⟩ := reaches_passes 200
  obtain ⟨-, hfreq⟩ := correction_within exampleRef false false (.finite 1) (by norm_num)
    (by norm_num) (by norm_num) (sound_first _ _ false) hs
  refine ⟨s, hlen, fun hok => ?_⟩
  have hnat : (869525000 : U32).toNat = 869525000 := rfl
  obtain ⟨hlow, hhigh⟩ := (hfreq (fun _ _ => 0) 869525000).2 hok (by rw [hnat]; norm_num)
  rw [hnat] at hlow hhigh
  generalize (correctedFreq (fun _ _ => 0) s.thread.xtalCorrect 869525000).toNat = k at hlow hhigh
  constructor
  · have hlt : (869516302 : ℚ) < k := lt_of_le_of_lt (by norm_num) hlow
    have hlt' : 869516302 < k := by exact_mod_cast hlt
    exact hlt'
  · have hlt : (k : ℚ) < 869533697 := hhigh.trans_le (by norm_num)
    have hlt' : k < 869533697 := by exact_mod_cast hlt
    omega

end TimeKeeping

end PacketForwarder
