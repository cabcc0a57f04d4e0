import Mathlib

/-!
# Runs of a labelled transition system

A system is a step relation `step : σ → ℓ → σ → Prop`; the label says who moves
and with what input.

* `Reaches step ok s₀ s` — `s` is reached from `s₀` by steps each of which
  satisfies the guard `ok` in the state it leaves.  With the guard that is
  always true these are all the runs;
* `Reaches.invariant` — what holds at the start and is kept by every guarded
  step holds in every state reached, the one induction all safety results use;
* `Reaches.mono` and `Reaches.trans` — guards can be weakened, runs composed;
* `Reaches.simulated` — what another system can follow step by step, it can follow for a
  whole run;
* `Trace` — a run with all its labels, `Trace.invariant` the rule for what holds of a
  state and of the labels that led to it;
* `after`, `Along` — where a label determines the next state, a list of labels
  that are allowed in turn is a run;
* `Restored.after` — what is changed in such a run and always restored later is at its end
  as it was at its start.
-/

namespace Runs

variable {σ ℓ : Type*} {step : σ → ℓ → σ → Prop} {ok : σ → ℓ → Prop} {s₀ s : σ}

/-- The states reached from `s₀` by steps that satisfy `ok`. -/
inductive Reaches (step : σ → ℓ → σ → Prop) (ok : σ → ℓ → Prop) (s₀ : σ) : σ → Prop
  | start : Reaches step ok s₀ s₀
  | next {s s' : σ} {l : ℓ} : Reaches step ok s₀ s → ok s l → step s l s' →
      Reaches step ok s₀ s'

/-- The guard that allows every step. -/
def anyStep : σ → ℓ → Prop := fun _ _ => True

/-- **The invariant rule.**  What the start satisfies and every guarded step from
a reached state keeps, every reached state satisfies. -/
theorem Reaches.invariant {I : σ → Prop} (h₀ : I s₀)
    (hs : ∀ s l s', Reaches step ok s₀ s → I s → ok s l → step s l s' → I s')
    (h : Reaches step ok s₀ s) : I s := by
  induction h with
  | start => exact h₀
  | next hr hok hst ih => exact hs _ _ _ hr ih hok hst

/-- A weaker guard reaches at least as much. -/
theorem Reaches.mono {ok' : σ → ℓ → Prop} (hw : ∀ s l, ok s l → ok' s l)
    (h : Reaches step ok s₀ s) : Reaches step ok' s₀ s := by
  induction h with
  | start => exact .start
  | next _ hok hst ih => exact .next ih (hw _ _ hok) hst

/-- A run can be followed by another one. -/
theorem Reaches.trans {s₁ : σ} (h₁ : Reaches step ok s₀ s₁) (h₂ : Reaches step ok s₁ s) :
    Reaches step ok s₀ s := by
  induction h₂ with
  | start => exact h₁
  | next _ hok hst ih => exact .next ih hok hst

/-- **The simulation rule.**  If every guarded step can be followed by a run of another system
that restores a relation, every reached state is related to one the other system reaches. -/
theorem Reaches.simulated {τ m : Type*} {step' : τ → m → τ → Prop} {ok' : τ → m → Prop} {t₀ : τ}
    {R : σ → τ → Prop} (h₀ : R s₀ t₀)
    (hs : ∀ s l s' t, Reaches step ok s₀ s → Reaches step' ok' t₀ t → R s t → ok s l →
      step s l s' → ∃ t', Reaches step' ok' t t' ∧ R s' t')
    (h : Reaches step ok s₀ s) : ∃ t, Reaches step' ok' t₀ t ∧ R s t := by
  induction h with
  | start => exact ⟨t₀, .start, h₀⟩
  | next hr hok hst ih =>
    obtain ⟨t, ht, hR⟩ := ih
    obtain ⟨t', ht', hR'⟩ := hs _ _ _ _ hr ht hR hok hst
    exact ⟨t', ht.trans ht', hR'⟩

/-! ## Runs with their labels -/

/-- A run from one state to another one, with all its labels in order. -/
inductive Trace (step : σ → ℓ → σ → Prop) : σ → List ℓ → σ → Prop
  | nil {s : σ} : Trace step s [] s
  | cons {s s' s'' : σ} {l : ℓ} {ls : List ℓ} : step s l s' → Trace step s' ls s'' →
      Trace step s (l :: ls) s''

/-- A run can be cut anywhere. -/
theorem Trace.append_iff {ls ls' : List ℓ} :
    Trace step s₀ (ls ++ ls') s ↔ ∃ s', Trace step s₀ ls s' ∧ Trace step s' ls' s := by
  constructor
  · intro h
    induction ls generalizing s₀ with
    | nil => exact ⟨s₀, .nil, h⟩
    | cons l ls ih =>
      cases h with
      | cons hst hrest =>
        obtain ⟨s', hls, hls'⟩ := ih hrest
        exact ⟨s', .cons hst hls, hls'⟩
  · rintro ⟨s', h, h'⟩
    induction h with
    | nil => exact h'
    | cons hst _ ih => exact .cons hst (ih h')

/-- **The invariant rule with labels.**  What holds at the start and is kept by every step holds of
the last state and the labels that led to it. -/
theorem Trace.invariant {I : σ → List ℓ → Prop} {ls : List ℓ} (h₀ : I s₀ [])
    (hs : ∀ s ls l s', I s ls → step s l s' → I s' (ls ++ [l])) (h : Trace step s₀ ls s) :
    I s ls := by
  have hafter : ∀ pre, I s₀ pre → I s (pre ++ ls) := by
    clear h₀
    induction h with
    | nil =>
      intro pre hpre
      rwa [List.append_nil]
    | @cons s s' s'' l ls hst _ ih =>
      intro pre hpre
      have hnext := ih (pre ++ [l]) (hs s pre l s' hpre hst)
      rwa [List.append_assoc] at hnext
  exact hafter [] h₀

/-! ## Runs given by their labels -/

section Deterministic

variable (next : σ → ℓ → σ)

/-- The state after a list of labels. -/
def after (s : σ) (ls : List ℓ) : σ := ls.foldl next s

/-- Each label satisfies `good` in the state it is taken in. -/
def Along (good : σ → ℓ → Prop) : σ → List ℓ → Prop
  | _, [] => True
  | s, l :: ls => good s l ∧ Along good (next s l) ls

instance Along.decidable (good : σ → ℓ → Prop) [∀ s l, Decidable (good s l)] :
    ∀ s ls, Decidable (Along next good s ls)
  | _, [] => inferInstanceAs (Decidable True)
  | s, l :: ls =>
    have := Along.decidable good (next s l) ls
    inferInstanceAs (Decidable (good s l ∧ _))

/-- Some label of the list satisfies `good` in the state it is taken in. -/
def Eventually (good : σ → ℓ → Prop) : σ → List ℓ → Prop
  | _, [] => False
  | s, l :: ls => good s l ∨ Eventually good (next s l) ls

/-- Every label that `changes` something is followed by one that `restores` it. -/
def Restored (changes restores : σ → ℓ → Prop) : σ → List ℓ → Prop
  | _, [] => True
  | s, l :: ls => (changes s l → Eventually next restores (next s l) ls) ∧
    Restored changes restores (next s l) ls

instance Eventually.decidable (good : σ → ℓ → Prop) [∀ s l, Decidable (good s l)] :
    ∀ s ls, Decidable (Eventually next good s ls)
  | _, [] => inferInstanceAs (Decidable False)
  | s, l :: ls =>
    have := Eventually.decidable good (next s l) ls
    inferInstanceAs (Decidable (good s l ∨ _))

instance Restored.decidable (changes restores : σ → ℓ → Prop) [∀ s l, Decidable (changes s l)]
    [∀ s l, Decidable (restores s l)] : ∀ s ls, Decidable (Restored next changes restores s ls)
  | _, [] => inferInstanceAs (Decidable True)
  | s, l :: ls =>
    have := Restored.decidable changes restores (next s l) ls
    inferInstanceAs (Decidable ((changes s l → _) ∧ _))

variable {next}

/-- **The restoring rule.**  What only some labels break, each of which is followed by one that
establishes it again, holds at the end of the run if it did at the start. -/
theorem Restored.after {P : σ → Prop} {changes restores : σ → ℓ → Prop} {ls : List ℓ} (h₀ : P s)
    (hkeep : ∀ s l, ¬changes s l → P s → P (next s l))
    (hrestore : ∀ s l, restores s l → P (next s l)) (hr : Restored next changes restores s ls) :
    P (after next s ls) := by
  -- Along the run the property holds, or what will establish it is still to come.
  have hpending : P s ∨ Eventually next restores s ls := .inl h₀
  clear h₀
  induction ls generalizing s with
  | nil => exact hpending.resolve_right id
  | cons l ls ih =>
    obtain ⟨hchange, hrest⟩ := hr
    refine ih hrest ?_
    rcases hpending with hP | hnow | hlater
    · by_cases hl : changes s l
      · exact .inr (hchange hl)
      · exact .inl (hkeep s l hl hP)
    · exact .inl (hrestore s l hnow)
    · exact .inr hlater

/-- A list of labels that are allowed in turn is a run. -/
theorem Reaches.after (good : σ → ℓ → Prop) (h : Reaches step ok s₀ s) {ls : List ℓ}
    (hgood : ∀ s l, good s l → ok s l ∧ step s l (next s l)) (ha : Along next good s ls) :
    Reaches step ok s₀ (after next s ls) := by
  induction ls generalizing s with
  | nil => exact h
  | cons l ls ih =>
    obtain ⟨hl, hls⟩ := ha
    obtain ⟨hok, hst⟩ := hgood s l hl
    exact ih (h.next hok hst) hls

/-- It is a run with these labels. -/
theorem Trace.after (good : σ → ℓ → Prop) {ls : List ℓ}
    (hgood : ∀ s l, good s l → step s l (next s l)) (ha : Along next good s ls) :
    Trace step s ls (after next s ls) := by
  induction ls generalizing s with
  | nil => exact .nil
  | cons l ls ih => exact .cons (hgood s l ha.1) (ih ha.2)

end Deterministic

end Runs
