import Mathlib

/-!
# Searches one after the other

A loop has some searches to make, one after the other.  A search tries its candidates
0, 1, 2, … in turn, one in each pass, and ends with the first that is a hit; then the
next search begins.  The passes are counted from 0 over the whole loop.

* `Searches` — such a loop, given by what there is still to find before each pass, the
  passes at which a search begins, and the hits;
* `Searches.todo_of_miss` — without a hit there is no progress;
* `Searches.ends_iff` — the loop ends exactly if every search that begins has a hit.
-/

/-- A loop that makes one search after the other until nothing is left to do. -/
structure Searches where
  /-- How many searches are left before pass `n`. -/
  todo : ℕ → ℕ
  /-- A search begins with pass `n`. -/
  Begins : ℕ → Prop
  /-- Candidate `k` of the search that begins with pass `n` is a hit. -/
  Hit : ℕ → ℕ → Prop
  begins_zero : Begins 0
  /-- Where nothing is left to do it stays so. -/
  done : ∀ n, todo n = 0 → todo (n + 1) = 0
  miss : ∀ n k, Begins n → 0 < todo n → (∀ j < k, ¬Hit n j) → todo (n + k) = todo n
  hit : ∀ n k, Begins n → 0 < todo n → (∀ j < k, ¬Hit n j) → Hit n k →
    Begins (n + k + 1) ∧ todo (n + k + 1) + 1 = todo n

namespace Searches

variable (S : Searches)

theorem todo_eq_zero_of_le {m n : ℕ} (hle : m ≤ n) (hm : S.todo m = 0) : S.todo n = 0 := by
  induction n, hle using Nat.le_induction with
  | base => exact hm
  | succ n _ ih => exact S.done n ih

/-- A search without a hit never ends. -/
theorem todo_of_miss {n : ℕ} (hb : S.Begins n) (ht : 0 < S.todo n) (hmiss : ∀ k, ¬S.Hit n k)
    (m : ℕ) : 0 < S.todo m := by
  by_contra h
  have hm : S.todo m = 0 := Nat.eq_zero_of_not_pos h
  have hlater : S.todo (n + m) = 0 := S.todo_eq_zero_of_le (Nat.le_add_left m n) hm
  have hkept : S.todo (n + m) = S.todo n := S.miss n m hb ht fun j _ => hmiss j
  omega

/-- From the beginning of a search the loop ends, if every search that begins later has a
hit. -/
theorem ends_of_hits (hhits : ∀ n, S.Begins n → 0 < S.todo n → ∃ k, S.Hit n k) {n : ℕ}
    (hb : S.Begins n) : ∃ m, S.todo m = 0 := by
  induction ht : S.todo n generalizing n with
  | zero => exact ⟨n, ht⟩
  | succ t ih =>
    have hpos : 0 < S.todo n := by omega
    have hex := hhits n hb hpos
    classical
    obtain ⟨hbegins, htodo⟩ := S.hit n (Nat.find hex) hb hpos
      (fun j hj => Nat.find_min hex hj) (Nat.find_spec hex)
    exact ih hbegins (by omega)

/-- **The loop ends exactly if every search that begins has a hit.** -/
theorem ends_iff :
    (∃ n, S.todo n = 0) ↔ ∀ n, S.Begins n → 0 < S.todo n → ∃ k, S.Hit n k := by
  constructor
  · rintro ⟨m, hm⟩ n hb ht
    by_contra hno
    have hpos := S.todo_of_miss hb ht (fun k hk => hno ⟨k, hk⟩) m
    omega
  · intro hhits
    exact S.ends_of_hits hhits S.begins_zero

end Searches
