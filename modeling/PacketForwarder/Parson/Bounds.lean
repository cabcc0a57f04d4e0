import PacketForwarder.Parson.Values

/-!
# What the parser accepts is within its bounds

Whatever the text is.

* `getQuotedString_bounds` — **a string fits the buffer it is written to**, and nothing behind
  its closing quote is read;
* `parseValue_suffix` — what is left is an end of the text, so that the loops take fewer
  rounds than there are characters (`parseItems_rounds`, `parseMembers_rounds`);
* `jsonParseString_withinLimits` — **a tree that is returned is within the limits**: no deeper
  than `MAX_NESTING`, no more members and items than the capacities, no name twice.
-/

namespace PacketForwarder

/-! ## Strings -/

/-- What `skip_quotes` takes in one round: a character, or two if the first is a backslash. -/
def IsUnit (u : CString) : Prop := (∃ c, u = [c] ∧ c ≠ 34 ∧ c ≠ 92) ∨ ∃ c, u = [92, c]

/-- Rounds, then the closing quote: or the text has ended. -/
theorem skipQuotesLoop_cases (s : CString) :
    skipQuotesLoop s = [] ∨ ∃ units : List CString, (∀ u ∈ units, IsUnit u) ∧
      s = units.flatten ++ 34 :: skipQuotesLoop s := by
  induction s using skipQuotesLoop.induct with
  | case1 => exact .inl rfl
  | case2 s =>
    rw [skipQuotesLoop_quote]
    exact .inr ⟨[], by simp, rfl⟩
  | case3 =>
    left
    rfl
  | case4 c s hquote ih =>
    rw [skipQuotesLoop_backslash]
    refine ih.imp id fun ⟨units, hunits, hs⟩ => ⟨[92, c] :: units, ?_, ?_⟩
    · exact List.forall_mem_cons.mpr ⟨.inr ⟨c, rfl⟩, hunits⟩
    · simpa using hs
  | case5 c s hquote hbackslash ih =>
    rw [skipQuotesLoop_cons hquote hbackslash]
    refine ih.imp id fun ⟨units, hunits, hs⟩ => ⟨[c] :: units, ?_, ?_⟩
    · exact List.forall_mem_cons.mpr ⟨.inl ⟨c, rfl, hquote, hbackslash⟩, hunits⟩
    · simpa using hs

/-- Units do not end a string. -/
theorem skipQuotesLoop_units {units : List CString} (hunits : ∀ u ∈ units, IsUnit u)
    (rest : CString) : skipQuotesLoop (units.flatten ++ 34 :: rest) = rest := by
  induction units with
  | nil => exact skipQuotesLoop_quote rest
  | cons u units ih =>
    obtain ⟨hu, hunits'⟩ := List.forall_mem_cons.mp hunits
    rw [List.flatten_cons, List.append_assoc]
    rcases hu with ⟨c, rfl, hquote, hbackslash⟩ | ⟨c, rfl⟩
    · exact (skipQuotesLoop_cons hquote hbackslash _).trans (ih hunits')
    · exact (skipQuotesLoop_backslash c _).trans (ih hunits')

/-- The first unit of a string, by its first character. -/
theorem units_of_cons {units : List CString} (hunits : ∀ u ∈ units, IsUnit u) {c : U8}
    {s rest : CString} (heq : units.flatten ++ 34 :: rest = c :: s) (hc : c ≠ 34) :
    (c ≠ 92 ∧ ∃ units', units = [c] :: units' ∧ s = units'.flatten ++ 34 :: rest) ∨
      c = 92 ∧ ∃ d units', units = [92, d] :: units' ∧ s = d :: (units'.flatten ++ 34 :: rest) := by
  cases units with
  | nil => exact absurd (List.cons.inj heq).1.symm hc
  | cons u units =>
    obtain ⟨hu, -⟩ := List.forall_mem_cons.mp hunits
    rcases hu with ⟨d, rfl, -, hd⟩ | ⟨d, rfl⟩
    · obtain ⟨rfl, hs⟩ := List.cons.inj heq
      exact .inl ⟨hd, units, rfl, hs.symm⟩
    · obtain ⟨rfl, hs⟩ := List.cons.inj heq
      exact .inr ⟨rfl, d, units, rfl, hs.symm⟩

/-- A hexadecimal digit is a unit of its own. -/
theorem units_of_hex {units : List CString} (hunits : ∀ u ∈ units, IsUnit u) {c : U8}
    {s rest : CString} (heq : units.flatten ++ 34 :: rest = c :: s) (hc : isHexDigit c = true) :
    ∃ units', units = [c] :: units' ∧ s = units'.flatten ++ 34 :: rest := by
  rcases units_of_cons hunits heq (isHexDigit_ne hc).1 with ⟨-, h⟩ | ⟨h, -⟩
  · exact h
  · exact absurd h (isHexDigit_ne hc).2

/-- Four of them stand in front of the quote. -/
theorem units_of_isUtf16Hex {units : List CString} (hunits : ∀ u ∈ units, IsUnit u)
    {rest : CString} (h : isUtf16Hex (units.flatten ++ 34 :: rest) = true) :
    ∃ (q : HexQuad) (units' : List CString), (∀ u ∈ units', IsUnit u) ∧
      units.flatten = q.text ++ units'.flatten := by
  simp only [isUtf16Hex, Bool.and_eq_true, decide_eq_true_eq] at h
  obtain ⟨hlen, hall⟩ := h
  obtain ⟨a, b, c, d, s, hs⟩ :
      ∃ a b c d s, units.flatten ++ 34 :: rest = a :: b :: c :: d :: s := by
    generalize units.flatten ++ 34 :: rest = l at hlen
    rcases l with _ | ⟨a, _ | ⟨b, _ | ⟨c, _ | ⟨d, s⟩⟩⟩⟩
    case cons.cons.cons.cons => exact ⟨a, b, c, d, s, rfl⟩
    all_goals simp at hlen
  rw [hs] at hall
  simp only [List.take_succ_cons, List.take_zero, List.all_cons, List.all_nil, Bool.and_true,
    Bool.and_eq_true] at hall
  obtain ⟨ha, hb, hc, hd⟩ := hall
  obtain ⟨units₁, rfl, h₁⟩ := units_of_hex hunits hs ha
  obtain ⟨-, hunits₁⟩ := List.forall_mem_cons.mp hunits
  obtain ⟨units₂, rfl, h₂⟩ := units_of_hex hunits₁ h₁.symm hb
  obtain ⟨-, hunits₂⟩ := List.forall_mem_cons.mp hunits₁
  obtain ⟨units₃, rfl, h₃⟩ := units_of_hex hunits₂ h₂.symm hc
  obtain ⟨-, hunits₃⟩ := List.forall_mem_cons.mp hunits₂
  obtain ⟨units₄, rfl, -⟩ := units_of_hex hunits₃ h₃.symm hd
  obtain ⟨-, hunits₄⟩ := List.forall_mem_cons.mp hunits₃
  exact ⟨⟨a, b, c, d, ha, hb, hc, hd⟩, units₄, hunits₄, rfl⟩

/-- What an escape may do: not look behind the quote, read whole units, and write no more
characters than it reads. -/
def EscapeBounds (units : List CString) (read : CString → Option (CString × ℕ)) : Prop :=
  (∀ rest rest', read (units.flatten ++ 34 :: rest) = read (units.flatten ++ 34 :: rest')) ∧
    ∀ rest bytes k, read (units.flatten ++ 34 :: rest) = some (bytes, k) → bytes.length ≤ k ∧
      ∃ (head : CString) (units' : List CString), (∀ u ∈ units', IsUnit u) ∧
        units.flatten = head ++ units'.flatten ∧ head.length = k

/-- A character of the first plane is known from four digits. -/
theorem parseUtf16_of_not_lead (q : HexQuad)
    (h : ¬(0xD800 ≤ BitVec.ofNat 32 q.value ∧ BitVec.ofNat 32 q.value ≤ 0xDBFF)) :
    ∃ result : Option (CString × ℕ), (∀ t, parseUtf16 (q.text ++ t) = result) ∧
      ∀ bytes k, result = some (bytes, k) → bytes.length ≤ 4 ∧ k = 4 := by
  refine ⟨parseUtf16 (q.text ++ []), fun t => ?_, fun bytes k hsome => ?_⟩
  · unfold parseUtf16
    rw [isUtf16Hex_text, scanHex_text, isUtf16Hex_text, scanHex_text]
    simp only [if_neg h]
  · unfold parseUtf16 at hsome
    rw [isUtf16Hex_text, scanHex_text] at hsome
    simp only [if_neg h, Bool.true_eq_false, if_false] at hsome
    split at hsome
    · cases hsome
      exact ⟨by simp, rfl⟩
    · split at hsome
      · cases hsome
        exact ⟨by simp, rfl⟩
      · split at hsome
        · cases hsome
          exact ⟨by simp, rfl⟩
        · cases hsome

/-- The first half of a character asks for the second. -/
theorem parseUtf16_of_lead (q : HexQuad)
    (h : 0xD800 ≤ BitVec.ofNat 32 q.value ∧ BitVec.ofNat 32 q.value ≤ 0xDBFF) :
    ∃ result : U32 → Option (CString × ℕ),
      (∀ t, parseUtf16 (q.text ++ t) =
        if [92, 117] <+: t ∧ isUtf16Hex (t.drop 2) = true then result (scanHex (t.drop 2))
        else none) ∧
      ∀ trail bytes k, result trail = some (bytes, k) → bytes.length ≤ 10 ∧ k = 10 := by
  have hsmall : ¬BitVec.ofNat 32 q.value < 0x80 ∧ ¬BitVec.ofNat 32 q.value < 0x800 ∧
      ¬(BitVec.ofNat 32 q.value < 0xD800 ∨ 0xDFFF < BitVec.ofNat 32 q.value) := by
    bv_omega
  obtain ⟨h7, h11, hsingle⟩ := hsmall
  refine ⟨fun trail => if trail < 0xDC00 ∨ 0xDFFF < trail then none else
    let cp := (((BitVec.ofNat 32 q.value - 0xD800) &&& 0x3FF) <<< 10 |||
      ((trail - 0xDC00) &&& 0x3FF)) + 0x010000
    some ([utf8Byte cp 18 0x07 0xF0, utf8Byte cp 12 0x3F 0x80, utf8Byte cp 6 0x3F 0x80,
      utf8Byte cp 0 0x3F 0x80], 10), fun t => ?_, fun trail bytes k hsome => ?_⟩
  · have hdrop4 : (q.text ++ t).drop 4 = t := rfl
    have hdrop6 : (q.text ++ t).drop 6 = t.drop 2 := by
      rw [← hdrop4, List.drop_drop]
      rfl
    unfold parseUtf16
    rw [isUtf16Hex_text, scanHex_text, hdrop4, hdrop6]
    simp only [Bool.true_eq_false, if_false, if_neg h7, if_neg h11, if_neg hsingle, if_pos h]
    by_cases hsecond : [92, 117] <+: t ∧ isUtf16Hex (t.drop 2) = true
    · rw [if_pos hsecond]
      simp only [hsecond.1, hsecond.2, not_true, Bool.true_eq_false, false_or]
    · have hfail : ¬[92, 117] <+: t ∨ isUtf16Hex (t.drop 2) = false ∨
          scanHex (t.drop 2) < 0xDC00 ∨ 0xDFFF < scanHex (t.drop 2) := by
        by_cases hstarts : [92, 117] <+: t
        · exact .inr (.inl (Bool.eq_false_iff.mpr fun hhex => hsecond ⟨hstarts, hhex⟩))
        · exact .inl hstarts
      rw [if_neg hsecond, if_pos hfail]
  · simp only at hsome
    split at hsome
    · cases hsome
    · cases hsome
      exact ⟨by simp, rfl⟩

theorem parseUtf16_bounds {units : List CString} (hunits : ∀ u ∈ units, IsUnit u) :
    EscapeBounds units parseUtf16 := by
  by_cases hhex : ∃ (q : HexQuad) (units' : List CString), (∀ u ∈ units', IsUnit u) ∧
      units.flatten = q.text ++ units'.flatten
  · obtain ⟨q, units', hunits', hflatten⟩ := hhex
    rw [EscapeBounds, hflatten]
    simp only [List.append_assoc]
    by_cases hlead : 0xD800 ≤ BitVec.ofNat 32 q.value ∧ BitVec.ofNat 32 q.value ≤ 0xDBFF
    · obtain ⟨result, hresult, hbounds⟩ := parseUtf16_of_lead q hlead
      simp only [hresult]
      by_cases hsecond : ∃ (trail : HexQuad) (units'' : List CString),
          (∀ u ∈ units'', IsUnit u) ∧ units'.flatten = 92 :: 117 :: (trail.text ++ units''.flatten)
      · obtain ⟨trail, units'', hunits'', hflatten'⟩ := hsecond
        have htail : ∀ rest, [92, 117] <+: units'.flatten ++ 34 :: rest ∧
            (units'.flatten ++ 34 :: rest).drop 2 =
              trail.text ++ (units''.flatten ++ 34 :: rest) := by
          intro rest
          rw [hflatten', List.cons_append, List.cons_append, List.append_assoc]
          exact ⟨⟨_, rfl⟩, rfl⟩
        simp only [htail, isUtf16Hex_text, scanHex_text, and_self, if_true, true_and, implies_true]
        intro _ bytes k hsome
        obtain ⟨hlen, rfl⟩ := hbounds _ _ _ hsome
        refine ⟨hlen, q.text ++ (92 :: 117 :: trail.text), units'', hunits'', ?_, rfl⟩
        rw [hflatten']
        simp
      · -- Without a second escape in the string, the byte `"` behind it is none either.
        have hnone : ∀ rest, ¬([92, 117] <+: units'.flatten ++ 34 :: rest ∧
            isUtf16Hex ((units'.flatten ++ 34 :: rest).drop 2) = true) := by
          rintro rest ⟨⟨t, ht⟩, hhex⟩
          rcases units_of_cons hunits' ht.symm (by decide) with ⟨hne, -⟩ | ⟨-, d, units₁, rfl, hs⟩
          · exact hne rfl
          · obtain ⟨rfl, rfl⟩ := List.cons.inj hs
            obtain ⟨-, hunits₁⟩ := List.forall_mem_cons.mp hunits'
            have hdrop : (List.flatten ([92, 117] :: units₁) ++ 34 :: rest).drop 2 =
                units₁.flatten ++ 34 :: rest := rfl
            rw [hdrop] at hhex
            obtain ⟨trail, units'', hunits'', hflatten'⟩ := units_of_isUtf16Hex hunits₁ hhex
            exact hsecond ⟨trail, units'', hunits'', by rw [List.flatten_cons, hflatten']; rfl⟩
        simp only [hnone, if_false]
        exact ⟨fun _ _ => trivial, fun _ _ _ h => by cases h⟩
    · obtain ⟨result, hresult, hbounds⟩ := parseUtf16_of_not_lead q hlead
      simp only [hresult]
      refine ⟨fun _ _ => trivial, fun rest bytes k hsome => ?_⟩
      obtain ⟨hlen, rfl⟩ := hbounds _ _ hsome
      exact ⟨hlen, q.text, units', hunits', rfl, rfl⟩
  · have hnone : ∀ rest, parseUtf16 (units.flatten ++ 34 :: rest) = none := by
      intro rest
      have hfalse : isUtf16Hex (units.flatten ++ 34 :: rest) = false := by
        rw [Bool.eq_false_iff]
        exact fun h => hhex (units_of_isUtf16Hex hunits h)
      unfold parseUtf16
      rw [hfalse]
      rfl
    refine ⟨fun rest rest' => by rw [hnone, hnone], fun rest bytes k hsome => ?_⟩
    rw [hnone] at hsome
    cases hsome

/-- An escape, from behind the backslash. -/
theorem processEscape_bounds {units : List CString} (hunits : ∀ u ∈ units, IsUnit u) (c : U8) :
    (∀ rest rest', processEscape (c :: (units.flatten ++ 34 :: rest)) =
      processEscape (c :: (units.flatten ++ 34 :: rest'))) ∧
    ∀ rest bytes k, processEscape (c :: (units.flatten ++ 34 :: rest)) = some (bytes, k) →
      bytes.length ≤ k ∧ ∃ (head : CString) (units' : List CString), (∀ u ∈ units', IsUnit u) ∧
        c :: units.flatten = head ++ units'.flatten ∧ head.length = k := by
  obtain ⟨hsame, hbounds⟩ := parseUtf16_bounds hunits
  refine ⟨fun rest rest' => by rw [processEscape, processEscape, hsame rest rest'],
    fun rest bytes k hsome => ?_⟩
  have hsingle : ∀ b : U8, some ([b], 1) = some (bytes, k) → bytes.length ≤ k ∧
      ∃ (head : CString) (units' : List CString), (∀ u ∈ units', IsUnit u) ∧
        c :: units.flatten = head ++ units'.flatten ∧ head.length = k := by
    rintro b ⟨⟩
    exact ⟨le_rfl, [c], units, hunits, rfl, rfl⟩
  rw [processEscape] at hsome
  split_ifs at hsome
  case pos => exact hsingle c hsome
  case pos => exact hsingle 8 hsome
  case pos => exact hsingle 12 hsome
  case pos => exact hsingle 10 hsome
  case pos => exact hsingle 13 hsome
  case pos => exact hsingle 9 hsome
  case pos =>
    obtain ⟨⟨bytes', k'⟩, hparse, heq⟩ := Option.map_eq_some_iff.mp hsome
    obtain ⟨rfl, rfl⟩ := Prod.mk.inj heq
    obtain ⟨hlen, head, units', hunits', hflatten, rfl⟩ := hbounds _ _ _ hparse
    exact ⟨by omega, c :: head, units', hunits', by rw [hflatten]; rfl, rfl⟩

/-- The loop reads no further than the quote, and writes no more than it reads. -/
theorem processStringLoop_bounds {units : List CString} (hunits : ∀ u ∈ units, IsUnit u)
    {n : ℕ} (hn : units.flatten.length ≤ n) :
    (∀ rest rest', processStringLoop n units.flatten.length (units.flatten ++ 34 :: rest) =
      processStringLoop n units.flatten.length (units.flatten ++ 34 :: rest')) ∧
    ∀ rest bytes, processStringLoop n units.flatten.length (units.flatten ++ 34 :: rest) =
      some bytes → bytes.length ≤ units.flatten.length := by
  induction n generalizing units with
  | zero =>
    have hnil : units.flatten.length = 0 := by omega
    rw [hnil]
    exact ⟨fun _ _ => rfl, by rintro _ _ ⟨⟩; exact le_rfl⟩
  | succ n ih =>
    cases units with
    | nil =>
      refine ⟨fun _ _ => rfl, ?_⟩
      rintro _ _ ⟨⟩
      exact le_rfl
    | cons u units =>
      obtain ⟨hu, hunits'⟩ := List.forall_mem_cons.mp hunits
      rcases hu with ⟨c, rfl, hquote, hbackslash⟩ | ⟨c, rfl⟩
      · -- A byte that stands for itself: it is copied, or refused as a control character.
        have hlen : (List.flatten ([c] :: units)).length = units.flatten.length + 1 := by simp
        rw [hlen] at hn ⊢
        obtain ⟨hsame, hbounds⟩ := ih hunits' (by omega)
        have hstep : ∀ rest, processStringLoop (n + 1) (units.flatten.length + 1)
              (List.flatten ([c] :: units) ++ 34 :: rest) =
            if c < 0x20 then none
            else (processStringLoop n units.flatten.length
              (units.flatten ++ 34 :: rest)).map (c :: ·) := by
          intro rest
          show processStringLoop (n + 1) (units.flatten.length + 1)
            (c :: (units.flatten ++ 34 :: rest)) = _
          rw [processStringLoop, if_neg (Nat.succ_ne_zero _), if_neg hbackslash]
          rfl
        refine ⟨fun rest rest' => by rw [hstep, hstep, hsame rest rest'], fun rest bytes h => ?_⟩
        rw [hstep] at h
        split_ifs at h
        obtain ⟨bytes', hloop, rfl⟩ := Option.map_eq_some_iff.mp h
        simpa using hbounds rest bytes' hloop
      · -- An escape, which may use up more units than its own.
        have hlen : (List.flatten ([92, c] :: units)).length = units.flatten.length + 2 := by simp
        rw [hlen] at hn ⊢
        obtain ⟨hsame, hbounds⟩ := processEscape_bounds hunits' c
        have hstep : ∀ rest, processStringLoop (n + 1) (units.flatten.length + 2)
              (List.flatten ([92, c] :: units) ++ 34 :: rest) =
            (processEscape (c :: (units.flatten ++ 34 :: rest))).bind fun p =>
              (processStringLoop n (units.flatten.length + 1 - p.2)
                ((c :: (units.flatten ++ 34 :: rest)).drop p.2)).map (p.1 ++ ·) := by
          intro rest
          show processStringLoop (n + 1) (units.flatten.length + 2)
            (92 :: c :: (units.flatten ++ 34 :: rest)) = _
          rw [processStringLoop, if_neg (Nat.succ_ne_zero _), if_pos rfl]
          rfl
        cases hescape : processEscape (c :: (units.flatten ++ 34 :: [])) with
        | none =>
          have hnone : ∀ rest, processStringLoop (n + 1) (units.flatten.length + 2)
              (List.flatten ([92, c] :: units) ++ 34 :: rest) = none := by
            intro rest
            rw [hstep, hsame rest [], hescape]
            rfl
          refine ⟨fun rest rest' => by rw [hnone, hnone], fun rest bytes h => ?_⟩
          rw [hnone] at h
          cases h
        | some p =>
          obtain ⟨bytes', k⟩ := p
          -- The escape ends where a unit ends: the induction goes on with the units behind it.
          obtain ⟨hwritten, head, units', hunits', hflatten, rfl⟩ := hbounds _ _ _ hescape
          have hsum : units.flatten.length + 1 = head.length + units'.flatten.length := by
            simpa using congrArg List.length hflatten
          obtain ⟨hsame', hbounds'⟩ := ih hunits' (by omega)
          have hdrop : ∀ rest, (c :: (units.flatten ++ 34 :: rest)).drop head.length =
              units'.flatten ++ 34 :: rest := by
            intro rest
            rw [← List.cons_append, hflatten, List.append_assoc, List.drop_left]
          have hleft : units.flatten.length + 1 - head.length = units'.flatten.length := by omega
          have hstep' : ∀ rest, processStringLoop (n + 1) (units.flatten.length + 2)
                (List.flatten ([92, c] :: units) ++ 34 :: rest) =
              (processStringLoop n units'.flatten.length
                (units'.flatten ++ 34 :: rest)).map (bytes' ++ ·) := by
            intro rest
            rw [hstep, hsame rest [], hescape, Option.bind_some]
            simp only [hdrop, hleft]
          refine ⟨fun rest rest' => by rw [hstep', hstep', hsame' rest rest'],
            fun rest bytes h => ?_⟩
          rw [hstep'] at h
          obtain ⟨bytes'', hloop, rfl⟩ := Option.map_eq_some_iff.mp h
          have hrest := hbounds' rest bytes'' hloop
          rw [List.length_append]
          omega

/-- **A string fits its buffer**, of as many characters as stand between the quotes, and what
stands behind the closing quote is not read. -/
theorem getQuotedString_bounds (c : U8) (s : CString) :
    skipQuotes (c :: s) = [] ∨ ∃ body, s = body ++ 34 :: skipQuotes (c :: s) ∧
      (∀ bytes rest, getQuotedString (c :: s) = some (bytes, rest) →
        rest = skipQuotes (c :: s) ∧ bytes.length ≤ body.length) ∧
      ∀ rest, rest ≠ [] → getQuotedString (c :: (body ++ 34 :: rest)) =
        (getQuotedString (c :: s)).map fun p => (p.1, rest) := by
  have hskip : skipQuotes (c :: s) = skipQuotesLoop s := rfl
  rw [hskip]
  by_cases hnil : skipQuotesLoop s = []
  · exact .inl hnil
  obtain ⟨units, hunits, hs⟩ := (skipQuotesLoop_cases s).resolve_left hnil
  have hread : ∀ rest, rest ≠ [] → getQuotedString (c :: (units.flatten ++ 34 :: rest)) =
      (processStringLoop units.flatten.length units.flatten.length
        (units.flatten ++ 34 :: rest)).map fun bytes => (bytes, rest) := by
    intro rest hrest
    have hend : skipQuotes (c :: (units.flatten ++ 34 :: rest)) = rest :=
      skipQuotesLoop_units hunits rest
    have hlen : (c :: (units.flatten ++ 34 :: rest)).length - rest.length - 2 =
        units.flatten.length := by
      simp
      omega
    unfold getQuotedString
    simp only [hend, if_neg hrest, hlen, List.tail_cons, processString]
  obtain ⟨hsame, hbounds⟩ := processStringLoop_bounds hunits le_rfl
  have hself : getQuotedString (c :: s) =
      (processStringLoop units.flatten.length units.flatten.length
        (units.flatten ++ 34 :: skipQuotesLoop s)).map fun bytes => (bytes, skipQuotesLoop s) := by
    rw [← hread _ hnil, ← hs]
  refine .inr ⟨units.flatten, hs, fun bytes rest h => ?_, fun rest hrest => ?_⟩
  · rw [hself] at h
    obtain ⟨bytes', hloop, heq⟩ := Option.map_eq_some_iff.mp h
    obtain ⟨rfl, rfl⟩ := Prod.mk.inj heq
    exact ⟨rfl, hbounds _ _ hloop⟩
  · rw [hread rest hrest, hself, hsame rest (skipQuotesLoop s), Option.map_map]
    rfl

/-! ## What is left -/

theorem skipWhitespaces_suffix (s : CString) : skipWhitespaces s <:+ s := List.dropWhile_suffix _

theorem skipQuotesLoop_suffix (s : CString) : skipQuotesLoop s <:+ s := by
  rcases skipQuotesLoop_cases s with hnil | ⟨units, -, hs⟩
  · rw [hnil]
    exact List.nil_suffix
  · exact ⟨units.flatten ++ [34], by rw [List.append_assoc]; exact hs.symm⟩

theorem getQuotedString_suffix {s bytes rest : CString}
    (h : getQuotedString s = some (bytes, rest)) : rest <:+ s := by
  unfold getQuotedString at h
  simp only at h
  split at h
  · cases h
  · obtain ⟨bytes', -, heq⟩ := Option.map_eq_some_iff.mp h
    obtain ⟨-, rfl⟩ := Prod.mk.inj heq
    exact (skipQuotesLoop_suffix s.tail).trans (List.tail_suffix s)

/-- What is left behind a value is an end of the text. -/
def Shortens (value : CString → Option (JsonValue × CString)) : Prop :=
  ∀ s v rest, value s = some (v, rest) → rest <:+ s

section
variable {value : CString → Option (JsonValue × CString)}

/-- Behind a comma the text is shorter. -/
theorem length_behind_comma {s rest : CString} (h : rest <:+ s)
    (hcomma : (skipWhitespaces rest).head? = some 44) :
    (skipWhitespaces (skipWhitespaces rest).tail).length < s.length := by
  have hskip := (skipWhitespaces_suffix (skipWhitespaces rest).tail).length_le
  have hrest := ((skipWhitespaces_suffix rest).trans h).length_le
  have htail : (skipWhitespaces rest).tail.length < (skipWhitespaces rest).length := by
    cases hcons : skipWhitespaces rest with
    | nil => simp [hcons] at hcomma
    | cons c t => simp
  omega

/-- The loop over the items is never short of rounds. -/
theorem parseItems_rounds (h : Shortens value) {n m : ℕ} {array : JsonArrayT} {s : CString}
    (hn : s.length < n) (hm : s.length < m) :
    parseItems value n array s = parseItems value m array s := by
  induction n generalizing m array s with
  | zero => omega
  | succ n ih =>
    obtain ⟨m, rfl⟩ : ∃ k, m = k + 1 := ⟨m - 1, by omega⟩
    rw [parseItems, parseItems]
    cases hvalue : value s with
    | none => rfl
    | some p =>
      obtain ⟨v, rest⟩ := p
      simp only [Option.bind_some]
      refine if_congr Iff.rfl rfl (Option.bind_congr fun array' _ => ?_)
      by_cases hcomma : (skipWhitespaces rest).head? = some 44
      · have hlt := length_behind_comma (h s v rest hvalue) hcomma
        simp only [hcomma, ne_eq, not_true, if_false]
        exact ih (by omega) (by omega)
      · simp only [ne_eq, hcomma, not_false_eq_true, if_true]

/-- Nor is the loop over the members. -/
theorem parseMembers_rounds (h : Shortens value) {n m : ℕ} {object : JsonObjectT} {s : CString}
    (hn : s.length < n) (hm : s.length < m) :
    parseMembers value n object s = parseMembers value m object s := by
  induction n generalizing m object s with
  | zero => omega
  | succ n ih =>
    obtain ⟨m, rfl⟩ : ∃ k, m = k + 1 := ⟨m - 1, by omega⟩
    rw [parseMembers, parseMembers]
    cases hkey : getQuotedString s with
    | none => rfl
    | some p =>
      obtain ⟨newKey, s₁⟩ := p
      simp only [Option.bind_some]
      cases hvalue : value (skipWhitespaces s₁).tail with
      | none => rfl
      | some p =>
        obtain ⟨v, rest⟩ := p
        have hrest : rest <:+ s :=
          (((h _ v rest hvalue).trans (List.tail_suffix _)).trans (skipWhitespaces_suffix s₁)).trans
            (getQuotedString_suffix hkey)
        simp only [Option.bind_some]
        refine if_congr Iff.rfl rfl (if_congr Iff.rfl rfl (Option.bind_congr fun object' _ => ?_))
        by_cases hcomma : (skipWhitespaces rest).head? = some 44
        · have hlt := length_behind_comma hrest hcomma
          simp only [hcomma, ne_eq, not_true, if_false]
          exact ih (by omega) (by omega)
        · simp only [ne_eq, hcomma, not_false_eq_true, if_true]

end

/-! ## The limits -/

/-- A tree of so many levels, each of its nodes within the limits. -/
def WithinLimits : ℕ → JsonValue → Prop
  | 0, _ => False
  | _ + 1, .null | _ + 1, .boolean _ | _ + 1, .number _ | _ + 1, .string _ => True
  | levels + 1, .array values =>
    values.length ≤ arrayMaxCapacity ∧ ∀ v ∈ values, WithinLimits levels v
  | levels + 1, .object fields =>
    fields.length ≤ objectMaxCapacity ∧ (fields.map Prod.fst).Nodup ∧
      ∀ field ∈ fields, 0 ∉ field.1 ∧ WithinLimits levels field.2

/-- What a parser gives where it succeeds has this property. -/
def Gives (Q : JsonValue → Prop) (value : CString → Option (JsonValue × CString)) : Prop :=
  ∀ s v rest, value s = some (v, rest) → Q v ∧ rest <:+ s

/-- The items that have been gathered so far have the property. -/
structure ItemsInv (Q : JsonValue → Prop) (array : JsonArrayT) : Prop where
  grown : Grown 13 array.items.length array.capacity
  items : ∀ v ∈ array.items, Q v

/-- The members that have been gathered so far have the property, and different names. -/
structure MembersInv (Q : JsonValue → Prop) (object : JsonObjectT) : Prop where
  grown : Grown 6 object.fields.length object.capacity
  nodup : (object.fields.map Prod.fst).Nodup
  fields : ∀ field ∈ object.fields, 0 ∉ field.1 ∧ Q field.2

theorem itemsInv_init (Q : JsonValue → Prop) : ItemsInv Q jsonArrayInit :=
  ⟨grown_init 13, fun _ h => absurd h List.not_mem_nil⟩

theorem membersInv_init (Q : JsonValue → Prop) : MembersInv Q jsonObjectInit :=
  ⟨grown_init 6, List.nodup_nil, fun _ h => absurd h List.not_mem_nil⟩

theorem jsonArrayAdd_inv {Q : JsonValue → Prop} {array array' : JsonArrayT} {v : JsonValue}
    (h : ItemsInv Q array) (hv : Q v) (hadd : jsonArrayAdd array v = some array') :
    ItemsInv Q array' := by
  have heq := jsonArrayAdd_eq h.grown v
  split at heq
  · obtain ⟨array'', hsome, hitems, hgrown⟩ := heq
    obtain rfl : array'' = array' := Option.some.inj (hsome.symm.trans hadd)
    refine ⟨hgrown, fun w hw => ?_⟩
    rw [hitems] at hw
    rcases List.mem_append.mp hw with hmem | hmem
    · exact h.items w hmem
    · exact List.mem_singleton.mp hmem ▸ hv
  · exact absurd (heq.symm.trans hadd) (by simp)

theorem jsonObjectAdd_inv {Q : JsonValue → Prop} {object object' : JsonObjectT} {name : CString}
    {v : JsonValue} (h : MembersInv Q object) (hv : Q v)
    (hadd : jsonObjectAdd object name v = some object') : MembersInv Q object' := by
  have heq := jsonObjectAdd_eq h.grown name v
  split at heq
  · next hnew =>
    obtain ⟨object'', hsome, hfields, hgrown⟩ := heq
    obtain rfl : object'' = object' := Option.some.inj (hsome.symm.trans hadd)
    refine ⟨hgrown, ?_, fun field hfield => ?_⟩
    · rw [hfields]
      exact (nodup_append_singleton h.nodup _).mpr hnew.2
    · rw [hfields] at hfield
      rcases List.mem_append.mp hfield with hmem | hmem
      · exact h.fields field hmem
      · rw [List.mem_singleton.mp hmem]
        refine ⟨fun hzero => ?_, hv⟩
        exact absurd (List.mem_takeWhile_imp hzero) (by decide)
  · exact absurd (heq.symm.trans hadd) (by simp)

section
variable {Q : JsonValue → Prop} {value : CString → Option (JsonValue × CString)}

/-- The loop over the items keeps what it has gathered within the limits. -/
theorem parseItems_inv (h : Gives Q value) {n : ℕ} {array array' : JsonArrayT} {s rest : CString}
    (harray : ItemsInv Q array) (hparse : parseItems value n array s = some (array', rest)) :
    ItemsInv Q array' ∧ rest <:+ s := by
  induction n generalizing array s with
  | zero => cases hparse
  | succ n ih =>
    rw [parseItems] at hparse
    split_ifs at hparse with hnil
    · cases hparse
      exact ⟨harray, List.suffix_rfl⟩
    · obtain ⟨⟨v, s₁⟩, hvalue, hparse⟩ := Option.bind_eq_some_iff.mp hparse
      obtain ⟨array₁, hadd, hparse⟩ := Option.bind_eq_some_iff.mp hparse
      obtain ⟨hv, hs₁⟩ := h s v s₁ hvalue
      have harray₁ := jsonArrayAdd_inv harray hv hadd
      simp only at hparse
      split_ifs at hparse with hcomma
      · cases hparse
        exact ⟨harray₁, (skipWhitespaces_suffix s₁).trans hs₁⟩
      · obtain ⟨harray', hrest⟩ := ih harray₁ hparse
        exact ⟨harray', (((hrest.trans (skipWhitespaces_suffix _)).trans
          (List.tail_suffix _)).trans (skipWhitespaces_suffix s₁)).trans hs₁⟩

/-- So does the loop over the members. -/
theorem parseMembers_inv (h : Gives Q value) {n : ℕ} {object object' : JsonObjectT}
    {s rest : CString} (hobject : MembersInv Q object)
    (hparse : parseMembers value n object s = some (object', rest)) :
    MembersInv Q object' ∧ rest <:+ s := by
  induction n generalizing object s with
  | zero => cases hparse
  | succ n ih =>
    rw [parseMembers] at hparse
    split_ifs at hparse with hnil
    · cases hparse
      exact ⟨hobject, List.suffix_rfl⟩
    · obtain ⟨⟨newKey, s₁⟩, hkey, hparse⟩ := Option.bind_eq_some_iff.mp hparse
      simp only at hparse
      split_ifs at hparse with hcolon
      obtain ⟨⟨v, s₂⟩, hvalue, hparse⟩ := Option.bind_eq_some_iff.mp hparse
      obtain ⟨object₁, hadd, hparse⟩ := Option.bind_eq_some_iff.mp hparse
      obtain ⟨hv, hs₂⟩ := h _ v s₂ hvalue
      have hobject₁ := jsonObjectAdd_inv hobject hv hadd
      have hs : s₂ <:+ s := ((hs₂.trans (List.tail_suffix _)).trans
        (skipWhitespaces_suffix s₁)).trans (getQuotedString_suffix hkey)
      simp only at hparse
      split_ifs at hparse with hcomma
      · cases hparse
        exact ⟨hobject₁, (skipWhitespaces_suffix s₂).trans hs⟩
      · obtain ⟨hobject', hrest⟩ := ih hobject₁ hparse
        exact ⟨hobject', (((hrest.trans (skipWhitespaces_suffix _)).trans
          (List.tail_suffix _)).trans (skipWhitespaces_suffix s₂)).trans hs⟩

theorem parseArrayValue_inv {levels : ℕ} (h : Gives (WithinLimits levels) value) :
    Gives (WithinLimits (levels + 1)) (parseArrayValue value) := by
  intro s v rest hparse
  have hskip : (skipWhitespaces s.tail) <:+ s :=
    (skipWhitespaces_suffix _).trans (List.tail_suffix s)
  unfold parseArrayValue at hparse
  simp only at hparse
  split_ifs at hparse with hempty
  · cases hparse
    exact ⟨⟨Nat.zero_le _, by simp⟩, (List.tail_suffix _).trans hskip⟩
  · obtain ⟨⟨array, s₁⟩, hitems, hparse⟩ := Option.bind_eq_some_iff.mp hparse
    simp only at hparse
    split_ifs at hparse with hbracket
    cases hparse
    obtain ⟨hinv, hs₁⟩ := parseItems_inv h (itemsInv_init _) hitems
    exact ⟨⟨hinv.grown.le, hinv.items⟩, (((List.tail_suffix _).trans
      (skipWhitespaces_suffix s₁)).trans hs₁).trans hskip⟩

theorem parseObjectValue_inv {levels : ℕ} (h : Gives (WithinLimits levels) value) :
    Gives (WithinLimits (levels + 1)) (parseObjectValue value) := by
  intro s v rest hparse
  have hskip : (skipWhitespaces s.tail) <:+ s :=
    (skipWhitespaces_suffix _).trans (List.tail_suffix s)
  unfold parseObjectValue at hparse
  simp only at hparse
  split_ifs at hparse with hempty
  · cases hparse
    exact ⟨⟨Nat.zero_le _, List.nodup_nil, by simp⟩, (List.tail_suffix _).trans hskip⟩
  · obtain ⟨⟨object, s₁⟩, hmembers, hparse⟩ := Option.bind_eq_some_iff.mp hparse
    simp only at hparse
    split_ifs at hparse with hbrace
    cases hparse
    obtain ⟨hinv, hs₁⟩ := parseMembers_inv h (membersInv_init _) hmembers
    exact ⟨⟨hinv.grown.le, hinv.nodup, hinv.fields⟩, (((List.tail_suffix _).trans
      (skipWhitespaces_suffix s₁)).trans hs₁).trans hskip⟩

end

/-- A value is within the limits of the levels that are left. -/
theorem parseValue_inv (levels : ℕ) : Gives (WithinLimits levels) (parseValue levels) := by
  induction levels with
  | zero =>
    intro s v rest hparse
    cases hparse
  | succ levels ih =>
    intro s v rest hparse
    have hskip := skipWhitespaces_suffix s
    rw [parseValue] at hparse
    simp only at hparse
    split at hparse
    · cases hparse
    · next c t hcons =>
      split_ifs at hparse with hbrace hbracket hquote hword hnumber hnull
      · obtain ⟨hv, hrest⟩ := parseObjectValue_inv ih _ v rest hparse
        exact ⟨hv, hrest.trans hskip⟩
      · obtain ⟨hv, hrest⟩ := parseArrayValue_inv ih _ v rest hparse
        exact ⟨hv, hrest.trans hskip⟩
      · obtain ⟨⟨bytes, s₁⟩, hstring, heq⟩ := Option.map_eq_some_iff.mp hparse
        obtain ⟨rfl, rfl⟩ := Prod.mk.inj heq
        exact ⟨trivial, (getQuotedString_suffix hstring).trans hskip⟩
      · unfold parseBooleanValue at hparse
        split_ifs at hparse
        · cases hparse
          exact ⟨trivial, (List.drop_suffix _ _).trans hskip⟩
        · cases hparse
          exact ⟨trivial, (List.drop_suffix _ _).trans hskip⟩
      · unfold parseNumberValue at hparse
        simp only at hparse
        split_ifs at hparse
        cases hparse
        exact ⟨trivial, (strtod_suffix _).trans hskip⟩
      · unfold parseNullValue at hparse
        split_ifs at hparse
        cases hparse
        exact ⟨trivial, (List.drop_suffix _ _).trans hskip⟩

/-- What is left behind a value is an end of the text. -/
theorem parseValue_suffix (levels : ℕ) : Shortens (parseValue levels) :=
  fun s v rest h => (parseValue_inv levels s v rest h).2

/-! ## Trees -/

/-- A value is inside another one where it is a node of its tree. -/
inductive Inside : JsonValue → JsonValue → Prop
  | root {v : JsonValue} : Inside v v
  | item {v w : JsonValue} {values : List JsonValue} (hw : w ∈ values)
      (hv : Inside v w) : Inside v (.array values)
  | member {v : JsonValue} {field : CString × JsonValue} {fields : JsonObject}
      (hfield : field ∈ fields) (hv : Inside v field.2) : Inside v (.object fields)

/-- The nodes of a tree within the limits are within them. -/
theorem WithinLimits.of_inside {v w : JsonValue} (h : Inside v w) {levels : ℕ}
    (hw : WithinLimits levels w) : ∃ levels' ≤ levels, WithinLimits levels' v := by
  induction h generalizing levels with
  | root => exact ⟨levels, le_rfl, hw⟩
  | item hmem _ ih =>
    cases levels with
    | zero => exact hw.elim
    | succ levels =>
      obtain ⟨levels', hle, hv⟩ := ih (hw.2 _ hmem)
      exact ⟨levels', by omega, hv⟩
  | member hmem _ ih =>
    cases levels with
    | zero => exact hw.elim
    | succ levels =>
      obtain ⟨levels', hle, hv⟩ := ih (hw.2.2 _ hmem).2
      exact ⟨levels', by omega, hv⟩

/-- Among distinct names, each member is found by its own. -/
theorem jsonObjectNgetValue_of_mem {fields : JsonObject} (hnodup : (fields.map Prod.fst).Nodup)
    {field : CString × JsonValue} (hmem : field ∈ fields) :
    jsonObjectNgetValue fields field.1 = some field.2 := by
  induction fields with
  | nil => exact absurd hmem List.not_mem_nil
  | cons other fields ih =>
    rw [List.map_cons, List.nodup_cons] at hnodup
    rcases List.mem_cons.mp hmem with rfl | hrest
    · simp [jsonObjectNgetValue]
    · have hne : other.1 ≠ field.1 := fun heq =>
        hnodup.1 (heq ▸ List.mem_map_of_mem hrest)
      rw [← ih hnodup.2 hrest]
      simp [jsonObjectNgetValue, hne]

theorem parseArrayValue_array {value : CString → Option (JsonValue × CString)} {s rest : CString}
    {v : JsonValue} (h : parseArrayValue value s = some (v, rest)) :
    ∃ values, v = .array values := by
  unfold parseArrayValue at h
  simp only at h
  split_ifs at h
  · cases h
    exact ⟨[], rfl⟩
  · obtain ⟨⟨array, s₁⟩, -, h⟩ := Option.bind_eq_some_iff.mp h
    simp only at h
    split_ifs at h
    cases h
    exact ⟨array.items, rfl⟩

theorem parseObjectValue_object {value : CString → Option (JsonValue × CString)}
    {s rest : CString} {v : JsonValue} (h : parseObjectValue value s = some (v, rest)) :
    ∃ fields, v = .object fields := by
  unfold parseObjectValue at h
  simp only at h
  split_ifs at h
  · cases h
    exact ⟨[], rfl⟩
  · obtain ⟨⟨object, s₁⟩, -, h⟩ := Option.bind_eq_some_iff.mp h
    simp only at h
    split_ifs at h
    cases h
    exact ⟨object.fields, rfl⟩

/-- **A tree that is returned is within the limits**: an array or an object, no deeper than
`MAX_NESTING`, with no more members and items than the capacities, and no member of it hides
another one. -/
theorem jsonParseString_withinLimits {s : CString} {v : JsonValue}
    (h : jsonParseString s = some v) :
    ((∃ values, v = .array values) ∨ ∃ fields, v = .object fields) ∧
      WithinLimits (maxNesting + 1) v ∧
      ∀ fields, Inside (.object fields) v → ∀ field ∈ fields,
        jsonObjectNgetValue fields field.1 = some field.2 := by
  unfold jsonParseString at h
  simp only at h
  split_ifs at h with hroot
  obtain ⟨⟨v', rest⟩, hparse, rfl⟩ := Option.map_eq_some_iff.mp h
  have hwithin := (parseValue_inv _ _ _ _ hparse).1
  refine ⟨?_, hwithin, fun fields hinside field hfield => ?_⟩
  · cases hcons : skipWhitespaces s with
    | nil => simp [hcons] at hroot
    | cons c t =>
      rw [hcons] at hparse hroot
      have hc : c = 123 ∨ c = 91 := by
        simpa [not_and_or, or_iff_not_imp_left] using hroot
      rcases hc with rfl | rfl
      · rw [parseValue_cons _ (by decide), if_pos rfl] at hparse
        exact .inr (parseObjectValue_object hparse)
      · rw [parseValue_cons _ (by decide), if_neg (by decide), if_pos rfl] at hparse
        exact .inl (parseArrayValue_array hparse)
  · obtain ⟨levels, -, hlimits⟩ := hwithin.of_inside hinside
    cases levels with
    | zero => exact hlimits.elim
    | succ levels => exact jsonObjectNgetValue_of_mem hlimits.2.1 hfield

/-- The value of the text `{"a":[null]}` keeps the limits. -/
theorem jsonParseString_withinLimits_member :
    WithinLimits (maxNesting + 1) (.object [([97], .array [.null])]) ∧
      jsonObjectNgetValue [([97], .array [.null])] [97] = some (.array [.null]) := by
  have hparse := jsonParseString_text (t := .object (.last ⟨[], [.plain 97 (by decide)], []⟩ []
    (.array (.last [] .null [])) [])) (List.forall_mem_nil _)
    (by simp [JsonSyntax.AllBlanks, JsonMembers.AllBlanks, JsonItems.AllBlanks]) []
  have h := jsonParseString_withinLimits hparse
  exact ⟨h.2.1, h.2.2 _ .root _ List.mem_cons_self⟩

end PacketForwarder
