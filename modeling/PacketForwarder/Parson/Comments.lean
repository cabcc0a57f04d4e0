import PacketForwarder.Parson.Values

/-!
# Comments are blanks

`json_parse_string_with_comments` overwrites the comments with spaces, first those in
`/* */`, then those behind `//`, and parses what is left.

* `strip` — what `remove_comments` makes of a text from a state of its flags on;
* `strip_text` — on the text of a tree it changes the blanks alone, whatever the strings hold;
* `jsonParseStringWithComments_text` — **a text with comments is parsed as its value**.

The first pass takes what stands behind `//` for tokens like any others, so that a quote or a
`/*` there would be in its way: `Blank.line` has none.
-/

namespace PacketForwarder

/-! ## The loop -/

variable {startToken endToken : CString}

/-- The number of rounds makes no difference once it reaches the length of the text. -/
theorem removeCommentsLoop_eq {n m : ℕ} {inString escaped : Bool} {s : CString}
    (hstart : startToken ≠ []) (hn : s.length ≤ n) (hm : s.length ≤ m) :
    removeCommentsLoop startToken endToken n inString escaped s =
      removeCommentsLoop startToken endToken m inString escaped s := by
  induction n generalizing m inString escaped s with
  | zero =>
    obtain rfl : s = [] := List.length_eq_zero_iff.mp (by omega)
    cases m <;> rfl
  | succ n ih =>
    cases s with
    | nil => cases m <;> rfl
    | cons c s =>
      rw [List.length_cons] at hn hm
      obtain ⟨m, rfl⟩ : ∃ k, m = k + 1 := ⟨m - 1, by omega⟩
      have hnext : ∀ i e, removeCommentsLoop startToken endToken n i e s =
          removeCommentsLoop startToken endToken m i e s :=
        fun i e => ih (by omega) (by omega)
      have hpos : 0 < startToken.length := List.length_pos_of_ne_nil hstart
      have hjump : ∀ k, removeCommentsLoop startToken endToken n inString false
            (((c :: s).drop startToken.length).drop k) =
          removeCommentsLoop startToken endToken m inString false
            (((c :: s).drop startToken.length).drop k) :=
        fun k => ih (by simp; omega) (by simp; omega)
      simp only [removeCommentsLoop, hnext, hjump]

/-- What `remove_comments` makes of a text, from a state of its flags on. -/
def strip (startToken endToken : CString) (inString escaped : Bool) (s : CString) : CString :=
  removeCommentsLoop startToken endToken s.length inString escaped s

theorem strip_cons (hstart : startToken ≠ []) (inString escaped : Bool) (c : U8) (s : CString) :
    strip startToken endToken inString escaped (c :: s) =
      if c = 92 ∧ escaped = false then c :: strip startToken endToken inString true s
      else if c = 34 ∧ escaped = false then c :: strip startToken endToken (!inString) false s
      else if inString = false ∧ startToken <+: c :: s then
        let string := (c :: s).drop startToken.length
        List.replicate startToken.length 32 ++
          match strstr endToken string with
          | none => string
          | some ptr =>
            List.replicate (ptr + endToken.length) 32 ++
              strip startToken endToken inString false (string.drop (ptr + endToken.length))
      else c :: strip startToken endToken inString false s := by
  have hpos : 0 < startToken.length := List.length_pos_of_ne_nil hstart
  have hjump : ∀ k, removeCommentsLoop startToken endToken s.length inString false
        (((c :: s).drop startToken.length).drop k) =
      strip startToken endToken inString false (((c :: s).drop startToken.length).drop k) :=
    fun k => removeCommentsLoop_eq hstart (by simp; omega) le_rfl
  rw [strip, List.length_cons, removeCommentsLoop]
  simp only [hjump]
  rfl

/-- A comment is overwritten up to the first token that ends it. -/
theorem strip_comment (hstart : startToken ≠ []) {string : CString} {ptr : ℕ}
    (hptr : strstr endToken string = some ptr) (hne : startToken.head? ≠ some 92)
    (hquote : startToken.head? ≠ some 34) :
    strip startToken endToken false false (startToken ++ string) =
      List.replicate (startToken.length + (ptr + endToken.length)) 32 ++
        strip startToken endToken false false (string.drop (ptr + endToken.length)) := by
  obtain ⟨c, t, rfl⟩ := List.exists_cons_of_ne_nil hstart
  have hc : c ≠ 92 := fun heq => hne (congrArg some heq)
  have hc' : c ≠ 34 := fun heq => hquote (congrArg some heq)
  have hstarts : c :: t <+: c :: (t ++ string) := ⟨string, rfl⟩
  rw [List.cons_append, strip_cons hstart, if_neg fun h => hc h.1, if_neg fun h => hc' h.1,
    if_pos ⟨rfl, hstarts⟩]
  have hdrop : ((c :: t) ++ string).drop (c :: t).length = string := List.drop_left
  rw [List.cons_append] at hdrop
  simp only [hdrop, hptr]
  rw [← List.append_assoc, List.replicate_append_replicate]

/-- A character that starts no token stays. -/
theorem strip_plain (hstart : startToken ≠ []) {c : U8} {s : CString} (hbackslash : c ≠ 92)
    (hquote : c ≠ 34) (hstarts : ¬startToken <+: c :: s) :
    strip startToken endToken false false (c :: s) =
      c :: strip startToken endToken false false s := by
  rw [strip_cons hstart, if_neg fun h => hbackslash h.1, if_neg fun h => hquote h.1,
    if_neg fun h => hstarts h.2]

/-- What a string holds stays as it is. -/
theorem strip_inString (hstart : startToken ≠ []) {c : U8} (s : CString) (hbackslash : c ≠ 92)
    (hquote : c ≠ 34) :
    strip startToken endToken true false (c :: s) =
      c :: strip startToken endToken true false s := by
  rw [strip_cons hstart, if_neg fun h => hbackslash h.1, if_neg fun h => hquote h.1,
    if_neg fun h => Bool.noConfusion h.1]

/-- So does what stands behind a backslash. -/
theorem strip_escaped (hstart : startToken ≠ []) (c : U8) (s : CString) :
    strip startToken endToken true false (92 :: c :: s) =
      92 :: c :: strip startToken endToken true false s := by
  rw [strip_cons hstart, if_pos ⟨rfl, rfl⟩, strip_cons hstart, if_neg fun h => Bool.noConfusion h.2,
    if_neg fun h => Bool.noConfusion h.2, if_neg fun h => Bool.noConfusion h.1]

/-! ## Tokens -/

theorem strip_hexQuad (hstart : startToken ≠ []) (q : HexQuad) (s : CString) :
    strip startToken endToken true false (92 :: 117 :: (q.text ++ s)) =
      92 :: 117 :: (q.text ++ strip startToken endToken true false s) := by
  obtain ⟨ha, hb, hc, hd⟩ := q.isHex
  have hhex : ∀ {c : U8} (s : CString), isHexDigit c = true →
      strip startToken endToken true false (c :: s) = c :: strip startToken endToken true false s :=
    fun s h => strip_inString hstart s (isHexDigit_ne h).2 (isHexDigit_ne h).1
  rw [strip_escaped hstart]
  show 92 :: 117 :: strip _ _ _ _ (q.a :: q.b :: q.c :: q.d :: s) = _
  rw [hhex _ ha, hhex _ hb, hhex _ hc, hhex _ hd]
  rfl

theorem strip_piece (hstart : startToken ≠ []) (p : StringPiece) (s : CString) :
    strip startToken endToken true false (p.text ++ s) =
      p.text ++ strip startToken endToken true false s := by
  match p with
  | .plain c allowed => exact strip_inString hstart s allowed.2.2 allowed.2.1
  | .escape e => exact strip_escaped hstart e.letter s
  | .unicode q _ => exact strip_hexQuad hstart q s
  | .surrogates lead trail _ _ =>
    show strip _ _ _ _ (92 :: 117 :: (lead.text ++ 92 :: 117 :: trail.text ++ s)) = _
    rw [List.append_assoc, strip_hexQuad hstart]
    show 92 :: 117 :: (lead.text ++ strip _ _ _ _ (92 :: 117 :: (trail.text ++ s))) = _
    rw [strip_hexQuad hstart]
    simp [StringPiece.text]

theorem strip_quotedText (hstart : startToken ≠ []) (pieces : List StringPiece) (s : CString) :
    strip startToken endToken false false (quotedText pieces ++ s) =
      quotedText pieces ++ strip startToken endToken false false s := by
  have hpieces : ∀ s, strip startToken endToken true false (pieces.flatMap StringPiece.text ++ s) =
      pieces.flatMap StringPiece.text ++ strip startToken endToken true false s := by
    intro s
    induction pieces with
    | nil => rfl
    | cons p pieces ih =>
      rw [List.flatMap_cons, List.append_assoc, strip_piece hstart, ih, List.append_assoc]
  have hquote : ∀ inString s, strip startToken endToken inString false (34 :: s) =
      34 :: strip startToken endToken (!inString) false s := by
    intro inString s
    rw [strip_cons hstart, if_neg fun h => absurd h.1 (by decide), if_pos ⟨rfl, rfl⟩]
  rw [quotedText, List.cons_append, hquote, List.append_assoc, Bool.not_false, hpieces,
    List.singleton_append, hquote, List.cons_append, List.append_assoc]
  rfl

/-- Characters that are part of no token stay. -/
theorem strip_append {tok : CString} {l : CString}
    (h : ∀ c ∈ l, c ≠ 92 ∧ c ≠ 34 ∧ c ≠ 47) (s : CString) :
    strip (47 :: tok) endToken false false (l ++ s) =
      l ++ strip (47 :: tok) endToken false false s := by
  induction l with
  | nil => rfl
  | cons c l ih =>
    obtain ⟨⟨hbackslash, hquote, hslash⟩, hl⟩ := List.forall_mem_cons.mp h
    rw [List.cons_append, strip_plain (List.cons_ne_nil 47 tok) hbackslash hquote
      fun hstarts => hslash (List.cons_prefix_cons.mp hstarts).1.symm, ih hl]
    rfl

theorem isNumeralByte_ne {c : U8} (h : Scientific.isNumeralByte c = true) :
    c ≠ 92 ∧ c ≠ 34 ∧ c ≠ 47 := by
  revert c
  decide

/-! ## Trees -/

/-- The blanks with `P` are replaced by others. -/
def Strips (startToken endToken : CString) (P : Blank → Prop) (f : Blank → List Blank) : Prop :=
  ∀ b, P b → ∀ s, strip startToken endToken false false (b.text ++ s) =
    blanksText (f b) ++ strip startToken endToken false false s

section
variable {tok : CString} {P : Blank → Prop} {f : Blank → List Blank}

theorem strip_blanks (h : Strips (47 :: tok) endToken P f) {blanks : List Blank}
    (hblanks : ∀ b ∈ blanks, P b) (s : CString) :
    strip (47 :: tok) endToken false false (blanksText blanks ++ s) =
      blanksText (blanks.flatMap f) ++ strip (47 :: tok) endToken false false s := by
  induction blanks with
  | nil => rfl
  | cons b bs ih =>
    obtain ⟨hb, hbs⟩ := List.forall_mem_cons.mp hblanks
    rw [blanksText_cons, List.append_assoc, h b hb, ih hbs]
    simp [blanksText]

/-- A bracket, a comma or a colon stays. -/
theorem strip_mark {c : U8} (hc : c ≠ 92 ∧ c ≠ 34 ∧ c ≠ 47) (s : CString) :
    strip (47 :: tok) endToken false false (c :: s) =
      c :: strip (47 :: tok) endToken false false s :=
  strip_append (l := [c]) (by simpa using hc) s

theorem strip_key (h : Strips (47 :: tok) endToken P f) {key : Key}
    (hkey : (∀ b ∈ key.before, P b) ∧ ∀ b ∈ key.after, P b) (s : CString) :
    strip (47 :: tok) endToken false false (key.text ++ s) =
      (key.mapBlanks f).text ++ strip (47 :: tok) endToken false false s := by
  simp only [Key.text, Key.mapBlanks, List.append_assoc, List.singleton_append]
  rw [strip_blanks h hkey.1, strip_quotedText (List.cons_ne_nil 47 tok), strip_blanks h hkey.2,
    strip_mark (by decide)]

mutual

/-- **In the text of a tree the blanks alone are replaced.** -/
theorem strip_text (h : Strips (47 :: tok) endToken P f) :
    ∀ (t : JsonSyntax) (s : CString), t.AllBlanks P →
    strip (47 :: tok) endToken false false (t.text ++ s) =
      (t.mapBlanks f).text ++ strip (47 :: tok) endToken false false s
  | .null, s, _ | .boolean true, s, _ | .boolean false, s, _ => by
    simp only [JsonSyntax.mapBlanks, JsonSyntax.text]
    exact strip_append (by decide) s
  | .number n, s, _ => by
    simp only [JsonSyntax.mapBlanks, JsonSyntax.text]
    exact strip_append (fun c hc => isNumeralByte_ne (n.isNumeralByte_of_mem_text c hc)) s
  | .string pieces, s, _ => by
    simp only [JsonSyntax.mapBlanks, JsonSyntax.text]
    exact strip_quotedText (List.cons_ne_nil 47 tok) pieces s
  | .emptyArray blanks, s, hP | .emptyObject blanks, s, hP => by
    simp only [JsonSyntax.AllBlanks] at hP
    simp only [JsonSyntax.mapBlanks, JsonSyntax.text, List.cons_append, List.append_assoc,
      List.nil_append]
    rw [strip_mark (by decide), strip_blanks h hP, strip_mark (by decide)]
  | .array items, s, hP => by
    simp only [JsonSyntax.AllBlanks] at hP
    simp only [JsonSyntax.mapBlanks, JsonSyntax.text, List.cons_append]
    rw [strip_mark (by decide), strip_itemsText h items s hP]
  | .object members, s, hP => by
    simp only [JsonSyntax.AllBlanks] at hP
    simp only [JsonSyntax.mapBlanks, JsonSyntax.text, List.cons_append]
    rw [strip_mark (by decide), strip_membersText h members s hP]

theorem strip_itemsText (h : Strips (47 :: tok) endToken P f) :
    ∀ (items : JsonItems) (s : CString), items.AllBlanks P →
    strip (47 :: tok) endToken false false (items.text ++ s) =
      (items.mapBlanks f).text ++ strip (47 :: tok) endToken false false s
  | .last before v after, s, hP => by
    rw [JsonItems.AllBlanks] at hP
    simp only [JsonItems.mapBlanks, JsonItems.text, List.append_assoc, List.singleton_append]
    rw [strip_blanks h hP.1, strip_text h v _ hP.2.1, strip_blanks h hP.2.2,
      strip_mark (by decide)]
  | .more before v after rest, s, hP => by
    rw [JsonItems.AllBlanks] at hP
    simp only [JsonItems.mapBlanks, JsonItems.text, List.append_assoc, List.cons_append]
    rw [strip_blanks h hP.1, strip_text h v _ hP.2.1, strip_blanks h hP.2.2.1,
      strip_mark (by decide), strip_itemsText h rest s hP.2.2.2]

theorem strip_membersText (h : Strips (47 :: tok) endToken P f) :
    ∀ (members : JsonMembers) (s : CString), members.AllBlanks P →
    strip (47 :: tok) endToken false false (members.text ++ s) =
      (members.mapBlanks f).text ++ strip (47 :: tok) endToken false false s
  | .last key before v after, s, hP => by
    rw [JsonMembers.AllBlanks] at hP
    simp only [JsonMembers.mapBlanks, JsonMembers.text, List.append_assoc, List.singleton_append]
    rw [strip_key h hP.1, strip_blanks h hP.2.1, strip_text h v _ hP.2.2.1,
      strip_blanks h hP.2.2.2, strip_mark (by decide)]
  | .more key before v after rest, s, hP => by
    rw [JsonMembers.AllBlanks] at hP
    simp only [JsonMembers.mapBlanks, JsonMembers.text, List.append_assoc, List.cons_append]
    rw [strip_key h hP.1, strip_blanks h hP.2.1, strip_text h v _ hP.2.2.1,
      strip_blanks h hP.2.2.2.1, strip_mark (by decide), strip_membersText h rest s hP.2.2.2.2]

end

end

/-! ## The two passes -/

/-- A token stands first where it stands at all. -/
theorem strstr_append {token l : CString} {c : U8} {t : CString} (htoken : token = t ++ [c])
    (hfirst : ¬token <:+: l ++ t) (s : CString) :
    strstr token (l ++ (token ++ s)) = some l.length := by
  induction l with
  | nil =>
    cases htoken' : token with
    | nil => simp [htoken] at htoken'
    | cons d token' =>
      have hstarts : d :: token' <+: d :: (token' ++ s) := ⟨s, rfl⟩
      rw [List.nil_append, List.cons_append, strstr, if_pos hstarts]
      rfl
  | cons d l ih =>
    have hnot : ¬token <+: d :: (l ++ (token ++ s)) := by
      intro hstarts
      have hlen : token.length ≤ (d :: (l ++ t)).length := by
        rw [htoken]
        simp
      have hcut : d :: (l ++ (token ++ s)) = (d :: (l ++ t)) ++ (c :: s) := by
        rw [htoken]
        simp
      rw [hcut] at hstarts
      exact hfirst (List.prefix_of_prefix_length_le hstarts (List.prefix_append _ _) hlen).isInfix
    rw [List.cons_append, strstr, if_neg hnot,
      ih fun h => hfirst (h.trans (List.suffix_cons d _).isInfix)]
    rfl

theorem drop_token (body token s : CString) :
    (body ++ (token ++ s)).drop (body.length + token.length) = s := by
  rw [← List.append_assoc, ← List.length_append, List.drop_left]

/-- A block comment as so many spaces, anything else as it is. -/
def unblocked : Blank → List Blank
  | .block body noNul ends =>
    List.replicate (Blank.text (.block body noNul ends)).length .space
  | b => [b]

/-- A line comment as so many spaces, anything else as it is. -/
def unlined : Blank → List Blank
  | .line body plain noBlock =>
    List.replicate (Blank.text (.line body plain noBlock)).length .space
  | b => [b]

/-- A blank is a block comment, or one that the first pass leaves. -/
def isBlock : Blank → Bool
  | .block _ _ _ => true
  | _ => false

theorem blanksText_replicate (n : ℕ) :
    blanksText (List.replicate n .space) = List.replicate n 32 := by
  induction n with
  | zero => rfl
  | succ n ih =>
    rw [List.replicate_succ, blanksText_cons, ih]
    rfl

/-- Text without quotes, backslashes and a start of a block stays. -/
theorem strip_block_append {l s : CString} (hl : ∀ c ∈ l, c ≠ 92 ∧ c ≠ 34)
    (hblock : ¬[47, 42] <:+: l) (hs : s.head? ≠ some 42) :
    strip [47, 42] endToken false false (l ++ s) =
      l ++ strip [47, 42] endToken false false s := by
  induction l with
  | nil => rfl
  | cons c l ih =>
    obtain ⟨⟨hbackslash, hquote⟩, hrest⟩ := List.forall_mem_cons.mp hl
    have hstarts : ¬[47, 42] <+: c :: (l ++ s) := by
      intro h
      obtain ⟨rfl, hstar⟩ := List.cons_prefix_cons.mp h
      cases l with
      | nil =>
        obtain ⟨t, ht⟩ := hstar
        rw [List.nil_append] at ht
        exact hs (by rw [← ht]; rfl)
      | cons d l =>
        obtain ⟨rfl, -⟩ := List.cons_prefix_cons.mp hstar
        exact hblock ⟨[], l, rfl⟩
    rw [List.cons_append, strip_plain (by decide) hbackslash hquote hstarts,
      ih hrest fun h => hblock (h.trans (List.suffix_cons c l).isInfix)]
    rfl

/-- The first pass turns block comments into spaces and keeps the rest. -/
theorem strips_block : Strips [47, 42] [42, 47] (fun _ => True) unblocked := by
  intro b _ s
  cases b with
  | space | tab | newline | carriageReturn => exact strip_mark (by decide) s
  | block body noNul ends =>
    have hptr : strstr [42, 47] (body ++ ([42, 47] ++ s)) = some body.length :=
      strstr_append (t := [42]) rfl ends s
    have hdrop := drop_token body [42, 47] s
    have hcomment := strip_comment (List.cons_ne_nil 47 [42]) hptr (by decide) (by decide)
    rw [hdrop] at hcomment
    have htext : Blank.text (.block body noNul ends) ++ s =
        [47, 42] ++ (body ++ ([42, 47] ++ s)) := by
      simp [Blank.text]
    have hlen : (Blank.text (.block body noNul ends)).length = 2 + (body.length + 2) := by
      simp [Blank.text]
      omega
    rw [htext, hcomment, unblocked, blanksText_replicate, hlen]
    rfl
  | line body plain noBlock =>
    have hkept : blanksText (unblocked (.line body plain noBlock)) =
        47 :: (47 :: (body ++ [10])) ++ [] := rfl
    have hall : ∀ c ∈ 47 :: body, c ≠ 92 ∧ c ≠ 34 := by
      intro c hc
      rcases List.mem_cons.mp hc with rfl | hmem
      · decide
      · exact ⟨(plain c hmem).2.2.2, (plain c hmem).2.2.1⟩
    have hslash : ¬[47, 42] <+: 47 :: ((47 :: body) ++ (10 :: s)) := by
      intro h
      obtain ⟨-, hstar⟩ := List.cons_prefix_cons.mp h
      exact absurd (List.cons_prefix_cons.mp hstar).1 (by decide)
    have hbody : strip [47, 42] [42, 47] false false ((47 :: body) ++ (10 :: s)) = _ :=
      strip_block_append hall noBlock (by simp)
    have hsplit : Blank.text (.line body plain noBlock) ++ s =
        47 :: ((47 :: body) ++ (10 :: s)) := by
      simp [Blank.text]
    rw [hsplit, strip_plain (by decide) (by decide) (by decide) hslash, hbody,
      strip_mark (by decide), hkept]
    simp

/-- The second pass turns line comments into spaces and keeps the rest. -/
theorem strips_line : Strips [47, 47] [10] (fun b => isBlock b = false) unlined := by
  intro b hb s
  cases b with
  | space | tab | newline | carriageReturn => exact strip_mark (by decide) s
  | block body noNul ends => exact absurd hb (by simp [isBlock])
  | line body plain noBlock =>
    have hfirst : ¬[10] <:+: body ++ [] := by
      rw [List.append_nil, List.singleton_infix_iff]
      exact fun hmem => (plain 10 hmem).2.1 rfl
    have hptr : strstr [10] (body ++ ([10] ++ s)) = some body.length :=
      strstr_append (t := []) rfl hfirst s
    have hdrop := drop_token body [10] s
    have hcomment := strip_comment (List.cons_ne_nil 47 [47]) hptr (by decide) (by decide)
    rw [hdrop] at hcomment
    have htext : Blank.text (.line body plain noBlock) ++ s =
        [47, 47] ++ (body ++ ([10] ++ s)) := by
      simp [Blank.text]
    have hlen : (Blank.text (.line body plain noBlock)).length = 2 + (body.length + 1) := by
      simp [Blank.text]
      omega
    rw [htext, hcomment, unlined, blanksText_replicate, hlen]
    rfl

theorem isBlock_unblocked (b : Blank) : ∀ b' ∈ unblocked b, isBlock b' = false := by
  cases b with
  | space | tab | newline | carriageReturn | line => simp [unblocked, isBlock]
  | block body noNul ends =>
    intro b' hb'
    rw [List.eq_of_mem_replicate hb']
    rfl

theorem isComment_unlined {b : Blank} (h : isBlock b = false) :
    ∀ b' ∈ unlined b, b'.isComment = false := by
  cases b with
  | space | tab | newline | carriageReturn => simp [unlined, Blank.isComment]
  | block body noNul ends => exact absurd h (by simp [isBlock])
  | line body plain noBlock =>
    intro b' hb'
    rw [List.eq_of_mem_replicate hb']
    rfl

/-! ## The value is that of the tree -/

mutual

/-- The value of a text does not depend on its blanks. -/
theorem syntaxValue_mapBlanks (f : Blank → List Blank) :
    ∀ t : JsonSyntax, syntaxValue (t.mapBlanks f) = syntaxValue t
  | .null | .boolean _ | .number _ | .string _ | .emptyArray _ | .emptyObject _ => by
    simp [JsonSyntax.mapBlanks, syntaxValue]
  | .array items => by
    rw [JsonSyntax.mapBlanks, syntaxValue, syntaxValue, itemsValues_mapBlanks f items]
  | .object members => by
    rw [JsonSyntax.mapBlanks, syntaxValue, syntaxValue, membersFields_mapBlanks f members]

theorem itemsValues_mapBlanks (f : Blank → List Blank) :
    ∀ items : JsonItems, itemsValues (items.mapBlanks f) = itemsValues items
  | .last _ v _ => by
    rw [JsonItems.mapBlanks, itemsValues, itemsValues, syntaxValue_mapBlanks f v]
  | .more _ v _ rest => by
    rw [JsonItems.mapBlanks, itemsValues, itemsValues, syntaxValue_mapBlanks f v,
      itemsValues_mapBlanks f rest]

theorem membersFields_mapBlanks (f : Blank → List Blank) :
    ∀ members : JsonMembers, membersFields (members.mapBlanks f) = membersFields members
  | .last _ _ v _ => by
    rw [JsonMembers.mapBlanks, membersFields, membersFields, syntaxValue_mapBlanks f v]
    rfl
  | .more _ _ v _ rest => by
    rw [JsonMembers.mapBlanks, membersFields, membersFields, syntaxValue_mapBlanks f v,
      membersFields_mapBlanks f rest]
    rfl

end

mutual

/-- Whether a text is accepted does not depend on its blanks either. -/
theorem accepts_mapBlanks (f : Blank → List Blank) :
    ∀ (t : JsonSyntax) (levels : ℕ), accepts levels (t.mapBlanks f) = accepts levels t
  | t, 0 => by rw [accepts, accepts]
  | .null, _ + 1 | .boolean _, _ + 1 | .number _, _ + 1 | .string _, _ + 1
  | .emptyArray _, _ + 1 | .emptyObject _, _ + 1 => by simp [JsonSyntax.mapBlanks, accepts]
  | .array items, levels + 1 => by
    rw [JsonSyntax.mapBlanks, accepts, accepts, acceptsItems_mapBlanks f items levels,
      itemsValues_mapBlanks]
  | .object members, levels + 1 => by
    rw [JsonSyntax.mapBlanks, accepts, accepts, acceptsMembers_mapBlanks f members levels,
      membersFields_mapBlanks]

theorem acceptsItems_mapBlanks (f : Blank → List Blank) :
    ∀ (items : JsonItems) (levels : ℕ),
      acceptsItems levels (items.mapBlanks f) = acceptsItems levels items
  | .last _ v _, levels => by
    rw [JsonItems.mapBlanks, acceptsItems, acceptsItems, accepts_mapBlanks f v levels]
  | .more _ v _ rest, levels => by
    rw [JsonItems.mapBlanks, acceptsItems, acceptsItems, accepts_mapBlanks f v levels,
      acceptsItems_mapBlanks f rest levels]

theorem acceptsMembers_mapBlanks (f : Blank → List Blank) :
    ∀ (members : JsonMembers) (levels : ℕ),
      acceptsMembers levels (members.mapBlanks f) = acceptsMembers levels members
  | .last _ _ v _, levels => by
    rw [JsonMembers.mapBlanks, acceptsMembers, acceptsMembers, accepts_mapBlanks f v levels]
  | .more _ _ v _ rest, levels => by
    rw [JsonMembers.mapBlanks, acceptsMembers, acceptsMembers, accepts_mapBlanks f v levels,
      acceptsMembers_mapBlanks f rest levels]

end

theorem isContainer_mapBlanks (f : Blank → List Blank) (t : JsonSyntax) :
    isContainer (t.mapBlanks f) = isContainer t := by
  cases t <;> simp [JsonSyntax.mapBlanks, isContainer]

theorem removeComments_eq_strip (hstart : startToken ≠ []) (hend : endToken ≠ []) (s : CString) :
    removeComments startToken endToken s = strip startToken endToken false false s := by
  rw [removeComments, if_neg (not_or.mpr ⟨hstart, hend⟩)]
  rfl

/-- **A text with comments is parsed as its value**: an array or an object that the parser
accepts.  What follows it does not matter. -/
theorem jsonParseStringWithComments_text (blanks : List Blank) (t : JsonSyntax) (rest : CString) :
    jsonParseStringWithComments (blanksText blanks ++ (t.text ++ rest)) =
      if isContainer t && accepts (maxNesting + 1) t then some (syntaxValue t) else none := by
  have hblanks : ∀ b ∈ blanks.flatMap unblocked, isBlock b = false :=
    forall_mem_flatMap (P := fun _ => True) (fun b _ => isBlock_unblocked b) fun _ _ => trivial
  have ht : (t.mapBlanks unblocked).AllBlanks (fun b => isBlock b = false) :=
    (JsonSyntax.allBlanks_of_forall (fun _ => trivial) t).mapBlanks
      (P := fun _ => True) fun b _ => isBlock_unblocked b
  unfold jsonParseStringWithComments
  rw [removeComments_eq_strip (by decide) (by decide),
    removeComments_eq_strip (by decide) (by decide)]
  show jsonParseString (strip [47, 47] [10] false false (strip [47, 42] [42, 47] false false _)) = _
  rw [strip_blanks strips_block (fun _ _ => trivial),
    strip_text strips_block t rest (JsonSyntax.allBlanks_of_forall (fun _ => trivial) t),
    strip_blanks strips_line hblanks, strip_text strips_line _ _ ht,
    jsonParseString_text (forall_mem_flatMap (fun _ => isComment_unlined) hblanks)
      (ht.mapBlanks fun _ => isComment_unlined)]
  rw [isContainer_mapBlanks, isContainer_mapBlanks, accepts_mapBlanks, accepts_mapBlanks,
    syntaxValue_mapBlanks, syntaxValue_mapBlanks]

end PacketForwarder
