import PacketForwarder.Base64.Grammar
import PacketForwarder.Lib.ArrayRun

/-!
# Base64 in its buffers

The functions of `base64.c` with every index they read and write.

* `realizes_b64ToBinRun`, `realizes_binToB64Run` — they do what the functions over strings
  say, index by index;
* `within_b64ToBinRun`, `within_binToB64Run` — nothing outside the two arrays is touched;
* `base64_within_buffers` — that, and when they succeed, and what they return.
-/

namespace PacketForwarder

open ArrayRun

/-! ## Index by index -/

/-- `char_to_code` of a character of the input, as six bits of a block. -/
def loadCode (input : CString) (i shift : ℕ) : ArrayRun U8 U32 := do
  ofOption (codeBits (← load input i 0) shift)

/-- The loop of `b64_to_bin_nopad` decodes one full block of four characters. -/
def decodeBlockAt (input : CString) (i : ℕ) : ArrayRun U8 Unit := do
  let b ← loadCode input (4 * i) 18
  let b := b ||| (← loadCode input (4 * i + 1) 12)
  let b := b ||| (← loadCode input (4 * i + 2) 6)
  let b := b ||| (← loadCode input (4 * i + 3) 0)
  store (3 * i) (blockByte b 16)
  store (3 * i + 1) (blockByte b 8)
  store (3 * i + 2) (blockByte b 0)

/-- The last block of `b64_to_bin_nopad` has two or three characters, or there is none. -/
def decodeLastAt (input : CString) (i lastBytes : ℕ) : ArrayRun U8 Unit := do
  if lastBytes = 1 then
    let b ← loadCode input (4 * i) 18
    let b := b ||| (← loadCode input (4 * i + 1) 12)
    store (3 * i) (blockByte b 16)
  else if lastBytes = 2 then
    let b ← loadCode input (4 * i) 18
    let b := b ||| (← loadCode input (4 * i + 1) 12)
    let b := b ||| (← loadCode input (4 * i + 2) 6)
    store (3 * i) (blockByte b 16)
    store (3 * i + 1) (blockByte b 8)
  else return ()

/-- `b64_to_bin_nopad` of the first `size` characters. -/
def b64ToBinNopadRun (input : CString) (size maxLen : ℕ) : ArrayRun U8 ℤ := do
  if size = 0 then return 0
  let fullBlocks := size / 4
  let lastChars := size % 4
  if lastChars = 1 then return -1
  let lastBytes := lastChars - 1
  let resultLen := 3 * fullBlocks + lastBytes
  if maxLen < resultLen then return -1
  iterate (decodeBlockAt input) 0 fullBlocks
  decodeLastAt input fullBlocks lastBytes
  return resultLen

/-- `b64_to_bin`. -/
def b64ToBinRun (input : CString) (size maxLen : ℕ) : ArrayRun U8 ℤ := do
  if size % 4 = 0 ∧ 4 ≤ size then
    if (← load input (size - 2) 0) = 61 then b64ToBinNopadRun input (size - 2) maxLen
    else if (← load input (size - 1) 0) = 61 then b64ToBinNopadRun input (size - 1) maxLen
    else b64ToBinNopadRun input size maxLen
  else b64ToBinNopadRun input size maxLen

/-- A byte of the input as eight bits of a block. -/
def loadByte (input : List U8) (i shift : ℕ) : ArrayRun U8 U32 := do
  return byteBits (← load input i 0) shift

/-- Six bits of a block to a character of the output, by `code_to_char`. -/
def storeChar (i : ℕ) (b : U32) (shift : ℕ) : ArrayRun U8 Unit := do
  store i (← ofOption (blockChar b shift))

/-- The loop of `bin_to_b64_nopad` encodes one full block of three bytes. -/
def encodeBlockAt (input : List U8) (i : ℕ) : ArrayRun U8 Unit := do
  let b ← loadByte input (3 * i) 16
  let b := b ||| (← loadByte input (3 * i + 1) 8)
  let b := b ||| (← loadByte input (3 * i + 2) 0)
  storeChar (4 * i) b 18
  storeChar (4 * i + 1) b 12
  storeChar (4 * i + 2) b 6
  storeChar (4 * i + 3) b 0

/-- The last block, which may be short, and the terminator behind it. -/
def encodeLastAt (input : List U8) (i lastChars : ℕ) : ArrayRun U8 Unit := do
  if lastChars = 0 then store (4 * i) 0
  else if lastChars = 2 then
    let b ← loadByte input (3 * i) 16
    storeChar (4 * i) b 18
    storeChar (4 * i + 1) b 12
    store (4 * i + 2) 0
  else if lastChars = 3 then
    let b ← loadByte input (3 * i) 16
    let b := b ||| (← loadByte input (3 * i + 1) 8)
    storeChar (4 * i) b 18
    storeChar (4 * i + 1) b 12
    storeChar (4 * i + 2) b 6
    store (4 * i + 3) 0
  else return ()

/-- `bin_to_b64_nopad`. -/
def binToB64NopadRun (input : List U8) (size maxLen : ℕ) : ArrayRun U8 ℤ := do
  if size = 0 then
    store 0 0
    return 0
  let fullBlocks := size / 3
  let lastBytes := size % 3
  let lastChars := if lastBytes = 0 then 0 else lastBytes + 1
  let resultLen := 4 * fullBlocks + lastChars
  if maxLen < resultLen + 1 then return -1
  iterate (encodeBlockAt input) 0 fullBlocks
  encodeLastAt input fullBlocks lastChars
  return resultLen

/-- `bin_to_b64`. -/
def binToB64Run (input : List U8) (size maxLen : ℕ) : ArrayRun U8 ℤ := do
  let ret ← binToB64NopadRun input size maxLen
  if ret = -1 then return -1
  if ret % 4 = 0 then return ret
  else if ret % 4 = 1 then return -1
  else if ret % 4 = 2 then
    if ret + 2 + 1 ≤ maxLen then
      store ret.toNat 61
      store (ret.toNat + 1) 61
      store (ret.toNat + 2) 0
      return ret + 2
    else return -1
  else
    if ret + 1 + 1 ≤ maxLen then
      store ret.toNat 61
      store (ret.toNat + 1) 0
      return ret + 1
    else return -1

/-! ## Bounds -/

theorem within_loadCode {n m : ℕ} {input : CString} {i shift : ℕ} (h : i < n) :
    Within n m (loadCode input i shift) :=
  (Within.load h).bind fun _ => .ofOption _

theorem within_decodeBlockAt {n m : ℕ} {input : CString} {i : ℕ} (hin : 4 * i + 3 < n)
    (hout : 3 * i + 2 < m) : Within n m (decodeBlockAt input i) :=
  (within_loadCode (by omega)).bind fun _ =>
  (within_loadCode (by omega)).bind fun _ =>
  (within_loadCode (by omega)).bind fun _ =>
  (within_loadCode hin).bind fun _ =>
  (Within.store (by omega)).bind fun _ =>
  (Within.store (by omega)).bind fun _ =>
  Within.store hout

theorem within_decodeLastAt {n m : ℕ} {input : CString} {i lastBytes : ℕ}
    (hin : lastBytes = 0 ∨ 4 * i + lastBytes < n) (hout : 3 * i + lastBytes ≤ m) :
    Within n m (decodeLastAt input i lastBytes) := by
  unfold decodeLastAt
  split_ifs with hone htwo
  · exact (within_loadCode (by omega)).bind fun _ =>
      (within_loadCode (by omega)).bind fun _ => Within.store (by omega)
  · exact (within_loadCode (by omega)).bind fun _ =>
      (within_loadCode (by omega)).bind fun _ =>
      (within_loadCode (by omega)).bind fun _ =>
      (Within.store (by omega)).bind fun _ => Within.store (by omega)
  · exact Within.pure ()

theorem within_b64ToBinNopadRun (input : CString) (size maxLen : ℕ) :
    Within size maxLen (b64ToBinNopadRun input size maxLen) := by
  unfold b64ToBinNopadRun
  dsimp only
  split_ifs with hzero hone hroom
  · exact Within.pure 0
  · exact Within.pure (-1)
  · exact Within.pure (-1)
  · refine (Within.iterate fun j hj => within_decodeBlockAt (by omega) (by omega)).bind fun _ => ?_
    exact (within_decodeLastAt (by omega) (by omega)).bind fun _ => Within.pure _

/-- **`b64_to_bin` stays in its arrays**, whatever the characters and the room for the result are.
-/
theorem within_b64ToBinRun (input : CString) (size maxLen : ℕ) :
    Within size maxLen (b64ToBinRun input size maxLen) := by
  have hnopad : ∀ k ≤ size, Within size maxLen (b64ToBinNopadRun input k maxLen) :=
    fun k hk => (within_b64ToBinNopadRun input k maxLen).mono hk le_rfl
  unfold b64ToBinRun
  split_ifs with hfour
  · refine (Within.load (by omega)).bind fun c => ?_
    split_ifs
    · exact hnopad _ (Nat.sub_le _ _)
    · refine (Within.load (by omega)).bind fun c' => ?_
      split_ifs
      · exact hnopad _ (Nat.sub_le _ _)
      · exact hnopad _ le_rfl
  · exact hnopad _ le_rfl

theorem within_loadByte {n m : ℕ} {input : List U8} {i shift : ℕ} (h : i < n) :
    Within n m (loadByte input i shift) :=
  (Within.load h).bind fun _ => .pure _

theorem within_storeChar {n m : ℕ} {i : ℕ} {b : U32} {shift : ℕ} (h : i < m) :
    Within n m (storeChar i b shift) :=
  (Within.ofOption _).bind fun _ => .store h

theorem within_encodeBlockAt {n m : ℕ} {input : List U8} {i : ℕ} (hin : 3 * i + 2 < n)
    (hout : 4 * i + 3 < m) : Within n m (encodeBlockAt input i) :=
  (within_loadByte (by omega)).bind fun _ =>
  (within_loadByte (by omega)).bind fun _ =>
  (within_loadByte hin).bind fun _ =>
  (within_storeChar (by omega)).bind fun _ =>
  (within_storeChar (by omega)).bind fun _ =>
  (within_storeChar (by omega)).bind fun _ =>
  within_storeChar hout

theorem within_encodeLastAt {n m : ℕ} {input : List U8} {i lastChars : ℕ}
    (hin : 3 * i + (lastChars - 1) ≤ n) (hout : 4 * i + lastChars < m) :
    Within n m (encodeLastAt input i lastChars) := by
  unfold encodeLastAt
  split_ifs with hzero htwo hthree
  · exact Within.store (by omega)
  · exact (within_loadByte (by omega)).bind fun _ =>
      (within_storeChar (by omega)).bind fun _ =>
      (within_storeChar (by omega)).bind fun _ => Within.store (by omega)
  · exact (within_loadByte (by omega)).bind fun _ =>
      (within_loadByte (by omega)).bind fun _ =>
      (within_storeChar (by omega)).bind fun _ =>
      (within_storeChar (by omega)).bind fun _ =>
      (within_storeChar (by omega)).bind fun _ => Within.store (by omega)
  · exact Within.pure ()

theorem within_binToB64NopadRun (input : List U8) (size : ℕ) {maxLen : ℕ} (hmax : 1 ≤ maxLen) :
    Within size maxLen (binToB64NopadRun input size maxLen) := by
  unfold binToB64NopadRun
  dsimp only
  split_ifs with hzero
  · exact (Within.store hmax).bind fun _ => Within.pure 0
  all_goals first
    | exact Within.pure (-1)
    | exact (Within.iterate fun j hj => within_encodeBlockAt (by omega) (by omega)).bind fun _ =>
        (within_encodeLastAt (by omega) (by omega)).bind fun _ => Within.pure _

/-! ## What the blocks fill -/

theorem getD_of_drop_eq {l rest : List U8} {k : ℕ} {x : U8} (h : l.drop k = x :: rest) :
    l.getD k 0 = x ∧ l.drop (k + 1) = rest := by
  constructor
  · rw [List.getD_eq_getElem?_getD, ← List.head?_drop, h]
    rfl
  · rw [← List.tail_drop, h]
    rfl

/-- An element of a prefix is where it is in the whole. -/
theorem getD_of_drop_take {l rest : List U8} {n k : ℕ} {x : U8}
    (h : (l.take n).drop k = x :: rest) : l.getD k 0 = x ∧ (l.take n).drop (k + 1) = rest := by
  obtain ⟨hx, hrest⟩ := getD_of_drop_eq h
  have hk : k < n := by
    by_contra hge
    rw [List.drop_eq_nil_of_le ((List.length_take_le n l).trans (not_lt.mp hge))] at h
    cases h
  rw [List.getD_eq_getElem?_getD, List.getElem?_take_of_lt hk] at hx
  exact ⟨hx, hrest⟩

theorem fills_loadCode_bind {γ : Type} {input : CString} {j shift : ℕ} {c : U8}
    (hc : input.getD j 0 = c) {f : U32 → ArrayRun U8 γ} {i : ℕ} {g : U32 → Option (List U8)}
    {a : γ} (h : ∀ x, (f x).Fills i (g x) a) :
    (loadCode input j shift >>= f).Fills i ((codeBits c shift).bind g) a := by
  unfold loadCode
  rw [bind_assoc]
  refine fills_load_bind ?_
  rw [hc]
  exact fills_ofOption_bind h

theorem decodeBlocks_cons (a b c d : U8) (rest : CString) :
    decodeBlocks (a :: b :: c :: d :: rest) =
      (decodeBlocks [a, b, c, d]).bind fun l => (decodeBlocks rest).map (l ++ ·) := by
  simp only [decodeBlocks]
  cases codeBits a 18 <;> cases codeBits b 12 <;> cases codeBits c 6 <;> cases codeBits d 0 <;>
    cases decodeBlocks rest <;> rfl

theorem length_of_decodeBlocks_four {a b c d : U8} {l : List U8}
    (h : decodeBlocks [a, b, c, d] = some l) : l.length = 3 := by
  rw [decodeBlocks_eq [a, b, c, d] (by simp)] at h
  split_ifs at h
  rw [← Option.some.inj h, length_charsBytes]
  simp

theorem fills_decodeBlockAt {input rest : CString} {size i : ℕ} {a b c d : U8}
    (h : (input.take size).drop (4 * i) = a :: b :: c :: d :: rest) :
    (decodeBlockAt input i).Fills (3 * i) (decodeBlocks [a, b, c, d]) () := by
  obtain ⟨ha, h1⟩ := getD_of_drop_take h
  obtain ⟨hb, h2⟩ := getD_of_drop_take h1
  obtain ⟨hc, h3⟩ := getD_of_drop_take h2
  obtain ⟨hd, -⟩ := getD_of_drop_take h3
  exact fills_loadCode_bind ha fun w => fills_loadCode_bind hb fun x =>
    fills_loadCode_bind hc fun y => fills_loadCode_bind hd fun z =>
    fills_store_bind (fills_store_bind (fills_store _ _))

theorem fills_decodeLastAt {input : CString} {size i lastChars : ℕ}
    (hlen : (input.take size).length = 4 * i + lastChars) (hlt : lastChars < 4)
    (hone : lastChars ≠ 1) :
    (decodeLastAt input i (lastChars - 1)).Fills (3 * i)
      (decodeBlocks ((input.take size).drop (4 * i))) () := by
  have hrest : ((input.take size).drop (4 * i)).length = lastChars := by
    rw [List.length_drop]
    omega
  rcases h : (input.take size).drop (4 * i) with _ | ⟨a, _ | ⟨b, _ | ⟨c, _ | ⟨d, rest⟩⟩⟩⟩ <;>
    rw [h] at hrest <;> simp only [List.length_cons, List.length_nil] at hrest
  · subst hrest
    exact fills_pure _ ()
  · exact absurd hrest.symm hone
  · subst hrest
    obtain ⟨ha, h1⟩ := getD_of_drop_take h
    obtain ⟨hb, -⟩ := getD_of_drop_take h1
    exact fills_loadCode_bind ha fun x => fills_loadCode_bind hb fun y => fills_store _ _
  · subst hrest
    obtain ⟨ha, h1⟩ := getD_of_drop_take h
    obtain ⟨hb, h2⟩ := getD_of_drop_take h1
    obtain ⟨hc, -⟩ := getD_of_drop_take h2
    exact fills_loadCode_bind ha fun x => fills_loadCode_bind hb fun y =>
      fills_loadCode_bind hc fun z => fills_store_bind (fills_store _ _)
  · omega

/-- Decoding the blocks from `i` on fills the cells behind those of the blocks before. -/
theorem fills_decodeFrom {input : CString} {size i n lastChars : ℕ}
    (hlen : (input.take size).length = 4 * (i + n) + lastChars) (hlt : lastChars < 4)
    (hone : lastChars ≠ 1) (r : ℤ) :
    (do
      iterate (decodeBlockAt input) i n
      decodeLastAt input (i + n) (lastChars - 1)
      return r : ArrayRun U8 ℤ).Fills (3 * i)
        (decodeBlocks ((input.take size).drop (4 * i))) r := by
  induction n generalizing i with
  | zero =>
    rw [iterate, pure_bind, Nat.add_zero]
    exact (fills_decodeLastAt hlen hlt hone).bind_pure r
  | succ n ih =>
    have hrest : ((input.take size).drop (4 * i)).length = 4 * (n + 1) + lastChars := by
      rw [List.length_drop]
      omega
    rcases h : (input.take size).drop (4 * i) with _ | ⟨a, _ | ⟨b, _ | ⟨c, _ | ⟨d, rest⟩⟩⟩⟩ <;>
      rw [h] at hrest <;> simp only [List.length_cons, List.length_nil] at hrest
    any_goals omega
    obtain ⟨-, h1⟩ := getD_of_drop_take h
    obtain ⟨-, h2⟩ := getD_of_drop_take h1
    obtain ⟨-, h3⟩ := getD_of_drop_take h2
    obtain ⟨-, h4⟩ := getD_of_drop_take h3
    have hnext : i + (n + 1) = i + 1 + n := by omega
    rw [decodeBlocks_cons, iterate, bind_assoc, hnext]
    refine (fills_decodeBlockAt h).bind fun l hl => ?_
    rw [length_of_decodeBlocks_four hl, ← h4]
    exact ih (i := i + 1) (by omega)

/-- What a function over arrays does is what the function over strings says: it ends the
thread, or its result is the number and the output starts with what is written. -/
def Realizes (r : ArrayRun U8 ℤ) (res : B64Result) : Prop :=
  match res with
  | .exits => r.result = none
  | .returns len written => r.result = some len ∧ ∀ out : List U8, written.length ≤ out.length →
      r.buffer out = written ++ out.drop written.length

theorem realizes_of_fills {r : ArrayRun U8 ℤ} {xs : Option (List U8)} {len : ℤ}
    (h : r.Fills 0 xs len) : Realizes r (xs.elim .exits (.returns len)) := by
  cases xs with
  | none => exact h
  | some bytes => exact ⟨h.1, fun out hout => h.buffer_eq hout⟩

theorem realizes_pure (n : ℤ) : Realizes (pure n) (.returns n []) := ⟨rfl, fun _ _ => rfl⟩

/-- **`b64_to_bin_nopad`, index by index**, stores what the function over strings says. -/
theorem realizes_b64ToBinNopadRun (input : CString) {size : ℕ} (hsize : size ≤ input.length)
    (maxLen : ℕ) :
    Realizes (b64ToBinNopadRun input size maxLen) (b64ToBinNopad (input.take size) maxLen) := by
  have hlen : (input.take size).length = size := List.length_take_of_le hsize
  unfold b64ToBinNopadRun b64ToBinNopad
  simp only [hlen]
  split_ifs with hzero hone hroom
  · exact realizes_pure 0
  · exact realizes_pure (-1)
  · exact realizes_pure (-1)
  · have hfrom : (input.take size).length = 4 * (0 + size / 4) + size % 4 := by omega
    have h := realizes_of_fills
      (fills_decodeFrom hfrom (by omega) hone (3 * (size / 4) + (size % 4 - 1) : ℕ))
    rw [Nat.zero_add, Nat.mul_zero, List.drop_zero] at h
    cases hblocks : decodeBlocks (input.take size) with
    | none =>
      rw [hblocks] at h
      exact h
    | some bytes =>
      rw [hblocks] at h
      exact h

theorem realizes_load_bind {input : CString} {j : ℕ} {f : U8 → ArrayRun U8 ℤ} {res : B64Result}
    (h : Realizes (f (input.getD j 0)) res) : Realizes (load input j 0 >>= f) res := by
  rw [bind_of_some rfl]
  exact h

/-- **`b64_to_bin`, index by index**, stores what the function over strings says. -/
theorem realizes_b64ToBinRun (input : CString) (maxLen : ℕ) :
    Realizes (b64ToBinRun input input.length maxLen) (b64ToBin input maxLen) := by
  have hnopad := fun k (hk : k ≤ input.length) => realizes_b64ToBinNopadRun input hk maxLen
  have hwhole := hnopad input.length le_rfl
  rw [List.take_length] at hwhole
  unfold b64ToBinRun b64ToBin
  dsimp only
  by_cases hfour : input.length % 4 = 0 ∧ 4 ≤ input.length
  · rw [if_pos hfour, if_pos hfour]
    refine realizes_load_bind ?_
    by_cases htwo : input.getD (input.length - 2) 0 = 61
    · rw [if_pos htwo, if_pos htwo]
      exact hnopad _ (Nat.sub_le _ _)
    · rw [if_neg htwo, if_neg htwo]
      refine realizes_load_bind ?_
      by_cases hone : input.getD (input.length - 1) 0 = 61
      · rw [if_pos hone, if_pos hone]
        exact hnopad _ (Nat.sub_le _ _)
      · rw [if_neg hone, if_neg hone]
        exact hwhole
  · rw [if_neg hfour, if_neg hfour]
    exact hwhole

/-! ## The encoder -/

theorem fills_loadByte_bind {γ : Type} {input : List U8} {j shift : ℕ} {x : U8}
    (hx : input.getD j 0 = x) {f : U32 → ArrayRun U8 γ} {i : ℕ} {xs : Option (List U8)} {a : γ}
    (h : (f (byteBits x shift)).Fills i xs a) : (loadByte input j shift >>= f).Fills i xs a := by
  unfold loadByte
  rw [bind_assoc]
  refine fills_load_bind ?_
  rw [hx, pure_bind]
  exact h

theorem fills_storeChar {i : ℕ} {b : U32} {shift : ℕ} {c : U8} (hc : blockChar b shift = some c) :
    (storeChar i b shift).Fills i (some [c]) () := by
  unfold storeChar
  rw [hc]
  exact fills_store i c

theorem fills_storeChar_bind {γ : Type} {i : ℕ} {b : U32} {shift : ℕ} {c : U8}
    (hc : blockChar b shift = some c) {f : Unit → ArrayRun U8 γ} {xs : List U8} {a : γ}
    (h : (f ()).Fills (i + 1) (some xs) a) :
    (storeChar i b shift >>= f).Fills i (some (c :: xs)) a :=
  (fills_storeChar hc).bind fun l hl => by
    cases hl
    exact h

theorem encodeBlocks_cons (a b c : U8) (rest : List U8) :
    encodeBlocks (a :: b :: c :: rest) =
      (encodeBlocks [a, b, c]).bind fun l => (encodeBlocks rest).map (l ++ ·) := by
  obtain ⟨chars, h⟩ := exists_encodedAs rest
  simp only [encodeBlocks, h.encoded]
  cases blockChar (byteBits a 16 ||| byteBits b 8 ||| byteBits c 0) 18 <;>
    cases blockChar (byteBits a 16 ||| byteBits b 8 ||| byteBits c 0) 12 <;>
    cases blockChar (byteBits a 16 ||| byteBits b 8 ||| byteBits c 0) 6 <;>
    cases blockChar (byteBits a 16 ||| byteBits b 8 ||| byteBits c 0) 0 <;> rfl

theorem length_of_encodeBlocks_three {a b c : U8} {l : CString}
    (h : encodeBlocks [a, b, c] = some l) : l.length = 4 := by
  obtain ⟨chars, hchars⟩ := exists_encodedAs [a, b, c]
  rw [hchars.encoded] at h
  rw [← Option.some.inj h, hchars.length]
  simp

theorem fills_encodeBlockAt {input rest : List U8} {i : ℕ} {a b c : U8}
    (h : input.drop (3 * i) = a :: b :: c :: rest) :
    (encodeBlockAt input i).Fills (4 * i) (encodeBlocks [a, b, c]) () := by
  obtain ⟨ha, h1⟩ := getD_of_drop_eq h
  obtain ⟨hb, h2⟩ := getD_of_drop_eq h1
  obtain ⟨hc, -⟩ := getD_of_drop_eq h2
  obtain ⟨c1, hc1, -⟩ := exists_blockChar (byteBits a 16 ||| byteBits b 8 ||| byteBits c 0) 18
  obtain ⟨c2, hc2, -⟩ := exists_blockChar (byteBits a 16 ||| byteBits b 8 ||| byteBits c 0) 12
  obtain ⟨c3, hc3, -⟩ := exists_blockChar (byteBits a 16 ||| byteBits b 8 ||| byteBits c 0) 6
  obtain ⟨c4, hc4, -⟩ := exists_blockChar (byteBits a 16 ||| byteBits b 8 ||| byteBits c 0) 0
  have hblock : encodeBlocks [a, b, c] = some [c1, c2, c3, c4] := by
    simp [encodeBlocks, hc1, hc2, hc3, hc4]
  rw [hblock]
  exact fills_loadByte_bind ha <| fills_loadByte_bind hb <| fills_loadByte_bind hc <|
    fills_storeChar_bind hc1 <| fills_storeChar_bind hc2 <| fills_storeChar_bind hc3 <|
    fills_storeChar hc4

/-- The last block ends with the terminator. -/
theorem fills_encodeLastAt {input : List U8} {i lastBytes : ℕ}
    (hlen : input.length = 3 * i + lastBytes) (hlt : lastBytes < 3) :
    (encodeLastAt input i (if lastBytes = 0 then 0 else lastBytes + 1)).Fills (4 * i)
      ((encodeBlocks (input.drop (3 * i))).map (· ++ [0])) () := by
  have hrest : (input.drop (3 * i)).length = lastBytes := by
    rw [List.length_drop]
    omega
  rcases h : input.drop (3 * i) with _ | ⟨a, _ | ⟨b, _ | ⟨c, rest⟩⟩⟩ <;>
    rw [h] at hrest <;> simp only [List.length_cons, List.length_nil] at hrest
  · subst hrest
    exact fills_store _ _
  · subst hrest
    obtain ⟨ha, -⟩ := getD_of_drop_eq h
    obtain ⟨c1, hc1, -⟩ := exists_blockChar (byteBits a 16) 18
    obtain ⟨c2, hc2, -⟩ := exists_blockChar (byteBits a 16) 12
    have hblock : encodeBlocks [a] = some [c1, c2] := by simp [encodeBlocks, hc1, hc2]
    rw [hblock]
    exact fills_loadByte_bind ha <| fills_storeChar_bind hc1 <| fills_storeChar_bind hc2 <|
      fills_store _ _
  · subst hrest
    obtain ⟨ha, h1⟩ := getD_of_drop_eq h
    obtain ⟨hb, -⟩ := getD_of_drop_eq h1
    obtain ⟨c1, hc1, -⟩ := exists_blockChar (byteBits a 16 ||| byteBits b 8) 18
    obtain ⟨c2, hc2, -⟩ := exists_blockChar (byteBits a 16 ||| byteBits b 8) 12
    obtain ⟨c3, hc3, -⟩ := exists_blockChar (byteBits a 16 ||| byteBits b 8) 6
    have hblock : encodeBlocks [a, b] = some [c1, c2, c3] := by
      simp [encodeBlocks, hc1, hc2, hc3]
    rw [hblock]
    exact fills_loadByte_bind ha <| fills_loadByte_bind hb <| fills_storeChar_bind hc1 <|
      fills_storeChar_bind hc2 <| fills_storeChar_bind hc3 <| fills_store _ _
  · omega

/-- All the blocks from `i` on, and the terminator. -/
theorem fills_encodeFrom {input : List U8} {i n lastBytes : ℕ}
    (hlen : input.length = 3 * (i + n) + lastBytes) (hlt : lastBytes < 3) (r : ℤ) :
    (do
      iterate (encodeBlockAt input) i n
      encodeLastAt input (i + n) (if lastBytes = 0 then 0 else lastBytes + 1)
      return r : ArrayRun U8 ℤ).Fills (4 * i)
        ((encodeBlocks (input.drop (3 * i))).map (· ++ [0])) r := by
  induction n generalizing i with
  | zero =>
    rw [iterate, pure_bind, Nat.add_zero]
    exact (fills_encodeLastAt hlen hlt).bind_pure r
  | succ n ih =>
    have hrest : (input.drop (3 * i)).length = 3 * (n + 1) + lastBytes := by
      rw [List.length_drop]
      omega
    rcases h : input.drop (3 * i) with _ | ⟨a, _ | ⟨b, _ | ⟨c, rest⟩⟩⟩ <;>
      rw [h] at hrest <;> simp only [List.length_cons, List.length_nil] at hrest
    any_goals omega
    obtain ⟨-, h1⟩ := getD_of_drop_eq h
    obtain ⟨-, h2⟩ := getD_of_drop_eq h1
    obtain ⟨-, h3⟩ := getD_of_drop_eq h2
    have hnext : i + (n + 1) = i + 1 + n := by omega
    have hmap : (encodeBlocks (a :: b :: c :: rest)).map (· ++ [0]) =
        (encodeBlocks [a, b, c]).bind fun l =>
          ((encodeBlocks rest).map (· ++ [0])).map (l ++ ·) := by
      rw [encodeBlocks_cons]
      cases encodeBlocks [a, b, c] <;> cases encodeBlocks rest <;> simp
    rw [hmap, iterate, bind_assoc, hnext]
    refine (fills_encodeBlockAt h).bind fun l hl => ?_
    rw [length_of_encodeBlocks_three hl, ← h3]
    exact ih (i := i + 1) (by omega)

/-- `bin_to_b64_nopad` fills the output with the characters and the terminator. -/
theorem fills_binToB64NopadRun {input : List U8} {chars : CString} (h : EncodedAs input chars)
    {maxLen : ℕ} (hroom : input = [] ∨ chars.length < maxLen) :
    (binToB64NopadRun input input.length maxLen).Fills 0 (some (chars ++ [0])) chars.length := by
  have hlen := h.length
  by_cases hzero : input.length = 0
  · obtain rfl : input = [] := List.length_eq_zero_iff.mp hzero
    cases h.encoded
    exact fills_store_bind (fills_pure _ _)
  · have hmax : chars.length < maxLen :=
      hroom.resolve_left fun hnil => hzero (List.length_eq_zero_iff.mpr hnil)
    have hresult : 4 * (input.length / 3) +
        (if input.length % 3 = 0 then 0 else input.length % 3 + 1) = chars.length := by
      split_ifs <;> omega
    have hsplit : input.length = 3 * (0 + input.length / 3) + input.length % 3 := by omega
    have hfrom := fills_encodeFrom hsplit (Nat.mod_lt _ (by decide)) (chars.length : ℤ)
    rw [Nat.zero_add, Nat.mul_zero, List.drop_zero, h.encoded] at hfrom
    unfold binToB64NopadRun
    simp only [if_neg hzero, hresult]
    rw [if_neg (by omega)]
    exact hfrom

/-- It fills nothing for want of room. -/
theorem binToB64NopadRun_eq_neg_one {input : List U8} {maxLen : ℕ} (hinput : input ≠ [])
    (hmax : maxLen ≤ (4 * input.length + 2) / 3) :
    binToB64NopadRun input input.length maxLen = pure (-1) := by
  have hpos : input.length ≠ 0 := mt List.length_eq_zero_iff.mp hinput
  unfold binToB64NopadRun
  simp only [if_neg hpos]
  rw [if_pos (by split_ifs <;> omega)]

/-- What is stored over the terminator. -/
theorem realizes_bind_over_terminator {r : ArrayRun U8 ℤ} {f : ℤ → ArrayRun U8 ℤ}
    {chars pads : CString} {x : U8} {ret len : ℤ} (hr : r.Fills 0 (some (chars ++ [0])) ret)
    (hf : (f ret).Fills chars.length (some (x :: pads)) len) :
    Realizes (r >>= f) (.returns len (chars ++ x :: pads)) := by
  rw [bind_of_some hr.1]
  refine ⟨hf.1, fun out hout => ?_⟩
  have hroom : (chars ++ [0]).length ≤ out.length := by
    simp only [List.length_append, List.length_cons, List.length_nil] at hout ⊢
    omega
  have hfirst := hr.buffer_eq hroom
  rw [buffer] at hfirst ⊢
  rw [List.foldl_append, hfirst, hf.2, List.append_assoc, foldl_storesFrom]
  · simp [Nat.add_assoc, Nat.add_comm 1]
  · simp at hout ⊢
    omega

theorem realizes_bind_pure {r : ArrayRun U8 ℤ} {f : ℤ → ArrayRun U8 ℤ} {xs : List U8}
    {ret len : ℤ} (hr : r.Fills 0 (some xs) ret) (hf : f ret = pure len) :
    Realizes (r >>= f) (.returns len xs) := by
  rw [bind_of_some hr.1, hf]
  refine ⟨rfl, fun out hout => ?_⟩
  have hfirst := hr.buffer_eq hout
  rw [buffer] at hfirst ⊢
  rw [List.foldl_append, hfirst]
  rfl

/-- **`bin_to_b64`, index by index**, stores what the function over strings says, the null byte at
its end included. -/
theorem realizes_binToB64Run (input : List U8) (maxLen : ℕ) :
    Realizes (binToB64Run input input.length maxLen) (binToB64 input maxLen) := by
  obtain ⟨chars, h⟩ := exists_encodedAs input
  have hlen := h.length
  unfold binToB64Run binToB64
  by_cases hroom : input = [] ∨ chars.length < maxLen
  · have hfills := fills_binToB64NopadRun h hroom
    have hnopad : binToB64Nopad input maxLen = .returns chars.length (chars ++ [0]) := by
      rcases hroom with rfl | hmax
      · cases h.encoded
        rfl
      · exact binToB64Nopad_eq h hmax
    have hneg : (chars.length : ℤ) ≠ -1 := by omega
    rw [hnopad]
    simp only [hneg, if_false, Int.toNat_natCast, List.take_left]
    split_ifs with h0 h1 h2 hfits hfits
    · exact realizes_bind_pure hfills (by rw [if_neg hneg, if_pos h0])
    · exact realizes_bind_pure hfills (by rw [if_neg hneg, if_neg h0, if_pos h1])
    · refine realizes_bind_over_terminator hfills ?_
      rw [if_neg hneg, if_neg h0, if_neg h1, if_pos h2, if_pos hfits, Int.toNat_natCast]
      exact fills_store_bind (fills_store_bind (fills_store_bind (fills_pure _ _)))
    · exact realizes_bind_pure hfills
        (by rw [if_neg hneg, if_neg h0, if_neg h1, if_pos h2, if_neg hfits])
    · refine realizes_bind_over_terminator hfills ?_
      rw [if_neg hneg, if_neg h0, if_neg h1, if_neg h2, if_pos hfits, Int.toNat_natCast]
      exact fills_store_bind (fills_store_bind (fills_pure _ _))
    · exact realizes_bind_pure hfills
        (by rw [if_neg hneg, if_neg h0, if_neg h1, if_neg h2, if_neg hfits])
  · obtain ⟨hne, hmax⟩ := not_or.mp hroom
    rw [binToB64Nopad_eq_neg_one hne (by omega), binToB64NopadRun_eq_neg_one hne (by omega),
      pure_bind]
    exact realizes_pure (-1)

theorem neg_one_le_binToB64NopadRun {input : List U8} {maxLen : ℕ} {ret : ℤ}
    (hret : (binToB64NopadRun input input.length maxLen).result = some ret) : -1 ≤ ret := by
  obtain ⟨chars, h⟩ := exists_encodedAs input
  have hlen := h.length
  by_cases hroom : input = [] ∨ chars.length < maxLen
  · rw [(fills_binToB64NopadRun h hroom).1] at hret
    cases hret
    omega
  · obtain ⟨hne, hmax⟩ := not_or.mp hroom
    rw [binToB64NopadRun_eq_neg_one hne (by omega)] at hret
    cases hret
    exact le_rfl

/-- **`bin_to_b64` stays in its arrays**, the terminator and the padding included. -/
theorem within_binToB64Run (input : List U8) {maxLen : ℕ} (hmax : 1 ≤ maxLen) :
    Within input.length maxLen (binToB64Run input input.length maxLen) := by
  unfold binToB64Run
  refine (within_binToB64NopadRun input input.length hmax).bind_result fun ret hret => ?_
  have hge := neg_one_le_binToB64NopadRun hret
  split_ifs with hneg h0 h1 h2 hfits hfits
  · exact Within.pure _
  · exact Within.pure _
  · exact Within.pure _
  · exact (Within.store (by omega)).bind fun _ =>
      (Within.store (by omega)).bind fun _ =>
      (Within.store (by omega)).bind fun _ => Within.pure _
  · exact Within.pure _
  · exact (Within.store (by omega)).bind fun _ =>
      (Within.store (by omega)).bind fun _ => Within.pure _
  · exact Within.pure _

/-! ## The buffers -/

/-- **What an encoder does with `maxLen` cells.**  It stores nothing outside them, and it
succeeds if and only if the `len` characters and the terminator fit. -/
structure EncodesWithin (r : ArrayRun U8 ℤ) (len maxLen : ℕ) : Prop where
  stores : ∀ p ∈ r.stores, p.1 < maxLen
  succeeds_iff : (∃ n, r.result = some n ∧ 0 ≤ n) ↔ len + 1 ≤ maxLen
  returns : len + 1 ≤ maxLen → r.result = some (len : ℤ) ∧
    ∀ out : List U8, out.length = maxLen → (r.buffer out)[len]? = some 0

/-- **What a decoder does with `size` characters and `maxLen` cells.** -/
structure DecodesWithin (r : ArrayRun U8 ℤ) (input : CString) (maxLen : ℕ) : Prop where
  loads : ∀ i ∈ r.loads, i < input.length
  stores : ∀ p ∈ r.stores, p.1 < maxLen
  too_long : maxLen < 3 * (unpadded input).length / 4 → r.result = some (-1)
  decoded_too_long : ∀ bytes, base64Decode input = some bytes → maxLen < bytes.length →
    r.result = some (-1)
  returns_le : ∀ n, r.result = some n → n ≤ maxLen

theorem encodesWithin_of_realizes {r : ArrayRun U8 ℤ} {n len maxLen : ℕ} {res : B64Result}
    (hr : Realizes r res) (hw : Within n maxLen r)
    (hfits : len + 1 ≤ maxLen → ∃ chars : CString, chars.length = len ∧
      res = .returns len (chars ++ [0]))
    (hfails : maxLen ≤ len → ∃ written, res = .returns (-1) written) :
    EncodesWithin r len maxLen := by
  refine ⟨hw.stores, ⟨?_, ?_⟩, ?_⟩
  · rintro ⟨k, hk, hpos⟩
    by_contra hlt
    obtain ⟨written, rfl⟩ := hfails (by omega)
    rw [hr.1] at hk
    cases hk
    exact absurd hpos (by decide)
  · intro hlen
    obtain ⟨chars, -, rfl⟩ := hfits hlen
    exact ⟨len, hr.1, Int.natCast_nonneg len⟩
  · intro hlen
    obtain ⟨chars, rfl, rfl⟩ := hfits hlen
    refine ⟨hr.1, fun out hout => ?_⟩
    rw [hr.2 out (by simp; omega), List.append_assoc]
    simp

theorem encodesWithin_binToB64Run (input : List U8) {maxLen : ℕ} (hmax : 1 ≤ maxLen) :
    EncodesWithin (binToB64Run input input.length maxLen) (4 * ((input.length + 2) / 3))
      maxLen := by
  obtain ⟨chars, h⟩ := exists_encodedAs input
  have hpadded := length_padding h
  refine encodesWithin_of_realizes (realizes_binToB64Run input maxLen)
    (within_binToB64Run input hmax) (fun hfits => ?_) (fun hfull => ?_)
  · refine ⟨chars ++ padding input.length, hpadded, ?_⟩
    rw [binToB64_eq h (by omega), hpadded]
  · have hne : input ≠ [] := by
      rintro rfl
      rw [List.length_nil] at hfull
      omega
    exact exists_binToB64_eq_neg_one hne hfull

theorem encodesWithin_binToB64NopadRun (input : List U8) {maxLen : ℕ} (hmax : 1 ≤ maxLen) :
    EncodesWithin (binToB64NopadRun input input.length maxLen) ((4 * input.length + 2) / 3)
      maxLen := by
  obtain ⟨chars, h⟩ := exists_encodedAs input
  have hlen := h.length
  have hreal : Realizes (binToB64NopadRun input input.length maxLen)
      (binToB64Nopad input maxLen) := by
    by_cases hroom : input = [] ∨ chars.length < maxLen
    · have hlt : chars.length < maxLen := by
        rcases hroom with rfl | hlt
        · rw [List.length_nil] at hlen
          omega
        · exact hlt
      rw [binToB64Nopad_eq h hlt]
      exact realizes_of_fills (fills_binToB64NopadRun h hroom)
    · obtain ⟨hne, hle⟩ := not_or.mp hroom
      rw [binToB64Nopad_eq_neg_one hne (by omega), binToB64NopadRun_eq_neg_one hne (by omega)]
      exact realizes_pure (-1)
  refine encodesWithin_of_realizes hreal (within_binToB64NopadRun input input.length hmax)
    (fun hfits => ?_) (fun hfull => ?_)
  · refine ⟨chars, hlen, ?_⟩
    rw [binToB64Nopad_eq h (by omega), hlen]
  · have hne : input ≠ [] := by
      rintro rfl
      rw [List.length_nil] at hfull
      omega
    exact ⟨[], binToB64Nopad_eq_neg_one hne hfull⟩

theorem decodesWithin_b64ToBinRun (input : CString) (maxLen : ℕ) :
    DecodesWithin (b64ToBinRun input input.length maxLen) input maxLen := by
  have hwithin := within_b64ToBinRun input input.length maxLen
  have hreal := realizes_b64ToBinRun input maxLen
  rw [b64ToBin_eq, b64ToBinNopad_eq] at hreal
  have hlong : maxLen < 3 * (unpadded input).length / 4 →
      (b64ToBinRun input input.length maxLen).result = some (-1) := by
    intro hlt
    rw [if_pos (Or.inr hlt)] at hreal
    exact hreal.1
  refine ⟨hwithin.loads, hwithin.stores, hlong, ?_, ?_⟩
  · intro bytes hbytes hlt
    obtain ⟨chars, h, rfl⟩ := base64Decode_eq_some_iff.mp hbytes
    rw [length_charsBytes, ← h.unpadded_eq] at hlt
    exact hlong hlt
  · intro n hn
    split_ifs at hreal with hfail hall
    · rw [hreal.1] at hn
      cases hn
      omega
    · rw [hreal.1] at hn
      cases hn
      rw [length_charsBytes]
      exact Int.ofNat_le.mpr (not_lt.mp (not_or.mp hfail).2)
    · rw [hreal] at hn
      cases hn

/-- **Base64 in its buffers.**  Both encoders succeed exactly when the characters and the
terminator fit, and no function touches anything outside its arrays. -/
theorem base64_within_buffers (input : List U8) (s : CString) (maxLen : ℕ) (hmax : 1 ≤ maxLen) :
    EncodesWithin (binToB64Run input input.length maxLen) (4 * ((input.length + 2) / 3)) maxLen ∧
      EncodesWithin (binToB64NopadRun input input.length maxLen) ((4 * input.length + 2) / 3)
        maxLen ∧
      DecodesWithin (b64ToBinRun s s.length maxLen) s maxLen :=
  ⟨encodesWithin_binToB64Run input hmax, encodesWithin_binToB64NopadRun input hmax,
    decodesWithin_b64ToBinRun s maxLen⟩

theorem base64_within_buffers_exact_fit :
    EncodesWithin (binToB64Run [255] 1 5) 4 5 ∧ EncodesWithin (binToB64NopadRun [255] 1 5) 2 5 ∧
      DecodesWithin (b64ToBinRun [47, 119, 61, 61] 4 5) [47, 119, 61, 61] 5 :=
  base64_within_buffers [255] [47, 119, 61, 61] 5 (by decide)

end PacketForwarder
