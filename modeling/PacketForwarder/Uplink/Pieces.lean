import PacketForwarder.Base64.RoundTrip
import PacketForwarder.Uplink

/-!
# What the pieces add

The text of an uplink is composed of pieces.  Most of them only add their own text to the
buffer, and so does a list of these.

* `Piece.text`, `Piece.Adds` — the text of a piece, and that it does nothing else;
* `addPieces_appends` — the run lemma;
* `LgwPktRx.Known` — a packet whose numbers all have a name;
* `adds_loopPieces` — the pieces of such packets only add text;
* `piecesText_loopPieces` — the text of the loop: the packets that pass the filter, with
  commas between them.
-/

namespace PacketForwarder

open TextBuffer

variable {env : UpEnv} {g : UpGateway}

/-! ## Adding -/

/-- The padded Base64 text of some bytes. -/
def base64Text (data : List U8) : CString := (encodeBlocks data).getD [] ++ padding data.length

theorem EncodedAs.base64Text_eq {data : List U8} {chars : CString} (h : EncodedAs data chars) :
    base64Text data = chars ++ padding data.length := by
  rw [base64Text, h.encoded, Option.getD_some]

theorem length_base64Text (data : List U8) :
    (base64Text data).length = 4 * ((data.length + 2) / 3) := by
  obtain ⟨chars, h⟩ := exists_encodedAs data
  rw [h.base64Text_eq, length_padding h]

/-- The text that a piece adds to the buffer, which is empty if it goes back or ends the thread. -/
def Piece.text : Piece → CString
  | copy text | print text => text
  | base64 data => base64Text data
  | rewind _ | exits => []

/-- A piece that adds its text, and does nothing else. -/
def Piece.Adds : Piece → Prop
  | copy _ => True
  | print text => text ≠ []
  | base64 data => data.length ≤ 255
  | rewind _ | exits => False

/-- The text that a list of pieces adds, which is their texts one behind the other. -/
def piecesText (pieces : List Piece) : CString := pieces.flatMap Piece.text

@[simp] theorem piecesText_nil : piecesText [] = [] := rfl

@[simp] theorem piecesText_cons (piece : Piece) (pieces : List Piece) :
    piecesText (piece :: pieces) = piece.text ++ piecesText pieces := rfl

@[simp] theorem piecesText_append (pieces pieces' : List Piece) :
    piecesText (pieces ++ pieces') = piecesText pieces ++ piecesText pieces' :=
  List.flatMap_append

/-- Inside the buffer, the room for another text is what is left of the buffer. -/
theorem roomAt_of_lt {k : ℕ} (h : k < txBuffSize) : roomAt k = txBuffSize - k := by
  have hroom : ((txBuffSize : ℤ) - k) = ((txBuffSize - k : ℕ) : ℤ) := by
    rw [Nat.cast_sub h.le]
  unfold roomAt
  rw [hroom, BitVec.ofInt_natCast, BitVec.toNat_ofNat]
  refine Nat.mod_eq_of_lt ?_
  simp only [txBuffSize, nbPktMax, statusSize] at h ⊢
  omega

/-- **A piece that adds its text appends it to what is in the buffer, as far as there is room.** -/
theorem addPiece_appends {piece : Piece} (h : piece.Adds) (b : UpBuff) :
    ∃ b', addPiece b piece = .ok b' ∧ Appends txBuffSize b b' piece.text := by
  cases piece with
  | copy text => exact ⟨_, rfl, Appends.put _ _ _⟩
  | print text =>
    exact ⟨_, if_pos (List.length_pos_iff.mpr h), Appends.print 0 roomAt_of_lt text⟩
  | base64 data =>
    obtain ⟨chars, hchars⟩ := exists_encodedAs data
    have hlen := length_padding hchars
    have hdata : data.length ≤ 255 := h
    have hencode := binToB64_eq hchars (show _ < 341 by omega)
    refine ⟨b.putTerminated 0 (base64Text data), ?_, Appends.putTerminated _ _ _ _⟩
    simp only [addPiece, hencode, hchars.base64Text_eq]
    exact if_pos (Int.natCast_nonneg _)
  | rewind n => exact absurd h id
  | exits => exact absurd h id

/-- **Pieces that add their texts append them one behind the other, as far as there is room.** -/
theorem addPieces_appends {pieces : List Piece} (h : ∀ piece ∈ pieces, piece.Adds) (b : UpBuff) :
    ∃ b', addPieces b pieces = .ok b' ∧ Appends txBuffSize b b' (piecesText pieces) := by
  induction pieces generalizing b with
  | nil => exact ⟨b, rfl, Appends.refl _ _⟩
  | cons piece pieces ih =>
    obtain ⟨b', hfirst, happends⟩ := addPiece_appends (h piece List.mem_cons_self) b
    obtain ⟨b'', hrest, happends'⟩ := ih (fun p hp => h p (List.mem_cons_of_mem _ hp)) b'
    refine ⟨b'', ?_, happends.trans happends'⟩
    unfold addPieces
    rw [List.foldlM_cons, hfirst]
    exact hrest

/-! ## Packets with known numbers -/

/-- The status and the modulation of a packet are known, and so is what the modulation
needs. -/
structure LgwPktRx.Known (p : LgwPktRx) : Prop where
  status : p.status ≠ .undefined
  modulation : p.modulation ≠ .undefined
  datarate : p.modulation = .lora → ∀ rate, p.datarate ≠ .bps rate
  bandwidth : p.modulation = .lora → p.bandwidth ≠ .undefined
  coderate : p.modulation = .lora → p.coderate ≠ none

theorem adds_gpsPieces (env : UpEnv) (ref : Option Tref) (p : LgwPktRx) :
    ∀ piece ∈ gpsPieces env ref p, piece.Adds := by
  unfold gpsPieces
  split
  · exact fun piece h => absurd h List.not_mem_nil
  · refine List.forall_mem_append.mpr ⟨?_, ?_⟩
    · unfold timePieces
      split
      · exact fun piece h => absurd h List.not_mem_nil
      · exact List.forall_mem_singleton.mpr (List.cons_ne_nil _ _)
    · unfold tmmsPieces
      split
      · exact fun piece h => absurd h List.not_mem_nil
      · exact List.forall_mem_singleton.mpr (List.cons_ne_nil _ _)

theorem adds_statPieces {status : RxStatus} (h : status ≠ .undefined) :
    ∀ piece ∈ statPieces status, piece.Adds := by
  cases status with
  | undefined => exact absurd rfl h
  | noCrc => exact List.forall_mem_singleton.mpr trivial
  | crcBad => exact List.forall_mem_singleton.mpr trivial
  | crcOk => exact List.forall_mem_singleton.mpr trivial

theorem adds_dataratePieces {datarate : Datarate} (h : ∀ rate, datarate ≠ .bps rate) :
    ∀ piece ∈ dataratePieces datarate, piece.Adds := by
  cases datarate with
  | bps rate => exact absurd rfl (h rate)
  | _ => exact List.forall_mem_singleton.mpr trivial

theorem adds_bandwidthPieces {bandwidth : Bandwidth} (h : bandwidth ≠ .undefined) :
    ∀ piece ∈ bandwidthPieces bandwidth, piece.Adds := by
  cases bandwidth with
  | undefined => exact absurd rfl h
  | _ => exact List.forall_mem_singleton.mpr trivial

theorem adds_coderatePieces {coderate : Option Coderate} (h : coderate ≠ none) :
    ∀ piece ∈ coderatePieces coderate, piece.Adds := by
  cases coderate with
  | none => exact absurd rfl h
  | some coderate =>
    cases coderate with
    | _ => exact List.forall_mem_singleton.mpr trivial

theorem adds_modulationPieces {p : LgwPktRx} (h : p.Known) :
    ∀ piece ∈ modulationPieces p, piece.Adds := by
  unfold modulationPieces
  split
  · rename_i hlora
    simp only [List.forall_mem_append]
    exact ⟨⟨⟨⟨List.forall_mem_singleton.mpr trivial, adds_dataratePieces (h.datarate hlora)⟩,
      adds_bandwidthPieces (h.bandwidth hlora)⟩, adds_coderatePieces (h.coderate hlora)⟩,
      List.forall_mem_singleton.mpr (List.cons_ne_nil _ _)⟩
  · exact List.forall_mem_cons.mpr
      ⟨trivial, List.forall_mem_singleton.mpr (List.cons_ne_nil _ _)⟩
  · rename_i hundefined
    exact absurd hundefined h.modulation

theorem length_data (p : LgwPktRx) : p.data.length = p.size.toNat := by
  have hle := p.size_le
  unfold LgwPktRx.data
  rw [List.length_take, p.payload.length_cells, Nat.min_eq_left]
  show p.size.toNat ≤ 256
  omega

/-- The pieces of a known packet only add text. -/
theorem adds_rxpkPieces {p : LgwPktRx} (h : p.Known) (env : UpEnv) (ref : Option Tref) :
    ∀ piece ∈ rxpkPieces env ref p, piece.Adds := by
  have hdata : p.data.length ≤ 255 := by
    rw [length_data]
    exact p.size_le
  unfold rxpkPieces
  simp only [List.forall_mem_append]
  refine ⟨⟨⟨⟨⟨?_, adds_gpsPieces env ref p⟩, ?_⟩, adds_statPieces h.status⟩,
    adds_modulationPieces h⟩, ?_⟩
  · exact List.forall_mem_singleton.mpr (List.cons_ne_nil _ _)
  · exact List.forall_mem_singleton.mpr (List.cons_ne_nil _ _)
  · simp only [List.forall_mem_cons]
    exact ⟨List.cons_ne_nil _ _, trivial, hdata, trivial, trivial,
      fun piece h => absurd h List.not_mem_nil⟩

/-! ## The packets that pass -/

/-- The received packets that pass the filter on their status, in order. -/
def UpGateway.forwarded (g : UpGateway) (rxpkt : List LgwPktRx) : List LgwPktRx :=
  rxpkt.filter fun p => g.forwards p.status

theorem forwarded_cons_of_pos {p : LgwPktRx} (h : g.forwards p.status = true)
    (rxpkt : List LgwPktRx) : g.forwarded (p :: rxpkt) = p :: g.forwarded rxpkt := by
  simp [UpGateway.forwarded, h]

theorem forwarded_cons_of_neg {p : LgwPktRx} (h : ¬g.forwards p.status = true)
    (rxpkt : List LgwPktRx) : g.forwarded (p :: rxpkt) = g.forwarded rxpkt := by
  simp [UpGateway.forwarded, h]

/-- The pieces of the loop only add text, whatever the packets are that do not pass. -/
theorem adds_loopPieces (env : UpEnv) (g : UpGateway) (ref : Option Tref) (pktInDgram : ℕ)
    {rxpkt : List LgwPktRx} (h : ∀ p ∈ g.forwarded rxpkt, p.Known) :
    ∀ piece ∈ loopPieces env g ref pktInDgram rxpkt, piece.Adds := by
  induction rxpkt generalizing pktInDgram with
  | nil => exact fun piece h => absurd h List.not_mem_nil
  | cons p rxpkt ih =>
    unfold loopPieces
    by_cases hpass : g.forwards p.status
    · rw [forwarded_cons_of_pos hpass] at h
      obtain ⟨hp, hrest⟩ := List.forall_mem_cons.mp h
      rw [if_pos hpass]
      refine List.forall_mem_cons.mpr ⟨trivial, List.forall_mem_append.mpr ⟨?_, ih _ hrest⟩⟩
      exact adds_rxpkPieces hp env ref
    · rw [forwarded_cons_of_neg hpass] at h
      rw [if_neg hpass]
      exact ih _ h

/-! ## The text of the loop -/

/-- The text of the JSON object that the loop prints for a packet. -/
def rxpkText (env : UpEnv) (ref : Option Tref) (p : LgwPktRx) : CString :=
  cstr "\x7b" ++ piecesText (rxpkPieces env ref p)

/-- The texts of some packets with a comma before each of them. -/
def moreRxpk (env : UpEnv) (ref : Option Tref) (rxpkt : List LgwPktRx) : CString :=
  rxpkt.flatMap fun p => cstr "," ++ rxpkText env ref p

/-- The packets in an array, without its brackets. -/
def rxpkArray (env : UpEnv) (ref : Option Tref) : List LgwPktRx → CString
  | [] => []
  | p :: rxpkt => rxpkText env ref p ++ moreRxpk env ref rxpkt

/-- After the first packet, each brings its comma. -/
theorem piecesText_loopPieces_succ (env : UpEnv) (g : UpGateway) (ref : Option Tref) (n : ℕ)
    (rxpkt : List LgwPktRx) :
    piecesText (loopPieces env g ref (n + 1) rxpkt) = moreRxpk env ref (g.forwarded rxpkt) := by
  induction rxpkt generalizing n with
  | nil => rfl
  | cons p rxpkt ih =>
    unfold loopPieces
    by_cases hp : g.forwards p.status
    · rw [if_pos hp, forwarded_cons_of_pos hp, piecesText_cons, piecesText_append, ih (n + 1)]
      simp [Piece.text, rxpkText, moreRxpk, cstr]
    · rw [if_neg hp, forwarded_cons_of_neg hp, ih n]

/-- **The loop prints the packets that pass the filter, with a comma between two of them.** -/
theorem piecesText_loopPieces (env : UpEnv) (g : UpGateway) (ref : Option Tref)
    (rxpkt : List LgwPktRx) :
    piecesText (loopPieces env g ref 0 rxpkt) = rxpkArray env ref (g.forwarded rxpkt) := by
  induction rxpkt with
  | nil => rfl
  | cons p rxpkt ih =>
    unfold loopPieces
    by_cases hp : g.forwards p.status
    · rw [if_pos hp, forwarded_cons_of_pos hp, piecesText_cons, piecesText_append,
        piecesText_loopPieces_succ]
      simp [Piece.text, rxpkText, rxpkArray, cstr]
    · rw [if_neg hp, forwarded_cons_of_neg hp, ih]

/-! ## A pass -/

variable {memory : ℕ → U8} {tokenH tokenL : U8} {rxpkt : List LgwPktRx}

/-- The text of the datagram up to the place where a report stands. -/
def textBeforeReport (env : UpEnv) (g : UpGateway) (rxpkt : List LgwPktRx) : CString :=
  if g.pktInDgram rxpkt = 0 then cstr "\x7b"
  else cstr "\x7b\"rxpk\":[" ++ rxpkArray env (g.localRef rxpkt) (g.forwarded rxpkt) ++ cstr "]" ++
    if g.report.isSome then cstr "," else []

/-- **The text of a datagram**, after the header. -/
def datagramText (env : UpEnv) (g : UpGateway) (rxpkt : List LgwPktRx) : CString :=
  textBeforeReport env g rxpkt ++ g.report.getD [] ++ cstr "\x7d"

theorem addPieces_append (b : UpBuff) (pieces pieces' : List Piece) :
    addPieces b (pieces ++ pieces') = (addPieces b pieces).bind fun b => addPieces b pieces' :=
  List.foldlM_append

theorem within_startDatagram (memory : ℕ → U8) (tokenH tokenL : U8) :
    (startDatagram memory tokenH tokenL).Within txBuffSize := by
  rintro k hk
  have hwritten : (startDatagram memory tokenH tokenL).written = [1, 2] := rfl
  rw [hwritten] at hk
  rcases List.mem_cons.mp hk with rfl | hk
  · decide
  · rw [List.mem_singleton.mp hk]
    decide

/-- The array is opened, and the packets follow. -/
theorem addPieces_loop (h : ∀ p ∈ g.forwarded rxpkt, p.Known) (env : UpEnv)
    (ref : Option Tref) (b : UpBuff) :
    ∃ b', addPieces b (.copy (cstr "\x7b\"rxpk\":[") :: loopPieces env g ref 0 rxpkt) = .ok b' ∧
      Appends txBuffSize b b'
        (cstr "\x7b\"rxpk\":[" ++ rxpkArray env ref (g.forwarded rxpkt)) := by
  obtain ⟨b', hb', happends⟩ := addPieces_appends
    (List.forall_mem_cons.mpr
      ⟨show (Piece.copy _).Adds from trivial, adds_loopPieces env g ref 0 h⟩) b
  refine ⟨b', hb', ?_⟩
  rwa [piecesText_cons, piecesText_loopPieces] at happends

/-- Up to the report, with packets or without, only the text before the report is added. -/
theorem addPieces_beforeReport (h : ∀ p ∈ g.forwarded rxpkt, p.Known) (env : UpEnv)
    (memory : ℕ → U8) (tokenH tokenL : U8) :
    ∃ b b', addPieces (startDatagram memory tokenH tokenL)
        (.copy (cstr "\x7b\"rxpk\":[") :: loopPieces env g (g.localRef rxpkt) 0 rxpkt) = .ok b ∧
      addPieces b (arrayEndPieces (g.pktInDgram rxpkt) g.report.isSome) = .ok b' ∧
      Appends txBuffSize (startDatagram memory tokenH tokenL) b'
        (textBeforeReport env g rxpkt) := by
  obtain ⟨b, hb, hopen⟩ := addPieces_loop h env (g.localRef rxpkt)
    (startDatagram memory tokenH tokenL)
  refine ⟨b, ?_⟩
  unfold arrayEndPieces textBeforeReport
  by_cases hzero : g.pktInDgram rxpkt = 0
  · have hnone : g.forwarded rxpkt = [] := List.length_eq_zero_iff.mp hzero
    have htext : cstr "\x7b\"rxpk\":[" ++ rxpkArray env (g.localRef rxpkt) (g.forwarded rxpkt) =
        cstr "\x7b" ++ cstr "\"rxpk\":[" := by
      rw [hnone]
      rfl
    rw [htext] at hopen
    have hfit : 12 + (cstr "\x7b" ++ cstr "\"rxpk\":[").length < txBuffSize := by decide
    rw [if_pos hzero, if_pos hzero]
    exact ⟨{ b with index := b.index - 8 }, hb, rfl, Appends.rewind hopen hfit⟩
  · rw [if_neg hzero, if_neg hzero]
    have hadds : ∀ piece ∈ (.copy (cstr "]") :: if g.report.isSome then [.copy (cstr ",")] else [] :
        List Piece), piece.Adds := by
      split <;> simp [Piece.Adds]
    obtain ⟨b', hb', hend⟩ := addPieces_appends hadds b
    refine ⟨b', hb, hb', ?_⟩
    have happends := hopen.trans hend
    split at happends <;> simpa [Piece.text, *] using happends

/-- **Nothing to send.**  Without a packet that passes the filter and without a report nothing
is sent, and at most the start of a text is written. -/
theorem pushData_of_nothing (h : ∀ p ∈ g.forwarded rxpkt, p.Known)
    (hzero : g.pktInDgram rxpkt = 0) (hreport : g.report = none) (env : UpEnv)
    (memory : ℕ → U8) (tokenH tokenL : U8) :
    ∃ b, pushData env g memory tokenH tokenL rxpkt = ⟨b, [], false⟩ ∧ b.Within txBuffSize := by
  unfold pushData
  by_cases hempty : rxpkt.length = 0
  · rw [if_pos ⟨hempty, hreport⟩]
    exact ⟨_, rfl, fun k hk => absurd hk List.not_mem_nil⟩
  · obtain ⟨b, hb, happends⟩ := addPieces_loop h env (g.localRef rxpkt)
      (startDatagram memory tokenH tokenL)
    have hnone : g.forwarded rxpkt = [] := List.length_eq_zero_iff.mp hzero
    rw [hnone, rxpkArray, List.append_nil] at happends
    have hfit : 12 + (cstr "\x7b\"rxpk\":[").length < txBuffSize := by decide
    rw [if_neg (by simp [hempty]), hb]
    exact ⟨b, if_pos ⟨hzero, hreport⟩,
      happends.within hfit (within_startDatagram memory tokenH tokenL)⟩

/-- A pass that does not stop before the report. -/
theorem pushData_eq (hsome : g.pktInDgram rxpkt ≠ 0 ∨ g.report ≠ none) {b : UpBuff}
    (hb : addPieces (startDatagram memory tokenH tokenL)
      (.copy (cstr "\x7b\"rxpk\":[") :: loopPieces env g (g.localRef rxpkt) 0 rxpkt) = .ok b) :
    pushData env g memory tokenH tokenL rxpkt =
      match addPieces b (closingPieces (g.pktInDgram rxpkt) g.report) with
      | .error b => ⟨b, [], true⟩
      | .ok b => sendDatagram b := by
  have hgo : ¬(g.pktInDgram rxpkt = 0 ∧ g.report = none) := by
    rintro ⟨hzero, hreport⟩
    rcases hsome with h | h
    · exact h hzero
    · exact h hreport
  have hfetch : ¬(rxpkt.length = 0 ∧ g.report = none) := by
    rintro ⟨hempty, hreport⟩
    rw [List.length_eq_zero_iff.mp hempty] at hgo
    exact hgo ⟨rfl, hreport⟩
  unfold pushData
  rw [if_neg hfetch, hb]
  exact if_neg hgo

/-- **A datagram is sent.**  If there is a packet that passes the filter or a report, and the
report is not empty, the datagram is composed to its end. -/
theorem pushData_sends (h : ∀ p ∈ g.forwarded rxpkt, p.Known)
    (hsome : g.pktInDgram rxpkt ≠ 0 ∨ g.report ≠ none) (hreport : g.report ≠ some [])
    (env : UpEnv) (memory : ℕ → U8) (tokenH tokenL : U8) :
    ∃ b, pushData env g memory tokenH tokenL rxpkt = sendDatagram b ∧
      Appends txBuffSize (startDatagram memory tokenH tokenL) b (datagramText env g rxpkt) := by
  obtain ⟨b, b', hb, hb', hbefore⟩ := addPieces_beforeReport h env memory tokenH tokenL
  have hadds : ∀ piece ∈ ((g.report.elim [] fun statusReport => [.print statusReport]) ++
      [.copy (cstr "\x7d")] : List Piece), piece.Adds := by
    cases hr : g.report with
    | none => simp [Piece.Adds]
    | some report =>
      have hne : report ≠ [] := fun hnil => hreport (by rw [hr, hnil])
      simp [Piece.Adds, hne]
  obtain ⟨b'', hb'', hrest⟩ := addPieces_appends hadds b'
  refine ⟨b'', ?_, ?_⟩
  · rw [pushData_eq hsome hb, closingPieces, List.append_assoc, addPieces_append, hb']
    show (match addPieces b' _ with | .error b => _ | .ok b => _) = _
    rw [hb'']
  · have happends := hbefore.trans hrest
    unfold datagramText
    cases hr : g.report with
    | none => simpa [hr, Piece.text] using happends
    | some report => simpa [hr, Piece.text] using happends

/-- An empty report ends the thread, before the text is closed. -/
theorem pushData_empty_report (h : ∀ p ∈ g.forwarded rxpkt, p.Known) (hreport : g.report = some [])
    (env : UpEnv) (memory : ℕ → U8) (tokenH tokenL : U8) :
    ∃ b : UpBuff, pushData env g memory tokenH tokenL rxpkt =
        ⟨b.print 0 (roomAt b.index) [], [], true⟩ ∧
      b.index = 12 + (textBeforeReport env g rxpkt).length ∧
      (b.Within txBuffSize ↔ b.index ≤ txBuffSize) := by
  have hsome : g.pktInDgram rxpkt ≠ 0 ∨ g.report ≠ none := .inr (by simp [hreport])
  obtain ⟨b, b', hb, hb', hbefore⟩ := addPieces_beforeReport h env memory tokenH tokenL
  refine ⟨b', ?_, hbefore.index, ?_⟩
  · rw [pushData_eq hsome hb, closingPieces, List.append_assoc, addPieces_append, hb', hreport]
    rfl
  · by_cases hzero : g.pktInDgram rxpkt = 0
    · have hindex : b'.index = 13 := by
        rw [hbefore.index, textBeforeReport, if_pos hzero]
        rfl
      have hfit : 12 + (textBeforeReport env g rxpkt).length < txBuffSize := by
        rw [textBeforeReport, if_pos hzero]
        decide
      rw [hindex]
      exact iff_of_true (hbefore.within hfit (within_startDatagram memory tokenH tokenL))
        (by decide)
    · obtain ⟨b'', hopened, hloop⟩ := addPieces_loop h env (g.localRef rxpkt)
        (startDatagram memory tokenH tokenL)
      rw [hb] at hopened
      cases hopened
      rw [arrayEndPieces, if_neg hzero, hreport] at hb'
      cases hb'
      have hfirst : (b.put (cstr "]")).index = b.index + 1 := rfl
      show ((b.put (cstr "]")).put (cstr ",")).Within txBuffSize ↔ b.index + 1 + 1 ≤ txBuffSize
      rw [within_put, within_put, hfirst]
      constructor
      · rintro ⟨-, hnil | hle⟩
        · cases hnil
        · exact hle
      · intro hle
        have hlt : b.index < txBuffSize := by omega
        rw [hloop.index] at hlt
        exact ⟨⟨hloop.within hlt (within_startDatagram memory tokenH tokenL),
          .inr (Nat.le_of_succ_le hle)⟩, .inr hle⟩

end PacketForwarder
