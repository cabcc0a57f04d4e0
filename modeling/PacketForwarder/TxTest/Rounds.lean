import PacketForwarder.Lib.Runs
import PacketForwarder.TxTest.Request

/-!
# Rounds of requests

The test sender sends a request, waits for its acknowledgement, and sends the next one.  What is
sent on a link may be lost, but nothing overtakes.

* `Rounds`, `Rounds.Step` — the sender, the gateway and the links between them;
* `Rounds.Inv` — what is under way belongs to the current round;
* `Rounds.every_packet_once` — **the gateway reads each packet once, in their order**, and the
  sender never goes on before it has.  The tokens need not be different.
-/

namespace PacketForwarder

open TxTest

/-- The sender, the gateway, and what is between them. -/
structure Rounds where
  /-- The number `i` of the packet of this round. -/
  i : ℕ
  /-- The request is sent, and the acknowledgement is not here. -/
  waiting : Bool
  tokenH : U8
  tokenL : U8
  /-- The datagrams that are under way from the tool to the forwarder, the oldest first. -/
  toFwd : List (List U8)
  fromFwd : List (List U8)
  gateway : Gateway
  /-- The packets that the gateway has read from requests, in order. -/
  read : List LgwPktTx
  /-- A datagram that one side sent has not arrived at the other. -/
  lost : Bool

namespace Rounds

/-- A step belongs to one of the two programs, with what it takes from outside. -/
inductive Label
  /-- The sender sends a request with a new token. -/
  | send (tokenH tokenL : U8) (arrives : Bool)
  /-- The gateway handles the oldest datagram that is under way to it; `arrives` says whether its
  answer arrives. -/
  | handle (time : Timeval) (arrives : Bool)
  /-- The gateway sends something else, such as a `PULL_DATA`. -/
  | keepalive (datagram : List U8)
  /-- The other threads, and what `thread_down` does between two datagrams. -/
  | other (gateway : Gateway)
  /-- The tool takes the oldest datagram that is under way to it. -/
  | receive

/-- What arrives is behind what is under way. -/
def put (link sent : List (List U8)) (arrives : Bool) : List (List U8) :=
  if arrives then link ++ sent else link

/-- Something was sent, and does not arrive. -/
def loses (sent : List (List U8)) (arrives : Bool) : Bool := !arrives && !sent.isEmpty

/-- The packet in a datagram, if there is one. -/
def packetIn (env : DownEnv) (g : Gateway) (datagram : List U8) : List LgwPktTx :=
  if IsPacket pktPullResp datagram then
    match requested env g datagram with
    | .ok (p, _) => [p]
    | .error _ => []
  else []

inductive Step (env : DownEnv) (castOutside : (w : ℕ) → Binary64 → BitVec w) (o : TxTest) :
    Rounds → Label → Rounds → Prop
  | send {s : Rounds} {tokenH tokenL : U8} {arrives : Bool} {datagram : List U8} :
    s.waiting = false → (s.i : ℤ) < o.repeats →
    o.pullResp castOutside tokenH tokenL (BitVec.ofNat 32 s.i) = some datagram →
    Step env castOutside o s (.send tokenH tokenL arrives)
      { s with
        waiting := true
        tokenH := tokenH
        tokenL := tokenL
        toFwd := put s.toFwd [datagram] arrives
        lost := s.lost || loses [datagram] arrives }
  | handle {s : Rounds} {time : Timeval} {arrives : Bool} {datagram : List U8}
      {rest : List (List U8)} :
    s.toFwd = datagram :: rest →
    Step env castOutside o s (.handle time arrives)
      { s with
        toFwd := rest
        fromFwd := put s.fromFwd (onDatagram env s.gateway time datagram).sent arrives
        gateway := (onDatagram env s.gateway time datagram).gateway
        read := s.read ++ packetIn env s.gateway datagram
        lost := s.lost || loses (onDatagram env s.gateway time datagram).sent arrives }
  | keepalive {s : Rounds} {datagram : List U8} :
    byteAt datagram 3 ≠ pktTxAck →
    Step env castOutside o s (.keepalive datagram) { s with fromFwd := s.fromFwd ++ [datagram] }
  | other {s : Rounds} {gateway : Gateway} :
    gateway.antennaGain = s.gateway.antennaGain →
    Step env castOutside o s (.other gateway) { s with gateway := gateway }
  | accept {s : Rounds} {datagram : List U8} {rest : List (List U8)} :
    s.waiting = true → s.fromFwd = datagram :: rest →
    acceptsAck s.tokenH s.tokenL datagram = true →
    Step env castOutside o s .receive { s with i := s.i + 1, waiting := false, fromFwd := rest }
  | ignore {s : Rounds} {datagram : List U8} {rest : List (List U8)} :
    s.waiting = true → s.fromFwd = datagram :: rest →
    acceptsAck s.tokenH s.tokenL datagram = false →
    Step env castOutside o s .receive { s with fromFwd := rest }

/-- After the `PULL_DATA` and its acknowledgement, which may be under way. -/
def start (g : Gateway) (acks : List (List U8)) : Rounds where
  i := 0
  waiting := false
  tokenH := 0
  tokenL := 0
  toFwd := acks
  fromFwd := []
  gateway := g
  read := []
  lost := false

variable {env : DownEnv} {castOutside : (w : ℕ) → Binary64 → BitVec w} {o : TxTest} {q : ℚ}
  {s s' : Rounds}

/-! ## What is under way -/

/-- The requests among the datagrams that are under way to the forwarder. -/
def requests (s : Rounds) : List (List U8) :=
  s.toFwd.filter fun datagram => IsPacket pktPullResp datagram

/-- The `TX_ACK` datagrams among those that are under way to the tool. -/
def acks (s : Rounds) : List (List U8) :=
  s.fromFwd.filter fun datagram => byteAt datagram 3 = pktTxAck

/-- Where the round is: between two requests, before or behind the gateway's answer, or without any
answer to come. -/
inductive Phase (castOutside : (w : ℕ) → Binary64 → BitVec w) (o : TxTest) (s : Rounds) : Prop
  | between : s.waiting = false → s.requests = [] → s.acks = [] → s.read.length = s.i →
    Phase castOutside o s
  | asked {datagram : List U8} : s.waiting = true →
    o.pullResp castOutside s.tokenH s.tokenL (BitVec.ofNat 32 s.i) = some datagram →
    s.requests = [datagram] → s.acks = [] → s.read.length = s.i → Phase castOutside o s
  | answered {ack : List U8} : s.waiting = true → s.requests = [] → s.acks = [ack] →
    acceptsAck s.tokenH s.tokenL ack = true → s.read.length = s.i + 1 → Phase castOutside o s
  /-- The tool waits, but a datagram has been lost and no answer can come any more. -/
  | silent : s.waiting = true → s.lost = true → s.requests = [] → s.acks = [] →
    s.read.length = s.i ∨ s.read.length = s.i + 1 → Phase castOutside o s

/-- The invariant of the rounds: nothing but the round under way is in flight, and every packet read
so far is the one that was asked for. -/
structure Inv (castOutside : (w : ℕ) → Binary64 → BitVec w) (o : TxTest) (q : ℚ)
    (antennaGain : U8) (s : Rounds) : Prop where
  phase : Phase castOutside o s
  read : ∀ (k : ℕ) (hk : k < s.read.length),
    o.Describes castOutside q antennaGain (BitVec.ofNat 32 k) s.read[k]
  antennaGain : s.gateway.antennaGain = antennaGain

/-- A step that leaves the round alone. -/
theorem Phase.congr (h : Phase castOutside o s) (hi : s'.i = s.i)
    (hwaiting : s'.waiting = s.waiting) (htokenH : s'.tokenH = s.tokenH)
    (htokenL : s'.tokenL = s.tokenL) (hrequests : s'.requests = s.requests)
    (hacks : s'.acks = s.acks) (hread : s'.read = s.read) (hlost : s.lost = true → s'.lost = true) :
    Phase castOutside o s' := by
  cases h with
  | between hw hr ha hlen =>
    exact .between (hwaiting.trans hw) (hrequests.trans hr) (hacks.trans ha)
      (by rw [hread, hi, hlen])
  | asked hw hdatagram hr ha hlen =>
    refine .asked (hwaiting.trans hw) ?_ (hrequests.trans hr) (hacks.trans ha)
      (by rw [hread, hi, hlen])
    rw [htokenH, htokenL, hi]
    exact hdatagram
  | answered hw hr ha haccepts hlen =>
    refine .answered (hwaiting.trans hw) (hrequests.trans hr) (hacks.trans ha) ?_
      (by rw [hread, hi, hlen])
    rw [htokenH, htokenL]
    exact haccepts
  | silent hw hl hr ha hlen =>
    exact .silent (hwaiting.trans hw) (hlost hl) (hrequests.trans hr) (hacks.trans ha)
      (by rwa [hread, hi])

/-- Between two rounds all that were sent are read. -/
theorem Phase.length_of_between (h : Phase castOutside o s) (hbetween : s.waiting = false) :
    s.read.length = s.i := by
  cases h with
  | between _ _ _ hlen => exact hlen
  | asked hw _ _ _ _ => exact absurd (hbetween.symm.trans hw) Bool.false_ne_true
  | answered hw _ _ _ _ => exact absurd (hbetween.symm.trans hw) Bool.false_ne_true
  | silent hw _ _ _ _ => exact absurd (hbetween.symm.trans hw) Bool.false_ne_true

/-- The last one may still be on its way. -/
theorem Phase.length_of_waiting (h : Phase castOutside o s) (hwaiting : s.waiting = true) :
    s.read.length = s.i ∨ s.read.length = s.i + 1 := by
  cases h with
  | between hw _ _ _ => exact absurd (hw.symm.trans hwaiting) Bool.false_ne_true
  | asked _ _ _ _ hlen => exact .inl hlen
  | answered _ _ _ _ hlen => exact .inr hlen
  | silent _ _ _ _ hlen => exact hlen

/-- Where nothing is lost there is something to wait for. -/
theorem Phase.underWay (h : Phase castOutside o s) (hwaiting : s.waiting = true)
    (hkept : s.lost = false) :
    (∃ datagram ∈ s.toFwd, o.pullResp castOutside s.tokenH s.tokenL (BitVec.ofNat 32 s.i) =
      some datagram) ∨
    ∃ ack ∈ s.fromFwd, acceptsAck s.tokenH s.tokenL ack = true := by
  cases h with
  | between hw _ _ _ => exact absurd (hw.symm.trans hwaiting) Bool.false_ne_true
  | @asked datagram _ hdatagram hr _ _ =>
    have hmem : datagram ∈ s.requests := by
      rw [hr]
      exact List.mem_singleton_self datagram
    exact .inl ⟨datagram, List.mem_of_mem_filter hmem, hdatagram⟩
  | @answered ack _ _ ha haccepts _ =>
    have hmem : ack ∈ s.acks := by
      rw [ha]
      exact List.mem_singleton_self ack
    exact .inr ⟨ack, List.mem_of_mem_filter hmem, haccepts⟩
  | silent _ hl _ _ _ => exact absurd (hkept.symm.trans hl) Bool.false_ne_true

/-! ## The gateway -/

/-- No datagram changes the gain of the antenna that is configured. -/
theorem antennaGain_onDatagram (env : DownEnv) (g : Gateway) (time : Timeval)
    (datagram : List U8) :
    (onDatagram env g time datagram).gateway.antennaGain = g.antennaGain := by
  unfold onDatagram onPullAck onPullResp
  split
  · split <;> rfl
  · split
    · split
      · rfl
      · rfl
      · rfl
      · simp only [onRequest]
        split <;> rfl
    · rfl

/-- Only requests are answered, and only they have packets. -/
theorem onDatagram_of_not_request (env : DownEnv) (g : Gateway) (time : Timeval)
    {datagram : List U8} (h : ¬IsPacket pktPullResp datagram) :
    (onDatagram env g time datagram).sent = [] ∧ packetIn env g datagram = [] := by
  refine ⟨?_, if_neg h⟩
  unfold onDatagram onPullAck
  rw [if_neg h]
  split
  · split <;> rfl
  · rfl

/-! ## Steps -/

section
variable {antennaGain : U8}

theorem Inv.send (h : o.Accepted) (hq : o.fTarget = .finite q)
    (hs : Inv castOutside o q antennaGain s) (hwaiting : s.waiting = false) {tokenH tokenL : U8}
    {datagram : List U8}
    (hdatagram : o.pullResp castOutside tokenH tokenL (BitVec.ofNat 32 s.i) = some datagram)
    (arrives : Bool) :
    Inv castOutside o q antennaGain
      { s with
        waiting := true
        tokenH := tokenH
        tokenL := tokenL
        toFwd := put s.toFwd [datagram] arrives
        lost := s.lost || loses [datagram] arrives } := by
  have hrequest := isPacket_pullResp h hq hdatagram
  refine ⟨?_, hs.read, hs.antennaGain⟩
  cases hs.phase with
  | between hw hr ha hlen =>
    cases arrives with
    | true =>
      refine .asked rfl hdatagram ?_ ha hlen
      have hone : [datagram].filter (fun d => IsPacket pktPullResp d) = [datagram] :=
        List.filter_cons_of_pos (decide_eq_true hrequest)
      rw [requests] at hr
      simp only [requests, put, if_true, List.filter_append, hr, hone, List.nil_append]
    | false => exact .silent rfl (Bool.or_true _) hr ha (.inl hlen)
  | asked hw _ _ _ _ => exact absurd (hwaiting.symm.trans hw) Bool.false_ne_true
  | answered hw _ _ _ _ => exact absurd (hwaiting.symm.trans hw) Bool.false_ne_true
  | silent hw _ _ _ _ => exact absurd (hwaiting.symm.trans hw) Bool.false_ne_true

/-- A request is under way only in the round that asks. -/
theorem Phase.of_request (hs : Phase castOutside o s) {datagram : List U8}
    {rest : List (List U8)} (hto : s.toFwd = datagram :: rest)
    (hrequest : IsPacket pktPullResp datagram) :
    s.waiting = true ∧
      o.pullResp castOutside s.tokenH s.tokenL (BitVec.ofNat 32 s.i) = some datagram ∧
      rest.filter (fun d => IsPacket pktPullResp d) = [] ∧ s.acks = [] ∧
      s.read.length = s.i := by
  have hfirst : s.requests = datagram :: rest.filter fun d => IsPacket pktPullResp d := by
    rw [requests, hto]
    exact List.filter_cons_of_pos (decide_eq_true hrequest)
  cases hs with
  | asked hw hdatagram hr ha hlen =>
    rw [hfirst, List.cons.injEq] at hr
    rw [hr.1]
    exact ⟨hw, hdatagram, hr.2, ha, hlen⟩
  | between _ hr _ _ => exact absurd (hfirst.symm.trans hr) (List.cons_ne_nil _ _)
  | answered _ hr _ _ _ => exact absurd (hfirst.symm.trans hr) (List.cons_ne_nil _ _)
  | silent _ _ hr _ _ => exact absurd (hfirst.symm.trans hr) (List.cons_ne_nil _ _)

/-- An acknowledgement is under way only in the round that is answered. -/
theorem Phase.of_ack (hs : Phase castOutside o s) {datagram : List U8}
    {rest : List (List U8)} (hfrom : s.fromFwd = datagram :: rest)
    (hack : byteAt datagram 3 = pktTxAck) :
    s.requests = [] ∧ rest.filter (fun d => byteAt d 3 = pktTxAck) = [] ∧
      acceptsAck s.tokenH s.tokenL datagram = true ∧ s.read.length = s.i + 1 := by
  have hfirst : s.acks = datagram :: rest.filter fun d => byteAt d 3 = pktTxAck := by
    rw [acks, hfrom]
    exact List.filter_cons_of_pos (decide_eq_true hack)
  cases hs with
  | answered _ hr ha haccepts hlen =>
    rw [hfirst, List.cons.injEq] at ha
    rw [ha.1]
    exact ⟨hr, ha.2, haccepts, hlen⟩
  | between _ _ ha _ => exact absurd (hfirst.symm.trans ha) (List.cons_ne_nil _ _)
  | asked _ _ _ ha _ => exact absurd (hfirst.symm.trans ha) (List.cons_ne_nil _ _)
  | silent _ _ _ ha _ => exact absurd (hfirst.symm.trans ha) (List.cons_ne_nil _ _)

theorem byteAt_of_acceptsAck {tokenH tokenL : U8} {datagram : List U8}
    (h : acceptsAck tokenH tokenL datagram = true) : byteAt datagram 3 = pktTxAck :=
  (of_decide_eq_true h).2.2.1

/-- A list of packets that the options describe, one after the other, still is one with the next
packet behind it. -/
theorem describes_append {gain : U8} {l : List LgwPktTx} {p : LgwPktTx}
    (hl : ∀ (k : ℕ) (hk : k < l.length),
      o.Describes castOutside q gain (BitVec.ofNat 32 k) l[k])
    (hp : o.Describes castOutside q gain (BitVec.ofNat 32 l.length) p) (k : ℕ)
    (hk : k < (l ++ [p]).length) :
    o.Describes castOutside q gain (BitVec.ofNat 32 k) (l ++ [p])[k] := by
  rw [List.length_append, List.length_singleton] at hk
  rcases Nat.lt_succ_iff_lt_or_eq.mp hk with hlt | rfl
  · rw [List.getElem_append_left hlt]
    exact hl k hlt
  · rw [List.getElem_concat_length rfl]
    exact hp

/-- The invariant is kept when the gateway handles a request of the tool. -/
theorem Inv.handle_request (h : o.Accepted) (hq : o.fTarget = .finite q)
    (henv : env.jsonParse = jsonParseStringWithComments)
    (hs : Inv castOutside o q antennaGain s) {datagram : List U8} {rest : List (List U8)}
    (hto : s.toFwd = datagram :: rest) (hrequest : IsPacket pktPullResp datagram)
    (time : Timeval) (arrives : Bool) :
    Inv castOutside o q antennaGain
      { s with
        toFwd := rest
        fromFwd := put s.fromFwd (onDatagram env s.gateway time datagram).sent arrives
        gateway := (onDatagram env s.gateway time datagram).gateway
        read := s.read ++ packetIn env s.gateway datagram
        lost := s.lost || loses (onDatagram env s.gateway time datagram).sent arrives } := by
  obtain ⟨hw, hdatagram, hrest, ha, hlen⟩ := hs.phase.of_request hto hrequest
  obtain ⟨p, ack, hrequested, hdescribes, hsent, -, haccepts⟩ :=
    answers_pullResp h hq henv hdatagram s.gateway time
  have hpacket : packetIn env s.gateway datagram = [p] := by
    rw [packetIn, if_pos hrequest, hrequested]
  rw [hs.antennaGain, ← hlen] at hdescribes
  rw [hpacket, hsent]
  refine ⟨?_, describes_append hs.read hdescribes,
    (antennaGain_onDatagram _ _ _ _).trans hs.antennaGain⟩
  have hcount : (s.read ++ [p]).length = s.i + 1 := by
    rw [List.length_append, hlen, List.length_singleton]
  cases arrives with
  | true =>
    have hone : [ack].filter (fun d => byteAt d 3 = pktTxAck) = [ack] :=
      List.filter_cons_of_pos (decide_eq_true (byteAt_of_acceptsAck haccepts))
    rw [acks] at ha
    refine .answered hw hrest ?_ haccepts hcount
    simp only [acks, put, if_true, List.filter_append, ha, hone, List.nil_append]
  | false => exact .silent hw (Bool.or_true _) hrest ha (.inr hcount)

/-- The invariant is kept when the gateway handles a datagram that is no request. -/
theorem Inv.handle_other (hs : Inv castOutside o q antennaGain s) {datagram : List U8}
    {rest : List (List U8)} (hto : s.toFwd = datagram :: rest)
    (hrequest : ¬IsPacket pktPullResp datagram) (time : Timeval) (arrives : Bool) :
    Inv castOutside o q antennaGain
      { s with
        toFwd := rest
        fromFwd := put s.fromFwd (onDatagram env s.gateway time datagram).sent arrives
        gateway := (onDatagram env s.gateway time datagram).gateway
        read := s.read ++ packetIn env s.gateway datagram
        lost := s.lost || loses (onDatagram env s.gateway time datagram).sent arrives } := by
  obtain ⟨hsent, hpacket⟩ := onDatagram_of_not_request env s.gateway time hrequest
  have hput : put s.fromFwd [] arrives = s.fromFwd := by
    cases arrives with
    | true => exact List.append_nil _
    | false => rfl
  rw [hsent, hpacket, hput, List.append_nil]
  refine ⟨hs.phase.congr rfl rfl rfl rfl ?_ rfl rfl ?_, hs.read,
    (antennaGain_onDatagram _ _ _ _).trans hs.antennaGain⟩
  · rw [requests, requests, hto]
    exact (List.filter_cons_of_neg (by simpa using hrequest)).symm
  · intro hlost
    show (s.lost || loses [] arrives) = true
    rw [hlost, Bool.true_or]

/-- The invariant is kept when the tool accepts an acknowledgement and goes to its next packet. -/
theorem Inv.accept (hs : Inv castOutside o q antennaGain s) {datagram : List U8}
    {rest : List (List U8)} (hfrom : s.fromFwd = datagram :: rest)
    (haccepts : acceptsAck s.tokenH s.tokenL datagram = true) :
    Inv castOutside o q antennaGain
      { s with i := s.i + 1, waiting := false, fromFwd := rest } := by
  obtain ⟨hr, hrest, -, hlen⟩ := hs.phase.of_ack hfrom (byteAt_of_acceptsAck haccepts)
  exact ⟨.between rfl hr hrest hlen, hs.read, hs.antennaGain⟩

/-- The invariant is kept when the tool ignores a datagram. -/
theorem Inv.ignore (hs : Inv castOutside o q antennaGain s) {datagram : List U8}
    {rest : List (List U8)} (hfrom : s.fromFwd = datagram :: rest)
    (hignores : acceptsAck s.tokenH s.tokenL datagram = false) :
    Inv castOutside o q antennaGain { s with fromFwd := rest } := by
  have hother : byteAt datagram 3 ≠ pktTxAck := fun hack =>
    Bool.false_ne_true (hignores.symm.trans (hs.phase.of_ack hfrom hack).2.2.1)
  refine ⟨hs.phase.congr rfl rfl rfl rfl rfl ?_ rfl id, hs.read, hs.antennaGain⟩
  rw [acks, acks, hfrom]
  exact (List.filter_cons_of_neg (by simpa using hother)).symm

/-- **Every step of a round keeps the invariant.** -/
theorem Inv.step (h : o.Accepted) (hq : o.fTarget = .finite q)
    (henv : env.jsonParse = jsonParseStringWithComments) {l : Label}
    (hs : Inv castOutside o q antennaGain s) (hst : Step env castOutside o s l s') :
    Inv castOutside o q antennaGain s' := by
  cases hst with
  | send hwaiting _ hdatagram => exact hs.send h hq hwaiting hdatagram _
  | @handle time arrives datagram rest hto =>
    by_cases hrequest : IsPacket pktPullResp datagram
    · exact hs.handle_request h hq henv hto hrequest time arrives
    · exact hs.handle_other hto hrequest time arrives
  | @keepalive datagram hother =>
    refine ⟨hs.phase.congr rfl rfl rfl rfl rfl ?_ rfl id, hs.read, hs.antennaGain⟩
    have hnone : [datagram].filter (fun d => byteAt d 3 = pktTxAck) = [] :=
      List.filter_cons_of_neg (by simpa using hother)
    simp only [acks, List.filter_append, hnone, List.append_nil]
  | other hgain =>
    exact ⟨hs.phase.congr rfl rfl rfl rfl rfl rfl rfl id, hs.read, hgain.trans hs.antennaGain⟩
  | accept _ hfrom haccepts => exact hs.accept hfrom haccepts
  | ignore _ hfrom hignores => exact hs.ignore hfrom hignores

end

/-! ## Runs -/

/-- Where nothing is lost all of the packets can be sent. -/
theorem reaches_rounds (h : o.Accepted) (hq : o.fTarget = .finite q)
    (henv : env.jsonParse = jsonParseStringWithComments) (g : Gateway) {n : ℕ}
    (hn : (n : ℤ) ≤ o.repeats) :
    ∃ s, Runs.Reaches (Step env castOutside o) Runs.anyStep (start g []) s ∧ s.i = n ∧
      s.waiting = false ∧ s.toFwd = [] ∧ s.fromFwd = [] := by
  induction n with
  | zero => exact ⟨_, .start, rfl, rfl, rfl, rfl⟩
  | succ n ih =>
    obtain ⟨s, hs, rfl, hwaiting, hto, hfrom⟩ := ih (by push_cast at hn; omega)
    have hcomposed := pullResp_eq h hq castOutside 18 52 (BitVec.ofNat 32 s.i)
    obtain ⟨p, ack, -, -, hsent, -, haccepts⟩ :=
      answers_pullResp h hq henv hcomposed s.gateway ⟨0, 0⟩
    have hsend : Step env castOutside o s (.send 18 52 true) _ :=
      .send hwaiting (by push_cast at hn; omega) hcomposed
    obtain ⟨s1, hs1, hi, hwaiting1, htokenH, htokenL, hto1, hfrom1, hgateway⟩ :
        ∃ s1, Runs.Reaches (Step env castOutside o) Runs.anyStep (start g []) s1 ∧ s1.i = s.i ∧
          s1.waiting = true ∧ s1.tokenH = 18 ∧ s1.tokenL = 52 ∧ s1.toFwd = [_] ∧
          s1.fromFwd = [] ∧ s1.gateway = s.gateway :=
      ⟨_, hs.next trivial hsend, rfl, rfl, rfl, rfl, congrArg (· ++ [_]) hto, hfrom, rfl⟩
    have hhandle : Step env castOutside o s1 (.handle ⟨0, 0⟩ true) _ := .handle hto1
    rw [← hgateway] at hsent
    obtain ⟨s2, hs2, hi2, hwaiting2, htokenH2, htokenL2, hto2, hfrom2⟩ :
        ∃ s2, Runs.Reaches (Step env castOutside o) Runs.anyStep (start g []) s2 ∧ s2.i = s1.i ∧
          s2.waiting = true ∧ s2.tokenH = 18 ∧ s2.tokenL = 52 ∧ s2.toFwd = [] ∧
          s2.fromFwd = [ack] :=
      ⟨_, hs1.next trivial hhandle, rfl, hwaiting1, htokenH, htokenL, rfl, by
        rw [hsent, hfrom1]
        rfl⟩
    rw [← htokenH2, ← htokenL2] at haccepts
    refine ⟨_, hs2.next trivial (.accept hwaiting2 hfrom2 haccepts), ?_, rfl, hto2, rfl⟩
    exact congrArg (· + 1) (hi2.trans hi)

/-- **The gateway reads each packet once, in their order.**  Whatever is lost, the packets it has
read are packets 0, 1, … of the sender, each as the options describe it; between two rounds it
has read all that were sent, and while the sender waits all but possibly the last one.  If
nothing is lost, the request or its acknowledgement is under way as long as the sender waits. -/
theorem every_packet_once (h : o.Accepted) (hq : o.fTarget = .finite q)
    (henv : env.jsonParse = jsonParseStringWithComments) (g : Gateway)
    {pullAcks : List (List U8)} (hacks : ∀ d ∈ pullAcks, ¬IsPacket pktPullResp d)
    (hr : Runs.Reaches (Step env castOutside o) Runs.anyStep (start g pullAcks) s) :
    (∀ (k : ℕ) (hk : k < s.read.length),
      o.Describes castOutside q g.antennaGain (BitVec.ofNat 32 k) s.read[k]) ∧
    (s.waiting = false → s.read.length = s.i) ∧
    (s.waiting = true → s.read.length = s.i ∨ s.read.length = s.i + 1) ∧
    (s.waiting = true → s.lost = false →
      (∃ datagram ∈ s.toFwd, o.pullResp castOutside s.tokenH s.tokenL (BitVec.ofNat 32 s.i) =
        some datagram) ∨
      ∃ ack ∈ s.fromFwd, acceptsAck s.tokenH s.tokenL ack = true) := by
  have hstart : Inv castOutside o q g.antennaGain (start g pullAcks) := by
    refine ⟨.between rfl ?_ rfl rfl, fun k hk => absurd hk (Nat.not_lt_zero k), rfl⟩
    exact List.filter_eq_nil_iff.mpr fun d hd => by simpa using hacks d hd
  have hinv : Inv castOutside o q g.antennaGain s :=
    hr.invariant hstart fun _ _ _ _ hs _ hst => hs.step h hq henv hst
  exact ⟨hinv.read, fun hw => hinv.phase.length_of_between hw,
    fun hw => hinv.phase.length_of_waiting hw, fun hw hkept => hinv.phase.underWay hw hkept⟩

/-- A whole round of the tool called without any options: its one packet is read once. -/
theorem every_packet_once_default :
    let env := DownEnv.reference
    ∃ s, Runs.Reaches (Step env (fun _ _ => 0) TxTest.default) Runs.anyStep
        (start Gateway.reference []) s ∧ s.i = 1 ∧ s.read.length = 1 ∧
      ∀ (k : ℕ) (hk : k < s.read.length),
        TxTest.default.Describes (fun _ _ => 0) 866 Gateway.reference.antennaGain
          (BitVec.ofNat 32 k) s.read[k] := by
  intro env
  obtain ⟨s, hs, hi, hwaiting, -, -⟩ :
      ∃ s, Runs.Reaches (Step env (fun _ _ => 0) TxTest.default) Runs.anyStep
        (start Gateway.reference []) s ∧ s.i = 1 ∧ s.waiting = false ∧ s.toFwd = [] ∧
        s.fromFwd = [] :=
    reaches_rounds accepted_default rfl rfl Gateway.reference (by decide)
  obtain ⟨hread, hbetween, -⟩ := every_packet_once accepted_default rfl rfl Gateway.reference
    (fun d hd => absurd hd List.not_mem_nil) hs
  exact ⟨s, hs, hi, (hbetween hwaiting).trans hi, hread⟩

end Rounds

end PacketForwarder
