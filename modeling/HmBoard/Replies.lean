import HmBoard.Handlers

/-!
# How the handlers use their packets

Every handler of `mainTask` touches packets in one pattern only: a text is copied into
`outcomingPacket`, its length is set, the header of the request is read, and `outcomingPacket` is
sent with it (`reply`). `Talk` says so of a program, through a monitor of its packet accesses;
`echoBack` alone sends the request itself. The texts are such that they fit, with their NUL, in
the payload of `outcomingPacket`.
-/

namespace HmBoard

open Lib Fw

variable {F B P α β : Type}

/-- An access that is not about packets. -/
def Op.Quiet : Op B P → Prop
  | .pktId _ | .pktCopy _ _ | .pktLength _ _ | .cspSendto .. => False
  | _ => True

/-- The text and its NUL fit in `cspPacketSize` bytes. -/
def Fits (msg : List UInt8) : Prop := msg.length < cspPacketSize

instance (msg : List UInt8) : Decidable (Fits msg) := inferInstanceAs (Decidable (_ < _))

/-! ## The monitor -/

/-- How far a reply has come. -/
inductive TalkPhase where
  | idle
  | copied (msg : List UInt8)
  | sized (msg : List UInt8)
  | addressed (msg : List UInt8) (id : CspId)

/-- The accesses of a reply, in their order. -/
def TalkPhase.Ok (out inPacket : P) : TalkPhase → Op B P → Prop
  | .idle, .pktCopy p msg => p = out ∧ Fits msg
  | .idle, o => o.Quiet
  | .copied msg, o => o = .pktLength out msg.length
  | .sized _, o => o = .pktId inPacket
  | .addressed _ id, o => ∃ timeout, o =
      .cspSendto cspPrioNorm id.src.toNat id.sport.toNat id.dport.toNat cspONone out timeout

def TalkPhase.next : TalkPhase → (o : Op B P) → o.Res → TalkPhase
  | _, .pktCopy _ msg, _ => .copied msg
  | .copied msg, .pktLength _ _, _ => .sized msg
  | .sized msg, .pktId _, id => .addressed msg id
  | _, .cspSendto .., _ => .idle
  | m, _, _ => m

/-- The program sends replies to `inPacket` in `out`, and does nothing else with packets. -/
structure Talk (out inPacket : P) (p : Fw B P α) : Prop where
  watch : Prog.Watch TalkPhase.next (TalkPhase.Ok out inPacket) (· = .idle) p .idle

variable {out inPacket : P}

theorem Op.Quiet.ok {o : Op B P} (h : o.Quiet) : TalkPhase.Ok out inPacket .idle o := by
  cases o <;> first | exact h.elim | trivial

theorem Op.Quiet.next {o : Op B P} (h : o.Quiet) (r : o.Res) : TalkPhase.idle.next o r = .idle := by
  cases o <;> first | exact h.elim | rfl

theorem Talk.ret (a : α) : Talk out inPacket (.ret a : Fw B P α) := ⟨rfl⟩

theorem Talk.bind {p : Fw B P α} {f : α → Fw B P β} (hp : Talk out inPacket p)
    (hf : ∀ a, Talk out inPacket (f a)) : Talk out inPacket (p.bind f) := by
  refine ⟨hp.watch.bind fun a m hm => ?_⟩
  subst hm
  exact (hf a).watch

theorem Talk.quiet {p : Fw B P α} (h : p.All Op.Quiet) : Talk out inPacket p := by
  constructor
  refine Prog.Watch.of_all (Q := Op.Quiet) ?_ ?_ ?_ h
  · intro o ho
    exact ho.ok
  · intro o ho r
    exact ho.next r
  · rfl

theorem Talk.skip {o : Op B P} {f : o.Res → Fw B P α} (ho : o.Quiet)
    (hf : ∀ r, Talk out inPacket (f r)) : Talk out inPacket ((Prog.call o).bind f) :=
  (Talk.quiet ((Prog.all_call o).2 ho)).bind hf

theorem Talk.one {o : Op B P} (ho : o.Quiet) : Talk out inPacket (Prog.call o : Fw B P o.Res) :=
  Talk.quiet ((Prog.all_call o).2 ho)

theorem Talk.compositional : Prog.Compositional fun _ (p : Fw B P _) => Talk out inPacket p :=
  ⟨Talk.ret, Talk.bind⟩

theorem talk_reply {msg : List UInt8} (h : Fits msg) (timeout : Nat) :
    Talk out inPacket (reply out inPacket msg timeout : Fw B P Int) :=
  ⟨⟨rfl, h⟩, fun _ => ⟨rfl, fun _ => ⟨rfl, fun _ => ⟨⟨timeout, rfl⟩, fun _ => rfl⟩⟩⟩⟩

theorem quiet_toggleOnSuccess (r : Int) : (toggleOnSuccess r : Fw B P Unit).All Op.Quiet := by
  unfold toggleOnSuccess
  by_cases h : r = cspErrNone
  · simp [h, Op.Quiet]
  · simp [h]

/-! ## The functions that leave packets alone -/

theorem quiet_spiWritePacket (n : Nat) : (spiWritePacket n : Fw B P Unit).All Op.Quiet := by
  refine Prog.All.forTo fun i => ?_
  simp [Op.Quiet]

theorem quiet_bufCopyOut (n : Nat) : (bufCopyOut n : Fw B P (List B)).All Op.Quiet := by
  refine Prog.All.loop (fun i bs => ?_) n
  simp [Op.Quiet]

theorem quiet_adcaReadCh0 : (adcaReadCh0 : Fw B P Nat).All Op.Quiet := by
  refine Prog.All.bind (Prog.All.loop (fun i sum => ?_) 4) fun _ => trivial
  simp [adcConversion, Op.Quiet]

variable [Cell B]

theorem quiet_bufCommand (op : UInt8) (address : Nat) :
    (bufCommand op address : Fw B P Unit).All Op.Quiet := by
  simp [bufCommand, Op.Quiet]

theorem quiet_spiReadPacket (n : Nat) : (spiReadPacket n : Fw B P Unit).All Op.Quiet := by
  refine Prog.All.forTo fun i => ?_
  simp [Op.Quiet]

theorem quiet_bufCopyIn (bs : List B) : (bufCopyIn bs : Fw B P Unit).All Op.Quiet := by
  refine Prog.All.forTo fun i => ?_
  simp [Op.Quiet]

theorem quiet_spiMemWriteWord (address data : Nat) :
    (spiMemWriteWord address data : Fw B P Unit).All Op.Quiet := by
  refine (quiet_bufCommand _ address).bind fun _ => ?_
  refine ⟨trivial, fun _ => ⟨trivial, fun _ => ⟨trivial, fun _ => ?_⟩⟩⟩
  refine (quiet_spiWritePacket 6).bind fun _ => ?_
  simp [Op.Quiet]

theorem quiet_spiMemReadWord (address : Nat) :
    (spiMemReadWord address : Fw B P Nat).All Op.Quiet := by
  refine (quiet_bufCommand _ address).bind fun _ => ⟨trivial, fun _ => ?_⟩
  refine (quiet_spiWritePacket 4).bind fun _ => (quiet_spiReadPacket 2).bind fun _ => ?_
  simp [Op.Quiet]

variable [FloatFormat F B]

theorem quiet_spiMemWriteComplex (address : Nat) (data : Complex F) :
    (spiMemWriteComplex address data : Fw B P Unit).All Op.Quiet := by
  refine (quiet_bufCommand _ address).bind fun _ => ⟨trivial, fun _ => ?_⟩
  refine (quiet_spiWritePacket 4).bind fun _ => (quiet_bufCopyIn _).bind fun _ => ?_
  refine (quiet_spiWritePacket 8).bind fun _ => ?_
  simp [Op.Quiet]

theorem quiet_spiMemReadComplex (address : Nat) :
    (spiMemReadComplex address : Fw B P (Complex F)).All Op.Quiet := by
  refine (quiet_bufCommand _ address).bind fun _ => ⟨trivial, fun _ => ?_⟩
  refine (quiet_spiWritePacket 4).bind fun _ => (quiet_spiReadPacket 8).bind fun _ => ?_
  exact ⟨trivial, fun _ => (quiet_bufCopyOut 8).bind fun _ => trivial⟩

theorem quiet_decimateAndStore (N : Nat) (bitrev : Nat → Nat) :
    (decimateAndStore (F := F) N bitrev : Fw B P Unit).All Op.Quiet :=
  compositional_decimateAndStore Prog.All.compositional quiet_spiMemReadWord
    (quiet_spiMemWriteComplex (F := F)) N bitrev

theorem quiet_fftCalculate (N : Nat) (sincos : Nat → F) :
    (fftCalculate N sincos : Fw B P Unit).All Op.Quiet :=
  compositional_fftCalculate Prog.All.compositional quiet_spiMemReadComplex
    quiet_spiMemWriteComplex N sincos

/-! ## The lengths of the texts -/

section

omit [Cell B] [FloatFormat F B]

theorem length_fmtInt_i16 (x : Int) : (fmtInt (i16 x)).length ≤ 6 := by
  have h := i16_range x
  exact length_fmtInt_lt (k := 5) (by decide) (by omega)

/-- `%i;%d` and a newline, with 16-bit numbers. -/
theorem length_pair (x y : Int) :
    (fmtInt (i16 x) ++ lit ";" ++ fmtInt (i16 y) ++ lit "\n").length ≤ 14 := by
  have h1 := length_fmtInt_i16 x
  have h2 := length_fmtInt_i16 y
  have h3 : (lit ";").length = 1 := rfl
  have h4 : (lit "\n").length = 1 := rfl
  simp only [List.length_append]
  omega

/-- Digits of a quotient. -/
theorem length_fmtInt_tdiv_lt {x d : Int} {n k : Nat} (hk : 0 < k) (hx : x.natAbs ≤ n)
    (hn : n / d.natAbs < 10 ^ k) : (fmtInt (x.tdiv d)).length ≤ k + 1 := by
  apply length_fmtInt_lt hk
  rw [Int.natAbs_tdiv]
  exact lt_of_le_of_lt (Nat.div_le_div_right hx) hn

theorem length_fmtInt_tmod_lt (x : Int) {d : Int} {k : Nat} (hk : 0 < k) (hd : 0 < d.natAbs)
    (hn : d.natAbs ≤ 10 ^ k) : (fmtInt (x.tmod d)).length ≤ k + 1 := by
  apply length_fmtInt_lt hk
  rw [Int.natAbs_tmod]
  exact lt_of_lt_of_le (Nat.mod_lt _ hd) hn

theorem length_temperatureText {temp : Int} (h1 : -32768 ≤ temp) (h2 : temp < 32768) :
    (temperatureText temp).length ≤ 9 := by
  have h3 : (fmtInt (temp.tdiv 128)).length ≤ 3 + 1 :=
    length_fmtInt_tdiv_lt (n := 32768) (by decide) (by omega) (by decide)
  have h4 : (fmtInt ((i16 ((i32 (temp * 100)).tdiv 128)).tmod 100)).length ≤ 2 + 1 :=
    length_fmtInt_tmod_lt _ (by decide) (by decide) (by decide)
  have h5 : (lit ".").length = 1 := rfl
  have h6 : (lit "\n").length = 1 := rfl
  simp only [temperatureText, List.length_append]
  omega

theorem length_uptimeText (hoursTimer secondsTimer : Nat) :
    (uptimeText hoursTimer secondsTimer).length ≤ 58 := by
  have hh := i16_range hoursTimer
  have hs := i16_range secondsTimer
  have h1 : (fmtInt ((i16 hoursTimer).tdiv 24)).length ≤ 4 + 1 :=
    length_fmtInt_tdiv_lt (n := 32768) (by decide) (by omega) (by decide)
  have h2 : (fmtInt ((i16 hoursTimer).tmod 24)).length ≤ 2 + 1 :=
    length_fmtInt_tmod_lt _ (by decide) (by decide) (by decide)
  have h3 : (fmtInt ((i16 secondsTimer).tdiv 60)).length ≤ 3 + 1 :=
    length_fmtInt_tdiv_lt (n := 32768) (by decide) (by omega) (by decide)
  have h4 : (fmtInt ((i16 secondsTimer).tmod 60)).length ≤ 2 + 1 :=
    length_fmtInt_tmod_lt _ (by decide) (by decide) (by decide)
  have h5 : (lit "*** Board\n\rSoftware v1.0\n\rUptime: ").length = 34 := rfl
  have h6 : (lit "d ").length = 2 := rfl
  have h7 : (lit "h ").length = 2 := rfl
  have h8 : (lit "m ").length = 2 := rfl
  have h9 : (lit "s\n\r").length = 3 := rfl
  simp only [uptimeText, List.length_append]
  omega

theorem fits_signalText (i w : Nat) : Fits (signalText i w) :=
  lt_of_le_of_lt (length_pair _ _) (by decide)

theorem fits_temperatureText {temp : Int} (h1 : -32768 ≤ temp) (h2 : temp < 32768) :
    Fits (temperatureText temp) :=
  lt_of_le_of_lt (length_temperatureText h1 h2) (by decide)

theorem fits_uptimeText (h s : Nat) : Fits (uptimeText h s) :=
  lt_of_le_of_lt (length_uptimeText h s) (by decide)

end

theorem fits_fftText (i : Nat) (z : Complex F) : Fits (fftText i z) :=
  lt_of_le_of_lt (length_pair _ _) (by decide)

/-! ## The handlers -/

theorem talk_calls : Calls (fun _ (p : Fw B P _) => Talk out inPacket p) Fits out inPacket where
  compositional := Talk.compositional
  device o ho := Talk.one (by cases o <;> first | exact ho.elim | trivial)
  readWord a := Talk.quiet (quiet_spiMemReadWord a)
  reply _ timeout hfits := talk_reply hfits timeout

theorem talk_readComplex (a : Nat) :
    Talk out inPacket (spiMemReadComplex a : Fw B P (Complex F)) :=
  Talk.quiet (quiet_spiMemReadComplex a)

theorem talk_sendFreeHeapSpace :
    Talk out inPacket (sendFreeHeapSpace out inPacket : Fw B P Unit) := by
  refine talk_calls.sendFreeHeapSpace fun temp => ?_
  have h := i16_range temp
  exact fits_temperatureText h.1 h.2

theorem talk_processAll (sincos : Nat → F) :
    Talk out inPacket (processAll sincos out inPacket : Fw B P Unit) := by
  refine Talk.skip trivial fun _ => Talk.skip trivial fun _ => Talk.skip trivial fun _ => ?_
  refine Talk.skip trivial fun _ => Talk.skip trivial fun _ => ?_
  refine (Talk.quiet (quiet_decimateAndStore _ _)).bind fun _ => ?_
  refine (Talk.quiet (quiet_fftCalculate _ sincos)).bind fun _ => Talk.skip trivial fun _ => ?_
  exact (talk_reply (by decide) 1000).bind fun _ => Talk.one trivial

theorem talk_sendSignal : Talk out inPacket (sendSignal out inPacket : Fw B P Unit) :=
  talk_calls.sendSignal (by decide) fits_signalText

theorem talk_sendFFT : Talk out inPacket (sendFFT F out inPacket : Fw B P Unit) :=
  talk_calls.sendFFT talk_readComplex (by decide) fits_fftText

theorem talk_houseKeeping : Talk out inPacket (houseKeeping F out inPacket : Fw B P Unit) :=
  talk_calls.houseKeeping talk_readComplex (Talk.quiet (quiet_spiMemWriteComplex _ _))
    (Talk.quiet (quiet_spiMemWriteWord _ _)) (Talk.quiet quiet_adcaReadCh0) fits_uptimeText

/-- Every handler but the echo builds its replies in `outcomingPacket`. -/
theorem talk_handle (sincos : Nat → F) {e : CspStackEvent P} (he : e.eEventType ≠ .echoBackEvent) :
    Talk out e.pvData (handle sincos out e : Fw B P Unit) := by
  obtain ⟨ty, p⟩ := e
  cases ty with
  | echoBackEvent => exact absurd rfl he
  | processAllEvent => exact talk_processAll sincos
  | freeHeapEvent => exact talk_sendFreeHeapSpace
  | housKeepingEvent => exact talk_houseKeeping
  | sendSignalEvent => exact talk_sendSignal
  | sendFFTEvent => exact talk_sendFFT
  | sendSummaryInfoEvent | sendAttenuationEvent | other => exact Talk.ret ()

/-! ## The packet a handler sends -/

section

omit [Cell B] [FloatFormat F B]

/-- `owed` is the packet the handler is to send; what else it sends, and all it writes to, is
`outcomingPacket`. -/
def owedOk (out : P) : Option P → Op B P → Prop
  | owed, .cspSendto _ _ _ _ opts p _ =>
    opts = cspONone ∧ (owed = some p ∨ owed = none ∧ p = out)
  | _, .pktCopy p msg => p = out ∧ Fits msg
  | _, .pktLength p _ => p = out
  | _, _ => True

def owedNext : Option P → (o : Op B P) → o.Res → Option P
  | _, .cspSendto .., _ => none
  | owed, _, _ => owed

/-- On every path the handler offers the packet owed to `csp_sendto`, once. -/
def Offers (out : P) (owed : Option P) (code : Fw B P α) : Prop :=
  Prog.Watch owedNext (owedOk out) (· = none) code owed

theorem offers_all {out : P} {code : Fw B P α} (h : code.All (owedOk out none)) :
    Offers out none code := by
  unfold Offers
  refine Prog.Watch.of_all (Q := owedOk out none) ?_ ?_ ?_ h
  · intro o ho
    exact ho
  · intro o _ r
    cases o <;> rfl
  · rfl

theorem offers_echoBack (out p : P) : Offers out (some p) (echoBack p : Fw B P Unit) := by
  refine ⟨trivial, fun id => ⟨⟨rfl, .inl rfl⟩, fun r => offers_all ?_⟩⟩
  refine Prog.All.mono (fun o ho => ?_) (quiet_toggleOnSuccess r)
  cases o <;> first | exact ho.elim | trivial

/-- The request an event makes `mainTask` send. -/
def CspStackEvent.owed (e : CspStackEvent P) : Option P :=
  if e.eEventType = .echoBackEvent then some e.pvData else none

end

theorem offers_handle (sincos : Nat → F) (out : P) (e : CspStackEvent P) :
    Offers out e.owed (handle sincos out e : Fw B P Unit) := by
  by_cases he : e.eEventType = .echoBackEvent
  · obtain ⟨ty, p⟩ := e
    obtain rfl : ty = .echoBackEvent := he
    exact offers_echoBack out p
  · rw [CspStackEvent.owed, if_neg he]
    refine offers_all ((talk_handle sincos he : Talk out _ _).watch.all ?_)
    intro m o ho
    cases m <;> cases o <;> simp_all [TalkPhase.Ok, owedOk, Op.Quiet]

/-! ## The headers a handler reads -/

section

omit [Cell B] [FloatFormat F B]

/-- `hand` is the request; no header is read but its own, and none once it has been sent. -/
def askOk : Option P → Op B P → Prop
  | hand, .pktId p => hand = some p
  | _, _ => True

def askNext [DecidableEq P] : Option P → (o : Op B P) → o.Res → Option P
  | hand, .cspSendto _ _ _ _ _ p _, _ => if hand = some p then none else hand
  | hand, _, _ => hand

def Asks [DecidableEq P] (hand : Option P) (code : Fw B P α) : Prop :=
  Prog.Watch askNext askOk (fun _ => True) code hand

/-- A header that is read is the one of `q`. -/
def Op.ReadsOnly (q : P) : Op B P → Prop
  | .pktId p => p = q
  | _ => True

variable [DecidableEq P]

/-- In a talk the request is asked, and never sent. -/
theorem TalkPhase.Ok.asks {m : TalkPhase} {o : Op B P} (h : m.Ok out inPacket o)
    (hne : inPacket ≠ out) :
    askOk (some inPacket) o ∧ ∀ r, askNext (some inPacket) o r = some inPacket := by
  cases m <;> cases o <;> simp_all [TalkPhase.Ok, askOk, askNext, Op.Quiet]

theorem asks_of_watch (hne : inPacket ≠ out) {post : TalkPhase → Prop} :
    ∀ {code : Fw B P α} {m : TalkPhase},
      Prog.Watch TalkPhase.next (TalkPhase.Ok out inPacket) post code m → Asks (some inPacket) code
  | .ret _, _, _ => trivial
  | .op o k, m, h => by
    obtain ⟨hok, hnext⟩ := h.1.asks hne
    refine ⟨hok, fun r => ?_⟩
    rw [hnext r]
    exact asks_of_watch hne (h.2 r)

theorem asks_echoBack (p : P) : Asks (some p) (echoBack p : Fw B P Unit) := by
  refine ⟨rfl, fun id => ⟨trivial, fun r => ?_⟩⟩
  refine Prog.Watch.of_all (Q := Op.Quiet) ?_ ?_ trivial (quiet_toggleOnSuccess r)
  · intro o ho
    cases o <;> first | exact ho.elim | trivial
  · intro o ho r
    cases o <;> first | exact ho.elim | rfl

end

theorem asks_handle [DecidableEq P] (sincos : Nat → F) {e : CspStackEvent P} (h : e.pvData ≠ out) :
    Asks (some e.pvData) (handle sincos out e : Fw B P Unit) := by
  by_cases he : e.eEventType = .echoBackEvent
  · obtain ⟨ty, p⟩ := e
    obtain rfl : ty = .echoBackEvent := he
    exact asks_echoBack p
  · exact asks_of_watch h (talk_handle sincos he).watch

theorem readsOnly_handle (sincos : Nat → F) (out : P) (e : CspStackEvent P) :
    (handle sincos out e : Fw B P Unit).All (Op.ReadsOnly e.pvData) := by
  by_cases he : e.eEventType = .echoBackEvent
  · obtain ⟨ty, p⟩ := e
    obtain rfl : ty = .echoBackEvent := he
    refine ⟨rfl, fun id => ⟨trivial, fun r => Prog.All.mono (fun o ho => ?_)
      (quiet_toggleOnSuccess r)⟩⟩
    cases o <;> first | exact ho.elim | trivial
  · refine (talk_handle sincos he : Talk out _ _).watch.all fun m o ho => ?_
    cases m <;> cases o <;> simp_all [TalkPhase.Ok, Op.ReadsOnly, Op.Quiet]

end HmBoard
