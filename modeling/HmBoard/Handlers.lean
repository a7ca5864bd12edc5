import HmBoard.FftPointers
import HmBoard.MainTask

/-!
# What the handlers are composed of

The handlers of `mainTask` are sequences and loops of a few calls. What holds of these calls and is
compositional (`Calls`) holds of the handlers: `Calls.sendSignal` … `Calls.houseKeeping` walk through
them once for every such property.
-/

namespace HmBoard

open Lib Fw

variable {F B P : Type} [Cell B]

/-- An access to the clock, the sensor, the LED or a delay. -/
def Op.Device : Op B P → Prop
  | .adtGetTemperature | .hours | .seconds | .powerSwitchToggle => True
  | .tickTimer _ | .delayMs _ | .vTaskDelay _ => True
  | _ => False

/-- `C` holds of what the handlers call; of a reply if its text is one of `T`. -/
structure Calls (C : (α : Type) → Fw B P α → Prop) (T : List UInt8 → Prop) (out inPacket : P) :
    Prop where
  compositional : Prog.Compositional C
  device : ∀ o : Op B P, o.Device → C _ (Prog.call o)
  readWord : ∀ a, C _ (spiMemReadWord a)
  reply : ∀ msg timeout, T msg → C _ (reply out inPacket msg timeout)

namespace Calls

variable {C : (α : Type) → Fw B P α → Prop} {T : List UInt8 → Prop} {out inPacket : P}

theorem bind (h : Calls C T out inPacket) {α β : Type} {p : Fw B P α} {f : α → Fw B P β}
    (hp : C _ p) (hf : ∀ a, C _ (f a)) : C _ (p.bind f) := h.compositional.bind hp hf

theorem skip (h : Calls C T out inPacket) {α : Type} {o : Op B P} {f : o.Res → Fw B P α}
    (ho : o.Device) (hf : ∀ r, C _ (f r)) : C _ ((Prog.call o).bind f) := h.bind (h.device o ho) hf

theorem toggleOnSuccess (h : Calls C T out inPacket) (r : Int) : C _ (toggleOnSuccess r) := by
  unfold HmBoard.toggleOnSuccess
  by_cases hr : r = cspErrNone
  · rw [if_pos hr]
    exact h.device .powerSwitchToggle trivial
  · rw [if_neg hr]
    exact h.compositional.ret ()

theorem sendSignal (h : Calls C T out inPacket) (hhead : T (lit "Sampled signal\n"))
    (htext : ∀ i w, T (signalText i w)) : C _ (sendSignal out inPacket) := by
  refine h.skip trivial fun _ => h.skip trivial fun _ => h.skip trivial fun _ => ?_
  refine h.bind (h.reply _ 100 hhead) fun _ => h.skip trivial fun _ => ?_
  refine h.bind (h.compositional.forTo fun i _ => ?_) fun _ => h.device (.tickTimer true) trivial
  refine h.bind (h.readWord _) fun w => h.bind (h.reply _ 100 (htext i w)) fun _ => ?_
  exact h.device (.delayMs 2) trivial

theorem sendFreeHeapSpace (h : Calls C T out inPacket)
    (htext : ∀ temp, T (temperatureText (i16 temp))) : C _ (sendFreeHeapSpace out inPacket) := by
  refine h.skip trivial fun _ => h.skip trivial fun temp => ?_
  exact h.bind (h.reply _ 10 (htext temp)) fun _ => h.device (.tickTimer true) trivial

variable [FloatFormat F B]

theorem sendFFT (h : Calls C T out inPacket)
    (hread : ∀ a, C _ (spiMemReadComplex a : Fw B P (Complex F))) (hhead : T (lit "Sampled signal\n"))
    (htext : ∀ i (z : Complex F), T (fftText i z)) : C _ (sendFFT F out inPacket) := by
  refine h.skip trivial fun _ => h.skip trivial fun _ => h.skip trivial fun _ => ?_
  refine h.bind (h.reply _ 15 hhead) fun _ => ?_
  refine h.bind (h.compositional.forTo fun i _ => ?_) fun _ => h.device (.tickTimer true) trivial
  refine h.bind (hread _) fun z => h.bind (h.reply _ 10 (htext i z)) fun r => ?_
  exact h.bind (h.toggleOnSuccess r) fun _ => h.device (.delayMs 4) trivial

/-- The self test also stores to two places and reads the converter. -/
theorem houseKeeping (h : Calls C T out inPacket)
    (hread : ∀ a, C _ (spiMemReadComplex a : Fw B P (Complex F)))
    (hcomplex : C _ (spiMemWriteComplex 145 (houseKeepingCislo : Complex F)))
    (hword : C _ (spiMemWriteWord 0x789 houseKeepingAa)) (hadc : C _ adcaReadCh0)
    (htext : ∀ h s, T (uptimeText h s)) : C _ (houseKeeping F out inPacket) := by
  refine h.skip trivial fun _ => h.bind hcomplex fun _ => h.bind (hread 145) fun _ => ?_
  refine h.bind hword fun _ => h.bind (h.readWord 0x789) fun _ => h.bind hadc fun _ => ?_
  refine h.skip trivial fun hours => h.skip trivial fun seconds => ?_
  refine h.bind (h.reply _ 50 (htext hours seconds)) fun r => ?_
  refine h.bind (h.toggleOnSuccess r) fun _ => h.skip trivial fun _ => ?_
  exact h.device (.tickTimer true) trivial

end Calls

end HmBoard
