import HmBoard.Board
import HmBoard.Lib.Run
import HmBoard.MainTask

/-!
# `mainTask` with the sampling interrupt

A handler of `mainTask` runs access by access; the TCD0 overflow interrupt may come between any two
of its accesses (so also between two bytes of an SPI packet) and then runs to its end before the
task goes on. The wait `while(sampling==true);` passes only when it reads `false`.

`Monitor` watches the accesses of the task: whether it is between `sampling = true` and the end of
the wait, whether an SPI call is open (since the first write to `buffer_memory` or chip select, up
to the deselect), and how many ADC accesses it has made (twelve for each `adca_read_ch0`).
-/

namespace HmBoard

open Lib

variable {F B P : Type} [Cell B] [FloatFormat F B]

structure Monitor where
  waiting : Bool
  spi : Bool
  adc : Nat
deriving DecidableEq, Repr

/-- What the monitor sees of an access of the task. -/
def Monitor.next (m : Monitor) : Op B P → Monitor
  | .bufSet _ _ | .csLow => { m with spi := true }
  | .csHigh => { m with spi := false }
  | .adcStart | .adcWait | .adcRes => { m with adc := m.adc + 1 }
  | .setSampling v => { m with waiting := v || m.waiting }
  | .waitSampling => { m with waiting := false }
  | _ => m

/-- The task is neither in a `spi_mem_*` call nor in `adca_read_ch0`. -/
def Monitor.Closed (m : Monitor) : Prop := m.spi = false ∧ m.adc % 12 = 0

/-- Accesses to the memory chip, its buffer, or the ADC. -/
def Op.Traffic : Op B P → Prop
  | .bufSet _ _ | .bufGet _ | .csLow | .csHigh | .spiXfer _ | .adcStart | .adcWait | .adcRes => True
  | _ => False

/-- `while(sampling==true);` reads `true`. -/
def Board.spins (s : Board B P) : Op B P → Bool
  | .waitSampling => s.sampling
  | _ => false

structure Sys (B P : Type) where
  board : Board B P
  /-- What is left of the current handler; `ret` when `mainTask` waits for an event. -/
  main : Fw B P Unit
  /-- What is left of the interrupt when it is running. -/
  isr : Option (Fw B P Unit)
  monitor : Monitor
  /-- The events handled or being handled, latest first. -/
  handled : List EventType

inductive Label (P : Type) where
  /-- `xQueueReceive` gives `mainTask` an event. -/
  | event (e : CspStackEvent P)
  /-- The next access of `mainTask`. -/
  | main
  /-- TCD0 overflows. -/
  | irq
  /-- The next access of the interrupt, or its return. -/
  | isr

def Sys.step (sincos : Nat → F) (out : P) (s : Sys B P) : Label P → Option (Sys B P)
  | .event e =>
    match s.isr, s.main with
    | none, .ret _ =>
      some { s with main := handle sincos out e, handled := e.eEventType :: s.handled }
    | _, _ => none
  | .main =>
    match s.isr, s.main with
    | none, .op o k =>
      -- a spinning wait stays where it is
      if s.board.spins o then some s
      else some { s with
        board := (s.board.exec o).1, main := k (s.board.exec o).2, monitor := s.monitor.next o }
    | _, _ => none
  | .irq =>
    match s.isr with
    | none => some { s with isr := some tcd0Ovf }
    | some _ => none
  | .isr =>
    match s.isr with
    | some (.op o k) =>
      some { s with board := (s.board.exec o).1, isr := some (k (s.board.exec o).2) }
    | some (.ret _) => some { s with isr := none }
    | none => none

/-- After `boardInit` and the start of the tasks. -/
def Sys.boot (b : Board B P) : Sys B P :=
  { board := b, main := .ret (), isr := none, monitor := ⟨false, false, 0⟩, handled := [] }

/-- All that a step can do. -/
theorem Sys.step_cases {sincos : Nat → F} {out : P} {s s' : Sys B P} {l : Label P}
    (h : s.step sincos out l = some s') :
    (∃ e, l = .event e ∧ s.isr = none ∧ s.main = .ret () ∧
      s' = { s with main := handle sincos out e, handled := e.eEventType :: s.handled }) ∨
    (∃ o k, l = .main ∧ s.isr = none ∧ s.main = .op o k ∧ s.board.spins o = true ∧ s' = s) ∨
    (∃ o k, l = .main ∧ s.isr = none ∧ s.main = .op o k ∧ s.board.spins o = false ∧
      s' = { s with
        board := (s.board.exec o).1, main := k (s.board.exec o).2, monitor := s.monitor.next o }) ∨
    (l = .irq ∧ s.isr = none ∧ s' = { s with isr := some tcd0Ovf }) ∨
    (∃ o k, l = .isr ∧ s.isr = some (.op o k) ∧
      s' = { s with board := (s.board.exec o).1, isr := some (k (s.board.exec o).2) }) ∨
    (l = .isr ∧ s.isr = some (.ret ()) ∧ s' = { s with isr := none }) := by
  obtain ⟨b, main, isr, m, evs⟩ := s
  cases l with
  | event e =>
    rcases isr with _ | p <;> rcases main with ⟨⟨⟩⟩ | ⟨o, k⟩ <;> simp only [step] at h <;> cases h
    exact .inl ⟨e, rfl, rfl, rfl, rfl⟩
  | main =>
    rcases isr with _ | p <;> rcases main with ⟨⟨⟩⟩ | ⟨o, k⟩ <;> simp only [step] at h <;>
      try cases h
    by_cases hs : b.spins o = true
    · rw [if_pos hs] at h; cases h
      exact .inr (.inl ⟨o, k, rfl, rfl, rfl, hs, rfl⟩)
    · rw [if_neg hs] at h; cases h
      exact .inr (.inr (.inl ⟨o, k, rfl, rfl, rfl, by simpa using hs, rfl⟩))
  | irq =>
    rcases isr with _ | p <;> simp only [step] at h <;> cases h
    exact .inr (.inr (.inr (.inl ⟨rfl, rfl, rfl⟩)))
  | isr =>
    rcases isr with _ | ⟨⟨⟩⟩ | ⟨o, k⟩ <;> simp only [step] at h <;> cases h
    · exact .inr (.inr (.inr (.inr (.inr ⟨rfl, rfl, rfl⟩))))
    · exact .inr (.inr (.inr (.inr (.inl ⟨o, k, rfl, rfl, rfl⟩))))

end HmBoard
