import HmBoard.Lib.Mem
import HmBoard.SpiMemory

/-!
# The board around `mainTask`: SPI memory chip, shared globals, outside world

`Chip` is the 23LCxx device: between chip select and deselect it takes an opcode (`0x02` write,
`0x03` read), a 24-bit big-endian address and then data at consecutive addresses. `Board` adds
`buffer_memory`, the globals `ISR(TCD0_OVF_vect)` shares with the task, and `env`: whatever the
ADC, the temperature sensor, the clock, the packets and `csp_sendto` answer, one answer for each
access (`now` counts them), so that a statement about every `env` is about every behaviour of
the rest of the world.

The results: every SPI call leaves the chip idle and acts on the chip's memory as a plain store or
load of its 1, 2 or 8 cells (`run_spiMemWriteWord` … `run_spiMemReadComplex`), whatever was left
in `buffer_memory`; and `Always` versions of the same for the states in between.
-/

namespace HmBoard

open Lib Fw

variable {F B P α : Type} [Cell B] [FloatFormat F B]

/-! ## The 23LCxx chip -/

/-- How far the transaction on the chip's bus is. -/
inductive Phase where
  /-- Chip select high. -/
  | idle
  | opcode
  /-- `left + 1` address bytes to come, `a` what has arrived of the address. -/
  | addr (op : UInt8) (left a : Nat)
  | data (op : UInt8) (a : Nat)
deriving DecidableEq, Repr

structure Chip (B : Type) where
  mem : Mem B
  phase : Phase

/-- One byte exchanged with the chip. -/
def Chip.xfer (c : Chip B) (b : B) : Chip B × B :=
  match c.phase with
  | .idle => (c, byte 0xFF)
  | .opcode => ({ c with phase := .addr (val b) 2 0 }, byte 0xFF)
  | .addr op 0 a => ({ c with phase := .data op (256 * a + (val b).toNat) }, byte 0xFF)
  | .addr op (k + 1) a => ({ c with phase := .addr op k (256 * a + (val b).toNat) }, byte 0xFF)
  | .data op a =>
    if op = spiWrite then (⟨c.mem.write a [b], .data op (a + 1)⟩, byte 0xFF)
    else if op = spiRead then ({ c with phase := .data op (a + 1) }, c.mem a)
    else (c, byte 0xFF)

/-- Clock the bytes `bs` in, discarding the answers. -/
def Chip.feed : Chip B → List B → Chip B
  | c, [] => c
  | c, b :: bs => (c.xfer b).1.feed bs

theorem Chip.feed_append (bs cs : List B) : ∀ c : Chip B, c.feed (bs ++ cs) = (c.feed bs).feed cs := by
  induction bs with
  | nil => intro c; rfl
  | cons b bs ih => intro c; exact ih _

/-- The four bytes that open an access: opcode and 24-bit address. -/
def command (op : UInt8) (address : Nat) : List B :=
  [byte op, byte (UInt8.ofNat ((address &&& 0xFF0000) >>> 16)),
    byte (UInt8.ofNat ((address &&& 0x00FF00) >>> 8)), byte (UInt8.ofNat (address &&& 0x0000FF))]

/-- Opcode and address open a data phase at that address. -/
theorem Chip.feed_command (m : Mem B) (op : UInt8) (address : Nat) :
    (Chip.mk m .opcode).feed (command op address) = ⟨m, .data op (address % 16777216)⟩ := by
  have e1 : (address &&& 0xFF0000) >>> 16 = address / 65536 % 256 := by
    rw [Nat.shiftRight_and_distrib, Nat.shiftRight_eq_div_pow]
    exact Nat.and_two_pow_sub_one_eq_mod _ 8
  have e2 : (address &&& 0x00FF00) >>> 8 = address / 256 % 256 := by
    rw [Nat.shiftRight_and_distrib, Nat.shiftRight_eq_div_pow]
    exact Nat.and_two_pow_sub_one_eq_mod _ 8
  have e3 : address &&& 0x0000FF = address % 256 := Nat.and_two_pow_sub_one_eq_mod _ 8
  simp only [command, e1, e2, e3, feed, xfer, Cell.val_byte, UInt8.toNat_ofNat', Chip.mk.injEq,
    Phase.data.injEq, true_and]
  omega

/-- Data bytes of a write go to consecutive addresses. -/
theorem Chip.feed_write (bs : List B) : ∀ (m : Mem B) (a : Nat),
    (Chip.mk m (.data spiWrite a)).feed bs = ⟨m.write a bs, .data spiWrite (a + bs.length)⟩ := by
  induction bs with
  | nil => intro m a; simp [feed]
  | cons b bs ih =>
    intro m a
    rw [feed, xfer]
    simp only [ite_true]
    rw [ih, ← Mem.write_cons, List.length_cons, Nat.add_assoc, Nat.add_comm 1]

/-! ## The board -/

structure Board (B P : Type) where
  chip : Chip B
  /-- `buffer_memory[32]`. -/
  buffer : Mem B
  /-- `sampling`, `count_TCD0`, `signal_offset`. -/
  sampling : Bool
  count : Nat
  offset : Int
  /-- The answers of everything that is not on this board's memory. -/
  env : Nat → (o : Op B P) → o.Res
  now : Nat

/-- One access. A wait is answered at once here; that the task may have to spin first is the
scheduler's business (`Interrupt.lean`). -/
def Board.exec (s : Board B P) : (o : Op B P) → Board B P × o.Res
  | .bufSet i b => ({ s with buffer := s.buffer.write i [b] }, ())
  | .bufGet i => (s, s.buffer i)
  | .csLow => ({ s with chip := { s.chip with phase := .opcode } }, ())
  | .csHigh => ({ s with chip := { s.chip with phase := .idle } }, ())
  | .spiXfer b => ({ s with chip := (s.chip.xfer b).1 }, (s.chip.xfer b).2)
  | .setSampling v => ({ s with sampling := v }, ())
  | .getSampling => (s, s.sampling)
  | .waitSampling => (s, ())
  | .setCount n => ({ s with count := n }, ())
  | .getCount => (s, s.count)
  | .setOffset x => ({ s with offset := x }, ())
  | .getOffset => (s, s.offset)
  | o => ({ s with now := s.now + 1 }, s.env s.now o)

/-- A world that answers zero. -/
def quiet (_ : Nat) (o : Op B P) : o.Res := by
  cases o <;> first
    | exact () | exact byte 0 | exact false | exact (0 : Nat) | exact (0 : Int)
    | exact (default : CspId)

/-- A board at rest with memory `m`. -/
def Board.rest (m : Mem B) : Board B P :=
  ⟨⟨m, .idle⟩, fun _ => byte 0, false, 0, 0, quiet, 0⟩

/-- The board after an SPI call: only the chip and the scratch buffer differ. -/
def Board.after (s : Board B P) (m : Mem B) (buf : Mem B) : Board B P :=
  { s with chip := ⟨m, .idle⟩, buffer := buf }

open Lib.Prog (run)
open Board (exec)

/-! ## What a program does to the chip -/

/-- `p` acts on the chip's memory as `f`, whatever was left in the scratch buffer. -/
def Computes (p : Fw B P α) (f : Mem B → Mem B × α) : Prop :=
  ∀ s : Board B P, s.chip.phase = .idle →
    ∃ buf, run exec p s = (s.after (f s.chip.mem).1 buf, (f s.chip.mem).2)

theorem Computes.ret (a : α) : Computes (.ret a : Fw B P α) fun m => (m, a) := by
  rintro ⟨⟨m, ph⟩, buf, _⟩ h
  cases h
  exact ⟨buf, rfl⟩

theorem Computes.bind {β : Type} {p : Fw B P α} {q : α → Fw B P β} {f : Mem B → Mem B × α}
    {g : α → Mem B → Mem B × β} (hp : Computes p f) (hq : ∀ a, Computes (q a) (g a)) :
    Computes (p.bind q) fun m => g (f m).2 (f m).1 := by
  intro s hs
  obtain ⟨buf, e⟩ := hp s hs
  obtain ⟨buf', e'⟩ := hq (f s.chip.mem).2 (s.after (f s.chip.mem).1 buf) rfl
  refine ⟨buf', ?_⟩
  rw [Prog.run_bind, e, e']
  rfl

/-- A loop whose variables run through `x 0`, `x 1`, … whatever the memory holds. -/
theorem Computes.loop {τ : Type} {body : Nat → τ → Fw B P τ} {f : Nat → Mem B → Mem B}
    (x : Nat → τ) : ∀ {n : Nat},
      (∀ i < n, Computes (body i (x i)) fun m => (f i m, x (i + 1))) →
        Computes (Prog.loop body (x 0) n) fun m => (Prog.sweep f m n, x n)
  | 0, _ => Computes.ret (x 0)
  | n + 1, h => by
    intro s hs
    obtain ⟨buf, e⟩ := Computes.loop x (fun i hi => h i (Nat.lt_succ_of_lt hi)) s hs
    obtain ⟨buf', e'⟩ := h n (Nat.lt_succ_self n) (s.after (Prog.sweep f s.chip.mem n) buf) rfl
    refine ⟨buf', ?_⟩
    rw [Prog.run_loop_succ, e, e']
    rfl

theorem Computes.forTo {body : Nat → Fw B P Unit} {f : Nat → Mem B → Mem B} {n : Nat}
    (h : ∀ i < n, Computes (body i) fun m => (f i m, ())) :
    Computes (Prog.forTo n body) fun m => (Prog.sweep f m n, ()) := by
  unfold Prog.forTo
  exact Computes.loop (fun _ => ()) h

/-- Run on an idle chip, `p` maps its memory by `f` and leaves it idle. -/
def Effect (p : Fw B P α) (f : Mem B → Mem B) : Prop :=
  ∀ s : Board B P, s.chip.phase = .idle → (run exec p s).1.chip = ⟨f s.chip.mem, .idle⟩

theorem Computes.effect {p : Fw B P α} {f : Mem B → Mem B × α} (h : Computes p f) :
    Effect p fun m => (f m).1 := by
  intro s hs
  obtain ⟨buf, e⟩ := h s hs
  rw [e]; rfl

theorem Effect.bind {β : Type} {p : Fw B P α} {q : α → Fw B P β} {f g : Mem B → Mem B}
    (hp : Effect p f) (hq : ∀ a, Effect (q a) g) : Effect (p.bind q) fun m => g (f m) := by
  intro s hs
  have h1 := hp s hs
  have h2 := hq (run exec p s).2 (run exec p s).1 (by rw [h1])
  rw [Prog.run_bind, h2, h1]

/-- `s'` still has the flag of `s` and every cell outside `R`. -/
def Board.Kept (R : Nat → Prop) (s s' : Board B P) : Prop :=
  s'.sampling = s.sampling ∧ ∀ x, ¬ R x → s'.chip.mem x = s.chip.mem x

variable {R R' : Nat → Prop}

omit [Cell B] in
theorem Board.Kept.refl (s : Board B P) : s.Kept R s := ⟨rfl, fun _ _ => rfl⟩

omit [Cell B] in
theorem Board.Kept.trans {s s' s'' : Board B P} (h : s.Kept R s') (h' : s'.Kept R s'') :
    s.Kept R s'' :=
  ⟨h'.1.trans h.1, fun x hx => (h'.2 x hx).trans (h.2 x hx)⟩

/-- Run on an idle chip, `p` keeps `sampling` and every cell outside `R` all the way through, and
leaves the chip idle. -/
def Touches (R : Nat → Prop) (p : Fw B P α) : Prop :=
  ∀ s : Board B P, s.chip.phase = .idle →
    Prog.Always exec (s.Kept R) p s ∧ (run exec p s).1.chip.phase = .idle

theorem Touches.ret (a : α) : Touches R (.ret a : Fw B P α) := fun s hs => ⟨.refl s, hs⟩

theorem Touches.bind {β : Type} {p : Fw B P α} {q : α → Fw B P β} (hp : Touches R p)
    (hq : ∀ a, Touches R (q a)) : Touches R (p.bind q) := by
  intro s hs
  obtain ⟨h1, h2⟩ := hp s hs
  obtain ⟨h3, h4⟩ := hq (run exec p s).2 (run exec p s).1 h2
  refine ⟨.bind h1 fun hl => h3.mono fun s' h => hl.trans h, ?_⟩
  rwa [Prog.run_bind]

theorem Touches.compositional : Prog.Compositional fun _ (p : Fw B P _) => Touches R p :=
  ⟨Touches.ret, Touches.bind⟩

theorem Touches.mono (hR : ∀ x, R x → R' x) {p : Fw B P α} (h : Touches R p) : Touches R' p :=
  fun s hs => ⟨(h s hs).1.mono fun _ h' => ⟨h'.1, fun x hx => h'.2 x (mt (hR x) hx)⟩, (h s hs).2⟩

/-- An access that is neither of the chip nor a store to `sampling`. -/
def Op.Aside : Op B P → Prop
  | .csLow | .csHigh | .spiXfer _ | .setSampling _ => False
  | _ => True

theorem exec_aside {o : Op B P} (ho : o.Aside) (s : Board B P) :
    (exec s o).1.chip = s.chip ∧ (exec s o).1.sampling = s.sampling := by
  cases o <;> first | exact ⟨rfl, rfl⟩ | exact ho.elim

theorem always_aside {s₀ : Board B P} : ∀ {p : Fw B P α} {s : Board B P}, p.All Op.Aside →
    s₀.Kept R s → Prog.Always exec (s₀.Kept R) p s ∧ (run exec p s).1.chip = s.chip
  | .ret _, _, _, h => ⟨h, rfl⟩
  | .op o k, s, ⟨ho, hk⟩, h => by
    obtain ⟨e1, e2⟩ := exec_aside ho s
    have h' : s₀.Kept R (exec s o).1 := ⟨e2.trans h.1, by rw [e1]; exact h.2⟩
    obtain ⟨h1, h2⟩ := always_aside (hk (exec s o).2) h'
    exact ⟨⟨h, h1⟩, h2.trans e1⟩

theorem Effect.aside {p : Fw B P α} (hp : p.All Op.Aside) : Effect p id := fun s hs => by
  have h := (always_aside (R := fun _ => False) hp (.refl s)).2
  rw [h, id, ← hs]

theorem Touches.aside {p : Fw B P α} (hp : p.All Op.Aside) : Touches R p := fun s hs => by
  obtain ⟨h1, h2⟩ := always_aside (R := R) hp (.refl s)
  exact ⟨h1, by rw [h2, hs]⟩

end HmBoard
