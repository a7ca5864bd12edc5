import HmBoard.Board

/-!
# The SPI calls on the chip

Every `spi_mem_*` call leaves the chip idle and is one plain store or load of 1, 2 or 8 cells
(`computes_spiMemWriteWord` … `computes_spiMemReadComplex`), and in between it touches no cell it
does not store (`touches_…`).
-/

namespace HmBoard

open Lib Fw
open Lib.Prog (run)
open Board (exec)

variable {F B P α : Type} [Cell B] [FloatFormat F B]

/-! ## SPI packets -/

theorem run_bufCommand (op : UInt8) (address : Nat) (s : Board B P) :
    run exec (bufCommand op address) s =
      ({ s with buffer := s.buffer.write 0 (command op address) }, ()) := by
  simp only [bufCommand, Prog.bind_eq, Prog.call_bind, Prog.run_op, Prog.run_call, exec, command,
    Mem.write_cons _ _ _ (_ :: _)]

theorem Chip.feed_read_succ (c : Chip B) (buf : Mem B) (n : Nat) :
    c.feed (buf.read 0 (n + 1)) = ((c.feed (buf.read 0 n)).xfer (buf n)).1 := by
  simp [Mem.read, List.range_succ, feed_append, feed]

theorem run_spiWritePacket (len : Nat) (s : Board B P) :
    run exec (spiWritePacket len) s =
      ({ s with chip := s.chip.feed (s.buffer.read 0 len) }, ()) := by
  unfold spiWritePacket Prog.forTo
  induction len with
  | zero => rfl
  | succ n ih =>
    rw [Prog.run_loop_succ, ih, Chip.feed_read_succ]
    rfl

theorem run_bufCopyIn (bs : List B) (s : Board B P) :
    run exec (bufCopyIn bs) s = ({ s with buffer := s.buffer.write 0 bs }, ()) := by
  have key : ∀ n ≤ bs.length, run exec (Prog.forTo n fun i => bufSet i (bs.getD i (byte 0))) s =
      ({ s with buffer := s.buffer.write 0 (bs.take n) }, ()) := by
    intro n hn
    unfold Prog.forTo
    induction n with
    | zero => simp [Prog.loop]
    | succ n ih =>
      have hlen : (bs.take n).length = n := by simp; omega
      rw [Prog.run_loop_succ, ih (by omega), List.take_succ_eq_append_getElem hn,
        Mem.write_append, hlen, Nat.zero_add]
      simp [exec, List.getElem?_eq_getElem hn]
  have h := key bs.length le_rfl
  rwa [List.take_length] at h

theorem run_bufCopyOut (n : Nat) (s : Board B P) :
    run exec (bufCopyOut n) s = (s, s.buffer.read 0 n) := by
  unfold bufCopyOut
  induction n with
  | zero => rfl
  | succ n ih =>
    rw [Prog.run_loop_succ, ih]
    simp [exec, Mem.read, List.range_succ]

theorem run_spiReadPacket (len : Nat) (s : Board B P) {a : Nat}
    (h : s.chip.phase = .data spiRead a) :
    run exec (spiReadPacket len) s =
      ({ s with chip := { s.chip with phase := .data spiRead (a + len) },
                buffer := s.buffer.write 0 (s.chip.mem.read a len) }, ()) := by
  unfold spiReadPacket Prog.forTo
  induction len with
  | zero => obtain ⟨⟨m, ph⟩, _⟩ := s; simp only at h; subst h; simp [Mem.read, Prog.loop]
  | succ n ih =>
    rw [Prog.run_loop_succ, ih]
    have hrw : spiRead ≠ spiWrite := by decide
    have hlen : (s.chip.mem.read a n).length = n := by simp
    have hread : s.chip.mem.read a (n + 1) = s.chip.mem.read a n ++ [s.chip.mem (a + n)] := by
      simp [Mem.read, List.range_succ]
    rw [hread, Mem.write_append, hlen, Nat.zero_add]
    simp [exec, Chip.xfer, hrw, Nat.add_assoc]

/-! ## Loads and stores -/

theorem read_command (buf : Mem B) (op : UInt8) (address : Nat) (bs : List B) :
    ((buf.write 0 (command op address)).write 4 bs).read 0 (4 + bs.length) =
      command op address ++ bs := by
  have h := Mem.write_append buf (command op address) bs 0
  have h4 : (command op address ++ bs).length = 4 + bs.length := by simp [command]; omega
  rw [show 0 + (command op address : List B).length = 4 from rfl] at h
  rw [← h, ← h4, Mem.read_write_self]

theorem read_command_nil (buf : Mem B) (op : UInt8) (address : Nat) :
    (buf.write 0 (command op address)).read 0 4 = command op address := by
  simpa using read_command buf op address []

/-- What the chip sees of a store, cut anywhere: only the cells of the store change. -/
theorem Chip.feed_take_store (m : Mem B) (address : Nat) (bs : List B) (i : Nat) :
    Mem.SameOutside (address % 16777216) bs.length m
      ((Chip.mk m .opcode).feed ((command spiWrite address ++ bs).take i)).mem := by
  match i with
  | 0 | 1 | 2 | 3 => exact Mem.SameOutside.refl m
  | i + 4 =>
    have e : (command spiWrite address ++ bs).take (i + 4) =
        command spiWrite address ++ bs.take i := rfl
    rw [e, Chip.feed_append, Chip.feed_command, Chip.feed_write]
    exact Mem.sameOutside_write m le_rfl (by simp)

theorem Chip.feed_take_read (m : Mem B) (address i : Nat) :
    ((Chip.mk m .opcode).feed ((command spiRead address : List B).take i)).mem = m := by
  match i with
  | 0 | 1 | 2 | 3 => rfl
  | i + 4 =>
    rw [List.take_of_length_le (Nat.le_add_left 4 i), Chip.feed_command]

/-- A word as its two big-endian bytes. -/
def wordCells (data : Nat) : List B :=
  [byte (UInt8.ofNat (data >>> 8)), byte (UInt8.ofNat data)]

def loadWord (m : Mem B) (a : Nat) : Nat := ((val (m a)).toNat <<< 8) ||| (val (m (a + 1))).toNat

theorem loadWord_eq (m : Mem B) (a : Nat) :
    loadWord m a = 256 * (val (m a)).toNat + (val (m (a + 1))).toNat := by
  have h := (val (m (a + 1))).toNat_lt
  rw [loadWord, Nat.shiftLeft_eq, Nat.mul_comm, ← Nat.two_pow_add_eq_or_of_lt (i := 8) h]

/-- A word read back where it was written. -/
theorem i16_loadWord_write (m : Mem B) (a : Nat) {v : Int} (h1 : -32768 ≤ v) (h2 : v < 32768) :
    i16 (loadWord (m.write a (wordCells (toU16 v))) a) = v := by
  have e0 : m.write a (wordCells (toU16 v)) a = byte (UInt8.ofNat (toU16 v >>> 8)) :=
    Mem.write_inside m (i := 0) (by simp [wordCells])
  have e1 : m.write a (wordCells (toU16 v)) (a + 1) = byte (UInt8.ofNat (toU16 v)) :=
    Mem.write_inside m (i := 1) (by simp [wordCells])
  have hu := toU16_lt v
  have hword : loadWord (m.write a (wordCells (toU16 v))) a = toU16 v := by
    rw [loadWord_eq, e0, e1, Nat.shiftRight_eq_div_pow]
    simp only [Cell.val_byte, UInt8.toNat_ofNat']
    omega
  rw [hword, i16_toU16, i16_of_range h1 h2]

theorem loadWord_write_apart (m : Mem B) {a b w : Nat} (h : b + 2 ≤ a ∨ a + 2 ≤ b) :
    loadWord (m.write a (wordCells w)) b = loadWord m b := by
  have hlen : (wordCells w : List B).length = 2 := rfl
  have h0 : m.write a (wordCells w) b = m b := Mem.write_outside m (by omega)
  have h1 : m.write a (wordCells w) (b + 1) = m (b + 1) := Mem.write_outside m (by omega)
  rw [loadWord, h0, h1, loadWord]

theorem computes_spiMemWriteWord (address data : Nat) :
    Computes (spiMemWriteWord address data : Fw B P Unit) fun m =>
      (m.write (address % 16777216) (wordCells data), ()) := by
  intro s hs
  simp only [spiMemWriteWord, Prog.bind_eq, Prog.run_bind, run_bufCommand, Prog.call_bind,
    Prog.run_op, run_spiWritePacket, Prog.run_call, exec, ← Mem.write_cons _ 4]
  have h : ((s.buffer.write 0 (command spiWrite address)).write 4
      [byte (UInt8.ofNat (data >>> 8)), byte (UInt8.ofNat data)]).read 0 6 =
      command spiWrite address ++ wordCells data := read_command s.buffer spiWrite address (wordCells data)
  rw [h, Chip.feed_append, Chip.feed_command, Chip.feed_write]
  exact ⟨_, rfl⟩

theorem computes_spiMemWriteByte (address : Nat) (data : UInt8) :
    Computes (spiMemWriteByte address data : Fw B P Unit) fun m =>
      (m.write (address % 16777216) [byte data], ()) := by
  intro s hs
  simp only [spiMemWriteByte, Prog.bind_eq, Prog.run_bind, run_bufCommand, Prog.call_bind,
    Prog.run_op, run_spiWritePacket, Prog.run_call, exec]
  have h : ((s.buffer.write 0 (command spiWrite address)).write 4 [byte data]).read 0 5 =
      command spiWrite address ++ [byte data] := read_command s.buffer spiWrite address [byte data]
  rw [h, Chip.feed_append, Chip.feed_command, Chip.feed_write]
  exact ⟨_, rfl⟩

theorem computes_spiMemWriteComplex (address : Nat) (data : Complex F) :
    Computes (spiMemWriteComplex address data : Fw B P Unit) fun m =>
      (m.write (address % 16777216) data.enc, ()) := by
  intro s hs
  have h8 : data.enc.length = 8 := Complex.length_enc data
  have h := Mem.read_write_self (s.buffer.write 0 (command spiWrite address)) 0 data.enc
  rw [h8] at h
  simp only [spiMemWriteComplex, Prog.bind_eq, Prog.run_bind, run_bufCommand, Prog.call_bind,
    Prog.run_op, run_spiWritePacket, run_bufCopyIn, Prog.run_call, exec]
  rw [read_command_nil, h, Chip.feed_command, Chip.feed_write]
  exact ⟨_, rfl⟩

theorem computes_spiMemReadWord (address : Nat) :
    Computes (spiMemReadWord address : Fw B P Nat) fun m =>
      (m, loadWord m (address % 16777216)) := by
  intro s hs
  simp only [spiMemReadWord, Prog.bind_eq, Prog.run_bind, run_bufCommand, Prog.call_bind, Prog.run_op,
    run_spiWritePacket, exec]
  rw [read_command_nil, Chip.feed_command, run_spiReadPacket _ _ rfl]
  exact ⟨_, rfl⟩

theorem computes_spiMemReadByte (address : Nat) :
    Computes (spiMemReadByte address : Fw B P UInt8) fun m =>
      (m, val (m (address % 16777216))) := by
  intro s hs
  simp only [spiMemReadByte, Prog.bind_eq, Prog.run_bind, run_bufCommand, Prog.call_bind, Prog.run_op,
    run_spiWritePacket, exec]
  rw [read_command_nil, Chip.feed_command, run_spiReadPacket _ _ rfl]
  exact ⟨_, rfl⟩

theorem computes_spiMemReadComplex (address : Nat) :
    Computes (spiMemReadComplex address : Fw B P (Complex F)) fun m =>
      (m, Complex.dec (m.read (address % 16777216) 8)) := by
  intro s hs
  have h := Mem.read_write_self (s.buffer.write 0 (command spiRead address)) 0
    (s.chip.mem.read (address % 16777216) 8)
  rw [Mem.length_read] at h
  simp only [spiMemReadComplex, Prog.bind_eq, Prog.run_bind, run_bufCommand, Prog.call_bind,
    Prog.run_op, run_spiWritePacket, run_bufCopyOut, exec]
  rw [read_command_nil, Chip.feed_command, run_spiReadPacket _ _ rfl]
  dsimp only
  rw [h]
  exact ⟨_, rfl⟩

/-! ## What a call touches on the way -/

variable {R : Nat → Prop}

theorem always_spiWritePacket {I : Board B P → Prop} {len : Nat} {s : Board B P}
    (h : ∀ i ≤ len, I { s with chip := s.chip.feed (s.buffer.read 0 i) }) :
    Prog.Always exec I (spiWritePacket len) s := by
  unfold spiWritePacket Prog.forTo
  refine Prog.Always.loop (h 0 (Nat.zero_le len)) fun i hi => ?_
  have hrun := run_spiWritePacket i s
  unfold spiWritePacket Prog.forTo at hrun
  rw [hrun]
  have hi1 := h (i + 1) hi
  rw [Chip.feed_read_succ] at hi1
  exact ⟨h i hi.le, h i hi.le, hi1⟩

theorem always_spiReadPacket {s₀ s : Board B P} (len : Nat) {a : Nat}
    (h : s.chip.phase = .data spiRead a) (hk : s₀.Kept R s) :
    Prog.Always exec (s₀.Kept R) (spiReadPacket len) s := by
  unfold spiReadPacket Prog.forTo
  refine Prog.Always.loop hk fun i _ => ?_
  have hrun := run_spiReadPacket i s h
  unfold spiReadPacket Prog.forTo at hrun
  rw [hrun]
  have hrw : spiRead ≠ spiWrite := by decide
  refine ⟨hk, ⟨hk.1, ?_⟩, ⟨hk.1, ?_⟩⟩ <;>
    simpa [exec, Chip.xfer, hrw] using hk.2

theorem aside_bufCommand (op : UInt8) (address : Nat) :
    (bufCommand op address : Fw B P Unit).All Op.Aside :=
  ⟨trivial, fun _ => ⟨trivial, fun _ => ⟨trivial, fun _ => ⟨trivial, fun _ => trivial⟩⟩⟩⟩

/-- The cells of an access. -/
def Cells (address n : Nat) (x : Nat) : Prop :=
  address % 16777216 ≤ x ∧ x < address % 16777216 + n

theorem not_cells {address n x : Nat} (h : ¬ Cells address n x) :
    x < address % 16777216 ∨ address % 16777216 + n ≤ x := by
  unfold Cells at h; omega

theorem aside_bufCopyIn (bs : List B) : (bufCopyIn bs : Fw B P Unit).All Op.Aside :=
  Prog.All.forTo fun _ => ⟨trivial, fun _ => trivial⟩

omit [Cell B] in
theorem aside_bufCopyOut (n : Nat) : (bufCopyOut n : Fw B P (List B)).All Op.Aside := by
  refine Prog.All.loop (fun i bs => ?_) n
  exact ⟨trivial, fun _ => trivial⟩

/-- A packet that opens a store, with as many of its data bytes as `bs`. -/
theorem always_store {s₀ s : Board B P} {address n : Nat} (bs : List B) (hn : bs.length ≤ n)
    (hp : s.chip.phase = .opcode) (hk : s₀.Kept (Cells address n) s)
    (hb : s.buffer.read 0 (4 + bs.length) = command spiWrite address ++ bs) :
    Prog.Always exec (s₀.Kept (Cells address n)) (spiWritePacket (4 + bs.length)) s := by
  refine always_spiWritePacket fun i hi => ⟨hk.1, fun x hx => ?_⟩
  have hi' : (command spiWrite address ++ bs).take i = s.buffer.read 0 i := by
    rw [← hb, Mem.take_read _ _ hi]
  have hc : s.chip = ⟨s.chip.mem, .opcode⟩ := by rw [← hp]
  rw [← hk.2 x hx, ← hi', hc]
  exact Chip.feed_take_store _ address bs i x (by have := not_cells hx; omega)

/-- The packet that carries all of a store's data. -/
theorem always_storeData {s₀ s : Board B P} {address n : Nat}
    (hp : s.chip.phase = .data spiWrite (address % 16777216)) (hk : s₀.Kept (Cells address n) s) :
    Prog.Always exec (s₀.Kept (Cells address n)) (spiWritePacket n) s := by
  refine always_spiWritePacket fun i hi => ⟨hk.1, fun x hx => ?_⟩
  have hc : s.chip = ⟨s.chip.mem, .data spiWrite (address % 16777216)⟩ := by rw [← hp]
  rw [← hk.2 x hx, hc, Chip.feed_write]
  have hlen := Mem.length_read s.buffer 0 i
  exact Mem.write_outside _ (by have := not_cells hx; omega)

/-- A store only ever touches its own cells. -/
theorem touches_spiMemWriteWord (address data : Nat) :
    Touches (Cells address 2) (spiMemWriteWord address data : Fw B P Unit) := by
  intro s hs
  obtain ⟨buf, e⟩ := computes_spiMemWriteWord address data s hs
  refine ⟨?_, by rw [e]; rfl⟩
  obtain ⟨h1, -⟩ := always_aside (R := Cells address 2) (aside_bufCommand spiWrite address) (.refl s)
  refine .bind h1 fun hk => ?_
  rw [run_bufCommand] at hk ⊢
  refine .call hk (.call hk (.call hk ?_))
  refine .bind (always_store (wordCells data) le_rfl rfl hk ?_) fun hk' => ⟨hk', hk'⟩
  rw [← read_command s.buffer spiWrite address, wordCells, Mem.write_cons _ 4]
  rfl

theorem touches_spiMemWriteComplex (address : Nat) (data : Complex F) :
    Touches (Cells address 8) (spiMemWriteComplex address data : Fw B P Unit) := by
  intro s hs
  obtain ⟨buf, e⟩ := computes_spiMemWriteComplex address data s hs
  refine ⟨?_, by rw [e]; rfl⟩
  obtain ⟨h1, -⟩ := always_aside (R := Cells address 8) (aside_bufCommand spiWrite address) (.refl s)
  refine .bind h1 fun hk => ?_
  rw [run_bufCommand] at hk ⊢
  -- the first packet opens the store, the second carries the data
  refine .call hk (.bind (always_store [] (Nat.zero_le 8) rfl hk ?_) fun hk => ?_)
  · exact (read_command_nil s.buffer spiWrite address).trans (List.append_nil _).symm
  rw [run_spiWritePacket] at hk ⊢
  refine .bind (always_aside (aside_bufCopyIn _) hk).1 fun hk => ?_
  rw [run_bufCopyIn] at hk ⊢
  refine .bind (always_storeData ?_ hk) fun hk' => ⟨hk', hk'⟩
  change ((Chip.mk s.chip.mem .opcode).feed ((s.buffer.write 0 _).read 0 4)).phase = _
  rw [read_command_nil, Chip.feed_command]

/-- What both loads begin with. -/
def spiLoad (address n : Nat) : Fw B P Unit := do
  bufCommand spiRead address
  csLow
  spiWritePacket 4
  spiReadPacket n
  csHigh

/-- A load touches no cell. -/
theorem touches_spiLoad (address n : Nat) : Touches R (spiLoad address n : Fw B P Unit) := by
  intro s hs
  have hphase : ((Chip.mk s.chip.mem .opcode).feed
      ((s.buffer.write 0 (command spiRead address)).read 0 4)).phase =
      .data spiRead (address % 16777216) := by
    rw [read_command_nil, Chip.feed_command]
  constructor
  · obtain ⟨h1, -⟩ := always_aside (R := R) (aside_bufCommand spiRead address) (.refl s)
    refine .bind h1 fun hk => ?_
    rw [run_bufCommand] at hk ⊢
    refine .call hk (.bind (always_spiWritePacket fun i hi => ⟨rfl, fun x _ => ?_⟩) fun hk => ?_)
    · have h := Chip.feed_take_read s.chip.mem address i
      rw [← read_command_nil s.buffer, Mem.take_read _ _ hi] at h
      exact congrFun h x
    · rw [run_spiWritePacket] at hk ⊢
      exact .bind (always_spiReadPacket n hphase hk) fun hk => ⟨hk, hk⟩
  · simp only [spiLoad, Prog.bind_eq, Prog.run_bind]
    rfl

theorem touches_spiMemReadWord (address : Nat) :
    Touches R (spiMemReadWord address : Fw B P Nat) := by
  have e : spiMemReadWord address = Prog.bind (spiLoad address 2) (fun _ => do
      let b0 ← bufGet 0
      let b1 ← bufGet 1
      pure (((val b0).toNat <<< 8) ||| (val b1).toNat) : Unit → Fw B P Nat) := by
    simp only [spiMemReadWord, spiLoad, Prog.bind_eq, Prog.bind_assoc]
  rw [e]
  exact .bind (touches_spiLoad address 2) fun _ =>
    .aside ⟨trivial, fun _ => ⟨trivial, fun _ => trivial⟩⟩

theorem touches_spiMemReadComplex (address : Nat) :
    Touches R (spiMemReadComplex address : Fw B P (Complex F)) := by
  have e : spiMemReadComplex address = Prog.bind (spiLoad address 8) (fun _ => do
      let bs ← bufCopyOut 8
      pure (Complex.dec bs) : Unit → Fw B P (Complex F)) := by
    simp only [spiMemReadComplex, spiLoad, Prog.bind_eq, Prog.bind_assoc]
  rw [e]
  exact .bind (touches_spiLoad address 8) fun _ =>
    .aside (.bind (aside_bufCopyOut 8) fun _ => trivial)

end HmBoard
