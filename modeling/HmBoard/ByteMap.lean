import HmBoard.ExactFloat
import HmBoard.SpiMemoryProofs

/-!
# The SPI memory layer as a byte map

Over a chip at rest a sequence of `spi_mem_*` calls is the same sequence on a plain map from
addresses to cells, in which a word is two cells, the high one first, and a complex its eight
(`memory_layer_refines`). The map knows nothing of `buffer_memory`.
-/

namespace HmBoard

open Lib Fw
open Lib.Prog (run)
open Board (exec)

variable {F B P : Type} [Cell B] [FloatFormat F B]

/-! ## The byte map -/

/-- The three kinds of data the layer moves. -/
inductive DataKind where
  | byte | word | complex
deriving DecidableEq, Repr

inductive Datum (F : Type) where
  | byte (b : UInt8)
  | word (w : Nat)
  | complex (z : Complex F)

def DataKind.size : DataKind → Nat
  | .byte => 1
  | .word => 2
  | .complex => 8

theorem DataKind.size_pos (k : DataKind) : 0 < k.size := by cases k <;> decide

def Datum.kind : Datum F → DataKind
  | .byte _ => .byte
  | .word _ => .word
  | .complex _ => .complex

/-- `unsigned int` has 16 bits. -/
def Datum.Valid : Datum F → Prop
  | .word w => w < 65536
  | _ => True

/-- How a value lies in the map. -/
def Datum.cells : Datum F → List B
  | .byte b => [Cell.byte b]
  | .word w => [Cell.byte (UInt8.ofNat (w / 256)), Cell.byte (UInt8.ofNat (w % 256))]
  | .complex z => z.enc

/-- The value that lies at `a`. -/
def DataKind.load (m : Mem B) (a : Nat) : DataKind → Datum F
  | .byte => .byte (val (m a))
  | .word => .word (256 * (val (m a)).toNat + (val (m (a + 1))).toNat)
  | .complex => .complex (Complex.dec (m.read a 8))

/-- A call of the layer. -/
inductive MemCall (F : Type) where
  | write (address : Nat) (data : Datum F)
  | read (kind : DataKind) (address : Nat)

namespace MemCall

/-- What the call stores and returns. -/
def apply : MemCall F → Mem B → Mem B × Option (Datum F)
  | .write a d, m => (m.write a d.cells, none)
  | .read k a, m => (m, some (k.load m a))

/-- The address fits the 24 bits the chip takes, for all cells of the access. -/
def Valid : MemCall F → Prop
  | .write a d => a + d.kind.size ≤ 16777216 ∧ d.Valid
  | .read k a => a + k.size ≤ 16777216

/-- The call writes to cell `x`. -/
def Stores (x : Nat) : MemCall F → Prop
  | .write a d => a ≤ x ∧ x < a + d.kind.size
  | .read _ _ => False

end MemCall

/-- A sequence of calls on the map: what it holds afterwards, and what each call has returned. -/
def byteMap : List (MemCall F) → Mem B → Mem B × List (Option (Datum F))
  | [], m => (m, [])
  | c :: cs, m => ((byteMap cs (c.apply m).1).1, (c.apply m).2 :: (byteMap cs (c.apply m).1).2)

/-! ## The layer -/

/-- The call as the firmware makes it. -/
def MemCall.code : MemCall F → Fw B P (Option (Datum F))
  | .write a (.byte b) => do
    spiMemWriteByte a b
    pure none
  | .write a (.word w) => do
    spiMemWriteWord a w
    pure none
  | .write a (.complex z) => do
    spiMemWriteComplex a z
    pure none
  | .read .byte a => do
    let b ← spiMemReadByte a
    pure (some (.byte b))
  | .read .word a => do
    let w ← spiMemReadWord a
    pure (some (.word w))
  | .read .complex a => do
    let z ← spiMemReadComplex a
    pure (some (.complex z))

def memCalls : List (MemCall F) → Fw B P (List (Option (Datum F)))
  | [] => pure []
  | c :: cs => do
    let r ← c.code
    let rs ← memCalls cs
    pure (r :: rs)

/-! ## Laws of the map -/

theorem Datum.length_cells (d : Datum F) : (d.cells : List B).length = d.kind.size := by
  cases d with
  | byte b => rfl
  | word w => rfl
  | complex z => exact Complex.length_enc z

/-- Values lie in the map as themselves. -/
theorem load_write {d : Datum F} (hd : d.Valid) (m : Mem B) (a : Nat) :
    d.kind.load (m.write a d.cells) a = d := by
  have h0 : ∀ b bs, (m.write a (b :: bs)) a = b := by
    intro b bs
    have h : 0 < (b :: bs).length := Nat.succ_pos _
    exact Mem.write_inside m h
  cases d with
  | byte b => simp only [DataKind.load, Datum.kind, Datum.cells, h0, Cell.val_byte]
  | word w =>
    have hw : w < 65536 := hd
    have h1 : (m.write a (Datum.word (F := F) w).cells) (a + 1) = byte (UInt8.ofNat (w % 256)) :=
      Mem.write_inside m (i := 1) (by simp [Datum.cells])
    simp only [DataKind.load, Datum.kind, h1]
    simp only [Datum.cells, h0, Cell.val_byte, UInt8.toNat_ofNat', Datum.word.injEq]
    omega
  | complex z =>
    have h := Mem.read_write_self m a z.enc
    rw [Complex.length_enc] at h
    simp only [DataKind.load, Datum.kind, Datum.cells, h, Complex.dec_enc]

/-- A load sees the cells of its kind only. -/
theorem load_congr {m m' : Mem B} (k : DataKind) {a : Nat}
    (h : ∀ x, a ≤ x → x < a + k.size → m x = m' x) : (k.load m a : Datum F) = k.load m' a := by
  cases k with
  | byte => simp only [DataKind.load, h a le_rfl (Nat.lt_succ_self a)]
  | word =>
    have h0 := h a le_rfl (by simp [DataKind.size])
    have h1 := h (a + 1) (Nat.le_succ a) (by simp [DataKind.size])
    simp only [DataKind.load, h0, h1]
  | complex =>
    have h8 : m.read a 8 = m'.read a 8 := Mem.read_congr h
    simp only [DataKind.load, h8]

theorem apply_outside (c : MemCall F) (m : Mem B) {x : Nat} (h : ¬ c.Stores x) :
    (c.apply m).1 x = m x := by
  cases c with
  | write a d =>
    apply Mem.write_outside
    rw [Datum.length_cells]
    simp only [MemCall.Stores] at h
    omega
  | read k a => rfl

theorem byteMap_outside {x : Nat} : ∀ (cs : List (MemCall F)) (m : Mem B),
    (∀ c ∈ cs, ¬ c.Stores x) → (byteMap cs m).1 x = m x
  | [], _, _ => rfl
  | c :: cs, m, h => by
    have ih := byteMap_outside cs (c.apply m).1 fun c' h' => h c' (.tail _ h')
    exact ih.trans (apply_outside c m (h c (.head _)))

theorem byteMap_append (cs ds : List (MemCall F)) : ∀ m : Mem B,
    byteMap (cs ++ ds) m =
      ((byteMap ds (byteMap cs m).1).1, (byteMap cs m).2 ++ (byteMap ds (byteMap cs m).1).2) := by
  induction cs with
  | nil => intro m; rfl
  | cons c cs ih =>
    intro m
    simp only [List.cons_append, byteMap, ih]

theorem length_byteMap (cs : List (MemCall F)) : ∀ m : Mem B,
    (byteMap cs m).2.length = cs.length := by
  induction cs with
  | nil => intro m; rfl
  | cons c cs ih =>
    intro m
    simp only [byteMap, List.length_cons, ih]

/-- A read of what was written at this address with this kind, and not overwritten since, even in
part. -/
theorem byteMap_last_write {d : Datum F} (hd : d.Valid) (a : Nat)
    (before between after : List (MemCall F)) (m : Mem B)
    (h : ∀ c ∈ between, ∀ x, a ≤ x → x < a + d.kind.size → ¬ c.Stores x) :
    (byteMap (before ++ .write a d :: (between ++ .read d.kind a :: after)) m).2[before.length + 1
      + between.length]? = some (some d) := by
  have hlen := length_byteMap before m
  generalize hm' : (byteMap before m).1 = m' at *
  have hlen' := length_byteMap between (m'.write a d.cells)
  have hkeep : (d.kind.load (byteMap between (m'.write a d.cells)).1 a : Datum F) = d := by
    refine (load_congr d.kind fun x h1 h2 => ?_).trans (load_write hd m' a)
    exact byteMap_outside between _ fun c hc => h c hc x h1 h2
  rw [byteMap_append, hm', byteMap, byteMap_append, byteMap]
  simp only [MemCall.apply, hkeep]
  rw [List.getElem?_append_right (by omega), hlen,
    show before.length + 1 + between.length - before.length = between.length + 1 by omega,
    List.getElem?_cons_succ, List.getElem?_append_right (by omega), hlen', Nat.sub_self]
  rfl

/-! ## The layer on the chip -/

theorem wordCells_eq (w : Nat) :
    (wordCells w : List B) = (Datum.word (F := F) w).cells := by
  have h1 : w >>> 8 = w / 256 := Nat.shiftRight_eq_div_pow w 8
  have h2 : UInt8.ofNat w = UInt8.ofNat (w % 256) := by
    apply UInt8.toNat.inj
    simp
  rw [wordCells, Datum.cells, h1, h2]

/-- The step: a call is its abstract counterpart. -/
theorem computes_code {c : MemCall F} (hc : c.Valid) :
    Computes (c.code : Fw B P (Option (Datum F))) c.apply := by
  have haddr : ∀ {a : Nat} (k : DataKind), a + k.size ≤ 16777216 → a % 16777216 = a := by
    intro a k h
    have hk := k.size_pos
    exact Nat.mod_eq_of_lt (by omega)
  cases c with
  | write a d =>
    have ha : a % 16777216 = a := haddr d.kind hc.1
    cases d with
    | byte b =>
      have h := (computes_spiMemWriteByte (B := B) (P := P) a b).bind
        fun _ => Computes.ret (none : Option (Datum F))
      rwa [ha] at h
    | word w =>
      have h := (computes_spiMemWriteWord (B := B) (P := P) a w).bind
        fun _ => Computes.ret (none : Option (Datum F))
      rwa [ha, wordCells_eq (F := F)] at h
    | complex z =>
      have h := (computes_spiMemWriteComplex (P := P) a z).bind
        fun _ => Computes.ret (none : Option (Datum F))
      rwa [ha] at h
  | read k a =>
    have ha : a % 16777216 = a := haddr k hc
    cases k with
    | byte =>
      have h := (computes_spiMemReadByte (B := B) (P := P) a).bind
        fun b => Computes.ret (some (.byte b : Datum F))
      rwa [ha] at h
    | word =>
      have h := (computes_spiMemReadWord (B := B) (P := P) a).bind
        fun w => Computes.ret (some (.word w : Datum F))
      simp only [ha, loadWord_eq] at h
      exact h
    | complex =>
      have h := (computes_spiMemReadComplex (F := F) (P := P) a).bind
        fun z => Computes.ret (some (Datum.complex z))
      rwa [ha] at h

/-- The run. -/
theorem computes_memCalls : ∀ {cs : List (MemCall F)}, (∀ c ∈ cs, c.Valid) →
    Computes (memCalls cs : Fw B P (List (Option (Datum F)))) (byteMap cs)
  | [], _ => Computes.ret []
  | c :: cs, h => by
    have ih : Computes (memCalls cs : Fw B P _) (byteMap cs) :=
      computes_memCalls fun c' h' => h c' (.tail _ h')
    exact (computes_code (h c (.head _))).bind fun r => ih.bind fun rs => Computes.ret (r :: rs)

/-- **Refinement.** On every board with the chip at rest, whatever `buffer_memory` holds: the calls
return what they return on the map and leave the chip at rest with the map's cells; cells that
no call writes to are unchanged; and a read gives back what was last written there as a value of
its kind. -/
theorem memory_layer_refines (cs : List (MemCall F)) (hcs : ∀ c ∈ cs, c.Valid) (s : Board B P)
    (hidle : s.chip.phase = .idle) :
    (run exec (memCalls cs) s).2 = (byteMap cs s.chip.mem).2 ∧
    (run exec (memCalls cs) s).1.chip = ⟨(byteMap cs s.chip.mem).1, .idle⟩ ∧
    (∀ x, (∀ c ∈ cs, ¬ c.Stores x) → (run exec (memCalls cs) s).1.chip.mem x = s.chip.mem x) ∧
    ∀ (a : Nat) (d : Datum F) (before between after : List (MemCall F)),
      cs = before ++ .write a d :: (between ++ .read d.kind a :: after) →
      (∀ c ∈ between, ∀ x, a ≤ x → x < a + d.kind.size → ¬ c.Stores x) →
      (run exec (memCalls cs) s).2[before.length + 1 + between.length]? = some (some d) := by
  obtain ⟨buf, e⟩ := computes_memCalls hcs s hidle
  rw [e]
  refine ⟨rfl, rfl, fun x hx => byteMap_outside cs s.chip.mem hx, ?_⟩
  intro a d before between after hsplit hbetween
  have hd : d.Valid := (hcs (.write a d) (by simp [hsplit])).2
  subst hsplit
  exact byteMap_last_write hd a before between after s.chip.mem hbetween

/-- The word of sample −120, with stores on both sides of it in between. -/
def sampleCalls : List (MemCall ℝ) :=
  [.write 4096 (.word (toU16 (-120))), .write 4095 (.byte 7), .write 4098 (.complex ⟨1, 2⟩),
    .read .word 4096]

theorem memory_layer_refines_sample :
    (run exec (memCalls sampleCalls) (Board.rest fun _ => byte 0 : Board ExactCell Nat)).2[3]? =
      some (some (.word (toU16 (-120)))) ∧ i16 (toU16 (-120)) = -120 := by
  have hvalid : ∀ c ∈ sampleCalls, c.Valid := by
    simp [sampleCalls, MemCall.Valid, Datum.Valid, Datum.kind, DataKind.size, toU16]
  obtain ⟨-, -, -, h⟩ := memory_layer_refines sampleCalls hvalid
    (Board.rest fun _ => byte 0 : Board ExactCell Nat) rfl
  refine ⟨h 4096 (.word (toU16 (-120))) [] [.write 4095 (.byte 7), .write 4098 (.complex ⟨1, 2⟩)] []
    rfl ?_, by decide⟩
  intro c hc x h1 h2
  simp only [Datum.kind, DataKind.size] at h2
  rcases List.mem_cons.1 hc with rfl | hc
  · simp only [MemCall.Stores, Datum.kind, DataKind.size]
    omega
  · obtain rfl := List.mem_singleton.1 hc
    simp only [MemCall.Stores, Datum.kind, DataKind.size]
    omega

end HmBoard
