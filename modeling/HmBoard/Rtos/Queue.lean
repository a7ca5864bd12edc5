import HmBoard.Csp.Packet
import HmBoard.Lib.Ring

/-!
# The storage of a queue (`queue.c`)

| here | there |
| --- | --- |
| `Queue`                | `Queue_t` (queue.c:130-162) |
| `xQueueGenericReset`   | queue.c:260, with `xNewQueue` |
| `prvCopyDataToQueue`   | queue.c:1783, of a queue that is no mutex |
| `prvCopyDataFromQueue` | queue.c:1857 |
| `takeItem`, `peekItem` | what receivers do around it (queue.c:1391-1433, 1579-1580, 1667-1669) |

Pointers are addresses in the memory of bytes. The storage is `uxLength` slots of `uxItemSize`
bytes from `pcHead` on; `pcReadFrom` points at the slot read last. `items` is what the queue
holds, the oldest first. A semaphore has items of size 0.
-/

namespace HmBoard

open Lib

variable {T : Type}

inductive CopyPosition where
  | queueSendToBack | queueSendToFront | queueOverwrite
deriving DecidableEq, Repr

structure Queue (T : Type) where
  pcHead : Nat
  pcTail : Nat
  pcWriteTo : Nat
  pcReadFrom : Nat
  /-- The event lists, the task of the highest priority first. -/
  xTasksWaitingToSend : List T
  xTasksWaitingToReceive : List T
  uxMessagesWaiting : Nat
  uxLength : Nat
  uxItemSize : Nat
  xRxLock : UInt8
  xTxLock : UInt8

/-- `(char) -1`: `char` is unsigned here. -/
def queueUnlocked : UInt8 := 255

def queueLockedUnmodified : UInt8 := 0

def memcpy (m : Ram) (dst src n : Nat) : Ram := m.write dst (m.read src n)

/-- `xNewQueue` is `pdTRUE`. -/
def xQueueGenericReset (q : Queue T) : Queue T :=
  { q with
    pcTail := q.pcHead + q.uxLength * q.uxItemSize
    uxMessagesWaiting := 0
    pcWriteTo := q.pcHead
    pcReadFrom := q.pcHead + (q.uxLength - 1) * q.uxItemSize
    xRxLock := queueUnlocked
    xTxLock := queueUnlocked
    xTasksWaitingToSend := []
    xTasksWaitingToReceive := [] }

def prvCopyDataToQueue (q : Queue T) (m : Ram) (pvItemToQueue : Nat) (xPosition : CopyPosition) :
    Queue T × Ram :=
  let t :=
    if q.uxItemSize = 0 then (q, m)
    else if xPosition = .queueSendToBack then
      let pcWriteTo := q.pcWriteTo + q.uxItemSize
      ({ q with pcWriteTo := if pcWriteTo ≥ q.pcTail then q.pcHead else pcWriteTo },
        memcpy m q.pcWriteTo pvItemToQueue q.uxItemSize)
    else
      -- the comparison is of pointers: no wrap below address 0
      ({ q with
          pcReadFrom :=
            if (q.pcReadFrom : Int) - q.uxItemSize < q.pcHead then q.pcTail - q.uxItemSize
            else q.pcReadFrom - q.uxItemSize
          uxMessagesWaiting :=
            if xPosition = .queueOverwrite ∧ q.uxMessagesWaiting > 0 then q.uxMessagesWaiting - 1
            else q.uxMessagesWaiting },
        memcpy m q.pcReadFrom pvItemToQueue q.uxItemSize)
  ({ t.1 with uxMessagesWaiting := t.1.uxMessagesWaiting + 1 }, t.2)

def prvCopyDataFromQueue (q : Queue T) (m : Ram) (pvBuffer : Nat) : Queue T × Ram :=
  if q.uxItemSize ≠ 0 then
    let pcReadFrom := q.pcReadFrom + q.uxItemSize
    let pcReadFrom := if pcReadFrom ≥ q.pcTail then q.pcHead else pcReadFrom
    ({ q with pcReadFrom := pcReadFrom }, memcpy m pvBuffer pcReadFrom q.uxItemSize)
  else (q, m)

def takeItem (q : Queue T) (m : Ram) (pvBuffer : Nat) : Queue T × Ram :=
  let t := prvCopyDataFromQueue q m pvBuffer
  ({ t.1 with uxMessagesWaiting := t.1.uxMessagesWaiting - 1 }, t.2)

def peekItem (q : Queue T) (m : Ram) (pvBuffer : Nat) : Queue T × Ram :=
  let t := prvCopyDataFromQueue q m pvBuffer
  ({ t.1 with pcReadFrom := q.pcReadFrom }, t.2)

/-- The test the senders make (queue.c:650, 1094). -/
def HasRoom (q : Queue T) (xPosition : CopyPosition) : Prop :=
  q.uxMessagesWaiting < q.uxLength ∨ xPosition = .queueOverwrite

/-- What callers observe (queue.c:621, 1066): only a queue of one item is overwritten, and no
semaphore. -/
def OverwriteOk (q : Queue T) (xPosition : CopyPosition) : Prop :=
  xPosition = .queueOverwrite → q.uxLength = 1 ∧ q.uxItemSize ≠ 0

instance (q : Queue T) (x : CopyPosition) : Decidable (HasRoom q x) :=
  inferInstanceAs (Decidable (_ ∨ _))

instance (q : Queue T) (x : CopyPosition) : Decidable (OverwriteOk q x) :=
  inferInstanceAs (Decidable (_ → _))

/-- What a send does to the contents. -/
def pushItem : CopyPosition → List UInt8 → List (List UInt8) → List (List UInt8)
  | .queueSendToBack, x, xs => xs ++ [x]
  | .queueSendToFront, x, xs => x :: xs
  | .queueOverwrite, x, _ => [x]

namespace Queue

variable (q : Queue T) (m : Ram)

/-- The slot read last. -/
def readSlot : Nat := (q.pcReadFrom - q.pcHead) / q.uxItemSize

def slotAddr (i : Nat) : Nat := q.pcHead + i * q.uxItemSize

def slot (i : Nat) : List UInt8 := m.read (q.slotAddr i) q.uxItemSize

def items : List (List UInt8) := window (q.slot m) q.uxLength q.readSlot q.uxMessagesWaiting

/-- The pointers fit the slots. -/
structure Wf : Prop where
  pos : 0 < q.uxLength
  tail : q.pcTail = q.slotAddr q.uxLength
  waiting : q.uxMessagesWaiting ≤ q.uxLength
  readLt : q.readSlot < q.uxLength
  read : q.pcReadFrom = q.slotAddr q.readSlot
  write : q.pcWriteTo = q.slotAddr ((q.readSlot + 1 + q.uxMessagesWaiting) % q.uxLength)

/-- `[a, a + n)` lies outside the storage. -/
def Apart (a n : Nat) : Prop := a + n ≤ q.pcHead ∨ q.pcTail ≤ a

instance (a n : Nat) : Decidable (q.Apart a n) := inferInstanceAs (Decidable (_ ∨ _))

/-- Only pointers and the count changed. -/
structure SameFrame (q q' : Queue T) : Prop where
  head : q'.pcHead = q.pcHead
  tail : q'.pcTail = q.pcTail
  length : q'.uxLength = q.uxLength
  itemSize : q'.uxItemSize = q.uxItemSize
  send : q'.xTasksWaitingToSend = q.xTasksWaitingToSend
  receive : q'.xTasksWaitingToReceive = q.xTasksWaitingToReceive
  rx : q'.xRxLock = q.xRxLock
  tx : q'.xTxLock = q.xTxLock

variable {q m} {i j : Nat}

theorem slotAddr_le (h : i ≤ j) : q.slotAddr i ≤ q.slotAddr j :=
  Nat.add_le_add_left (Nat.mul_le_mul_right _ h) _

theorem slotAddr_succ : q.slotAddr (i + 1) = q.slotAddr i + q.uxItemSize := by
  simp [slotAddr, Nat.add_mul, Nat.add_assoc]

theorem slotAddr_lt_iff (hs : q.uxItemSize ≠ 0) : q.slotAddr i < q.slotAddr j ↔ i < j := by
  have hpos : 0 < q.uxItemSize := Nat.pos_of_ne_zero hs
  constructor
  · intro h
    by_contra hji
    exact absurd (slotAddr_le (q := q) (Nat.not_lt.1 hji)) (Nat.not_le.2 h)
  · intro h
    have h1 := slotAddr_le (q := q) (Nat.succ_le_of_lt h)
    rw [Nat.succ_eq_add_one, slotAddr_succ] at h1
    omega

/-- A copy into slot `i` changes no other. -/
theorem slot_write {bs : List UInt8} (hb : bs.length = q.uxItemSize) (h : j ≠ i) :
    q.slot (m.write (q.slotAddr i) bs) j = q.slot m j := by
  refine Mem.read_write_disjoint m ?_
  rcases Nat.lt_or_gt_of_ne h with hlt | hlt
  · have h1 := slotAddr_le (q := q) (Nat.succ_le_of_lt hlt)
    rw [Nat.succ_eq_add_one, slotAddr_succ] at h1
    exact .inl h1
  · have h1 := slotAddr_le (q := q) (Nat.succ_le_of_lt hlt)
    rw [Nat.succ_eq_add_one, slotAddr_succ] at h1
    exact .inr (hb ▸ h1)

theorem slot_write_self {bs : List UInt8} (hb : bs.length = q.uxItemSize) :
    q.slot (m.write (q.slotAddr i) bs) i = bs := by
  rw [slot, ← hb]
  exact Mem.read_write_self m _ bs

theorem readSlot_of_read (hs : q.uxItemSize ≠ 0) (h : q.pcReadFrom = q.slotAddr i) :
    q.readSlot = i := by
  rw [readSlot, h, slotAddr, Nat.add_sub_cancel_left]
  exact Nat.mul_div_cancel i (Nat.pos_of_ne_zero hs)

/-- The items of a semaphore. -/
theorem items_of_size_zero (h : q.uxItemSize = 0) :
    q.items m = List.replicate q.uxMessagesWaiting [] :=
  window_const fun i => by simp [slot, h]

theorem items_length : (q.items m).length = q.uxMessagesWaiting := length_window

theorem item_length {item : List UInt8} (h : item ∈ q.items m) : item.length = q.uxItemSize := by
  obtain ⟨i, -, rfl⟩ := List.mem_map.1 h
  exact Mem.length_read _ _ _

/-- A write outside the storage. -/
theorem items_write (hq : q.Wf) {a : Nat} {bs : List UInt8} (h : q.Apart a bs.length) :
    q.items (m.write a bs) = q.items m := by
  refine window_congr fun i _ => Mem.read_write_disjoint m ?_
  have hlt : (q.readSlot + 1 + i) % q.uxLength < q.uxLength := Nat.mod_lt _ hq.pos
  have h1 := slotAddr_le (q := q) (Nat.succ_le_of_lt hlt)
  rw [Nat.succ_eq_add_one, slotAddr_succ, ← hq.tail] at h1
  rcases h with h | h
  · exact .inr (h.trans (Nat.le_add_right _ _))
  · exact .inl (h1.trans h)

/-! ## What the operations do -/

/-- The queue `t` with its memory: well-formed, holding `items`, and nothing outside the storage
changed. -/
structure Stored (q : Queue T) (m : Ram) (items : List (List UInt8)) (t : Queue T × Ram) :
    Prop where
  wf : t.1.Wf
  items : t.1.items t.2 = items
  frame : SameFrame q t.1
  outside : ∀ x, q.Apart x 1 → t.2 x = m x

/-- The next slot. -/
theorem next_slot (hq : q.Wf) (hs : q.uxItemSize ≠ 0) (hi : i < q.uxLength) :
    (if q.slotAddr i + q.uxItemSize ≥ q.pcTail then q.pcHead else q.slotAddr i + q.uxItemSize) =
      q.slotAddr ((i + 1) % q.uxLength) := by
  rw [hq.tail, ← slotAddr_succ]
  by_cases h : i + 1 < q.uxLength
  · have hlt := (slotAddr_lt_iff hs).2 h
    rw [if_neg (by omega), Nat.mod_eq_of_lt h]
  · have heq : i + 1 = q.uxLength := by omega
    rw [heq, if_pos (Nat.le_refl _), Nat.mod_self]
    simp [slotAddr]

/-- The slot before. -/
theorem previous_slot (hq : q.Wf) (hs : q.uxItemSize ≠ 0) (hi : i < q.uxLength) :
    (if ((q.slotAddr i : Nat) : Int) - q.uxItemSize < q.pcHead then q.pcTail - q.uxItemSize
      else q.slotAddr i - q.uxItemSize) = q.slotAddr ((i + (q.uxLength - 1)) % q.uxLength) := by
  cases i with
  | zero =>
    have hlast : q.pcTail = q.slotAddr (q.uxLength - 1) + q.uxItemSize := by
      rw [hq.tail, ← slotAddr_succ, Nat.sub_add_cancel hi]
    have h0 : q.slotAddr 0 = q.pcHead := by simp [slotAddr]
    rw [if_pos (by omega), hlast, Nat.zero_add, Nat.mod_eq_of_lt (by omega)]
    omega
  | succ i =>
    have hle : q.pcHead ≤ q.slotAddr i := Nat.le_add_right _ _
    have hmod : (i + 1 + (q.uxLength - 1)) % q.uxLength = i := by
      rw [show i + 1 + (q.uxLength - 1) = i + q.uxLength by omega, Nat.add_mod_right,
        Nat.mod_eq_of_lt (by omega)]
    rw [slotAddr_succ, if_neg (by omega), hmod, Nat.add_sub_cancel]

/-- A slot lies in the storage. -/
theorem outside_slot (hq : q.Wf) {bs : List UInt8} (hb : bs.length = q.uxItemSize)
    (hi : i < q.uxLength) {x : Nat} (hx : q.Apart x 1) : m.write (q.slotAddr i) bs x = m x := by
  have h1 := slotAddr_le (q := q) (Nat.succ_le_of_lt hi)
  rw [Nat.succ_eq_add_one, slotAddr_succ, ← hq.tail] at h1
  have h2 : q.pcHead ≤ q.slotAddr i := Nat.le_add_right _ _
  refine Mem.write_outside m ?_
  rcases hx with h | h
  · exact .inl (by omega)
  · exact .inr (by omega)

theorem SameFrame.slot {q' : Queue T} (h : SameFrame q q') : q'.slot m = q.slot m := by
  funext i
  rw [Queue.slot, Queue.slot, slotAddr, slotAddr, h.head, h.itemSize]

/-- No bytes move in a semaphore. -/
theorem stored_semaphore (hq : q.Wf) (hs : q.uxItemSize = 0) {k : Nat} (hk : k ≤ q.uxLength) :
    Stored q m (List.replicate k []) ({ q with uxMessagesWaiting := k }, m) := by
  have hread : q.readSlot = 0 := by simp [readSlot, hs]
  refine ⟨⟨hq.pos, hq.tail, hk, hq.readLt, hq.read, ?_⟩, ?_, by constructor <;> rfl, fun _ _ => rfl⟩
  · have hw := hq.write
    simpa [slotAddr, hs] using hw
  · exact items_of_size_zero (q := { q with uxMessagesWaiting := k }) hs

theorem stored_back (hq : q.Wf) (hk : q.uxMessagesWaiting < q.uxLength) (pvItem : Nat) :
    Stored q m (q.items m ++ [m.read pvItem q.uxItemSize])
      (prvCopyDataToQueue q m pvItem .queueSendToBack) := by
  by_cases hs : q.uxItemSize = 0
  · have h := stored_semaphore (m := m) hq hs (Nat.succ_le_of_lt hk)
    have hitems := items_of_size_zero (m := m) hs
    simp only [prvCopyDataToQueue, hitems, hs, Mem.read_zero]
    rwa [← List.replicate_succ']
  have hlen : (m.read pvItem q.uxItemSize).length = q.uxItemSize := Mem.length_read _ _ _
  have hfree : (q.readSlot + 1 + q.uxMessagesWaiting) % q.uxLength < q.uxLength :=
    Nat.mod_lt _ hq.pos
  simp only [prvCopyDataToQueue, if_neg hs, if_true, memcpy, hq.write, next_slot hq hs hfree]
  refine ⟨⟨hq.pos, hq.tail, hk, hq.readLt, hq.read, ?_⟩, ?_, by constructor <;> rfl, ?_⟩
  · change q.slotAddr _ = q.slotAddr ((q.readSlot + 1 + (q.uxMessagesWaiting + 1)) % q.uxLength)
    rw [Nat.mod_add_mod]
    rfl
  · refine (window_push_back (f := q.slot m) hk fun j _ hj => ?_).trans ?_
    · exact slot_write hlen hj
    · exact congrArg (fun x => q.items m ++ [x]) (slot_write_self hlen)
  · intro x hx
    exact outside_slot hq hlen hfree hx

/-- A copy to the slot read last, which becomes the first, with `k` items behind it. -/
theorem stored_front (hq : q.Wf) (hs : q.uxItemSize ≠ 0) {k : Nat} (hk : k < q.uxLength)
    (hw : (q.readSlot + 1 + q.uxMessagesWaiting) % q.uxLength = (q.readSlot + 1 + k) % q.uxLength)
    {bs : List UInt8} (hb : bs.length = q.uxItemSize) :
    Stored q m (bs :: window (q.slot m) q.uxLength q.readSlot k)
      ({ q with
          pcReadFrom := q.slotAddr ((q.readSlot + (q.uxLength - 1)) % q.uxLength)
          uxMessagesWaiting := k + 1 }, m.write (q.slotAddr q.readSlot) bs) := by
  have hlt : (q.readSlot + (q.uxLength - 1)) % q.uxLength < q.uxLength := Nat.mod_lt _ hq.pos
  have hread : Queue.readSlot { q with
      pcReadFrom := q.slotAddr ((q.readSlot + (q.uxLength - 1)) % q.uxLength)
      uxMessagesWaiting := k + 1 } = (q.readSlot + (q.uxLength - 1)) % q.uxLength :=
    readSlot_of_read hs rfl
  refine ⟨⟨hq.pos, hq.tail, hk, ?_, ?_, ?_⟩, ?_, by constructor <;> rfl, ?_⟩
  · rw [hread]
    exact hlt
  · rw [hread]
    rfl
  · have hturn : ((q.readSlot + (q.uxLength - 1)) % q.uxLength + 1 + (k + 1)) % q.uxLength
        = (q.readSlot + 1 + q.uxMessagesWaiting) % q.uxLength := by
      rw [hw, Nat.add_assoc, Nat.mod_add_mod,
        show q.readSlot + (q.uxLength - 1) + (1 + (k + 1)) = q.readSlot + 1 + k + q.uxLength by
          have := hq.pos
          omega, Nat.add_mod_right]
    rw [hread]
    exact hq.write.trans (congrArg q.slotAddr hturn.symm)
  · rw [items, hread]
    refine (window_push_front (f := q.slot m) hq.readLt hk fun j _ hj => ?_).trans ?_
    · exact slot_write hb hj
    · exact congrArg (fun x => x :: window (q.slot m) q.uxLength q.readSlot k) (slot_write_self hb)
  · intro x hx
    exact outside_slot hq hb hq.readLt hx

/-- `prvCopyDataToQueue`. -/
theorem stored_copy (hq : q.Wf) {x : CopyPosition} (hroom : HasRoom q x) (hok : OverwriteOk q x)
    (pvItem : Nat) :
    Stored q m (pushItem x (m.read pvItem q.uxItemSize) (q.items m))
      (prvCopyDataToQueue q m pvItem x) := by
  have hlen : (m.read pvItem q.uxItemSize).length = q.uxItemSize := Mem.length_read _ _ _
  cases x with
  | queueSendToBack => exact stored_back hq (hroom.resolve_right (by decide)) pvItem
  | queueSendToFront =>
    have hk : q.uxMessagesWaiting < q.uxLength := hroom.resolve_right (by decide)
    by_cases hs : q.uxItemSize = 0
    · have h := stored_semaphore (m := m) hq hs (Nat.succ_le_of_lt hk)
      have hitems := items_of_size_zero (m := m) hs
      simp only [prvCopyDataToQueue, hitems, hs, Mem.read_zero, pushItem]
      rwa [← List.replicate_succ]
    · have h := stored_front (m := m) hq hs hk rfl hlen
      simp only [prvCopyDataToQueue, if_neg hs, memcpy, hq.read, previous_slot hq hs hq.readLt]
      exact h
  | queueOverwrite =>
    obtain ⟨hone, hs⟩ := hok rfl
    have hw : (q.readSlot + 1 + q.uxMessagesWaiting) % q.uxLength
        = (q.readSlot + 1 + 0) % q.uxLength := by rw [hone, Nat.mod_one, Nat.mod_one]
    have h := stored_front (m := m) hq hs hq.pos hw hlen
    have hk : (if q.uxMessagesWaiting > 0 then q.uxMessagesWaiting - 1
        else q.uxMessagesWaiting) = 0 := by
      have := hq.waiting
      split <;> omega
    simp only [prvCopyDataToQueue, if_neg hs, memcpy, hq.read, previous_slot hq hs hq.readLt,
      true_and, hk]
    exact h

/-- The read pointer moves on to the slot of the oldest item. -/
theorem copyFrom_eq (hq : q.Wf) (hs : q.uxItemSize ≠ 0) (pvBuffer : Nat) :
    prvCopyDataFromQueue q m pvBuffer =
      ({ q with pcReadFrom := q.slotAddr ((q.readSlot + 1) % q.uxLength) },
        m.write pvBuffer (q.slot m ((q.readSlot + 1) % q.uxLength))) := by
  simp only [prvCopyDataFromQueue, if_pos hs, memcpy, hq.read, next_slot hq hs hq.readLt]
  rfl

/-- A receive: the oldest item goes to the buffer. -/
theorem take_spec (hq : q.Wf) (hk : 0 < q.uxMessagesWaiting) {pvBuffer : Nat}
    (hb : q.Apart pvBuffer q.uxItemSize) :
    ∃ item rest, q.items m = item :: rest ∧ (takeItem q m pvBuffer).2 = m.write pvBuffer item ∧
      (takeItem q m pvBuffer).1.Wf ∧
      (takeItem q m pvBuffer).1.items (takeItem q m pvBuffer).2 = rest ∧
      SameFrame q (takeItem q m pvBuffer).1 := by
  obtain ⟨k, hk⟩ : ∃ k, q.uxMessagesWaiting = k + 1 := ⟨q.uxMessagesWaiting - 1, by omega⟩
  have hle : k ≤ q.uxLength := by
    have := hq.waiting
    omega
  by_cases hs : q.uxItemSize = 0
  · have h := stored_semaphore (m := m) hq hs hle
    have heq : takeItem q m pvBuffer = ({ q with uxMessagesWaiting := k }, m) := by
      simp [takeItem, prvCopyDataFromQueue, hs, hk]
    rw [heq]
    refine ⟨[], List.replicate k [], ?_, (Mem.write_nil m _).symm, h.wf, h.items, h.frame⟩
    rw [items_of_size_zero hs, hk, List.replicate_succ]
  · have heq : takeItem q m pvBuffer =
        ({ q with
            pcReadFrom := q.slotAddr ((q.readSlot + 1) % q.uxLength), uxMessagesWaiting := k },
          m.write pvBuffer (q.slot m ((q.readSlot + 1) % q.uxLength))) := by
      simp only [takeItem, copyFrom_eq hq hs, hk, Nat.add_sub_cancel]
    have hread : Queue.readSlot { q with
        pcReadFrom := q.slotAddr ((q.readSlot + 1) % q.uxLength), uxMessagesWaiting := k } =
          (q.readSlot + 1) % q.uxLength := readSlot_of_read hs rfl
    have hwf : Queue.Wf { q with
        pcReadFrom := q.slotAddr ((q.readSlot + 1) % q.uxLength), uxMessagesWaiting := k } := by
      refine ⟨hq.pos, hq.tail, hle, ?_, ?_, ?_⟩
      · rw [hread]
        exact Nat.mod_lt _ hq.pos
      · rw [hread]
        rfl
      · have hturn : ((q.readSlot + 1) % q.uxLength + 1 + k) % q.uxLength
            = (q.readSlot + 1 + q.uxMessagesWaiting) % q.uxLength := by
          rw [Nat.add_assoc, Nat.mod_add_mod, hk, Nat.add_comm 1 k]
        rw [hread]
        exact hq.write.trans (congrArg q.slotAddr hturn.symm)
    rw [heq]
    refine ⟨_, window (q.slot m) q.uxLength ((q.readSlot + 1) % q.uxLength) k, ?_, rfl, hwf, ?_,
      by constructor <;> rfl⟩
    · rw [items, hk, window_pop]
    · rw [items_write hwf (by rwa [slot, Mem.length_read]), items, hread]
      rfl

/-- A peek: the oldest item goes to the buffer and stays. -/
theorem peek_spec (hq : q.Wf) (hk : 0 < q.uxMessagesWaiting) {pvBuffer : Nat}
    (hb : q.Apart pvBuffer q.uxItemSize) :
    ∃ item rest, q.items m = item :: rest ∧ peekItem q m pvBuffer = (q, m.write pvBuffer item) ∧
      q.items (m.write pvBuffer item) = item :: rest := by
  obtain ⟨k, hk⟩ : ∃ k, q.uxMessagesWaiting = k + 1 := ⟨q.uxMessagesWaiting - 1, by omega⟩
  by_cases hs : q.uxItemSize = 0
  · have hitems : q.items m = [] :: List.replicate k [] := by
      rw [items_of_size_zero hs, hk, List.replicate_succ]
    refine ⟨[], List.replicate k [], hitems, ?_, by rwa [Mem.write_nil]⟩
    rw [peekItem, prvCopyDataFromQueue, if_neg (not_not_intro hs), Mem.write_nil]
  · have hitems : q.items m = q.slot m ((q.readSlot + 1) % q.uxLength) ::
        window (q.slot m) q.uxLength ((q.readSlot + 1) % q.uxLength) k := by
      rw [items, hk, window_pop]
    refine ⟨_, _, hitems, ?_, ?_⟩
    · simp only [peekItem, copyFrom_eq hq hs]
    · rw [items_write hq (by rwa [slot, Mem.length_read]), hitems]

theorem reset_wf (h : 0 < q.uxLength) : (xQueueGenericReset q).Wf := by
  by_cases hs : q.uxItemSize = 0
  · constructor <;> simp [xQueueGenericReset, readSlot, slotAddr, hs, h]
  · have hr : (xQueueGenericReset q).readSlot = q.uxLength - 1 := readSlot_of_read hs rfl
    refine ⟨h, rfl, Nat.zero_le _, ?_, ?_, ?_⟩
    · rw [hr]
      exact Nat.sub_lt h Nat.one_pos
    · rw [hr]
      rfl
    · rw [hr]
      have h1 : (q.uxLength - 1 + 1 + 0) % q.uxLength = 0 := by
        rw [Nat.sub_add_cancel h, Nat.mod_self]
      simp [xQueueGenericReset, slotAddr, h1]

end Queue

end HmBoard
