import HmBoard.Board
import HmBoard.Custody
import HmBoard.ExactFloat

/-!
# `outcomingPacket`

`mainTask` takes one buffer of the pool and builds every reply in it. A reply that leaves over I2C is
copied; one that goes to the loopback interface (`Station.LoopsReply`) puts the buffer into the FIFO
of the router, and `mainTask` writes to it all the same. With the routes of the board these are the
replies to any node but the OBC (`routeIf_lo`). Without them the buffer is `mainTask`'s own
(`reply_owned`): nothing else is ever allocated, and what is pending lies outside the pool.
-/

namespace HmBoard

open Lib

variable {F B : Type}

namespace Station

variable (s : Station B)

/-- What the next access of `mainTask` writes to. -/
def writes : Option Nat :=
  match s.main with
  | .handler (.op (.pktCopy p _) _) | .handler (.op (.pktLength p _) _)
  | .handler (.op (.cspSendto _ _ _ _ _ p _) _) => some p.addr
  | _ => none

/-- The pointers in the FIFO, the receive queues and the event queue. -/
def queued : List Ptr := s.fifo.map (·.2) ++ s.table.packets ++ s.eventQueue.map (·.pvData)

/-- `outcomingPacket` is allocated to `mainTask`, and pending nowhere. -/
def ReplyOwned : Prop := ∃ p, s.out = some p ∧ s.pool.Owned p ∧ p ∉ s.queued.map (·.addr)

/-- It is whenever `mainTask` is about to write to it. -/
def ReplySafe : Prop := s.writes = some s.outPtr.addr → s.ReplyOwned

end Station

/-! ## Pointers outside the pool -/

/-- The first buffer of the pool. -/
def replyBuffer : Nat := cspBufferPool + 4

theorem OffPool.not_mem {a : Nat} (h : OffPool a) : a ∉ cspBuffers := by
  have hsize : i2cFrameSize = 265 := rfl
  simp only [OffPool, cspBufferPool, cspBufferCount, cspSkbfSize, cspBufferSize] at h
  simp only [cspBuffers, cspBufferPool, cspBufferCount, cspSkbfSize, cspBufferSize, List.mem_map,
    List.mem_range, not_exists, not_and]
  omega

theorem freeAll_offPool (b : BufferPool) : ∀ {ps : List Nat}, (∀ p ∈ ps, OffPool p) →
    b.freeAll ps = b
  | [], _ => rfl
  | p :: ps, h => by
    rw [List.forall_mem_cons] at h
    have hfree : cspBufferFree b p = b := cspBufferFree_of_not_mem b h.1.not_mem
    rw [BufferPool.freeAll, List.foldl_cons, hfree]
    exact freeAll_offPool b h.2

variable {s s' : Station B} {l : StationLabel B}

/-- Where nothing pending is in the pool, a step that loops no reply keeps it so. -/
theorem effect_offPool {ram : Ram} {pool : BufferPool} {pend : List Ptr}
    (h : s.Effect l ram pool pend) (hoff : ∀ p ∈ s.pending, OffPool p.addr)
    (hloop : ¬ s.LoopsReply l) (hstart : ∀ x, l = .main x → s.main ≠ .start) :
    pool = s.pool ∧ ∀ p ∈ pend, OffPool p.addr := by
  have hfreed : ∀ freed : List Ptr, (∀ q ∈ freed, OffPool q.addr) →
      s.pool.freeAll (freed.map (·.addr)) = s.pool := by
    intro freed hq
    exact freeAll_offPool _ (by simpa using hq)
  cases h with
  | move freed hsub hpend =>
    exact ⟨hfreed freed fun q hq => hoff q (hsub hq), fun p hp => hoff p (hpend.subset hp)⟩
  | rewrite p freed hp haddr _ hpend =>
    refine ⟨hfreed freed fun q hq => haddr q hq ▸ hoff p hp, fun q hq => ?_⟩
    rcases List.mem_cons.1 (hpend.subset hq) with rfl | hq
    · exact hoff p hp
    · exact hoff q (List.mem_of_mem_erase hq)
  | strip => exact ⟨rfl, hoff⟩
  | receive freed ha _ haddr hpend _ =>
    refine ⟨hfreed freed fun q hq => haddr q hq ▸ ha, fun q hq => ?_⟩
    rcases List.mem_cons.1 (hpend.subset hq) with rfl | hq
    · exact ha
    · exact hoff q hq
  | other => exact ⟨rfl, hoff⟩
  | reply _ hpend => exact ⟨rfl, fun p hp => hoff p (hpend.subset hp)⟩
  | loop _ hl => exact absurd hl hloop
  | get hm => exact absurd hm (hstart _ rfl)

/-! ## The invariant -/

/-- The pool is as `csp_buffer_init` made it, or but for `outcomingPacket`. -/
structure Station.ReplyKept (s : Station B) : Prop where
  custody : s.Custody
  offPool : ∀ p ∈ s.pending, OffPool p.addr
  start : s.main = .start → s.pool = .init
  taken : s.main ≠ .start →
    s.pool = (cspBufferGet .init cspPacketSize).1 ∧ s.out = some replyBuffer

theorem replyKept_boot (ram : Ram) (newEvent : CspStackEvent Ptr) :
    (Station.boot ram newEvent : Station B).ReplyKept where
  custody := custody_boot ram newEvent
  offPool := by
    intro p hp
    simp [Station.pending, Station.boot, ConnTable.packets, ConnTable.init] at hp
  start _ := rfl
  taken h := absurd rfl h

theorem replySafe_of_kept (h : s.ReplyKept) : s.ReplySafe := by
  intro hw
  have hm : s.main ≠ .start := by
    intro hm
    simp [Station.writes, hm] at hw
  obtain ⟨hpool, hout⟩ := h.taken hm
  refine ⟨replyBuffer, hout, ?_, ?_⟩
  · rw [hpool]
    exact ⟨rfl, by decide⟩
  · intro hmem
    obtain ⟨p, hp, haddr⟩ := List.mem_map.1 hmem
    have hpend : p ∈ s.pending := by
      simp only [Station.queued, List.mem_append] at hp
      simp only [Station.pending, List.mem_append]
      tauto
    have hoff := h.offPool p hpend
    rw [haddr] at hoff
    exact absurd hoff (by decide)

variable [Cell B] [FloatFormat F B] {crc32 : List UInt8 → BitVec 32} {sincos : Nat → F}

theorem replyKept_step (h : s.ReplyKept) (hloop : ¬ s.LoopsReply l)
    (hs : s.step crc32 sincos l = some s') : s'.ReplyKept := by
  obtain ⟨hcustody, heffect⟩ := step_spec h.custody hs
  by_cases hl : ∃ x, l = .main x ∧ s.main = .start
  · obtain ⟨x, rfl, hm⟩ := hl
    have hs : s.mainStep crc32 sincos x = some s' := hs
    rw [mainStep_start hm] at hs
    obtain rfl := Option.some.inj hs
    refine ⟨hcustody, h.offPool, nofun, fun _ => ?_⟩
    rw [h.start hm]
    exact ⟨rfl, rfl⟩
  · have hstart : ∀ x, l = .main x → s.main ≠ .start := fun x hx hm => hl ⟨x, hx, hm⟩
    obtain ⟨hout, hmain⟩ := step_out hstart hs
    obtain ⟨hpool, hoff⟩ := effect_offPool heffect h.offPool hloop hstart
    refine ⟨hcustody, hoff, fun hm => ?_, fun hm => ?_⟩
    · rw [hpool, h.start (hmain.1 hm)]
    · rw [hpool, hout]
      exact h.taken fun hm' => hm (hmain.2 hm')

/-- **The reply buffer.** In every run in which no reply goes to the loopback interface, whatever is
received and in whatever order the tasks and the interrupt run: whenever `mainTask` writes to
`outcomingPacket`, the buffer is allocated to it alone and pending nowhere. -/
theorem reply_owned (crc32 : List UInt8 → BitVec 32) (sincos : Nat → F) (ram : Ram)
    (newEvent : CspStackEvent Ptr) (ls : List (StationLabel B))
    (h : Avoids (fun s => Station.step s crc32 sincos) Station.LoopsReply (.boot ram newEvent) ls) :
    Along (fun s => Station.step s crc32 sincos) Station.ReplySafe (.boot ram newEvent) ls :=
  Along.of_avoids (I := Station.ReplyKept) (fun _ => replySafe_of_kept)
    (fun _ _ _ hk hl hs => replyKept_step hk hl hs) ls (replyKept_boot ram newEvent) h

/-! ## Two requests -/

section

omit [Cell B] [FloatFormat F B]

instance (s : Station B) : ∀ l, Decidable (s.LoopsReply l)
  | .main _ => inferInstanceAs (Decidable (∃ t, t ∈ s.sends ∧ t.2 = s.outPtr ∧
      (s.routes.routeIf (BitVec.ofNat 5 t.1).toNat).map (·.interface) = some .lo))
  | .receive .. | .other .. | .route _ | .csp _ => isFalse id

end

def quietSvc (o : SvcOp Ptr) : o.Res := by
  cases o <;> first
    | exact () | exact ([] : List UInt8) | exact (0 : BitVec 32) | exact (0 : Int)
    | exact (none : Option Ptr)

def quietAnswers : Answers ExactCell := ⟨true, fun _ => 0, none, quietSvc, quiet 0⟩

/-- A request for the temperature from node `src`. -/
def requestFrame (src : Nat) : List UInt8 :=
  CspId.wire { pri := 2, src := .ofNat 5 src, dst := 6, dport := 16, sport := 20, flags := 0 }

/-- Two requests are received, and `mainTask` is about to copy the second reply. -/
def requestRun (src : Nat) : List (StationLabel ExactCell) :=
  [.receive 0x3000 (requestFrame src), .receive 0x4000 (requestFrame src)] ++
    List.replicate 28 (.route quietAnswers) ++ List.replicate 11 (.csp quietAnswers) ++
    List.replicate 13 (.main quietAnswers)

theorem reply_owned_obc :
    Along (fun s => Station.step s (fun _ => 0) exactSincos) Station.ReplySafe
      (.boot (fun _ => 0) ⟨.other, ⟨0, none⟩⟩) (requestRun cspObcAddress) :=
  reply_owned (fun _ => 0) exactSincos (fun _ => 0) ⟨.other, ⟨0, none⟩⟩ (requestRun cspObcAddress)
    (by decide +kernel)

/-- The first reply, to node 2, is still in the router's FIFO. -/
theorem reply_overwritten :
    ¬ ∀ ls : List (StationLabel ExactCell),
      Along (fun s => Station.step s (fun _ => 0) exactSincos) Station.ReplySafe
        (.boot (fun _ => 0) ⟨.other, ⟨0, none⟩⟩) ls := by
  intro h
  obtain ⟨s, hrun, hs⟩ : ∃ s, (requestRun 2).foldlM
      (fun s => Station.step s (fun _ => 0) exactSincos)
      (.boot (fun _ => 0) ⟨.other, ⟨0, none⟩⟩) = some s ∧
      (s.writes, s.out, s.queued.map (·.addr)) =
        (some replyBuffer, some replyBuffer, [replyBuffer]) :=
    Option.map_eq_some_iff.1 (by decide +kernel)
  simp only [Prod.mk.injEq] at hs
  obtain ⟨hw, hout, hqueued⟩ := hs
  have hptr : s.outPtr.addr = replyBuffer := by rw [Station.outPtr, hout]; rfl
  obtain ⟨p, hp, -, hnot⟩ := (h (requestRun 2)).last hrun (hw.trans (congrArg some hptr.symm))
  obtain rfl : replyBuffer = p := Option.some.inj (hout.symm.trans hp)
  rw [hqueued] at hnot
  exact hnot (List.mem_singleton_self _)

end HmBoard
