import HmBoard.Effects

/-!
# Who holds a packet

`Station.Custody` ties the ghost hands to what the tasks still have to run: each program uses the
packet in its hand, or `outcomingPacket`, and disposes of it. With that every step of the station
has one of the effects of `Effects.lean` (`step_spec`).
-/

namespace HmBoard

open Lib

variable {F B : Type}

/-! ## The hands -/

structure Station.Custody (s : Station B) : Prop where
  router : match s.router with
    | some code => ∃ hand stage, Disposes hand code ∧ InOrder stage code ∧
        hand.map (·.addr) = s.routerHand.map (·.addr) ∧ (stage ≠ .sent → hand = s.routerHand)
    | none => s.routerHand = none
  csp : match s.csp with
    | .switch _ p | .setType _ p _ _ | .setData _ p _ => s.cspHand = some p
    | .queueSend _ p _ => s.cspHand = some p ∧ s.newEvent.pvData = p
    | .service _ code => ∃ held, Settles held code ∧ held.map (·.addr) = s.cspHand.map (·.addr)
    | _ => s.cspHand = none
  main : match s.main with
    | .handler code =>
      (∃ owed, Offers s.outPtr owed code ∧ ∀ p, owed = some p → s.mainHand = some p) ∧
        (Asks s.mainHand code ∨ code.All (Op.ReadsOnly s.outPtr))
    | _ => s.mainHand = none

variable {crc32 : List UInt8 → BitVec 32} {s s' : Station B} {x : Answers B}

/-- The pointer in a hand, where a program uses it. -/
theorem hand_of_map {hand hand' : Option Ptr} {p : Ptr}
    (h : hand.map (·.addr) = hand'.map (·.addr)) (hp : hand = some p) :
    ∃ q, hand' = some q ∧ q.addr = p.addr := by
  subst hp
  cases hand' with
  | none => simp at h
  | some q => exact ⟨q, rfl, by simpa using h.symm⟩

/-! ## The router -/

variable (crc32 x) in
/-- An access of the router: it touches nothing of the other tasks'. -/
theorem routeExec_spec {o : RouteOp Ptr} {k : o.Res → RouteCode Ptr Unit} {hand : Option Ptr}
    (hr : s.router = some (.op o k)) (hok : routeOk hand o)
    (hh : hand.map (·.addr) = s.routerHand.map (·.addr))
    (hexact : ∀ c p, o = .connEnqueuePacket c p → hand = s.routerHand) :
    ∃ ram pool fifo table hand',
      (s.routeExec crc32 x o).1 = { s with
        ram := ram, pool := pool, fifo := fifo, table := table, routerHand := hand' } ∧
      (routeNext hand o (s.routeExec crc32 x o).2).map (·.addr) = hand'.map (·.addr) ∧
      ((∀ idout p, o ≠ .sendDirect idout p) → hand = s.routerHand →
        routeNext hand o (s.routeExec crc32 x o).2 = hand') ∧
      s.Effect (.route x) ram pool (s.routeExec crc32 x o).1.pending := by
  have hquiet : ∀ table : ConnTable Ptr, (∀ q, table.packets.count q = s.table.packets.count q) →
      s.Effect (.route x) s.ram s.pool { s with table := table }.pending := by
    intro table ht
    refine effect_quiet fun q => ?_
    rw [count_pending, count_pending, ht q]
  cases o with
  | pktId p => exact ⟨_, _, _, _, _, rfl, hh, fun _ h => h, hquiet s.table fun _ => rfl⟩
  | routeIf id => exact ⟨_, _, _, _, _, rfl, hh, fun _ h => h, hquiet s.table fun _ => rfl⟩
  | connFind id => exact ⟨_, _, _, _, _, rfl, hh, fun _ h => h, hquiet s.table fun _ => rfl⟩
  | socket c => exact ⟨_, _, _, _, _, rfl, hh, fun _ h => h, hquiet s.table fun _ => rfl⟩
  | setSocket c =>
    exact ⟨_, _, _, _, _, rfl, hh, fun _ h => h, hquiet _ fun q => count_setConn _ q c rfl⟩
  | clearSocket c =>
    exact ⟨_, _, _, _, _, rfl, hh, fun _ h => h, hquiet _ fun q => count_setConn _ q c rfl⟩
  | enqueueConn c =>
    by_cases hroom : s.table.backlog.length < backlogLength
    · simp only [Station.routeExec, hroom, if_true]
      exact ⟨_, _, _, _, _, rfl, hh, fun _ h => h, hquiet _ fun _ => rfl⟩
    · simp only [Station.routeExec, hroom, if_false]
      exact ⟨_, _, _, _, _, rfl, hh, fun _ h => h, hquiet s.table fun _ => rfl⟩
  | bufferFree p =>
    obtain ⟨h, hh', ha⟩ := hand_of_map hh hok
    refine ⟨_, _, _, _, _, rfl, rfl, fun _ _ => rfl,
      effect_free (mem_pending_router hh') ha fun q => ?_⟩
    rw [count_pending, count_pending, hh']
    simp only [Station.routeExec, Station.freeAll, Option.toList_none, List.count_nil]
    omega
  | crc32Verify p =>
    obtain ⟨h, hh', ha⟩ := hand_of_map hh hok
    refine ⟨_, _, _, _, _, rfl, hh, fun _ h => h, ?_⟩
    show s.Effect (.route x) (cspCrc32Verify crc32 s.ram p.addr).1 s.pool s.pending
    rcases crc32Verify_cases crc32 s.ram p.addr with heq | ⟨hlen, heq⟩
    · rw [heq]
      exact effect_quiet fun _ => le_rfl
    · rw [heq, ← ha]
      rw [← ha] at hlen
      exact .strip h hh' ⟨p, k, hr⟩ hlen
  | connEnqueuePacket c p =>
    have hhand : s.routerHand = some p := (hexact c p rfl).symm.trans hok
    by_cases hroom : (s.table.conns c).rxQueue.length < cspConnQueueLength
    · simp only [Station.routeExec, cspConnEnqueuePacket, hroom, if_true, cspErrNone]
      exact ⟨_, _, _, _, _, rfl, rfl, fun _ _ => rfl, effect_enqueue c _ hhand rfl⟩
    · simp only [Station.routeExec, cspConnEnqueuePacket, hroom, if_false]
      have hneg : cspErrNomem < 0 := by decide
      simp only [hneg, if_true, routeNext]
      exact ⟨_, _, _, _, _, rfl, hh, fun _ h => h, effect_quiet fun _ => le_rfl⟩
  | sendDirect idout p =>
    obtain ⟨h, hh', ha⟩ := hand_of_map hh hok
    let t := cspSendDirect crc32 s.routes x.accepts idout s.ram p.addr
    let s₁ : Station B := { s.rewrite p x.scratch with routerHand := keptAfter p t }
    obtain ⟨pool, fifo, hframe⟩ := loopback_frame s₁ p t
    refine ⟨s₁.ram, pool, fifo, s.table, keptAfter p t, hframe, ?_,
      fun hne => absurd rfl (hne idout p), ?_⟩
    · show (if t.err = cspErrNone then none else hand).map (·.addr) = _
      rw [show hand = some p from hok, keptAfter]
      split <;> rfl
    · have heff : s.Effect (.route x) (s₁.loopback p t).ram (s₁.loopback p t).pool
          (s₁.loopback p t).pending := by
        refine effect_sendDirect s₁ (mem_pending_router hh') ha rfl rfl fun q => ?_
        rw [count_pending, count_pending, hh']
        simp only [s₁, t, Station.rewrite, Option.toList_some]
        omega
      show s.Effect (.route x) _ _ (s₁.loopback p t).pending
      rw [hframe] at heff ⊢
      exact heff
  | connNew idin idout =>
    cases ha : cspConnAllocate s.table with
    | none =>
      have hnew : cspConnNew s.table idin idout = (s.table, none) := by rw [cspConnNew, ha]
      simp only [Station.routeExec, hnew]
      exact ⟨_, _, _, _, _, rfl, hh, fun _ h => h, hquiet s.table fun _ => rfl⟩
    | some c =>
      have hnew : cspConnNew s.table idin idout =
          ({ s.table.set c ⟨true, true, idin, idout, [], false⟩ with lastGiven := c },
            some (c, (s.table.conns c).rxQueue)) := by
        rw [cspConnNew, ha]
      simp only [Station.routeExec, hnew]
      exact ⟨_, _, _, _, _, rfl, hh, fun _ h => h,
        effect_flush c ⟨true, true, idin, idout, [], false⟩ rfl⟩
  | close c =>
    by_cases hopen : (s.table.conns c).isOpen = true
    · simp only [Station.routeExec, cspClose, hopen, if_true]
      exact ⟨_, _, _, _, _, rfl, hh, fun _ h => h, effect_flush c _ rfl⟩
    · simp only [Station.routeExec, cspClose, hopen, Bool.false_eq_true, if_false]
      exact ⟨_, _, _, _, _, rfl, hh, fun _ h => h, hquiet s.table fun _ => rfl⟩

theorem routeStep_spec (h : s.Custody) (hs : s.routeStep crc32 x = some s') :
    s'.Custody ∧ s.Effect (.route x) s'.ram s'.pool s'.pending := by
  obtain ⟨hrouter, hcsp, hmain⟩ := h
  rw [Station.routeStep] at hs
  split at hs
  · next hr =>
    rw [hr] at hrouter
    dsimp only at hrouter
    split at hs
    · cases hs
    · next interface p fifo hfifo =>
      obtain rfl := Option.some.inj hs
      refine ⟨⟨?_, hcsp, hmain⟩, effect_quiet fun q => ?_⟩
      · exact ⟨some p, .unchecked none, disposes_router interface p, inOrder_router interface p,
          rfl, fun _ => rfl⟩
      · rw [count_pending, count_pending, hrouter, hfifo]
        simp only [List.map_cons, List.count_cons, Option.toList_some, Option.toList_none,
          List.count_nil]
        omega
  · next hr =>
    rw [hr] at hrouter
    obtain ⟨hand, stage, hd, -, hh, -⟩ := hrouter
    obtain rfl : hand = none := hd
    obtain rfl := Option.some.inj hs
    refine ⟨⟨?_, hcsp, hmain⟩, effect_quiet fun _ => le_rfl⟩
    exact Option.map_eq_none_iff.1 hh.symm
  · next o k hr =>
    rw [hr] at hrouter
    obtain ⟨hand, stage, hd, ho, hh, hexact⟩ := hrouter
    obtain rfl := Option.some.inj hs
    have henqueue : ∀ c p, o = .connEnqueuePacket c p → hand = s.routerHand := by
      rintro c p rfl
      exact hexact ho.1
    obtain ⟨ram, pool, fifo, table, hand', heq, haddr, hsame, heff⟩ :=
      routeExec_spec crc32 x hr hd.1 hh henqueue
    have hd' := hd.2 (s.routeExec crc32 x o).2
    have ho' := ho.2 (s.routeExec crc32 x o).2
    rw [heq] at heff ⊢
    refine ⟨⟨⟨_, _, hd', ho', haddr, fun hstage => ?_⟩, hcsp, hmain⟩, heff⟩
    have hnot : ∀ idout p, o ≠ .sendDirect idout p := by
      rintro idout p rfl
      exact hstage rfl
    refine hsame hnot (hexact fun hsent => hstage ?_)
    rw [hsent]
    cases o with
    | crc32Verify p => exact nomatch hsent ▸ ho.1
    | _ => rfl

/-! ## `cspTask` -/

variable (crc32 x) in
/-- An access of `csp_service_handler`: it touches nothing of the other tasks'. -/
theorem svcExec_spec (c : ConnId) {o : SvcOp Ptr} {held : Option Ptr} (hok : heldOk held o)
    (hh : held.map (·.addr) = s.cspHand.map (·.addr)) :
    ∃ ram pool routes fifo hand',
      (s.svcExec crc32 x c o).1 = { s with
        ram := ram, pool := pool, routes := routes, fifo := fifo, cspHand := hand' } ∧
      (heldNext held o (s.svcExec crc32 x c o).2).map (·.addr) = hand'.map (·.addr) ∧
      s.Effect (.csp x) ram pool (s.svcExec crc32 x c o).1.pending := by
  have hquiet : s.Effect (.csp x) s.ram s.pool s.pending := effect_quiet fun _ => le_rfl
  cases o with
  | cmpHandler p =>
    obtain ⟨h, hh', ha⟩ := hand_of_map hh hok
    exact ⟨_, _, _, _, _, rfl, congrArg (Option.map (·.addr)) hok,
      effect_rewriteHeld hh' ha (sameOutside_within _ _ _ _) _⟩
  | sysTasklist => exact ⟨_, _, _, _, _, rfl, hh, hquiet⟩
  | sysMemfree => exact ⟨_, _, _, _, _, rfl, hh, hquiet⟩
  | sysReboot => exact ⟨_, _, _, _, _, rfl, hh, hquiet⟩
  | getS => exact ⟨_, _, _, _, _, rfl, hh, hquiet⟩
  | bufferRemaining => exact ⟨_, _, _, _, _, rfl, hh, hquiet⟩
  | dataWord p => exact ⟨_, _, _, _, _, rfl, hh, hquiet⟩
  | bufferGet bufSize =>
    obtain ⟨rfl, rfl⟩ := hok
    have hnone : s.cspHand = none := Option.map_eq_none_iff.1 hh.symm
    simp only [Station.svcExec, cspBufferGet_large s.pool (n := cspRpsMtu) (by decide),
      Option.map_none]
    refine ⟨s.ram, s.pool, s.routes, s.fifo, none, rfl, rfl, effect_quiet fun q => ?_⟩
    rw [count_pending, count_pending, hnone]
  | bufferFree p =>
    obtain ⟨h, hh', ha⟩ := hand_of_map hh hok
    refine ⟨_, _, _, _, _, rfl, rfl, effect_free (mem_pending_csp hh') ha fun q => ?_⟩
    rw [count_pending, count_pending, hh']
    simp only [Station.svcExec, Station.freeAll, Option.toList_none, List.count_nil]
    omega
  | setData p bs =>
    obtain ⟨h, hh', ha⟩ := hand_of_map hh hok.1
    have hlen : bs.length ≤ 196 := hok.2
    have hsize : i2cFrameSize = 265 := rfl
    have hram : Mem.SameOutside p.addr i2cFrameSize s.ram
        (Ram.setLength (s.ram.write (p.addr + 14) bs) p.addr bs.length) := by
      have hdata : Mem.SameOutside p.addr i2cFrameSize s.ram (s.ram.write (p.addr + 14) bs) :=
        Mem.sameOutside_write _ (by omega) (by omega)
      exact hdata.trans (Mem.sameOutside_write _ (by omega) (by rw [length_leBytes]; omega))
    exact ⟨_, _, _, _, _, rfl, congrArg (Option.map (·.addr)) hok.1,
      effect_rewriteHeld hh' ha hram s.routes⟩
  | send p =>
    obtain ⟨h, hh', ha⟩ := hand_of_map hh hok
    by_cases hopen : (s.table.conns c).isOpen = true
    · simp only [Station.svcExec, hopen, if_true]
      let t := cspSendDirect crc32 s.routes x.accepts (s.table.conns c).idout s.ram p.addr
      let s₁ : Station B := { s.rewrite p x.scratch with cspHand := keptAfter p t }
      obtain ⟨pool, fifo, hframe⟩ := loopback_frame s₁ p t
      refine ⟨s₁.ram, pool, s.routes, fifo, keptAfter p t, hframe, ?_, ?_⟩
      · show (if (if t.err = cspErrNone then (1 : Int) else 0) = 0 then held else none).map (·.addr) =
          (keptAfter p t).map (·.addr)
        rw [show held = some p from hok, keptAfter]
        split <;> rfl
      · have heff : s.Effect (.csp x) (s₁.loopback p t).ram (s₁.loopback p t).pool
            (s₁.loopback p t).pending := by
          refine effect_sendDirect s₁ (mem_pending_csp hh') ha rfl rfl fun q => ?_
          rw [count_pending, count_pending, hh']
          simp only [s₁, t, Station.rewrite, Option.toList_some]
          omega
        show s.Effect (.csp x) _ _ (s₁.loopback p t).pending
        rw [hframe] at heff ⊢
        exact heff
    · simp only [Station.svcExec, hopen, Bool.false_eq_true, if_false]
      exact ⟨_, _, _, _, _, rfl, by rw [heldNext, if_pos rfl]; exact hh, hquiet⟩

theorem cspStep_spec (h : s.Custody) (hs : s.cspStep crc32 x = some s') :
    s'.Custody ∧ s.Effect (.csp x) s'.ram s'.pool s'.pending := by
  obtain ⟨hrouter, hcsp, hmain⟩ := h
  cases hpc : s.csp with
  | accept =>
    simp only [Station.cspStep, hpc] at hs hcsp
    cases hb : s.table.backlog with
    | nil => simp [hb] at hs
    | cons c backlog =>
      simp only [hb, Option.some.injEq] at hs
      subst hs
      exact ⟨⟨hrouter, hcsp, hmain⟩, effect_quiet fun _ => le_rfl⟩
  | read c =>
    simp only [Station.cspStep, hpc] at hs hcsp
    split at hs
    · next p rest hopen hqueue =>
      obtain rfl := Option.some.inj hs
      refine ⟨⟨hrouter, rfl, hmain⟩, effect_quiet fun q => ?_⟩
      have hset := count_packets_set s.table q c { s.table.conns c with rxQueue := rest }
      rw [hqueue, List.count_cons] at hset
      rw [count_pending, count_pending, hcsp]
      simp only [Option.toList_some, Option.toList_none, List.count_cons, List.count_nil] at hset ⊢
      omega
    · obtain rfl := Option.some.inj hs
      exact ⟨⟨hrouter, hcsp, hmain⟩, effect_quiet fun _ => le_rfl⟩
  | switch c p =>
    simp only [Station.cspStep, hpc] at hs hcsp
    split at hs
    · obtain rfl := Option.some.inj hs
      exact ⟨⟨hrouter, hcsp, hmain⟩, effect_quiet fun _ => le_rfl⟩
    · obtain rfl := Option.some.inj hs
      refine ⟨⟨hrouter, ⟨some p, settles_service _ p, ?_⟩, hmain⟩, effect_quiet fun _ => le_rfl⟩
      rw [hcsp]
  | setType c p event ticks =>
    simp only [Station.cspStep, hpc] at hs hcsp
    obtain rfl := Option.some.inj hs
    exact ⟨⟨hrouter, hcsp, hmain⟩, effect_quiet fun _ => le_rfl⟩
  | setData c p ticks =>
    simp only [Station.cspStep, hpc] at hs hcsp
    obtain rfl := Option.some.inj hs
    exact ⟨⟨hrouter, ⟨hcsp, rfl⟩, hmain⟩, effect_quiet fun _ => le_rfl⟩
  | queueSend c p ticks =>
    simp only [Station.cspStep, hpc] at hs hcsp
    obtain ⟨hhand, hdata⟩ := hcsp
    split at hs
    · obtain rfl := Option.some.inj hs
      refine ⟨⟨hrouter, rfl, hmain⟩, effect_quiet fun q => ?_⟩
      rw [count_pending, count_pending, hhand]
      simp only [List.map_append, List.count_append, List.map_cons, List.map_nil, hdata,
        Option.toList_some, Option.toList_none, List.count_nil]
      omega
    · obtain rfl := Option.some.inj hs
      refine ⟨⟨hrouter, rfl, hmain⟩, effect_quiet fun q => ?_⟩
      rw [count_pending, count_pending, hhand]
      simp only [Option.toList_some, Option.toList_none, List.count_nil]
      omega
  | service c code =>
    simp only [hpc] at hcsp
    obtain ⟨held, hsettles, hh⟩ := hcsp
    cases code with
    | ret =>
      simp only [Station.cspStep, hpc, Option.some.injEq] at hs
      subst hs
      obtain rfl : held = none := hsettles
      exact ⟨⟨hrouter, Option.map_eq_none_iff.1 hh.symm, hmain⟩, effect_quiet fun _ => le_rfl⟩
    | op o k =>
      simp only [Station.cspStep, hpc, Option.some.injEq] at hs
      subst hs
      obtain ⟨ram, pool, routes, fifo, hand', heq, haddr, heff⟩ :=
        svcExec_spec crc32 x c hsettles.1 hh
      have hk := hsettles.2 (s.svcExec crc32 x c o).2
      rw [heq] at heff ⊢
      exact ⟨⟨hrouter, ⟨_, hk, haddr⟩, hmain⟩, heff⟩
  | close c =>
    simp only [Station.cspStep, hpc] at hs hcsp
    obtain rfl := Option.some.inj hs
    refine ⟨⟨hrouter, hcsp, hmain⟩, ?_⟩
    by_cases hopen : (s.table.conns c).isOpen = true
    · simp only [cspClose, hopen, if_true]
      exact effect_flush c _ rfl
    · simp only [cspClose, hopen, Bool.false_eq_true, if_false]
      exact effect_quiet fun _ => le_rfl

/-! ## `mainTask` -/

variable (crc32 x) in
/-- An access of a handler. -/
theorem mainExec_spec {o : Op B Ptr} {k : o.Res → Fw B Ptr Unit} {owed : Option Ptr}
    (hm : s.main = .handler (.op o k)) (hok : owedOk s.outPtr owed o)
    (hh : ∀ p, owed = some p → s.mainHand = some p) :
    ∃ ram pool fifo hand',
      (s.mainExec crc32 x o).1 = { s with
        ram := ram, pool := pool, fifo := fifo, mainHand := hand' } ∧
      hand' = askNext s.mainHand o (s.mainExec crc32 x o).2 ∧
      (∀ p, owedNext owed o (s.mainExec crc32 x o).2 = some p → hand' = some p) ∧
      s.Effect (.main x) ram pool (s.mainExec crc32 x o).1.pending := by
  have hsize : i2cFrameSize = 265 := rfl
  have hquiet : s.Effect (.main x) s.ram s.pool s.pending := effect_quiet fun _ => le_rfl
  cases o with
  | pktCopy p msg =>
    obtain ⟨rfl, hfits⟩ := hok
    have hlen : msg.length < 72 := hfits
    refine ⟨_, _, _, _, rfl, rfl, hh, effect_reply ?_ (.inl rfl)⟩
    have hcopy : (msg ++ [0]).length ≤ 72 := by
      rw [List.length_append, List.length_singleton]
      omega
    exact Mem.sameOutside_write _ (by omega) (by omega)
  | pktLength p n =>
    obtain rfl : p = s.outPtr := hok
    refine ⟨_, _, _, _, rfl, rfl, hh, effect_reply ?_ (.inl rfl)⟩
    exact Mem.sameOutside_write _ (by omega) (by rw [length_leBytes]; omega)
  | cspSendto prio dest dport srcPort opts p timeout =>
    obtain ⟨rfl, hp⟩ := hok
    let t := cspSendto crc32 s.routes x.accepts prio dest dport srcPort cspONone s.ram p.addr
    let hand' := if s.mainHand = some p then none else s.mainHand
    let s₁ : Station B := { s with ram := t.ram, mainHand := hand' }
    obtain ⟨pool, fifo, hframe⟩ := loopback_frame s₁ p t
    refine ⟨t.ram, pool, fifo, hand', hframe, rfl, nofun, ?_⟩
    have hcase : s.mainHand = some p ∧ hand' = none ∨
        p = s.outPtr ∧ (hand' = s.mainHand ∨ hand' = none) := by
      rcases hp with hp | ⟨-, hp⟩
      · exact .inl ⟨hh p hp, if_pos (hh p hp)⟩
      · refine .inr ⟨hp, ?_⟩
        by_cases h : s.mainHand = some p
        · exact .inr (if_pos h)
        · exact .inl (if_neg h)
    have heff : s.Effect (.main x) (s₁.loopback p t).ram (s₁.loopback p t).pool
        (s₁.loopback p t).pending := effect_mainSend hm hcase
    show s.Effect (.main x) _ _ (s₁.loopback p t).pending
    rw [hframe] at heff ⊢
    exact heff
  | _ => exact ⟨_, _, _, _, rfl, rfl, hh, hquiet⟩

theorem custody_boot (ram : Ram) (newEvent : CspStackEvent Ptr) :
    (Station.boot ram newEvent : Station B).Custody :=
  ⟨rfl, rfl, rfl⟩

theorem custody_receive {a : Nat} {frame : List UInt8} (h : s.Custody)
    (hs : s.receive a frame = some s') :
    s'.Custody ∧ s.Effect (.receive a frame) s'.ram s'.pool s'.pending := by
  obtain ⟨hrouter, hcsp, hmain⟩ := h
  rw [Station.receive] at hs
  split at hs
  · next hok =>
    obtain rfl := Option.some.inj hs
    let p : Ptr := ⟨a, some (framePacket frame)⟩
    by_cases htaken : (cspI2cRx (storeFrame s.ram a frame) a).2 = true
    · simp only [htaken, if_true]
      obtain ⟨fifo, freed, heq, hfreed, hfifo⟩ := newPacket_spec
        { s with ram := (cspI2cRx (storeFrame s.ram a frame) a).1 } .i2c p
      rw [heq]
      refine ⟨⟨hrouter, hcsp, hmain⟩, .receive freed hok.2 hok.1 ?_ ?_ ?_⟩
      · intro q hq
        rw [hfreed q hq]
      · refine subperm_of_count fun q => ?_
        have hf := hfifo q
        rw [List.count_singleton, show p = ⟨a, some (framePacket frame)⟩ from rfl] at hf
        rw [List.count_cons, count_pending, count_pending]
        simp only [Station.freeAll] at hf ⊢
        omega
      · intro hfalse
        rw [htaken] at hfalse
        cases hfalse
    · simp only [htaken, Bool.false_eq_true, if_false]
      refine ⟨⟨hrouter, hcsp, hmain⟩, .receive [p] hok.2 hok.1 ?_ ?_ fun _ => rfl⟩
      · simp [p]
      · exact (List.sublist_cons_self _ _).subperm
  · cases hs

variable [Cell B] [FloatFormat F B] {sincos : Nat → F}

theorem mainStep_spec (h : s.Custody) (hs : s.mainStep crc32 sincos x = some s') :
    s'.Custody ∧ s.Effect (.main x) s'.ram s'.pool s'.pending := by
  obtain ⟨hrouter, hcsp, hmain⟩ := h
  cases hm : s.main with
  | start =>
    simp only [Station.mainStep, hm] at hs hmain
    obtain rfl := Option.some.inj hs
    exact ⟨⟨hrouter, hcsp, hmain⟩, .get hm⟩
  | loop =>
    simp only [Station.mainStep, hm] at hs hmain
    split at hs
    · cases hs
    · next e rest hqueue =>
      obtain rfl := Option.some.inj hs
      refine ⟨⟨hrouter, hcsp, ⟨_, offers_handle sincos s.outPtr e, ?_⟩, ?_⟩,
        effect_quiet fun q => ?_⟩
      · intro p hp
        unfold CspStackEvent.owed at hp
        split at hp
        · exact hp
        · cases hp
      · by_cases hout : e.pvData = s.outPtr
        · have hreads := readsOnly_handle sincos s.outPtr e
          rw [hout] at hreads
          exact .inr hreads
        · exact .inl (asks_handle sincos hout)
      · rw [count_pending, count_pending, hmain, hqueue]
        simp only [List.map_cons, List.count_cons, Option.toList_some, Option.toList_none,
          List.count_nil]
        omega
  | handler code =>
    simp only [hm] at hmain
    obtain ⟨⟨owed, hoffers, hh⟩, hasks⟩ := hmain
    cases code with
    | ret =>
      simp only [Station.mainStep, hm, Option.some.injEq] at hs
      subst hs
      refine ⟨⟨hrouter, hcsp, rfl⟩, effect_quiet fun q => ?_⟩
      rw [count_pending, count_pending]
      simp only [Option.toList_none, List.count_nil]
      omega
    | op o k =>
      simp only [Station.mainStep, hm, Option.some.injEq] at hs
      subst hs
      obtain ⟨ram, pool, fifo, hand', heq, hhand, hnext, heff⟩ :=
        mainExec_spec crc32 x hm hoffers.1 hh
      have hk := hoffers.2 (s.mainExec crc32 x o).2
      have hasks' : Asks hand' (k (s.mainExec crc32 x o).2) ∨
          (k (s.mainExec crc32 x o).2).All (Op.ReadsOnly s.outPtr) := by
        rw [hhand]
        exact hasks.imp (fun h => h.2 _) (fun h => h.2 _)
      rw [heq] at heff ⊢
      exact ⟨⟨hrouter, hcsp, ⟨_, hk, hnext⟩, hasks'⟩, heff⟩

/-- Every step of the station. -/
theorem step_spec {l : StationLabel B} (h : s.Custody) (hs : s.step crc32 sincos l = some s') :
    s'.Custody ∧ s.Effect l s'.ram s'.pool s'.pending := by
  cases l with
  | receive a frame => exact custody_receive h hs
  | other a bs =>
    obtain rfl := Option.some.inj hs
    exact ⟨⟨h.router, h.csp, h.main⟩, .other a bs⟩
  | route x => exact routeStep_spec h hs
  | csp x => exact cspStep_spec h hs
  | main x => exact mainStep_spec h hs

/-! ## What a step leaves alone -/

section

omit [Cell B] [FloatFormat F B]

/-- The packets in the FIFO stay, leave it, or come over the loopback interface. -/
def Station.FifoFrom (s : Station B) (fifo : List (Iface × Ptr)) : Prop :=
  ∀ q ∈ fifo, q ∈ s.fifo ∨ q.2.origin = none

theorem fifoFrom_self (s : Station B) : s.FifoFrom s.fifo := fun _ h => .inl h

theorem loopback_fifo (s : Station B) (p : Ptr) (t : SendResult) :
    s.FifoFrom (s.loopback p t).fifo := by
  unfold Station.loopback
  split
  · unfold Station.newPacket
    split
    · intro q hq
      rcases List.mem_append.1 hq with hq | hq
      · exact .inl hq
      · obtain rfl := List.mem_singleton.1 hq
        exact .inr rfl
    · exact fifoFrom_self s
  · exact fifoFrom_self s

/-- The router's hand keeps what it holds, or lets go of it. -/
def Station.HandFrom (s : Station B) (hand : Option Ptr) : Prop :=
  hand = s.routerHand ∨ ∀ p, hand = some p → p.origin = none

variable (crc32 x) in
theorem routeExec_alone (s : Station B) (o : RouteOp Ptr) :
    (s.routeExec crc32 x o).1.main = s.main ∧ (s.routeExec crc32 x o).1.out = s.out ∧
      s.FifoFrom (s.routeExec crc32 x o).1.fifo ∧
      s.HandFrom (s.routeExec crc32 x o).1.routerHand := by
  have hsame : s.FifoFrom s.fifo ∧ s.HandFrom s.routerHand := ⟨fifoFrom_self s, .inl rfl⟩
  have hnone : s.HandFrom none := .inr nofun
  cases o with
  | sendDirect idout p =>
    let t := cspSendDirect crc32 s.routes x.accepts idout s.ram p.addr
    let s₁ : Station B := { s.rewrite p x.scratch with
      routerHand := if t.err = cspErrNone then none else some ⟨p.addr, none⟩ }
    have hfifo : s.FifoFrom (s₁.loopback p t).fifo := loopback_fifo s₁ p t
    obtain ⟨pool, fifo, hframe⟩ := loopback_frame s₁ p t
    rw [hframe] at hfifo
    show (s₁.loopback p t).main = _ ∧ (s₁.loopback p t).out = _ ∧
      s.FifoFrom (s₁.loopback p t).fifo ∧ s.HandFrom (s₁.loopback p t).routerHand
    rw [hframe]
    refine ⟨rfl, rfl, hfifo, .inr fun q hq => ?_⟩
    have hq : (if t.err = cspErrNone then none else some ⟨p.addr, none⟩) = some q := hq
    split at hq
    · cases hq
    · obtain rfl := Option.some.inj hq
      rfl
  | enqueueConn c =>
    rw [Station.routeExec]
    split
    · exact ⟨rfl, rfl, hsame⟩
    · exact ⟨rfl, rfl, hsame⟩
  | connNew idin idout =>
    rw [Station.routeExec]
    split
    · exact ⟨rfl, rfl, hsame⟩
    · exact ⟨rfl, rfl, hsame⟩
  | connEnqueuePacket c p =>
    refine ⟨rfl, rfl, hsame.1, ?_⟩
    show s.HandFrom (if _ then s.routerHand else none)
    split
    · exact hsame.2
    · exact hnone
  | bufferFree p => exact ⟨rfl, rfl, hsame.1, hnone⟩
  | _ => exact ⟨rfl, rfl, hsame⟩

/-- A frame goes into the FIFO, or not. -/
theorem receive_alone {a : Nat} {frame : List UInt8} (hs : s.receive a frame = some s') :
    (s'.main = s.main ∧ s'.out = s.out ∧ s'.router = s.router ∧ s'.routerHand = s.routerHand) ∧
      ∀ q ∈ s'.fifo, q ∈ s.fifo ∨ q.2 = ⟨a, some (framePacket frame)⟩ := by
  rw [Station.receive] at hs
  split at hs
  · obtain rfl := Option.some.inj hs
    split
    · unfold Station.newPacket
      split
      · refine ⟨⟨rfl, rfl, rfl, rfl⟩, fun q hq => ?_⟩
        rcases List.mem_append.1 hq with hq | hq
        · exact .inl hq
        · obtain rfl := List.mem_singleton.1 hq
          exact .inr rfl
      · exact ⟨⟨rfl, rfl, rfl, rfl⟩, fun q hq => .inl hq⟩
    · exact ⟨⟨rfl, rfl, rfl, rfl⟩, fun q hq => .inl hq⟩
  · cases hs

theorem loopback_alone (s : Station B) (p : Ptr) (t : SendResult) :
    (s.loopback p t).main = s.main ∧ (s.loopback p t).out = s.out ∧
      (s.loopback p t).router = s.router ∧ (s.loopback p t).routerHand = s.routerHand := by
  obtain ⟨pool, fifo, hframe⟩ := loopback_frame s p t
  rw [hframe]
  exact ⟨rfl, rfl, rfl, rfl⟩

variable (crc32 x) in
theorem svcExec_alone (s : Station B) (c : ConnId) (o : SvcOp Ptr) :
    ((s.svcExec crc32 x c o).1.main = s.main ∧ (s.svcExec crc32 x c o).1.out = s.out ∧
      (s.svcExec crc32 x c o).1.router = s.router ∧
      (s.svcExec crc32 x c o).1.routerHand = s.routerHand) ∧
      s.FifoFrom (s.svcExec crc32 x c o).1.fifo := by
  have hsame : s.FifoFrom s.fifo := fifoFrom_self s
  cases o with
  | send p =>
    rw [Station.svcExec]
    split
    · exact ⟨loopback_alone _ _ _, loopback_fifo _ _ _⟩
    · exact ⟨⟨rfl, rfl, rfl, rfl⟩, hsame⟩
  | _ => exact ⟨⟨rfl, rfl, rfl, rfl⟩, hsame⟩

variable (crc32 x) in
theorem mainExec_alone (s : Station B) (o : Op B Ptr) :
    ((s.mainExec crc32 x o).1.main = s.main ∧ (s.mainExec crc32 x o).1.out = s.out ∧
      (s.mainExec crc32 x o).1.router = s.router ∧
      (s.mainExec crc32 x o).1.routerHand = s.routerHand) ∧
      s.FifoFrom (s.mainExec crc32 x o).1.fifo := by
  cases o with
  | cspSendto => exact ⟨loopback_alone _ _ _, loopback_fifo _ _ _⟩
  | _ => exact ⟨⟨rfl, rfl, rfl, rfl⟩, fifoFrom_self s⟩

theorem routeStep_alone (hs : s.routeStep crc32 x = some s') :
    s'.main = s.main ∧ s'.out = s.out ∧ s.FifoFrom s'.fifo := by
  rw [Station.routeStep] at hs
  split at hs
  · split at hs
    · cases hs
    · next interface p fifo hfifo =>
      obtain rfl := Option.some.inj hs
      refine ⟨rfl, rfl, fun q hq => .inl ?_⟩
      rw [hfifo]
      exact List.mem_cons_of_mem _ hq
  · obtain rfl := Option.some.inj hs
    exact ⟨rfl, rfl, fifoFrom_self s⟩
  · next o k hr =>
    obtain rfl := Option.some.inj hs
    obtain ⟨hmain, hout, hfifo, -⟩ := routeExec_alone crc32 x s o
    exact ⟨hmain, hout, hfifo⟩

theorem cspStep_alone (hs : s.cspStep crc32 x = some s') :
    (s'.main = s.main ∧ s'.out = s.out ∧ s'.router = s.router ∧ s'.routerHand = s.routerHand) ∧
      s.FifoFrom s'.fifo := by
  have hsame : s.FifoFrom s.fifo := fifoFrom_self s
  cases hpc : s.csp with
  | accept =>
    simp only [Station.cspStep, hpc] at hs
    split at hs
    · cases hs
    · obtain rfl := Option.some.inj hs
      exact ⟨⟨rfl, rfl, rfl, rfl⟩, hsame⟩
  | read c | switch c p | queueSend c p ticks =>
    simp only [Station.cspStep, hpc] at hs
    split at hs <;>
    · obtain rfl := Option.some.inj hs
      exact ⟨⟨rfl, rfl, rfl, rfl⟩, hsame⟩
  | setType c p event ticks | setData c p ticks | close c =>
    simp only [Station.cspStep, hpc] at hs
    obtain rfl := Option.some.inj hs
    exact ⟨⟨rfl, rfl, rfl, rfl⟩, hsame⟩
  | service c code =>
    cases code with
    | ret =>
      simp only [Station.cspStep, hpc] at hs
      obtain rfl := Option.some.inj hs
      exact ⟨⟨rfl, rfl, rfl, rfl⟩, hsame⟩
    | op o k =>
      simp only [Station.cspStep, hpc] at hs
      obtain rfl := Option.some.inj hs
      exact svcExec_alone crc32 x s c o

end

/-- `mainTask` takes `outcomingPacket`. -/
theorem mainStep_start (hm : s.main = .start) : s.mainStep crc32 sincos x =
    some { s with
      main := .loop
      pool := (cspBufferGet s.pool cspPacketSize).1
      out := (cspBufferGet s.pool cspPacketSize).2 } := by
  rw [Station.mainStep, hm]

theorem mainStep_alone (hm : s.main ≠ .start) (hs : s.mainStep crc32 sincos x = some s') :
    (s'.main ≠ .start ∧ s'.out = s.out ∧ s'.router = s.router ∧ s'.routerHand = s.routerHand) ∧
      s.FifoFrom s'.fifo := by
  have hsame : s.FifoFrom s.fifo := fifoFrom_self s
  rw [Station.mainStep] at hs
  split at hs
  · next h => exact absurd h hm
  · split at hs
    · cases hs
    · obtain rfl := Option.some.inj hs
      exact ⟨⟨nofun, rfl, rfl, rfl⟩, hsame⟩
  · obtain rfl := Option.some.inj hs
    exact ⟨⟨nofun, rfl, rfl, rfl⟩, hsame⟩
  · next o k h =>
    obtain rfl := Option.some.inj hs
    obtain ⟨⟨-, hout, hrouter, hhand⟩, hfifo⟩ := mainExec_alone crc32 x s o
    exact ⟨⟨nofun, hout, hrouter, hhand⟩, hfifo⟩

theorem step_out {l : StationLabel B} (hstart : ∀ x, l = .main x → s.main ≠ .start)
    (hs : s.step crc32 sincos l = some s') :
    s'.out = s.out ∧ (s'.main = .start ↔ s.main = .start) := by
  cases l with
  | receive a frame =>
    obtain ⟨⟨hmain, hout, -⟩, -⟩ := receive_alone hs
    exact ⟨hout, by rw [hmain]⟩
  | other a bs =>
    obtain rfl := Option.some.inj hs
    exact ⟨rfl, Iff.rfl⟩
  | route x =>
    obtain ⟨hmain, hout, -⟩ := routeStep_alone hs
    exact ⟨hout, by rw [hmain]⟩
  | csp x =>
    obtain ⟨⟨hmain, hout, -⟩, -⟩ := cspStep_alone hs
    exact ⟨hout, by rw [hmain]⟩
  | main x =>
    obtain ⟨⟨hmain, hout, -⟩, -⟩ := mainStep_alone (hstart x rfl) hs
    exact ⟨hout, ⟨fun h => absurd h hmain, fun h => absurd h (hstart x rfl)⟩⟩

end HmBoard
