import HmBoard.Csp.Buffer
import HmBoard.Csp.Receive
import HmBoard.Csp.Route
import HmBoard.CspTask
import HmBoard.Lib.Run
import HmBoard.Replies
import HmBoard.TwiSlave

/-!
# The board as a CSP node

The I2C slave interrupt, the router task, `cspTask` and `mainTask`, one access at a time in any
order, over the memory of the packets, the buffer pool, the router's FIFO, the connections and the
event queue, from the point on where `cspTask` has made its socket and the event queue.

A packet pointer is an address. `origin`, which no code can see, is the frame whose reception put
the pointer into the FIFO; a pointer that has come over the loopback interface, or whose packet the
program that holds it has rewritten, has none. `routerHand`, `cspHand` and `mainHand` are ghosts,
too: the packet a task has taken from its queue and is not done with.

| label | |
| --- | --- |
| `receive a frame` | `TWI_CSP_SlaveProcessData` (csp_interface.c:20) with `newFrame` at `a`, and `csp_i2c_rx` |
| `other a bs`      | any other code writes `bs` to `a`: stacks, `CSP_CMP_POKE` |
| `route`           | `csp_task_router` |
| `csp`             | `cspTask` |
| `main`            | `mainTask` |

The environment answers what is not modelled (`Answers`); what it leaves of a packet that
`csp_send_direct` or `csp_cmp_handler` has worked on is `scratch`. The bookkeeping of the pool, the
queues and the variables of the tasks are not in `ram`, so that `other` does not reach them.
-/

namespace HmBoard

open Lib

variable {F B : Type}

structure Ptr where
  addr : Nat
  origin : Option Packet
deriving DecidableEq

/-- `mainTask`. -/
inductive MainPc (B : Type) where
  /-- `outcomingPacket = csp_buffer_get(CSP_PACKET_SIZE)`. -/
  | start
  /-- `xQueueReceive`. -/
  | loop
  | handler (code : Fw B Ptr Unit)

structure Answers (B : Type) where
  /-- `i2c_send` takes the frame. -/
  accepts : Bool
  scratch : Ram
  /-- The arguments of a `CSP_CMP_ROUTE_SET`. -/
  routeSet : Option (Nat × Iface × UInt8)
  svc : (o : SvcOp Ptr) → o.Res
  main : (o : Op B Ptr) → o.Res

inductive StationLabel (B : Type) where
  | receive (a : Nat) (frame : List UInt8)
  | other (a : Nat) (bs : List UInt8)
  | route (x : Answers B)
  | csp (x : Answers B)
  | main (x : Answers B)

structure Station (B : Type) where
  ram : Ram
  pool : BufferPool
  routes : Routes
  fifo : List (Iface × Ptr)
  table : ConnTable Ptr
  /-- What is left of the router's loop body. -/
  router : Option (RouteCode Ptr Unit)
  csp : CspPc ConnId Ptr
  newEvent : CspStackEvent Ptr
  eventQueue : List (CspStackEvent Ptr)
  main : MainPc B
  /-- `outcomingPacket`, once it has been taken. -/
  out : Option Nat
  routerHand : Option Ptr
  cspHand : Option Ptr
  mainHand : Option Ptr

/-- A frame at `a` lies outside the pool. -/
def OffPool (a : Nat) : Prop :=
  a + i2cFrameSize ≤ cspBufferPool ∨ cspBufferPool + cspBufferCount * cspSkbfSize ≤ a

instance (a : Nat) : Decidable (OffPool a) := inferInstanceAs (Decidable (_ ∨ _))

/-- Memory in which `[p, p + n)` has become what it is in `scratch`. -/
def Ram.within (m scratch : Ram) (p n : Nat) : Ram :=
  fun x => if p ≤ x ∧ x < p + n then scratch x else m x

namespace Station

def boot (ram : Ram) (newEvent : CspStackEvent Ptr) : Station B where
  ram := ram
  pool := .init
  routes := boardRoutes
  fifo := []
  table := .init
  router := none
  csp := .accept
  newEvent := newEvent
  eventQueue := []
  main := .start
  out := none
  routerHand := none
  cspHand := none
  mainHand := none

variable (s : Station B)

/-- `csp_new_packet` (csp_route.c:509). -/
def newPacket (interface : Iface) (p : Ptr) : Station B :=
  if s.fifo.length < cspFifoInput then { s with fifo := s.fifo ++ [(interface, p)] }
  else { s with pool := cspBufferFree s.pool p.addr }

/-- `csp_lo_tx` (csp_if_lo.c:37), where the packet goes there. -/
def loopback (p : Ptr) (t : SendResult) : Station B :=
  match t.outlet with
  | some .lo => s.newPacket .lo ⟨p.addr, none⟩
  | _ => s

/-- The packet has been rewritten. -/
def rewrite (p : Ptr) (scratch : Ram) : Station B :=
  { s with ram := Ram.within s.ram scratch p.addr i2cFrameSize }

def freeAll (ps : List Ptr) : Station B :=
  { s with pool := s.pool.freeAll (ps.map (·.addr)) }

/-- The interrupt: `newFrame` lies on a stack, not in the pool. -/
def receive (a : Nat) (frame : List UInt8) : Option (Station B) :=
  if frame.length ≤ twisReceiveBufferSize ∧ OffPool a then
    let t := cspI2cRx (storeFrame s.ram a frame) a
    let s := { s with ram := t.1 }
    let p : Ptr := ⟨a, some (framePacket frame)⟩
    some (if t.2 then s.newPacket .i2c p else s.freeAll [p])
  else none

variable (crc32 : List UInt8 → BitVec 32)

def routeExec (x : Answers B) : (o : RouteOp Ptr) → Station B × o.Res
  | .pktId p => (s, s.ram.id p.addr)
  | .routeIf id => (s, s.routes.routeIf id)
  | .sendDirect idout p =>
    let t := cspSendDirect crc32 s.routes x.accepts idout s.ram p.addr
    let s := { s.rewrite p x.scratch with
      routerHand := if t.err = cspErrNone then none else some ⟨p.addr, none⟩ }
    (s.loopback p t, t.err)
  | .crc32Verify p =>
    let t := cspCrc32Verify crc32 s.ram p.addr
    ({ s with ram := t.1 }, t.2)
  | .connFind id => (s, cspConnFind s.table id)
  | .connNew idin idout =>
    match cspConnNew s.table idin idout with
    | (t, none) => ({ s with table := t }, none)
    | (t, some (c, ps)) => ({ s.freeAll ps with table := t }, some c)
  | .setSocket c => ({ s with table := s.table.set c { s.table.conns c with socket := true } }, ())
  | .connEnqueuePacket c p =>
    let t := cspConnEnqueuePacket s.table c p
    ({ s with table := t.1, routerHand := if t.2 < 0 then s.routerHand else none }, t.2)
  | .socket c => (s, (s.table.conns c).socket)
  | .enqueueConn c =>
    if s.table.backlog.length < backlogLength then
      ({ s with table := { s.table with backlog := s.table.backlog ++ [c] } }, true)
    else (s, false)
  | .clearSocket c =>
    ({ s with table := s.table.set c { s.table.conns c with socket := false } }, ())
  | .close c =>
    let t := cspClose s.table c
    ({ s.freeAll t.2 with table := t.1 }, ())
  | .bufferFree p => ({ s.freeAll [p] with routerHand := none }, ())

def routeStep (x : Answers B) : Option (Station B) :=
  match s.router with
  | none =>
    match s.fifo with
    | [] => none
    | (interface, p) :: fifo =>
      some { s with fifo := fifo, router := some (cspTaskRouter interface p), routerHand := some p }
  | some (.ret _) => some { s with router := none }
  | some (.op o k) =>
    let t := s.routeExec crc32 x o
    some { t.1 with router := some (k t.2) }

/-- What `csp_service_handler` does on connection `c`. -/
def svcExec (x : Answers B) (c : ConnId) : (o : SvcOp Ptr) → Station B × o.Res
  | .cmpHandler p =>
    let routes := match x.routeSet with
      | some (node, ifc, mac) => cspRouteSet s.routes node ifc mac
      | none => s.routes
    ({ s.rewrite p x.scratch with routes := routes, cspHand := some ⟨p.addr, none⟩ },
      x.svc (.cmpHandler p))
  | .bufferGet bufSize =>
    let t := cspBufferGet s.pool bufSize
    ({ s with pool := t.1, cspHand := t.2.map fun a => ⟨a, none⟩ }, t.2.map fun a => ⟨a, none⟩)
  | .bufferFree p => ({ s.freeAll [p] with cspHand := none }, ())
  | .dataWord p => (s, BitVec.ofNat 32 (leNat (s.ram.read (p.addr + 14) 4)))
  | .setData p bs =>
    ({ s with
        ram := Ram.setLength (s.ram.write (p.addr + 14) bs) p.addr bs.length
        cspHand := some ⟨p.addr, none⟩ }, ())
  | .send p =>
    if (s.table.conns c).isOpen then
      let t := cspSendDirect crc32 s.routes x.accepts (s.table.conns c).idout s.ram p.addr
      let s := { s.rewrite p x.scratch with
        cspHand := if t.err = cspErrNone then none else some ⟨p.addr, none⟩ }
      (s.loopback p t, if t.err = cspErrNone then 1 else 0)
    else (s, 0)
  | o => (s, x.svc o)

def cspStep (x : Answers B) : Option (Station B) :=
  match s.csp with
  | .accept =>
    match s.table.backlog with
    | [] => none
    | c :: backlog => some { s with csp := .read c, table := { s.table with backlog := backlog } }
  | .read c =>
    match (s.table.conns c).isOpen, (s.table.conns c).rxQueue with
    | true, p :: rest =>
      some { s with
        csp := .switch c p, cspHand := some p
        table := s.table.set c { s.table.conns c with rxQueue := rest } }
    | _, _ => some { s with csp := .close c }
  | .switch c p =>
    let dport := (s.table.conns c).idin.dport.toNat
    match cspTaskCase dport with
    | some (event, ticks) => some { s with csp := .setType c p event ticks }
    | none => some { s with csp := .service c (cspServiceHandler dport p) }
  | .setType c p event ticks =>
    some { s with
      csp := .setData c p ticks, newEvent := { s.newEvent with eEventType := event } }
  | .setData c p ticks =>
    some { s with csp := .queueSend c p ticks, newEvent := { s.newEvent with pvData := p } }
  | .queueSend c _ _ =>
    if s.eventQueue.length < eventQueueLength then
      some { s with csp := .read c, cspHand := none, eventQueue := s.eventQueue ++ [s.newEvent] }
    else some { s with csp := .read c, cspHand := none }
  | .service c (.ret _) => some { s with csp := .read c }
  | .service c (.op o k) =>
    let t := s.svcExec crc32 x c o
    some { t.1 with csp := .service c (k t.2) }
  | .close c =>
    let t := cspClose s.table c
    some { s.freeAll t.2 with csp := .accept, table := t.1 }

def mainExec (x : Answers B) : (o : Op B Ptr) → Station B × o.Res
  | .pktId p => (s, s.ram.id p.addr)
  | .pktCopy p msg => ({ s with ram := s.ram.write (p.addr + 14) (msg ++ [0]) }, ())
  | .pktLength p n => ({ s with ram := s.ram.setLength p.addr n }, ())
  | .cspSendto prio dest dport srcPort opts p _ =>
    let t := cspSendto crc32 s.routes x.accepts prio dest dport srcPort opts s.ram p.addr
    let s := { s with
      ram := t.ram, mainHand := if s.mainHand = some p then none else s.mainHand }
    (s.loopback p t, t.err)
  | o => (s, x.main o)

/-- `outcomingPacket` as the handlers see it. -/
def outPtr : Ptr := ⟨s.out.getD 0, none⟩

variable [Cell B] [FloatFormat F B]

def mainStep (sincos : Nat → F) (x : Answers B) : Option (Station B) :=
  match s.main with
  | .start =>
    let t := cspBufferGet s.pool cspPacketSize
    some { s with main := .loop, pool := t.1, out := t.2 }
  | .loop =>
    match s.eventQueue with
    | [] => none
    | e :: rest =>
      some { s with
        main := .handler (handle sincos s.outPtr e), eventQueue := rest, mainHand := some e.pvData }
  | .handler (.ret _) => some { s with main := .loop, mainHand := none }
  | .handler (.op o k) =>
    let t := s.mainExec crc32 x o
    some { t.1 with main := .handler (k t.2) }

def step (sincos : Nat → F) : StationLabel B → Option (Station B)
  | .receive a frame => s.receive a frame
  | .other a bs => some { s with ram := s.ram.write a bs }
  | .route x => s.routeStep crc32 x
  | .csp x => s.cspStep crc32 x
  | .main x => s.mainStep crc32 sincos x

end Station

/-- The pointers in the FIFO, the receive queues and the event queue, and in the hands of tasks. -/
def Station.pending (s : Station B) : List Ptr :=
  s.fifo.map (·.2) ++ s.routerHand.toList ++ s.table.packets ++ s.cspHand.toList ++
    s.eventQueue.map (·.pvData) ++ s.mainHand.toList

end HmBoard
