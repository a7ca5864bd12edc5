import HmBoard.Config
import HmBoard.Csp.Header
import Mathlib.Data.List.FinRange

/-!
# Connections (`csp_conn.c`) and the socket

| here | there |
| --- | --- |
| `Conn`, `ConnTable`   | `csp_conn_t`, `arr_conn` with `csp_conn_last_given`, and the socket's queue |
| `cspConnFind`         | `csp_conn_find` (csp_conn.c:159) with `CSP_ID_CONN_MASK` |
| `cspConnAllocate`     | `csp_conn_allocate` (csp_conn.c:201) |
| `cspConnNew`          | `csp_conn_new` (csp_conn.c:240) |
| `cspClose`            | `csp_close` (csp_conn.c:261) |
| `cspConnEnqueuePacket` | `csp_conn_enqueue_packet` (csp_conn.c:92) |

`csp_conn_flush_rx_queue` frees the packets it finds: `cspConnNew` and `cspClose` return them. The
one socket of the board, made by `csp_socket(CSP_SO_NONE)`, is connection 1, of type `CONN_SERVER`.
-/

namespace HmBoard

variable {P : Type}

structure Conn (P : Type) where
  isOpen : Bool
  /-- `CONN_CLIENT`; else `CONN_SERVER`. -/
  client : Bool
  idin : CspId
  idout : CspId
  rxQueue : List P
  /-- `conn->socket != NULL`: the socket has not seen the connection yet. -/
  socket : Bool

/-- A connection: its place in `arr_conn`. -/
abbrev ConnId := Fin cspConnMax

instance : NeZero cspConnMax := ⟨by decide⟩

structure ConnTable (P : Type) where
  conns : ConnId → Conn P
  lastGiven : ConnId
  /-- The queue of the socket. -/
  backlog : List ConnId

/-- `csp_conn_init`, and `csp_socket` from `cspTask`. -/
def ConnTable.init : ConnTable P where
  conns i := ⟨i == 1, i != 1, default, default, [], false⟩
  lastGiven := 1
  backlog := []

variable (t : ConnTable P)

def ConnTable.set (c : ConnId) (conn : Conn P) : ConnTable P :=
  { t with conns := fun i => if i = c then conn else t.conns i }

def cspConnFind (id : BitVec 32) : Option ConnId :=
  (List.finRange cspConnMax).find? fun i =>
    (t.conns i).isOpen && (t.conns i).client &&
      decide ((t.conns i).idin.ext &&& CspId.connMask = id &&& CspId.connMask)

/-- The first closed connection after the last one given; indices wrap around. -/
def cspConnAllocate : Option ConnId :=
  ((List.finRange cspConnMax).map fun j => t.lastGiven + 1 + j).find? fun i => !(t.conns i).isOpen

/-- The connection made, if any, and the packets left in its queue. -/
def cspConnNew (idin idout : CspId) : ConnTable P × Option (ConnId × List P) :=
  match cspConnAllocate t with
  | none => (t, none)
  | some c =>
    ({ t.set c ⟨true, true, idin, idout, [], false⟩ with lastGiven := c },
      some (c, (t.conns c).rxQueue))

def cspClose (c : ConnId) : ConnTable P × List P :=
  if (t.conns c).isOpen then
    (t.set c { t.conns c with isOpen := false, rxQueue := [] }, (t.conns c).rxQueue)
  else (t, [])

def cspConnEnqueuePacket (c : ConnId) (p : P) : ConnTable P × Int :=
  if (t.conns c).rxQueue.length < cspConnQueueLength then
    (t.set c { t.conns c with rxQueue := (t.conns c).rxQueue ++ [p] }, cspErrNone)
  else (t, cspErrNomem)

/-! ## The packets in the receive queues -/

def ConnTable.packets : List P := (List.finRange cspConnMax).flatMap fun c => (t.conns c).rxQueue

variable [DecidableEq P] (q : P)

/-- Replacing a connection exchanges the packets of its queue. -/
theorem count_packets_set (c : ConnId) (conn : Conn P) :
    (t.set c conn).packets.count q + (t.conns c).rxQueue.count q =
      t.packets.count q + conn.rxQueue.count q := by
  have hsplit : ∀ t : ConnTable P, t.packets.count q = (t.conns c).rxQueue.count q +
      (((List.finRange cspConnMax).erase c).flatMap fun i => (t.conns i).rxQueue).count q := by
    intro t
    have hperm := List.perm_cons_erase (List.mem_finRange c)
    rw [ConnTable.packets, (hperm.flatMap_right _).count_eq q, List.flatMap_cons, List.count_append]
  have hrest : ((List.finRange cspConnMax).erase c).flatMap (fun i => ((t.set c conn).conns i).rxQueue)
      = ((List.finRange cspConnMax).erase c).flatMap fun i => (t.conns i).rxQueue := by
    refine List.flatMap_congr fun i hi => ?_
    have hne : i ≠ c := ((List.nodup_finRange cspConnMax).mem_erase_iff.1 hi).1
    simp [ConnTable.set, hne]
  have hself : ((t.set c conn).conns c).rxQueue = conn.rxQueue := by simp [ConnTable.set]
  rw [hsplit (t.set c conn), hsplit t, hrest, hself]
  omega

theorem count_setConn (c : ConnId) {conn : Conn P}
    (h : conn.rxQueue = (t.conns c).rxQueue) : (t.set c conn).packets.count q = t.packets.count q := by
  have hset := count_packets_set t q c conn
  rw [h] at hset
  omega

end HmBoard
