import HmBoard.Lib.Links
import Mathlib.Data.Fintype.Card

/-!
# Lists (`list.c`, `list.h`)

Items and lists by their names; a list has its end marker among its nodes.

| here | there |
| --- | --- |
| `vListInitialise`, `vListInitialiseItem` | list.c:79, 104 |
| `vListInsertEnd`              | list.c:116 |
| `vListInsert`, `insertPosition` | list.c:141, its loop 189 |
| `uxListRemove`                | list.c:208 |
| `listGetOwnerOfNextEntry`, `listGetOwnerOfHeadEntry` | list.h:318, 348 |

`Walk` is what a list is for: items in order, of which a first part has been passed by `pxIndex`.
`Represents` says that the pointers show these walks.
-/

namespace HmBoard

open Lib Function

/-- A `ListItem_t *`: an item, or the `xListEnd` of a list. -/
inductive ListItem (L I : Type) where
  | xListEnd (l : L)
  | item (i : I)
deriving DecidableEq, Repr

def portMaxDelayValue : UInt16 := 0xffff

structure Lists (L I O : Type) where
  xItemValue : ListItem L I → UInt16
  pxNext : ListItem L I → ListItem L I
  pxPrevious : ListItem L I → ListItem L I
  pvOwner : I → O
  pvContainer : I → Option L
  uxNumberOfItems : L → UInt8
  pxIndex : L → ListItem L I

namespace Lists

variable {L I O : Type} [DecidableEq L] [DecidableEq I] (s : Lists L I O)

def vListInitialise (l : L) : Lists L I O :=
  { s with
    pxIndex := update s.pxIndex l (.xListEnd l)
    xItemValue := update s.xItemValue (.xListEnd l) portMaxDelayValue
    pxNext := update s.pxNext (.xListEnd l) (.xListEnd l)
    pxPrevious := update s.pxPrevious (.xListEnd l) (.xListEnd l)
    uxNumberOfItems := update s.uxNumberOfItems l 0 }

def vListInitialiseItem (i : I) : Lists L I O :=
  { s with pvContainer := update s.pvContainer i none }

/-- "Remember which list the item is in", and one more item in it. -/
def contain (l : L) (i : I) : Lists L I O :=
  { s with
    pvContainer := update s.pvContainer i (some l)
    uxNumberOfItems := update s.uxNumberOfItems l (s.uxNumberOfItems l + 1) }

def vListInsertEnd (l : L) (i : I) : Lists L I O :=
  let pxIndex := s.pxIndex l
  let s := { s with pxNext := update s.pxNext (.item i) pxIndex }
  let s := { s with pxPrevious := update s.pxPrevious (.item i) (s.pxPrevious pxIndex) }
  let s := { s with pxNext := update s.pxNext (s.pxPrevious pxIndex) (.item i) }
  let s := { s with pxPrevious := update s.pxPrevious pxIndex (.item i) }
  s.contain l i

/-- The loop of `vListInsert`; `none` when it has not ended after `n` rounds. -/
def insertPosition (xValueOfInsertion : UInt16) : Nat → ListItem L I → Option (ListItem L I)
  | 0, _ => none
  | n + 1, pxIterator =>
    if s.xItemValue (s.pxNext pxIterator) ≤ xValueOfInsertion then
      insertPosition xValueOfInsertion n (s.pxNext pxIterator)
    else some pxIterator

def insertAfter (pxIterator : ListItem L I) (l : L) (i : I) : Lists L I O :=
  let s := { s with pxNext := update s.pxNext (.item i) (s.pxNext pxIterator) }
  let s := { s with pxPrevious := update s.pxPrevious (s.pxNext (.item i)) (.item i) }
  let s := { s with pxPrevious := update s.pxPrevious (.item i) pxIterator }
  let s := { s with pxNext := update s.pxNext pxIterator (.item i) }
  s.contain l i

def vListInsert (fuel : Nat) (l : L) (i : I) : Option (Lists L I O) :=
  let xValueOfInsertion := s.xItemValue (.item i)
  let pxIterator :=
    if xValueOfInsertion = portMaxDelayValue then some (s.pxPrevious (.xListEnd l))
    else s.insertPosition xValueOfInsertion fuel (.xListEnd l)
  pxIterator.map fun pxIterator => s.insertAfter pxIterator l i

/-- `none` where the item is in no list: the container is read through `NULL`. -/
def uxListRemove (i : I) : Option (Lists L I O × UInt8) :=
  match s.pvContainer i with
  | none => none
  | some l =>
    let s := { s with
      pxPrevious := update s.pxPrevious (s.pxNext (.item i)) (s.pxPrevious (.item i)) }
    let s := { s with pxNext := update s.pxNext (s.pxPrevious (.item i)) (s.pxNext (.item i)) }
    let s := { s with
      pxIndex :=
        if s.pxIndex l = ListItem.item i then update s.pxIndex l (s.pxPrevious (.item i))
        else s.pxIndex }
    let s := { s with
      pvContainer := update s.pvContainer i none
      uxNumberOfItems := update s.uxNumberOfItems l (s.uxNumberOfItems l - 1) }
    some (s, s.uxNumberOfItems l)

/-- `none` where the list is empty: an end marker has no owner. -/
def listGetOwnerOfNextEntry (l : L) : Option (Lists L I O × O) :=
  let s := { s with pxIndex := update s.pxIndex l (s.pxNext (s.pxIndex l)) }
  let s := { s with
    pxIndex :=
      if s.pxIndex l = ListItem.xListEnd l then update s.pxIndex l (s.pxNext (s.pxIndex l))
      else s.pxIndex }
  match s.pxIndex l with
  | .xListEnd _ => none
  | .item i => some (s, s.pvOwner i)

/-- `none` where the list is empty. -/
def listGetOwnerOfHeadEntry (l : L) : Option O :=
  match s.pxNext (.xListEnd l) with
  | .xListEnd _ => none
  | .item i => some (s.pvOwner i)

def listSetListItemValue (i : I) (xValue : UInt16) : Lists L I O :=
  { s with xItemValue := update s.xItemValue (.item i) xValue }

def listSetListItemOwner (i : I) (pxOwner : O) : Lists L I O :=
  { s with pvOwner := update s.pvOwner i pxOwner }

def listListIsEmpty (l : L) : Bool := s.uxNumberOfItems l = 0

def listIsContainedWithin (l : L) (i : I) : Bool := s.pvContainer i = some l

end Lists

/-! ## The calls -/

inductive ListCall (L I O : Type) where
  | initialise (l : L)
  | initialiseItem (i : I)
  | insertEnd (l : L) (i : I)
  | insert (l : L) (i : I)
  /-- `l` is the list the item is in. -/
  | remove (l : L) (i : I)
  | next (l : L)
  | setValue (i : I) (v : UInt16)
  | setOwner (i : I) (o : O)
deriving DecidableEq, Repr

/-- What a call returns. -/
inductive ListResult (O : Type) where
  | nothing
  | number (n : UInt8)
  | owner (o : O)
deriving DecidableEq, Repr

variable {L I O : Type} [DecidableEq L] [DecidableEq I]

/-- `fuel` bounds the loop of `vListInsert`. -/
def Lists.call (fuel : Nat) (s : Lists L I O) :
    ListCall L I O → Option (Lists L I O × ListResult O)
  | .initialise l => some (s.vListInitialise l, .nothing)
  | .initialiseItem i => some (s.vListInitialiseItem i, .nothing)
  | .insertEnd l i => some (s.vListInsertEnd l i, .nothing)
  | .insert l i => (s.vListInsert fuel l i).map fun s => (s, .nothing)
  | .remove _ i => (s.uxListRemove i).map fun r => (r.1, .number r.2)
  | .next l => (s.listGetOwnerOfNextEntry l).map fun r => (r.1, .owner r.2)
  | .setValue i v => some (s.listSetListItemValue i v, .nothing)
  | .setOwner i o => some (s.listSetListItemOwner i o, .nothing)

/-! ## What a list is for -/

/-- The items in order. The last of those passed is the one `pxIndex` stands at; where none has
been passed it stands at the end marker. -/
structure Walk (I : Type) where
  passed : List I
  ahead : List I
deriving DecidableEq, Repr

namespace Walk

variable (w : Walk I)

def items : List I := w.passed ++ w.ahead

/-- In front of the item that had its turn last; at the end where none had. -/
def insertEnd (i : I) : Walk I :=
  match w.passed.getLast? with
  | none => ⟨[], w.ahead ++ [i]⟩
  | some k => ⟨w.passed.dropLast ++ [i, k], w.ahead⟩

/-- Behind the first items for which `le` holds. -/
def insertBehind (le : I → Bool) (i : I) (xs : List I) : List I :=
  xs.takeWhile le ++ i :: xs.dropWhile le

def insert (le : I → Bool) (i : I) : Walk I :=
  if w.passed.all le then ⟨w.passed, insertBehind le i w.ahead⟩
  else ⟨insertBehind le i w.passed, w.ahead⟩

def remove (i : I) : Walk I := ⟨w.passed.erase i, w.ahead.erase i⟩

/-- The next item has its turn, the first one behind the last. -/
def next : Option (Walk I × I) :=
  match w.ahead, w.passed with
  | i :: xs, ps => some (⟨ps ++ [i], xs⟩, i)
  | [], i :: xs => some (⟨[i], xs⟩, i)
  | [], [] => none

end Walk

structure Walks (L I O : Type) where
  walk : L → Walk I
  value : I → UInt16
  owner : I → O

namespace Walks

variable (a : Walks L I O)

/-- All lists empty. -/
def start (value : I → UInt16) (owner : I → O) : Walks L I O := ⟨fun _ => ⟨[], []⟩, value, owner⟩

def InNoList (i : I) : Prop := ∀ l, i ∉ (a.walk l).items

instance [Fintype L] (i : I) : Decidable (a.InNoList i) := inferInstanceAs (Decidable (∀ _, _))

def setWalk (l : L) (w : Walk I) : Walks L I O := { a with walk := update a.walk l w }

end Walks

/-- An item is inserted where it is in no list; a list is initialised where it is empty. -/
def Walks.call [Fintype L] (a : Walks L I O) :
    ListCall L I O → Option (Walks L I O × ListResult O)
  | .initialise l => if (a.walk l).items = [] then some (a, .nothing) else none
  | .initialiseItem i => if a.InNoList i then some (a, .nothing) else none
  | .insertEnd l i =>
    if a.InNoList i then some (a.setWalk l ((a.walk l).insertEnd i), .nothing) else none
  | .insert l i =>
    if a.InNoList i then
      some (a.setWalk l ((a.walk l).insert (fun k => a.value k ≤ a.value i) i), .nothing)
    else none
  | .remove l i =>
    if i ∈ (a.walk l).items then
      let w := (a.walk l).remove i
      some (a.setWalk l w, .number (UInt8.ofNat w.items.length))
    else none
  | .next l => ((a.walk l).next).map fun r => (a.setWalk l r.1, .owner (a.owner r.2))
  | .setValue i v => some ({ a with value := update a.value i v }, .nothing)
  | .setOwner i o => some ({ a with owner := update a.owner i o }, .nothing)

end HmBoard
