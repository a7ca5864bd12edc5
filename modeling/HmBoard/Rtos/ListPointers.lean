import HmBoard.Lib.Run
import HmBoard.Rtos.Blocking
import HmBoard.Rtos.Delays
import HmBoard.Rtos.Lists
import Mathlib.Data.List.TakeWhile

/-!
# The pointers show the lists

`Represents s a`: each list of `s` is a ring from its end marker through the items of its walk in
`a`, its index stands at the last one passed, and the containers and counts are those of the walks.
Every call keeps it, and returns what the walks return (`call_represents`).
-/

namespace HmBoard

open Lib Function

variable {L I O : Type}

/-! ## The nodes of a list -/

/-- The node of the last of `xs`; the end marker where there is none. -/
def lastNode (l : L) (xs : List I) : ListItem L I :=
  match xs.getLast? with
  | none => .xListEnd l
  | some k => .item k

def headNode (l : L) : List I → ListItem L I
  | [] => .xListEnd l
  | k :: _ => .item k

def ring (l : L) (xs : List I) : List (ListItem L I) :=
  .xListEnd l :: xs.map .item ++ [.xListEnd l]

@[simp] theorem lastNode_nil (l : L) : lastNode l ([] : List I) = .xListEnd l := rfl

@[simp] theorem lastNode_snoc (l : L) (xs : List I) (k : I) : lastNode l (xs ++ [k]) = .item k := by
  simp [lastNode]

theorem ring_split (l : L) (as bs : List I) :
    ∃ ns ms, ring l (as ++ bs) = ns ++ lastNode l as :: headNode l bs :: ms ∧
      ∀ i, ring l (as ++ i :: bs) = ns ++ lastNode l as :: .item i :: headNode l bs :: ms := by
  obtain ⟨ms, hms⟩ : ∃ ms, bs.map ListItem.item ++ [ListItem.xListEnd l] = headNode l bs :: ms := by
    cases bs with
    | nil => exact ⟨[], rfl⟩
    | cons k bs => exact ⟨bs.map .item ++ [.xListEnd l], rfl⟩
  obtain rfl | ⟨ps, k, rfl⟩ := List.eq_nil_or_concat' as
  · refine ⟨[], ms, ?_, fun i => ?_⟩
    · simp [ring, hms]
    · simp [ring, hms]
  · refine ⟨.xListEnd l :: ps.map .item, ms, ?_, fun i => ?_⟩
    · simp [ring, hms]
    · simp [ring, hms]

theorem item_mem_ring {l : L} {xs : List I} {i : I} : ListItem.item i ∈ ring l xs ↔ i ∈ xs := by
  simp [ring]

theorem marker_mem_ring {l l' : L} {xs : List I} : ListItem.xListEnd l' ∈ ring l xs ↔ l' = l := by
  simp [ring]

theorem simple_ring (l : L) {xs : List I} (h : xs.Nodup) : Simple (ring l xs) := by
  refine Simple.ring (List.nodup_cons.2 ⟨by simp, ?_⟩)
  exact h.map fun i j hij => ListItem.item.inj hij

theorem lastNode_cases (l : L) (xs : List I) :
    lastNode l xs = .xListEnd l ∨ ∃ k ∈ xs, lastNode l xs = .item k := by
  obtain rfl | ⟨ps, k, rfl⟩ := List.eq_nil_or_concat' xs
  · exact .inl rfl
  · exact .inr ⟨k, by simp, by simp⟩

theorem headNode_cases (l : L) (xs : List I) :
    headNode l xs = .xListEnd l ∨ ∃ k ∈ xs, headNode l xs = .item k := by
  cases xs with
  | nil => exact .inl rfl
  | cons k xs => exact .inr ⟨k, List.mem_cons_self, rfl⟩

theorem headNode_ne {l : L} {bs : List I} {i : I} (hi : i ∉ bs) : headNode l bs ≠ .item i := by
  obtain heq | ⟨k, hk, heq⟩ := headNode_cases l bs
  · simp [heq]
  · rw [heq]
    rintro ⟨rfl⟩
    exact hi hk

/-! ## The calls on walks -/

theorem Walk.items_insertEnd (l : L) (i : I) (w : Walk I) :
    ∃ as bs, w.items = as ++ bs ∧ (w.insertEnd i).items = as ++ i :: bs ∧
      headNode l bs = lastNode l w.passed ∧
      lastNode l (w.insertEnd i).passed = lastNode l w.passed := by
  obtain ⟨passed, ahead⟩ := w
  obtain rfl | ⟨ps, k, rfl⟩ := List.eq_nil_or_concat' passed
  · exact ⟨ahead, [], by simp [items], by simp [insertEnd, items], rfl, rfl⟩
  · refine ⟨ps, k :: ahead, by simp [items], by simp [insertEnd, items], ?_, ?_⟩
    · simp [headNode]
    · simp [insertEnd, lastNode]

theorem Walk.items_remove [DecidableEq I] (l : L) {w : Walk I} {i : I} (hw : w.items.Nodup)
    (hi : i ∈ w.items) :
    ∃ as bs, w.items = as ++ i :: bs ∧ (w.remove i).items = as ++ bs ∧
      (lastNode l w.passed = .item i → lastNode l (w.remove i).passed = lastNode l as) ∧
      (lastNode l w.passed ≠ .item i →
        lastNode l (w.remove i).passed = lastNode l w.passed) := by
  obtain ⟨passed, ahead⟩ := w
  obtain ⟨hp, ha, hdisj⟩ := List.nodup_append.1 hw
  obtain hmem | hmem := List.mem_append.1 hi
  · obtain ⟨as, ks, rfl⟩ := List.append_of_mem hmem
    have hnot : i ∉ ahead := fun h => hdisj i hmem i h rfl
    have has : i ∉ as := fun h => (List.nodup_append.1 hp).2.2 i h i List.mem_cons_self rfl
    have herase : (as ++ i :: ks).erase i = as ++ ks := by
      rw [List.erase_append_right _ has, List.erase_cons_head]
    refine ⟨as, ks ++ ahead, by simp [items], ?_, fun hlast => ?_, fun hlast => ?_⟩
    · simp only [remove, items, herase, List.erase_of_not_mem hnot, List.append_assoc]
    · obtain rfl | ⟨ps, k, rfl⟩ := List.eq_nil_or_concat' ks
      · simp [remove, herase]
      · have hk : k = i := by
          rw [← List.cons_append, ← List.append_assoc, lastNode_snoc] at hlast
          exact ListItem.item.inj hlast
        exact absurd hp (by simp [List.nodup_append, hk])
    · obtain rfl | ⟨ps, k, rfl⟩ := List.eq_nil_or_concat' ks
      · simp at hlast
      · rw [remove, herase, ← List.cons_append, ← List.append_assoc, ← List.append_assoc,
          lastNode_snoc, lastNode_snoc]
  · obtain ⟨bs, cs, rfl⟩ := List.append_of_mem hmem
    have hnot : i ∉ passed := fun h => hdisj i h i hmem rfl
    have hbs : i ∉ bs := fun h => (List.nodup_append.1 ha).2.2 i h i List.mem_cons_self rfl
    have herase : (bs ++ i :: cs).erase i = bs ++ cs := by
      rw [List.erase_append_right _ hbs, List.erase_cons_head]
    refine ⟨passed ++ bs, cs, by simp [items], ?_, fun hlast => ?_, fun _ => ?_⟩
    · simp only [remove, items, herase, List.erase_of_not_mem hnot, List.append_assoc]
    · obtain heq | ⟨k, hk, heq⟩ := lastNode_cases l passed
      · simp [heq] at hlast
      · rw [heq] at hlast
        exact absurd (ListItem.item.inj hlast ▸ hk) hnot
    · rw [remove, List.erase_of_not_mem hnot]

theorem exists_first_not {le : I → Bool} {xs : List I} (h : ¬ xs.all le) :
    ∃ as k ks, xs = as ++ k :: ks ∧ (∀ x ∈ as, le x) ∧ le k = false := by
  have hsplit := List.takeWhile_append_dropWhile (p := le) (l := xs)
  have hhead := List.head?_dropWhile_not le xs
  cases hd : xs.dropWhile le with
  | nil =>
    rw [List.dropWhile_eq_nil_iff] at hd
    exact absurd (List.all_eq_true.2 hd) h
  | cons k ks =>
    rw [hd] at hsplit hhead
    exact ⟨xs.takeWhile le, k, ks, hsplit.symm, fun x hx => List.mem_takeWhile_imp hx,
      by simpa using hhead⟩

theorem Walk.items_insert (l : L) (le : I → Bool) (i : I) (w : Walk I) :
    (w.insert le i).items = w.items.takeWhile le ++ i :: w.items.dropWhile le ∧
      lastNode l (w.insert le i).passed = lastNode l w.passed := by
  rw [insert]
  split
  · rename_i hall
    have hp := List.all_eq_true.1 hall
    refine ⟨?_, rfl⟩
    rw [items, items, List.takeWhile_append_of_pos hp, List.dropWhile_append_of_pos hp]
    simp [insertBehind]
  · rename_i hall
    obtain ⟨as, k, ks, hp, hpos, hneg⟩ := exists_first_not hall
    have htake : (as ++ k :: ks).takeWhile le = as := by
      rw [List.takeWhile_append_of_pos hpos, List.takeWhile_cons_of_neg (by simp [hneg]),
        List.append_nil]
    have hdrop : (as ++ k :: ks).dropWhile le = k :: ks := by
      rw [List.dropWhile_append_of_pos hpos, List.dropWhile_cons_of_neg (by simp [hneg])]
    refine ⟨?_, ?_⟩
    · rw [items, items, insertBehind, hp, htake, hdrop, List.append_assoc,
        List.append_assoc, List.takeWhile_append_of_pos hpos, List.dropWhile_append_of_pos hpos]
      simp [hneg]
    · simp [lastNode, insertBehind, hp, htake, hdrop, List.getLast?_append]

theorem Walk.items_next {w : Walk I} {r : Walk I × I} (hn : w.next = some r) (l : L) :
    r.1.items = w.items ∧ ∃ as bs, w.items = as ++ r.2 :: bs ∧
      lastNode l r.1.passed = .item r.2 ∧
      (as = w.passed ∨ as = [] ∧ w.ahead = []) := by
  obtain ⟨passed, ahead⟩ := w
  cases ahead with
  | cons i xs =>
    cases hn
    exact ⟨by simp [items], passed, xs, rfl, lastNode_snoc l passed i, .inl rfl⟩
  | nil =>
    cases passed with
    | nil => cases hn
    | cons i xs =>
      cases hn
      exact ⟨by simp [items], [], xs, by simp [items], rfl, .inr ⟨rfl, rfl⟩⟩

theorem Walk.exists_next {w : Walk I} (hw : w.items ≠ []) : ∃ w' i, w.next = some (w', i) := by
  obtain ⟨passed, ahead⟩ := w
  cases ahead with
  | cons i xs => exact ⟨_, i, rfl⟩
  | nil =>
    cases passed with
    | nil => exact absurd rfl hw
    | cons i xs => exact ⟨_, i, rfl⟩

/-! ## The relation -/

structure Represents (s : Lists L I O) (a : Walks L I O) : Prop where
  ring : ∀ l, Chained s.pxNext s.pxPrevious (ring l (a.walk l).items)
  nodup : ∀ l, (a.walk l).items.Nodup
  container : ∀ i l, s.pvContainer i = some l ↔ i ∈ (a.walk l).items
  number : ∀ l, s.uxNumberOfItems l = UInt8.ofNat (a.walk l).items.length
  index : ∀ l, s.pxIndex l = lastNode l (a.walk l).passed
  value : ∀ i, s.xItemValue (.item i) = a.value i
  marker : ∀ l, s.xItemValue (.xListEnd l) = portMaxDelayValue
  owner : s.pvOwner = a.owner

variable {s : Lists L I O} {a : Walks L I O} {l : L} {as bs : List I} {i : I}

theorem Represents.linked (h : Represents s a) (hw : (a.walk l).items = as ++ bs) :
    Linked s.pxNext s.pxPrevious (lastNode l as) (headNode l bs) := by
  obtain ⟨ns, ms, h1, -⟩ := ring_split l as bs
  have hring := h.ring l
  rw [hw, h1] at hring
  exact hring.linked

/-- The neighbours of an item. -/
theorem Represents.around (h : Represents s a) (hw : (a.walk l).items = as ++ i :: bs) :
    s.pxPrevious (.item i) = lastNode l as ∧ s.pxNext (.item i) = headNode l bs := by
  have h1 := h.linked hw
  have hw' : (a.walk l).items = (as ++ [i]) ++ bs := by simp [hw]
  have h2 := h.linked hw'
  rw [lastNode_snoc] at h2
  exact ⟨h1.2, h2.1⟩

/-- No item is in two lists. -/
theorem Represents.not_mem (h : Represents s a) {l' : L} (hne : l' ≠ l) {k : I}
    (hk : k ∈ (a.walk l).items) : k ∉ (a.walk l').items := by
  intro hk'
  have h1 := (h.container k l).2 hk
  have h2 := (h.container k l').2 hk'
  rw [h1] at h2
  exact hne (Option.some.inj h2).symm

/-- A node at a place of list `l` is in no other ring. -/
theorem Represents.apart (h : Represents s a) (hw : (a.walk l).items = as ++ bs) {l' : L}
    (hne : l' ≠ l) :
    lastNode l as ∉ HmBoard.ring l' (a.walk l').items ∧
      headNode l bs ∉ HmBoard.ring l' (a.walk l').items := by
  constructor
  · obtain heq | ⟨k, hk, heq⟩ := lastNode_cases l as
    · rw [heq, marker_mem_ring]
      exact hne.symm
    · rw [heq, item_mem_ring]
      exact h.not_mem hne (by simp [hw, hk])
  · obtain heq | ⟨k, hk, heq⟩ := headNode_cases l bs
    · rw [heq, marker_mem_ring]
      exact hne.symm
    · rw [heq, item_mem_ring]
      exact h.not_mem hne (by simp [hw, hk])

theorem Represents.inNoList (h : Represents s a) (hi : s.pvContainer i = none) : a.InNoList i := by
  intro l hl
  rw [(h.container i l).2 hl] at hi
  cases hi

theorem le_portMaxDelayValue (v : UInt16) : v ≤ portMaxDelayValue := by
  have h := v.toNat_lt
  rw [UInt16.le_iff_toNat_le]
  change v.toNat ≤ 65535
  omega

/-- The loop stops at the last of the first items whose values are no larger. -/
theorem Represents.insertPosition (h : Represents s a) {v : UInt16} (hv : v ≠ portMaxDelayValue)
    {fuel : Nat} (hw : (a.walk l).items = as ++ bs) (hfuel : bs.length < fuel) :
    s.insertPosition v fuel (lastNode l as) =
      some (lastNode l (as ++ bs.takeWhile fun k => a.value k ≤ v)) := by
  induction bs generalizing as fuel with
  | nil =>
    obtain ⟨n, rfl⟩ := Nat.exists_eq_add_of_lt hfuel
    have hnext := (h.linked hw).1
    have hmax : ¬ portMaxDelayValue ≤ v := fun hle =>
      hv (UInt16.le_antisymm (le_portMaxDelayValue v) hle)
    rw [Lists.insertPosition, hnext, headNode, h.marker, if_neg hmax]
    simp
  | cons k bs ih =>
    obtain ⟨n, rfl⟩ : ∃ n, fuel = n + 1 := Nat.exists_eq_succ_of_ne_zero (by omega)
    have hnext := (h.linked hw).1
    rw [Lists.insertPosition, hnext, headNode, h.value]
    by_cases hk : a.value k ≤ v
    · have hw' : (a.walk l).items = (as ++ [k]) ++ bs := by simp [hw]
      have hstep := ih hw' (by simpa using hfuel)
      rw [lastNode_snoc] at hstep
      rw [if_pos hk, hstep, List.takeWhile_cons_of_pos (by simpa using hk)]
      simp
    · rw [if_neg hk, List.takeWhile_cons_of_neg (by simpa using hk), List.append_nil]

theorem Represents.head (h : Represents s a) {xs : List I} (hw : (a.walk l).items = i :: xs) :
    s.listGetOwnerOfHeadEntry l = some (a.owner i) := by
  have hw' : (a.walk l).items = [] ++ i :: xs := hw
  have hnext := (h.linked hw').1
  rw [lastNode_nil, headNode] at hnext
  rw [Lists.listGetOwnerOfHeadEntry, hnext, h.owner]

theorem Represents.isEmpty (h : Represents s a) (hlen : (a.walk l).items.length < 256) :
    s.listListIsEmpty l = true ↔ (a.walk l).items = [] := by
  rw [Lists.listListIsEmpty, h.number, decide_eq_true_iff, ← List.length_eq_zero_iff,
    ← UInt8.toNat_inj, UInt8.toNat_ofNat', Nat.mod_eq_of_lt hlen]
  rfl

variable [DecidableEq L]

theorem Walks.setWalk_self (w : Walk I) : (a.setWalk l w).walk l = w := update_self _ _ _

theorem Walks.setWalk_of_ne {l' : L} (hne : l' ≠ l) (w : Walk I) :
    (a.setWalk l w).walk l' = a.walk l' := update_of_ne hne _ _

/-- One list has become `w`. -/
theorem Represents.setWalk (h : Represents s a) {s' : Lists L I O} {w : Walk I}
    (hring : Chained s'.pxNext s'.pxPrevious (HmBoard.ring l w.items))
    (hother : ∀ l', l' ≠ l →
      Chained s'.pxNext s'.pxPrevious (HmBoard.ring l' (a.walk l').items))
    (hnodup : w.items.Nodup) (hmem : ∀ k, s'.pvContainer k = some l ↔ k ∈ w.items)
    (hnot : ∀ k l', l' ≠ l → (s'.pvContainer k = some l' ↔ s.pvContainer k = some l'))
    (hnumber : s'.uxNumberOfItems = update s.uxNumberOfItems l (UInt8.ofNat w.items.length))
    (hindex : s'.pxIndex = update s.pxIndex l (lastNode l w.passed))
    (hvalue : s'.xItemValue = s.xItemValue) (howner : s'.pvOwner = s.pvOwner) :
    Represents s' (a.setWalk l w) := by
  refine ⟨fun l' => ?_, fun l' => ?_, fun k l' => ?_, fun l' => ?_, fun l' => ?_,
    hvalue ▸ h.value, hvalue ▸ h.marker, howner ▸ h.owner⟩
  · obtain rfl | hl := eq_or_ne l' l
    · rwa [Walks.setWalk_self]
    · rw [Walks.setWalk_of_ne hl]
      exact hother l' hl
  · obtain rfl | hl := eq_or_ne l' l
    · rwa [Walks.setWalk_self]
    · rw [Walks.setWalk_of_ne hl]
      exact h.nodup l'
  · obtain rfl | hl := eq_or_ne l' l
    · rw [Walks.setWalk_self]
      exact hmem k
    · rw [Walks.setWalk_of_ne hl]
      exact (hnot k l' hl).trans (h.container k l')
  · obtain rfl | hl := eq_or_ne l' l
    · rw [Walks.setWalk_self, hnumber, update_self]
    · rw [Walks.setWalk_of_ne hl, hnumber, update_of_ne hl, h.number]
  · obtain rfl | hl := eq_or_ne l' l
    · rw [Walks.setWalk_self, hindex, update_self]
    · rw [Walks.setWalk_of_ne hl, hindex, update_of_ne hl, h.index]

variable [DecidableEq I]

/-- An item is linked in between `as` and `bs`. -/
theorem Represents.link (h : Represents s a) (hi : a.InNoList i)
    (hw : (a.walk l).items = as ++ bs) {w : Walk I} (hw' : w.items = as ++ i :: bs)
    (hidx : lastNode l w.passed = lastNode l (a.walk l).passed) :
    Represents (({ s with
        pxNext := update (update s.pxNext (.item i) (headNode l bs)) (lastNode l as) (.item i)
        pxPrevious :=
          update (update s.pxPrevious (.item i) (lastNode l as)) (headNode l bs) (.item i) } :
        Lists L I O).contain l i) (a.setWalk l w) := by
  obtain ⟨ns, ms, h1, h2⟩ := ring_split l as bs
  have hnew : ∀ l', ListItem.item i ∉ HmBoard.ring l' (a.walk l').items := fun l' hm =>
    hi l' (item_mem_ring.1 hm)
  have hnone : ∀ l', s.pvContainer i ≠ some l' := fun l' hc => hi l' ((h.container i l').1 hc)
  refine h.setWalk ?_ (fun l' hl => ?_) ?_ (fun k => ?_) (fun k l' hl => ?_) ?_ ?_ rfl rfl
  · have hring := h.ring l
    have hsimple := simple_ring l (h.nodup l)
    have hnew := hnew l
    rw [hw, h1] at hring hsimple hnew
    rw [hw', h2]
    exact hring.insert hsimple hnew
  · obtain ⟨hp, hq⟩ := h.apart hw hl
    refine (h.ring l').congr (fun x hx => ?_) fun x hx => ?_
    · have hx := (List.dropLast_sublist _).subset hx
      change update (update s.pxNext _ _) _ _ x = _
      rw [update_of_ne (ne_of_mem_of_not_mem hx hp),
        update_of_ne (ne_of_mem_of_not_mem hx (hnew l'))]
    · have hx := List.mem_of_mem_tail hx
      change update (update s.pxPrevious _ _) _ _ x = _
      rw [update_of_ne (ne_of_mem_of_not_mem hx hq),
        update_of_ne (ne_of_mem_of_not_mem hx (hnew l'))]
  · rw [hw', List.perm_middle.nodup_iff, List.nodup_cons, ← hw]
    exact ⟨hi l, h.nodup l⟩
  · change update s.pvContainer i (some l) k = some l ↔ _
    rw [hw', List.perm_middle.mem_iff, List.mem_cons, ← hw, ← h.container, update_apply]
    split <;> simp_all
  · change update s.pvContainer i (some l) k = some l' ↔ _
    rw [update_apply]
    split
    · rename_i heq
      simp [heq, hnone l', Ne.symm hl]
    · rfl
  · change update s.uxNumberOfItems l (s.uxNumberOfItems l + 1) = _
    rw [h.number, hw, hw', List.perm_middle.length_eq, List.length_cons, UInt8.ofNat_add]
    rfl
  · rw [hidx, ← h.index]
    exact (update_eq_self l s.pxIndex).symm

theorem Represents.insertEnd (h : Represents s a) (hi : a.InNoList i) :
    Represents (s.vListInsertEnd l i) (a.setWalk l ((a.walk l).insertEnd i)) := by
  obtain ⟨as, bs, hw, hw', hhead, hidx⟩ := Walk.items_insertEnd l i (a.walk l)
  have hlink := h.link hi hw hw' hidx
  have hprev := (h.linked hw).2
  have hne : headNode l bs ≠ .item i := headNode_ne fun hb => hi l (by simp [hw, hb])
  rw [hhead] at hprev hne hlink
  simpa [Lists.vListInsertEnd, h.index, hprev, update_of_ne hne] using hlink

/-! ### Insertion by value -/

theorem Represents.insertAfter (h : Represents s a) (hi : a.InNoList i)
    (hw : (a.walk l).items = as ++ bs) {w : Walk I} (hw' : w.items = as ++ i :: bs)
    (hidx : lastNode l w.passed = lastNode l (a.walk l).passed) :
    Represents (s.insertAfter (lastNode l as) l i) (a.setWalk l w) := by
  have hlink := h.link hi hw hw' hidx
  have hnext := (h.linked hw).1
  have hne : headNode l bs ≠ .item i := headNode_ne fun hb => hi l (by simp [hw, hb])
  rw [update_comm hne.symm] at hlink
  simpa [Lists.insertAfter, hnext] using hlink

theorem Represents.insert (h : Represents s a) (hi : a.InNoList i) {fuel : Nat}
    (hfuel : (a.walk l).items.length < fuel) :
    ∃ s', s.vListInsert fuel l i = some s' ∧
      Represents s' (a.setWalk l ((a.walk l).insert (fun k => a.value k ≤ a.value i) i)) := by
  obtain ⟨hw', hidx⟩ := Walk.items_insert l (fun k => decide (a.value k ≤ a.value i)) i (a.walk l)
  have hw := (List.takeWhile_append_dropWhile
    (p := fun k => decide (a.value k ≤ a.value i)) (l := (a.walk l).items)).symm
  refine ⟨_, ?_, h.insertAfter hi hw hw' hidx⟩
  rw [Lists.vListInsert, h.value]
  by_cases hv : a.value i = portMaxDelayValue
  · have hall : (a.walk l).items.takeWhile (fun k => decide (a.value k ≤ a.value i)) =
        (a.walk l).items := by
      rw [List.takeWhile_eq_self_iff]
      intro k _
      simpa [hv] using le_portMaxDelayValue (a.value k)
    have hend : (a.walk l).items = (a.walk l).items ++ [] := (List.append_nil _).symm
    rw [if_pos hv, hall, ← (h.linked hend).2]
    rfl
  · have hnil : (a.walk l).items = [] ++ (a.walk l).items := rfl
    have hloop := h.insertPosition hv hnil hfuel
    rw [lastNode_nil] at hloop
    rw [if_neg hv, hloop]
    rfl

/-- What the pointers do is the insertion of the models that have the lists in order. -/
theorem Represents.insert_map (h : Represents s a) (hi : a.InNoList i) {fuel : Nat}
    (hfuel : (a.walk l).items.length < fuel) {A : Type} (f : I → A) (le : A → Bool)
    (hle : ∀ k, le (f k) = decide (a.value k ≤ a.value i)) :
    ∃ s' a', s.vListInsert fuel l i = some s' ∧ Represents s' a' ∧
      (a'.walk l).items.map f = ((a.walk l).items.map f).takeWhile le ++
        f i :: ((a.walk l).items.map f).dropWhile le := by
  obtain ⟨s', hs', h'⟩ := h.insert hi hfuel
  refine ⟨s', _, hs', h', ?_⟩
  have hcomp : le ∘ f = fun k => decide (a.value k ≤ a.value i) := funext hle
  rw [Walks.setWalk_self, (Walk.items_insert l _ i (a.walk l)).1, List.takeWhile_map,
    List.dropWhile_map, hcomp, List.map_append, List.map_cons]

theorem Represents.insertByValue (h : Represents s a) (hi : a.InNoList i) {fuel : Nat}
    (hfuel : (a.walk l).items.length < fuel) {T : Type} (task : I → T) :
    ∃ s' a', s.vListInsert fuel l i = some s' ∧ Represents s' a' ∧
      (a'.walk l).items.map (fun k => ((a.value k).toNat, task k)) =
        HmBoard.insertByValue ((a.value i).toNat, task i)
          ((a.walk l).items.map fun k => ((a.value k).toNat, task k)) :=
  h.insert_map hi hfuel _ _ fun _ => decide_eq_decide.2 UInt16.le_iff_toNat_le.symm

/-- In an event list, where the values are `configMAX_PRIORITIES - uxPriority`. -/
theorem Represents.insertByPriority (h : Represents s a) (hi : a.InNoList i) {fuel : Nat}
    (hfuel : (a.walk l).items.length < fuel) {T : Type} (task : I → T) {uxPriority : T → Nat}
    {m : Nat} (hvalue : ∀ k, uxPriority (task k) ≤ m ∧
      (a.value k).toNat = m - uxPriority (task k)) :
    ∃ s' a', s.vListInsert fuel l i = some s' ∧ Represents s' a' ∧
      (a'.walk l).items.map task =
        HmBoard.insertByPriority uxPriority (task i) ((a.walk l).items.map task) := by
  refine h.insert_map hi hfuel task _ fun k => decide_eq_decide.2 ?_
  obtain ⟨h1, h2⟩ := hvalue k
  obtain ⟨h3, h4⟩ := hvalue i
  rw [UInt16.le_iff_toNat_le, h2, h4]
  omega

/-! ### Removal -/

theorem Represents.remove (h : Represents s a) (hi : i ∈ (a.walk l).items) :
    ∃ s', s.uxListRemove i = some (s', UInt8.ofNat ((a.walk l).remove i).items.length) ∧
      Represents s' (a.setWalk l ((a.walk l).remove i)) := by
  obtain ⟨as, bs, hw, hw', hat, hoff⟩ := Walk.items_remove l (h.nodup l) hi
  obtain ⟨hprev, hnext⟩ := h.around hw
  obtain ⟨ns, ms, h1, h2⟩ := ring_split l as bs
  have hnodup := h.nodup l
  rw [hw, List.perm_middle.nodup_iff, List.nodup_cons] at hnodup
  obtain ⟨hout, hnodup⟩ := hnodup
  have hne := headNode_ne (l := l) (fun hb => hout (List.mem_append_right as hb))
  have hcount : s.uxNumberOfItems l - 1 = UInt8.ofNat ((a.walk l).remove i).items.length := by
    rw [h.number, hw, hw', List.perm_middle.length_eq, List.length_cons, UInt8.ofNat_add]
    exact UInt8.add_sub_cancel _ _
  have hcon := (h.container i l).2 hi
  simp only [Lists.uxListRemove, hcon, hprev, hnext, update_of_ne hne.symm]
  refine ⟨_, congrArg some (congrArg (Prod.mk _) ?_), h.setWalk ?_ (fun l' hl => ?_) (hw' ▸ hnodup)
    (fun k => ?_) (fun k l' hl => ?_) (congrArg (update _ l) hcount) ?_ rfl rfl⟩
  · rw [update_self, hcount]
  · have hring := h.ring l
    have hsimple := simple_ring l hnodup
    rw [hw, h2] at hring
    rw [h1] at hsimple
    rw [hw', h1]
    exact hring.remove hsimple
  · have hp := (h.apart hw hl).1
    have hw2 : (a.walk l).items = (as ++ [i]) ++ bs := by simp [hw]
    have hq := (h.apart hw2 hl).2
    refine (h.ring l').congr (fun x hx => ?_) fun x hx => ?_
    · exact update_of_ne (ne_of_mem_of_not_mem ((List.dropLast_sublist _).subset hx) hp) _ _
    · exact update_of_ne (ne_of_mem_of_not_mem (List.mem_of_mem_tail hx) hq) _ _
  · change update s.pvContainer i none k = some l ↔ _
    rw [hw', update_apply]
    split
    · rename_i heq
      simpa [heq] using hout
    · rename_i hk
      rw [h.container, hw, List.perm_middle.mem_iff, List.mem_cons, or_iff_right hk]
  · change update s.pvContainer i none k = some l' ↔ _
    rw [update_apply]
    split
    · rename_i heq
      simp [heq, hcon, hl.symm]
    · rfl
  · dsimp only
    split
    · rename_i heq
      rw [hat (h.index l ▸ heq)]
    · rename_i heq
      rw [hoff (h.index l ▸ heq), ← h.index, update_eq_self]

/-! ### The next turn -/

theorem Represents.next (h : Represents s a) {r : Walk I × I} (hn : (a.walk l).next = some r) :
    ∃ s', s.listGetOwnerOfNextEntry l = some (s', a.owner r.2) ∧
      Represents s' (a.setWalk l r.1) := by
  obtain ⟨hitems, as, bs, hw, hlast, hor⟩ := Walk.items_next hn l
  have hlink := (h.linked hw).1
  have hindex : (if s.pxNext (s.pxIndex l) = ListItem.xListEnd l then
      s.pxNext (s.pxNext (s.pxIndex l)) else s.pxNext (s.pxIndex l)) = .item r.2 := by
    rw [h.index]
    obtain rfl | ⟨rfl, hnil⟩ := hor
    · rw [hlink, if_neg (by simp [headNode])]
      rfl
    · have hall : (a.walk l).items = (a.walk l).passed ++ [] := by rw [Walk.items, hnil]
      have hend := (h.linked hall).1
      rw [hend, headNode, if_pos rfl]
      exact hlink
  refine ⟨{ s with pxIndex := update s.pxIndex l (.item r.2) }, ?_, ?_⟩
  · have hupdate : (if s.pxNext (s.pxIndex l) = ListItem.xListEnd l then
        update (update s.pxIndex l (s.pxNext (s.pxIndex l))) l (s.pxNext (s.pxNext (s.pxIndex l)))
        else update s.pxIndex l (s.pxNext (s.pxIndex l))) = update s.pxIndex l (.item r.2) := by
      rw [← hindex]
      split
      · rw [update_idem]
      · rfl
    simp only [Lists.listGetOwnerOfNextEntry, update_self, hupdate, h.owner]
  · refine h.setWalk ?_ (fun l' _ => h.ring l') ?_ (fun k => ?_) (fun _ _ _ => Iff.rfl) ?_ ?_ rfl
      rfl
    · rw [hitems]
      exact h.ring l
    · rw [hitems]
      exact h.nodup l
    · rw [hitems]
      exact h.container k l
    · rw [hitems, ← h.number, update_eq_self]
    · rw [hlast]

/-! ### What a call leaves alone -/

theorem uxListRemove_frame {s' : Lists L I O} {n : UInt8} (h : s.uxListRemove i = some (s', n)) :
    s'.pvContainer = update s.pvContainer i none ∧ s'.pvOwner = s.pvOwner ∧
      s'.xItemValue = s.xItemValue := by
  rw [Lists.uxListRemove] at h
  split at h
  · cases h
  · cases h
    exact ⟨rfl, rfl, rfl⟩

theorem vListInsertEnd_container :
    (s.vListInsertEnd l i).pvContainer = update s.pvContainer i (some l) := rfl

theorem vListInsert_frame {s' : Lists L I O} {fuel : Nat} (h : s.vListInsert fuel l i = some s') :
    s'.pvContainer = update s.pvContainer i (some l) ∧ s'.pvOwner = s.pvOwner ∧
      s'.xItemValue = s.xItemValue := by
  obtain ⟨p, -, rfl⟩ := Option.map_eq_some_iff.1 h
  exact ⟨rfl, rfl, rfl⟩

theorem nextEntry_frame {s' : Lists L I O} {o : O}
    (h : s.listGetOwnerOfNextEntry l = some (s', o)) :
    s'.pvContainer = s.pvContainer ∧ s'.pvOwner = s.pvOwner ∧ s'.xItemValue = s.xItemValue := by
  simp only [Lists.listGetOwnerOfNextEntry] at h
  split at h
  · cases h
  · cases h
    exact ⟨rfl, rfl, rfl⟩

/-! ### Every call -/

/-- An empty list is as `vListInitialise` makes it. -/
theorem Represents.initialise (h : Represents s a) (hempty : (a.walk l).items = []) :
    Represents (s.vListInitialise l) a := by
  have hw : (a.walk l).items = [] ++ [] := hempty
  obtain ⟨hnext, hprev⟩ := h.linked hw
  obtain ⟨hp, -⟩ := List.append_eq_nil_iff.1 hempty
  have hindex := h.index l
  have hnumber := h.number l
  rw [hp] at hindex
  rw [hempty] at hnumber
  have hsame : s.vListInitialise l = s := by
    have h1 : update s.pxNext (.xListEnd l) (.xListEnd l) = s.pxNext :=
      update_eq_self_iff.2 hnext.symm
    have h2 : update s.pxPrevious (.xListEnd l) (.xListEnd l) = s.pxPrevious :=
      update_eq_self_iff.2 hprev.symm
    have h3 : update s.pxIndex l (.xListEnd l) = s.pxIndex := update_eq_self_iff.2 hindex.symm
    have h4 : update s.uxNumberOfItems l 0 = s.uxNumberOfItems :=
      update_eq_self_iff.2 hnumber.symm
    have h5 : update s.xItemValue (.xListEnd l) portMaxDelayValue = s.xItemValue :=
      update_eq_self_iff.2 (h.marker l).symm
    rw [Lists.vListInitialise, h1, h2, h3, h5]
    exact congrArg (fun n => { s with uxNumberOfItems := n }) h4
  rwa [hsame]

theorem Represents.setValue (h : Represents s a) (v : UInt16) :
    Represents (s.listSetListItemValue i v) { a with value := update a.value i v } := by
  refine ⟨h.ring, h.nodup, h.container, h.number, h.index, fun k => ?_, fun l => ?_, h.owner⟩
  · change update s.xItemValue (.item i) v (.item k) = update a.value i v k
    obtain rfl | hk := eq_or_ne k i
    · rw [update_self, update_self]
    · rw [update_of_ne hk, update_of_ne fun heq => hk (ListItem.item.inj heq), h.value]
  · change update s.xItemValue (.item i) v (.xListEnd l) = _
    rw [update_of_ne (by simp), h.marker]

omit [DecidableEq L] in
theorem Represents.setOwner (h : Represents s a) (o : O) :
    Represents (s.listSetListItemOwner i o) { a with owner := update a.owner i o } := by
  refine ⟨h.ring, h.nodup, h.container, h.number, h.index, h.value, h.marker, ?_⟩
  rw [Lists.listSetListItemOwner, h.owner]

/-! ## The start -/

/-- Every list and every item initialised, whatever the memory held. -/
def Lists.boot (ls : List L) (is : List I) (s : Lists L I O) : Lists L I O :=
  is.foldl (fun s i => s.vListInitialiseItem i) (ls.foldl (fun s l => s.vListInitialise l) s)

omit [DecidableEq L] in
theorem initialiseItem_frame (is : List I) (s : Lists L I O) :
    is.foldl (fun s i => s.vListInitialiseItem i) s =
      { s with pvContainer := fun i => if i ∈ is then none else s.pvContainer i } := by
  induction is generalizing s with
  | nil => simp
  | cons k is ih =>
    rw [List.foldl_cons, ih, Lists.vListInitialiseItem]
    refine congrArg (fun f => { s with pvContainer := f }) (funext fun i => ?_)
    by_cases hm : i ∈ is
    · simp [hm]
    · simp [hm, update_apply]

/-- `vListInitialise` has been called for `l`. -/
structure Lists.Fresh (s : Lists L I O) (l : L) : Prop where
  next : s.pxNext (.xListEnd l) = .xListEnd l
  previous : s.pxPrevious (.xListEnd l) = .xListEnd l
  value : s.xItemValue (.xListEnd l) = portMaxDelayValue
  number : s.uxNumberOfItems l = 0
  index : s.pxIndex l = .xListEnd l

theorem fresh_initialise (s : Lists L I O) (l l' : L) (h : l' = l ∨ s.Fresh l') :
    (s.vListInitialise l).Fresh l' := by
  obtain rfl | hne := eq_or_ne l' l
  · constructor <;> exact update_self _ _ _
  · obtain ⟨h1, h2, h3, h4, h5⟩ := h.resolve_left hne
    have hend : (ListItem.xListEnd l' : ListItem L I) ≠ .xListEnd l := by simpa using hne
    constructor
    · exact (update_of_ne hend _ _).trans h1
    · exact (update_of_ne hend _ _).trans h2
    · exact (update_of_ne hend _ _).trans h3
    · exact (update_of_ne hne _ _).trans h4
    · exact (update_of_ne hne _ _).trans h5

theorem fresh_foldl (ls : List L) (s : Lists L I O) (l : L) (h : l ∈ ls ∨ s.Fresh l) :
    (ls.foldl (fun s l => s.vListInitialise l) s).Fresh l := by
  induction ls generalizing s with
  | nil => exact h.resolve_left (by simp)
  | cons k ls ih =>
    refine ih _ ?_
    rw [List.mem_cons, or_assoc, or_left_comm] at h
    exact h.imp_right (fresh_initialise s k l)

/-- Values and owners stay. -/
theorem initialise_frame (ls : List L) (s : Lists L I O) :
    (∀ i, (ls.foldl (fun s l => s.vListInitialise l) s).xItemValue (.item i) =
      s.xItemValue (.item i)) ∧
      (ls.foldl (fun s l => s.vListInitialise l) s).pvOwner = s.pvOwner := by
  induction ls generalizing s with
  | nil => exact ⟨fun _ => rfl, rfl⟩
  | cons k ls ih =>
    obtain ⟨h1, h2⟩ := ih (s.vListInitialise k)
    refine ⟨fun i => ?_, h2⟩
    rw [List.foldl_cons, h1]
    have hne : (ListItem.item i : ListItem L I) ≠ .xListEnd k := by simp
    exact update_of_ne hne portMaxDelayValue s.xItemValue

theorem represents_boot (s : Lists L I O) {ls : List L} {is : List I} (hl : ∀ l, l ∈ ls)
    (hi : ∀ i, i ∈ is) :
    Represents (s.boot ls is) (Walks.start (fun i => s.xItemValue (.item i)) s.pvOwner) := by
  obtain ⟨hvalue, howner⟩ := initialise_frame ls s
  have hfresh := fun l => fresh_foldl ls s l (.inl (hl l))
  rw [Lists.boot, initialiseItem_frame]
  refine ⟨fun l => ?_, fun _ => List.nodup_nil, fun i l => ?_, fun l => ?_, fun l => ?_, hvalue,
    fun l => (hfresh l).value, howner⟩
  · exact List.isChain_cons_cons.2 ⟨⟨(hfresh l).next, (hfresh l).previous⟩,
      List.isChain_singleton _⟩
  · simp [hi, Walks.start, Walk.items]
  · exact (hfresh l).number
  · exact (hfresh l).index

/-! ## Whole runs -/

variable [Fintype L]

/-- What the walks allow, the pointers do: the loop of `vListInsert` ends within `fuel` rounds. -/
theorem call_represents (h : Represents s a) {c : ListCall L I O} {a' : Walks L I O}
    {r : ListResult O} (hc : a.call c = some (a', r)) {fuel : Nat}
    (hfuel : ∀ l, (a.walk l).items.length < fuel) :
    ∃ s', s.call fuel c = some (s', r) ∧ Represents s' a' := by
  cases c with
  | initialise l =>
    obtain ⟨hempty, heq⟩ := Option.ite_none_right_eq_some.1 hc
    cases heq
    exact ⟨_, rfl, h.initialise hempty⟩
  | initialiseItem i =>
    obtain ⟨hi, heq⟩ := Option.ite_none_right_eq_some.1 hc
    cases heq
    refine ⟨_, rfl, ?_⟩
    have hnone : s.pvContainer i = none := by
      cases hcon : s.pvContainer i with
      | none => rfl
      | some l => exact absurd ((h.container i l).1 hcon) (hi l)
    rwa [Lists.vListInitialiseItem, update_eq_self_iff.2 hnone.symm]
  | insertEnd l i =>
    obtain ⟨hi, heq⟩ := Option.ite_none_right_eq_some.1 hc
    cases heq
    exact ⟨_, rfl, h.insertEnd hi⟩
  | insert l i =>
    obtain ⟨hi, heq⟩ := Option.ite_none_right_eq_some.1 hc
    cases heq
    obtain ⟨s', hs, h'⟩ := h.insert hi (hfuel l)
    exact ⟨s', by rw [Lists.call, hs]; rfl, h'⟩
  | remove l i =>
    obtain ⟨hi, heq⟩ := Option.ite_none_right_eq_some.1 hc
    cases heq
    obtain ⟨s', hs, h'⟩ := h.remove hi
    exact ⟨s', by rw [Lists.call, hs]; rfl, h'⟩
  | next l =>
    obtain ⟨w, hn, heq⟩ := Option.map_eq_some_iff.1 hc
    cases heq
    obtain ⟨s', hs, h'⟩ := h.next hn
    exact ⟨s', by rw [Lists.call, hs]; rfl, h'⟩
  | setValue i v =>
    cases hc
    exact ⟨_, rfl, h.setValue v⟩
  | setOwner i o =>
    cases hc
    exact ⟨_, rfl, h.setOwner o⟩

variable [Fintype I]

/-- The lists of FreeRTOS are these walks: from any memory in which they have been initialised,
through any sequence of calls that inserts no item twice and initialises no list in use. -/
theorem lists_refine (s : Lists L I O) {ls : List L} {is : List I} (hl : ∀ l, l ∈ ls)
    (hi : ∀ i, i ∈ is) {fuel : Nat} (hfuel : Fintype.card I < fuel) {cs : List (ListCall L I O)}
    {a : Walks L I O} {rs : List (ListResult O)}
    (hrun : replay Walks.call (Walks.start (fun i => s.xItemValue (.item i)) s.pvOwner) cs =
      some (a, rs)) :
    ∃ s', replay (Lists.call fuel) (s.boot ls is) cs = some (s', rs) ∧ Represents s' a := by
  refine replay_simulates (R := Represents) (fun s a c a' r h hc => ?_) (represents_boot s hl hi)
    hrun
  exact call_represents h hc fun l => (h.nodup l).length_le_card.trans_lt hfuel

/-- Two items in one list, in memory full of other pointers: the one inserted at the end, the other
by its value in front of it, each has its turn, and one is removed. -/
theorem lists_refine_two :
    ∃ s' a, replay (Lists.call 3)
        (Lists.boot [()] [false, true]
          { xItemValue := fun _ => 7
            pxNext := fun _ => .item true
            pxPrevious := fun _ => .item false
            pvOwner := id
            pvContainer := fun _ => some ()
            uxNumberOfItems := fun _ => 9
            pxIndex := fun _ => .item true })
        [.insertEnd () false, .setValue true 3, .insert () true, .next (), .next (), .next (),
          .remove () true] =
      some (s', [.nothing, .nothing, .nothing, .owner true, .owner false, .owner true, .number 1]) ∧
      Represents s' a := by
  obtain ⟨⟨a, rs⟩, hrun, hrs⟩ := Option.any_eq_true _ _ |>.1
    (show (replay Walks.call (Walks.start (fun _ => 7) id)
        [.insertEnd () false, .setValue true 3, .insert () true, .next (), .next (), .next (),
          .remove () true]).any (fun r => decide (r.2 = [.nothing, .nothing, .nothing, .owner true,
            .owner false, .owner true, .number 1])) = true by decide +kernel)
  obtain rfl := of_decide_eq_true hrs
  obtain ⟨s', hs', h⟩ := lists_refine
    { xItemValue := fun _ => 7
      pxNext := fun _ => .item true
      pxPrevious := fun _ => .item false
      pvOwner := id
      pvContainer := fun _ => some ()
      uxNumberOfItems := fun _ => 9
      pxIndex := fun _ => .item true }
    (show ∀ l : Unit, l ∈ [()] by simp) (show ∀ i : Bool, i ∈ [false, true] by decide)
    (show Fintype.card Bool < 3 by decide) hrun
  exact ⟨s', a, hs', h⟩

end HmBoard
