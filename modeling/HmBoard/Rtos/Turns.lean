import HmBoard.Rtos.Lists
import Mathlib.Data.List.Nodup

/-!
# Taking turns

While item `j` waits for its turn on a list, `credit j i` bounds how often `i` can still have a turn
before it. It is 2 at most: items that come go in front of the index, and only while the index has
passed `j` can that be in front of `j` too.
-/

namespace HmBoard

namespace Walk

variable {I : Type} [DecidableEq I] {w : Walk I} {i j k : I} {xs ys : List I}

def inFrontOf (j : I) (xs : List I) : List I := xs.takeWhile fun x => !decide (x = j)

def credit (w : Walk I) (j i : I) : Nat :=
  if j ∈ w.ahead then (inFrontOf j w.ahead).count i else w.ahead.count i + 1

@[simp] theorem inFrontOf_cons_self : inFrontOf j (j :: xs) = [] := by simp [inFrontOf]

theorem inFrontOf_cons_of_ne (h : k ≠ j) : inFrontOf j (k :: xs) = k :: inFrontOf j xs := by
  simp [inFrontOf, h]

theorem inFrontOf_sublist (j : I) (xs : List I) : (inFrontOf j xs).Sublist xs :=
  List.takeWhile_sublist _

theorem inFrontOf_append (hj : j ∈ xs) : inFrontOf j (xs ++ ys) = inFrontOf j xs := by
  induction xs with
  | nil => cases hj
  | cons x xs ih =>
    by_cases hx : x = j
    · simp [hx]
    · rw [List.cons_append, inFrontOf_cons_of_ne hx, inFrontOf_cons_of_ne hx,
        ih ((List.mem_cons.1 hj).resolve_left (Ne.symm hx))]

theorem inFrontOf_erase (hk : k ≠ j) (xs : List I) :
    (inFrontOf j (xs.erase k)).Sublist (inFrontOf j xs) := by
  induction xs with
  | nil => exact List.Sublist.refl _
  | cons x xs ih =>
    by_cases hx : x = k
    · subst hx
      rw [List.erase_cons_head, inFrontOf_cons_of_ne hk]
      exact List.sublist_cons_self _ _
    · rw [List.erase_cons_tail (by simpa using hx)]
      by_cases hj : x = j
      · simp [hj]
      · rw [inFrontOf_cons_of_ne hj, inFrontOf_cons_of_ne hj]
        exact ih.cons_cons x

theorem count_le_one (h : xs.Nodup) : xs.count i ≤ 1 := by
  rw [List.Nodup.count h]
  split <;> omega

theorem credit_le_two (hw : w.items.Nodup) : w.credit j i ≤ 2 := by
  have hahead : w.ahead.Nodup := (List.nodup_append.1 hw).2.1
  rw [credit]
  split
  · have h := count_le_one (i := i) ((inFrontOf_sublist j w.ahead).nodup hahead)
    omega
  · have h := count_le_one (i := i) hahead
    omega

/-- Who comes does not come before `j`, unless it was counted. -/
theorem credit_insertEnd (hj : j ∈ w.items) : (w.insertEnd k).credit j i = w.credit j i := by
  obtain ⟨passed, ahead⟩ := w
  obtain rfl | ⟨ps, m, rfl⟩ := List.eq_nil_or_concat' passed
  · have hj : j ∈ ahead := by simpa [items] using hj
    simp [insertEnd, credit, hj, inFrontOf_append hj]
  · simp [insertEnd, credit]

theorem credit_remove (hk : k ≠ j) : (w.remove k).credit j i ≤ w.credit j i := by
  have hmem : j ∈ w.ahead.erase k ↔ j ∈ w.ahead := List.mem_erase_of_ne hk.symm
  simp only [remove, credit, hmem]
  split
  · exact (inFrontOf_erase hk w.ahead).count_le i
  · exact Nat.add_le_add_right (List.erase_sublist.count_le i) 1

/-- A turn that is not `j`'s uses up credit of the one who has it. -/
theorem credit_next (hw : w.items.Nodup) (hj : j ∈ w.items) {w' : Walk I}
    (hn : w.next = some (w', k)) (hk : k ≠ j) :
    w'.credit j i + (if k = i then 1 else 0) ≤ w.credit j i := by
  obtain ⟨passed, ahead⟩ := w
  cases ahead with
  | cons x xs =>
    obtain ⟨rfl, rfl⟩ : ⟨passed ++ [x], xs⟩ = w' ∧ x = k := by simpa [next] using hn
    by_cases hjx : j ∈ xs
    · simp only [credit, hjx, List.mem_cons_of_mem x hjx, if_true, inFrontOf_cons_of_ne hk,
        List.count_cons, beq_iff_eq]
      exact Nat.le_refl _
    · have hne : j ∉ x :: xs := by simp [hjx, Ne.symm hk]
      simp only [credit, hjx, hne, if_false, List.count_cons, beq_iff_eq]
      omega
  | nil =>
    cases passed with
    | nil => cases hn
    | cons x xs =>
      obtain ⟨rfl, rfl⟩ : ⟨[x], xs⟩ = w' ∧ x = k := by simpa [next] using hn
      simp only [items, List.append_nil, List.nodup_cons] at hw hj
      have hjx : j ∈ xs := (List.mem_cons.1 hj).resolve_left (Ne.symm hk)
      simp only [credit, hjx, if_true, List.not_mem_nil, if_false, List.count_nil]
      have hsub := inFrontOf_sublist j xs
      split
      · rename_i heq
        have hnot : i ∉ inFrontOf j xs := fun hm => hw.1 (heq ▸ hsub.subset hm)
        rw [List.count_eq_zero_of_not_mem hnot]
      · have h := count_le_one (i := i) (hsub.nodup hw.2)
        omega

end Walk

end HmBoard
