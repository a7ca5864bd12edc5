import HmBoard.Rtos.Preemption
import Mathlib.Algebra.Group.Action.Defs
import Mathlib.Algebra.Order.BigOperators.Group.Finset

/-!
# Time slicing

While a task stays ready at its priority, every other task is switched in from the same ready list at
most twice before it: the tasks that become ready go in front of the list's index, and the index
goes on by one at each switch. Only `vTaskPrioritySet` of the task itself can put it off, by moving
it to the back of its own list.
-/

namespace HmBoard

open Lib Function

namespace Scheduler

variable {T E : Type} [DecidableEq T] [DecidableEq E] [Fintype T] [Fintype E]

/-- Ready at priority `p`. -/
def ReadyAt (t : T) (p : Priority) (s : Scheduler T E) : Prop :=
  s.isReady t = true ∧ s.uxPriority t = p

omit [Fintype T] in
theorem Outcome.fair_of_ready {l : SchedulerLabel T E} {xIdleTask : T} {x : Option T}
    {s s' : Scheduler T E} {a a' : TaskWalks T E} {new : List (Priority × T)} {t : T} {p : Priority}
    (h : Outcome l xIdleTask x s s' a a' new) (hs : ReadyAt t p s) (hs' : ReadyAt t p s')
    (hl : ∀ q, l ≠ .prioritySet t q) : x ≠ some t := by
  intro hx
  obtain ⟨q, hq⟩ | hne := h.left t hx hs.1 hs'.1
  · exact hl q hq
  · exact hne (hs'.2.trans hs.2.symm)

theorem fair_run (hT : Fintype.card T < 256) {xIdleTask t : T} {p : Priority}
    {labels : List (SchedulerLabel T E)} {s s' : Scheduler T E} {a : TaskWalks T E}
    (h : Good none s a) (hidle : s.isReady xIdleTask = true)
    (hready : Along (fun s l => s.step xIdleTask l) (ReadyAt t p) s labels)
    (hset : ∀ q, SchedulerLabel.prioritySet t q ∉ labels)
    (hrun : run xIdleTask labels s = some s') :
    ∃ new, s'.dispatched = s.dispatched ++ new ∧
      ((p, t) ∉ new → ∀ u n, Waiting a p t u n → new.count (p, u) ≤ n) := by
  induction labels generalizing s a with
  | nil =>
    obtain rfl : s = s' := by simpa [run] using hrun
    exact ⟨[], (List.append_nil _).symm, fun _ u n _ => Nat.zero_le n⟩
  | cons l labels ih =>
    obtain ⟨s1, hs1, hrun⟩ := foldlM_cons hrun
    obtain ⟨a1, x, new, hout, -⟩ := step_outcome h hT hidle hs1
    have hready1 := hready.2 s1 hs1
    have hx := hout.fair_of_ready hready.1 hready1.head fun q hq => hset q (by simp [hq])
    obtain ⟨new', hnew', hcount⟩ := ih hout.good (hout.idle hidle) hready1
      (fun q hq => hset q (List.mem_cons_of_mem l hq)) hrun
    refine ⟨new ++ new', by rw [hnew', hout.dispatched, List.append_assoc], fun hnot u n hw => ?_⟩
    rw [List.mem_append, not_or] at hnot
    obtain ⟨h1, hw1⟩ := hout.fair p t u n hx hnot.1 hw
    have h2 := hcount hnot.2 u _ hw1
    rw [List.count_append]
    omega

omit [DecidableEq E] [Fintype E] in
/-- The dispatches from one list, task by task. -/
theorem dispatches_le {new : List (Priority × T)} {p : Priority} {t : T} (ht : (p, t) ∉ new)
    (hcount : ∀ u, new.count (p, u) ≤ 2) :
    (new.filter fun d => decide (d.1 = p)).length ≤ 2 * (Fintype.card T - 1) := by
  have hmap : ∀ u, ((new.filter fun d => decide (d.1 = p)).map Prod.snd).count u =
      new.count (p, u) := by
    intro u
    rw [List.count, List.countP_map, List.countP_filter, List.count]
    refine List.countP_congr fun d _ => ?_
    simp [Prod.ext_iff, and_comm]
  have hsub : ((new.filter fun d => decide (d.1 = p)).map Prod.snd).toFinset ⊆
      Finset.univ.erase t := by
    intro u hu
    rw [Finset.mem_erase]
    refine ⟨fun heq => ht ?_, Finset.mem_univ u⟩
    obtain ⟨d, hd, hdu⟩ := List.mem_map.1 (List.mem_toFinset.1 hu)
    obtain ⟨hd, hp⟩ := List.mem_filter.1 hd
    rw [← heq, ← hdu, ← of_decide_eq_true hp]
    exact hd
  calc (new.filter fun d => decide (d.1 = p)).length
      = ((new.filter fun d => decide (d.1 = p)).map Prod.snd).length := (List.length_map _).symm
    _ = ∑ u ∈ ((new.filter fun d => decide (d.1 = p)).map Prod.snd).toFinset,
          ((new.filter fun d => decide (d.1 = p)).map Prod.snd).count u :=
        (List.sum_toFinset_count_eq_length _).symm
    _ ≤ ((new.filter fun d => decide (d.1 = p)).map Prod.snd).toFinset.card • 2 :=
        Finset.sum_le_card_nsmul _ _ 2 fun u _ => (hmap u).le.trans (hcount u)
    _ ≤ 2 * (Fintype.card T - 1) := by
        have hcard := Finset.card_le_card hsub
        rw [Finset.card_erase_of_mem (Finset.mem_univ t), Finset.card_univ] at hcard
        rw [smul_eq_mul]
        omega

/-- While task `t` stays ready at priority `p` and is not switched in, no other task is switched in
from ready list `p` more than twice. -/
theorem time_slicing (b : Setup T E) {before labels : List (SchedulerLabel T E)}
    {s s' : Scheduler T E} (hbefore : run b.xIdleTask before b.start = some s)
    (hrun : run b.xIdleTask labels s = some s') {t : T} {p : Priority}
    (hready : Along (fun s l => s.step b.xIdleTask l) (ReadyAt t p) s labels)
    (hset : ∀ q, SchedulerLabel.prioritySet t q ∉ labels) :
    ∃ new, s'.dispatched = s.dispatched ++ new ∧
      ((p, t) ∈ new ∨ (∀ u, new.count (p, u) ≤ 2) ∧
        (new.filter fun d => decide (d.1 = p)).length ≤ 2 * (Fintype.card T - 1)) := by
  have hsound := b.sound_run hbefore
  obtain ⟨a, hgood⟩ := hsound.good
  obtain ⟨new, hnew, hcount⟩ := fair_run b.few hgood hsound.idle hready hset hrun
  refine ⟨new, hnew, ?_⟩
  by_cases ht : (p, t) ∈ new
  · exact .inl ht
  · have hwait : ∀ u, Waiting a p t u 2 := by
      intro u
      obtain ⟨hr, rfl⟩ := hready.head
      exact ⟨hgood.mem_of_ready hr, Walk.credit_le_two (hgood.rep.nodup _)⟩
    have htwo : ∀ u, new.count (p, u) ≤ 2 := fun u => hcount ht u 2 (hwait u)
    exact .inr ⟨htwo, dispatches_le ht htwo⟩

instance (t : T) (p : Priority) (s : Scheduler T E) : Decidable (ReadyAt t p s) :=
  inferInstanceAs (Decidable (_ ∧ _))

/-- Task 3 blocks and task 1 is switched in, while task 2 waits for its turn. -/
theorem time_slicing_four :
    ∃ s s' new, run 0 [.suspendAll, .block .forever] fourTasks.start = some s ∧
      run 0 [.resumeAll [], .yield] s = some s' ∧ s'.pxCurrentTCB = 1 ∧
      s'.dispatched = s.dispatched ++ new ∧
      ((⟨1, by decide⟩, 2) ∈ new ∨ (∀ u, new.count (⟨1, by decide⟩, u) ≤ 2) ∧
        (new.filter fun d => decide (d.1 = ⟨1, by decide⟩)).length ≤ 6) := by
  obtain ⟨s, hbefore, hs⟩ := Option.any_eq_true _ _ |>.1
    (show (run 0 [.suspendAll, .block .forever] fourTasks.start).any (fun s =>
      decide (Along (fun s l => s.step 0 l) (ReadyAt 2 ⟨1, by decide⟩) s [.resumeAll [], .yield]) &&
        (run 0 [.resumeAll [], .yield] s).any fun s' => decide (s'.pxCurrentTCB = 1)) = true by
      decide +kernel)
  obtain ⟨hready, hs⟩ := Bool.and_eq_true_iff.1 hs
  obtain ⟨s', hrun, hcur⟩ := Option.any_eq_true _ _ |>.1 hs
  obtain ⟨new, hnew, hor⟩ :=
    time_slicing fourTasks hbefore hrun (of_decide_eq_true hready) (by simp)
  exact ⟨s, s', new, hbefore, hrun, of_decide_eq_true hcur, hnew, hor⟩

end Scheduler

end HmBoard
