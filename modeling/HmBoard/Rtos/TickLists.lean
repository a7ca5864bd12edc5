import HmBoard.Rtos.Delays
import Mathlib.Data.List.Perm.Basic

/-!
# The lists of the delayed tasks

`Ticks.Good`: the two delayed lists hold the tasks that are due before and after the next wrap of
the tick count, in the order of their times, and nobody on them is due already. Every step keeps
it; the loop of the tick wakes exactly the tasks that are due at it.
-/

namespace HmBoard

open Lib

variable {T : Type}

namespace Ticks

variable (s : Ticks T)

/-- The tasks that are not ready. -/
def blocked : List T :=
  s.pxDelayedTaskList.map (·.2) ++ s.pxOverflowDelayedTaskList.map (·.2) ++ s.xSuspendedTaskList ++
    s.xTasksWaitingTermination

/-- Which list a task stands on, and when it is due: not before now, and with `k = 0` after it. -/
structure Good (k : Nat) (s : Ticks T) : Prop where
  tick : s.xTickCount = s.now % tickModulus
  current : ∀ x ∈ s.pxDelayedTaskList,
    s.now < s.due x.2 + k ∧ s.due x.2 / tickModulus = s.now / tickModulus ∧
      x.1 = s.due x.2 % tickModulus
  overflow : ∀ x ∈ s.pxOverflowDelayedTaskList,
    s.due x.2 < s.now + tickModulus ∧ s.due x.2 / tickModulus = s.now / tickModulus + 1 ∧
      x.1 = s.due x.2 % tickModulus
  sorted : s.pxDelayedTaskList.Pairwise fun x y => x.1 ≤ y.1
  sortedOverflow : s.pxOverflowDelayedTaskList.Pairwise fun x y => x.1 ≤ y.1
  next : ∀ x ∈ s.pxDelayedTaskList, s.xNextTaskUnblockTime ≤ x.1
  blocked : ∀ t, t ∈ s.blocked ↔ s.ready t = false
  nodup : s.blocked.Nodup
  event : ∀ t, s.onEvent t = true → s.ready t = false ∧ s.released t = false
  pending : ∀ t ∈ s.xPendingReadyList, s.ready t = false ∧ s.released t = true
  onTime : ∀ t, s.ready t = true → s.released t = false → s.due t ≤ s.now

/-- Nothing is left over while the scheduler runs. -/
def Idle (s : Ticks T) : Prop :=
  s.uxSchedulerSuspended = 0 → s.uxPendedTicks = 0 ∧ s.xPendingReadyList = []

variable {s} {k : Nat}

/-- A task that is ready stands on none of the lists. -/
theorem Good.notMem_blocked (h : Good k s) {t : T} (ht : s.ready t = true) :
    t ∉ s.blocked := by
  intro hb
  simp [(h.blocked t).1 hb] at ht

theorem mem_blocked_of_delayed {x : Nat × T}
    (h : x ∈ s.pxDelayedTaskList ∨ x ∈ s.pxOverflowDelayedTaskList) : x.2 ∈ s.blocked := by
  simp only [Ticks.blocked, List.mem_append, List.mem_map]
  exact .inl (.inl (h.imp (fun hx => ⟨x, hx, rfl⟩) fun hx => ⟨x, hx, rfl⟩))

/-- None of this speaks of the counters of the suspended scheduler. -/
theorem Good.counters (h : Good k s) (uxSchedulerSuspended uxPendedTicks interrupts : Nat) :
    Good k { s with
      uxSchedulerSuspended := uxSchedulerSuspended
      uxPendedTicks := uxPendedTicks
      interrupts := interrupts } :=
  ⟨h.tick, h.current, h.overflow, h.sorted, h.sortedOverflow, h.next, h.blocked, h.nodup, h.event,
    h.pending, h.onTime⟩

theorem start_good : Good 0 (start : Ticks T) ∧ (start : Ticks T).Idle := by
  refine ⟨⟨rfl, ?_, ?_, List.Pairwise.nil, List.Pairwise.nil, ?_, ?_, List.nodup_nil, ?_, ?_, ?_⟩,
    fun _ => ⟨rfl, rfl⟩⟩
  all_goals simp [start, Ticks.blocked]

/-! ## The order of the lists -/

theorem perm_insertByValue (x : Nat × T) (xs : List (Nat × T)) :
    (insertByValue x xs).Perm (x :: xs) := by
  have hsplit := List.takeWhile_append_dropWhile (p := fun y : Nat × T => decide (y.1 ≤ x.1)) (l := xs)
  rw [insertByValue]
  exact List.perm_middle.trans (List.Perm.of_eq (congrArg (x :: ·) hsplit))

theorem sorted_insertByValue (x : Nat × T) {xs : List (Nat × T)}
    (h : xs.Pairwise fun y z => y.1 ≤ z.1) :
    (insertByValue x xs).Pairwise fun y z => y.1 ≤ z.1 := by
  induction xs with
  | nil => exact List.pairwise_singleton _ _
  | cons y ys ih =>
    obtain ⟨hy, hys⟩ := List.pairwise_cons.1 h
    by_cases hle : y.1 ≤ x.1
    · have heq : insertByValue x (y :: ys) = y :: insertByValue x ys := by
        simp [insertByValue, hle]
      rw [heq]
      refine List.pairwise_cons.2 ⟨fun z hz => ?_, ih hys⟩
      rcases List.mem_cons.1 ((perm_insertByValue x ys).mem_iff.1 hz) with rfl | hz
      · exact hle
      · exact hy z hz
    · have heq : insertByValue x (y :: ys) = x :: y :: ys := by
        simp [insertByValue, hle]
      rw [heq]
      refine List.pairwise_cons.2 ⟨fun z hz => ?_, h⟩
      rcases List.mem_cons.1 hz with rfl | hz
      · omega
      · have := hy z hz
        omega

/-- The first task of the delayed list is the next to wake. -/
theorem resetNext_le (hsort : s.pxDelayedTaskList.Pairwise fun x y => x.1 ≤ y.1) {x : Nat × T}
    (hx : x ∈ s.pxDelayedTaskList) : s.resetNext.xNextTaskUnblockTime ≤ x.1 := by
  simp only [Ticks.resetNext]
  cases hl : s.pxDelayedTaskList with
  | nil =>
    rw [hl] at hx
    cases hx
  | cons y ys =>
    rw [hl] at hx hsort
    rcases List.mem_cons.1 hx with rfl | hx
    · exact Nat.le_refl _
    · exact (List.pairwise_cons.1 hsort).1 x hx

theorem Good.resetNext (h : Good k s) : Good k s.resetNext :=
  ⟨h.tick, h.current, h.overflow, h.sorted, h.sortedOverflow, fun _ hx => resetNext_le h.sorted hx,
    h.blocked, h.nodup, h.event, h.pending, h.onTime⟩

/-! ## A tick -/

theorem Good.nextTick (h : Good 0 s) : Good 1 s.nextTick := by
  let s1 : Ticks T := { s with xTickCount := (s.xTickCount + 1) % tickModulus, now := s.now + 1 }
  change Good 1 (if s1.xTickCount = 0 then s1.taskSwitchDelayedLists else s1)
  have htick : s1.xTickCount = (s.now + 1) % tickModulus := by
    simp only [s1, h.tick, Nat.mod_add_mod]
  have honTime : ∀ t, s.ready t = true → s.released t = false → s.due t ≤ s.now + 1 :=
    fun t h1 h2 => Nat.le_succ_of_le (h.onTime t h1 h2)
  by_cases h0 : s1.xTickCount = 0
  · rw [if_pos h0]
    rw [htick] at h0
    have hnil : s.pxDelayedTaskList = [] := by
      refine List.eq_nil_iff_forall_not_mem.2 fun x hx => ?_
      obtain ⟨h1, h2, -⟩ := h.current x hx
      simp only [tickModulus] at h0 h2
      omega
    have hblocked : s1.taskSwitchDelayedLists.blocked = s.blocked := by
      simp [Ticks.blocked, taskSwitchDelayedLists, Ticks.resetNext, s1, hnil]
    refine ⟨htick, fun x hx => ?_, fun x hx => ?_, h.sortedOverflow, ?_,
      fun x hx => resetNext_le h.sortedOverflow hx, ?_, ?_, h.event, h.pending, honTime⟩
    · obtain ⟨h1, h2, h3⟩ := h.overflow x hx
      change s.now + 1 < s.due x.2 + 1 ∧ s.due x.2 / tickModulus = (s.now + 1) / tickModulus ∧ _
      simp only [tickModulus] at h0 h1 h2 ⊢
      exact ⟨by omega, by omega, h3⟩
    · have hx : x ∈ s.pxDelayedTaskList := hx
      rw [hnil] at hx
      cases hx
    · change s.pxDelayedTaskList.Pairwise _
      rw [hnil]
      exact List.Pairwise.nil
    · intro t
      rw [hblocked]
      exact h.blocked t
    · rw [hblocked]
      exact h.nodup
  · rw [if_neg h0]
    rw [htick] at h0
    have hepoch : (s.now + 1) / tickModulus = s.now / tickModulus := by
      simp only [tickModulus] at h0 ⊢
      omega
    refine ⟨htick, fun x hx => ?_, fun x hx => ?_, h.sorted, h.sortedOverflow, h.next, h.blocked,
      h.nodup, h.event, h.pending, honTime⟩
    · obtain ⟨h1, h2, h3⟩ := h.current x hx
      exact ⟨Nat.succ_lt_succ h1, h2.trans hepoch.symm, h3⟩
    · obtain ⟨h1, h2, h3⟩ := h.overflow x hx
      change s.due x.2 < s.now + 1 + tickModulus ∧ s.due x.2 / tickModulus =
        (s.now + 1) / tickModulus + 1 ∧ _
      rw [hepoch]
      exact ⟨by omega, h2, h3⟩

variable [DecidableEq T]

/-- The loop wakes exactly those that are due now. -/
theorem Good.unblock : ∀ (xs : List (Nat × T)) {s : Ticks T}, s.pxDelayedTaskList = xs →
    s.xPendingReadyList = [] → Good 1 s → Good 0 (unblock xs s)
  | [], s, hl, hp, h => by
    have hnil : ∀ x, x ∉ s.pxDelayedTaskList := by simp [hl]
    exact ⟨h.tick, fun x hx => absurd hx (hnil x), h.overflow, h.sorted, h.sortedOverflow,
      fun x hx => absurd hx (hnil x), h.blocked, h.nodup, h.event, h.pending, h.onTime⟩
  | x :: xs, s, hl, hp, h => by
    have hsort := h.sorted
    rw [hl] at hsort
    obtain ⟨hx, hxs⟩ := List.pairwise_cons.1 hsort
    obtain ⟨h1, h2, h3⟩ := h.current x (by simp [hl])
    have htick := h.tick
    rw [Ticks.unblock]
    by_cases hlt : s.xTickCount < x.1
    · rw [if_pos hlt]
      refine ⟨h.tick, fun y hy => ?_, h.overflow, h.sorted, h.sortedOverflow, fun y hy => ?_,
        h.blocked, h.nodup, h.event, h.pending, h.onTime⟩
      · have hle : x.1 ≤ y.1 := by
          have hy : y ∈ s.pxDelayedTaskList := hy
          rw [hl] at hy
          rcases List.mem_cons.1 hy with rfl | hy
          · exact Nat.le_refl _
          · exact hx y hy
        obtain ⟨g1, g2, g3⟩ := h.current y hy
        refine ⟨?_, g2, g3⟩
        change s.now < s.due y.2 + 0
        simp only [tickModulus] at htick g2 g3
        omega
      · have hy : y ∈ s.pxDelayedTaskList := hy
        rw [hl] at hy
        rcases List.mem_cons.1 hy with rfl | hy
        · exact Nat.le_refl _
        · exact hx y hy
    · rw [if_neg hlt]
      have hdue : s.due x.2 = s.now := by
        simp only [tickModulus] at htick h2 h3
        omega
      have hcons : s.blocked = x.2 :: (xs.map (·.2) ++ s.pxOverflowDelayedTaskList.map (·.2) ++
          s.xSuspendedTaskList ++ s.xTasksWaitingTermination) := by
        simp [Ticks.blocked, hl]
      have hnodup := h.nodup
      rw [hcons, List.nodup_cons] at hnodup
      refine Good.unblock xs rfl hp ⟨h.tick, fun y hy => h.current y (hl ▸ List.mem_cons_of_mem x hy),
        h.overflow, hxs, h.sortedOverflow, fun y hy => h.next y (hl ▸ List.mem_cons_of_mem x hy),
        fun t => ?_, hnodup.2, fun t ht => ?_, fun t ht => ?_, fun t h1 h2 => ?_⟩
      · by_cases hne : t = x.2
        · simp only [hne, if_true]
          exact iff_of_false hnodup.1 (by decide)
        · have hb := h.blocked t
          rw [hcons, List.mem_cons, or_iff_right hne] at hb
          simp only [hne, if_false]
          exact hb
      · simp only at ht ⊢
        by_cases hne : t = x.2
        · simp [hne] at ht
        · simpa [hne] using h.event t (by simpa [hne] using ht)
      · have ht : t ∈ s.xPendingReadyList := ht
        rw [hp] at ht
        cases ht
      · simp only at h1 h2 ⊢
        by_cases hne : t = x.2
        · rw [hne]
          exact Nat.le_of_eq hdue
        · exact h.onTime t (by simpa [hne] using h1) h2

/-- What the loop leaves alone. -/
theorem unblock_frame : ∀ (xs : List (Nat × T)) (s : Ticks T),
    (Ticks.unblock xs s).now = s.now ∧ (Ticks.unblock xs s).interrupts = s.interrupts ∧
      (Ticks.unblock xs s).uxPendedTicks = s.uxPendedTicks ∧
      (Ticks.unblock xs s).uxSchedulerSuspended = s.uxSchedulerSuspended ∧
      (Ticks.unblock xs s).xPendingReadyList = s.xPendingReadyList
  | [], _ => ⟨rfl, rfl, rfl, rfl, rfl⟩
  | x :: xs, s => by
    rw [Ticks.unblock]
    split
    · exact ⟨rfl, rfl, rfl, rfl, rfl⟩
    · exact unblock_frame xs _

theorem countTick_frame (s : Ticks T) :
    s.countTick.now = s.now + 1 ∧ s.countTick.interrupts = s.interrupts ∧
      s.countTick.uxPendedTicks = s.uxPendedTicks ∧
      s.countTick.uxSchedulerSuspended = s.uxSchedulerSuspended ∧
      s.countTick.xPendingReadyList = s.xPendingReadyList := by
  have hnext : s.nextTick.now = s.now + 1 ∧ s.nextTick.interrupts = s.interrupts ∧
      s.nextTick.uxPendedTicks = s.uxPendedTicks ∧
      s.nextTick.uxSchedulerSuspended = s.uxSchedulerSuspended ∧
      s.nextTick.xPendingReadyList = s.xPendingReadyList := by
    unfold Ticks.nextTick
    dsimp only
    split <;> exact ⟨rfl, rfl, rfl, rfl, rfl⟩
  obtain ⟨h1, h2, h3, h4, h5⟩ := hnext
  rw [Ticks.countTick]
  split
  · obtain ⟨g1, g2, g3, g4, g5⟩ := unblock_frame s.nextTick.pxDelayedTaskList s.nextTick
    exact ⟨g1.trans h1, g2.trans h2, g3.trans h3, g4.trans h4, g5.trans h5⟩
  · exact ⟨h1, h2, h3, h4, h5⟩

/-- A tick wakes the tasks that are due at it, and no others. -/
theorem Good.countTick (h : Good 0 s) (hp : s.xPendingReadyList = []) : Good 0 s.countTick := by
  have h1 := h.nextTick
  have hp1 : s.nextTick.xPendingReadyList = [] := by
    unfold Ticks.nextTick
    dsimp only
    split <;> exact hp
  rw [Ticks.countTick]
  split
  · exact h1.unblock _ rfl hp1
  · rename_i hlt
    refine ⟨h1.tick, fun x hx => ?_, h1.overflow, h1.sorted, h1.sortedOverflow, h1.next, h1.blocked,
      h1.nodup, h1.event, h1.pending, h1.onTime⟩
    obtain ⟨g1, g2, g3⟩ := h1.current x hx
    have hnext := h1.next x hx
    have htick := h1.tick
    refine ⟨?_, g2, g3⟩
    simp only [tickModulus] at htick g2 g3
    omega

/-! ## What the tasks and interrupts do -/

theorem Good.makeReady (h : Good 0 s) (t : T) (hr : s.released t = true)
    (hp : t ∉ s.xPendingReadyList) : Good 0 (s.makeReady t) := by
  have hblocked : (s.makeReady t).blocked = s.blocked.filter (· ≠ t) := by
    simp [Ticks.blocked, Ticks.makeReady, listRemove, List.filter_append, List.filter_map,
      Function.comp_def]
  refine ⟨h.tick, fun x hx => h.current x (List.mem_filter.1 hx).1,
    fun x hx => h.overflow x (List.mem_filter.1 hx).1, h.sorted.sublist List.filter_sublist,
    h.sortedOverflow.sublist List.filter_sublist, fun x hx => h.next x (List.mem_filter.1 hx).1,
    fun u => ?_, hblocked ▸ h.nodup.filter _, fun u hu => ?_, fun u hu => ?_, fun u h1 h2 => ?_⟩
  · rw [hblocked, List.mem_filter, h.blocked]
    by_cases hne : u = t <;> simp [Ticks.makeReady, hne]
  · have hu : s.onEvent u = true := hu
    obtain ⟨h1, h2⟩ := h.event u hu
    have hne : u ≠ t := fun heq => by simp [heq, hr] at h2
    simpa [Ticks.makeReady, listRemove, hne] using h.event u hu
  · have hu : u ∈ s.xPendingReadyList := hu
    have hne : u ≠ t := fun heq => hp (heq ▸ hu)
    simpa [Ticks.makeReady, listRemove, hne] using h.pending u hu
  · have h2 : s.released u = false := h2
    have hne : u ≠ t := fun heq => by simp [heq, hr] at h2
    exact h.onTime u (by simpa [Ticks.makeReady, hne] using h1) h2

/-- Off the ready list, with a wake time within the next 65535 ticks. -/
theorem Good.addDelayed (h : Good 0 s) {t : T} (ht : s.ready t = true) {due : Nat}
    (h1 : s.now < due) (h2 : due < s.now + tickModulus) :
    Good 0 (s.prvAddCurrentTaskToDelayedList t (due % tickModulus) due) := by
  have hout := h.notMem_blocked ht
  have hcur : ∀ x ∈ s.pxDelayedTaskList, x.2 ≠ t := by
    rintro x hx rfl
    exact hout (mem_blocked_of_delayed (.inl hx))
  have hover : ∀ x ∈ s.pxOverflowDelayedTaskList, x.2 ≠ t := by
    rintro x hx rfl
    exact hout (mem_blocked_of_delayed (.inr hx))
  have hevent : ∀ u, s.onEvent u = true → u ≠ t := by
    rintro u hu rfl
    simp [(h.event u hu).1] at ht
  have hpend : ∀ u ∈ s.xPendingReadyList, u ≠ t := by
    rintro u hu rfl
    simp [(h.pending u hu).1] at ht
  have hready : ∀ {b : List T}, b.Perm (t :: s.blocked) → ∀ u, u ∈ b ↔
      (if u = t then false else s.ready u) = false := by
    intro b hb u
    rw [hb.mem_iff, List.mem_cons, h.blocked]
    by_cases hne : u = t <;> simp [hne]
  have honTime : ∀ u, (if u = t then false else s.ready u) = true →
      (if u = t then false else s.released u) = false → (if u = t then due else s.due u) ≤ s.now := by
    intro u h3 h4
    by_cases hne : u = t
    · simp [hne] at h3
    · simp only [hne, if_false] at h3 h4 ⊢
      exact h.onTime u h3 h4
  have htick := h.tick
  rw [prvAddCurrentTaskToDelayedList]
  dsimp only
  split
  · rename_i hlt
    have hperm : (s.pxDelayedTaskList.map (·.2) ++ (insertByValue (due % tickModulus, t)
        s.pxOverflowDelayedTaskList).map (·.2) ++ s.xSuspendedTaskList ++
          s.xTasksWaitingTermination).Perm (t :: s.blocked) := by
      have hins := (perm_insertByValue (due % tickModulus, t) s.pxOverflowDelayedTaskList).map (·.2)
      refine (((hins.append_left _).append_right _).append_right _).trans ?_
      simp only [List.map_cons, Ticks.blocked, List.append_assoc, List.cons_append]
      exact List.perm_middle
    refine ⟨h.tick, fun x hx => ?_, fun x hx => ?_, h.sorted,
      sorted_insertByValue _ h.sortedOverflow, h.next, hready hperm,
      hperm.nodup_iff.2 (List.nodup_cons.2 ⟨hout, h.nodup⟩), fun u hu => ?_, fun u hu => ?_, honTime⟩
    · simpa [hcur x hx] using h.current x hx
    · rcases List.mem_cons.1 ((perm_insertByValue _ _).mem_iff.1 hx) with rfl | hx
      · simp only [if_true]
        refine ⟨h2, ?_, trivial⟩
        simp only [tickModulus] at hlt h2 htick ⊢
        omega
      · simpa [hover x hx] using h.overflow x hx
    · simpa [hevent u hu] using h.event u hu
    · simpa [hpend u hu] using h.pending u hu
  · rename_i hlt
    have hperm : ((insertByValue (due % tickModulus, t) s.pxDelayedTaskList).map (·.2) ++
        s.pxOverflowDelayedTaskList.map (·.2) ++ s.xSuspendedTaskList ++
          s.xTasksWaitingTermination).Perm (t :: s.blocked) := by
      have hins := (perm_insertByValue (due % tickModulus, t) s.pxDelayedTaskList).map (·.2)
      exact ((hins.append_right _).append_right _).append_right _
    refine ⟨h.tick, fun x hx => ?_, fun x hx => ?_, sorted_insertByValue _ h.sorted,
      h.sortedOverflow, fun x hx => ?_, hready hperm,
      hperm.nodup_iff.2 (List.nodup_cons.2 ⟨hout, h.nodup⟩), fun u hu => ?_, fun u hu => ?_, honTime⟩
    · rcases List.mem_cons.1 ((perm_insertByValue _ _).mem_iff.1 hx) with rfl | hx
      · simp only [if_true]
        refine ⟨h1, ?_, trivial⟩
        simp only [tickModulus] at hlt h2 htick ⊢
        omega
      · simpa [hcur x hx] using h.current x hx
    · simpa [hover x hx] using h.overflow x hx
    · rcases List.mem_cons.1 ((perm_insertByValue _ _).mem_iff.1 hx) with rfl | hx
      · dsimp only
        split <;> omega
      · have := h.next x hx
        dsimp only
        split <;> omega
    · simpa [hevent u hu] using h.event u hu
    · simpa [hpend u hu] using h.pending u hu

theorem Good.delay (h : Good 0 s) {t : T} (ht : s.ready t = true) {d : Nat} (h1 : 0 < d)
    (h2 : d < tickModulus) : Good 0 (s.vTaskDelay t d) := by
  have hwake : (s.xTickCount + d) % tickModulus = (s.now + d) % tickModulus := by
    rw [h.tick, Nat.mod_add_mod]
  rw [vTaskDelay, hwake]
  exact h.addDelayed ht (by omega) (by omega)

/-- It delays where the next wake time is still to come. -/
theorem shouldDelay_iff {now previous d : Nat} (h1 : previous ≤ now)
    (h2 : now < previous + tickModulus) (h3 : 0 < d) (h4 : d < tickModulus) :
    shouldDelay (now % tickModulus) (previous % tickModulus)
      ((previous % tickModulus + d) % tickModulus) = true ↔ now < previous + d := by
  unfold shouldDelay
  rw [Nat.mod_add_mod]
  by_cases hlt : now % tickModulus < previous % tickModulus
  · rw [if_pos hlt, Bool.and_eq_true, decide_eq_true_eq, decide_eq_true_eq]
    simp only [tickModulus] at h2 h4 hlt ⊢
    omega
  · rw [if_neg hlt, Bool.or_eq_true, decide_eq_true_eq, decide_eq_true_eq]
    simp only [tickModulus] at h2 h4 hlt ⊢
    omega

theorem Good.delayUntil (h : Good 0 s) {t : T} (ht : s.ready t = true) {previous d : Nat}
    (h1 : previous ≤ s.now) (h2 : s.now < previous + tickModulus) (h3 : 0 < d)
    (h4 : d < tickModulus) : Good 0 (s.vTaskDelayUntil t previous d) := by
  have hiff := shouldDelay_iff h1 h2 h3 h4
  rw [← h.tick] at hiff
  rw [vTaskDelayUntil]
  by_cases hlt : s.now < previous + d
  · rw [if_pos (hiff.2 hlt), Nat.mod_add_mod]
    exact h.addDelayed ht hlt (by omega)
  · rw [if_neg (fun hc => hlt (hiff.1 hc))]
    have hout := h.notMem_blocked ht
    refine ⟨h.tick, fun x hx => ?_, fun x hx => ?_, h.sorted, h.sortedOverflow, h.next, h.blocked,
      h.nodup, fun u hu => ?_, fun u hu => ?_, fun u g1 g2 => ?_⟩
    · have hne : x.2 ≠ t := by
        rintro rfl
        exact hout (mem_blocked_of_delayed (.inl hx))
      simpa [hne] using h.current x hx
    · have hne : x.2 ≠ t := by
        rintro rfl
        exact hout (mem_blocked_of_delayed (.inr hx))
      simpa [hne] using h.overflow x hx
    · have hne : u ≠ t := fun heq => by simp [(h.event u hu).1, ← heq] at ht
      simpa [hne] using h.event u hu
    · have hne : u ≠ t := fun heq => by simp [(h.pending u hu).1, ← heq] at ht
      simpa [hne] using h.pending u hu
    · by_cases hne : u = t
      · simp only [hne, if_true]
        exact Nat.le_of_not_lt hlt
      · simp only [hne, if_false] at g2 ⊢
        exact h.onTime u g1 g2

/-- A task that is not ready waits for an event, too. -/
theorem Good.setEvent (h : Good 0 s) {t : T} (h1 : s.ready t = false) (h2 : s.released t = false) :
    Good 0 { s with onEvent := fun u => if u = t then true else s.onEvent u } := by
  refine ⟨h.tick, h.current, h.overflow, h.sorted, h.sortedOverflow, h.next, h.blocked, h.nodup,
    fun u hu => ?_, h.pending, h.onTime⟩
  by_cases hne : u = t
  · subst hne
    exact ⟨h1, h2⟩
  · exact h.event u (by simpa [hne] using hu)

theorem Good.place (h : Good 0 s) {t : T} (ht : s.ready t = true) {d : Nat} (h1 : 0 < d)
    (h2 : d < tickModulus) : Good 0 (s.vTaskPlaceOnEventList t d) := by
  have hout := h.notMem_blocked ht
  rw [vTaskPlaceOnEventList]
  dsimp only
  split
  · have hblocked : ({ s with xSuspendedTaskList := s.xSuspendedTaskList ++ [t] } :
        Ticks T).blocked.Perm (t :: s.blocked) := by
      simp only [Ticks.blocked, List.append_assoc, List.singleton_append]
      exact ((List.perm_middle.append_left _).trans List.perm_middle).append_left _
        |>.trans List.perm_middle
    have hsus : Good 0 { s with
        xSuspendedTaskList := s.xSuspendedTaskList ++ [t]
        ready := fun u => if u = t then false else s.ready u
        released := fun u => if u = t then false else s.released u } := by
      refine ⟨h.tick, h.current, h.overflow, h.sorted, h.sortedOverflow, h.next, fun u => ?_, ?_,
        fun u hu => ?_, fun u hu => ?_, fun u h3 h4 => ?_⟩
      · change u ∈ ({ s with xSuspendedTaskList := s.xSuspendedTaskList ++ [t] } : Ticks T).blocked ↔ _
        rw [hblocked.mem_iff, List.mem_cons, h.blocked]
        by_cases hne : u = t <;> simp [hne]
      · change ({ s with xSuspendedTaskList := s.xSuspendedTaskList ++ [t] } : Ticks T).blocked.Nodup
        exact hblocked.nodup_iff.2 (List.nodup_cons.2 ⟨hout, h.nodup⟩)
      · have hne : u ≠ t := fun heq => by simp [(h.event u hu).1, ← heq] at ht
        simpa [hne] using h.event u hu
      · have hne : u ≠ t := fun heq => by simp [(h.pending u hu).1, ← heq] at ht
        simpa [hne] using h.pending u hu
      · by_cases hne : u = t
        · simp [hne] at h3
        · exact h.onTime u (by simpa [hne] using h3) (by simpa [hne] using h4)
    exact hsus.setEvent (if_pos rfl) (if_pos rfl)
  · have hdelay := h.delay ht h1 h2
    have hfields : (s.vTaskDelay t d).ready t = false ∧ (s.vTaskDelay t d).released t = false := by
      unfold vTaskDelay prvAddCurrentTaskToDelayedList
      dsimp only
      split <;> simp
    have hcomm : ({ s with onEvent := fun u => if u = t then true else s.onEvent u } :
        Ticks T).vTaskDelay t d = { s.vTaskDelay t d with
          onEvent := fun u => if u = t then true else (s.vTaskDelay t d).onEvent u } := by
      unfold vTaskDelay prvAddCurrentTaskToDelayedList
      dsimp only
      split <;> rfl
    rw [hcomm]
    exact hdelay.setEvent hfields.1 hfields.2

/-- A task that is not ready and waits for no event may be woken before its time. -/
theorem Good.release (h : Good 0 s) {t : T} (hr : s.ready t = false) (ht : s.onEvent t = false) :
    Good 0 { s with released := fun u => if u = t then true else s.released u } := by
  refine ⟨h.tick, h.current, h.overflow, h.sorted, h.sortedOverflow, h.next, h.blocked, h.nodup,
    fun u hu => ?_, fun u hu => ?_, fun u h1 h2 => ?_⟩
  · have hu : s.onEvent u = true := hu
    have hne : u ≠ t := by
      rintro rfl
      rw [hu] at ht
      cases ht
    simpa [hne] using h.event u hu
  · by_cases hne : u = t
    · simp [hne, hr]
    · simpa [hne] using h.pending u hu
  · by_cases hne : u = t
    · simp [hne] at h2
    · exact h.onTime u h1 (by simpa [hne] using h2)

/-- Woken at once, or when the scheduler goes on. -/
theorem Good.wakeUp (h : Good 0 s) {t : T} (hr : s.ready t = false) (hrel : s.released t = true)
    (hp : t ∉ s.xPendingReadyList) :
    Good 0 (if s.uxSchedulerSuspended = 0 then s.makeReady t
      else { s with xPendingReadyList := s.xPendingReadyList ++ [t] }) := by
  split
  · exact h.makeReady t hrel hp
  · refine ⟨h.tick, h.current, h.overflow, h.sorted, h.sortedOverflow, h.next, h.blocked, h.nodup,
      h.event, fun u hu => ?_, h.onTime⟩
    rcases List.mem_append.1 hu with hu | hu
    · exact h.pending u hu
    · obtain rfl := List.mem_singleton.1 hu
      exact ⟨hr, hrel⟩

theorem Good.remove (h : Good 0 s) {t : T} (ht : s.onEvent t = true) :
    Good 0 (s.xTaskRemoveFromEventList t) := by
  obtain ⟨hr, hrel⟩ := h.event t ht
  have h1 : Good 0 { s with onEvent := fun u => if u = t then false else s.onEvent u } := by
    refine ⟨h.tick, h.current, h.overflow, h.sorted, h.sortedOverflow, h.next, h.blocked, h.nodup,
      fun u hu => ?_, h.pending, h.onTime⟩
    by_cases hne : u = t
    · simp [hne] at hu
    · exact h.event u (by simpa [hne] using hu)
  have hp : t ∉ s.xPendingReadyList := by
    intro hc
    rw [(h.pending t hc).2] at hrel
    cases hrel
  exact (h1.release hr (if_pos rfl)).wakeUp hr (if_pos rfl) hp

/-! ### Tasks that are suspended, resumed and deleted -/

theorem isTaskSuspended_iff {t : T} : s.isTaskSuspended t = true ↔
    t ∈ s.xSuspendedTaskList ∧ t ∉ s.xPendingReadyList ∧ s.onEvent t = false := by
  simp [isTaskSuspended, and_assoc]

theorem Good.suspended (h : Good 0 s) {t : T} (ht : s.isTaskSuspended t = true) :
    Good 0 { s with released := fun u => if u = t then true else s.released u } ∧
      s.ready t = false ∧ t ∉ s.xPendingReadyList := by
  obtain ⟨hmem, hp, he⟩ := isTaskSuspended_iff.1 ht
  have hr : s.ready t = false :=
    (h.blocked t).1 (List.mem_append_left _ (List.mem_append_right _ hmem))
  exact ⟨h.release hr he, hr, hp⟩

theorem Good.resume (h : Good 0 s) (t : T) : Good 0 (s.vTaskResume t) := by
  rw [vTaskResume]
  split
  · next ht =>
    obtain ⟨hrel, -, hp⟩ := h.suspended ht
    exact hrel.makeReady t (if_pos rfl) hp
  · exact h

theorem Good.resumeFromISR (h : Good 0 s) (t : T) : Good 0 (s.xTaskResumeFromISR t) := by
  rw [xTaskResumeFromISR]
  split
  · next ht =>
    obtain ⟨hrel, hr, hp⟩ := h.suspended ht
    exact hrel.wakeUp hr (if_pos rfl) hp
  · exact h

/-- A task taken off all lists goes to one of those that no tick looks at. -/
theorem Good.park (h : Good 0 s) (t : T) {sus del : List T}
    (hperm : (sus ++ del).Perm
      (t :: ((s.takeOff t).xSuspendedTaskList ++ (s.takeOff t).xTasksWaitingTermination))) :
    Good 0 { s.takeOff t with xSuspendedTaskList := sus, xTasksWaitingTermination := del } := by
  have hblocked : ({ s.takeOff t with
      xSuspendedTaskList := sus, xTasksWaitingTermination := del } : Ticks T).blocked.Perm
        (t :: s.blocked.filter (· ≠ t)) := by
    have hrest : (s.takeOff t).blocked = s.blocked.filter (· ≠ t) := by
      simp [Ticks.blocked, takeOff, listRemove, List.filter_append, List.filter_map,
        Function.comp_def]
    rw [← hrest]
    simp only [Ticks.blocked, List.append_assoc]
    refine ((hperm.append_left _).append_left _).trans ?_
    exact (List.perm_middle.append_left _).trans List.perm_middle
  refine ⟨h.tick, fun x hx => h.current x (List.mem_filter.1 hx).1,
    fun x hx => h.overflow x (List.mem_filter.1 hx).1, h.sorted.sublist List.filter_sublist,
    h.sortedOverflow.sublist List.filter_sublist, fun x hx => h.next x (List.mem_filter.1 hx).1,
    fun u => ?_, ?_, fun u hu => ?_, fun u hu => ?_, fun u h1 h2 => ?_⟩
  · rw [hblocked.mem_iff, List.mem_cons, List.mem_filter, h.blocked]
    by_cases hne : u = t <;> simp [takeOff, listRemove, hne]
  · refine hblocked.nodup_iff.2 (List.nodup_cons.2 ⟨fun hm => ?_, h.nodup.filter _⟩)
    simpa using (List.mem_filter.1 hm).2
  · by_cases hne : u = t
    · simp [takeOff, hne] at hu
    · simpa [takeOff, listRemove, hne] using h.event u (by simpa [takeOff, hne] using hu)
  · obtain ⟨hu, hne⟩ := List.mem_filter.1 (show u ∈ s.xPendingReadyList.filter (· ≠ t) from hu)
    have hne : u ≠ t := by simpa using hne
    simpa [takeOff, listRemove, hne] using h.pending u hu
  · by_cases hne : u = t
    · simp [takeOff, listRemove, hne] at h1
    · exact h.onTime u (by simpa [takeOff, listRemove, hne] using h1) h2

theorem Good.suspend (h : Good 0 s) (t : T) : Good 0 (s.vTaskSuspend t) := by
  refine h.park t ?_
  rw [List.append_assoc]
  exact List.perm_middle

theorem Good.delete (h : Good 0 s) (t : T) : Good 0 (s.vTaskDelete t) := by
  refine h.park t ?_
  rw [← List.append_assoc]
  exact List.perm_append_comm

/-- All the ticks that were pended. -/
theorem Good.countPended : ∀ (n : Nat) {s : Ticks T}, Good 0 s → s.xPendingReadyList = [] →
    Good 0 (countPended n s)
  | 0, _, h, _ => h.counters _ 0 _
  | n + 1, s, h, hp =>
    Good.countPended n (h.countTick hp) ((countTick_frame s).2.2.2.2.trans hp)

theorem countPended_frame : ∀ (n : Nat) (s : Ticks T),
    (Ticks.countPended n s).now = s.now + n ∧ (Ticks.countPended n s).interrupts = s.interrupts ∧
      (Ticks.countPended n s).uxPendedTicks = 0 ∧
      (Ticks.countPended n s).uxSchedulerSuspended = s.uxSchedulerSuspended ∧
      (Ticks.countPended n s).xPendingReadyList = s.xPendingReadyList
  | 0, _ => ⟨rfl, rfl, rfl, rfl, rfl⟩
  | n + 1, s => by
    obtain ⟨h1, h2, h3, h4, h5⟩ := countPended_frame n s.countTick
    obtain ⟨g1, g2, -, g4, g5⟩ := countTick_frame s
    rw [g1] at h1
    exact ⟨h1.trans (by omega), h2.trans g2, h3, h4.trans g4, h5.trans g5⟩

/-- The pending tasks become ready. -/
theorem Good.makeAllReady : ∀ (ts : List T) {s : Ticks T}, Good 0 s →
    s.xPendingReadyList = [] → (∀ t ∈ ts, s.released t = true) →
    Good 0 (ts.foldl (fun s t => s.makeReady t) s)
  | [], _, h, _, _ => h
  | t :: ts, s, h, hp, hr => by
    have hready := h.makeReady t (hr t List.mem_cons_self) (by simp [hp])
    exact Good.makeAllReady ts hready hp fun u hu => hr u (List.mem_cons_of_mem t hu)

theorem makeAllReady_frame : ∀ (ts : List T) (s : Ticks T),
    (ts.foldl (fun s t => s.makeReady t) s).now = s.now ∧
      (ts.foldl (fun s t => s.makeReady t) s).interrupts = s.interrupts ∧
      (ts.foldl (fun s t => s.makeReady t) s).uxPendedTicks = s.uxPendedTicks ∧
      (ts.foldl (fun s t => s.makeReady t) s).uxSchedulerSuspended = s.uxSchedulerSuspended ∧
      (ts.foldl (fun s t => s.makeReady t) s).xPendingReadyList = s.xPendingReadyList
  | [], _ => ⟨rfl, rfl, rfl, rfl, rfl⟩
  | t :: ts, s => makeAllReady_frame ts (s.makeReady t)

theorem resumeAll_spec (h : Good 0 s) :
    Good 0 s.xTaskResumeAll ∧ s.xTaskResumeAll.Idle ∧
      s.xTaskResumeAll.interrupts = s.interrupts ∧
      s.xTaskResumeAll.now + s.xTaskResumeAll.uxPendedTicks = s.now + s.uxPendedTicks ∧
      s.now ≤ s.xTaskResumeAll.now := by
  rw [xTaskResumeAll]
  dsimp only
  split
  · rename_i h0
    have hclear : Good 0 { s with
        uxSchedulerSuspended := s.uxSchedulerSuspended - 1, xPendingReadyList := [] } :=
      ⟨h.tick, h.current, h.overflow, h.sorted, h.sortedOverflow, h.next, h.blocked, h.nodup,
        h.event, fun _ hu => (nomatch hu), h.onTime⟩
    have hready := hclear.makeAllReady s.xPendingReadyList rfl fun t ht => (h.pending t ht).2
    obtain ⟨g1, g2, g3, -, g5⟩ := makeAllReady_frame s.xPendingReadyList { s with
      uxSchedulerSuspended := s.uxSchedulerSuspended - 1, xPendingReadyList := [] }
    have hgood := hready.countPended s.uxPendedTicks g5
    obtain ⟨k1, k2, k3, -, k5⟩ := countPended_frame s.uxPendedTicks
      (s.xPendingReadyList.foldl (fun s t => s.makeReady t) { s with
        uxSchedulerSuspended := s.uxSchedulerSuspended - 1, xPendingReadyList := [] })
    rw [g3]
    rw [k3, k1, g1]
    exact ⟨hgood, fun _ => ⟨k3, k5.trans g5⟩, k2.trans g2, rfl, Nat.le_add_right _ _⟩
  · rename_i h0
    exact ⟨h.counters _ _ _, fun hc => absurd hc h0, rfl, rfl, Nat.le_refl _⟩

theorem vTaskDelay_frame (s : Ticks T) (t : T) (w due : Nat) :
    (s.prvAddCurrentTaskToDelayedList t w due).now = s.now ∧
      (s.prvAddCurrentTaskToDelayedList t w due).interrupts = s.interrupts ∧
      (s.prvAddCurrentTaskToDelayedList t w due).uxPendedTicks = s.uxPendedTicks ∧
      (s.prvAddCurrentTaskToDelayedList t w due).uxSchedulerSuspended = s.uxSchedulerSuspended ∧
      (s.prvAddCurrentTaskToDelayedList t w due).xPendingReadyList = s.xPendingReadyList := by
  unfold prvAddCurrentTaskToDelayedList
  dsimp only
  split <;> exact ⟨rfl, rfl, rfl, rfl, rfl⟩

/-- A step keeps the lists in order and the books of the ticks. -/
theorem Good.step (h : Good 0 s) (hi : s.Idle) {l : TickLabel T} {s' : Ticks T}
    (hs : s.step l = some s') : Good 0 s' ∧ s'.Idle := by
  cases l with
  | tick =>
    simp only [Ticks.step, Option.some.injEq] at hs
    subst hs
    rw [xTaskIncrementTick]
    split
    · rename_i h0
      obtain ⟨hp0, hp⟩ := hi h0
      have hgood := h.countTick hp
      obtain ⟨-, -, h3, -, h5⟩ := countTick_frame s
      exact ⟨hgood.counters _ _ _, fun _ => ⟨h3.trans hp0, h5.trans hp⟩⟩
    · rename_i h0
      exact ⟨h.counters _ _ _, fun hc => absurd hc h0⟩
  | suspendAll =>
    simp only [Ticks.step, Option.ite_none_right_eq_some, Option.some.injEq] at hs
    obtain ⟨-, rfl⟩ := hs
    exact ⟨h.counters _ _ _, fun hc => absurd hc (Nat.succ_ne_zero _)⟩
  | resumeAll =>
    simp only [Ticks.step, Option.ite_none_right_eq_some, Option.some.injEq] at hs
    obtain ⟨-, rfl⟩ := hs
    obtain ⟨h1, h2, -⟩ := resumeAll_spec h
    exact ⟨h1, h2⟩
  | delay t d =>
    simp only [Ticks.step, Option.ite_none_right_eq_some, Option.some.injEq] at hs
    obtain ⟨⟨hsus, ht, h1, h2⟩, rfl⟩ := hs
    refine ⟨h.delay ht h1 h2, fun hc => ?_⟩
    rw [vTaskDelay, (vTaskDelay_frame s t _ _).2.2.2.1] at hc
    omega
  | delayUntil t previous d =>
    simp only [Ticks.step, Option.ite_none_right_eq_some, Option.some.injEq] at hs
    obtain ⟨⟨hsus, ht, h1, h2, h3, h4⟩, rfl⟩ := hs
    refine ⟨h.delayUntil ht h3 h4 h1 h2, fun hc => ?_⟩
    rw [vTaskDelayUntil] at hc
    split at hc
    · rw [(vTaskDelay_frame s t _ _).2.2.2.1] at hc
      omega
    · exact absurd hc (Nat.pos_iff_ne_zero.1 hsus)
  | placeOnEventList t d =>
    simp only [Ticks.step, Option.ite_none_right_eq_some, Option.some.injEq] at hs
    obtain ⟨⟨hsus, ht, h1, h2⟩, rfl⟩ := hs
    refine ⟨h.place ht h1 h2, fun hc => ?_⟩
    rw [vTaskPlaceOnEventList] at hc
    dsimp only at hc
    split at hc
    · exact absurd hc (Nat.pos_iff_ne_zero.1 hsus)
    · rw [vTaskDelay, (vTaskDelay_frame _ t _ _).2.2.2.1] at hc
      exact absurd hc (Nat.pos_iff_ne_zero.1 hsus)
  | removeFromEventList t =>
    simp only [Ticks.step, Option.ite_none_right_eq_some, Option.some.injEq] at hs
    obtain ⟨ht, rfl⟩ := hs
    refine ⟨h.remove ht, ?_⟩
    rw [xTaskRemoveFromEventList]
    dsimp only
    split
    · exact hi
    · rename_i h0
      exact fun hc => absurd hc h0
  | suspend t =>
    obtain rfl : s.vTaskSuspend t = s' := Option.some.inj hs
    refine ⟨h.suspend t, fun h0 => ⟨(hi h0).1, ?_⟩⟩
    simp [vTaskSuspend, takeOff, (hi h0).2]
  | delete t =>
    obtain rfl : s.vTaskDelete t = s' := Option.some.inj hs
    refine ⟨h.delete t, fun h0 => ⟨(hi h0).1, ?_⟩⟩
    simp [vTaskDelete, takeOff, (hi h0).2]
  | resetNext =>
    obtain rfl : s.resetNext = s' := Option.some.inj hs
    exact ⟨h.resetNext, hi⟩
  | resume t =>
    obtain rfl : s.vTaskResume t = s' := Option.some.inj hs
    refine ⟨h.resume t, ?_⟩
    rw [vTaskResume]
    split <;> exact hi
  | resumeFromISR t =>
    obtain rfl : s.xTaskResumeFromISR t = s' := Option.some.inj hs
    refine ⟨h.resumeFromISR t, ?_⟩
    rw [xTaskResumeFromISR]
    dsimp only
    split
    · split
      · exact hi
      · rename_i h0
        exact fun hc => absurd hc h0
    · exact hi

theorem run_good {ls : List (TickLabel T)} {s : Ticks T} (hrun : ls.foldlM step start = some s) :
    Good 0 s ∧ s.Idle :=
  (Runs.of_labels ls hrun).inv (I := fun s => Good 0 s ∧ s.Idle) start_good
    fun _ _ _ h _ hs => h.1.step h.2 hs

end Ticks

end HmBoard
