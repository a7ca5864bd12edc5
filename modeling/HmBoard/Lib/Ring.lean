import Mathlib.Data.Nat.ModEq

/-!
# Ring buffers

`n` slots in a circle. `window f n r k` is what the `k` slots after slot `r` hold, in turn:
the contents of a ring buffer of `k` items that reads from behind `r`. A slot outside the window
can change without the window (`window_congr`); the window grows by the slot behind its last item
(`window_push_back`) or by slot `r` itself (`window_push_front`), and shrinks by its first
(`window_pop`).
-/

namespace HmBoard.Lib

variable {α : Type} {f g : Nat → α} {n r k : Nat}

def window (f : Nat → α) (n r k : Nat) : List α :=
  (List.range k).map fun i => f ((r + 1 + i) % n)

@[simp] theorem length_window : (window f n r k).length = k := by simp [window]

@[simp] theorem window_zero : window f n r 0 = [] := rfl

/-- The first item. -/
theorem window_pop :
    window f n r (k + 1) = f ((r + 1) % n) :: window f n ((r + 1) % n) k := by
  have hi : ∀ i, (r + 1 + (i + 1)) % n = ((r + 1) % n + 1 + i) % n := by
    intro i
    rw [Nat.add_assoc ((r + 1) % n), Nat.mod_add_mod]
    congr 1
    omega
  simp [window, List.range_succ_eq_map, Function.comp_def, hi]

/-- The last item. -/
theorem window_last :
    window f n r (k + 1) = window f n r k ++ [f ((r + 1 + k) % n)] := by
  simp [window, List.range_succ]

theorem window_congr (h : ∀ i, i < k → g ((r + 1 + i) % n) = f ((r + 1 + i) % n)) :
    window g n r k = window f n r k :=
  List.map_congr_left fun i hi => h i (List.mem_range.1 hi)

theorem window_const {x : α} (h : ∀ i, f i = x) : window f n r k = List.replicate k x := by
  simp [window, h, List.map_const']

/-- Different places of one turn are different slots. -/
theorem slot_ne {i j : Nat} (hi : i < n) (hj : j < n) (h : i ≠ j) : (r + i) % n ≠ (r + j) % n := by
  intro heq
  have hmod : i ≡ j [MOD n] := Nat.ModEq.add_left_cancel' r heq
  exact h (hmod.eq_of_lt_of_lt hi hj)

/-- The slot behind the last item takes a new one. -/
theorem window_push_back (hk : k < n)
    (h : ∀ j, j < n → j ≠ (r + 1 + k) % n → g j = f j) :
    window g n r (k + 1) = window f n r k ++ [g ((r + 1 + k) % n)] := by
  rw [window_last, window_congr (f := f)]
  intro i hi
  exact h _ (Nat.mod_lt _ (by omega)) (slot_ne (by omega) hk (by omega))

/-- Slot `r` takes a new first item. -/
theorem window_push_front (hr : r < n) (hk : k < n) (h : ∀ j, j < n → j ≠ r → g j = f j) :
    window g n ((r + (n - 1)) % n) (k + 1) = g r :: window f n r k := by
  have hback : ((r + (n - 1)) % n + 1) % n = r := by
    rw [Nat.mod_add_mod, show r + (n - 1) + 1 = r + n by omega, Nat.add_mod_right,
      Nat.mod_eq_of_lt hr]
  rw [window_pop, hback, window_congr (f := f)]
  intro i hi
  refine h _ (Nat.mod_lt _ (by omega)) fun heq => ?_
  have hne := slot_ne (r := r) (i := 1 + i) (j := 0) (n := n) (by omega) (by omega) (by omega)
  rw [← Nat.add_assoc, Nat.add_zero r, Nat.mod_eq_of_lt hr] at hne
  exact hne heq

end HmBoard.Lib
