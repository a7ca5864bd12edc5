/-!
# Memories of cells

A memory is a total map from addresses to cells; `write` stores a list of cells from an address
on and `read` fetches so many. What a write does not cover it leaves alone (`write_outside`,
`read_write_disjoint`), and reading back exactly what was written gives it (`read_write_self`).
-/

namespace HmBoard.Lib

abbrev Mem (β : Type) := Nat → β

namespace Mem

variable {β : Type}

/-- Store the cells `bs` at `a`, `a + 1`, … -/
def write (m : Mem β) (a : Nat) (bs : List β) : Mem β :=
  fun x => if a ≤ x then (bs[x - a]?).getD (m x) else m x

/-- The `n` cells from `a` on. -/
def read (m : Mem β) (a n : Nat) : List β := (List.range n).map fun i => m (a + i)

@[simp] theorem write_nil (m : Mem β) (a : Nat) : m.write a [] = m := by
  funext x; simp [write]

theorem write_outside (m : Mem β) {a x : Nat} {bs : List β} (h : x < a ∨ a + bs.length ≤ x) :
    m.write a bs x = m x := by
  unfold write
  split
  · rw [List.getElem?_eq_none (by omega)]; rfl
  · rfl

theorem write_inside (m : Mem β) {a i : Nat} {bs : List β} (h : i < bs.length) :
    m.write a bs (a + i) = bs[i] := by
  simp [write, h]

theorem write_cons (m : Mem β) (a : Nat) (b : β) (bs : List β) :
    m.write a (b :: bs) = (m.write a [b]).write (a + 1) bs := by
  funext x
  rcases Nat.lt_trichotomy x a with h | rfl | h
  · rw [write_outside _ (.inl h), write_outside _ (.inl (by omega)), write_outside _ (.inl h)]
  · rw [write_outside (m.write x [b]) (.inl (by omega))]
    simp [write]
  · obtain ⟨i, rfl⟩ : ∃ i, x = a + 1 + i := ⟨x - (a + 1), by omega⟩
    have h1 : a + 1 + i - a = i + 1 := by omega
    have h2 : a + 1 + i - (a + 1) = i := by omega
    simp [write, show a ≤ a + 1 + i by omega, show a + 1 ≤ a + 1 + i by omega, h1, h2]

theorem write_append (m : Mem β) (bs cs : List β) :
    ∀ a, m.write a (bs ++ cs) = (m.write a bs).write (a + bs.length) cs := by
  induction bs generalizing m with
  | nil => intro a; simp
  | cons b bs ih =>
    intro a
    rw [List.cons_append, write_cons, ih, ← write_cons, List.length_cons, Nat.add_assoc,
      Nat.add_comm 1]

@[simp] theorem length_read (m : Mem β) (a n : Nat) : (m.read a n).length = n := by simp [read]

theorem getElem_read (m : Mem β) {a n i : Nat} (h : i < (m.read a n).length) :
    (m.read a n)[i] = m (a + i) := by
  simp [read]

@[simp] theorem read_zero (m : Mem β) (a : Nat) : m.read a 0 = [] := rfl

theorem read_cons (m : Mem β) (a n : Nat) : m.read a (n + 1) = m a :: m.read (a + 1) n := by
  simp [read, List.range_succ_eq_map, Function.comp_def, Nat.add_assoc, Nat.add_comm 1]

theorem read_succ (m : Mem β) (a n : Nat) : m.read a (n + 1) = m.read a n ++ [m (a + n)] := by
  simp [read, List.range_succ]

theorem read_add (m : Mem β) (a n k : Nat) :
    m.read a (n + k) = m.read a n ++ m.read (a + n) k := by
  simp [read, List.range_add, Nat.add_assoc]

theorem take_read (m : Mem β) (a : Nat) {i n : Nat} (h : i ≤ n) :
    (m.read a n).take i = m.read a i := by
  simp [read, ← List.map_take, List.take_range, Nat.min_eq_left h]

theorem read_congr {m m' : Mem β} {a n : Nat} (h : ∀ x, a ≤ x → x < a + n → m x = m' x) :
    m.read a n = m'.read a n := by
  refine List.map_congr_left fun i hi => h _ (Nat.le_add_right a i) ?_
  rw [List.mem_range] at hi; omega

theorem read_write_self (m : Mem β) (a : Nat) (bs : List β) :
    (m.write a bs).read a bs.length = bs := by
  refine List.ext_getElem (by simp) fun i hi hi' => ?_
  rw [getElem_read, write_inside _ hi']

theorem read_write_disjoint (m : Mem β) {a b n : Nat} {bs : List β}
    (h : b + n ≤ a ∨ a + bs.length ≤ b) : (m.write a bs).read b n = m.read b n :=
  read_congr fun _ _ _ => write_outside _ (by omega)

/-- Two memories that agree outside `[a, a + n)`. -/
def SameOutside (a n : Nat) (m m' : Mem β) : Prop := ∀ x, x < a ∨ a + n ≤ x → m' x = m x

theorem sameOutside_write (m : Mem β) {a b n : Nat} {bs : List β} (h1 : a ≤ b)
    (h2 : b + bs.length ≤ a + n) : SameOutside a n m (m.write b bs) :=
  fun _ hx => write_outside _ (by omega)

theorem SameOutside.refl {a n : Nat} (m : Mem β) : SameOutside a n m m := fun _ _ => rfl

theorem SameOutside.trans {a n : Nat} {m m' m'' : Mem β} (h : SameOutside a n m m')
    (h' : SameOutside a n m' m'') : SameOutside a n m m'' :=
  fun x hx => (h' x hx).trans (h x hx)

end Mem

end HmBoard.Lib
