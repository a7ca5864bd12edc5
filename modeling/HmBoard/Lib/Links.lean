import Mathlib.Data.List.Chain
import Mathlib.Data.List.Nodup
import Mathlib.Logic.Function.Basic

/-!
# Doubly linked chains

Nodes with a forward and a backward pointer. In a chain each node but the last points forward to
the one behind it, which points back: `Chained`. A ring is a chain from its marker to its marker.
Four writes put a node between two neighbours (`Chained.insert`), two writes take one out
(`Chained.remove`), and a chain does not change where no node of it is written (`Chained.congr`).
-/

namespace HmBoard.Lib

open Function

variable {N : Type} {next prev next' prev' : N → N} {as bs xs : List N} {a b n : N}

/-- `b` is behind `a`. -/
def Linked (next prev : N → N) (a b : N) : Prop := next a = b ∧ prev b = a

def Chained (next prev : N → N) (xs : List N) : Prop := xs.IsChain (Linked next prev)

theorem chained_append_cons_cons :
    Chained next prev (as ++ a :: b :: bs) ↔
      Chained next prev (as ++ [a]) ∧ Linked next prev a b ∧ Chained next prev (b :: bs) :=
  List.isChain_append_cons_cons

theorem Chained.linked (h : Chained next prev (as ++ a :: b :: bs)) : Linked next prev a b :=
  (chained_append_cons_cons.1 h).2.1

theorem Chained.congr (h : Chained next prev xs) (hn : ∀ x ∈ xs.dropLast, next' x = next x)
    (hp : ∀ x ∈ xs.tail, prev' x = prev x) : Chained next' prev' xs := by
  induction xs with
  | nil => exact List.isChain_nil
  | cons x xs ih =>
    cases xs with
    | nil => exact List.isChain_singleton x
    | cons y ys =>
      obtain ⟨⟨h1, h2⟩, h3⟩ := List.isChain_cons_cons.1 h
      refine List.isChain_cons_cons.2 ⟨⟨?_, ?_⟩, ih h3 ?_ ?_⟩
      · rw [hn x (by simp), h1]
      · rw [hp y (by simp), h2]
      · intro z hz
        exact hn z (by simp [hz])
      · intro z hz
        exact hp z (List.mem_cons_of_mem y hz)

/-- A ring has each node once, and its marker at both ends. -/
structure Simple (xs : List N) : Prop where
  front : xs.dropLast.Nodup
  back : xs.tail.Nodup

theorem Simple.ring {e : N} (h : (e :: xs).Nodup) : Simple (e :: xs ++ [e]) := by
  obtain ⟨he, hx⟩ := List.nodup_cons.1 h
  refine ⟨?_, ?_⟩
  · rwa [List.dropLast_concat]
  · rw [List.cons_append, List.tail_cons, List.nodup_append]
    refine ⟨hx, List.nodup_singleton e, ?_⟩
    intro x hmem y hy
    rw [List.mem_singleton.1 hy]
    rintro rfl
    exact he hmem

/-- The node before `b` is nowhere else before another, the node behind `a` nowhere else behind. -/
theorem Simple.split (h : Simple (as ++ a :: b :: bs)) :
    a ∉ as ∧ b ∉ (as ++ [a]).tail ∧ a ∉ (b :: bs).dropLast ∧ b ∉ bs := by
  have h1 := h.front
  have h2 := h.back
  rw [List.dropLast_append_cons, List.dropLast_cons_cons, List.nodup_append, List.nodup_cons] at h1
  have htail : (as ++ a :: b :: bs).tail = (as ++ [a]).tail ++ b :: bs := by
    cases as <;> simp
  rw [htail, List.nodup_append, List.nodup_cons] at h2
  refine ⟨fun hm => h1.2.2 a hm a List.mem_cons_self rfl, fun hm => ?_, h1.2.1.1, h2.2.1.1⟩
  exact h2.2.2 b hm b List.mem_cons_self rfl

theorem mem_of_mem_tail_snoc {x : N} (h : x ∈ (as ++ [a]).tail) : x ∈ as ++ a :: b :: bs := by
  have := List.mem_of_mem_tail h
  rw [List.mem_append, List.mem_singleton] at this
  simp only [List.mem_append, List.mem_cons]
  exact this.imp_right .inl

variable [DecidableEq N]

/-- `n` goes between `a` and `b`. -/
theorem Chained.insert (h : Chained next prev (as ++ a :: b :: bs))
    (hs : Simple (as ++ a :: b :: bs)) (hn : n ∉ as ++ a :: b :: bs) :
    Chained (update (update next n b) a n) (update (update prev n a) b n)
      (as ++ a :: n :: b :: bs) := by
  obtain ⟨h1, h2, h3⟩ := chained_append_cons_cons.1 h
  obtain ⟨ha, hb, ha', hb'⟩ := hs.split
  have hna : n ≠ a := by
    rintro rfl
    exact hn (by simp)
  have hnb : n ≠ b := by
    rintro rfl
    exact hn (by simp)
  refine chained_append_cons_cons.2 ⟨?_, ⟨by simp, by simp [hnb]⟩, ?_⟩
  · refine h1.congr (fun x hx => ?_) fun x hx => ?_
    · rw [List.dropLast_concat] at hx
      have hxa := ne_of_mem_of_not_mem hx ha
      have hxn : x ≠ n := ne_of_mem_of_not_mem (by simp [hx]) hn
      simp [hxa, hxn]
    · have hxb := ne_of_mem_of_not_mem hx hb
      have hxn : x ≠ n := fun heq => hn (heq ▸ mem_of_mem_tail_snoc hx)
      simp [hxb, hxn]
  · refine List.isChain_cons_cons.2 ⟨⟨by simp [hna], by simp⟩, ?_⟩
    refine Chained.congr h3 (fun x hx => ?_) fun x hx => ?_
    · have hxa := ne_of_mem_of_not_mem hx ha'
      have hxn : x ≠ n := by
        rintro rfl
        exact hn (List.mem_append_right _ (List.mem_cons_of_mem a ((List.dropLast_sublist _).subset hx)))
      simp [hxa, hxn]
    · rw [List.tail_cons] at hx
      have hxb := ne_of_mem_of_not_mem hx hb'
      have hxn : x ≠ n := ne_of_mem_of_not_mem (by simp [hx]) hn
      simp [hxb, hxn]

/-- `n` comes out from between `a` and `b`. -/
theorem Chained.remove (h : Chained next prev (as ++ a :: n :: b :: bs))
    (hs : Simple (as ++ a :: b :: bs)) :
    Chained (update next a b) (update prev b a) (as ++ a :: b :: bs) := by
  obtain ⟨h1, h2, h3⟩ := chained_append_cons_cons.1 h
  obtain ⟨h4, h5⟩ := List.isChain_cons_cons.1 h3
  obtain ⟨ha, hb, ha', hb'⟩ := hs.split
  refine chained_append_cons_cons.2 ⟨?_, ⟨by simp, by simp⟩, ?_⟩
  · refine h1.congr (fun x hx => ?_) fun x hx => ?_
    · rw [List.dropLast_concat] at hx
      exact update_of_ne (ne_of_mem_of_not_mem hx ha) _ _
    · exact update_of_ne (ne_of_mem_of_not_mem hx hb) _ _
  · refine Chained.congr h5 (fun x hx => ?_) fun x hx => ?_
    · exact update_of_ne (ne_of_mem_of_not_mem hx ha') _ _
    · rw [List.tail_cons] at hx
      exact update_of_ne (ne_of_mem_of_not_mem hx hb') _ _

end HmBoard.Lib
