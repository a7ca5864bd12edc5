import HmBoard.Avr

/-!
# Reading numbers back

What a receiver makes of the texts that `sprintf` writes. Each reader takes a number from the front
of a text and gives the rest; `readInt_fmtInt` says that what `%i` wrote is read back, whatever
follows, as long as that does not begin with another digit.
-/

namespace HmBoard

def isDigit (b : UInt8) : Bool := 48 ≤ b.toNat && b.toNat ≤ 57

/-- The number a string of digits denotes. -/
def digitsValue (ds : List UInt8) : Nat := ds.foldl (fun n d => 10 * n + (d.toNat - 48)) 0

/-- An unsigned number, as long as digits follow. -/
def readNat (s : List UInt8) : Option (Nat × List UInt8) :=
  match s.takeWhile isDigit with
  | [] => none
  | d :: ds => some (digitsValue (d :: ds), s.dropWhile isDigit)

/-- A number with an optional minus sign. -/
def readInt : List UInt8 → Option (Int × List UInt8)
  | 45 :: s => (readNat s).map fun r => (-(r.1 : Int), r.2)
  | s => (readNat s).map fun r => ((r.1 : Int), r.2)

/-- The text `p`, and nothing of the rest. -/
def expect (p s : List UInt8) : Option (List UInt8) :=
  if p.isPrefixOf s then some (s.drop p.length) else none

theorem expect_append (p s : List UInt8) : expect p (p ++ s) = some s := by
  have h : p.isPrefixOf (p ++ s) = true := by simp
  rw [expect, if_pos h, List.drop_left]

/-! ## Digits -/

theorem toNat_digit {d : Nat} (h : d < 10) : (digit d).toNat = 48 + d := by
  rw [digit, UInt8.toNat_ofNat']
  omega

theorem isDigit_digit {d : Nat} (h : d < 10) : isDigit (digit d) = true := by
  simp only [isDigit, toNat_digit h, Bool.and_eq_true, decide_eq_true_eq]
  omega

theorem digitsValue_append (ds : List UInt8) {d : Nat} (h : d < 10) :
    digitsValue (ds ++ [digit d]) = 10 * digitsValue ds + d := by
  rw [digitsValue, List.foldl_append, List.foldl_cons, List.foldl_nil, toNat_digit h,
    Nat.add_sub_cancel_left]
  rfl

theorem isDigit_digits : ∀ (fuel n : Nat), ∀ b ∈ digits fuel n, isDigit b = true
  | 0, _, b, hb => by simp [digits] at hb
  | fuel + 1, n, b, hb => by
    rw [digits] at hb
    split at hb
    · next h =>
      rw [List.mem_singleton.1 hb]
      exact isDigit_digit h
    · rcases List.mem_append.1 hb with hb | hb
      · exact isDigit_digits fuel (n / 10) b hb
      · rw [List.mem_singleton.1 hb]
        exact isDigit_digit (Nat.mod_lt n (by decide))

theorem digitsValue_digits : ∀ (fuel n : Nat), n < fuel → digitsValue (digits fuel n) = n
  | 0, _, h => by omega
  | fuel + 1, n, h => by
    rw [digits]
    split
    · next h10 =>
      have h0 := digitsValue_append [] h10
      simpa [digitsValue] using h0
    · rw [digitsValue_append _ (Nat.mod_lt n (by decide)),
        digitsValue_digits fuel (n / 10) (by omega)]
      omega

theorem digits_ne_nil (fuel n : Nat) : digits (fuel + 1) n ≠ [] := by
  rw [digits]
  split
  · simp
  · simp

/-! ## Numbers -/

variable {c : UInt8} {s : List UInt8}

/-- Digits end where no digit follows. -/
theorem readNat_append {ds : List UInt8} (hds : ∀ b ∈ ds, isDigit b = true) (hne : ds ≠ [])
    (hc : isDigit c = false) : readNat (ds ++ c :: s) = some (digitsValue ds, c :: s) := by
  have htake : (ds ++ c :: s).takeWhile isDigit = ds := by
    rw [List.takeWhile_append_of_pos hds, List.takeWhile_cons_of_neg (by simp [hc]),
      List.append_nil]
  have hdrop : (ds ++ c :: s).dropWhile isDigit = c :: s := by
    rw [List.dropWhile_append_of_pos hds, List.dropWhile_cons_of_neg (by simp [hc])]
  rw [readNat, htake, hdrop]
  cases ds with
  | nil => exact absurd rfl hne
  | cons d ds => rfl

theorem readNat_fmtNat (n : Nat) (hc : isDigit c = false) :
    readNat (fmtNat n ++ c :: s) = some (n, c :: s) := by
  have h := readNat_append (s := s) (isDigit_digits (n + 1) n) (digits_ne_nil n n) hc
  rwa [digitsValue_digits _ _ (Nat.lt_succ_self n)] at h

theorem fmtInt_natCast (n : Nat) : fmtInt n = fmtNat n := by
  rw [fmtInt, if_neg (by omega), Int.natAbs_natCast]

/-- A number without a sign does not begin with one. -/
theorem fmtNat_append_ne (n : Nat) (s t : List UInt8) : fmtNat n ++ s ≠ 45 :: t := by
  intro h
  obtain ⟨d, ds, hd⟩ := List.exists_cons_of_ne_nil (digits_ne_nil n n)
  have hdigit := isDigit_digits (n + 1) n d (by rw [hd]; exact .head _)
  rw [fmtNat, hd, List.cons_append, List.cons.injEq] at h
  rw [h.1] at hdigit
  exact absurd hdigit (by decide)

theorem readInt_fmtNat (n : Nat) (hc : isDigit c = false) :
    readInt (fmtNat n ++ c :: s) = some ((n : Int), c :: s) := by
  rw [readInt.eq_def]
  split
  · next t ht => exact absurd ht (fmtNat_append_ne n _ t)
  · rw [readNat_fmtNat n hc]
    rfl

/-- **Round trip.** -/
theorem readInt_fmtInt (x : Int) (hc : isDigit c = false) :
    readInt (fmtInt x ++ c :: s) = some (x, c :: s) := by
  rw [fmtInt]
  by_cases hx : x < 0
  · rw [if_pos hx, List.cons_append, readInt, readNat_fmtNat _ hc, Option.map_some]
    simp only [Option.some.injEq, Prod.mk.injEq, and_true]
    omega
  · rw [if_neg hx, readInt_fmtNat _ hc]
    simp only [Option.some.injEq, Prod.mk.injEq, and_true]
    omega

/-- A number before a text that does not begin with a digit. -/
theorem readInt_fmtInt_append (x : Int) {p : List UInt8} (t : List UInt8)
    (hp : p.head?.map isDigit = some false) :
    readInt (fmtInt x ++ (p ++ t)) = some (x, p ++ t) := by
  cases p with
  | nil => cases hp
  | cons c p =>
    rw [List.head?_cons, Option.map_some, Option.some.injEq] at hp
    rw [List.cons_append]
    exact readInt_fmtInt x hp

/-- Numbers, each before its separator, and nothing after the last. -/
def readNumbers : List (List UInt8) → List UInt8 → Option (List Int)
  | [], [] => some []
  | [], _ :: _ => none
  | p :: ps, s => do
    let (x, t) ← readInt s
    let t ← expect p t
    let xs ← readNumbers ps t
    some (x :: xs)

/-- The numbers that `%i` wrote between separators. -/
theorem readNumbers_cons (x : Int) {p : List UInt8} (ps : List (List UInt8)) (t : List UInt8)
    (hp : p.head?.map isDigit = some false) :
    readNumbers (p :: ps) (fmtInt x ++ (p ++ t)) = (readNumbers ps t).map (x :: ·) := by
  rw [readNumbers, readInt_fmtInt_append x t hp]
  simp only [Option.bind_eq_bind, Option.bind_some, expect_append]
  cases readNumbers ps t with
  | none => rfl
  | some xs => rfl

end HmBoard
