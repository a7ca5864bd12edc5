import HmBoard.Decimal
import HmBoard.MainTask

/-!
# The temperature text

`sendFreeHeapSpace` prints a reading `temp`, in 128ths of a degree, as `temp / 128` and as the last
two digits of `temp * 100 / 128`, with `%i.%i`. A fraction below ten hundredths loses its zero, and
a negative reading carries its sign a second time in the fraction. `readDecimal` reads the text as
a decimal number; it is the reading in hundredths exactly when the reading is not negative and its
fraction has two digits (`temperature_text_iff`).
-/

namespace HmBoard

/-! ## Decimal numbers -/

/-- `a.b` and a newline: the number without its point, and the digits behind the point. -/
def readMagnitude (s : List UInt8) : Option (Nat × Nat) :=
  match s.dropWhile isDigit with
  | 46 :: t =>
    if s.takeWhile isDigit ≠ [] ∧ t.takeWhile isDigit ≠ [] ∧ t.dropWhile isDigit = lit "\n" then
      some (digitsValue (s.takeWhile isDigit ++ t.takeWhile isDigit), (t.takeWhile isDigit).length)
    else none
  | _ => none

/-- An ordinary decimal number: `some (m, k)` stands for `m / 10 ^ k`. -/
def readDecimal : List UInt8 → Option (Int × Nat)
  | 45 :: s => (readMagnitude s).map fun r => (-(r.1 : Int), r.2)
  | s => (readMagnitude s).map fun r => ((r.1 : Int), r.2)

/-- The text for `temp` is `temp / 128`, truncated to hundredths, with two digits behind the
point. -/
def Denotes (temp : Int) : Prop :=
  readDecimal (temperatureText temp) = some ((temp * 100).tdiv 128, 2)

instance (temp : Int) : Decidable (Denotes temp) := inferInstanceAs (Decidable (_ = _))

theorem readMagnitude_fmtNat (n : Nat) (t : List UInt8) :
    readMagnitude (fmtNat n ++ 46 :: t) =
      if t.takeWhile isDigit ≠ [] ∧ t.dropWhile isDigit = lit "\n" then
        some (digitsValue (fmtNat n ++ t.takeWhile isDigit), (t.takeWhile isDigit).length)
      else none := by
  have hdigits := isDigit_digits (n + 1) n
  have hpoint : ¬ isDigit 46 = true := by decide
  have htake : (fmtNat n ++ 46 :: t).takeWhile isDigit = fmtNat n := by
    rw [fmtNat, List.takeWhile_append_of_pos hdigits, List.takeWhile_cons_of_neg hpoint,
      List.append_nil]
  have hdrop : (fmtNat n ++ 46 :: t).dropWhile isDigit = 46 :: t := by
    rw [fmtNat, List.dropWhile_append_of_pos hdigits, List.dropWhile_cons_of_neg hpoint]
  have hne : fmtNat n ≠ [] := digits_ne_nil n n
  rw [readMagnitude, hdrop]
  simp only [htake, ne_eq, hne, not_false_eq_true, true_and]

theorem readDecimal_fmtNat (n : Nat) (s : List UInt8) :
    readDecimal (fmtNat n ++ s) =
      (readMagnitude (fmtNat n ++ s)).map fun r => ((r.1 : Int), r.2) := by
  rw [readDecimal.eq_def]
  split
  · next t ht => exact absurd ht (fmtNat_append_ne n s t)
  · rfl

/-- The sign does not change how many digits follow the point. -/
theorem readDecimal_digits (a : Int) (t : List UInt8) :
    (readDecimal (fmtInt a ++ 46 :: t)).map Prod.snd =
      (readMagnitude (fmtNat a.natAbs ++ 46 :: t)).map Prod.snd := by
  rw [fmtInt]
  by_cases ha : a < 0
  · rw [if_pos ha, List.cons_append, readDecimal, Option.map_map]
    rfl
  · rw [if_neg ha, readDecimal_fmtNat, Option.map_map]
    rfl

/-- A fraction printed from a negative number or from zero has not two digits. -/
theorem readDecimal_nonpos (a : Int) {f : Int} (hf : f ≤ 0) (m : Int) :
    readDecimal (fmtInt a ++ lit "." ++ fmtInt f ++ lit "\n") ≠ some (m, 2) := by
  intro h
  have htext : fmtInt a ++ lit "." ++ fmtInt f ++ lit "\n" = fmtInt a ++ 46 :: (fmtInt f ++ [10]) := by
    have hpoint : lit "." = [46] := by decide
    have hline : lit "\n" = [10] := by decide
    rw [hpoint, hline]
    simp
  have hcount := readDecimal_digits a (fmtInt f ++ [10])
  rw [← htext, h, readMagnitude_fmtNat, Option.map_some] at hcount
  rcases Int.lt_or_eq_of_le hf with hneg | rfl
  · -- a second sign
    have hempty : (fmtInt f ++ [10]).takeWhile isDigit = [] := by
      rw [fmtInt, if_pos hneg, List.cons_append, List.takeWhile_cons_of_neg (by decide)]
    rw [hempty] at hcount
    simp at hcount
  · -- one digit
    have hzero : (fmtInt 0 ++ [10]).takeWhile isDigit = [48] := by decide
    rw [hzero] at hcount
    split at hcount
    · simp at hcount
    · simp at hcount

/-- The fraction printed for a negative reading. -/
theorem frac_nonpos {temp : Int} (h1 : -32768 ≤ temp) (h2 : temp < 0) :
    (i16 ((i32 (temp * 100)).tdiv 128)).tmod 100 ≤ 0 := by
  obtain ⟨n, rfl⟩ : ∃ n : Nat, temp = -(n : Int) := ⟨temp.natAbs, by omega⟩
  have hquot : (i32 (-(n : Int) * 100)).tdiv 128 = -((n * 100 / 128 : Nat) : Int) := by
    rw [i32_of_range (by omega) (by omega), Int.neg_mul, Int.neg_tdiv]
    rfl
  have hrem := Int.tmod_nonneg (a := ((n * 100 / 128 : Nat) : Int)) 100 (by omega)
  rw [hquot, i16_of_range (by omega) (by omega), Int.neg_tmod]
  omega

/-! ## Readings that are not negative -/

theorem fmtNat_one {n : Nat} (h : n < 10) : fmtNat n = [digit n] := by
  rw [fmtNat, digits, if_pos h]

theorem fmtNat_two {n : Nat} (h1 : 10 ≤ n) (h2 : n < 100) :
    fmtNat n = [digit (n / 10), digit (n % 10)] := by
  obtain ⟨k, rfl⟩ : ∃ k, n = k + 1 := ⟨n - 1, by omega⟩
  rw [fmtNat, digits, if_neg (by omega), digits, if_pos (by omega)]
  rfl

theorem temperatureText_natCast {n : Nat} (h : n < 32768) :
    temperatureText n =
      fmtNat (n / 128) ++ 46 :: (fmtNat (n * 100 / 128 % 100) ++ [10]) := by
  have hpoint : lit "." = [46] := by decide
  have hline : lit "\n" = [10] := by decide
  have hwhole : (n : Int).tdiv 128 = ((n / 128 : Nat) : Int) := rfl
  have hlong : i32 ((n : Int) * 100) = ((n * 100 : Nat) : Int) := by
    rw [i32_of_range (by omega) (by omega)]
    rfl
  have hfrac : (i16 ((i32 ((n : Int) * 100)).tdiv 128)).tmod 100 =
      ((n * 100 / 128 % 100 : Nat) : Int) := by
    rw [hlong, show ((n * 100 : Nat) : Int).tdiv 128 = ((n * 100 / 128 : Nat) : Int) from rfl,
      i16_of_range (by omega) (by omega)]
    rfl
  rw [temperatureText, hwhole, hfrac, hpoint, hline, fmtInt_natCast, fmtInt_natCast,
    List.append_assoc, List.append_assoc]
  rfl

theorem denotes_natCast {n : Nat} (h : n < 32768) :
    Denotes n ↔ 10 ≤ n * 100 / 128 % 100 := by
  have hdigits := isDigit_digits (n * 100 / 128 % 100 + 1) (n * 100 / 128 % 100)
  have htake : (fmtNat (n * 100 / 128 % 100) ++ [10]).takeWhile isDigit =
      fmtNat (n * 100 / 128 % 100) := by
    rw [fmtNat, List.takeWhile_append_of_pos hdigits, List.takeWhile_cons_of_neg (by decide),
      List.append_nil]
  have hdrop : (fmtNat (n * 100 / 128 % 100) ++ [10]).dropWhile isDigit = lit "\n" := by
    rw [fmtNat, List.dropWhile_append_of_pos hdigits, List.dropWhile_cons_of_neg (by decide)]
    rfl
  have hne : fmtNat (n * 100 / 128 % 100) ≠ [] := digits_ne_nil _ _
  have hread : readDecimal (temperatureText n) =
      some (((digitsValue (fmtNat (n / 128) ++ fmtNat (n * 100 / 128 % 100)) : Nat) : Int),
        (fmtNat (n * 100 / 128 % 100)).length) := by
    rw [temperatureText_natCast h, readDecimal_fmtNat, readMagnitude_fmtNat, htake, hdrop,
      if_pos ⟨hne, rfl⟩]
    rfl
  rw [Denotes, hread, Option.some.injEq, Prod.mk.injEq]
  by_cases hten : 10 ≤ n * 100 / 128 % 100
  · refine iff_of_true ⟨?_, ?_⟩ hten
    · have hvalue : digitsValue (fmtNat (n / 128)) = n / 128 := digitsValue_digits _ _ (by omega)
      have htrunc : ((n : Int) * 100).tdiv 128 = ((n * 100 / 128 : Nat) : Int) := rfl
      rw [fmtNat_two hten (by omega), htrunc, Nat.cast_inj,
        show ∀ xs : List UInt8, ∀ a b, xs ++ [a, b] = xs ++ [a] ++ [b] by simp,
        digitsValue_append _ (by omega), digitsValue_append _ (by omega), hvalue]
      omega
    · rw [fmtNat_two hten (by omega)]
      rfl
  · refine iff_of_false ?_ hten
    rintro ⟨-, hlen⟩
    rw [fmtNat_one (by omega)] at hlen
    cases hlen

/-! ## All readings -/

/-- **The temperature.** Of all 16-bit readings the text denotes those that are not negative and
have a fraction of at least ten hundredths, and among these it grows with the reading. -/
theorem temperature_text_iff {temp : Int} (h1 : -32768 ≤ temp) (h2 : temp < 32768) :
    (Denotes temp ↔ 0 ≤ temp ∧ 10 ≤ temp * 100 / 128 % 100) ∧
      ∀ warmer m n, temp ≤ warmer → Denotes temp → Denotes warmer →
        readDecimal (temperatureText temp) = some (m, 2) →
        readDecimal (temperatureText warmer) = some (n, 2) → m ≤ n := by
  constructor
  · rcases lt_or_ge temp 0 with hneg | hpos
    · refine iff_of_false ?_ fun h => absurd h.1 (by omega)
      exact readDecimal_nonpos _ (frac_nonpos h1 hneg) _
    · obtain ⟨n, rfl⟩ := Int.eq_ofNat_of_zero_le hpos
      have hcast : (n : Int) * 100 / 128 % 100 = ((n * 100 / 128 % 100 : Nat) : Int) := rfl
      rw [denotes_natCast (by omega), hcast]
      omega
  · intro warmer m n hle hd hw hm hn
    rw [hd] at hm
    rw [hw] at hn
    cases hm
    cases hn
    exact Int.tdiv_le_tdiv (by decide) (by omega)

theorem temperature_text_room :
    Denotes 2970 ∧ readDecimal (temperatureText 2970) = some (2320, 2) := by
  obtain ⟨hiff, -⟩ := temperature_text_iff (show -32768 ≤ (2970 : Int) by decide) (by decide)
  have h : Denotes 2970 := hiff.2 (by decide)
  exact ⟨h, h⟩

/-- Half a degree below zero, and 12 and 13 of 128 degrees above: 0.09 is printed as nine tenths
and exceeds 0.10. -/
theorem temperature_misread :
    temperatureText (-64) = lit "0.-50\n" ∧ ¬ Denotes (-64) ∧
      readDecimal (temperatureText 12) = some (9, 1) ∧ ¬ Denotes 12 ∧
      readDecimal (temperatureText 13) = some (10, 2) := by decide

end HmBoard
