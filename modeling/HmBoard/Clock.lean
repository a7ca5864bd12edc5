import HmBoard.Decimal
import HmBoard.MainTask

/-!
# The clock and the uptime

`tcc1Ovf` is the interrupt of the 1 ms timer. Both of its comparisons look at the value from before
the increment, so a counter takes the value it is compared with before it goes back to zero: a
second has 1001 interrupts and an hour 3601 seconds (`ticks_eq`).

`readUptime` reads the four numbers of the status text of `houseKeeping`.
-/

namespace HmBoard

/-- `milisecondsTimer`, `secondsTimer`, `hoursTimer` (system.c:16-18), of 32 bits each. -/
@[ext] structure Clock where
  milisecondsTimer : Nat
  secondsTimer : Nat
  hoursTimer : Nat
deriving DecidableEq, Repr

/-- The zeros of `boardInit` (system.c:69-71). -/
def Clock.boardInit : Clock := ⟨0, 0, 0⟩

/-- `ISR(TCC1_OVF_vect)` (system.c:96). -/
def tcc1Ovf (c : Clock) : Clock :=
  if c.milisecondsTimer = 1000 then
    if c.secondsTimer = 3600 then ⟨0, 0, u32 (c.hoursTimer + 1)⟩
    else ⟨0, u32 (c.secondsTimer + 1), c.hoursTimer⟩
  else { c with milisecondsTimer := u32 (c.milisecondsTimer + 1) }

/-- The clock after `n` interrupts. -/
def ticks : Nat → Clock
  | 0 => .boardInit
  | n + 1 => tcc1Ovf (ticks n)

/-! ## What the clock shows -/

theorem ticks_eq (n : Nat) :
    ticks n = ⟨n % 1001, n / 1001 % 3601, u32 (n / 1001 / 3601)⟩ := by
  induction n with
  | zero => rfl
  | succ n ih =>
    rw [ticks, ih, tcc1Ovf]
    dsimp only
    by_cases h1 : n % 1001 = 1000
    · have hs : (n + 1) / 1001 = n / 1001 + 1 := by omega
      have hm : (n + 1) % 1001 = 0 := by omega
      rw [if_pos h1, hs, hm]
      by_cases h2 : n / 1001 % 3601 = 3600
      · have hh : (n / 1001 + 1) / 3601 = n / 1001 / 3601 + 1 := by omega
        have hz : (n / 1001 + 1) % 3601 = 0 := by omega
        rw [if_pos h2, hh, hz]
        simp only [u32, Nat.mod_add_mod]
      · have hh : (n / 1001 + 1) / 3601 = n / 1001 / 3601 := by omega
        have hz : (n / 1001 + 1) % 3601 = n / 1001 % 3601 + 1 := by omega
        rw [if_neg h2, hh, hz, u32_of_lt (by omega)]
    · have hs : (n + 1) / 1001 = n / 1001 := by omega
      have hm : (n + 1) % 1001 = n % 1001 + 1 := by omega
      rw [if_neg h1, hs, hm]
      simp only [u32_of_lt (show n % 1001 + 1 < 4294967296 by omega)]

/-- The clock is right after `n` milliseconds. -/
def KeepsTime (n : Nat) : Prop :=
  (ticks n).milisecondsTimer < 1000 ∧ (ticks n).secondsTimer < 3600 ∧
    (ticks n).hoursTimer * 3600000 + (ticks n).secondsTimer * 1000 + (ticks n).milisecondsTimer = n

/-- **The clock.** It is right for the first 999 interrupts and never after them, however many
hours it counts. -/
theorem clock_keeps_time_iff (n : Nat) : KeepsTime n ↔ n < 1000 := by
  unfold KeepsTime
  rw [ticks_eq]
  constructor
  · rintro ⟨hms, hs, hsum⟩
    dsimp only at hms hs hsum
    unfold u32 at hsum
    -- each second shown is one interrupt short, each hour 4601
    have hwrap := Nat.mod_le (n / 1001 / 3601) 4294967296
    omega
  · intro h
    have h1 : n / 1001 = 0 := by omega
    simp only [h1, u32]
    omega

/-- After 1001 interrupts the clock shows a second. -/
theorem clock_second_late : ticks 1001 = ⟨0, 1, 0⟩ ∧ ¬ KeepsTime 1001 := by
  refine ⟨ticks_eq 1001, ?_⟩
  rw [KeepsTime, ticks_eq]
  decide

/-! ## The uptime -/

/-- The numbers of days, hours, minutes and seconds in a status text. -/
def readUptime (msg : List UInt8) : Option (Int × Int × Int × Int) := do
  let t ← expect (lit "*** Board\n\rSoftware v1.0\n\rUptime: ") msg
  match ← readNumbers [lit "d ", lit "h ", lit "m ", lit "s\n\r"] t with
  | [d, h, m, s] => some (d, h, m, s)
  | _ => none

theorem readUptime_fields (d h m s : Int) :
    readUptime (lit "*** Board\n\rSoftware v1.0\n\rUptime: " ++ fmtInt d ++ lit "d " ++ fmtInt h ++
      lit "h " ++ fmtInt m ++ lit "m " ++ fmtInt s ++ lit "s\n\r") = some (d, h, m, s) := by
  have hread : readNumbers [lit "d ", lit "h ", lit "m ", lit "s\n\r"] (fmtInt d ++ (lit "d " ++
      (fmtInt h ++ (lit "h " ++ (fmtInt m ++ (lit "m " ++ (fmtInt s ++ (lit "s\n\r" ++ [])))))))) =
      some [d, h, m, s] := by
    rw [readNumbers_cons d _ _ (by decide), readNumbers_cons h _ _ (by decide),
      readNumbers_cons m _ _ (by decide), readNumbers_cons s _ _ (by decide)]
    rfl
  rw [List.append_nil] at hread
  simp only [List.append_assoc]
  rw [readUptime, expect_append, Option.bind_eq_bind, Option.bind_some, hread]
  rfl

theorem readUptime_text (hoursTimer secondsTimer : Nat) :
    readUptime (uptimeText hoursTimer secondsTimer) =
      some ((i16 hoursTimer).tdiv 24, (i16 hoursTimer).tmod 24, (i16 secondsTimer).tdiv 60,
        (i16 secondsTimer).tmod 60) :=
  readUptime_fields _ _ _ _

/-- The uptime printed for the clock `c` is its mixed-radix reading. -/
def UptimeRight (c : Clock) : Prop :=
  ∃ d h m s, readUptime (uptimeText c.hoursTimer c.secondsTimer) = some (d, h, m, s) ∧
    0 ≤ d ∧ (0 ≤ h ∧ h < 24) ∧ (0 ≤ m ∧ m < 60) ∧ (0 ≤ s ∧ s < 60) ∧
    24 * d + h = c.hoursTimer ∧ 60 * m + s = c.secondsTimer

theorem uptimeRight_iff (c : Clock) :
    UptimeRight c ↔
      0 ≤ (i16 c.hoursTimer).tdiv 24 ∧
      (0 ≤ (i16 c.hoursTimer).tmod 24 ∧ (i16 c.hoursTimer).tmod 24 < 24) ∧
      (0 ≤ (i16 c.secondsTimer).tdiv 60 ∧ (i16 c.secondsTimer).tdiv 60 < 60) ∧
      (0 ≤ (i16 c.secondsTimer).tmod 60 ∧ (i16 c.secondsTimer).tmod 60 < 60) ∧
      i16 c.hoursTimer = c.hoursTimer ∧ i16 c.secondsTimer = c.secondsTimer := by
  have hh := Int.mul_tdiv_add_tmod (i16 c.hoursTimer) 24
  have hs := Int.mul_tdiv_add_tmod (i16 c.secondsTimer) 60
  rw [UptimeRight, readUptime_text]
  constructor
  · rintro ⟨d, h, m, s, hread, h1, h2, h3, h4, h5, h6⟩
    simp only [Option.some.injEq, Prod.mk.injEq] at hread
    obtain ⟨rfl, rfl, rfl, rfl⟩ := hread
    exact ⟨h1, h2, h3, h4, hh.symm.trans h5, hs.symm.trans h6⟩
  · rintro ⟨h1, h2, h3, h4, h5, h6⟩
    exact ⟨_, _, _, _, rfl, h1, h2, h3, h4, hh.trans h5, hs.trans h6⟩

/-- **The uptime.** In every clock state that interrupts lead to, the printed numbers are right
exactly when the hours fit an `int16_t` and the seconds have not reached 3600. -/
theorem uptime_right_iff (n : Nat) :
    UptimeRight (ticks n) ↔ (ticks n).hoursTimer < 32768 ∧ (ticks n).secondsTimer < 3600 := by
  have hs : (ticks n).secondsTimer ≤ 3600 := by
    rw [ticks_eq]
    dsimp only
    omega
  have es : i16 (ticks n).secondsTimer = (ticks n).secondsTimer :=
    i16_of_range (by omega) (by omega)
  rw [uptimeRight_iff, es, Int.tdiv_eq_ediv_of_nonneg (a := (ticks n).secondsTimer) (by omega),
    Int.tmod_eq_emod_of_nonneg (a := (ticks n).secondsTimer) (by omega)]
  have hh := i16_range (ticks n).hoursTimer
  constructor
  · rintro ⟨-, -, hm, -, eh, -⟩
    omega
  · rintro ⟨hlt, hs'⟩
    have eh : i16 (ticks n).hoursTimer = (ticks n).hoursTimer := i16_of_range (by omega) (by omega)
    rw [eh, Int.tdiv_eq_ediv_of_nonneg (by omega), Int.tmod_eq_emod_of_nonneg (by omega)]
    omega

/-- After 3603600 interrupts, at the end of the first hour, the board prints 60 minutes. -/
theorem uptime_sixty_minutes :
    readUptime (uptimeText (ticks 3603600).hoursTimer (ticks 3603600).secondsTimer) =
      some (0, 0, 60, 0) ∧ ¬ UptimeRight (ticks 3603600) := by
  refine ⟨?_, ?_⟩
  · rw [readUptime_text, ticks_eq]
    decide
  · rw [uptimeRight_iff, ticks_eq]
    decide

end HmBoard
