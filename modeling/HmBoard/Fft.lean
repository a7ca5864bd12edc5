import HmBoard.SpiMemory

/-!
# `fft_memory.c`

`decimate_and_store` takes every second sample of the signal in bit-reversed order to the FFT
region, `FFT_calculate` transforms that region in place. The number of points, the bit-reversal
table and the sine/cosine table are parameters, as they are constants of the source that have to
be changed together; `noPoints`, `bitrevTable` and `sincosTable` are the ones it is built with.

| here | there |
| --- | --- |
| `bitrevTable`        | `bitrev[]` (fft_memory.c:279) |
| `sincosTable`        | `sincos[]` (fft_memory.c:16) |
| `decimateAndStore`   | `decimate_and_store` (fft_memory.c:353) |
| `fftGroup`, `fftColumn`, `fftStage`, `fftLoop` | the loops over `s`, `k` and `n` of `FFT_calculate` |
| `fftCalculate`       | `FFT_calculate` (fft_memory.c:388) |
-/

namespace HmBoard

open Lib Fw
open FloatFormat (ofInt add sub mul)

variable {F B P : Type} [Cell B] [FloatFormat F B]

/-- `bitrev[]` for 512 points. -/
def bitrevTable : List Nat :=
  [0, 256, 128, 384, 64, 320, 192, 448, 32, 288, 160, 416, 96, 352, 224, 480, 16, 272, 144, 400,
   80, 336, 208, 464, 48, 304, 176, 432, 112, 368, 240, 496, 8, 264, 136, 392, 72, 328, 200, 456,
   40, 296, 168, 424, 104, 360, 232, 488, 24, 280, 152, 408, 88, 344, 216, 472, 56, 312, 184, 440,
   120, 376, 248, 504, 4, 260, 132, 388, 68, 324, 196, 452, 36, 292, 164, 420, 100, 356, 228, 484,
   20, 276, 148, 404, 84, 340, 212, 468, 52, 308, 180, 436, 116, 372, 244, 500, 12, 268, 140, 396,
   76, 332, 204, 460, 44, 300, 172, 428, 108, 364, 236, 492, 28, 284, 156, 412, 92, 348, 220, 476,
   60, 316, 188, 444, 124, 380, 252, 508, 2, 258, 130, 386, 66, 322, 194, 450, 34, 290, 162, 418,
   98, 354, 226, 482, 18, 274, 146, 402, 82, 338, 210, 466, 50, 306, 178, 434, 114, 370, 242, 498,
   10, 266, 138, 394, 74, 330, 202, 458, 42, 298, 170, 426, 106, 362, 234, 490, 26, 282, 154, 410,
   90, 346, 218, 474, 58, 314, 186, 442, 122, 378, 250, 506, 6, 262, 134, 390, 70, 326, 198, 454,
   38, 294, 166, 422, 102, 358, 230, 486, 22, 278, 150, 406, 86, 342, 214, 470, 54, 310, 182, 438,
   118, 374, 246, 502, 14, 270, 142, 398, 78, 334, 206, 462, 46, 302, 174, 430, 110, 366, 238,
   494, 30, 286, 158, 414, 94, 350, 222, 478, 62, 318, 190, 446, 126, 382, 254, 510, 1, 257, 129,
   385, 65, 321, 193, 449, 33, 289, 161, 417, 97, 353, 225, 481, 17, 273, 145, 401, 81, 337, 209,
   465, 49, 305, 177, 433, 113, 369, 241, 497, 9, 265, 137, 393, 73, 329, 201, 457, 41, 297, 169,
   425, 105, 361, 233, 489, 25, 281, 153, 409, 89, 345, 217, 473, 57, 313, 185, 441, 121, 377,
   249, 505, 5, 261, 133, 389, 69, 325, 197, 453, 37, 293, 165, 421, 101, 357, 229, 485, 21, 277,
   149, 405, 85, 341, 213, 469, 53, 309, 181, 437, 117, 373, 245, 501, 13, 269, 141, 397, 77, 333,
   205, 461, 45, 301, 173, 429, 109, 365, 237, 493, 29, 285, 157, 413, 93, 349, 221, 477, 61, 317,
   189, 445, 125, 381, 253, 509, 3, 259, 131, 387, 67, 323, 195, 451, 35, 291, 163, 419, 99, 355,
   227, 483, 19, 275, 147, 403, 83, 339, 211, 467, 51, 307, 179, 435, 115, 371, 243, 499, 11, 267,
   139, 395, 75, 331, 203, 459, 43, 299, 171, 427, 107, 363, 235, 491, 27, 283, 155, 411, 91, 347,
   219, 475, 59, 315, 187, 443, 123, 379, 251, 507, 7, 263, 135, 391, 71, 327, 199, 455, 39, 295,
   167, 423, 103, 359, 231, 487, 23, 279, 151, 407, 87, 343, 215, 471, 55, 311, 183, 439, 119,
   375, 247, 503, 15, 271, 143, 399, 79, 335, 207, 463, 47, 303, 175, 431, 111, 367, 239, 495, 31,
   287, 159, 415, 95, 351, 223, 479, 63, 319, 191, 447, 127, 383, 255, 511]

/-- `sincos[]` in millionths: sine and cosine of `π j / 256` as pair `j`, up to `π`. -/
def sincosTable : List Int :=
  [0, 1000000, 12272, 999925, 24541, 999699, 36807, 999322, 49068, 998795, 61321, 998118, 73565,
   997290, 85797, 996313, 98017, 995185, 110222, 993907, 122411, 992480, 134581, 990903, 146730,
   989177, 158858, 987301, 170962, 985278, 183040, 983105, 195090, 980785, 207111, 978317, 219101,
   975702, 231058, 972940, 242980, 970031, 254866, 966976, 266713, 963776, 278520, 960431, 290285,
   956940, 302006, 953306, 313682, 949528, 325310, 945607, 336890, 941544, 348419, 937339, 359895,
   932993, 371317, 928506, 382683, 923880, 393992, 919114, 405241, 914210, 416430, 909168, 427555,
   903989, 438616, 898674, 449611, 893224, 460539, 887640, 471397, 881921, 482184, 876070, 492898,
   870087, 503538, 863973, 514103, 857729, 524590, 851355, 534998, 844854, 545325, 838225, 555570,
   831470, 565732, 824589, 575808, 817585, 585798, 810457, 595699, 803208, 605511, 795837, 615232,
   788346, 624859, 780737, 634393, 773010, 643832, 765167, 653173, 757209, 662416, 749136, 671559,
   740951, 680601, 732654, 689541, 724247, 698376, 715731, 707107, 707107, 715731, 698376, 724247,
   689541, 732654, 680601, 740951, 671559, 749136, 662416, 757209, 653173, 765167, 643832, 773010,
   634393, 780737, 624859, 788346, 615232, 795837, 605511, 803208, 595699, 810457, 585798, 817585,
   575808, 824589, 565732, 831470, 555570, 838225, 545325, 844854, 534998, 851355, 524590, 857729,
   514103, 863973, 503538, 870087, 492898, 876070, 482184, 881921, 471397, 887640, 460539, 893224,
   449611, 898674, 438616, 903989, 427555, 909168, 416430, 914210, 405241, 919114, 393992, 923880,
   382683, 928506, 371317, 932993, 359895, 937339, 348419, 941544, 336890, 945607, 325310, 949528,
   313682, 953306, 302006, 956940, 290285, 960431, 278520, 963776, 266713, 966976, 254866, 970031,
   242980, 972940, 231058, 975702, 219101, 978317, 207111, 980785, 195090, 983105, 183040, 985278,
   170962, 987301, 158858, 989177, 146730, 990903, 134581, 992480, 122411, 993907, 110222, 995185,
   98017, 996313, 85797, 997290, 73565, 998118, 61321, 998795, 49068, 999322, 36807, 999699, 24541,
   999925, 12272, 1000000, 0, 999925, -12272, 999699, -24541, 999322, -36807, 998795, -49068,
   998118, -61321, 997290, -73565, 996313, -85797, 995185, -98017, 993907, -110222, 992480, -122411,
   990903, -134581, 989177, -146730, 987301, -158858, 985278, -170962, 983105, -183040, 980785,
   -195090, 978317, -207111, 975702, -219101, 972940, -231058, 970031, -242980, 966976, -254866,
   963776, -266713, 960431, -278520, 956940, -290285, 953306, -302006, 949528, -313682, 945607,
   -325310, 941544, -336890, 937339, -348419, 932993, -359895, 928506, -371317, 923880, -382683,
   919114, -393992, 914210, -405241, 909168, -416430, 903989, -427555, 898674, -438616, 893224,
   -449611, 887640, -460539, 881921, -471397, 876070, -482184, 870087, -492898, 863973, -503538,
   857729, -514103, 851355, -524590, 844854, -534998, 838225, -545325, 831470, -555570, 824589,
   -565732, 817585, -575808, 810457, -585798, 803208, -595699, 795837, -605511, 788346, -615232,
   780737, -624859, 773010, -634393, 765167, -643832, 757209, -653173, 749136, -662416, 740951,
   -671559, 732654, -680601, 724247, -689541, 715731, -698376, 707107, -707107, 698376, -715731,
   689541, -724247, 680601, -732654, 671559, -740951, 662416, -749136, 653173, -757209, 643832,
   -765167, 634393, -773010, 624859, -780737, 615232, -788346, 605511, -795837, 595699, -803208,
   585798, -810457, 575808, -817585, 565732, -824589, 555570, -831470, 545325, -838225, 534998,
   -844854, 524590, -851355, 514103, -857729, 503538, -863973, 492898, -870087, 482184, -876070,
   471397, -881921, 460539, -887640, 449611, -893224, 438616, -898674, 427555, -903989, 416430,
   -909168, 405241, -914210, 393992, -919114, 382683, -923880, 371317, -928506, 359895, -932993,
   348419, -937339, 336890, -941544, 325310, -945607, 313682, -949528, 302006, -953306, 290285,
   -956940, 278520, -960431, 266713, -963776, 254866, -966976, 242980, -970031, 231058, -972940,
   219101, -975702, 207111, -978317, 195090, -980785, 183040, -983105, 170962, -985278, 158858,
   -987301, 146730, -989177, 134581, -990903, 122411, -992480, 110222, -993907, 98017, -995185,
   85797, -996313, 73565, -997290, 61321, -998118, 49068, -998795, 36807, -999322, 24541, -999699,
   12272, -999925, 0, -1000000]

/-- `DECIMATION_FACTOR` (fft_memory.c:347). -/
def decimationFactor : Nat := 2

/-- `pgm_read_dword_far(&bitrev[i])`: the table has 16-bit entries, the read takes two of them. -/
def pgmReadDwordFar (table : Nat → Nat) (i : Nat) : Nat := table i + 65536 * table (i + 1)

/-- `decimate_and_store` (fft_memory.c:353). -/
def decimateAndStore (N : Nat) (bitrev : Nat → Nat) : Fw B P Unit := do
  let w ← spiMemReadWord memSignalOffset
  let signalOffset2 := i16 w
  Prog.forTo N fun i => do
    let position := i16 (pgmReadDwordFar bitrev i)
    let decimationPosition := toU32 (i32 (position * decimationFactor))
    let real : F ←
      if decimationPosition < memSignalLength then do
        let w ← spiMemReadWord (u32 (u32 (decimationPosition * 2) + memSignalBegin))
        pure (ofInt (i16 (w - signalOffset2)))
      else pure (ofInt 0)
    spiMemWriteComplex (u16 (u16 (i * 8) + memFftBegin)) (⟨real, ofInt 0⟩ : Complex F)

/-! ## `FFT_calculate` -/

/-- The loop-carried variables of `FFT_calculate` within a stage. -/
structure FftState where
  pointerA : Nat
  pointerB : Nat
  fnk : Nat
deriving DecidableEq, Repr

/-- One butterfly: the body of `for(s=0;s<angf;s++)`. -/
def fftGroup (n : Nat) (dsin dcos : F) (_s : Nat) (x : FftState) : Fw B P FftState := do
  let a : Complex F ← spiMemReadComplex x.pointerA
  let b : Complex F ← spiMemReadComplex x.pointerB
  let c : Complex F :=
    ⟨sub (mul b.real dcos) (mul b.imag dsin), add (mul b.real dsin) (mul b.imag dcos)⟩
  spiMemWriteComplex x.pointerA (⟨add a.real c.real, add a.imag c.imag⟩ : Complex F)
  spiMemWriteComplex x.pointerB (⟨sub a.real c.real, sub a.imag c.imag⟩ : Complex F)
  pure { x with
    pointerA := u32 (x.pointerA + u16 (16 * n)), pointerB := u32 (x.pointerB + u16 (16 * n)) }

/-- The body of `for(k=0;k<n;k++)`: one twiddle factor. -/
def fftColumn (N : Nat) (sincos : Nat → F) (n angf : Nat) (_k : Nat) (x : FftState) :
    Fw B P FftState := do
  let dsin := sincos x.fnk
  let dcos := sincos (u16 (x.fnk + 1))
  let x ← Prog.loop (fftGroup n dsin dcos) { x with fnk := u16 (u16 (x.fnk + 1) + 1) } angf
  let rewind := toU32 (i16 ((N - 1 : Nat) * 8))
  pure {
    pointerA := toU32 (x.pointerA - rewind)
    pointerB := toU32 (x.pointerB - rewind)
    fnk := u16 (x.fnk + toU16 ((angf - 1) * 2)) }

/-- The body of `while(n<NO_POINTS)` up to the shifts. -/
def fftStage (N : Nat) (sincos : Nat → F) (n angf : Nat) : Fw B P Unit := do
  let _ ← Prog.loop (fftColumn N sincos n angf)
    { pointerA := memFftBegin, pointerB := u16 (memFftBegin + u16 (n * 8)), fnk := 0 } n
  pure ()

/-- `while(n<NO_POINTS)`, at most `fuel` rounds of it. -/
def fftLoop (N : Nat) (sincos : Nat → F) : Nat → Nat → Nat → Fw B P Unit
  | 0, _, _ => pure ()
  | fuel + 1, n, angf =>
    if n < N then do
      fftStage N sincos n angf
      fftLoop N sincos fuel (u16 (n <<< 1)) (angf >>> 1)
    else pure ()

/-- `FFT_calculate` (fft_memory.c:388). `n` has 16 bits and doubles: the loop has at most 16
rounds when it ends at all. -/
def fftCalculate (N : Nat) (sincos : Nat → F) : Fw B P Unit := fftLoop N sincos 16 1 (N / 2)

end HmBoard
