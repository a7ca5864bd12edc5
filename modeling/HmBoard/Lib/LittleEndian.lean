import Mathlib.Data.Nat.Bitwise

/-!
# Little-endian numbers

`leBytes k n` are the `k` low bytes of `n`, least significant first, and `leNat` reads such a list
back: each undoes the other (`leNat_leBytes`, `leBytes_leNat`).
-/

namespace HmBoard.Lib

def leBytes : Nat → Nat → List UInt8
  | 0, _ => []
  | k + 1, n => UInt8.ofNat n :: leBytes k (n / 256)

def leNat : List UInt8 → Nat
  | [] => 0
  | b :: bs => b.toNat + 256 * leNat bs

@[simp] theorem length_leBytes : ∀ k n, (leBytes k n).length = k
  | 0, _ => rfl
  | k + 1, n => by simp [leBytes, length_leBytes k]

theorem leNat_leBytes : ∀ k n, leNat (leBytes k n) = n % 256 ^ k
  | 0, n => by simp [leBytes, leNat, Nat.mod_one]
  | k + 1, n => by
    have h : (UInt8.ofNat n).toNat = n % 256 := rfl
    rw [leBytes, leNat, leNat_leBytes k, h, Nat.pow_succ', Nat.mod_mul]

theorem leBytes_leNat : ∀ bs : List UInt8, leBytes bs.length (leNat bs) = bs
  | [] => rfl
  | b :: bs => by
    have hb := b.toNat_lt
    have h1 : UInt8.ofNat (b.toNat + 256 * leNat bs) = b := by
      apply UInt8.toNat_inj.1
      simp only [UInt8.toNat_ofNat']
      omega
    have h2 : (b.toNat + 256 * leNat bs) / 256 = leNat bs := by omega
    rw [List.length_cons, leNat, leBytes, h1, h2, leBytes_leNat bs]

theorem leNat_lt : ∀ bs : List UInt8, leNat bs < 256 ^ bs.length
  | [] => by simp [leNat]
  | b :: bs => by
    have hb := b.toNat_lt
    have h := leNat_lt bs
    rw [leNat, List.length_cons, Nat.pow_succ']
    omega

end HmBoard.Lib
