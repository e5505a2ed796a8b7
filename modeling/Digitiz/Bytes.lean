import Mathlib.Data.Nat.Bitwise
import Mathlib.Tactic.Common
import Mathlib.Tactic.Ring

/-!
Numbers as little-endian byte strings, and the two ways a program puts bytes together: by
adding with powers of 256, and by shifting and or-ing fixed-width words.
-/

namespace Digitiz.Bytes

/-- The number a little-endian byte string stands for. -/
def ofLe : List UInt8 → ℕ
  | [] => 0
  | b :: l => b.toNat + 256 * ofLe l

/-- The lowest `k` bytes of a number, lowest first. -/
def toLe : ℕ → ℕ → List UInt8
  | 0, _ => []
  | k + 1, v => UInt8.ofNat v :: toLe k (v / 256)

@[simp] lemma length_toLe (k v : ℕ) : (toLe k v).length = k := by
  induction k generalizing v with
  | zero => rfl
  | succ k ih => simp [toLe, ih]

lemma ofLe_toLe (k v : ℕ) : ofLe (toLe k v) = v % 256 ^ k := by
  induction k generalizing v with
  | zero => simp [toLe, ofLe, Nat.mod_one]
  | succ k ih =>
    rw [toLe, ofLe, ih, pow_succ, Nat.mul_comm (256 ^ k), Nat.mod_mul]
    simp

lemma ofLe_toLe_of_lt {k v : ℕ} (h : v < 256 ^ k) : ofLe (toLe k v) = v := by
  rw [ofLe_toLe, Nat.mod_eq_of_lt h]

/-- Or-ing a shifted word over a smaller one is adding it. -/
lemma or_shiftLeft {a k : ℕ} (b : ℕ) (h : a < 2 ^ k) : a ||| b <<< k = a + b * 2 ^ k := by
  rw [Nat.or_comm, ← Nat.shiftLeft_add_eq_or_of_lt h, Nat.shiftLeft_eq, Nat.add_comm]

/-! ### Halves of a word -/

lemma toNat_or16 (lo hi : UInt8) :
    (lo.toUInt16 ||| hi.toUInt16 <<< 8).toNat = lo.toNat + 256 * hi.toNat := by
  have h0 := lo.toNat_lt
  have h1 := hi.toNat_lt
  simp only [UInt16.toNat_or, UInt8.toNat_toUInt16, UInt16.toNat_shiftLeft, UInt16.reduceToNat,
    Nat.reduceMod, Nat.reducePow]
  rw [Nat.mod_eq_of_lt (by rw [Nat.shiftLeft_eq]; omega), or_shiftLeft _ h0]
  ring

lemma toNat_or32 (lo hi : UInt16) :
    (lo.toUInt32 ||| hi.toUInt32 <<< 16).toNat = lo.toNat + 65536 * hi.toNat := by
  have h0 := lo.toNat_lt
  have h1 := hi.toNat_lt
  simp only [UInt32.toNat_or, UInt16.toNat_toUInt32, UInt32.toNat_shiftLeft, UInt32.reduceToNat,
    Nat.reduceMod, Nat.reducePow]
  rw [Nat.mod_eq_of_lt (by rw [Nat.shiftLeft_eq]; omega), or_shiftLeft _ h0]
  ring

lemma toNat_or64 (lo hi : UInt32) :
    (lo.toUInt64 ||| hi.toUInt64 <<< 32).toNat = lo.toNat + 4294967296 * hi.toNat := by
  have h0 := lo.toNat_lt
  have h1 := hi.toNat_lt
  simp only [UInt64.toNat_or, UInt32.toNat_toUInt64, UInt64.toNat_shiftLeft, UInt64.reduceToNat,
    Nat.reduceMod, Nat.reducePow]
  rw [Nat.mod_eq_of_lt (by rw [Nat.shiftLeft_eq]; omega), or_shiftLeft _ h0]
  ring

/-- Four bytes or-ed into one word at their places. -/
lemma toNat_or4 (a b c d : UInt8) :
    (a.toUInt32 ||| b.toUInt32 <<< 8 ||| c.toUInt32 <<< 16 ||| d.toUInt32 <<< 24).toNat
      = ofLe [a, b, c, d] := by
  have ha := a.toNat_lt
  have hb := b.toNat_lt
  have hc := c.toNat_lt
  have hd := d.toNat_lt
  simp only [UInt32.toNat_or, UInt8.toNat_toUInt32, UInt32.toNat_shiftLeft, UInt32.reduceToNat,
    Nat.reduceMod, Nat.reducePow]
  rw [Nat.mod_eq_of_lt (a := b.toNat <<< 8) (by rw [Nat.shiftLeft_eq]; omega),
    Nat.mod_eq_of_lt (a := c.toNat <<< 16) (by rw [Nat.shiftLeft_eq]; omega),
    Nat.mod_eq_of_lt (a := d.toNat <<< 24) (by rw [Nat.shiftLeft_eq]; omega),
    or_shiftLeft _ ha, or_shiftLeft c.toNat (by omega), or_shiftLeft d.toNat (by omega)]
  simp only [ofLe]
  ring

end Digitiz.Bytes
