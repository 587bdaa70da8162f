import Mathlib.Data.List.Basic
import Mathlib.Algebra.Order.Group.Nat
import Mathlib.Tactic.Common

/-!
# Little-endian integers

Fixed-width unsigned integers as bytes, least significant first. Reading inverts writing for the
numbers that fit, and writing inverts reading for all bytes.
-/

namespace Bytes

/-- The low `width` bytes of a number. -/
def littleEndian : ℕ → ℕ → List UInt8
  | 0, _ => []
  | width + 1, n => UInt8.ofNat (n % 256) :: littleEndian width (n / 256)

/-- The number which some bytes spell. -/
def ofLittleEndian : List UInt8 → ℕ
  | [] => 0
  | byte :: bytes => byte.toNat + 256 * ofLittleEndian bytes

/-- The bytes from `start` to `stop`. -/
def slice (start stop : ℕ) (bytes : List UInt8) : List UInt8 := (bytes.take stop).drop start

variable {width n : ℕ} {bytes : List UInt8}

@[simp] theorem length_littleEndian (width n : ℕ) : (littleEndian width n).length = width := by
  induction width generalizing n with
  | zero => rfl
  | succ width ih => rw [littleEndian, List.length_cons, ih]

theorem ofLittleEndian_littleEndian (fits : n < 256 ^ width) :
    ofLittleEndian (littleEndian width n) = n := by
  induction width generalizing n with
  | zero =>
    rw [Nat.pow_zero, Nat.lt_one_iff] at fits
    rw [fits]
    rfl
  | succ width ih =>
    have high : n / 256 < 256 ^ width := by
      rw [Nat.pow_succ] at fits
      exact Nat.div_lt_of_lt_mul (by rwa [Nat.mul_comm])
    have low : (UInt8.ofNat (n % 256)).toNat = n % 256 := by simp
    rw [littleEndian, ofLittleEndian, ih high, low]
    exact Nat.mod_add_div n 256

theorem ofLittleEndian_lt (bytes : List UInt8) : ofLittleEndian bytes < 256 ^ bytes.length := by
  induction bytes with
  | nil => exact Nat.one_pos
  | cons byte bytes ih =>
    have low := byte.toNat_lt
    rw [ofLittleEndian, List.length_cons, Nat.pow_succ]
    omega

theorem littleEndian_ofLittleEndian (bytes : List UInt8) :
    littleEndian bytes.length (ofLittleEndian bytes) = bytes := by
  induction bytes with
  | nil => rfl
  | cons byte bytes ih =>
    have low := byte.toNat_lt
    have first : (byte.toNat + 256 * ofLittleEndian bytes) % 256 = byte.toNat := by omega
    have rest : (byte.toNat + 256 * ofLittleEndian bytes) / 256 = ofLittleEndian bytes := by omega
    rw [List.length_cons, ofLittleEndian, littleEndian, first, rest, ih, UInt8.ofNat_toNat]

theorem length_slice {start stop : ℕ} (long : stop ≤ bytes.length) :
    (slice start stop bytes).length = stop - start := by
  rw [slice, List.length_drop, List.length_take, Nat.min_eq_left long]

/-- Consecutive slices join. -/
theorem slice_append_slice {start middle stop : ℕ} (lower : start ≤ middle)
    (upper : middle ≤ stop) :
    slice start middle bytes ++ slice middle stop bytes = slice start stop bytes := by
  have first : slice start middle bytes = (slice start stop bytes).take (middle - start) := by
    rw [slice, slice, List.take_drop, List.take_take, Nat.add_sub_cancel' lower,
      Nat.min_eq_left upper]
  have second : slice middle stop bytes = (slice start stop bytes).drop (middle - start) := by
    rw [slice, slice, List.drop_drop, Nat.add_sub_cancel' lower]
  rw [first, second, List.take_append_drop]

/-- The middle of a concatenation. -/
theorem slice_of_append {first middle last : List UInt8} {start stop : ℕ}
    (before : first.length = start) (inside : start + middle.length = stop) :
    slice start stop (first ++ (middle ++ last)) = middle := by
  subst before inside
  rw [slice, ← List.append_assoc, ← List.length_append, List.take_left, List.drop_left]

theorem ofLittleEndian_slice_lt {start stop : ℕ} (long : stop ≤ bytes.length) :
    ofLittleEndian (slice start stop bytes) < 256 ^ (stop - start) := by
  rw [← length_slice long]
  exact ofLittleEndian_lt _

theorem littleEndian_slice {start stop : ℕ} (long : stop ≤ bytes.length) :
    littleEndian (stop - start) (ofLittleEndian (slice start stop bytes)) =
      slice start stop bytes := by
  rw [← length_slice long]
  exact littleEndian_ofLittleEndian _

end Bytes
