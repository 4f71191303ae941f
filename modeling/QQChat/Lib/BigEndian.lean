import Mathlib.Algebra.Group.Nat.Defs

/-!
# Big-endian base-256 numerals

A fixed-width unsigned integer on a network stream is the list of its base-256
digits, most significant first. `toBytes k v` writes the low `k` digits of `v`
and `ofBytes` reads a digit list back, so `ofBytes_toBytes` — reading what was
written returns `v` modulo `256 ^ k` — is the one round trip every fixed-width
field of a wire format rests on. `toBytes_ofBytes` is the converse, from which a
decoder's answer determines the bytes it read.

Machine code does not compute digits with `/` and `%` but with shifts, masks
and ors on machine words. The second half of the file is that bridge, at the
level of natural numbers: `shiftLeft_or_byte` (appending a digit) and
`and_255` (masking one out).
-/

namespace QQChat.BigEndian

/-- The number a big-endian digit list denotes. -/
def ofBytes (bs : List UInt8) : Nat :=
  bs.foldl (fun acc b => acc * 256 + b.toNat) 0

/-- The low `k` base-256 digits of `v`, most significant first. -/
def toBytes : Nat → Nat → List UInt8
  | 0, _ => []
  | k + 1, v => UInt8.ofNat (v / 256 ^ k) :: toBytes k v

@[simp] theorem length_toBytes : ∀ (k v : Nat), (toBytes k v).length = k
  | 0, _ => rfl
  | k + 1, v => congrArg (· + 1) (length_toBytes k v)

/-- The accumulator of the reading fold contributes one shifted summand. -/
theorem foldl_digits (bs : List UInt8) : ∀ (acc : Nat),
    bs.foldl (fun acc b => acc * 256 + b.toNat) acc
      = acc * 256 ^ bs.length + ofBytes bs := by
  induction bs with
  | nil => intro acc; simp [ofBytes]
  | cons b bs ih =>
    intro acc
    unfold ofBytes
    rw [List.foldl_cons, List.foldl_cons, ih, ih, List.length_cons, Nat.pow_succ']
    rw [Nat.add_mul, Nat.add_mul, Nat.mul_assoc, Nat.zero_mul]
    omega

theorem ofBytes_nil : ofBytes [] = 0 := rfl

theorem ofBytes_cons (b : UInt8) (bs : List UInt8) :
    ofBytes (b :: bs) = b.toNat * 256 ^ bs.length + ofBytes bs := by
  have h := foldl_digits bs (0 * 256 + b.toNat)
  rw [Nat.zero_mul, Nat.zero_add] at h
  show bs.foldl (fun acc b => acc * 256 + b.toNat) (0 * 256 + b.toNat) = _
  rw [Nat.zero_mul, Nat.zero_add, h]

/-- **Reading what was written**: the value modulo the width. -/
theorem ofBytes_toBytes (k v : Nat) : ofBytes (toBytes k v) = v % 256 ^ k := by
  induction k with
  | zero => simp [toBytes, ofBytes_nil, Nat.mod_one]
  | succ k ih =>
    show ofBytes (UInt8.ofNat (v / 256 ^ k) :: toBytes k v) = v % 256 ^ (k + 1)
    rw [ofBytes_cons, ih, length_toBytes, Nat.pow_succ, Nat.mod_mul]
    have hdigit : (UInt8.ofNat (v / 256 ^ k)).toNat = v / 256 ^ k % 256 := by simp
    rw [hdigit, Nat.mul_comm (256 ^ k), Nat.add_comm]

theorem ofBytes_lt (bs : List UInt8) : ofBytes bs < 256 ^ bs.length := by
  induction bs with
  | nil => exact Nat.one_pos
  | cons b bs ih =>
    have hb : b.toNat + 1 ≤ 256 := b.toNat_lt
    rw [ofBytes_cons, List.length_cons]
    calc b.toNat * 256 ^ bs.length + ofBytes bs
        < (b.toNat + 1) * 256 ^ bs.length := by rw [Nat.add_mul, Nat.one_mul]; omega
      _ ≤ 256 * 256 ^ bs.length := Nat.mul_le_mul_right _ hb
      _ = 256 ^ (bs.length + 1) := Nat.pow_succ'.symm

/-- The digits above the width are not written. -/
theorem toBytes_add_mul (k a v : Nat) : toBytes k (a * 256 ^ k + v) = toBytes k v := by
  induction k generalizing a with
  | zero => rfl
  | succ k ih =>
    have hsum : a * 256 ^ (k + 1) + v = (a * 256) * 256 ^ k + v := by
      rw [Nat.pow_succ', Nat.mul_assoc]
    have hdigit : UInt8.ofNat (((a * 256) * 256 ^ k + v) / 256 ^ k)
        = UInt8.ofNat (v / 256 ^ k) := by
      apply UInt8.toNat_inj.mp
      rw [Nat.mul_comm, Nat.mul_add_div (Nat.pow_pos (by omega)), UInt8.toNat_ofNat',
        UInt8.toNat_ofNat', Nat.mul_add_mod_self_right]
    rw [hsum, toBytes, toBytes, hdigit, ih]

/-- **Writing what was read**: the digits themselves. -/
theorem toBytes_ofBytes (bs : List UInt8) : toBytes bs.length (ofBytes bs) = bs := by
  induction bs with
  | nil => rfl
  | cons b bs ih =>
    have hdigit : UInt8.ofNat ((b.toNat * 256 ^ bs.length + ofBytes bs) / 256 ^ bs.length) = b := by
      rw [Nat.mul_comm, Nat.mul_add_div (Nat.pow_pos (by omega)),
        Nat.div_eq_of_lt (ofBytes_lt bs), Nat.add_zero, UInt8.ofNat_toNat]
    rw [ofBytes_cons, List.length_cons, toBytes, hdigit, toBytes_add_mul, ih]

/-! ## Shifts, masks and ors -/

/-- Masking with `0xFF` keeps the lowest digit. -/
theorem and_255 (n : Nat) : n &&& 255 = n % 256 := by
  simpa using Nat.and_two_pow_sub_one_eq_mod n 8

/-- `(a << 8) | b` appends the digit `b`. -/
theorem shiftLeft_or_byte (a : Nat) (b : UInt8) :
    a <<< 8 ||| b.toNat = a * 256 + b.toNat := by
  rw [← Nat.shiftLeft_add_eq_or_of_lt b.toNat_lt a, Nat.shiftLeft_eq]

/-- The `|` of two shifted bytes is their numeral. -/
theorem or_two_bytes (a b : UInt8) : a.toNat <<< 8 ||| b.toNat = ofBytes [a, b] := by
  rw [shiftLeft_or_byte]
  show _ = (0 * 256 + a.toNat) * 256 + b.toNat
  rw [Nat.zero_mul, Nat.zero_add]

/-- The `|` of four shifted bytes is their numeral. -/
theorem or_four_bytes (a b c d : UInt8) :
    a.toNat <<< 24 ||| b.toNat <<< 16 ||| c.toNat <<< 8 ||| d.toNat
      = ofBytes [a, b, c, d] := by
  have hfold : ofBytes [a, b, c, d]
      = (((0 * 256 + a.toNat) * 256 + b.toNat) * 256 + c.toNat) * 256 + d.toNat := rfl
  rw [hfold, ← shiftLeft_or_byte, ← shiftLeft_or_byte, ← shiftLeft_or_byte]
  rw [Nat.shiftLeft_or_distrib, Nat.shiftLeft_or_distrib, Nat.shiftLeft_or_distrib]
  rw [← Nat.shiftLeft_add, ← Nat.shiftLeft_add, ← Nat.shiftLeft_add]
  rw [Nat.zero_mul, Nat.zero_add]

end QQChat.BigEndian
