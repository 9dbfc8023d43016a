import Mathlib

/-!
# Santiago.Lib.Bytes

Byte-list plumbing: a number cut into octets by shifts and masks and put
together again by shifts and sums, and `take`/`drop` over appended buffers.
-/

/-- A byte string. -/
abbrev Bytes := List UInt8

namespace Bytes

/-! ## take/drop over appended buffers -/

theorem take_append_of_length {xs ys : Bytes} {k : Nat} (h : xs.length = k) :
    (xs ++ ys).take k = xs := by
  subst h; simp

theorem drop_append_of_length {xs ys : Bytes} {k : Nat} (h : xs.length = k) :
    (xs ++ ys).drop k = ys := by
  subst h; simp

/-! ## Octets -/

/-- The byte an `unsigned char` keeps of `n & 0xff`. -/
def octet (n : Nat) : UInt8 := UInt8.ofNat (n &&& 0xff)

@[simp] theorem toNat_octet (n : Nat) : (octet n).toNat = n % 256 := by
  have h : n &&& 0xff = n % 2 ^ 8 := Nat.and_two_pow_sub_one_eq_mod n 8
  rw [octet, h, UInt8.toNat_ofNat']
  omega

theorem octet_toNat (b : UInt8) : octet b.toNat = b := by
  apply UInt8.toNat_inj.mp
  rw [toNat_octet]
  exact Nat.mod_eq_of_lt (UInt8.toNat_lt b)

theorem shiftRight_eight (n : Nat) : n >>> 8 = n / 256 := Nat.shiftRight_eq_div_pow n 8

theorem shiftLeft_eight (n : Nat) : n <<< 8 = n * 256 := Nat.shiftLeft_eq n 8

/-- Two octets, high byte first, give back any number they can hold. -/
theorem two_octets {n : Nat} (h : n < 65536) :
    ((octet (n >>> 8)).toNat <<< 8) + (octet n).toNat = n := by
  rw [toNat_octet, toNat_octet, shiftRight_eight, shiftLeft_eight]
  omega

/-- Two octets never exceed sixteen bits. -/
theorem two_octets_lt (a b : UInt8) : (a.toNat <<< 8) + b.toNat < 65536 := by
  have ha := UInt8.toNat_lt a
  have hb := UInt8.toNat_lt b
  rw [shiftLeft_eight]
  omega

end Bytes
