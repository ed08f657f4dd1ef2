/-! # Octet strings and big-endian numbers

    Keys, hashes, nonces and signatures travel as strings of octets. This file
    fixes the one reading of such a string as a number (most significant octet
    first) and the writing of a number on a given width.

    Writing on the length of a string what the string denotes gives the string
    back (`ofNat_toNat`), so no two strings of one length denote one number.
-/

namespace WalletKeys

/-- A string of octets, first octet first. -/
abbrev Octets := List UInt8

/-! ## Section 1: Bit and octet lengths -/

/-- The number of binary digits of the magnitude of `x`; zero has none. -/
def bitLength (x : Int) : Nat :=
  if x = 0 then 0 else x.natAbs.log2 + 1

/-- The number of octets that the binary digits of `x` take. -/
def octetLength (x : Int) : Nat := (bitLength x + 7) / 8

/-- A number that fits a machine word of 64 bits, sign included, as widths and
    positions have to. -/
def IsMachineSize (x : Int) : Prop := -0x8000000000000000 ≤ x ∧ x < 0x8000000000000000

instance (x : Int) : Decidable (IsMachineSize x) := by
  unfold IsMachineSize
  infer_instance

namespace Octets

/-! ## Section 2: Reading and writing numbers -/

/-- The number that a string denotes, most significant octet first. -/
def toNat (octets : Octets) : Nat :=
  octets.foldl (fun acc octet => 256 * acc + octet.toNat) 0

/-- Puts the last `width` base-256 digits of `n` in front of a string. -/
def ofNatOnto : (width n : Nat) → Octets → Octets
  | 0, _, tail => tail
  | width + 1, n, tail => ofNatOnto width (n / 256) (UInt8.ofNat (n % 256) :: tail)

/-- The last `width` base-256 digits of `n`, most significant first. Digits
    that do not fit are dropped. -/
def ofNat (width n : Nat) : Octets := ofNatOnto width n []

/-- The string of `width` zero octets. -/
def zeros (width : Nat) : Octets := List.replicate width 0

/-! ## Section 3: Writing undoes reading -/

theorem ofNatOnto_eq_append (width n : Nat) (tail : Octets) :
    ofNatOnto width n tail = ofNat width n ++ tail := by
  unfold ofNat
  induction width generalizing n tail with
  | zero => rfl
  | succ width ih =>
    rw [ofNatOnto, ih (n / 256) (_ :: tail), ofNatOnto, ih (n / 256) [_], List.append_assoc]
    rfl

@[simp] theorem ofNat_zero (n : Nat) : ofNat 0 n = [] := rfl

/-- The last digit stands at the end, and those of the quotient before it. -/
theorem ofNat_succ (width n : Nat) :
    ofNat (width + 1) n = ofNat width (n / 256) ++ [UInt8.ofNat (n % 256)] :=
  ofNatOnto_eq_append width (n / 256) [UInt8.ofNat (n % 256)]

@[simp] theorem length_ofNat (width n : Nat) : (ofNat width n).length = width := by
  induction width generalizing n with
  | zero => rfl
  | succ width ih => simp [ofNat_succ, ih]

@[simp] theorem length_zeros (width : Nat) : (zeros width).length = width := by
  simp [zeros]

@[simp] theorem toNat_nil : toNat [] = 0 := rfl

@[simp] theorem toNat_concat (octets : Octets) (octet : UInt8) :
    toNat (octets ++ [octet]) = 256 * toNat octets + octet.toNat := by
  simp [toNat, List.foldl_append]

/-- A string is the writing of its number on its own length. -/
theorem ofNat_toNat (octets : Octets) : ofNat octets.length (toNat octets) = octets := by
  rw [← List.reverse_reverse octets]
  generalize octets.reverse = tail
  induction tail with
  | nil => rfl
  | cons octet tail ih =>
    have hlt := octet.toNat_lt
    have hdiv : (256 * toNat tail.reverse + octet.toNat) / 256 = toNat tail.reverse := by
      omega
    have hmod : (256 * toNat tail.reverse + octet.toNat) % 256 = octet.toNat := by
      omega
    rw [List.reverse_cons, toNat_concat, List.length_append, List.length_singleton, ofNat_succ,
      hdiv, hmod, ih]
    simp

end Octets

end WalletKeys
