import WalletKeys.Fault
import WalletKeys.Octets

/-! # Fixed-width numbers

    A number is written on a field of a given width or refused. The checks run
    in a fixed order, which decides what is reported when several apply: first
    the width, then the sign, then the size. A number is too wide for a field if
    what is written there reads back as another number.

    A width that the caller makes up may be no possible width at all. `writeAt`
    refuses those, and `write` is for widths of numbers at hand.
-/

namespace WalletKeys.FixedWidth

/-- The octets of `x` on `width` octets, most significant first. -/
def write (width : Nat) (x : Int) : Except CurveFault Octets :=
  if x < 0 then .error .negativeNumber
  else
    let octets := Octets.ofNat width x.toNat
    if octets.toNat = x.toNat then .ok octets else .error .numberTooWide

/-- The width of the longest string: the largest machine size, less what the
    string needs besides its octets. -/
def longest : Nat := 0x7fffffffffffffff - 33

/-- The least width that is beyond any memory. -/
def unmanageable : Nat := 0x8000000000

/-- As `write`, for a width that may be impossible. -/
def writeAt (width : Int) (x : Int) : Except CurveFault Octets :=
  if ¬IsMachineSize width then .error .widthSize
  else if width < 0 then .error .negativeWidth
  else if longest < width then .error .stringTooLong
  else if unmanageable ≤ width then .error .outOfMemory
  else write width.toNat x

/-- The octets of `x` on as many octets as its binary digits take. -/
def writeShortest (x : Int) : Except CurveFault Octets := write (octetLength x) x

/-- A number that is to be a single octet. -/
def octet (x : Int) : Except CurveFault UInt8 :=
  if 0 ≤ x ∧ x < 256 then .ok (UInt8.ofNat x.toNat) else .error .octetRange

/-- What is written reads back, and only numbers that read back are written. -/
theorem write_eq_ok_iff {width : Nat} {x : Int} {octets : Octets} :
    write width x = .ok octets ↔ octets.length = width ∧ x = octets.toNat := by
  unfold write
  constructor
  · intro h
    split at h
    · exact absurd h (by simp)
    · rename_i hsign
      dsimp only at h
      split at h
      · rename_i hback
        have hoctets := Except.ok.inj h
        subst hoctets
        exact ⟨Octets.length_ofNat _ _, by omega⟩
      · exact absurd h (by simp)
  · rintro ⟨hlength, rfl⟩
    have hwritten : Octets.ofNat width octets.toNat = octets := by
      rw [← hlength, Octets.ofNat_toNat]
    dsimp only
    rw [if_neg (by omega), Int.toNat_natCast, hwritten]
    exact if_pos rfl

end WalletKeys.FixedWidth
