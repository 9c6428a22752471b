/-!
# Numbers of 64 bits

The limits of the numbers that fit 64 bits, without and with a sign, and the numbers that floats of
64 bits hold.
-/
namespace ShellCompletion.Word64

/-- The largest number without a sign: one less than the 64th power of two. -/
def maxUnsigned : Nat := 18446744073709551615

/-- The largest number with a sign: one less than the 63rd power of two. -/
def maxSigned : Nat := 9223372036854775807

/-- The number with a sign that has the same lowest 64 bits. -/
def toSigned (value : Int) : Int := Int.bmod value (maxUnsigned + 1)

/-- The number as a float holds it, which has 53 binary digits: rounded to the nearest such number,
    and of two that are equally near to the one whose last digit is zero. -/
def roundToFloat (n : Nat) : Nat :=
  let unit := 1 <<< (n.log2 - 52)
  let digits := n / unit
  let rest := 2 * (n % unit)
  if unit < rest || (rest == unit && digits % 2 == 1) then (digits + 1) * unit else digits * unit

end ShellCompletion.Word64
