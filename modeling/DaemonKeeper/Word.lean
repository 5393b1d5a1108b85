set_option autoImplicit false

/-!
# Words: the numbers that fit

Numbers of a fixed number of bits stay below a power of two.
-/

namespace DaemonKeeper.Word

/-- Two to the power 32. -/
abbrev bound32 : Nat := 4294967296

/-- Two to the power 63. -/
abbrev bound63 : Nat := 9223372036854775808

/-- Two to the power 64. -/
abbrev bound64 : Nat := 18446744073709551616

/-- Two to the power 127. -/
abbrev bound127 : Nat := 170141183460469231731687303715884105728

/-- Two to the power 128. -/
abbrev bound128 : Nat := 340282366920938463463374607431768211456

end DaemonKeeper.Word
