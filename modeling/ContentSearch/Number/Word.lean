/-!
Bounds of the integers that fit in a machine word.
-/

namespace ContentSearch

/-- The number of values of a word of 64 bits. -/
def wordSize : Nat := 18446744073709551616

/-- The least positive integer that does not fit in a word of 64 bits with a sign. -/
def signedBound : Nat := 9223372036854775808

/-- The greatest integer that fits in a word of 32 bits with a sign. -/
def maxShort : Nat := 2147483647

end ContentSearch
