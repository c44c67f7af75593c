/-
# Contractions.Text.Hex — numbers in base sixteen, as messages show them.
-/

namespace Contractions.Hex

/-- A number in base sixteen: marked by `0x`, lower case, without leading zeros. -/
def marked (n : Nat) : String :=
  "0x" ++ String.ofList (Nat.toDigits 16 n)

end Contractions.Hex
