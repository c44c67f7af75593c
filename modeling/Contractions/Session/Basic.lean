/-
# Contractions.Session.Basic — a tailoring and the main table that it extends.

Everything that a tailoring does happens on these two together: attaching and packing read the main
table and write to it.
-/
import Contractions.Tailoring.Pack

namespace Contractions

/-- A tailoring and the main table that it extends. -/
structure Session where
  tailoring : Tailoring
  table : MainTable
deriving DecidableEq, Inhabited, Repr

end Contractions
