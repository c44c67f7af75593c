/-
# Contractions.Text.Inspect — the values of this library written out in full.

These texts are for people who look into a tailoring.  A list of slots is shown as two lists, its
code points and its packed elements; what a packing remembers of the main table is not shown.
-/
import Contractions.Tailoring.Basic
import Contractions.Text.Record

namespace Contractions

open Record (nat option)

/-- Code points in a list. -/
def inspectCodePoints (slots : List Slot) : Record :=
  .list (slots.map fun slot => nat slot.codePoint.toNat)

/-- Packed elements in a list. -/
def inspectWords (slots : List Slot) : Record :=
  .list (slots.map fun slot => nat slot.word.toNat)

/-- An element by its kind and what it carries. -/
def Element.inspect : Element → Record
  | direct word => .wrapped "Direct" (nat word.toNat)
  | reference payload => .wrapped "ContractionRef" (nat payload.toNat)

/-- A handle by its number. -/
def Handle.inspect (handle : Handle) : Record :=
  .wrapped "Handle" (nat handle.index)

/-- A summary by its bits. -/
def ClassSummary.inspect (summary : ClassSummary) : Record :=
  .wrapped "CombiningSummary" (nat summary.bits.toNat)

/-- The initial room. -/
def Sizing.inspect (sizing : Sizing) : Record :=
  .fields "Config"
    [("initial_handle_capacity", nat sizing.nodes), ("initial_entry_capacity", nat sizing.slots)]
    false

/-- A fault by its cause and what it carries. -/
def Fault.inspect : Fault → Record
  | outOfMemory => .word "OutOfMemory"
  | slotOutOfBounds offset capacity =>
    .fields "IndexOutOfBounds" [("offset", nat offset), ("capacity", nat capacity)] false
  | notFound => .word "NotFound"
  | danglingReference payload =>
    .fields "DanglingReference" [("payload", nat payload.toNat)] false
  | offsetOverflow offset => .fields "OffsetOverflow" [("offset", nat offset)] false

/-- A node: all of its slots, and how many are in use. -/
def Node.inspect (node : Node) : Record :=
  .fields "ContractionEntry"
    [("code_points", inspectCodePoints node.slots), ("ces", inspectWords node.slots),
      ("position", nat node.length)]
    false

/-- A packed table: its base, its slots and the offsets of its nodes. -/
def Packed.inspect (table : Packed) : Record :=
  .fields "Flattened"
    [("main_offset", nat table.base), ("code_points", inspectCodePoints table.slots.toList),
      ("ces", inspectWords table.slots.toList),
      ("offsets", .list (table.offsets.toList.map nat))]
    false

/-- A packed table that may be missing. -/
def inspectPacked (table : Option Packed) : Record :=
  option (table.map Packed.inspect)

/-- A tailoring: its nodes, their room, and the packed form. -/
def Tailoring.inspect (tailoring : Tailoring) : Record :=
  .fields "ContractionStore"
    [("elements", .list (tailoring.nodes.toList.map Node.inspect)),
      ("capacity", nat tailoring.capacity), ("config", tailoring.sizing.inspect),
      ("flattened", inspectPacked tailoring.packed)]
    true

end Contractions
