/-
# Contractions.Session.Packing — packing in place, one effect after another.

`Tailoring.pack` says what a packing comes to.  On a session it happens in place: the earlier
packed table is set aside first, then the references of the main table are checked slot by slot,
worked out slot by slot and written slot by slot.  A fault may strike between any two of these
effects, and what was done by then stays done.  Two things keep a refused packing from leaving a
trace.  The earlier table is put back on the way out, and the first write to the main table comes
after the last step that may be refused.

Of the four buffers that a packing fills only the two rows of slots are checked for their size.  There
are no more offsets than handles and no more relocations than code points, so the buffers for these
are never too large, and they are taken as granted.  See `Contractions.Storage` for refusals that have
other reasons.
-/
import Contractions.Session.Basic

namespace Contractions

/-- The code points that have a slot, in ascending order. -/
def MainTable.codePoints (table : MainTable) : List UInt16 :=
  (List.range table.size).map Nat.toUInt16

namespace Session

/-- A piece of work on a session.  It may be refused half way, and then what it had changed by that
time stays changed. -/
abbrev Work := ExceptT Fault (StateM Session)

namespace Work

variable {α : Type}

/-- The outcome of some work on a session, and the session afterwards. -/
def on (work : Work α) (session : Session) : Except Fault α × Session :=
  (ExceptT.run work).run session

/-- The outcome of a calculation that touches no session. -/
def ofExcept (outcome : Except Fault α) : Work α :=
  ExceptT.mk (pure outcome)

/-- Replace the packed table. -/
def setPacked (packed : Option Packed) : Work Unit :=
  modify fun session => { session with tailoring := { session.tailoring with packed } }

/-- Set the packed table aside for some work, and put it back if the work is refused. -/
def settingPackedAside (work : Work α) : Work α := do
  let earlier := (← get).tailoring.packed
  setPacked none
  try
    work
  catch fault =>
    setPacked earlier
    throw fault

/-! ## The main table, slot by slot -/

/-- The handle that a code point refers to, as the main table and the memory stand now. -/
def readReference (codePoint : UInt16) : Work (Option UInt32) := do
  let session ← get
  return session.table.reference? session.tailoring.memory codePoint

/-- Make sure that a code point refers to no node that was never made. -/
def checkReference (offsets : Array Nat) (codePoint : UInt16) : Work Unit := do
  match ← readReference codePoint with
  | none => return
  | some payload =>
    let _ ← ofExcept (relocatePayload offsets payload)

/-- Work out what is to be written for a code point, if it refers to a node. -/
def planReference (offsets : Array Nat) (codePoint : UInt16) : Work (Option Relocation) := do
  match ← readReference codePoint with
  | none => return none
  | some payload => return some (← ofExcept (relocateReference offsets (codePoint, payload)))

/-- Write to the main table what was worked out for a code point. -/
def writeRelocation (relocation : Relocation) : Work Unit :=
  modify fun session =>
    { session with table := session.table.set relocation.codePoint relocation.written }

/-- Keep the new packed table and the memory of what was written. -/
def keep (plan : PackPlan) : Work Unit :=
  modify fun session =>
    { session with
      tailoring :=
        { session.tailoring with packed := some plan.packed, memory := plan.relocations } }

/-! ## Packing -/

/-- Lay some nodes end to end, write their offsets to the main table and keep the outcome.  Answers
how many slots they take. -/
def layOut (base : Nat) (classOf : UInt16 → UInt8) (nodes : List Node) : Work Nat := do
  let packed ← ofExcept (Packed.ofNodes base classOf nodes)
  let codePoints := (← get).table.codePoints
  codePoints.forM (checkReference packed.offsets)
  let relocations ← codePoints.filterMapM (planReference packed.offsets)
  relocations.forM writeRelocation
  keep { packed, relocations := relocations.toArray }
  return packed.length

/-- Pack the nodes of the session.  Without nodes there is nothing to do. -/
def pack (base : Nat) (classOf : UInt16 → UInt8) : Work Nat := do
  let nodes := (← get).tailoring.nodes
  if nodes.isEmpty then
    return 0
  settingPackedAside (layOut base classOf nodes.toList)

end Work

end Session

end Contractions
