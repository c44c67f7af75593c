/-
# Contractions.Text.Record — values written out as named records and lists.

A record is its name and, between braces, its fields, each with its own name; one that does not show
all of its fields ends in two dots.  A list stands between brackets, and a wrapped value between
parentheses behind the name of what wraps it.
-/

namespace Contractions

/-- A value to be written out. -/
inductive Record where
  /-- A number or a bare name. -/
  | word (text : String)
  /-- A value wrapped by a name. -/
  | wrapped (name : String) (value : Record)
  /-- Values in a row. -/
  | list (values : List Record)
  /-- Named fields; the last one may be followed by others that are not shown. -/
  | fields (name : String) (shown : List (String × Record)) (more : Bool)

namespace Record

/-- A number as a value. -/
def nat (n : Nat) : Record :=
  .word (toString n)

/-- A value that may be missing. -/
def option (value : Option Record) : Record :=
  match value with
  | some value => .wrapped "Some" value
  | none => .word "None"

mutual

/-- The text of a value. -/
def render : Record → String
  | word text => text
  | wrapped name value => name ++ "(" ++ value.render ++ ")"
  | list values => "[" ++ ", ".intercalate (renderAll values) ++ "]"
  | fields name shown more =>
    let parts := renderFields shown ++ if more then [".."] else []
    name ++ " \x7b " ++ ", ".intercalate parts ++ " \x7d"

/-- The texts of several values. -/
def renderAll : List Record → List String
  | [] => []
  | value :: values => value.render :: renderAll values

/-- The texts of several fields. -/
def renderFields : List (String × Record) → List String
  | [] => []
  | (name, value) :: rest => (name ++ ": " ++ value.render) :: renderFields rest

end

end Record

end Contractions
