import LogRelay.Text.Quoted

/-!
# Descriptions for diagnostics

A structure is described by its name and its fields, `Name { field: value, ... }`,
with texts quoted.
-/

namespace LogRelay.Describe

/-- A named structure with its fields and their descriptions. -/
def structured (name : String) (fields : List (String × String)) : String :=
  let shown := fields.map fun (field, value) => field ++ ": " ++ value
  name ++ " \x7b " ++ String.intercalate ", " shown ++ " \x7d"

def listed (items : List String) : String :=
  "[" ++ String.intercalate ", " items ++ "]"

def truth (value : Bool) : String :=
  if value then "true" else "false"

def text (value : String) : String :=
  Text.quote value

end LogRelay.Describe
