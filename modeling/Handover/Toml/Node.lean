import Handover.Json.Value
import Handover.Keyed

/-!
# Tables of settings

The tables of a settings file while it is being read. A table remembers how it came to be, because
that decides whether it may still be extended: no table is written in two places, and no value is
written twice.
-/

namespace Handover

namespace Toml

/-- How a table came to be: named by a header, named on the way to another one, or made of the
points within a key. -/
inductive Origin where
  | header
  | passage
  | points
  deriving DecidableEq

/-- A part of a file while it is being read: a value, a table, or an array of tables of which the
last one is open. -/
inductive Node where
  | value (value : Json)
  | table (origin : Origin) (fields : List (String × Node))
  | tables (elements : List (List (String × Node)))

/-- The fields of a table. -/
abbrev Fields :=
  List (String × Node)

/-- Change the last element of a list, if there is one. -/
def modifyLast? {α : Type} (f : α → Option α) : List α → Option (List α)
  | [] => none
  | [a] => (f a).map ([·])
  | a :: rest => (modifyLast? f rest).map (a :: ·)

/-- Set a value under a key of a table. The points of the key may lead through tables that no header
has opened, but the last of them has to be made by points; `mayEnd` tells whether that holds of the
table at hand, as it does of the one where the key starts. -/
def set? (value : Json) (mayEnd : Bool) : List String → Fields → Option Fields
  | [], _ => none
  | [name], fields =>
    if ¬ mayEnd ∨ (Keyed.find? name fields).isSome then none
    else some (Keyed.insertSorted name (.value value) fields)
  | name :: path, fields =>
    let put (node : Node) : Fields := Keyed.insertSorted name node fields
    match Keyed.find? name fields with
    | none => (set? value true path []).map fun inner => put (.table .points inner)
    | some (.table .points inner) =>
      (set? value true path inner).map fun inner => put (.table .points inner)
    | some (.table .passage inner) =>
      (set? value false path inner).map fun inner => put (.table .passage inner)
    | some (.tables elements) =>
      (modifyLast? (set? value false path) elements).map fun elements => put (.tables elements)
    | some (.table .header _) | some (.value _) => none

mutual

/-- A part of a file as JSON. -/
def Node.toJson : Node → Json
  | .value j => j
  | .table _ fields => .obj (fieldsToJson fields)
  | .tables elements => .arr (elementsToJson elements)

/-- Fields as JSON. -/
def fieldsToJson : List (String × Node) → List (String × Json)
  | [] => []
  | (name, node) :: rest => (name, node.toJson) :: fieldsToJson rest

/-- The elements of an array of tables as JSON. -/
def elementsToJson : List (List (String × Node)) → List Json
  | [] => []
  | fields :: rest => .obj (fieldsToJson fields) :: elementsToJson rest

end

end Toml

end Handover
