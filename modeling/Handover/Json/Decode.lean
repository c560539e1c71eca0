import Handover.IntRange
import Handover.Json.Value
import Handover.Keyed

/-!
# Reading domain values out of JSON

Small readers from `Json` into domain values; a reader answers `none` for a value that does not
have the form it asks for. A `Record` is a value with named fields. It may be written with its
field names or as the list of its fields in order. Fields nobody asks for are ignored in the first
form; in the second, `record?` refuses them and `lenientRecord?` ignores them.
-/

namespace Handover

namespace Json

/-- A truth value. -/
def bool? : Json → Option Bool
  | bool b => some b
  | _ => none

/-- A text. -/
def str? : Json → Option String
  | str s => some s
  | _ => none

/-- A whole number of a range. -/
def ranged? (r : IntRange) : Json → Option Int
  | int n => if r.contains n then some n else none
  | _ => none

/-- A signed whole number of 32 bits. -/
def int32? : Json → Option Int :=
  ranged? .signed32

/-- A signed whole number of 64 bits. -/
def int64? : Json → Option Int :=
  ranged? .signed64

/-- A natural number of 32 bits. -/
def nat32? (j : Json) : Option Nat :=
  (ranged? .unsigned32 j).map Int.toNat

/-- A natural number of 64 bits. -/
def nat64? (j : Json) : Option Nat :=
  (ranged? .unsigned64 j).map Int.toNat

/-- A list whose items all have a form. -/
def list? {α : Type} (item? : Json → Option α) : Json → Option (List α)
  | arr items => items.mapM item?
  | _ => none

/-- Labels: an object whose fields are all text. -/
def labels? : Json → Option Labels
  | obj fields => (fields.mapM fun f => (str? f.2).map (f.1, ·)).map Labels.ofEntries
  | _ => none

/-- One of several names: the name as text, or as the only key of an object that holds null. -/
def name? : Json → Option String
  | str s => some s
  | obj [(s, null)] => some s
  | _ => none

/-- Null for nothing, anything else for a value of some form. -/
def nullable? {α : Type} (value? : Json → Option α) : Json → Option (Option α)
  | null => some none
  | j => (value? j).map some

/-- The field of an object with this name. -/
def field? (name : String) : Json → Option Json
  | obj fields => Keyed.find? name fields
  | _ => none

/-- A value with fields, written with their names or in their order. -/
inductive Record where
  | named (fields : List (String × Json))
  | listed (items : List Json)

/-- A value of at most `arity` fields. -/
def record? (arity : Nat) : Json → Option Record
  | obj fields => some (.named fields)
  | arr items => if items.length ≤ arity then some (.listed items) else none
  | _ => none

/-- A value with fields, of any number. -/
def lenientRecord? : Json → Option Record
  | obj fields => some (.named fields)
  | arr items => some (.listed items)
  | _ => none

namespace Record

variable {α : Type}

/-- A field as it is written, by its name or its position. -/
def get? (r : Record) (position : Nat) (name : String) : Option Json :=
  match r with
  | named fields => Keyed.find? name fields
  | listed items => items[position]?

/-- A field that has to be there. -/
def required (r : Record) (position : Nat) (name : String) (value? : Json → Option α) : Option α :=
  (r.get? position name).bind value?

/-- A field that has a default. -/
def defaulted (r : Record) (position : Nat) (name : String) (value? : Json → Option α)
    (default : α) : Option α :=
  match r.get? position name with
  | none => some default
  | some j => value? j

/-- A field that may be null, or be missing where fields have names. -/
def optional (r : Record) (position : Nat) (name : String) (value? : Json → Option α) :
    Option (Option α) :=
  match r, r.get? position name with
  | named _, none => some none
  | listed _, none => none
  | _, some j => nullable? value? j

end Record

/-- Nothing is written as null. -/
def ofOption {α : Type} (write : α → Json) : Option α → Json
  | none => null
  | some a => write a

/-- Labels as an object. -/
def ofLabels (l : Labels) : Json :=
  obj (l.entries.map fun e => (e.1, str e.2))

/-- An object from fields in any order. -/
def ofFields (fields : List (String × Json)) : Json :=
  obj (Keyed.ofEntries fields)

end Json

end Handover
