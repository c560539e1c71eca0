import Handover.Toml.Value

/-!
# Settings files

A settings file is written in TOML: lines that set a value under a key, and headers that say which
table the following lines belong to. `Toml.read?` answers the file as a JSON object, or nothing for
a text that is no such file, sets a key twice or opens a table twice.
-/

namespace Handover

namespace Toml

/-- Change the table at the end of a path of header names, making the tables on the way. -/
def within? (f : Fields → Option Fields) : List String → Fields → Option Fields
  | [], fields => f fields
  | name :: path, fields =>
    let set (node : Node) : Fields := Keyed.insertSorted name node fields
    match Keyed.find? name fields with
    | none => (within? f path []).map fun inner => set (.table .passage inner)
    | some (.table origin inner) =>
      (within? f path inner).map fun inner => set (.table origin inner)
    | some (.tables elements) =>
      (modifyLast? (within? f path) elements).map fun elements => set (.tables elements)
    | some (.value _) => none

/-- Open a table that no header has opened before. -/
def openTable? (name : String) (fields : Fields) : Option Fields :=
  match Keyed.find? name fields with
  | none => some (Keyed.insertSorted name (.table .header []) fields)
  | some (.table .passage inner) => some (Keyed.insertSorted name (.table .header inner) fields)
  | some _ => none

/-- Open a further element of an array of tables. -/
def openElement? (name : String) (fields : Fields) : Option Fields :=
  match Keyed.find? name fields with
  | none => some (Keyed.insertSorted name (.tables [[]]) fields)
  | some (.tables elements) => some (Keyed.insertSorted name (.tables (elements ++ [[]])) fields)
  | some _ => none

/-- A file while it is being read: its tables, and the path of the open one. -/
structure Reading where
  fields : Fields
  path : List String

/-- Split the last part off a key. -/
def splitKey? : List String → Option (List String × String)
  | [] => none
  | [name] => some ([], name)
  | name :: rest => (splitKey? rest).map fun (path, last) => (name :: path, last)

/-- Read a header, after its opening brackets. -/
def header? (r : Reading) (open? : String → Fields → Option Fields) (brackets : Nat)
    (cs : List Char) : Option (Reading × List Char) := do
  let (key, rest) ← key? cs
  if rest.take brackets ≠ List.replicate brackets ']' then none
  let (path, name) ← splitKey? key
  let fields ← within? (open? name) path r.fields
  return (⟨fields, key⟩, rest.drop brackets)

/-- Read a line that sets a value. -/
def setting? (r : Reading) (cs : List Char) : Option (Reading × List Char) := do
  let (key, rest) ← key? cs
  let rest ← expect? '=' rest
  let rest := skipBlanks rest
  let (value, rest) ← value? (rest.length + 1) 0 rest
  let fields ← within? (set? value true key) r.path r.fields
  return ({ r with fields }, rest)

/-- Read lines up to the end. -/
def lines? : Nat → Reading → List Char → Option Reading
  | 0, _, _ => none
  | fuel + 1, r, cs => do
    match ← skipSpace false cs with
    | [] => return r
    | '[' :: '[' :: rest =>
      let (r, rest) ← header? r openElement? 2 rest
      lines? fuel r (← endLine false rest)
    | '[' :: rest =>
      let (r, rest) ← header? r openTable? 1 rest
      lines? fuel r (← endLine false rest)
    | cs =>
      let (r, rest) ← setting? r cs
      lines? fuel r (← endLine false rest)

/-- The mark that may stand before the first character of a text. -/
def byteOrderMark : Char :=
  Char.ofNat 0xFEFF

/-- The JSON object that a settings file writes. -/
def read? (text : String) : Option Json := do
  let cs := match text.toList with
    | c :: cs => if c = byteOrderMark then cs else c :: cs
    | [] => []
  let r ← lines? (cs.length + 1) ⟨[], []⟩ cs
  return .obj (fieldsToJson r.fields)

end Toml

end Handover
