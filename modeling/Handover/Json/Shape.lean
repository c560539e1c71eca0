import Handover.Json.Raw

/-!
# Reading a text of a known shape

Where it is known which fields a value has, a text is read for these fields. `Raw.shaped?` answers
the value of a text with a `Shape`: members under other names are left out, whatever they hold, and
a name of the shape that stands twice is refused.
-/

namespace Handover

/-- Whether a field has to be there. -/
inductive Presence where
  | required
  | optional
  deriving DecidableEq

/-- What is known of a value: nothing, that it is one of several names, that it is an object of
texts, or the fields that it has in their order. -/
inductive Shape where
  | leaf
  | choice
  | texts
  | record (fields : List (String × Presence × Shape))

namespace Shape

/-- The shape of the field under a name. -/
def field? (fields : List (String × Presence × Shape)) (name : String) : Option Shape :=
  (Keyed.find? name fields).map Prod.snd

end Shape

namespace Json

mutual

/-- The value of a text with a shape, in which arrays and objects that are read stand at most
`depth` deep. A choice may stand as the only key of an object. The fields of a record may stand
under their names or in their order. -/
def Raw.shaped? : Raw → Shape → (depth : Nat) → Option Json
  | .obj [member], .choice, depth + 1 => (Raw.obj [member]).json? (depth + 1)
  | .obj _, .choice, _ => none
  | .obj members, .texts, depth + 1 => do
    let fields ← membersJson? members depth
    if fields.all fun f => f.2 matches .str _ then some (.obj (Keyed.ofEntries fields)) else none
  | .obj members, .record fields, depth + 1 => do
    let known ← knownMembers? members fields depth
    if (known.map Prod.fst).Nodup then some (.obj (Keyed.ofEntries known)) else none
  | .arr items, .record fields, depth + 1 => (knownItems? items fields depth).map .arr
  | r, _, depth => r.json? depth

/-- The members under the names of fields, and their values; all names have to be texts. -/
def knownMembers? : List (List Piece × Raw) → List (String × Presence × Shape) → (depth : Nat) →
    Option (List (String × Json))
  | [], _, _ => some []
  | (key, r) :: rest, fields, depth => do
    let name ← text? key
    match Shape.field? fields name with
    | none => knownMembers? rest fields depth
    | some shape => return (name, ← r.shaped? shape depth) :: (← knownMembers? rest fields depth)

/-- The values of items in the order of fields, of which there are no fewer. -/
def knownItems? : List Raw → List (String × Presence × Shape) → (depth : Nat) →
    Option (List Json)
  | [], _, _ => some []
  | _ :: _, [], _ => none
  | r :: rest, (_, _, shape) :: fields, depth => do
    return (← r.shaped? shape depth) :: (← knownItems? rest fields depth)

end

end Json

end Handover
