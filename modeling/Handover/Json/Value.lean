import Handover.Double

/-!
# JSON values

A JSON value whose whole numbers and numbers of double precision are told apart: `1` is not `1.0`.
The fields of an object are expected sorted by key, each key once, as the reader leaves them. Values
are compared after `plainZeros`, which drops the sign of every zero.
-/

namespace Handover

/-- A JSON value. -/
inductive Json where
  | null
  | bool (value : Bool)
  | int (value : Int)
  | real (value : Double)
  | str (value : String)
  | arr (items : List Json)
  | obj (fields : List (String × Json))

namespace Json

instance : Inhabited Json :=
  ⟨null⟩

mutual

/-- Whether two values are the same. -/
def same : Json → Json → Bool
  | null, null => true
  | bool a, bool b => a == b
  | int a, int b => a == b
  | real a, real b => a == b
  | str a, str b => a == b
  | arr a, arr b => sameItems a b
  | obj a, obj b => sameFields a b
  | _, _ => false

/-- Whether two lists hold the same values. -/
def sameItems : List Json → List Json → Bool
  | [], [] => true
  | a :: as, b :: bs => same a b && sameItems as bs
  | _, _ => false

/-- Whether two lists hold the same fields. -/
def sameFields : List (String × Json) → List (String × Json) → Bool
  | [], [] => true
  | (k, a) :: as, (l, b) :: bs => k == l && same a b && sameFields as bs
  | _, _ => false

end

mutual

theorem same_iff (a b : Json) : same a b = true ↔ a = b := by
  cases a <;> cases b <;> simp [same]
  · exact sameItems_iff _ _
  · exact sameFields_iff _ _

theorem sameItems_iff (as bs : List Json) : sameItems as bs = true ↔ as = bs := by
  cases as with
  | nil => cases bs <;> simp [sameItems]
  | cons a as =>
    cases bs with
    | nil => simp [sameItems]
    | cons b bs => simp [sameItems, same_iff a b, sameItems_iff as bs]

theorem sameFields_iff (as bs : List (String × Json)) : sameFields as bs = true ↔ as = bs := by
  cases as with
  | nil => cases bs <;> simp [sameFields]
  | cons a as =>
    cases bs with
    | nil => simp [sameFields]
    | cons b bs =>
      obtain ⟨k, a⟩ := a
      obtain ⟨l, b⟩ := b
      simp [sameFields, same_iff a b, sameFields_iff as bs, and_assoc]

end

instance : DecidableEq Json := fun a b =>
  decidable_of_iff _ (same_iff a b)

mutual

/-- A value in which no zero has a sign. -/
def plainZeros : Json → Json
  | real x => real x.plain
  | arr items => arr (plainItems items)
  | obj fields => obj (plainFields fields)
  | j => j

/-- Items in which no zero has a sign. -/
def plainItems : List Json → List Json
  | [] => []
  | j :: rest => j.plainZeros :: plainItems rest

/-- Fields in which no zero has a sign. -/
def plainFields : List (String × Json) → List (String × Json)
  | [] => []
  | (k, j) :: rest => (k, j.plainZeros) :: plainFields rest

end

end Json

end Handover
