/-!
# Migration identifiers

An identifier is a number of 128 bits, written as 26 digits of a base-32 alphabet that leaves out
the letters I, L, O and U. Identifiers are ordered by their numbers. Reading accepts both cases;
the 26 digits hold two bits more than a number does, and the surplus bits of the first digit are
dropped.
-/

namespace Handover

/-- The identifier of a migration. -/
structure MigrationId where
  number : Nat
  deriving DecidableEq

/-- Why a text is no identifier. -/
inductive IdFault where
  | invalidLength
  | invalidCharacter
  deriving DecidableEq

/-- A fault as text. -/
def IdFault.message : IdFault → String
  | .invalidLength => "invalid length"
  | .invalidCharacter => "invalid character"

namespace MigrationId

/-- The digits of the alphabet, by value. -/
def alphabet : List Char :=
  "0123456789ABCDEFGHJKMNPQRSTVWXYZ".toList

/-- The number of digits of an identifier. -/
def digitCount : Nat :=
  26

/-- How many identifiers there are. -/
def count : Nat :=
  1 <<< 128

/-- The digit of a value. -/
def digit (value : Nat) : Char :=
  alphabet.getD value '0'

/-- The value of a digit, in either case. -/
def digitValue? (c : Char) : Option Nat :=
  alphabet.findIdx? (· = c.toUpper)

/-- The lowest `count` digits of a number, the highest first. -/
def digits : Nat → Nat → List Char
  | 0, _ => []
  | count + 1, n => digits count (n / 32) ++ [digit (n % 32)]

/-- An identifier as text. -/
def text (id : MigrationId) : String :=
  String.ofList (digits digitCount id.number)

/-- The number written by digits, if all characters are digits. -/
def number? (cs : List Char) : Option Nat :=
  cs.foldlM (fun n c => (digitValue? c).map (n * 32 + ·)) 0

/-- The identifier that a text writes. -/
def parse (s : String) : Except IdFault MigrationId :=
  if s.utf8ByteSize ≠ digitCount then .error .invalidLength
  else
    match number? s.toList with
    | none => .error .invalidCharacter
    | some n => .ok ⟨n % count⟩

/-- Identifiers in order, each written once. -/
def sort (ids : List MigrationId) : List MigrationId :=
  (ids.mergeSort fun a b => a.number ≤ b.number).eraseReps

/-- The identifier after this one. -/
def next (id : MigrationId) : MigrationId :=
  ⟨id.number + 1⟩

end MigrationId

end Handover
