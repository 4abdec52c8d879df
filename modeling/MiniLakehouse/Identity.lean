import MiniLakehouse.Library.Json

/-!
# Content identity

`identity.py` serialises a model to canonical JSON and takes its SHA-256.  The
hash is not code of the repository: a digest type `D` comes with its order (hex
digests are sorted and used as sort keys) and with `sha256`, of which nothing
else is assumed.  Results that need digests of distinct values to be distinct
take `CollisionFree D` as a hypothesis.
-/

namespace MiniLakehouse

/-- Digests of canonical JSON, in the order of their hex text. -/
class Hashing (D : Type) extends LinearOrder D where
  sha256 : Json D → D

export Hashing (sha256)

instance Hashing.lawfulBEq {D : Type} [Hashing D] : LawfulBEq D := inferInstance

/-- No two values share a digest. -/
def CollisionFree (D : Type) [Hashing D] : Prop :=
  Function.Injective (sha256 : Json D → D)

/-- Digests that spell out the hashed value. -/
instance : Hashing Spelled where
  sha256 := Spelled.ofJson

theorem collisionFree_spelled : CollisionFree Spelled :=
  Spelled.ofJson_injective

/-! The patterns of the models' textual fields. -/

private def isUpperLetter (c : Char) : Bool := 'A' ≤ c && c ≤ 'Z'

private def isLowerLetter (c : Char) : Bool := 'a' ≤ c && c ≤ 'z'

private def isDecimalDigit (c : Char) : Bool := '0' ≤ c && c ≤ '9'

private def isBlank (c : Char) : Bool := c.isWhitespace

/-- `^[A-Z][A-Z0-9]*$` -/
def isSymbolName (value : String) : Bool :=
  match value.toList with
  | [] => false
  | first :: rest =>
      isUpperLetter first && rest.all fun c => isUpperLetter c || isDecimalDigit c

/-- `^[a-z0-9][a-z0-9-]*$` -/
def isVersionName (value : String) : Bool :=
  match value.toList with
  | [] => false
  | first :: rest =>
      (isLowerLetter first || isDecimalDigit first) &&
        rest.all fun c => isLowerLetter c || isDecimalDigit c || c == '-'

/-- `^[a-z0-9][a-z0-9_]*$` -/
def isStrategyName (value : String) : Bool :=
  match value.toList with
  | [] => false
  | first :: rest =>
      (isLowerLetter first || isDecimalDigit first) &&
        rest.all fun c => isLowerLetter c || isDecimalDigit c || c == '_'

/-- `value and value == value.strip().upper()` -/
def isUpperIdentifier (value : String) : Bool :=
  match value.toList with
  | [] => false
  | first :: rest =>
      !isBlank first && !isBlank ((first :: rest).getLast (by simp)) &&
        (first :: rest).all fun c => c.toUpper == c

/-- `not value.strip()` -/
def isBlankText (value : String) : Bool :=
  value.toList.all isBlank

end MiniLakehouse
