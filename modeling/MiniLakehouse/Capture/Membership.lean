import MiniLakehouse.Identity
import MiniLakehouse.Library.Time

/-!
# Index membership

Point-in-time index membership (`capture/membership.py`).
-/

namespace MiniLakehouse

inductive MembershipStatus where
  | captured
  | unavailable
  deriving DecidableEq, Repr

def MembershipStatus.text : MembershipStatus → String
  | .captured => "captured"
  | .unavailable => "unavailable"

structure IndexMembership (D : Type) where
  index : String
  status : MembershipStatus
  symbols : List String
  recordSha256s : List D
  index_identifier : isUpperIdentifier index = true
  symbols_ascending : symbols.Pairwise (· < ·)
  symbols_identifiers : ∀ symbol ∈ symbols, isUpperIdentifier symbol = true
  status_consistent : (status = .captured ↔ symbols ≠ []) ∧
    recordSha256s.length = symbols.length

variable {D : Type} [Hashing D]

def IndexMembership.modelDump (membership : IndexMembership D) : Json D :=
  .arr [.str membership.index, .str membership.status.text, .list .str membership.symbols,
    .list .sha membership.recordSha256s]

/-- `_snapshot_sha256` -/
def membershipSha256 (capturedAt : Instant) (memberships : List (IndexMembership D)) : D :=
  sha256 (.arr [.int capturedAt, .list IndexMembership.modelDump memberships])

structure BreadthMembershipSnapshot (D : Type) [Hashing D] where
  capturedAt : Instant
  memberships : List (IndexMembership D)
  snapshotSha256 : D
  indices_unique : memberships ≠ [] ∧ (memberships.map (·.index)).Nodup
  sha256_consistent : snapshotSha256 = membershipSha256 capturedAt memberships

/-- `symbols`: those of every captured membership. -/
def BreadthMembershipSnapshot.symbols (snapshot : BreadthMembershipSnapshot D) : List String :=
  (snapshot.memberships.filter (·.status = .captured)).flatMap (·.symbols)

end MiniLakehouse
