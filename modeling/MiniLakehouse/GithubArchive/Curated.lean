import MiniLakehouse.Library.Newest
import MiniLakehouse.MarketData.Records

/-!
# Curated GitHub tables

`github_archive/landing.py` lands the events of a day, of which identical ones are kept once,
and `github_archive/curated.py` publishes a landed day: its events are merged into `events`,
where the delivery of the latest hour wins, and the latest event of the day that mentions an
actor or a repository into `actors_current` and `repositories_current`, where the latest
occurrence wins.
-/

namespace MiniLakehouse

/-- Matching of texts in Spark SQL. -/
class SparkPatterns where
  lower : String → String
  rlike : String → String → Bool

/-- A row of `events_raw`. -/
structure LandedEvent where
  eventId : String
  eventType : String
  actorId : Option Int
  actorLogin : Option String
  repositoryId : Option Int
  repositoryName : Option String
  payloadJson : String
  isPublic : Bool
  occurredAt : Instant
  sourceFile : String
  sourceHour : Instant
  ingestedAt : Instant
  rawEventJson : String
  deriving DecidableEq

namespace LandedEvent

/-- `CAST(source_hour AS date)` in UTC -/
def sourceDate (event : LandedEvent) : Day := event.sourceHour / dayLength

end LandedEvent

/-! ## Landing -/

/-- `_deduplicate_exact_events` -/
def deduplicateExactEvents (events : List LandedEvent) : Except Raised (List LandedEvent) :=
  let distinctEvents := events.dedup
  match distinctEvents.find? fun event =>
      1 < (distinctEvents.filter (·.eventId = event.eventId)).length with
  | some conflict =>
      .error (.runtimeError ("GitHub Archive violates the event_id merge key: " ++
        s!"{conflict.eventId} has " ++
        s!"{(distinctEvents.filter (·.eventId = conflict.eventId)).length} distinct records"))
  | none => .ok distinctEvents

/-- `overwrite(…)` of the hours of a day -/
def overwriteDay (landing : List LandedEvent) (sourceDay : Day) (events : List LandedEvent) :
    List LandedEvent :=
  landing.filter (·.sourceDate ≠ sourceDay) ++ events

/-! ## Curated rows -/

/-- A row of `events`, and of `github_day`. -/
structure GithubEvent where
  eventId : String
  eventType : String
  actorId : Option Int
  actorLogin : Option String
  repositoryId : Option Int
  repositoryName : Option String
  isPublic : Bool
  occurredAt : Instant
  eventDateUtc : Day
  pushCommitCount : Option Int
  eventAction : Option String
  refType : Option String
  issueNumber : Option Int
  pullRequestNumber : Option Int
  commentId : Option Int
  sourceFile : String
  sourceHour : Instant
  ingestedAt : Instant
  deriving DecidableEq

/-- A row of `actors_current`. -/
structure GithubActor where
  actorId : Int
  actorLogin : Option String
  isBot : Bool
  lastObservedAt : Instant
  lastEventId : String
  deriving DecidableEq

/-- A row of `repositories_current`. -/
structure GithubRepository where
  repositoryId : Int
  repositoryName : Option String
  repositoryOwner : Option String
  lastObservedAt : Instant
  lastEventId : String
  deriving DecidableEq

/-- The curated tables. -/
structure GithubTables where
  events : List GithubEvent := []
  actors : List GithubActor := []
  repositories : List GithubRepository := []
  deriving DecidableEq

namespace LandedEvent

variable [SparkSql] (event : LandedEvent)

/-- `get_json_object(payload_json, path)` -/
def payload (path : String) : Option String := SparkSql.getJsonObject event.payloadJson path

/-- `try_cast(get_json_object(payload_json, path) AS bigint)` -/
def payloadBigint (path : String) : Option Int := (event.payload path).bind SparkSql.tryCastBigint

/-- `nullif(trim(value), '')` -/
def trimmed (value : Option String) : Option String := (value.map SparkSql.trim).filter (· ≠ "")

/-- The row of `github_day`. -/
def curated : GithubEvent where
  eventId := event.eventId
  eventType := event.eventType
  actorId := event.actorId
  actorLogin := trimmed event.actorLogin
  repositoryId := event.repositoryId
  repositoryName := trimmed event.repositoryName
  isPublic := event.isPublic
  occurredAt := event.occurredAt
  eventDateUtc := event.occurredAt / dayLength
  pushCommitCount := event.payloadBigint "$.size"
  eventAction := event.payload "$.action"
  refType := event.payload "$.ref_type"
  issueNumber := event.payloadBigint "$.issue.number"
  pullRequestNumber := event.payloadBigint "$.pull_request.number"
  commentId := event.payloadBigint "$.comment.id"
  sourceFile := event.sourceFile
  sourceHour := event.sourceHour
  ingestedAt := event.ingestedAt

end LandedEvent

/-- `struct(source_hour, ingested_at, source_file)` -/
def deliveryOrder (event : GithubEvent) : Instant ×ₗ Instant ×ₗ String :=
  toLex (event.sourceHour, toLex (event.ingestedAt, event.sourceFile))

/-- `struct(occurred_at, event_id)` -/
def occurrenceOrder (event : GithubEvent) : Instant ×ₗ String :=
  toLex (event.occurredAt, event.eventId)

/-- `struct(last_observed_at, last_event_id)` -/
def GithubActor.observationOrder (actor : GithubActor) : Instant ×ₗ String :=
  toLex (actor.lastObservedAt, actor.lastEventId)

/-- `struct(last_observed_at, last_event_id)` -/
def GithubRepository.observationOrder (repository : GithubRepository) : Instant ×ₗ String :=
  toLex (repository.lastObservedAt, repository.lastEventId)

/-! ## Publication -/

/-- `github_day` -/
def githubDay [SparkSql] (landing : List LandedEvent) (sourceDate : Day) : List GithubEvent :=
  (landing.filter (·.sourceDate = sourceDate)).map (·.curated)

/-- The winner of each entity that a day mentions, `max_by(…) GROUP BY` its id. -/
def latestMentions (entity : GithubEvent → Option Int) (day : List GithubEvent) :
    List (Int × GithubEvent) :=
  firstInGroup Prod.fst (fun mention => occurrenceOrder mention.2)
    (day.filterMap fun event => (entity event).map fun id => (id, event))

/-- The row of an actor from a winner. -/
def githubActor [SparkPatterns] (mention : Int × GithubEvent) : GithubActor where
  actorId := mention.1
  actorLogin := mention.2.actorLogin
  isBot := SparkPatterns.rlike (SparkPatterns.lower (mention.2.actorLogin.getD ""))
    "(\\[bot\\]|-bot)$"
  lastObservedAt := mention.2.occurredAt
  lastEventId := mention.2.eventId

/-- `split(value, '/')[0]` -/
def firstPart (value : String) : String := String.ofList (value.toList.takeWhile (· ≠ '/'))

/-- The row of a repository from a winner. -/
def githubRepository (mention : Int × GithubEvent) : GithubRepository where
  repositoryId := mention.1
  repositoryName := mention.2.repositoryName
  repositoryOwner := mention.2.repositoryName.map firstPart
  lastObservedAt := mention.2.occurredAt
  lastEventId := mention.2.eventId

def mergeMatchedTwice : Raised :=
  .runtimeError "MERGE statement matched a single row from the target table with multiple rows"

/-- `curated.publish` -/
def publishGithub [SparkSql] [SparkPatterns] (landing : List LandedEvent) (sourceDate : Day)
    (tables : GithubTables) : Except Raised GithubTables := do
  let day := githubDay landing sourceDate
  let events ← mergeNewest (fun event => event.eventId) deliveryOrder mergeMatchedTwice
    tables.events day
  let actors ← mergeNewest (fun actor => actor.actorId) GithubActor.observationOrder
    mergeMatchedTwice tables.actors ((latestMentions (·.actorId) day).map githubActor)
  let repositories ← mergeNewest (fun repository => repository.repositoryId)
    GithubRepository.observationOrder mergeMatchedTwice tables.repositories
    ((latestMentions (·.repositoryId) day).map githubRepository)
  return ⟨events, actors, repositories⟩

/-- Publications of days, one after another, into empty tables. -/
def publishDays [SparkSql] [SparkPatterns] (landing : List LandedEvent) (days : List Day) :
    Except Raised GithubTables :=
  days.foldlM (fun tables sourceDate => publishGithub landing sourceDate tables) {}

end MiniLakehouse
