/-!
# Raised errors

What the modelled Python code raises, with the data the code puts into it.
-/

namespace MiniLakehouse

inductive Raised where
  | valueError (message : String)
  /-- A declared bound or pattern of a model's field. -/
  | fieldError (field : String)
  | runtimeError (message : String)
  | lookupError (message : String)
  | stopIteration
  | indexError
  /-- `TradingConfigurationError`: how many versions of a family were found. -/
  | configurationError (label : String) (value : Int) (found : Nat)
  /-- `PaperOrderBlocked`: the planner's ordered reasons. -/
  | paperOrderBlocked (reasons : List String)
  /-- `PaperConflict` -/
  | paperConflict (message : String)
  /-- `psycopg.IntegrityError`: a violated constraint of a table. -/
  | integrityError (constraint : String)
  /-- `MarketEventError` -/
  | marketEventError (message : String)
  /-- `CaptureStoreUnavailable` -/
  | captureStoreUnavailable
  deriving DecidableEq, Repr

end MiniLakehouse
