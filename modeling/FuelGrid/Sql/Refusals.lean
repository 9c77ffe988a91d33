import FuelGrid.Sql.Txn

/-!
# Refused requests

A handler refuses a request with a status and a text, and its transaction is rolled back. Where such
an answer stands among the errors of a schema is its instance of `Refusals`, so that the handlers of
all schemas refuse in the same words.
-/

namespace FuelGrid.Sql

/-- The answer to a request that is refused. -/
inductive HttpError where
  | http (status : ℕ) (error : String)
  deriving DecidableEq

class Refusals (S : Schema) where
  http : ℕ → String → S.Error

variable {S : Schema} [Refusals S]

/-- `writeError` -/
def refuse (status : ℕ) (error : String) : Prog S := .rollback (Refusals.http status error)

def internalError : Prog S := refuse 500 "internal error"

end FuelGrid.Sql
