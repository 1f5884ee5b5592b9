import SqlBackend.Dialect.Basic

/-! # Lock clauses

The clause that a query takes its row locks with. Not waiting and skipping
locked rows are part of the clause; a limited wait is set on the connection, so
it is refused where the connection cannot be told.
-/

namespace SqlBackend.Dialect

def forUpdate : String := " for update"

def forShare : String := " for share"

/-- The clause for a mode of locking. -/
def lockWords (d : Dialect) : LockMode → String
  | .write => forUpdate
  | .read => if d.sharedRowLocks then forShare else forUpdate

def lockClause (d : Dialect) (request : LockRequest) : Except Error String :=
  let words := d.lockWords request.mode
  match request.timeout with
  | .waitForever => .ok words
  | .noWait => (d.require .noWait).map fun _ => words ++ " nowait"
  | .skipLocked => (d.require .skipLocked).map fun _ => words ++ " skip locked"
  | .after _ =>
      if d.locking.connectionTimeout = .query then .ok words
      else .error (d.unsupported .lockTimeout)

end SqlBackend.Dialect
