/-! # Row locks

A query may ask for read or write locks on its rows and say what happens when
another transaction holds them. What a backend offers beyond the clause itself
is recorded in its locking support.
-/

namespace SqlBackend

inductive LockMode where
  | read
  | write
deriving DecidableEq, Repr

/-- What to do about rows that are locked already. -/
inductive LockTimeout where
  | waitForever
  | noWait
  | skipLocked
  /-- Wait this many milliseconds at most. -/
  | after (millis : Nat)
deriving DecidableEq, Repr

namespace LockTimeout

/-- The timeout that a number of milliseconds encodes: 0 means not to wait, -2
to skip locked rows, and any other number below 1 to wait. -/
def ofMillis (millis : Int) : LockTimeout :=
  if millis = 0 then .noWait
  else if millis = -2 then .skipLocked
  else if 0 < millis then .after millis.toNat
  else .waitForever

/-- Whether the timeout is a length of time. -/
def isReal : LockTimeout → Bool
  | after _ => true
  | _ => false

end LockTimeout

/-- The lock clause of a query. -/
structure LockRequest where
  mode : LockMode
  timeout : LockTimeout
deriving DecidableEq, Repr

/-- How a backend lets a query lock rows. -/
inductive LockStyle where
  | clause
  | tableHint
  | none
deriving DecidableEq, Repr

/-- What a lock clause can be restricted to. -/
inductive RowLockTarget where
  | column
  | table
  | none
deriving DecidableEq, Repr

/-- Where a lock timeout can be put. -/
inductive LockTimeoutScope where
  | query
  | connection
  | none
deriving DecidableEq, Repr

/-- Which rows of an outer join can be locked. -/
inductive OuterJoinLocking where
  | full
  | identified
  | unsupported
deriving DecidableEq, Repr

/-- How the lock timeout of a connection is set. -/
inductive ConnectionLockTimeout where
  | query
  | none
deriving DecidableEq, Repr

/-- What a backend offers for row locks beyond the clause itself. -/
structure LockingSupport where
  style : LockStyle
  rowTarget : RowLockTarget
  timeoutScope : LockTimeoutScope
  outerJoins : OuterJoinLocking
  connectionTimeout : ConnectionLockTimeout
deriving DecidableEq, Repr

namespace LockingSupport

/-- The locking support of PostgreSQL. -/
def postgres : LockingSupport := ⟨.clause, .table, .query, .identified, .query⟩

/-- The lock clause and nothing else. -/
def clauseOnly : LockingSupport := ⟨.clause, .none, .none, .full, .none⟩

end LockingSupport

end SqlBackend
