import HostSql.Host.Busy

/-!
# Closures on their own

Closures can run without a session. What they report is kept, and nothing else is there: every
connection is as good as closed.
-/

namespace HostSql

/-- Events, the newest first. -/
abbrev Reports := List Event

/-- The ambient of closures on their own. -/
def standalone : Ambient Reports where
  record? _ := return none
  setGroups _ _ := return
  log _ := return
  emit event := modify (event :: ·)
  interrupt _ := return
  execute _ _ := return .error (.closedHandle .database)
  query _ _ := return .rejected (.closedHandle .database)
  declare _ _ _ := return .error (.closedHandle .database)
  register _ _ _ _ := return .error (.closedHandle .database)

/-- The answers of a policy to some requests, and what its closure reported. -/
def BusyPolicy.answers (policy : BusyPolicy) (attempts : List UInt32) : List Bool × List Event :=
  let (retries, reports) := (policy.requests standalone attempts).run []
  (retries, reports.reverse)

end HostSql
