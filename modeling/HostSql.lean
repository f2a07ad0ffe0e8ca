import HostSql.Host.Standalone
import HostSql.Session.Coercion
import HostSql.Sql.Complete
import HostSql.Proofs.Aggregate.Bookkeeping
import HostSql.Proofs.Callback.Arguments
import HostSql.Proofs.Registration.TypeCodes
import HostSql.Proofs.Connection.Handles
import HostSql.Proofs.Connection.Batch
import HostSql.Proofs.Connection.Modes
import HostSql.Proofs.Statement.Rows
import HostSql.Proofs.Busy.Lawful
import HostSql.Proofs.Busy.Schedule
import HostSql.Proofs.Error.Provenance
import HostSql.Proofs.Independence.Connections
import HostSql.Proofs.Interrupt.Safety
import HostSql.Proofs.Grouping.Lawful
import HostSql.Proofs.Nesting.Lawful
import HostSql.Proofs.Number.RoundTrip
import HostSql.Proofs.Logging.Failures
