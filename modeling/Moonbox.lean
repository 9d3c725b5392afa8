import Moonbox.Lib.Handler
import Moonbox.Deploy.Messages
import Moonbox.Deploy.Persistence
import Moonbox.Deploy.Master
import Moonbox.Deploy.Membership
import Moonbox.Deploy.MembershipSteps
import Moonbox.Deploy.DriverRules
import Moonbox.Deploy.DriverSteps
import Moonbox.Deploy.Ledger
import Moonbox.Deploy.Lifecycle
import Moonbox.Deploy.Orphans
import Moonbox.Deploy.OrphanRuns
import Moonbox.Deploy.Mirror
import Moonbox.Deploy.MirrorRuns
import Moonbox.Deploy.Failover
import Moonbox.Catalog.Isolation
import Moonbox.Catalog.Uniqueness
import Moonbox.Catalog.Integrity
import Moonbox.Core.LostUpdates
import Moonbox.Core.Grants
import Moonbox.Core.CommandChecker
import Moonbox.Core.Unprivileged
import Moonbox.Core.OpenSessions
import Moonbox.Core.GrantedPlans
import Moonbox.Core.DefinitionCommands
import Moonbox.Interactive.ResultSets
import Moonbox.Interactive.Sessions
import Moonbox.Rest.Workbench
import Moonbox.Rest.Applications
import Moonbox.Rest.Routes
import Moonbox.Rest.Authorization
import Moonbox.Rest.Permissions
import Moonbox.Jdbc.ValueRoundTrip
import Moonbox.Jdbc.Scripts
import Moonbox.SqlBuilder.StringTokens
import Moonbox.Parser.QuotedNames
import Moonbox.Spark.NameCollection
import Moonbox.Spark.ViewNames
import Moonbox.Parser.StringLiterals
import Moonbox.Spark.DatasourceTables
import Moonbox.Spark.MountedTables
import Moonbox.DataSys.JdbcPushdown
import Moonbox.Catalog.EntityComponent
import Moonbox.Catalog.RepeatedGrants
import Moonbox.Catalog.PrivilegeListings
import Moonbox.DataSys.JdbcPartitions
import Moonbox.Elasticsearch.Selection
import Moonbox.Interactive.Paging
import Moonbox.Interactive.Lineage
import Moonbox.Network.Rpc
import Moonbox.Core.ReadableObjects
import Moonbox.DataSys.KuduPredicates
import Moonbox.DataSys.Pushdownable
import Moonbox.Deploy.AppMaster
import Moonbox.Thriftserver.ExecuteStatementOperation
import Moonbox.Rest.LogService
import Moonbox.Rest.OrganizationSa
import Moonbox.Elasticsearch.EsRowIter
import Moonbox.Lib.RowChanges
import Moonbox.Lib.ActionEnds
import Moonbox.Core.DatabaseNames
import Moonbox.Lib.Collation
import Moonbox.Catalog.DatabaseTables
import Moonbox.Core.MountDatabase
import Moonbox.Core.DropIfExists
import Moonbox.Lib.SqlTimestamps
import Moonbox.DataSys.KuduTimestamps
import Moonbox.Parser.UnescapeSQLString
import Moonbox.Lib.ByteBuffers
import Moonbox.Lib.Framing
import Moonbox.Network.MessageCodec
import Moonbox.Optimizer.SoundAndMaximal
import Moonbox.Core.Escalation
import Moonbox.Deploy.Cluster
import Moonbox.Interactive.TimerAgreement
import Moonbox.HBase.BytesEncoder
import Moonbox.HBase.DynamicLogicExpression
import Moonbox.HBase.RowKeyFilter
import Moonbox.HBase.TableScan
import Moonbox.HBase.Pushdown
import Moonbox.HBase.SparkSQLPushDownFilter
