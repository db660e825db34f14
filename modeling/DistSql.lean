import DistSql.Convert
import DistSql.Machine
import DistSql.Outcome
import DistSql.Pb
import DistSql.Session
import DistSql.Text
import DistSql.Exec
import DistSql.Boundary
import DistSql.Slice
import DistSql.Snapshot
import DistSql.Query
import DistSql.Fsm
import DistSql.Poison
import DistSql.ReadPath
import DistSql.Replica
import DistSql.Linear
import DistSql.Interference
import DistSql.Disk
import DistSql.Uri
import DistSql.Store
import DistSql.Lifecycle
import DistSql.Restore
import DistSql.Restart
import DistSql.Decoder
import DistSql.Answers
import DistSql.Reference
import DistSql.OneState
import DistSql.Membership
import DistSql.Handshake
import DistSql.Url
import DistSql.Http
import DistSql.Json
import DistSql.Service
import DistSql.Redirect
import DistSql.AtMostOnce
import DistSql.Conflicts
import DistSql.Truncation
import DistSql.Failures
import DistSql.Security
import DistSql.Credentials
import DistSql.Grammar
import DistSql.Binary64
import DistSql.Integers
import DistSql.Views
import DistSql.Advertise
import DistSql.Servers
import DistSql.WaitForIndex
import DistSql.Marshal
import DistSql.Encoding
import DistSql.Calls
import DistSql.Delivery
import DistSql.Binding
import DistSql.WritePath
import DistSql.Reprint
import DistSql.Bodies
import DistSql.Joining
import DistSql.Asking
import DistSql.Authorization
import DistSql.Serving
import DistSql.WeakReads
import DistSql.Closing
import DistSql.Shutdown
