import Pipitor.App.Callback
import Pipitor.App.Catchup
import Pipitor.App.Control
import Pipitor.App.Credentials
import Pipitor.App.DatabaseUri
import Pipitor.App.Databases
import Pipitor.App.Discovery
import Pipitor.App.Dhall
import Pipitor.App.Duplicates
import Pipitor.App.Forwarding
import Pipitor.App.Graceful
import Pipitor.App.Instances
import Pipitor.App.Ipc
import Pipitor.App.LastTweet
import Pipitor.App.Lease
import Pipitor.App.Login
import Pipitor.App.OpenManifest
import Pipitor.App.Pipeline
import Pipitor.App.Outboxes
import Pipitor.App.Posting
import Pipitor.App.Shutdown
import Pipitor.App.Sources
import Pipitor.App.WellFormed
import Pipitor.Foundation.Fallible
import Pipitor.Foundation.SqliteName
import Pipitor.Foundation.Timespec
import Pipitor.MediaDescription
import Pipitor.Twitter.CharRange
import Pipitor.Twitter.Handover
import Pipitor.Twitter.Interval
import Pipitor.Twitter.Malformed
import Pipitor.Twitter.Pacing
import Pipitor.Twitter.Paging
import Pipitor.Twitter.Polling
import Pipitor.Twitter.SystemTime
import Pipitor.Websub.ConcatBody
import Pipitor.Websub.Continuity
import Pipitor.Websub.Cycle
import Pipitor.Websub.Delivery
import Pipitor.Websub.Discover
import Pipitor.Websub.Hastening
import Pipitor.Websub.Protocol
import Pipitor.Websub.Races
import Pipitor.Websub.Register
import Pipitor.Websub.Renewals
import Pipitor.Websub.Requests
import Pipitor.Websub.Retry
import Pipitor.Websub.Verification
import Pipitor.Websub.Wire
