import Oac.Pipeline.Withholding
import Oac.Pipeline.Online
import Oac.Pipeline.ArrivalOrder
import Oac.Adapter.Addressed
import Oac.Authorization.HandOffUndo
import Oac.Sender.Retry
import Oac.Json.OctetsProofs
import Oac.Presence.Limits
import Oac.Receiver.Reports
import Oac.Pipeline.RequeueProofs
import Oac.Pipeline.Pending
import Oac.Pipeline.Declared
import Oac.Json.Iterative
import Oac.Pairing.OnePeer
import Oac.Pairing.Statements
import Oac.Agreement.KeyRuns
import Oac.Replay.Shares
import Oac.Authorization.BindingShares
import Oac.Presence.Shares
import Oac.Adapter.CodexClient
import Oac.Adapter.CodexFrame
import Oac.Pipeline.TrustRetry
