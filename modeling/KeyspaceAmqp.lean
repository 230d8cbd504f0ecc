import KeyspaceAmqp.Replication
import KeyspaceAmqp.Roles
import KeyspaceAmqp.Contract
import KeyspaceAmqp.Forwarding
import KeyspaceAmqp.Disconnection
import KeyspaceAmqp.Replies
import KeyspaceAmqp.System
import KeyspaceAmqp.Delivery
import KeyspaceAmqp.Order
import KeyspaceAmqp.NegativeSize
import KeyspaceAmqp.Counter
import KeyspaceAmqp.Databases
import KeyspaceAmqp.Reconnection
import KeyspaceAmqp.Cluster
import KeyspaceAmqp.Masks
import KeyspaceAmqp.Messages
import KeyspaceAmqp.MaskUpdates
import KeyspaceAmqp.Numbers
import KeyspaceAmqp.Taking
import KeyspaceAmqp.FrameWait
import KeyspaceAmqp.Receiver
import KeyspaceAmqp.StringArray
import KeyspaceAmqp.Matching
import KeyspaceAmqp.Ownership
import KeyspaceAmqp.Network
import KeyspaceAmqp.Accounts
import KeyspaceAmqp.Takedown
import KeyspaceAmqp.Loading
import KeyspaceAmqp.SettingsMemory
import KeyspaceAmqp.Recovery
import KeyspaceAmqp.Convergence
import KeyspaceAmqp.Gathering
import KeyspaceAmqp.Loops
import KeyspaceAmqp.Reporting
