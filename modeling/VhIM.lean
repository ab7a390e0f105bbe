import VhIM.Network.Codec
import VhIM.Network.Reassembly
import VhIM.Client.Arrival
import VhIM.Client.FriendsReport
import VhIM.Client.Numbers
import VhIM.Client.Release
import VhIM.Client.Sending
import VhIM.Network.Patching
import VhIM.Network.Rejection
import VhIM.Network.RestBuffer
import VhIM.Network.Termination
import VhIM.Server.ConnectionCount
import VhIM.Server.Friends
import VhIM.Server.Grants
import VhIM.Server.Lookups
import VhIM.Server.Presence
import VhIM.Server.Privileges
import VhIM.Server.Reads
import VhIM.Server.Requests
import VhIM.Server.Routing
import VhIM.Server.Senders
import VhIM.Server.Unfriending
import VhIM.Server.Kick
import VhIM.Server.Formatting
import VhIM.Server.Bookkeeping
import VhIM.Server.Confinement
import VhIM.Server.UserLookup
import VhIM.Server.WireFormat
import VhIM.Sql.Registration
import VhIM.Sql.StoreCalls
import VhIM.Utility.CommandGrammar
import VhIM.Utility.CommandMemory
import VhIM.Utility.Format
import VhIM.Utility.HexStrings
import VhIM.Utility.Stacks
import VhIM.Server.Life
import VhIM.Sql.Integrity
import VhIM.Server.Integrity
import VhIM.Server.SessionTable
import VhIM.Client.Roster
import VhIM.Server.Attribution
import VhIM.Client.Console
import VhIM.Sql.Handles
import VhIM.Server.Consent
import VhIM.Server.Conversation
import VhIM.Server.HeapTurns
import VhIM.Server.HeapRuns
