import GameServer.Main
import GameServer.Session.Region
import GameServer.Tick.Scheduler
import GameServer.Proofs.LobbyRun
import GameServer.Proofs.Reception
import GameServer.Proofs.OnlineNames
import GameServer.Proofs.Quiet
import GameServer.Proofs.Closing
import GameServer.Proofs.Enrollment
import GameServer.Proofs.Draining
import GameServer.Proofs.WorldRun
import GameServer.Proofs.Membership
import GameServer.Proofs.Presence
import GameServer.Proofs.Delivery
import GameServer.Proofs.Arming
import GameServer.Proofs.Fields
import GameServer.Proofs.RoundTrip
import GameServer.Proofs.Cadence
import GameServer.Proofs.Crew
import GameServer.Proofs.Attribution
import GameServer.Proofs.History
import GameServer.Proofs.Letters
import GameServer.Proofs.Mail
import GameServer.Proofs.Shutdown
import GameServer.Proofs.Answers
import GameServer.Proofs.Floor
import GameServer.Proofs.Simulation
import GameServer.Proofs.Outside
import GameServer.Proofs.Bystanders
import GameServer.Proofs.Stranger
import GameServer.Proofs.Noninterference
import GameServer.Proofs.Farewell
import GameServer.Proofs.Framing
import GameServer.Proofs.ByteQueue
import GameServer.Proofs.Routing
import GameServer.Proofs.Moves
import GameServer.Proofs.Ranges
import GameServer.Proofs.Departures
import GameServer.Proofs.Capacity
import GameServer.Proofs.Gathering
import GameServer.Proofs.Snapshots
import GameServer.Proofs.Accounts
import GameServer.Proofs.Pacing
import GameServer.Proofs.Logins
import GameServer.Proofs.Conversation
import GameServer.Proofs.Phases
import GameServer.Proofs.RequestFormat
import GameServer.Proofs.ResponseFormat
import GameServer.Proofs.RoomList
import GameServer.Proofs.Backlog
import GameServer.Proofs.Stopping
import GameServer.Proofs.Allocation
import GameServer.Proofs.Truncation
import GameServer.Proofs.FreshRooms
import GameServer.Proofs.SettingsText
