import NpServers.LeastFreeSlot
import NpServers.TransitionPath
import NpServers.SlotLease
import NpServers.ClientTable
import NpServers.MultiProcShared
import NpServers.ClientIds
import NpServers.CrossPipe
import NpServers.CrossPipeSchedule
import NpServers.CrossPipeFullTable
import NpServers.Messages
import NpServers.Custody
import NpServers.SessionProcess
import NpServers.SessionEffects
import NpServers.SessionWiring
import NpServers.MailboxToken
import NpServers.MailboxDelivery
import NpServers.EnvTable
import NpServers.EnvIsolation
import NpServers.EnvHeap
import NpServers.EnvDeletion
import NpServers.DescriptorTable
import NpServers.Ledger
import NpServers.ServerProcess
import NpServers.ServerLedger
import NpServers.LineEffect
import NpServers.PipelineEffect
import NpServers.ServerRun
import NpServers.DescriptorAccounting
import NpServers.ServerWiring
import NpServers.ChildWiring
import NpServers.ForkedChildren
import NpServers.SettledServer
import NpServers.SettledRun
import NpServers.PipelineWiring
import NpServers.SingleWiring
import NpServers.UserPipeDecisions
import NpServers.ExpiredPipes
import NpServers.LogoutRelease
import NpServers.LeftDescriptors
import NpServers.OutputTargets
import NpServers.OutputPriority
import NpServers.NumberedPipeWriters
import NpServers.WaitOrder
import NpServers.StandardInputs
import NpServers.ChildProgress
import NpServers.UserPipeTable
import NpServers.Nicknames
import NpServers.SocksRelay
import NpServers.SocksRequest
import NpServers.SocksSession
import NpServers.Admission
import NpServers.ArgumentVectors
import NpServers.EntryWrites
import NpServers.NicknameRace
import NpServers.FifoRendezvous
import NpServers.SlotTenure
import NpServers.DepartedSenders
import NpServers.StoredTexts
import NpServers.SocksDecoding
import NpServers.FirewallRules
import NpServers.CStrings
import NpServers.ArrayScans
import NpServers.ReceivedChunks
import NpServers.CommandLine
import NpServers.ShellInput
import NpServers.MainLoop
import NpServers.SelectRounds
import NpServers.MessageText
import NpServers.AtomicBroadcast
import NpServers.RoomSeating
import NpServers.ChatRoom
import NpServers.PromptLockStep
import NpServers.ConnectionReads
import NpServers.GuardedReads
import NpServers.IdChecks
import NpServers.QueryString
import NpServers.MarkupText
import NpServers.MarkupTags
import NpServers.InterleavedRuns
import NpServers.HtmlOutput
import NpServers.ConsoleClient
import NpServers.ConsoleProxy
import NpServers.BrowserDocument
import NpServers.ConsolePage
import NpServers.ConsoleProcess
import NpServers.HttpSessions
import NpServers.HttpRequest
import NpServers.BatchSystem
import NpServers.BatchDialogue
import NpServers.ProxiedDialogue
