import Switchboard.IdPool
import Switchboard.Options
import Switchboard.Message.AddressText
import Switchboard.Script.Opening
import Switchboard.Roster
import Switchboard.Proofs.IdLending
import Switchboard.Proofs.RegistryRuns
import Switchboard.Proofs.OpenTickets
import Switchboard.Proofs.RegistryBooks
import Switchboard.Proofs.IdAgreement
import Switchboard.Proofs.Settlement
import Switchboard.Proofs.Duplicates
import Switchboard.Proofs.Wire
import Switchboard.Proofs.ClientDeeds
import Switchboard.Proofs.LoopTurns
import Switchboard.Proofs.Tally
import Switchboard.Proofs.Routing
import Switchboard.Proofs.Poisoning
import Switchboard.Proofs.Courses
import Switchboard.Proofs.ClosingAnswers
import Switchboard.Proofs.Greeting
import Switchboard.Proofs.Attendance
import Switchboard.Proofs.SlotAccounts
import Switchboard.Proofs.FairAdmission
import Switchboard.Proofs.Endings
import Switchboard.Proofs.Closers
import Switchboard.Proofs.CloseSequence
import Switchboard.Proofs.AbandonedClose
import Switchboard.Proofs.ResponseRoundTrip
import Switchboard.Proofs.LoopAgreement
import Switchboard.Proofs.WakeUps
import Switchboard.Proofs.OversizedFrames
import Switchboard.Proofs.RequestRoundTrip
import Switchboard.Proofs.Demultiplexing
import Switchboard.Proofs.OutboundOrder
import Switchboard.Proofs.AcceptedAnswers
import Switchboard.Proofs.RefusedPayloads
import Switchboard.Proofs.Verdicts
import Switchboard.Proofs.Refusals
import Switchboard.Proofs.FailureKinds
import Switchboard.Proofs.Waits
import Switchboard.Proofs.Onlookers
import Switchboard.Proofs.Expiry
import Switchboard.Proofs.Attempts
import Switchboard.Proofs.Connecting
import Switchboard.Proofs.IdHistory
import Switchboard.Proofs.ImmediateEntry
import Switchboard.Proofs.Deadlines
import Switchboard.Proofs.PartialReads
import Switchboard.Proofs.BlockedWrites
