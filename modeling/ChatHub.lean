import ChatHub.Config.Document
import ChatHub.Event.Envelope
import ChatHub.Main
import ChatHub.Preview
import ChatHub.Proofs.Hub.Eviction
import ChatHub.Proofs.Hub.Replay
import ChatHub.Proofs.Hub.Occupancy
import ChatHub.Proofs.Hub.Closing
import ChatHub.Proofs.Hub.Accounting
import ChatHub.Proofs.Hub.Leaving
import ChatHub.Proofs.Hub.Disconnection
import ChatHub.Proofs.Hub.Authorship
import ChatHub.Proofs.Hub.Refusal
import ChatHub.Proofs.Hub.Contents
import ChatHub.Proofs.Hub.Passage
import ChatHub.Proofs.Hub.Joining
import ChatHub.Proofs.Hub.Welcome
import ChatHub.Proofs.Hub.Finality
import ChatHub.Proofs.Hub.Undisturbed
import ChatHub.Proofs.Command.Decoding
import ChatHub.Proofs.Event.RoundTrip
import ChatHub.Proofs.Token.Acceptance
import ChatHub.Proofs.Token.Precedence
import ChatHub.Proofs.Config.Loading
import ChatHub.Proofs.Token.Signing
import ChatHub.Proofs.Server.Gate
import ChatHub.Proofs.Server.Endings
import ChatHub.Proofs.Server.Conversation
import ChatHub.Proofs.Server.Exposition
import ChatHub.Proofs.Metrics.Numeral
import ChatHub.Proofs.Metrics.Reading
import ChatHub.Proofs.Metrics.Scraping
import ChatHub.Proofs.Metrics.Records
import ChatHub.Proofs.Metrics.Partition
import ChatHub.Proofs.Server.Measurements
import ChatHub.Proofs.Preview
import ChatHub.Proofs.Hub.Rounds
