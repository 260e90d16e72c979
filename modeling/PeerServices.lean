import PeerServices.Handshake.Encounter
import PeerServices.Main
import PeerServices.Network.Simulation
import PeerServices.Proofs.Directory.Correspondence
import PeerServices.Proofs.Directory.Overtaking
import PeerServices.Proofs.Handshake.Relay
import PeerServices.Proofs.Node.Admission
import PeerServices.Proofs.Node.Exchanges
import PeerServices.Proofs.Node.Reaching
import PeerServices.Proofs.Node.Sharing
import PeerServices.Retry.Registry
import PeerServices.Proofs.Collection.SortedSet
import PeerServices.Proofs.Directory.History
import PeerServices.Proofs.Codec.RoundTrip
import PeerServices.Proofs.Service.Description
import PeerServices.Proofs.Wire.RoundTrip
import PeerServices.Proofs.Session.Outstanding
import PeerServices.Proofs.Node.Multiplexing
import PeerServices.Proofs.Node.Addressing
import PeerServices.Proofs.Directory.Separation
import PeerServices.Proofs.Node.Bearing
import PeerServices.Proofs.Node.Isolation
import PeerServices.Proofs.Retry.Task
import PeerServices.Proofs.Retry.Registry
import PeerServices.Proofs.Retry.Lifecycle
import PeerServices.Proofs.Retry.Delays
import PeerServices.Proofs.Retry.Course
import PeerServices.Proofs.Node.Answering
import PeerServices.Proofs.Node.Story
import PeerServices.Proofs.Node.Proceeding
import PeerServices.Proofs.Node.Lifespan
import PeerServices.Proofs.Node.Finality
import PeerServices.Proofs.Node.Deactivation
import PeerServices.Proofs.Wire.Delivery
import PeerServices.Proofs.Codec.Form
import PeerServices.Proofs.Wire.Listing
import PeerServices.Proofs.Wire.NormalForm
import PeerServices.Proofs.Codec.Access
import PeerServices.Proofs.Wire.Reading
import PeerServices.Proofs.Directory.Following
import PeerServices.Proofs.Handshake.Schedule
import PeerServices.Proofs.Handshake.Concord
import PeerServices.Proofs.Node.Query
import PeerServices.Proofs.Node.Settling
import PeerServices.Proofs.Node.Calling
import PeerServices.Proofs.Codec.Wording
import PeerServices.Proofs.Node.Replying
import PeerServices.Proofs.Node.Asking
import PeerServices.Proofs.Directory.Removal
import PeerServices.Proofs.Wire.Titles
import PeerServices.Proofs.Wire.Answers
import PeerServices.Proofs.Text.Digits
import PeerServices.Proofs.Service.Address
import PeerServices.Proofs.Codec.Words
