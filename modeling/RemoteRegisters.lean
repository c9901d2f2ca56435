import RemoteRegisters.Connection
import RemoteRegisters.Device.Probe
import RemoteRegisters.Main
import RemoteRegisters.Peer
import RemoteRegisters.Proofs.Frame.RoundTrip
import RemoteRegisters.Proofs.Session.Service
import RemoteRegisters.Proofs.Stream.Lossless
import RemoteRegisters.Proofs.Session.Reception
import RemoteRegisters.Proofs.Session.Transcript
import RemoteRegisters.Proofs.Bridge.Accounting
import RemoteRegisters.Proofs.Bridge.Delivery
import RemoteRegisters.Proofs.Connection.Link
import RemoteRegisters.Proofs.Connection.Refinement
import RemoteRegisters.Proofs.Asynchrony.Coherence
import RemoteRegisters.Proofs.Asynchrony.Replay
import RemoteRegisters.Proofs.Bus.Attachment
import RemoteRegisters.Proofs.Session.Faults
import RemoteRegisters.Proofs.Bridge.Alignment
import RemoteRegisters.Proofs.Bridge.Validation
import RemoteRegisters.Proofs.Frame.Acceptance
import RemoteRegisters.Proofs.Frame.Sequence
import RemoteRegisters.Proofs.Frame.Waiting
import RemoteRegisters.Proofs.Register.History
import RemoteRegisters.Proofs.Register.Table
import RemoteRegisters.Proofs.Bus.Overlap
import RemoteRegisters.Proofs.Bus.Hosting
import RemoteRegisters.Proofs.Bus.Assembly
import RemoteRegisters.Proofs.Stream.Segmentation
import RemoteRegisters.Proofs.Demo.Driving
import RemoteRegisters.Proofs.Demo.Rounds
import RemoteRegisters.Proofs.Demo.Delivery
import RemoteRegisters.Proofs.Stream.Outcome
import RemoteRegisters.Proofs.Session.Records
import RemoteRegisters.Proofs.Session.Termination
