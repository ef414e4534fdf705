import RespClient.Benchmark.Rehearsal
import RespClient.Config.Document
import RespClient.Main
import RespClient.Proofs.Blocking.Complaints
import RespClient.Proofs.Blocking.Custody
import RespClient.Proofs.Blocking.Deadlines
import RespClient.Proofs.Blocking.Integrity
import RespClient.Proofs.Blocking.Overdue
import RespClient.Proofs.Blocking.Segments
import RespClient.Proofs.Connection.Batches
import RespClient.Proofs.Connection.Completion
import RespClient.Proofs.Connection.Delivery
import RespClient.Proofs.Connection.Enrolment
import RespClient.Proofs.Connection.Feeding
import RespClient.Proofs.Connection.Ledger
import RespClient.Proofs.Connection.Life
import RespClient.Proofs.Connection.Refusal
import RespClient.Proofs.Decimal.Scratch
import RespClient.Proofs.Session.Agreement
import RespClient.Proofs.Session.Messages
import RespClient.Proofs.Session.Parting
import RespClient.Proofs.Session.Replies
import RespClient.Proofs.Shared.Chronicle
import RespClient.Proofs.Shared.Closing
import RespClient.Proofs.Shared.Connecting
import RespClient.Proofs.Shared.Docket
import RespClient.Proofs.Shared.Subscribing
import RespClient.Proofs.Wire.Registers
import RespClient.Proofs.Wire.RoundTrip
import RespClient.Proofs.Wire.Streams
import RespClient.Proofs.Config.RoundTrip
import RespClient.Proofs.Connection.Headway
