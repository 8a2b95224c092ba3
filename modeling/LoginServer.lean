import LoginServer.Receiving.Loop
import LoginServer.Receiving.Reassembly
import LoginServer.Receiving.Framing
import LoginServer.Buffers.RoundTrip
import LoginServer.Buffers.Fifo
import LoginServer.Buffers.Bounds
import LoginServer.Buffers.FixedStrings
import LoginServer.Buffers.SerializerCopies
import LoginServer.Buffers.RingCopies
import LoginServer.Database.MysqlConnector
import LoginServer.Database.Rows
import LoginServer.Login.Authenticity
import LoginServer.Login.Isolation
import LoginServer.Login.Dialogue
import LoginServer.Network.Accounts
import LoginServer.Network.ContainorLock
import LoginServer.Network.Reuse
import LoginServer.Network.Timeouts
import LoginServer.Network.Rejection
import LoginServer.Network.SendCompletion
import LoginServer.Network.Lookup
import LoginServer.Network.Gathering
import LoginServer.Network.Batches
import LoginServer.Network.Streams
import LoginServer.Network.Packets
import LoginServer.Concurrency.Layer
import LoginServer.Queue.Refinement
