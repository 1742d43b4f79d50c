import Sponge.ByteStream.Accounting
import Sponge.Reassembler.Eof
import Sponge.Reassembler.EofLost
import Sponge.Reassembler.Memory
import Sponge.Receiver.Finished
import Sponge.Receiver.Refine
import Sponge.Sender.Shift
import Sponge.Sender.FlowControl
import Sponge.Sender.Accounting
import Sponge.Sender.Acknowledge
import Sponge.Sender.Fill
import Sponge.Sender.ZeroWindow
import Sponge.Connection.Backoff
import Sponge.Connection.Outbound
import Sponge.Connection.Final
import Sponge.Connection.Linger
import Sponge.Connection.Listen
import Sponge.Connection.Reply
import Sponge.Connection.Silent
import Sponge.Connection.WellFormed
import Sponge.Connection.Window
import Sponge.Network.Prefix
import Sponge.Network.Acked
import Sponge.Wire.Canonical
import Sponge.Wire.Corruption
import Sponge.Wire.Guarded
import Sponge.Wire.Chunks
import Sponge.Wire.Peer
import Sponge.Util.FileDescriptor
import Sponge.Util.Served
import Sponge.Adapter.Tun
import Sponge.Adapter.Lossy
import Sponge.Socket.Exit
import Sponge.Apps.StreamCopy
import Sponge.Connection.Alive
import Sponge.Connection.Unanswered
import Sponge.Network.Agreement
import Sponge.Network.Plain
import Sponge.Network.Progress
