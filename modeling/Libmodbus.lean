import Libmodbus.Lib.C
import Libmodbus.Lib.Bytes
import Libmodbus.Lib.Runs
import Libmodbus.Lib.Posix
import Libmodbus.Lib.Cells
import Libmodbus.Lib.Updates
import Libmodbus.Lib.Record
import Libmodbus.Lib.Buffers
import Libmodbus.Modbus
import Libmodbus.Send
import Libmodbus.Receive
import Libmodbus.Mapping
import Libmodbus.Reply
import Libmodbus.Client
import Libmodbus.Proxy
import Libmodbus.Framing
import Libmodbus.Stops
import Libmodbus.Traces
import Libmodbus.Frames
import Libmodbus.Streams
import Libmodbus.Server
import Libmodbus.Exceptions
import Libmodbus.Lengths
import Libmodbus.Ranges
import Libmodbus.Plans
import Libmodbus.Peer
import Libmodbus.Gateway
import Libmodbus.Tables
import Libmodbus.Memory
import Libmodbus.Histories
import Libmodbus.Footprints
import Libmodbus.Calls
import Libmodbus.Senders
import Libmodbus.Arrays
import Libmodbus.Relays
import Libmodbus.Confirmations
import Libmodbus.Recovery
import Libmodbus.Lib.Late
import Libmodbus.Exchanges
import Libmodbus.Stale
import Libmodbus.Leftovers
import Libmodbus.Lib.Descriptors
import Libmodbus.Connect
import Libmodbus.Errno
import Libmodbus.Validation
import Libmodbus.Crossed
import Libmodbus.Broadcast
import Libmodbus.Headers
import Libmodbus.Lib.Prefix
import Libmodbus.Prefixes
import Libmodbus.Echoes
import Libmodbus.Requests
import Libmodbus.Clients
import Libmodbus.Reference
import Libmodbus.Asked
import Libmodbus.Lib.Flow
import Libmodbus.Chunks
import Libmodbus.Lib.Crc
import Libmodbus.Checksums
import Libmodbus.Lib.Pending
import Libmodbus.Flushes
import Libmodbus.Win32
import Libmodbus.Rts
import Libmodbus.Unsuppressed
import Libmodbus.Codecs
import Libmodbus.Coils
import Libmodbus.Expected
import Libmodbus.Compounds
import Libmodbus.Lib.Places
import Libmodbus.Values
import Libmodbus.Services
import Libmodbus.Sessions
import Libmodbus.Gateways
import Libmodbus.Bus
import Libmodbus.Plants
import Libmodbus.Lossy
import Libmodbus.Lib.Clock
import Libmodbus.Waits
import Libmodbus.Lib.Conns
import Libmodbus.Hub
import Libmodbus.Queues
import Libmodbus.Lib.Heap
import Libmodbus.Lifetimes
import Libmodbus.Listening
import Libmodbus.Serial
import Libmodbus.Settings
import Libmodbus.Programs
