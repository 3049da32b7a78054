import Libdsm.Misc.Mem
import Libdsm.Misc.Endian
import Libdsm.Misc.Chunks
import Libdsm.Misc.Runs
import Libdsm.Misc.Hoare
import Libdsm.Misc.Cipher
import Libdsm.Misc.Pieces
import Libdsm.Misc.Der
import Libdsm.Misc.BlockHash
import Libdsm.Misc.Chain
import Libdsm.Contrib.Mdx
import Libdsm.Contrib.Proofs.Digests
import Libdsm.Netbios.Utils
import Libdsm.Netbios.Session
import Libdsm.Netbios.Query
import Libdsm.Netbios.Ns
import Libdsm.Netbios.Proofs.Send
import Libdsm.Netbios.Proofs.Recv
import Libdsm.Netbios.Proofs.Reassembly
import Libdsm.Netbios.Proofs.Capacity
import Libdsm.Netbios.Proofs.Framing
import Libdsm.Netbios.Proofs.Answers
import Libdsm.Netbios.Proofs.Replies
import Libdsm.Netbios.Proofs.NameCache
import Libdsm.Netbios.Proofs.Discovery
import Libdsm.Netbios.Proofs.Restart
import Libdsm.Netbios.Proofs.Nbstat
import Libdsm.Netbios.Proofs.Names
import Libdsm.Smb.Defs
import Libdsm.Smb.Packets
import Libdsm.Smb.Utils
import Libdsm.Smb.Message
import Libdsm.Smb.Types
import Libdsm.Smb.Fd
import Libdsm.Smb.SessionMsg
import Libdsm.Smb.Ntlm
import Libdsm.Smb.Session
import Libdsm.Smb.File
import Libdsm.Smb.Share
import Libdsm.Smb.Trans2
import Libdsm.Smb.Ops
import Libdsm.Smb.Heap
import Libdsm.Smb.Proofs.Frame
import Libdsm.Smb.Proofs.Exchange
import Libdsm.Smb.Proofs.Offers
import Libdsm.Smb.Proofs.Login
import Libdsm.Smb.Proofs.LoginRuns
import Libdsm.Smb.Proofs.ShareTable
import Libdsm.Smb.Proofs.Status
import Libdsm.Smb.Proofs.Wire
import Libdsm.Smb.Proofs.Ntlm
import Libdsm.Smb.Proofs.Message
import Libdsm.Smb.Proofs.Request
import Libdsm.Smb.Proofs.FileTable
import Libdsm.Smb.Proofs.Transfer
import Libdsm.Smb.Proofs.Position
import Libdsm.Smb.Proofs.Descriptors
import Libdsm.Smb.Proofs.Trans2
import Libdsm.Smb.Proofs.Listing
import Libdsm.Smb.Proofs.ShareEnum
import Libdsm.Smb.Proofs.Entries
import Libdsm.Smb.Proofs.Fstat
import Libdsm.Smb.Proofs.Gather
import Libdsm.Smb.Proofs.Search
import Libdsm.Smb.Proofs.Placement
import Libdsm.Smb.Proofs.Pairing
import Libdsm.Smb.Proofs.ShareList
import Libdsm.Smb.Proofs.Reporting
import Libdsm.Smb.Proofs.Challenge
import Libdsm.Smb.Proofs.AuthToken
import Libdsm.Smb.Proofs.NegotiateToken
import Libdsm.Smb.Proofs.Spnego
import Libdsm.Smb.Proofs.Layout
import Libdsm.Smb.Proofs.Fwrite
import Libdsm.Smb.Proofs.Paths
import Libdsm.Smb.Proofs.Setup
import Libdsm.Smb.Proofs.Moves
import Libdsm.Smb.Proofs.Heap
import Libdsm.Smb.Proofs.StatList
import Libdsm.Smb.Proofs.Peer
import Libdsm.Smb.Proofs.NtlmServer
import Libdsm.Smb.Proofs.RemoteFiles
import Libdsm.Smb.Proofs.Connect
import Libdsm.Smb.Proofs.Establish
import Libdsm.Smb.Proofs.RemotePaths
import Libdsm.Smb.Proofs.Srvsvc
import Libdsm.Smb.Proofs.ShareServer
