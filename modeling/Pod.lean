import Pod.Support.Go
import Pod.Support.Slice
import Pod.Support.Encoding
import Pod.Node.PeerState
import Pod.Node.PeerInvariant
import Pod.Node.PeerHandler
import Pod.Node.ConnCount
import Pod.Node.GetData
import Pod.Node.CfCheckpt
import Pod.Node.Checkpoints
import Pod.Node.HighestKnown
import Pod.Node.Shutdown
import Pod.Node.Disconnect
import Pod.Node.Rebroadcast
import Pod.Rpc.Limit
import Pod.Rpc.Miner
import Pod.Rpc.Reslice
import Pod.Kopach.Election
import Pod.Gbt.WorkState
import Pod.Gbt.Pollers
import Pod.Gbt.Stale
import Pod.Gbt.Template
import Pod.Gbt.Notifier
import Pod.Gbt.TemplateResult
import Pod.TxMgr.Block
import Pod.TxMgr.Credit
import Pod.TxMgr.Unspent
import Pod.TxMgr.Unmined
import Pod.TxMgr.Cursor
import Pod.TxMgr.Iterators
import Pod.Ffldb.WriteCursor
