import Custody.Main
import Custody.CommandLine.FileTree
import Custody.Store.Memory
import Custody.Store.Refusing
import Custody.Proofs.Asset.Paths
import Custody.Proofs.Bulk.Attempts
import Custody.Proofs.Bulk.Order
import Custody.Proofs.Bulk.Rerun
import Custody.Proofs.Config.Saving
import Custody.Proofs.Config.Setting
import Custody.Proofs.Database.Opening
import Custody.Proofs.Platform.Encoding
import Custody.Proofs.Protocol.Text
import Custody.Proofs.Store.Duplicates
import Custody.Proofs.Secrets.Services
import Custody.Proofs.Service.Agreement
import Custody.Proofs.Service.Matches
import Custody.Proofs.Service.Defaults
import Custody.Proofs.Service.Listed
import Custody.Proofs.Service.Nodes
import Custody.Proofs.Service.Creations
import Custody.Proofs.Service.Updates
import Custody.Proofs.Store.Assets
import Custody.Proofs.Store.Origins
import Custody.Proofs.Store.Reconcile
