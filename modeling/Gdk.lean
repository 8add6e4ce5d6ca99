import Gdk.Basic
import Gdk.Json
import Gdk.Signer.KeyCache
import Gdk.Signer.Concurrent
import Gdk.Signer.Signer
import Gdk.Psbt.Basic
import Gdk.Psbt.Inputs
import Gdk.Psbt.Outputs
import Gdk.Psbt.Details
import Gdk.Psbt.FromJson
