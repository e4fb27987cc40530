import CacheHost.Http.Service
import CacheHost.Proofs.Collection.Isolation
import CacheHost.Proofs.DiskFree.Resolution
import CacheHost.Proofs.DiskFree.Frame
import CacheHost.Proofs.NbdDump.LastAssignment
import CacheHost.Proofs.Snapshot.RoundTrip
import CacheHost.Proofs.BlockConfig.Listen
import CacheHost.Proofs.BlockConfig.Overlay
import CacheHost.Proofs.Collection.Damage
import CacheHost.Proofs.Collection.Layout
import CacheHost.Proofs.DiskFree.Pseudo
import CacheHost.Proofs.Collection.Absorption
import CacheHost.Proofs.Http.Routing
import CacheHost.Proofs.ProcessCount
import CacheHost.Proofs.Settings
import CacheHost.Proofs.NbdDump.Spelling
import CacheHost.Proofs.Survey
import CacheHost.Proofs.Json.Grammar
import CacheHost.Proofs.Json.Reading
import CacheHost.Proofs.Json.Acceptance
import CacheHost.Proofs.DiskFree.WireFormat
import CacheHost.Proofs.Binary64.Leading
import CacheHost.Proofs.Json.Printing
import CacheHost.Proofs.Snapshot.Document
import CacheHost.Proofs.Json.Unambiguous
import CacheHost.Proofs.CounterFile
