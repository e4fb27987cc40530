import CacheHost.Proofs.BlockConfig.Correlation
import CacheHost.Proofs.Command
import CacheHost.Proofs.DiskFree.Fill
import CacheHost.Proofs.DiskReport.Printing

namespace CacheHost.DiskFreeMap
open DiskReport

variable {m : DiskFreeMap} {df : Command} {run : List Text → Outcome} {header : Text}
  {tails : Text → RowTail}

end CacheHost.DiskFreeMap
