import CacheHost.Proofs.Command
import CacheHost.Proofs.DiskFree.Fill
import CacheHost.Proofs.DiskReport.Printing

namespace CacheHost

namespace DiskReport
open Text Numeral

variable {paths : List Text}

end DiskReport

namespace DiskFreeMap
variable {df : Command} {run : List Text → Outcome} {m : DiskFreeMap}

end DiskFreeMap
end CacheHost
