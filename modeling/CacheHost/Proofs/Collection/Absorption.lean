import CacheHost.Proofs.Collection.Consistency
import CacheHost.Proofs.DiskFree.Pseudo
import CacheHost.Proofs.DiskFree.Resolution

namespace CacheHost

namespace Sources

def devices (src : Sources) : DeviceMap :=
  .ofTexts (contents src.blkdevConf) (contents src.nbdClient)

def paths (src : Sources) : List Text := (DiskFreeMap.seed src.devices).keys

end Sources

namespace Collection

inductive Fails (c : Settings) (src : Sources) : Stage → StageError → Prop
  | hostMetrics {e : StageError} : src.host = .error e → Fails c src .hostMetrics e
  | interfaces {e : StageError} : src.interfaces = .error e → Fails c src .interfaces e
  | deviceConfig {cause : SystemError} : src.blkdevConf = .error cause →
      Fails c src .deviceConfig (.unreadable c.sources.blkdevConf cause)
  | nbdCorrelation {cause : SystemError} : src.nbdClient = .error cause →
      Fails c src .nbdCorrelation (.unreadable c.sources.nbdClient cause)
  | processCount {e : StageError} : c.commands.workerProcess ≠ [] →
      c.commands.psCommand.Fails (src.ps ProcessCount.arguments) e → Fails c src .processCount e
  | diskUsage {e : StageError} : src.paths ≠ [] →
      c.commands.dfCommand.Fails (src.df (DiskReport.arguments src.paths)) e →
        Fails c src .diskUsage e
  | report {status : ExitStatus} {stdout : Bytes} {e : DiskReport.Error} : src.paths ≠ [] →
      src.df (DiskReport.arguments src.paths) = .ended status stdout → status.isSuccess = true →
      DiskReport.parse (Utf8.decodeLossy stdout) src.paths = .error e →
        Fails c src .diskUsage (.unexpectedOutput c.commands.df e.message)

variable (c : Settings) (src : Sources) (finish finish' : Finish)

def filled : DiskFreeMap.Filled :=
  (DiskFreeMap.seed src.devices).fill c.commands.dfCommand src.df

variable {c src}

end Collection
end CacheHost
