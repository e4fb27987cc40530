import CacheHost.Json

namespace CacheHost.Http.Version

def name : Text := "blkdev-status".toList

def number : Text := "0.6.0".toList

/-- What is logged when nothing else is asked for. -/
def logFilter : Text := "info,tower_http=debug".toList

def text : Text :=
  (Json.object [("name".toList, .string name), ("version".toList, .string number)]).text

end CacheHost.Http.Version
