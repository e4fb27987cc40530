import CacheHost.Collection
import CacheHost.Http.Route

namespace CacheHost.Http

structure Answer where
  response : Response
  collection : Option Collection

def serve (c : Settings) (src : Sources) (finish : Finish) (method target : Text) : Answer :=
  if (Route.of method target).collects then
    let collection := Collection.run c src finish
    ⟨respond method target collection.snapshot.encode, some collection⟩
  else ⟨respond method target [], none⟩

end CacheHost.Http
