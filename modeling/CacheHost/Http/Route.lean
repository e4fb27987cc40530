import CacheHost.Http.Dashboard
import CacheHost.Http.Version

namespace CacheHost.Http

inductive Method where
  | get
  | head
  | other
  deriving DecidableEq, Repr

/-- Methods are told by their exact names. -/
def Method.of (s : Text) : Method :=
  if s = "GET".toList then .get else if s = "HEAD".toList then .head else .other

inductive Page where
  | dashboard
  | data
  | version
  | icon
  | missing
  deriving DecidableEq, Repr

def Page.ofPath (path : Text) : Page :=
  if path = "/".toList then .dashboard
  else if path = "/data".toList then .data
  else if path = "/version".toList then .version
  else if path = "/favicon.ico".toList then .icon
  else .missing

def afterScheme? (target : Text) : Option Text :=
  if target.head? = some '/' then none
  else Text.after? "://".toList (target.dropWhile (· != ':'))

/-- The path of a target: without its query, and in absolute form without its scheme and host. -/
def targetPath (target : Text) : Text :=
  let pathOf (s : Text) := s.takeWhile fun c => c != '?' && c != '#'
  match afterScheme? target with
  | none => pathOf target
  | some rest =>
    let path := pathOf (rest.dropWhile fun c => c != '/' && c != '?' && c != '#')
    if path = [] then "/".toList else path

inductive Route where
  | refused
  | page (p : Page)
  deriving DecidableEq, Repr

def Route.of (method target : Text) : Route :=
  match Method.of method with
  | .other => .refused
  | _ => .page (Page.ofPath (targetPath target))

def Route.collects (r : Route) : Bool := r = .page .data

structure Response where
  status : Nat
  contentType : Text
  body : Text
  deriving DecidableEq, Repr

def plain : Text := "text/plain; charset=utf-8".toList

def html : Text := "text/html; charset=utf-8".toList

def json : Text := "application/json".toList

/-- The answer to a GET request; `document` is the text of the snapshot that was collected. -/
def Route.response (r : Route) (document : Text) : Response :=
  match r with
  | .refused => ⟨501, plain, "http method not supported".toList⟩
  | .page .dashboard => ⟨200, html, Dashboard.page⟩
  | .page .data => ⟨200, json, document⟩
  | .page .version => ⟨200, json, Version.text⟩
  | .page .icon => ⟨404, "image/x-icon".toList, []⟩
  | .page .missing => ⟨404, plain, "file not found".toList⟩

def respond (method target document : Text) : Response :=
  let r := (Route.of method target).response document
  if Method.of method = .head then { r with body := [] } else r

end CacheHost.Http
