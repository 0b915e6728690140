import PingWatch.Registry.Exposition

/-!
# The status pages

Three pages can be read: what runs here, that it is alive, and the metrics.  A page can only be
read, not changed, and asked for its head alone it is sent without its body.
-/

namespace PingWatch

def version : String := "0.1.0"

structure Response where
  status : Nat
  contentType : Option String := none
  /-- The methods that the page knows, when it was asked for with another one. -/
  allow : Option String := none
  body : String := ""
deriving DecidableEq

namespace Status

/-- The address at which the pages are served unless another one is given. -/
def defaultAddress : String := "0.0.0.0:8081"

def plainType : String := "text/plain; charset=utf-8"

def metricsType : String := "text/plain; version=0.0.4; charset=utf-8"

/-- The page at a path: its type and its text. -/
def page? (r : Registry) (path : String) : Option (String × String) :=
  if path = "/" then some (plainType, s!"octoping-agent {version}")
  else if path = "/health" then some (plainType, "OK")
  else if path = "/metrics" then some (metricsType, r.exposition)
  else none

/-- The path of a request target: what comes before a query or a fragment. -/
def pathOf (target : String) : String :=
  .ofList (target.toList.takeWhile fun c => c ≠ '?' ∧ c ≠ '#')

def respond (r : Registry) (method target : String) : Response :=
  match page? r (pathOf target) with
  | none => { status := 404 }
  | some (contentType, text) =>
    if method = "GET" then { status := 200, contentType := some contentType, body := text }
    else if method = "HEAD" then { status := 200, contentType := some contentType }
    else { status := 405, allow := some "GET,HEAD" }

end Status

end PingWatch
