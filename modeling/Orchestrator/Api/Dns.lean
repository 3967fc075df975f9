/-
# The DNS server

`handleQuery` of `internal/dnsserver/server.go`.  The server knows one zone.  What a name in this
zone stands for it learns from its resolver, which is `ResolveServiceDNS` in a running system.
Whether an address is one of IPv4 is decided by the library (`net.ParseIP` and `To4`); this is the
parameter `ip`.
-/
import Orchestrator.Service.Routing

namespace Orchestrator

open Lib

/-- A question of a DNS message. -/
structure Question where
  name : String
  qtype : UInt16
deriving DecidableEq, Repr

/-- `dns.TypeA`. -/
def typeA : UInt16 := 1

/-- `dns.ClassINET`. -/
def classINET : UInt16 := 1

/-- The four bytes of an IPv4 address. -/
abbrev IPv4 := BitVec 32

/-- `dns.A` with its header. -/
structure ARecord where
  name : String
  rrtype : UInt16 := typeA
  cls : UInt16 := classINET
  ttl : UInt32
  address : IPv4
deriving DecidableEq, Repr

/-- The fields of the response that `handleQuery` sets itself. -/
structure DNSReply where
  authoritative : Bool
  answer : List ARecord
deriving DecidableEq, Repr

/-- The name, the endpoints and the time to live of a service. -/
abbrev Resolver := String → M (String × List ServiceEndpoint × ℤ)

/-- The zone that the server answers for. -/
def zone : String := ".default.svc.cluster.local"

/-- What an endpoint adds to the answer. -/
def endpointRecord (ip : String → Option IPv4) (q : Question) (ttl : ℤ) (ep : ServiceEndpoint) :
    Option ARecord :=
  if ep.ready = false then none
  else (ip ep.address).map fun v4 =>
    { name := q.name, ttl := UInt32.ofBitVec (BitVec.ofInt 32 ttl), address := v4 }

/-- The loop body of `handleQuery`.  The suffix is looked for in the name in lower case, but it is
cut off only where the name has it in lower case already. -/
def answerQuestion (ip : String → Option IPv4) (resolver : Resolver) (q : Question) :
    M (List ARecord) := do
  if q.qtype ≠ typeA then pure []
  else
    let name := trimSuffix q.name "."
    if hasSuffix (toLower name) zone = false then pure []
    else
      match ← (resolver (trimSuffix name zone)).attempt with
      | .error _ => pure []
      | .ok (_, endpoints, ttl) =>
        let ttl := if ttl ≤ 0 then 30 else ttl
        pure (endpoints.filterMap (endpointRecord ip q ttl))

def handleQuery (ip : String → Option IPv4) (resolver : Resolver) (questions : List Question) :
    M DNSReply := do
  let answers ← Prog.mapEach questions (answerQuestion ip resolver)
  pure { authoritative := true, answer := answers.flatten }

end Orchestrator
