import PeerCache.Cluster.Fallback
import PeerCache.Config.Pool
/-!
# PeerCache — how addresses are spelled

A pool knows its own address by its text, and a question goes where the text leads when it is read
as a URL. One place can be spelled in many ways: a host in upper case, with a number written out or
left out, or with a port that the scheme means anyway. `PicksOthers` is what is promised of a pool,
that it picks no peer which leads to its own node. `IsCanonical` are the addresses in the one
spelling that can be told from where they lead.
-/

namespace PeerCache

/-- The text of an origin: the scheme, the host, and the port unless the scheme means it. -/
def Url.originText (o : String × Option Url.Host × Option Nat) : String :=
  o.1 ++ "://" ++ (o.2.1.map Url.Host.render).getD "" ++
    if o.2.2 = Url.defaultPort? o.1 then "" else ":" ++ (o.2.2.map toString).getD ""

namespace Peer

/-- The address is spelled as its origin is. -/
def IsCanonical (addr : String) : Prop := (originOf? addr).map Url.originText = some addr

instance (addr : String) : Decidable (IsCanonical addr) :=
  inferInstanceAs (Decidable (_ = _))

/-- Both addresses lead somewhere, and to the same place. -/
def SamePlace (a b : String) : Prop :=
  ∃ origin, originOf? a = some origin ∧ originOf? b = some origin

/-- No peer that the pool picks leads to the node itself. -/
def Pool.PicksOthers (p : Pool) : Prop :=
  ∀ key baseUrl, p.pickPeer key = some baseUrl → ¬ SamePlace baseUrl p.selfAddr

end Peer

end PeerCache
