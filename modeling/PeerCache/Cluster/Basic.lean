import PeerCache.Node.Basic
import PeerCache.Peer.Exchange
/-!
# PeerCache — clusters

A cluster is a list of nodes and the questions that they have asked each other. A load that picks
a peer from its node's pool asks one question and waits for it.

## The life of a question

* It is `sent` when the load starts.
* It may `arrive` at a node, which answers at once or looks the key up (`served`).
* The answer comes back (`respond`), or none does (`lose`, at any time). Either way the question
  is `closed` and the load goes on.

A question that is `closed` does not arrive any more. A node may in fact be reached by a request for
whose answer nobody waits any longer, and look the key up for nobody; such lookups are left out.

Which node a question arrives at, and whether it is lost, is not decided here: the events say so.
An event that does not apply changes nothing.
-/

namespace PeerCache

/-- How far a question has come. -/
inductive Stage where
  | sent
  /-- A node looks the key up for it. -/
  | served (node : Nat) (inquiry : Node.Inquiry)
  | closed
deriving DecidableEq, Repr

/-- A load of a node: its group, its way in, and the caller it belongs to. -/
structure LoadId where
  node : Nat
  group : String
  access : Access
  leader : Caller
deriving DecidableEq, Repr

/-- A question of a load to a peer. -/
structure Question where
  load : LoadId
  url : Url
  stage : Stage
deriving DecidableEq, Repr

/-- Nodes and their questions. -/
structure Cluster where
  nodes : List Node
  /-- All questions, in the order in which they were asked. -/
  questions : List Question

namespace Cluster

/-- Changes a node. -/
def updateNode (c : Cluster) (i : Nat) (f : Node → Node) : Cluster :=
  { c with nodes := c.nodes.modify i f }

/-- Changes a group of a node. -/
def updateGroup (c : Cluster) (i : Nat) (name : String) (f : Group Caller → Group Caller) :
    Cluster :=
  c.updateNode i fun n => n.updateGroup name f

/-- A group of a node. -/
def group? (c : Cluster) (i : Nat) (name : String) : Option (Group Caller) :=
  c.nodes[i]?.bind fun n => n.groups.find? name

/-- What is known of a load that has not ended: the key it is for and its phase. -/
def load? (c : Cluster) (l : LoadId) : Option (String × Phase) := do
  let g ← c.group? l.node l.group
  let phase ← (g.flight l.access).work? l.leader
  let key ← (g.flight l.access).key? l.leader
  pure (key, phase)

/-- Sets the stage of a question. -/
def setStage (c : Cluster) (q : Nat) (s : Stage) : Cluster :=
  { c with questions := c.questions.modify q fun x => { x with stage := s } }

/-- The peer answers a load, or fails it. -/
def peerReply (c : Cluster) (l : LoadId) (reply : Except CacheError (List UInt8)) : Cluster :=
  c.updateGroup l.node l.group fun g => g.peerReply l.access l.leader reply

/-- Asks a peer on behalf of a load that has started. A question that cannot be sent fails at
once. -/
def ask (c : Cluster) (l : LoadId) : Cluster :=
  match c.load? l with
  | some (key, .asking baseUrl) =>
    match Peer.request baseUrl l.group key with
    | .error e => c.peerReply l (.error e)
    | .ok url => { c with questions := c.questions ++ [⟨l, url, .sent⟩] }
  | _ => c

/-- Whether the router of a load's group is the pool of its node. -/
def usesPool (c : Cluster) (l : LoadId) : Bool :=
  (c.nodes[l.node]?.bind fun n => n.routers.find? l.group) = some .pool

/-- A load starts. If its group's router is the pool, the pool picks the peer and a question is
asked; otherwise `picked` is what the router picks. -/
def start (c : Cluster) (l : LoadId) (picked : Option String) : Cluster :=
  match c.load? l with
  | some (key, .queued _) =>
    if c.usesPool l then
      -- A direct load ignores what the pool picks, see `Group.start`.
      let owner := (c.nodes[l.node]?.bind Node.pool).bind fun p => p.pickPeer key
      (c.updateGroup l.node l.group fun g => g.start l.access l.leader owner).ask l
    else c.updateGroup l.node l.group fun g => g.start l.access l.leader picked
  | _ => c

/-- No answer comes to a question, whether it has arrived or not; if it has not, it never does. -/
def lose (c : Cluster) (q : Nat) : Cluster :=
  match c.questions[q]? with
  | some ⟨_, _, .closed⟩ => c
  | some ⟨l, url, _⟩ => (c.setStage q .closed).peerReply l (.error (Peer.unreachable url))
  | none => c

/-- What a request for a URL asks a node for. -/
def requestOf (u : Url) : Http.Request where
  method := "GET"
  target := String.ofList u.path ++ (match u.query with
    | some s => "?" ++ s
    | none => "")

/-- A question that is still waited for arrives at a node that takes part in the cluster. -/
def arrive (c : Cluster) (q : Nat) (i : Nat) : Cluster :=
  match c.questions[q]?, c.nodes[i]? with
  | some ⟨l, url, .sent⟩, some n =>
    match n.pool with
    | none => c
    | some p =>
      -- A question is looked up directly, so the node asks nobody on its account.
      match n.acceptPeer p.basePath (.question q) (requestOf url) with
      | (n, .inl r) =>
        ((c.updateNode i fun _ => n).setStage q .closed).peerReply l
          (Peer.Reply.result ⟨r.status, r.body, false⟩)
      | (n, .inr inquiry) => (c.updateNode i fun _ => n).setStage q (.served i inquiry)
  | _, _ => c

/-- The node that looked a key up for a question answers it. -/
def respond (c : Cluster) (q : Nat) : Cluster :=
  match c.questions[q]? with
  | some ⟨l, _, .served i inquiry⟩ =>
    let c' := c.updateGroup i inquiry.group fun g => g.deliver inquiry.access (.question q)
    match c'.nodes[i]?.bind fun n => n.response? (.question q) inquiry with
    | some r => (c'.setStage q .closed).peerReply l (Peer.Reply.result ⟨r.status, r.body, false⟩)
    | none => c
  | _ => c

/-! ## Runs -/

/-- One thing that happens in a cluster. -/
inductive Event where
  | setPeers (node : Nat) (peers : List String)
  | lookup (node : Nat) (group : String) (access : Access) (client : Nat) (key : String)
  | start (load : LoadId) (picked : Option String)
  | foreignReply (load : LoadId) (reply : Except CacheError (List UInt8))
  | sourceReply (load : LoadId) (reply : Except String (List UInt8))
  | panic (load : LoadId) (text : String)
  | lose (question : Nat)
  | arrive (question node : Nat)
  | respond (question : Nat)
  | deliver (node : Nat) (group : String) (access : Access) (client : Nat)
  | abandon (node : Nat) (group : String) (access : Access) (client : Nat)

/-- What an event does. -/
def step (c : Cluster) : Event → Cluster
  | .setPeers i peers => c.updateNode i fun n => n.setPeers peers
  | .lookup i name access client key =>
    c.updateGroup i name fun g => g.lookup (.client client) access key
  | .start l picked => c.start l picked
  | .foreignReply l reply => if c.usesPool l then c else c.peerReply l reply
  | .sourceReply l reply =>
    c.updateGroup l.node l.group fun g => g.sourceReply l.access l.leader reply
  | .panic l text => c.updateGroup l.node l.group fun g => g.panic l.access l.leader text
  | .lose q => c.lose q
  | .arrive q i => c.arrive q i
  | .respond q => c.respond q
  | .deliver i name access client =>
    c.updateGroup i name fun g => g.deliver access (.client client)
  | .abandon i name access client =>
    c.updateGroup i name fun g => g.abandon access (.client client)

/-- What a list of events does, one after another. -/
def run (c : Cluster) (events : List Event) : Cluster := events.foldl step c

end Cluster

end PeerCache
