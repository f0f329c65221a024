import PeerCache.Cluster.Basic
import PeerCache.Bench.Script
/-!
# PeerCache — the bench for clusters

Runs the nodes of a cluster against scripted sources and routers. As on the bench for shared
executions, calls that start together all look up, join or register before any load runs; loads
then run in the order in which they were registered, each until it ends, comes to a gate, or
waits for the network.

No question to another node gets through: when nothing else can move, the questions are lost in
the order in which they were asked.
-/

namespace PeerCache.Bench

/-- A router that follows a script: the peer for each key, the peer for all other keys, and how
the peers answer. A peer without a script picks none. -/
structure Picker where
  table : Table String (Option String)
  fallback : Option String
  peers : Table String Script
deriving Inhabited

/-- The name of the peer that a router's script gives a key. -/
def Picker.pick (p : Picker) (key : String) : Option String :=
  match p.table.find? key with
  | some picked => picked
  | none => p.fallback

/-- The router of a scripted group. -/
inductive RouterSpec where
  | absent
  | pool
  | scripted (p : Picker)

/-- How a group is set up. -/
structure GroupSpec where
  name : String
  cacheBytes : Nat
  policy : RemotePolicy
  /-- Whether evictions are logged. -/
  logsEvictions : Bool
  source : Script
  router : RouterSpec

/-- How a node is set up. -/
structure NodeSpec where
  addr : Option String
  options : Peer.PoolOptions
  peers : Option (List String)
  groups : List GroupSpec

/-- One thing that a scripted run logs. -/
inductive LogEntry where
  | pick (key : String) (peer : Option String)
  | peer (peer group key : String)
  | source (node : Nat) (group key : String)
  | evict (node : Nat) (group key : String) (value : ByteView)

/-- Something that a client asks. -/
inductive Call where
  | lookup (node : Nat) (group : String) (access : Access) (key : String)
  | peerHttp (node : Nat) (request : Http.Request)
  | apiHttp (node : Nat) (group : String) (request : Http.Request)
  /-- Ask a peer directly. -/
  | fetch (baseUrl group key : String)
  /-- Pick the peers for keys and ask each for the group `g`. -/
  | pick (node : Nat) (keys : List String)

/-- What a call that waits is waiting for. -/
inductive Waiting where
  | lookup (node : Nat) (group : String) (access : Access)
  | http (node : Nat) (inquiry : Node.Inquiry)

/-- What a call came to. -/
inductive Result where
  | outcome (o : Outcome ByteView)
  | response (r : Http.Response)
  | picks (rs : List (Option (Outcome ByteView)))
  | abandoned

/-- One step of a scripted run. -/
inductive WorldStep where
  | call (name : String) (call : Call)
  /-- Calls that start together. -/
  | join (calls : List (String × Call))
  | release (gate : Option String)
  | abandon (name : String)
  | set (node : Nat) (group key : String) (lines : List Line)
  | register (node : Nat) (spec : GroupSpec)
  | registerPeers (node : Nat) (group : String) (router : RouterSpec)
  | registry (node : Nat) (names : List String)
  | setPeers (node : Nat) (peers : List String)
  | pool (node : Nat)
  /-- Nothing happens. -/
  | idle

/-- What a step itself answers. -/
inductive WorldAnswer where
  | nothing
  | count (n : Nat)
  | flag (b : Bool)
  | ok
  | error (e : CacheError)
  | noGroup
  | registry (names : List String) (found : List (Option String))
  | pool (selfAddr basePath : String)

/-- What can be seen after a step: its answer, the calls that came to an end, the names of those
that wait, what was logged, and the statistics of the groups of every node. -/
structure WorldReport where
  answer : WorldAnswer
  done : List (String × Result)
  pending : List String
  log : List LogEntry
  stats : List (List GroupStats)

/-- A load at a gate, and how what it waits for will come out. -/
structure Parked where
  gate : String
  load : LoadId
  act : Act

/-- A cluster with its scripts. -/
structure World where
  cluster : Cluster
  sources : Table (Nat × String) Script
  pickers : Table (Nat × String) Picker
  /-- The groups whose evictions are not logged. -/
  silent : List (Nat × String)
  calls : List (Nat × String × Waiting)
  /-- The loads at gates, in the order of arrival. -/
  parked : List Parked
  nextNumber : Nat
  log : List LogEntry

namespace World

/-- Adds to the log. -/
def note (w : World) (e : LogEntry) : World := { w with log := w.log ++ [e] }

/-- What a group's hook has been told of so far. -/
def evicted (w : World) (i : Nat) (name : String) : List (String × ByteView) :=
  match w.cluster.group? i name with
  | some g => g.evicted
  | none => []

/-- Lets something happen to a load, and logs the evictions that this brings about. -/
def happen (w : World) (l : LoadId) (e : Cluster.Event) : World :=
  let before := (w.evicted l.node l.group).length
  let w := { w with cluster := w.cluster.step e }
  if (l.node, l.group) ∈ w.silent then w
  else
    ((w.evicted l.node l.group).drop before).foldl
      (fun w e => w.note (.evict l.node l.group e.1 e.2)) w

/-! ## Loads -/

/-- The source's call for a load comes out. -/
def playSource (w : World) (l : LoadId) (key : String) (act : Act) : World :=
  match act.play key with
  | .value bytes => w.happen l (.sourceReply l (.ok bytes))
  | .failure text => w.happen l (.sourceReply l (.error text))
  | .panic text => w.happen l (.panic l text)

/-- Calls the source for a load that waits for it. -/
def runSource (w : World) (l : LoadId) : World :=
  match w.cluster.load? l with
  | some (key, .loading) =>
    let w := w.note (.source l.node l.group key)
    let script := (w.sources.find? (l.node, l.group)).getD default
    let (line, script) := script.next key
    let w := { w with sources := w.sources.insert (l.node, l.group) script }
    match line.gate with
    | some gate => { w with parked := w.parked ++ [⟨gate, l, line.act⟩] }
    | none => w.playSource l key line.act
  | _ => w

/-- The scripted peer's call for a load comes out; after a failure the source is called. -/
def playPeer (w : World) (l : LoadId) (key : String) (act : Act) : World :=
  match act.play key with
  | .value bytes => w.happen l (.foreignReply l (.ok bytes))
  | .failure text => (w.happen l (.foreignReply l (.error (.peer text)))).runSource l
  | .panic text => w.happen l (.panic l text)

/-- Calls a scripted peer for a load that waits for it. -/
def runPeer (w : World) (l : LoadId) (peer key : String) : World :=
  let w := w.note (.peer peer l.group key)
  let picker := (w.pickers.find? (l.node, l.group)).getD default
  let (line, script) := ((picker.peers.find? peer).getD default).next key
  let picker := { picker with peers := picker.peers.insert peer script }
  let w := { w with pickers := w.pickers.insert (l.node, l.group) picker }
  match line.gate with
  | some gate => { w with parked := w.parked ++ [⟨gate, l, line.act⟩] }
  | none => w.playPeer l key line.act

/-- The peer that the scripted router of a group picks, with the entry for the log. -/
def pickScripted (w : World) (l : LoadId) (key : String) : World × Option String :=
  match w.pickers.find? (l.node, l.group) with
  | none => (w, none)
  | some p =>
    let name := p.pick key
    (w.note (.pick key name), name.filter p.peers.contains)

/-- Goes on with a load that has started. -/
def goOn (w : World) (l : LoadId) : World :=
  match w.cluster.load? l with
  | some (key, .asking peer) => if w.cluster.usesPool l then w else w.runPeer l peer key
  | some (_, .loading) => w.runSource l
  | _ => w

/-- Runs a load that was registered. -/
def runLoad (w : World) (l : LoadId) : World :=
  match w.cluster.load? l with
  | some (key, .queued true) =>
    if w.cluster.usesPool l then (w.happen l (.start l none)).goOn l
    else
      let (w, picked) := w.pickScripted l key
      (w.happen l (.start l picked)).goOn l
  | some (_, .queued false) => (w.happen l (.start l none)).goOn l
  | _ => w

/-- Goes on with a load whose gate was opened. -/
def unpark (w : World) (p : Parked) : World :=
  match w.cluster.load? p.load with
  | some (key, .asking _) => w.playPeer p.load key p.act
  | some (key, .loading) => w.playSource p.load key p.act
  | _ => w

/-- Loses the questions from number `q` on that are still open, `n` of them at most; their loads
go on. -/
def loseFrom (w : World) (q : Nat) : Nat → World
  | 0 => w
  | n + 1 =>
    let w := match w.cluster.questions[q]? with
      | some ⟨l, _, .sent⟩ => (w.happen l (.lose q)).goOn l
      | _ => w
    w.loseFrom (q + 1) n

/-- Runs loads, and then the network, until nothing can move. -/
def settle (w : World) (loads : List LoadId) : World :=
  -- What waits for the network gets its turn when nothing else can move.
  let w := loads.foldl runLoad w
  w.loseFrom 0 w.cluster.questions.length

/-! ## Calls -/

/-- What comes of asking a peer while no question gets through. -/
def fetch (baseUrl group key : String) : Outcome ByteView :=
  match Peer.request baseUrl group key with
  | .error e => .error e
  | .ok url => .error (Peer.unreachable url)

/-- Whether the group that a call names exists; calls that name none need none. -/
def hasGroup (w : World) : Call → Bool
  | .lookup i name _ _ => (w.cluster.group? i name).isSome
  | .apiHttp i name _ => (w.cluster.group? i name).isSome
  | _ => true

/-- The load that a caller's lookup registered, if it did. -/
def newLoad (w : World) (i : Nat) (name : String) (access : Access) (n : Nat) : List LoadId :=
  let l : LoadId := ⟨i, name, access, .client n⟩
  if (w.cluster.load? l).isSome then [l] else []

/-- Takes what a node made of a request: a response, or a lookup to wait for. -/
def takeRequest (w : World) (n : Nat) (name : String) (i : Nat)
    (accepted : Node × (Http.Response ⊕ Node.Inquiry)) :
    World × List LoadId × List (String × Result) :=
  let w := { w with cluster := w.cluster.updateNode i fun _ => accepted.1 }
  match accepted.2 with
  | .inl r => (w, [], [(name, .response r)])
  | .inr inquiry =>
    ({ w with calls := w.calls ++ [(n, name, .http i inquiry)] },
      w.newLoad i inquiry.group inquiry.access n, [])

/-- Starts a call. The answer has the load that this registered and the result if it is there at
once. -/
def call (w : World) (name : String) (c : Call) :
    World × List LoadId × List (String × Result) :=
  let n := w.nextNumber
  let w := { w with nextNumber := n + 1 }
  match c with
  | .lookup i group access key =>
    let w := { w with
      cluster := w.cluster.step (.lookup i group access n key)
      calls := w.calls ++ [(n, name, .lookup i group access)] }
    (w, w.newLoad i group access n, [])
  | .peerHttp i request =>
    match w.cluster.nodes[i]? with
    | none => (w, [], [])
    | some node =>
      let basePath := (node.pool.map Peer.Pool.basePath).getD Peer.defaultBasePath
      w.takeRequest n name i (node.acceptPeer basePath (.client n) request)
  | .apiHttp i group request =>
    match w.cluster.nodes[i]? with
    | none => (w, [], [])
    | some node => w.takeRequest n name i (node.acceptApi group (.client n) request)
  | .fetch baseUrl group key => (w, [], [(name, .outcome (fetch baseUrl group key))])
  | .pick i keys =>
    let picked := fun (key : String) =>
      ((w.cluster.nodes[i]?.bind Node.pool).bind fun p => p.pickPeer key).map fun baseUrl =>
        fetch baseUrl "g" key
    (w, [], [(name, .picks (keys.map picked))])

/-- Starts calls one after another. -/
def callAll (w : World) :
    List (String × Call) → World × List LoadId × List (String × Result)
  | [] => (w, [], [])
  | (name, c) :: rest =>
    let (w, loads, done) := w.call name c
    let (w, moreLoads, moreDone) := w.callAll rest
    (w, loads ++ moreLoads, done ++ moreDone)

/-- The result that a waiting call has come to. -/
def result? (w : World) (n : Nat) : Waiting → Option Result
  | .lookup i group access =>
    ((w.cluster.group? i group).bind fun g => g.answer? access (.client n)).map .outcome
  | .http i inquiry =>
    (w.cluster.nodes[i]?.bind fun node => node.response? (.client n) inquiry).map .response

/-- The group and the way in of what a call waits for. -/
def Waiting.place : Waiting → Nat × String × Access
  | .lookup i group access => (i, group, access)
  | .http i inquiry => (i, inquiry.group, inquiry.access)

/-- Hands the outcomes that are there to the calls that wait for them. -/
def collect (w : World) : World × List (String × Result) :=
  let cluster := w.calls.foldl (fun c (n, _, what) =>
    let (i, group, access) := Waiting.place what
    c.step (.deliver i group access n)) w.cluster
  let w := { w with cluster := cluster }
  let done := w.calls.filterMap fun (n, name, what) =>
    (w.result? n what).map fun r => (name, r)
  let calls := w.calls.filter fun (n, _, what) => (w.result? n what).isNone
  ({ w with calls := calls }, done)

/-! ## Setting up -/

/-- Installs the router of a group. -/
def registerPeers (w : World) (i : Nat) (name : String) (router : RouterSpec) :
    Except CacheError World :=
  match w.cluster.nodes[i]?, router with
  | some node, .pool => do
    let node ← node.registerPeers name .pool
    pure { w with cluster := w.cluster.updateNode i fun _ => node }
  | some node, .scripted p => do
    let node ← node.registerPeers name .foreign
    pure { w with
      cluster := w.cluster.updateNode i fun _ => node
      pickers := w.pickers.insert (i, name) p }
  | _, _ => .ok w

/-- Adds a group to a node. -/
def register (w : World) (i : Nat) (spec : GroupSpec) : Except CacheError World :=
  match w.cluster.nodes[i]? with
  | none => .ok w
  | some node => do
    let node ← node.register (.new spec.name spec.cacheBytes spec.policy)
    { w with
      cluster := w.cluster.updateNode i fun _ => node
      sources := w.sources.insert (i, spec.name) spec.source
      silent := if spec.logsEvictions then w.silent else w.silent ++ [(i, spec.name)]
        }.registerPeers i spec.name spec.router

/-- A world without nodes. -/
def empty : World where
  cluster := ⟨[], []⟩
  sources := .empty
  pickers := .empty
  silent := []
  calls := []
  parked := []
  nextNumber := 0
  log := []

/-- Adds a node. -/
def addNode (w : World) (spec : NodeSpec) : Except CacheError World := do
  let pool ← match spec.addr with
    | none => pure none
    | some addr => do
      let p ← Peer.Pool.withOptions addr spec.options
      pure (some (match spec.peers with
        | some peers => p.setPeers peers
        | none => p))
  let i := w.cluster.nodes.length
  let w := { w with cluster := { w.cluster with nodes := w.cluster.nodes ++ [Node.new pool] } }
  spec.groups.foldlM (fun w g => w.register i g) w

/-- A world with nodes. -/
def build (specs : List NodeSpec) : Except CacheError World := specs.foldlM addNode empty

/-! ## Steps -/

/-- Keeps the world if something failed, and tells. -/
def orKeep (w : World) : Except CacheError World → World × WorldAnswer
  | .ok w => (w, .ok)
  | .error e => (w, .error e)

/-- What a step does before the outcomes are handed out: the world, its answer and the calls that
came to an end. -/
def act (w : World) : WorldStep → World × WorldAnswer × List (String × Result)
  | .call name c =>
    if w.hasGroup c then
      let (w, loads, done) := w.call name c
      (w.settle loads, .nothing, done)
    else (w, .noGroup, [])
  | .join calls =>
    -- A call to a group that does not exist is left out, and the others start.
    let (w, loads, done) := w.callAll (calls.filter fun c => w.hasGroup c.2)
    (w.settle loads, .nothing, done)
  | .release gate =>
    let opens := fun (p : Parked) => gate.isNone || gate = some p.gate
    let freed := w.parked.filter opens
    let w := { w with parked := w.parked.filter fun p => !opens p }
    ((freed.foldl unpark w).settle [], .count freed.length, [])
  | .abandon name =>
    match w.calls.find? fun c => c.2.1 = name with
    | none => (w, .flag false, [])
    | some (n, _, what) =>
      let (i, group, access) := Waiting.place what
      ({ w with
          cluster := w.cluster.step (.abandon i group access n)
          calls := w.calls.filter fun c => c.1 ≠ n },
        .flag true, [(name, .abandoned)])
  | .set i group key lines =>
    let set := fun (s : Script) => s.set key lines
    ({ w with sources := w.sources.modify (i, group) set }, .nothing, [])
  | .register i spec =>
    let (w, answer) := w.orKeep (w.register i spec)
    (w, answer, [])
  | .registerPeers i group router =>
    if (w.cluster.group? i group).isSome then
      let (w, answer) := w.orKeep (w.registerPeers i group router)
      (w, answer, [])
    else (w, .noGroup, [])
  | .registry i names =>
    let groups := match w.cluster.nodes[i]? with
      | some node => node.groups
      | none => .empty
    (w, .registry (Registry.names groups)
      (names.map fun name => (groups.find? name).map Group.name), [])
  | .setPeers i peers => ({ w with cluster := w.cluster.step (.setPeers i peers) }, .nothing, [])
  | .pool i =>
    match w.cluster.nodes[i]?.bind Node.pool with
    | some p => (w, .pool p.selfAddr p.basePath, [])
    | none => (w, .nothing, [])
  | .idle => (w, .nothing, [])

/-- One step, run until nothing can move, and what can be seen then. -/
def step (w : World) (s : WorldStep) : World × WorldReport :=
  let (w, answer, done) := { w with log := [] }.act s
  let (w, more) := w.collect
  (w,
    { answer := answer
      done := done ++ more
      pending := (w.calls.map fun c => c.2.1).mergeSort fun x y => decide (x ≤ y)
      log := w.log
      stats := w.cluster.nodes.map Node.stats })

/-- The reports of a list of steps. -/
def run (w : World) : List WorldStep → List WorldReport
  | [] => []
  | s :: rest =>
    let (w, report) := w.step s
    report :: w.run rest

end World

end PeerCache.Bench
