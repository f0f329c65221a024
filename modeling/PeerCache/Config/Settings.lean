import PeerCache.Config.CommandLine
import PeerCache.Group.Basic
import PeerCache.Net.SocketAddr
import PeerCache.Peer.Pool
import PeerCache.Text.Form
import PeerCache.Text.Quoted
import PeerCache.Url.Parser
/-!
# PeerCache — the settings of a node

`Settings` is what a command line and the environment say about a node. `validate` refuses
settings that no cluster can work with, and `bindAddr` finds the socket of the peer endpoint:
the one given, or the host and port of the node's own address.
-/

namespace PeerCache

/-- What a node is told at its start. -/
structure Settings where
  /-- The URL under which other nodes reach this one. -/
  addr : String
  /-- The socket of the peer endpoint, if it is not that of `addr`. -/
  bind : Option Net.SocketAddr
  /-- The nodes of the cluster as they were written, this one included. -/
  peers : List String
  /-- The socket of the front endpoint; without it there is none. -/
  apiBind : Option Net.SocketAddr
  group : String
  /-- The budget of the group's store in bytes; zero means that there is none. -/
  cacheBytes : Nat
  /-- The number of points of each node on the ring. -/
  replicas : Nat
  basePath : String
  /-- The time that one question to a peer may take, in milliseconds. -/
  peerTimeout : Nat
  /-- Whether values of other nodes are kept. -/
  cacheRemote : Bool
deriving DecidableEq, Repr

namespace Settings

open Config

/-- The settings of a node that is told nothing. -/
def default : Settings where
  addr := "http://127.0.0.1:8001"
  bind := none
  peers := []
  apiBind := none
  group := "scores"
  cacheBytes := 2048
  replicas := 50
  basePath := Peer.defaultBasePath
  peerTimeout := 3000
  cacheRemote := false

/-- The parts of a list of addresses between commas. -/
def splitCommas (s : String) : List String :=
  (Text.Form.splitAt ',' s.toList).map String.ofList

/-- An option with a value. -/
def option (name placeholder envName : String) (read : String → Option (Settings → Settings)) :
    Opt Settings :=
  ⟨name, some placeholder, envName, false, false, read⟩

/-- The options that describe the settings. -/
def options : List (Opt Settings) := [
  option "addr" "ADDR" "CACHE_ADDR" fun v => some fun s => { s with addr := v },
  option "bind" "BIND" "CACHE_BIND" fun v =>
    (Net.SocketAddr.parse? v).map fun a s => { s with bind := some a },
  { option "peers" "PEERS" "CACHE_PEERS" (fun v =>
      some fun s => { s with peers := s.peers ++ splitCommas v }) with
    repeats := true, required := true },
  option "api-bind" "API_BIND" "CACHE_API_BIND" fun v =>
    (Net.SocketAddr.parse? v).map fun a s => { s with apiBind := some a },
  option "group" "GROUP" "CACHE_GROUP" fun v => some fun s => { s with group := v },
  option "cache-bytes" "CACHE_BYTES" "CACHE_BYTES" fun v =>
    (Text.Numeral.size? v).map fun n s => { s with cacheBytes := n },
  option "replicas" "REPLICAS" "CACHE_REPLICAS" fun v =>
    (Text.Numeral.size? v).map fun n s => { s with replicas := n },
  option "base-path" "BASE_PATH" "CACHE_BASE_PATH" fun v =>
    some fun s => { s with basePath := v },
  option "peer-timeout-ms" "PEER_TIMEOUT_MS" "CACHE_PEER_TIMEOUT_MS" fun v =>
    (Text.Numeral.size? v).map fun n s => { s with peerTimeout := n },
  { name := "cache-remote"
    placeholder := none
    envName := "CACHE_REMOTE"
    repeats := false
    required := false
    read := fun v =>
      if v = "true" then some fun s => { s with cacheRemote := true }
      else if v = "false" then some fun s => { s with cacheRemote := false }
      else none }]

/-- The settings that words and the environment describe. -/
def parse (words : List String) (env : List (String × String)) : Except UsageError Settings :=
  CommandLine.parse options default words env

/-- An address without the blanks around it and the slashes at its end. -/
def tidy (addr : String) : String := Text.trimSlashes (Text.trim addr)

/-- The node's own address. -/
def selfAddr (s : Settings) : String := tidy s.addr

/-- The addresses of the nodes; blank ones do not count. -/
def peerAddrs (s : Settings) : List String := (s.peers.map tidy).filter (· ≠ "")

/-- What to do with values of other nodes. -/
def remotePolicy (s : Settings) : RemotePolicy := if s.cacheRemote then .populate else .skip

/-- How the node's pool is set up. -/
def poolOptions (s : Settings) : Peer.PoolOptions := ⟨s.basePath, s.replicas, s.peerTimeout⟩

/-- Reads the URL of a node; only `http` and `https` will do. -/
def parseHttpUrl (addr : String) : Except CacheError Url :=
  match Url.parse addr with
  | .error e => .error (.configuration ("invalid peer url " ++ addr ++ ": " ++ e.message))
  | .ok u =>
    if u.scheme = "http" ∨ u.scheme = "https" then .ok u
    else .error (.configuration ("unsupported scheme " ++ u.scheme ++ " in " ++ addr))

/-- Refuses settings with which no cluster can work. -/
def validate (s : Settings) : Except CacheError Unit := do
  if s.group = "" then throw (.configuration "group name is empty")
  if s.replicas = 0 then throw (.configuration "replicas must be at least 1")
  if !Peer.isValidBasePath s.basePath then
    throw (.configuration (Peer.basePathRefusal s.basePath))
  if s.peerAddrs = [] then throw (.configuration "peer list is empty")
  s.peerAddrs.forM fun peer => do
    let _ ← parseHttpUrl peer
  let _ ← parseHttpUrl s.selfAddr
  if s.selfAddr ∉ s.peerAddrs then
    throw (.configuration (s.selfAddr ++ " is not in the peer list "
      ++ Text.quotedList s.peerAddrs))

/-- Where the socket of the peer endpoint comes from. -/
inductive Binding where
  | socket (a : Net.SocketAddr)
  /-- The host is a name that has to be looked up first. -/
  | resolve (host : String) (port : Nat)
deriving DecidableEq, Repr

/-- The binding for the text of a host. What does not spell an IP address is taken for a name. -/
def Binding.ofHost (host : String) (port : Nat) : Binding :=
  match Net.SocketAddr.ofHost? host port with
  | some a => .socket a
  | none => .resolve host port

/-- The socket of the peer endpoint: the one given, or the host and port of the node's own
address. -/
def bindAddr (s : Settings) : Except CacheError Binding := do
  match s.bind with
  | some a => pure (.socket a)
  | none =>
    let url ← parseHttpUrl s.selfAddr
    match url.host?, url.port? with
    | none, _ => throw (.configuration ("no host in " ++ s.addr))
    | _, none => throw (.configuration ("no port in " ++ s.addr))
    -- The host is taken as it is written, brackets included.
    | some host, some port => pure (.ofHost host.render port)

end Settings

end PeerCache
