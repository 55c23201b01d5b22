import ClassAtlas.Live.Hub
import ClassAtlas.Pipeline.Basic
/-!
# The service

A pipeline and the clients that follow it. Every report of a pass goes to everybody who is
connected. A client that attaches first gets the diagram that is current, if there is one, and then
asks for a pass; after that it may join rooms.
-/
namespace ClassAtlas.Live

/-- Mirrors `ServerState`. -/
structure Service where
  pipeline : Pipeline
  hub : Hub
deriving BEq, DecidableEq, Repr, Inhabited

/-- What a client can send over its socket. -/
inductive Frame where
  | text (s : String)
  | binary (content : ByteArray)
  | ping (content : ByteArray)
  | close
deriving Inhabited

/-- Sends a report to everybody. Mirrors the `DiagramSink` of `Broadcaster`. -/
def Hub.announce (h : Hub) : Report → Hub
  | .updated s => (h.broadcastDiagram s).2
  | .failed message => (h.broadcast (.error message)).2

namespace Service

/-- A service whose pipeline has made its initial pass. -/
def start (descriptor : FilePath) (config : PipelineConfig) (disk : Files.Disk) :
    List Report × Service :=
  let (reports, pipeline) := Pipeline.start descriptor config disk
  (reports, ⟨pipeline, reports.foldl Hub.announce Hub.empty⟩)

def current (s : Service) : Diagram.Snapshot := s.pipeline.current

def run (s : Service) : Service := { s with pipeline := s.pipeline.run }

def stop (s : Service) : Service := { s with pipeline := s.pipeline.stop }

/-- Queues a trigger; false if the pipeline is stopped. -/
def trigger (s : Service) (t : Trigger) : Bool × Service :=
  let (accepted, pipeline) := s.pipeline.accept t
  (accepted, { s with pipeline })

/-- Hands changed files on to the pipeline, up to the first that is refused; false if one is.
Mirrors `process_events`. -/
def filesChanged (s : Service) : List FilePath → Bool × Service
  | [] => (true, s)
  | p :: ps =>
    match s.trigger (.fileChanged p) with
    | (true, s) => s.filesChanged ps
    | (false, s) => (false, s)

/-- Lets the pipeline work until it has nothing to do, and sends its reports. -/
def settle (s : Service) (disk : Files.Disk) : List Report × Service :=
  let (reports, pipeline) := s.pipeline.settle disk
  (reports, ⟨pipeline, reports.foldl Hub.announce s.hub⟩)

/-- Sends the current diagram to a room. Mirrors `session_diagram`. -/
def pushToRoom (s : Service) (session : String) : Nat × Service :=
  let (n, hub) := s.hub.sendDiagramToRoom session s.current
  (n, { s with hub })

/-! ## Clients -/

/-- A client comes, gets the current diagram and asks for a pass. Mirrors the beginning of
`handle_socket`. -/
def attach (s : Service) : ConnectionId × Service :=
  let (id, hub) := s.hub.connect
  let (_, hub) := hub.sendDiagramTo id s.current
  (id, ({ s with hub }.trigger (.clientAttached id)).2)

/-- Does what a message of a client asks for. Mirrors `handle_client_message`. -/
def obey (s : Service) (id : ConnectionId) : ClientMessage → Service
  | .join session => { s with hub := (s.hub.join id session).2 }

/-- A client goes. Mirrors the end of `handle_socket`. -/
def detach (s : Service) (id : ConnectionId) : Service :=
  { s with hub := s.hub.disconnect id }

/-- Takes a frame of a client: a text that is a message is obeyed, a close ends the connection, and
everything else is passed over. Mirrors the receiving task of `handle_socket`. -/
def onFrame (s : Service) (id : ConnectionId) : Frame → Service
  | .text t =>
    match ClientMessage.ofWire t with
    | .ok m => s.obey id m
    | .error _ => s
  | .binary _ | .ping _ => s
  | .close => s.detach id

/-- The texts that are ready to go out to a client. Mirrors the sending task of `handle_socket`. -/
def outgoing (s : Service) (id : ConnectionId) : List String × Service :=
  let (messages, hub) := s.hub.receiveAll id
  (messages.map ServerMessage.wire, { s with hub })

end Service
end ClassAtlas.Live
