import ClassAtlas.Json.Printer
import ClassAtlas.Json.Tagged
/-!
# Wire messages

What the server and its clients say to each other. Every message is a JSON object with the name of
an event and its data.
-/
namespace ClassAtlas.Live

/-- What the server sends. Mirrors `ServerMessage`. -/
inductive ServerMessage where
  /-- The text of the current diagram. -/
  | diagram (text : String)
  | error (message : String)
deriving BEq, DecidableEq, Repr, Inhabited

/-- What a client sends. Mirrors `ClientMessage`. -/
inductive ClientMessage where
  /-- Asks to be put into a room. -/
  | join (session : String)
deriving BEq, DecidableEq, Repr, Inhabited

/-- An event with its data. -/
def eventJson (event : String) (data : Json) : Json :=
  .object [("event", .string event), ("data", data)]

namespace ServerMessage

def kind : ServerMessage → String
  | .diagram _ => "uml_update"
  | .error _ => "error"

def toJson (m : ServerMessage) : Json :=
  eventJson m.kind (match m with
    | .diagram text => .string text
    | .error message => .object [("message", .string message)])

/-- The text that goes over the wire. -/
def wire (m : ServerMessage) : String := m.toJson.toText

def shape : Json.Reader.Tagged ServerMessage :=
  { name := "ServerMessage"
    variants := [Json.Reader.stringVariant "uml_update" .diagram,
      Json.Reader.recordVariant "error" "struct variant ServerMessage::Error" "message" .error] }

/-- The message of a text from the wire. -/
def ofWire (text : String) : Except Json.Fault ServerMessage := shape.ofText text

end ServerMessage

namespace ClientMessage

def toJson : ClientMessage → Json
  | .join session => eventJson "join-session" (.string session)

/-- The text that goes over the wire. -/
def wire (m : ClientMessage) : String := m.toJson.toText

def shape : Json.Reader.Tagged ClientMessage :=
  { name := "ClientMessage", variants := [Json.Reader.stringVariant "join-session" .join] }

/-- The message of a text from the wire. -/
def ofWire (text : String) : Except Json.Fault ClientMessage := shape.ofText text

end ClientMessage
end ClassAtlas.Live
