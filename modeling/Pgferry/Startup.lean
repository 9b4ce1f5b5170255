/-
  The opening of a connection: `run_session` and the refusals of `run_session_ready`.

  The first message of a client is a startup packet or, on a connection of its own, a cancel
  request. A packet of protocol 3 is accepted, with a `NegotiateProtocolVersion` when it asks for a
  newer minor version; replication and a missing user are refused. What follows is
  `finish_authentication` of the wire library, which is handed the parameters and the virtual key.
-/
import Pgferry.Cancel
import Pgferry.Intercept

namespace Pgferry

structure Startup where
  protocolNumberMajor : Nat
  protocolNumberMinor : Nat
  parameters : Params

/-- What comes first on an accepted connection. A TLS negotiation that fails closes it too. -/
inductive FirstMessage where
  | startup (packet : Startup)
  | cancelRequest (key : CancelKey)
  /-- Another message, with its debug text. -/
  | other (shown : String)
  | undecodable
  | closed

/-- What the proxy itself sends before the pump or the console runs. -/
inductive Greeting where
  | negotiateProtocolVersion (newestMinor : Nat) (unrecognized : List String)
  | error (info : ErrorInfo)
  deriving DecidableEq, Repr

/-- `send_fatal`. -/
def sendFatal (code message : String) : Greeting :=
  .error { severity := "FATAL", code := code, message := message }

namespace Startup

/-- `SessionParams::from_startup`. -/
def params (packet : Startup) : SessionParams where
  user := (packet.parameters.lookup "user").getD ""
  database := packet.parameters.lookup "database"

/-- The `replication` field of `SessionParams`. -/
def replication (packet : Startup) : Bool :=
  match packet.parameters.lookup "replication" with
  | some v => v == "1" || v == "true" || v == "database" || v == "on"
  | none => false

/-- The protocol version policy: 3.0 downstream, newer minor versions are negotiated down. -/
def negotiates (packet : Startup) : Except Greeting (List Greeting) :=
  if packet.protocolNumberMajor = 3 then
    if packet.protocolNumberMinor = 0 then .ok []
    else .ok [.negotiateProtocolVersion 0 []]
  else
    .error (sendFatal "08P01" ("pgferry: unsupported protocol version " ++
      toString packet.protocolNumberMajor ++ "." ++ toString packet.protocolNumberMinor))

/-- What `run_session_ready` refuses. -/
def refusal (packet : Startup) : Option Greeting :=
  if packet.replication then
    some (sendFatal "0A000" "pgferry: replication connections are not supported")
  else if packet.params.user = "" then
    some (sendFatal "28000" "pgferry: no user specified in startup packet")
  else none

/-- What is sent for the packet, and whether the session goes on. -/
def admits (packet : Startup) : Except (List Greeting) (List Greeting) :=
  match packet.negotiates with
  | .error greeting => .error [greeting]
  | .ok sent =>
      match packet.refusal with
      | some greeting => .error (sent ++ [greeting])
      | none => .ok sent

end Startup

/-- `admin_parameters`. -/
def adminParameters : Params :=
  ([⟨"server_version", "pgferry-0.1.0"⟩, ⟨"server_encoding", "UTF8"⟩, ⟨"client_encoding", "UTF8"⟩,
    ⟨"DateStyle", "ISO, MDY"⟩, ⟨"integer_datetimes", "on"⟩, ⟨"standard_conforming_strings", "on"⟩,
    ⟨"is_superuser", "on"⟩] : List (Σ _ : String, String)).toAList

end Pgferry
