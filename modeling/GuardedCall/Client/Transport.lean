-- Transports: how a call gets from a client to a server and back.
import GuardedCall.Client.Reply
import GuardedCall.Router.Basic

namespace GuardedCall

variable {σ τ ε : Type}

/-- A way to call the procedure at a path, on a state of `τ`. -/
structure Transport (τ : Type) where
  call : String → Json → Attempt τ ClientFault Json

/-! ## Serving -/

def serverEvent (message : String) (fields : List (String × String)) : LogEvent :=
  ⟨.debug, "typeadapt_client::envelope", message, fields⟩

/-- The reply to a call of a router. -/
def Router.reply (r : Router σ) (path : String) (v : Json) : Attempt σ ε Reply := do
  match ← (r.call path v).attempt with
  | .ok w => return .ok w
  | .error f =>
    .log (serverEvent "call failed" [("path", path), ("kind", f.kind.name)])
    return .error f.kind f.message

/-- The server's part of a call: reads the request, calls the procedure and
writes the reply. What goes wrong is part of the reply. -/
def Router.serve (r : Router σ) (path : String) (request : List UInt8) :
    Attempt σ ε (List UInt8) := do
  match Json.readBytes request with
  | .ok v => return (← r.reply path v).bytes
  | .error m => return (Reply.error .invalidInput ("request is not valid JSON: " ++ m)).bytes

/-! ## Two transports -/

/-- What the transport within one process logs. -/
def loopbackEvent (message path : String) (bytes : List UInt8) : LogEvent :=
  ⟨.trace, "typeadapt_client::transport", message,
    [("path", path), ("bytes", toString bytes.length)]⟩

/-- The transport to a router in the same process. Requests and replies are
written and read as on a wire. -/
def loopback (r : Router σ) : Transport σ where
  call path v := do
    let request := v.bytes
    .log (loopbackEvent "loopback request" path request)
    let response ← r.serve path request
    .log (loopbackEvent "loopback reply" path response)
    .ofExcept (Reply.ofBytes response >>= Reply.result)

/-- The calls that were sent, in order. -/
abbrev Sent := List (String × Json)

/-- What a transport without a server answers. -/
inductive Answer where
  /-- How many calls were sent. -/
  | count
  /-- The argument. -/
  | echo
  /-- A failure to deliver. -/
  | failure (message : String)
  | value (v : Json)
  /-- What the text of a reply says. -/
  | reply (text : String)

/-- What is answered to a call, the last one of those sent. -/
def Answer.give (a : Answer) (sent : Sent) (v : Json) : Except ClientFault Json :=
  match a with
  | .count => .ok (Json.whole sent.length)
  | .echo => .ok v
  | .failure m => .error (.transport m)
  | .value w => .ok w
  | .reply text => Reply.ofText text.toList >>= Reply.result

/-- The transport that notes every call and gives one kind of answer. -/
def recording (a : Answer) : Transport Sent where
  call path v := .change fun sent =>
    let sent := sent ++ [(path, v)]
    (a.give sent v, sent)

end GuardedCall
