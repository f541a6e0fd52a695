import Colloquy.Backend.Basic

/-!
# Colloquy — exchanges with servers

A request is sent over a transport, which brings back a status and a text, or tells
that no reply came in time or that the connection failed. Only a status of success
with a JSON body that holds no error is a reply.

* `statusError` — the error of a status that is no success.
* `bodyOf` — the body of an arrival, or why there is none.
* `exchange` — send a request and take the body of the reply.
-/

namespace Colloquy

/-- What comes back from a server. -/
inductive Arrival where
  | answer (status : Nat) (text : String)
  | timedOut
  | broken (cause : Cause)
  deriving DecidableEq, Repr

/-- A way to send a body to an address. -/
structure Transport (σ : Type) where
  post : String → Headers → Duration → Json → Act σ Arrival

/-- The wait in milliseconds that a body asks for, held within 64 bits. -/
def retryAfterMs? (text : String) : Option Nat :=
  (((((Json.parse? text).bind (Json.field? "error")).bind (Json.field? "retry_after")).bind
    Json.asBinary64?).map fun seconds =>
      (seconds.mul (Binary64.ofNat 1000)).toNatClamped greatestCount)

/-- The error of a status. -/
def statusError (status : Nat) (text : String) : Error :=
  if status = 401 ∨ status = 403 then .authentication text
  else if status = 429 then .rateLimited (retryAfterMs? text)
  else .api status text

/-- The text of an error that a body holds. -/
def errorText (e : Json) : String :=
  ((e.field? "message").bind Json.asStr?).getD e.render

/-- The body, unless it holds an error. -/
def acceptBody (backend : String) (body : Json) : Except Error Json :=
  match body.field? "error" with
  | none | some .null => .ok body
  | some e => .error (.vendorProtocol backend (errorText e) (some body))

/-- Statuses of success. -/
def isSuccess (status : Nat) : Bool :=
  200 ≤ status && status < 300

/-- The body of the reply that an arrival brings, if it came within a wait. -/
def bodyOf (backend : String) (wait : Duration) : Arrival → Except Error Json
  | .answer status text =>
    if isSuccess status then
      match Json.parse? text with
      | some body => acceptBody backend body
      | none => .error (.network "the reply is no JSON")
    else .error (statusError status text)
  | .timedOut => .error (.timeout (wait.millis % pow2 64))
  | .broken cause => .error (.network cause)

/-- Send a request and take the body of the reply. -/
def exchange {σ : Type} (transport : Transport σ) (backend : String) (client : Client)
    (request : VendorRequest) : Act σ Json := do
  let arrival ←
    transport.post (client.endpoint request.path) client.headers client.timeout request.body
  Act.ofExcept (bodyOf backend client.timeout arrival)

end Colloquy
