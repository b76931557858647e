import NetixBackend.Python.Json

/-!
ASGI messages, and the replies the request ceiling sends on the app's behalf.

Byte strings are given by their text. An error renderer is any function that
turns a status and a message into the two messages of a complete response; the
structure carries that promise, and the package's two renderers are instances
of it.
-/

namespace NetixBackend.Asgi

open Python

structure Scope where
  type : String
  method : Option String := none
  path : String := ""
  headers : List (String × String) := []

inductive Message
  | start (status : ℤ) (headers : List (String × String))
  | body (body : String) (moreBody : Bool)
  /-- Any other message type, such as an early hint. -/
  | other (type : String)
  deriving DecidableEq, Repr

def Message.isStart : Message → Bool
  | .start .. => true
  | _ => false

def Message.isBody : Message → Bool
  | .body .. => true
  | _ => false

/-- `ErrorRenderer`: a complete response with the given status. -/
structure ErrorRenderer where
  render : ℤ → String → Scope → Option ℤ → Message × Message
  start : ∀ status message scope retryAfter,
    ∃ headers, (render status message scope retryAfter).1 = .start status headers
  body : ∀ status message scope retryAfter,
    ∃ text, (render status message scope retryAfter).2 = .body text false

/-- The CORS settings a project may configure. -/
structure Settings where
  corsAllowAllOrigins : Bool := false
  corsAllowedOrigins : List String := []
  corsAllowCredentials : Bool := false

def retryAfterHeaders : Option ℤ → List (String × String)
  | none => []
  | some seconds => [("retry-after", toString seconds)]

def textMessages : ErrorRenderer where
  render status message _ retryAfter :=
    (.start status ([("content-type", "text/plain; charset=utf-8")] ++ retryAfterHeaders retryAfter),
      .body message false)
  start _ _ _ _ := ⟨_, rfl⟩
  body _ _ _ _ := ⟨_, rfl⟩

end NetixBackend.Asgi
