import Registrar.Routine

/-!
# Requests and responses

A transport sends requests to the registry. Whatever the status, a response is a response; a
transport fails with an error of origin `transport` when the registry cannot be reached. The
direct transport hands every request to the world.
-/

namespace Registrar

/-- What a server answered. -/
structure Response where
  status : Int
  body : Bytes
  deriving DecidableEq, Repr

/-- How to send requests. -/
structure Transport (I : Interface) where
  get : Text → Routine I Response
  post : Text → Bytes → Routine I Response
  close : Routine I Unit

/-! ## Direct exchange -/

namespace Exchange

/-- A request, or the end of the exchange. -/
inductive Call where
  | get (url : Text)
  | post (url : Text) (body : Bytes)
  | close
  deriving DecidableEq, Repr

def interface : Interface where
  Call := Call
  Reply
    | .get _ => Except Failure Response
    | .post _ _ => Except Failure Response
    | .close => Unit

/-- The transport whose calls are made by `call`. -/
def through {I : Interface} (call : (c : Call) → Routine I (interface.Reply c)) : Transport I where
  get url := do Routine.ofExcept (← call (.get url))
  post url body := do Routine.ofExcept (← call (.post url body))
  close := call .close

/-- The transport that hands every call to the world. -/
def direct : Transport interface := through (Routine.await (I := interface))

end Exchange

end Registrar
