import Mathlib.Logic.Basic

/-!
# Server errors

The error type of `src/errors.rs` and the code and text a client sees for each
error.  Internals stay in the server's log.
-/

namespace VaultCrdtServer

/-- `ServerError` -/
inductive ServerError
  | db (reason : String)
  | migration (reason : String)
  | auth (message : String)
  | tooManyRequests
  | jwt (reason : String)
  | badFrame (message : String)
  | sync (message : String)
  | io (reason : String)
  deriving DecidableEq, Repr

/-- `client_facing`: stable code and client-safe text. -/
def ServerError.clientFacing : ServerError → String × String
  | .badFrame _ => ("bad_frame", "message could not be decoded")
  | .sync _ =>
      ("sync_failed", "document could not be processed — not synced")
  | .db _ | .migration _ =>
      ("storage_error", "server storage error — not synced")
  | _ => ("internal", "internal server error")

/-- Status code of the response an error is turned into. -/
def ServerError.status : ServerError → Nat
  | .auth _ | .jwt _ => 401
  | .tooManyRequests => 429
  | _ => 500

end VaultCrdtServer
