import Gruezi.Ha.Runtime
import Gruezi.Lib.Retry
import Gruezi.Rust.Sockets

/-!
# Start-up

What `run_with_status` does before its loop: it binds its socket, for a port that is still
in use after some pauses, and reads the address of its peer.  The listener of the API is
bound in the same way, without pauses.
-/

namespace Gruezi.Ha

open Rust Lib

section Sockets

variable {σ α : Type} (os : SocketOs σ)

def maxAttempts : Nat := 20

def backoff : Duration := .fromMillis 25

end Sockets

end Gruezi.Ha
