import Chronos.Interleaving.Program
import Chronos.Types

/-! Requests to the metadata store that may fail. -/

namespace Chronos

open Interleaving

def orInternal {S : Signature} {α : Type} (context : String)
    (request : Prog S TsoError (Except String α)) : Prog S TsoError α := do
  match ← request with
  | .ok x => return x
  | .error message => .fail (.internal (context ++ ": " ++ message))

end Chronos
