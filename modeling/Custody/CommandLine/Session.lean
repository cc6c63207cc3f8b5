import Custody.CommandLine.Host
import Custody.Error

/-!
Sessions: steps that print lines, use the machine and may fail. What was printed before a failure
stays printed.
-/
namespace Custody.CommandLine

structure Report where
  exit : Nat
  output : String
  errors : String
deriving DecidableEq, Repr

abbrev Session (m : Type → Type) (α : Type) := ExceptT Error (StateT String m) α

section

variable {m : Type → Type} [Monad m]

def say (line : String) : Session m Unit := modify fun printed => printed ++ line ++ "\n"

def sayJson (v : Json.Value) : Session m Unit := say (v.pretty 0)

def check (r : Except Error α) : Session m α := ExceptT.mk (pure r)

variable [Host m]

def ask (a : m α) : Session m α := ExceptT.lift (StateT.lift a)

def onFiles (wording : FileFault → Error) (a : m (Except FileFault α)) : Session m α := do
  check ((← ask a).mapError wording)

def ioError (f : FileFault) : Error := .io f.message

end

end Custody.CommandLine
