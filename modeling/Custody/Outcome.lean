import Custody.Choice
import Custody.Json.Decoder

/-!
What became of a candidate, alone or as one target of a bulk.
-/
namespace Custody

inductive Outcome where
  | created | updated | skipped
deriving DecidableEq, Repr

namespace Outcome

def wire : Outcome → String
  | created => "created"
  | updated => "updated"
  | skipped => "skipped"

def ofWire? (s : String) : Option Outcome := [created, updated, skipped].find? (·.wire == s)

def changed : Outcome → Bool
  | skipped => false
  | _ => true

def decode : Json.Decoder Outcome :=
  Json.Decode.choice ["created", "updated", "skipped"] ofWire?

end Outcome

namespace Bulk

inductive State where
  | created | updated | skipped | error
deriving DecidableEq, Repr

namespace State

def wire : State → String
  | created => "created"
  | updated => "updated"
  | skipped => "skipped"
  | error => "error"

def ofWire? (s : String) : Option State := [created, updated, skipped, error].find? (·.wire == s)

/-- Higher ranks are reported first. -/
def rank : State → Nat
  | created => 3
  | updated => 2
  | skipped => 1
  | error => 0

def ofOutcome : Outcome → State
  | .created => created
  | .updated => updated
  | .skipped => skipped

def decode : Json.Decoder State :=
  Json.Decode.choice ["created", "updated", "skipped", "error"] ofWire?

end State

structure Entry where
  asset : String
  state : State
  changed : Bool
  account : Option String
  error : Option String
deriving DecidableEq, Repr

namespace Entry

def failed (asset message : String) : Entry := ⟨asset, .error, false, none, some message⟩

def done (asset : String) (outcome : Outcome) (account : String) : Entry :=
  ⟨asset, .ofOutcome outcome, outcome.changed, some account, none⟩

open Json in
def shape : Shape Entry :=
  Entry.mk <$> .required "asset" Decode.text <*> .required "state" State.decode
    <*> .required "changed" Decode.bool <*> .optional "account" Decode.text
    <*> .optional "error" Decode.text

def decode : Json.Decoder Entry := shape.decode "BulkResult"

def toJson (e : Entry) : Json.Value :=
  let given (name : String) : Option String → Json.Object
    | none => []
    | some s => [(name, .text s)]
  .object ([("asset", .text e.asset), ("state", .text e.state.wire), ("changed", .bool e.changed)]
    ++ given "account" e.account ++ given "error" e.error)

end Entry

end Bulk

end Custody
