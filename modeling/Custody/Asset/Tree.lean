import Custody.Store

/-!
The tree of nodes. A path names a node and, cut at its last slash again and again, the ancestors
that have to exist before it.
-/
namespace Custody.Node

/-- The path without blanks around it and slashes at its end; under the organisation's root unless
it starts with a slash. -/
def pathChars (path org : List Char) : List Char :=
  let trimmed := Text.dropEndWhile (· = '/') (Text.trimChars path)
  match trimmed with
  | '/' :: _ => trimmed
  | _ => '/' :: org ++ '/' :: trimmed

def pathUnder (org path : String) : String := .ofList (pathChars path.toList org.toList)

def parentChars (path : List Char) : Option (List Char) :=
  match Text.cutLast '/' path with
  | some (p :: ps, _) => some (p :: ps)
  | _ => none

theorem length_lt_of_parentChars {path parent : List Char} (h : parentChars path = some parent) :
    parent.length < path.length := by
  unfold parentChars at h
  split at h
  · next hc => cases h; exact Text.length_lt_of_cutLast hc
  · cases h

def ancestors (path : List Char) : List (List Char) :=
  match h : parentChars path with
  | none => []
  | some parent =>
    have := length_lt_of_parentChars h
    parent :: ancestors parent
termination_by path.length

variable {σ : Type} [Store σ]

def ensureBelow : List (List Char) → List Char → Run σ Node
  | above, path => do
    let fullValue := String.ofList path
    match ← Run.ask fun s : σ => Store.node? s fullValue with
    | some node => return node
    | none =>
      let parentId ← match above with
        | [] => pure none
        | parent :: rest => (fun n : Node => some n.id) <$> ensureBelow rest parent
      let node : Node := ⟨(← Run.draw).id, fullValue, parentId⟩
      Run.write (Store.insertNode node)
      return node

def ensure (fullValue : String) : Run σ Node :=
  let path := fullValue.toList
  ensureBelow (ancestors path) path

end Custody.Node
