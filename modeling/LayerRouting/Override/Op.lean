import LayerRouting.Json.Basic
import LayerRouting.Override.OpId
import LayerRouting.Override.Path

/-!
# Override ops

An op is one recorded edit of a tree: it sets the value at a path or deletes it. A log is
a list of ops that apply in order, and a document is a tree of defaults with a log.
-/

namespace LayerRouting

/-- One recorded edit. -/
inductive Op where
  /-- Sets the value at a path, making the containers on the way. -/
  | set (id : String) (path : Path) (value : Json)
  /-- Deletes what is at a path. -/
  | delete (id : String) (path : Path)
  deriving DecidableEq, Repr

/-- A list of ops in the order in which they apply. -/
abbrev Log := List Op

/-- Defaults, which edits never change, and the log of edits against them. -/
structure Document (α : Type) where
  defaults : α
  log : Log
  deriving DecidableEq, Repr

namespace Op

/-- The id that stays with the op. -/
def id : Op -> String
  | .set id _ _ => id
  | .delete id _ => id

/-- The path that the op edits. -/
def path : Op -> Path
  | .set _ path _ => path
  | .delete _ path => path

/-- Whether the op deletes. -/
def isDelete : Op -> Bool
  | .set _ _ _ => false
  | .delete _ _ => true

/-- The same op at another path, with its id. -/
def withPath (path : Path) : Op -> Op
  | .set id _ value => .set id path value
  | .delete id _ => .delete id path

/-- Whether the op's path is a path, one of its ancestors or one of its descendants. -/
def affects (op : Op) (path : Path) : Bool :=
  op.path.isWithin path || Path.isWithin path op.path

/-- Whether an op touches an item: ops on the root touch every item. -/
def touches (op : Op) (id : String) : Bool :=
  match op.path.firstKey? with
  | none => true
  | some key => key == id

/-- Equality of ops as values: ids and paths agree, and set values are the same. -/
def Same : Op -> Op -> Prop
  | .set id path value, .set id' path' value' => id = id' ∧ path = path' ∧ value.Same value'
  | .delete id path, .delete id' path' => id = id' ∧ path = path'
  | _, _ => False

instance : (left right : Op) -> Decidable (Same left right)
  | .set id path value, .set id' path' value' =>
      inferInstanceAs (Decidable (id = id' ∧ path = path' ∧ value.Same value'))
  | .delete id path, .delete id' path' => inferInstanceAs (Decidable (id = id' ∧ path = path'))
  | .set _ _ _, .delete _ _ => isFalse nofun
  | .delete _ _, .set _ _ _ => isFalse nofun

end Op

namespace Log

/-- Equality of logs as values, op by op. -/
def Same : Log -> Log -> Prop
  | [], [] => True
  | left :: lefts, right :: rights => left.Same right ∧ Same lefts rights
  | _, _ => False

instance decideSame : (left right : Log) -> Decidable (Same left right)
  | [], [] => isTrue trivial
  | left :: lefts, right :: rights =>
      have := decideSame lefts rights
      inferInstanceAs (Decidable (left.Same right ∧ Same lefts rights))
  | [], _ :: _ => isFalse nofun
  | _ :: _, [] => isFalse nofun

end Log

end LayerRouting
