import LayerRouting.Override.Op
import LayerRouting.Override.Tree

/-!
# Resolution

The tree that a log makes of the defaults: its ops apply one after the other. Every log
gives a tree. An op is unused when it deletes a path at which nothing is found.
-/

namespace LayerRouting

namespace Op

/-- The tree after the op. -/
def apply (op : Op) (tree : Json) : Json :=
  match op with
  | .set _ path value => tree.setAt path value
  | .delete _ path => (tree.deleteAt? path).getD tree

/-- Whether the op finds something to do; only a delete can fail to. -/
def isEffective (op : Op) (tree : Json) : Bool :=
  match op with
  | .set _ _ _ => true
  | .delete _ path => (tree.deleteAt? path).isSome

end Op

namespace Log

/-- The tree after all ops. -/
def resolve (log : Log) (defaults : Json) : Json :=
  log.foldl (fun tree op => op.apply tree) defaults

/-- The ids of the ops that do nothing when their turn comes, in log order. -/
def unusedIds : Log -> Json -> List String
  | [], _ => []
  | op :: rest, tree =>
      let later := unusedIds rest (op.apply tree)
      if op.isEffective tree then later else op.id :: later

end Log

namespace Document

/-- The tree that a document's log makes of its defaults. -/
def resolved (document : Document Json) : Json :=
  document.log.resolve document.defaults

end Document

end LayerRouting
