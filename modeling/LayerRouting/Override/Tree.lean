import LayerRouting.Json.Basic
import LayerRouting.Override.Path

/-!
# Places in a tree

Looking up, setting and deleting the value at a path. A segment is a key where it meets
an object and an index where it meets an array. Setting makes the containers that it
needs: an array grows with nulls, and whatever cannot hold the segment is replaced by an
empty container of the segment's kind. Deleting changes nothing where nothing is found.
-/

namespace LayerRouting

namespace Json

/-- The value at one segment. -/
def child? (tree : Json) (segment : Segment) : Option Json :=
  match tree with
  | .object entries => Entries.get? segment.asKey entries
  | .array items => segment.asIndex?.bind fun position => items[position]?
  | _ => none

/-- The value at a path. -/
def lookup? (tree : Json) : Path -> Option Json
  | [] => some tree
  | segment :: rest => (tree.child? segment).bind fun child => child.lookup? rest

/-- The empty container of a segment's kind. -/
def emptyFor : Segment -> Json
  | .key _ => .object []
  | .index _ => .array []

/-- The tree itself if it can hold a value at a segment, else an empty container. -/
def containerFor (segment : Segment) (tree : Json) : Json :=
  match tree with
  | .object _ => tree
  | .array _ => if segment.asIndex?.isSome then tree else emptyFor segment
  | _ => emptyFor segment

/-- Sets the item at a position, with nulls up to it. -/
def setItem (items : List Json) (position : Nat) (value : Json) : List Json :=
  (items ++ List.replicate (position + 1 - items.length) null).set position value

/-- Sets the value at one segment of a container that can hold it. -/
def setChild (tree : Json) (segment : Segment) (value : Json) : Json :=
  match tree with
  | .object entries => .object (Entries.insert segment.asKey value entries)
  | .array items =>
      match segment.asIndex? with
      | some position => .array (setItem items position value)
      | none => tree
  | _ => tree

/-- Sets the value at a path, making the containers on the way. -/
def setAt (tree : Json) (path : Path) (value : Json) : Json :=
  match path with
  | [] => value
  | segment :: rest =>
      let holder := tree.containerFor segment
      holder.setChild segment (((holder.child? segment).getD .null).setAt rest value)

/-- Removes the value at one segment; none if there is none. -/
def removeChild? (tree : Json) (segment : Segment) : Option Json :=
  match tree with
  | .object entries =>
      if (Entries.get? segment.asKey entries).isSome then
        some (.object (Entries.erase segment.asKey entries))
      else none
  | .array items =>
      match segment.asIndex? with
      | some position =>
          if position < items.length then some (.array (items.eraseIdx position)) else none
      | none => none
  | _ => none

/-- Removes the value at a path; none if there is none. The root becomes null. -/
def deleteAt? (tree : Json) : Path -> Option Json
  | [] => some .null
  | [segment] => tree.removeChild? segment
  | segment :: rest =>
      match tree.child? segment with
      | some child => (child.deleteAt? rest).map (tree.setChild segment)
      | none => none

end Json

end LayerRouting
