import LayerRouting.Number.Layout
import LayerRouting.Text.Basic

/-!
# Paths into a configuration tree

A path is a list of segments, each a key of an object or an index of an array. A segment
can serve as either: its key is its text, and its index is what its text reads as. In
dotted text the segments stand between dots, and a segment of digits is an index.
-/

namespace LayerRouting

/-- One step of a path. -/
inductive Segment where
  | key (name : String)
  | index (position : UInt64)
  deriving DecidableEq, Repr

namespace Segment

/-- The first index that is too large. -/
def indexLimit : Nat := 0x10000000000000000

/-- The segment as a key of an object; an index gives its digits. -/
def asKey : Segment -> String
  | .key name => name
  | .index position => String.ofList (decimalDigits position.toNat)

/-- The segment as an index of an array; a key gives the number that it reads as. -/
def asIndex? : Segment -> Option Nat
  | .key name => Text.unsigned? indexLimit name.toList
  | .index position => some position.toNat

/-- Whether two segments have the same text, whatever their kinds. -/
def Matches (left right : Segment) : Prop :=
  left.asKey = right.asKey

instance (left right : Segment) : Decidable (Matches left right) :=
  inferInstanceAs (Decidable (left.asKey = right.asKey))

/-- The segment of a part of dotted text. -/
def ofPart (part : List Char) : Segment :=
  match (Text.natural? part).filter (· < indexLimit) with
  | some position => .index (UInt64.ofNat position)
  | none => .key (String.ofList part)

end Segment

/-- The place of a value in a tree; the empty path is the root. -/
abbrev Path := List Segment

namespace Path

/-- The path of a dotted text; the empty text is the root. -/
def parse (dotted : String) : Path :=
  if dotted.toList = [] then [] else (Text.parts '.' dotted.toList).map Segment.ofPart

/-- The dotted text of a path. -/
def text (path : Path) : String :=
  String.intercalate "." (path.map Segment.asKey)

/-- The path of one item of a keyed collection. -/
def item (id : String) : Path :=
  [.key id]

/-- The key of the first segment, which for a keyed collection is the item's id. -/
def firstKey? (path : Path) : Option String :=
  path.head?.map Segment.asKey

/-- What is left of a path below an ancestor, or none if it is not below it. -/
def relativeTo? (path ancestor : Path) : Option Path :=
  match ancestor, path with
  | [], rest => some rest
  | _ :: _, [] => none
  | outer :: ancestor, inner :: path =>
      if outer.Matches inner then relativeTo? path ancestor else none

/-- Whether a path is an ancestor or the path itself. -/
def isWithin (path ancestor : Path) : Bool :=
  (relativeTo? path ancestor).isSome

/-- The path with its first segment replaced; the root becomes that segment. -/
def withFirst (segment : Segment) : Path -> Path
  | [] => [segment]
  | _ :: rest => segment :: rest

end Path

end LayerRouting
