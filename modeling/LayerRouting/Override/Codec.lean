import LayerRouting.Json.Record
import LayerRouting.Override.Resolution

/-!
# Documents in trees

How paths, ops and documents are written as trees and read back. A path is an array in
which a text is a key and a number an index. An op is an object whose member `op` names
its kind; it is also read from an array that holds the kind and then the members.
-/

namespace LayerRouting

namespace Segment

/-- A segment as a tree. -/
def toJson : Segment -> Json
  | .key name => .string name
  | .index position => Json.int (WordInt.ofUInt64 position)

/-- The segment that a tree is. -/
def ofJson? : Json -> Option Segment
  | .string name => some (.key name)
  | .number (.int value) => value.toUInt64?.map .index
  | _ => none

end Segment

namespace Path

/-- A path as a tree. -/
def toJson (path : Path) : Json :=
  Json.ofList Segment.toJson path

/-- The path that a tree is. -/
def ofJson? (tree : Json) : Option Path :=
  Json.readItems? Segment.ofJson? tree

end Path

namespace Op

/-- The word for an op that sets. -/
def setKind : String := "set"

/-- The word for an op that deletes. -/
def deleteKind : String := "delete"

/-- An op as a tree. -/
def toJson : Op -> Json
  | .set id path value =>
      .object [("op", .string setKind), ("opId", .string id), ("path", path.toJson),
        ("value", value)]
  | .delete id path =>
      .object [("op", .string deleteKind), ("opId", .string id), ("path", path.toJson)]

/-- An op of a kind from its members. -/
def ofMembers? (kind : String) (record : Record) : Option Op := do
  let id ← record.required? "opId" Json.asString?
  let path ← record.required? "path" Path.ofJson?
  if kind = setKind then
    let value ← record.required? "value" some
    some (.set id path value)
  else if kind = deleteKind then some (.delete id path)
  else none

/-- The op that a tree is. -/
def ofJson? : Json -> Option Op
  | .object entries => do
      let kind ← Record.required? entries "op" Json.asString?
      ofMembers? kind entries
  | .array [.string kind, id, path, value] =>
      if kind = setKind then ofMembers? kind [("opId", id), ("path", path), ("value", value)]
      else none
  | .array [.string kind, id, path] =>
      if kind = deleteKind then ofMembers? kind [("opId", id), ("path", path)] else none
  | _ => none

end Op

namespace Log

/-- A log as a tree. -/
def toJson (log : Log) : Json :=
  Json.ofList Op.toJson log

/-- The log that a tree is. -/
def ofJson? (tree : Json) : Option Log :=
  Json.readItems? Op.ofJson? tree

end Log

namespace Document

variable {α β : Type}

/-- The names of a document's members in order. -/
def memberNames : List String := ["defaults", "overrides"]

/-- A document as a tree. -/
def toJson (write : α -> Json) (document : Document α) : Json :=
  .object [("defaults", write document.defaults), ("overrides", document.log.toJson)]

/-- The document that a tree is; a log that is left out is empty. -/
def ofJson? (read? : Json -> Option α) (tree : Json) : Option (Document α) := do
  let record ← Record.ofTree? memberNames tree
  let defaults ← record.required? "defaults" read?
  let log ← record.defaulted? "overrides" [] Log.ofJson?
  some { defaults, log }

/-- The document with its defaults written as a tree. -/
def untyped (write : α -> Json) (document : Document α) : Document Json :=
  { defaults := write document.defaults, log := document.log }

/-- The resolved tree read back as the type of the defaults. -/
def resolvedAs? (write : α -> Json) (read? : Json -> Option α) (document : Document α) :
    Option α :=
  read? (document.untyped write).resolved

end Document

end LayerRouting
