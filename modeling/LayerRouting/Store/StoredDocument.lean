import LayerRouting.Json.Parser
import LayerRouting.Json.Printer
import LayerRouting.Override.Codec
import LayerRouting.Store.Basic
import LayerRouting.Time.Reading

/-!
# Documents as stored

The form in which a document stands in its file: an object with the version of the form,
the time of the last write, the defaults and the log. It is read straight from the
written text. Members that the form does not know are skipped, whatever they hold. A
member that it knows must not be repeated, and the same holds of the members of an op.
-/

namespace LayerRouting

/-- A document with what is stored beside it. -/
structure StoredDocument where
  version : Nat
  updatedAt : Timestamp
  document : Document Json
  deriving DecidableEq, Repr

namespace Written

/-- The number of entries with a key. -/
def occurrences (key : String) (entries : List (Option String × Written)) : Nat :=
  entries.countP fun entry => entry.1 = some key

/-- The value of the only entry with a key. -/
def member? (key : String) (entries : List (Option String × Written)) : Option Written :=
  (entries.find? fun entry => entry.1 = some key).map Prod.snd

/-- Whether every key is text and none of the known ones is repeated. -/
def hasDistinctKeys (known : List String) (entries : List (Option String × Written)) : Bool :=
  entries.all (fun entry => entry.1.isSome)
    && known.all fun key => occurrences key entries ≤ 1

/-- The members of an op that must not be repeated: all that its kind knows. -/
def opMembers (entries : List (Option String × Written)) : List String :=
  match member? "op" entries with
  | some (.string (some kind)) =>
      if kind = Op.setKind then ["op", "opId", "path", "value"] else ["op", "opId", "path"]
  | _ => ["op", "opId", "path"]

/-- An op as written, within a number of levels. -/
def op? (levels : Nat) (written : Written) : Option Op :=
  let distinct :=
    match written with
    | .object entries => hasDistinctKeys (opMembers entries) entries
    | _ => true
  if distinct then (written.valueWithin levels).bind Op.ofJson? else none

/-- A log as written. Its array is one of the levels. -/
def log? (levels : Nat) : Written -> Option Log
  | .array items =>
      match levels with
      | 0 => none
      | inner + 1 => items.mapM (op? inner)
  | _ => none

/-- A version number as written, of 32 bits. -/
def version? : Written -> Option Nat
  | .number (some (.int value)) =>
      if 0 ≤ value.val ∧ value.val < 0x100000000 then some value.val.toNat else none
  | _ => none

/-- A timestamp as written. -/
def timestamp? : Written -> Option Timestamp
  | .string (some text) => Timestamp.ofText? text
  | _ => none

end Written

namespace StoredDocument

/-- The names of the members in order. -/
def memberNames : List String := ["schemaVersion", "updatedAt", "defaults", "overrides"]

/-- A stored document as a tree. -/
def toJson (stored : StoredDocument) : Json :=
  .object [("schemaVersion", Json.ofNat stored.version),
    ("updatedAt", .string stored.updatedAt.text),
    ("defaults", stored.document.defaults),
    ("overrides", stored.document.log.toJson)]

/-- The contents of a stored document's file. -/
def toContent (stored : StoredDocument) : Content :=
  Content.ofChars (stored.toJson.indented 0)

/-- The levels that a member may nest, since the document itself is one. -/
def memberDepth : Nat := Written.greatestDepth - 1

/-- The stored document of its members; a log that is left out is empty. -/
def ofMembers? (version updatedAt defaults : Written) (log : Option Written) :
    Option StoredDocument := do
  let version ← version.version?
  let updatedAt ← updatedAt.timestamp?
  let defaults ← defaults.valueWithin memberDepth
  let log ←
    match log with
    | none => some []
    | some written => written.log? memberDepth
  some { version, updatedAt, document := { defaults, log } }

/-- The stored document that is written, as an object or as an array of its members. -/
def ofWritten? : Written -> Option StoredDocument
  | .object entries =>
      if Written.hasDistinctKeys memberNames entries then do
        let version ← Written.member? "schemaVersion" entries
        let updatedAt ← Written.member? "updatedAt" entries
        let defaults ← Written.member? "defaults" entries
        ofMembers? version updatedAt defaults (Written.member? "overrides" entries)
      else none
  | .array [version, updatedAt, defaults] => ofMembers? version updatedAt defaults none
  | .array [version, updatedAt, defaults, log] => ofMembers? version updatedAt defaults (some log)
  | _ => none

/-- The stored document that a file's contents are. -/
def ofContent? (content : Content) : Option StoredDocument :=
  (Written.parse? content).bind ofWritten?

end StoredDocument

end LayerRouting
