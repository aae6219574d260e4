import LayerRouting.Store.Basic

/-!
# The store in memory

Documents by owner, kept for as long as the program runs. Any text is an owner.
-/

namespace LayerRouting

/-- Documents by owner. -/
structure MemoryStore where
  documents : List (String × Document Json)
  deriving DecidableEq, Repr

namespace MemoryStore

/-- The store without documents. -/
def empty : MemoryStore := ⟨[]⟩

/-- Puts a document in place of the one that an owner has. -/
def insert (store : MemoryStore) (owner : String) (document : Document Json) : MemoryStore :=
  ⟨Entries.insert owner document store.documents⟩

/-- The document of an owner. -/
def load (store : MemoryStore) (owner : String) : Except StoreError (Document Json) :=
  match Entries.get? owner store.documents with
  | some document => .ok document
  | none => .error (.notFound owner)

/-- Replaces the log of an owner's document. -/
def save (store : MemoryStore) (owner : String) (log : Log) :
    Except StoreError Unit × MemoryStore :=
  match Entries.get? owner store.documents with
  | some document => (.ok (), store.insert owner { document with log })
  | none => (.error (.notFound owner), store)

instance : DocumentStore MemoryStore where
  load := load
  save := save

end MemoryStore

end LayerRouting
