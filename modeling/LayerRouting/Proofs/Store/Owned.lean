import LayerRouting.Proofs.Override.Renaming
import LayerRouting.Proofs.Store.Contract
import LayerRouting.Proofs.Time.Timestamps

/-!
# Stores by owner

Besides that documents are loaded and saved, they are started, and a store that notes the time of
a write takes it from a clock (`SessionStore`). What is said here of such a store concerns one
owner at a time: what a start or a save answers, and what is loaded afterwards, is a function of
what was loaded for the owner before, and for all other owners the same is loaded as before
(`OwnedStore`). These functions go by everything in a document but the ids of its ops
(`IgnoresIds`). The store in memory is such a store.
-/

namespace LayerRouting

/-! ## Functions of documents -/

/-- Whether a function of documents treats them alike under all names of their ops, and adds no
op. -/
structure IgnoresIds (change : Document Json -> Except StoreError (Document Json)) : Prop where
  renamed : ∀ names document,
    change (document.renamed names) = (change document).map (Document.renamed names)
  ids : ∀ {document result}, change document = .ok result ->
    ∀ op ∈ result.log, ∃ old ∈ document.log, op.id = old.id

theorem ignoresIds_ok : IgnoresIds .ok where
  renamed _ _ := rfl
  ids made op member := by
    cases made
    exact ⟨op, member, rfl⟩

theorem IgnoresIds.bind {first second : Document Json -> Except StoreError (Document Json)}
    (firstIgnores : IgnoresIds first) (secondIgnores : IgnoresIds second) :
    IgnoresIds fun document => (first document).bind second where
  renamed names document := by
    rw [firstIgnores.renamed]
    cases first document with
    | error error => rfl
    | ok middle => exact secondIgnores.renamed names middle
  ids {document result} made := by
    cases middle : first document with
    | error error =>
        rw [middle] at made
        cases made
    | ok held =>
        rw [middle] at made
        intro op member
        obtain ⟨between, betweenMember, same⟩ := secondIgnores.ids made op member
        obtain ⟨old, oldMember, sameOld⟩ := firstIgnores.ids middle between betweenMember
        exact ⟨old, oldMember, same.trans sameOld⟩

/-! ## Stores and their owners -/

/-- A store in which documents are started, at the times of a clock. -/
class SessionStore (σ : Type) where
  /-- Starts an owner's document, in place of the one that the owner has; gives the document as
  it was started. -/
  start : σ -> String -> Document Json -> Except StoreError (Document Json) × σ
  /-- The store when its clock shows a time. -/
  atTime : σ -> Timestamp -> σ

/-- A store in which owners have to do with their own documents only. -/
class OwnedStore (σ : Type) [DocumentStore σ] [SessionStore σ] where
  /-- Whether the clock of a store shows a time that a clock gives. -/
  IsTimed : σ -> Prop
  /-- The document that a start gives an owner. -/
  started : String -> Document Json -> Except StoreError (Document Json)
  /-- What is loaded of a document that the store was given. -/
  kept : Document Json -> Except StoreError (Document Json)
  started_ignoresIds (owner : String) : IgnoresIds (started owner)
  kept_ignoresIds : IgnoresIds kept
  isTimed_atTime (store : σ) {now : Timestamp} (regular : now.IsRegular) :
    IsTimed (SessionStore.atTime store now)
  /-- The clock changes no document. -/
  load_atTime (store : σ) (now : Timestamp) (owner : String) :
    DocumentStore.load (SessionStore.atTime store now) owner = DocumentStore.load store owner
  /-- A start that does not fail for the file system goes by its owner and the document. -/
  start_own {store after : σ} {owner : String} {document : Document Json}
    {result : Except StoreError (Document Json)} (timed : IsTimed store)
    (start : SessionStore.start store owner document = (result, after))
    (works : ∀ fault, result ≠ .error (.file fault)) :
    result = started owner document
      ∧ DocumentStore.load after owner = (started owner document).bind kept
  /-- A start concerns one owner. -/
  start_other {store after : σ} {owner other : String} {document : Document Json}
    {result : Except StoreError (Document Json)}
    (start : SessionStore.start store owner document = (result, after)) (distinct : other ≠ owner) :
    DocumentStore.load after other = DocumentStore.load store other
  /-- A save that does not fail for the file system goes by the log and by what was loaded. -/
  save_own {store after : σ} {owner : String} {log : Log} {result : Except StoreError Unit}
    (timed : IsTimed store) (save : DocumentStore.save store owner log = (result, after))
    (works : ∀ fault, result ≠ .error (.file fault)) :
    result = (DocumentStore.load store owner).map (fun _ => ())
      ∧ DocumentStore.load after owner
        = (DocumentStore.load store owner).bind fun document => kept { document with log }
  /-- A save concerns one owner. -/
  save_other {store after : σ} {owner other : String} {log : Log} {result : Except StoreError Unit}
    (save : DocumentStore.save store owner log = (result, after)) (distinct : other ≠ owner) :
    DocumentStore.load after other = DocumentStore.load store other

/-- Whether stores with a property never fail for the file system and keep the property. -/
structure NeverFails {σ : Type} [DocumentStore σ] [SessionStore σ] (sound : σ -> Prop) : Prop where
  atTime : ∀ {store : σ}, sound store -> ∀ now, sound (SessionStore.atTime store now)
  load : ∀ {store : σ}, sound store -> ∀ owner fault,
    DocumentStore.load store owner ≠ .error (.file fault)
  start : ∀ {store after : σ} {owner document result}, sound store ->
    SessionStore.start store owner document = (result, after) ->
      (∀ fault, result ≠ .error (.file fault)) ∧ sound after
  save : ∀ {store after : σ} {owner log result}, sound store ->
    DocumentStore.save store owner log = (result, after) ->
      (∀ fault, result ≠ .error (.file fault)) ∧ sound after

/-! ## The store in memory -/

namespace MemoryStore

/-- The store in memory notes no time. -/
instance : SessionStore MemoryStore where
  start store owner document := (.ok document, store.insert owner document)
  atTime store _ := store

instance : OwnedStore MemoryStore where
  IsTimed _ := True
  started _ document := .ok document
  kept := .ok
  started_ignoresIds _ := ignoresIds_ok
  kept_ignoresIds := ignoresIds_ok
  isTimed_atTime _ _ _ := trivial
  load_atTime _ _ _ := rfl
  start_own {store after owner document result} _ start _ := by
    cases start
    exact ⟨rfl, by simp [DocumentStore.load, load, insert, Except.bind]⟩
  start_other {store after owner other document result} start distinct := by
    cases start
    simp [DocumentStore.load, load, insert, Entries.get?_insert_of_ne distinct.symm]
  save_own {store after owner log result} _ save _ := by
    simp only [DocumentStore.save, MemoryStore.save] at save
    simp only [DocumentStore.load, load]
    split at save
    · next document held =>
        cases save
        simp [insert, Except.map, Except.bind]
    · next absent =>
        cases save
        simp [absent, Except.map, Except.bind]
  save_other save distinct := LawfulStore.load_other save distinct

/-- The store in memory has no file system that could fail. -/
theorem neverFails : NeverFails fun _ : MemoryStore => True where
  atTime _ _ := trivial
  load {store} _ owner fault := by
    simp only [DocumentStore.load, MemoryStore.load]
    split <;> simp
  start _ start := by
    cases start
    simp
  save {store after owner log result} _ save := by
    simp only [DocumentStore.save, MemoryStore.save] at save
    split at save <;> cases save <;> simp

end MemoryStore

end LayerRouting
