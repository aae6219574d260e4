import LayerRouting.Proofs.Override.Floats
import LayerRouting.Proofs.Store.StoredDocument
import LayerRouting.Store.Memory
import LayerRouting.Store.Monitored

/-!
# What a store promises

A save that succeeds replaces the log of the owner's document; a save that fails leaves every
document as it was. Neither touches the documents of other owners. What was saved comes back with
the ops that it had, and with everything in it but its binary64 numbers, for which a store may
give back others. `LawfulStore` is this contract.

The store in memory gives every number back, and so does a store under observation when the store
that it observes does, in service and out of it. A store of files keeps the contract while its
clock shows a time that a clock gives (`TimedFileStore`), but not every document keeps its numbers
there: a document is written as a text, and the text of a binary64 number may read as a neighbour of
it (`Controller.switch_changes_unstable_defaults`). So what is proved from the contract comes in two
parts: what holds up to binary64 numbers, and what holds when the numbers of a document come back
(`LawfulStore.KeepsNumbers`).
-/

namespace LayerRouting

/-- The contract of stores. -/
class LawfulStore (σ : Type) [DocumentStore σ] where
  /-- The number that comes back for a binary64 number that was saved. -/
  reread : Binary64 -> Binary64
  /-- After a successful save the owner's document has the new log and its old defaults, up to
  binary64 numbers. Of a document that nests no deeper than files allow this is promised as long
  as the new log does not either. -/
  load_saved {store after : σ} {owner : String} {document : Document Json} {log : Log}
    (stored : DocumentStore.load store owner = .ok document)
    (saved : DocumentStore.save store owner log = (.ok (), after))
    (fits : document.Fits (fun _ => True) ->
      Document.Fits (fun _ => True) { document with log }) :
    DocumentStore.load after owner = .ok (Document.mapFloats reread { document with log })
  /-- What is loaded after a successful save has the ops of the log, with their ids and paths. -/
  ops_saved {store after : σ} {owner : String} {log : Log} {final : Document Json}
    (saved : DocumentStore.save store owner log = (.ok (), after))
    (loaded : DocumentStore.load after owner = .ok final) :
    final.log.map (fun op => (op.id, op.path)) = log.map fun op => (op.id, op.path)
  /-- A save concerns one owner. -/
  load_other {store after : σ} {owner other : String} {result : Except StoreError Unit} {log : Log}
    (saved : DocumentStore.save store owner log = (result, after)) (distinct : other ≠ owner) :
    DocumentStore.load after other = DocumentStore.load store other
  /-- A failed save changes nothing. -/
  load_failed {store after : σ} {owner : String} {error : StoreError} {log : Log}
    (failed : DocumentStore.save store owner log = (.error error, after)) (other : String) :
    DocumentStore.load after other = DocumentStore.load store other

/-- Whether the binary64 numbers of a document come back from stores as they are. -/
def LawfulStore.KeepsNumbers (σ : Type) [DocumentStore σ] [LawfulStore σ]
    (document : Document Json) : Prop :=
  document.mapFloats (LawfulStore.reread σ) = document

/-- Whether a document is another one as a store has it: as it is, or with its binary64 numbers as
they come back. -/
def LawfulStore.Returns (σ : Type) [DocumentStore σ] [LawfulStore σ]
    (document returned : Document Json) : Prop :=
  returned = document ∨ returned = document.mapFloats (LawfulStore.reread σ)

/-- A document whose numbers come back is returned as it is. -/
theorem LawfulStore.Returns.eq {σ : Type} [DocumentStore σ] [LawfulStore σ]
    {document returned : Document Json} (returns : LawfulStore.Returns σ document returned)
    (kept : LawfulStore.KeepsNumbers σ document) : returned = document := by
  rcases returns with same | changed
  · exact same
  · exact changed.trans kept

/-- Whether a store can load whatever it has saved. A store of files cannot if the log nests too
deep. -/
def LawfulStore.LoadsSaved (σ : Type) [DocumentStore σ] : Prop :=
  ∀ ⦃store after : σ⦄ ⦃owner : String⦄ ⦃log : Log⦄,
    DocumentStore.save store owner log = (.ok (), after) ->
      ∃ document, DocumentStore.load after owner = .ok document

/-- Whether something comes back as it was given, up to binary64 numbers: it comes back in the
form that it was given in, and exactly as it was given if the numbers do so. -/
structure GivenBack {α β : Type} (form : α -> β) (exact : Prop) (given back : α) : Prop where
  form : form back = form given
  same : exact -> back = given

namespace GivenBack

theorem refl {α β : Type} (form : α -> β) (exact : Prop) (given : α) :
    GivenBack form exact given given :=
  ⟨rfl, fun _ => rfl⟩

theorem trans {α β : Type} {form : α -> β} {exact : Prop} {given middle back : α}
    (first : GivenBack form exact given middle) (second : GivenBack form exact middle back) :
    GivenBack form exact given back :=
  ⟨second.form.trans first.form, fun holds => (second.same holds).trans (first.same holds)⟩

end GivenBack

namespace MemoryStore

/-- After a successful save the owner's document has the new log and its old defaults. -/
theorem load_saved {store after : MemoryStore} {owner : String} {log : Log}
    (saved : store.save owner log = (.ok (), after)) :
    ∃ document, store.load owner = .ok document
      ∧ after.load owner = .ok { document with log } := by
  rw [save] at saved
  cases found : Entries.get? owner store.documents with
  | none => simp [found] at saved
  | some document =>
      rw [found] at saved
      cases saved
      exact ⟨document, by simp [load, found], by simp [load, insert]⟩

instance : LawfulStore MemoryStore where
  reread := id
  load_saved stored saved _ := by
    obtain ⟨document, before, after⟩ := load_saved saved
    obtain rfl := Except.ok.inj (before.symm.trans stored)
    exact after.trans (congrArg Except.ok (Document.mapFloats_id _).symm)
  ops_saved saved loaded := by
    obtain ⟨document, -, after⟩ := load_saved saved
    obtain rfl := Except.ok.inj (after.symm.trans loaded)
    rfl
  load_other {store after owner other result log} saved distinct := by
    simp only [DocumentStore.load, load]
    simp only [DocumentStore.save, save] at saved
    split at saved <;> cases saved
    · simp [insert, Entries.get?_insert_of_ne distinct.symm]
    · rfl
  load_failed {store after owner error log} failed other := by
    simp only [DocumentStore.save, save] at failed
    split at failed <;> cases failed
    rfl

theorem loadsSaved : LawfulStore.LoadsSaved MemoryStore := by
  intro store after owner log saved
  obtain ⟨document, -, loaded⟩ := load_saved saved
  exact ⟨_, loaded⟩

end MemoryStore

namespace MonitoredStore

variable {σ : Type} [DocumentStore σ]

/-- A save out of service fails and reaches nothing; one in service is a save of the store
that is observed. -/
theorem save_cases {store after : MonitoredStore σ} {owner : String} {log : Log}
    {result : Except StoreError Unit}
    (saved : DocumentStore.save store owner log = (result, after)) :
    (∃ reason, result = .error (.unavailable reason) ∧ after.inner = store.inner)
      ∨ DocumentStore.save store.inner owner log = (result, after.inner) := by
  simp only [DocumentStore.save] at saved
  split at saved
  · cases saved
    exact .inl ⟨_, rfl, rfl⟩
  · cases saved
    exact .inr rfl

instance [LawfulStore σ] : LawfulStore (MonitoredStore σ) where
  reread := LawfulStore.reread σ
  load_saved stored saved fits := by
    obtain ⟨_, failed, -⟩ | saved := save_cases saved
    · cases failed
    · exact LawfulStore.load_saved (σ := σ) stored saved fits
  ops_saved saved loaded := by
    obtain ⟨_, failed, -⟩ | saved := save_cases saved
    · cases failed
    · exact LawfulStore.ops_saved (σ := σ) saved loaded
  load_other saved distinct := by
    obtain ⟨_, -, same⟩ | saved := save_cases saved
    · exact congrArg (fun inner : σ => DocumentStore.load inner _) same
    · exact LawfulStore.load_other (σ := σ) saved distinct
  load_failed failed other := by
    obtain ⟨_, -, same⟩ | failed := save_cases failed
    · exact congrArg (fun inner : σ => DocumentStore.load inner other) same
    · exact LawfulStore.load_failed (σ := σ) failed other

theorem loadsSaved (loads : LawfulStore.LoadsSaved σ) :
    LawfulStore.LoadsSaved (MonitoredStore σ) := by
  intro store after owner log saved
  obtain ⟨_, failed, -⟩ | saved := save_cases saved
  · cases failed
  · exact loads saved

end MonitoredStore

end LayerRouting
