import LayerRouting.Proofs.Store.Contract
import LayerRouting.Proofs.Store.RoundTrip

/-!
# Files and the contract of stores

A store of files keeps the contract of stores while its clock shows a time that a clock gives. A
document that nests no deeper than files allow is read back with its binary64 numbers read again
(`Document.Fits.readBack?_eq_mapFloats`), and so its numbers come back when each of them reads
back (`TimedFileStore.keepsNumbers`); the defaults of a document may hold others.

The clock of a store never changes, so a store of files with such a clock is one for good
(`TimedFileStore`).
-/

namespace LayerRouting

/-! ## Documents that are read back -/

/-- An op that fits is read back with its binary64 numbers read again. -/
theorem Op.Fits.readBack?_eq_mapFloats {levels : Nat} {op : Op}
    (fits : op.Fits (fun _ => True) levels) :
    op.readBack? levels = some (op.mapFloats Binary64.reread) := by
  cases op with
  | set id path value =>
      rw [Op.readBack?, Json.Fits.readBack?_eq_mapFloats fits]
      rfl
  | delete id path => rfl

/-- What a log is read back as has its ops, with their ids and paths. -/
theorem Log.ops_of_mapM_readBack? {levels : Nat} {log read : Log}
    (found : log.mapM (Op.readBack? levels) = some read) :
    read.map (fun op => (op.id, op.path)) = log.map fun op => (op.id, op.path) := by
  induction log generalizing read with
  | nil =>
      obtain rfl := Option.some.inj found
      rfl
  | cons op rest inductionHypothesis =>
      simp only [List.mapM_cons, Option.bind_eq_bind, Option.bind_eq_some_iff] at found
      obtain ⟨first, firstRead, others, othersRead, same⟩ := found
      obtain rfl := Option.some.inj same
      rw [List.map_cons, List.map_cons, Op.eq_of_readBack? firstRead,
        inductionHypothesis othersRead]

namespace Document

variable {document : Document Json}

/-- What a document is read back as has its ops, with their ids and paths. -/
theorem ops_of_readBack? {final : Document Json} (read : document.readBack? = some final) :
    final.log.map (fun op => (op.id, op.path))
      = document.log.map fun op => (op.id, op.path) := by
  simp only [readBack?, Option.bind_eq_bind, Option.bind_eq_some_iff] at read
  obtain ⟨defaults, -, log, logRead, same⟩ := read
  obtain rfl := Option.some.inj same
  exact Log.ops_of_mapM_readBack? logRead

/-- A document that fits is read back with its binary64 numbers read again. -/
theorem Fits.readBack?_eq_mapFloats (fits : document.Fits fun _ => True) :
    document.readBack? = some (document.mapFloats Binary64.reread) := by
  have log : document.log.mapM (Op.readBack? (StoredDocument.memberDepth - 2))
      = some (document.log.map (Op.mapFloats Binary64.reread)) :=
    mapM_eq_some_map fun op member => (fits.log op member).readBack?_eq_mapFloats
  rw [readBack?, fits.defaults.readBack?_eq_mapFloats, log]
  rfl

/-- A document whose numbers read back stays as it is when they are read again. -/
theorem ReadsBack.mapFloats_eq (read : document.ReadsBack) :
    document.mapFloats Binary64.reread = document := by
  refine mapFloats_eq_iff.mpr ⟨?_, fun op member => ?_⟩
  · rw [← Json.reread_eq_mapFloats, read.defaults.reread_eq]
  · have readable := read.log op member
    cases op with
    | set id path value =>
        rw [Op.mapFloats, ← Json.reread_eq_mapFloats, Json.ReadsBack.reread_eq readable]
    | delete id path => rfl

end Document

/-! ## Stores of files with a clock -/

/-- A save leaves the clock of a store as it is. -/
theorem FileStore.now_save {δ : Type} [StoreDirectory δ] (store : FileStore δ) (owner : String)
    (log : Log) : (store.save owner log).2.now = store.now := by
  rw [save]
  split
  · rfl
  · rw [writeStored]
    split
    · rfl
    · split <;> rfl

/-- A store of files whose clock shows a time that a clock gives. -/
structure TimedFileStore (δ : Type) where
  files : FileStore δ
  regular : files.now.IsRegular

namespace TimedFileStore

variable {δ : Type} [StoreDirectory δ]

instance : DocumentStore (TimedFileStore δ) where
  load store owner := store.files.load owner
  save store owner log :=
    ((store.files.save owner log).1,
      { files := (store.files.save owner log).2
        regular := (store.files.now_save owner log).symm ▸ store.regular })

variable [LawfulDirectory δ]

omit [LawfulDirectory δ] in
theorem save_files {store after : TimedFileStore δ} {owner : String} {log : Log}
    {result : Except StoreError Unit}
    (saved : DocumentStore.save store owner log = (result, after)) :
    store.files.save owner log = (result, after.files) := by
  simp only [DocumentStore.save, Prod.mk.injEq] at saved
  obtain ⟨rfl, rfl⟩ := saved
  rfl

/-- After a save the owner's document is loaded as what it was read back as, or not at all. -/
theorem exists_load_of_save {store after : TimedFileStore δ} {owner : String} {log : Log}
    (saved : DocumentStore.save store owner log = (.ok (), after)) :
    ∃ document, store.files.load owner = .ok document
      ∧ after.files.load owner
        = (Document.readBack? { document with log }).elim (.error .malformed) .ok := by
  obtain ⟨stored, found, own, -, -⟩ := FileStore.save_ok (save_files saved)
  obtain ⟨accepted, current, -⟩ := FileStore.exists_of_loadStored found
  refine ⟨stored.document, FileStore.load_of_loadStored found,
    FileStore.load_of_written accepted store.regular (own.trans ?_)⟩
  rw [FileStore.stamped, ← current]

instance : LawfulStore (TimedFileStore δ) where
  reread := Binary64.reread
  load_saved {store after owner document log} stored saved fits := by
    obtain ⟨held, found, loaded⟩ := exists_load_of_save saved
    obtain rfl := Except.ok.inj (found.symm.trans stored)
    rw [(fits (FileStore.fits_of_load found)).readBack?_eq_mapFloats] at loaded
    exact loaded
  ops_saved {store after owner log final} saved loaded := by
    obtain ⟨held, -, again⟩ := exists_load_of_save saved
    cases read : Document.readBack? { held with log } with
    | none =>
        rw [read] at again
        cases again.symm.trans loaded
    | some document =>
        rw [read] at again
        obtain rfl := Except.ok.inj (again.symm.trans loaded)
        exact Document.ops_of_readBack? read
  load_other {store after owner other result log} saved distinct := by
    have files := save_files saved
    cases result with
    | ok => exact FileStore.load_other files other distinct
    | error error => exact (FileStore.save_error files).load other
  load_failed failed other := (FileStore.save_error (save_files failed)).load other

/-- The numbers of a document come back from files when each of them reads back. -/
theorem keepsNumbers {document : Document Json} (read : document.ReadsBack) :
    LawfulStore.KeepsNumbers (TimedFileStore δ) document :=
  read.mapFloats_eq

end TimedFileStore

end LayerRouting
