import LayerRouting.Proofs.Store.Owned
import LayerRouting.Proofs.Store.RoundTrip

/-!
# The store of files by owner

In a store of files a document becomes what it is read back as (`Document.reloaded`), and the
files of different owners have different names, so that a start or a save leaves the documents of
other owners as they are whether it fails or not. Making the directory must change no file in it
(`LawfulCreation`). In a directory in which nothing stands in the way of a file, nothing fails for
the file system (`FileStore.neverFails_plain`).
-/

namespace LayerRouting

/-! ## Documents read back -/

namespace Op

theorem readBack?_renamed (names : Equiv.Perm String) (levels : Nat) (op : Op) :
    (op.renamed names).readBack? levels = (op.readBack? levels).map (renamed names) := by
  cases op with
  | set id path value =>
      rw [renamed, readBack?, readBack?]
      cases value.readBack? levels <;> rfl
  | delete id path => rfl

end Op

theorem Log.mapM_readBack?_renamed (names : Equiv.Perm String) (levels : Nat) (log : Log) :
    (Log.renamed names log).mapM (Op.readBack? levels)
      = (log.mapM (Op.readBack? levels)).map (Log.renamed names) := by
  induction log with
  | nil => rfl
  | cons op rest inductionHypothesis =>
      rw [renamed] at inductionHypothesis
      rw [renamed, List.map_cons, List.mapM_cons, List.mapM_cons, inductionHypothesis,
        Op.readBack?_renamed]
      cases op.readBack? levels <;> cases rest.mapM (Op.readBack? levels) <;> rfl

namespace Document

theorem readBack?_renamed (names : Equiv.Perm String) (document : Document Json) :
    (document.renamed names).readBack? = document.readBack?.map (renamed names) := by
  rw [readBack?, readBack?, defaults_renamed, log_renamed, Log.mapM_readBack?_renamed]
  cases document.defaults.readBack? StoredDocument.memberDepth <;>
    cases document.log.mapM (Op.readBack? (StoredDocument.memberDepth - 2)) <;> rfl

/-- What is loaded of a document that was written. -/
def reloaded (document : Document Json) : Except StoreError (Document Json) :=
  document.readBack?.elim (.error .malformed) .ok

/-- No op is read back that was not written. -/
theorem ignoresIds_reloaded : IgnoresIds reloaded where
  renamed names document := by
    rw [reloaded, reloaded, readBack?_renamed]
    cases document.readBack? <;> rfl
  ids {document result} loaded := by
    cases read : document.readBack? with
    | none =>
        rw [reloaded, read] at loaded
        cases loaded
    | some held =>
        rw [reloaded, read] at loaded
        cases loaded
        simp only [readBack?, Option.bind_eq_bind, Option.bind_eq_some_iff] at read
        obtain ⟨defaults, -, log, logRead, same⟩ := read
        cases same
        intro op member
        obtain ⟨old, oldMember, found⟩ := exists_of_mem_mapM logRead op member
        exact ⟨old, oldMember, congrArg Prod.fst (Op.eq_of_readBack? found)⟩

end Document

/-! ## The store of files -/

/-- The contract of making a store's directory: it changes no file. -/
class LawfulCreation (δ : Type) [StoreDirectory δ] : Prop where
  read_created (directory : δ) {name : String} (file : OwnerId.IsFileName name) :
    StoreDirectory.read (StoreDirectory.create directory).2 name
      = StoreDirectory.read directory name

/-- A directory that is made has no files yet. -/
instance : LawfulCreation Directory where
  read_created directory _ _ := by
    cases directory <;> rfl

namespace FileStore

variable {δ : Type} [StoreDirectory δ]

/-- A document in a file starts with its defaults only. -/
instance : SessionStore (FileStore δ) where
  start store owner document :=
    let (result, after) := store.init owner document.defaults
    (result.map StoredDocument.document, after)
  atTime store now := { store with now }

/-- Only an accepted owner's document is started, and it has no ops. -/
def startedFor (owner : String) (document : Document Json) : Except StoreError (Document Json) :=
  (checkOwner owner).map fun _ => { document with log := [] }

theorem ignoresIds_startedFor (owner : String) : IgnoresIds (startedFor owner) where
  renamed names document := by
    rw [startedFor, startedFor]
    cases checkOwner owner <;> rfl
  ids {document result} made := by
    rw [startedFor] at made
    cases checked : checkOwner owner with
    | error fault =>
        rw [checked] at made
        cases made
    | ok =>
        rw [checked] at made
        cases made
        exact List.forall_mem_nil _

variable {store after : FileStore δ} {owner : String}

/-- An owner is not refused for the file system. -/
theorem checkOwner_ne_file (owner : String) (fault : FileFault) :
    checkOwner owner ≠ .error (.file fault) := by
  intro checked
  rw [checkOwner] at checked
  split at checked <;> cases checked

/-- Loading fails for the file system only if the owner's file cannot be read. -/
theorem read_of_loadStored {fault : FileFault}
    (failed : store.loadStored owner = .error (.file fault)) :
    fault ≠ .missing ∧ store.file owner = .error fault := by
  cases checked : checkOwner owner with
  | error refused =>
      rw [loadStored, checked] at failed
      cases failed
      exact absurd checked (checkOwner_ne_file owner fault)
  | ok =>
      simp only [loadStored, checked, bind, Except.bind] at failed
      split at failed
      · cases failed
      · next fault other unread =>
          cases failed
          exact ⟨other, unread⟩
      · split at failed
        · cases failed
        · split at failed <;> cases failed

variable [LawfulDirectory δ]

/-- A start leaves the files of other owners as they are, whatever comes of it. -/
theorem init_other [LawfulCreation δ] {defaults : Json}
    {result : Except StoreError StoredDocument}
    (start : store.init owner defaults = (result, after))
    {other : String} (accepted : OwnerId.fault? other = none) (distinct : other ≠ owner) :
    after.file other = store.file other := by
  cases checked : checkOwner owner with
  | error fault =>
      rw [init, checked] at start
      cases start
      rfl
  | ok =>
      have ownAccepted := checkOwner_eq_ok_iff.mp checked
      have created := LawfulCreation.read_created store.directory
        (OwnerId.isFileName_documentName accepted)
      rcases made : StoreDirectory.create store.directory with ⟨_ | _, directory⟩
      · rw [init, checked] at start
        simp only [made] at start created
        cases start
        exact created
      · rw [init_of_created ownAccepted made] at start
        rw [made] at created
        cases start
        obtain ⟨-, ⟨_, -, same⟩ | ⟨-, -, others⟩⟩ := writeStored_cases ownAccepted
          (rfl : ({ store with directory }).writeStored owner
            (store.stamped { defaults, log := [] }) = _)
        · exact (same other accepted).trans created
        · exact (others other accepted distinct).trans created

/-- A save leaves the files of other owners as they are, whatever comes of it. -/
theorem save_other {log : Log} {result : Except StoreError Unit}
    (save : store.save owner log = (result, after)) {other : String}
    (accepted : OwnerId.fault? other = none) (distinct : other ≠ owner) :
    after.file other = store.file other := by
  cases result with
  | error error => exact save_error save other accepted
  | ok =>
      obtain ⟨-, -, -, -, others⟩ := save_ok save
      exact others other accepted distinct

/-- A start fails for its owner, whose documents are not loaded either, or for the file system. -/
theorem init_error {defaults : Json} {error : StoreError}
    (failed : store.init owner defaults = (.error error, after)) :
    (checkOwner owner = .error error ∧ after = store) ∨ ∃ fault, error = .file fault := by
  cases checked : checkOwner owner with
  | error fault =>
      rw [init, checked] at failed
      cases failed
      exact .inl ⟨rfl, rfl⟩
  | ok =>
      have accepted := checkOwner_eq_ok_iff.mp checked
      rcases made : StoreDirectory.create store.directory with ⟨fault | _, directory⟩
      · rw [init, checked] at failed
        simp only [made] at failed
        cases failed
        exact .inr ⟨fault, rfl⟩
      · rw [init_of_created accepted made] at failed
        rcases wrote : ({ store with directory }).writeStored owner
          (store.stamped { defaults, log := [] }) with ⟨answer, written⟩
        rw [wrote] at failed
        obtain ⟨-, ⟨fault, rfl, -⟩ | ⟨rfl, -⟩⟩ := writeStored_cases accepted wrote
        · cases failed
          exact .inr ⟨fault, rfl⟩
        · cases failed

/-- A start that does not fail for the file system. -/
theorem start_own {document : Document Json} {result : Except StoreError (Document Json)}
    (clock : store.now.IsRegular)
    (start : SessionStore.start store owner document = (result, after))
    (works : ∀ fault, result ≠ .error (.file fault)) :
    result = startedFor owner document
      ∧ after.load owner = (startedFor owner document).bind Document.reloaded := by
  rcases started : store.init owner document.defaults with ⟨answer, final⟩
  simp only [SessionStore.start, started] at start
  obtain ⟨rfl, rfl⟩ := Prod.mk.inj start
  cases answer with
  | error error =>
      obtain ⟨checked, rfl⟩ | ⟨fault, rfl⟩ := init_error started
      · rw [startedFor, checked, FileStore.load, loadStored, checked]
        exact ⟨rfl, rfl⟩
      · exact absurd rfl (works fault)
  | ok stored =>
      have written := file_of_init started
      obtain ⟨accepted, rfl, -⟩ := exists_of_init started
      rw [startedFor, checkOwner_eq_ok_iff.mpr accepted]
      exact ⟨rfl, load_of_written accepted clock written⟩

/-- A save fails with what loading fails with, or for the file system. -/
theorem save_error_cases {log : Log} {error : StoreError}
    (failed : store.save owner log = (.error error, after)) :
    (store.load owner = .error error ∧ after = store) ∨ ∃ fault, error = .file fault := by
  cases loaded : store.loadStored owner with
  | error fault =>
      rw [save, loaded] at failed
      cases failed
      rw [FileStore.load, loaded]
      exact .inl ⟨rfl, rfl⟩
  | ok stored =>
      rw [save, loaded] at failed
      obtain ⟨accepted, -⟩ := exists_of_loadStored loaded
      obtain ⟨-, ⟨fault, wrote, -⟩ | ⟨wrote, -⟩⟩ := writeStored_cases accepted failed
      · cases wrote
        exact .inr ⟨fault, rfl⟩
      · cases wrote

/-- A save that does not fail for the file system. -/
theorem save_own {log : Log} {result : Except StoreError Unit} (clock : store.now.IsRegular)
    (save : store.save owner log = (result, after))
    (works : ∀ fault, result ≠ .error (.file fault)) :
    result = (store.load owner).map (fun _ => ())
      ∧ after.load owner
        = (store.load owner).bind fun document => Document.reloaded { document with log } := by
  cases result with
  | error error =>
      obtain ⟨loaded, rfl⟩ | ⟨fault, rfl⟩ := save_error_cases save
      · rw [loaded]
        exact ⟨rfl, rfl⟩
      · exact absurd rfl (works fault)
  | ok =>
      obtain ⟨stored, found, -⟩ := save_ok save
      have loaded := load_of_loadStored found
      obtain ⟨accepted, written⟩ := file_of_save loaded save
      rw [loaded]
      exact ⟨rfl, load_of_written accepted clock written⟩

instance [LawfulCreation δ] : OwnedStore (FileStore δ) where
  IsTimed store := store.now.IsRegular
  started := startedFor
  kept := Document.reloaded
  started_ignoresIds := ignoresIds_startedFor
  kept_ignoresIds := Document.ignoresIds_reloaded
  isTimed_atTime _ _ regular := regular
  load_atTime _ _ _ := rfl
  start_own := start_own
  start_other {store after owner other document result} start distinct := by
    obtain ⟨-, rfl⟩ := Prod.mk.inj start
    simp only [DocumentStore.load, FileStore.load]
    rw [loadStored_congr fun accepted => init_other rfl accepted distinct]
  save_own := save_own
  save_other {store after owner other log result} save distinct := by
    simp only [DocumentStore.load, FileStore.load]
    rw [loadStored_congr fun accepted => save_other save accepted distinct]

end FileStore

/-! ## Plain directories -/

/-- Whether a directory is there or can be made, and no directory stands in it where a file is
needed. -/
def Directory.IsPlain : Directory -> Prop
  | .missing => True
  | .blocked _ => False
  | .holding entries => ∀ name, Entries.get? name entries ≠ some .directory

namespace Directory.IsPlain

variable {directory after : Directory}

/-- A plain directory stays one when a file is written to it. -/
theorem write (plain : directory.IsPlain) {name : String} {content : Content}
    (written : directory.write name content = .ok after) : after.IsPlain := by
  cases directory with
  | missing | blocked => cases written
  | holding entries =>
      rw [Directory.write] at written
      split at written
      · cases written
      · cases written
        intro other
        rw [Entries.get?_insert]
        split
        · simp
        · exact plain other

/-- A plain directory stays one when a file takes the place of another name. -/
theorem rename (plain : directory.IsPlain) {name target : String}
    (renamed : directory.rename name target = .ok after) : after.IsPlain := by
  cases directory with
  | missing | blocked => cases renamed
  | holding entries =>
      rw [Directory.rename] at renamed
      split at renamed
      · cases renamed
      · cases renamed
      · next moved found _ =>
          cases renamed
          intro other
          rw [Entries.get?_insert, Entries.get?_erase]
          split
          · exact found ▸ plain name
          · split
            · simp
            · exact plain other

/-- A plain directory is there or can be made. -/
theorem exists_create (plain : directory.IsPlain) :
    ∃ entries, StoreDirectory.create directory = (.ok (), Directory.holding entries)
      ∧ (holding entries).IsPlain := by
  cases directory with
  | missing => exact ⟨[], rfl, fun _ => by simp [Entries.get?]⟩
  | blocked => exact plain.elim
  | holding entries => exact ⟨entries, rfl, plain⟩

/-- What cannot be read in a plain directory is missing. -/
theorem read (plain : directory.IsPlain) {name : String} {fault : FileFault}
    (failed : directory.read name = .error fault) : fault = .missing := by
  cases directory with
  | missing =>
      cases failed
      rfl
  | blocked => exact plain.elim
  | holding entries =>
      rw [read_holding] at failed
      split at failed
      · cases failed
        rfl
      · next found => exact absurd found (plain name)
      · cases failed

end Directory.IsPlain

namespace FileStore

variable {store : FileStore Directory} {entries : List (String × DirectoryEntry)}

/-- Every document can be written to a plain directory, which stays one. -/
theorem exists_writeStored_of_plain (held : store.directory = .holding entries)
    (plain : (Directory.holding entries).IsPlain) (owner : String) (stored : StoredDocument) :
    ∃ after, store.writeStored owner stored = (.ok (), after) ∧ after.directory.IsPlain := by
  have takes := takes_holding (plain (OwnerId.temporaryName owner))
    (plain (OwnerId.documentName owner)) stored.toContent
  rw [← held] at takes
  obtain ⟨written, renamed, wrote, moved⟩ := takes
  refine ⟨{ store with directory := renamed }, by simp only [writeStored, wrote, moved], ?_⟩
  exact (plain.write (held ▸ wrote)).rename moved

/-- Nothing fails to be loaded from a plain directory for the file system. -/
theorem load_of_plain (plain : store.directory.IsPlain) (owner : String) (fault : FileFault) :
    store.load owner ≠ .error (.file fault) := by
  intro failed
  rw [FileStore.load] at failed
  cases found : store.loadStored owner with
  | ok stored =>
      rw [found] at failed
      cases failed
  | error error =>
      rw [found] at failed
      cases failed
      obtain ⟨other, unread⟩ := read_of_loadStored found
      exact other (plain.read unread)

/-- A start in a plain directory does not fail for the file system. -/
theorem start_of_plain (plain : store.directory.IsPlain) {owner : String}
    {document : Document Json} {result : Except StoreError (Document Json)}
    {after : FileStore Directory}
    (start : SessionStore.start store owner document = (result, after)) :
    (∀ fault, result ≠ .error (.file fault)) ∧ after.directory.IsPlain := by
  obtain ⟨entries, made, plainEntries⟩ := plain.exists_create
  cases checked : checkOwner owner with
  | error refused =>
      simp only [SessionStore.start, init, checked] at start
      cases start
      refine ⟨?_, plain⟩
      rintro fault ⟨⟩
      exact checkOwner_ne_file owner fault checked
  | ok =>
      obtain ⟨final, wrote, plainFinal⟩ := exists_writeStored_of_plain
        (rfl : ({ store with directory := .holding entries } : FileStore Directory).directory = _)
        plainEntries owner (store.stamped { defaults := document.defaults, log := [] })
      have started := init_of_created (checkOwner_eq_ok_iff.mp checked) made document.defaults
      rw [wrote] at started
      simp only [SessionStore.start, started] at start
      cases start
      refine ⟨?_, plainFinal⟩
      rintro fault ⟨⟩

/-- A save in a plain directory does not fail for the file system. -/
theorem save_of_plain (plain : store.directory.IsPlain) {owner : String} {log : Log}
    {result : Except StoreError Unit} {after : FileStore Directory}
    (save : DocumentStore.save store owner log = (result, after)) :
    (∀ fault, result ≠ .error (.file fault)) ∧ after.directory.IsPlain := by
  cases loaded : store.loadStored owner with
  | error error =>
      have load : store.load owner = .error error := by
        rw [FileStore.load, loaded]
        rfl
      simp only [DocumentStore.save, FileStore.save, loaded] at save
      cases save
      refine ⟨?_, plain⟩
      rintro fault ⟨⟩
      exact load_of_plain plain owner fault load
  | ok stored =>
      simp only [DocumentStore.save, FileStore.save, loaded] at save
      obtain ⟨-, -, content, read, -⟩ := exists_of_loadStored loaded
      cases directory : store.directory with
      | missing | blocked =>
          rw [file, directory] at read
          cases read
      | holding entries =>
          obtain ⟨final, wrote, plainFinal⟩ := exists_writeStored_of_plain directory
            (directory ▸ plain) owner { stored with
              updatedAt := store.now, document := { stored.document with log } }
          rw [wrote] at save
          cases save
          refine ⟨?_, plainFinal⟩
          rintro fault ⟨⟩

/-- In a plain directory nothing fails for the file system. -/
theorem neverFails_plain : NeverFails fun store : FileStore Directory =>
    store.directory.IsPlain where
  atTime plain _ := plain
  load plain := load_of_plain plain
  start plain start := start_of_plain plain start
  save plain save := save_of_plain plain save

end FileStore

end LayerRouting
