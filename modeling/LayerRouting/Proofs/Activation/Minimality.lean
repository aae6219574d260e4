import LayerRouting.Proofs.Activation.Runs

/-!
# Minimal logs

A document is minimal when its log holds nothing but flags: each is of another item, and none
is what the defaults hold already. Recording a flag in a minimal log drops the flag that the
item had, and adds one only if the defaults hold something else, so that the document stays
minimal (`Document.IsMinimal.withFlags`), in every run too. In a minimal document every op shows
in the resolved tree, and the log is empty exactly when that tree is the defaults
(`Document.IsMinimal.log_eq_nil_iff`).
-/

namespace LayerRouting

/-- Whether a document's log sets flags of different items to what the defaults do not hold. -/
structure Document.IsMinimal (document : Document Json) : Prop where
  flags : ∀ op ∈ document.log, ∃ opId id active,
    op = .set opId (Path.item id ++ activeField) (.bool active)
      ∧ document.defaults.lookup? (Path.item id ++ activeField) ≠ some (.bool active)
  distinct : (document.log.map fun op => op.path.firstKey?).Nodup

/-- The place of one flag is on that of another, or below it, only if both are of one item. -/
theorem Path.isWithin_flag_iff {id other : String} :
    (Path.item id ++ activeField).isWithin (Path.item other ++ activeField) ↔ other = id := by
  simp [Path.item, activeField, Path.isWithin_cons_cons, Segment.asKey]

namespace Document.IsMinimal

variable {document : Document Json}

/-- A document without edits is minimal. -/
theorem of_log_eq_nil (empty : document.log = []) : document.IsMinimal where
  flags := by
    rw [empty]
    exact List.forall_mem_nil _
  distinct := by
    rw [empty]
    exact List.nodup_nil

/-- A part of a minimal log is minimal. -/
theorem sublist (minimal : document.IsMinimal) {part : Log} (kept : part.Sublist document.log) :
    Document.IsMinimal { document with log := part } where
  flags op member := minimal.flags op (kept.subset member)
  distinct := minimal.distinct.sublist (kept.map _)

/-- A flag of another item that the defaults do not hold may come last. -/
theorem append (minimal : document.IsMinimal) {opId id : String} {active : Bool}
    (new : ∀ op ∈ document.log, op.path.firstKey? ≠ some id)
    (different : document.defaults.lookup? (Path.item id ++ activeField) ≠ some (.bool active)) :
    Document.IsMinimal { document with
      log := document.log ++ [.set opId (Path.item id ++ activeField) (.bool active)] } where
  flags := by
    refine List.forall_mem_append.mpr ⟨minimal.flags, List.forall_mem_singleton.mpr ?_⟩
    exact ⟨opId, id, active, rfl, different⟩
  distinct := by
    rw [List.map_append, List.map_singleton, List.nodup_append]
    refine ⟨minimal.distinct, List.nodup_singleton _, ?_⟩
    rintro key listed other last rfl
    obtain ⟨op, member, found⟩ := List.mem_map.mp listed
    rw [List.mem_singleton.mp last] at found
    exact new op member found

/-- After the flag of an item was dropped, no op of a minimal log is of the item. -/
theorem firstKey?_ne_of_mem_dropWithin (minimal : document.IsMinimal) {id : String} :
    ∀ op ∈ Draft.dropWithin (Path.item id ++ activeField) document.log,
      op.path.firstKey? ≠ some id := by
  intro op member
  obtain ⟨listed, apart⟩ := Draft.mem_dropWithin.mp member
  obtain ⟨opId, other, active, rfl, -⟩ := minimal.flags op listed
  intro same
  obtain rfl : other = id := Option.some.inj same
  exact apart (Path.isWithin_refl _)

/-- After the flag of an item was dropped, no op of a minimal log is above its place. -/
theorem not_isWithin_of_mem_dropWithin (minimal : document.IsMinimal) {id : String} :
    ∀ op ∈ Draft.dropWithin (Path.item id ++ activeField) document.log,
      ¬ (Path.item id ++ activeField).isWithin op.path := by
  intro op member
  obtain ⟨listed, apart⟩ := Draft.mem_dropWithin.mp member
  obtain ⟨opId, other, active, rfl, -⟩ := minimal.flags op listed
  intro above
  obtain rfl : other = id := Path.isWithin_flag_iff.mp above
  exact apart (Path.isWithin_refl _)

/-! ## What a minimal log shows -/

theorem isBelowRoot (minimal : document.IsMinimal) : document.log.IsBelowRoot := by
  intro op member
  obtain ⟨opId, id, active, rfl, -⟩ := minimal.flags op member
  exact List.cons_ne_nil _ _

/-- Every op of a minimal log shows in the resolved tree, since no other op is of its item. -/
theorem field?_resolved (minimal : document.IsMinimal) (object : document.defaults.isObject)
    {opId id : String} {active : Bool}
    (member : .set opId (Path.item id ++ activeField) (.bool active) ∈ document.log) :
    document.resolved.field? id "active" = some (.bool active) := by
  obtain ⟨before, after, split⟩ := List.append_of_mem member
  have below := minimal.isBelowRoot
  have distinct := minimal.distinct
  have flags := minimal.flags
  rw [split] at below distinct flags
  obtain ⟨beforeBelow, afterBelow⟩ := List.forall_mem_append.mp below
  obtain ⟨-, afterBelow⟩ := List.forall_mem_cons.mp afterBelow
  have apart : ∀ op ∈ after, ¬ op.affects [.key id, .key "active"] := by
    intro op later
    obtain ⟨_, other, _, rfl, -⟩ :=
      flags op (List.mem_append_right _ (List.mem_cons_of_mem _ later))
    have otherKey : other ≠ id := by
      rintro rfl
      rw [List.map_append, List.map_cons, List.nodup_append, List.nodup_cons] at distinct
      exact distinct.2.1.1 (List.mem_map.mpr ⟨_, later, rfl⟩)
    refine Op.not_affects_iff.mpr ⟨fun within => ?_, fun above => ?_⟩
    · exact otherKey (Path.isWithin_flag_iff.mp within).symm
    · exact otherKey (Path.isWithin_flag_iff.mp above)
  have set := (Json.fieldSet_setAt (Log.isObject_resolve beforeBelow object) isName_active
    (.key id) rfl (.bool active)).resolve isName_active afterBelow apart
  rw [Document.resolved, split, Log.resolve_append, Log.resolve_cons]
  exact Json.sameAt_bool_iff.mp set.reads

/-- A minimal log is empty when the resolved tree is the defaults, as values. -/
theorem log_eq_nil_of_same (minimal : document.IsMinimal) (object : document.defaults.isObject)
    (same : document.resolved.Same document.defaults) : document.log = [] := by
  refine List.eq_nil_iff_forall_not_mem.mpr fun op member => ?_
  obtain ⟨opId, id, active, rfl, different⟩ := minimal.flags op member
  have shown := minimal.field?_resolved object member
  have held : Json.SameAt (document.resolved.field? id "active")
      (document.defaults.field? id "active") :=
    (same.get? id).bind fun item => item.get? "active"
  rw [shown] at held
  refine different ?_
  have found := Json.lookup?_field object id isName_active
  exact found.trans (Json.sameAt_bool_iff.mp held.symm)

/-- A minimal log is empty exactly when the resolved tree is the defaults, whether order of
entries counts or not. -/
theorem log_eq_nil_iff (minimal : document.IsMinimal) (object : document.defaults.isObject) :
    (document.log = [] ↔ document.resolved = document.defaults)
      ∧ (document.log = [] ↔ document.resolved.Same document.defaults) := by
  have unedited : document.log = [] -> document.resolved = document.defaults := by
    intro empty
    rw [Document.resolved, empty]
    rfl
  have emptied := minimal.log_eq_nil_of_same object
  constructor
  · exact ⟨unedited, fun equal => emptied (equal ▸ Json.Same.refl _)⟩
  · exact ⟨fun empty => unedited empty ▸ Json.Same.refl _, emptied⟩

end Document.IsMinimal

/-! ## Recording flags -/

namespace Draft

variable {draft : Draft}

/-- Recording a flag keeps a minimal log minimal. -/
theorem isMinimal_setActive (minimal : draft.document.IsMinimal) (id : String) (active : Bool) :
    (draft.setActive id active).document.IsMinimal := by
  have dropped : Document.IsMinimal
      { draft.document with log := dropWithin (Path.item id ++ activeField) draft.log } :=
    minimal.sublist List.filter_sublist
  have unowned : ∀ op ∈ dropWithin (Path.item id ++ activeField) draft.log,
      op.path.firstKey? ≠ some id := minimal.firstKey?_ne_of_mem_dropWithin
  have free : ∀ op ∈ dropWithin (Path.item id ++ activeField) draft.log,
      ¬ (Path.item id ++ activeField).isWithin op.path := minimal.not_isWithin_of_mem_dropWithin
  have outcome := draft.setOutcome (Path.item id ++ activeField) (.bool active)
  change (draft.setPath (Path.item id ++ activeField) (.bool active)).document.IsMinimal
  generalize draft.setPath (Path.item id ++ activeField) (.bool active) = edited at outcome ⊢
  cases outcome with
  | kept => exact minimal
  -- Folding and restoring need an op above the flag, which would be another one of its item.
  | folded new split below last =>
      have listed := split ▸ List.mem_append_right _ List.mem_cons_self
      exact absurd (Option.isSome_iff_exists.mpr ⟨_, below⟩) (free (.set _ _ _) listed)
  | restored new split below last =>
      have listed := split ▸ List.mem_append_right _ List.mem_cons_self
      exact absurd below (free (.delete _ _) listed)
  | elided => exact dropped
  | appended new unaffected different =>
      refine dropped.append unowned fun held => ?_
      exact different _ held (Json.Same.refl _)

/-- Recording flags keeps a minimal log minimal. -/
theorem isMinimal_setFlags (minimal : draft.document.IsMinimal) (flags : List (String × Bool)) :
    (draft.setFlags flags).document.IsMinimal :=
  List.foldlRecOn (motive := fun draft : Draft => draft.document.IsMinimal) _ _ minimal
    fun _ current flag _ => isMinimal_setActive current flag.1 flag.2

end Draft

/-- A minimal document in which flags were recorded is minimal. -/
theorem Document.IsMinimal.withFlags {document : Document Json} (minimal : document.IsMinimal)
    (supply : IdSupply) (flags : List (String × Bool)) :
    (document.withFlags supply flags).IsMinimal := by
  have drafted : (Draft.ofDocument document supply).document.IsMinimal := minimal
  have recorded := Draft.isMinimal_setFlags drafted flags
  rwa [Draft.document, Draft.defaults_setFlags] at recorded

/-- A minimal document is minimal with other binary64 numbers. -/
theorem Document.IsMinimal.mapFloats {document : Document Json} (minimal : document.IsMinimal)
    (change : Binary64 -> Binary64) : (document.mapFloats change).IsMinimal where
  flags := by
    refine List.forall_mem_map.mpr fun op member => ?_
    obtain ⟨opId, id, active, rfl, different⟩ := minimal.flags op member
    refine ⟨opId, id, active, rfl, fun held => different ?_⟩
    have changed : (document.defaults.lookup? (Path.item id ++ activeField)).map
        (Json.mapFloats change) = some (.bool active) := by
      rw [← Json.lookup?_mapFloats]
      exact held
    exact Json.map_mapFloats_eq_bool_iff.mp changed
  distinct := by
    have paths : (document.mapFloats change).log.map (fun op => op.path.firstKey?)
        = document.log.map fun op => op.path.firstKey? := by
      simp [Document.mapFloats, Log.mapFloats, Op.path_mapFloats]
    rw [paths]
    exact minimal.distinct

/-! ## Runs -/

namespace Controller

variable {σ : Type} [DocumentStore σ]

/-- Defaults that a store has given back so far are given back once more. -/
theorem givenBack_defaults [LawfulStore σ] {document current : Document Json}
    (given : GivenBack Json.withoutFloats (LawfulStore.KeepsNumbers σ document)
      document.defaults current.defaults) :
    GivenBack Json.withoutFloats (LawfulStore.KeepsNumbers σ document) document.defaults
      (current.mapFloats (LawfulStore.reread σ)).defaults where
  form := (Json.withoutFloats_mapFloats _ _).trans given.form
  same numbers := by
    have kept := (Document.mapFloats_eq_iff.mp numbers).1
    rw [← given.same numbers] at kept
    exact kept.trans (given.same numbers)

/-- After any run that starts from defaults without edits, the log of an owner's document sets
flags of different items to what the defaults do not hold. It is empty exactly when the
resolved tree is the defaults. These are the ones at the start, up to binary64 numbers if those do
not come back from the store. -/
theorem Reaches.isMinimal [LawfulStore σ] {start finish : Controller σ}
    (run : Reaches start finish) {owner : String} {document : Document Json}
    (stored : DocumentStore.load start.store owner = .ok document)
    (object : document.defaults.isObject) (unedited : document.log = []) :
    ∃ final, DocumentStore.load finish.store owner = .ok final
      ∧ GivenBack Json.withoutFloats (LawfulStore.KeepsNumbers σ document) document.defaults
          final.defaults
      ∧ final.IsMinimal
      ∧ (final.log = [] ↔ final.resolved = final.defaults)
      ∧ (final.log = [] ↔ final.resolved.Same final.defaults) := by
  obtain ⟨final, finalStored, given, minimal⟩ :=
    run.keeps (P := fun current =>
        GivenBack Json.withoutFloats (LawfulStore.KeepsNumbers σ document) document.defaults
          current.defaults ∧ current.IsMinimal)
      (fun _ ⟨given, minimal⟩ supply flags _ => ⟨given, minimal.withFlags supply flags⟩)
      (fun _ ⟨given, minimal⟩ => ⟨givenBack_defaults given, minimal.mapFloats _⟩)
      stored ⟨.refl _ _ _, .of_log_eq_nil unedited⟩
  have finalObject : final.defaults.isObject := by
    rw [← Json.isObject_mapFloats, ← Json.withoutFloats, given.form]
    exact (Json.isObject_mapFloats _).trans object
  exact ⟨final, finalStored, given, minimal, minimal.log_eq_nil_iff finalObject⟩

/-- A run in which the other side is switched on, a reset fails in an outage, and the first side
is switched on again when the outage is over. -/
theorem Reaches.isMinimal_after_outage :
    ∃ final, DocumentStore.load (Controller.switch
        { (Controller.reset { (ofSides.switch "stage" "right" true).2 with
            store.outage := some "disk full" } "stage").2 with store.outage := none }
        "stage" "left" true).2.store "stage" = .ok final
      ∧ final.defaults = Document.sides.defaults ∧ final.IsMinimal
      ∧ (final.log = [] ↔ final.resolved = final.defaults) := by
  have outside : ∀ (controller : Controller (MonitoredStore MemoryStore)) (reason : Option String),
      Step controller { controller with store.outage := reason } :=
    fun controller reason => .outside fun _ => rfl
  have switched := Reaches.step (.refl ofSides) (.switch ofSides "stage" "right" true)
  have failed := (switched.step (outside _ (some "disk full"))).step (.reset _ "stage")
  have restored := (failed.step (outside _ none)).step (.switch _ "stage" "left" true)
  obtain ⟨final, stored, given, minimal, empty, -⟩ :=
    restored.isMinimal load_ofSides (by decide) rfl
  exact ⟨final, stored, given.same (Document.mapFloats_id Document.sides), minimal, empty⟩

end Controller

end LayerRouting
