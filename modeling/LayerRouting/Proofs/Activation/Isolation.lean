import LayerRouting.Proofs.Activation.TwinControllers
import LayerRouting.Proofs.Store.OwnedFiles

/-!
# Isolation of owners

What an owner is answered, and the document that the owner has in the end, do not depend on what
other owners ask for in between (`Session.isolatesOwners`). A session is compared with one in
which the owner asks alone. The ids of new ops and the times differ between the two, so they are
compared up to a renaming of op ids. The proof goes along the requests
(`Session.exists_parallel`): a request of another owner leaves the owner's document as it is, and
a request of the owner goes to twin controllers.
-/

namespace LayerRouting

/-! ## Sessions -/

namespace Session

variable {σ : Type} [DocumentStore σ] [SessionStore σ]

/-- The requests of one owner, with the op ids in them renamed. -/
def alone (names : Equiv.Perm String) (owner : String) (requests : List (String × Request)) :
    List (String × Request) :=
  (ofOwner owner requests).map fun entry => (entry.1, entry.2.renamed names)

/-- Whether in neither of two sessions a new op gets an id. -/
def NeverGive (session solo : Session σ) (id : String) : Prop :=
  session.supply.NeverGives id ∧ solo.supply.NeverGives id

/-- Whether an op of an owner's document has an id after some requests. -/
def Shows (session : Session σ) (owner : String) (requests : List (String × Request))
    (id : String) : Prop :=
  ∃ document, DocumentStore.load (session.run requests).2.store owner = .ok document
    ∧ ∃ op ∈ document.log, op.id = id

/-- Whether the ids that an owner hands in are ids that the owner can know: those of ops that
its document has or had, and such as no new op gets. -/
structure HandsInKnown (session solo : Session σ) (owner : String)
    (requests : List (String × Request)) : Prop where
  stored : ∀ id, session.Shows owner [] id -> session.NeverGive solo id
  requested : ∀ before request after, requests = before ++ (owner, request) :: after ->
    ∀ op ∈ request.ops, session.NeverGive solo op.id
      ∨ ∃ earlier, earlier <+: before ∧ session.Shows owner earlier op.id

/-- Whether one run has for an owner the answers and the final document of another one, with the
op ids in them renamed. -/
structure Agrees (names : Equiv.Perm String) (owner : String)
    (whole part : List (String × Answer) × Controller σ) : Prop where
  answers : part.1 = (ofOwner owner whole.1).map fun entry => (entry.1, entry.2.renamed names)
  document : DocumentStore.load part.2.store owner
    = (DocumentStore.load whole.2.store owner).map (Document.renamed names)

/-! ## Parts of owners -/

section

variable {α : Type} {owner : String}

theorem ofOwner_concat_self (entries : List (String × α)) (value : α) :
    ofOwner owner (entries ++ [(owner, value)]) = ofOwner owner entries ++ [(owner, value)] := by
  simp [ofOwner]

theorem ofOwner_concat_other (entries : List (String × α)) {other : String}
    (distinct : owner ≠ other) (value : α) :
    ofOwner owner (entries ++ [(other, value)]) = ofOwner owner entries := by
  simp [ofOwner, distinct.symm]

theorem alone_concat_self (names : Equiv.Perm String) (requests : List (String × Request))
    (request : Request) :
    alone names owner (requests ++ [(owner, request)])
      = alone names owner requests ++ [(owner, request.renamed names)] := by
  rw [alone, ofOwner_concat_self, List.map_append]
  rfl

theorem alone_concat_other (names : Equiv.Perm String) (requests : List (String × Request))
    {other : String} (distinct : owner ≠ other) (request : Request) :
    alone names owner (requests ++ [(other, request)]) = alone names owner requests := by
  rw [alone, ofOwner_concat_other requests distinct, alone]

/-- Where the ids that an owner hands in keep their names, it asks for the very same alone. -/
theorem alone_of_fixed {names : Equiv.Perm String} {requests : List (String × Request)}
    (fixed : ∀ entry ∈ ofOwner owner requests, ∀ op ∈ entry.2.ops, names op.id = op.id) :
    alone names owner requests = ofOwner owner requests := by
  have kept : ∀ entry ∈ ofOwner owner requests,
      (fun entry => (entry.1, entry.2.renamed names)) entry = id entry := by
    intro entry member
    have same : entry.2.renamed names = entry.2.renamed (.refl String) :=
      Request.renamed_congr (fixed entry member)
    exact congrArg (Prod.mk entry.1) (same.trans entry.2.renamed_refl)
  rw [alone, List.map_congr_left kept, List.map_id]

end

/-! ## Isolation -/

section

variable {session solo : Session σ} {owner : String} {requests : List (String × Request)}
  {request : Request} {naming later : Naming}

theorem HandsInKnown.of_concat {entry : String × Request}
    (known : session.HandsInKnown solo owner (requests ++ [entry])) :
    session.HandsInKnown solo owner requests where
  stored := known.stored
  requested before request after split :=
    known.requested before request (after ++ [entry]) (by rw [split, List.append_assoc]; rfl)

theorem Works.of_concat {requester : String}
    (works : session.Works owner (requests ++ [(requester, request)])) :
    session.Works owner requests := by
  intro answer member
  refine works answer ?_
  rw [run_concat]
  exact List.mem_filter.mpr
    ⟨List.mem_append_left _ (List.mem_filter.mp member).1, (List.mem_filter.mp member).2⟩

theorem Works.last (works : session.Works owner (requests ++ [(owner, request)])) :
    (session.next requests owner request).1.Works := by
  refine works (owner, _) ?_
  rw [run_concat]
  exact List.mem_filter.mpr ⟨List.mem_append_right _ List.mem_cons_self, by simp⟩

/-- What holds of two sessions, of which in the second one an owner asks alone for what it asks
in the first one. -/
structure Parallel (session solo : Session σ) (owner : String)
    (requests : List (String × Request)) (naming : Naming) : Prop where
  answers : (solo.run (alone naming.rename owner requests)).1
    = (ofOwner owner (session.run requests).1).map fun entry =>
        (entry.1, entry.2.renamed naming.rename)
  twin : Controller.Twin naming owner (session.run requests).2
    (solo.run (alone naming.rename owner requests)).2
  requested : ∀ entry ∈ ofOwner owner requests, ∀ op ∈ entry.2.ops, op.id ∈ naming.settled
  answered : ∀ entry ∈ ofOwner owner (session.run requests).1, ∀ op ∈ entry.2.ops,
    op.id ∈ naming.settled
  shown : ∀ earlier, earlier <+: requests -> ∀ id, session.Shows owner earlier id ->
    id ∈ naming.settled

/-- The ids of the owner's document are settled. -/
theorem settled_of_shows {part : Controller σ}
    (twin : Controller.Twin naming owner (session.run requests).2 part) {id : String}
    (shows : session.Shows owner requests id) : id ∈ naming.settled := by
  obtain ⟨document, loaded, op, member, rfl⟩ := shows
  exact twin.settled document loaded op member

namespace Parallel

/-- What was settled keeps its names. -/
theorem alone_eq (parallel : session.Parallel solo owner requests naming)
    (extended : naming.Extends later) :
    alone later.rename owner requests = alone naming.rename owner requests :=
  List.map_congr_left fun entry member => congrArg (Prod.mk entry.1)
    (Request.renamed_congr fun op held =>
      extended.same op.id (parallel.requested entry member op held))

/-- Answers that were settled keep their names. -/
theorem renamed_answers (parallel : session.Parallel solo owner requests naming)
    (extended : naming.Extends later) :
    ((ofOwner owner (session.run requests).1).map fun entry =>
        (entry.1, entry.2.renamed later.rename))
      = (solo.run (alone naming.rename owner requests)).1 := by
  rw [parallel.answers]
  exact List.map_congr_left fun entry member => congrArg (Prod.mk entry.1)
    (Answer.renamed_congr fun op held =>
      extended.same op.id (parallel.answered entry member op held))

variable [OwnedStore σ]

/-- A request of another owner changes nothing. -/
theorem concat_other (parallel : session.Parallel solo owner requests naming) {requester : String}
    (distinct : owner ≠ requester) (request : Request) :
    session.Parallel solo owner (requests ++ [(requester, request)]) naming := by
  have twin : Controller.Twin naming owner (session.run (requests ++ [(requester, request)])).2
      (solo.run (alone naming.rename owner requests)).2 := by
    rw [run_concat]
    exact parallel.twin.congr (Controller.load_handle_other _ _ distinct request) rfl
      (Controller.advances_handle _ _ _ request) le_rfl
  have answers : ofOwner owner (session.run (requests ++ [(requester, request)])).1
      = ofOwner owner (session.run requests).1 := by
    rw [run_concat]
    exact ofOwner_concat_other _ distinct _
  refine ⟨?_, ?_, ?_, ?_, ?_⟩
  · rw [alone_concat_other _ _ distinct, answers]
    exact parallel.answers
  · rw [alone_concat_other _ _ distinct]
    exact twin
  · rw [ofOwner_concat_other _ distinct]
    exact parallel.requested
  · rw [answers]
    exact parallel.answered
  · intro earlier before id shows
    rcases List.prefix_concat_iff.mp before with rfl | before
    · exact settled_of_shows twin shows
    · exact parallel.shown earlier before id shows

/-- A request of the owner is answered alike. -/
theorem concat_self (parallel : session.Parallel solo owner requests naming)
    (regular : ∀ position, (session.clock position).IsRegular)
    (soloRegular : ∀ position, (solo.clock position).IsRegular)
    (settled : ∀ op ∈ request.ops, op.id ∈ naming.settled)
    (works : session.Works owner (requests ++ [(owner, request)]))
    (soloWorks : solo.Works owner
      (alone naming.rename owner (requests ++ [(owner, request)]))) :
    ∃ later, naming.Extends later
      ∧ session.Parallel solo owner (requests ++ [(owner, request)]) later := by
  rw [alone_concat_self] at soloWorks
  obtain ⟨later, alike⟩ := parallel.twin.handle (isIdle_locks_run session requests)
    (isIdle_locks_run solo _) (regular _) (soloRegular _) settled works.last soloWorks.last
  have extended := alike.extended
  have renamed : request.renamed later.rename = request.renamed naming.rename :=
    Request.renamed_congr fun op held => extended.same op.id (settled op held)
  have whole := run_concat session requests owner request
  have part : solo.run (alone later.rename owner (requests ++ [(owner, request)]))
      = ((solo.run (alone naming.rename owner requests)).1 ++ [(owner, (solo.next
            (alone naming.rename owner requests) owner (request.renamed naming.rename)).1)],
          (solo.next (alone naming.rename owner requests) owner
            (request.renamed naming.rename)).2) := by
    rw [alone_concat_self, parallel.alone_eq extended, renamed, run_concat]
  have twins : Controller.Twin later owner (session.run (requests ++ [(owner, request)])).2
      (solo.run (alone later.rename owner (requests ++ [(owner, request)]))).2 := by
    rw [whole, part]
    exact alike.twin
  refine ⟨later, extended, ?_, twins, ?_, ?_, ?_⟩
  · rw [whole, part, ofOwner_concat_self, List.map_append, parallel.renamed_answers extended,
      next, alike.answer]
    rfl
  · rw [ofOwner_concat_self, List.forall_mem_append, List.forall_mem_singleton]
    exact ⟨fun entry member op held => extended.settled (parallel.requested entry member op held),
      fun op held => extended.settled (settled op held)⟩
  · rw [whole, ofOwner_concat_self, List.forall_mem_append, List.forall_mem_singleton]
    exact ⟨fun entry member op held => extended.settled (parallel.answered entry member op held),
      alike.answered⟩
  · intro earlier before id shows
    rcases List.prefix_concat_iff.mp before with rfl | before
    · exact settled_of_shows twins shows
    · exact extended.settled (parallel.shown earlier before id shows)

end Parallel

/-- The naming with which two sessions begin: what no new op gets as its id keeps its name. -/
def firstNaming (session solo : Session σ) : Naming where
  rename := .refl String
  settled := { id | session.NeverGive solo id }

theorem parallel_nil (same : DocumentStore.load solo.store owner
      = DocumentStore.load session.store owner)
    (known : session.HandsInKnown solo owner []) :
    session.Parallel solo owner [] (session.firstNaming solo) where
  answers := rfl
  twin := {
    load := by
      have renamed : Document.renamed (session.firstNaming solo).rename = id :=
        funext Document.renamed_refl
      rw [renamed]
      refine same.trans ?_
      change DocumentStore.load session.store owner
        = (DocumentStore.load session.store owner).map id
      cases DocumentStore.load session.store owner <;> rfl
    settled := fun document loaded op member =>
      known.stored op.id ⟨document, loaded, op, member, rfl⟩
    past := fun id never => never }
  requested := List.forall_mem_nil _
  answered := List.forall_mem_nil _
  shown earlier before id shows := by
    obtain rfl := List.prefix_nil.mp before
    exact known.stored id shows

/-- Two sessions in which the owner's document is the same at the start go on in parallel, as long
as the file system does not fail. -/
theorem exists_parallel [OwnedStore σ]
    (same : DocumentStore.load solo.store owner = DocumentStore.load session.store owner)
    (regular : ∀ position, (session.clock position).IsRegular)
    (soloRegular : ∀ position, (solo.clock position).IsRegular)
    (known : session.HandsInKnown solo owner requests) :
    ∃ naming, (session.firstNaming solo).Extends naming
      ∧ (session.Works owner requests -> solo.Works owner (alone naming.rename owner requests) ->
        session.Parallel solo owner requests naming) := by
  induction requests using List.reverseRecOn with
  | nil => exact ⟨_, .refl _, fun _ _ => parallel_nil same known⟩
  | append_singleton before entry inductionHypothesis =>
      obtain ⟨naming, extended, parallel⟩ := inductionHypothesis known.of_concat
      obtain ⟨requester, request⟩ := entry
      by_cases own : owner = requester
      · subst own
        by_cases works : session.Works owner (before ++ [(owner, request)])
            ∧ solo.Works owner (alone naming.rename owner (before ++ [(owner, request)]))
        · have soloWorks := works.2
          rw [alone_concat_self] at soloWorks
          have soFar := parallel works.1.of_concat soloWorks.of_concat
          have settled : ∀ op ∈ request.ops, op.id ∈ naming.settled := by
            intro op held
            rcases known.requested before request [] rfl op held with never | ⟨earlier, part, shows⟩
            · exact extended.settled never
            · exact soFar.shown earlier part op.id shows
          obtain ⟨later, more, done⟩ :=
            soFar.concat_self regular soloRegular settled works.1 works.2
          exact ⟨later, extended.trans more, fun _ _ => done⟩
        · exact ⟨naming, extended, fun wholeWorks soloWorks =>
            absurd ⟨wholeWorks, soloWorks⟩ works⟩
      · refine ⟨naming, extended, fun works soloWorks => ?_⟩
        rw [alone_concat_other _ _ own] at soloWorks
        exact (parallel works.of_concat soloWorks).concat_other own request

end

/-! ## Isolation of stores -/

/-- Whether a store isolates its owners from each other. An owner asks for the same in two
sessions, in one of them among requests of other owners and in the other one alone; the sessions
begin with the same document of the owner, their supplies and clocks may differ. Then the owner
is answered the same in both and has the same document in the end, but for the times and for the
ids that new ops got, as long as the file system fails in none of its own requests. An id that no
new op can get keeps its name; a new one that the owner hands in again must be one that its
document has shown. -/
def IsolatesOwners (σ : Type) [DocumentStore σ] [SessionStore σ] : Prop :=
  ∀ (session solo : Session σ) (owner : String) (requests : List (String × Request)),
    DocumentStore.load solo.store owner = DocumentStore.load session.store owner ->
    (∀ position, (session.clock position).IsRegular) ->
    (∀ position, (solo.clock position).IsRegular) ->
    session.HandsInKnown solo owner requests ->
    ∃ names : Equiv.Perm String, (∀ id, session.NeverGive solo id -> names id = id)
      ∧ (session.Works owner requests -> solo.Works owner (alone names owner requests) ->
        Agrees names owner (session.run requests) (solo.run (alone names owner requests)))

theorem isolatesOwners_of_owned [OwnedStore σ] : IsolatesOwners σ := by
  intro session solo owner requests same regular soloRegular known
  obtain ⟨naming, extended, parallel⟩ := exists_parallel same regular soloRegular known
  refine ⟨naming.rename, extended.same, fun works soloWorks => ?_⟩
  obtain ⟨answers, twin, -, -, -⟩ := parallel works soloWorks
  exact ⟨answers, twin.load⟩

/-- The store in memory and the store of files isolate their owners from each other. -/
theorem isolatesOwners :
    IsolatesOwners MemoryStore
      ∧ ∀ (δ : Type) [StoreDirectory δ] [LawfulDirectory δ] [LawfulCreation δ],
        IsolatesOwners (FileStore δ) :=
  ⟨isolatesOwners_of_owned, fun _ => isolatesOwners_of_owned⟩

/-! ## A session of two owners -/

/-- Requests of two owners in turn, and of one whose id is not accepted as a name of files. -/
def inTurn : List (String × Request) :=
  [("stage", .start Document.sides), ("hall", .start Document.sides),
    ("stage", .switch "right" true), ("../stage", .start Document.sides),
    ("hall", .switch "right" true), ("stage", .save [.set "moved" [.key "left"] .null]),
    ("hall", .reset), ("stage", .reset), ("stage", .routeSets)]

/-- A session at one time. -/
def atOnce {σ : Type} (store : σ) (counter : Nat) (seconds : Int) : Session σ where
  store
  timing := .standard
  supply := ⟨counter⟩
  clock _ := ⟨seconds, 0⟩

/-- The only id that is handed in is shorter than those of new ops. -/
theorem id_of_mem_inTurn {entry : String × Request} (member : entry ∈ inTurn) {op : Op}
    (held : op ∈ entry.2.ops) : op.id = "moved" := by
  have named : ∀ entry ∈ inTurn, ∀ op ∈ entry.2.ops, op.id = "moved" := by decide
  exact named entry member op held

omit [DocumentStore σ] [SessionStore σ] in
theorem neverGive_moved (session solo : Session σ) : session.NeverGive solo "moved" := by
  have short : "moved".length < opIdLength := by decide
  exact ⟨IdSupply.neverGives_of_short short _, IdSupply.neverGives_of_short short _⟩

theorem handsInKnown_inTurn {session solo : Session σ} {error : StoreError}
    (missing : DocumentStore.load session.store "stage" = .error error) :
    session.HandsInKnown solo "stage" inTurn where
  stored id shows := by
    obtain ⟨document, loaded, -⟩ := shows
    rw [run, List.foldl_nil] at loaded
    cases missing.symm.trans loaded
  requested before request after split op held := by
    have member : ("stage", request) ∈ inTurn := split ▸ List.mem_append_right _ List.mem_cons_self
    rw [id_of_mem_inTurn member held]
    exact .inl (neverGive_moved session solo)

omit [DocumentStore σ] [SessionStore σ] in
/-- An owner that hands in no other id asks for the very same alone. -/
theorem alone_inTurn {names : Equiv.Perm String} {session solo : Session σ}
    (fixed : ∀ id, session.NeverGive solo id -> names id = id) :
    alone names "stage" inTurn = ofOwner "stage" inTurn :=
  alone_of_fixed fun entry member op held => by
    rw [id_of_mem_inTurn (List.mem_filter.mp member).1 held]
    exact fixed _ (neverGive_moved session solo)

/-- In these requests the first owner fares as if it were alone, in memory and in files. -/
theorem isolatesOwners_inTurn :
    (∃ names, Agrees names "stage" ((atOnce MemoryStore.empty 0 0).run inTurn)
        ((atOnce MemoryStore.empty 7 1).run (ofOwner "stage" inTurn)))
      ∧ ∃ names, Agrees names "stage" ((atOnce FileStore.unmade 0 0).run inTurn)
        ((atOnce FileStore.unmade 7 1).run (ofOwner "stage" inTurn)) := by
  have first : Timestamp.IsRegular ⟨0, 0⟩ := ⟨by decide, by decide⟩
  have second : Timestamp.IsRegular ⟨1, 0⟩ := ⟨by decide, by decide⟩
  obtain ⟨memory, files⟩ := isolatesOwners
  constructor
  · obtain ⟨names, fixed, agrees⟩ := memory (atOnce MemoryStore.empty 0 0)
      (atOnce MemoryStore.empty 7 1) "stage" inTurn rfl (fun _ => first) (fun _ => second)
      (handsInKnown_inTurn rfl)
    have works : ∀ counter seconds requests,
        (atOnce MemoryStore.empty counter seconds).Works "stage" requests :=
      fun _ _ => works_of_neverFails MemoryStore.neverFails _ trivial "stage"
    rw [← alone_inTurn fixed]
    exact ⟨names, agrees (works 0 0 _) (works 7 1 _)⟩
  · obtain ⟨names, fixed, agrees⟩ := files Directory (atOnce FileStore.unmade 0 0)
      (atOnce FileStore.unmade 7 1) "stage" inTurn rfl (fun _ => first) (fun _ => second)
      (handsInKnown_inTurn rfl)
    have plain : FileStore.unmade.directory.IsPlain := trivial
    have works : ∀ counter seconds requests,
        (atOnce FileStore.unmade counter seconds).Works "stage" requests :=
      fun counter seconds =>
        works_of_neverFails FileStore.neverFails_plain (atOnce FileStore.unmade counter seconds)
          plain "stage"
    rw [← alone_inTurn fixed]
    exact ⟨names, agrees (works 0 0 _) (works 7 1 _)⟩

end Session

end LayerRouting
