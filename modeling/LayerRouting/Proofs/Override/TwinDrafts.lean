import LayerRouting.Proofs.Override.OpIds
import LayerRouting.Proofs.Override.Renaming
import Mathlib.Data.Set.Insert
import Mathlib.Logic.Equiv.Basic

/-!
# Twin drafts

Every edit that adds an op takes a new id for it, so two drafts on which the same is done come to
hold the same ops under other ids. A `Naming` says which id of the one belongs to which id of the
other, and on which ids that is settled: those that neither side will give again. When both sides
take a new id these two come to belong together, and what was settled stays so
(`Naming.extends_joined`). Setting a path keeps drafts twins under a naming that goes on in that
way (`Draft.Twin.setPath`).
-/

namespace LayerRouting

namespace IdSupply

/-- Whether an id is none of those that the supply has still to give. -/
def NeverGives (supply : IdSupply) (id : String) : Prop :=
  ∀ counter, supply.next ≤ counter -> opIdOf counter ≠ id

variable {supply later : IdSupply} {id : String}

theorem NeverGives.mono (never : supply.NeverGives id) (advanced : supply.next ≤ later.next) :
    later.NeverGives id :=
  fun counter ahead => never counter (advanced.trans ahead)

/-- The id that a supply gives it gives only once. -/
theorem neverGives_take (supply : IdSupply) : supply.take.2.NeverGives supply.take.1 := by
  intro counter ahead same
  have advanced : supply.next < counter := ahead
  exact advanced.ne (opIdOf_injective same).symm

theorem NeverGives.ne_take (never : supply.NeverGives id) : id ≠ supply.take.1 :=
  fun same => never supply.next le_rfl same.symm

/-- An id that is shorter than all new ones is never given. -/
theorem neverGives_of_short (short : id.length < opIdLength) (supply : IdSupply) :
    supply.NeverGives id := by
  rintro counter - rfl
  rw [opIdOf, String.length_ofList, List.length_append, List.length_replicate] at short
  omega

end IdSupply

/-! ## Namings -/

/-- A renaming of op ids, and the ids for which it is settled. -/
structure Naming where
  rename : Equiv.Perm String
  settled : Set String

namespace Naming

/-- Whether a naming keeps what is settled by another one. -/
structure Extends (naming later : Naming) : Prop where
  settled : naming.settled ⊆ later.settled
  same : ∀ id ∈ naming.settled, later.rename id = naming.rename id

variable {naming middle later : Naming} {first second firstLater secondLater : IdSupply}

theorem Extends.refl (naming : Naming) : naming.Extends naming :=
  ⟨subset_rfl, fun _ _ => rfl⟩

theorem Extends.trans (start : naming.Extends middle) (rest : middle.Extends later) :
    naming.Extends later where
  settled := start.settled.trans rest.settled
  same id known := (rest.same id (start.settled known)).trans (start.same id known)

/-- Whether neither of two supplies will give a settled id, each on its side. -/
def IsPast (naming : Naming) (first second : IdSupply) : Prop :=
  ∀ id ∈ naming.settled, first.NeverGives id ∧ second.NeverGives (naming.rename id)

theorem IsPast.mono (past : naming.IsPast first second) (advanced : first.next ≤ firstLater.next)
    (secondAdvanced : second.next ≤ secondLater.next) : naming.IsPast firstLater secondLater :=
  fun id known => ⟨(past id known).1.mono advanced, (past id known).2.mono secondAdvanced⟩

/-- The naming by which besides two more ids belong together. -/
def joined (naming : Naming) (id other : String) : Naming where
  rename := naming.rename.trans (Equiv.swap (naming.rename id) other)
  settled := insert id naming.settled

theorem rename_joined_self (naming : Naming) (id other : String) :
    (naming.joined id other).rename id = other :=
  Equiv.swap_apply_left _ _

/-- New ids of both sides may be joined: nothing settled has to do with them. -/
theorem extends_joined (past : naming.IsPast first second) :
    naming.Extends (naming.joined first.take.1 second.take.1) where
  settled := Set.subset_insert _ _
  same id known := by
    obtain ⟨never, neverOther⟩ := past id known
    exact Equiv.swap_apply_of_ne_of_ne (naming.rename.injective.ne never.ne_take)
      neverOther.ne_take

/-- The ids that were joined are given to nobody else. -/
theorem isPast_joined (past : naming.IsPast first second) :
    (naming.joined first.take.1 second.take.1).IsPast first.take.2 second.take.2 := by
  rintro id (rfl | known)
  · rw [rename_joined_self]
    exact ⟨first.neverGives_take, second.neverGives_take⟩
  · obtain ⟨never, neverOther⟩ := past id known
    rw [(extends_joined past).same id known]
    exact ⟨never.mono (Nat.le_succ _), neverOther.mono (Nat.le_succ _)⟩

/-- A log whose ids are settled keeps its names. -/
theorem Extends.renamed_log (extended : naming.Extends later) {log : Log}
    (settled : ∀ op ∈ log, op.id ∈ naming.settled) :
    Log.renamed later.rename log = Log.renamed naming.rename log :=
  Log.renamed_congr fun op member => extended.same op.id (settled op member)

/-- A document whose ids are settled keeps its names. -/
theorem Extends.renamed_document (extended : naming.Extends later) {document : Document Json}
    (settled : ∀ op ∈ document.log, op.id ∈ naming.settled) :
    document.renamed later.rename = document.renamed naming.rename :=
  Document.renamed_congr fun op member => extended.same op.id (settled op member)

end Naming

/-! ## Drafts -/

namespace Draft

/-- Whether two drafts are the same up to the ids of their ops, which are settled. -/
structure Twin (naming : Naming) (first second : Draft) : Prop where
  defaults : second.defaults = first.defaults
  log : second.log = Log.renamed naming.rename first.log
  settled : ∀ op ∈ first.log, op.id ∈ naming.settled
  past : naming.IsPast first.supply second.supply

namespace Twin

variable {naming : Naming} {first second : Draft}

/-- Drafts of twin logs are twins. -/
theorem withLog (twin : Twin naming first second) {log : Log}
    (settled : ∀ op ∈ log, op.id ∈ naming.settled) :
    Twin naming { first with log }
      { first with log := Log.renamed naming.rename log, supply := second.supply } where
  defaults := rfl
  log := rfl
  settled := settled
  past := twin.past

/-- Twins to which an op is added are twins again, once the ids of the op are joined. -/
theorem appendSet (twin : Twin naming first second) (path : Path) (value : Json) :
    ∃ later, naming.Extends later
      ∧ Twin later (first.appendSet path value) (second.appendSet path value) := by
  have extended := Naming.extends_joined twin.past
  refine ⟨_, extended, twin.defaults, ?_, ?_, Naming.isPast_joined twin.past⟩
  · have added : (Op.set (opIdOf first.supply.next) path value).renamed
        (naming.joined first.supply.take.1 second.supply.take.1).rename
          = .set (opIdOf second.supply.next) path value :=
      congrArg (Op.set · path value) (naming.rename_joined_self _ _)
    rw [log_appendSet, log_appendSet, Log.renamed_append, extended.renamed_log twin.settled,
      ← twin.log, ← added]
    rfl
  · rw [log_appendSet]
    intro op member
    rcases List.mem_append.mp member with old | new
    · exact extended.settled (twin.settled op old)
    · rw [List.mem_singleton.mp new]
      exact Set.mem_insert _ _

/-- Setting a path keeps twins. -/
theorem setPath (twin : Twin naming first second) (path : Path) (value : Json) :
    ∃ later, naming.Extends later
      ∧ Twin later (first.setPath path value) (second.setPath path value) := by
  have split := splitLast?_renamed naming.rename (fun op => path.isWithin op.path)
    (fun op => by rw [Op.path_renamed]) (dropWithin path first.log)
  have kept : ∀ op ∈ dropWithin path first.log, op.id ∈ naming.settled :=
    fun op member => twin.settled op (mem_dropWithin.mp member).1
  have cleared := twin.withLog kept
  simp only [Draft.setPath, recordUnderAncestor?, twin.log, twin.defaults,
    alreadyRecords_renamed, dropWithin_renamed, split]
  by_cases recorded : alreadyRecords first.log path value
  · rw [if_pos recorded, if_pos recorded]
    exact ⟨naming, .refl naming, twin⟩
  · rw [if_neg recorded, if_neg recorded]
    cases found : splitLast? (fun op => path.isWithin op.path) (dropWithin path first.log) with
    | none =>
        simp only [Option.map_none]
        split
        · exact ⟨naming, .refl naming, cleared⟩
        · exact cleared.appendSet path value
    | some parts =>
        obtain ⟨before, op, after⟩ := parts
        obtain ⟨parted, -, -⟩ := splitLast?_eq_some found
        cases op with
        | set id ancestor container =>
            simp only [Option.map_some, Op.renamed]
            rw [parted, List.forall_mem_append, List.forall_mem_cons] at kept
            have folded : ∀ op ∈ before ++ Op.set id ancestor
                (container.setAt ((path.relativeTo? ancestor).getD []) value) :: after,
                op.id ∈ naming.settled := by
              rw [List.forall_mem_append, List.forall_mem_cons]
              exact kept
            have twins := twin.withLog folded
            rw [Log.renamed_append] at twins
            exact ⟨naming, .refl naming, twins⟩
        | delete id ancestor =>
            simp only [Option.map_some, Op.renamed]
            exact cleared.appendSet path value

end Twin

end Draft

end LayerRouting
