import LayerRouting.Json.Basic
import Mathlib.Data.List.Nodup
import Mathlib.Data.String.Basic

/-!
# Laws of entries

A list of entries is read through `Entries.get?`, which sees the first entry of a key. What
inserting and erasing do to that view holds of every list, whether or not a key is
repeated. `Entries.Ordered` lists have increasing keys, and `Entries.eq_of_get?` says that
such a list is determined by its view. An object has the keys of its entries, and no other
tree has any.
-/

namespace LayerRouting

namespace Entries

variable {α : Type}

/-! ## Other values -/

/-- The entries with other values under their keys. -/
def mapValues {β : Type} (change : α -> β) (entries : List (String × α)) : List (String × β) :=
  entries.map fun entry => (entry.1, change entry.2)

section MapValues

variable {β : Type} (change : α -> β)

theorem get?_mapValues (key : String) (entries : List (String × α)) :
    get? key (mapValues change entries) = (get? key entries).map change := by
  induction entries with
  | nil => rfl
  | cons entry rest inductionHypothesis =>
      rw [mapValues] at inductionHypothesis ⊢
      rw [List.map_cons, get?, get?, inductionHypothesis]
      split <;> rfl

theorem keys_mapValues (entries : List (String × α)) :
    keys (mapValues change entries) = keys entries :=
  List.map_map

theorem insert_mapValues (key : String) (value : α) (entries : List (String × α)) :
    insert key (change value) (mapValues change entries)
      = mapValues change (insert key value entries) := by
  induction entries with
  | nil => rfl
  | cons entry rest inductionHypothesis =>
      rw [mapValues] at inductionHypothesis ⊢
      rw [List.map_cons, insert, insert, inductionHypothesis]
      split <;> rfl

theorem erase_mapValues (key : String) (entries : List (String × α)) :
    erase key (mapValues change entries) = mapValues change (erase key entries) := by
  rw [mapValues, erase, List.filter_map]
  rfl

end MapValues

/-! ## Reading after a change -/

/-- Inserting changes the view at one key. -/
theorem get?_insert (key other : String) (value : α) (entries : List (String × α)) :
    get? other (insert key value entries)
      = if key = other then some value else get? other entries := by
  induction entries with
  | nil => simp [insert, get?]
  | cons entry rest inductionHypothesis =>
      obtain ⟨name, old⟩ := entry
      by_cases here : name = key
      · subst here
        simp only [insert, if_true, get?]
        split <;> rfl
      · simp only [insert, here, if_false, get?, inductionHypothesis]
        by_cases found : name = other
        · have elsewhere : key ≠ other := fun same => here (found.trans same.symm)
          simp [found, elsewhere]
        · simp [found]

@[simp] theorem get?_insert_self (key : String) (value : α) (entries : List (String × α)) :
    get? key (insert key value entries) = some value := by
  simp [get?_insert]

theorem get?_insert_of_ne {key other : String} (distinct : key ≠ other) (value : α)
    (entries : List (String × α)) :
    get? other (insert key value entries) = get? other entries := by
  simp [get?_insert, distinct]

/-- Of two values inserted at one key the later one stays, at the place of the first. -/
theorem insert_insert (key : String) (first second : α) (entries : List (String × α)) :
    insert key second (insert key first entries) = insert key second entries := by
  induction entries with
  | nil => simp [insert]
  | cons entry rest inductionHypothesis =>
      obtain ⟨name, old⟩ := entry
      by_cases here : name = key <;> simp [insert, here, inductionHypothesis]

/-- Inserting what the view shows already changes nothing. -/
theorem insert_of_get? {key : String} {value : α} {entries : List (String × α)}
    (found : get? key entries = some value) : insert key value entries = entries := by
  induction entries with
  | nil => simp [get?] at found
  | cons entry rest inductionHypothesis =>
      obtain ⟨name, old⟩ := entry
      by_cases here : name = key <;> simp_all [insert, get?]

/-- Erasing a key removes all that the view shows at it, and nothing else. -/
theorem get?_erase (key other : String) (entries : List (String × α)) :
    get? other (erase key entries) = if key = other then none else get? other entries := by
  induction entries with
  | nil => simp [erase, get?]
  | cons entry rest inductionHypothesis =>
      obtain ⟨name, old⟩ := entry
      simp only [erase] at inductionHypothesis
      by_cases here : name = key
      · subst here
        simp only [erase, List.filter_cons, ne_eq, not_true, decide_false, if_false, get?,
          inductionHypothesis, Bool.false_eq_true]
        split <;> rfl
      · simp only [erase, List.filter_cons, ne_eq, here, not_false_eq_true, decide_true,
          if_true, get?, inductionHypothesis]
        by_cases found : name = other
        · have elsewhere : key ≠ other := fun same => here (found.trans same.symm)
          simp [found, elsewhere]
        · simp [found]

/-- Inserting at the place of a key changes the view at that key only, as plain inserting
does; the list need not be ordered. -/
theorem get?_insertSorted (key other : String) (value : α) (entries : List (String × α)) :
    get? other (insertSorted key value entries)
      = if key = other then some value else get? other entries := by
  induction entries with
  | nil => simp [insertSorted, get?]
  | cons entry rest inductionHypothesis =>
      obtain ⟨name, old⟩ := entry
      by_cases here : name = key
      · subst here
        simp only [insertSorted, if_true, get?]
        split <;> rfl
      · by_cases before : key < name
        · simp [insertSorted, here, before, get?]
        · simp only [insertSorted, here, before, if_false, get?, inductionHypothesis]
          by_cases found : name = other
          · have elsewhere : key ≠ other := fun same => here (found.trans same.symm)
            simp [found, elsewhere]
          · simp [found]

/-- The view of two lists is that of the first one, and where it shows nothing that of the
second. -/
theorem get?_append (key : String) (first second : List (String × α)) :
    get? key (first ++ second) = (get? key first).or (get? key second) := by
  induction first with
  | nil => simp [get?]
  | cons entry rest inductionHypothesis =>
      obtain ⟨name, value⟩ := entry
      by_cases here : name = key <;> simp [get?, here, inductionHypothesis]

/-- Of entries that are written one after another the last one of each key counts, whatever the
way of writing does to the places. -/
theorem get?_foldl {write : String -> α -> List (String × α) -> List (String × α)}
    (law : ∀ key other value entries, get? other (write key value entries)
      = if key = other then some value else get? other entries)
    (key : String) (written start : List (String × α)) :
    get? key (written.foldl (fun result entry => write entry.1 entry.2 result) start)
      = (get? key written.reverse).or (get? key start) := by
  induction written generalizing start with
  | nil => simp [get?]
  | cons entry rest inductionHypothesis =>
      obtain ⟨name, value⟩ := entry
      rw [List.foldl_cons, inductionHypothesis, law, List.reverse_cons, get?_append,
        Option.or_assoc]
      by_cases here : name = key <;> simp [get?, here]

/-! ## Keys -/

/-- The view shows entries of the list. -/
theorem mem_of_get? {key : String} {value : α} {entries : List (String × α)}
    (found : get? key entries = some value) : (key, value) ∈ entries := by
  induction entries with
  | nil => simp [get?] at found
  | cons entry rest inductionHypothesis =>
      obtain ⟨name, old⟩ := entry
      by_cases here : name = key
      · simp_all [get?]
      · simp only [get?, here, if_false] at found
        exact List.mem_cons_of_mem _ (inductionHypothesis found)

/-- The view shows something at exactly the keys of the list. -/
theorem get?_isSome_iff {key : String} {entries : List (String × α)} :
    (get? key entries).isSome ↔ key ∈ keys entries := by
  induction entries with
  | nil => simp [get?, keys]
  | cons entry rest inductionHypothesis =>
      obtain ⟨name, old⟩ := entry
      by_cases here : name = key
      · simp [get?, keys, here]
      · simp only [keys] at inductionHypothesis
        simp [get?, keys, here, Ne.symm here, inductionHypothesis]

/-- In a list without repeated keys every entry is seen. -/
theorem get?_of_mem {key : String} {value : α} {entries : List (String × α)}
    (distinct : (keys entries).Nodup) (member : (key, value) ∈ entries) :
    get? key entries = some value := by
  induction entries with
  | nil => cases member
  | cons entry rest inductionHypothesis =>
      obtain ⟨name, old⟩ := entry
      simp only [keys, List.map_cons, List.nodup_cons] at distinct
      rcases List.mem_cons.mp member with same | later
      · cases same
        simp [get?]
      · have elsewhere : name ≠ key := by
          rintro rfl
          exact distinct.1 (List.mem_map.mpr ⟨_, later, rfl⟩)
        simp [get?, elsewhere, inductionHypothesis distinct.2 later]

/-- The view shows the first entry of a key. -/
theorem get?_append_cons {key : String} {earlier : List (String × α)} (first : key ∉ keys earlier)
    (value : α) (later : List (String × α)) :
    get? key (earlier ++ (key, value) :: later) = some value := by
  have absent : get? key earlier = none := by
    rw [← Option.not_isSome_iff_eq_none, get?_isSome_iff]
    exact first
  rw [get?_append, absent, Option.none_or, get?, if_pos rfl]

/-- What the view shows at a key divides the list. -/
theorem exists_append_of_get? {key : String} {value : α} {entries : List (String × α)}
    (found : get? key entries = some value) :
    ∃ earlier later, entries = earlier ++ (key, value) :: later ∧ key ∉ keys earlier := by
  induction entries with
  | nil => cases found
  | cons entry rest inductionHypothesis =>
      obtain ⟨name, old⟩ := entry
      rw [get?] at found
      split at found
      · next here =>
          cases found
          exact ⟨[], rest, by rw [here, List.nil_append], List.not_mem_nil⟩
      · next elsewhere =>
          obtain ⟨earlier, later, rfl, first⟩ := inductionHypothesis found
          refine ⟨(name, old) :: earlier, later, rfl, ?_⟩
          exact List.not_mem_cons_of_ne_of_not_mem (Ne.symm elsewhere) first

/-- Inserting replaces the value of the first entry of its key, at its place. -/
theorem insert_append_cons {key : String} {earlier : List (String × α)} (first : key ∉ keys earlier)
    (old value : α) (later : List (String × α)) :
    insert key value (earlier ++ (key, old) :: later) = earlier ++ (key, value) :: later := by
  induction earlier with
  | nil => simp [insert]
  | cons entry rest inductionHypothesis =>
      obtain ⟨elsewhere, others⟩ := List.ne_and_not_mem_of_not_mem_cons first
      rw [List.cons_append, insert, if_neg (Ne.symm elsewhere), inductionHypothesis others,
        List.cons_append]

/-- Erasing a key leaves entries without it as they are. -/
theorem erase_of_not_mem {key : String} {entries : List (String × α)}
    (absent : key ∉ keys entries) : erase key entries = entries := by
  refine List.filter_eq_self.mpr fun entry member => ?_
  simpa using fun same : entry.1 = key => absent (same ▸ List.mem_map_of_mem member)

/-- Erasing takes away the first entry of its key and what else has the key after it. -/
theorem erase_append_cons {key : String} {earlier : List (String × α)} (first : key ∉ keys earlier)
    (value : α) (later : List (String × α)) :
    erase key (earlier ++ (key, value) :: later) = earlier ++ erase key later := by
  rw [erase, List.filter_append, List.filter_cons_of_neg (by simp)]
  exact congrArg (· ++ _) (erase_of_not_mem first)

/-- Inserting adds at most its own key, at the end. -/
theorem keys_insert (key : String) (value : α) (entries : List (String × α)) :
    keys (insert key value entries)
      = if key ∈ keys entries then keys entries else keys entries ++ [key] := by
  induction entries with
  | nil => simp [insert, keys]
  | cons entry rest inductionHypothesis =>
      obtain ⟨name, old⟩ := entry
      by_cases here : name = key
      · simp [insert, keys, here]
      · simp only [keys] at inductionHypothesis
        simp only [insert, here, if_false, keys, List.map_cons, inductionHypothesis,
          List.mem_cons, Ne.symm here, false_or]
        by_cases known : key ∈ rest.map Prod.fst <;> simp [known]

/-- Inserting keeps keys distinct. -/
theorem nodup_keys_insert {entries : List (String × α)} (distinct : (keys entries).Nodup)
    (key : String) (value : α) : (keys (insert key value entries)).Nodup := by
  rw [keys_insert]
  split
  · exact distinct
  · next absent =>
      rw [List.nodup_append]
      refine ⟨distinct, by simp, ?_⟩
      rintro present member other last rfl
      rw [List.mem_singleton] at last
      exact absent (last ▸ member)

/-- A list that is built by inserting repeats no key. -/
theorem nodup_keys_ofList (entries : List (String × α)) : (keys (ofList entries)).Nodup := by
  have grows : ∀ (rest start : List (String × α)), (keys start).Nodup ->
      (keys (rest.foldl (fun result entry => insert entry.1 entry.2 result) start)).Nodup := by
    intro rest
    induction rest with
    | nil => exact fun start distinct => distinct
    | cons entry rest inductionHypothesis =>
        exact fun start distinct =>
          inductionHypothesis _ (nodup_keys_insert distinct entry.1 entry.2)
  exact grows entries [] (by simp [keys])

/-! ## Building entries -/

/-- A new key is appended. -/
theorem insert_of_not_mem {key : String} {entries : List (String × α)}
    (new : key ∉ keys entries) (value : α) :
    insert key value entries = entries ++ [(key, value)] := by
  induction entries with
  | nil => rfl
  | cons entry rest inductionHypothesis =>
      obtain ⟨name, old⟩ := entry
      simp only [keys, List.map_cons, List.mem_cons, not_or] at new
      rw [insert, if_neg (Ne.symm new.1), inductionHypothesis new.2, List.cons_append]

/-- Every entry after an insertion is the new one or an old one. -/
theorem mem_of_mem_insert {key : String} {value : α} {entry : String × α}
    {entries : List (String × α)} (member : entry ∈ insert key value entries) :
    entry.2 = value ∨ entry ∈ entries := by
  induction entries with
  | nil =>
      rw [List.mem_singleton.mp member]
      exact .inl rfl
  | cons head rest inductionHypothesis =>
      obtain ⟨name, old⟩ := head
      rw [insert] at member
      split at member
      · rcases List.mem_cons.mp member with rfl | later
        · exact .inl rfl
        · exact .inr (List.mem_cons_of_mem _ later)
      · rcases List.mem_cons.mp member with rfl | later
        · exact .inr List.mem_cons_self
        · exact (inductionHypothesis later).imp_right (List.mem_cons_of_mem _)

/-- Entries that repeat no key are built as they are. -/
theorem ofList_of_nodup {entries : List (String × α)} (distinct : (keys entries).Nodup) :
    ofList entries = entries := by
  have grows : ∀ (rest start : List (String × α)), (keys (start ++ rest)).Nodup ->
      rest.foldl (fun result entry => insert entry.1 entry.2 result) start = start ++ rest := by
    intro rest
    induction rest with
    | nil => exact fun start _ => (List.append_nil start).symm
    | cons entry rest inductionHypothesis =>
        intro start distinct
        have new : entry.1 ∉ keys start := by
          rw [keys, List.map_append, List.nodup_append] at distinct
          intro known
          exact distinct.2.2 entry.1 known entry.1 List.mem_cons_self rfl
        rw [List.foldl_cons, insert_of_not_mem new, inductionHypothesis _ (by simpa using distinct),
          List.append_assoc, List.singleton_append]
  exact grows entries [] distinct

/-- Keys that are added one after the other, each unless it is there already, stand behind the
known ones in the order of their first appearance. -/
theorem foldl_addNew (added known : List String) :
    added.foldl (fun known key => if key ∈ known then known else known ++ [key]) known
      = known ++ (added.filter (· ∉ known)).eraseDups := by
  induction added generalizing known with
  | nil => simp
  | cons key rest inductionHypothesis =>
      rw [List.foldl_cons, inductionHypothesis]
      split
      · next present => simp [present]
      · next absent =>
          have others : rest.filter (· ∉ known ++ [key])
              = (rest.filter (· ∉ known)).filter fun other => !other == key := by
            rw [List.filter_filter]
            refine List.filter_congr fun other _ => ?_
            simp [and_comm, not_or, beq_eq_decide]
          rw [others, List.filter_cons_of_pos (by simpa using absent), List.eraseDups_cons,
            List.append_assoc, List.singleton_append]

/-- Keys that are not repeated each appear first where they stand. -/
theorem eraseDups_of_nodup {keys : List String} (distinct : keys.Nodup) :
    keys.eraseDups = keys := by
  induction keys with
  | nil => rfl
  | cons key rest inductionHypothesis =>
      obtain ⟨absent, later⟩ := List.nodup_cons.mp distinct
      have others : rest.filter (fun other => !other == key) = rest := by
        refine List.filter_eq_self.mpr fun other member => ?_
        simpa using fun same : other = key => absent (same ▸ member)
      rw [List.eraseDups_cons, others, inductionHypothesis later]

/-- Entries without repeated keys are told by their keys and by what the view shows at these. -/
theorem eq_map_keys {entries : List (String × α)} (distinct : (keys entries).Nodup)
    {value : String -> α} (shown : ∀ key ∈ keys entries, get? key entries = some (value key)) :
    entries = (keys entries).map fun key => (key, value key) := by
  have held : ∀ entry ∈ entries, (entry.1, value entry.1) = entry := by
    intro entry member
    have found := shown entry.1 (List.mem_map_of_mem member)
    rw [get?_of_mem distinct member] at found
    rw [← Option.some.inj found]
  rw [keys, List.map_map]
  exact ((List.map_congr_left held).trans (List.map_id entries)).symm

/-- Every entry that is built comes from the list. -/
theorem mem_of_mem_ofList {entry : String × α} {entries : List (String × α)}
    (member : entry ∈ ofList entries) : ∃ other ∈ entries, entry.2 = other.2 := by
  have grows : ∀ (rest start : List (String × α)),
      entry ∈ rest.foldl (fun result entry => insert entry.1 entry.2 result) start ->
      entry ∈ start ∨ ∃ other ∈ rest, entry.2 = other.2 := by
    intro rest
    induction rest with
    | nil => exact fun start held => .inl held
    | cons next rest inductionHypothesis =>
        intro start held
        rcases inductionHypothesis _ held with early | ⟨other, later, same⟩
        · rcases mem_of_mem_insert early with same | old
          · exact .inr ⟨next, List.mem_cons_self, same⟩
          · exact .inl old
        · exact .inr ⟨other, List.mem_cons_of_mem _ later, same⟩
  exact (grows entries [] member).resolve_left List.not_mem_nil

/-! ## Ordered entries -/

/-- Whether keys increase, so that none is repeated. -/
def Ordered (entries : List (String × α)) : Prop :=
  entries.Pairwise fun left right => left.1 < right.1

/-- Every entry after an insertion is the new one or an old one. -/
theorem mem_of_mem_insertSorted {key : String} {value : α} {entry : String × α}
    {entries : List (String × α)} (member : entry ∈ insertSorted key value entries) :
    entry = (key, value) ∨ entry ∈ entries := by
  induction entries with
  | nil => simpa [insertSorted] using member
  | cons head rest inductionHypothesis =>
      obtain ⟨name, old⟩ := head
      by_cases here : name = key
      · simp only [insertSorted, here, if_true, List.mem_cons] at member ⊢
        exact member.imp_right .inr
      · by_cases before : key < name
        · simpa [insertSorted, here, before] using member
        · simp only [insertSorted, here, before, if_false, List.mem_cons] at member ⊢
          rcases member with same | later
          · exact .inr (.inl same)
          · exact (inductionHypothesis later).imp_right .inr

/-- Inserting at its place keeps entries ordered. -/
theorem Ordered.insertSorted {entries : List (String × α)} (ordered : Ordered entries)
    (key : String) (value : α) : Ordered (insertSorted key value entries) := by
  induction entries with
  | nil => simp [Entries.insertSorted, Ordered]
  | cons head rest inductionHypothesis =>
      obtain ⟨name, old⟩ := head
      obtain ⟨first, later⟩ := List.pairwise_cons.mp ordered
      by_cases here : name = key
      · subst here
        simpa [Entries.insertSorted, Ordered] using And.intro first later
      · by_cases before : key < name
        · simp only [Entries.insertSorted, here, before, if_false, if_true]
          refine List.pairwise_cons.mpr ⟨?_, ordered⟩
          intro entry member
          rcases List.mem_cons.mp member with rfl | member
          · exact before
          · exact before.trans (first entry member)
        · simp only [Entries.insertSorted, here, before, if_false]
          refine List.pairwise_cons.mpr ⟨?_, inductionHypothesis later⟩
          intro entry member
          rcases mem_of_mem_insertSorted member with rfl | member
          · exact lt_of_le_of_ne (not_lt.mp before) here
          · exact first entry member

/-- Ordered entries repeat no key. -/
theorem Ordered.nodup_keys {entries : List (String × α)} (ordered : Ordered entries) :
    (keys entries).Nodup :=
  List.pairwise_map.mpr (ordered.imp fun before => ne_of_lt before)

/-- Ordered entries with one view are the same list. -/
theorem eq_of_get? {left right : List (String × α)} (leftOrdered : Ordered left)
    (rightOrdered : Ordered right) (agree : ∀ key, get? key left = get? key right) :
    left = right := by
  have transfer : ∀ {first second : List (String × α)}, Ordered first ->
      (∀ key, get? key first = get? key second) -> ∀ entry ∈ first, entry ∈ second := by
    intro first second ordered same entry member
    exact mem_of_get? (same entry.1 ▸ get?_of_mem ordered.nodup_keys member)
  have perm : left.Perm right := by
    rw [List.perm_ext_iff_of_nodup (List.Nodup.of_map _ leftOrdered.nodup_keys)
      (List.Nodup.of_map _ rightOrdered.nodup_keys)]
    exact fun entry => ⟨transfer leftOrdered agree entry,
      transfer rightOrdered (fun key => (agree key).symm) entry⟩
  exact perm.eq_of_pairwise (fun _ _ _ _ one two => absurd one (not_lt.mpr two.le))
    leftOrdered rightOrdered

end Entries

namespace Json

/-! ## Objects -/

/-- The keys of an object; other trees have none. -/
def keys : Json -> List String
  | .object entries => Entries.keys entries
  | _ => []

theorem mem_keys_iff {tree : Json} {key : String} : key ∈ tree.keys ↔ (tree.get? key).isSome := by
  cases tree with
  | object entries => exact Entries.get?_isSome_iff.symm
  | array | null | bool | number | string => simp [keys, Json.get?]

theorem get?_of_not_isObject {tree : Json} (other : ¬ tree.isObject) (key : String) :
    tree.get? key = none := by
  cases tree <;> simp_all [isObject, Json.get?]

theorem keys_of_not_isObject {tree : Json} (other : ¬ tree.isObject) : tree.keys = [] := by
  cases tree <;> simp_all [isObject, keys]

end Json

end LayerRouting
