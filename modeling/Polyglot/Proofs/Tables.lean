import Mathlib.Data.List.Induction
import Polyglot.Table

/-!
# Tables as sets of entries

A table that is ordered holds every name once. What it holds under a name is then a question
of membership (`Table.find?_eq_some_iff`), and two ordered tables with the same entries are
equal, in whatever order the entries were inserted (`Table.Ordered.eq_of_perm`), as are two that
hold the same under every name (`Table.Ordered.ext`).

Inserting keeps the order (`Table.Ordered.insert`), adds an entry under a new name
(`Table.insert_perm`), and keeps the names when the name is there
(`Table.map_fst_insert_of_find?`). Inserting entries in their order gives the same table
again (`Table.ofList_of_ordered`), and in any order a table that is ordered and holds the last
entry of every name (`Table.find?_ofList`), so all of them if no name comes twice
(`Table.ofList_perm`).
-/

set_option autoImplicit false

namespace Polyglot.Table

variable {α β : Type} {name sought : String} {value : α} {table other : List (String × α)}

/-- The names of a table strictly increase. -/
def Ordered (table : List (String × α)) : Prop :=
  table.Pairwise fun first second => first.1 < second.1

/-- One of two different names comes first. -/
theorem lt_of_not_lt (differ : name ≠ sought) (notBefore : ¬ name < sought) : sought < name :=
  Std.lt_of_le_of_ne (String.not_lt.mp notBefore) (Ne.symm differ)

/-! ## Looking up -/

/-- Nothing is found under a name that no entry has. -/
theorem find?_eq_none_iff : find? name table = none ↔ ∀ entry ∈ table, entry.1 ≠ name := by
  induction table with
  | nil => simp [find?]
  | cons entry rest ih =>
      by_cases same : name = entry.1
      · simp [find?, same]
      · simp [find?, same, ih, Ne.symm same]

/-- Nothing is found under a name that is not among the names. -/
theorem find?_eq_none_iff_not_mem : find? name table = none ↔ name ∉ table.map (·.1) := by
  rw [find?_eq_none_iff, List.mem_map]
  exact ⟨fun absent ⟨entry, member, same⟩ => absent entry member same,
    fun absent entry member same => absent ⟨entry, member, same⟩⟩

/-- What is found under a name is an entry. -/
theorem mem_of_find? (found : find? name table = some value) : (name, value) ∈ table := by
  induction table with
  | nil => cases found
  | cons entry rest ih =>
      obtain ⟨first, held⟩ := entry
      rw [find?] at found
      split at found
      · rename_i same
        obtain rfl := Option.some.inj found
        exact same ▸ List.mem_cons_self
      · exact List.mem_cons_of_mem _ (ih found)

/-- Nothing is found under a name whose entries are left out. -/
theorem find?_filter_self (name : String) (table : List (String × α)) :
    find? name (table.filter fun entry => entry.1 != name) = none :=
  find?_eq_none_iff.mpr fun _ member => bne_iff_ne.mp (List.mem_filter.mp member).2

/-- What is found under one name does not depend on the entries under another. -/
theorem find?_filter_of_ne (differ : sought ≠ name) (table : List (String × α)) :
    find? sought (table.filter fun entry => entry.1 != name) = find? sought table := by
  induction table with
  | nil => rfl
  | cons entry rest ih =>
      by_cases same : entry.1 = name
      · rw [List.filter_cons_of_neg (by simp [same]), ih, find?, if_neg (same ▸ differ)]
      · rw [List.filter_cons_of_pos (by simp [same]), find?, find?, ih]

/-- What is found is changed as the entries are. -/
theorem find?_map (change : α → β) (name : String) (table : List (String × α)) :
    find? name (table.map fun entry => (entry.1, change entry.2)) =
      (find? name table).map change := by
  induction table with
  | nil => rfl
  | cons entry rest ih =>
      simp only [List.map_cons, find?]
      split
      · rfl
      · exact ih

namespace Ordered

theorem filter (ordered : Ordered table) (keep : String × α → Bool) :
    Ordered (table.filter keep) :=
  List.Pairwise.filter keep ordered

theorem nil : Ordered ([] : List (String × α)) :=
  List.Pairwise.nil

/-- Two entries with one name are one entry. -/
theorem eq_of_mem (ordered : Ordered table) {held : α} (first : (name, value) ∈ table)
    (second : (name, held) ∈ table) : value = held := by
  induction table with
  | nil => cases first
  | cons entry rest ih =>
      obtain ⟨before, others⟩ := List.pairwise_cons.mp ordered
      -- A name that comes again later would come before itself.
      rcases List.mem_cons.mp first with rfl | later
      · rcases List.mem_cons.mp second with same | again
        · exact (Prod.mk.inj same).2.symm
        · exact absurd (before (name, held) again) (String.lt_irrefl name)
      · rcases List.mem_cons.mp second with rfl | again
        · exact absurd (before (name, value) later) (String.lt_irrefl name)
        · exact ih others later again

/-- The names of an ordered table are different. -/
theorem nodup (ordered : Ordered table) : (table.map (·.1)).Nodup :=
  List.pairwise_map.mpr (List.Pairwise.imp String.ne_of_lt ordered)

/-- Two ordered tables with the same entries are equal. -/
theorem eq_of_perm (ordered : Ordered table) (others : Ordered other)
    (same : table.Perm other) : table = other := by
  refine List.Perm.eq_of_pairwise ?_ ordered others same
  intro first second _ _ less more
  exact absurd more (String.lt_asymm less)

end Ordered

/-- An ordered table has an entry exactly when the entry is found under its name. -/
theorem find?_eq_some_iff (ordered : Ordered table) :
    find? name table = some value ↔ (name, value) ∈ table := by
  refine ⟨mem_of_find?, fun member => ?_⟩
  cases found : find? name table with
  | none => exact absurd rfl (find?_eq_none_iff.mp found _ member)
  | some held => rw [ordered.eq_of_mem member (mem_of_find? found)]

/-- Two ordered tables that hold the same under every name are equal. -/
theorem Ordered.ext (ordered : Ordered table) (others : Ordered other)
    (same : ∀ name, find? name table = find? name other) : table = other := by
  have apart {first second : String × α} (before : first.1 < second.1) : first ≠ second :=
    fun equal => String.ne_of_lt before (congrArg (·.1) equal)
  refine ordered.eq_of_perm others ((List.perm_ext_iff_of_nodup
    (List.Pairwise.imp apart ordered) (List.Pairwise.imp apart others)).mpr fun entry => ?_)
  rw [← find?_eq_some_iff ordered, ← find?_eq_some_iff others, same]

/-! ## Inserting -/

/-- What is in a table after an insertion was inserted or was there. -/
theorem mem_insert {entry : String × α} (member : entry ∈ insert name value table) :
    entry = (name, value) ∨ entry ∈ table := by
  induction table with
  | nil => exact .inl (List.mem_singleton.mp member)
  | cons first rest ih =>
      obtain ⟨held, old⟩ := first
      rw [insert] at member
      split at member
      · exact (List.mem_cons.mp member).imp_right (List.mem_cons_of_mem _)
      · split at member
        · exact List.mem_cons.mp member
        · rcases List.mem_cons.mp member with rfl | later
          · exact .inr List.mem_cons_self
          · exact (ih later).imp_right (List.mem_cons_of_mem _)

theorem Ordered.insert (ordered : Ordered table) (name : String) (value : α) :
    Ordered (Table.insert name value table) := by
  induction table with
  | nil => exact List.pairwise_singleton _ _
  | cons first rest ih =>
      obtain ⟨held, old⟩ := first
      obtain ⟨before, others⟩ := List.pairwise_cons.mp ordered
      rw [Table.insert]
      split
      · rename_i same
        exact List.pairwise_cons.mpr ⟨fun entry member => same ▸ before entry member, others⟩
      · rename_i differ
        split
        · rename_i less
          refine List.pairwise_cons.mpr ⟨fun entry member => ?_, ordered⟩
          rcases List.mem_cons.mp member with rfl | later
          · exact less
          · exact String.lt_trans less (before entry later)
        · rename_i notBefore
          refine List.pairwise_cons.mpr ⟨fun entry member => ?_, ih others⟩
          rcases mem_insert member with rfl | later
          · exact lt_of_not_lt differ notBefore
          · exact before entry later

/-- Inserting under a new name adds one entry. -/
theorem insert_perm (absent : find? name table = none) :
    (insert name value table).Perm ((name, value) :: table) := by
  induction table with
  | nil => exact .refl _
  | cons first rest ih =>
      obtain ⟨held, old⟩ := first
      rw [find?] at absent
      rw [insert]
      split at absent
      · cases absent
      · rename_i differ
        rw [if_neg differ]
        split
        · exact .refl _
        · exact ((ih absent).cons _).trans (.swap _ _ _)

/-- Inserting under a name that is there keeps the names. -/
theorem map_fst_insert_of_find? (ordered : Ordered table) {held : α}
    (present : find? name table = some held) :
    (insert name value table).map (·.1) = table.map (·.1) := by
  induction table with
  | nil => cases present
  | cons first rest ih =>
      obtain ⟨front, old⟩ := first
      obtain ⟨before, others⟩ := List.pairwise_cons.mp ordered
      rw [find?] at present
      rw [insert]
      split at present
      · rename_i same
        rw [if_pos same, same]
        rfl
      · rename_i differ
        have later := before _ (mem_of_find? present)
        rw [if_neg differ, if_neg (String.lt_asymm later), List.map_cons, ih others present]
        rfl

/-- Inserting what is found under the name changes nothing. -/
theorem insert_of_find? (ordered : Ordered table) (found : find? name table = some value) :
    insert name value table = table := by
  refine (ordered.insert name value).ext ordered fun sought => ?_
  by_cases same : sought = name
  · rw [same, find?_insert_self, found]
  · exact find?_insert_of_ne same value table

/-- Changing all entries changes what is inserted. -/
theorem map_insert (change : α → β) (name : String) (value : α) (table : List (String × α)) :
    (insert name value table).map (fun entry => (entry.1, change entry.2)) =
      insert name (change value) (table.map fun entry => (entry.1, change entry.2)) := by
  induction table with
  | nil => rfl
  | cons entry rest ih =>
      simp only [List.map_cons, insert]
      split
      · rfl
      · split
        · rfl
        · rw [List.map_cons, ih]

/-- An entry whose name comes after all others is inserted at the end. -/
theorem insert_of_forall_lt (last : ∀ entry ∈ table, entry.1 < name) :
    insert name value table = table ++ [(name, value)] := by
  induction table with
  | nil => rfl
  | cons first rest ih =>
      obtain ⟨before, others⟩ := List.forall_mem_cons.mp last
      rw [insert, if_neg (String.ne_of_lt before).symm, if_neg (String.lt_asymm before), ih others]
      rfl

/-- A table that is ordered is the table of its entries. -/
theorem ofList_of_ordered (ordered : Ordered table) : ofList table = table := by
  suffices inserted : ∀ later earlier : List (String × α), Ordered (earlier ++ later) →
      later.foldl (fun table entry => insert entry.1 entry.2 table) earlier = earlier ++ later from
    inserted table [] ordered
  intro later
  induction later with
  | nil => exact fun earlier _ => (List.append_nil earlier).symm
  | cons entry rest ih =>
      intro earlier increasing
      have last : ∀ former ∈ earlier, former.1 < entry.1 := fun former member =>
        (List.pairwise_append.mp increasing).2.2 former member entry List.mem_cons_self
      rw [List.append_cons] at increasing ⊢
      rw [List.foldl_cons, insert_of_forall_lt last, ih _ increasing]

theorem ofList_concat (entries : List (String × α)) (entry : String × α) :
    ofList (entries ++ [entry]) = insert entry.1 entry.2 (ofList entries) := by
  rw [ofList, List.foldl_append]
  rfl

/-- The table of any entries is ordered. -/
theorem ordered_ofList (entries : List (String × α)) : Ordered (ofList entries) := by
  induction entries using List.reverseRecOn with
  | nil => exact .nil
  | append_singleton entries entry ih =>
      rw [ofList_concat]
      exact ih.insert entry.1 entry.2

/-- The table of entries with different names holds all of them. -/
theorem ofList_perm {entries : List (String × α)} (apart : (entries.map (·.1)).Nodup) :
    (ofList entries).Perm entries := by
  induction entries using List.reverseRecOn with
  | nil => exact .nil
  | append_singleton entries entry ih =>
      rw [List.map_append] at apart
      obtain ⟨former, _, differ⟩ := List.nodup_append.mp apart
      have same := ih former
      have absent : find? entry.1 (ofList entries) = none := by
        rw [find?_eq_none_iff]
        intro other member
        exact differ _ (List.mem_map_of_mem (same.mem_iff.mp member)) _ List.mem_cons_self
      rw [ofList_concat]
      exact (insert_perm absent).trans ((same.cons entry).trans
        (List.perm_append_singleton entry entries).symm)

/-- The table of some entries holds the last one of every name. -/
theorem find?_ofList (name : String) (entries : List (String × α)) :
    find? name (ofList entries) =
      ((entries.filter fun entry => entry.1 == name).map (·.2)).getLast? := by
  induction entries using List.reverseRecOn with
  | nil => rfl
  | append_singleton entries entry ih =>
      rw [ofList_concat, List.filter_append, List.map_append]
      by_cases same : entry.1 = name
      · simp [← same, find?_insert_self]
      · simp [find?_insert_of_ne (Ne.symm same), same, ih]

end Polyglot.Table
