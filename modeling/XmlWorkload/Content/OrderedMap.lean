/-!
# Maps in order of first arrival

A map from names to values that remembers the order in which the names first arrived.  Writing to a
name that is present changes its value and moves nothing; a new name goes to the end.  So no name
comes twice, and a map is made up of entries that cannot have a name twice.
-/

set_option autoImplicit false

namespace XmlWorkload

/-- Values under the given names, no two of which are the same. -/
inductive Entries (α : Type) : (names : List String) → Type where
  | nil : Entries α []
  | cons {names : List String} (name : String) (value : α) (fresh : name ∉ names)
      (rest : Entries α names) : Entries α (name :: names)

namespace Entries

variable {α β : Type} {names : List String}

/-- The entries in a row. -/
def toList {names : List String} : Entries α names → List (String × α)
  | nil => []
  | cons name value _ rest => (name, value) :: rest.toList

/-- Entries from a row in which no name comes twice. -/
def ofList : (row : List (String × α)) → (row.map Prod.fst).Nodup → Entries α (row.map Prod.fst)
  | [], _ => nil
  | (name, value) :: rest, h =>
    have hparts := List.nodup_cons.1 h
    cons name value hparts.1 (ofList rest hparts.2)

/-- Replaces the values, in order.  Names stay. -/
def mapM {m : Type → Type} [Monad m] (f : α → m β) {names : List String} :
    Entries α names → m (Entries β names)
  | nil => pure nil
  | cons name value fresh rest => do
    let replaced ← f value
    let others ← rest.mapM f
    pure (cons name replaced fresh others)

/-- The row has the names of the entries. -/
theorem map_fst_toList (entries : Entries α names) : entries.toList.map Prod.fst = names := by
  induction entries with
  | nil => rfl
  | cons name value fresh rest ih => exact congrArg (name :: ·) ih

/-- Entries cannot have a name twice. -/
theorem nodup (entries : Entries α names) : names.Nodup := by
  induction entries with
  | nil => exact List.nodup_nil
  | cons name value fresh rest ih => exact List.nodup_cons.2 ⟨fresh, ih⟩

/-- Entries from a row are those of the row. -/
theorem toList_ofList (row : List (String × α)) (h : (row.map Prod.fst).Nodup) :
    (ofList row h).toList = row := by
  induction row with
  | nil => rfl
  | cons entry rest ih => exact congrArg (entry :: ·) (ih _)

/-- Entries under the same names that are the same in a row are the same. -/
theorem toList_injective {first second : Entries α names} (h : first.toList = second.toList) :
    first = second := by
  induction first with
  | nil =>
    cases second
    rfl
  | cons name value fresh rest ih =>
    cases second with
    | cons _ value' _ rest' =>
      obtain ⟨hentry, hrest⟩ := List.cons.inj h
      rw [(Prod.mk.inj hentry).2, ih hrest]

end Entries

/-- A map from names to values, in the order in which the names first arrived. -/
structure OrderedMap (α : Type) where
  {names : List String}
  held : Entries α names

namespace OrderedMap

variable {α β : Type}

/-- The map with no entries. -/
def empty : OrderedMap α := ⟨.nil⟩

instance : Inhabited (OrderedMap α) := ⟨empty⟩

/-- The entries in order. -/
def entries (map : OrderedMap α) : List (String × α) := map.held.toList

/-- The map of entries in which no name comes twice. -/
def ofDistinct (entries : List (String × α)) (h : (entries.map Prod.fst).Nodup) : OrderedMap α :=
  ⟨.ofList entries h⟩

/-- The number of entries. -/
def size (map : OrderedMap α) : Nat := map.entries.length

/-- The value held under a name. -/
def find? (map : OrderedMap α) (name : String) : Option α :=
  (map.entries.find? fun entry => entry.1 == name).map Prod.snd

/-- Whether a name is present. -/
def contains (map : OrderedMap α) (name : String) : Bool :=
  map.entries.any fun entry => entry.1 == name

/-- The names are those of the entries. -/
theorem names_eq (map : OrderedMap α) : map.names = map.entries.map Prod.fst :=
  map.held.map_fst_toList.symm

/-- The map with no entries has none. -/
@[simp]
theorem entries_empty : (empty : OrderedMap α).entries = [] := rfl

/-- No name comes twice. -/
theorem nodup_names (map : OrderedMap α) : map.names.Nodup := map.held.nodup

/-- The entries are all that there is to a map. -/
@[ext]
theorem ext {map other : OrderedMap α} (h : map.entries = other.entries) : map = other := by
  have hnames : map.names = other.names := by rw [names_eq, names_eq, h]
  obtain ⟨held⟩ := map
  obtain ⟨held'⟩ := other
  cases hnames
  exact congrArg OrderedMap.mk (Entries.toList_injective h)

/-- The map of entries has these entries. -/
@[simp]
theorem entries_ofDistinct (entries : List (String × α)) (h : (entries.map Prod.fst).Nodup) :
    (ofDistinct entries h).entries = entries :=
  Entries.toList_ofList entries h

/-- The entries after `value` has been written under `name`. -/
def insertEntry (name : String) (value : α) : List (String × α) → List (String × α)
  | [] => [(name, value)]
  | entry :: rest =>
    if entry.1 = name then (name, value) :: rest else entry :: insertEntry name value rest

/-- A present name keeps the order of the names when it is written to. -/
theorem names_insertEntry_of_mem {name : String} (value : α) {entries : List (String × α)}
    (h : name ∈ entries.map Prod.fst) :
    (insertEntry name value entries).map Prod.fst = entries.map Prod.fst := by
  induction entries with
  | nil => cases h
  | cons entry rest ih =>
    rw [insertEntry]
    split
    · next heq => simp [heq]
    · next hne =>
      have hrest : name ∈ rest.map Prod.fst := (List.mem_cons.1 h).resolve_left (Ne.symm hne)
      exact congrArg (entry.1 :: ·) (ih hrest)

/-- A new name goes to the end of the entries. -/
theorem insertEntry_of_not_mem {name : String} (value : α) {entries : List (String × α)}
    (h : name ∉ entries.map Prod.fst) :
    insertEntry name value entries = entries ++ [(name, value)] := by
  induction entries with
  | nil => rfl
  | cons entry rest ih =>
    obtain ⟨hentry, hrest⟩ := not_or.1 (mt List.mem_cons.2 h)
    rw [insertEntry, if_neg (Ne.symm hentry), ih hrest, List.cons_append]

/-- Writing leaves no name twice. -/
theorem nodup_insertEntry (name : String) (value : α) {entries : List (String × α)}
    (h : (entries.map Prod.fst).Nodup) : ((insertEntry name value entries).map Prod.fst).Nodup := by
  by_cases hname : name ∈ entries.map Prod.fst
  · rwa [names_insertEntry_of_mem value hname]
  · rw [insertEntry_of_not_mem value hname, List.map_append]
    refine List.nodup_append.2 ⟨h, List.nodup_cons.2 ⟨List.not_mem_nil, List.nodup_nil⟩, ?_⟩
    intro other hother last hlast heq
    rw [List.map_singleton, List.mem_singleton] at hlast
    rw [heq, hlast] at hother
    exact hname hother

/-- The map after `value` has been written under `name`. -/
def insert (map : OrderedMap α) (name : String) (value : α) : OrderedMap α :=
  ofDistinct (insertEntry name value map.entries)
    (nodup_insertEntry name value (map.names_eq ▸ map.nodup_names))

/-- The map after all the entries have been written, in order. -/
def insertAll (map : OrderedMap α) (entries : List (String × α)) : OrderedMap α :=
  entries.foldl (fun map entry => map.insert entry.1 entry.2) map

/-- The map that the entries leave when they are written in order. -/
def ofList (entries : List (String × α)) : OrderedMap α := empty.insertAll entries

/-- Replaces the values, in order. -/
def mapValuesM {m : Type → Type} [Monad m] (f : α → m β) (map : OrderedMap α) :
    m (OrderedMap β) := do
  let held ← map.held.mapM f
  pure ⟨held⟩

/-- The map with `f` applied to every value. -/
def mapValues (f : α → β) (map : OrderedMap α) : OrderedMap β := mapValuesM (m := Id) f map

/-- Applying a function to every value of a map changes its entries one by one. -/
theorem entries_mapValues (f : α → β) (map : OrderedMap α) :
    (map.mapValues f).entries = map.entries.map fun entry => (entry.1, f entry.2) := by
  obtain ⟨held⟩ := map
  show (held.mapM (m := Id) f).toList = held.toList.map _
  induction held with
  | nil => rfl
  | cons name value fresh rest ih => exact congrArg ((name, f value) :: ·) ih

/-- What is written changes the entries. -/
@[simp]
theorem entries_insert (map : OrderedMap α) (name : String) (value : α) :
    (map.insert name value).entries = insertEntry name value map.entries :=
  entries_ofDistinct _ _

/-- A name is present exactly when it is among the names. -/
theorem contains_iff_mem_names (map : OrderedMap α) (name : String) :
    map.contains name = true ↔ name ∈ map.names := by
  simp [contains, names_eq]

/-- A present name keeps the order of the names when it is written to. -/
theorem names_insert_of_mem (map : OrderedMap α) (name : String) (value : α)
    (h : name ∈ map.names) : (map.insert name value).names = map.names := by
  rw [names_eq] at h
  rw [names_eq, entries_insert, names_insertEntry_of_mem value h, names_eq]

/-- A new name goes to the end when it is written to. -/
theorem names_insert_of_not_mem (map : OrderedMap α) (name : String) (value : α)
    (h : name ∉ map.names) : (map.insert name value).names = map.names ++ [name] := by
  rw [names_eq] at h
  rw [names_eq, entries_insert, insertEntry_of_not_mem value h, names_eq, List.map_append]
  rfl

/-- The value written under a name is the one found there. -/
theorem find?_insert_self (map : OrderedMap α) (name : String) (value : α) :
    (map.insert name value).find? name = some value := by
  rw [find?, entries_insert]
  induction map.entries with
  | nil => simp [insertEntry]
  | cons entry rest ih =>
    rw [insertEntry]
    split
    · simp
    · next hne => simpa [List.find?_cons, hne] using ih

end OrderedMap

end XmlWorkload
