/-!
# Ordered fields

A `Fields α` maps names to values and keeps the names in the order in which they first came: a new
name goes to the end, and a name that is present keeps its place and takes the new value. The names
are distinct by construction. Message headers, the shelves of the store and the book of agreements
are such maps.
-/

namespace Dataspace

namespace Entries

variable {α : Type}

/-- Sets the value of a name. -/
def put (entries : List (String × α)) (name : String) (value : α) : List (String × α) :=
  match entries with
  | [] => [(name, value)]
  | (n, v) :: rest =>
    if n = name then (n, value) :: rest else (n, v) :: put rest name value

def get? (entries : List (String × α)) (name : String) : Option α :=
  match entries with
  | [] => none
  | (n, v) :: rest => if n = name then some v else get? rest name

/-- The entries that remain when the last value of a repeated name counts, in its first place. -/
def merge (pairs : List (String × α)) : List (String × α) :=
  pairs.foldl (fun entries (name, value) => put entries name value) []

theorem mem_names_put {entries : List (String × α)} {name n : String} {value : α} :
    n ∈ (put entries name value).map Prod.fst ↔ n = name ∨ n ∈ entries.map Prod.fst := by
  induction entries with
  | nil => simp [put]
  | cons e rest ih =>
    obtain ⟨n', v⟩ := e
    by_cases h : n' = name
    · subst h
      simp [put]
    · simp only [put, h, if_false, List.map_cons, List.mem_cons, ih]
      constructor
      · rintro (h | h | h) <;> simp [h]
      · rintro (h | h | h) <;> simp [h]

theorem nodup_names_put {entries : List (String × α)} {name : String} {value : α}
    (h : (entries.map Prod.fst).Nodup) : ((put entries name value).map Prod.fst).Nodup := by
  induction entries with
  | nil => simp [put]
  | cons e rest ih =>
    obtain ⟨n, v⟩ := e
    simp only [List.map_cons, List.nodup_cons] at h
    by_cases hn : n = name
    · subst hn
      simpa [put] using h
    · simp only [put, hn, if_false, List.map_cons, List.nodup_cons]
      exact ⟨fun hm => (mem_names_put.1 hm).elim hn h.1, ih h.2⟩

end Entries

structure Fields (α : Type) where
  entries : List (String × α)
  distinct : (entries.map Prod.fst).Nodup
deriving DecidableEq

namespace Fields

variable {α : Type}

def empty : Fields α :=
  ⟨[], List.nodup_nil⟩

instance : Inhabited (Fields α) :=
  ⟨empty⟩

def put (f : Fields α) (name : String) (value : α) : Fields α :=
  ⟨Entries.put f.entries name value, Entries.nodup_names_put f.distinct⟩

def get? (f : Fields α) (name : String) : Option α :=
  Entries.get? f.entries name

/-- Sets several names, one after another. -/
def putAll (f : Fields α) (pairs : List (String × α)) : Fields α :=
  pairs.foldl (fun g (name, value) => g.put name value) f

/-- The last value of a repeated name counts, in its first place. -/
def ofPairs (pairs : List (String × α)) : Fields α :=
  empty.putAll pairs

/-- Sets the name if there is a value. -/
def putSome (f : Fields α) (name : String) : Option α → Fields α
  | some value => f.put name value
  | none => f

/-- The values of a name's list with one more at its end. -/
def append {β : Type} (f : Fields (List β)) (name : String) (value : β) : Fields (List β) :=
  f.put name ((f.get? name).getD [] ++ [value])

end Fields

end Dataspace
