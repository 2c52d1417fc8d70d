import Dataspace.Fields

/-!
# Ordered fields, as a map and as a list

`Fields` is read in two ways: as a map (`get?`) and as a list of entries in order. This module says
what `put` does to each view.

* **`get?_put_self`, `get?_put_of_ne`** — as a map: one name takes the value, the others keep
  theirs.
* **`get?_putAll`** — what is put in later takes the place of what was there.
* **`get?_ofPairs`** — of several entries under one name the last counts.
* **`entries_put_of_new`** — as a list: a new name goes to the end and nothing else moves.
* **`names_putAll`** — of several entries, each name stands where it first appears.
* **`ofPairs_entries`** — entries whose names are distinct already are put in unchanged.
-/

namespace Dataspace

namespace Entries

variable {α : Type} {entries : List (String × α)} {name n : String} {value v : α}

theorem get?_put_self : get? (put entries name value) name = some value := by
  induction entries with
  | nil => simp [put, get?]
  | cons e rest ih =>
    obtain ⟨n', v'⟩ := e
    by_cases h : n' = name
    · simp [put, get?, h]
    · simp [put, get?, h, ih]

theorem get?_put_of_ne (h : n ≠ name) : get? (put entries name value) n = get? entries n := by
  induction entries with
  | nil => simp [put, get?, Ne.symm h]
  | cons e rest ih =>
    obtain ⟨n', v'⟩ := e
    by_cases hn : n' = name
    · simp [put, get?, hn, Ne.symm h]
    · simp [put, get?, hn, ih]

/-- A name that is not there yet goes to the end. -/
theorem put_of_new (h : name ∉ entries.map Prod.fst) :
    put entries name value = entries ++ [(name, value)] := by
  induction entries with
  | nil => rfl
  | cons e rest ih =>
    obtain ⟨n', v'⟩ := e
    simp only [List.map_cons, List.mem_cons, not_or] at h
    simp [put, Ne.symm h.1, ih h.2]

theorem get?_eq_none (h : n ∉ entries.map Prod.fst) : get? entries n = none := by
  induction entries with
  | nil => rfl
  | cons e rest ih =>
    obtain ⟨n', v'⟩ := e
    simp only [List.map_cons, List.mem_cons, not_or] at h
    rw [get?, if_neg (Ne.symm h.1), ih h.2]

/-- What is found under a name is an entry. -/
theorem mem_of_get? (h : get? entries n = some v) : (n, v) ∈ entries := by
  induction entries with
  | nil => cases h
  | cons e rest ih =>
    obtain ⟨n', v'⟩ := e
    by_cases hn : n' = n
    · simp_all [get?]
    · simp only [get?, hn, if_false] at h
      exact List.mem_cons_of_mem _ (ih h)

/-- With distinct names every entry is found under its name. -/
theorem get?_of_mem (hd : (entries.map Prod.fst).Nodup) (h : (n, v) ∈ entries) :
    get? entries n = some v := by
  induction entries with
  | nil => cases h
  | cons e rest ih =>
    obtain ⟨n', v'⟩ := e
    simp only [List.map_cons, List.nodup_cons] at hd
    -- an entry further on has another name than the first
    rcases List.mem_cons.1 h with heq | hmem
    · cases heq
      simp [get?]
    · have hne : n' ≠ n := fun heq => hd.1 (heq ▸ List.mem_map_of_mem (f := Prod.fst) hmem)
      simp [get?, hne, ih hd.2 hmem]

/-- Entries with distinct names that are not there yet go to the end, in their order. -/
theorem foldl_put_of_new (pairs : List (String × α)) :
    ∀ entries : List (String × α),
      (entries.map Prod.fst ++ pairs.map Prod.fst).Nodup →
      pairs.foldl (fun entries (name, value) => put entries name value) entries =
        entries ++ pairs := by
  -- each entry is put behind those before it, which keeps all names distinct
  induction pairs with
  | nil => exact fun entries _ => (List.append_nil entries).symm
  | cons p rest ih =>
    intro entries h
    obtain ⟨name, value⟩ := p
    have hnew : name ∉ entries.map Prod.fst := by
      intro hmem
      exact (List.nodup_append.1 h).2.2 name hmem name (by simp) rfl
    have hput : put entries name value = entries ++ [(name, value)] := put_of_new hnew
    rw [List.foldl_cons, ih (put entries name value) (by simpa [hput] using h), hput,
      List.append_assoc, List.singleton_append]

theorem merge_of_distinct {pairs : List (String × α)} (h : (pairs.map Prod.fst).Nodup) :
    merge pairs = pairs :=
  foldl_put_of_new pairs [] h

/-! ### Names in order -/

/-- A name that is there already keeps its place. -/
theorem names_put_of_mem (h : name ∈ entries.map Prod.fst) :
    (put entries name value).map Prod.fst = entries.map Prod.fst := by
  induction entries with
  | nil => cases h
  | cons e rest ih =>
    obtain ⟨n', v'⟩ := e
    by_cases hn : n' = name
    · simp only [put, hn, if_true, List.map_cons]
    · have hrest : name ∈ rest.map Prod.fst :=
        (List.mem_cons.1 h).resolve_left fun heq => hn heq.symm
      simp only [put, hn, if_false, List.map_cons, ih hrest]

/-- Where no name is repeated, all appear for the first time. -/
theorem eraseDups_of_nodup {names : List String} (h : names.Nodup) : names.eraseDups = names := by
  induction names with
  | nil => rfl
  | cons name rest ih =>
    obtain ⟨hnew, hrest⟩ := List.nodup_cons.1 h
    have hothers : rest.filter (fun n => !n == name) = rest := by
      refine List.filter_eq_self.2 fun n hn => ?_
      have hne : n ≠ name := fun heq => hnew (heq ▸ hn)
      simpa using hne
    rw [List.eraseDups_cons, hothers, ih hrest]

/-- A name that has appeared does not count again. -/
theorem eraseDups_append_cons {names : List String} (h : name ∈ names) (rest : List String) :
    (names ++ name :: rest).eraseDups = (names ++ rest).eraseDups := by
  have hdrop : (name :: rest).removeAll names = rest.removeAll names := by
    simp [List.removeAll, h]
  rw [List.eraseDups_append, List.eraseDups_append, hdrop]

theorem names_foldl_put (pairs : List (String × α)) :
    ∀ entries : List (String × α), (entries.map Prod.fst).Nodup →
      (pairs.foldl (fun entries (name, value) => put entries name value) entries).map Prod.fst =
        (entries.map Prod.fst ++ pairs.map Prod.fst).eraseDups := by
  induction pairs with
  | nil =>
    intro entries h
    rw [List.map_nil, List.append_nil, eraseDups_of_nodup h]
    rfl
  | cons p rest ih =>
    intro entries h
    obtain ⟨name, value⟩ := p
    rw [List.foldl_cons, ih _ (nodup_names_put h), List.map_cons]
    by_cases hname : name ∈ entries.map Prod.fst
    · rw [names_put_of_mem hname, eraseDups_append_cons hname]
    · rw [put_of_new hname, List.map_append, List.map_singleton, List.append_assoc,
        List.singleton_append]

end Entries

namespace Fields

variable {α : Type} (f : Fields α) {name n : String} {value v : α}

@[simp] theorem get?_put_self : (f.put name value).get? name = some value :=
  Entries.get?_put_self

theorem get?_put_of_ne (h : n ≠ name) : (f.put name value).get? n = f.get? n :=
  Entries.get?_put_of_ne h

theorem entries_put_of_new (h : name ∉ f.entries.map Prod.fst) :
    (f.put name value).entries = f.entries ++ [(name, value)] :=
  Entries.put_of_new h

theorem get?_putSome_of_ne (h : n ≠ name) (value : Option α) :
    (f.putSome name value).get? n = f.get? n := by
  cases value with
  | none => rfl
  | some v => exact f.get?_put_of_ne h

theorem get?_putSome_self (value : Option α) :
    (f.putSome name value).get? name = value.or (f.get? name) := by
  cases value with
  | none => rfl
  | some v => exact f.get?_put_self

/-- Entries with distinct names take the place of what was there under their names. -/
theorem get?_putAll {pairs : List (String × α)} (h : (pairs.map Prod.fst).Nodup) :
    ∀ f : Fields α, (f.putAll pairs).get? n = (Entries.get? pairs n).or (f.get? n) := by
  induction pairs with
  | nil => exact fun _ => rfl
  | cons p rest ih =>
    intro f
    obtain ⟨name, value⟩ := p
    rw [List.map_cons, List.nodup_cons] at h
    have hrest : (f.putAll ((name, value) :: rest)).get? n =
        (Entries.get? rest n).or ((f.put name value).get? n) := ih h.2 _
    rw [hrest]
    by_cases hname : name = n
    · -- the name does not come again further on
      subst hname
      have hnone : Entries.get? rest name = none := Entries.get?_eq_none h.1
      rw [hnone, get?_put_self, Entries.get?, if_pos rfl]
      rfl
    · rw [f.get?_put_of_ne (Ne.symm hname), Entries.get?, if_neg hname]

/-- Of several entries under one name the last counts, and without any what was there. -/
theorem get?_putAll_last (pairs : List (String × α)) : ∀ f : Fields α, (f.putAll pairs).get? n =
    ((pairs.filter fun p => p.1 = n).getLast?.map Prod.snd).or (f.get? n) := by
  induction pairs with
  | nil => exact fun _ => rfl
  | cons p rest ih =>
    intro f
    have hrest : (f.putAll (p :: rest)).get? n =
        ((rest.filter fun p => p.1 = n).getLast?.map Prod.snd).or ((f.put p.1 p.2).get? n) :=
      ih (f.put p.1 p.2)
    rw [hrest]
    by_cases hname : p.1 = n
    · subst hname
      have hfirst : (p :: rest).filter (fun q => q.1 = p.1) =
          p :: rest.filter fun q => q.1 = p.1 := List.filter_cons_of_pos (decide_eq_true rfl)
      rw [get?_put_self, hfirst, List.getLast?_cons]
      cases (rest.filter fun q => q.1 = p.1).getLast? <;> rfl
    · rw [f.get?_put_of_ne (Ne.symm hname), List.filter_cons_of_neg (by simpa using hname)]

/-- The names after several entries were put in are those of before and those of the entries. -/
theorem not_mem_names_putAll {pairs : List (String × α)} (h : n ∉ pairs.map Prod.fst) :
    ∀ {f : Fields α}, n ∉ f.entries.map Prod.fst → n ∉ (f.putAll pairs).entries.map Prod.fst := by
  induction pairs with
  | nil => exact fun hf => hf
  | cons p rest ih =>
    intro f hf
    simp only [List.map_cons, List.mem_cons, not_or] at h
    refine ih h.2 (f := f.put p.1 p.2) fun hmem => ?_
    exact (Entries.mem_names_put.1 hmem).elim h.1 hf

/-- Two maps with the same entries are the same. -/
theorem ext_entries {f g : Fields α} (h : f.entries = g.entries) : f = g := by
  cases f
  cases g
  simp only at h
  subst h
  rfl

/-- Putting in several entries is the same in the list of entries. -/
theorem entries_putAll (pairs : List (String × α)) :
    ∀ f : Fields α, (f.putAll pairs).entries =
      pairs.foldl (fun entries (name, value) => Entries.put entries name value) f.entries := by
  induction pairs with
  | nil => exact fun _ => rfl
  | cons p rest ih => exact fun f => ih (f.put p.1 p.2)

/-- **The names in order**: each stands where it first appears. -/
theorem names_putAll (pairs : List (String × α)) : (f.putAll pairs).entries.map Prod.fst =
    (f.entries.map Prod.fst ++ pairs.map Prod.fst).eraseDups := by
  rw [entries_putAll]
  exact Entries.names_foldl_put pairs f.entries f.distinct

/-- Entries under new names, all distinct, go to the end. -/
theorem entries_putAll_of_new {pairs : List (String × α)}
    (h : (f.entries.map Prod.fst ++ pairs.map Prod.fst).Nodup) :
    (f.putAll pairs).entries = f.entries ++ pairs := by
  rw [entries_putAll]
  exact Entries.foldl_put_of_new pairs f.entries h

theorem entries_putSome_of_new (h : name ∉ f.entries.map Prod.fst) (value : Option α) :
    (f.putSome name value).entries = f.entries ++ value.toList.map (name, ·) := by
  cases value with
  | none => exact (List.append_nil _).symm
  | some v => exact f.entries_put_of_new h

/-- The entries are the names, each with the value that is found under it. -/
theorem entries_eq_map (absent : α) :
    f.entries = (f.entries.map Prod.fst).map fun n => (n, (f.get? n).getD absent) := by
  have hvalue : ∀ e ∈ f.entries, (e.1, (f.get? e.1).getD absent) = e := by
    rintro ⟨n, v⟩ he
    have hfound : f.get? n = some v := Entries.get?_of_mem f.distinct he
    rw [hfound]
    rfl
  rw [List.map_map]
  exact ((List.map_congr_left hvalue).trans (List.map_id _)).symm

/-- **What is found under a name** is the last of its values. -/
theorem get?_ofPairs (pairs : List (String × α)) : (ofPairs pairs).get? n =
    (pairs.filter fun p => p.1 = n).getLast?.map Prod.snd := by
  have hlast := get?_putAll_last (n := n) pairs empty
  have hnone : (empty : Fields α).get? n = none := rfl
  rw [hnone, Option.or_none] at hlast
  exact hlast

/-- Entries whose names are distinct make a map with just these entries. -/
theorem entries_ofPairs {pairs : List (String × α)} (h : (pairs.map Prod.fst).Nodup) :
    (ofPairs pairs).entries = pairs :=
  (entries_putAll pairs empty).trans (Entries.merge_of_distinct h)

/-- A map is made of its entries. -/
theorem ofPairs_entries : ofPairs f.entries = f :=
  ext_entries (entries_ofPairs f.distinct)

end Fields

end Dataspace
