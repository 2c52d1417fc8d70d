import Dataspace.Config.Reader
import Dataspace.Proofs.ContractDocument
import Dataspace.Proofs.Fields
import Dataspace.Proofs.Pieces

/-!
# Lists of recipients

A configuration names the peers to turn to in one text, with commas between them. The text may hold
blanks around every name and, between commas, nothing or blanks alone; none of it counts. So the
names are read from every text that lists them, and what is read is always a list of names that a
text can list.

* **`namesOf_of_listed`**, **`listed_namesOf`** — the names in a list of pieces.
* **`read_recipients`** — naming recipients touches no other setting.
* **`recipients_read_back`** — reading undoes listing.
-/

namespace Dataspace

/-! ## Lists of names -/

namespace Config

/-- What can be named in a list: a text without commas and without blanks at its ends. -/
structure IsRecipient (x : String) : Prop where
  ne_empty : x ≠ ""
  comma : ',' ∉ x.toList
  head : x.toList.head?.any Text.isBlank = false
  last : x.toList.getLast?.any Text.isBlank = false

instance (x : String) : Decidable (IsRecipient x) :=
  decidable_of_iff (x ≠ "" ∧ ',' ∉ x.toList ∧ x.toList.head?.any Text.isBlank = false ∧
      x.toList.getLast?.any Text.isBlank = false)
    ⟨fun h => ⟨h.1, h.2.1, h.2.2.1, h.2.2.2⟩, fun h => ⟨h.ne_empty, h.comma, h.head, h.last⟩⟩

/-- The pieces of a list: the names in their order, each with blanks around it, and among them any
number of pieces of blanks alone. -/
inductive Listed : (pieces names : List String) → Prop
  | nil : Listed [] []
  | blank {piece : String} {pieces names : List String}
      (hpiece : piece.toList.all Text.isBlank = true) (hrest : Listed pieces names) :
      Listed (piece :: pieces) names
  | name {left right name : String} {pieces names : List String}
      (hleft : left.toList.all Text.isBlank = true)
      (hright : right.toList.all Text.isBlank = true) (hrest : Listed pieces names) :
      Listed ((left ++ (name ++ right)) :: pieces) (name :: names)

/-- A text that lists names. -/
def Lists (s : String) (names : List String) : Prop :=
  ∃ pieces, Listed pieces names ∧ s = ",".intercalate pieces

/-- The names among some pieces. -/
def namesOf (pieces : List (List Char)) : List String :=
  (pieces.map (Text.stripBy Text.isBlank)).filterMap
    fun piece => if piece.isEmpty then none else some (String.ofList piece)

theorem recipients_eq (c : Config) :
    c.recipients = namesOf (Text.splitOn ',' c.defaultRecipients.toList) := rfl

variable {pieces names : List String}

theorem namesOf_cons (piece : List Char) (rest : List (List Char)) :
    namesOf (piece :: rest) =
      (if Text.stripBy Text.isBlank piece = [] then []
        else [String.ofList (Text.stripBy Text.isBlank piece)]) ++ namesOf rest := by
  rw [namesOf, List.map_cons, List.filterMap_cons]
  cases Text.stripBy Text.isBlank piece <;> rfl

/-- **The names in a list of pieces** are found. -/
theorem namesOf_of_listed (h : Listed pieces names) :
    (∀ x ∈ names, IsRecipient x) → namesOf (pieces.map String.toList) = names := by
  induction h with
  | nil => exact fun _ => rfl
  | blank hpiece hrest ih =>
    intro hnames
    have hstrip := Text.stripBy_of_forall (List.all_eq_true.1 hpiece)
    rw [List.map_cons, namesOf_cons, hstrip, if_pos rfl, ih hnames]
    rfl
  | @name left right name pieces names hleft hright hrest ih =>
    intro hnames
    obtain ⟨hname, hothers⟩ := List.forall_mem_cons.1 hnames
    have hne : name.toList ≠ [] := fun heq => hname.ne_empty (String.toList_eq_nil_iff.1 heq)
    have hstrip : Text.stripBy Text.isBlank (left ++ (name ++ right)).toList = name.toList := by
      rw [String.toList_append, String.toList_append]
      exact Text.stripBy_surrounded (List.all_eq_true.1 hleft) (List.all_eq_true.1 hright) hne
        hname.head hname.last
    rw [List.map_cons, namesOf_cons, hstrip, if_neg hne, String.ofList_toList, ih hothers]
    rfl

theorem comma_of_blank {s : List Char} (h : s.all Text.isBlank = true) : ',' ∉ s := by
  intro hmem
  have hblank := List.all_eq_true.1 h ',' hmem
  revert hblank
  decide

/-- No piece of a list holds a comma. -/
theorem comma_of_listed (h : Listed pieces names) :
    (∀ x ∈ names, IsRecipient x) → ∀ piece ∈ pieces.map String.toList, ',' ∉ piece := by
  induction h with
  | nil => exact fun _ _ hpiece => nomatch hpiece
  | blank hpiece hrest ih =>
    exact fun hnames => List.forall_mem_cons.2 ⟨comma_of_blank hpiece, ih hnames⟩
  | name hleft hright hrest ih =>
    intro hnames
    obtain ⟨hname, hothers⟩ := List.forall_mem_cons.1 hnames
    refine List.forall_mem_cons.2 ⟨?_, ih hothers⟩
    rw [String.toList_append, String.toList_append]
    simp only [List.mem_append, not_or]
    exact ⟨comma_of_blank hleft, hname.comma, comma_of_blank hright⟩

/-- **Reading undoes listing.** -/
theorem recipients_of_lists {c : Config} (hnames : ∀ x ∈ names, IsRecipient x)
    (h : Lists c.defaultRecipients names) : c.recipients = names := by
  obtain ⟨pieces, hlisted, htext⟩ := h
  rw [recipients_eq, htext, String.toList_intercalate, Text.splitOn_eq]
  cases pieces with
  | nil =>
    cases hlisted
    rfl
  | cons piece rest =>
    have hsplit := List.splitOn_intercalate ',' (comma_of_listed hlisted hnames)
      (List.cons_ne_nil _ _)
    exact (congrArg namesOf hsplit).trans (namesOf_of_listed hlisted hnames)

/-- Any pieces are a list of the names among them. -/
theorem listed_namesOf (pieces : List (List Char)) :
    Listed (pieces.map String.ofList) (namesOf pieces) := by
  induction pieces with
  | nil => exact .nil
  | cons piece rest ih =>
    obtain ⟨left, right, heq, hleft, hright⟩ := Text.exists_surrounded Text.isBlank piece
    rw [List.map_cons, namesOf_cons]
    split
    · rename_i hempty
      refine .blank ?_ ih
      rw [String.toList_ofList, heq, hempty, List.nil_append]
      exact List.all_eq_true.2 (List.forall_mem_append.2 ⟨hleft, hright⟩)
    · have hpiece : String.ofList piece = String.ofList left ++
          (String.ofList (Text.stripBy Text.isBlank piece) ++ String.ofList right) := by
        rw [← String.ofList_append, ← String.ofList_append, ← heq]
      rw [hpiece]
      refine .name ?_ ?_ ih
      · rw [String.toList_ofList]
        exact List.all_eq_true.2 hleft
      · rw [String.toList_ofList]
        exact List.all_eq_true.2 hright

/-- **Every text lists** what is read from it. -/
theorem lists_recipients (c : Config) : Lists c.defaultRecipients c.recipients := by
  refine ⟨_, listed_namesOf (Text.splitOn ',' c.defaultRecipients.toList), ?_⟩
  apply String.toList_inj.1
  rw [String.toList_intercalate, List.map_map]
  have hid : String.toList ∘ String.ofList = id := funext fun s => String.toList_ofList
  rw [hid, List.map_id, Text.splitOn_eq]
  exact (List.intercalate_splitOn ',').symm

theorem isRecipient_of_mem {c : Config} {x : String} (h : x ∈ c.recipients) : IsRecipient x := by
  obtain ⟨stripped, hmem, hx⟩ := List.mem_filterMap.1 h
  obtain ⟨piece, hpiece, rfl⟩ := List.mem_map.1 hmem
  split at hx
  · cases hx
  · rename_i hne
    obtain rfl := Option.some.inj hx
    obtain ⟨left, right, heq, -, -⟩ := Text.exists_surrounded Text.isBlank piece
    have hcomma : ',' ∉ piece := Text.not_mem_of_mem_splitOn hpiece
    refine ⟨fun hempty => hne ?_, ?_, ?_, ?_⟩
    · rw [String.ofList_eq_empty_iff.1 hempty]
      rfl
    · rw [String.toList_ofList]
      intro hmem
      rw [heq] at hcomma
      exact hcomma (List.mem_append_right _ (List.mem_append_left _ hmem))
    · rw [String.toList_ofList]
      exact Text.head?_stripBy _ _
    · rw [String.toList_ofList]
      exact Text.getLast?_stripBy _ _

/-- Names with nothing but commas between them are listed. -/
theorem lists_intercalate (names : List String) : Lists (",".intercalate names) names := by
  refine ⟨names, ?_, rfl⟩
  induction names with
  | nil => exact .nil
  | cons x rest ih =>
    have hname : Listed (("" ++ (x ++ "")) :: rest) (x :: rest) :=
      .name rfl rfl ih
    rwa [String.append_empty, String.empty_append] at hname

end Config

/-! ## Settings -/

namespace Checked

variable {α β γ : Type}

theorem both_ok_right (a : Checked α) (y : β) : both a (.ok y) = a.map fun x => (x, y) := by
  cases a <;> rfl

theorem both_map_right (a : Checked α) (b : Checked β) (g : β → γ) :
    both a (b.map g) = (both a b).map fun (x, y) => (x, g y) := by
  cases a <;> cases b <;> rfl

end Checked

namespace Config

/-- What an environment sets is set as text. -/
theorem text_of_get?_ofEnvironment {environment : List (String × String)} {name : String}
    {v : Json} (h : Entries.get? (ofEnvironment environment) name = some v) :
    ∃ s, v = .str s := by
  have hmerge : ∀ pairs : List (String × Json),
      Entries.get? (Entries.merge pairs) name = (Fields.ofPairs pairs).get? name := fun pairs =>
    congrArg (Entries.get? · name) (Fields.entries_putAll pairs .empty).symm
  rw [ofEnvironment, hmerge, Fields.get?_ofPairs] at h
  obtain ⟨entry, hlast, rfl⟩ := Option.map_eq_some_iff.1 h
  have hmem := (List.mem_filter.1 (List.mem_of_getLast? hlast)).1
  obtain ⟨⟨variableName, value⟩, -, hsetting⟩ := List.mem_filterMap.1 hmem
  obtain ⟨setting, -, rfl⟩ := Option.map_eq_some_iff.1 hsetting
  exact ⟨value, rfl⟩

/-- The list of recipients is in order whatever the environment holds. -/
theorem exists_recipients_ofEnvironment (environment : List (String × String)) (absent : String) :
    ∃ s, Checked.defaulting Checked.text absent (ofEnvironment environment)
      "default_recipients" = .ok s := by
  rw [Checked.defaulting]
  cases hget : Entries.get? (ofEnvironment environment) "default_recipients" with
  | none => exact ⟨absent, rfl⟩
  | some v =>
    obtain ⟨s, rfl⟩ := text_of_get?_ofEnvironment hget
    exact ⟨s, rfl⟩

/-- A setting is not touched by one of another name. -/
theorem defaulting_cons_of_ne {α : Type} {check : Json → Checked α} {absent : α} {n name : String}
    {v : Json} {settings : List (String × Json)} (h : n ≠ name) :
    Checked.defaulting check absent ((n, v) :: settings) name =
      Checked.defaulting check absent settings name := by
  rw [Checked.defaulting, Entries.get?, if_neg h]
  rfl

theorem check_recipients {settings : List (String × Json)} {listed : String} (s : String)
    (h : Checked.defaulting Checked.text standard.defaultRecipients settings
      "default_recipients" = .ok listed) :
    check (("default_recipients", .str s) :: settings) =
      (check settings).map fun c => { c with defaultRecipients := s } := by
  have hnamed : Checked.defaulting Checked.text standard.defaultRecipients
      (("default_recipients", .str s) :: settings) "default_recipients" = .ok s :=
    Checked.defaulting_of_get? (if_pos rfl) rfl
  simp only [check]
  rw [hnamed, h]
  simp (disch := decide) only [defaulting_cons_of_ne, Checked.both_ok_right,
    Checked.both_map_right]
  -- the other eight settings are the same on both sides
  generalize Checked.both _ _ = others
  cases others <;> rfl

/-- **Naming recipients** touches nothing else: the rest is set as it would be without. -/
theorem read_recipients (s : String) (environment : List (String × String)) :
    read [("default_recipients", .str s)] environment =
      (read [] environment).map fun c => { c with defaultRecipients := s } := by
  obtain ⟨listed, hlisted⟩ :=
    exists_recipients_ofEnvironment environment standard.defaultRecipients
  have hnames : checkNames [("default_recipients", .str s)] = .ok () := rfl
  have hnone : checkNames [] = .ok () := rfl
  rw [read, read, List.singleton_append, check_recipients s hlisted, List.nil_append, hnames,
    hnone]
  cases check (ofEnvironment environment) <;> rfl

/-- **Reading undoes listing.** Wherever an environment gives a configuration, it gives one with any
text as the list of recipients. Of a text that lists names just these are read, whatever blanks it
holds around and between them. Of any text names are read that it lists, and they are read again
where they stand with commas alone between them. -/
theorem recipients_read_back (environment : List (String × String)) {usual : Config}
    (hread : read [] environment = .ok usual) (s : String) :
    ∃ c, read [("default_recipients", .str s)] environment = .ok c ∧
      (∀ names, (∀ x ∈ names, IsRecipient x) → Lists s names → c.recipients = names) ∧
      (∀ x ∈ c.recipients, IsRecipient x) ∧ Lists s c.recipients ∧
      ∃ again, read [("default_recipients", .str (",".intercalate c.recipients))] environment =
        .ok again ∧ again.recipients = c.recipients := by
  have hnamed : ∀ t, read [("default_recipients", .str t)] environment =
      .ok { usual with defaultRecipients := t } := by
    intro t
    rw [read_recipients, hread]
    rfl
  have hrecipients : ∀ x ∈ ({ usual with defaultRecipients := s } : Config).recipients,
      IsRecipient x := fun x => isRecipient_of_mem
  refine ⟨_, hnamed s, fun names hnames hlists => recipients_of_lists hnames hlists, hrecipients,
    lists_recipients _, _, hnamed _, ?_⟩
  exact recipients_of_lists hrecipients (lists_intercalate _)

/-- Two names, one with a blank inside, among pieces of blanks, a no-break space being one. -/
theorem lists_looseText :
    Lists " urn:a ,\t,,\u00A0urn:b c\n," ["urn:a", "urn:b c"] := by
  refine ⟨[" " ++ ("urn:a" ++ " "), "\t", "", "\u00A0" ++ ("urn:b c" ++ "\n"), ""], ?_, by decide⟩
  refine .name (by decide) (by decide) ?_
  refine .blank (by decide) (.blank (by decide) ?_)
  refine .name (by decide) (by decide) ?_
  exact .blank (by decide) .nil

/-- What is named counts, and the recipients of the environment do not. -/
theorem recipients_read_back_of_looseText :
    ∃ c, read [("default_recipients", .str " urn:a ,\t,,\u00A0urn:b c\n,")]
        [("Dsc_Default_Recipients", "urn:x")] = .ok c ∧ c.recipients = ["urn:a", "urn:b c"] := by
  have hread : read [] [("Dsc_Default_Recipients", "urn:x")] =
      .ok { standard with defaultRecipients := "urn:x" } := by
    decide
  have hnames : ∀ x ∈ ["urn:a", "urn:b c"], IsRecipient x := forall_mem_of_all (by decide)
  obtain ⟨c, hc, hback, -⟩ := recipients_read_back [("Dsc_Default_Recipients", "urn:x")] hread
    " urn:a ,\t,,\u00A0urn:b c\n,"
  exact ⟨c, hc, hback _ hnames lists_looseText⟩

end Config

end Dataspace
