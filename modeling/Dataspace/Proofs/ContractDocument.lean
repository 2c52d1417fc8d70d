import Dataspace.Contract.Examination
import Dataspace.Contract.Writer
import Dataspace.Proofs.JsonText
import Dataspace.Proofs.TimestampText
import Dataspace.Proofs.Utf8

/-!
# Contract documents read back

The document of a contract that was read once is read as that contract, whatever form the first
document had: members left out, names repeated, points of time as numbers or as dates.

* **`Checked.items_map`**, **`Checked.optional_ofText`** — checks of written members.
* **`Rule.read_toJson`**, **`Contract.read_toJson`** — the values are read back.
* **`Contract.inMinutes_of_read`** — what is read has points of time that can be written.
* **`Contract.document_reads_back`** — the texts are read back, under either title and as octets.
-/

namespace Dataspace

/-! ## Checks -/

namespace Checked

variable {α β : Type}

@[simp] theorem under_ok (step : Step) (x : α) : under step (.ok x) = .ok x := rfl

@[simp] theorem both_ok (x : α) (y : β) : both (.ok x : Checked α) (.ok y) = .ok (x, y) := rfl

@[simp] theorem text_str (s : String) : text (.str s) = .ok s := rfl

/-- Two checks succeed together only if each does. -/
theorem both_eq_ok {a : Checked α} {b : Checked β} {x : α} {y : β}
    (h : both a b = .ok (x, y)) : a = .ok x ∧ b = .ok y := by
  cases a with
  | error p => cases b <;> cases h
  | ok x' =>
    cases b with
    | error q => cases h
    | ok y' =>
      cases h
      exact ⟨rfl, rfl⟩

theorem under_eq_ok {step : Step} {a : Checked α} {x : α} (h : under step a = .ok x) :
    a = .ok x := by
  cases a with
  | error p => cases h
  | ok x' => exact h

section Members

variable {members : List (String × Json)} {name : String}

theorem required_of_get? {check : Json → Checked α} {v : Json} {x : α}
    (h : Entries.get? members name = some v) (hv : check v = .ok x) :
    required check members name = .ok x := by
  simp only [required, h, hv, under_ok]

theorem defaulting_of_get? {check : Json → Checked α} {absent : α} {v : Json} {x : α}
    (h : Entries.get? members name = some v) (hv : check v = .ok x) :
    defaulting check absent members name = .ok x := by
  simp only [defaulting, h, hv, under_ok]

/-- A value or null, as it is written for what may be absent. -/
theorem optional_ofText {check : Json → Checked α} {f : α → String} {o : Option α}
    (h : Entries.get? members name = some (.ofText? (o.map f)))
    (ho : ∀ x, o = some x → check (.str (f x)) = .ok x) :
    optional check members name = .ok o := by
  cases o with
  | none =>
    -- null reads like a member that is not there
    simp only [Option.map_none, Json.ofText?] at h
    simp only [optional, h]
  | some x =>
    simp only [Option.map_some, Json.ofText?] at h
    simp only [optional, h, ho x rfl, Except.map, under_ok]

/-- What an optional member gives was checked. -/
theorem check_of_optional {check : Json → Checked α} {x : α}
    (h : optional check members name = .ok (some x)) : ∃ v, check v = .ok x := by
  unfold optional at h
  split at h
  · cases h
  · cases h
  · rename_i v _ _
    have hv := under_eq_ok h
    cases hcheck : check v with
    | error ps => rw [hcheck] at hv; cases hv
    | ok y =>
      rw [hcheck] at hv
      cases hv
      exact ⟨v, hcheck⟩

end Members

/-- Written items are read back one by one. -/
theorem items_map {check : Json → Checked α} {f : α → Json} (xs : List α) :
    ∀ start : Nat, (∀ x ∈ xs, check (f x) = .ok x) → items check start (xs.map f) = .ok xs := by
  induction xs with
  | nil => exact fun _ _ => rfl
  | cons x xs ih =>
    intro start h
    have hfirst := h x List.mem_cons_self
    have hrest := ih (start + 1) fun y hy => h y (List.mem_cons_of_mem _ hy)
    rw [List.map_cons, items, hfirst, hrest]
    rfl

theorem list_map {check : Json → Checked α} {f : α → Json} {xs : List α}
    (h : ∀ x ∈ xs, check (f x) = .ok x) : list check (.arr (xs.map f)) = .ok xs :=
  items_map xs 0 h

end Checked

/-! ## Rules -/

open Checked

theorem RuleType.read_name (t : RuleType) : RuleType.read (.str t.name) = .ok t := by
  cases t <;> rfl

/-- A text that may be absent is read from what is written for it. -/
theorem optional_text {members : List (String × Json)} {name : String} {o : Option String}
    (h : Entries.get? members name = some (.ofText? o)) :
    Checked.optional text members name = .ok o :=
  optional_ofText (f := fun s => s) (by rw [Option.map_id']; exact h) fun _ _ => rfl

/-- A rule is read from the value that is written for it. -/
theorem Rule.read_toJson (r : Rule) : Rule.read r.toJson = .ok r := by
  have htexts : list text (.ofTexts r.constraints) = .ok r.constraints :=
    list_map fun s _ => text_str s
  -- all members are written, so no default is ever taken
  rw [toJson, read, optional_text rfl, defaulting_of_get? rfl (RuleType.read_name r.type),
    required_of_get? rfl (text_str r.action), optional_text rfl, defaulting_of_get? rfl htexts]
  rfl

/-! ## Contracts -/

namespace Contract

/-- The window can be written: its bounds have offsets in minutes, and no zone. -/
def InMinutes (c : Contract) : Prop :=
  (∀ t, c.start = some t → t.InMinutes) ∧ ∀ t, c.finish = some t → t.InMinutes

theorem check_documentText {t : Timestamp} (h : t.InMinutes) :
    Timestamp.check (.str t.documentText) = .ok t := by
  rw [Timestamp.check, Timestamp.read_documentText h]
  rfl

/-- **A contract is read from the value that is written for it.** -/
theorem read_toJson {c : Contract} (h : c.InMinutes) : Contract.read c.toJson = .ok c := by
  have hrules : list Rule.read (.arr (c.rules.map Rule.toJson)) = .ok c.rules :=
    list_map fun r _ => r.read_toJson
  rw [toJson, read, required_of_get? rfl (text_str c.id),
    required_of_get? rfl (text_str c.consumer),
    required_of_get? rfl (text_str c.provider),
    optional_ofText rfl fun t ht => check_documentText (h.1 t ht),
    optional_ofText rfl fun t ht => check_documentText (h.2 t ht),
    defaulting_of_get? rfl hrules]
  -- the window was in order before, which the reader checks again
  simp only [both_ok, c.ordered, dite_true]

theorem inMinutes_of_check {v : Json} {t : Timestamp} (h : Timestamp.check v = .ok t) :
    t.InMinutes := by
  rw [Timestamp.check] at h
  cases hread : Timestamp.read v with
  | error flaw => rw [hread] at h; cases h
  | ok t' =>
    rw [hread] at h
    cases h
    exact Timestamp.inMinutes_of_read hread

/-- **What is read can be written.** -/
theorem inMinutes_of_read {v : Json} {c : Contract} (h : Contract.read v = .ok c) :
    c.InMinutes := by
  unfold Contract.read at h
  split at h
  · split at h
    · cases h
    · rename_i id consumer provider start finish rules hchecks
      split at h
      · cases h
        -- the checks of the two bounds are the fourth and the fifth
        obtain ⟨-, hchecks⟩ := both_eq_ok hchecks
        obtain ⟨-, hchecks⟩ := both_eq_ok hchecks
        obtain ⟨-, hchecks⟩ := both_eq_ok hchecks
        obtain ⟨hstart, hchecks⟩ := both_eq_ok hchecks
        obtain ⟨hfinish, -⟩ := both_eq_ok hchecks
        constructor
        · intro t ht
          cases ht
          obtain ⟨v, hv⟩ := check_of_optional hstart
          exact inMinutes_of_check hv
        · intro t ht
          cases ht
          obtain ⟨v, hv⟩ := check_of_optional hfinish
          exact inMinutes_of_check hv
      · cases h
  · cases h

end Contract

/-! ## Documents -/

section Readable

open Json (Readable deeper)

variable {depth outer inner : Option Nat}

theorem Json.readable_ofText (o : Option String) : Readable depth (.ofText? o) := by
  cases o with
  | none => exact .null
  | some s => exact .str s

/-- A rule takes two containers: itself and its list of constraints. -/
theorem Rule.readable_toJson (houter : deeper depth = some outer)
    (hinner : deeper outer = some inner)
    (r : Rule) : Readable depth r.toJson := by
  refine .obj houter ?_ (show ["id", "type", "action", "target", "constraints"].Nodup by decide)
  simp only [List.forall_mem_cons, List.not_mem_nil, false_implies, implies_true, and_true]
  refine ⟨Json.readable_ofText _, .str _, .str _, Json.readable_ofText _, .arr hinner ?_⟩
  intro v hv
  obtain ⟨s, -, rfl⟩ := List.mem_map.1 hv
  exact .str s

/-- A contract takes four containers, which is far less than a document may have. -/
theorem Contract.readable_toJson (c : Contract) :
    Readable Json.Dialect.document.depth c.toJson := by
  have hdistinct : ["id", "consumer", "provider", "start", "end", "rules"].Nodup := by decide
  refine Readable.obj (show deeper (some 200) = some (some 199) from rfl) ?_ hdistinct
  simp only [List.forall_mem_cons, List.not_mem_nil, false_implies, implies_true, and_true]
  refine ⟨.str _, .str _, .str _, Json.readable_ofText _, Json.readable_ofText _,
    Readable.arr (show deeper (some 199) = some (some 198) from rfl) ?_⟩
  intro v hv
  obtain ⟨r, -, rfl⟩ := List.mem_map.1 hv
  exact r.readable_toJson (show deeper (some 198) = some (some 197) from rfl) rfl

end Readable

namespace Contract

/-- A document that was written is read, under either title. -/
theorem readPayload_document {c : Contract} (h : c.InMinutes) (role : Role) :
    readPayload role (.text c.document) = .ok c := by
  rw [readPayload, document, Json.write, String.toList_ofList, checkDocument,
    c.readable_toJson.read_writeChars Json.Style.faithful_compact]
  simp only [read_toJson h]
  rfl

/-- So is a document that was sent. -/
theorem readPayload_octets {c : Contract} (h : c.InMinutes) (role : Role) :
    readPayload role (.octets (Text.utf8 c.document)) = .ok c := by
  rw [readPayload, checkOctets, Text.utf8, Text.Utf8.decode_encode]
  exact readPayload_document h role

theorem inMinutes_of_checkDocument {title : String} {s : List Char} {c : Contract}
    (h : checkDocument title read s = .ok c) : c.InMinutes := by
  unfold checkDocument at h
  split at h
  · cases h
  · rename_i v _
    cases hread : read v with
    | error ps => rw [hread] at h; cases h
    | ok c' =>
      rw [hread] at h
      cases h
      exact inMinutes_of_read hread

theorem inMinutes_of_readPayload {role : Role} {payload : Received} {c : Contract}
    (h : readPayload role payload = .ok c) : c.InMinutes := by
  cases payload with
  | text s => exact inMinutes_of_checkDocument h
  | octets s =>
    rw [readPayload, checkOctets] at h
    split at h
    · cases h
    · exact inMinutes_of_checkDocument h
  | broken s => cases h

/-- Some document is read as this contract. -/
def Documented (c : Contract) : Prop :=
  ∃ role payload, readPayload role payload = .ok c

/-- The contracts of documents are those that can be written. -/
theorem documented_iff {c : Contract} : c.Documented ↔ c.InMinutes := by
  constructor
  · rintro ⟨role, payload, h⟩
    exact inMinutes_of_readPayload h
  · intro h
    exact ⟨.request, .text c.document, readPayload_document h .request⟩

theorem isBlank_document (c : Contract) : (Received.text c.document).isBlank = false := by
  rw [Received.isBlank, document, Json.write, String.toList_ofList]
  -- the text begins with a brace
  obtain ⟨r, htext⟩ : ∃ r, Json.writeChars .compact c.toJson = '{' :: r := by
    rw [toJson, Json.writeChars]
    exact ⟨_, rfl⟩
  rw [htext]
  rfl

/-- **Contract documents read back.** Whatever document a contract was read from, the one that is
written for it is read as the same contract, as a request and as an agreement, as text and as
octets; and the document that is written for what was read from it is the same text again. -/
theorem document_reads_back {role : Role} {payload : Received} {c : Contract}
    (h : readPayload role payload = .ok c) :
    (∀ role', readPayload role' (.text c.document) = .ok c ∧
      readPayload role' (.octets (Text.utf8 c.document)) = .ok c) ∧
    ∀ role' c', readPayload role' (.text c.document) = .ok c' → c'.document = c.document := by
  have hminutes := inMinutes_of_readPayload h
  refine ⟨fun role' => ⟨readPayload_document hminutes role', readPayload_octets hminutes role'⟩, ?_⟩
  intro role' c' hagain
  rw [readPayload_document hminutes role'] at hagain
  cases hagain
  rfl

/-- A request as it may come in: with an escape, with a number and a text for its bounds, and with a
rule that says no more than its action. -/
def looseText : String :=
  "\x7b\"id\": \"urn:r\", \"consumer\": \"\\u00e9\", \"provider\": \"p\", \"start\": 0.5, " ++
    "\"end\": \"2024-02-29T10:30+02:00\", \"rules\": [\x7b\"action\": \"use\"\x7d]\x7d"

/-- The same request as it is written. -/
def strictText : String :=
  "\x7b\"id\":\"urn:r\",\"consumer\":\"é\",\"provider\":\"p\"," ++
    "\"start\":\"1970-01-01T00:00:00.500000Z\",\"end\":\"2024-02-29T10:30:00+02:00\"," ++
    "\"rules\":[\x7b\"id\":null,\"type\":\"permission\",\"action\":\"use\",\"target\":null," ++
    "\"constraints\":[]\x7d]\x7d"

theorem document_reads_back_of_looseText : ∃ c,
    readPayload .request (.text looseText) = .ok c ∧ c.document = strictText ∧
      readPayload .agreement (.octets (Text.utf8 strictText)) = .ok c := by
  have hread : (readPayload .request (.text looseText)).toOption.map document =
      some strictText := by
    decide +kernel
  obtain ⟨c, hc, hdocument⟩ := Option.map_eq_some_iff.1 hread
  have hagain := ((document_reads_back (ok_of_toOption hc)).1 .agreement).2
  rw [hdocument] at hagain
  exact ⟨c, ok_of_toOption hc, hdocument, hagain⟩

end Contract

end Dataspace
