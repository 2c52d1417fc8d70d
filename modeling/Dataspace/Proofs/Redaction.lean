import Dataspace.Proofs.NegotiationSteps

/-!
# Without the security token

The security token of an identity goes into one field of a header. `redacted` puts an empty text in
its place: in an identity, in a header, in a message on its way and in an event.

* **`Message.redacted_header`** — without the token a header is that of a message without a token:
  the token is in that one field and nowhere else.
* **`Service.redacted_callAt`** — identities that differ in the token only speak alike.
* **`Run.Alike`** — two runs that differ in tokens only, as far as anyone can tell who sees a part
  of the surroundings; their log records are the same (`Run.Alike.log_eq`).
-/

namespace Dataspace

variable {σ τ : Type}

/-! ## Fields -/

/-- The entry with an empty text, if it has this name. -/
def Entries.blanked (name : String) (entry : String × String) : String × String :=
  (entry.1, if entry.1 = name then "" else entry.2)

theorem Entries.map_blanked_put (name n v : String) (entries : List (String × String)) :
    (put entries n v).map (blanked name) =
      put (entries.map (blanked name)) n (blanked name (n, v)).2 := by
  induction entries with
  | nil => rfl
  | cons e rest ih =>
    by_cases h : e.1 = n
    · simp [put, blanked, h]
    · simp [put, blanked, h, ih]

namespace Fields

/-- The same fields, with an empty text under one name. -/
def blank (f : Fields String) (name : String) : Fields String where
  entries := f.entries.map (Entries.blanked name)
  distinct := by
    rw [List.map_map]
    exact f.distinct

variable (f : Fields String) (name n : String)

theorem blank_put (v : String) :
    (f.put n v).blank name = (f.blank name).put n (Entries.blanked name (n, v)).2 :=
  ext_entries (Entries.map_blanked_put name n v f.entries)

theorem blank_putSome (value : Option String) :
    (f.putSome n value).blank name =
      (f.blank name).putSome n (value.map fun v => (Entries.blanked name (n, v)).2) := by
  cases value with
  | none => rfl
  | some v => exact f.blank_put name n v

theorem blank_putAll (pairs : List (String × String)) :
    ∀ f : Fields String,
      (f.putAll pairs).blank name = (f.blank name).putAll (pairs.map (Entries.blanked name)) := by
  induction pairs with
  | nil => exact fun _ => rfl
  | cons p rest ih =>
    intro f
    show ((f.put p.1 p.2).putAll rest).blank name = _
    rw [ih, blank_put]
    rfl

end Fields

/-! ## Identities and messages -/

def Identity.redacted (who : Identity) : Identity :=
  { who with token := "" }

def Header.redacted (h : Header) : Header :=
  h.blank "ids:securityToken"

def Message.redacted (m : Message) : Message :=
  { m with securityToken := "" }

theorem Message.redacted_header (m : Message) : m.header.redacted = m.redacted.header.redacted := by
  have hcommon : m.commonFields.map (Entries.blanked "ids:securityToken") =
      m.redacted.commonFields.map (Entries.blanked "ids:securityToken") := by
    simp [commonFields, redacted, Entries.blanked]
  unfold Header.redacted header Fields.ofPairs
  simp only [Fields.blank_putAll, Fields.blank_putSome, hcommon]
  rfl

def Call.redacted (c : Call) : Call :=
  { c with header := c.header.redacted }

/-- Two sources that give the same identities at the same times, but for the tokens. One that says
when it lacks a token lacks it at the same times as the other. -/
inductive IdentitySource.SameButTokens : IdentitySource → IdentitySource → Prop
  | snapshots {whoAt whoAt' : Nat → Identity}
      (same : ∀ n, (whoAt n).redacted = (whoAt' n).redacted) :
      SameButTokens (.snapshots whoAt) (.snapshots whoAt')
  | settled {connectorId modelVersion : String} {tokenAt tokenAt' : Nat → String}
      (lacks : ∀ n, (tokenAt n).isEmpty = (tokenAt' n).isEmpty) :
      SameButTokens (.settled connectorId modelVersion tokenAt)
        (.settled connectorId modelVersion tokenAt')

namespace IdentitySource.SameButTokens

variable {i i' : IdentitySource}

theorem redacted_whoAt (h : i.SameButTokens i') (n : Nat) :
    (i.whoAt n).redacted = (i'.whoAt n).redacted := by
  cases h with
  | snapshots same => exact same n
  | settled lacks => rfl

theorem notes_eq (h : i.SameButTokens i') (n : Nat) :
    i.notes (i.whoAt n) = i'.notes (i'.whoAt n) := by
  cases h with
  | snapshots same => rfl
  | settled lacks =>
    dsimp only [notes, whoAt]
    rw [lacks n]

end IdentitySource.SameButTokens

def Surroundings.knownAs (env : Surroundings σ) (i : IdentitySource) : Surroundings σ :=
  { env with identity := i }

theorem Service.redacted_message (s : Service) (d : Descriptor) {who who' : Identity}
    (h : who.redacted = who'.redacted) (u : Uuid) (now : Timestamp) :
    (s.message d who u now).redacted = (s.message d who' u now).redacted := by
  obtain ⟨connectorId, modelVersion, token⟩ := who
  obtain ⟨connectorId', modelVersion', token'⟩ := who'
  simp only [Identity.redacted, Identity.mk.injEq, and_true] at h
  obtain ⟨rfl, rfl⟩ := h
  rfl

/-- Identities that differ in the token only send the same messages, but for the token. -/
theorem Service.redacted_callAt (env : Surroundings σ) {i i' : IdentitySource}
    (h : i.SameButTokens i') (s : Service) (d : Descriptor) (payload : Payload)
    (asked drawn : Nat) :
    (s.callAt (env.knownAs i) d payload asked drawn).redacted =
      (s.callAt (env.knownAs i') d payload asked drawn).redacted := by
  have hmessage := s.redacted_message d (h.redacted_whoAt asked) (env.uuidAt drawn)
    (env.clock asked)
  have hheader := congrArg (Header.redacted ∘ Message.header) hmessage
  simp only [Function.comp_apply, ← Message.redacted_header] at hheader
  exact congrArg (Call.mk d.recipient · payload) hheader

/-! ## Chronicles -/

namespace Event

def redacted : Event → Event
  | sent call => sent call.redacted
  | asked who => asked who.redacted
  | event => event

def record? : Event → Option LogRecord
  | noted record => some record
  | _ => none

@[simp] theorem map_redacted_ofNotes (component : Component) (notes : List Note) :
    (ofNotes component notes).map redacted = ofNotes component notes := by
  unfold ofNotes
  rw [List.map_map]
  rfl

theorem record?_redacted (event : Event) : event.redacted.record? = event.record? := by
  cases event <;> rfl

theorem call?_redacted (event : Event) : event.redacted.call? = event.call?.map Call.redacted := by
  cases event <;> rfl

end Event

/-- What was logged, in its order. -/
def Run.log (r : Run σ) : List LogRecord :=
  r.events.filterMap Event.record?

/-- Two runs that differ in nothing but tokens and what is not seen of the surroundings. -/
structure Run.Alike (view : σ → τ) (r r' : Run σ) : Prop where
  world : view r.world = view r'.world
  shelves : r.shelves = r'.shelves
  book : r.book = r'.book
  asked : r.asked = r'.asked
  drawn : r.drawn = r'.drawn
  events : r.events.map Event.redacted = r'.events.map Event.redacted

namespace Run.Alike

variable {view : σ → τ} {r r' : Run σ}

theorem refl (r : Run σ) : r.Alike view r :=
  ⟨rfl, rfl, rfl, rfl, rfl, rfl⟩

theorem extended (h : r.Alike view r') (events : List Event) :
    (r.extended events).Alike view (r'.extended events) where
  world := h.world
  shelves := h.shelves
  book := h.book
  asked := h.asked
  drawn := h.drawn
  events := by simp only [Run.extended_events, List.map_append, h.events]

theorem log_eq (h : r.Alike view r') : r.log = r'.log := by
  have hlog : ∀ r : Run σ, r.log = (r.events.map Event.redacted).filterMap Event.record? := by
    intro r
    rw [List.filterMap_map]
    exact congrArg (r.events.filterMap ·) (funext fun e => (Event.record?_redacted e).symm)
  rw [hlog r, hlog r', h.events]

theorem calls_eq (h : r.Alike view r') :
    r.calls.map Call.redacted = r'.calls.map Call.redacted := by
  have hcalls : ∀ r : Run σ, r.calls.map Call.redacted =
      (r.events.map Event.redacted).filterMap Event.call? := by
    intro r
    rw [Run.calls, List.map_filterMap, List.filterMap_map]
    exact congrArg (r.events.filterMap ·) (funext fun e => (Event.call?_redacted e).symm)
  rw [hcalls r, hcalls r', h.events]

end Run.Alike

end Dataspace
