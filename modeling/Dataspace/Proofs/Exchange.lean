import Dataspace.Exchange

/-!
# Running an exchange

An action of type `Exchange σ α` is a program; `Exchange.perform` runs it from a point of a run and
gives its result together with the point where it ends. This module has one equation for every
primitive of an exchange, and one for the sequence of two actions:

* **`perform_bind`** — an action and what follows it: an error ends the sequence where it happened.
* **`perform_attempt`** — an attempt never fails: the error becomes a value.
* **`perform_transmit`** — one message: one event, one call of the transport, and what it says.
* **`perform_save`** — one reply for the store: one event, and what `Persistence.take` makes of it.
* **`perform_storeAgreement`** — one identifier drawn, one record put into the book.

Everything about longer actions is derived from these; no later module opens `Exchange`.
-/

namespace Dataspace

/-- A point of a run after further events. -/
def Run.extended {σ : Type} (r : Run σ) (events : List Event) : Run σ :=
  { r with events := r.events ++ events }

/-- The events that notes of one component make. -/
def Event.ofNotes (component : Component) (notes : List Note) : List Event :=
  notes.map fun n => .noted (n.by component)

namespace Run

variable {σ : Type} (r : Run σ) (events : List Event)

@[simp] theorem extended_world : (r.extended events).world = r.world := rfl

@[simp] theorem extended_shelves : (r.extended events).shelves = r.shelves := rfl

@[simp] theorem extended_book : (r.extended events).book = r.book := rfl

@[simp] theorem extended_asked : (r.extended events).asked = r.asked := rfl

@[simp] theorem extended_drawn : (r.extended events).drawn = r.drawn := rfl

@[simp] theorem extended_events : (r.extended events).events = r.events ++ events := rfl

theorem extended_extended (more : List Event) :
    (r.extended events).extended more = r.extended (events ++ more) := by
  simp only [extended, List.append_assoc]

end Run

/-- What a store does with a reply, given the surroundings and the shelves of this library; only one
of the two changes. -/
def Persistence.take {σ : Type} (p : Persistence σ) (s : Save) (world : σ) (shelves : Shelves) :
    Outcome (σ × Shelves) Unit :=
  match p with
  | external _ store =>
    ⟨(store s world).result, (store s world).notes, (store s world).world, shelves⟩
  | inMemory hindrance =>
    match hindrance s world with
    | (some obstacle, world') => ⟨.error obstacle, [], world', shelves⟩
    | (none, world') =>
      match shelves.save s with
      | .error e => ⟨.error e, [], world', shelves⟩
      | .ok shelves' => ⟨.ok (), Shelves.notes s, world', shelves'⟩

/-- The shelves of this library, with nothing in the way. -/
def Persistence.unhindered {σ : Type} : Persistence σ :=
  .inMemory fun _ world => (none, world)

namespace Exchange

variable {σ α β : Type}

/-- The result of an action begun at a point of a run, and the point where it ends. -/
def perform (x : Exchange σ α) (r : Run σ) : Except Error α × Run σ :=
  x.run.run r

/-- What an action begun at a point of a run ends with. -/
def outcome (x : Exchange σ α) (r : Run σ) : Except Error α :=
  (perform x r).1

/-- Where the run stands after an action. -/
def after (x : Exchange σ α) (r : Run σ) : Run σ :=
  (perform x r).2

/-! ## The language of actions -/

@[simp] theorem perform_pure (a : α) (r : Run σ) :
    perform (pure a) r = (.ok a, r) := rfl

@[simp] theorem perform_throw (e : Error) (r : Run σ) :
    perform (throw e : Exchange σ α) r = (.error e, r) := rfl

/-- A sequence of two actions. An error of the first is the error of both, and the second never
begins. -/
theorem perform_bind (x : Exchange σ α) (f : α → Exchange σ β) (r : Run σ) :
    perform (x >>= f) r =
      match perform x r with
      | (.ok a, r') => perform (f a) r'
      | (.error e, r') => (.error e, r') := by
  -- both sides run `x` first and look at the same pair
  show (ExceptT.bind x f).run.run r = _
  unfold perform ExceptT.bind
  simp only [ExceptT.mk, ExceptT.run, bind, StateT.bind, StateT.run]
  cases x r with
  | mk result r' => cases result <;> rfl

theorem perform_bind_ok {x : Exchange σ α} {f : α → Exchange σ β} {r r' : Run σ} {a : α}
    (h : perform x r = (.ok a, r')) : perform (x >>= f) r = perform (f a) r' := by
  rw [perform_bind, h]

theorem perform_bind_error {x : Exchange σ α} {f : α → Exchange σ β} {r r' : Run σ} {e : Error}
    (h : perform x r = (.error e, r')) : perform (x >>= f) r = (.error e, r') := by
  rw [perform_bind, h]

/-- A value that is made of what an action returns. -/
theorem perform_bind_pure (x : Exchange σ α) (f : α → β) (r : Run σ) :
    perform (x >>= fun a => (pure (f a) : Exchange σ β)) r = ((outcome x r).map f, after x r) := by
  unfold outcome after
  rw [perform_bind]
  cases perform x r with
  | mk result r' =>
    cases result with
    | error e => rfl
    | ok a => rfl

theorem perform_get (r : Run σ) :
    perform (get : Exchange σ (Run σ)) r = (.ok r, r) := rfl

theorem perform_set (r r' : Run σ) :
    perform (set r' : Exchange σ PUnit) r = (.ok ⟨⟩, r') := rfl

theorem perform_modify (f : Run σ → Run σ) (r : Run σ) :
    perform (modify f : Exchange σ PUnit) r = (.ok ⟨⟩, f r) := rfl

/-- An attempt ends well whatever the action does, and it ends where the action ends. -/
@[simp] theorem perform_attempt (x : Exchange σ α) (r : Run σ) :
    perform (attempt x) r = (.ok (perform x r).1, (perform x r).2) := rfl

/-- A result that is there already changes nothing. -/
@[simp] theorem perform_ofResult (result : Except Error α) (r : Run σ) :
    perform (ofResult result) r = (result, r) := by
  cases result with
  | ok a => rfl
  | error e => rfl

/-! ## The chronicle -/

@[simp] theorem perform_record (events : List Event) (r : Run σ) :
    perform (record events) r = (.ok ⟨⟩, r.extended events) := rfl

@[simp] theorem perform_say (component : Component) (notes : List Note) (r : Run σ) :
    perform (say component notes) r = (.ok ⟨⟩, r.extended (Event.ofNotes component notes)) := rfl

@[simp] theorem perform_note (level : Level) (component : Component) (text : String) (r : Run σ) :
    perform (note level component text) r =
      (.ok ⟨⟩, r.extended (Event.ofNotes component [(level, text)])) := rfl

/-! ## The collaborators -/

/-- Asking who the connector is: one identity more was asked for. -/
theorem perform_identity (source : IdentitySource) (r : Run σ) :
    perform (identity source) r =
      (.ok (source.whoAt r.asked),
        { r with
          asked := r.asked + 1
          events := r.events ++ (.asked (source.whoAt r.asked) ::
            Event.ofNotes .identity (source.notes (source.whoAt r.asked))) }) := by
  simp only [identity, perform_bind, perform_get, perform_set, perform_record, perform_say,
    perform_pure, Run.extended, List.append_assoc, List.singleton_append]

/-- Drawing an identifier: one identifier more was drawn. -/
theorem perform_uuid (uuidAt : Nat → Uuid) (r : Run σ) :
    perform (uuid uuidAt) r =
      (.ok (uuidAt r.drawn),
        { r with drawn := r.drawn + 1, events := r.events ++ [.drew (uuidAt r.drawn)] }) := rfl

/-- Handing a message to the transport: it is called once, with the message and the surroundings as
they are, and its answer is the result. -/
theorem perform_transmit (t : Transport σ) (call : Call) (r : Run σ) :
    perform (transmit t call) r =
      ((t.send call r.world).result,
        { r with
          world := (t.send call r.world).world
          events := r.events ++ (.sent call ::
            Event.ofNotes .transport (t.send call r.world).notes) }) := by
  simp only [transmit, perform_bind, perform_get, perform_set, perform_record, perform_say,
    perform_ofResult, Run.extended, List.append_assoc, List.singleton_append]

/-- Handing a reply to the store: one event, whatever comes of it. -/
theorem perform_save (p : Persistence σ) (s : Save) (r : Run σ) :
    perform (save p s) r =
      ((p.take s r.world r.shelves).result,
        { r with
          world := (p.take s r.world r.shelves).world.1
          shelves := (p.take s r.world r.shelves).world.2
          events := r.events ++ (.saved s ::
            Event.ofNotes .memory (p.take s r.world r.shelves).notes) }) := by
  have hrecord : perform (record [.saved s]) r = (.ok ⟨⟩, r.extended [.saved s]) := rfl
  unfold save Persistence.take
  rw [perform_bind_ok hrecord, perform_bind_ok (perform_get _)]
  cases p with
  | external name store =>
    simp only [perform_bind, perform_set, perform_say, perform_ofResult, Run.extended,
      List.append_assoc, List.singleton_append]
  | inMemory hindrance =>
    simp only [Run.extended_world, Run.extended_shelves]
    obtain ⟨obstacle, world⟩ := hindrance s r.world
    rw [perform_bind_ok (perform_set _ _)]
    -- the shelves see the reply only if nothing is in the way
    cases obstacle with
    | some e => rfl
    | none =>
      simp only [perform_bind, perform_ofResult]
      cases r.shelves.save s with
      | error e => rfl
      | ok shelves =>
        simp only [perform_modify, perform_say, Run.extended, List.append_assoc,
          List.singleton_append]

/-- Looking an agreement up in the book changes nothing. -/
theorem perform_findAgreement (id : String) (r : Run σ) :
    perform (findAgreement .inMemory id) r = (r.book.find id, r) := by
  simp only [findAgreement, perform_bind, perform_get, perform_ofResult]

/-- Whoever knows the agreements, to ask for one leaves no trace. -/
theorem after_findAgreement (service : AgreementService) (id : String) (r : Run σ) :
    after (findAgreement service id) r = r := by
  cases service with
  | inMemory => rw [after, perform_findAgreement]
  | lookup find =>
    unfold after findAgreement
    rw [perform_ofResult]

/-- Entering an agreement: the record under the next identifier goes into the book. -/
theorem perform_storeAgreement (uuidAt : Nat → Uuid) (agreement : Contract) (r : Run σ) :
    let entry := AgreementBook.recordFor agreement (uuidAt r.drawn)
    perform (storeAgreement uuidAt agreement) r =
      (.ok entry,
        { r with
          book := r.book.put entry.agreementId entry
          drawn := r.drawn + 1
          events := r.events ++ (.drew (uuidAt r.drawn) :: Event.ofNotes .memory
            [(.info, "Stored agreement " ++ agreement.id ++ " as " ++ entry.agreementId)]) }) := by
  simp only [storeAgreement, perform_bind, perform_uuid, perform_modify, perform_note,
    perform_pure, Run.extended, List.append_assoc, List.singleton_append]

end Exchange

end Dataspace
