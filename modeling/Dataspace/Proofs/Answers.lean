import Dataspace.Proofs.Chronicle

/-!
# What the collaborators answered

A chronicle says what was handed to the transport and to the store, and not what they did with it.
But that is fixed: each of them was called once for each of these events, in the surroundings and
with the shelves that the calls before had left. `heardAll` goes through a stretch of a chronicle in
this way and collects the answers; `Answered` says that an action has heard just these.

* **`heardAll_append`** — answers can be collected piece by piece.
* **`Answered.trans`** — so can those of two actions, one after the other.
* **`answered_exchanged`**, **`answered_keep`** — an exchange and a save hear one answer each.
-/

namespace Dataspace

open Exchange

variable {σ : Type}

/-- What a call of a collaborator came to. -/
inductive Answer where
  | sent (call : Call) (result : Except Error Response)
  | saved (save : Save) (result : Except Error Unit)

/-- The message that was answered. -/
def Answer.call? : Answer → Option Call
  | sent call _ => some call
  | saved _ _ => none

/-- The reply that was to be kept. -/
def Answer.save? : Answer → Option Save
  | sent _ _ => none
  | saved save _ => some save

def Answer.unsaved? : Answer → Option Error
  | saved _ (.error cause) => some cause
  | _ => none

theorem Answer.eq_saved_of_unsaved? {a : Answer} {cause : Error} (h : a.unsaved? = some cause) :
    ∃ save, a = .saved save (.error cause) := by
  cases a with
  | sent call result => cases h
  | saved save result =>
    cases result with
    | ok _ => cases h
    | error err =>
      cases h
      exact ⟨save, rfl⟩

section Heard

variable (t : Transport σ) (p : Persistence σ)

/-- What is heard at an event, in some surroundings and with some shelves, and what these are
afterwards. -/
def heard (place : σ × Shelves) : Event → List Answer × (σ × Shelves)
  | .sent call =>
    ([.sent call (t.send call place.1).result], ((t.send call place.1).world, place.2))
  | .saved s => ([.saved s (p.take s place.1 place.2).result], (p.take s place.1 place.2).world)
  | .asked _ | .drew _ | .noted _ => ([], place)

def heardAll : (place : σ × Shelves) → List Event → List Answer × (σ × Shelves)
  | place, [] => ([], place)
  | place, event :: rest =>
    ((heard t p place event).1 ++ (heardAll (heard t p place event).2 rest).1,
      (heardAll (heard t p place event).2 rest).2)

theorem heardAll_append (earlier later : List Event) :
    ∀ place, heardAll t p place (earlier ++ later) =
      ((heardAll t p place earlier).1 ++
          (heardAll t p (heardAll t p place earlier).2 later).1,
        (heardAll t p (heardAll t p place earlier).2 later).2) := by
  induction earlier with
  | nil => exact fun _ => rfl
  | cons event earlier ih =>
    intro place
    rw [List.cons_append, heardAll, ih, ← List.append_assoc]
    rfl

theorem heardAll_ofNotes (component : Component) (notes : List Note) (place : σ × Shelves) :
    heardAll t p place (Event.ofNotes component notes) = ([], place) := by
  induction notes with
  | nil => rfl
  | cons n notes ih => exact ih

/-- Between two points of a run, just these answers were heard. -/
def Answered (r r' : Run σ) (answers : List Answer) : Prop :=
  ∃ events, r'.events = r.events ++ events ∧
    heardAll t p (r.world, r.shelves) events = (answers, (r'.world, r'.shelves))

variable {t p} {r r' r'' : Run σ} {answers more : List Answer}

theorem Answered.refl (r : Run σ) : Answered t p r r [] :=
  ⟨[], (List.append_nil _).symm, rfl⟩

theorem Answered.trans (h : Answered t p r r' answers) (h' : Answered t p r' r'' more) :
    Answered t p r r'' (answers ++ more) := by
  obtain ⟨events, hevents, hheard⟩ := h
  obtain ⟨events', hevents', hheard'⟩ := h'
  refine ⟨events ++ events', ?_, ?_⟩
  · rw [hevents', hevents, List.append_assoc]
  · -- the second stretch begins in the place where the first one ends
    rw [heardAll_append, hheard]
    simp only [hheard']

theorem Answered.extended (h : Answered t p r r' answers) (component : Component)
    (notes : List Note) :
    Answered t p r (r'.extended (Event.ofNotes component notes)) answers := by
  have hnotes : Answered t p r' (r'.extended (Event.ofNotes component notes)) [] :=
    ⟨_, rfl, heardAll_ofNotes t p component notes _⟩
  have hboth := h.trans hnotes
  rwa [List.append_nil] at hboth

theorem Answered.eq (h : Answered t p r r' answers) :
    (heardAll t p (r.world, r.shelves) (r'.events.drop r.events.length)).1 = answers := by
  obtain ⟨events, hevents, hheard⟩ := h
  rw [hevents, List.drop_left, hheard]

/-- What was heard of a save is what the store made of it in some surroundings and with some
shelves. -/
theorem exists_take_of_mem_heardAll {save : Save} {result : Except Error Unit}
    {events : List Event} :
    ∀ {place}, Answer.saved save result ∈ (heardAll t p place events).1 →
      ∃ world shelves, (p.take save world shelves).result = result := by
  induction events with
  | nil => exact fun h => absurd h List.not_mem_nil
  | cons event rest ih =>
    intro place h
    rcases List.mem_append.1 h with hfirst | hrest
    · cases event with
      | sent call => cases List.mem_singleton.1 hfirst
      | saved s =>
        cases List.mem_singleton.1 hfirst
        exact ⟨place.1, place.2, rfl⟩
      | asked | drew | noted => exact absurd hfirst List.not_mem_nil
    · exact ih hrest

theorem Answered.exists_take (h : Answered t p r r' answers) {save : Save}
    {result : Except Error Unit} (ha : .saved save result ∈ answers) :
    ∃ world shelves, (p.take save world shelves).result = result := by
  obtain ⟨events, -, hheard⟩ := h
  rw [show answers = (heardAll t p (r.world, r.shelves) events).1 by rw [hheard]] at ha
  exact exists_take_of_mem_heardAll ha

theorem answered_exchanged (env : Surroundings σ) (p : Persistence σ) (s : Service)
    (d : Descriptor) (payload : Payload) (r : Run σ) :
    Answered env.transport p r (s.exchanged env d payload r)
      [.sent (s.callAt env d payload r.asked r.drawn) (s.answerAt env d payload r).result] := by
  refine ⟨s.exchangeEvents env d payload r, rfl, ?_⟩
  -- the identity and the identifier come before the message, and notes stand around all three
  unfold Service.exchangeEvents
  simp only [List.cons_append, List.append_assoc, heardAll, heard, heardAll_append,
    heardAll_ofNotes, List.nil_append, List.append_nil]
  rfl

theorem answered_save (t : Transport σ) (p : Persistence σ) (s : Save) (r : Run σ) :
    Answered t p r (after (save p s) r) [.saved s (outcome (save p s) r)] := by
  rw [after, outcome, perform_save]
  refine ⟨_, rfl, ?_⟩
  simp only [heardAll, heard, heardAll_ofNotes, List.append_nil]

theorem answered_storeAgreement (t : Transport σ) (p : Persistence σ) (uuidAt : Nat → Uuid)
    (agreement : Contract) (r : Run σ) :
    Answered t p r (after (storeAgreement uuidAt agreement) r) [] := by
  rw [after, perform_storeAgreement]
  refine ⟨_, rfl, ?_⟩
  simp only [heardAll, heard, heardAll_ofNotes, List.nil_append]

/-- What is said of a failure to store adds no answer. -/
theorem answered_keep (t : Transport σ) (p : Persistence σ) (errand : Download.Errand)
    (reply : Response) (r : Run σ) :
    Answered t p r (after (Download.keep p errand reply) r)
      [.saved (errand.save reply) (outcome (save p (errand.save reply)) r)] := by
  have hsave := answered_save t p (errand.save reply) r
  rw [after, Download.perform_keep]
  cases hsaving : outcome (save p (errand.save reply)) r with
  | ok _ =>
    rw [hsaving] at hsave
    exact hsave
  | error cause =>
    rw [hsaving] at hsave
    cases hfailure : cause.isStoreFailure with
    | true =>
      simp only [hfailure, if_true]
      exact hsave.extended _ _
    | false =>
      simp only [hfailure, Bool.false_eq_true, if_false]
      exact hsave

end Heard

end Dataspace
