import Dataspace.Proofs.Numerals
import Dataspace.Proofs.Reach
import Mathlib.Data.List.Forall2

/-!
# One identity and one identifier for each message

Two sources are shared by all that an engine does: one says who the connector is, the other gives
identifiers. Each is asked in turn, and what it gives is used once:

* **`Uuid.messageId_injective`** — identifiers that differ make messages of different names, of
  whatever kind these are.
* **`Taking`** — what an identifier is drawn for: a message, together with the identity that speaks
  in it, or a record in the book.
* **`Tally`** — between two points of a run, these and no other takings were made.
* **`session_takes_in_turn`** — over a session the i-th message is spoken by the i-th identity and
  has a name of its own.
-/

namespace Dataspace

open Exchange

variable {σ : Type}

/-! ## Names of messages -/

theorem Text.length_hex (w : Nat) : ∀ n, (hex w n).length = w := by
  induction w with
  | zero => exact fun _ => rfl
  | succ w ih =>
    intro n
    rw [hex, List.length_append, ih]
    rfl

theorem Text.eq_hexDigit_of_mem_hex {c : Char} (w : Nat) :
    ∀ n, c ∈ hex w n → ∃ k < 16, c = hexDigit k := by
  induction w with
  | zero => exact fun _ h => absurd h List.not_mem_nil
  | succ w ih =>
    intro n h
    rcases List.mem_append.1 h with hmem | hmem
    · exact ih (n / 16) hmem
    · exact ⟨n % 16, Nat.mod_lt n (by decide), List.mem_singleton.1 hmem⟩

/-- A number that fits is known by its digits. -/
theorem Text.hex_injective (w : Nat) :
    ∀ {n m : Nat}, n < 16 ^ w → m < 16 ^ w → hex w n = hex w m → n = m := by
  induction w with
  | zero =>
    intro n m hn hm _
    rw [pow_zero] at hn hm
    omega
  | succ w ih =>
    intro n m hn hm h
    obtain ⟨hrest, hlast⟩ := List.append_inj' h rfl
    rw [pow_succ'] at hn hm
    have hquotient : n / 16 = m / 16 :=
      ih (Nat.div_lt_of_lt_mul hn) (Nat.div_lt_of_lt_mul hm) hrest
    have hvalue := congrArg hexValue? (List.cons.inj hlast).1
    rw [hexValue?_hexDigit (Nat.mod_lt n (by decide)),
      hexValue?_hexDigit (Nat.mod_lt m (by decide))] at hvalue
    have hremainder : n % 16 = m % 16 := Option.some.inj hvalue
    omega

namespace Uuid

theorem length_digits (u : Uuid) : u.digits.length = 32 :=
  Text.length_hex 32 _

theorem digits_injective {u v : Uuid} (h : u.digits = v.digits) : u = v := by
  have hnumber : u.bits.toNat = v.bits.toNat := Text.hex_injective 32 u.bits.isLt v.bits.isLt h
  cases u
  cases v
  exact congrArg mk (BitVec.eq_of_toNat_eq hnumber)

/-- The hyphens stand between the digits and are none of them. -/
theorem filter_text (u : Uuid) : u.text.filter (· ≠ '-') = u.digits := by
  have hdigit : ∀ k < 16, Text.hexDigit k ≠ '-' := by decide
  have hpart : ∀ part : List Char, part ⊆ u.digits → part.filter (· ≠ '-') = part := by
    intro part hpart
    refine List.filter_eq_self.2 fun c hc => ?_
    obtain ⟨k, hk, rfl⟩ := Text.eq_hexDigit_of_mem_hex 32 _ (hpart hc)
    exact decide_eq_true (hdigit k hk)
  have htake : ∀ a b, (u.digits.drop a).take b ⊆ u.digits :=
    fun a b => List.Subset.trans (List.take_subset _ _) (List.drop_subset _ _)
  have hdrop : ∀ a b, (u.digits.drop a).take b ++ u.digits.drop (a + b) = u.digits.drop a := by
    intro a b
    rw [← List.drop_drop, List.take_append_drop]
  unfold text
  simp only [List.filter_append, List.filter_cons, ne_eq, not_true_eq_false, decide_false,
    Bool.false_eq_true, if_false]
  simp only [← ne_eq, hpart _ (htake _ _), hpart _ (List.take_subset _ _),
    hpart _ (List.drop_subset _ _), List.append_assoc]
  rw [hdrop 16 4, hdrop 12 4, hdrop 8 4, List.take_append_drop]

theorem length_text (u : Uuid) : u.text.length = 36 := by
  unfold text
  simp [length_digits]

/-- **Identifiers that differ name different messages**, of whatever kinds these are. -/
theorem messageId_injective {kind kind' : MessageKind} {u v : Uuid}
    (h : u.messageId kind = v.messageId kind') : u = v := by
  have hlists := congrArg String.toList h
  unfold messageId at hlists
  simp only [String.toList_append, String.toList_ofList] at hlists
  have htext : u.text = v.text :=
    List.append_inj_right' hlists (by rw [length_text, length_text])
  apply digits_injective
  rw [← filter_text, htext, filter_text]

end Uuid

/-! ## Who speaks in a message -/

/-- The four fields of a header that say who speaks. -/
structure Call.SpokenBy (c : Call) (who : Identity) : Prop where
  issuer : c.header.get? "ids:issuerConnector" = some who.connectorId
  sender : c.header.get? "ids:senderAgent" = some who.connectorId
  modelVersion : c.header.get? "ids:modelVersion" = some who.modelVersion
  token : c.header.get? "ids:securityToken" = some who.token

def Call.id? (c : Call) : Option String :=
  c.header.get? "@id"

namespace Service.Usual

variable {s : Service} {d : Descriptor} {env : Surroundings σ} {payload : Payload}
  {asked drawn : Nat}

theorem spokenBy_callAt (hs : s.Usual) (hd : d.properties = .empty) :
    (s.callAt env d payload asked drawn).SpokenBy (env.identity.whoAt asked) where
  issuer := hs.get?_callAt hd (by decide)
  sender := hs.get?_callAt hd (by decide)
  modelVersion := hs.get?_callAt hd (by decide)
  token := hs.get?_callAt hd (by decide)

theorem id?_callAt (hs : s.Usual) (hd : d.properties = .empty) :
    (s.callAt env d payload asked drawn).id? =
      some ((env.uuidAt drawn).messageId s.profile.kind) :=
  hs.get?_callAt hd (by decide)

end Service.Usual

/-! ## Takings -/

/-- What an identifier is drawn for. -/
inductive Taking where
  | message (who : Identity) (u : Uuid) (call : Call)
  | entry (u : Uuid) (agreement : Contract)

namespace Taking

def uuid : Taking → Uuid
  | message _ u _ | entry u _ => u

def identity? : Taking → Option Identity
  | message who _ _ => some who
  | entry _ _ => none

def call? : Taking → Option Call
  | message _ _ call => some call
  | entry _ _ => none

def record? : Taking → Option AgreementRecord
  | message _ _ _ => none
  | entry u agreement => some (AgreementBook.recordFor agreement u)

/-- What is seen of it: for a message someone is asked who the connector is, then its identifier is
drawn, and then it goes out. -/
def events : Taking → List Event
  | message who u call => [.asked who, .drew u, .sent call]
  | entry u _ => [.drew u]

/-- The message is spoken by the identity and is named by the identifier. -/
def Fits : Taking → Prop
  | message who u call => call.SpokenBy who ∧ ∃ kind, call.id? = some (u.messageId kind)
  | entry _ _ => True

end Taking

/-- The events of takings. -/
def Event.isTaking : Event → Bool
  | .asked _ | .drew _ | .sent _ => true
  | .saved _ | .noted _ => false

@[simp] theorem Event.filter_isTaking_ofNotes (component : Component) (notes : List Note) :
    (ofNotes component notes).filter isTaking = [] := by
  refine List.filter_eq_nil_iff.2 fun event hevent => ?_
  obtain ⟨n, -, rfl⟩ := List.mem_map.1 hevent
  exact Bool.false_ne_true

/-- What is seen of the takings of a run. -/
def Run.taken (r : Run σ) : List Event :=
  r.events.filter Event.isTaking

theorem Run.taken_extended (r : Run σ) (component : Component) (notes : List Note) :
    (r.extended (Event.ofNotes component notes)).taken = r.taken := by
  rw [taken, extended_events, List.filter_append, Event.filter_isTaking_ofNotes, List.append_nil]
  rfl

theorem Run.calls_eq_taken (r : Run σ) : r.calls = r.taken.filterMap Event.call? := by
  have hcall : Event.call? = fun event => if event.isTaking then event.call? else none := by
    funext event
    cases event <;> rfl
  rw [calls, taken, List.filterMap_filter, ← hcall]

theorem Taking.filterMap_call?_events (takings : List Taking) :
    (takings.flatMap events).filterMap Event.call? = takings.filterMap call? := by
  induction takings with
  | nil => rfl
  | cons t rest ih =>
    rw [List.flatMap_cons, List.filterMap_append, ih]
    cases t <;> rfl

/-- What a source gave from one time of asking up to another. -/
def Supplied {α : Type} (give : Nat → α) (first last : Nat) (given : List α) : Prop :=
  last = first + given.length ∧ given = (List.range' first given.length).map give

theorem Supplied.append {α : Type} {give : Nat → α} {first middle last : Nat} {given more : List α}
    (h : Supplied give first middle given) (h' : Supplied give middle last more) :
    Supplied give first last (given ++ more) := by
  obtain ⟨hmiddle, hgiven⟩ := h
  obtain ⟨hlast, hmore⟩ := h'
  refine ⟨?_, ?_⟩
  · rw [hlast, hmiddle, List.length_append, Nat.add_assoc]
  · rw [List.length_append, ← List.range'_append_1, List.map_append, ← hgiven, ← hmiddle, ← hmore]

theorem Supplied.of_zero {α : Type} {give : Nat → α} {last : Nat} {given : List α}
    (h : Supplied give 0 last given) :
    given.length = last ∧ given = (List.range last).map give := by
  obtain ⟨hlast, hgiven⟩ := h
  rw [Nat.zero_add] at hlast
  rw [← hlast, ← List.range_eq_range'] at hgiven
  exact ⟨hlast.symm, hgiven⟩

/-- Enters records into a book, one after another. -/
def AgreementBook.putRecords (b : AgreementBook) (records : List AgreementRecord) : AgreementBook :=
  records.foldl (fun b entry => b.put entry.agreementId entry) b

/-- Between two points of a run, these and no other takings were made. -/
structure Engine.Tally (e : Engine σ) (r r' : Run σ) (takings : List Taking) : Prop where
  taken : r'.taken = r.taken ++ takings.flatMap Taking.events
  identities : Supplied e.identity.whoAt r.asked r'.asked (takings.filterMap Taking.identity?)
  uuids : Supplied e.uuidAt r.drawn r'.drawn (takings.map Taking.uuid)
  book : r'.book = r.book.putRecords (takings.filterMap Taking.record?)
  fits : ∀ t ∈ takings, t.Fits

namespace Engine

variable {e : Engine σ} {r r' r'' : Run σ} {takings more : List Taking}

theorem Tally.trans (h : e.Tally r r' takings) (h' : e.Tally r' r'' more) :
    e.Tally r r'' (takings ++ more) where
  taken := by rw [h'.taken, h.taken, List.flatMap_append, List.append_assoc]
  identities := by
    rw [List.filterMap_append]
    exact h.identities.append h'.identities
  uuids := by
    rw [List.map_append]
    exact h.uuids.append h'.uuids
  book := by
    rw [h'.book, h.book, List.filterMap_append]
    exact List.foldl_append.symm
  fits := fun t ht => (List.mem_append.1 ht).elim (h.fits t) (h'.fits t)

/-! ### What each step takes -/

/-- The sides of a run that takings change. -/
def accounts (r : Run σ) : List Event × Nat × Nat × AgreementBook :=
  (r.taken, r.asked, r.drawn, r.book)

theorem tally_of_accounts (h : accounts r' = accounts r) : e.Tally r r' [] := by
  simp only [accounts, Prod.mk.injEq] at h
  obtain ⟨htaken, hasked, hdrawn, hbook⟩ := h
  exact
    { taken := htaken.trans (List.append_nil _).symm
      identities := ⟨hasked, rfl⟩
      uuids := ⟨hdrawn, rfl⟩
      book := hbook
      fits := List.forall_mem_nil _ }

theorem deaf_accounts : Deaf (σ := σ) accounts := by
  intro r component notes
  simp only [accounts, Run.taken_extended]
  rfl

/-- A save takes nothing, whatever comes of it. -/
theorem keeps_accounts_save (p : Persistence σ) (s : Save) : Keeps accounts (save p s) := by
  intro r
  have htaken : (after (save p s) r).taken = r.taken := by
    rw [after, perform_save]
    simp only [Run.taken, List.filter_append, List.filter_cons, Event.isTaking,
      Bool.false_eq_true, if_false, Event.filter_isTaking_ofNotes, List.append_nil]
  rw [accounts, htaken, after, perform_save]
  rfl

/-- An exchange asks for one identity, draws one identifier and sends one message. -/
theorem tally_exchanged {s : Service} {d : Descriptor} (usual : s.Usual)
    (plain : d.properties = .empty) (payload : Payload) (r : Run σ) :
    e.Tally r (s.exchanged e.toSurroundings d payload r)
      [.message (e.identity.whoAt r.asked) (e.uuidAt r.drawn)
        (s.callAt e.toSurroundings d payload r.asked r.drawn)] where
  taken := by
    simp [Run.taken, Service.exchangeEvents, List.filter_cons, Event.isTaking, Taking.events]
  identities := ⟨rfl, rfl⟩
  uuids := ⟨rfl, rfl⟩
  book := rfl
  fits := List.forall_mem_singleton.2 ⟨usual.spokenBy_callAt plain, _, usual.id?_callAt plain⟩

/-- An agreement that is entered takes an identifier alone. -/
theorem tally_entered (agreement : Contract) (r : Run σ) :
    e.Tally r (after (storeAgreement e.uuidAt agreement) r)
      [.entry (e.uuidAt r.drawn) agreement] := by
  rw [after, perform_storeAgreement]
  exact
    { taken := by simp [Run.taken, List.filter_cons, Event.isTaking, Taking.events]
      identities := ⟨rfl, rfl⟩
      uuids := ⟨rfl, rfl⟩
      book := rfl
      fits := List.forall_mem_singleton.2 trivial }

/-- **Wherever an engine gets to, there is a tally of what it took on the way.** -/
theorem Reaches.exists_tally (h : e.Reaches r r') : ∃ takings, e.Tally r r' takings := by
  induction h with
  | refl => exact ⟨[], tally_of_accounts rfl⟩
  | remark _ remark ih =>
    obtain ⟨takings, ih⟩ := ih
    exact ⟨_, ih.trans (tally_of_accounts (deaf_accounts _ _ _))⟩
  | exchange _ usual plain accepted payload ih =>
    obtain ⟨takings, ih⟩ := ih
    exact ⟨_, ih.trans (tally_exchanged usual plain payload _)⟩
  | @keep r' _ j usual reply ih =>
    obtain ⟨takings, ih⟩ := ih
    have hkeep := Keeps.keep deaf_accounts (keeps_accounts_save e.persistence) j.errand reply r'
    exact ⟨_, ih.trans (tally_of_accounts hkeep)⟩
  | enter _ agreement ih =>
    obtain ⟨takings, ih⟩ := ih
    exact ⟨_, ih.trans (tally_entered agreement _)⟩

end Engine

/-! ## The whole session -/

section Takings

variable {takings : List Taking}

/-- The messages and the identities that speak in them go side by side. -/
theorem Taking.forall₂_spokenBy (h : ∀ t ∈ takings, t.Fits) :
    List.Forall₂ Call.SpokenBy (takings.filterMap call?) (takings.filterMap identity?) := by
  induction takings with
  | nil => exact .nil
  | cons t rest ih =>
    obtain ⟨hfirst, hrest⟩ := List.forall_mem_cons.1 h
    cases t with
    | message who u call => exact .cons hfirst.1 (ih hrest)
    | entry u agreement => exact ih hrest

theorem Taking.exists_of_mem_calls {call : Call} (h : ∀ t ∈ takings, t.Fits)
    (hcall : call ∈ takings.filterMap call?) :
    ∃ (u : Uuid) (kind : MessageKind), call.id? = some (u.messageId kind) := by
  obtain ⟨t, ht, heq⟩ := List.mem_filterMap.1 hcall
  cases t with
  | message who u call =>
    cases heq
    exact ⟨u, (h _ ht).2⟩
  | entry u agreement => cases heq

/-- Takings of different identifiers send messages of different names. -/
theorem Taking.nodup_ids (h : ∀ t ∈ takings, t.Fits) (hdistinct : (takings.map uuid).Nodup) :
    ((takings.filterMap call?).map Call.id?).Nodup := by
  have hpairwise : takings.Pairwise fun t t' => t.uuid ≠ t'.uuid := List.pairwise_map.1 hdistinct
  refine List.pairwise_map.2 (List.pairwise_filterMap.2 ?_)
  refine hpairwise.imp_of_mem fun {t t'} ht ht' hne call hcall call' hcall' heq => hne ?_
  -- both are messages, and each has the name that its identifier gives
  cases t with
  | entry u agreement => cases hcall
  | message who u _ =>
    cases t' with
    | entry u' agreement => cases hcall'
    | message who' u' _ =>
      cases hcall
      cases hcall'
      obtain ⟨-, kind, hid⟩ := h _ ht
      obtain ⟨-, kind', hid'⟩ := h _ ht'
      exact Uuid.messageId_injective (Option.some.inj (hid.symm.trans (heq.trans hid')))

end Takings

namespace Engine

variable {e : Engine σ} {r r' : Run σ} {takings : List Taking}

theorem Tally.calls_eq (h : e.Tally r r' takings) :
    r'.calls = r.calls ++ takings.filterMap Taking.call? := by
  rw [Run.calls_eq_taken, h.taken, List.filterMap_append, Taking.filterMap_call?_events,
    ← Run.calls_eq_taken]

/-- **One identity and one identifier for each message.** Over a session of a connector whose
identifiers do not repeat, whatever its collaborators do:

* it is asked who the connector is once for every message that is handed to the transport, and the
  i-th message is spoken by the i-th identity;
* the messages have names, and no two of them the same;
* the identifiers are drawn in turn, each for the next message that is sent or for the next record
  that is entered into the book, and for nothing else.

A descriptor that the profile refuses leaves everything as it is. -/
theorem session_takes_in_turn (e : Engine σ) (world : σ) (book : AgreementBook)
    (ops : List Operation)
    (hfresh : ((List.range (e.session ops (.start world book)).drawn).map e.uuidAt).Nodup) :
    let ended := e.session ops (.start world book)
    ended.asked = ended.calls.length ∧
    List.Forall₂ Call.SpokenBy ended.calls
      ((List.range ended.calls.length).map e.identity.whoAt) ∧
    (∀ call ∈ ended.calls, call.id?.isSome) ∧
    (ended.calls.map Call.id?).Nodup ∧
    (∃ takings : List Taking,
      ended.taken = takings.flatMap Taking.events ∧
      takings.filterMap Taking.call? = ended.calls ∧
      takings.map Taking.uuid = (List.range ended.drawn).map e.uuidAt ∧
      book.putRecords (takings.filterMap Taking.record?) = ended.book) ∧
    ∀ (s : Service) (d : Option Descriptor) (flaw : DescriptorFlaw) (payload : Payload)
      (r : Run σ), s.profile.accept d = .error flaw →
      perform (s.build e.toSurroundings d) r = (.error (.descriptor flaw), r) ∧
      perform (s.send e.toSurroundings d payload) r = (.error (.descriptor flaw), r) := by
  intro ended
  obtain ⟨takings, htally⟩ := (reaches_session e ops (.start world book)).exists_tally
  have hcalls : ended.calls = takings.filterMap Taking.call? := htally.calls_eq
  have hspoken := Taking.forall₂_spokenBy htally.fits
  obtain ⟨hasked, hidentities⟩ : (takings.filterMap Taking.identity?).length = ended.asked ∧
      takings.filterMap Taking.identity? = (List.range ended.asked).map e.identity.whoAt :=
    Supplied.of_zero htally.identities
  obtain ⟨-, huuids⟩ : _ ∧ takings.map Taking.uuid = (List.range ended.drawn).map e.uuidAt :=
    Supplied.of_zero htally.uuids
  -- there are as many messages as identities were asked for
  have hcount : ended.asked = ended.calls.length := by
    rw [← hasked, hcalls]
    exact hspoken.length_eq.symm
  rw [hidentities, ← hcalls, hcount] at hspoken
  refine ⟨hcount, hspoken, ?_, ?_, ⟨takings, htally.taken, hcalls.symm, huuids, htally.book.symm⟩,
    ?_⟩
  · intro call hcall
    rw [hcalls] at hcall
    obtain ⟨u, kind, hid⟩ := Taking.exists_of_mem_calls htally.fits hcall
    rw [hid]
    rfl
  · rw [hcalls]
    refine Taking.nodup_ids htally.fits ?_
    rw [huuids]
    exact hfresh
  · intro s d flaw payload r hrefused
    exact ⟨Service.perform_build_refused _ hrefused r,
      Service.perform_send_refused _ hrefused payload r⟩

/-- Five messages and two records take seven identifiers from the granting peer's connector. -/
theorem session_takes_in_turn_withGrantingPeer :
    let ended := (withGrantingPeer (.plain "urn:a")).session mixedOperations (.start () .empty)
    ended.asked = 5 ∧ ended.drawn = 7 ∧ (ended.calls.map Call.id?).Nodup := by
  intro ended
  have hdrawn : ended.drawn = 7 := by decide +kernel
  have hcount : ended.calls.length = 5 := by decide +kernel
  have hturn := session_takes_in_turn (withGrantingPeer (.plain "urn:a")) () .empty mixedOperations
    (by decide +kernel)
  exact ⟨hturn.1.trans hcount, hdrawn, hturn.2.2.2.1⟩

end Engine

end Dataspace
