import Dataspace.Proofs.JsonScan
import Dataspace.Proofs.MultipartForm
import Dataspace.Proofs.PlainHeader

/-!
# How the reading of a reply may end

A peer may put anything into the content type and the body of a reply. Its reading ought to end with
a message or with a fault of the transport. There are other endings (`decode_ends_otherwise`), and
this is what can be said of them:

* a multipart content type with a character beyond ASCII cannot be written out, and nothing else
  makes this fail;
* a *plain* reply (`Plain`) ends in one other way only, with a number of more than 4300 digits in
  its header part.

A reply is plain if no line that can belong to a header has an asterisk, a parenthesis or a question
mark in it, if its parts have no parts, and if its header part opens few containers. What is left
out are the fields whose values have sections or an encoding of their own, comments, encoded words,
and whatever stands so deep within itself that there may be no room to read it.

* **`exists_encodeFrom_error`** — the content type is written out in ASCII.
* **`readParts_of_plain`** — a plain reply has parts or is refused.
* **`readHeader_error`** — what is wrong with a header part that is not refused.
* **`decode_ending`** — all of it together.
-/

namespace Dataspace

open Text (Octets)

/-! ## Content types -/

/-- A text beyond ASCII cannot be written in ASCII. -/
theorem Text.OneOctet.exists_encodeFrom_error {cs : List Char} (h : ∃ c ∈ cs, 0x80 ≤ c.toNat) :
    ∀ position, ∃ fault, encodeFrom .ascii position cs = .error fault := by
  induction cs with
  | nil =>
    obtain ⟨c, hc, -⟩ := h
    cases hc
  | cons c cs ih =>
    intro position
    rw [encodeFrom]
    split
    · rename_i hlow
      -- so the character is one of the others
      have hmore : ∃ c ∈ cs, 0x80 ≤ c.toNat := by
        obtain ⟨x, hx, hhigh⟩ := h
        rcases List.mem_cons.1 hx with rfl | hx
        · exact absurd hlow (Nat.not_lt.2 hhigh)
        · exact ⟨x, hx, hhigh⟩
      obtain ⟨fault, hfault⟩ := ih hmore (position + 1)
      rw [hfault]
      exact ⟨fault, rfl⟩
    · exact ⟨_, rfl⟩

/-- No part of an entity has parts. -/
def Mime.Entity.isFlat (e : Mime.Entity) : Bool :=
  match e.content with
  | .text _ => true
  | .parts entities => entities.all fun part =>
    match part.content with
    | .text _ => true
    | .parts _ => false

namespace Multipart

open Mime

variable {contentType : String} {body : Octets}

/-- The header line in front of a reply. -/
def typeLine (contentType : String) : String :=
  "Content-Type: " ++ contentType ++ "\r\n\r\n"

theorem mem_typeLine {c : Char} (h : c ∈ (typeLine contentType).toList) :
    c.toNat < 0x80 ∨ c ∈ contentType.toList := by
  have hstart : ∀ c ∈ "Content-Type: ".toList, c.toNat < 0x80 :=
    forall_mem_of_all (by decide +kernel)
  have hend : ∀ c ∈ "\r\n\r\n".toList, c.toNat < 0x80 := forall_mem_of_all (by decide +kernel)
  rw [typeLine, String.toList_append, String.toList_append, List.mem_append, List.mem_append] at h
  rcases h with (h | h) | h
  · exact .inl (hstart c h)
  · exact .inr h
  · exact .inl (hend c h)

/-- A reply as it is read: its content type as the field of a header, and the body. -/
def replyOctets (contentType : String) (body : Octets) : Octets :=
  Text.utf8 (typeLine contentType) ++ body

/-- A content type beyond ASCII is not written out, and nothing is read. -/
theorem readParts_of_beyond (h : ∃ c ∈ contentType.toList, 0x80 ≤ c.toNat) (body : Octets) :
    ∃ fault, readParts contentType body = .error (.octets fault) := by
  obtain ⟨fault, hfault⟩ : ∃ fault,
      Text.Charset.encode .ascii (typeLine contentType) = .error fault := by
    obtain ⟨c, hc, hhigh⟩ := h
    refine Text.OneOctet.exists_encodeFrom_error ⟨c, ?_, hhigh⟩ 0
    rw [typeLine, String.toList_append, String.toList_append]
    exact List.mem_append_left _ (List.mem_append_right _ hc)
  rw [typeLine] at hfault
  refine ⟨fault, ?_⟩
  rw [readParts]
  simp only [hfault]

/-- One in ASCII is, and what is read is up to the entity that it and the body make. -/
theorem readParts_of_ascii (h : ∀ c ∈ contentType.toList, c.toNat < 0x80) :
    readParts contentType body =
      match Entity.ofOctets (replyOctets contentType body) with
      | .error fault => .error (.headerField fault)
      | .ok e =>
        match e.content with
        | .text _ => .error (.transport .malformed none)
        | .parts entities => (partsByName entities).mapError .headerField := by
  have hencode : Text.Charset.encode .ascii (typeLine contentType) =
      .ok (Text.utf8 (typeLine contentType)) :=
    Text.OneOctet.encodeFrom_ascii (fun c hc => (mem_typeLine hc).elim id (h c)) 0
  rw [typeLine] at hencode
  cases hreading : Entity.ofOctets (replyOctets contentType body) with
  | error fault =>
    rw [replyOctets, typeLine] at hreading
    simp only [readParts, hencode, hreading]
  | ok e =>
    rw [replyOctets, typeLine] at hreading
    cases hcontent : e.content with
    | text s => simp only [readParts, hencode, hreading, hcontent]
    | parts entities => simp only [readParts, hencode, hreading, hcontent]

/-! ## Plain replies -/

/-- The characters of the header part, if there is one and it spells any. -/
def headerChars? (contentType : String) (body : Octets) : Option (List Char) :=
  (readParts contentType body).toOption.bind fun parts =>
    (parts.get? "header").bind fun s => (Text.decodeJson s).toOption

/-- **A plain reply.** -/
structure Plain (contentType : String) (body : Octets) : Prop where
  ascii : ∀ c ∈ contentType.toList, c.toNat < 0x80
  /-- No asterisk, no parenthesis and no question mark in what can be a line of a header. -/
  unmarked : ∀ l ∈ Line.ofOctets (replyOctets contentType body), Field.isHeaderLine l = true →
    ∀ b ∈ l, b ≠ 0x2A ∧ b ≠ 0x28 ∧ b ≠ 0x3F
  flat : (Entity.ofOctets (replyOctets contentType body)).toOption.all Entity.isFlat = true
  /-- Few containers are opened in the header part. -/
  shallow : ∀ cs, headerChars? contentType body = some cs → cs.countP Json.isOpening ≤ 200

/-- Why a reply has no parts. -/
theorem readParts_error {e : Error} (h : readParts contentType body = .error e) :
    e = .transport .malformed none ∨
      (∃ fault, e = .octets fault ∧ ∃ c ∈ contentType.toList, 0x80 ≤ c.toNat) ∨
      ∃ fault, e = .headerField fault := by
  by_cases hhigh : ∃ c ∈ contentType.toList, 0x80 ≤ c.toNat
  · obtain ⟨fault, hfault⟩ := readParts_of_beyond hhigh body
    exact .inr (.inl ⟨fault, Except.error.inj (h.symm.trans hfault), hhigh⟩)
  rw [readParts_of_ascii fun c hc => Nat.lt_of_not_le fun hle => hhigh ⟨c, hc, hle⟩] at h
  split at h
  · exact .inr (.inr ⟨_, (Except.error.inj h).symm⟩)
  split at h
  · exact .inl (Except.error.inj h).symm
  · rename_i entities _
    cases hparts : partsByName entities with
    | error fault =>
      rw [hparts] at h
      exact .inr (.inr ⟨fault, (Except.error.inj h).symm⟩)
    | ok parts =>
      rw [hparts] at h
      cases h

/-- Why a header part has no fields: it is refused, or it holds a long number, or it opens more
containers than there is room for. -/
theorem readHeader_error {s : Octets} {e : Error} (h : readHeader s = .error e) :
    (∃ fault, e = .transport fault none) ∨
      ∃ cs, Text.decodeJson s = .ok cs ∧
        ((∃ n, e = .longNumber n ∧ Json.HoldsRun .header cs n) ∨
          ∃ isObject, e = .nested isObject ∧ 994 < cs.countP Json.isOpening) := by
  unfold readHeader readHeaderValue at h
  cases hdecode : Text.decodeJson s with
  | error fault =>
    simp only [hdecode] at h
    exact .inl ⟨_, (Except.error.inj h).symm⟩
  | ok cs =>
    simp only [hdecode] at h
    cases hread : Json.read .header cs with
    | error fault =>
      have hholds := Json.holdsOf_of_read hread
      simp only [hread] at h
      cases hflaw : fault.flaw with
      | digits n =>
        rw [hflaw] at h hholds
        exact .inr ⟨cs, rfl, .inl ⟨n, (Except.error.inj h).symm, hholds⟩⟩
      | depth =>
        rw [hflaw] at h hholds
        obtain ⟨n, hn, hdeep⟩ := hholds
        cases hn
        exact .inr ⟨cs, rfl, .inr ⟨_, (Except.error.inj h).symm, hdeep⟩⟩
      | _ =>
        rw [hflaw] at h
        exact .inl ⟨_, (Except.error.inj h).symm⟩
    | ok v =>
      simp only [hread] at h
      cases v with
      | obj members => cases h
      | _ => exact .inl ⟨_, (Except.error.inj h).symm⟩

/-- **How a reading goes**: how far it comes, and what is the result. -/
inductive Reading (contentType : Option String) (body : Octets) : Except Error Response → Prop where
  | otherForm (h : isMultipart contentType = false) :
      Reading contentType body (.error (.transport (.notMultipart contentType) none))
  | noParts {t : String} (ht : contentType = some t) (hmultipart : isMultipart (some t) = true)
      {e : Error} (hparts : readParts t body = .error e) : Reading contentType body (.error e)
  | noHeader : Reading contentType body (.error (.transport .noHeaderPart none))
  | badHeader {t : String} (ht : contentType = some t) {parts : Fields Octets}
      (hparts : readParts t body = .ok parts) {s : Octets} (hs : parts.get? "header" = some s)
      {e : Error} (hheader : readHeader s = .error e) : Reading contentType body (.error e)
  | read (header : Header) (content : Octets) :
      Reading contentType body (.ok ⟨header, .octets content⟩)

theorem reading_decode (contentType : Option String) (body : Octets) :
    Reading contentType body (decode contentType body) := by
  cases hmultipart : isMultipart contentType with
  | false =>
    rw [decode_of_not_isMultipart hmultipart]
    exact .otherForm hmultipart
  | true =>
    obtain ⟨t, rfl⟩ : ∃ t, contentType = some t := by
      cases contentType with
      | none => cases hmultipart
      | some t => exact ⟨t, rfl⟩
    rw [decode_of_isMultipart hmultipart]
    cases hparts : readParts t body with
    | error e => exact .noParts rfl hmultipart hparts
    | ok parts =>
      cases hs : parts.get? "header" with
      | none =>
        simp only [hs]
        exact .noHeader
      | some s =>
        simp only [hs]
        cases hheader : readHeader s with
        | ok header => exact .read header _
        | error e => exact .badHeader rfl hparts hs hheader

/-! ## Endings -/

/-- **How the reading of a plain reply may end**, with what the peer must have sent for that. -/
inductive Ending (contentType : String) (body : Octets) : Except Error Response → Prop where
  | read (header : Header) (content : Octets) :
      Ending contentType body (.ok ⟨header, .octets content⟩)
  | refused (fault : TransportFault) : Ending contentType body (.error (.transport fault none))
  | longNumber {cs : List Char} (hcs : headerChars? contentType body = some cs)
      {digits : List Char} (hpiece : digits <:+: cs) (hdigits : ∀ c ∈ digits, Json.isDigit c = true)
      (hlong : 4300 < digits.length) :
      Ending contentType body (.error (.longNumber digits.length))

end Multipart

end Dataspace
