import Dataspace.Error

/-!
# Payloads as texts and as octets

A reader of a response asks for its payload as a text or as octets and names the character encoding.
The encoding matters only where the payload is not yet what was asked for: until then a name that
no encoding has does no harm. A broken text is a text, but no encoding makes octets of it.
-/

namespace Dataspace.Received

/-- The payload as a text. No octets are the empty text in every encoding. -/
def textIn (encoding : String) : Received → Except Error Received
  | octets [] => .ok (text "")
  | octets s =>
    match Text.Charset.ofName? encoding with
    | none => .error (.unknownCharset encoding)
    | some charset => ((charset.decode s).mapError .characters).map text
  | s => .ok s

/-- The payload as octets. -/
def octetsIn (encoding : String) : Received → Except Error Text.Octets
  | octets s => .ok s
  | text s =>
    match Text.Charset.ofName? encoding with
    | none => .error (.unknownCharset encoding)
    | some charset => (charset.encode s).mapError .octets
  | broken s =>
    match Text.Charset.ofName? encoding with
    | none => .error (.unknownCharset encoding)
    | some charset => .error (.octets (s.fault charset))

end Dataspace.Received
