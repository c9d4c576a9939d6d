/-
Auctions over HTTP: a request is taken from the path, the headers and the body, and a response or an
error is written as a JSON body.
-/
import Mediation.Auction.Run
import Mediation.SdkVersion

namespace Mediation.Auction

/-! ## Headers -/

/-- A header of a request. -/
structure Header where
  /-- In lower case. -/
  name : String
  /-- Bytes of the value. -/
  value : List UInt8
  deriving DecidableEq, Repr

namespace Header

/-- Characters of a header name. -/
def isNameChar (c : Char) : Bool := c.isAlphanum || "!#$%&'*+-.^_|~\x60".toList.contains c

/-- Bytes that a header value may have: tabs, and whatever is no control character. -/
def isValueByte (b : UInt8) : Bool := b == 9 || (32 ≤ b && b != 127)

/-- A header with a name in any case. None if the name or the value is no such thing. -/
def ofText? (name value : String) : Option Header :=
  let bytes := value.toUTF8.data.toList
  if !name.isEmpty && name.toList.all isNameChar && bytes.all isValueByte then
    some ⟨String.ofList (name.toList.map Char.toLower), bytes⟩
  else none

/-- Bytes that may be read as text: tabs and visible ASCII with the space. -/
def isTextByte (b : UInt8) : Bool := b == 9 || (32 ≤ b && b < 127)

/-- The value, if it may be read as text. -/
def text? (h : Header) : Option String :=
  if h.value.all isTextByte then some (String.ofList (h.value.map fun b => Char.ofNat b.toNat)) else none

end Header

/-- Header in which the SDK states its version. -/
def versionHeader : String := "x-bidon-version"

/-- The version that the first version header states; empty if there is none that can be read. -/
def statedVersion (headers : List Header) : String :=
  ((headers.find? (·.name == versionHeader)).bind Header.text?).getD ""

/-! ## Requests -/

/-- Decodes a request and checks it: the version, then the placement type, then the body. -/
def parseRequest (path : String) (headers : List Header) (body : List UInt8) :
    Except AuctionError Request := do
  let version := statedVersion headers
  let _ ← SdkVersion.parse version
  let adType ←
    match AdType.ofWire? path with
    | some t => .ok t
    | none => .error (.badRequest ("unknown ad type '" ++ path ++ "'"))
  let request ←
    match (Json.read body).bind Request.ofJson? with
    | some r => .ok r
    | none => .error (.badRequest "failed to decode auction request")
  if !request.isValid then throw (.badRequest "auction request failed validation")
  pure { request with adType := adType, sdkVersion := version }

/-! ## Answers -/

/-- What the client gets. -/
structure HttpAnswer where
  status : Nat
  contentType : String
  body : Json
  deriving DecidableEq

namespace HttpAnswer

def ofBody (status : Nat) (body : Json) : HttpAnswer := ⟨status, "application/json", body⟩

/-- An error as the client is told of it. -/
def ofError (e : AuctionError) : HttpAnswer :=
  ofBody e.status
    (.record [("error", .record [("code", .ofNat e.status), ("message", .str e.userMessage)])])

end HttpAnswer

/-- Answers one call; none if the auction is broken off. -/
def handle (policy : Policy) (s : Services) (path : String) (headers : List Header) (body : List UInt8)
    (appId : Int64) (geo : GeoData) : Activity Step (Option HttpAnswer) :=
  match parseRequest path headers body with
  | .error e => pure (some (.ofError e))
  | .ok request => do
    match ← (run policy s ⟨appId, request, geo⟩).run with
    | .ok response => pure (some (.ofBody 200 response.toJson))
    | .error (.failed e) => pure (some (.ofError e))
    | .error .overflow => pure none

end Mediation.Auction
