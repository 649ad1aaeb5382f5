import Webroar.Head.Request

/-! # The grammar of requests

libebb reads a request with a finite automaton whose transitions carry actions. A header is read as
any header and, at the same time, as one of the three whose values the parser needs itself.
-/

namespace Ebb

/-! ### Bytes -/

def isDigit (c : UInt8) : Bool := 48 ≤ c && c ≤ 57

def isLetter (c : UInt8) : Bool := (65 ≤ c && c ≤ 90) || (97 ≤ c && c ≤ 122)

/-- `xdigit`. -/
def isHex (c : UInt8) : Bool := isDigit c || (65 ≤ c && c ≤ 70) || (97 ≤ c && c ≤ 102)

/-- What a scheme is made of. -/
def isSchemeByte (c : UInt8) : Bool := isLetter c || isDigit c || c ∈ ascii "+-."

/-- `uchar | reserved`, apart from escapes. -/
def isUriByte (c : UInt8) : Bool := 32 < c && c ≠ 127 && c ∉ ascii "\"#%<>"

/-- What a path is made of, apart from escapes. -/
def isPathByte (c : UInt8) : Bool := isUriByte c && c ≠ 63

def lower (c : UInt8) : UInt8 := if 65 ≤ c ∧ c ≤ 90 then c + 32 else c

/-- The value of a hexadecimal digit. -/
def unhex (c : UInt8) : Nat :=
  if isDigit c then c.toNat - 48 else if 97 ≤ c then c.toNat - 87 else c.toNat - 55

/-! ### States -/

/-- Where in an escape the parser is. -/
inductive Escape where
  | plain
  | percent
  | digit
deriving DecidableEq, Repr

/-- The headers that the parser knows. -/
inductive HeaderKind where
  | contentLength
  | connection
  | transferEncoding
  | other
deriving DecidableEq, Repr

/-- What a value has been so far, as long as it can still be one that the parser knows. -/
inductive Value where
  | digits
  | option (seen : List UInt8)
  | coding (seen : List UInt8)
  | other
deriving DecidableEq, Repr

inductive State where
  | error
  | ready
  | method (word : List UInt8)
  | uri
  | asterisk
  | scheme
  | absolute (escape : Escape)
  | path (escape : Escape)
  | queryStart
  | query (escape : Escape)
  | fragmentStart
  | fragment (escape : Escape)
  | http (seen : Nat)
  | majorStart
  | major
  | minorStart
  | minor
  | lineEnd
  | headers
  | nextHeader
  | field (name : Option (List UInt8))
  | valueStart (kind : HeaderKind)
  | value (value : Value)
  | valueEnd
  | headersEnd
  | chunkStart
  | zeros
  | size
  | extension (last : Bool)
  | extensionName (last : Bool)
  | extensionValue (last : Bool)
  | sizeEnd
  | data
  | dataEnd
  | dataLf
  | lastEnd
  | trailers
  | trailerName
  | trailerValue
  | bodyEnd
deriving DecidableEq, Repr

/-- The texts of a request that are passed on. -/
inductive Element where
  | headerField
  | headerValue
  | fragment
  | queryString
  | path
  | uri
deriving DecidableEq, Repr

/-- The actions of transitions. `write` passes a text on and ends it. -/
inductive Action where
  | mark (element : Element)
  | write (element : Element)
  | startReq
  | method (method : Method)
  | versionMajor
  | versionMinor
  | contentLength
  | useChunkedEncoding
  | useIdentityEncoding
  | setKeepAlive
  | setNotKeepAlive
  | endHeaderLine
  | endHeaders
  | bodyLogic
  | addToChunkSize
  | skipChunkData
  | endChunkedBody
deriving DecidableEq, Repr

/-! ### Words -/

def methods : List Method :=
  [.copy, .delete, .get, .head, .lock, .mkcol, .move, .options, .post, .propfind, .proppatch,
    .put, .trace, .unlock]

/-- How a method is written. -/
def word (method : Method) : List UInt8 := method.text.getD (ascii "OPTIONS")

/-- Some method is written with this at its beginning. -/
def beginsMethod (text : List UInt8) : Bool := methods.any fun method => text.isPrefixOf (word method)

def methodOf (text : List UInt8) : Option Method := methods.find? fun method => word method = text

def contentLengthName : List UInt8 := ascii "content-length"
def connectionName : List UInt8 := ascii "connection"
def transferEncodingName : List UInt8 := ascii "transfer-encoding"

/-- A name that may become one that the parser knows, in lower case. -/
def known (name : List UInt8) : Option (List UInt8) :=
  if name.isPrefixOf contentLengthName || name.isPrefixOf connectionName ||
      name.isPrefixOf transferEncodingName then some name else none

def kindOf (name : Option (List UInt8)) : HeaderKind :=
  if name = some contentLengthName then .contentLength
  else if name = some connectionName then .connection
  else if name = some transferEncodingName then .transferEncoding
  else .other

def keepAliveText : List UInt8 := ascii "keep-alive"
def closeText : List UInt8 := ascii "close"
def identityText : List UInt8 := ascii "identity"

/-- A value of `Connection` that may become one that the parser knows. -/
def optionOf (text : List UInt8) : Value :=
  if text.isPrefixOf keepAliveText || text.isPrefixOf closeText then .option text else .other

/-- A value of `Transfer-Encoding` that may become the one that the parser knows. -/
def codingOf (text : List UInt8) : Value :=
  if text.isPrefixOf identityText then .coding text else .other

/-- A value with its first byte. -/
def firstOf (kind : HeaderKind) (c : UInt8) : Value :=
  match kind with
  | .contentLength => if isDigit c then .digits else .other
  | .connection => optionOf [lower c]
  | .transferEncoding => codingOf [c]
  | .other => .other

/-- A value with its next byte. -/
def Value.next (c : UInt8) : Value → Value
  | .digits => if isDigit c then .digits else .other
  | .option seen => optionOf (seen ++ [lower c])
  | .coding seen => codingOf (seen ++ [c])
  | .other => .other

/-- The action for a byte of a value. -/
def Value.reads : Value → List Action
  | .digits => [.contentLength]
  | _ => []

/-- The action at the end of a value. -/
def Value.ends : Value → List Action
  | .option seen =>
      if seen = keepAliveText then [.setKeepAlive]
      else if seen = closeText then [.setNotKeepAlive] else []
  | .coding seen => if seen = identityText then [.useIdentityEncoding] else []
  | _ => []

/-! ### Transitions -/

/-- The actions of a transition, and the next state. -/
abbrev Transition : Type := Option (List Action × State)

def goto (state : State) : Transition := some ([], state)

/-- A byte of a text with escapes. -/
def escaped (state : Escape → State) (accepts : UInt8 → Bool) (others : Transition) (c : UInt8) :
    Escape → Transition
  | .plain => if c = 37 then goto (state .percent) else if accepts c then goto (state .plain) else others
  | .percent => if isHex c then goto (state .digit) else none
  | .digit => if isHex c then goto (state .plain) else none

/-- The end of the URI, behind these actions. -/
def uriEnd (actions : List Action) (c : UInt8) : Transition :=
  if c = 32 then some (actions ++ [.write .uri], .http 0)
  else if c = 35 then some (actions ++ [.write .uri], .fragmentStart)
  else none

/-- The first byte of a header, or the end of the headers. -/
def headerStart (actions : List Action) (c : UInt8) : Transition :=
  if c = 13 then some (actions, .headersEnd)
  else if isToken c then some (actions ++ [.mark .headerField], .field (known [lower c]))
  else none

/-- The end of a line with the size of a chunk. -/
def sizeLine (last : Bool) : State := if last then .lastEnd else .sizeEnd

def next : State → UInt8 → Transition
  | .error, _ => none
  | .ready, c => if beginsMethod [c] then some ([.startReq], .method [c]) else none
  | .method text, c =>
      if c = 32 then (methodOf text).map fun method => ([.method method], .uri)
      else if beginsMethod (text ++ [c]) then goto (.method (text ++ [c])) else none
  | .uri, c =>
      if c = 42 then some ([.mark .uri], .asterisk)
      else if c = 47 then some ([.mark .uri, .mark .path], .path .plain)
      else if c = 58 then some ([.mark .uri], .absolute .plain)
      else if isSchemeByte c then some ([.mark .uri], .scheme)
      else none
  | .asterisk, c => uriEnd [] c
  | .scheme, c =>
      if c = 58 then goto (.absolute .plain) else if isSchemeByte c then goto .scheme else none
  | .absolute escape, c => escaped .absolute isUriByte (uriEnd [] c) c escape
  | .path escape, c =>
      escaped .path isPathByte
        (if c = 63 then some ([.write .path], .queryStart) else uriEnd [.write .path] c) c escape
  | .queryStart, c =>
      if c = 37 then some ([.mark .queryString], .query .percent)
      else if isUriByte c then some ([.mark .queryString], .query .plain)
      else uriEnd [.mark .queryString, .write .queryString] c
  | .query escape, c => escaped .query isUriByte (uriEnd [.write .queryString] c) c escape
  | .fragmentStart, c =>
      if c = 37 then some ([.mark .fragment], .fragment .percent)
      else if isUriByte c then some ([.mark .fragment], .fragment .plain)
      else if c = 32 then some ([.mark .fragment, .write .fragment], .http 0)
      else none
  | .fragment escape, c =>
      escaped .fragment isUriByte (if c = 32 then some ([.write .fragment], .http 0) else none) c
        escape
  | .http seen, c =>
      if (ascii "HTTP/")[seen]? = some c then goto (if seen = 4 then .majorStart else .http (seen + 1))
      else none
  | .majorStart, c => if isDigit c then some ([.versionMajor], .major) else none
  | .major, c =>
      if c = 46 then goto .minorStart
      else if isDigit c then some ([.versionMajor], .major) else none
  | .minorStart, c => if isDigit c then some ([.versionMinor], .minor) else none
  | .minor, c =>
      if c = 13 then goto .lineEnd
      else if isDigit c then some ([.versionMinor], .minor) else none
  | .lineEnd, c => if c = 10 then goto .headers else none
  | .headers, c => headerStart [] c
  | .nextHeader, c => headerStart [.endHeaderLine] c
  | .field name, c =>
      if c = 58 then
        some ((if kindOf name = .transferEncoding then [.useChunkedEncoding] else []) ++
          [.write .headerField], .valueStart (kindOf name))
      else if isToken c then goto (.field (name.bind fun name => known (name ++ [lower c])))
      else none
  | .valueStart kind, c =>
      if c = 13 then some ([.mark .headerValue, .write .headerValue], .valueEnd)
      else if c = 32 then goto (.valueStart kind)
      else some ((firstOf kind c).reads ++ [.mark .headerValue], .value (firstOf kind c))
  | .value value, c =>
      if c = 13 then some (value.ends ++ [.write .headerValue], .valueEnd)
      else some ((value.next c).reads, .value (value.next c))
  | .valueEnd, c => if c = 10 then goto .nextHeader else none
  | .headersEnd, c => if c = 10 then some ([.endHeaders, .bodyLogic], .ready) else none
  | .chunkStart, c =>
      if c = 48 then some ([.addToChunkSize], .zeros)
      else if isHex c then some ([.addToChunkSize], .size) else none
  | .zeros, c =>
      if c = 13 then goto .lastEnd
      else if c = 48 then some ([.addToChunkSize], .zeros)
      else if isHex c then some ([.addToChunkSize], .size)
      else if c = 59 then goto (.extension true) else none
  | .size, c =>
      if c = 13 then goto .sizeEnd
      else if isHex c then some ([.addToChunkSize], .size)
      else if c = 59 then goto (.extension false) else none
  | .extension last, c =>
      if c = 13 then goto (sizeLine last)
      else if c = 32 ∨ c = 59 then goto (.extension last)
      else if c = 61 then goto (.extensionValue last)
      else if isToken c then goto (.extensionName last) else none
  | .extensionName last, c =>
      if c = 13 then goto (sizeLine last)
      else if c = 59 then goto (.extension last)
      else if c = 61 then goto (.extensionValue last)
      else if isToken c then goto (.extensionName last) else none
  | .extensionValue last, c =>
      if c = 13 then goto (sizeLine last)
      else if c = 59 then goto (.extension last)
      else if isToken c then goto (.extensionValue last) else none
  | .sizeEnd, c => if c = 10 then goto .data else none
  | .data, _ => some ([.skipChunkData], .dataEnd)
  | .dataEnd, c => if c = 13 then goto .dataLf else none
  | .dataLf, c => if c = 10 then goto .chunkStart else none
  | .lastEnd, c => if c = 10 then goto .trailers else none
  | .trailers, c =>
      if c = 13 then goto .bodyEnd else if isToken c then goto .trailerName else none
  | .trailerName, c =>
      if c = 58 then goto .trailerValue else if isToken c then goto .trailerName else none
  | .trailerValue, c => if c = 13 then goto .lastEnd else goto .trailerValue
  | .bodyEnd, c => if c = 10 then some ([.endChunkedBody], .ready) else none

end Ebb
