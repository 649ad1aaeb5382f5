import Webroar.Scgi.RoundTrip

/-! # The header block of a worker's response

A worker announces its response with a block of four entries: the length of everything that
follows, the `SCGI` header, the response code and the length of the response body.
-/

namespace Worker

open Scgi (Entry contentLengthEntry scgiEntry)

/-- The names the worker's headers have in the configuration. -/
def respCodeName : List UInt8 := ascii "RESP_CODE"

def respContentLenName : List UInt8 := ascii "RESP_CONTENT_LEN"

/-- Build the block for a response with the given code, body length and header length. -/
def httpRespProcess (junk : Nat → UInt8) (respCode : Int) (bodyLen headerLen : Nat) : Scgi :=
  ((((Scgi.new junk).headerAdd respCodeName
    (Decimal.ofInt (Decimal.toInt32 respCode))).headerAdd respContentLenName
      (Decimal.format bodyLen)).contentLengthAdd (bodyLen + headerLen)).build

/-- The entries of that block. -/
def respItems (respCode : Int) (bodyLen headerLen : Nat) : List Entry :=
  [contentLengthEntry (bodyLen + headerLen), scgiEntry,
    (respCodeName, Decimal.ofInt (Decimal.toInt32 respCode)),
    (respContentLenName, Decimal.format bodyLen)]

/-- A block of two headers behind a content length is the frame of its entries. -/
theorem block_two_headers (junk : Nat → UInt8) (first firstValue second secondValue : List UInt8)
    (length : Nat) :
    ((((Scgi.new junk).headerAdd first firstValue).headerAdd second secondValue).contentLengthAdd
        length).build.block =
      Scgi.frame
        [contentLengthEntry length, scgiEntry, (first, firstValue), (second, secondValue)] := by
  have layout := (((Scgi.Layout.new junk).headerAdd first firstValue).headerAdd second
    secondValue).contentLengthAdd length
  exact layout.build_of_length.block

/-- The worker's block is the frame of its entries. -/
theorem block_httpRespProcess (junk : Nat → UInt8) (respCode : Int) (bodyLen headerLen : Nat) :
    (httpRespProcess junk respCode bodyLen headerLen).block =
      Scgi.frame (respItems respCode bodyLen headerLen) :=
  block_two_headers junk respCodeName (Decimal.ofInt (Decimal.toInt32 respCode))
    respContentLenName (Decimal.format bodyLen) (bodyLen + headerLen)

/-- The printed form of an `int` has only digits and a minus sign. -/
theorem mem_ofInt {n : Int} {byte : UInt8} (member : byte ∈ Decimal.ofInt n) :
    Decimal.isDigit byte = true ∨ byte = 45 := by
  cases n with
  | ofNat m => exact Or.inl (Decimal.isDigit_of_mem_ofNat member)
  | negSucc m =>
      rcases List.mem_cons.mp member with rfl | inside
      · exact Or.inr rfl
      · exact Or.inl (Decimal.isDigit_of_mem_ofNat inside)

/-- A byte that is no digit and no minus sign, and in no name, is in no entry of a worker. -/
theorem not_mem_respItems (byte : UInt8) (respCode : Int) (bodyLen headerLen : Nat)
    (notDigit : Decimal.isDigit byte = false) (notMinus : byte ≠ 45)
    (notName : byte ∉ Scgi.contentLengthName ∧ byte ∉ ascii "SCGI" ∧ byte ∉ respCodeName ∧
      byte ∉ respContentLenName) (notOne : byte ∉ ascii "1") :
    ∀ item ∈ respItems respCode bodyLen headerLen, byte ∉ item.1 ∧ byte ∉ item.2 := by
  have printed : ∀ n, byte ∉ Decimal.ofInt n := by
    intro n member
    rcases mem_ofInt member with digit | minus
    · rw [notDigit] at digit
      cases digit
    · exact notMinus minus
  obtain ⟨length, scgi, code, content⟩ := notName
  intro item member
  simp only [respItems, List.mem_cons, List.not_mem_nil, or_false] at member
  rcases member with rfl | rfl | rfl | rfl
  · dsimp only [contentLengthEntry]
    exact ⟨length, printed (Decimal.toInt32 ↑(bodyLen + headerLen))⟩
  · dsimp only [scgiEntry]
    exact ⟨scgi, notOne⟩
  · dsimp only
    exact ⟨code, printed (Decimal.toInt32 respCode)⟩
  · dsimp only
    exact ⟨content, printed (Decimal.toInt32 ↑bodyLen)⟩

/-- No byte of a worker's entries is a comma. -/
theorem comma_not_mem_respItems (respCode : Int) (bodyLen headerLen : Nat) :
    (44 : UInt8) ∉ Scgi.encode (respItems respCode bodyLen headerLen) :=
  Scgi.not_mem_encode (by decide) (not_mem_respItems 44 respCode bodyLen headerLen (by decide)
    (by decide) (by decide) (by decide))

/-- A worker's entries are clean. -/
theorem clean_respItems (respCode : Int) (bodyLen headerLen : Nat) :
    Scgi.Clean (respItems respCode bodyLen headerLen) := by
  have noNul := not_mem_respItems 0 respCode bodyLen headerLen (by decide) (by decide)
    (by decide) (by decide)
  have noComma := not_mem_respItems 44 respCode bodyLen headerLen (by decide)
    (by decide) (by decide) (by decide)
  exact fun item member =>
    ⟨⟨(noNul item member).1, (noComma item member).1⟩, (noNul item member).2⟩

end Worker
