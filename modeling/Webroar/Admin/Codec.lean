import Webroar.Scgi.RoundTrip

/-! # The codec of the admin panel

The admin panel has its own `SCGI` class. It builds requests from a hash, and parses a response
byte by byte, chunk after chunk as it comes from the socket. Other than the parser of the head
it reads the length of the body, so it knows when a response is complete.
-/

open Scgi (Entry Clean encode encodeEntry frame latest contentLengthName)

/-- `@curr_state`. -/
inductive RubyState where
  | none
  | headerKey
  | headerVal
  | body
  | done
  | invalid
deriving DecidableEq, Repr

/-- An object of the class `SCGI`; a hash is the list of its pairs, first key first. -/
structure RubyScgi where
  hash : List Entry
  body : List UInt8
  request : Option (List UInt8)
  tmpHeadersLength : List UInt8
  headersLength : Int
  currState : RubyState
  currKey : List UInt8
  currValue : List UInt8
  done : Bool

namespace RubyScgi

/-! ### Strings and hashes -/

/-- `String#upcase` of a byte string. -/
def upcase (text : List UInt8) : List UInt8 := text.map Scgi.toUpper

/-- The digits `String#to_i` reads on: an underscore between two of them is skipped. -/
def toIDigits (acc : Nat) : List UInt8 → Nat
  | [] => acc
  | [byte] => if Decimal.isDigit byte then 10 * acc + (byte.toNat - 48) else acc
  | byte :: next :: rest =>
      if Decimal.isDigit byte then
        toIDigits (10 * acc + (byte.toNat - 48)) (next :: rest)
      else if byte = 95 && Decimal.isDigit next then
        toIDigits acc (next :: rest)
      else
        acc

/-- The number at the start of a text. -/
def toIUnsigned : List UInt8 → Nat
  | [] => 0
  | byte :: rest => if Decimal.isDigit byte then toIDigits 0 (byte :: rest) else 0

/-- `String#to_i`. -/
def toI (text : List UInt8) : Int :=
  match text.dropWhile Decimal.isSpace with
  | 45 :: rest => -(toIUnsigned rest : Int)
  | 43 :: rest => toIUnsigned rest
  | digits => toIUnsigned digits

/-- `Hash#[]=`: a key that is there keeps its place. -/
def store (key value : List UInt8) : List Entry → List Entry
  | [] => [(key, value)]
  | item :: rest => if item.1 = key then (key, value) :: rest else item :: store key value rest

/-! ### The class -/

/-- `SCGI.new`. -/
def new : RubyScgi where
  hash := []
  body := []
  request := none
  tmpHeadersLength := []
  headersLength := 0
  currState := .none
  currKey := []
  currValue := []
  done := false

def parsingDone (scgi : RubyScgi) : Bool := scgi.done

def headerAdd (scgi : RubyScgi) (key value : List UInt8) : RubyScgi :=
  { scgi with hash := store (upcase key) value scgi.hash }

def bodyAdd (scgi : RubyScgi) (body : List UInt8) : RubyScgi :=
  { scgi with body := scgi.body ++ body }

def header (scgi : RubyScgi) (key : List UInt8) : Option (List UInt8) :=
  (scgi.hash.find? fun item => item.1 = upcase key).map Prod.snd

/-- `header('CONTENT_LENGTH').to_i`; `nil.to_i` is 0. -/
def contentLength (scgi : RubyScgi) : Int := ((scgi.header contentLengthName).map toI).getD 0

def build (scgi : RubyScgi) : RubyScgi :=
  let request :=
    if scgi.body = [] then
      encodeEntry (contentLengthName, ascii "0")
    else
      encodeEntry (contentLengthName, Decimal.ofNat scgi.body.length)
  let request := request ++ encodeEntry (ascii "SCGI", ascii "0")
  let request := scgi.hash.foldl (fun request item => request ++ encodeEntry item) request
  let request := Decimal.ofNat request.length ++ 58 :: request
  { scgi with request := some (request ++ 44 :: scgi.body) }

/-- The loop of `parse` at the character `c`, with `rest` behind it in the chunk, and whether the
loop is left. -/
def parseChar (scgi : RubyScgi) (c : UInt8) (rest : List UInt8) : RubyScgi × Bool :=
  match scgi.currState with
  | .none =>
      if c = 58 then
        ({ scgi with headersLength := toI scgi.tmpHeadersLength, currState := .headerKey }, false)
      else if c < 48 || 57 < c then
        ({ scgi with currState := .invalid }, false)
      else
        ({ scgi with tmpHeadersLength := scgi.tmpHeadersLength ++ [c] }, false)
  | .headerKey =>
      if c = 0 then
        ({ scgi with currState := .headerVal }, false)
      else if c = 44 then
        if scgi.contentLength = 0 then
          ({ scgi with done := true, currState := .done }, false)
        else
          -- what is left of the chunk is the beginning of the body
          let scgi := { scgi with currState := .body }.bodyAdd rest
          if (scgi.body.length : Int) = scgi.contentLength then
            ({ scgi with currState := .done, done := true }, true)
          else
            ({ scgi with currState := .body }, true)
      else
        ({ scgi with currKey := scgi.currKey ++ [c] }, false)
  | .headerVal =>
      if c = 0 then
        ({ scgi.headerAdd scgi.currKey scgi.currValue with
          currKey := []
          currValue := []
          currState := .headerKey }, false)
      else
        ({ scgi with currValue := scgi.currValue ++ [c] }, false)
  | .body =>
      let scgi := scgi.bodyAdd (c :: rest)
      if (scgi.body.length : Int) = scgi.contentLength then
        ({ scgi with currState := .done, done := true }, true)
      else
        (scgi, true)
  | .done => ({ scgi with done := true }, true)
  | .invalid => (scgi, false)

/-- `parse` of a chunk. -/
def parse (scgi : RubyScgi) : List UInt8 → RubyScgi
  | [] => scgi
  | c :: rest =>
      if (scgi.parseChar c rest).2 then
        (scgi.parseChar c rest).1
      else
        parse (scgi.parseChar c rest).1 rest

/-- Parse one chunk after another. -/
def feed (scgi : RubyScgi) (chunks : List (List UInt8)) : RubyScgi := chunks.foldl parse scgi

/-! ### The requests of the admin panel -/

/-- `Control#initialize`. -/
def control (name : List UInt8) : RubyScgi :=
  (new.headerAdd (ascii "component") (ascii "APPLICATION")).headerAdd (ascii "app_name") name

/-- The object that `Control#add`, `delete` and `restart` send for their method. -/
def sendControl (scgi : RubyScgi) (method : List UInt8) : RubyScgi :=
  (scgi.headerAdd (ascii "method") method).build

/-! ### Numbers -/

theorem toIDigits_eq (acc : Nat) {text : List UInt8}
    (digits : ∀ byte ∈ text, Decimal.isDigit byte = true) :
    toIDigits acc text = Decimal.readDigits acc text := by
  induction text generalizing acc with
  | nil => rfl
  | cons byte rest ih =>
      have first := digits byte List.mem_cons_self
      have others : ∀ later ∈ rest, Decimal.isDigit later = true :=
        fun later member => digits later (List.mem_cons_of_mem _ member)
      rw [Decimal.readDigits, if_pos first]
      cases rest with
      | nil => rw [toIDigits, if_pos first, Decimal.readDigits]
      | cons next more => rw [toIDigits, if_pos first, ih _ others]

theorem toIUnsigned_ofNat (n : Nat) : toIUnsigned (Decimal.ofNat n) = n := by
  have digits : ∀ byte ∈ Decimal.ofNat n, Decimal.isDigit byte = true :=
    fun byte member => Decimal.isDigit_of_mem_ofNat member
  have read := Decimal.readDigits_ofNat n
  rw [← toIDigits_eq 0 digits] at read
  cases text : Decimal.ofNat n with
  | nil => exact absurd text (Decimal.ofNat_ne_nil n)
  | cons byte rest =>
      rw [text] at digits read
      rw [toIUnsigned, if_pos (digits byte List.mem_cons_self), read]

theorem toI_ofNat (n : Nat) : toI (Decimal.ofNat n) = n := by
  have digits : ∀ byte ∈ Decimal.ofNat n, Decimal.isDigit byte = true :=
    fun byte member => Decimal.isDigit_of_mem_ofNat member
  have read := toIUnsigned_ofNat n
  cases text : Decimal.ofNat n with
  | nil => exact absurd text (Decimal.ofNat_ne_nil n)
  | cons byte rest =>
      rw [text] at digits read
      obtain ⟨notSpace, notMinus, notPlus⟩ :=
        Decimal.isDigit_plain (digits byte List.mem_cons_self)
      simp only [toI, List.dropWhile_cons, notSpace, Bool.false_eq_true, ↓reduceIte]
      split
      · next equal => exact absurd (List.cons.inj equal).1 notMinus
      · next equal => exact absurd (List.cons.inj equal).1 notPlus
      · rw [read]

/-! ### One chunk -/

/-- The headers are complete. -/
def Past (state : RubyState) : Prop := state = .body ∨ state = .done

/-- Behind the headers the loop is left at once. -/
theorem parseChar_past {scgi : RubyScgi} (past : Past scgi.currState) (c : UInt8)
    (rest : List UInt8) :
    (scgi.parseChar c rest).2 = true ∧ Past (scgi.parseChar c rest).1.currState := by
  rcases past with state | state
  · simp only [parseChar, state]
    split
    · exact ⟨rfl, Or.inr rfl⟩
    · exact ⟨rfl, Or.inl state⟩
  · simp only [parseChar, state]
    exact ⟨trivial, Or.inr rfl⟩

/-- The loop is left only behind the headers; otherwise the character alone decides. -/
theorem parseChar_stays (scgi : RubyScgi) (c : UInt8) (rest : List UInt8) :
    Past (scgi.parseChar c rest).1.currState ∨
      (scgi.parseChar c rest).2 = false ∧
        ∀ other, scgi.parseChar c other = scgi.parseChar c rest := by
  cases state : scgi.currState with
  | none =>
      simp only [parseChar, state]
      split
      · exact Or.inr ⟨rfl, fun _ => trivial⟩
      · split
        · exact Or.inr ⟨rfl, fun _ => trivial⟩
        · exact Or.inr ⟨rfl, fun _ => trivial⟩
  | headerKey =>
      simp only [parseChar, state]
      split
      · exact Or.inr ⟨rfl, fun _ => rfl⟩
      · split
        · split
          · exact Or.inl (Or.inr rfl)
          · split
            · exact Or.inl (Or.inr rfl)
            · exact Or.inl (Or.inl rfl)
        · exact Or.inr ⟨rfl, fun _ => rfl⟩
  | headerVal =>
      simp only [parseChar, state]
      split
      · exact Or.inr ⟨rfl, fun _ => trivial⟩
      · exact Or.inr ⟨rfl, fun _ => trivial⟩
  | body => exact Or.inl (parseChar_past (Or.inl state) c rest).2
  | done => exact Or.inl (parseChar_past (Or.inr state) c rest).2
  | invalid =>
      simp only [parseChar, state]
      exact Or.inr ⟨trivial, fun _ => trivial⟩

theorem past_parse {scgi : RubyScgi} (past : Past scgi.currState) (text : List UInt8) :
    Past (scgi.parse text).currState := by
  cases text with
  | nil => exact past
  | cons c rest =>
      obtain ⟨left, after⟩ := parseChar_past past c rest
      rw [parse, if_pos left]
      exact after

/-- Once the headers are complete they stay so, whatever comes. -/
theorem past_append (scgi : RubyScgi) (first second : List UInt8)
    (past : Past (scgi.parse first).currState) : Past (scgi.parse (first ++ second)).currState := by
  induction first generalizing scgi with
  | nil => exact past_parse past second
  | cons c rest ih =>
      rw [parse] at past
      rw [List.cons_append, parse]
      rcases parseChar_stays scgi c (rest ++ second) with there | ⟨stays, alone⟩
      · split
        · exact there
        · exact past_parse there _
      · have goes : ¬ (scgi.parseChar c (rest ++ second)).2 = true := by
          rw [stays]
          decide
        rw [alone rest, if_neg goes] at past
        rw [if_neg goes]
        exact ih _ past

/-- Before the headers are complete chunks can be put together. -/
theorem parse_append (scgi : RubyScgi) (first second : List UInt8)
    (early : ¬ Past (scgi.parse first).currState) :
    scgi.parse (first ++ second) = (scgi.parse first).parse second := by
  induction first generalizing scgi with
  | nil => rfl
  | cons c rest ih =>
      rw [parse] at early
      rw [List.cons_append, parse, parse]
      rcases parseChar_stays scgi c rest with past | ⟨stays, alone⟩
      · split at early
        · exact absurd past early
        · exact absurd (past_parse past rest) early
      · have goes : ¬ (scgi.parseChar c rest).2 = true := by
          rw [stays]
          decide
        rw [if_neg goes] at early
        rw [alone (rest ++ second), if_neg goes, if_neg goes]
        exact ih _ early

/-- `parsing_done?` says so in the last state only. -/
theorem parseChar_done (scgi : RubyScgi) (c : UInt8) (rest : List UInt8)
    (kept : scgi.done = true → scgi.currState = .done)
    (done : (scgi.parseChar c rest).1.done = true) :
    (scgi.parseChar c rest).1.currState = .done := by
  cases state : scgi.currState with
  | done => simp only [parseChar, state]
  | none => grind [parseChar]
  | headerKey => grind [parseChar, bodyAdd]
  | headerVal => grind [parseChar, headerAdd]
  | body => grind [parseChar, bodyAdd]
  | invalid => grind [parseChar]

theorem done_parse (scgi : RubyScgi) (text : List UInt8)
    (kept : scgi.done = true → scgi.currState = .done)
    (done : (scgi.parse text).done = true) : (scgi.parse text).currState = .done := by
  induction text generalizing scgi with
  | nil => exact kept done
  | cons c rest ih =>
      rw [parse] at done ⊢
      split at done
      · next left =>
          rw [if_pos left]
          exact parseChar_done scgi c rest kept done
      · next goes =>
          rw [if_neg goes]
          exact ih _ (parseChar_done scgi c rest kept) done

end RubyScgi
