import Mathlib
import Webroar.Ebb.Parser

/-! # Texts in pieces

A text that is marked when a buffer ends is passed on in two pieces. Callbacks that put pieces
together again cannot tell where a buffer ended: at any byte the parser may as well pass on what it
has, and go on from there.
-/

namespace Ebb

variable {σ : Type} {on : Callbacks σ}

/-- Callbacks that put the pieces of a text together, whatever other text goes on at the same time,
and never stop reading. A request may be refused. -/
structure Seamless (on : Callbacks σ) : Prop where
  keeps : ∀ data event, event ≠ .newRequest → (on data event).2 = true
  merge : ∀ data element first second i,
    (on (on data (.piece element first i)).1 (.piece element second i)).1 =
      (on data (.piece element (first ++ second) i)).1
  swap : ∀ data element text uri i, element = .path ∨ element = .queryString →
    (on (on data (.piece .uri uri i)).1 (.piece element text i)).1 =
      (on (on data (.piece element text i)).1 (.piece .uri uri i)).1
  body : ∀ data first second,
    (on (on data (.body first)).1 (.body second)).1 = (on data (.body (first ++ second))).1

/-! ### Callbacks that keep what they are told -/

/-- What may be kept of a request. -/
structure Kept where
  path : Nat
  queryString : Nat
  uri : List UInt8
  fragment : Option (List UInt8)
  headers : List (List UInt8 × List UInt8)
  request : Option Request
  body : List UInt8
  complete : Bool
deriving DecidableEq

namespace Kept

def init : Kept where
  path := 0
  queryString := 0
  uri := []
  fragment := none
  headers := []
  request := none
  body := []
  complete := false

/-- A piece of the name or the value of the last header. -/
def modifyLast (f : List UInt8 × List UInt8 → List UInt8 × List UInt8) (kept : Kept) : Kept :=
  { kept with headers := kept.headers.modifyLast f }

/-- A piece of a text. A header begins with its name. -/
def piece (kept : Kept) (element : Element) (text : List UInt8) (index : Nat) : Kept :=
  match element with
  | .path => { kept with path := kept.path + text.length }
  | .queryString => { kept with queryString := kept.queryString + text.length }
  | .uri => { kept with uri := kept.uri ++ text }
  | .fragment => { kept with fragment := some (kept.fragment.getD [] ++ text) }
  | .headerField =>
      if index = kept.headers.length then { kept with headers := kept.headers ++ [(text, [])] }
      else if index + 1 = kept.headers.length then
        kept.modifyLast fun header => (header.1 ++ text, header.2)
      else kept
  | .headerValue =>
      if index + 1 = kept.headers.length then
        kept.modifyLast fun header => (header.1, header.2 ++ text)
      else kept

def note (kept : Kept) : Event → Kept
  | .newRequest => kept
  | .piece element text index => kept.piece element text index
  | .headersComplete request => { kept with request := some request }
  | .body text => { kept with body := kept.body ++ text }
  | .complete => { kept with complete := true }

end Kept

/-- Callbacks that keep the requests, the latest first, and never stop reading. -/
def keep : Callbacks (List Kept)
  | requests, .newRequest => (.init :: requests, true)
  | [], _ => ([], true)
  | kept :: rest, event => (kept.note event :: rest, true)

namespace Kept

@[simp] theorem modifyLast_concat (kept : Kept)
    (f : List UInt8 × List UInt8 → List UInt8 × List UInt8)
    (headers : List (List UInt8 × List UInt8)) (last : List UInt8 × List UInt8) :
    { kept with headers := headers ++ [last] }.modifyLast f =
      { kept with headers := headers ++ [f last] } := by
  simp only [modifyLast, List.modifyLast_concat]

theorem modifyLast_modifyLast (kept : Kept)
    (f g : List UInt8 × List UInt8 → List UInt8 × List UInt8) :
    (kept.modifyLast f).modifyLast g = kept.modifyLast (g ∘ f) := by
  obtain ⟨path, query, uri, fragment, headers, request, body, complete⟩ := kept
  cases headers using List.reverseRecOn with
  | nil => rfl
  | append_singleton headers last =>
      simp only [modifyLast, List.modifyLast_concat, Function.comp_apply]

@[simp] theorem length_modifyLast (kept : Kept)
    (f : List UInt8 × List UInt8 → List UInt8 × List UInt8) :
    (kept.modifyLast f).headers.length = kept.headers.length := by
  obtain ⟨path, query, uri, fragment, headers, request, body, complete⟩ := kept
  cases headers using List.reverseRecOn with
  | nil => rfl
  | append_singleton headers last => simp [modifyLast, List.modifyLast_concat]

theorem piece_piece (kept : Kept) (element : Element) (first second : List UInt8) (index : Nat) :
    (kept.piece element first index).piece element second index =
      kept.piece element (first ++ second) index := by
  cases element with
  | headerField =>
      simp only [piece]
      by_cases fresh : index = kept.headers.length
      · subst fresh
        simp
      · by_cases current : index + 1 = kept.headers.length
        · simp only [if_neg fresh, if_pos current, length_modifyLast, modifyLast_modifyLast]
          congr 1
          funext header
          simp
        · simp only [if_neg fresh, if_neg current]
  | headerValue =>
      simp only [piece]
      by_cases current : index + 1 = kept.headers.length
      · simp only [if_pos current, length_modifyLast, modifyLast_modifyLast]
        congr 1
        funext header
        simp
      · simp only [if_neg current]
  | _ => simp [piece, Nat.add_assoc]

end Kept

theorem keep_accepts (requests : List Kept) (event : Event) : (keep requests event).2 = true := by
  cases requests <;> cases event <;> rfl

theorem seamless_keep : Seamless keep where
  keeps requests event _ := keep_accepts requests event
  merge requests element first second i := by
    cases requests with
    | nil => rfl
    | cons kept rest => exact congrArg (· :: rest) (kept.piece_piece element first second i)
  swap requests element text uri i inUri := by
    cases requests with
    | nil => rfl
    | cons kept rest =>
        obtain rfl | rfl := inUri
        · rfl
        · rfl
  body requests first second := by
    cases requests with
    | nil => rfl
    | cons kept rest =>
        refine congrArg (· :: rest) ?_
        simp only [Kept.note, List.append_assoc]

/-! ### Marked texts -/

/-- The texts that are marked in a state, in the order in which they are passed on. -/
def State.texts : State → List Element
  | .asterisk | .scheme | .absolute _ | .queryStart => [.uri]
  | .path _ => [.path, .uri]
  | .query _ => [.queryString, .uri]
  | .fragment _ => [.fragment]
  | .field _ => [.headerField]
  | .value _ => [.headerValue]
  | _ => []

/-- The texts that may be marked together. -/
inductive Together : List Element → Prop where
  | none : Together []
  | one (element : Element) : Together [element]
  | two (element : Element) (inUri : element = .path ∨ element = .queryString) :
      Together [element, .uri]

theorem State.together (state : State) : Together state.texts := by
  cases state with
  | path _ => exact .two .path (.inl rfl)
  | query _ => exact .two .queryString (.inr rfl)
  | _ => first | exact .none | exact .one _

theorem Together.tail {element : Element} {texts : List Element}
    (together : Together (element :: texts)) : Together texts := by
  cases together with
  | one => exact .none
  | two _ => exact .one _

theorem Together.not_mem {element : Element} {texts : List Element}
    (together : Together (element :: texts)) : element ∉ texts := by
  cases together with
  | one => exact List.not_mem_nil
  | two _ inUri =>
      rw [List.mem_singleton]
      intro same
      subst same
      cases inUri with
      | inl path => cases path
      | inr query => cases query

/-- Exactly these texts are marked. -/
def Marked (marks : Element → Option (List UInt8)) (texts : List Element) : Prop :=
  ∀ element, (marks element).isSome = true ↔ element ∈ texts

namespace Marked

variable {marks : Element → Option (List UInt8)} {element : Element}

theorem eq_nil (marked : Marked marks []) : marks = fun _ => none := by
  funext element
  rw [← Option.not_isSome_iff_eq_none, marked element]
  exact List.not_mem_nil

/-- Nothing else is marked where nothing is. -/
theorem nothing {texts : List Element} (marked : Marked marks texts) (none : Marked marks []) :
    texts = [] := by
  rw [List.eq_nil_iff_forall_not_mem]
  intro element member
  exact List.not_mem_nil ((none element).mp ((marked element).mpr member))

theorem eq_one (marked : Marked marks [element]) :
    ∃ text, marks = fun other => if other = element then some text else none := by
  obtain ⟨text, present⟩ :=
    Option.isSome_iff_exists.mp ((marked element).mpr (List.mem_singleton_self _))
  refine ⟨text, ?_⟩
  funext other
  by_cases same : other = element
  · rw [if_pos same, same, present]
  · rw [if_neg same, ← Option.not_isSome_iff_eq_none, marked other, List.mem_singleton]
    exact same

theorem eq_two (marked : Marked marks [element, .uri]) :
    ∃ text uri, marks = fun other =>
      if other = element then some text else if other = .uri then some uri else none := by
  obtain ⟨text, present⟩ :=
    Option.isSome_iff_exists.mp ((marked element).mpr (List.mem_cons_self ..))
  obtain ⟨uri, present'⟩ := Option.isSome_iff_exists.mp
    ((marked .uri).mpr (List.mem_cons_of_mem _ (List.mem_singleton_self _)))
  refine ⟨text, uri, ?_⟩
  funext other
  by_cases same : other = element
  · rw [if_pos same, same, present]
  by_cases same' : other = .uri
  · rw [if_neg same, if_pos same', same', present']
  · rw [if_neg same, if_neg same', ← Option.not_isSome_iff_eq_none, marked other]
    simp [same, same']

theorem tail {marks : Element → Option (List UInt8)} {element : Element}
    {texts : List Element} (together : Together (element :: texts))
    (marked : Marked marks (element :: texts)) :
    Marked (Function.update marks element none) texts := by
  intro other
  rw [Function.update_apply]
  by_cases same : other = element
  · subst same
    rw [if_pos rfl]
    exact iff_of_false Bool.false_ne_true together.not_mem
  · rw [if_neg same, marked other, List.mem_cons, or_iff_right same]

theorem mark {texts : List Element} (marked : Marked marks texts) (element : Element)
    (text : List UInt8) : Marked (Function.update marks element (some text)) (element :: texts) := by
  intro other
  rw [Function.update_apply]
  by_cases same : other = element
  · rw [if_pos same]
    exact iff_of_true rfl (List.mem_cons.mpr (.inl same))
  · rw [if_neg same, marked other, List.mem_cons, or_iff_right same]

end Marked

namespace Parser

variable {parser : Parser σ}

/-- What is known once the marked texts have been passed on. -/
def delivered (on : Callbacks σ) (request : Option Request)
    (marks : Element → Option (List UInt8)) (data : σ) : σ :=
  match request with
  | none => data
  | some request =>
      [Element.headerField, .headerValue, .fragment, .queryString, .path, .uri].foldl
        (fun data element => match marks element with
          | none => data
          | some text => (on data (.piece element text request.numberOfHeaders)).1) data

theorem call_none {event : Request → Event} (none : parser.currentRequest = none) :
    parser.call on event = parser := by
  unfold call
  rw [none]

/-- A callback that does not stop reading. -/
theorem call_some (seamless : Seamless on) {event : Request → Event} {request : Request}
    (present : parser.currentRequest = some request) (other : event request ≠ .newRequest) :
    parser.call on event = { parser with data := (on parser.data (event request)).1 } := by
  unfold call
  rw [present]
  simp only [seamless.keeps _ _ other, ↓reduceIte, ← present]

theorem callback_eq (seamless : Seamless on) (element : Element) :
    parser.callback on element = { parser with
      data := match parser.currentRequest with
        | none => parser.data
        | some request => match parser.marks element with
            | none => parser.data
            | some text => (on parser.data (.piece element text request.numberOfHeaders)).1 } := by
  obtain ⟨cs, chunkSize, eating, currentRequest, marks, data⟩ := parser
  dsimp only [callback]
  cases marks element with
  | none =>
      cases currentRequest with
      | none => rfl
      | some request => rfl
  | some text =>
      cases currentRequest with
      | none => rfl
      | some request => exact call_some seamless rfl nofun

theorem callbacks_eq (seamless : Seamless on) :
    parser.callbacks on =
      { parser with data := delivered on parser.currentRequest parser.marks parser.data } := by
  unfold callbacks delivered
  simp only [List.foldl_cons, List.foldl_nil, callback_eq seamless]
  cases parser.currentRequest with
  | none => rfl
  | some request => rfl

/-- The parser passes on what it has, and its texts go on from there. -/
def settled (on : Callbacks σ) (parser : Parser σ) : Parser σ := (parser.callbacks on).restart []

theorem settled_eq (seamless : Seamless on) : parser.settled on =
    { parser with
      data := delivered on parser.currentRequest parser.marks parser.data
      marks := fun element => (parser.marks element).map fun _ => [] } := by
  rw [settled, callbacks_eq seamless, restart]

/-- Texts that are passed on before and behind a byte are passed on as a whole. -/
theorem delivered_delivered (seamless : Seamless on) {texts : List Element}
    (together : Together texts) {first second : Element → Option (List UInt8)}
    (marked : Marked first texts) (marked' : Marked second texts) (request : Option Request)
    (data : σ) :
    delivered on request second (delivered on request first data) =
      delivered on request
        (fun element => (first element).bind fun text => (second element).map (text ++ ·)) data := by
  cases request with
  | none => rfl
  | some request =>
      cases together with
      | none => rw [marked.eq_nil, marked'.eq_nil]; rfl
      | one element =>
          obtain ⟨text, rfl⟩ := marked.eq_one
          obtain ⟨text', rfl⟩ := marked'.eq_one
          cases element
          all_goals simp [delivered, seamless.merge]
      | two element inUri =>
          obtain ⟨text, uri, rfl⟩ := marked.eq_two
          obtain ⟨text', uri', rfl⟩ := marked'.eq_two
          obtain rfl | rfl := inUri
          · simp only [delivered, List.foldl_cons, List.foldl_nil, reduceCtorEq, ↓reduceIte,
              Option.bind_some, Option.map_some, Option.bind_none]
            rw [seamless.swap _ _ _ _ _ (.inl rfl), seamless.merge, seamless.merge]
          · simp only [delivered, List.foldl_cons, List.foldl_nil, reduceCtorEq, ↓reduceIte,
              Option.bind_some, Option.map_some, Option.bind_none]
            rw [seamless.swap _ _ _ _ _ (.inr rfl), seamless.merge, seamless.merge]

/-- What is passed on depends on the request only by its number of headers. -/
theorem delivered_map {f : Request → Request}
    (same : ∀ request, (f request).numberOfHeaders = request.numberOfHeaders)
    (request : Option Request) (marks : Element → Option (List UInt8)) (data : σ) :
    delivered on (request.map f) marks data = delivered on request marks data := by
  cases request with
  | none => rfl
  | some request => simp only [Option.map_some, delivered, same]

/-- A text that is passed on first. -/
theorem delivered_first {element : Element} {texts : List Element}
    (together : Together (element :: texts)) {marks : Element → Option (List UInt8)}
    (marked : Marked marks (element :: texts)) {request : Request} {text : List UInt8}
    (present : marks element = some text) (data : σ) :
    delivered on (some request) (Function.update marks element none)
        (on data (.piece element text request.numberOfHeaders)).1 =
      delivered on (some request) marks data := by
  generalize parts : element :: texts = both at together marked
  cases together with
  | none => cases parts
  | one other =>
      injection parts with same _
      subst same
      obtain ⟨text', rfl⟩ := marked.eq_one
      simp only [↓reduceIte, Option.some.injEq] at present
      subst present
      cases element
      all_goals simp [delivered, Function.update_apply]
  | two other inUri =>
      injection parts with same _
      subst same
      obtain ⟨text', uri, rfl⟩ := marked.eq_two
      simp only [↓reduceIte, Option.some.injEq] at present
      subst present
      obtain rfl | rfl := inUri
      · simp [delivered, Function.update_apply]
      · simp [delivered, Function.update_apply]

/-- A parser that has nothing to pass on. -/
theorem settled_of_none (seamless : Seamless on) (marked : Marked parser.marks []) :
    parser.settled on = parser := by
  obtain ⟨cs, chunkSize, eating, currentRequest, marks, data⟩ := parser
  obtain rfl : marks = fun _ => none := marked.eq_nil
  rw [settled_eq seamless]
  cases currentRequest with
  | none => rfl
  | some request => rfl

theorem marked_settled (seamless : Seamless on) {texts : List Element}
    (marked : Marked parser.marks texts) : Marked (parser.settled on).marks texts := by
  intro element
  rw [settled_eq seamless, ← marked element, Option.isSome_map]

theorem marked_pass {texts : List Element} (marked : Marked parser.marks texts) (c : UInt8) :
    Marked (parser.pass c).marks texts := by
  intro element
  rw [pass, ← marked element, Option.isSome_map]

theorem settled_settled (seamless : Seamless on) {texts : List Element}
    (together : Together texts) (marked : Marked parser.marks texts) :
    (parser.settled on).settled on = parser.settled on := by
  have again := marked_settled seamless marked
  obtain ⟨cs, chunkSize, eating, currentRequest, marks, data⟩ := parser
  rw [settled_eq seamless] at again ⊢
  dsimp only at marked again ⊢
  rw [settled_eq seamless]
  dsimp only
  rw [delivered_delivered seamless together marked again]
  congr 1
  · funext element
    cases marks element with
    | none => rfl
    | some text => rfl
  · congr 1
    funext element
    cases marks element with
    | none => rfl
    | some text => exact congrArg some (List.append_nil text)

/-- A byte that goes to the texts that are marked, before and behind what has been passed on. -/
theorem settled_pass (seamless : Seamless on) {texts : List Element} (together : Together texts)
    (marked : Marked parser.marks texts) (c : UInt8) :
    ((parser.settled on).pass c).settled on = (parser.pass c).settled on := by
  have again := marked_pass (marked_settled seamless marked) c
  obtain ⟨cs, chunkSize, eating, currentRequest, marks, data⟩ := parser
  rw [settled_eq seamless] at again ⊢
  rw [settled_eq seamless, settled_eq seamless]
  dsimp only [pass] at marked again ⊢
  rw [delivered_delivered seamless together marked again]
  congr 1
  · funext element
    cases marks element with
    | none => rfl
    | some text => rfl
  · congr 1
    funext element
    cases marks element with
    | none => rfl
    | some text => rfl

theorem settled_setRequest (seamless : Seamless on) {f : Request → Request}
    (same : ∀ request, (f request).numberOfHeaders = request.numberOfHeaders) :
    (parser.setRequest f).settled on = (parser.settled on).setRequest f := by
  rw [settled_eq seamless, settled_eq seamless]
  simp only [setRequest, delivered_map same]

/-- The first text is passed on, and it is at its end. -/
theorem settled_write (seamless : Seamless on) {element : Element} {texts : List Element}
    (together : Together (element :: texts)) (marked : Marked parser.marks (element :: texts)) :
    ((parser.callback on element).setMark element none).settled on =
      (parser.settled on).setMark element none := by
  rw [settled_eq seamless, settled_eq seamless, callback_eq seamless]
  obtain ⟨text, present⟩ := Option.isSome_iff_exists.mp
    ((marked element).mpr (List.mem_cons_self ..))
  have marks : (fun other => (Function.update parser.marks element none other).map
      fun _ => ([] : List UInt8)) =
      Function.update (fun other => (parser.marks other).map fun _ => []) element none := by
    funext other
    rw [Function.update_apply, Function.update_apply]
    split
    · rfl
    · rfl
  simp only [setMark, marks]
  cases parser.currentRequest with
  | none => rfl
  | some request =>
      simp only [present]
      rw [delivered_first together marked present]

end Parser

end Ebb
