import Webroar.Ebb.Phases
import Webroar.Ebb.Buffers

/-! # The parts of the grammar

The states fall into parts, and what a transition does depends on the parts that it goes from and
to.
-/

namespace Ebb

inductive Part where
  | error
  | ready
  | method
  | line
  | headers
  | field
  | valueStart
  | value
  | lineDone
  | headersEnd
  | chunk
deriving DecidableEq

def State.part : State → Part
  | .error => .error
  | .ready => .ready
  | .method _ => .method
  | .uri | .asterisk | .scheme | .absolute _ | .path _ | .queryStart | .query _ | .fragmentStart
  | .fragment _ | .http _ | .majorStart | .major | .minorStart | .minor | .lineEnd => .line
  | .headers => .headers
  | .valueEnd | .nextHeader => .lineDone
  | .field _ => .field
  | .valueStart _ => .valueStart
  | .value _ => .value
  | .headersEnd => .headersEnd
  | _ => .chunk

/-- The texts that go on in a part. -/
def Part.has (element : Element) : Part → Bool
  | .line => element.ofLine
  | .field => element = .headerField
  | .value => element = .headerValue
  | _ => false

theorem State.has_of_mem (state : State) {element : Element} (member : element ∈ state.texts) :
    state.part.has element = true := by
  cases state with
  | asterisk | scheme | absolute _ | queryStart | fragment _ | field _ | value _ =>
      rw [List.mem_singleton.mp member]
      rfl
  | path _ | query _ =>
      obtain rfl | rest := List.mem_cons.mp member
      · rfl
      · rw [List.mem_singleton.mp rest]
        rfl
  | _ => cases member

/-- The actions of the request line. -/
def Action.ofLine : Action → Bool
  | .mark element | .write element => element.ofLine
  | .versionMajor | .versionMinor => true
  | _ => false

/-- What transitions do, from part to part. -/
inductive Moves : Part → List Action → Part → Prop where
  | start : Moves .ready [.startReq] .method
  | method : Moves .method [] .method
  | named (method : Method) : Moves .method [.method method] .line
  | line {actions : List Action} (line : actions.all Action.ofLine = true) :
      Moves .line actions .line
  | lineEnd : Moves .line [] .headers
  | header : Moves .headers [.mark .headerField] .field
  | noHeaders : Moves .headers [] .headersEnd
  | field : Moves .field [] .field
  | fieldEnd {actions : List Action} (notes : ∀ action ∈ actions, Notes action) :
      Moves .field (actions ++ [.write .headerField]) .valueStart
  | blank : Moves .valueStart [] .valueStart
  | noValue : Moves .valueStart [.mark .headerValue, .write .headerValue] .lineDone
  | valueStart {actions : List Action} (notes : ∀ action ∈ actions, Notes action) :
      Moves .valueStart (actions ++ [.mark .headerValue]) .value
  | value {actions : List Action} (notes : ∀ action ∈ actions, Notes action) :
      Moves .value actions .value
  | valueEnd {actions : List Action} (notes : ∀ action ∈ actions, Notes action) :
      Moves .value (actions ++ [.write .headerValue]) .lineDone
  | lineDone : Moves .lineDone [] .lineDone
  | nextHeader : Moves .lineDone [.endHeaderLine, .mark .headerField] .field
  | lastHeader : Moves .lineDone [.endHeaderLine] .headersEnd
  | headersEnd : Moves .headersEnd [.endHeaders, .bodyLogic] .ready
  | chunk : Moves .chunk [] .chunk
  | size : Moves .chunk [.addToChunkSize] .chunk
  | data : Moves .chunk [.skipChunkData] .chunk
  | bodyEnd : Moves .chunk [.endChunkedBody] .ready

theorem Value.reads_notes (value : Value) : ∀ action ∈ value.reads, Notes action := by
  intro action member
  cases value with
  | digits =>
      rw [List.mem_singleton.mp member]
      exact .contentLength
  | _ => cases member

theorem Value.ends_notes (value : Value) : ∀ action ∈ value.ends, Notes action := by
  intro action
  fun_cases Value.ends value with
  | case1 =>
      intro member
      rw [List.mem_singleton.mp member]
      exact .setKeepAlive
  | case2 =>
      intro member
      rw [List.mem_singleton.mp member]
      exact .setNotKeepAlive
  | case4 =>
      intro member
      rw [List.mem_singleton.mp member]
      exact .useIdentityEncoding
  | _ =>
      intro member
      cases member

/-- A transition that keeps to the table. -/
abbrev Keeps (state : State) (transition : Transition) : Prop :=
  ∀ found ∈ transition, Moves state.part found.1 found.2.part

namespace Keeps

variable {state : State} {c : UInt8}

theorem none : Keeps state Option.none := by
  rintro _ ⟨⟩

theorem some {actions : List Action} {target : State}
    (moves : Moves state.part actions target.part) :
    Keeps state (Option.some (actions, target)) := by
  intro found reads
  cases reads
  exact moves

theorem uriEnd {actions : List Action} (line : state.part = .line)
    (actions' : (actions ++ [Action.write .uri]).all Action.ofLine = true) :
    Keeps state (uriEnd actions c) := by
  have moves : ∀ target : State, target.part = .line →
      Moves state.part (actions ++ [.write .uri]) target.part := by
    intro target there
    rw [line, there]
    exact .line actions'
  fun_cases Ebb.uriEnd actions c with
  | case1 => exact some (moves (.http 0) rfl)
  | case2 => exact some (moves .fragmentStart rfl)
  | case3 => exact none

theorem escaped {target : Escape → State} {accepts : UInt8 → Bool} {others : Transition}
    {escape : Escape} (line : state.part = .line) (line' : ∀ escape, (target escape).part = .line)
    (other : Keeps state others) : Keeps state (escaped target accepts others c escape) := by
  have moves : ∀ escape, Moves state.part [] (target escape).part := by
    intro escape
    rw [line, line']
    exact .line rfl
  fun_cases Ebb.escaped target accepts others c escape with
  | case1 => exact some (moves .percent)
  | case2 => exact some (moves .plain)
  | case3 => exact other
  | case4 => exact some (moves .digit)
  | case5 => exact none
  | case6 => exact some (moves .plain)
  | case7 => exact none

end Keeps

theorem next_moves (state : State) (c : UInt8) : Keeps state (next state c) := by
  cases state with
  | ready =>
      simp only [next]
      split
      · exact .some .start
      · exact .none
  | method text =>
      simp only [next]
      split
      · cases methodOf text with
        | none => exact .none
        | some method => exact .some (.named method)
      · split
        · exact .some .method
        · exact .none
  | asterisk => exact .uriEnd rfl rfl
  | absolute _ => exact .escaped rfl (fun _ => rfl) (.uriEnd rfl rfl)
  | path _ =>
      apply Keeps.escaped rfl
      · exact fun _ => rfl
      split
      · exact .some (.line rfl)
      · exact .uriEnd rfl rfl
  | queryStart =>
      simp only [next]
      split
      · exact .some (.line rfl)
      · split
        · exact .some (.line rfl)
        · exact .uriEnd rfl rfl
  | query _ => exact .escaped rfl (fun _ => rfl) (.uriEnd rfl rfl)
  | fragment _ =>
      apply Keeps.escaped rfl
      · exact fun _ => rfl
      split
      · exact .some (.line rfl)
      · exact .none
  | lineEnd =>
      simp only [next]
      split
      · exact .some .lineEnd
      · exact .none
  | headers =>
      simp only [next, headerStart]
      split
      · exact .some .noHeaders
      · split
        · exact .some .header
        · exact .none
  | nextHeader =>
      simp only [next, headerStart]
      split
      · exact .some .lastHeader
      · split
        · exact .some .nextHeader
        · exact .none
  | field name =>
      simp only [next]
      split
      · apply Keeps.some
        apply Moves.fieldEnd
        intro action member
        split at member
        · rw [List.mem_singleton.mp member]
          exact .useChunkedEncoding
        · cases member
      · split
        · exact .some .field
        · exact .none
  | valueStart kind =>
      simp only [next]
      split
      · exact .some .noValue
      · split
        · exact .some .blank
        · exact .some (.valueStart (Value.reads_notes _))
  | value value =>
      simp only [next]
      split
      · exact .some (.valueEnd (Value.ends_notes _))
      · exact .some (.value (Value.reads_notes _))
  | valueEnd =>
      simp only [next]
      split
      · exact .some .lineDone
      · exact .none
  | headersEnd =>
      simp only [next]
      split
      · exact .some .headersEnd
      · exact .none
  | http seen =>
      simp only [next]
      split
      · split
        · exact .some (.line rfl)
        · exact .some (.line rfl)
      · exact .none
  | data => exact .some .data
  | bodyEnd =>
      simp only [next]
      split
      · exact .some .bodyEnd
      · exact .none
  | extension last | extensionName last | extensionValue last =>
      cases last
      all_goals
        simp only [next]
        repeat' split
      all_goals first | exact .none | exact .some .chunk
  | chunkStart | zeros | size | sizeEnd | dataEnd | dataLf | lastEnd | trailers | trailerName
  | trailerValue =>
      simp only [next]
      repeat' split
      all_goals first | exact .none | exact .some .chunk | exact .some .size
  | _ =>
      simp only [next]
      repeat' split
      all_goals first | exact .none | exact .some (.line rfl)

/-! ### Bytes of texts -/

/-- A transition to texts that may contain the byte. -/
abbrev Admits (c : UInt8) (transition : Transition) : Prop :=
  ∀ found ∈ transition, ∀ element ∈ found.2.texts, element.admits c = true

theorem isHex_ne_zero {c : UInt8} (hex : isHex c = true) : c ≠ 0 := by
  intro zero
  subst zero
  exact absurd hex (by decide)

theorem isUriByte_ne_zero {c : UInt8} (byte : isUriByte c = true) : c ≠ 0 := by
  intro zero
  subst zero
  exact absurd byte (by decide)

theorem isPathByte_ne_zero {c : UInt8} (byte : isPathByte c = true) : c ≠ 0 := by
  intro zero
  subst zero
  exact absurd byte (by decide)

theorem isSchemeByte_ne_zero {c : UInt8} (byte : isSchemeByte c = true) : c ≠ 0 := by
  intro zero
  subst zero
  exact absurd byte (by decide)

namespace Admits

variable {c : UInt8} {actions : List Action} {target : State}

theorem none : Admits c Option.none := by
  rintro _ ⟨⟩

theorem some (admits : ∀ element ∈ target.texts, element.admits c = true) :
    Admits c (Option.some (actions, target)) := by
  intro found reads
  cases reads
  exact admits

theorem free (free : target.texts = []) : Admits c (Option.some (actions, target)) := by
  apply some
  rw [free]
  rintro _ ⟨⟩

/-- The texts of a request line may contain any byte but NUL. -/
theorem line (nonzero : c ≠ 0) (line : target.part = .line) :
    Admits c (Option.some (actions, target)) := by
  apply some
  intro element member
  have there := target.has_of_mem member
  rw [line] at there
  cases element with
  | headerField | headerValue => cases there
  | uri | fragment => exact decide_eq_true nonzero
  | _ => rfl

theorem uriEnd (actions : List Action) : Admits c (uriEnd actions c) := by
  fun_cases Ebb.uriEnd actions c with
  | case1 => exact free rfl
  | case2 => exact free rfl
  | case3 => exact none

theorem headerStart (actions : List Action) : Admits c (headerStart actions c) := by
  fun_cases Ebb.headerStart actions c with
  | case1 => exact free rfl
  | case2 _ token =>
      apply some
      intro element member
      rw [List.mem_singleton.mp member]
      exact token
  | case3 => exact none

theorem escaped {state : Escape → State} {accepts : UInt8 → Bool} {others : Transition}
    {escape : Escape} (state' : ∀ escape, (state escape).part = .line)
    (nonzero : accepts c = true → c ≠ 0) (other : Admits c others) :
    Admits c (escaped state accepts others c escape) := by
  fun_cases Ebb.escaped state accepts others c escape with
  | case1 percent =>
      apply line _ (state' .percent)
      rw [percent]
      decide
  | case2 _ accepted => exact line (nonzero accepted) (state' .plain)
  | case3 => exact other
  | case4 hex => exact line (isHex_ne_zero hex) (state' .digit)
  | case5 => exact none
  | case6 hex => exact line (isHex_ne_zero hex) (state' .plain)
  | case7 => exact none

end Admits

theorem next_admits (state : State) (c : UInt8) : Admits c (next state c) := by
  cases state with
  | uri =>
      simp only [next]
      split
      · rename_i same
        exact .line (by rw [same]; decide) rfl
      · split
        · rename_i same
          exact .line (by rw [same]; decide) rfl
        · split
          · rename_i same
            exact .line (by rw [same]; decide) rfl
          · split
            · rename_i byte
              exact .line (isSchemeByte_ne_zero byte) rfl
            · exact .none
  | method text =>
      simp only [next]
      split
      · cases methodOf text with
        | none => exact .none
        | some method => exact .free rfl
      · split
        · exact .free rfl
        · exact .none
  | asterisk => exact .uriEnd _
  | scheme =>
      simp only [next]
      split
      · rename_i same
        exact .line (by rw [same]; decide) rfl
      · split
        · rename_i byte
          exact .line (isSchemeByte_ne_zero byte) rfl
        · exact .none
  | absolute _ => exact .escaped (fun _ => rfl) isUriByte_ne_zero (.uriEnd _)
  | path _ =>
      apply Admits.escaped
      · exact fun _ => rfl
      · exact isPathByte_ne_zero
      split
      · rename_i same
        exact .line (by rw [same]; decide) rfl
      · exact .uriEnd _
  | queryStart =>
      simp only [next]
      split
      · rename_i same
        exact .line (by rw [same]; decide) rfl
      · split
        · rename_i byte
          exact .line (isUriByte_ne_zero byte) rfl
        · exact .uriEnd _
  | query _ => exact .escaped (fun _ => rfl) isUriByte_ne_zero (.uriEnd _)
  | fragmentStart =>
      simp only [next]
      split
      · rename_i same
        exact .line (by rw [same]; decide) rfl
      · split
        · rename_i byte
          exact .line (isUriByte_ne_zero byte) rfl
        · split
          · exact .free rfl
          · exact .none
  | fragment _ =>
      apply Admits.escaped
      · exact fun _ => rfl
      · exact isUriByte_ne_zero
      split
      · exact .free rfl
      · exact .none
  | http seen =>
      simp only [next]
      split
      · split
        · exact .free rfl
        · exact .free rfl
      · exact .none
  | headers => exact .headerStart _
  | nextHeader => exact .headerStart _
  | field name =>
      simp only [next]
      split
      · exact .free rfl
      · split
        · rename_i token
          apply Admits.some
          intro element member
          rw [List.mem_singleton.mp member]
          exact token
        · exact .none
  | valueStart kind =>
      simp only [next]
      split
      · exact .free rfl
      · split
        · exact .free rfl
        · rename_i other _
          apply Admits.some
          intro element member
          rw [List.mem_singleton.mp member]
          exact decide_eq_true other
  | value value =>
      simp only [next]
      split
      · exact .free rfl
      · rename_i other
        apply Admits.some
        intro element member
        rw [List.mem_singleton.mp member]
        exact decide_eq_true other
  | extension last | extensionName last | extensionValue last =>
      cases last
      all_goals
        simp only [next]
        repeat' split
      all_goals first | exact .none | exact .free rfl
  | _ =>
      simp only [next]
      repeat' split
      all_goals first | exact .none | exact .free rfl

end Ebb
