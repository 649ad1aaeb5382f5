import Webroar.Ebb.Settled

/-! # The table of transitions

What the transitions do with the texts that are marked, and which of them skip a body.
-/

namespace Ebb

/-- The texts that are marked after an action. -/
def Action.texts (texts : List Element) : Action → List Element
  | .mark element => element :: texts
  | .write element => texts.filter fun other => other ≠ element
  | _ => texts

/-- An action that does not skip a body. -/
def Action.quiet : Action → Bool
  | .bodyLogic | .skipChunkData => false
  | _ => true

/-- A transition leaves exactly the texts of its state marked, and bodies are skipped in two places
only. -/
structure Row (state : State) (found : List Action × State) : Prop where
  texts : found.1.foldl Action.texts state.texts = found.2.texts
  quiet : (∀ action ∈ found.1, action.quiet = true) ∨
    state = .headersEnd ∧ found = ([.endHeaders, .bodyLogic], .ready) ∨
    state = .data ∧ found = ([.skipChunkData], .dataEnd)

namespace Row

variable {state : State} {c : UInt8}

theorem none : ∀ found ∈ (Option.none : Transition), Row state found := nofun

theorem goto {target : State} (same : state.texts = target.texts) :
    ∀ found ∈ Ebb.goto target, Row state found := by
  intro found reads
  cases reads
  exact ⟨same, .inl nofun⟩

theorem some {actions : List Action} {target : State}
    (texts : actions.foldl Action.texts state.texts = target.texts)
    (quiet : actions.all Action.quiet = true) :
    ∀ found ∈ (Option.some (actions, target) : Transition), Row state found := by
  intro found reads
  cases reads
  exact ⟨texts, .inl (List.all_eq_true.mp quiet)⟩

theorem uriEnd {actions : List Action}
    (texts : (actions ++ [Action.write .uri]).foldl Action.texts state.texts = [])
    (quiet : (actions ++ [Action.write .uri]).all Action.quiet = true) :
    ∀ found ∈ uriEnd actions c, Row state found := by
  fun_cases Ebb.uriEnd actions c with
  | case1 => exact some texts quiet
  | case2 => exact some texts quiet
  | case3 => exact none

theorem headerStart {actions : List Action}
    (texts : actions.foldl Action.texts state.texts = [])
    (quiet : actions.all Action.quiet = true) :
    ∀ found ∈ headerStart actions c, Row state found := by
  fun_cases Ebb.headerStart actions c with
  | case1 => exact some texts quiet
  | case2 =>
      apply some
      · rw [List.foldl_append, texts]
        rfl
      · rw [List.all_append, quiet]
        rfl
  | case3 => exact none

theorem escaped {target : Escape → State} {accepts : UInt8 → Bool} {others : Transition}
    {escape : Escape} (same : ∀ escape, state.texts = (target escape).texts)
    (other : ∀ found ∈ others, Row state found) :
    ∀ found ∈ escaped target accepts others c escape, Row state found := by
  fun_cases Ebb.escaped target accepts others c escape with
  | case1 => exact goto (same .percent)
  | case2 => exact goto (same .plain)
  | case3 => exact other
  | case4 => exact goto (same .digit)
  | case5 => exact none
  | case6 => exact goto (same .plain)
  | case7 => exact none

theorem reads (value : Value) {actions : List Action} {target : State}
    (texts : actions.foldl Action.texts state.texts = target.texts)
    (quiet : actions.all Action.quiet = true) :
    ∀ found ∈ (Option.some (value.reads ++ actions, target) : Transition), Row state found := by
  fun_cases Value.reads value with
  | case1 => exact some texts quiet
  | case2 => exact some texts quiet

theorem ends (value : Value) {actions : List Action} {target : State}
    (texts : actions.foldl Action.texts state.texts = target.texts)
    (quiet : actions.all Action.quiet = true) :
    ∀ found ∈ (Option.some (value.ends ++ actions, target) : Transition), Row state found := by
  fun_cases Value.ends value with
  | _ => exact some texts quiet

end Row

theorem next_row (state : State) (c : UInt8) : ∀ found ∈ next state c, Row state found := by
  cases state with
  | method text =>
      simp only [next]
      split
      · cases methodOf text with
        | none => exact Row.none
        | some method => exact Row.some rfl rfl
      · split
        · exact Row.goto rfl
        · exact Row.none
  | asterisk => exact Row.uriEnd rfl rfl
  | absolute _ => exact Row.escaped (fun _ => rfl) (Row.uriEnd rfl rfl)
  | path _ =>
      apply Row.escaped
      · exact fun _ => rfl
      split
      · exact Row.some rfl rfl
      · exact Row.uriEnd rfl rfl
  | queryStart =>
      simp only [next]
      split
      · exact Row.some rfl rfl
      · split
        · exact Row.some rfl rfl
        · exact Row.uriEnd rfl rfl
  | query _ => exact Row.escaped (fun _ => rfl) (Row.uriEnd rfl rfl)
  | fragment _ =>
      apply Row.escaped
      · exact fun _ => rfl
      split
      · exact Row.some rfl rfl
      · exact Row.none
  | http seen =>
      simp only [next]
      split
      · split
        · exact Row.goto rfl
        · exact Row.goto rfl
      · exact Row.none
  | headers => exact Row.headerStart rfl rfl
  | nextHeader => exact Row.headerStart rfl rfl
  | field name =>
      simp only [next]
      split
      · split
        · exact Row.some rfl rfl
        · exact Row.some rfl rfl
      · split
        · exact Row.goto rfl
        · exact Row.none
  | valueStart kind =>
      simp only [next]
      split
      · exact Row.some rfl rfl
      · split
        · exact Row.goto rfl
        · exact Row.reads _ rfl rfl
  | value value =>
      simp only [next]
      split
      · exact Row.ends _ rfl rfl
      · have nothing : ∀ found ∈ (some ((value.next c).reads ++ [], .value (value.next c)) :
            Transition), Row (.value value) found := Row.reads _ rfl rfl
        rw [List.append_nil] at nothing
        exact nothing
  | headersEnd =>
      simp only [next]
      split
      · intro found reads
        cases reads
        exact ⟨rfl, .inr (.inl ⟨rfl, rfl⟩)⟩
      · exact Row.none
  | data =>
      intro found reads
      cases reads
      exact ⟨rfl, .inr (.inr ⟨rfl, rfl⟩)⟩
  | extension last | extensionName last | extensionValue last =>
      cases last
      all_goals
        simp only [next]
        repeat' split
      all_goals first | exact Row.none | exact Row.goto rfl
  | _ =>
      simp only [next]
      repeat' split
      all_goals first | exact Row.none | exact Row.goto rfl | exact Row.some rfl rfl

end Ebb
