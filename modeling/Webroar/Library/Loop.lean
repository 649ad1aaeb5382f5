import Mathlib.Data.Nat.Init

/-! # Loops that end, or touch what is not there

One turn of a loop goes on, ends with a result, or faults. What a loop ends with is what its turns
lead to; a loop whose turns get something smaller and never fault does end.
-/

/-- What one turn of a loop does. -/
inductive Turn (σ ρ : Type) where
  | again (state : σ)
  | halt (result : ρ)
  | fault

namespace Loop

variable {σ ρ : Type} {turn : σ → Turn σ ρ}

/-- The loop for at most `fuel` turns. -/
def drive (turn : σ → Turn σ ρ) : Nat → σ → Turn σ ρ
  | 0, state => .again state
  | fuel + 1, state =>
      match turn state with
      | .again next => drive turn fuel next
      | .halt result => .halt result
      | .fault => .fault

/-- The loop ends with `result`. -/
def Ends (turn : σ → Turn σ ρ) (state : σ) (result : ρ) : Prop :=
  ∃ fuel, drive turn fuel state = .halt result

theorem Ends.halt {state : σ} {result : ρ} (last : turn state = .halt result) :
    Ends turn state result := by
  refine ⟨1, ?_⟩
  rw [drive, last]

theorem Ends.again {state next : σ} {result : ρ} (first : turn state = .again next)
    (ends : Ends turn next result) : Ends turn state result := by
  obtain ⟨fuel, reached⟩ := ends
  refine ⟨fuel + 1, ?_⟩
  rw [drive, first]
  exact reached

/-- A loop that has ended stays ended. -/
theorem drive_add {fuel : Nat} {state : σ} {result : ρ}
    (ended : drive turn fuel state = .halt result) (more : Nat) :
    drive turn (fuel + more) state = .halt result := by
  induction fuel generalizing state with
  | zero => cases ended
  | succ fuel ih =>
      rw [Nat.succ_add, drive]
      rw [drive] at ended
      cases took : turn state with
      | again next =>
          rw [took] at ended
          exact ih ended
      | halt early =>
          rw [took] at ended
          exact ended
      | fault =>
          rw [took] at ended
          cases ended

/-- What every turn keeps holds in the last state of a loop that ends. -/
theorem Ends.invariant (Inv : σ → Prop) {start : σ} {result : ρ} (ends : Ends turn start result)
    (begins : Inv start)
    (kept : ∀ state next, Inv state → turn state = .again next → Inv next) :
    ∃ last, Inv last ∧ turn last = .halt result := by
  obtain ⟨fuel, reached⟩ := ends
  induction fuel generalizing start with
  | zero => cases reached
  | succ fuel ih =>
      rw [drive] at reached
      cases took : turn start with
      | again next =>
          rw [took] at reached
          exact ih (kept start next begins took) reached
      | halt early =>
          rw [took] at reached
          exact ⟨start, begins, took.trans reached⟩
      | fault =>
          rw [took] at reached
          cases reached

/-- A loop ends when every turn keeps an invariant, does not fault, and lowers a rank unless it is
the last. -/
theorem ends_of_rank {δ : Type} [WellFoundedRelation δ] (Inv : δ → σ → Prop)
    (goes : ∀ rank state, Inv rank state →
      (∃ next lower, turn state = .again next ∧ Inv lower next ∧
        WellFoundedRelation.rel lower rank) ∨
      ∃ result, turn state = .halt result)
    {rank : δ} {start : σ} (begins : Inv rank start) :
    ∃ result low last, Ends turn start result ∧ Inv low last ∧ turn last = .halt result := by
  revert start
  apply WellFoundedRelation.wf.induction rank
  intro rank ih start begins
  rcases goes rank start begins with ⟨next, lower, took, holds, less⟩ | ⟨result, last⟩
  · obtain ⟨result, low, last, ends, held, halted⟩ := ih lower less holds
    exact ⟨result, low, last, ends.again took, held, halted⟩
  · exact ⟨result, rank, start, .halt last, begins, last⟩

end Loop
