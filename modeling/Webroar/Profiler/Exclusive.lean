import Mathlib.Algebra.BigOperators.Group.List.Basic
import Mathlib.Tactic.Abel

/-! # Profiler times

While a request is processed, the traced database methods push a frame before they are called and
pop one after they returned; what a call took is added to the frame below, so that a caller can
take it off its own time. Rendering calls count their nesting on a stack of their own. A call that
raises pops nothing: its frame stays, and the next call that returns pops it in place of its own.

What a request does is a trace: its traced calls one after the other, with the calls made inside
each, the time it took and whether it returned or raised. An exception that was rescued shows as a
call that raised inside one that returned or before another call. Times are exact here.
-/

namespace Profiler

variable {Method Key T : Type}

/-- Traced calls, each with the calls inside it and those after it. -/
inductive Trace (Method Key T : Type) where
  | done
  /-- A call of a database method of a class; it took some time if it returned. -/
  | database (method : Method) (key : Key) (spent : T) (returned : Bool)
      (inner later : Trace Method Key T)
  /-- A call that renders. -/
  | render (spent : T) (returned : Bool) (inner later : Trace Method Key T)

/-- What a thread keeps for its request. -/
structure Metrics (Method Key T : Type) where
  /-- The time recorded for each method of each class. -/
  database : List ((Method × Key) × T)
  rendering : T
  renderingStarted : Bool
  dbMetricStack : List T
  renderMetricStack : List T

/-- Add a time to what is recorded under a method and a class. -/
def record [DecidableEq Method] [DecidableEq Key] [Add T] (entry : (Method × Key) × T) :
    List ((Method × Key) × T) → List ((Method × Key) × T)
  | [] => [entry]
  | (name, time) :: rest =>
      if name = entry.1 then (name, time + entry.2) :: rest else (name, time) :: record entry rest

namespace Metrics

variable [DecidableEq Method] [DecidableEq Key] [AddCommGroup T]

/-- The start of a request. -/
def start : Metrics Method Key T := ⟨[], 0, false, [], []⟩

/-- Before a database method is called. -/
def beforeDatabase (metrics : Metrics Method Key T) : Metrics Method Key T :=
  { metrics with dbMetricStack := 0 :: metrics.dbMetricStack }

/-- The time of a call is added to the frame of its caller. -/
def credit (spent : T) : List T → List T
  | [] => []
  | time :: rest => (spent + time) :: rest

/-- After a database method returned. With nothing on the stack the subtraction fails. -/
def afterDatabase (method : Method) (key : Key) (spent : T) (metrics : Metrics Method Key T) :
    Option (Metrics Method Key T) :=
  match metrics.dbMetricStack with
  | [] => none
  | popped :: rest =>
      let recordTime := spent - popped
      some { metrics with
        database := record ((method, key), recordTime) metrics.database
        rendering :=
          if metrics.renderingStarted then metrics.rendering - recordTime else metrics.rendering
        dbMetricStack := credit spent rest }

/-- Before a rendering call. -/
def beforeRender (metrics : Metrics Method Key T) : Metrics Method Key T :=
  { metrics with renderingStarted := true, renderMetricStack := 0 :: metrics.renderMetricStack }

/-- After a rendering call returned. -/
def afterRender (spent : T) (metrics : Metrics Method Key T) : Metrics Method Key T :=
  let stack := metrics.renderMetricStack.tail
  if stack = [] then
    { metrics with
      rendering := metrics.rendering + spent
      renderingStarted := false
      renderMetricStack := stack }
  else
    { metrics with renderMetricStack := stack }

/-- A database call ends. What follows the call in its wrapper is not reached when it raised. -/
def endDatabase (method : Method) (key : Key) (spent : T) (returned : Bool)
    (metrics : Metrics Method Key T) : Option (Metrics Method Key T) :=
  if returned then metrics.afterDatabase method key spent else some metrics

/-- A rendering call ends. -/
def endRender (spent : T) (returned : Bool) (metrics : Metrics Method Key T) :
    Metrics Method Key T :=
  if returned then metrics.afterRender spent else metrics

end Metrics

section Run

variable [DecidableEq Method] [DecidableEq Key] [AddCommGroup T]

/-- What the traced calls of a request do to its metrics. -/
def run : Trace Method Key T → Metrics Method Key T → Option (Metrics Method Key T)
  | .done, metrics => some metrics
  | .database method key spent returned inner later, metrics => do
      let metrics ← run inner metrics.beforeDatabase
      let metrics ← metrics.endDatabase method key spent returned
      run later metrics
  | .render spent returned inner later, metrics => do
      let metrics ← run inner metrics.beforeRender
      run later (metrics.endRender spent returned)

end Run

namespace Trace

variable [AddCommGroup T]

/-- The time of the database calls made directly, or from rendering calls made directly, that
returned. -/
def direct : Trace Method Key T → T
  | done => 0
  | database _ _ spent returned _ later => (if returned then spent else 0) + later.direct
  | render _ _ inner later => inner.direct + later.direct

/-- The exclusive times: for every database call that returned its own time less that of the
database calls made directly from it that returned, in the order in which they return. -/
def exclusive : Trace Method Key T → List ((Method × Key) × T)
  | done => []
  | database method key spent returned inner later =>
      inner.exclusive ++
        ((if returned then [((method, key), spent - inner.direct)] else []) ++ later.exclusive)
  | render _ _ inner later => inner.exclusive ++ later.exclusive

/-- The sum of the exclusive times. -/
def recorded (trace : Trace Method Key T) : T := (trace.exclusive.map Prod.snd).sum

/-- The time of the outermost database calls that returned. -/
def outermost : Trace Method Key T → T
  | done => 0
  | database _ _ spent returned inner later =>
      (if returned then spent else inner.outermost) + later.outermost
  | render _ _ inner later => inner.outermost + later.outermost

/-- The time of the outermost rendering calls that returned less the database time recorded
inside them. -/
def rendered : Trace Method Key T → T
  | done => 0
  | database _ _ _ _ inner later => inner.rendered + later.rendered
  | render spent returned inner later =>
      (if returned then spent - inner.recorded else 0) + later.rendered

omit [AddCommGroup T]

/-- Every database call made directly, or from rendering calls made directly, returns. -/
def AllReturn : Trace Method Key T → Prop
  | done => True
  | database _ _ _ returned _ later => returned = true ∧ later.AllReturn
  | render _ _ inner later => inner.AllReturn ∧ later.AllReturn

/-- No database call that returns rescues an exception of a database call made directly from it. -/
def Unrescued : Trace Method Key T → Prop
  | done => True
  | database _ _ _ returned inner later =>
      (returned = true → inner.AllReturn) ∧ inner.Unrescued ∧ later.Unrescued
  | render _ _ inner later => inner.Unrescued ∧ later.Unrescued

/-- Calls and then others. -/
def followedBy (first second : Trace Method Key T) : Trace Method Key T :=
  match first with
  | done => second
  | database method key spent returned inner later =>
      database method key spent returned inner (later.followedBy second)
  | render spent returned inner later => render spent returned inner (later.followedBy second)

/-- A rendering call raises. -/
def spoils : Trace Method Key T → Bool
  | done => false
  | database _ _ _ _ inner later => inner.spoils || later.spoils
  | render _ returned inner later => !returned || inner.spoils || later.spoils

/-- Once a rendering call that raises has begun, no database call and no outermost rendering call
returns any more. -/
def Unspoilt (spoilt nested : Bool) : Trace Method Key T → Prop
  | done => True
  | database _ _ _ returned inner later =>
      inner.Unspoilt spoilt nested ∧ (returned = true → (spoilt || inner.spoils) = false) ∧
        later.Unspoilt (spoilt || inner.spoils) nested
  | render _ returned inner later =>
      inner.Unspoilt (spoilt || !returned) true ∧
        (returned = true → nested = false → (spoilt || inner.spoils) = false) ∧
        later.Unspoilt (spoilt || !returned || inner.spoils) nested

section Sums

variable [AddCommGroup T] {trace : Trace Method Key T}

@[simp] theorem recorded_done : (done : Trace Method Key T).recorded = 0 := rfl

theorem recorded_database (method : Method) (key : Key) (spent : T) (returned : Bool)
    (inner later : Trace Method Key T) :
    (database method key spent returned inner later).recorded =
      inner.recorded + ((if returned then spent - inner.direct else 0) + later.recorded) := by
  unfold recorded
  rw [exclusive, List.map_append, List.map_append, List.sum_append, List.sum_append]
  cases returned with
  | false => rfl
  | true => simp

theorem recorded_render (spent : T) (returned : Bool) (inner later : Trace Method Key T) :
    (render spent returned inner later).recorded = inner.recorded + later.recorded := by
  unfold recorded
  rw [exclusive, List.map_append, List.sum_append]

theorem outermost_eq (all : trace.AllReturn) : trace.outermost = trace.direct := by
  induction trace with
  | done => rfl
  | database method key spent returned inner later inside behind =>
      rw [outermost, direct, if_pos all.1, if_pos all.1, behind all.2]
  | render spent returned inner later inside behind =>
      rw [outermost, direct, inside all.1, behind all.2]

/-- The exclusive times add up to the time of the outermost calls. -/
theorem recorded_eq (unrescued : trace.Unrescued) : trace.recorded = trace.outermost := by
  induction trace with
  | done => rfl
  | database method key spent returned inner later inside behind =>
      obtain ⟨rescues, unrescuedInner, unrescuedLater⟩ := unrescued
      rw [recorded_database, outermost, inside unrescuedInner, behind unrescuedLater]
      cases returned with
      | false => rw [if_neg nofun, if_neg nofun, zero_add]
      | true =>
          rw [if_pos rfl, if_pos rfl, outermost_eq (rescues rfl), ← add_assoc,
            add_sub_cancel]
  | render spent returned inner later inside behind =>
      rw [recorded_render, outermost, inside unrescued.1, behind unrescued.2]

/-- Once a rendering call that raises has begun nothing is recorded any more. -/
theorem recorded_of_spoilt {nested : Bool} (unspoilt : trace.Unspoilt true nested) :
    trace.recorded = 0 := by
  induction trace generalizing nested with
  | done => rfl
  | database method key spent returned inner later inside behind =>
      obtain ⟨unspoiltInner, returns, unspoiltLater⟩ := unspoilt
      rw [recorded_database, inside unspoiltInner, behind unspoiltLater]
      cases returned with
      | false => simp
      | true => cases returns rfl
  | render spent returned inner later inside behind =>
      obtain ⟨unspoiltInner, -, unspoiltLater⟩ := unspoilt
      rw [recorded_render, inside unspoiltInner, behind unspoiltLater, add_zero]

end Sums

end Trace

/-- What is recorded is recorded one time after the other. -/
def recordAll [DecidableEq Method] [DecidableEq Key] [Add T]
    (entries : List ((Method × Key) × T)) (database : List ((Method × Key) × T)) :
    List ((Method × Key) × T) :=
  entries.foldl (fun database entry => record entry database) database

theorem recordAll_append [DecidableEq Method] [DecidableEq Key] [Add T]
    (first second database : List ((Method × Key) × T)) :
    recordAll (first ++ second) database = recordAll second (recordAll first database) :=
  List.foldl_append

section Sound

variable [DecidableEq Method] [DecidableEq Key] [AddCommGroup T]
  {trace : Trace Method Key T} {metrics after : Metrics Method Key T}

/-- Calls that return where they were made credit their time to the frame that is on top. -/
def credited (time : T) : List T → List T
  | [] => []
  | top :: rest => (top + time) :: rest

/-- What a trace does to the database side of the metrics: it records its exclusive times, and
when all its direct calls return it credits their time to the frame on top. -/
structure Kept (trace : Trace Method Key T) (metrics after : Metrics Method Key T) : Prop where
  database : after.database = recordAll trace.exclusive metrics.database
  stack : trace.AllReturn → after.dbMetricStack = credited trace.direct metrics.dbMetricStack

/-- A call that returns finds its own frame on top, with the time of its calls. -/
theorem Kept.own {inner : Trace Method Key T} {middle : Metrics Method Key T} {returned : Bool}
    (kept : Kept inner metrics.beforeDatabase middle) (rescues : returned = true → inner.AllReturn) :
    returned = true → middle.dbMetricStack = inner.direct :: metrics.dbMetricStack := by
  intro returns
  rw [kept.stack (rescues returns)]
  exact congrArg (· :: metrics.dbMetricStack) (zero_add _)

/-- What the end of a database call does, with its own frame on top when it returned. -/
theorem endDatabase_spec {middle : Metrics Method Key T} (method : Method) (key : Key) (spent : T)
    {returned : Bool} {own : T} {rest : List T}
    (top : returned = true → middle.dbMetricStack = own :: rest) :
    ∃ next, middle.endDatabase method key spent returned = some next ∧
      next.database = recordAll (if returned then [((method, key), spent - own)] else [])
        middle.database ∧
      (returned = true → next.dbMetricStack = Metrics.credit spent rest) ∧
      (next.rendering = middle.rendering + if returned = true ∧ middle.renderingStarted = true then
        -(spent - own) else 0) ∧
      next.renderingStarted = middle.renderingStarted ∧
      next.renderMetricStack = middle.renderMetricStack := by
  cases returned with
  | false => exact ⟨middle, rfl, rfl, nofun, by simp, rfl, rfl⟩
  | true =>
      rw [Metrics.endDatabase, if_pos rfl, Metrics.afterDatabase, top rfl]
      refine ⟨_, rfl, rfl, fun _ => rfl, ?_, rfl, rfl⟩
      cases middle.renderingStarted with
      | false => simp
      | true => simp [sub_eq_add_neg]

omit [DecidableEq Method] [DecidableEq Key] in
/-- The end of a rendering call leaves the database side alone. -/
theorem endRender_database (spent : T) (returned : Bool) (middle : Metrics Method Key T) :
    (middle.endRender spent returned).database = middle.database ∧
      (middle.endRender spent returned).dbMetricStack = middle.dbMetricStack := by
  cases returned with
  | false => exact ⟨rfl, rfl⟩
  | true =>
      rw [Metrics.endRender, if_pos rfl, Metrics.afterRender]
      split
      · exact ⟨rfl, rfl⟩
      · exact ⟨rfl, rfl⟩

/-- As long as no call that returns rescued an exception of its own calls, every frame that is
popped is that of the call that returns. -/
theorem run_database (trace : Trace Method Key T) (metrics : Metrics Method Key T)
    (unrescued : trace.Unrescued) :
    ∃ after, run trace metrics = some after ∧ Kept trace metrics after := by
  induction trace generalizing metrics with
  | done =>
      refine ⟨metrics, rfl, rfl, fun _ => ?_⟩
      cases shape : metrics.dbMetricStack with
      | nil => rfl
      | cons top rest => rw [credited, Trace.direct, add_zero]
  | database method key spent returned inner later inside behind =>
      obtain ⟨rescues, unrescuedInner, unrescuedLater⟩ := unrescued
      obtain ⟨middle, ran, kept⟩ := inside metrics.beforeDatabase unrescuedInner
      have own := kept.own rescues
      obtain ⟨next, ended, database, stack, -⟩ := endDatabase_spec method key spent own
      obtain ⟨last, ranLater, keptLater⟩ := behind next unrescuedLater
      refine ⟨last, ?_, ?_, fun all => ?_⟩
      · rw [run, ran, Option.bind_eq_bind, Option.bind_some, ended]
        exact ranLater
      · rw [keptLater.database, database, kept.database, Trace.exclusive, recordAll_append,
          recordAll_append]
        rfl
      · rw [keptLater.stack all.2, stack all.1, Trace.direct, if_pos all.1]
        cases metrics.dbMetricStack with
        | nil => rfl
        | cons frame rest =>
            rw [Metrics.credit, credited, credited, add_comm spent frame, add_assoc]
  | render spent returned inner later inside behind =>
      obtain ⟨unrescuedInner, unrescuedLater⟩ := unrescued
      obtain ⟨middle, ran, kept⟩ := inside metrics.beforeRender unrescuedInner
      obtain ⟨database, stack⟩ := endRender_database spent returned middle
      obtain ⟨last, ranLater, keptLater⟩ :=
        behind (middle.endRender spent returned) unrescuedLater
      refine ⟨last, ?_, ?_, fun all => ?_⟩
      · rw [run, ran]
        exact ranLater
      · rw [keptLater.database, database, kept.database, Trace.exclusive, recordAll_append]
        rfl
      · rw [keptLater.stack all.2, stack, kept.stack all.1, Trace.direct]
        change credited _ (credited _ metrics.dbMetricStack) = _
        cases metrics.dbMetricStack with
        | nil => rfl
        | cons frame rest => rw [credited, credited, credited, add_assoc]

theorem run_followedBy (first second : Trace Method Key T) (metrics : Metrics Method Key T) :
    run (first.followedBy second) metrics = (run first metrics).bind (run second) := by
  induction first generalizing metrics with
  | done => rfl
  | database method key spent returned inner later inside behind =>
      simp only [Trace.followedBy, run, Option.bind_eq_bind, Option.bind_assoc, behind]
  | render spent returned inner later inside behind =>
      simp only [Trace.followedBy, run, Option.bind_eq_bind, Option.bind_assoc, behind]

omit [DecidableEq Method] [DecidableEq Key] in
theorem direct_followedBy (first second : Trace Method Key T) :
    (first.followedBy second).direct = first.direct + second.direct := by
  induction first with
  | done => exact (zero_add _).symm
  | database method key spent returned inner later inside behind =>
      rw [Trace.followedBy, Trace.direct, Trace.direct, behind, add_assoc]
  | render spent returned inner later inside behind =>
      rw [Trace.followedBy, Trace.direct, Trace.direct, behind, add_assoc]

/-- A call that rescues the exception of one of its calls is recorded less the calls inside that
one in place of the calls before it, so its time is exclusive only when both took the same. -/
theorem rescued_record {before inner later : Trace Method Key T} (method raised : Method)
    (key key' : Key) (spent spent' : T) (metrics : Metrics Method Key T)
    (returned : before.AllReturn ∧ inner.AllReturn ∧ later.AllReturn)
    (unrescued : before.Unrescued ∧ inner.Unrescued ∧ later.Unrescued) :
    ∃ after database, run (.database method key spent true
        (before.followedBy (.database raised key' spent' false inner later)) .done) metrics =
          some after ∧
      after.database = record ((method, key), spent - (inner.direct + later.direct)) database ∧
      (spent - (inner.direct + later.direct) =
          spent - (before.followedBy (.database raised key' spent' false inner later)).direct ↔
        inner.direct = before.direct) := by
  obtain ⟨first, ranBefore, keptBefore⟩ := run_database before metrics.beforeDatabase unrescued.1
  obtain ⟨second, ranInner, keptInner⟩ := run_database inner first.beforeDatabase unrescued.2.1
  obtain ⟨third, ranLater, keptLater⟩ := run_database later second unrescued.2.2
  have frame : first.dbMetricStack = before.direct :: metrics.dbMetricStack :=
    keptBefore.own (fun _ => returned.1) rfl
  have left : second.dbMetricStack = inner.direct :: first.dbMetricStack :=
    keptInner.own (fun _ => returned.2.1) rfl
  have top : third.dbMetricStack =
      (inner.direct + later.direct) :: before.direct :: metrics.dbMetricStack := by
    rw [keptLater.stack returned.2.2, left, frame, credited]
  obtain ⟨after, ended, database, -⟩ :=
    @endDatabase_spec Method Key T _ _ _ third method key spent true _ _ fun _ => top
  refine ⟨after, third.database, ?_, database, ?_⟩
  · rw [run, run_followedBy, ranBefore, Option.bind_some, run, ranInner]
    simp only [Metrics.endDatabase, Option.bind_eq_bind, Option.bind_some, Bool.false_eq_true,
      ↓reduceIte, ranLater] at ended ⊢
    rw [ended]
    rfl
  · rw [direct_followedBy, Trace.direct, if_neg nofun, zero_add, sub_right_inj,
      add_right_cancel_iff]

/-! ### The rendering time -/

/-- By how much the rendering time changes: inside a rendering call by the time recorded, which is
taken off, and outside by what was rendered. -/
def Trace.drawn (nested : Bool) (trace : Trace Method Key T) : T :=
  if nested then -trace.recorded else trace.rendered

/-- What a part of a trace does to the rendering side: the rendering time changes by some time,
and the stack grows when a rendering call raised. -/
structure Drawn (time : T) (spoils spoilt nested : Bool) (metrics after : Metrics Method Key T) :
    Prop where
  rendering : after.rendering = metrics.rendering + time
  started : (spoilt || spoils) = false → after.renderingStarted = nested
  stack : ∃ left, after.renderMetricStack.length = metrics.renderMetricStack.length + left ∧
    (left = 0 ↔ spoils = false)

/-- Where a part of a trace begins: rendering has started inside a rendering call only, unless one
raised. -/
structure Ready (spoilt nested : Bool) (metrics : Metrics Method Key T) : Prop where
  fresh : spoilt = false → metrics.renderingStarted = nested
  empty : spoilt = false → nested = false → metrics.renderMetricStack = []
  filled : (spoilt || nested) = true → metrics.renderMetricStack ≠ []

section Parts

omit [DecidableEq Method] [DecidableEq Key]

variable {time time' : T} {spoils spoils' spoilt nested : Bool} {next : Metrics Method Key T}

theorem Drawn.ready (drawn : Drawn time spoils spoilt nested metrics next)
    (ready : Ready spoilt nested metrics) : Ready (spoilt || spoils) nested next := by
  obtain ⟨left, grown, unspoilt⟩ := drawn.stack
  refine ⟨drawn.started, fun clean outer => ?_, fun filled => ?_⟩
  · obtain ⟨fresh, clean⟩ := Bool.or_eq_false_iff.mp clean
    have before := ready.empty fresh outer
    rw [before, unspoilt.mpr clean] at grown
    exact List.eq_nil_of_length_eq_zero grown
  · intro empty
    rw [empty, List.length_nil] at grown
    have nothing : metrics.renderMetricStack.length = 0 := by omega
    have clean := unspoilt.mp (by omega)
    rw [clean, Bool.or_false] at filled
    exact ready.filled filled (List.eq_nil_of_length_eq_zero nothing)

/-- A part and what comes after it. -/
theorem Drawn.trans (first : Drawn time spoils spoilt nested metrics next)
    (second : Drawn time' spoils' (spoilt || spoils) nested next after) :
    Drawn (time + time') (spoils || spoils') spoilt nested metrics after := by
  obtain ⟨left, grown, unspoilt⟩ := first.stack
  obtain ⟨left', grown', unspoilt'⟩ := second.stack
  refine ⟨?_, fun clean => second.started ?_, left + left', ?_, ?_⟩
  · rw [second.rendering, first.rendering, add_assoc]
  · rw [Bool.or_assoc]
    exact clean
  · rw [grown', grown, Nat.add_assoc]
  · rw [Bool.or_eq_false_iff, ← unspoilt, ← unspoilt']
    omega

/-- What the end of a rendering call does to the rendering side. -/
theorem endRender_spec (spent : T) (returned : Bool) {middle : Metrics Method Key T} {top : T}
    {rest : List T} (stack : middle.renderMetricStack = top :: rest) :
    (middle.endRender spent returned).rendering =
        middle.rendering + (if returned = true ∧ rest = [] then spent else 0) ∧
      ((middle.endRender spent returned).renderingStarted =
        if returned = true ∧ rest = [] then false else middle.renderingStarted) ∧
      (middle.endRender spent returned).renderMetricStack =
        if returned then rest else top :: rest := by
  cases returned with
  | false => exact ⟨by simp [Metrics.endRender], by simp [Metrics.endRender], stack⟩
  | true =>
      rw [Metrics.endRender, if_pos rfl, Metrics.afterRender, stack, List.tail_cons]
      by_cases last : rest = []
      · rw [if_pos last]
        simp [last]
      · rw [if_neg last]
        simp [last]

/-- A rendering call: its beginning, what is inside it and its end. -/
theorem Drawn.render {inner : Trace Method Key T} {returned : Bool} {middle : Metrics Method Key T}
    (spent : T) (ready : Ready spoilt nested metrics)
    (drawn : Drawn (inner.drawn true) inner.spoils (spoilt || !returned) true
      metrics.beforeRender middle)
    (unspoilt : inner.Unspoilt (spoilt || !returned) true)
    (returns : returned = true → nested = false → (spoilt || inner.spoils) = false) :
    Drawn (if nested then -inner.recorded else if returned then spent - inner.recorded else 0)
      (!returned || inner.spoils) spoilt nested metrics (middle.endRender spent returned) := by
  obtain ⟨left, grown, clean⟩ := drawn.stack
  obtain ⟨top, rest, stack⟩ : ∃ top rest, middle.renderMetricStack = top :: rest := by
    refine List.exists_cons_of_length_pos ?_
    rw [grown]
    exact Nat.lt_of_lt_of_le (Nat.succ_pos _) (Nat.le_add_right _ _)
  have measured : rest.length = metrics.renderMetricStack.length + left := by
    rw [stack] at grown
    change rest.length + 1 = metrics.renderMetricStack.length + 1 + left at grown
    omega
  have below : nested = true → rest ≠ [] := by
    rintro rfl rfl
    have filled := ready.filled (Bool.or_true spoilt)
    exact filled (List.eq_nil_of_length_eq_zero (Nat.eq_zero_of_add_eq_zero measured.symm).1)
  have outer : returned = true → nested = false → rest = [] := by
    intro back out
    obtain ⟨fresh, none⟩ := Bool.or_eq_false_iff.mp (returns back out)
    rw [ready.empty fresh out, clean.mpr none] at measured
    exact List.eq_nil_of_length_eq_zero measured
  obtain ⟨rendering, started, ended⟩ := endRender_spec spent returned stack
  have inside : middle.rendering = metrics.rendering + -inner.recorded := drawn.rendering
  refine ⟨?_, fun unspoiltNow => ?_, left + (if returned then 0 else 1), ?_, ?_⟩
  · rw [rendering, inside]
    cases nested with
    | true => rw [if_neg fun both => below rfl both.2, if_pos rfl, add_zero]
    | false =>
        cases returned with
        | true =>
            rw [if_pos ⟨rfl, outer rfl rfl⟩, if_neg nofun, if_pos rfl]
            abel
        | false =>
            rw [Bool.not_false, Bool.or_true] at unspoilt
            rw [Trace.recorded_of_spoilt unspoilt]
            simp
  · rw [Bool.or_eq_false_iff, Bool.or_eq_false_iff] at unspoiltNow
    obtain ⟨fresh, back, none⟩ := unspoiltNow
    have back : returned = true := by simpa using back
    have true' : middle.renderingStarted = true := drawn.started (by rw [fresh, back, none]; rfl)
    rw [started]
    cases nested with
    | true => rw [if_neg fun both => below rfl both.2, true']
    | false => rw [if_pos ⟨back, outer back rfl⟩]
  · rw [ended]
    cases returned with
    | true => exact measured
    | false =>
        change rest.length + 1 = _
        rw [measured]
        rfl
  · cases returned with
    | true => simpa using clean
    | false => simp

end Parts

/-- As long as nothing returns once a rendering call that raises has begun, the rendering time is
kept as it should be. -/
theorem run_rendering (trace : Trace Method Key T) {spoilt nested : Bool}
    (metrics : Metrics Method Key T) (unrescued : trace.Unrescued)
    (unspoilt : trace.Unspoilt spoilt nested) (ready : Ready spoilt nested metrics)
    (ran : run trace metrics = some after) :
    Drawn (trace.drawn nested) trace.spoils spoilt nested metrics after := by
  induction trace generalizing spoilt nested metrics after with
  | done =>
      obtain rfl := Option.some.inj ran
      refine ⟨?_, fun clean => ready.fresh ?_, 0, rfl, ?_⟩
      · cases nested with
        | false => exact (add_zero _).symm
        | true => simp [Trace.drawn]
      · rw [Trace.spoils, Bool.or_false] at clean
        exact clean
      · rw [Trace.spoils]
        exact iff_of_true rfl rfl
  | database method key spent returned inner later inside behind =>
      obtain ⟨rescues, unrescuedInner, unrescuedLater⟩ := unrescued
      obtain ⟨unspoiltInner, returns, unspoiltLater⟩ := unspoilt
      have readyInner : Ready spoilt nested metrics.beforeDatabase :=
        ⟨ready.fresh, ready.empty, ready.filled⟩
      obtain ⟨middle, ranInner, kept⟩ := run_database inner metrics.beforeDatabase unrescuedInner
      have drawn := inside metrics.beforeDatabase unrescuedInner unspoiltInner readyInner ranInner
      obtain ⟨next, ended, -, -, rendering, started, stack⟩ :=
        endDatabase_spec method key spent (kept.own rescues)
      have step : Drawn (inner.drawn nested +
          if nested then -(if returned then spent - inner.direct else 0) else 0)
          inner.spoils spoilt nested metrics next := by
        obtain ⟨left, grown, clean⟩ := drawn.stack
        refine ⟨?_, fun none => started.trans (drawn.started none), left, ?_, clean⟩
        · have taken : (if returned = true ∧ middle.renderingStarted = true then
              -(spent - inner.direct) else 0) =
                if nested then -(if returned then spent - inner.direct else 0) else 0 := by
            cases returned with
            | false => simp
            | true =>
                rw [drawn.started (returns rfl)]
                simp
          rw [rendering, drawn.rendering, taken, add_assoc]
          rfl
        · rw [stack]
          exact grown
      rw [run, ranInner, Option.bind_eq_bind, Option.bind_some, ended] at ran
      have last := behind next unrescuedLater unspoiltLater (step.ready ready) ran
      have whole := step.trans last
      have sum : (Trace.database method key spent returned inner later).drawn nested =
          (inner.drawn nested +
            if nested then -(if returned then spent - inner.direct else 0) else 0) +
            later.drawn nested := by
        unfold Trace.drawn
        rw [Trace.recorded_database, Trace.rendered]
        cases nested with
        | false => simp
        | true =>
            simp only [↓reduceIte]
            abel
      rw [sum]
      exact whole
  | render spent returned inner later inside behind =>
      obtain ⟨unrescuedInner, unrescuedLater⟩ := unrescued
      obtain ⟨unspoiltInner, returns, unspoiltLater⟩ := unspoilt
      have readyInner : Ready (spoilt || !returned) true metrics.beforeRender :=
        ⟨fun _ => rfl, fun _ => nofun, fun _ => List.cons_ne_nil _ _⟩
      obtain ⟨middle, ranInner, -⟩ := run_database inner metrics.beforeRender unrescuedInner
      have drawn := inside metrics.beforeRender unrescuedInner unspoiltInner readyInner ranInner
      have step := drawn.render spent ready unspoiltInner returns
      rw [run, ranInner, Option.bind_eq_bind, Option.bind_some] at ran
      rw [Bool.or_assoc] at unspoiltLater
      have last := behind _ unrescuedLater unspoiltLater (step.ready ready) ran
      have whole := step.trans last
      have sum : (Trace.render spent returned inner later).drawn nested =
          (if nested then -inner.recorded else if returned then spent - inner.recorded else 0) +
            later.drawn nested := by
        unfold Trace.drawn
        rw [Trace.recorded_render, Trace.rendered]
        cases nested with
        | false => simp
        | true =>
            simp only [↓reduceIte]
            abel
      rw [sum, Trace.spoils]
      exact whole

/-! ### A request -/

omit [DecidableEq Method] [DecidableEq Key] in
theorem sum_record [DecidableEq Method] [DecidableEq Key] (entry : (Method × Key) × T)
    (database : List ((Method × Key) × T)) :
    ((record entry database).map Prod.snd).sum = (database.map Prod.snd).sum + entry.2 := by
  induction database with
  | nil => simp [record]
  | cons first rest ih =>
      rw [record]
      split
      · simp only [List.map_cons, List.sum_cons]
        abel
      · simp only [List.map_cons, List.sum_cons, ih, add_assoc]

/-- What is recorded altogether is the sum of the times recorded. -/
theorem sum_recordAll (entries database : List ((Method × Key) × T)) :
    ((recordAll entries database).map Prod.snd).sum =
      (database.map Prod.snd).sum + (entries.map Prod.snd).sum := by
  induction entries generalizing database with
  | nil => exact (add_zero _).symm
  | cons entry rest ih =>
      change ((recordAll rest (record entry database)).map Prod.snd).sum = _
      rw [ih, sum_record, List.map_cons, List.sum_cons, add_assoc]

/-- The times of a request are exclusive and add up: under every method and class the exclusive
times of its calls are recorded, the recorded times together are the time of the outermost calls,
and the rendering time is that of the outermost rendering calls without the database time
recorded inside them. -/
structure Exact (trace : Trace Method Key T) (after : Metrics Method Key T) : Prop where
  database : after.database = recordAll trace.exclusive []
  total : (after.database.map Prod.snd).sum = trace.outermost
  rendering : after.rendering = trace.rendered

/-- In a request in which no database call that returns rescued an exception of a database call it
made directly, and in which nothing returned once a rendering call that raised had begun, the
times are exclusive and add up. -/
theorem run_exact (trace : Trace Method Key T) (unrescued : trace.Unrescued)
    (unspoilt : trace.Unspoilt false false) :
    ∃ after, run trace Metrics.start = some after ∧ Exact trace after := by
  obtain ⟨after, ran, kept⟩ := run_database trace Metrics.start unrescued
  have ready : Ready false false (Metrics.start : Metrics Method Key T) :=
    ⟨fun _ => rfl, fun _ _ => rfl, nofun⟩
  have drawn := run_rendering trace Metrics.start unrescued unspoilt ready ran
  refine ⟨after, ran, kept.database, ?_, ?_⟩
  · rw [kept.database, sum_recordAll]
    exact (zero_add _).trans (Trace.recorded_eq unrescued)
  · exact drawn.rendering.trans (zero_add _)

end Sound

/-- A call of ten units that loads one object in three. -/
theorem run_exact_load :
    ∃ after, run (.database 0 0 (10 : Int) true (.database 1 0 3 true .done .done) .done)
        (Metrics.start : Metrics Nat Nat Int) = some after ∧
      Exact (.database 0 0 (10 : Int) true (.database 1 0 3 true .done .done) .done) after :=
  run_exact _ ⟨fun _ => ⟨rfl, trivial⟩, ⟨fun _ => trivial, trivial, trivial⟩, trivial⟩
    ⟨⟨trivial, fun _ => rfl, trivial⟩, fun _ => rfl, trivial⟩

/-- A call that loads one object in three units and rescues the exception of a second one is
recorded with all of its ten units. -/
theorem not_run_exact :
    ¬ ∀ trace : Trace Nat Nat Int,
      ∃ after, run trace Metrics.start = some after ∧ Exact trace after := by
  intro exact'
  obtain ⟨after, ran, -, total, -⟩ := exact'
    (.database 0 0 10 true (.database 1 0 3 true .done (.database 1 1 0 false .done .done)) .done)
  cases ran
  cases total

end Profiler
