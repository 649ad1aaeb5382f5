import Webroar.Library.Hash

/-! # Messages of the profiler

A `url_metric` message has the times of one request. The time in the database is given for each
method and class that was called; the analyzer adds it up and keeps it under the name of both.
-/

namespace Analyzer

/-- The total time, the time in the database, the time of rendering, and the number of requests. -/
abbrev Totals (τ : Type) : Type := τ × τ × τ × ℕ

/-- A `url_metric` message. The times in the database are by method and class; the methods that the
profiler traces, such as `find` and `save`, have no dot in their names. -/
structure UrlMetric (τ : Type) where
  appName : String
  controller : String
  action : String
  totalSpentTime : τ
  rendering : τ
  database : Hash String (Hash String τ)
  wallTime : Int
  traced : ∀ method ∈ database.keys, '.' ∉ method.toList

/-- What is read from the queue. -/
inductive Item (τ : Type) where
  | urlMetric (message : UrlMetric τ)
  | other

/-- The name under which the time in a method of a class is kept. -/
def methodName (className method : String) : String := className ++ ("." ++ method)

namespace UrlMetric

variable {τ : Type} (message : UrlMetric τ)

def url : String := message.controller ++ ("/" ++ message.action)

/-- The times in the database, one after the other. -/
def spent : List (String × τ) :=
  message.database.entries.flatMap fun (method, classes) =>
    classes.entries.map fun (className, time) => (methodName className method, time)

/-- `db_time_breakup`. -/
def dbTimeBreakup : Hash String τ :=
  message.spent.foldl (fun hash pair => hash.set pair.1 pair.2) .empty

/-- `db_time`. -/
def dbTime [Zero τ] [Add τ] : τ := message.spent.foldl (fun time pair => time + pair.2) 0

/-- What one message counts. -/
def totals [Zero τ] [Add τ] : Totals τ :=
  (message.totalSpentTime, message.dbTime, message.rendering, 1)

/-- What one message counts for each method. -/
def breakup [Zero τ] [Add τ] (name : String) : τ :=
  ((message.spent.filter fun pair => pair.1 = name).map Prod.snd).sum

end UrlMetric

/-! ### No time is lost in `db_time_breakup` -/

/-- A method without a dot can be told from its class. -/
theorem methodName_inj {first second className className' : String}
    (plain : '.' ∉ first.toList) (plain' : '.' ∉ second.toList)
    (same : methodName className first = methodName className' second) :
    className = className' ∧ first = second := by
  have texts := congrArg (fun name => name.toList.reverse) same
  have dot : ".".toList = ['.'] := rfl
  simp only [methodName, String.toList_append, List.reverse_append, dot, List.reverse_cons,
    List.append_assoc, List.singleton_append] at texts
  have front : ∀ method : String, '.' ∉ method.toList → ∀ rest : List Char,
      (method.toList.reverse ++ '.' :: rest).takeWhile (· ≠ '.') = method.toList.reverse := by
    intro method plain rest
    rw [List.takeWhile_append_of_pos, List.takeWhile_cons_of_neg, List.append_nil]
    · simp
    · intro c member
      rw [List.mem_reverse] at member
      apply decide_eq_true
      intro stop
      rw [stop] at member
      exact plain member
  have methods := congrArg (List.takeWhile (· ≠ '.')) texts
  rw [front first plain, front second plain'] at methods
  rw [methods, List.append_cancel_left_eq] at texts
  injection texts with _ classes
  exact ⟨String.toList_injective (List.reverse_injective classes),
    String.toList_injective (List.reverse_injective methods)⟩

/-- Each method of a class occurs once in a message. -/
theorem UrlMetric.spent_nodup {τ : Type} (message : UrlMetric τ) :
    (message.spent.map Prod.fst).Nodup := by
  have names : message.spent.map Prod.fst = message.database.entries.flatMap fun entry =>
      entry.2.entries.map fun inner => methodName inner.1 entry.1 := by
    rw [spent, List.map_flatMap]
    apply List.flatMap_congr
    intro entry _
    rw [List.map_map]
    rfl
  rw [names, List.nodup_flatMap]
  constructor
  · intro entry member
    have plain := message.traced entry.1 (List.mem_map_of_mem member)
    have distinct := entry.2.nodup
    rw [List.Nodup, List.pairwise_map] at distinct ⊢
    refine distinct.imp ?_
    intro first second other same
    exact other (methodName_inj plain plain same).1
  · have distinct := message.database.nodup
    rw [List.Nodup, List.pairwise_map] at distinct
    refine distinct.imp_of_mem ?_
    intro first second member member' other name inFirst inSecond
    obtain ⟨inner, -, named⟩ := List.mem_map.mp inFirst
    obtain ⟨inner', -, named'⟩ := List.mem_map.mp inSecond
    have plain := message.traced first.1 (List.mem_map_of_mem member)
    have plain' := message.traced second.1 (List.mem_map_of_mem member')
    exact other (methodName_inj plain plain' (named.trans named'.symm)).2

theorem UrlMetric.entries_dbTimeBreakup {τ : Type} (message : UrlMetric τ) :
    message.dbTimeBreakup.entries = message.spent := by
  rw [dbTimeBreakup, Hash.entries_foldl_set]
  · rfl
  · have distinct := message.spent_nodup
    rw [List.Nodup, List.pairwise_map] at distinct
    exact distinct

/-- What a message counts for a method is what is kept under the name of the method. -/
theorem UrlMetric.breakup_eq {τ : Type} [AddCommMonoid τ] (message : UrlMetric τ) (name : String) :
    message.breakup name = (message.dbTimeBreakup.get name).getD 0 := by
  rw [breakup, Hash.get, entries_dbTimeBreakup]
  exact Hash.sum_of_find message.spent_nodup name

end Analyzer
