import Webroar.Head.Request
import Webroar.Library.DateText

/-! # Conditional requests for static files

A client that has a copy of a file sends the date of the copy. The static worker reads the date,
takes the time zone of the process off it, and compares it with the time the file was modified.
-/

open Calendar (Tm gmtime timegm strftime strptime httpFormat httpParse)

namespace StaticServer

/-- What `stat` says of a file. -/
structure Stat where
  isDir : Bool
  mtime : Int
  size : Nat
deriving DecidableEq

/-- `resp_status_t`. -/
inductive RespStatus where
  | status200 | status304 | status403 | status404
deriving DecidableEq, Repr

/-- `httpdate_to_c_time`, with what is in memory where `tm_info` lies. -/
def httpdateToCTime (memory : Tm) (httpdate : List UInt8) : Int :=
  match strptime httpParse httpdate memory with
  | none => -1
  | some tm => timegm tm

/-- `time_to_httpdate`. A date of a 64-bit time fits into the buffers of its callers. -/
def timeToHttpdate (time : Int) : List UInt8 := strftime (gmtime time) httpFormat

/-- `get_resp_code`, for the file path and the `If-Modified-Since` header of a request. -/
def getRespCode (timezone : Int) (memory : Tm) (stat : List UInt8 → Option Stat)
    (path modify : Option (List UInt8)) : RespStatus :=
  match path with
  | none => .status404
  | some path =>
      match stat path with
      | none => .status404
      | some buf =>
          if buf.isDir then .status404
          else if (strstr path (ascii "..")).isSome then .status403
          else
            match modify with
            | none => .status200
            | some modify =>
                let modifyTm := httpdateToCTime memory modify - timezone
                if buf.mtime - modifyTm ≤ 0 then .status304 else .status200

/-- Not modified is the answer exactly when the file is not later than a date that can be read. -/
structure ConditionalRight (memory : Tm) (buf : Stat) (modify : List UInt8) (status : RespStatus) :
    Prop where
  unchanged : ∀ tm, strptime httpParse modify memory = some tm → buf.mtime ≤ timegm tm →
    status = .status304
  changed : ∀ tm, strptime httpParse modify memory = some tm → timegm tm < buf.mtime →
    status = .status200
  unparsable : strptime httpParse modify memory = none → status = .status200

/-- The file was not modified between a date and the same date in the other zone, or, for a text that
is no date, not before the second before the epoch in that zone. -/
def ZoneFits (timezone : Int) (memory : Tm) (buf : Stat) (modify : List UInt8) : Prop :=
  match strptime httpParse modify memory with
  | some tm => buf.mtime ≤ min (timegm tm) (timegm tm - timezone) ∨
      max (timegm tm) (timegm tm - timezone) < buf.mtime
  | none => -1 - timezone < buf.mtime

/-- The year of a time has at most four digits. -/
def HasYear (time : Int) : Prop :=
  0 ≤ (gmtime time).year + 1900 ∧ (gmtime time).year + 1900 ≤ 9999

variable {timezone : Int} {memory : Tm} {stat : List UInt8 → Option Stat} {path : List UInt8}
  {buf : Stat}

/-- The date of a time is read as the time. -/
theorem httpdateToCTime_timeToHttpdate {time : Int} (year : HasYear time) :
    strptime httpParse (timeToHttpdate time) memory = some (gmtime time) ∧
      httpdateToCTime memory (timeToHttpdate time) = time := by
  have read := Calendar.strptime_strftime (Calendar.gmtime_valid time) year.1 year.2 memory
  refine ⟨read, ?_⟩
  rw [httpdateToCTime, timeToHttpdate, read]
  exact Calendar.timegm_gmtime time

/-- What is compared for a regular file outside of other directories. -/
theorem getRespCode_eq (found : stat path = some buf) (regular : buf.isDir = false)
    (inside : strstr path (ascii "..") = none) (modify : List UInt8) :
    getRespCode timezone memory stat (some path) (some modify) =
      if buf.mtime ≤ httpdateToCTime memory modify - timezone then .status304
      else .status200 := by
  have order : buf.mtime - (httpdateToCTime memory modify - timezone) ≤ 0 ↔
      buf.mtime ≤ httpdateToCTime memory modify - timezone := by omega
  unfold getRespCode
  dsimp only
  rw [found]
  dsimp only
  rw [regular, inside, if_neg Bool.false_ne_true, if_neg (by exact Bool.false_ne_true)]
  simp only [order]

/-- For a file that is there to be served, the answer is right just when the zone fits. With the date
of the file itself it is right in Greenwich and east of it, with a date one second earlier in
Greenwich and west of it. -/
theorem conditional_iff (found : stat path = some buf) (regular : buf.isDir = false)
    (inside : strstr path (ascii "..") = none) :
    (∀ modify, ConditionalRight memory buf modify
        (getRespCode timezone memory stat (some path) (some modify)) ↔
      ZoneFits timezone memory buf modify) ∧
    (HasYear buf.mtime →
      (getRespCode timezone memory stat (some path) (some (timeToHttpdate buf.mtime)) =
        .status304 ↔ timezone ≤ 0)) ∧
    (HasYear (buf.mtime - 1) →
      (getRespCode timezone memory stat (some path) (some (timeToHttpdate (buf.mtime - 1))) =
        .status200 ↔ 0 ≤ timezone)) := by
  refine ⟨fun modify => ?_, fun year => ?_, fun year => ?_⟩
  · rw [getRespCode_eq found regular inside]
    unfold ZoneFits httpdateToCTime
    cases read : strptime httpParse modify memory with
    | none =>
        dsimp only
        split_ifs with earlier
        · refine iff_of_false (fun right => ?_) (by omega)
          cases right.unparsable read
        · have never : ∀ tm, strptime httpParse modify memory ≠ some tm := by
            rw [read]
            exact nofun
          exact iff_of_true ⟨fun tm date => absurd date (never tm),
            fun tm date => absurd date (never tm), fun _ => rfl⟩ (by omega)
    | some tm =>
        dsimp only
        have known : ∀ other, strptime httpParse modify memory = some other → other = tm :=
          fun other also => Option.some.inj (also.symm.trans read)
        have never : strptime httpParse modify memory ≠ none := by
          rw [read]
          exact Option.some_ne_none tm
        split_ifs with earlier
        · constructor
          · intro right
            by_contra between
            have later := right.changed tm read (by omega)
            cases later
          · intro fits
            refine ⟨fun _ _ _ => rfl, fun other also late => ?_, fun none => absurd none never⟩
            rw [known other also] at late
            omega
        · constructor
          · intro right
            by_contra between
            have same := right.unchanged tm read (by omega)
            cases same
          · intro fits
            refine ⟨fun other also early => ?_, fun _ _ _ => rfl, fun none => absurd none never⟩
            rw [known other also] at early
            omega
  · rw [getRespCode_eq found regular inside, (httpdateToCTime_timeToHttpdate year).2]
    split_ifs with earlier
    · exact iff_of_true rfl (by omega)
    · exact iff_of_false nofun (by omega)
  · rw [getRespCode_eq found regular inside, (httpdateToCTime_timeToHttpdate year).2]
    split_ifs with earlier
    · exact iff_of_false nofun (by omega)
    · exact iff_of_true rfl (by omega)

/-- No time at all. -/
def noTime : Tm := ⟨0, 0, 0, 0, 0, 0, 0⟩

/-- A file of the first day of the year 2000, and the date of that file in Greenwich. -/
theorem conditional_sample :
    getRespCode 0 noTime (fun _ => some ⟨false, 946684800, 1⟩) (some (ascii "/srv/public/x"))
      (some (timeToHttpdate 946684800)) = .status304 :=
  ((@conditional_iff 0 noTime (fun _ => some ⟨false, 946684800, 1⟩) (ascii "/srv/public/x")
    ⟨false, 946684800, 1⟩ rfl rfl (by decide +kernel)).2.1 ⟨by decide +kernel, by decide +kernel⟩).mpr (Int.le_refl 0)

/-- Five hours west of Greenwich the file is sent again. -/
theorem not_conditional : ¬ ConditionalRight noTime ⟨false, 946684800, 1⟩ (timeToHttpdate 946684800)
    (getRespCode 18000 noTime (fun _ => some ⟨false, 946684800, 1⟩)
      (some (ascii "/srv/public/x")) (some (timeToHttpdate 946684800))) := by
  intro right
  have same := right.unchanged (gmtime 946684800) (by decide +kernel) (by decide +kernel)
  have sent : getRespCode 18000 noTime (fun _ => some ⟨false, 946684800, 1⟩)
      (some (ascii "/srv/public/x")) (some (timeToHttpdate 946684800)) = .status200 := by
    decide +kernel
  rw [sent] at same
  cases same

end StaticServer
