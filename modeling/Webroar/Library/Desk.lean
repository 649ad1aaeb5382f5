import Mathlib.Data.List.Nodup
import Mathlib.Logic.Function.Basic

/-! # Answers that may come later

Connections ask questions, which are numbered as they come. A question is answered at once, or it is
left with a holder that answers it later. A holder has one place to note the connection it owes an
answer, and a connection knows only the question it asked last, so an answer goes to that one.

When a connection asks one question at a time and a holder takes one at a time, every question gets
one answer.
-/

universe u v

/-- An answer goes to a connection, which may be closed, and to the question that is current
there. -/
structure Desk.Answer (Conn : Type u) where
  conn : Conn
  live : Bool
  question : Option Nat

/-- `told` says that the current question of a connection has been answered. -/
structure Desk (Conn : Type u) (Holder : Type v) where
  slot : Holder → Option Conn
  live : Conn → Bool
  current : Conn → Option Nat
  told : Conn → Bool
  asked : List (Conn × Option Holder)
  answers : List (Desk.Answer Conn)

namespace Desk

variable {Conn : Type u} {Holder : Type v}

/-- The question has an answer. -/
def Answered (desk : Desk Conn Holder) (number : Nat) : Prop :=
  ∃ answer ∈ desk.answers, answer.question = some number

section Operations

variable [DecidableEq Conn] [DecidableEq Holder] (desk : Desk Conn Holder)

/-- A connection is opened. -/
def enter (conn : Conn) : Desk Conn Holder :=
  { desk with
    live := Function.update desk.live conn true
    current := Function.update desk.current conn none
    told := Function.update desk.told conn false }

/-- A connection asks a question, which may be left with a holder. -/
def ask (conn : Conn) (holder : Option Holder) : Desk Conn Holder :=
  { desk with
    current := Function.update desk.current conn (some desk.asked.length)
    told := Function.update desk.told conn false
    asked := desk.asked ++ [(conn, holder)] }

def answer (conn : Conn) : Desk Conn Holder :=
  { desk with
    told := Function.update desk.told conn true
    answers := desk.answers ++ [⟨conn, desk.live conn, desk.current conn⟩] }

/-- What a holder notes. -/
def note (holder : Holder) (conn : Option Conn) : Desk Conn Holder :=
  { desk with slot := Function.update desk.slot holder conn }

/-- A holder answers whom it owes an answer, if anybody. -/
def settle (holder : Holder) : Desk Conn Holder :=
  match desk.slot holder with
  | some conn => (desk.answer conn).note holder none
  | none => desk

/-- The answer has arrived. -/
def clear (conn : Conn) : Desk Conn Holder :=
  { desk with
    current := Function.update desk.current conn none
    told := Function.update desk.told conn false }

/-- A connection is closed, and what the holders note may change with it. -/
def leave (conn : Conn) (slot : Holder → Option Conn) : Desk Conn Holder :=
  { desk with slot := slot, live := Function.update desk.live conn false }

end Operations

/-- Every answer goes to a connection that is open and to a question it asked, no question gets two,
and a question of an open connection that has none is left with a holder that notes the
connection. -/
structure Sound (desk : Desk Conn Holder) : Prop where
  live : ∀ answer ∈ desk.answers, answer.live = true
  own : ∀ answer ∈ desk.answers, ∃ number holder, answer.question = some number ∧
    desk.asked[number]? = some (answer.conn, holder)
  once : (desk.answers.map Answer.question).Nodup
  current : ∀ conn number, desk.current conn = some number →
    ∃ holder, desk.asked[number]? = some (conn, holder)
  told : ∀ conn number, desk.told conn = true → desk.current conn = some number →
    desk.Answered number
  held : ∀ holder conn, desk.slot holder = some conn → desk.live conn = true ∧
    ∃ number, desk.current conn = some number ∧
      desk.asked[number]? = some (conn, some holder) ∧ ¬ desk.Answered number
  waits : ∀ number conn holder, desk.asked[number]? = some (conn, holder) →
    desk.live conn = true → ¬ desk.Answered number →
      desk.current conn = some number ∧ ∃ known, holder = some known ∧ desk.slot known = some conn

variable {desk : Desk Conn Holder} {conn : Conn} {holder : Holder}

theorem not_answered_length (sound : desk.Sound) : ¬ desk.Answered desk.asked.length := by
  rintro ⟨answer, member, question⟩
  obtain ⟨number, holder, same, asked⟩ := sound.own answer member
  cases same.symm.trans question
  obtain ⟨less, -⟩ := List.getElem?_eq_some_iff.mp asked
  exact Nat.lt_irrefl _ less

theorem getElem?_asked_append {number : Nat} {known : Conn × Option Holder}
    (asked : desk.asked[number]? = some known) (more : List (Conn × Option Holder)) :
    (desk.asked ++ more)[number]? = some known := by
  obtain ⟨less, -⟩ := List.getElem?_eq_some_iff.mp asked
  rw [List.getElem?_append_left less]
  exact asked

/-- The questions after one more. -/
theorem asked_concat {number : Nat} {known pair : Conn × Option Holder}
    (asked : (desk.asked ++ [pair])[number]? = some known) :
    desk.asked[number]? = some known ∨ number = desk.asked.length ∧ known = pair := by
  rcases Nat.lt_or_ge number desk.asked.length with less | beyond
  · rw [List.getElem?_append_left less] at asked
    exact .inl asked
  · rw [List.getElem?_append_right beyond] at asked
    obtain ⟨less, same⟩ := List.getElem?_eq_some_iff.mp asked
    rw [List.length_singleton] at less
    have last : number = desk.asked.length := by omega
    subst last
    rw [List.getElem_singleton] at same
    exact .inr ⟨rfl, same.symm⟩

namespace Sound

/-- A connection without a question is in no holder's place. -/
theorem not_held (sound : desk.Sound) (silent : desk.current conn = none) (holder : Holder) :
    desk.slot holder ≠ some conn := by
  intro noted
  obtain ⟨-, number, current, -⟩ := sound.held holder conn noted
  exact nomatch silent.symm.trans current

/-- All it ever asked has been answered. -/
theorem answered (sound : desk.Sound) (live : desk.live conn = true)
    (silent : desk.current conn = none) {number : Nat} {holder : Option Holder}
    (asked : desk.asked[number]? = some (conn, holder)) : desk.Answered number := by
  by_contra waiting
  obtain ⟨current, -⟩ := sound.waits number conn holder asked live waiting
  exact nomatch silent.symm.trans current

/-- A holder owes its answer to a connection that no other holder notes. -/
theorem slot_inj (sound : desk.Sound) {other : Holder} (noted : desk.slot holder = some conn)
    (also : desk.slot other = some conn) : other = holder := by
  obtain ⟨-, number, current, asked, -⟩ := sound.held holder conn noted
  obtain ⟨-, same, again, asks, -⟩ := sound.held other conn also
  cases current.symm.trans again
  cases asked.symm.trans asks
  rfl

variable [DecidableEq Conn]

theorem enter (sound : desk.Sound) (new : ∀ (number : Nat) (holder : Option Holder),
    desk.asked[number]? ≠ some (conn, holder)) : (desk.enter conn).Sound := by
  have silent : ∀ holder, desk.slot holder ≠ some conn := by
    intro holder noted
    obtain ⟨-, number, -, asked, -⟩ := sound.held holder conn noted
    exact new number _ asked
  have still : ∀ other number, (desk.enter conn).current other = some number →
      other ≠ conn ∧ desk.current other = some number := by
    intro other number current
    unfold Desk.enter at current
    dsimp only at current
    by_cases same : other = conn
    · subst same
      rw [Function.update_self] at current
      exact nomatch current
    · rw [Function.update_of_ne same] at current
      exact ⟨same, current⟩
  refine ⟨sound.live, sound.own, sound.once, ?_, ?_, ?_, ?_⟩
  · intro other number current
    exact sound.current other number (still other number current).2
  · intro other number told current
    obtain ⟨differs, known⟩ := still other number current
    exact sound.told other number ((Function.update_of_ne differs _ _).symm.trans told) known
  · intro holder other noted
    have differs : other ≠ conn := by
      rintro rfl
      exact silent holder noted
    obtain ⟨live, number, current, rest⟩ := sound.held holder other noted
    exact ⟨(Function.update_of_ne differs _ _).trans live, number,
      (Function.update_of_ne differs _ _).trans current, rest⟩
  · intro number other holder asked live waiting
    have differs : other ≠ conn := by
      rintro rfl
      exact new number holder asked
    obtain ⟨current, rest⟩ := sound.waits number other holder asked
      ((Function.update_of_ne differs _ _).symm.trans live) waiting
    exact ⟨(Function.update_of_ne differs _ _).trans current, rest⟩

/-- What an answer to a current question without one leaves of the others. -/
theorem answer (sound : desk.Sound) {number : Nat} (live : desk.live conn = true)
    (current : desk.current conn = some number) {left : Option Holder}
    (asked : desk.asked[number]? = some (conn, left)) (waiting : ¬ desk.Answered number)
    {slot : Holder → Option Conn}
    (rest : ∀ holder other, slot holder = some other ↔
      desk.slot holder = some other ∧ other ≠ conn) :
    Sound { desk.answer conn with slot := slot } := by
  have still : ∀ number, desk.Answered number →
      Answered { desk.answer conn with slot := slot } number := by
    rintro number ⟨answer, member, question⟩
    exact ⟨answer, List.mem_append_left _ member, question⟩
  have now : Answered { desk.answer conn with slot := slot } number :=
    ⟨_, List.mem_append_right _ List.mem_cons_self, current⟩
  refine ⟨?_, ?_, ?_, sound.current, ?_, ?_, ?_⟩
  · intro answer member
    rcases List.mem_append.mp member with earlier | last
    · exact sound.live answer earlier
    · cases List.mem_singleton.mp last
      exact live
  · intro answer member
    rcases List.mem_append.mp member with earlier | last
    · exact sound.own answer earlier
    · cases List.mem_singleton.mp last
      exact ⟨number, left, current, asked⟩
  · have distinct : (desk.answers.map Answer.question ++ [desk.current conn]).Nodup := by
      apply List.Nodup.append sound.once (List.nodup_singleton _)
      intro question member same
      obtain ⟨answer, known, questions⟩ := List.mem_map.mp member
      cases List.mem_singleton.mp same
      exact waiting ⟨answer, known, questions.trans current⟩
    change (List.map Answer.question (desk.answers ++ [_])).Nodup
    rw [List.map_append]
    exact distinct
  · intro other known told shows
    by_cases same : other = conn
    · subst same
      cases current.symm.trans shows
      exact now
    · exact still known (sound.told other known ((Function.update_of_ne same _ _).symm.trans told)
        shows)
  · intro holder other noted
    obtain ⟨before, differs⟩ := (rest holder other).mp noted
    obtain ⟨alive, known, shows, asks, waits⟩ := sound.held holder other before
    refine ⟨alive, known, shows, asks, ?_⟩
    rintro ⟨answer, member, question⟩
    rcases List.mem_append.mp member with earlier | last
    · exact waits ⟨answer, earlier, question⟩
    · cases List.mem_singleton.mp last
      cases current.symm.trans question
      cases asked.symm.trans asks
      exact differs rfl
  · intro known other holder asks alive waits
    obtain ⟨shows, found, same, noted⟩ := sound.waits known other holder asks alive
      fun answered => waits (still known answered)
    refine ⟨shows, found, same, (rest found other).mpr ⟨noted, ?_⟩⟩
    rintro rfl
    cases current.symm.trans shows
    exact waits now

/-- What a connection shows after one more question. -/
theorem ask_current (sound : desk.Sound) (left : Option Holder) (other : Conn) (number : Nat)
    (current : (desk.ask conn left).current other = some number) :
    ∃ holder, (desk.ask conn left).asked[number]? = some (other, holder) := by
  unfold Desk.ask at current
  dsimp only at current
  by_cases same : other = conn
  · subst same
    rw [Function.update_self] at current
    cases current
    exact ⟨left, List.getElem?_concat_length⟩
  · rw [Function.update_of_ne same] at current
    obtain ⟨holder, asked⟩ := sound.current other number current
    exact ⟨holder, getElem?_asked_append asked _⟩

/-- A question that is answered at once. -/
theorem reply (sound : desk.Sound) (live : desk.live conn = true)
    (silent : desk.current conn = none) (left : Option Holder) :
    ((desk.ask conn left).answer conn).Sound := by
  have current : (desk.ask conn left).current conn = some desk.asked.length :=
    Function.update_self _ _ _
  have now : ((desk.ask conn left).answer conn).Answered desk.asked.length :=
    ⟨_, List.mem_append_right _ List.mem_cons_self, current⟩
  have still : ∀ number, desk.Answered number →
      ((desk.ask conn left).answer conn).Answered number := by
    rintro number ⟨answer, member, question⟩
    exact ⟨answer, List.mem_append_left _ member, question⟩
  refine ⟨?_, ?_, ?_, sound.ask_current left, ?_, ?_, ?_⟩
  · intro answer member
    rcases List.mem_append.mp member with earlier | last
    · exact sound.live answer earlier
    · cases List.mem_singleton.mp last
      exact live
  · intro answer member
    rcases List.mem_append.mp member with earlier | last
    · obtain ⟨number, holder, question, asked⟩ := sound.own answer earlier
      exact ⟨number, holder, question, getElem?_asked_append asked _⟩
    · cases List.mem_singleton.mp last
      exact ⟨desk.asked.length, left, current, List.getElem?_concat_length⟩
  · have distinct : (desk.answers.map Answer.question ++ [some desk.asked.length]).Nodup := by
      apply List.Nodup.append sound.once (List.nodup_singleton _)
      intro question member same
      obtain ⟨answer, known, questions⟩ := List.mem_map.mp member
      cases List.mem_singleton.mp same
      exact not_answered_length sound ⟨answer, known, questions⟩
    rw [← current] at distinct
    change (List.map Answer.question (desk.answers ++ [_])).Nodup
    rw [List.map_append]
    exact distinct
  · intro other number told shows
    by_cases same : other = conn
    · subst same
      cases current.symm.trans shows
      exact now
    · have told : desk.told other = true :=
        ((Function.update_of_ne same _ _).trans (Function.update_of_ne same _ _)).symm.trans told
      exact still number (sound.told other number told
        ((Function.update_of_ne same _ _).symm.trans shows))
  · intro holder other noted
    have differs : other ≠ conn := by
      rintro rfl
      exact sound.not_held silent holder noted
    obtain ⟨alive, number, shows, asked, waiting⟩ := sound.held holder other noted
    refine ⟨alive, number, (Function.update_of_ne differs _ _).trans shows,
      getElem?_asked_append asked _, ?_⟩
    rintro ⟨answer, member, question⟩
    rcases List.mem_append.mp member with earlier | last
    · exact waiting ⟨answer, earlier, question⟩
    · cases List.mem_singleton.mp last
      cases current.symm.trans question
      obtain ⟨less, -⟩ := List.getElem?_eq_some_iff.mp asked
      exact Nat.lt_irrefl _ less
  · intro number other holder asked alive waiting
    rcases asked_concat asked with before | ⟨rfl, -⟩
    · have differs : other ≠ conn := by
        rintro rfl
        exact waiting (still number (sound.answered live silent before))
      obtain ⟨shows, rest⟩ := sound.waits number other holder before alive fun answered =>
        waiting (still number answered)
      exact ⟨(Function.update_of_ne differs _ _).trans shows, rest⟩
    · exact absurd now waiting

/-- The answer to the current question of a connection has arrived. -/
theorem clear (sound : desk.Sound) (told : desk.told conn = true) : (desk.clear conn).Sound := by
  have silent : ∀ number, desk.current conn = some number → desk.Answered number :=
    fun number current => sound.told conn number told current
  have still : ∀ other number, (desk.clear conn).current other = some number →
      other ≠ conn ∧ desk.current other = some number := by
    intro other number current
    unfold Desk.clear at current
    dsimp only at current
    by_cases same : other = conn
    · subst same
      rw [Function.update_self] at current
      exact nomatch current
    · rw [Function.update_of_ne same] at current
      exact ⟨same, current⟩
  refine ⟨sound.live, sound.own, sound.once, ?_, ?_, ?_, ?_⟩
  · intro other number current
    exact sound.current other number (still other number current).2
  · intro other number tells current
    obtain ⟨differs, known⟩ := still other number current
    exact sound.told other number ((Function.update_of_ne differs _ _).symm.trans tells) known
  · intro holder other noted
    obtain ⟨live, number, current, asked, waiting⟩ := sound.held holder other noted
    have differs : other ≠ conn := by
      rintro rfl
      exact waiting (silent number current)
    exact ⟨live, number, (Function.update_of_ne differs _ _).trans current, asked, waiting⟩
  · intro number other holder asked live waiting
    obtain ⟨current, rest⟩ := sound.waits number other holder asked live waiting
    have differs : other ≠ conn := by
      rintro rfl
      exact waiting (silent number current)
    exact ⟨(Function.update_of_ne differs _ _).trans current, rest⟩

/-- A connection is closed and no holder notes it any more. -/
theorem leave (sound : desk.Sound) {slot : Holder → Option Conn}
    (rest : ∀ holder other, slot holder = some other ↔
      desk.slot holder = some other ∧ other ≠ conn) : (desk.leave conn slot).Sound := by
  refine ⟨sound.live, sound.own, sound.once, sound.current, sound.told, ?_, ?_⟩
  · intro holder other noted
    obtain ⟨before, differs⟩ := (rest holder other).mp noted
    obtain ⟨live, more⟩ := sound.held holder other before
    exact ⟨(Function.update_of_ne differs _ _).trans live, more⟩
  · intro number other holder asked live waiting
    have differs : other ≠ conn := by
      rintro rfl
      unfold Desk.leave at live
      dsimp only at live
      rw [Function.update_self] at live
      exact nomatch live
    obtain ⟨current, known, same, noted⟩ := sound.waits number other holder asked
      ((Function.update_of_ne differs _ _).symm.trans live) waiting
    exact ⟨current, known, same, (rest known other).mpr ⟨noted, differs⟩⟩

variable [DecidableEq Holder]

/-- A holder answers, and owes nobody an answer any more. -/
theorem settle (sound : desk.Sound) (holder : Holder) : (desk.settle holder).Sound := by
  unfold Desk.settle
  split
  · next conn noted =>
      obtain ⟨live, number, current, asked, waiting⟩ := sound.held holder conn noted
      apply sound.answer live current asked waiting
      intro other known
      by_cases same : other = holder
      · subst same
        rw [Function.update_self]
        constructor
        · exact nofun
        · rintro ⟨notes, differs⟩
          cases noted.symm.trans notes
          exact absurd rfl differs
      · change Function.update desk.slot holder none other = some known ↔ _
        rw [Function.update_of_ne same]
        constructor
        · intro notes
          refine ⟨notes, ?_⟩
          rintro rfl
          exact same (sound.slot_inj noted notes)
        · exact And.left
  · exact sound

/-- A question that is left with a holder who owes nobody an answer. -/
theorem entrust (sound : desk.Sound) (live : desk.live conn = true)
    (silent : desk.current conn = none) (free : desk.slot holder = none) :
    ((desk.ask conn (some holder)).note holder (some conn)).Sound := by
  have current : (desk.ask conn (some holder)).current conn = some desk.asked.length :=
    Function.update_self _ _ _
  refine ⟨sound.live, ?_, sound.once, sound.ask_current _, ?_, ?_, ?_⟩
  · intro answer member
    obtain ⟨number, holder, question, asked⟩ := sound.own answer member
    exact ⟨number, holder, question, getElem?_asked_append asked _⟩
  · intro other number told shows
    by_cases same : other = conn
    · subst same
      unfold Desk.ask Desk.note at told
      dsimp only at told
      rw [Function.update_self] at told
      exact nomatch told
    · exact sound.told other number ((Function.update_of_ne same _ _).symm.trans told)
        ((Function.update_of_ne same _ _).symm.trans shows)
  · intro known other noted
    by_cases same : known = holder
    · subst same
      unfold Desk.ask Desk.note at noted
      dsimp only at noted
      rw [Function.update_self] at noted
      cases noted
      exact ⟨live, desk.asked.length, current, List.getElem?_concat_length,
        not_answered_length sound⟩
    · have before : desk.slot known = some other :=
        (Function.update_of_ne same _ _).symm.trans noted
      have differs : other ≠ conn := by
        rintro rfl
        exact sound.not_held silent known before
      obtain ⟨alive, number, shows, asked, waiting⟩ := sound.held known other before
      exact ⟨alive, number, (Function.update_of_ne differs _ _).trans shows,
        getElem?_asked_append asked _, waiting⟩
  · intro number other left asked alive waiting
    rcases asked_concat asked with before | ⟨rfl, new⟩
    · have differs : other ≠ conn := by
        rintro rfl
        exact waiting (sound.answered live silent before)
      obtain ⟨shows, known, same, noted⟩ := sound.waits number other left before alive waiting
      have elsewhere : known ≠ holder := by
        rintro rfl
        exact nomatch free.symm.trans noted
      exact ⟨(Function.update_of_ne differs _ _).trans shows, known, same,
        (Function.update_of_ne elsewhere _ _).trans noted⟩
    · cases new
      exact ⟨current, holder, rfl, Function.update_self _ _ _⟩

end Sound

end Desk
