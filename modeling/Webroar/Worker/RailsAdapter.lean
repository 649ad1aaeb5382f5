import Webroar.Head.Routing

/-! # The path as the Rails adapter splits it

The head chooses the application of a request by the hash of its first path segment. The adapter
in the worker splits the path again: it makes the base URI a regular expression, takes what that
matches for the script name and what is behind the match for the path info. Nothing ties the
expression to the start of the path or takes the special meaning off its characters, and a request
without a path has nothing to match.

Ruby's regular expressions are a parameter. An application whose base URI is none does not load,
so nothing is routed to it.
-/

namespace RailsAdapter

open Resolver

/-- What a match leaves: the text before it, its own, and the text behind it. -/
structure Match where
  before : List UInt8
  matched : List UInt8
  after : List UInt8
deriving DecidableEq

/-- The first match of a source in a text. -/
abbrev Regexp := List UInt8 → List UInt8 → Option Match

/-- The characters that the admin panel takes in a base URI; none has a special meaning. -/
def isPlain (c : UInt8) : Bool :=
  (65 ≤ c && c ≤ 90) || (97 ≤ c && c ≤ 122) || (48 ≤ c && c ≤ 57) ||
    c = 95 || c = 45 || c = slash

/-- A source that stands for itself. -/
def Plain (source : List UInt8) : Prop := ∀ c ∈ source, isPlain c = true

/-- A source of plain characters at the front of a text is matched there. -/
def FindsPlain (regexp : Regexp) : Prop :=
  ∀ source text, Plain source → source <+: text →
    regexp source text = some ⟨[], source, text.drop source.length⟩

/-- The base URI as the head sends it to a worker. -/
def resolver (conf : AppConf) : List UInt8 := conf.baseuri.elim [] fun uri => uri.1.1

/-- The prefix the worker loads the adapter with. -/
def optionPrefix (conf : AppConf) : List UInt8 :=
  if 1 < (resolver conf).length then resolver conf else []

/-- The script name and the path info the adapter sets. Without a match it raises. -/
def call (regexp : Regexp) (source : List UInt8) (requestPath : Option (List UInt8)) :
    Option (List UInt8 × List UInt8) :=
  (requestPath.bind (regexp source)).map fun found => (found.matched, found.after)

/-- The script name an application should see: its base URI, and nothing for `/` or when it is
chosen by its host. -/
def scriptName (conf : AppConf) : List UInt8 :=
  conf.baseuri.elim [] fun uri => if uri = rootUri then [] else uri.1.1

/-- The adapter splits the path of a request as the head means it: it matches at the start, the
script name is the base URI, and both parts together are the path. -/
def Splits (regexp : Regexp) (conf : AppConf) (path : Option (List UInt8)) : Prop :=
  ∃ text found, path = some text ∧ regexp (optionPrefix conf) text = some found ∧
    found.before = [] ∧
    ∃ pathInfo, call regexp (optionPrefix conf) path = some (scriptName conf, pathInfo) ∧
      scriptName conf ++ pathInfo = text

/-- The request has a path, and a base URI other than `/` has more than one character and is at
the front of the path, where it is found as a regular expression, as plain characters are. -/
def Agrees (regexp : Regexp) (conf : AppConf) (path : Option (List UInt8)) : Prop :=
  ∃ text, path = some text ∧ ∀ uri, conf.baseuri = some uri → uri ≠ rootUri →
    1 < uri.1.1.length ∧ uri.1.1 <+: text ∧
      (Plain uri.1.1 ∨ regexp uri.1.1 text = some ⟨[], uri.1.1, text.drop uri.1.1.length⟩)

variable {regexp : Regexp} {conf : AppConf} {path : Option (List UInt8)}

theorem plain_nil : Plain [] := nofun

/-- The adapter splits a path whose start the expression finds as the script name. -/
theorem splits_of_found {text : List UInt8} (found : scriptName conf <+: text)
    (same : optionPrefix conf = scriptName conf)
    (finds : regexp (scriptName conf) text =
      some ⟨[], scriptName conf, text.drop (scriptName conf).length⟩) :
    Splits regexp conf (some text) := by
  rw [← same] at finds
  refine ⟨text, _, rfl, finds, rfl, text.drop (scriptName conf).length, ?_, ?_⟩
  · rw [call, Option.bind_some, finds, same]
    rfl
  · obtain ⟨rest, rfl⟩ := found
    rw [List.drop_left]

/-- A base URI other than `/` that the head sends as more than one character is the script name. -/
theorem scriptName_of_uri {uri : Uri} (given : conf.baseuri = some uri) (other : uri ≠ rootUri) :
    scriptName conf = uri.1.1 ∧ (1 < uri.1.1.length → optionPrefix conf = uri.1.1) ∧
      (¬ 1 < uri.1.1.length → optionPrefix conf = []) := by
  have sent : resolver conf = uri.1.1 := by rw [resolver, given, Option.elim_some]
  refine ⟨?_, fun long => ?_, fun short => ?_⟩
  · rw [scriptName, given, Option.elim_some, if_neg other]
  · rw [optionPrefix, sent, if_pos long]
  · rw [optionPrefix, sent, if_neg short]

/-- For `/`, and for an application that is chosen by its host, nothing is matched. -/
theorem scriptName_of_root (root : ∀ uri, conf.baseuri = some uri → uri = rootUri) :
    scriptName conf = [] ∧ optionPrefix conf = [] := by
  cases given : conf.baseuri with
  | none =>
      have sent : resolver conf = [] := by rw [resolver, given, Option.elim_none]
      exact ⟨by rw [scriptName, given, Option.elim_none], by rw [optionPrefix, sent]; rfl⟩
  | some uri =>
      have same := root uri given
      subst same
      have sent : resolver conf = [slash] := by rw [resolver, given]; rfl
      exact ⟨by rw [scriptName, given, Option.elim_some, if_pos rfl],
        by rw [optionPrefix, sent]; rfl⟩

/-- The adapter splits the path of a request as the head means it exactly when the request has a
path that the base URI, read as a regular expression, begins. -/
theorem splits_iff (regexp : Regexp) (finds : FindsPlain regexp) (conf : AppConf)
    (path : Option (List UInt8)) : Splits regexp conf path ↔ Agrees regexp conf path := by
  constructor
  · rintro ⟨text, found, rfl, matched, start, pathInfo, called, whole⟩
    refine ⟨text, rfl, fun uri given other => ?_⟩
    obtain ⟨named, long, short⟩ := scriptName_of_uri given other
    rw [call, Option.bind_some, matched, Option.map_some, Option.some.injEq, Prod.mk.injEq] at called
    obtain ⟨script, rest⟩ := called
    rw [named] at script whole
    have enough : 1 < uri.1.1.length := by
      by_contra few
      rw [short few, finds [] text plain_nil List.nil_prefix, Option.some.injEq] at matched
      rw [← matched] at script
      exact uri.2 script.symm
    have behind : text.drop uri.1.1.length = pathInfo := by rw [← whole, List.drop_left]
    refine ⟨enough, ⟨pathInfo, whole⟩, Or.inr ?_⟩
    rw [long enough] at matched
    obtain ⟨before, own, after⟩ := found
    simp only at start script rest
    rw [matched, start, script, rest, behind]
  · rintro ⟨text, rfl, agrees⟩
    by_cases root : ∀ uri, conf.baseuri = some uri → uri = rootUri
    · obtain ⟨named, empty⟩ := scriptName_of_root root
      refine splits_of_found ?_ (empty.trans named.symm) ?_
      · rw [named]
        exact List.nil_prefix
      · rw [named]
        exact finds [] text plain_nil List.nil_prefix
    · push Not at root
      obtain ⟨uri, given, other⟩ := root
      obtain ⟨enough, front, plain⟩ := agrees uri given other
      obtain ⟨named, long, -⟩ := scriptName_of_uri given other
      refine splits_of_found ?_ ((long enough).trans named.symm) ?_
      · rw [named]
        exact front
      · rw [named]
        rcases plain with plain | found
        · exact finds uri.1.1 text plain front
        · exact found

/-- Where the head routes exactly, the adapter splits what is routed to a plain base URI. -/
theorem splits_of_exact {α : Type} {regs : List (Registration α)} {httpHost : Option (List UInt8)}
    {reg : Registration α} {uri : Uri} (finds : FindsPlain regexp)
    (exact' : Exact regs path httpHost) (member : reg ∈ regs)
    (given : reg.conf.baseuri = some uri) (other : uri ≠ rootUri) (plain : Plain uri.1.1)
    (long : 1 < uri.1.1.length)
    (routed : (Server.register regs).select path httpHost = some reg.app) :
    Splits regexp reg.conf path := by
  obtain ⟨text, rfl, under⟩ := (exact'.under reg member uri given other).mp routed
  refine (splits_iff regexp finds reg.conf (some text)).mpr ⟨text, rfl, fun uri' given' _ => ?_⟩
  rw [given, Option.some.injEq] at given'
  subst given'
  refine ⟨long, ?_, Or.inl plain⟩
  rcases under with whole | continued
  · exact ⟨[], by rw [whole, List.append_nil]⟩
  · exact List.IsPrefix.trans (List.prefix_append _ _) continued

/-- The first place of a text in another one, which is what a regular expression of plain
characters matches. -/
def literal (source : List UInt8) : List UInt8 → Option Match
  | [] => if source = [] then some ⟨[], [], []⟩ else none
  | c :: rest =>
      if source <+: c :: rest then some ⟨[], source, (c :: rest).drop source.length⟩
      else (literal source rest).map fun found => { found with before := c :: found.before }

theorem findsPlain_literal : FindsPlain literal := by
  intro source text _ front
  cases text with
  | nil =>
      obtain rfl := List.prefix_nil.mp front
      rfl
  | cons c rest => rw [literal, if_pos front]

theorem noNul_name : (0 : UInt8) ∉ ascii "app" := by decide

/-- An application under `/aT`. -/
def sampleConf : AppConf where
  name := ⟨ascii "app", noNul_name⟩
  baseuri := some ⟨⟨ascii "/aT", by decide⟩, by decide⟩
  hostNameList := []

theorem splits_iff_sample :
    FindsPlain literal ∧
      (Splits literal sampleConf (some (ascii "/aT/x")) ↔
        Agrees literal sampleConf (some (ascii "/aT/x"))) :=
  ⟨findsPlain_literal, splits_iff literal findsPlain_literal sampleConf (some (ascii "/aT/x"))⟩

/-- The segments `aT` and `b3` have the same hash, so the head sends `/b3` to the application
under `/aT`, where the adapter finds no match. -/
theorem not_splits :
    ¬ ∀ (regs : List (Registration Nat)) (path httpHost : Option (List UInt8)),
      ∀ reg ∈ regs, (Server.register regs).select path httpHost = some reg.app →
        Splits literal reg.conf path := by
  intro splits
  have routed : (Server.register [⟨0, sampleConf⟩]).select (some (ascii "/b3")) none = some 0 := by
    decide +kernel
  obtain ⟨text, found, same, matched, -⟩ :=
    splits [⟨0, sampleConf⟩] (some (ascii "/b3")) none ⟨0, sampleConf⟩
      (List.mem_singleton.mpr rfl) routed
  rw [← Option.some.inj same] at matched
  have nothing : literal (optionPrefix sampleConf) (ascii "/b3") = none := by decide +kernel
  rw [nothing] at matched
  cases matched

end RailsAdapter
