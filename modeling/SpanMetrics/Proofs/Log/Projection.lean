import Mathlib
import SpanMetrics.Log.Subscriber

/-!
# What a subscriber writes

A text comes about in two ways: a subscriber writes it event by event while spans are
entered and left, and `render` reads it off the events afterwards, each of which knows the
spans around it. `Subscriber.text_new` says that both give the same text.

A reader sees of an event what a more verbose reader sees of it, without the spans that
are beyond its own level, and it sees no event that the other one does not see. For this
a text is said in parts: a line has segments, one for each span, between its head and its
body. Reading at a lower level leaves lines out and leaves segments out, and touches
nothing else of what the other reader has (`text_projects`).
-/
namespace SpanMetrics.Log

/-! ## One subscriber -/

/-- The open spans of a reader, of all that were entered. -/
def Scope.of (limit : Level) : List Span → Scope
  | [] => .root
  | span :: entered =>
    if limit.shows span.level then .child (of limit entered) span else of limit entered

/-- Where leaving leads back to. -/
def Scope.behind (limit : Level) : List Span → List Scope
  | [] => []
  | _ :: entered => of limit entered :: behind limit entered

theorem write_of (limit : Level) (entered : List Span) :
    (Scope.of limit entered).write =
      String.join ((entered.reverse.filter (limit.shows ·.level)).map Span.render) := by
  induction entered with
  | nil => rfl
  | cons span entered ih =>
    rw [Scope.of, List.reverse_cons, List.filter_append, List.map_append, String.join_append,
      List.filter_singleton, ← ih]
    cases limit.shows span.level
    · exact (String.append_empty).symm
    · rw [if_pos rfl, Scope.write, cond_true, List.map_singleton, String.join_cons,
        String.join_nil, String.append_empty]

/-- A subscriber in some spans, of which it has opened those that its reader sees. -/
structure Subscriber.Inside (entered : List Span) (s : Subscriber) : Prop where
  current : s.current = .of s.limit entered
  outer : s.outer = Scope.behind s.limit entered

namespace Subscriber

variable {entered : List Span} {s : Subscriber}

theorem inside_new (limit : Level) : Inside [] (new limit) := ⟨rfl, rfl⟩

theorem Inside.enter (h : Inside entered s) (span : Span) :
    Inside (span :: entered) (s.enter span) := by
  constructor
  · show (if s.limit.shows span.level then _ else s.current) = Scope.of s.limit (span :: entered)
    rw [h.current, Scope.of]
  · show s.current :: s.outer = Scope.behind s.limit (span :: entered)
    rw [h.current, h.outer, Scope.behind]

theorem Inside.leave (h : Inside entered s) : Inside entered.tail s.leave := by
  cases entered with
  | nil =>
    have hleave : s.leave = s := by rw [Subscriber.leave, h.outer, Scope.behind]
    rw [hleave]
    exact h
  | cons span entered =>
    have hleave : s.leave =
        { s with current := .of s.limit entered, outer := Scope.behind s.limit entered } := by
      rw [Subscriber.leave, h.outer, Scope.behind]
    rw [hleave]
    exact ⟨rfl, rfl⟩

/-- An event is written as the line that its reader sees of it in these spans, and the
subscriber stays in them. -/
theorem Inside.event (h : Inside entered s) (e : Event) (he : e.scope = entered.reverse) :
    (s.write e.level e.body).text = s.text ++ render s.limit [e] ∧
      Inside entered (s.write e.level e.body) := by
  have hline : "APM_METRICS | " ++ e.level.name ++ " | " ++ s.current.write ++ e.body ++ "\n" =
      e.line s.limit := by
    unfold Event.line
    rw [h.current, write_of, he]
  unfold write
  rw [render, List.filter_singleton]
  cases s.limit.shows e.level
  · exact ⟨(String.append_empty).symm, h⟩
  · rw [if_pos rfl, cond_true, List.map_singleton, String.join_cons, String.join_nil,
      String.append_empty, hline]
    exact ⟨rfl, h.current, h.outer⟩

theorem render_append (limit : Level) (events more : List Event) :
    render limit (events ++ more) = render limit events ++ render limit more := by
  rw [render, List.filter_append, List.map_append, String.join_append]
  rfl

/-- A subscriber writes what its reader sees of the events, each in the spans around it. -/
theorem Inside.text_takeAll (h : Inside entered s) (reports : List Report) :
    (s.takeAll reports).text = s.text ++ render s.limit (Report.events entered reports) := by
  induction reports generalizing entered s with
  | nil => exact (String.append_empty).symm
  | cons report reports ih =>
    rw [takeAll, List.foldl_cons, ← takeAll]
    cases report with
    | enter span => rw [take, ih (h.enter span), limit_enter, text_enter, Report.events]
    | leave => rw [take, ih h.leave, limit_leave, text_leave, Report.events]
    | event level message fields =>
      obtain ⟨htext, hinside⟩ := h.event ⟨level, message, fields, entered.reverse⟩ rfl
      have hrest := ih hinside
      rw [limit_write, htext, String.append_assoc, ← render_append, List.singleton_append] at hrest
      rw [Report.events]
      exact hrest

/-- Whatever is reported, the text that is written while it is reported is the text that
`render` gives of the events afterwards, with as many `leave`s as there may be. -/
theorem text_new (limit : Level) (reports : List Report) :
    ((new limit).takeAll reports).text = render limit (Report.events [] reports) := by
  rw [(inside_new limit).text_takeAll]
  exact String.empty_append

end Subscriber

/-! ## Lines in parts -/

/-- A line whose segments are known with the levels of their spans. -/
structure Line where
  level : Level
  segments : List (Level × String)
  body : String
deriving DecidableEq, Repr

namespace Line

def text (l : Line) : String :=
  "APM_METRICS | " ++ l.level.name ++ " | " ++ String.join (l.segments.map (·.2)) ++ l.body ++ "\n"

/-- The line without the segments beyond a level. -/
def without (limit : Level) (l : Line) : Line :=
  { l with segments := l.segments.filter (limit.shows ·.1) }

end Line

/-- The line of an event for a reader. -/
def Event.parts (limit : Level) (e : Event) : Line :=
  ⟨e.level, (e.scope.filter (limit.shows ·.level)).map fun span => (span.level, span.render), e.body⟩

/-- The lines of events for a reader. -/
def linesFor (limit : Level) (events : List Event) : List Line :=
  (events.filter (limit.shows ·.level)).map (Event.parts limit)

/-- A line without some segments has the characters of the line, some of them left out. -/
theorem sublist_without (limit : Level) (l : Line) :
    (l.without limit).text.toList.Sublist l.text.toList := by
  have hsegments : ((l.segments.filter (limit.shows ·.1)).map (·.2)).Sublist
      (l.segments.map (·.2)) := List.filter_sublist.map _
  unfold Line.text Line.without
  simp only [String.toList_append, String.toList_join]
  exact (((List.Sublist.refl _).append (hsegments.flatMap _)).append_right _).append_right _

theorem sublist_join_without (limit : Level) (lines : List Line) :
    (String.join
      (((lines.filter (limit.shows ·.level)).map (Line.without limit)).map Line.text)).toList.Sublist
        (String.join (lines.map Line.text)).toList := by
  induction lines with
  | nil => exact List.Sublist.refl _
  | cons l lines ih =>
    rw [List.map_cons, String.join_cons, String.toList_append, List.filter_cons]
    split
    · rw [List.map_cons, List.map_cons, String.join_cons, String.toList_append]
      exact (sublist_without limit l).append ih
    · exact ih.trans (List.sublist_append_right _ _)

theorem text_parts (limit : Level) (e : Event) : (e.parts limit).text = e.line limit := by
  have hsegments : (e.parts limit).segments.map (·.2) =
      (e.scope.filter (limit.shows ·.level)).map Span.render := by
    rw [Event.parts, List.map_map]
    rfl
  unfold Line.text Event.line
  rw [hsegments, Event.parts]

theorem render_eq_join (limit : Level) (events : List Event) :
    render limit events = String.join ((linesFor limit events).map Line.text) := by
  rw [render, linesFor, List.map_map]
  exact congrArg (fun f => String.join (List.map f _)) (funext fun e => (text_parts limit e).symm)

/-! ## Two levels -/

section

variable {limit wider : Level}

theorem Level.shows_of_shows (h : limit.verbosity ≤ wider.verbosity) {level : Level}
    (hs : limit.shows level) : wider.shows level := by
  unfold Level.shows at hs ⊢
  rw [decide_eq_true_eq] at hs ⊢
  exact hs.trans h

/-- What the less verbose reader sees is all among what the other one sees. -/
theorem filter_shows (h : limit.verbosity ≤ wider.verbosity) {α : Type} (level : α → Level)
    (items : List α) :
    (items.filter (wider.shows <| level ·)).filter (limit.shows <| level ·) =
      items.filter (limit.shows <| level ·) := by
  rw [List.filter_filter]
  refine List.filter_congr fun a _ => ?_
  cases hs : limit.shows (level a)
  · rfl
  · exact Level.shows_of_shows h hs

theorem without_parts (h : limit.verbosity ≤ wider.verbosity) (e : Event) :
    (e.parts wider).without limit = e.parts limit := by
  rw [Line.without, Event.parts, Event.parts, List.filter_map]
  exact congrArg (fun spans => Line.mk e.level (List.map _ spans) e.body)
    (filter_shows h Span.level e.scope)

theorem linesFor_eq (h : limit.verbosity ≤ wider.verbosity) (events : List Event) :
    linesFor limit events =
      ((linesFor wider events).filter (limit.shows ·.level)).map (Line.without limit) := by
  rw [linesFor, linesFor, List.filter_map, List.map_map, ← filter_shows h Event.level events]
  exact List.map_congr_left fun e _ => (without_parts h e).symm

end

/-! ## Readers at two levels -/

/-- What a reader has of some reports is what a more verbose reader has of them, without the
lines of the events beyond its level and without the segments of the spans beyond it. What is
left stands in the same order, and nothing in it is changed. -/
theorem text_projects {limit wider : Level} (h : limit.verbosity ≤ wider.verbosity)
    (reports : List Report) :
    let lines := linesFor wider (Report.events [] reports)
    ((Subscriber.new wider).takeAll reports).text = String.join (lines.map Line.text) ∧
    ((Subscriber.new limit).takeAll reports).text =
      String.join (((lines.filter (limit.shows ·.level)).map (Line.without limit)).map Line.text) ∧
    ((Subscriber.new limit).takeAll reports).text.toList.Sublist
      ((Subscriber.new wider).takeAll reports).text.toList := by
  intro lines
  have hwider : ((Subscriber.new wider).takeAll reports).text = String.join (lines.map Line.text) := by
    rw [Subscriber.text_new, render_eq_join]
  have hlimit : ((Subscriber.new limit).takeAll reports).text =
      String.join (((lines.filter (limit.shows ·.level)).map (Line.without limit)).map Line.text) := by
    rw [Subscriber.text_new, render_eq_join, linesFor_eq h]
  refine ⟨hwider, hlimit, ?_⟩
  rw [hwider, hlimit]
  exact sublist_join_without limit lines

/-- A span that is kept stands inside one that is left out, and the last event in no span; a
report too many leaves nothing. -/
theorem text_projects_of_nested :
    let reports : List Report := [.enter ⟨.info, "flush", [⟨"cycle", .number 3⟩]⟩,
      .enter ⟨.debug, "detail", [⟨"n", .number 1⟩]⟩, .enter ⟨.info, "plain", []⟩,
      .event .warn (some "full") [⟨"dropped", .number 2⟩], .leave,
      .event .debug (some "hidden") [], .leave, .leave, .leave,
      .event .info none [⟨"flag", .flag true⟩]]
    let lines := linesFor .trace (Report.events [] reports)
    Level.info.verbosity ≤ Level.trace.verbosity ∧
      String.join (lines.map Line.text) =
        "APM_METRICS | WARN | flush\x7bcycle=3\x7d: detail\x7bn=1\x7d: plain: full dropped=2\n" ++
        "APM_METRICS | DEBUG | flush\x7bcycle=3\x7d: detail\x7bn=1\x7d: hidden\n" ++
        "APM_METRICS | INFO | flag=true\n" ∧
      String.join (((lines.filter (Level.info.shows ·.level)).map (Line.without .info)).map
        Line.text) =
        "APM_METRICS | WARN | flush\x7bcycle=3\x7d: plain: full dropped=2\n" ++
        "APM_METRICS | INFO | flag=true\n" := by
  intro reports lines
  have hle : Level.info.verbosity ≤ Level.trace.verbosity := by decide
  obtain ⟨htrace, hinfo, -⟩ := text_projects hle reports
  refine ⟨hle, htrace.symm.trans ?_, hinfo.symm.trans ?_⟩ <;> decide +kernel

end SpanMetrics.Log
