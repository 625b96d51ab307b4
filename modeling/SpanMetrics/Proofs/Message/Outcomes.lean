import SpanMetrics.Message.Encoding
import SpanMetrics.Proofs.Message.Snapshot

/-!
# What becomes of each histogram

The documents, the outcomes and the log grow side by side while the entries are gone
through. What one entry adds to the three depends on that entry alone, so after any
entries each of the three is the list of what they added.
-/
namespace SpanMetrics

open Bson (Value)

theorem Logged.events_mapM {α β : Type} (f : α → Logged β) (items : List α) :
    (items.mapM f).events = items.flatMap fun a => (f a).events := by
  induction items with
  | nil => rfl
  | cons a items ih =>
    rw [List.mapM_cons, events_bind, events_bind, ih, events_pure, List.append_nil,
      List.flatMap_cons]

namespace Message

theorem filterMap_cons_toList {α β : Type} (f : α → Option β) (a : α) (items : List α) :
    (a :: items).filterMap f = (f a).toList ++ items.filterMap f := by
  cases h : f a with
  | none => rw [List.filterMap_cons_none h, Option.toList_none, List.nil_append]
  | some b => rw [List.filterMap_cons_some h, Option.toList_some, List.singleton_append]

namespace Encoder

variable {α : Type} (E : Encoder α)

/-- What becomes of an entry is what the encoder says of it, under its own name. -/
inductive Settles (e : α) : EntryOutcome → Prop
  | encoded {wire : String} (h : E.encode e = .ok wire) : Settles e (.encoded (E.name e))
  | omitted {cause : HistogramError} (h : E.encode e = .error cause) :
      Settles e (.omitted (E.name e) cause)

/-! ## What one entry adds -/

/-- The document of an entry, if it has a wire form. -/
def document? (e : α) : Option Value := (E.encode e).toOption.map (E.document e)

def outcome (e : α) : EntryOutcome :=
  match E.encode e with
  | .ok _ => .encoded (E.name e)
  | .error cause => .omitted (E.name e) cause

/-- What is logged of an entry, if it has no wire form. -/
def notice? (e : α) : Option Log.Event :=
  match E.encode e with
  | .ok _ => none
  | .error cause =>
    some (.say .error ("Failed to encode histogram '" ++ E.name e ++ "': " ++ cause.message))

theorem settles_outcome (e : α) : E.Settles e (E.outcome e) := by
  unfold outcome
  split
  · next h => exact .encoded h
  · next h => exact .omitted h

theorem isEncoded_outcome (e : α) : (E.outcome e).isEncoded = (E.document? e).isSome := by
  unfold outcome document?
  cases E.encode e <;> rfl

theorem isSome_document? (e : α) : (E.document? e).isSome = (E.encode e).isOk := by
  unfold document?
  cases E.encode e <;> rfl

theorem isSome_notice? (e : α) : (E.notice? e).isSome = !(E.encode e).isOk := by
  unfold notice?
  cases E.encode e <;> rfl

theorem document?_eq_some_iff (e : α) (d : Value) :
    E.document? e = some d ↔ ∃ wire, E.encode e = .ok wire ∧ d = E.document e wire := by
  unfold document?
  cases E.encode e <;> simp [Except.toOption, eq_comm]

theorem notice?_eq_some_iff (e : α) (event : Log.Event) :
    E.notice? e = some event ↔ ∃ cause, E.encode e = .error cause ∧
      event = .say .error
        ("Failed to encode histogram '" ++ E.name e ++ "': " ++ cause.message) := by
  unfold notice?
  cases E.encode e <;> simp [eq_comm]

theorem add_eq (done : List Value × List EntryOutcome) (e : α) :
    E.add done e = ⟨(done.1 ++ (E.document? e).toList, done.2 ++ [E.outcome e]),
      (E.notice? e).toList⟩ := by
  unfold add document? outcome notice?
  cases E.encode e with
  | ok wire => rfl
  | error cause => exact Logged.ext (Prod.ext (List.append_nil _).symm rfl) rfl

/-! ## What all entries add -/

theorem foldlM_add (done : List Value × List EntryOutcome) (entries : List α) :
    entries.foldlM E.add done = ⟨(done.1 ++ entries.filterMap E.document?,
      done.2 ++ entries.map E.outcome), entries.filterMap E.notice?⟩ := by
  induction entries generalizing done with
  | nil => exact Logged.ext (Prod.ext (List.append_nil _).symm (List.append_nil _).symm) rfl
  | cons e entries ih =>
    rw [List.foldlM_cons]
    apply Logged.ext
    · rw [Logged.value_bind, add_eq, ih, List.append_assoc, List.append_assoc,
        ← filterMap_cons_toList]
      rfl
    · rw [Logged.events_bind, add_eq, ih, ← filterMap_cons_toList]

theorem encodeAll_eq (entries : List α) :
    E.encodeAll entries = ⟨(entries.filterMap E.document?, entries.map E.outcome),
      entries.filterMap E.notice?⟩ :=
  E.foldlM_add ([], []) entries

/-- The entries that are left out add no document. -/
theorem filterMap_document?_filter (entries : List α) :
    (entries.filter (E.encode · |>.isOk)).filterMap E.document? =
      entries.filterMap E.document? := by
  rw [List.filterMap_filter]
  refine List.filterMap_congr fun e _ => ?_
  rw [← isSome_document?]
  cases E.document? e <;> rfl

theorem length_add_omitted (entries : List α) (message : Bytes) :
    (entries.filterMap E.document?).length +
      (Snapshot.mk message (entries.map E.outcome)).omitted = entries.length := by
  have ho : (Snapshot.mk message (entries.map E.outcome)).omitted =
      entries.countP fun e => ¬(E.document? e).isSome := by
    rw [Snapshot.omitted, List.countP_map]
    exact List.countP_congr fun e _ => by simp [isEncoded_outcome]
  rw [ho, List.length_filterMap_eq_countP]
  exact (List.length_eq_countP_add_countP _).symm

/-- The histograms of a cycle are encoded in this way. -/
theorem encodeHistograms_eq (encode : HistogramEntry → Except HistogramError String)
    (entries : List HistogramEntry) :
    encodeHistograms encode entries = (ofHistograms encode).encodeAll entries := by
  rw [encodeAll_eq]
  refine Logged.ext (value_encodeHistograms encode entries) ?_
  have he : ∀ e, (encodeHistogram encode e).events = ((ofHistograms encode).notice? e).toList := by
    intro e
    unfold encodeHistogram notice? ofHistograms
    dsimp only
    cases encode e <;> rfl
  rw [encodeHistograms, Logged.events_bind, Logged.events_mapM, Logged.events_pure,
    List.append_nil, funext he]
  exact (List.filterMap_eq_flatMap_toList _ _).symm

/-- Every entry has one outcome, in its place, under its own name, and with the error of
the encoder if there is one. The documents are those of the entries that were encoded and
are what these give without the others. Every entry has a document or is counted as
omitted, and for each one that is omitted, in order, an error is logged. The histograms of
a cycle are encoded in this way. -/
theorem encodeAll_settles (entries : List α) :
    List.Forall₂ E.Settles entries (E.encodeAll entries).value.2 ∧
    List.Forall₂ (fun e d => ∃ wire, E.encode e = .ok wire ∧ d = E.document e wire)
      (entries.filter (E.encode · |>.isOk)) (E.encodeAll entries).value.1 ∧
    (E.encodeAll entries).value.1 =
      (E.encodeAll (entries.filter (E.encode · |>.isOk))).value.1 ∧
    (∀ message, (E.encodeAll entries).value.1.length +
      (Snapshot.mk message (E.encodeAll entries).value.2).omitted = entries.length) ∧
    List.Forall₂ (fun e event => ∃ cause, E.encode e = .error cause ∧
        event = Log.Event.say .error
          ("Failed to encode histogram '" ++ E.name e ++ "': " ++ cause.message))
      (entries.filter fun e => !(E.encode e).isOk) (E.encodeAll entries).events ∧
    ∀ (encode : HistogramEntry → Except HistogramError String) (cycle : List HistogramEntry),
      encodeHistograms encode cycle = (ofHistograms encode).encodeAll cycle := by
  rw [encodeAll_eq, encodeAll_eq]
  refine ⟨?_, ?_, (E.filterMap_document?_filter entries).symm, E.length_add_omitted entries, ?_,
    encodeHistograms_eq⟩
  · rw [List.forall₂_map_right_iff]
    exact List.forall₂_same.2 fun e _ => E.settles_outcome e
  · exact forall₂_filter_filterMap E.isSome_document?
      (fun e d => (E.document?_eq_some_iff e d).1) entries
  · exact forall₂_filter_filterMap E.isSome_notice?
      (fun e event => (E.notice?_eq_some_iff e event).1) entries

end Encoder
end Message
end SpanMetrics
