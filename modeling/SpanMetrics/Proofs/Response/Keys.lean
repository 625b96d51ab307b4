import Mathlib
import SpanMetrics.Proofs.Series.Key

/-!
# The series of a response

A response is counted in three series, and in a fourth one if it failed. The text
of a key starts with the least tag name, and the four kinds have different ones,
so keys of different kinds never meet. Within a kind the key gives back what it
was made of, except for the series by method: method and transaction are joined
by a text that may stand in either of them.
-/
namespace SpanMetrics

/-- The series that responses are counted in, by what tells them apart. -/
inductive ResponseSeries where
  | overall (transaction : String)
  | byMethod (transaction method : String)
  | byStatus (transaction : String) (status : UInt16)
  | failures (transaction : String)
deriving DecidableEq

/-- The ways in which a series divides the responses of a transaction. -/
inductive ResponseSeries.Kind where
  | overall | byMethod | byStatus | failures
deriving DecidableEq

namespace ResponseSeries

def kind : ResponseSeries → Kind
  | overall _ => .overall
  | byMethod _ _ => .byMethod
  | byStatus _ _ => .byStatus
  | failures _ => .failures

/-- The tag names of a kind, in the order of a set. -/
def Kind.names : Kind → List String
  | overall => ["TransactionName"]
  | byMethod => ["HttpMethod", "TransactionName"]
  | byStatus => ["HttpStatus", "TransactionName"]
  | failures => ["Errors", "TransactionName"]

def tags : ResponseSeries → TagSet
  | overall t => .ofList [⟨"TransactionName", t⟩]
  | byMethod t m => .ofList [⟨"HttpMethod", m⟩, ⟨"TransactionName", t⟩]
  | byStatus t n => .ofList [⟨"HttpStatus", toString n.toNat⟩, ⟨"TransactionName", t⟩]
  | failures t => .ofList [⟨"Errors", "true"⟩, ⟨"TransactionName", t⟩]

def series (a : ResponseSeries) : Series := ⟨"TransactionResponseTime", true, a.tags⟩

def key (a : ResponseSeries) : String := a.series.key

theorem toList_tags_overall (t : String) :
    (overall t).tags.toList = [⟨"TransactionName", t⟩] := rfl

/-- A tag before the transaction stays before it. -/
theorem toList_ofList_pair {name : String} (h : name < "TransactionName") (value t : String) :
    (TagSet.ofList [⟨name, value⟩, ⟨"TransactionName", t⟩]).toList =
      [⟨name, value⟩, ⟨"TransactionName", t⟩] := by
  have hne : "TransactionName" ≠ name := fun he => String.lt_irrefl _ (he ▸ h)
  have hnb : ¬"TransactionName" < name := fun hl => String.lt_irrefl _ (String.lt_trans h hl)
  simp [TagSet.ofList, TagSet.insert, TagSet.place, TagSet.empty, Tag.before, hne, hnb]

theorem toList_tags_byMethod (t m : String) :
    (byMethod t m).tags.toList = [⟨"HttpMethod", m⟩, ⟨"TransactionName", t⟩] :=
  toList_ofList_pair (by decide) m t

theorem toList_tags_byStatus (t : String) (n : UInt16) :
    (byStatus t n).tags.toList =
      [⟨"HttpStatus", toString n.toNat⟩, ⟨"TransactionName", t⟩] :=
  toList_ofList_pair (by decide) _ t

theorem toList_tags_failures (t : String) :
    (failures t).tags.toList = [⟨"Errors", "true"⟩, ⟨"TransactionName", t⟩] :=
  toList_ofList_pair (by decide) _ t

theorem key_eq_iff_text (a b : ResponseSeries) : a.key = b.key ↔ a.tags.text = b.tags.text := by
  rw [key, key, Series.key_eq_iff]
  simp [Series.text, series]

/-- What follows the least tag in the keys that have two. -/
def transactionText (t : String) : List Char := ("TransactionName:" ++ t ++ "&").toList

theorem transactionText_inj {t u : String} (h : transactionText t = transactionText u) :
    t = u := by
  rw [transactionText, transactionText] at h
  apply String.toList_inj.1
  simpa using h

theorem text_overall (t : String) : (overall t).tags.text = transactionText t := by
  rw [TagSet.text, toList_tags_overall, transactionText]
  simp [Tag.text]

theorem text_byMethod (t m : String) :
    (byMethod t m).tags.text =
      ("HttpMethod:" ++ (m ++ "&TransactionName:" ++ t) ++ "&").toList := by
  rw [TagSet.text, toList_tags_byMethod]
  simp [Tag.text]

theorem text_byStatus (t : String) (n : UInt16) :
    (byStatus t n).tags.text =
      "HttpStatus:".toList ++ (Nat.toDigits 10 n.toNat ++ '&' :: transactionText t) := by
  rw [TagSet.text, toList_tags_byStatus, transactionText]
  simp [Tag.text]

theorem text_failures (t : String) :
    (failures t).tags.text = "Errors:true&".toList ++ transactionText t := by
  rw [TagSet.text, toList_tags_failures, transactionText]
  simp [Tag.text]

theorem ampersand_not_mem_toDigits (n : Nat) : '&' ∉ Nat.toDigits 10 n := by
  intro h
  have hd := Nat.isDigit_of_mem_toDigits (by decide) (by decide) h
  exact absurd hd (by decide)

theorem byStatus_inj {t u : String} {n m : UInt16}
    (h : (byStatus t n).tags.text = (byStatus u m).tags.text) : t = u ∧ n = m := by
  rw [text_byStatus, text_byStatus] at h
  obtain ⟨hd, ht⟩ := append_cons_inj_of_not_mem (ampersand_not_mem_toDigits _)
    (ampersand_not_mem_toDigits _) (List.append_cancel_left h)
  rw [← Nat.toList_repr, ← Nat.toList_repr, String.toList_inj, Nat.repr_inj] at hd
  exact ⟨transactionText_inj ht, UInt16.toNat_inj.1 hd⟩

/-- Method and transaction of two series by method run into the same text. -/
def Recombined : ResponseSeries → ResponseSeries → Prop
  | byMethod t m, byMethod u l => m ++ "&TransactionName:" ++ t = l ++ "&TransactionName:" ++ u
  | _, _ => False

/-- Keys of responses meet only where method and transaction can be split in two ways. -/
theorem key_eq_iff (a b : ResponseSeries) : a.key = b.key ↔ a = b ∨ a.Recombined b := by
  rw [key_eq_iff_text]
  constructor
  · intro h
    cases a <;> cases b
    case overall.overall t u =>
      rw [text_overall, text_overall] at h
      exact .inl (congrArg overall (transactionText_inj h))
    case byMethod.byMethod t m u l =>
      rw [text_byMethod, text_byMethod] at h
      rw [String.toList_inj] at h
      exact .inr (String.append_right_inj _ |>.1 (String.append_left_inj _ |>.1 h))
    case byStatus.byStatus t n u m =>
      obtain ⟨rfl, rfl⟩ := byStatus_inj h
      exact .inl rfl
    case failures.failures t u =>
      rw [text_failures, text_failures] at h
      exact .inl (congrArg failures (transactionText_inj (List.append_cancel_left h)))
    all_goals
      -- different kinds already differ in the first letters of their least tag names
      simp only [text_overall, text_byMethod, text_byStatus, text_failures,
        transactionText] at h
      simp at h
  · rintro (rfl | h)
    · rfl
    · cases a <;> cases b <;> simp only [Recombined] at h
      rw [text_byMethod, text_byMethod, h]

/-- Keys that meet are of one kind. -/
theorem kind_of_key_eq {a b : ResponseSeries} (h : a.key = b.key) : a.kind = b.kind := by
  rcases (key_eq_iff a b).1 h with rfl | hr
  · rfl
  · cases a <;> cases b <;> first | rfl | exact hr.elim

theorem names_tags (a : ResponseSeries) : a.tags.toList.map (·.name) = a.kind.names := by
  cases a with
  | overall t => rfl
  | byMethod t m => rw [toList_tags_byMethod]; rfl
  | byStatus t n => rw [toList_tags_byStatus]; rfl
  | failures t => rw [toList_tags_failures]; rfl

end ResponseSeries

namespace ResponseTime

/-- The series that a response is counted in. -/
def series (r : ResponseTime) : List ResponseSeries :=
  [.overall r.transaction, .byMethod r.transaction r.method, .byStatus r.transaction r.status] ++
    if r.failed then [.failures r.transaction] else []

section Membership

variable {r : ResponseTime} {t : String}

theorem overall_mem_series : .overall t ∈ r.series ↔ t = r.transaction := by
  simp only [series]
  split <;> simp

theorem byMethod_mem_series {m : String} :
    .byMethod t m ∈ r.series ↔ t = r.transaction ∧ m = r.method := by
  simp only [series]
  split <;> simp

theorem byStatus_mem_series {n : UInt16} :
    .byStatus t n ∈ r.series ↔ t = r.transaction ∧ n = r.status := by
  simp only [series]
  split <;> simp

theorem failures_mem_series : .failures t ∈ r.series ↔ t = r.transaction ∧ r.failed := by
  simp only [series]
  split <;> simp [*]

end Membership

/-- The update of a response to one of its series. -/
def updateOf (r : ResponseTime) (a : ResponseSeries) : CounterUpdate :=
  ⟨seriesName, a.tags, r.value, 1, true⟩

theorem key_updateOf (r : ResponseTime) (a : ResponseSeries) : (r.updateOf a).key = a.key := rfl

theorem series_updateOf (r : ResponseTime) (a : ResponseSeries) :
    (r.updateOf a).series = a.series := rfl

/-- A tag before the transaction is put in front of it. -/
theorem primary_insert {name : String} (h : name < "TransactionName") (value t : String) :
    (primary t).insert ⟨name, value⟩ = .ofList [⟨name, value⟩, ⟨"TransactionName", t⟩] := by
  apply TagSet.ext_toList
  rw [ResponseSeries.toList_ofList_pair h]
  have hne : name ≠ "TransactionName" := fun he => String.lt_irrefl _ (he ▸ h)
  simp [primary, transactionTag, TagSet.ofList, TagSet.insert, TagSet.place, TagSet.empty,
    Tag.before, h, hne]

theorem updates_eq (r : ResponseTime) : r.updates = r.series.map r.updateOf := by
  have hm := primary_insert (by decide : "HttpMethod" < "TransactionName") r.method
    r.transaction
  have hs := primary_insert (by decide : "HttpStatus" < "TransactionName")
    (toString r.status.toNat) r.transaction
  have he := primary_insert (by decide : "Errors" < "TransactionName") "true" r.transaction
  simp only [updates, tagSets, series, hm, hs, he]
  cases r.failed <;> rfl

end ResponseTime
end SpanMetrics
