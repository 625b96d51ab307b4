import SpanMetrics.Proofs.Transaction.Admission

/-!
# Names from paths and the registry

What a path gives as a name, and what that keeps away from the registry: no request
is counted under the empty name, which is that of the overall series, or under the
name for requests that have none.
-/
namespace SpanMetrics

/-- A request is without a name exactly if it is called so, and then the registry is not
asked. -/
theorem Registry.classify_unknown_iff (r : Registry) (span : CompletedSpan) :
    (r.classify span.transaction span.path).value.1 = .unknown ↔
      span.name = Transaction.unknownName := by
  rw [value_classify]
  split
  · next h => exact iff_of_true rfl h
  · next h =>
    refine iff_of_false (fun he => ?_) h
    split at he <;> cases he

theorem Registry.classify_of_unknown {r : Registry} {span : CompletedSpan}
    (h : (r.classify span.transaction span.path).value.1 = .unknown) :
    (r.classify span.transaction span.path).value.2 = r := by
  rw [value_classify, if_pos ((r.classify_unknown_iff span).1 h)]

/-- The name of a path that is not empty is its longest beginning with no more than two
slashes behind the first character; it ends right before a slash or with the path. It is
not empty, and as a path it gives itself as a name. So no request is counted under the
empty name or as one named like those without a name, and one without a name leaves the
registry as it is. -/
theorem Transaction.ofPath_longest (path : String) :
    ofPath "" = "/" ∧
    (path ≠ "" → Heads path (ofPath path) ∧
      (ofPath path = path ∨
        innerSlashes (ofPath path) = 2 ∧ ∃ rest, path = ofPath path ++ "/" ++ rest)) ∧
    ofPath path ≠ "" ∧ ofPath (ofPath path) = ofPath path ∧
    ∀ (r : Registry) (transaction : String),
      let answer := (r.classify transaction path).value
      answer.1 ≠ .named "" ∧ answer.1 ≠ .named "unknown" ∧
        (answer.1 = .unknown → answer.2 = r) := by
  refine ⟨rfl, heads_ofPath, ?_, ofPath_ofPath path, fun r transaction => ?_⟩
  · by_cases h : path = ""
    · subst h
      exact (by decide : ofPath "" ≠ "")
    · exact (heads_ofPath h).1.ne_empty h
  · intro answer
    let span : CompletedSpan := ⟨transaction, path, ⟨0⟩, 0, "", false⟩
    have ha : answer = (r.classify span.transaction span.path).value := rfl
    rw [ha]
    refine ⟨fun he => ?_, fun he => ?_, Registry.classify_of_unknown⟩
    · exact derived_ne_empty transaction path (Registry.eq_name_of_classify he).symm
    · have hu := (r.classify_unknown_iff span).2 (Registry.eq_name_of_classify he).symm
      rw [hu] at he
      cases he

/-- The empty segment between two slashes is the third one here. A path may be called like
requests without a name. -/
theorem Transaction.ofPath_longest_of_two :
    "/a/b//c" ≠ "" ∧ Heads "/a/b//c" "/a/b/" ∧
      ((Registry.new 1).classify "" "unknown").value.1 = .unknown ∧
      ((Registry.new 1).classify "" "unknown").value.2 = Registry.new 1 := by
  have hne : "/a/b//c" ≠ "" := by decide
  have hname : ofPath "/a/b//c" = "/a/b/" := by decide +kernel
  have hu : ((Registry.new 1).classify "" "unknown").value.1 = .unknown := by decide +kernel
  obtain ⟨-, hheads, -⟩ := ofPath_longest "/a/b//c"
  obtain ⟨-, -, -, -, hclassify⟩ := ofPath_longest "unknown"
  exact ⟨hne, hname ▸ (hheads hne).1, hu, (hclassify (Registry.new 1) "").2.2 hu⟩

end SpanMetrics
