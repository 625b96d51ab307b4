import SpanMetrics.Proofs.Histogram.Gather
import SpanMetrics.Proofs.Interleaving.Steps
import SpanMetrics.Proofs.Transaction.Admission

/-!
# How many histograms there are

A drain takes the histograms before it resets the registry that limits them. A name
that the registry took before the reset may so be filed in the table of the next
cycle, where the registry knows nothing of it. `Limited` says which names the
registry took in each cycle. Every name in the table is one of them, and those that
the registry of the current cycle did not take are late.
-/
namespace SpanMetrics

/-- A name that was taken in one of the cycles until now. -/
def Filing.Among (taken : Nat → List String) (now : Nat) (f : Filing) : Prop :=
  f.cycle ≤ now ∧ f.name ∈ taken f.cycle

theorem Filing.Among.mono {taken more : Nat → List String} {now later : Nat} {f : Filing}
    (h : f.Among taken now) (hl : now ≤ later) (hm : ∀ cycle ≤ now, taken cycle ⊆ more cycle) :
    f.Among more later :=
  ⟨h.1.trans hl, hm _ h.1 h.2⟩

namespace Interleaving

/-- The names that the registry took in each cycle, and that latencies are filed under
no other ones. -/
structure Limited (limit : Nat) (taken : Nat → List String) (s : Interleaving) : Prop where
  capacity : s.state.registry.capacity = limit
  staged : s.state.registry.staged = limit
  current : s.state.registry.names = taken s.cycles.length
  sized : ∀ cycle, (taken cycle).length ≤ limit
  awaited : ∀ r ∈ s.recordings, ∀ f ∈ r.filing?, f.Among taken s.cycles.length
  filed : ∀ f ∈ s.filings, f.Among taken s.cycles.length
  keys : s.state.histograms.entries.keys ⊆ "" :: s.filings.map (·.name)

variable {limit : Nat} {taken : Nat → List String} {s t : Interleaving}

theorem limited_new (precision limit : Nat) :
    Limited limit (fun _ => []) (new precision limit).value := by
  rw [new, Logged.value_bind, Aggregation.value_new]
  exact ⟨rfl, rfl, rfl, fun _ => Nat.zero_le _, by simp, by simp, List.nil_subset _⟩

/-! ## What a step does to the names -/

/-- A step that leaves the registry alone and files nothing keeps the names. -/
theorem Limited.keep (h : Limited limit taken s) (hr : t.state.registry = s.state.registry)
    (hc : t.cycles = s.cycles) (hf : t.filings ⊆ s.filings)
    (hk : t.state.histograms.entries.keys ⊆ "" :: t.filings.map (·.name))
    (hs : ∀ r ∈ t.recordings, r ∈ s.recordings ∨ r.filing? = none) : Limited limit taken t := by
  constructor
  · rw [hr, h.capacity]
  · rw [hr, h.staged]
  · rw [hr, hc, h.current]
  · exact h.sized
  · intro r hm f hfiling
    rw [hc]
    rcases hs r hm with hold | hnone
    · exact h.awaited r hold f hfiling
    · rw [hnone] at hfiling
      cases hfiling
  · rw [hc]
    exact fun f hm => h.filed f (hf hm)
  · exact hk

theorem Limited.begin (h : Limited limit taken s) (span : CompletedSpan) :
    Limited limit taken (s.step (.begin span)).value := by
  rw [step_begin]
  refine h.keep rfl rfl (List.Subset.refl _) ?_ ?_
  · intro key hk
    rcases List.mem_cons.1 (HistogramTable.keys_record_subset _ _ _ hk) with rfl | hk
    · exact List.mem_cons_self
    · exact h.keys hk
  · intro r hm
    rcases List.mem_append.1 hm with hold | hnew
    · exact .inl hold
    · rw [List.mem_singleton.1 hnew]
      exact .inr rfl

theorem Limited.classify (h : Limited limit taken s) (number : Nat) (span : CompletedSpan) :
    ∃ more, Limited limit more
      { s with
        state := (s.state.advance s.cycles.length ⟨span, .measured⟩).value.2
        recordings := s.recordings.set number
          ⟨span, (s.state.advance s.cycles.length ⟨span, .measured⟩).value.1⟩ } := by
  have hl : s.state.registry.names.length ≤ s.state.registry.capacity := by
    rw [h.current, h.capacity]
    exact h.sized _
  obtain ⟨hcapacity, hstaged, hsubset, hlength, hnamed⟩ :=
    s.state.registry.classify_takes span hl
  rw [Aggregation.advance_measured, Aggregation.classification]
  generalize (s.state.registry.classify span.transaction span.path).value = answer at *
  have hmore : ∀ cycle ≤ s.cycles.length,
      taken cycle ⊆ Function.update taken s.cycles.length answer.2.names cycle := by
    intro cycle _
    rw [Function.update_apply]
    split
    · next he => exact he ▸ h.current ▸ hsubset
    · exact List.Subset.refl _
  refine ⟨Function.update taken s.cycles.length answer.2.names, ?_, ?_, ?_, ?_, ?_, ?_, h.keys⟩
  · exact hcapacity.trans h.capacity
  · exact hstaged.trans h.staged
  · show _ = Function.update taken s.cycles.length answer.2.names s.cycles.length
    rw [Function.update_self]
  · intro cycle
    rw [Function.update_apply]
    split
    · exact h.capacity ▸ hlength
    · exact h.sized cycle
  · intro r hr f hf
    rcases List.mem_or_eq_of_mem_set hr with hold | rfl
    · exact (h.awaited r hold f hf).mono le_rfl hmore
    · obtain ⟨hc, hcycle⟩ := Progress.classified.inj (Recording.filing?_eq_some.1 hf)
      refine ⟨hcycle.ge, ?_⟩
      rw [← hcycle, Function.update_self]
      exact hnamed f.name hc
  · intro f hf
    exact (h.filed f hf).mono le_rfl hmore

/-- The name that a latency is filed under is one that the registry took. -/
theorem Limited.file (h : Limited limit taken s) {number : Nat} {span : CompletedSpan}
    {f : Filing}
    (hr : s.recordings[number]? = some ⟨span, .classified (.named f.name) f.cycle⟩) :
    Limited limit taken (s.step (.advance number)).value := by
  have hm : f.Among taken s.cycles.length := h.awaited _ (List.mem_of_getElem? hr) f rfl
  rw [step_advance_of_some s hr, Aggregation.advance_named]
  refine ⟨h.capacity, h.staged, h.current, h.sized, fun r hr f hf => ?_, fun f hf => ?_, ?_⟩
  · rcases List.mem_or_eq_of_mem_set hr with hold | rfl
    · exact h.awaited r hold f hf
    · cases hf
  · rcases List.mem_append.1 hf with hold | hnew
    · exact h.filed f hold
    · exact List.mem_singleton.1 hnew ▸ hm
  · intro key hk
    show key ∈ "" :: (s.filings ++ [f]).map (·.name)
    rw [List.map_append, ← List.cons_append]
    rcases List.mem_cons.1 (HistogramTable.keys_record_subset _ _ _ hk) with rfl | hk
    · exact List.mem_append_right _ List.mem_cons_self
    · exact List.mem_append_left _ (h.keys hk)

theorem Limited.advance (h : Limited limit taken s) (number : Nat) :
    ∃ more, Limited limit more (s.step (.advance number)).value := by
  cases hr : s.recordings[number]? with
  | none =>
    rw [step_advance_of_none s hr]
    exact ⟨taken, h⟩
  | some r =>
    by_cases hm : r.progress = .measured
    · obtain ⟨span, progress⟩ := r
      obtain rfl : progress = .measured := hm
      rw [step_advance_of_some s hr, Recording.filing?, Option.toList_none, List.append_nil]
      exact h.classify number span
    · cases hf : r.filing? with
      | none =>
        obtain ⟨hregistry, hhistograms, hnext⟩ :=
          s.state.advance_rest s.cycles.length hm hf
        rw [step_advance_of_some s hr, hf, Option.toList_none, List.append_nil]
        refine ⟨taken, h.keep hregistry rfl (List.Subset.refl _) ?_ fun r hr => ?_⟩
        · exact hhistograms ▸ h.keys
        · rcases List.mem_or_eq_of_mem_set hr with hold | rfl
          · exact .inl hold
          · exact .inr hnext
      | some f =>
        have hp := Recording.filing?_eq_some.1 hf
        obtain ⟨span, progress⟩ := r
        obtain rfl : progress = _ := hp
        exact ⟨taken, h.file hr⟩

theorem Limited.drain (h : Limited limit taken s) :
    ∃ more, Limited limit more (s.step .drain).value := by
  cases hd : s.drain with
  | idle | tookHistograms | tookQueue =>
    refine ⟨taken, h.keep ?_ ?_ ?_ ?_ ?_⟩ <;> rw [step, drainStep, hd]
    · rfl
    · rfl
    · exact List.Subset.refl _
    · exact h.keys
    · exact fun r hm => .inl hm
  | tookCounters counters =>
    -- the table is emptied, and with it the list of what was filed in it
    refine ⟨taken, h.keep ?_ ?_ ?_ ?_ ?_⟩ <;> rw [step, drainStep, hd]
    · rfl
    · rfl
    · exact List.nil_subset _
    · exact List.nil_subset _
    · exact fun r hm => .inl hm
  | tookSampler counters histograms queue sampler =>
    -- the cycle that begins has taken no name, and the table keeps what was filed before
    refine ⟨Function.update taken (s.cycles.length + 1) [], ?_⟩
    have hold : ∀ cycle ≤ s.cycles.length,
        taken cycle ⊆ Function.update taken (s.cycles.length + 1) [] cycle := by
      intro cycle hc
      rw [Function.update_of_ne (by omega)]
      exact List.Subset.refl _
    rw [step, drainStep, hd]
    constructor
    · exact h.staged
    · exact h.staged
    · simp [Aggregation.resetRegistry, Registry.reset, Registry.new]
    · intro cycle
      rw [Function.update_apply]
      split
      · exact Nat.zero_le _
      · exact h.sized cycle
    · intro r hm f hf
      exact (h.awaited r hm f hf).mono (by simp) hold
    · intro f hm
      exact (h.filed f hm).mono (by simp) hold
    · exact h.keys

/-- Every step but one that stages a capacity keeps within the limit. -/
theorem Limited.step (h : Limited limit taken s) {step : Step} (hs : step.capacity? = none) :
    ∃ more, Limited limit more (s.step step).value := by
  cases step with
  | begin span => exact ⟨taken, h.begin span⟩
  | advance number => exact h.advance number
  | drain => exact h.drain
  | stage capacity => cases hs

theorem limited_run (precision limit : Nat) {steps : List Step}
    (h : ∀ step ∈ steps, step.capacity? = none) :
    ∃ taken, Limited limit taken ((new precision limit).value.run steps).value := by
  refine run_of_step (P := fun s => ∃ taken, Limited limit taken s) ?_ ⟨_, limited_new _ _⟩
  rintro step hm s ⟨taken, hs⟩
  exact hs.step (h step hm)

/-! ## How many names there are -/

/-- A name in the table is the overall one, or the registry of this cycle has it, or it
is late. -/
theorem Limited.keys_subset (h : Limited limit taken s) :
    s.state.histograms.entries.keys ⊆ "" :: (s.state.registry.names ++ s.lateNames) := by
  intro key hk
  rcases List.mem_cons.1 (h.keys hk) with rfl | hk
  · exact List.mem_cons_self
  · obtain ⟨f, hf, rfl⟩ := List.mem_map.1 hk
    obtain ⟨hle, hm⟩ := h.filed f hf
    refine List.mem_cons_of_mem _ (List.mem_append.2 ?_)
    rcases hle.lt_or_eq with hlt | he
    · refine .inr (List.mem_eraseDups.2 (List.mem_map.2 ⟨f, ?_, rfl⟩))
      exact List.mem_filter.2 ⟨hf, decide_eq_true hlt⟩
    · exact .inl (h.current ▸ he ▸ hm)

theorem Limited.lateNames_subset (h : Limited limit taken s) :
    s.lateNames ⊆ s.lateCycles.flatMap taken := by
  intro name hn
  obtain ⟨f, hf, rfl⟩ := List.mem_map.1 (List.mem_eraseDups.1 hn)
  refine List.mem_flatMap.2 ⟨f.cycle, ?_, (h.filed f (List.mem_filter.1 hf).1).2⟩
  exact List.mem_eraseDups.2 (List.mem_map.2 ⟨f, hf, rfl⟩)

theorem Limited.length_lateNames_le (h : Limited limit taken s) :
    s.lateNames.length ≤ limit * s.lateCycles.length := by
  have hsub := (nodup_eraseDups (s.lateFilings.map (·.name))).subperm h.lateNames_subset
  refine hsub.length_le.trans ?_
  rw [List.length_flatMap, Nat.mul_comm]
  refine (List.sum_le_card_nsmul _ limit ?_).trans ?_
  · intro n hn
    obtain ⟨cycle, -, rfl⟩ := List.mem_map.1 hn
    exact h.sized cycle
  · rw [List.length_map, smul_eq_mul]

theorem Limited.size_le (h : Limited limit taken s) :
    s.state.histograms.size ≤ limit + 1 + s.lateNames.length := by
  have hnames : s.state.registry.names.length ≤ limit := by
    rw [h.current]
    exact h.sized _
  calc s.state.histograms.size
      = s.state.histograms.entries.keys.length := (Table.length_keys _).symm
    _ ≤ ("" :: (s.state.registry.names ++ s.lateNames)).length :=
        (s.state.histograms.entries.distinct.subperm h.keys_subset).length_le
    _ = s.state.registry.names.length + s.lateNames.length + 1 := by
        rw [List.length_cons, List.length_append]
    _ ≤ limit + 1 + s.lateNames.length := by omega

/-- While the capacity stays the same, the table holds no more histograms than the
overall one, one for each name that there is room for, and one for each name that is
late. At most as many names are late as there is room for in the cycles in which the
registry took them. -/
theorem size_histograms_le (precision limit : Nat) (steps : List Step)
    (h : ∀ step ∈ steps, step.capacity? = none) :
    let s := ((new precision limit).value.run steps).value
    s.state.histograms.size ≤ limit + 1 + s.lateNames.length ∧
      s.lateNames.length ≤ limit * s.lateCycles.length := by
  intro s
  obtain ⟨taken, hs⟩ := limited_run precision limit h
  exact ⟨hs.size_le, hs.length_lateNames_le⟩

/-- A request comes after the histograms were drained and before the registry is reset,
and another one with another name after it. -/
def overtakenReset : List Step :=
  [.drain, .drain,
    .begin ⟨"a", "", ⟨1500000⟩, 200, "GET", false⟩, .advance 0, .advance 0, .advance 0,
    .drain, .drain, .drain,
    .begin ⟨"b", "", ⟨2500000⟩, 200, "GET", false⟩, .advance 1, .advance 1, .advance 1]

/-- With room for one name the late one is a third histogram. -/
theorem size_histograms_le_of_overtaken :
    let s := ((new 2 1).value.run overtakenReset).value
    (∀ step ∈ overtakenReset, step.capacity? = none) ∧ s.lateNames = ["a"] ∧
      s.lateCycles = [0] ∧ s.state.histograms.size ≤ 1 + 1 + 1 := by
  have h : ∀ step ∈ overtakenReset, step.capacity? = none := by decide
  exact ⟨h, by decide +kernel, by decide +kernel, (size_histograms_le 2 1 overtakenReset h).1⟩

/-- The capacity alone does not bound the table while a drain is under way. -/
theorem size_histograms_of_overtaken :
    ¬∀ (precision limit : Nat) (steps : List Step), (∀ step ∈ steps, step.capacity? = none) →
      ((new precision limit).value.run steps).value.state.histograms.size ≤ limit + 1 := by
  intro h
  have hsize := h 2 1 overtakenReset (by decide)
  exact absurd hsize (by decide +kernel)

end Interleaving
end SpanMetrics
