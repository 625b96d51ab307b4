import SpanMetrics.Host.Load
import SpanMetrics.Proofs.Text.Pieces
import SpanMetrics.Proofs.Text.Reading

/-!
# The memory of a host

The amounts are read line by line. A line about one of them settles what is known of it
until the next such line, and a line that gives no number takes back what an earlier one
gave. Reading ends at the first line behind which both amounts are known, so nothing
behind that line has a part in the result; a line that is not text fails the reading only
if it is reached.
-/
namespace SpanMetrics.Host.Load

/-! ## What some lines tell -/

/-- A line is about the label that is its first word. -/
def About (label line : String) : Prop := (Text.words line).head? = some label

instance (label line : String) : Decidable (About label line) :=
  inferInstanceAs (Decidable (_ = _))

/-- A line gives the amount that its second word denotes, if that has a signed number of
64 bits. -/
def Gives (line : String) (kib : Int) : Prop :=
  ∃ word, (Text.words line)[1]? = some word ∧ Numeral.DenotesInt word kib ∧
    -2 ^ 63 ≤ kib ∧ kib < 2 ^ 63

/-- After some lines an amount is known if the last line about its label gives it. -/
def Known (label : String) (read : List String) (kib : Int) : Prop :=
  ∃ before line after, read = before ++ line :: after ∧ About label line ∧
    (∀ other ∈ after, ¬ About label other) ∧ Gives line kib

/-- The signed number of 64 bits that is nearest to an amount in bytes. -/
def nearestBytes (kib : Int) : Int := max (-2 ^ 63) (min (kib * 1024) (2 ^ 63 - 1))

/-- Both amounts are known after some lines, and come to this. -/
structure Complete (read : List String) (m : Memory) : Prop where
  total : ∃ kib, Known "MemTotal:" read kib ∧ m.total.toInt = nearestBytes kib
  free : ∃ kib, Known "MemFree:" read kib ∧ m.free.toInt = nearestBytes kib

/-- The first lines are text, and behind the last of them both amounts are known for the
first time. -/
structure Settled (lines : List (Option String)) (read : List String) (m : Memory) : Prop where
  lines : ∃ rest, lines = read.map some ++ rest
  complete : Complete read m
  first : ∀ earlier, earlier <+: read → earlier ≠ read → ∀ m', ¬ Complete earlier m'

/-! ## One line -/

theorem amount?_eq_some_iff {line : String} {kib : Int} :
    amount? (Text.words line).tail = some kib ↔ Gives line kib := by
  rw [amount?, Option.bind_eq_some_iff, Gives]
  simp only [Numeral.signed?_eq_some_iff, List.head?_tail]
  rfl

/-- A line about the label settles what is known; any other line leaves it as it is. -/
theorem known_concat {label line : String} {read : List String} {kib : Int} :
    Known label (read ++ [line]) kib ↔
      if About label line then Gives line kib else Known label read kib := by
  constructor
  · intro ⟨before, last, after, hread, habout, hafter, hgives⟩
    rcases List.eq_nil_or_concat' after with rfl | ⟨others, other, rfl⟩
    · obtain ⟨-, hline⟩ := List.append_inj' hread rfl
      obtain rfl := List.singleton_inj.1 hline
      rwa [if_pos habout]
    · rw [← List.cons_append, ← List.append_assoc] at hread
      obtain ⟨rfl, hline⟩ := List.append_inj' hread rfl
      obtain rfl := List.singleton_inj.1 hline
      obtain ⟨hothers, hother⟩ := List.forall_mem_append.1 hafter
      rw [if_neg (hother line List.mem_cons_self)]
      exact ⟨before, last, others, rfl, habout, hothers, hgives⟩
  · intro h
    split at h
    · next habout => exact ⟨read, line, [], rfl, habout, by simp, h⟩
    · next hline =>
      obtain ⟨before, last, after, rfl, habout, hafter, hgives⟩ := h
      exact ⟨before, last, after ++ [line], by simp, habout,
        List.forall_mem_append.2 ⟨hafter, List.forall_mem_singleton.2 hline⟩, hgives⟩

/-- What a scan remembers under a label is what the lines so far tell. -/
def Remembers (label : String) (read : List String) (known : Option Int) : Prop :=
  ∀ kib, known = some kib ↔ Known label read kib

/-- What a scan remembers after one more line. -/
def updated (label line : String) (known : Option Int) : Option Int :=
  if About label line then amount? (Text.words line).tail else known

theorem remembers_nil (label : String) : Remembers label [] none := by
  intro kib
  refine iff_of_false (fun h => nomatch h) fun ⟨before, line, after, h, _⟩ => ?_
  exact List.append_ne_nil_of_right_ne_nil before (List.cons_ne_nil line after) h.symm

theorem Remembers.concat {label : String} {read : List String} {known : Option Int}
    (h : Remembers label read known) (line : String) :
    Remembers label (read ++ [line]) (updated label line known) := by
  intro kib
  rw [known_concat, updated]
  split
  · exact amount?_eq_some_iff
  · exact h kib

theorem exists_remembers (label : String) (read : List String) :
    ∃ known, Remembers label read known := by
  induction read using List.reverseRecOn with
  | nil => exact ⟨none, remembers_nil label⟩
  | append_singleton read line ih =>
    obtain ⟨known, h⟩ := ih
    exact ⟨_, h.concat line⟩

theorem Known.unique {label : String} {read : List String} {a b : Int} (ha : Known label read a)
    (hb : Known label read b) : a = b := by
  obtain ⟨known, h⟩ := exists_remembers label read
  exact Option.some.inj (((h a).2 ha).symm.trans ((h b).2 hb))

theorem toInt_toBytes (kib : Int) : (toBytes kib).toInt = nearestBytes kib := by
  have hhalf : (Width.half64 : Int) = 2 ^ 63 := rfl
  rw [toBytes, Width.saturate64, hhalf, nearestBytes]
  exact Int64.toInt_ofInt_of_le (by omega) (by omega)

theorem Complete.unique {read : List String} {m m' : Memory} (h : Complete read m)
    (h' : Complete read m') : m = m' := by
  obtain ⟨t, ht, hm⟩ := h.total
  obtain ⟨t', ht', hm'⟩ := h'.total
  obtain ⟨f, hf, hn⟩ := h.free
  obtain ⟨f', hf', hn'⟩ := h'.free
  obtain rfl := ht.unique ht'
  obtain rfl := hf.unique hf'
  have htotal : m.total = m'.total := Int64.toInt_inj.1 (hm.trans hm'.symm)
  have hfree : m.free = m'.free := Int64.toInt_inj.1 (hn.trans hn'.symm)
  exact congrArg₂ Memory.mk htotal hfree

/-- Both amounts are known exactly if a scan remembers both. -/
theorem complete_iff {read : List String} {total free : Option Int} {m : Memory}
    (ht : Remembers "MemTotal:" read total) (hf : Remembers "MemFree:" read free) :
    Complete read m ↔ ∃ t f, total = some t ∧ free = some f ∧ m = ⟨toBytes t, toBytes f⟩ := by
  constructor
  · intro h
    obtain ⟨t, hkt, -⟩ := h.total
    obtain ⟨f, hkf, -⟩ := h.free
    refine ⟨t, f, (ht t).2 hkt, (hf f).2 hkf, h.unique ⟨⟨t, hkt, ?_⟩, ⟨f, hkf, ?_⟩⟩⟩
    · exact toInt_toBytes t
    · exact toInt_toBytes f
  · rintro ⟨t, f, rfl, rfl, rfl⟩
    exact ⟨⟨t, (ht t).1 rfl, toInt_toBytes t⟩, ⟨f, (hf f).1 rfl, toInt_toBytes f⟩⟩

/-! ## All lines -/

/-- A scan that does not remember both amounts goes on with the next line. -/
theorem scanMemory_cons {total free : Option Int} (h : ¬ ∃ t f, total = some t ∧ free = some f)
    (line : String) (lines : List (Option String)) :
    scanMemory total free (some line :: lines) =
      scanMemory (updated "MemTotal:" line total) (updated "MemFree:" line free) lines := by
  have habout : ∀ {label : String}, About label line ↔ ∃ more, Text.words line = label :: more :=
    List.head?_eq_some_iff
  have hlabels : "MemTotal:" ≠ "MemFree:" := by decide
  unfold updated
  rw [scanMemory]
  · split
    · next hwords =>
      have hother : ¬ About "MemFree:" line := fun h =>
        let ⟨_, h⟩ := habout.1 h
        hlabels (List.cons.inj (hwords.symm.trans h)).1
      rw [if_pos (habout.2 ⟨_, hwords⟩), if_neg hother, hwords, List.tail_cons]
    · next hwords =>
      have hother : ¬ About "MemTotal:" line := fun h =>
        let ⟨_, h⟩ := habout.1 h
        hlabels (List.cons.inj (h.symm.trans hwords)).1
      rw [if_pos (habout.2 ⟨_, hwords⟩), if_neg hother, hwords, List.tail_cons]
    · next htotal hfree =>
      rw [if_neg fun h => (habout.1 h).elim htotal, if_neg fun h => (habout.1 h).elim hfree]
  · exact fun t f ht hf => h ⟨t, f, ht, hf⟩

theorem prefix_of_map_some {read others : List String} {rest behind : List (Option String)}
    (h : read.map some ++ rest = others.map some ++ behind) (hb : behind.head?.join = none) :
    read <+: others := by
  induction read generalizing others with
  | nil => exact List.nil_prefix
  | cons line read ih =>
    cases others with
    | nil =>
      rw [List.map_nil, List.nil_append] at h
      rw [← h] at hb
      cases hb
    | cons other others =>
      obtain ⟨hline, hrest⟩ := List.cons_eq_cons.1 h
      rw [List.cons_prefix_cons]
      exact ⟨Option.some.inj hline, ih hrest⟩

/-- What comes of reading some lines. -/
inductive Comes (lines : List (Option String)) : Except ReadError Memory → Prop
  | settled {read : List String} {m : Memory} (h : Settled lines read m) : Comes lines (.ok m)
  | unsettled (h : ¬ ∃ read m, Settled lines read m) :
      Comes lines (.error (if none ∈ lines then .notText else .notFound "Memory data"))

theorem Comes.notText {lines : List (Option String)} (h : ¬ ∃ read m, Settled lines read m)
    (hn : none ∈ lines) : Comes lines (.error .notText) := by
  have hcomes := Comes.unsettled h
  rwa [if_pos hn] at hcomes

theorem Comes.notFound {lines : List (Option String)} (h : ¬ ∃ read m, Settled lines read m)
    (hn : none ∉ lines) : Comes lines (.error (.notFound "Memory data")) := by
  have hcomes := Comes.unsettled h
  rwa [if_neg hn] at hcomes

/-- Nothing is settled where the readable lines at the front leave an amount unknown. -/
theorem not_settled {read : List String} {rest : List (Option String)}
    (hr : rest.head?.join = none) (hnone : ∀ earlier, earlier <+: read → ∀ m, ¬ Complete earlier m) :
    ¬ ∃ others m, Settled (read.map some ++ rest) others m := by
  intro ⟨others, m, h⟩
  obtain ⟨behind, hlines⟩ := h.lines
  exact hnone others (prefix_of_map_some hlines.symm hr) m h.complete

/-- A scan in the middle of the lines: it remembers what those behind it tell, and without the
last of them that was not enough. -/
structure Scanned (read : List String) (total free : Option Int) : Prop where
  total : Remembers "MemTotal:" read total
  free : Remembers "MemFree:" read free
  first : ∀ earlier, earlier <+: read → earlier ≠ read → ∀ m, ¬ Complete earlier m

section

variable {read : List String} {total free : Option Int}

theorem scanned_nil : Scanned [] none none :=
  ⟨remembers_nil _, remembers_nil _, fun _ hprefix hne => absurd (List.prefix_nil.1 hprefix) hne⟩

/-- A scan remembers both amounts, or they have not been known together so far. -/
theorem Scanned.both_or_none (h : Scanned read total free) :
    (∃ t f, total = some t ∧ free = some f) ∨
      (¬ ∃ t f, total = some t ∧ free = some f) ∧
        ∀ earlier, earlier <+: read → ∀ m, ¬ Complete earlier m := by
  by_cases hboth : ∃ t f, total = some t ∧ free = some f
  · exact .inl hboth
  · refine .inr ⟨hboth, fun earlier hprefix m hm => ?_⟩
    by_cases he : earlier = read
    · subst he
      obtain ⟨t, f, htotal, hfree, -⟩ := (complete_iff h.total h.free).1 hm
      exact hboth ⟨t, f, htotal, hfree⟩
    · exact h.first earlier hprefix he m hm

theorem Scanned.concat (h : Scanned read total free)
    (hnone : ∀ earlier, earlier <+: read → ∀ m, ¬ Complete earlier m) (line : String) :
    Scanned (read ++ [line]) (updated "MemTotal:" line total) (updated "MemFree:" line free) := by
  refine ⟨h.total.concat line, h.free.concat line, fun earlier hprefix hne => ?_⟩
  exact hnone earlier ((List.prefix_concat_iff.1 hprefix).resolve_left hne)

theorem Scanned.comes_of_both {t f : Int} (h : Scanned read (some t) (some f))
    (lines : List (Option String)) :
    Comes (read.map some ++ lines) (scanMemory (some t) (some f) lines) := by
  have hscan : scanMemory (some t) (some f) lines = .ok ⟨toBytes t, toBytes f⟩ := by
    rw [scanMemory]
  rw [hscan]
  exact .settled ⟨⟨lines, rfl⟩, (complete_iff h.total h.free).2 ⟨t, f, rfl, rfl, rfl⟩, h.first⟩

/-- The induction is on the lines that are still to be read. -/
theorem Scanned.comes (h : Scanned read total free) (lines : List (Option String)) :
    Comes (read.map some ++ lines) (scanMemory total free lines) := by
  induction lines generalizing read total free with
  | nil =>
    rcases h.both_or_none with ⟨t, f, rfl, rfl⟩ | ⟨hboth, hnone⟩
    · exact h.comes_of_both []
    · have hscan : scanMemory total free [] = .error (.notFound "Memory data") := by
        rw [scanMemory]
        exact fun t f htotal hfree => hboth ⟨t, f, htotal, hfree⟩
      rw [hscan]
      exact .notFound (not_settled rfl hnone) (by simp)
  | cons line rest ih =>
    rcases h.both_or_none with ⟨t, f, rfl, rfl⟩ | ⟨hboth, hnone⟩
    · exact h.comes_of_both (line :: rest)
    cases line with
    | none =>
      have hscan : scanMemory total free (none :: rest) = .error .notText := by
        rw [scanMemory]
        exact fun t f htotal hfree => hboth ⟨t, f, htotal, hfree⟩
      rw [hscan]
      exact .notText (not_settled rfl hnone) (by simp)
    | some line =>
      have hcomes := ih (h.concat hnone line)
      rw [List.map_append, List.append_assoc] at hcomes
      rwa [scanMemory_cons hboth]

end

theorem comes_memory (bytes : Bytes) :
    Comes (Text.byteLines bytes) (memory (.content bytes)) :=
  scanned_nil.comes (Text.byteLines bytes)

/-- Of two places in the lines that settle the amounts, none is before the other. -/
theorem Settled.not_lt {lines : List (Option String)} {read others : List String}
    {m m' : Memory} (h : Settled lines read m) (h' : Settled lines others m')
    (hp : read.map some <+: others.map some) : read = others := by
  obtain ⟨behind, hbehind⟩ := hp
  rw [← List.append_nil (others.map some)] at hbehind
  by_contra hne
  exact h'.first read (prefix_of_map_some hbehind rfl) hne m h.complete

theorem Settled.unique {lines : List (Option String)} {read others : List String}
    {m m' : Memory} (h : Settled lines read m) (h' : Settled lines others m') :
    read = others ∧ m = m' := by
  obtain ⟨rest, hrest⟩ := h.lines
  obtain ⟨behind, hbehind⟩ := h'.lines
  have hread : read = others := by
    rcases List.prefix_or_prefix_of_prefix ⟨rest, hrest.symm⟩ ⟨behind, hbehind.symm⟩ with hp | hp
    · exact h.not_lt h' hp
    · exact (h'.not_lt h hp).symm
  subst hread
  exact ⟨rfl, h.complete.unique h'.complete⟩

theorem memory_eq_ok_iff {bytes : Bytes} {m : Memory} :
    memory (.content bytes) = .ok m ↔ ∃ read, Settled (Text.byteLines bytes) read m := by
  have hcomes := comes_memory bytes
  constructor
  · intro h
    rw [h] at hcomes
    cases hcomes with
    | settled h => exact ⟨_, h⟩
  · intro ⟨read, h⟩
    cases hm : memory (.content bytes) with
    | ok m' =>
      rw [hm] at hcomes
      cases hcomes with
      | settled h' => rw [(h.unique h').2]
    | error e =>
      rw [hm] at hcomes
      cases hcomes with
      | unsettled hno => exact absurd ⟨read, m, h⟩ hno

theorem memory_eq_error {bytes : Bytes}
    (h : ¬ ∃ read m, Settled (Text.byteLines bytes) read m) :
    memory (.content bytes) =
      .error (if none ∈ Text.byteLines bytes then .notText else .notFound "Memory data") := by
  cases hm : memory (.content bytes) with
  | ok m =>
    obtain ⟨read, hs⟩ := memory_eq_ok_iff.1 hm
    exact absurd ⟨read, m, hs⟩ h
  | error e =>
    have hcomes := comes_memory bytes
    rw [hm] at hcomes
    cases hcomes with
    | unsettled _ => rfl

/-! ## Bytes that are not read -/

/-- The lines that settle the amounts are those of some bytes at the front. If these end
before the file does then whatever follows them changes nothing. -/
theorem Settled.exists_used {bytes : Bytes} {read : List String} {m : Memory}
    (h : Settled (Text.byteLines bytes) read m) :
    ∃ used rest, bytes = used ++ rest ∧ Text.byteLines used = read.map some ∧
      (rest = [] ∨ ∀ other, memory (.content (used ++ other)) = .ok m) := by
  obtain ⟨behind, hlines⟩ := h.lines
  obtain ⟨first, later, hcut, hfirst, -⟩ := List.map_eq_append_iff.1 hlines
  obtain ⟨used, rest, hbytes, hused, hother⟩ := Text.exists_used_of_linesWith hcut
  refine ⟨used, rest, hbytes, ?_, hother.imp_right fun hother other => ?_⟩
  · rw [Text.byteLines, hused, hfirst]
  · refine memory_eq_ok_iff.2 ⟨read, ⟨Text.byteLines other, ?_⟩, h.complete, h.first⟩
    rw [Text.byteLines, hother, List.map_append, hfirst]
    rfl

/-! ## All readings -/

theorem value_orNote {α : Type} (what : String) (r : Except ReadError α) :
    (orNote what r).value = r.toOption := by
  cases r <;> rfl

theorem value_collect (loadavg meminfo status : File) :
    (Readings.collect loadavg meminfo status).value =
      ⟨(load1 loadavg).toOption, (memory meminfo).toOption.map (·.total),
        (memory meminfo).toOption.map (·.free), (resident status).toOption⟩ := by
  simp only [Readings.collect, Logged.value_bind, Logged.value_pure, value_orNote]

/-- The amounts of memory are those of the first lines that tell both, and nothing behind
these has a part in them. Without such lines reading fails: the file is not text if any
line is not, and else does not have what was looked for. Both amounts are reported or
none, and the other readings have nothing to do with them. -/
theorem memory_settled (bytes : Bytes) :
    let lines := Text.byteLines bytes
    (∀ m, memory (.content bytes) = .ok m ↔ ∃ read, Settled lines read m) ∧
    ((¬ ∃ read m, Settled lines read m) → memory (.content bytes) =
      .error (if none ∈ lines then .notText else .notFound "Memory data")) ∧
    (∀ read m, Settled lines read m → ∃ used rest, bytes = used ++ rest ∧
      Text.byteLines used = read.map some ∧
      (rest = [] ∨ ∀ other, memory (.content (used ++ other)) = .ok m)) ∧
    ∀ loadavg meminfo status other : File,
      let readings := (Readings.collect loadavg meminfo status).value
      ((∃ m, memory meminfo = .ok m ∧ readings.totalRam = some m.total ∧
          readings.freeRam = some m.free) ∨
        (∃ e, memory meminfo = .error e) ∧ readings.totalRam = none ∧ readings.freeRam = none) ∧
      (Readings.collect loadavg other status).value.load1 = readings.load1 ∧
      (Readings.collect loadavg other status).value.processRam = readings.processRam := by
  intro lines
  refine ⟨fun m => memory_eq_ok_iff, memory_eq_error, fun read m h => h.exists_used, ?_⟩
  intro loadavg meminfo status other readings
  have hreadings := value_collect loadavg meminfo status
  refine ⟨?_, ?_, ?_⟩
  · cases hm : memory meminfo with
    | ok m =>
      rw [hm] at hreadings
      exact .inl ⟨m, rfl, congrArg (·.totalRam) hreadings, congrArg (·.freeRam) hreadings⟩
    | error e =>
      rw [hm] at hreadings
      exact .inr ⟨⟨e, rfl⟩, congrArg (·.totalRam) hreadings, congrArg (·.freeRam) hreadings⟩
  · show _ = (Readings.collect loadavg meminfo status).value.load1
    rw [value_collect, value_collect]
  · show _ = (Readings.collect loadavg meminfo status).value.processRam
    rw [value_collect, value_collect]

/-- A total is taken back and given again behind the free amount, which is beyond 64 bits in
bytes. What follows is no text. -/
theorem memory_settled_of_replaced :
    let text := "MemTotal: 5\nMemTotal: x\nMemFree:\t9007199254740993 kB\r\nMemTotal: -2\n"
    let m : Memory := ⟨-2048, 9223372036854775807⟩
    let bytes := Text.utf8 text ++ [0xff]
    (∃ read, Settled (Text.byteLines bytes) read m) ∧
      ∃ used rest, bytes = used ++ rest ∧
        (rest = [] ∨ ∀ other, memory (.content (used ++ other)) = .ok m) := by
  intro text m bytes
  obtain ⟨hok, -, hused, -⟩ := memory_settled bytes
  obtain ⟨read, hread⟩ := (hok m).1 (by decide +kernel)
  obtain ⟨used, rest, hbytes, -, hother⟩ := hused read m hread
  exact ⟨⟨read, hread⟩, used, rest, hbytes, hother⟩

end SpanMetrics.Host.Load
