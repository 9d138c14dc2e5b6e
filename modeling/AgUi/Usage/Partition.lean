import AgUi.Usage.Aggregation

namespace AgUi
namespace Usage

open Library Protocol

/-!
# One entry for each label

The abstract aggregation has one entry for each label, in the order in which
the labels first appear, with each count summed over the entries that carry it.
Of entries the schema admits the Python version computes it where every sum is
again a count the schema admits, and raises an error where one is not.  There
the TypeScript version computes it exactly where the texts it joins tell the
labels apart.
-/

def tokenUsage (label : Label) (counts : CountKey -> Option Int) : TokenUsage where
  provider := label.1
  model := label.2
  inputTokens := counts .inputTokens
  outputTokens := counts .outputTokens
  totalTokens := counts .totalTokens
  reasoningTokens := counts .reasoningTokens
  cachedInputTokens := counts .cachedInputTokens
  cacheWriteInputTokens := counts .cacheWriteInputTokens

@[simp] theorem label_tokenUsage (name : Label) (counts : CountKey -> Option Int) :
    label (tokenUsage name counts) = name := rfl

@[simp] theorem count_tokenUsage (field : CountKey) (name : Label) (counts : CountKey -> Option Int) :
    count field (tokenUsage name counts) = counts field := by
  cases field <;> rfl

/-- The counts of the entries of one label, summed. -/
def totals (entries : List TokenUsage) (name : Label) : TokenUsage :=
  tokenUsage name fun field => total field (members label name entries)

def summary (entries : List TokenUsage) : List TokenUsage :=
  (entries.map label).eraseDups.map (totals entries)

/-- What an aggregation owes to the entries it is given. -/
structure Partitions (aggregate : List TokenUsage -> List TokenUsage) (entries : List TokenUsage) : Prop where
  /-- There is one entry for each label, in the order in which the labels first appear. -/
  labels : (aggregate entries).map label = (entries.map label).eraseDups
  /-- A count is the sum over the entries of the label that carry it, and absent if none does. -/
  counts : ∀ entry ∈ aggregate entries, ∀ field,
    count field entry = total field (members label (label entry) entries)
  /-- The parts of the list may be aggregated first. -/
  parts : ∀ early late, entries = early ++ late ->
    aggregate entries = aggregate (aggregate early ++ aggregate late)
  /-- The order of the list only matters for the order of the result. -/
  orders : ∀ other, other.Perm entries -> (aggregate other).Perm (aggregate entries)

/-- The joined texts tell the labels of a list apart. -/
def ToldApart (entries : List TokenUsage) : Prop :=
  ∀ one ∈ entries, ∀ other ∈ entries,
    groupKey (label one) = groupKey (label other) -> label one = label other

/-- Every sum is one the schema admits. -/
def SumsFit (entries : List TokenUsage) : Prop :=
  ∀ name field, (total field (members label name entries)).getD 0 ≤ maxTokenCount

/-! ## The abstract aggregation -/

theorem labels_summary (entries : List TokenUsage) :
    (summary entries).map label = (entries.map label).eraseDups := by
  rw [summary, List.map_map]
  exact List.map_id' _

theorem mem_summary {entry : TokenUsage} {entries : List TokenUsage} (member : entry ∈ summary entries) :
    label entry ∈ entries.map label ∧ entry = totals entries (label entry) := by
  rcases List.mem_map.mp member with ⟨name, present, rfl⟩
  exact ⟨List.mem_eraseDups.mp present, rfl⟩

/-- Of a label that appears the summary has its totals, and nothing else. -/
theorem members_summary (entries : List TokenUsage) {name : Label} (present : name ∈ entries.map label) :
    members label name (summary entries) = [totals entries name] := by
  have single : ∀ {names : List Label}, names.Nodup -> name ∈ names ->
      members label name (names.map (totals entries)) = [totals entries name] := by
    intro names nodup member
    rcases List.append_of_mem member with ⟨before, after, rfl⟩
    have middle := List.nodup_cons.mp (List.nodup_middle.mp nodup)
    have apart : ∀ part : List Label, name ∉ part ->
        members label name (part.map (totals entries)) = [] := by
      intro part absent
      apply members_eq_nil
      rw [List.map_map]
      exact fun inPart => absent ((List.map_id' part) ▸ inPart)
    rw [List.map_append, List.map_cons, members_append, apart before fun member =>
      middle.1 (List.mem_append_left _ member), List.nil_append]
    have rest := apart after fun member => middle.1 (List.mem_append_right _ member)
    rw [members] at rest ⊢
    rw [List.filter_cons_of_pos (by simp [totals]), rest]
  exact single (nodup_eraseDups _) (List.mem_eraseDups.mpr present)

/-- Summing the totals of the parts is summing the parts. -/
theorem total_members_summary (field : CountKey) (entries : List TokenUsage) (name : Label) :
    total field (members label name (summary entries)) = total field (members label name entries) := by
  by_cases present : name ∈ entries.map label
  · rw [members_summary entries present, total_singleton, totals, count_tokenUsage]
  · have absent : name ∉ (summary entries).map label := by
      rw [labels_summary]
      exact fun member => present (List.mem_eraseDups.mp member)
    rw [members_eq_nil label present, members_eq_nil label absent]

/-- Summaries of the parts sum up to the summary of the whole. -/
theorem summary_append (early late : List TokenUsage) :
    summary (summary early ++ summary late) = summary (early ++ late) := by
  have names : ((summary early ++ summary late).map label).eraseDups = ((early ++ late).map label).eraseDups := by
    rw [List.map_append, labels_summary, labels_summary, eraseDups_append_eraseDups, List.map_append]
  unfold summary at names ⊢
  rw [names]
  apply List.map_congr_left
  intro name _
  refine entry_ext rfl ?_
  intro field
  simp only [totals, count_tokenUsage, members_append, total_append]
  exact congrArg₂ plus (total_members_summary field early name) (total_members_summary field late name)

/-- The order of the entries only orders the result. -/
theorem summary_perm {entries other : List TokenUsage} (perm : other.Perm entries) :
    (summary other).Perm (summary entries) := by
  have same : totals other = totals entries := by
    funext name
    refine entry_ext rfl ?_
    intro field
    simp only [totals, count_tokenUsage]
    exact total_perm field (perm.filter _)
  rw [summary, summary, same]
  exact (eraseDups_perm (perm.map label)).map _

/-- The abstract aggregation keeps every part of what is owed. -/
theorem partitions_summary (entries : List TokenUsage) : Partitions summary entries where
  labels := labels_summary entries
  counts := by
    intro entry member field
    rw [congrArg (count field) (mem_summary member).2, totals, count_tokenUsage]
  parts := by
    rintro early late rfl
    exact (summary_append early late).symm
  orders := fun _ perm => summary_perm perm

/-! ## Sums in bounds -/

theorem wellFormed_members {entries : List TokenUsage} (wellFormed : ∀ entry ∈ entries, WellFormed entry)
    (name : Label) : ∀ entry ∈ members label name entries, WellFormed entry := by
  intro entry member
  exact wellFormed entry (List.mem_filter.mp member).1

/-- The sums of admitted entries are admitted if they fit. -/
theorem wellFormed_totals {entries : List TokenUsage} (wellFormed : ∀ entry ∈ entries, WellFormed entry)
    (fits : SumsFit entries) (name : Label) : WellFormed (totals entries name) := by
  intro field value carried
  rw [totals, count_tokenUsage] at carried
  have lower := total_nonneg field (wellFormed_members wellFormed name)
  have upper := fits name field
  rw [carried] at lower upper
  exact ⟨lower, upper⟩

theorem wellFormed_summary {entries : List TokenUsage} (wellFormed : ∀ entry ∈ entries, WellFormed entry)
    (fits : SumsFit entries) : ∀ entry ∈ summary entries, WellFormed entry := by
  intro entry member
  rw [(mem_summary member).2]
  exact wellFormed_totals wellFormed fits (label entry)

/-- The parts fit where the whole does. -/
theorem sumsFit_append {early late : List TokenUsage}
    (wellFormed : ∀ entry ∈ early ++ late, WellFormed entry) (fits : SumsFit (early ++ late)) :
    SumsFit early ∧ SumsFit late := by
  have parts : ∀ name field,
      (total field (members label name early)).getD 0 + (total field (members label name late)).getD 0 ≤
        maxTokenCount := by
    intro name field
    have whole := fits name field
    rw [members_append, total_append, getD_plus] at whole
    exact whole
  rw [List.forall_mem_append] at wellFormed
  constructor
  · intro name field
    have rest := total_nonneg field (wellFormed_members wellFormed.2 name)
    have both := parts name field
    omega
  · intro name field
    have before := total_nonneg field (wellFormed_members wellFormed.1 name)
    have both := parts name field
    omega

/-- The sums of the sums are the sums. -/
theorem sumsFit_summary {early late : List TokenUsage} (fits : SumsFit (early ++ late)) :
    SumsFit (summary early ++ summary late) := by
  intro name field
  have whole := fits name field
  rw [members_append, total_append] at whole ⊢
  rw [total_members_summary, total_members_summary]
  exact whole

theorem SumsFit.perm {entries other : List TokenUsage} (fits : SumsFit entries) (perm : other.Perm entries) :
    SumsFit other := by
  intro name field
  rw [members, total_perm field (perm.filter _)]
  exact fits name field

/-! ## The Python version -/

namespace Python

theorem get?_grouped (entries : List TokenUsage) {name : Label} (present : name ∈ entries.map label) :
    ∃ counts, (grouped entries).get? name = some counts ∧
      ∀ field, counts.get? field = total field (members label name entries) := by
  refine ⟨(members label name entries).foldl addCounts OrderedMap.empty, ?_, ?_⟩
  · rw [grouped, get?_group]
    cases found : members label name entries with
    | nil => exact absurd found (members_ne_nil label present)
    | cons first rest => rfl
  · intro field
    rw [get?_foldl_addCounts, OrderedMap.get?_empty, none_plus]

/-- A group has the counts of its label. -/
theorem get?_of_mem_grouped {entries : List TokenUsage} {group : Label × Counts}
    (member : group ∈ (grouped entries).entries) (field : CountKey) :
    group.2.get? field = total field (members label group.1 entries) := by
  have found := ((grouped entries).mem_entries_iff group.1 group.2).mp member
  have present : group.1 ∈ entries.map label := by
    apply List.mem_eraseDups.mp
    rw [← keys_group label (fun _ => OrderedMap.empty) addCounts entries]
    exact List.mem_map_of_mem member
  rcases get?_grouped entries present with ⟨counts, under, sums⟩
  cases under.symm.trans found
  exact sums field

/-- The Python version computes the abstract aggregation where the sums fit. -/
theorem aggregateTokenUsage_eq {entries : List TokenUsage} (wellFormed : ∀ entry ∈ entries, WellFormed entry)
    (fits : SumsFit entries) : aggregateTokenUsage entries = some (summary entries) := by
  have each : ∀ group ∈ (grouped entries).entries,
      tokenUsage group.1 group.2 = some (totals entries group.1) := by
    intro group member
    have sums := get?_of_mem_grouped member
    have admitted := wellFormed_totals wellFormed fits group.1
    have within : ∀ field, ∀ value ∈ group.2.get? field, InBounds value := by
      intro field value carried
      apply admitted field value
      rw [totals, Usage.count_tokenUsage, ← sums field]
      exact carried
    rcases tokenUsage_eq within with ⟨entry, made, labeled, counted⟩
    rw [made]
    apply congrArg some
    apply entry_ext labeled
    intro field
    rw [counted, sums, totals, Usage.count_tokenUsage]
  have keys := keys_group label (fun _ => (OrderedMap.empty : Counts)) addCounts entries
  rw [aggregateTokenUsage, mapM_eq_some_map each, summary, ← keys, OrderedMap.keys, List.map_map]
  rfl

/-- Where a sum does not fit, the Python version raises an error. -/
theorem sumsFit_of_aggregate {entries aggregated : List TokenUsage}
    (made : aggregateTokenUsage entries = some aggregated) : SumsFit entries := by
  intro name field
  by_cases present : name ∈ entries.map label
  · rcases get?_grouped entries present with ⟨counts, under, sums⟩
    have member := ((grouped entries).mem_entries_iff name counts).mpr under
    rcases exists_mem_results made member with ⟨entry, _, built⟩
    have within := inBounds_of_tokenUsage built field
    rw [sums field] at within
    cases summed : total field (members label name entries) with
    | none => decide
    | some sum => exact (within sum summed).2
  · rw [members_eq_nil label present, total_nil]
    decide

end Python

/-! ## The TypeScript version -/

section

variable {entries : List TokenUsage}

theorem get?_grouped (apart : ToldApart entries) (wellFormed : ∀ entry ∈ entries, WellFormed entry)
    (fits : SumsFit entries) {name : Label} (present : name ∈ entries.map label) :
    (grouped entries).get? (groupKey name) = some (totals entries name) := by
  have same : members (fun entry => groupKey (label entry)) (groupKey name) entries = members label name entries := by
    apply List.filter_congr
    intro entry member
    rcases List.mem_map.mp present with ⟨other, otherIn, rfl⟩
    exact decide_eq_decide.mpr ⟨apart entry member other otherIn, congrArg groupKey⟩
  rw [grouped, get?_group, same]
  cases found : members label name entries with
  | nil => exact absurd found (members_ne_nil label present)
  | cons first rest =>
    have first_label : label first = name := by
      have member : first ∈ members label name entries := found ▸ List.mem_cons_self
      exact of_decide_eq_true (List.mem_filter.mp member).2
    apply congrArg some
    apply entry_ext
    · rw [label_foldl_addCounts]
      exact first_label
    · intro field
      have begun : count field { provider := first.provider, model := first.model } = none := by
        cases field <;> rfl
      have within := fits name field
      rw [count_foldl_addCounts field (found ▸ wellFormed_members wellFormed name), begun, none_plus, totals,
        count_tokenUsage, found]
      · rw [begun]
        exact Int.le_refl 0
      · rw [begun, ← found]
        exact (Int.zero_add _).trans_le within

/-- Where labels are told apart and sums fit, the TypeScript version computes it. -/
theorem aggregateTokenUsage_eq (apart : ToldApart entries) (wellFormed : ∀ entry ∈ entries, WellFormed entry)
    (fits : SumsFit entries) : aggregateTokenUsage entries = summary entries := by
  unfold aggregateTokenUsage summary
  apply OrderedMap.values_eq groupKey
  · rw [grouped, keys_group]
    have spelled := eraseDups_map groupKey (entries.map label) (by
      intro one oneIn other otherIn same
      rcases List.mem_map.mp oneIn with ⟨first, firstIn, rfl⟩
      rcases List.mem_map.mp otherIn with ⟨second, secondIn, rfl⟩
      exact apart first firstIn second secondIn same)
    rw [List.map_map] at spelled
    exact spelled
  · intro name member
    exact get?_grouped apart wellFormed fits (List.mem_eraseDups.mp member)

theorem ToldApart.of_labels {other : List TokenUsage} (apart : ToldApart entries)
    (labels : ∀ entry ∈ other, label entry ∈ entries.map label) : ToldApart other := by
  intro one oneIn two twoIn same
  rcases List.mem_map.mp (labels one oneIn) with ⟨first, firstIn, firstSame⟩
  rcases List.mem_map.mp (labels two twoIn) with ⟨second, secondIn, secondSame⟩
  rw [← firstSame, ← secondSame] at same ⊢
  exact apart first firstIn second secondIn same

theorem partitions_of_toldApart (apart : ToldApart entries) (wellFormed : ∀ entry ∈ entries, WellFormed entry)
    (fits : SumsFit entries) : Partitions aggregateTokenUsage entries where
  labels := by
    rw [aggregateTokenUsage_eq apart wellFormed fits, labels_summary]
  counts := by
    rw [aggregateTokenUsage_eq apart wellFormed fits]
    exact (partitions_summary entries).counts
  parts := by
    rintro early late rfl
    have earlyApart : ToldApart early := apart.of_labels fun entry member =>
      List.mem_map_of_mem (List.mem_append_left _ member)
    have lateApart : ToldApart late := apart.of_labels fun entry member =>
      List.mem_map_of_mem (List.mem_append_right _ member)
    have again : ToldApart (summary early ++ summary late) := by
      apply apart.of_labels
      intro entry member
      rw [List.map_append]
      rcases List.mem_append.mp member with inEarly | inLate
      · exact List.mem_append_left _ (mem_summary inEarly).1
      · exact List.mem_append_right _ (mem_summary inLate).1
    have partsFit := sumsFit_append wellFormed fits
    have admitted := List.forall_mem_append.mp wellFormed
    have admittedAgain : ∀ entry ∈ summary early ++ summary late, WellFormed entry :=
      List.forall_mem_append.mpr
        ⟨wellFormed_summary admitted.1 partsFit.1, wellFormed_summary admitted.2 partsFit.2⟩
    rw [aggregateTokenUsage_eq apart wellFormed fits, aggregateTokenUsage_eq earlyApart admitted.1 partsFit.1,
      aggregateTokenUsage_eq lateApart admitted.2 partsFit.2,
      aggregateTokenUsage_eq again admittedAgain (sumsFit_summary fits)]
    exact (summary_append early late).symm
  orders := by
    intro other perm
    have otherApart : ToldApart other := apart.of_labels fun entry member =>
      List.mem_map_of_mem (perm.mem_iff.mp member)
    have otherFormed : ∀ entry ∈ other, WellFormed entry := fun entry member =>
      wellFormed entry (perm.mem_iff.mp member)
    rw [aggregateTokenUsage_eq apart wellFormed fits, aggregateTokenUsage_eq otherApart otherFormed (fits.perm perm)]
    exact summary_perm perm

/-- Every entry of the result has the joined text it stands under. -/
theorem groupKey_aggregate (entries : List TokenUsage) :
    (aggregateTokenUsage entries).map (fun entry => groupKey (label entry)) = (grouped entries).keys := by
  rw [aggregateTokenUsage, List.map_map, OrderedMap.keys]
  apply List.map_congr_left
  intro entry member
  have found := ((grouped entries).mem_entries_iff entry.1 entry.2).mp member
  rw [grouped, get?_group] at found
  cases group : members (fun entry => groupKey (label entry)) entry.1 entries with
  | nil =>
    rw [group] at found
    cases found
  | cons first rest =>
    have member : first ∈ members (fun entry => groupKey (label entry)) entry.1 entries := group ▸ List.mem_cons_self
    rw [group] at found
    have value : (first :: rest).foldl addCounts { provider := first.provider, model := first.model } = entry.2 :=
      Option.some.inj found
    change groupKey (label entry.2) = entry.1
    rw [← value, label_foldl_addCounts]
    exact of_decide_eq_true (List.mem_filter.mp member).2

/-- One entry for each label leaves no two labels under one text. -/
theorem toldApart_of_labels (labels : (aggregateTokenUsage entries).map label = (entries.map label).eraseDups) :
    ToldApart entries := by
  have nodup : ((aggregateTokenUsage entries).map fun entry => groupKey (label entry)).Nodup := by
    rw [groupKey_aggregate]
    exact (grouped entries).keys_nodup
  intro one oneIn other otherIn same
  have listed : ∀ entry ∈ entries, ∃ summed ∈ aggregateTokenUsage entries,
      label summed = label entry := by
    intro entry member
    have present : label entry ∈ (aggregateTokenUsage entries).map label := by
      rw [labels]
      exact List.mem_eraseDups.mpr (List.mem_map_of_mem member)
    exact List.mem_map.mp present
  rcases listed one oneIn with ⟨first, firstIn, firstLabel⟩
  rcases listed other otherIn with ⟨second, secondIn, secondLabel⟩
  rw [← firstLabel, ← secondLabel] at same ⊢
  exact congrArg label (List.inj_on_of_nodup_map nodup firstIn secondIn same)

end

/-- Of entries the schema admits, the TypeScript aggregation has one entry for each
pair of provider and model, and agrees with the Python one, exactly if no two
pairs are joined to one text and no sum leaves the bounds of the schema. -/
theorem aggregateTokenUsage_partitions_iff (entries : List TokenUsage)
    (wellFormed : ∀ entry ∈ entries, WellFormed entry) :
    (Partitions aggregateTokenUsage entries ∧
      Python.aggregateTokenUsage entries = some (aggregateTokenUsage entries)) ↔
      ToldApart entries ∧ SumsFit entries := by
  constructor
  · rintro ⟨partitions, agree⟩
    exact ⟨toldApart_of_labels partitions.labels, Python.sumsFit_of_aggregate agree⟩
  · rintro ⟨apart, fits⟩
    refine ⟨partitions_of_toldApart apart wellFormed fits, ?_⟩
    rw [aggregateTokenUsage_eq apart wellFormed fits, Python.aggregateTokenUsage_eq wellFormed fits]

/-- Two calls of one model. -/
theorem aggregateTokenUsage_partitions_calls :
    (Partitions aggregateTokenUsage
        [{ model := some "small", inputTokens := some 3 }, { model := some "small", outputTokens := some 5 }] ∧
      Python.aggregateTokenUsage
          [{ model := some "small", inputTokens := some 3 }, { model := some "small", outputTokens := some 5 }] =
        some (aggregateTokenUsage
          [{ model := some "small", inputTokens := some 3 }, { model := some "small", outputTokens := some 5 }])) ↔
      ToldApart
          [{ model := some "small", inputTokens := some 3 }, { model := some "small", outputTokens := some 5 }] ∧
        SumsFit
          [{ model := some "small", inputTokens := some 3 }, { model := some "small", outputTokens := some 5 }] := by
  apply aggregateTokenUsage_partitions_iff
  intro entry member field value carried
  simp only [List.mem_cons, List.not_mem_nil, or_false] at member
  rcases member with rfl | rfl <;> cases field <;> cases carried <;> decide

/-- An absent provider and an empty one are joined to one text, and of two calls
whose counts add up to more than the schema admits Python raises an error. -/
theorem absentProvider_merged :
    ¬ (Partitions aggregateTokenUsage [{ inputTokens := some 1 }, { provider := some "", inputTokens := some 2 }] ∧
      Python.aggregateTokenUsage [{ inputTokens := some 1 }, { provider := some "", inputTokens := some 2 }] =
        some (aggregateTokenUsage [{ inputTokens := some 1 }, { provider := some "", inputTokens := some 2 }])) ∧
    Python.aggregateTokenUsage [{ inputTokens := some maxTokenCount }, { inputTokens := some 1 }] = none := by
  constructor
  · rintro ⟨partitions, _⟩
    have labels := partitions.labels
    revert labels
    decide
  · have raises : (Python.aggregateTokenUsage
        [{ inputTokens := some maxTokenCount }, { inputTokens := some 1 }]).isNone = true := by
      decide
    exact Option.isNone_iff_eq_none.mp raises

end Usage
end AgUi
