import DocumentSummarizer.Coherent.ResponseUnits
import DocumentSummarizer.Pipeline.ContractIdentities

/-! # Which responses are admitted

An answer is admitted exactly when each of its units may stand and no two say the same
over the same evidence; and every id that the schema offers is one that a unit may cite.
-/

namespace DocumentSummarizer.Coherent

open DocumentSummarizer.Library DocumentSummarizer.Pipeline

/-! ## Lists with one value -/

section Uniform

variable {α β : Type} {f : α → Option β} {xs : List α}

theorem filterMap_eq_replicate {v : β} (same : ∀ x ∈ xs, f x = some v) :
    xs.filterMap f = List.replicate xs.length v := by
  induction xs with
  | nil => rfl
  | cons x rest ih =>
      obtain ⟨here, further⟩ := List.forall_mem_cons.mp same
      rw [List.filterMap_cons_some here, ih further]
      rfl

theorem length_filterMap_eq_iff :
    (xs.filterMap f).length = xs.length ↔ ∀ x ∈ xs, f x ≠ none := by
  induction xs with
  | nil => simp
  | cons x rest ih =>
      cases value : f x with
      | none =>
          have := List.length_filterMap_le f rest
          rw [List.filterMap_cons_none value]
          simp only [List.length_cons, List.forall_mem_cons, value, ne_eq, not_true, false_and,
            iff_false]
          omega
      | some v => simp [List.filterMap_cons_some value, ih, value]

variable [DecidableEq β]

theorem uniform_cases (uniform : ∀ a ∈ xs, ∀ b ∈ xs, f a = f b) (nonempty : xs ≠ []) :
    ((xs.filterMap f).dedup = [] ∧ ∀ x ∈ xs, f x = none) ∨
      ∃ v, (xs.filterMap f).dedup = [v] ∧ ∀ x ∈ xs, f x = some v := by
  obtain ⟨first, rest, rfl⟩ := List.exists_cons_of_ne_nil nonempty
  have same : ∀ x ∈ first :: rest, f x = f first := fun x mem =>
    uniform x mem first List.mem_cons_self
  cases value : f first with
  | none =>
      rw [value] at same
      left
      have empty : (first :: rest).filterMap f = [] := List.filterMap_eq_nil_iff.mpr same
      exact ⟨by rw [empty, List.dedup_nil], same⟩
  | some v =>
      rw [value] at same
      right
      refine ⟨v, ?_, same⟩
      rw [filterMap_eq_replicate same, List.replicate_dedup (by simp)]

theorem uniform_of_none (none : (xs.filterMap f).dedup = []) :
    ∀ x ∈ xs, f x = .none := by
  rw [List.dedup_eq_nil] at none
  exact List.filterMap_eq_nil_iff.mp none

theorem uniform_of_one {v : β} (one : (xs.filterMap f).dedup = [v])
    (valued : ∀ x ∈ xs, f x ≠ none) : ∀ x ∈ xs, f x = some v := by
  intro x mem
  cases value : f x with
  | none => exact absurd value (valued x mem)
  | some w =>
      have held : w ∈ (xs.filterMap f).dedup :=
        List.mem_dedup.mpr (List.mem_filterMap.mpr ⟨x, mem, value⟩)
      rw [one, List.mem_singleton] at held
      rw [held]

theorem windows_uniform (nonempty : xs ≠ []) :
    (¬ ((xs.filterMap f).dedup ≠ [] ∧
      ((xs.filterMap f).dedup.length ≠ 1 ∨ ∃ x ∈ xs, f x = none))) ↔
      ∀ a ∈ xs, ∀ b ∈ xs, f a = f b := by
  constructor
  · intro passed a memA b memB
    by_cases none : (xs.filterMap f).dedup = []
    · rw [uniform_of_none none a memA, uniform_of_none none b memB]
    · have valued : ∀ x ∈ xs, f x ≠ .none := fun x mem missing =>
        passed ⟨none, .inr ⟨x, mem, missing⟩⟩
      have single : (xs.filterMap f).dedup.length = 1 := by
        by_contra several
        exact passed ⟨none, .inl several⟩
      obtain ⟨v, one⟩ := List.length_eq_one_iff.mp single
      rw [uniform_of_one one valued a memA, uniform_of_one one valued b memB]
  · rintro uniform ⟨several, refused⟩
    rcases uniform_cases uniform nonempty with ⟨none, _⟩ | ⟨v, one, same⟩
    · exact several none
    · rcases refused with other | ⟨x, mem, missing⟩
      · exact other (by rw [one]; rfl)
      · rw [same x mem] at missing
        cases missing

end Uniform

/-! ## The segments of a unit -/

/-- Segments have ids of their own, and evidence of their own. -/
structure DistinctSources (catalog : SourceCatalog) : Prop where
  requests : (catalog.candidates.map (·.requestId)).Nodup
  evidence : (catalog.candidates.map (·.evidence.evidenceId)).Nodup

section Sources

variable {catalog : SourceCatalog} {sourceId : String} {found : Nat × SourceCandidate}

theorem getElem?_inj_of_requestId (distinct : DistinctSources catalog) {i j : Nat}
    {a b : SourceCandidate} (here : catalog.candidates[i]? = some a)
    (there : catalog.candidates[j]? = some b) (same : a.requestId = b.requestId) : i = j := by
  have first : (catalog.candidates.map (·.requestId))[i]? = some a.requestId := by simp [here]
  have second : (catalog.candidates.map (·.requestId))[j]? = some b.requestId := by simp [there]
  obtain ⟨inside, _⟩ := List.getElem?_eq_some_iff.mp first
  have also := first.trans (same ▸ second.symm)
  exact (List.getElem?_inj inside distinct.requests).mp also

theorem findSource_eq_some (distinct : DistinctSources catalog) :
    findSource catalog sourceId = some found ↔
      catalog.candidates[found.1]? = some found.2 ∧ found.2.requestId = sourceId := by
  have stands {entry : SourceCandidate × Nat}
      (located : catalog.candidates.zipIdx.reverse.find?
        (fun entry => decide (entry.1.requestId = sourceId)) = some entry) :
      catalog.candidates[entry.2]? = some entry.1 ∧ entry.1.requestId = sourceId := by
    have mem := List.mem_reverse.mp (List.mem_of_find?_eq_some located)
    exact ⟨List.mem_zipIdx_iff_getElem?.mp mem, by simpa using List.find?_some located⟩
  constructor
  · intro located
    obtain ⟨entry, there, rfl⟩ := Option.map_eq_some_iff.mp located
    exact stands there
  · rintro ⟨here, named⟩
    cases located : catalog.candidates.zipIdx.reverse.find?
        (fun entry => decide (entry.1.requestId = sourceId)) with
    | none =>
        have mem : (found.2, found.1) ∈ catalog.candidates.zipIdx :=
          List.mem_zipIdx_iff_getElem?.mpr here
        have missed := List.find?_eq_none.mp located _ (List.mem_reverse.mpr mem)
        simp [named] at missed
    | some entry =>
        obtain ⟨there, named'⟩ := stands located
        have same := getElem?_inj_of_requestId distinct there here (named'.trans named.symm)
        have candidate : entry.1 = found.2 := by
          rw [same, here] at there
          exact (Option.some.inj there).symm
        simp only [findSource, located, Option.map_some, same, candidate]

theorem findSource_isSome (distinct : DistinctSources catalog)
    (known : sourceId ∈ catalog.candidates.map (·.requestId)) :
    ∃ found, findSource catalog sourceId = some found := by
  obtain ⟨candidate, mem, rfl⟩ := List.mem_map.mp known
  obtain ⟨i, inside, rfl⟩ := List.mem_iff_getElem.mp mem
  exact ⟨(i, catalog.candidates[i]), (findSource_eq_some distinct).mpr
    ⟨List.getElem?_eq_getElem inside, rfl⟩⟩

variable {sources : List (Nat × SourceCandidate)}

theorem findSources_ok {unitSources sourceIds : List String}
    :
    findSources catalog unitSources sourceIds = .ok sources ↔
      sourceIds.Nodup ∧ (∀ sourceId ∈ sourceIds, sourceId ∉ unitSources) ∧
        List.Forall₂ (fun sourceId source => findSource catalog sourceId = some source)
          sourceIds sources := by
  induction sourceIds generalizing unitSources sources with
  | nil =>
      simp only [findSources, List.nodup_nil, List.not_mem_nil, false_implies, implies_true,
        List.forall₂_nil_left_iff, true_and, Except.ok.injEq]
      exact eq_comm
  | cons sourceId later ih =>
      simp only [findSources, peel_ok, okOrElse_eq_ok, refuseIf_eq_ok, return_ok, ih,
        List.nodup_cons, List.forall_mem_cons, List.forall₂_cons_left_iff]
      constructor
      · rintro ⟨found, here, _, fresh, others, ⟨distinct, apart, each⟩, rfl⟩
        refine ⟨⟨fun repeated => ?_, distinct⟩, ⟨fresh, fun id mem seen => ?_⟩,
          found, others, here, each, rfl⟩
        · exact apart sourceId repeated List.mem_cons_self
        · exact apart id mem (List.mem_cons_of_mem _ seen)
      · rintro ⟨⟨once, distinct⟩, ⟨fresh, apart⟩, found, others, here, each, rfl⟩
        refine ⟨found, here, ⟨⟩, fresh, others, ⟨distinct, fun id mem seen => ?_, each⟩, rfl⟩
        rcases List.mem_cons.mp seen with rfl | old
        · exact once mem
        · exact apart id mem old

theorem sources_stand (distinct : DistinctSources catalog) {sourceIds : List String}
    (each : List.Forall₂ (fun sourceId source => findSource catalog sourceId = some source)
      sourceIds sources) :
    sources.map (·.2.requestId) = sourceIds ∧
      ∀ source ∈ sources, catalog.candidates[source.1]? = some source.2 := by
  induction each with
  | nil => exact ⟨rfl, by simp⟩
  | cons here _ ih =>
      obtain ⟨stands, named⟩ := (findSource_eq_some distinct).mp here
      exact ⟨by rw [List.map_cons, named, ih.1], List.forall_mem_cons.mpr ⟨stands, ih.2⟩⟩

/-- Sorted by their places, the segments are those of the catalog that the unit cites. -/
theorem sorted_sources (distinct : DistinctSources catalog) {unit : RawUnit}
    (once : unit.sourceIds.Nodup)
    (each : List.Forall₂ (fun sourceId source => findSource catalog sourceId = some source)
      unit.sourceIds sources) :
    (sources.insertionSort fun a b => a.1 ≤ b.1).map (·.2) = citedSources catalog unit := by
  obtain ⟨ids, stands⟩ := sources_stand distinct each
  let cited := (catalog.candidates.zipIdx.filter fun entry =>
    decide (entry.1.requestId ∈ unit.sourceIds)).map fun entry => (entry.2, entry.1)
  have ordered : cited.Pairwise fun a b => a.1 ≤ b.1 := by
    rw [List.pairwise_map]
    apply List.Pairwise.filter
    have places : (catalog.candidates.zipIdx.map (·.2)).Pairwise (· < ·) := by
      rw [List.zipIdx_map_snd]
      exact List.pairwise_lt_range'
    exact (List.pairwise_map.mp places).imp fun less => Nat.le_of_lt less
  have members (source : Nat × SourceCandidate) : source ∈ cited ↔ source ∈ sources := by
    simp only [cited, List.mem_map, List.mem_filter, List.mem_zipIdx_iff_getElem?,
      decide_eq_true_eq]
    constructor
    · rintro ⟨entry, ⟨here, named⟩, rfl⟩
      rw [← ids] at named
      obtain ⟨source, mem, same⟩ := List.mem_map.mp named
      have place := getElem?_inj_of_requestId distinct (stands source mem) here same
      have candidate : source.2 = entry.1 := by
        have there := stands source mem
        rw [place, here] at there
        exact (Option.some.inj there).symm
      have whole : source = (entry.2, entry.1) := Prod.ext place candidate
      exact whole ▸ mem
    · intro mem
      refine ⟨(source.2, source.1), ⟨stands source mem, ?_⟩, rfl⟩
      rw [← ids]
      exact List.mem_map_of_mem mem
  have onceSources : sources.Nodup := by
    apply List.Nodup.of_map (·.2.requestId)
    rw [ids]
    exact once
  have onceCited : cited.Nodup := by
    apply List.Nodup.map
    · intro a b same
      simp only [Prod.mk.injEq] at same
      exact Prod.ext same.2 same.1
    · apply List.Nodup.filter
      apply List.Nodup.of_map (·.2)
      rw [List.zipIdx_map_snd]
      exact List.nodup_range'
  have perm : cited.Perm sources := (List.perm_ext_iff_of_nodup onceCited onceSources).mpr members
  have sorted : sources.insertionSort (fun a b => a.1 ≤ b.1) = cited := by
    refine List.Perm.eq_of_pairwise ?_ (List.pairwise_insertionSort _ _) ordered
      ((List.perm_insertionSort _ _).trans perm.symm)
    intro a b memA memB below above
    have memA := (List.mem_insertionSort _).mp memA
    have memB := (members b).mp memB
    have place : a.1 = b.1 := Nat.le_antisymm below above
    have candidate : a.2 = b.2 := by
      have here := stands a memA
      have there := stands b memB
      rw [place, there] at here
      exact (Option.some.inj here).symm
    exact Prod.ext place candidate
  rw [sorted, List.map_map, citedSources]
  have dropped : (catalog.candidates.zipIdx.filter fun entry =>
      decide (entry.1.requestId ∈ unit.sourceIds)).map (·.1) =
      (catalog.candidates.zipIdx.map (·.1)).filter fun candidate =>
        decide (candidate.requestId ∈ unit.sourceIds) := by
    rw [List.filter_map]
    rfl
  rw [List.zipIdx_map_fst] at dropped
  exact dropped

end Sources

/-! ## One unit -/

section Units

variable {tables : CompletionTables} {profile : SummaryProfile} {catalog : SourceCatalog}
  {maximumCharacters : Nat} {unit : RawUnit} {sources : List (Nat × SourceCandidate)}
  {text : String} {validated : String × List String}

/-- The text with the framing that all segments of a unit have. -/
def framedText (profile : SummaryProfile) (text : String)
    (sources : List (Nat × SourceCandidate)) : String :=
  match sources.head?.bind (unitFraming profile) with
  | none => text
  | some framing => framing.renderClaim text

theorem validateSources_ok (nonempty : sources ≠ []) :
    validateSources profile text sources = .ok validated ↔
      (∀ a ∈ sources, ∀ b ∈ sources, a.2.selectionWindow = b.2.selectionWindow) ∧
      (∀ a ∈ sources, ∀ b ∈ sources, unitFraming profile a = unitFraming profile b) ∧
      validated = (framedText profile text sources,
        (sources.insertionSort fun a b => a.1 ≤ b.1).map (·.2.evidence.evidenceId)) := by
  have windows := windows_uniform (f := fun source : Nat × SourceCandidate =>
    source.2.selectionWindow) nonempty
  have lengths : ((sources.insertionSort fun a b => a.1 ≤ b.1).map
      (·.2.evidence.evidenceId)).length = sources.length := by simp
  simp only [validateSources, peel_ok, refuseIf_eq_ok]
  rw [windows, lengths]
  obtain ⟨first, rest, rfl⟩ := List.exists_cons_of_ne_nil nonempty
  constructor
  · rintro ⟨_, oneWindow, _, counted, answer⟩
    refine ⟨oneWindow, ?_⟩
    cases framed : ((first :: rest).filterMap (unitFraming profile)).dedup with
    | nil =>
        have none := uniform_of_none framed
        rw [framed] at answer
        simp only [return_ok] at answer
        refine ⟨fun a memA b memB => by rw [none a memA, none b memB], ?_⟩
        have head := none first List.mem_cons_self
        simp [framedText, head, ← answer]
    | cons framing others =>
        rw [framed] at answer
        cases others with
        | cons other more => cases answer
        | nil =>
            simp only [return_ok] at answer
            have some : 0 < ((first :: rest).filterMap (unitFraming profile)).length := by
              have held : framing ∈ ((first :: rest).filterMap (unitFraming profile)).dedup := by
                rw [framed]
                exact List.mem_cons_self
              exact List.length_pos_of_mem (List.mem_dedup.mp held)
            have valued := length_filterMap_eq_iff.mp
              (by by_contra short; exact counted ⟨some, short⟩)
            have same := uniform_of_one framed valued
            refine ⟨fun a memA b memB => by rw [same a memA, same b memB], ?_⟩
            have head := same first List.mem_cons_self
            simp [framedText, head, ← answer]
  · rintro ⟨oneWindow, oneFraming, rfl⟩
    refine ⟨⟨⟩, oneWindow, ⟨⟩, ?_⟩
    rcases uniform_cases oneFraming (by simp) with ⟨framed, none⟩ | ⟨framing, framed, same⟩
    · have empty : (first :: rest).filterMap (unitFraming profile) = [] :=
        List.filterMap_eq_nil_iff.mpr none
      have head := none first List.mem_cons_self
      refine ⟨by simp [empty], ?_⟩
      rw [framed]
      simp [framedText, head, return_ok]
    · have valued : ∀ source ∈ first :: rest, unitFraming profile source ≠ .none := by
        intro source mem missing
        rw [same source mem] at missing
        cases missing
      have all := length_filterMap_eq_iff.mpr valued
      have head := same first List.mem_cons_self
      refine ⟨fun refused => refused.2 all, ?_⟩
      rw [framed]
      simp [framedText, head, return_ok]

theorem sources_uniform_iff {α : Type} (distinct : DistinctSources catalog)
    (once : unit.sourceIds.Nodup)
    (each : List.Forall₂ (fun sourceId source => findSource catalog sourceId = some source)
      unit.sourceIds sources) (f : SourceCandidate → α) :
    (∀ a ∈ sources, ∀ b ∈ sources, f a.2 = f b.2) ↔
      ∀ a ∈ citedSources catalog unit, ∀ b ∈ citedSources catalog unit, f a = f b := by
  rw [← sorted_sources distinct once each]
  simp only [List.mem_map, List.mem_insertionSort]
  constructor
  · rintro uniform _ ⟨a, memA, rfl⟩ _ ⟨b, memB, rfl⟩
    exact uniform a memA b memB
  · intro uniform a memA b memB
    exact uniform _ ⟨a, memA, rfl⟩ _ ⟨b, memB, rfl⟩

/-- With one framing for all segments it does not matter whose framing is read. -/
theorem framedText_eq (distinct : DistinctSources catalog) (once : unit.sourceIds.Nodup)
    (each : List.Forall₂ (fun sourceId source => findSource catalog sourceId = some source)
      unit.sourceIds sources)
    (oneFraming : ∀ a ∈ sources, ∀ b ∈ sources, unitFraming profile a = unitFraming profile b) :
    framedText profile unit.text sources = renderedText profile catalog unit := by
  have sorted := sorted_sources distinct once each
  unfold framedText renderedText
  rw [← sorted]
  cases sources with
  | nil => simp
  | cons first rest =>
      have perm := List.perm_insertionSort (fun a b : Nat × SourceCandidate => a.1 ≤ b.1)
        (first :: rest)
      cases arranged : (first :: rest).insertionSort fun a b => a.1 ≤ b.1 with
      | nil =>
          rw [arranged] at perm
          exact absurd perm.length_eq (by simp)
      | cons front behind =>
          have mem : front ∈ first :: rest := perm.subset (by rw [arranged]; exact List.mem_cons_self)
          have framed : (first :: rest).head?.bind (unitFraming profile) =
              if profile = .general then front.2.sourceFraming else none :=
            oneFraming first List.mem_cons_self front mem
          rw [framed]
          rfl

/-- A unit is taken exactly when it may stand, and for what it then says. -/
theorem validateUnit_ok (distinct : DistinctSources catalog) :
    validateUnit tables profile catalog maximumCharacters unit = .ok validated ↔
      AdmissibleUnit tables profile catalog maximumCharacters unit ∧
        validated = renderedUnit profile catalog unit := by
  simp only [validateUnit, peel_ok, refuseIf_eq_ok, findSources_ok]
  constructor
  · rintro ⟨_, _, _, plain, sources, ⟨once, _, each⟩, answer⟩
    simp only [not_or, Bool.not_eq_false, Nat.not_lt] at plain
    obtain ⟨canonical, complete, cites, few⟩ := plain
    have nonempty : sources ≠ [] := by
      intro none
      subst none
      rw [List.forall₂_nil_right_iff] at each
      exact cites each
    obtain ⟨oneWindow, oneFraming, rfl⟩ := (validateSources_ok nonempty).mp answer
    have ids := (sources_stand distinct each)
    refine ⟨⟨canonical, complete, cites, few, once, ?_, ?_, ?_⟩, ?_⟩
    · intro sourceId mem
      rw [← ids.1] at mem
      obtain ⟨source, held, rfl⟩ := List.mem_map.mp mem
      exact List.mem_map_of_mem (List.mem_of_getElem? (ids.2 source held))
    · exact (sources_uniform_iff distinct once each (·.selectionWindow)).mp oneWindow
    · intro general
      apply (sources_uniform_iff distinct once each (·.sourceFraming)).mp
      intro a memA b memB
      simpa [unitFraming, general] using oneFraming a memA b memB
    · rw [framedText_eq distinct once each oneFraming, renderedUnit,
        ← sorted_sources distinct once each, List.map_map]
      rfl
  · rintro ⟨admissible, rfl⟩
    have each : ∃ sources, List.Forall₂ (fun sourceId source =>
        findSource catalog sourceId = some source) unit.sourceIds sources :=
      exists_forall₂_iff.mpr fun sourceId mem =>
        findSource_isSome distinct (admissible.known sourceId mem)
    obtain ⟨sources, each⟩ := each
    have nonempty : sources ≠ [] := by
      intro none
      subst none
      rw [List.forall₂_nil_right_iff] at each
      exact admissible.cites each
    refine ⟨⟨⟩, by simp [admissible.complete], ⟨⟩, ?_, sources,
      ⟨admissible.distinct, by simp, each⟩, (validateSources_ok nonempty).mpr ⟨?_, ?_, ?_⟩⟩
    · simpa [admissible.canonical, admissible.complete, admissible.cites] using admissible.few
    · exact (sources_uniform_iff distinct admissible.distinct each (·.selectionWindow)).mpr
        admissible.oneWindow
    · intro a memA b memB
      by_cases general : profile = .general
      · have framings := (sources_uniform_iff distinct admissible.distinct each
          (·.sourceFraming)).mpr (admissible.oneFraming general)
        simpa [unitFraming, general] using framings a memA b memB
      · simp [unitFraming, general]
    · have oneFraming : ∀ a ∈ sources, ∀ b ∈ sources,
          unitFraming profile a = unitFraming profile b := by
        intro a memA b memB
        by_cases general : profile = .general
        · have framings := (sources_uniform_iff distinct admissible.distinct each
            (·.sourceFraming)).mpr (admissible.oneFraming general)
          simpa [unitFraming, general] using framings a memA b memB
        · simp [unitFraming, general]
      rw [framedText_eq distinct admissible.distinct each oneFraming, renderedUnit,
        ← sorted_sources distinct admissible.distinct each, List.map_map]
      rfl

theorem validateUnits_ok (distinct : DistinctSources catalog)
    {signatures : List (String × List String)} {units : List RawUnit}
    {answers : List (String × List String)} :
    validateUnits tables profile catalog maximumCharacters signatures units = .ok answers ↔
      (∀ unit ∈ units, AdmissibleUnit tables profile catalog maximumCharacters unit) ∧
      answers = units.map (renderedUnit profile catalog) ∧ answers.Nodup ∧
      ∀ answer ∈ answers, answer ∉ signatures := by
  induction units generalizing signatures answers with
  | nil =>
      simp only [validateUnits, Except.ok.injEq, List.not_mem_nil, false_implies, implies_true,
        List.map_nil, true_and]
      constructor
      · rintro rfl
        exact ⟨rfl, .nil, by simp⟩
      · rintro ⟨rfl, _⟩
        rfl
  | cons unit later ih =>
      simp only [validateUnits, peel_ok, validateUnit_ok distinct, refuseIf_eq_ok, return_ok, ih,
        List.forall_mem_cons, List.map_cons]
      constructor
      · rintro ⟨_, ⟨admissible, rfl⟩, _, fresh, others, ⟨rest, rfl, once, apart⟩, rfl⟩
        refine ⟨⟨admissible, rest⟩, rfl, List.nodup_cons.mpr ⟨fun repeated => ?_, once⟩,
          List.forall_mem_cons.mpr ⟨fresh, fun answer mem seen => ?_⟩⟩
        · exact apart _ repeated List.mem_cons_self
        · exact apart answer mem (List.mem_cons_of_mem _ seen)
      · rintro ⟨⟨admissible, rest⟩, rfl, once, apart⟩
        obtain ⟨fresh, further⟩ := List.nodup_cons.mp once
        obtain ⟨here, behind⟩ := List.forall_mem_cons.mp apart
        refine ⟨_, ⟨admissible, rfl⟩, ⟨⟩, here, _, ⟨rest, rfl, further, ?_⟩, rfl⟩
        intro answer mem seen
        rcases List.mem_cons.mp seen with rfl | old
        · exact fresh mem
        · exact behind answer mem old

end Units

/-! ## The ids of the claims -/

section Claims

variable {platform : TextPlatform} (injective : Function.Injective platform.sha256Hex)

include injective

theorem deterministicClaimId_index {documentId version text text' : String} {i j : Nat}
    {evidence evidence' : List String}
    (same : deterministicClaimId platform documentId version i text evidence =
      deterministicClaimId platform documentId version j text' evidence') : i = j := by
  have parts := deterministicId_separated injective same
  simp only [List.cons_append, List.nil_append] at parts
  have indices := separated_cons_inj (toString_plain i) (toString_plain j)
    (separated_cons_cancel (separated_cons_cancel parts))
  exact Nat.repr_injective indices.1

theorem materializeCitedClaims_ok {documentId version : String}
    (validated : List (String × List String)) (start : Nat) (claimIds : List String)
    (earlier : ∀ id ∈ claimIds, ∃ i < start, ∃ text evidence,
      id = deterministicClaimId platform documentId version i text evidence) :
    ∃ claims, materializeCitedClaims platform documentId version claimIds
        (validated.zipIdx start) = .ok claims ∧
      claims.map (fun claim => (claim.text, claim.evidenceIds)) = validated := by
  induction validated generalizing start claimIds with
  | nil => exact ⟨[], rfl, rfl⟩
  | cons first later ih =>
      have fresh : deterministicClaimId platform documentId version start first.1 first.2 ∉
          claimIds := by
        intro repeated
        obtain ⟨i, before, text, evidence, same⟩ := earlier _ repeated
        have := deterministicClaimId_index injective same
        omega
      obtain ⟨others, made, texts⟩ := ih (start + 1)
        (deterministicClaimId platform documentId version start first.1 first.2 :: claimIds)
        (by
          refine List.forall_mem_cons.mpr ⟨⟨start, by omega, first.1, first.2, rfl⟩, ?_⟩
          intro id mem
          obtain ⟨i, before, rest⟩ := earlier id mem
          exact ⟨i, by omega, rest⟩)
      refine ⟨⟨deterministicClaimId platform documentId version start first.1 first.2, first.1,
        first.2⟩ :: others, ?_, by simp [texts]⟩
      rw [List.zipIdx_cons, materializeCitedClaims]
      simp only [refuseIf_of_not fresh, ok_bind rfl]
      rw [made]
      rfl

end Claims

theorem materialized_texts {platform : TextPlatform} {documentId version : String}
    {claimIds : List String} {entries : List ((String × List String) × Nat)}
    {claims : List CitedClaim}
    (made : materializeCitedClaims platform documentId version claimIds entries = .ok claims) :
    claims.map (fun claim => (claim.text, claim.evidenceIds)) = entries.map (·.1) ∧
      (claims.map (·.claimId)).Nodup ∧ ∀ claim ∈ claims, claim.claimId ∉ claimIds := by
  induction entries generalizing claimIds claims with
  | nil =>
      cases made
      exact ⟨rfl, .nil, by simp⟩
  | cons entry rest ih =>
      obtain ⟨⟨text, evidence⟩, index⟩ := entry
      simp only [materializeCitedClaims, peel_ok, refuseIf_eq_ok, return_ok] at made
      obtain ⟨_, fresh, others, later, rfl⟩ := made
      obtain ⟨texts, once, apart⟩ := ih later
      refine ⟨by simp [texts], ?_, ?_⟩
      · refine List.nodup_cons.mpr ⟨fun repeated => ?_, once⟩
        obtain ⟨claim, mem, same⟩ := List.mem_map.mp repeated
        exact apart claim mem (by rw [same]; exact List.mem_cons_self)
      · refine List.forall_mem_cons.mpr ⟨fresh, fun claim mem seen => ?_⟩
        exact apart claim mem (List.mem_cons_of_mem _ seen)

/-! ## The whole answer -/

section Answers

variable {platform : UnitPlatform} {profile : SummaryProfile} {catalog : SourceCatalog}
  {response documentId : String} {maximumUnits maximumCharacters : Nat}
  {claims : List CitedClaim} {evidence : List EvidenceItem}

theorem parseResponse_spec (distinct : DistinctSources catalog) (plain : profile ≠ .contract)
    (parsed : parseResponseWithLimits platform profile response documentId catalog maximumUnits
      maximumCharacters = .ok (claims, evidence)) :
    ∃ raw, platform.fromStr response = some raw ∧
      Admissible platform.tables profile catalog maximumUnits maximumCharacters raw ∧
      claims.map (fun claim => (claim.text, claim.evidenceIds)) =
        raw.units.map (renderedUnit profile catalog) ∧
      (claims.map (·.claimId)).Nodup ∧
      evidence = (catalog.candidates.filter fun candidate => decide
        (candidate.evidence.evidenceId ∈ claims.flatMap (·.evidenceIds))).map (·.evidence) := by
  simp only [parseResponseWithLimits, peel_ok, okOrElse_eq_ok, refuseIf_eq_ok,
    validateUnits_ok distinct, if_neg plain, pure, Except.pure, Except.ok.injEq] at parsed
  obtain ⟨raw, read, _, bounded, _, ⟨units, rfl, once, _⟩, _, rfl, claims', made, answer⟩ := parsed
  obtain ⟨rfl, rfl⟩ := Prod.mk.inj answer
  obtain ⟨texts, distinctIds, _⟩ := materialized_texts made
  rw [List.zipIdx_map_fst] at texts
  refine ⟨raw, read, ⟨fun none => bounded (.inl none), Nat.le_of_not_lt fun more =>
    bounded (.inr more), units, once⟩, texts, distinctIds, ?_⟩
  have cited : claims'.flatMap (·.evidenceIds) =
      (raw.units.map (renderedUnit profile catalog)).flatMap (·.2) := by
    rw [← texts, List.flatMap_map]
  rw [cited]

theorem parseResponse_complete (injective : Function.Injective platform.text.sha256Hex)
    (distinct : DistinctSources catalog) (plain : profile ≠ .contract) {raw : RawResponse}
    (read : platform.fromStr response = some raw)
    (admissible : Admissible platform.tables profile catalog maximumUnits maximumCharacters raw) :
    ∃ content, parseResponseWithLimits platform profile response documentId catalog maximumUnits
      maximumCharacters = .ok content := by
  obtain ⟨claims, made, _⟩ := materializeCitedClaims_ok injective
    (raw.units.map (renderedUnit profile catalog)) 0 [] (by simp)
  refine ⟨(claims, (catalog.candidates.filter fun candidate => decide
    (candidate.evidence.evidenceId ∈
      (raw.units.map (renderedUnit profile catalog)).flatMap (·.2))).map (·.evidence)), ?_⟩
  simp only [parseResponseWithLimits, peel_ok, okOrElse_eq_ok, refuseIf_eq_ok,
    validateUnits_ok distinct, if_neg plain, pure, Except.pure, Except.ok.injEq]
  refine ⟨raw, read, ⟨⟩, ?_, _, ⟨admissible.units, rfl, admissible.distinct, by simp⟩, _, rfl,
    claims, made, rfl⟩
  have := admissible.bounded
  rintro (none | more)
  · exact admissible.some none
  · omega

end Answers

end DocumentSummarizer.Coherent
