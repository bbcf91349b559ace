import DocumentSummarizer.Connect.JobLedger
import DocumentSummarizer.Connect.SummaryDelivery

/-! # The longest delivery

A shorter prefix takes fewer bytes of the message and covers fewer pages, so the
search from the longest one down loses a job only when no prefix could save it.
-/

namespace DocumentSummarizer.Connect

open Library Pipeline
open Ocr (InputArtifact JobResult)

/-! ## Bytes -/

theorem utf8ByteSize_quote (text : String) :
    (quote text).utf8ByteSize = (String.ofList (escapeText text.toList)).utf8ByteSize + 2 := by
  have marks : (String.ofList ['"']).utf8ByteSize = 1 := rfl
  simp only [quote, String.ofList_append, String.utf8ByteSize_append, marks]
  omega

theorem quote_append_le (front back : String) :
    (quote front).utf8ByteSize ≤ (quote (front ++ back)).utf8ByteSize := by
  simp only [utf8ByteSize_quote, String.toList_append, escapeText, List.flatMap_append,
    String.ofList_append, String.utf8ByteSize_append]
  omega

theorem intercalate_append_le (separator : String) (front back : List String) :
    (separator.intercalate front).utf8ByteSize ≤
      (separator.intercalate (front ++ back)).utf8ByteSize := by
  by_cases noFront : front = []
  · subst noFront
    exact Nat.zero_le _
  · by_cases noBack : back = []
    · rw [noBack, List.append_nil]
    · rw [String.intercalate_append_of_ne_nil noFront noBack]
      simp only [String.utf8ByteSize_append]
      omega

theorem pieces_le {a b b' c d d' e f g : String} (first : b.utf8ByteSize ≤ b'.utf8ByteSize)
    (second : d.utf8ByteSize ≤ d'.utf8ByteSize) :
    (a ++ b ++ c ++ d ++ e ++ f ++ g).utf8ByteSize ≤
      (a ++ b' ++ c ++ d' ++ e ++ f ++ g).utf8ByteSize := by
  simp only [String.utf8ByteSize_append]
  omega

/-! ## What the wire admits -/

section Wire

variable {codec : Codec} {artifactId : String} {input : InputArtifact} {version text : String}
  {warnings : List PipelineWarning}

structure Deliverable (input : InputArtifact) (version text : String)
    (warnings : List PipelineWarning) : Prop where
  readable : text ≠ "" ∧ text.utf8ByteSize ≤ maxSummaryTextBytes
  warned : warnings.length ≤ maxSummaryWarnings ∧
    ∀ warning ∈ warnings, invalidWireWarning (wireWarning warning) = false
  bytes : (contentJson (summaryContent input version text warnings)).utf8ByteSize ≤
    maxSummaryArtifactBytes

theorem append_ne_empty {front back : String} (some_back : back ≠ "") : front ++ back ≠ "" := by
  intro same
  have chars := congrArg String.toList same
  rw [String.toList_append] at chars
  exact some_back (String.toList_inj.mp (List.append_eq_nil_iff.mp chars).2)

theorem contentJson_ne_empty (content : SummaryContent) : contentJson content ≠ "" := by
  unfold contentJson
  exact append_ne_empty (by decide)

def resultOf (codec : Codec) (artifactId : String) (input : InputArtifact)
    (version text : String) (warnings : List PipelineWarning) : JobResult SummaryOutput :=
  ⟨[summaryOutput codec artifactId (summaryContent input version text warnings)]⟩

theorem buildSummaryResult_ok {result : JobResult SummaryOutput} :
    buildSummaryResult codec artifactId input version text warnings = .ok result ↔
      Deliverable input version text warnings ∧
        result = resultOf codec artifactId input version text warnings := by
  simp only [buildSummaryResult, peel_ok, refuseIf_eq_ok, return_ok, exists_const, not_or, not_lt,
    Bool.not_eq_true, List.any_eq_false]
  constructor
  · rintro ⟨readable, ⟨count, valid⟩, ⟨-, bytes⟩, rfl⟩
    refine ⟨⟨readable, ⟨?_, ?_⟩, bytes⟩, rfl⟩
    · simpa [summaryContent] using count
    · intro warning mem
      simpa using valid (wireWarning warning) (List.mem_map_of_mem mem)
  · rintro ⟨⟨readable, ⟨count, valid⟩, bytes⟩, rfl⟩
    refine ⟨readable, ⟨?_, ?_⟩, ⟨contentJson_ne_empty _, bytes⟩, rfl⟩
    · simpa [summaryContent] using count
    · intro wire mem
      obtain ⟨warning, inside, rfl⟩ := List.mem_map.mp mem
      exact valid warning inside

theorem Deliverable.shorter {back : String} {more : List PipelineWarning}
    (admitted : Deliverable input version (text ++ back) (warnings ++ more))
    (readable : text ≠ "") : Deliverable input version text warnings where
  readable := by
    refine ⟨readable, ?_⟩
    have limit := admitted.readable.2
    rw [String.utf8ByteSize_append] at limit
    omega
  warned := by
    have limit := admitted.warned.1
    rw [List.length_append] at limit
    exact ⟨by omega, fun warning mem =>
      admitted.warned.2 warning (List.mem_append_left _ mem)⟩
  bytes := by
    have limit := admitted.bytes
    have textBytes := quote_append_le text back
    have warningBytes := intercalate_append_le "," ((warnings.map wireWarning).map warningJson)
      ((more.map wireWarning).map warningJson)
    rw [← List.map_append, ← List.map_append] at warningBytes
    exact (pieces_le textBytes warningBytes).trans limit

end Wire

/-! ## The search -/

theorem linesBytes_concat (taken : List String) (line : String) :
    linesBytes (taken ++ [line]) =
      linesBytes taken + (if 0 < taken.length then 2 else 0) + line.utf8ByteSize := by
  simp only [linesBytes, List.map_append, List.sum_append, List.length_append, List.map_cons,
    List.map_nil, List.sum_cons, List.sum_nil, List.length_cons, List.length_nil]
  split <;> omega

theorem linesBytes_append_le (front back : List String) :
    linesBytes front ≤ linesBytes (front ++ back) := by
  simp only [linesBytes, List.map_append, List.sum_append, List.length_append]
  omega

/-- Every prefix longer than the lines that fit exceeds the limit of the text. -/
theorem fittingLines_spec (taken rest : List String) :
    taken.length ≤ fittingLines (linesBytes taken) taken.length rest ∧
    fittingLines (linesBytes taken) taken.length rest ≤ (taken ++ rest).length ∧
    ∀ k, fittingLines (linesBytes taken) taken.length rest < k → k ≤ (taken ++ rest).length →
      maxSummaryTextBytes < linesBytes ((taken ++ rest).take k) := by
  induction rest generalizing taken with
  | nil =>
      simp only [fittingLines, List.append_nil, Nat.le_refl, true_and]
      intro k longer inside
      omega
  | cons line rest ih =>
      have next := ih (taken ++ [line])
      simp only [linesBytes_concat, List.length_append, List.length_cons, List.length_nil,
        List.append_assoc, List.cons_append, List.nil_append] at next
      by_cases exceeds : maxSummaryTextBytes <
          linesBytes taken + (if 0 < taken.length then 2 else 0) + line.utf8ByteSize
      · have stops : fittingLines (linesBytes taken) taken.length (line :: rest) = taken.length :=
          if_pos exceeds
        rw [stops]
        refine ⟨Nat.le_refl _, by simp, ?_⟩
        intro k longer inside
        have front : (taken ++ line :: rest).take k =
            (taken ++ [line]) ++ rest.take (k - (taken.length + 1)) := by
          rw [List.append_cons, List.take_append, List.take_of_length_le (by simpa using longer)]
          simp
        rw [front]
        refine lt_of_lt_of_le exceeds ?_
        rw [← linesBytes_concat]
        exact linesBytes_append_le _ _
      · have goes : fittingLines (linesBytes taken) taken.length (line :: rest) =
            fittingLines (linesBytes taken + (if 0 < taken.length then 2 else 0) +
              line.utf8ByteSize) (taken.length + 1) rest := if_neg exceeds
        rw [goes]
        obtain ⟨above, below, exceed⟩ := next
        refine ⟨Nat.le_of_succ_le above, ?_, ?_⟩
        · simpa using below
        · intro k longer inside
          exact exceed k longer (by simpa using inside)

theorem longestBuilt_ok {build : Nat → Except ContractBuildError (JobResult SummaryOutput)}
    {limit count : Nat} {result : JobResult SummaryOutput} :
    longestBuilt build limit = .ok (result, count) ↔
      0 < count ∧ count ≤ limit ∧ build count = .ok result ∧
        ∀ k, count < k → k ≤ limit → ∀ other, build k ≠ .ok other := by
  induction limit with
  | zero =>
      simp only [longestBuilt, reduceCtorEq, false_iff, not_and]
      omega
  | succ limit ih =>
      unfold longestBuilt
      cases built : build (limit + 1) with
      | ok first =>
          simp only [Except.ok.injEq, Prod.mk.injEq]
          constructor
          · rintro ⟨rfl, rfl⟩
            exact ⟨Nat.succ_pos _, Nat.le_refl _, built, fun k longer inside => by omega⟩
          · rintro ⟨-, inside, same, none⟩
            have last : count = limit + 1 := by
              by_contra other
              exact none (limit + 1) (by omega) (Nat.le_refl _) first built
            subst last
            exact ⟨Except.ok.inj (built.symm.trans same), rfl⟩
      | error e =>
          simp only
          rw [ih]
          constructor
          · rintro ⟨positive, inside, same, none⟩
            refine ⟨positive, by omega, same, fun k longer fits other ok => ?_⟩
            rcases Nat.lt_or_eq_of_le fits with before | rfl
            · exact none k longer (by omega) other ok
            · rw [built] at ok
              cases ok
          · rintro ⟨positive, inside, same, none⟩
            have before : count ≠ limit + 1 := by
              rintro rfl
              rw [built] at same
              cases same
            exact ⟨positive, by omega, same, fun k longer fits => none k longer (by omega)⟩

theorem longestBuilt_error {build : Nat → Except ContractBuildError (JobResult SummaryOutput)}
    {limit : Nat} {e : ContractBuildError} (h : longestBuilt build limit = .error e) :
    ∀ k, 0 < k → k ≤ limit → ∀ result, build k ≠ .ok result := by
  induction limit with
  | zero =>
      intro k positive inside
      omega
  | succ limit ih =>
      unfold longestBuilt at h
      cases built : build (limit + 1) with
      | ok first =>
          rw [built] at h
          cases h
      | error failure =>
          rw [built] at h
          intro k positive inside result ok
          rcases Nat.lt_or_eq_of_le inside with before | rfl
          · exact ih h k positive (by omega) result ok
          · rw [built] at ok
            cases ok

/-! ## The delivered prefix -/

section Prefix

variable {codec : Codec} {artifactId : String} {input : InputArtifact} {summary : SummaryArtifact}
  {lines : List String}

structure Boundaries (summary : SummaryArtifact) (lines : List String) : Prop where
  some_line : lines ≠ []
  readable : "" ∉ lines
  text : "\n\n".intercalate lines = summary.text

/-- The first `count` lines fit the wire as a shortened delivery. -/
def PrefixFits (input : InputArtifact) (summary : SummaryArtifact) (lines : List String)
    (count : Nat) : Prop :=
  Deliverable input summary.summaryVersion ("\n\n".intercalate (lines.take count))
    (truncationWarnings summary.warnings)

def WholeFits (input : InputArtifact) (summary : SummaryArtifact) : Prop :=
  Deliverable input summary.summaryVersion summary.text summary.warnings

/-- The whole text where it fits, and otherwise the longest prefix that does. -/
inductive Delivery (codec : Codec) (artifactId : String) (input : InputArtifact)
    (summary : SummaryArtifact) (lines : List String) : JobResult SummaryOutput → Nat → Prop where
  | whole : WholeFits input summary → Delivery codec artifactId input summary lines
      (resultOf codec artifactId input summary.summaryVersion summary.text summary.warnings)
      lines.length
  | shortened (count : Nat) : ¬ WholeFits input summary → 0 < count → count < lines.length →
      PrefixFits input summary lines count →
      (∀ k, count < k → k ≤ lines.length → ¬ PrefixFits input summary lines k) →
      Delivery codec artifactId input summary lines
        (resultOf codec artifactId input summary.summaryVersion
          ("\n\n".intercalate (lines.take count)) (truncationWarnings summary.warnings)) count

theorem truncationWarnings_append (warnings : List PipelineWarning) :
    ∃ more, truncationWarnings warnings = warnings ++ more := by
  unfold truncationWarnings
  split
  · exact ⟨[], (List.append_nil _).symm⟩
  · exact ⟨_, rfl⟩

theorem truncationWarnings_count (warnings : List PipelineWarning) :
    (truncationWarnings warnings).countP (·.code = truncatedForDeliveryCode) =
      max 1 (warnings.countP (·.code = truncatedForDeliveryCode)) := by
  unfold truncationWarnings
  split
  · next said =>
      obtain ⟨warning, mem, code⟩ := List.any_eq_true.mp said
      have positive : 0 < warnings.countP (·.code = truncatedForDeliveryCode) :=
        List.countP_pos_iff.mpr ⟨warning, mem, code⟩
      omega
  · next silent =>
      have none : warnings.countP (·.code = truncatedForDeliveryCode) = 0 := by
        rw [List.countP_eq_zero]
        intro warning mem code
        exact silent (List.any_eq_true.mpr ⟨warning, mem, code⟩)
      rw [List.countP_append, none]
      simp

theorem wholeFits_of_prefixFits (boundaries : Boundaries summary lines)
    (fits : PrefixFits input summary lines lines.length) : WholeFits input summary := by
  obtain ⟨more, added⟩ := truncationWarnings_append summary.warnings
  rw [PrefixFits, List.take_length, boundaries.text, added] at fits
  have readable := fits.readable.1
  rw [← @String.append_empty summary.text] at fits
  exact fits.shorter readable

theorem prefixFits_limit {k : Nat} (fits : PrefixFits input summary lines k)
    (inside : k ≤ lines.length) : k ≤ fittingLines 0 0 lines := by
  by_contra longer
  have exceeds : maxSummaryTextBytes < linesBytes (lines.take k) :=
    (fittingLines_spec [] lines).2.2 k (Nat.lt_of_not_le longer) inside
  have limit := fits.readable.2
  rw [utf8ByteSize_joined] at limit
  omega

theorem fittingLines_le (lines : List String) : fittingLines 0 0 lines ≤ lines.length :=
  (fittingLines_spec [] lines).2.1

/-- The search and its outcome. -/
theorem fromSummaryClaimLines_ok {result : JobResult SummaryOutput} {count : Nat} :
    fromSummaryClaimLines codec artifactId input summary lines = .ok (result, count) ↔
      Boundaries summary lines ∧ Delivery codec artifactId input summary lines result count := by
  simp only [fromSummaryClaimLines, peel_ok, refuseIf_eq_ok, exists_const, not_or, not_not,
    ne_eq]
  constructor
  · rintro ⟨⟨some_line, readable, text⟩, outcome⟩
    have boundaries : Boundaries summary lines := ⟨some_line, readable, text⟩
    refine ⟨boundaries, ?_⟩
    split at outcome
    · next first built =>
        obtain ⟨rfl, rfl⟩ := Prod.mk.inj (Except.ok.inj outcome)
        obtain ⟨fits, rfl⟩ := buildSummaryResult_ok.mp built
        exact .whole fits
    · next failure built =>
        have tooBig : ¬ WholeFits input summary := by
          intro fits
          rw [buildSummaryResult_ok.mpr ⟨fits, rfl⟩] at built
          cases built
        obtain ⟨positive, inside, built', none⟩ := longestBuilt_ok.mp outcome
        obtain ⟨fits, rfl⟩ := buildSummaryResult_ok.mp built'
        have proper : count < lines.length := by
          refine lt_of_le_of_ne (inside.trans (fittingLines_le lines)) ?_
          rintro rfl
          exact tooBig (wholeFits_of_prefixFits boundaries fits)
        refine .shortened count tooBig positive proper fits ?_
        intro k longer within fitsToo
        exact none k longer (prefixFits_limit fitsToo within) _
          (buildSummaryResult_ok.mpr ⟨fitsToo, rfl⟩)
  · rintro ⟨boundaries, delivery⟩
    refine ⟨⟨boundaries.some_line, boundaries.readable, boundaries.text⟩, ?_⟩
    cases delivery with
    | whole fits =>
        rw [buildSummaryResult_ok.mpr ⟨fits, rfl⟩]
        rfl
    | shortened _ tooBig positive proper fits longest =>
        split
        · next first built =>
            exact absurd (buildSummaryResult_ok.mp built).1 tooBig
        · apply longestBuilt_ok.mpr
          refine ⟨positive, prefixFits_limit fits proper.le,
            buildSummaryResult_ok.mpr ⟨fits, rfl⟩, ?_⟩
          intro k longer within other ok
          exact longest k longer (within.trans (fittingLines_le lines))
            (buildSummaryResult_ok.mp ok).1

/-- A job is lost to the wire limits only when no whole claim fits them. -/
theorem fromSummaryClaimLines_succeeds :
    (∃ delivered, fromSummaryClaimLines codec artifactId input summary lines = .ok delivered) ↔
      Boundaries summary lines ∧ (WholeFits input summary ∨
        ∃ k, 0 < k ∧ k ≤ lines.length ∧ PrefixFits input summary lines k) := by
  constructor
  · rintro ⟨⟨result, count⟩, done⟩
    obtain ⟨boundaries, delivery⟩ := fromSummaryClaimLines_ok.mp done
    refine ⟨boundaries, ?_⟩
    cases delivery with
    | whole fits => exact .inl fits
    | shortened _ tooBig positive proper fits => exact .inr ⟨count, positive, proper.le, fits⟩
  · rintro ⟨boundaries, fits⟩
    cases done : fromSummaryClaimLines codec artifactId input summary lines with
    | ok delivered => exact ⟨delivered, rfl⟩
    | error e =>
        exfalso
        cases built : buildSummaryResult codec artifactId input summary.summaryVersion summary.text
            summary.warnings with
        | ok result =>
            simp only [fromSummaryClaimLines, refuseIf_of_not (not_or.mpr ⟨boundaries.some_line,
              not_or.mpr ⟨boundaries.readable, not_not.mpr boundaries.text⟩⟩), built] at done
            cases done
        | error failure =>
            simp only [fromSummaryClaimLines, refuseIf_of_not (not_or.mpr ⟨boundaries.some_line,
              not_or.mpr ⟨boundaries.readable, not_not.mpr boundaries.text⟩⟩), built] at done
            change longestBuilt _ _ = _ at done
            rcases fits with whole | ⟨k, positive, inside, short⟩
            · rw [buildSummaryResult_ok.mpr ⟨whole, rfl⟩] at built
              cases built
            · exact longestBuilt_error done k positive (prefixFits_limit short inside) _
                (buildSummaryResult_ok.mpr ⟨short, rfl⟩)

theorem asBytes_length (text : String) : (asBytes text).length = text.utf8ByteSize :=
  Array.length_toList

/-- A delivery is the whole summary or its longest prefix of whole claims within the limits, it
exists as soon as one claim fits, it is sent with its own length and digest, and a shortened
one says so once. -/
theorem delivered_summary_is_longest (codec : Codec) (artifactId : String) (input : InputArtifact)
    (summary : SummaryArtifact) (lines : List String) :
    (∀ result count, fromSummaryClaimLines codec artifactId input summary lines =
        .ok (result, count) ↔
      Boundaries summary lines ∧ Delivery codec artifactId input summary lines result count) ∧
    ((∃ delivered, fromSummaryClaimLines codec artifactId input summary lines = .ok delivered) ↔
      Boundaries summary lines ∧ (WholeFits input summary ∨
        ∃ k, 0 < k ∧ k ≤ lines.length ∧ PrefixFits input summary lines k)) ∧
    (∀ result count, fromSummaryClaimLines codec artifactId input summary lines =
        .ok (result, count) → ∀ output ∈ result.outputs,
      output.byteSize = (contentJson output.content).utf8ByteSize ∧
      output.byteSize ≤ maxSummaryArtifactBytes ∧
      output.sha256 = codec.sha256Hex (asBytes (contentJson output.content)) ∧
      output.content.text.utf8ByteSize ≤ maxSummaryTextBytes) ∧
    (truncationWarnings summary.warnings).countP (·.code = truncatedForDeliveryCode) =
      max 1 (summary.warnings.countP (·.code = truncatedForDeliveryCode)) := by
  refine ⟨fun _ _ => fromSummaryClaimLines_ok, fromSummaryClaimLines_succeeds, ?_,
    truncationWarnings_count _⟩
  intro result count done output mem
  obtain ⟨-, delivery⟩ := fromSummaryClaimLines_ok.mp done
  have sent : ∀ {text warnings}, Deliverable input summary.summaryVersion text warnings →
      output ∈ (resultOf codec artifactId input summary.summaryVersion text warnings).outputs →
      output.byteSize = (contentJson output.content).utf8ByteSize ∧
      output.byteSize ≤ maxSummaryArtifactBytes ∧
      output.sha256 = codec.sha256Hex (asBytes (contentJson output.content)) ∧
      output.content.text.utf8ByteSize ≤ maxSummaryTextBytes := by
    intro text warnings fits inside
    rw [List.mem_singleton.mp inside]
    exact ⟨asBytes_length _, (asBytes_length _).trans_le fits.bytes, rfl, fits.readable.2⟩
  cases delivery with
  | whole fits => exact sent fits mem
  | shortened _ tooBig positive proper fits => exact sent fits mem

end Prefix

end DocumentSummarizer.Connect
