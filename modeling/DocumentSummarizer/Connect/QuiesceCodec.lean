import DocumentSummarizer.Library.Splitting
import DocumentSummarizer.Pipeline.Text
import DocumentSummarizer.Connect.PackageContracts

/-! # The text of a quiesce intent

A line `key=value` for each field, and the digest of these lines.  The reader
accepts only what the writer would write.
-/

namespace DocumentSummarizer.Connect

open Library
open Pipeline (asBytes lines)

def quiesceFormatVersion : Nat := 1

def bootstrapQuiesceFormatVersion : Nat := 2

def packageKindText : PackageKind → String
  | .upgrade => "upgrade"
  | .remove => "remove"
  | .purge => "purge"
  | .reinstall => "reinstall"

def bootstrapPhaseText : BootstrapPhase → String
  | .quarantining => "quarantining"
  | .quiesced => "quiesced"
  | .adopted => "adopted"

section Codec

variable (platform : Platform) (sha256Hex : List UInt8 → String)

/-- The payload of `encode_quiesce_intent`. -/
def quiescePayload (intent : QuiesceIntent) : Except PackageControlError String :=
  match intent.bootstrap with
  | some bootstrap => do
    refuseIf (intent.kind ≠ .upgrade ∨ bootstrap.legacyDevice = 0 ∨ bootstrap.legacyInode = 0 ∨
      validSha256 bootstrap.legacySha256 = false) .conflict
    return s!"format_version={bootstrapQuiesceFormatVersion}\npackage_id={packageId}\n" ++
      s!"artifact_scope=shared-debian\ngeneration={intent.generation}\n" ++
      s!"kind={packageKindText intent.kind}\nphase={bootstrapPhaseText bootstrap.phase}\n" ++
      s!"source_version={intent.sourceVersion}\ntarget_version={intent.targetVersion}\n" ++
      s!"legacy_device={bootstrap.legacyDevice}\nlegacy_inode={bootstrap.legacyInode}\n" ++
      s!"legacy_sha256={bootstrap.legacySha256}\n"
  | none =>
    return s!"format_version={quiesceFormatVersion}\npackage_id={packageId}\n" ++
      s!"artifact_scope=shared-debian\ngeneration={intent.generation}\n" ++
      s!"kind={packageKindText intent.kind}\nsource_version={intent.sourceVersion}\n" ++
      s!"target_version={intent.targetVersion}\n"

def encodeQuiesceIntent (intent : QuiesceIntent) : Except PackageControlError ByteArray := do
  refuseIf (platform.isUuid intent.generation = false ∨ intent.kind = .reinstall) .conflict
  refuseIf (validVersion intent.sourceVersion = false) .conflict
  refuseIf (validVersion intent.targetVersion = false) .conflict
  let payload ← quiescePayload intent
  let digest := sha256Hex (asBytes payload)
  return s!"{payload}sha256={digest}\n".toUTF8

/-- A number may start with a plus sign. -/
def unsignedDigits : List Char → List Char
  | '+' :: rest => rest
  | digits => digits

/-- `str::parse::<u64>` -/
def parseU64 (text : String) : Option UInt64 :=
  let digits := unsignedDigits text.toList
  let value := Nat.ofDigitChars 10 digits 0
  if digits = [] ∨ digits.all Char.isDigit = false ∨ value ≥ 2 ^ 64 then none
  else some (UInt64.ofNat value)

/-- The loop that fills `values`. -/
def insertFields : List (String × String) → List (List Char) →
    Except PackageControlError (List (String × String))
  | values, [] => return values
  | values, line :: rest => do
    let (key, value) ← okOrElse (splitOnce '=' line) .conflict
    refuseIf ((values.lookup (String.ofList key)).isSome = true) .conflict
    insertFields (values ++ [(String.ofList key, String.ofList value)]) rest

def parseKind : Option String → Option PackageKind
  | some "upgrade" => some .upgrade
  | some "remove" => some .remove
  | _ => none

def parsePhase : Option String → Option BootstrapPhase
  | some "quarantining" => some .quarantining
  | some "quiesced" => some .quiesced
  | some "adopted" => some .adopted
  | _ => none

def parseBootstrap (values : List (String × String)) (kind : PackageKind) :
    Except PackageControlError (Option BootstrapQuiesce) :=
  if values.lookup "format_version" = some "1" ∧ values.length = 7 then return none
  else if values.lookup "format_version" = some "2" ∧ values.length = 11 ∧ kind = .upgrade then do
    let phase ← okOrElse (parsePhase (values.lookup "phase")) .conflict
    let device ← okOrElse (values.lookup "legacy_device") .conflict
    let legacyDevice ← okOrElse (parseU64 device) .conflict
    let inode ← okOrElse (values.lookup "legacy_inode") .conflict
    let legacyInode ← okOrElse (parseU64 inode) .conflict
    let legacySha256 ← okOrElse (values.lookup "legacy_sha256") .conflict
    return some ⟨phase, legacyDevice, legacyInode, legacySha256⟩
  else .error .conflict

/-- The text up to the digest, checked against it. -/
def checkedPayload (text : List Char) : Except PackageControlError (List Char) := do
  let (payload, digestLine) ← okOrElse (rsplitOnce "sha256=".toList text) .conflict
  refuseIf (digestLine.getLast? ≠ some '\n') .conflict
  let digest := String.ofList digestLine.dropLast
  refuseIf (validSha256 digest = false ∨ sha256Hex (asBytes (String.ofList payload)) ≠ digest)
    .conflict
  return payload

/-- The intent that the values spell. -/
def parseQuiesceIntent (values : List (String × String)) :
    Except PackageControlError QuiesceIntent := do
  refuseIf (values.lookup "package_id" ≠ some packageId ∨
    values.lookup "artifact_scope" ≠ some "shared-debian") .conflict
  let generation ← okOrElse ((values.lookup "generation").filter platform.isUuid) .conflict
  let kind ← okOrElse (parseKind (values.lookup "kind")) .conflict
  let sourceVersion ← okOrElse (values.lookup "source_version") .conflict
  let targetVersion ← okOrElse (values.lookup "target_version") .conflict
  refuseIf (validVersion sourceVersion = false) .conflict
  refuseIf (validVersion targetVersion = false) .conflict
  let bootstrap ← parseBootstrap values kind
  return ⟨generation, kind, sourceVersion, targetVersion, bootstrap⟩

/-- `read_quiesce_intent`, for the bytes of a private regular file. -/
def readQuiesceIntent (bytes : ByteArray) : Except PackageControlError QuiesceIntent := do
  refuseIf (bytes.size = 0 ∨ bytes.size > maxRecordBytes) .conflict
  let text ← okOrElse (String.fromUTF8? bytes) .conflict
  let payload ← checkedPayload sha256Hex text.toList
  let values ← insertFields [] (lines payload)
  let intent ← parseQuiesceIntent platform values
  let encoded ← encodeQuiesceIntent platform sha256Hex intent
  refuseIf (encoded ≠ bytes) .conflict
  return intent

end Codec

/-! ## Lines of fields -/

/-- A text within one line. -/
def Plain (text : String) : Prop :=
  ∀ c ∈ text.toList, c ≠ '\n' ∧ c ≠ '\r'

def fieldLine (field : String × String) : List Char :=
  field.1.toList ++ '=' :: field.2.toList

def renderFields (fields : List (String × String)) : List Char :=
  fields.flatMap fun field => fieldLine field ++ ['\n']

/-- A field that survives a line, of a bounded size. -/
structure FieldOk (field : String × String) : Prop where
  key : '=' ∉ field.1.toList
  plainKey : Plain field.1
  plainValue : Plain field.2
  keySize : field.1.utf8ByteSize ≤ 16
  valueSize : field.2.utf8ByteSize ≤ 128

theorem lines_append {line rest : List Char} (plain : ∀ c ∈ line, c ≠ '\n' ∧ c ≠ '\r') :
    lines (line ++ '\n' :: rest) = line :: lines rest := by
  induction line with
  | nil => rw [List.nil_append, lines]
  | cons c later ih =>
      rw [List.forall_mem_cons] at plain
      have tail := ih plain.2
      rw [List.cons_append]
      rw [lines]
      · rw [tail]
      · exact plain.1.1
      · intro more start
        exact absurd start plain.1.2

theorem lines_renderFields {fields : List (String × String)}
    (plain : ∀ field ∈ fields, FieldOk field) :
    lines (renderFields fields) = fields.map fieldLine := by
  induction fields with
  | nil => rfl
  | cons field rest ih =>
      rw [List.forall_mem_cons] at plain
      have line : ∀ c ∈ fieldLine field, c ≠ '\n' ∧ c ≠ '\r' := by
        intro c mem
        rcases List.mem_append.mp mem with inKey | inValue
        · exact plain.1.plainKey c inKey
        · rcases List.mem_cons.mp inValue with rfl | inValue
          · decide
          · exact plain.1.plainValue c inValue
      rw [renderFields, List.flatMap_cons, ← renderFields, List.append_assoc,
        List.singleton_append, lines_append line, ih plain.2, List.map_cons]

theorem insertFields_ok {values fields : List (String × String)}
    (keys : ∀ field ∈ fields, FieldOk field)
    (distinct : ((values ++ fields).map (·.1)).Nodup) :
    insertFields values (fields.map fieldLine) = .ok (values ++ fields) := by
  induction fields generalizing values with
  | nil =>
      rw [List.append_nil]
      rfl
  | cons field rest ih =>
      rw [List.forall_mem_cons] at keys
      have found : splitOnce '=' (fieldLine field) = some (field.1.toList, field.2.toList) :=
        splitOnce_append keys.1.key
      have new : values.lookup field.1 = none := by
        rw [List.lookup_eq_none_iff]
        intro other mem
        rw [List.map_append, List.map_cons] at distinct
        have apart := (List.nodup_append.mp distinct).2.2 other.1 (List.mem_map_of_mem mem) field.1
          List.mem_cons_self
        simpa using Ne.symm apart
      have later := @ih (values ++ [field]) keys.2 (by simpa using distinct)
      rw [List.map_cons, insertFields, found]
      refine (ok_bind (okOrElse_some _) _).trans ?_
      simp only [String.ofList_toList]
      refine (ok_bind (refuseIf_of_not (by simp [new])) _).trans ?_
      simpa using later

theorem utf8ByteSize_renderFields {fields : List (String × String)}
    (ok : ∀ field ∈ fields, FieldOk field) :
    (String.ofList (renderFields fields)).utf8ByteSize ≤ 146 * fields.length := by
  induction fields with
  | nil => exact Nat.zero_le _
  | cons field rest ih =>
      rw [List.forall_mem_cons] at ok
      have others := ih ok.2
      have key := ok.1.keySize
      have value := ok.1.valueSize
      have line : String.ofList (renderFields (field :: rest)) =
          field.1 ++ "=" ++ field.2 ++ "\n" ++ String.ofList (renderFields rest) := by
        rw [← String.toList_inj]
        simp [renderFields, fieldLine]
      rw [line]
      simp only [String.utf8ByteSize_append, List.length_cons]
      have equals : "=".utf8ByteSize = 1 := rfl
      have newline : "\n".utf8ByteSize = 1 := rfl
      omega

/-! ## The fields of an intent -/

/-- What the formats of a UUID have in common. -/
def UuidText (platform : Platform) : Prop :=
  ∀ value, platform.isUuid value = true → value.utf8ByteSize ≤ 45 ∧
    ∀ c ∈ value.toList, c.isAlphanum = true ∨ c ∈ ['-', ':', '{', '}']

def bootstrapFields (bootstrap : BootstrapQuiesce) : List (String × String) :=
  [("legacy_device", toString bootstrap.legacyDevice),
    ("legacy_inode", toString bootstrap.legacyInode), ("legacy_sha256", bootstrap.legacySha256)]

/-- The fields that come first, up to a phase, and the rest. -/
def intentFields (intent : QuiesceIntent) : List (String × String) :=
  [("format_version", if intent.bootstrap.isSome then "2" else "1"), ("package_id", packageId),
    ("artifact_scope", "shared-debian"), ("generation", intent.generation),
    ("kind", packageKindText intent.kind)] ++
  (intent.bootstrap.map fun bootstrap => ("phase", bootstrapPhaseText bootstrap.phase)).toList ++
  [("source_version", intent.sourceVersion), ("target_version", intent.targetVersion)] ++
  (intent.bootstrap.map bootstrapFields).getD []

section Fields

variable {platform : Platform} {sha256Hex : List UInt8 → String} {intent : QuiesceIntent}

theorem toString_text (text : String) : toString text = text :=
  rfl

set_option maxRecDepth 4000 in
theorem quiescePayload_eq {payload : String} (h : quiescePayload intent = .ok payload) :
    payload.toList = renderFields (intentFields intent) := by
  unfold quiescePayload at h
  cases found : intent.bootstrap with
  | none =>
      simp only [found, return_ok] at h
      subst h
      have version : Nat.toDigits 10 1 = ['1'] := rfl
      simp [intentFields, found, renderFields, fieldLine, quiesceFormatVersion, toString_text,
        version]
  | some bootstrap =>
      simp only [found, peel_ok, return_ok] at h
      obtain ⟨_, -, rfl⟩ := h
      have version : Nat.toDigits 10 2 = ['2'] := rfl
      simp [intentFields, bootstrapFields, found, renderFields, fieldLine,
        bootstrapQuiesceFormatVersion, toString_text, version]

theorem plain_of_alphanum {text : String} {marks : List Char}
    (chars : ∀ c ∈ text.toList, c.isAlphanum = true ∨ c ∈ marks)
    (apart : '\n' ∉ marks ∧ '\r' ∉ marks) : Plain text := by
  intro c mem
  constructor
  · rintro rfl
    rcases chars _ mem with letter | mark
    · exact absurd letter (by decide)
    · exact apart.1 mark
  · rintro rfl
    rcases chars _ mem with letter | mark
    · exact absurd letter (by decide)
    · exact apart.2 mark

theorem plain_version {version : String} (h : validVersion version = true) :
    Plain version ∧ version.utf8ByteSize ≤ 128 := by
  simp only [validVersion, Bool.and_eq_true, List.all_eq_true, Bool.or_eq_true, decide_eq_true_eq] at h
  exact ⟨plain_of_alphanum h.2 (by decide), h.1.2⟩

theorem plain_sha256 {digest : String} (h : validSha256 digest = true) :
    Plain digest ∧ digest.utf8ByteSize = 64 ∧ '=' ∉ digest.toList := by
  simp only [validSha256, Bool.and_eq_true, beq_iff_eq, List.all_eq_true, Bool.or_eq_true,
    decide_eq_true_eq] at h
  refine ⟨?_, h.1, ?_⟩
  · intro c mem
    constructor
    · rintro rfl
      exact absurd (h.2 _ mem) (by decide)
    · rintro rfl
      exact absurd (h.2 _ mem) (by decide)
  · intro mem
    exact absurd (h.2 _ mem) (by decide)

theorem utf8ByteSize_le (text : List Char) :
    (String.ofList text).utf8ByteSize ≤ 4 * text.length := by
  induction text with
  | nil => exact Nat.zero_le _
  | cons c rest ih =>
      have first := c.utf8Size_le_four
      have split : String.ofList (c :: rest) = String.singleton c ++ String.ofList rest := by
        rw [← String.toList_inj]
        simp
      rw [split, String.utf8ByteSize_append, String.utf8ByteSize_singleton, List.length_cons]
      omega

theorem digits_of_toString (n : UInt64) : (toString n).toList = Nat.toDigits 10 n.toNat := by
  show (n.toNat.repr).toList = _
  exact Nat.toList_repr

theorem plain_toString (n : UInt64) : Plain (toString n) ∧ (toString n).utf8ByteSize ≤ 128 := by
  constructor
  · intro c mem
    rw [digits_of_toString] at mem
    have digit := Nat.isDigit_of_mem_toDigits (by decide) (by decide) mem
    constructor
    · rintro rfl
      exact absurd digit (by decide)
    · rintro rfl
      exact absurd digit (by decide)
  · have size := utf8ByteSize_le (toString n).toList
    have short : (toString n).toList.length ≤ 20 := by
      rw [digits_of_toString, Nat.length_toDigits_le_iff (by decide) (by decide)]
      exact Nat.lt_of_lt_of_le n.toNat_lt (by decide)
    rw [String.ofList_toList] at size
    omega

theorem parseU64_toString (n : UInt64) : parseU64 (toString n) = some n := by
  have digits := digits_of_toString n
  have nonempty : Nat.toDigits 10 n.toNat ≠ [] := Nat.toDigits_ne_nil
  have decimal : (Nat.toDigits 10 n.toNat).all Char.isDigit = true := by
    rw [List.all_eq_true]
    intro c mem
    exact Nat.isDigit_of_mem_toDigits (by decide) (by decide) mem
  have value : Nat.ofDigitChars 10 (Nat.toDigits 10 n.toNat) 0 = n.toNat :=
    Nat.ofDigitChars_ten_toDigits
  have unsigned : unsignedDigits (Nat.toDigits 10 n.toNat) = Nat.toDigits 10 n.toNat := by
    unfold unsignedDigits
    split
    · next rest signed =>
        rw [signed] at decimal
        exact absurd decimal (by simp)
    · rfl
  have small : ¬ n.toNat ≥ 2 ^ 64 := Nat.not_le.mpr n.toNat_lt
  simp only [parseU64, digits, unsigned, value, nonempty, decimal, small, or_self,
    Bool.true_eq_false, if_false, UInt64.ofNat_toNat]

theorem encodable_iff : intent.encodable platform = true ↔
    platform.isUuid intent.generation = true ∧ intent.kind ≠ .reinstall ∧
      validVersion intent.sourceVersion = true ∧ validVersion intent.targetVersion = true ∧
      ∀ bootstrap, intent.bootstrap = some bootstrap →
        intent.kind = .upgrade ∧ bootstrap.valid = true := by
  simp only [QuiesceIntent.encodable, Bool.and_eq_true, bne_iff_ne, ne_eq, Option.all_eq_true,
    beq_iff_eq, and_assoc]

theorem BootstrapQuiesce.sha256_of_valid {bootstrap : BootstrapQuiesce}
    (valid : bootstrap.valid = true) : validSha256 bootstrap.legacySha256 = true := by
  simp only [BootstrapQuiesce.valid, Bool.and_eq_true] at valid
  exact valid.2

def fieldKeys : List String :=
  ["format_version", "package_id", "artifact_scope", "generation", "kind", "phase",
    "source_version", "target_version", "legacy_device", "legacy_inode", "legacy_sha256"]

/-- `Plain`, to be computed. -/
def isPlain (text : String) : Bool :=
  text.toList.all fun c => c != '\n' && c != '\r'

theorem plain_of_isPlain {text : String} (h : isPlain text = true) : Plain text := by
  intro c mem
  simpa using List.all_eq_true.mp h c mem

theorem fieldKey_ok {key : String} (mem : key ∈ fieldKeys) :
    '=' ∉ key.toList ∧ Plain key ∧ key.utf8ByteSize ≤ 16 := by
  have all : fieldKeys.all (fun key => !key.toList.contains '=' && isPlain key &&
      decide (key.utf8ByteSize ≤ 16)) = true := by rfl
  have own := List.all_eq_true.mp all key mem
  simp only [Bool.and_eq_true, Bool.not_eq_true', List.contains_eq_mem, decide_eq_false_iff_not,
    decide_eq_true_eq] at own
  exact ⟨own.1.1, plain_of_isPlain own.1.2, own.2⟩

/-- A value of a bounded size, within one line. -/
def LineValue (value : String) : Prop :=
  Plain value ∧ value.utf8ByteSize ≤ 128

theorem lineValue_of_isPlain {value : String}
    (h : (isPlain value && decide (value.utf8ByteSize ≤ 128)) = true) : LineValue value := by
  simp only [Bool.and_eq_true, decide_eq_true_eq] at h
  exact ⟨plain_of_isPlain h.1, h.2⟩

theorem lineValue_kind (kind : PackageKind) : LineValue (packageKindText kind) := by
  apply lineValue_of_isPlain
  cases kind <;> rfl

theorem lineValue_phase (phase : BootstrapPhase) : LineValue (bootstrapPhaseText phase) := by
  apply lineValue_of_isPlain
  cases phase <;> rfl

theorem intentFields_ok (uuid : UuidText platform) (encodable : intent.encodable platform = true) :
    ∀ field ∈ intentFields intent, FieldOk field := by
  obtain ⟨identified, -, validSource, validTarget, bootstrapped⟩ := (encodable_iff).mp encodable
  have generation : LineValue intent.generation := by
    obtain ⟨short, chars⟩ := uuid _ identified
    exact ⟨plain_of_alphanum chars (by decide), by omega⟩
  have source : LineValue intent.sourceVersion := plain_version validSource
  have target : LineValue intent.targetVersion := plain_version validTarget
  have known : ∀ field ∈ intentFields intent, field.1 ∈ fieldKeys ∧ LineValue field.2 := by
    cases found : intent.bootstrap with
    | none =>
        simp only [intentFields, found, Option.isSome_none, Bool.false_eq_true, if_false,
          Option.map_none, Option.toList_none, Option.getD_none, List.append_nil, List.cons_append,
          List.nil_append, List.forall_mem_cons, List.not_mem_nil, false_implies, implies_true,
          and_true]
        exact ⟨⟨by decide, lineValue_of_isPlain rfl⟩, ⟨by decide, lineValue_of_isPlain rfl⟩,
          ⟨by decide, lineValue_of_isPlain rfl⟩, ⟨by decide, generation⟩,
          ⟨by decide, lineValue_kind _⟩, ⟨by decide, source⟩, ⟨by decide, target⟩⟩
    | some bootstrap =>
        have sha256 : LineValue bootstrap.legacySha256 := by
          obtain ⟨plain, size, -⟩ := plain_sha256 (BootstrapQuiesce.sha256_of_valid
            (bootstrapped bootstrap found).2)
          exact ⟨plain, by omega⟩
        simp only [intentFields, bootstrapFields, found, Option.isSome_some, if_true,
          Option.map_some, Option.toList_some, Option.getD_some, List.cons_append,
          List.nil_append, List.forall_mem_cons, List.not_mem_nil, false_implies, implies_true,
          and_true]
        exact ⟨⟨by decide, lineValue_of_isPlain rfl⟩, ⟨by decide, lineValue_of_isPlain rfl⟩,
          ⟨by decide, lineValue_of_isPlain rfl⟩, ⟨by decide, generation⟩,
          ⟨by decide, lineValue_kind _⟩, ⟨by decide, lineValue_phase _⟩, ⟨by decide, source⟩,
          ⟨by decide, target⟩, ⟨by decide, plain_toString _⟩, ⟨by decide, plain_toString _⟩,
          ⟨by decide, sha256⟩⟩
  intro field mem
  obtain ⟨key, plainValue, valueSize⟩ := known field mem
  obtain ⟨unseparated, plainKey, keySize⟩ := fieldKey_ok key
  exact ⟨unseparated, plainKey, plainValue, keySize, valueSize⟩

theorem intentFields_distinct : ((intentFields intent).map (·.1)).Nodup := by
  cases found : intent.bootstrap with
  | none => simp [intentFields, found]
  | some bootstrap => simp [intentFields, bootstrapFields, found]

theorem intentFields_length : (intentFields intent).length ≤ 11 := by
  cases found : intent.bootstrap with
  | none => simp [intentFields, found]
  | some bootstrap => simp [intentFields, bootstrapFields, found]

theorem parsePhase_text (phase : BootstrapPhase) :
    parsePhase (some (bootstrapPhaseText phase)) = some phase := by
  cases phase <;> rfl

theorem parseBootstrap_intentFields
    (upgrade : ∀ bootstrap, intent.bootstrap = some bootstrap → intent.kind = .upgrade) :
    parseBootstrap (intentFields intent) intent.kind = .ok intent.bootstrap := by
  cases found : intent.bootstrap with
  | none => simp [parseBootstrap, intentFields, found, pure, Except.pure]
  | some bootstrap =>
      have plain : ¬ ((intentFields intent).lookup "format_version" = some "1" ∧
          (intentFields intent).length = 7) := by simp [intentFields, found]
      have extended : (intentFields intent).lookup "format_version" = some "2" ∧
          (intentFields intent).length = 11 ∧ intent.kind = .upgrade := by
        simp [intentFields, bootstrapFields, found, upgrade bootstrap found]
      have phase : (intentFields intent).lookup "phase" =
          some (bootstrapPhaseText bootstrap.phase) := by
        simp [intentFields, found, List.lookup_cons]
      have device : (intentFields intent).lookup "legacy_device" =
          some (toString bootstrap.legacyDevice) := by
        simp [intentFields, bootstrapFields, found, List.lookup_cons]
      have inode : (intentFields intent).lookup "legacy_inode" =
          some (toString bootstrap.legacyInode) := by
        simp [intentFields, bootstrapFields, found, List.lookup_cons]
      have sha256 : (intentFields intent).lookup "legacy_sha256" =
          some bootstrap.legacySha256 := by
        simp [intentFields, bootstrapFields, found, List.lookup_cons]
      rw [parseBootstrap, if_neg plain, if_pos extended, phase, parsePhase_text, device, inode,
        sha256]
      refine (ok_bind (okOrElse_some _) _).trans ?_
      refine (ok_bind (okOrElse_some _) _).trans ?_
      rw [parseU64_toString]
      refine (ok_bind (okOrElse_some _) _).trans ?_
      refine (ok_bind (okOrElse_some _) _).trans ?_
      rw [parseU64_toString]
      exact ok_bind (okOrElse_some _) _

theorem parseQuiesceIntent_intentFields (encodable : intent.encodable platform = true)
    (kind : intent.kind ≠ .purge) :
    parseQuiesceIntent platform (intentFields intent) = .ok intent := by
  obtain ⟨identified, stored, validSource, validTarget, bootstrapped⟩ := (encodable_iff).mp encodable
  have parsed : parseKind (some (packageKindText intent.kind)) = some intent.kind := by
    cases found : intent.kind with
    | upgrade => rfl
    | remove => rfl
    | purge => exact absurd found kind
    | reinstall => exact absurd found stored
  have lookups : (intentFields intent).lookup "package_id" = some packageId ∧
      (intentFields intent).lookup "artifact_scope" = some "shared-debian" ∧
      (intentFields intent).lookup "generation" = some intent.generation ∧
      (intentFields intent).lookup "kind" = some (packageKindText intent.kind) ∧
      (intentFields intent).lookup "source_version" = some intent.sourceVersion ∧
      (intentFields intent).lookup "target_version" = some intent.targetVersion := by
    cases found : intent.bootstrap with
    | none => simp [intentFields, found, List.lookup]
    | some bootstrap => simp [intentFields, found, List.lookup]
  obtain ⟨package, scope, generation, kindText, source, target⟩ := lookups
  have bootstrap := parseBootstrap_intentFields fun bootstrap found =>
    (bootstrapped bootstrap found).1
  rw [parseQuiesceIntent, package, scope, generation, kindText, source, target, parsed]
  refine (ok_bind (refuseIf_of_not (by simp)) _).trans ?_
  refine (ok_bind (a := intent.generation) (by simp [identified]) _).trans ?_
  refine (ok_bind (okOrElse_some _) _).trans ?_
  refine (ok_bind (okOrElse_some _) _).trans ?_
  refine (ok_bind (okOrElse_some _) _).trans ?_
  refine (ok_bind (refuseIf_of_not (by simp [validSource])) _).trans ?_
  refine (ok_bind (refuseIf_of_not (by simp [validTarget])) _).trans ?_
  exact ok_bind bootstrap _

/-! ## Reading what was written -/

theorem quiescePayload_ok : (∃ payload, quiescePayload intent = .ok payload) ↔
    ∀ bootstrap, intent.bootstrap = some bootstrap →
      intent.kind = .upgrade ∧ bootstrap.valid = true := by
  unfold quiescePayload
  cases intent.bootstrap with
  | none =>
      constructor
      · intro _ _ impossible
        cases impossible
      · intro _
        exact ⟨_, rfl⟩
  | some bootstrap =>
      simp only [peel_ok, refuseIf_eq_ok, return_ok]
      constructor
      · rintro ⟨_, _, checked, -⟩ other same
        cases same
        simpa [BootstrapQuiesce.valid, and_assoc] using checked
      · intro all
        have checked := all bootstrap rfl
        refine ⟨_, ⟨⟩, ?_, rfl⟩
        simpa [BootstrapQuiesce.valid, and_assoc] using checked

theorem encodeQuiesceIntent_eq_ok {bytes : ByteArray} :
    encodeQuiesceIntent platform sha256Hex intent = .ok bytes ↔
      intent.encodable platform = true ∧ ∃ payload, quiescePayload intent = .ok payload ∧
        (payload ++ "sha256=" ++ sha256Hex (asBytes payload) ++ "\n").toUTF8 = bytes := by
  rw [encodable_iff, ← quiescePayload_ok]
  simp only [encodeQuiesceIntent, peel_ok, refuseIf_eq_ok, return_ok, not_or, Bool.not_eq_false]
  constructor
  · rintro ⟨_, ⟨identified, kind⟩, _, source, _, target, payload, made, written⟩
    refine ⟨⟨identified, kind, source, target, payload, made⟩, payload, made, ?_⟩
    exact written
  · rintro ⟨⟨identified, kind, source, target, -⟩, payload, made, written⟩
    refine ⟨⟨⟩, ⟨identified, kind⟩, ⟨⟩, source, ⟨⟩, target, payload, made, ?_⟩
    exact written

theorem checkedPayload_ok (hex : ∀ bytes, validSha256 (sha256Hex bytes) = true)
    (payload : String) :
    checkedPayload sha256Hex
        (payload ++ "sha256=" ++ sha256Hex (asBytes payload) ++ "\n").toList =
      .ok payload.toList := by
  have digest := hex (asBytes payload)
  have absent : '=' ∉ (sha256Hex (asBytes payload)).toList ++ ['\n'] := by
    intro mem
    rcases List.mem_append.mp mem with inside | last
    · exact (plain_sha256 digest).2.2 inside
    · exact absurd (List.mem_singleton.mp last) (by decide)
  have split := @rsplitOnce_append Char _ '=' payload.toList _ "sha256".toList (by decide) absent
  have label : "sha256=".toList = "sha256".toList ++ ['='] := rfl
  have text : (payload ++ "sha256=" ++ sha256Hex (asBytes payload) ++ "\n").toList =
      payload.toList ++ ("sha256".toList ++ '=' ::
        ((sha256Hex (asBytes payload)).toList ++ ['\n'])) := by
    simp only [String.toList_append, label, List.append_assoc]
    rfl
  unfold checkedPayload
  rw [text, label, split]
  refine (ok_bind (okOrElse_some _) _).trans ?_
  refine (ok_bind (refuseIf_of_not (by simp)) _).trans ?_
  refine (ok_bind (refuseIf_of_not ?_) _).trans rfl
  simp [digest]

theorem fromUTF8?_toUTF8 (text : String) : String.fromUTF8? text.toUTF8 = some text := by
  exact dif_pos text.isValidUTF8

theorem readQuiesceIntent_encoded (uuid : UuidText platform)
    (hex : ∀ bytes, validSha256 (sha256Hex bytes) = true) {bytes : ByteArray}
    (encoded : encodeQuiesceIntent platform sha256Hex intent = .ok bytes)
    (kind : intent.kind ≠ .purge) :
    readQuiesceIntent platform sha256Hex bytes = .ok intent := by
  obtain ⟨encodable, payload, made, rfl⟩ := (encodeQuiesceIntent_eq_ok).mp encoded
  have rendered := quiescePayload_eq made
  have fields := intentFields_ok uuid encodable
  have size := utf8ByteSize_renderFields fields
  have few := @intentFields_length intent
  rw [← rendered, String.ofList_toList] at size
  have values : insertFields [] (lines payload.toList) = .ok (intentFields intent) := by
    rw [rendered, lines_renderFields fields]
    exact @insertFields_ok [] (intentFields intent) fields intentFields_distinct
  have digest := (plain_sha256 (hex (asBytes payload))).2.1
  have label : "sha256=".utf8ByteSize = 7 := rfl
  have newline : "\n".utf8ByteSize = 1 := rfl
  unfold readQuiesceIntent
  refine (ok_bind (refuseIf_of_not ?_) _).trans ?_
  · simp only [String.toUTF8_eq_toByteArray, String.size_toByteArray, String.utf8ByteSize_append,
      maxRecordBytes]
    omega
  rw [fromUTF8?_toUTF8]
  refine (ok_bind (okOrElse_some _) _).trans ?_
  refine (ok_bind (checkedPayload_ok hex payload) _).trans ?_
  refine (ok_bind values _).trans ?_
  refine (ok_bind (parseQuiesceIntent_intentFields encodable kind) _).trans ?_
  refine (ok_bind encoded _).trans ?_
  exact ok_bind (refuseIf_of_not fun different => different rfl) _

theorem encoded_of_readQuiesceIntent {bytes : ByteArray}
    (h : readQuiesceIntent platform sha256Hex bytes = .ok intent) :
    encodeQuiesceIntent platform sha256Hex intent = .ok bytes ∧ intent.kind ≠ .purge := by
  simp only [readQuiesceIntent, peel_ok, refuseIf_eq_ok, return_ok, not_not] at h
  obtain ⟨_, -, text, -, payload, -, values, -, read, parsed, encoded, writes, _, rfl, rfl⟩ := h
  refine ⟨writes, ?_⟩
  simp only [parseQuiesceIntent, peel_ok, okOrElse_eq_ok, return_ok] at parsed
  obtain ⟨_, -, _, -, kind, parsedKind, _, -, _, -, _, -, _, -, _, -, rfl⟩ := parsed
  intro purge
  have same : kind = .purge := purge
  subst same
  unfold parseKind at parsedKind
  split at parsedKind <;> cases parsedKind

/-- An encoded intent is read back exactly when it is not a purge, and whatever is read is the
encoding of what it is read as. -/
theorem quiesce_intent_codec (uuid : UuidText platform)
    (hex : ∀ bytes, validSha256 (sha256Hex bytes) = true) :
    (∀ intent bytes, encodeQuiesceIntent platform sha256Hex intent = .ok bytes →
      (readQuiesceIntent platform sha256Hex bytes = .ok intent ↔ intent.kind ≠ .purge)) ∧
    ∀ intent bytes, readQuiesceIntent platform sha256Hex bytes = .ok intent →
      encodeQuiesceIntent platform sha256Hex intent = .ok bytes := by
  constructor
  · intro intent bytes encoded
    constructor
    · intro reads
      exact (encoded_of_readQuiesceIntent reads).2
    · intro kind
      exact readQuiesceIntent_encoded uuid hex encoded kind
  · intro intent bytes reads
    exact (encoded_of_readQuiesceIntent reads).1

end Fields

/-! ## An upgrade and a purge -/

def codecGeneration : String := "123e4567-e89b-12d3-a456-426614174000"

def codecPlatform : Platform where
  isUuid value := value == codecGeneration
  recordBytes _ := 0
  removalReceiptBytes _ := 0
  installReceiptBytes _ := 0

def upgradeIntent : QuiesceIntent :=
  ⟨codecGeneration, .upgrade, "0.1.0", "0.2.0", none⟩

def purgeIntent : QuiesceIntent :=
  ⟨codecGeneration, .purge, "0.1.0", "0.1.0", none⟩

/-- The digests of the payloads of these intents. -/
def codecSha256Hex (bytes : List UInt8) : String :=
  if (quiescePayload upgradeIntent).toOption.map asBytes = some bytes then
    "52955d2526ff8743a095d96a72081b793400524150c68846f224efeac4652aa9"
  else if (quiescePayload purgeIntent).toOption.map asBytes = some bytes then
    "09b2ec11759369d0411a759701a8fb77ade88aae7183ef3fb5f7cd1c9047bac2"
  else
    "0000000000000000000000000000000000000000000000000000000000000000"

theorem codec_uuidText : UuidText codecPlatform := by
  intro value identified
  obtain rfl : value = codecGeneration := beq_iff_eq.mp identified
  have chars : codecGeneration.toList.all (fun c => c.isAlphanum || c == '-') = true := by
    rfl
  refine ⟨by decide, fun c mem => ?_⟩
  have own := List.all_eq_true.mp chars c mem
  simp only [Bool.or_eq_true, beq_iff_eq] at own
  simp only [List.mem_cons]
  exact own.imp_right .inl

theorem codec_digests (bytes : List UInt8) : validSha256 (codecSha256Hex bytes) = true := by
  unfold codecSha256Hex
  split
  · decide
  · split
    · decide
    · decide

theorem upgrade_intent_reads_back :
    ∃ bytes, encodeQuiesceIntent codecPlatform codecSha256Hex upgradeIntent = .ok bytes ∧
      readQuiesceIntent codecPlatform codecSha256Hex bytes = .ok upgradeIntent := by
  obtain ⟨bytes, encoded⟩ := exists_ok (show (encodeQuiesceIntent codecPlatform codecSha256Hex
    upgradeIntent).isOk = true from rfl)
  exact ⟨bytes, encoded, ((quiesce_intent_codec codec_uuidText codec_digests).1 upgradeIntent bytes
    encoded).mpr (by decide)⟩

theorem purge_intent_unreadable :
    ∃ bytes, encodeQuiesceIntent codecPlatform codecSha256Hex purgeIntent = .ok bytes ∧
      readQuiesceIntent codecPlatform codecSha256Hex bytes ≠ .ok purgeIntent := by
  obtain ⟨bytes, encoded⟩ := exists_ok (show (encodeQuiesceIntent codecPlatform codecSha256Hex
    purgeIntent).isOk = true from rfl)
  exact ⟨bytes, encoded, fun reads => (encoded_of_readQuiesceIntent reads).2 rfl⟩

end DocumentSummarizer.Connect
