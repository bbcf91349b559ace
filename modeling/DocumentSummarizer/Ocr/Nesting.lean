import Mathlib
import DocumentSummarizer.Library.JsonLexis
import DocumentSummarizer.Ocr.Wire

/-! # Metadata before it is decoded

The scan over the bytes of a text sees the nesting of the value that the text
spells, and the visitor refuses exactly the repeated members.
-/

namespace DocumentSummarizer.Ocr

open Library JsonLexis
open Pipeline (Gateway.Json)

/-! ## Texts and values -/

/-- What the tokenizer reads from the body of a string and from a number. -/
structure Lexer where
  string : List UInt8 → Option String
  number : List UInt8 → Option Gateway.Json

mutual

/-- The text of a value; an element follows a comma, the first one a bracket instead. -/
def spells (lexer : Lexer) : Gateway.Json → List UInt8 → Prop
  | .null, text => text = utf8 "null"
  | .bool value, text => text = utf8 (if value then "true" else "false")
  | .unsigned value, text => IsNumber text ∧ lexer.number text = some (.unsigned value)
  | .number value, text => IsNumber text ∧ lexer.number text = some (.number value)
  | .string value, text => ∃ body, text = 0x22 :: (body ++ [0x22]) ∧ IsStringBody body ∧
      lexer.string body = some value
  | .array items, text => ∃ inner, text = 0x5b :: (inner ++ [0x5d]) ∧
      (items = [] ∧ IsBlank inner ∨ items ≠ [] ∧ spellsItems lexer items (0x2c :: inner))
  | .object fields, text => ∃ inner, text = 0x7b :: (inner ++ [0x7d]) ∧
      (fields = [] ∧ IsBlank inner ∨ fields ≠ [] ∧ spellsFields lexer fields (0x2c :: inner))

def spellsItems (lexer : Lexer) : List Gateway.Json → List UInt8 → Prop
  | [], text => text = []
  | item :: rest, text => ∃ before own after later,
      text = 0x2c :: (before ++ (own ++ (after ++ later))) ∧ IsBlank before ∧
        spells lexer item own ∧ IsBlank after ∧ spellsItems lexer rest later

def spellsFields (lexer : Lexer) : List (String × Gateway.Json) → List UInt8 → Prop
  | [], text => text = []
  | (name, value) :: rest, text => ∃ before body between colon own after later,
      text = 0x2c :: (before ++ (0x22 :: (body ++ 0x22 :: (between ++
        0x3a :: (colon ++ (own ++ (after ++ later))))))) ∧ IsBlank before ∧
        IsStringBody body ∧ lexer.string body = some name ∧ IsBlank between ∧ IsBlank colon ∧
        spells lexer value own ∧ IsBlank after ∧ spellsFields lexer rest later

end

/-- A well-formed text and its value. -/
def JsonText (lexer : Lexer) (value : Gateway.Json) (bytes : List UInt8) : Prop :=
  ∃ before own after, bytes = before ++ (own ++ after) ∧ IsBlank before ∧ spells lexer value own ∧
    IsBlank after

mutual

/-- How deep arrays and objects lie in one another. -/
def nesting : Gateway.Json → Nat
  | .array items => nestingItems items + 1
  | .object fields => nestingFields fields + 1
  | .null | .bool _ | .unsigned _ | .number _ | .string _ => 0

def nestingItems : List Gateway.Json → Nat
  | [] => 0
  | item :: rest => max (nesting item) (nestingItems rest)

def nestingFields : List (String × Gateway.Json) → Nat
  | [] => 0
  | (_, value) :: rest => max (nesting value) (nestingFields rest)

end

/-- A value and what lies in it at any depth. -/
inductive Inside (root : Gateway.Json) : Gateway.Json → Prop where
  | root : Inside root root
  | item {items item} (array : Inside root (.array items)) (mem : item ∈ items) : Inside root item
  | field {fields} {field : String × Gateway.Json} (object : Inside root (.object fields))
      (mem : field ∈ fields) : Inside root field.2

/-- No object at any depth repeats a member name. -/
def Unrepeated (root : Gateway.Json) : Prop :=
  ∀ fields, Inside root (.object fields) → (fields.map (·.1)).Nodup

/-! ## The visitor -/

mutual

/-- `UniqueVisitor` -/
def visit : Gateway.Json → Option Gateway.Json
  | .array items => (visitSeq [] items).map .array
  | .object fields => (visitMap [] fields).map .object
  | .null => some .null
  | .bool value => some (.bool value)
  | .unsigned value => some (.unsigned value)
  | .number text => some (.number text)
  | .string value => some (.string value)

def visitSeq : List Gateway.Json → List Gateway.Json → Option (List Gateway.Json)
  | values, [] => some values
  | values, item :: rest =>
    match visit item with
    | none => none
    | some value => visitSeq (values ++ [value]) rest

/-- An insertion that replaces a value is refused. -/
def visitMap : List (String × Gateway.Json) → List (String × Gateway.Json) →
    Option (List (String × Gateway.Json))
  | values, [] => some values
  | values, (key, entry) :: rest =>
    match visit entry with
    | none => none
    | some value =>
      if (values.lookup key).isSome = true then none else visitMap (values ++ [(key, value)]) rest

end

/-! ## The scan -/

/-- One byte of the scan, whatever the depth. -/
def NestingScan.advance (scan : NestingScan) (byte : UInt8) : NestingScan :=
  if scan.quoted then
    if scan.escaped then { scan with escaped := false }
    else if byte = 0x5c then { scan with escaped := true }
    else if byte = 0x22 then { scan with quoted := false }
    else scan
  else if byte = 0x22 then { scan with quoted := true }
  else if byte = 0x7b ∨ byte = 0x5b then { scan with depth := scan.depth + 1 }
  else if byte = 0x7d ∨ byte = 0x5d then { scan with depth := scan.depth - 1 }
  else scan

/-- The greatest depth of a scan. -/
def NestingScan.peak : NestingScan → List UInt8 → Int
  | scan, [] => scan.depth
  | scan, byte :: rest => max scan.depth ((scan.advance byte).peak rest)

def NestingScan.along (scan : NestingScan) (bytes : List UInt8) : NestingScan :=
  bytes.foldl NestingScan.advance scan

section Scanning

variable {scan : NestingScan} {front back bytes : List UInt8} {byte : UInt8} {d : Int}

theorem step_eq_advance : scan.step byte =
    if (scan.advance byte).depth > 16 ∧ scan.depth < (scan.advance byte).depth then none
    else some (scan.advance byte) := by
  grind [NestingScan.step, NestingScan.advance]

theorem depth_le_peak : scan.depth ≤ scan.peak bytes := by
  cases bytes with
  | nil => exact Int.le_refl _
  | cons byte rest =>
      rw [NestingScan.peak]
      omega

theorem scan_passes_iff (within : scan.depth ≤ 16) :
    (bytes.foldlM NestingScan.step scan).isSome = true ↔ scan.peak bytes ≤ 16 := by
  induction bytes generalizing scan with
  | nil => simp [NestingScan.peak, within]
  | cons byte rest ih =>
      rw [List.foldlM_cons, step_eq_advance]
      by_cases deep : (scan.advance byte).depth > 16 ∧ scan.depth < (scan.advance byte).depth
      · rw [if_pos deep]
        have high := @depth_le_peak (scan.advance byte) rest
        simp only [NestingScan.peak, Option.bind_eq_bind, Option.bind_none, Option.isSome_none,
          Bool.false_eq_true, false_iff]
        omega
      · rw [if_neg deep]
        have next : (scan.advance byte).depth ≤ 16 := by omega
        simp only [NestingScan.peak, Option.bind_eq_bind, Option.bind_some, ih next]
        omega

theorem along_append : scan.along (front ++ back) = (scan.along front).along back :=
  List.foldl_append

theorem along_cons : scan.along (byte :: bytes) = (scan.advance byte).along bytes :=
  rfl

theorem peak_append : scan.peak (front ++ back) =
    max (scan.peak front) ((scan.along front).peak back) := by
  induction front generalizing scan with
  | nil =>
      have start := @depth_le_peak scan back
      show scan.peak back = max scan.depth (scan.peak back)
      omega
  | cons byte rest ih =>
      rw [List.cons_append, NestingScan.peak, NestingScan.peak, ih, along_cons]
      omega

/-- A scan over a text: where it ends, and its greatest depth. -/
structure Scans (scan : NestingScan) (bytes : List UInt8) (ends : NestingScan) (peak : Int) :
    Prop where
  ends : scan.along bytes = ends
  peak : scan.peak bytes = peak

theorem Scans.append {middle ends : NestingScan} {p q r : Int}
    (first : Scans scan front middle p) (second : Scans middle back ends q)
    (highest : max p q = r) : Scans scan (front ++ back) ends r where
  ends := by rw [along_append, first.ends, second.ends]
  peak := by rw [peak_append, first.peak, first.ends, second.peak, highest]

theorem scans_nil : Scans scan [] scan scan.depth :=
  ⟨rfl, rfl⟩

theorem scans_byte {ends : NestingScan} {p : Int} (next : scan.advance byte = ends)
    (highest : max scan.depth ends.depth = p) : Scans scan [byte] ends p where
  ends := next
  peak := by rw [NestingScan.peak, next, NestingScan.peak, highest]

/-- Between values, and in the body of a string. -/
def NestingScan.plain (d : Int) : NestingScan :=
  ⟨d, false, false⟩

def NestingScan.inString (d : Int) : NestingScan :=
  ⟨d, true, false⟩

/-- From any depth, the text goes `n` deeper and comes back. -/
def Balanced (n : Nat) (text : List UInt8) : Prop :=
  ∀ d : Int, Scans (.plain d) text (.plain d) (d + n)

theorem Balanced.append {n m : Nat} (first : Balanced n front) (second : Balanced m back) :
    Balanced (max n m) (front ++ back) := by
  intro d
  exact (first d).append (second d) (by omega)

theorem balanced_quiet (quiet : ∀ byte ∈ bytes, IsQuiet byte) : Balanced 0 bytes := by
  induction bytes with
  | nil =>
      intro d
      exact ⟨rfl, by simp [NestingScan.peak, NestingScan.plain]⟩
  | cons byte rest ih =>
      rw [List.forall_mem_cons] at quiet
      intro d
      have same : (NestingScan.plain d).advance byte = .plain d := by
        have apart := quiet.1
        simp only [IsQuiet, List.mem_cons, List.not_mem_nil, or_false, not_or] at apart
        simp [NestingScan.advance, NestingScan.plain, apart]
      have first : Scans (.plain d) [byte] (.plain d) d :=
        scans_byte same (by simp [NestingScan.plain])
      exact first.append (ih quiet.2 d) (by omega)

theorem scans_escape (byte : UInt8) (d : Int) :
    Scans (.inString d) [0x5c, byte] (.inString d) d := by
  have opened : (NestingScan.inString d).advance 0x5c = ⟨d, true, true⟩ := by
    simp [NestingScan.advance, NestingScan.inString]
  have closed : NestingScan.advance ⟨d, true, true⟩ byte = .inString d := by
    simp [NestingScan.advance, NestingScan.inString]
  have first := @scans_byte (.inString d) 0x5c _ d opened (by simp [NestingScan.inString])
  have second := @scans_byte _ byte _ d closed (by simp [NestingScan.inString])
  exact first.append second (by omega)

theorem scans_inString (plain : ∀ byte ∈ bytes, byte ≠ 0x22 ∧ byte ≠ 0x5c) (d : Int) :
    Scans (.inString d) bytes (.inString d) d := by
  induction bytes with
  | nil => exact scans_nil
  | cons byte rest ih =>
      rw [List.forall_mem_cons] at plain
      have same : (NestingScan.inString d).advance byte = .inString d := by
        simp [NestingScan.advance, NestingScan.inString, plain.1]
      have first : Scans (.inString d) [byte] (.inString d) d :=
        scans_byte same (by simp [NestingScan.inString])
      exact first.append (ih plain.2) (by omega)

theorem scans_body (h : IsStringBody bytes) (d : Int) :
    Scans (.inString d) bytes (.inString d) d := by
  induction h with
  | nil => exact scans_nil
  | @plain byte rest printable unquoted unescaped later ih =>
      have first := @scans_inString [byte] (by simp [unquoted, unescaped]) d
      exact first.append ih (by omega)
  | @escape byte rest simple later ih =>
      exact (scans_escape byte d).append ih (by omega)
  | @unicode digits rest four hex later ih =>
      have digitsStay := @scans_inString digits (fun byte mem => (hex byte mem).plain) d
      exact (scans_escape 0x75 d).append (digitsStay.append ih rfl) (by omega)

theorem balanced_string (h : IsStringBody bytes) :
    Balanced 0 (0x22 :: (bytes ++ [0x22])) := by
  intro d
  have opening : (NestingScan.plain d).advance 0x22 = .inString d := by
    simp [NestingScan.advance, NestingScan.plain, NestingScan.inString]
  have closing : (NestingScan.inString d).advance 0x22 = .plain d := by
    simp [NestingScan.advance, NestingScan.plain, NestingScan.inString]
  have first := @scans_byte _ 0x22 _ d opening (by simp [NestingScan.plain, NestingScan.inString])
  have last := @scans_byte _ 0x22 _ d closing (by simp [NestingScan.plain, NestingScan.inString])
  exact first.append ((scans_body h d).append last rfl) (by omega)

theorem balanced_brackets {n : Nat} {opening closing : UInt8}
    (brackets : opening = 0x5b ∧ closing = 0x5d ∨ opening = 0x7b ∧ closing = 0x7d)
    (inner : Balanced n bytes) : Balanced (n + 1) (opening :: (bytes ++ [closing])) := by
  intro d
  have opened : (NestingScan.plain d).advance opening = .plain (d + 1) := by
    rcases brackets with ⟨rfl, -⟩ | ⟨rfl, -⟩ <;> simp [NestingScan.advance, NestingScan.plain]
  have closed : (NestingScan.plain (d + 1)).advance closing = .plain d := by
    rcases brackets with ⟨-, rfl⟩ | ⟨-, rfl⟩ <;> simp [NestingScan.advance, NestingScan.plain]
  have first := @scans_byte _ opening _ (d + 1) opened (by
    simp only [NestingScan.plain]
    omega)
  have last := @scans_byte _ closing _ (d + 1) closed (by
    simp only [NestingScan.plain]
    omega)
  exact first.append ((inner (d + 1)).append last rfl) (by omega)

end Scanning

/-! ## The depth of a text -/

section Depth

variable {lexer : Lexer} {bytes text inner : List UInt8}

theorem balanced_of_comma {n : Nat} (h : Balanced n (0x2c :: inner)) : Balanced n inner := by
  intro d
  have ends := (h d).ends
  have peak := (h d).peak
  have same : (NestingScan.plain d).advance 0x2c = .plain d := by
    simp [NestingScan.advance, NestingScan.plain]
  rw [along_cons, same] at ends
  rw [NestingScan.peak, same] at peak
  have start := @depth_le_peak (.plain d) inner
  exact ⟨ends, by omega⟩

mutual

/-- The scan goes as deep into the text of a value as its arrays and objects nest. -/
theorem spells_balanced (value : Gateway.Json) (text : List UInt8)
    (h : spells lexer value text) : Balanced (nesting value) text := by
  cases value with
  | null =>
      rw [spells] at h
      subst h
      exact balanced_quiet (quiet_of_all (by decide))
  | bool value =>
      rw [spells] at h
      subst h
      cases value
      · exact balanced_quiet (quiet_of_all (by decide))
      · exact balanced_quiet (quiet_of_all (by decide))
  | unsigned value =>
      rw [spells] at h
      exact balanced_quiet h.1.quiet
  | number value =>
      rw [spells] at h
      exact balanced_quiet h.1.quiet
  | string value =>
      rw [spells] at h
      obtain ⟨body, rfl, isBody, -⟩ := h
      exact balanced_string isBody
  | array items =>
      rw [spells] at h
      obtain ⟨inner, rfl, elements⟩ := h
      rw [nesting]
      apply balanced_brackets (.inl ⟨rfl, rfl⟩)
      rcases elements with ⟨rfl, blank⟩ | ⟨-, elements⟩
      · exact balanced_quiet blank.quiet
      · exact balanced_of_comma (spellsItems_balanced items _ elements)
  | object fields =>
      rw [spells] at h
      obtain ⟨inner, rfl, members⟩ := h
      rw [nesting]
      apply balanced_brackets (.inr ⟨rfl, rfl⟩)
      rcases members with ⟨rfl, blank⟩ | ⟨-, members⟩
      · exact balanced_quiet blank.quiet
      · exact balanced_of_comma (spellsFields_balanced fields _ members)

theorem spellsItems_balanced (items : List Gateway.Json) (text : List UInt8)
    (h : spellsItems lexer items text) : Balanced (nestingItems items) text := by
  cases items with
  | nil =>
      rw [spellsItems] at h
      subst h
      exact balanced_quiet nofun
  | cons item rest =>
      rw [spellsItems] at h
      obtain ⟨before, own, after, later, rfl, blank, spelled, blank', elements⟩ := h
      have comma : Balanced 0 [0x2c] := balanced_quiet (quiet_of_all (by decide))
      have first := spells_balanced item own spelled
      have others := spellsItems_balanced rest later elements
      have whole := comma.append ((balanced_quiet blank.quiet).append
        (first.append ((balanced_quiet blank'.quiet).append others)))
      simpa [nestingItems] using whole

theorem spellsFields_balanced (fields : List (String × Gateway.Json)) (text : List UInt8)
    (h : spellsFields lexer fields text) : Balanced (nestingFields fields) text := by
  cases fields with
  | nil =>
      rw [spellsFields] at h
      subst h
      exact balanced_quiet nofun
  | cons field rest =>
      cases field with
      | mk name value =>
          rw [spellsFields] at h
          obtain ⟨before, body, between, colon, own, after, later, rfl, blankBefore, isBody, -,
            blankBetween, blankColon, spelled, blankAfter, members⟩ := h
          have comma : Balanced 0 [0x2c] := balanced_quiet (quiet_of_all (by decide))
          have mark : Balanced 0 [0x3a] := balanced_quiet (quiet_of_all (by decide))
          have first := spells_balanced value own spelled
          have others := spellsFields_balanced rest later members
          have whole := comma.append ((balanced_quiet blankBefore.quiet).append
            ((balanced_string isBody).append ((balanced_quiet blankBetween.quiet).append
              (mark.append ((balanced_quiet blankColon.quiet).append
                (first.append ((balanced_quiet blankAfter.quiet).append others)))))))
          simpa [nestingFields] using whole

end

theorem jsonText_peak {value : Gateway.Json} (h : JsonText lexer value bytes) :
    NestingScan.start.peak bytes = nesting value := by
  obtain ⟨before, own, after, rfl, blank, spelled, blank'⟩ := h
  have whole := (balanced_quiet blank.quiet).append
    ((spells_balanced value own spelled).append (balanced_quiet blank'.quiet))
  have peak := (whole 0).peak
  show (NestingScan.plain 0).peak _ = _
  simpa using peak

end Depth

/-! ## Repeated members -/

section Members

/-- None of the fields is among the values. -/
def Unwritten (values fields : List (String × Gateway.Json)) : Prop :=
  ∀ field ∈ fields, (values.lookup field.1).isSome = false

instance {values fields : List (String × Gateway.Json)} : Decidable (Unwritten values fields) :=
  List.decidableBAll _ _

theorem fresh_cons {values rest : List (String × Gateway.Json)} {key : String}
    {value : Gateway.Json} :
    (Unwritten (values ++ [(key, value)]) rest ∧ (values.lookup key).isSome = false) ↔
      (Unwritten values ((key, value) :: rest) ∧ rest.any (·.1 == key) = false) := by
  have later : ∀ name, ((values ++ [(key, value)]).lookup name).isSome = false ↔
      (values.lookup name).isSome = false ∧ (name == key) = false := by
    intro name
    rw [List.lookup_append]
    cases found : values.lookup name with
    | some old => simp
    | none =>
        cases same : name == key <;> simp [List.lookup, same]
  simp only [Unwritten, later, List.forall_mem_cons, List.any_eq_false, Bool.not_eq_true]
  constructor
  · rintro ⟨apart, new⟩
    exact ⟨⟨new, fun field mem => (apart field mem).1⟩, fun field mem => (apart field mem).2⟩
  · rintro ⟨⟨new, apart⟩, distinct⟩
    exact ⟨fun field mem => ⟨apart field mem, distinct field mem⟩, new⟩

mutual

theorem visit_eq (value : Gateway.Json) :
    visit value = if uniqueMembers value = true then some value else none := by
  cases value with
  | null => rfl
  | bool value => rfl
  | unsigned value => rfl
  | number text => rfl
  | string value => rfl
  | array items =>
      rw [visit, visitSeq_eq [] items, uniqueMembers]
      split <;> rfl
  | object fields =>
      have fresh : Unwritten [] fields := fun _ _ => rfl
      rw [visit, visitMap_eq [] fields, uniqueMembers]
      simp only [fresh, and_true]
      split <;> rfl

theorem visitSeq_eq (values items : List Gateway.Json) :
    visitSeq values items = if uniqueItems items = true then some (values ++ items) else none := by
  cases items with
  | nil => simp [visitSeq, uniqueItems]
  | cons item rest =>
      rw [visitSeq, visit_eq item, uniqueItems]
      by_cases unique : uniqueMembers item = true
      · rw [if_pos unique]
        simp only [visitSeq_eq (values ++ [item]) rest, unique, Bool.true_and, List.append_assoc,
          List.singleton_append]
      · rw [if_neg unique]
        simp [unique]

theorem visitMap_eq (values fields : List (String × Gateway.Json)) :
    visitMap values fields =
      if uniqueFields fields = true ∧ Unwritten values fields then some (values ++ fields)
      else none := by
  cases fields with
  | nil => simp [visitMap, uniqueFields, Unwritten]
  | cons field rest =>
      cases field with
      | mk key value =>
          have grown := @fresh_cons values rest key value
          rw [visitMap, visit_eq value, uniqueFields]
          by_cases unique : uniqueMembers value = true
          · rw [if_pos unique]
            simp only [visitMap_eq (values ++ [(key, value)]) rest, unique, Bool.true_and,
              Bool.and_eq_true, Bool.not_eq_true', List.append_assoc, List.singleton_append]
            grind
          · rw [if_neg unique]
            simp [unique]

end

theorem Inside.trans {root middle value : Gateway.Json} (outer : Inside root middle)
    (inner : Inside middle value) : Inside root value := by
  induction inner with
  | root => exact outer
  | item _ mem ih => exact .item ih mem
  | field _ mem ih => exact .field ih mem

theorem inside_array {items : List Gateway.Json} {value : Gateway.Json}
    (h : Inside (.array items) value) :
    value = .array items ∨ ∃ item ∈ items, Inside item value := by
  induction h with
  | root => exact .inl rfl
  | item _ mem ih =>
      rcases ih with same | ⟨item, inItems, inside⟩
      · cases same
        exact .inr ⟨_, mem, .root⟩
      · exact .inr ⟨item, inItems, .item inside mem⟩
  | field _ mem ih =>
      rcases ih with same | ⟨item, inItems, inside⟩
      · cases same
      · exact .inr ⟨item, inItems, .field inside mem⟩

theorem inside_object {fields : List (String × Gateway.Json)} {value : Gateway.Json}
    (h : Inside (.object fields) value) :
    value = .object fields ∨ ∃ field ∈ fields, Inside field.2 value := by
  induction h with
  | root => exact .inl rfl
  | item _ mem ih =>
      rcases ih with same | ⟨field, inFields, inside⟩
      · cases same
      · exact .inr ⟨field, inFields, .item inside mem⟩
  | field _ mem ih =>
      rcases ih with same | ⟨field, inFields, inside⟩
      · cases same
        exact .inr ⟨_, mem, .root⟩
      · exact .inr ⟨field, inFields, .field inside mem⟩

theorem unrepeated_array {items : List Gateway.Json} :
    Unrepeated (.array items) ↔ ∀ item ∈ items, Unrepeated item := by
  constructor
  · intro all item mem fields inside
    exact all fields (Inside.trans (.item .root mem) inside)
  · intro each fields inside
    rcases inside_array inside with impossible | ⟨item, mem, deeper⟩
    · cases impossible
    · exact each item mem fields deeper

theorem unrepeated_object {fields : List (String × Gateway.Json)} :
    Unrepeated (.object fields) ↔
      (fields.map (·.1)).Nodup ∧ ∀ field ∈ fields, Unrepeated field.2 := by
  constructor
  · intro all
    refine ⟨all fields .root, ?_⟩
    intro field mem own inside
    exact all own (Inside.trans (.field .root mem) inside)
  · rintro ⟨distinct, each⟩ own inside
    rcases inside_object inside with same | ⟨field, mem, deeper⟩
    · cases same
      exact distinct
    · exact each field mem own deeper

theorem unrepeated_scalar {value : Gateway.Json} (array : ∀ items, value ≠ .array items)
    (object : ∀ fields, value ≠ .object fields) : Unrepeated value := by
  have alone : ∀ other, Inside value other → other = value := by
    intro other inside
    induction inside with
    | root => rfl
    | item _ _ ih => exact absurd ih.symm (array _)
    | field _ _ ih => exact absurd ih.symm (object _)
  intro fields inside
  exact absurd (alone _ inside).symm (object fields)

mutual

theorem uniqueMembers_iff (value : Gateway.Json) :
    uniqueMembers value = true ↔ Unrepeated value := by
  cases value with
  | null => exact ⟨fun _ => unrepeated_scalar nofun nofun, fun _ => rfl⟩
  | bool value => exact ⟨fun _ => unrepeated_scalar nofun nofun, fun _ => rfl⟩
  | unsigned value => exact ⟨fun _ => unrepeated_scalar nofun nofun, fun _ => rfl⟩
  | number text => exact ⟨fun _ => unrepeated_scalar nofun nofun, fun _ => rfl⟩
  | string value => exact ⟨fun _ => unrepeated_scalar nofun nofun, fun _ => rfl⟩
  | array items => rw [uniqueMembers, unrepeated_array, uniqueItems_iff items]
  | object fields => rw [uniqueMembers, unrepeated_object, uniqueFields_iff fields]

theorem uniqueItems_iff (items : List Gateway.Json) :
    uniqueItems items = true ↔ ∀ item ∈ items, Unrepeated item := by
  cases items with
  | nil => simp [uniqueItems]
  | cons item rest =>
      rw [uniqueItems, Bool.and_eq_true, uniqueMembers_iff item, uniqueItems_iff rest,
        List.forall_mem_cons]

theorem uniqueFields_iff (fields : List (String × Gateway.Json)) :
    uniqueFields fields = true ↔
      (fields.map (·.1)).Nodup ∧ ∀ field ∈ fields, Unrepeated field.2 := by
  cases fields with
  | nil => simp [uniqueFields]
  | cons field rest =>
      cases field with
      | mk name value =>
          rw [uniqueFields, Bool.and_eq_true, Bool.and_eq_true, uniqueMembers_iff value,
            uniqueFields_iff rest, List.forall_mem_cons, List.map_cons, List.nodup_cons]
          have absent : (!rest.any (·.1 == name)) = true ↔ name ∉ rest.map (·.1) := by
            simp only [Bool.not_eq_true', List.any_eq_false, beq_iff_eq, List.mem_map, not_exists,
              not_and]
          rw [absent]
          tauto

end

end Members

/-! ## What is decoded -/

/-- `serde_json` reads only well-formed texts, as the values they spell. -/
def SerdeJson.ReadsTexts (serde : SerdeJson) (lexer : Lexer) : Prop :=
  ∀ bytes value, serde.fromSlice bytes = .ok value → JsonText lexer value bytes

section Decoding

variable {serde : SerdeJson} {lexer : Lexer} {α : Type}

theorem withinNesting_iff {bytes : List UInt8} :
    withinNesting bytes = true ↔ NestingScan.start.peak bytes ≤ 16 :=
  scan_passes_iff (show (0 : Int) ≤ 16 by omega)

theorem decodeMetadata_eq {fromValue : Gateway.Json → Except String α} {bytes : List UInt8}
    {limit : Nat} :
    decodeMetadata serde fromValue bytes limit = (do
      refuseIf (limit < bytes.length) "metadata exceeds its byte limit"
      refuseIf (withinNesting bytes = false) "metadata nesting exceeds 16"
      let read ← serde.fromSlice bytes
      let value ← okOrElse (visit read) (serde.located bytes "duplicate JSON member")
      refuseIf (hasNullTerminalMember value = true) "status contains a null terminal member"
      fromValue value) := by
  unfold decodeMetadata
  congr 1
  funext _
  congr 1
  funext _
  congr 1
  funext read
  rw [visit_eq]
  by_cases unique : uniqueMembers read = true
  · rw [if_pos unique]
    refine (ok_bind (refuseIf_of_not (by simp [unique])) _).trans ?_
    rfl
  · rw [if_neg unique]
    simp only [unique, okOrElse, refuseIf, if_true]
    rfl

/-- Decoded metadata is well formed, within the limits and without repeated members.  The scan
sees the nesting of the value of every well-formed text, and neither it nor the visitor refuses a
text that nests at most sixteen deep and repeats no member: what is left to decide is whether
the type accepts the value. -/
theorem decode_metadata_strict (reads : serde.ReadsTexts lexer) :
    (∀ (fromValue : Gateway.Json → Except String α) bytes limit a,
      decodeMetadata serde fromValue bytes limit = .ok a → bytes.length ≤ limit ∧
        ∃ value, JsonText lexer value bytes ∧ nesting value ≤ 16 ∧ Unrepeated value) ∧
    (∀ value bytes, JsonText lexer value bytes →
      NestingScan.start.peak bytes = nesting value) ∧
    ∀ value bytes, JsonText lexer value bytes → nesting value ≤ 16 → Unrepeated value →
      withinNesting bytes = true ∧ visit value = some value ∧
        ∀ (fromValue : Gateway.Json → Except String α) limit, bytes.length ≤ limit →
          serde.fromSlice bytes = .ok value → decodeMetadata serde fromValue bytes limit = (do
            refuseIf (hasNullTerminalMember value = true)
              "status contains a null terminal member"
            fromValue value) := by
  refine ⟨?_, fun value bytes => jsonText_peak, ?_⟩
  · intro fromValue bytes limit a decoded
    simp only [decodeMetadata, peel_ok, refuseIf_eq_ok, Bool.not_eq_false] at decoded
    obtain ⟨_, fits, _, within, value, read, _, unique, -⟩ := decoded
    have text := reads bytes value read
    have shallow := withinNesting_iff.mp within
    rw [jsonText_peak text] at shallow
    exact ⟨Nat.not_lt.mp fits, value, text, by omega, (uniqueMembers_iff value).mp unique⟩
  · intro value bytes text shallow unrepeated
    have within : withinNesting bytes = true := by
      rw [withinNesting_iff, jsonText_peak text]
      omega
    have visited : visit value = some value := by
      rw [visit_eq, if_pos ((uniqueMembers_iff value).mpr unrepeated)]
    refine ⟨within, visited, ?_⟩
    intro fromValue limit fits read
    rw [decodeMetadata_eq]
    refine (ok_bind (refuseIf_of_not (Nat.not_lt.mpr fits)) _).trans ?_
    refine (ok_bind (refuseIf_of_not (by simp [within])) _).trans ?_
    refine (ok_bind read _).trans ?_
    rw [visited]
    exact ok_bind (okOrElse_some value) _

end Decoding

/-! ## A bracket in a string -/

def bracketText : String :=
  "\x7b\"a\":[1,\" [\\\"\"]\x7d"

def bracketValue : Gateway.Json :=
  .object [("a", .array [.unsigned 1, .string " [\""])]

def bracketLexer : Lexer where
  string body :=
    if body = utf8 "a" then some "a"
    else if body = utf8 " [\\\"" then some " [\""
    else none
  number text := if text = utf8 "1" then some (.unsigned 1) else none

/-- `serde_json` on that text. -/
def bracketSerde : SerdeJson where
  fromSlice bytes :=
    if bytes = utf8 bracketText then .ok bracketValue
    else .error "expected value at line 1 column 1"
  located _ message := message
  statusFromValue _ := .error "missing field"
  envelopeFromValue _ := .error "missing field"
  statusToString _ := ""
  inlineStatusFromSlice _ := .error "missing field"
  inlineEnvelopeFromSlice _ := .error "missing field"
  inlineStatusToString _ := ""
  requestFromStr _ := .error "missing field"
  requestToString _ := ""

theorem bracketText_spelled : JsonText bracketLexer bracketValue (utf8 bracketText) := by
  have one : spells bracketLexer (.unsigned 1) (utf8 "1") := by
    rw [spells]
    refine ⟨⟨[], utf8 "1", [], [], by decide, by decide, ?_, .inl rfl, .inl rfl⟩,
      by simp [bracketLexer]⟩
    have digits : ∀ byte ∈ ([0x31] : List UInt8), IsDigit byte :=
      List.forall_mem_singleton.mpr (by unfold IsDigit; decide)
    exact .inr ⟨⟨by decide, digits⟩, by decide⟩
  have quote : spells bracketLexer (.string " [\"") (utf8 "\" [\\\"\"") := by
    rw [spells]
    refine ⟨utf8 " [\\\"", by decide +kernel, ?_, by decide +kernel⟩
    exact .plain (by decide) (by decide) (by decide) (.plain (by decide) (by decide) (by decide)
      (.escape (by decide) .nil))
  have items : spellsItems bracketLexer [.unsigned 1, .string " [\""]
      (utf8 ",1,\" [\\\"\"") := by
    rw [spellsItems]
    refine ⟨[], utf8 "1", [], utf8 ",\" [\\\"\"", by decide, nofun, one, nofun, ?_⟩
    rw [spellsItems]
    refine ⟨[], utf8 "\" [\\\"\"", [], [], by decide, nofun, quote, nofun, ?_⟩
    rw [spellsItems]
  have array : spells bracketLexer (.array [.unsigned 1, .string " [\""])
      (utf8 "[1,\" [\\\"\"]") := by
    rw [spells]
    exact ⟨utf8 "1,\" [\\\"\"", by decide, .inr ⟨nofun, items⟩⟩
  have body : IsStringBody (utf8 "a") :=
    .plain (by decide) (by decide) (by decide) .nil
  refine ⟨[], utf8 bracketText, [], by decide, nofun, ?_, nofun⟩
  rw [bracketValue, spells]
  refine ⟨utf8 "\"a\":[1,\" [\\\"\"]", by decide, .inr ⟨nofun, ?_⟩⟩
  rw [spellsFields]
  refine ⟨[], utf8 "a", [], [], utf8 "[1,\" [\\\"\"]", [], [], by decide, nofun, body, by decide,
    nofun, nofun, array, nofun, ?_⟩
  rw [spellsFields]

theorem bracketSerde_reads : bracketSerde.ReadsTexts bracketLexer := by
  intro bytes value read
  simp only [bracketSerde] at read
  split at read
  · next same =>
      cases read
      rw [same]
      exact bracketText_spelled
  · cases read

/-- The text nests two deep: the bracket in its string does not count. -/
theorem bracket_text_decodes :
    NestingScan.start.peak (utf8 bracketText) = 2 ∧
      decodeMetadata bracketSerde (fun value => .ok (nesting value)) (utf8 bracketText) 64 =
        .ok 2 := by
  obtain ⟨-, depth, passes⟩ :=
    @decode_metadata_strict bracketSerde bracketLexer Nat bracketSerde_reads
  have unrepeated : Unrepeated bracketValue := (uniqueMembers_iff bracketValue).mp (by decide)
  have read : bracketSerde.fromSlice (utf8 bracketText) = .ok bracketValue := by
    simp [bracketSerde]
  have small : (utf8 bracketText).length ≤ 64 := by decide
  obtain ⟨-, -, decodes⟩ := passes bracketValue _ bracketText_spelled (by decide) unrepeated
  refine ⟨depth bracketValue _ bracketText_spelled, ?_⟩
  exact (decodes _ 64 small read).trans (ok_bind (refuseIf_of_not (by decide)) _)

end DocumentSummarizer.Ocr
