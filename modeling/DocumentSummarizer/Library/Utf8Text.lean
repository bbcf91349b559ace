import Mathlib

/-! # Text by byte offsets

A text of characters, addressed by the byte offsets of its UTF-8 encoding.  A
byteSlice at an offset inside a character, or past the end, does not exist.
-/

namespace DocumentSummarizer.Library

/-- `str::len` -/
def byteLength (text : List Char) : Nat :=
  (text.map Char.utf8Size).sum

def dropBytes : Nat → List Char → Option (List Char)
  | 0, text => some text
  | _ + 1, [] => none
  | n + 1, c :: rest =>
    if c.utf8Size ≤ n + 1 then dropBytes (n + 1 - c.utf8Size) rest else none

def takeBytes : Nat → List Char → Option (List Char)
  | 0, _ => some []
  | _ + 1, [] => none
  | n + 1, c :: rest =>
    if c.utf8Size ≤ n + 1 then (takeBytes (n + 1 - c.utf8Size) rest).map (c :: ·) else none

/-- `&text[start..finish]`, absent where that panics. -/
def byteSlice (text : List Char) (start finish : Nat) : Option (List Char) :=
  if start ≤ finish then (dropBytes start text).bind (takeBytes (finish - start)) else none

/-- An offset between two characters or at an end of the text. -/
def IsBoundary (text : List Char) (offset : Nat) : Prop :=
  ∃ front back, text = front ++ back ∧ byteLength front = offset

section Bytes

@[simp] theorem byteLength_nil : byteLength [] = 0 :=
  rfl

@[simp] theorem byteLength_cons (c : Char) (rest : List Char) :
    byteLength (c :: rest) = c.utf8Size + byteLength rest := by
  simp [byteLength]

@[simp] theorem byteLength_append (front back : List Char) :
    byteLength (front ++ back) = byteLength front + byteLength back := by
  simp [byteLength]

theorem utf8ByteSize_ofList (text : List Char) :
    (String.ofList text).utf8ByteSize = byteLength text := by
  induction text with
  | nil => rfl
  | cons c rest ih =>
      have split : String.ofList (c :: rest) = String.singleton c ++ String.ofList rest := by
        rw [← String.toList_inj]
        simp
      rw [split, String.utf8ByteSize_append, String.utf8ByteSize_singleton, ih, byteLength_cons]

theorem utf8ByteSize_eq (text : String) : text.utf8ByteSize = byteLength text.toList := by
  rw [← utf8ByteSize_ofList, String.ofList_toList]

theorem byteLength_pos {text : List Char} (h : text ≠ []) : 0 < byteLength text := by
  cases text with
  | nil => exact absurd rfl h
  | cons c rest =>
      have := c.utf8Size_pos
      rw [byteLength_cons]
      omega

theorem byteLength_eq_zero {text : List Char} : byteLength text = 0 ↔ text = [] := by
  constructor
  · intro h
    by_contra nonempty
    have := byteLength_pos nonempty
    omega
  · rintro rfl
    rfl

theorem dropBytes_eq_some {n : Nat} {text rest : List Char} :
    dropBytes n text = some rest ↔ ∃ front, text = front ++ rest ∧ byteLength front = n := by
  induction text generalizing n with
  | nil =>
      cases n with
      | zero =>
          simp only [dropBytes, Option.some.injEq]
          constructor
          · rintro rfl
            exact ⟨[], rfl, rfl⟩
          · rintro ⟨front, same, -⟩
            exact (List.append_eq_nil_iff.mp same.symm).2.symm
      | succ n =>
          simp only [dropBytes, reduceCtorEq, false_iff]
          rintro ⟨front, same, long⟩
          rw [(List.append_eq_nil_iff.mp same.symm).1] at long
          cases long
  | cons c text ih =>
      cases n with
      | zero =>
          simp only [dropBytes, Option.some.injEq]
          constructor
          · rintro rfl
            exact ⟨[], rfl, rfl⟩
          · rintro ⟨front, same, long⟩
            rw [(byteLength_eq_zero).mp long] at same
            exact same
      | succ n =>
          have positive := c.utf8Size_pos
          simp only [dropBytes]
          constructor
          · intro h
            split at h
            next fits =>
              obtain ⟨front, rfl, long⟩ := ih.mp h
              refine ⟨c :: front, rfl, ?_⟩
              rw [byteLength_cons]
              omega
            next => cases h
          · rintro ⟨front, same, long⟩
            cases front with
            | nil => cases long
            | cons d front =>
                obtain ⟨rfl, rfl⟩ := List.cons.inj same
                rw [byteLength_cons] at long
                rw [if_pos (by omega)]
                exact ih.mpr ⟨front, rfl, by omega⟩

theorem takeBytes_eq_some {n : Nat} {text part : List Char} :
    takeBytes n text = some part ↔ ∃ back, text = part ++ back ∧ byteLength part = n := by
  induction text generalizing n part with
  | nil =>
      cases n with
      | zero =>
          simp only [takeBytes, Option.some.injEq]
          constructor
          · rintro rfl
            exact ⟨[], rfl, rfl⟩
          · rintro ⟨back, same, -⟩
            exact (List.append_eq_nil_iff.mp same.symm).1.symm
      | succ n =>
          simp only [takeBytes, reduceCtorEq, false_iff]
          rintro ⟨back, same, long⟩
          rw [(List.append_eq_nil_iff.mp same.symm).1] at long
          cases long
  | cons c text ih =>
      cases n with
      | zero =>
          simp only [takeBytes, Option.some.injEq]
          constructor
          · rintro rfl
            exact ⟨c :: text, rfl, rfl⟩
          · rintro ⟨back, -, long⟩
            exact ((byteLength_eq_zero).mp long).symm
      | succ n =>
          have positive := c.utf8Size_pos
          simp only [takeBytes]
          constructor
          · intro h
            split at h
            next fits =>
              obtain ⟨inner, taken, rfl⟩ := Option.map_eq_some_iff.mp h
              obtain ⟨back, rfl, long⟩ := ih.mp taken
              refine ⟨back, rfl, ?_⟩
              rw [byteLength_cons]
              omega
            next => cases h
          · rintro ⟨back, same, long⟩
            cases part with
            | nil => cases long
            | cons d part =>
                obtain ⟨rfl, rfl⟩ := List.cons.inj same
                rw [byteLength_cons] at long
                rw [if_pos (by omega), Option.map_eq_some_iff]
                exact ⟨part, ih.mpr ⟨back, rfl, by omega⟩, rfl⟩

theorem byteSlice_eq_some {text part : List Char} {start finish : Nat} :
    byteSlice text start finish = some part ↔ ∃ front back, text = front ++ (part ++ back) ∧
      byteLength front = start ∧ start + byteLength part = finish := by
  unfold byteSlice
  constructor
  · intro h
    split at h
    next ordered =>
      obtain ⟨rest, dropped, taken⟩ := Option.bind_eq_some_iff.mp h
      obtain ⟨front, rfl, long⟩ := dropBytes_eq_some.mp dropped
      obtain ⟨back, rfl, size⟩ := takeBytes_eq_some.mp taken
      exact ⟨front, back, rfl, long, by omega⟩
    next => cases h
  · rintro ⟨front, back, rfl, rfl, rfl⟩
    rw [if_pos (Nat.le_add_right _ _), Option.bind_eq_some_iff]
    refine ⟨part ++ back, dropBytes_eq_some.mpr ⟨front, rfl, rfl⟩, ?_⟩
    exact takeBytes_eq_some.mpr ⟨back, rfl, by omega⟩

theorem byteSlice_middle (front part back : List Char) :
    byteSlice (front ++ (part ++ back)) (byteLength front) (byteLength front + byteLength part) =
      some part :=
  (byteSlice_eq_some).mpr ⟨front, back, rfl, rfl, rfl⟩

theorem front_of_le {front back front' back' : List Char}
    (same : front ++ back = front' ++ back') (le : byteLength front ≤ byteLength front') :
    ∃ middle, front' = front ++ middle ∧ back = middle ++ back' := by
  rcases List.append_eq_append_iff.mp same with ⟨middle, rfl, rfl⟩ | ⟨middle, rfl, rfl⟩
  · exact ⟨middle, rfl, rfl⟩
  · rw [byteLength_append] at le
    have empty : middle = [] := (byteLength_eq_zero).mp (by omega)
    subst empty
    exact ⟨[], by simp, by simp⟩

theorem byteSlice_of_boundaries {text : List Char} {start finish : Nat}
    (first : IsBoundary text start) (last : IsBoundary text finish) (le : start ≤ finish) :
    ∃ part, byteSlice text start finish = some part := by
  obtain ⟨front, back, rfl, rfl⟩ := first
  obtain ⟨front', back', same, rfl⟩ := last
  obtain ⟨middle, rfl, rfl⟩ := front_of_le same le
  exact ⟨middle, (byteSlice_eq_some).mpr ⟨front, back', rfl, rfl, (byteLength_append _ _).symm⟩⟩

theorem boundaries_of_slice {text part : List Char} {start finish : Nat}
    (h : byteSlice text start finish = some part) :
    IsBoundary text start ∧ IsBoundary text finish ∧ start ≤ finish := by
  obtain ⟨front, back, rfl, rfl, rfl⟩ := (byteSlice_eq_some).mp h
  refine ⟨⟨front, part ++ back, rfl, rfl⟩, ⟨front ++ part, back, ?_, ?_⟩, Nat.le_add_right _ _⟩
  · simp
  · exact byteLength_append _ _

theorem byteSlice_append {text first second : List Char} {start middle finish : Nat}
    (left : byteSlice text start middle = some first)
    (right : byteSlice text middle finish = some second) :
    byteSlice text start finish = some (first ++ second) := by
  obtain ⟨front, rest, rfl, rfl, size⟩ := (byteSlice_eq_some).mp left
  obtain ⟨front', back, same, long, total⟩ := (byteSlice_eq_some).mp right
  rw [← List.append_assoc] at same
  obtain ⟨extra, rfl, rfl⟩ := front_of_le same (by rw [byteLength_append]; omega)
  obtain rfl : extra = [] := by
    rw [byteLength_append, byteLength_append] at long
    exact (byteLength_eq_zero).mp (by omega)
  refine (byteSlice_eq_some).mpr ⟨front, back, by simp, rfl, ?_⟩
  rw [byteLength_append]
  omega

theorem byteSlice_split {text first second : List Char} {start finish : Nat}
    (h : byteSlice text start finish = some (first ++ second)) :
    byteSlice text start (start + byteLength first) = some first ∧
      byteSlice text (start + byteLength first) finish = some second := by
  obtain ⟨front, back, rfl, rfl, rfl⟩ := (byteSlice_eq_some).mp h
  constructor
  · exact (byteSlice_eq_some).mpr ⟨front, second ++ back, by simp, rfl, rfl⟩
  · refine (byteSlice_eq_some).mpr ⟨front ++ first, back, by simp, byteLength_append _ _, ?_⟩
    rw [byteLength_append, Nat.add_assoc]

theorem isBoundary_zero (text : List Char) : IsBoundary text 0 :=
  ⟨[], text, rfl, rfl⟩

theorem isBoundary_length (text : List Char) : IsBoundary text (byteLength text) :=
  ⟨text, [], by simp, rfl⟩

theorem byteSlice_whole (text : List Char) : byteSlice text 0 (byteLength text) = some text :=
  (byteSlice_eq_some).mpr ⟨[], [], by simp, rfl, by simp⟩

end Bytes

/-! ## Lines -/

section Splitting

variable {α : Type*}

/-- `split_inclusive`: every piece but perhaps the last ends in the separator. -/
def splitInclusive [DecidableEq α] (separator : α) : List α → List (List α)
  | [] => []
  | a :: rest =>
    if a = separator then
      [a] :: splitInclusive separator rest
    else
      match splitInclusive separator rest with
      | [] => [[a]]
      | line :: later => (a :: line) :: later

/-- `split`: one piece more than there are separators. -/
def splitWhere (separates : α → Bool) : List α → List (List α)
  | [] => [[]]
  | a :: rest =>
    if separates a then
      [] :: splitWhere separates rest
    else
      match splitWhere separates rest with
      | [] => [[a]]
      | piece :: later => (a :: piece) :: later

theorem flatten_splitInclusive [DecidableEq α] (separator : α) (text : List α) :
    (splitInclusive separator text).flatten = text := by
  induction text with
  | nil => rfl
  | cons a rest ih =>
      unfold splitInclusive
      split
      · simp [ih]
      · cases found : splitInclusive separator rest with
        | nil =>
            rw [found] at ih
            simp [← ih]
        | cons line later =>
            rw [found] at ih
            simp [← ih]

theorem splitInclusive_ne_nil [DecidableEq α] (separator : α) (text : List α) :
    ∀ line ∈ splitInclusive separator text, line ≠ [] := by
  induction text with
  | nil => exact fun _ mem => absurd mem List.not_mem_nil
  | cons a rest ih =>
      intro line mem
      unfold splitInclusive at mem
      split at mem
      · rcases List.mem_cons.mp mem with rfl | later
        · nofun
        · exact ih line later
      · split at mem
        next =>
          rw [List.mem_singleton.mp mem]
          nofun
        next first later found =>
          rcases List.mem_cons.mp mem with rfl | inside
          · nofun
          · exact ih line (found ▸ List.mem_cons_of_mem _ inside)

theorem splitInclusive_ends [DecidableEq α] {separator : α} {text : List α}
    {front rest : List (List α)} {line next : List α}
    (h : splitInclusive separator text = front ++ line :: next :: rest) :
    ∃ body, line = body ++ [separator] := by
  induction text generalizing front line with
  | nil =>
      have := congrArg List.length h
      simp [splitInclusive] at this
  | cons a text ih =>
      unfold splitInclusive at h
      split at h
      next ends =>
        subst ends
        cases front with
        | nil =>
            obtain ⟨rfl, -⟩ := List.cons.inj h
            exact ⟨[], rfl⟩
        | cons first front =>
            obtain ⟨-, later⟩ := List.cons.inj h
            exact ih later
      next =>
        split at h
        next =>
          have := congrArg List.length h
          simp at this
          omega
        next first later found =>
          cases front with
          | nil =>
              obtain ⟨rfl, rfl⟩ := List.cons.inj h
              obtain ⟨body, rfl⟩ := @ih [] _ found
              exact ⟨a :: body, rfl⟩
          | cons head front =>
              obtain ⟨-, rfl⟩ := List.cons.inj h
              exact @ih (first :: front) _ found

theorem splitWhere_ne_nil (separates : α → Bool) (text : List α) :
    splitWhere separates text ≠ [] := by
  cases text with
  | nil => nofun
  | cons a rest =>
      unfold splitWhere
      split
      · nofun
      · split <;> nofun

theorem splitWhere_append {separates : α → Bool} {separator : α}
    (separated : separates separator = true) (front back : List α) :
    splitWhere separates (front ++ separator :: back) =
      splitWhere separates front ++ splitWhere separates back := by
  induction front with
  | nil => simp [splitWhere, separated]
  | cons a rest ih =>
      rw [List.cons_append, splitWhere, splitWhere, ih]
      split
      · rfl
      · cases found : splitWhere separates rest with
        | nil => exact absurd found (splitWhere_ne_nil _ _)
        | cons piece later => rfl

theorem splitWhere_subset {separates : α → Bool} {text piece : List α}
    (mem : piece ∈ splitWhere separates text) : ∀ a ∈ piece, a ∈ text := by
  induction text generalizing piece with
  | nil =>
      rw [List.mem_singleton.mp mem]
      exact fun _ mem => mem
  | cons a rest ih =>
      intro b inside
      unfold splitWhere at mem
      split at mem
      · rcases List.mem_cons.mp mem with rfl | later
        · exact absurd inside List.not_mem_nil
        · exact List.mem_cons_of_mem _ (ih later b inside)
      · split at mem
        next found => exact absurd found (splitWhere_ne_nil _ _)
        next first later found =>
          rcases List.mem_cons.mp mem with rfl | further
          · rcases List.mem_cons.mp inside with rfl | old
            · exact List.mem_cons_self
            · exact List.mem_cons_of_mem _ (ih (found ▸ List.mem_cons_self) b old)
          · exact List.mem_cons_of_mem _
              (ih (found ▸ List.mem_cons_of_mem _ further) b inside)

end Splitting

/-! ## Located pieces -/

/-- A piece of a text and the byte offsets where it starts and ends. -/
structure Located where
  start : Nat
  finish : Nat
  text : List Char
  deriving DecidableEq, Repr

/-- The pieces laid one after the other from an offset on. -/
def located : Nat → List (List Char) → List Located
  | _, [] => []
  | offset, piece :: later =>
    ⟨offset, offset + byteLength piece, piece⟩ :: located (offset + byteLength piece) later

section Locating

variable {offset : Nat} {pieces : List (List Char)}

theorem located_texts : (located offset pieces).map (·.text) = pieces := by
  induction pieces generalizing offset with
  | nil => rfl
  | cons piece later ih => simp [located, ih]

theorem located_slice {front back : List Char} {piece : Located}
    (mem : piece ∈ located (byteLength front) pieces) :
    byteSlice (front ++ (pieces.flatten ++ back)) piece.start piece.finish = some piece.text := by
  induction pieces generalizing front with
  | nil => exact absurd mem List.not_mem_nil
  | cons first later ih =>
      rcases List.mem_cons.mp mem with rfl | later_mem
      · rw [List.flatten_cons, List.append_assoc]
        exact byteSlice_middle front first _
      · rw [← byteLength_append] at later_mem
        have inside := ih later_mem
        rwa [List.append_assoc, ← List.append_assoc first, ← List.flatten_cons] at inside

theorem located_append {front rest : List Located} (h : located offset pieces = front ++ rest) :
    rest = located (offset + byteLength (front.flatMap (·.text))) (rest.map (·.text)) := by
  induction front generalizing offset pieces with
  | nil =>
      rw [List.nil_append] at h
      rw [← h, located_texts]
      rfl
  | cons first front ih =>
      cases pieces with
      | nil => cases h
      | cons piece later =>
          obtain ⟨rfl, tail⟩ := List.cons.inj h
          have inside := ih tail
          rw [List.flatMap_cons, byteLength_append, ← Nat.add_assoc]
          exact inside

theorem located_last {run : List Located} {first last : Located}
    (h : located offset pieces = first :: run) (final : (first :: run).getLast? = some last) :
    first.start = offset ∧ last.finish = offset + byteLength ((first :: run).flatMap (·.text)) := by
  induction run generalizing offset pieces first with
  | nil =>
      cases pieces with
      | nil => cases h
      | cons piece later =>
          obtain ⟨rfl, -⟩ := List.cons.inj h
          obtain rfl := Option.some.inj final
          simp
  | cons second run ih =>
      cases pieces with
      | nil => cases h
      | cons piece later =>
          obtain ⟨rfl, tail⟩ := List.cons.inj h
          rw [List.getLast?_cons_cons] at final
          obtain ⟨-, size⟩ := ih tail final
          refine ⟨rfl, ?_⟩
          rw [size, Nat.add_assoc, ← byteLength_append]
          rfl

theorem located_bounds {piece : Located} (mem : piece ∈ located offset pieces) :
    offset ≤ piece.start ∧ piece.finish ≤ offset + byteLength pieces.flatten ∧
      piece.finish = piece.start + byteLength piece.text := by
  induction pieces generalizing offset with
  | nil => exact absurd mem List.not_mem_nil
  | cons first later ih =>
      rw [List.flatten_cons, byteLength_append]
      rcases List.mem_cons.mp mem with rfl | later_mem
      · exact ⟨le_rfl, by simp, rfl⟩
      · obtain ⟨lower, upper, size⟩ := ih later_mem
        exact ⟨by omega, by omega, size⟩

theorem located_pairwise :
    (located offset pieces).Pairwise fun a b => a.finish ≤ b.start := by
  induction pieces generalizing offset with
  | nil => exact .nil
  | cons first later ih => exact .cons (fun b mem => (located_bounds mem).1) ih

theorem located_covers {byte offset : Nat} (lower : offset ≤ byte)
    (upper : byte < offset + byteLength pieces.flatten) :
    ∃ piece ∈ located offset pieces, piece.start ≤ byte ∧ byte < piece.finish := by
  induction pieces generalizing offset with
  | nil =>
      simp only [List.flatten_nil, byteLength_nil] at upper
      omega
  | cons first later ih =>
      rw [List.flatten_cons, byteLength_append] at upper
      by_cases here : byte < offset + byteLength first
      · exact ⟨_, List.mem_cons_self, lower, here⟩
      · obtain ⟨piece, mem, inside⟩ := @ih (offset + byteLength first) (by omega) (by omega)
        exact ⟨piece, List.mem_cons_of_mem _ mem, inside⟩

end Locating

/-- `text.split_inclusive('\n')` with the byte offsets of its lines. -/
def locatedLines (text : List Char) : List Located :=
  located 0 (splitInclusive '\n' text)

section Lines

variable {text : List Char} {line : Located}

theorem locatedLines_slice (mem : line ∈ locatedLines text) :
    byteSlice text line.start line.finish = some line.text := by
  have h := @located_slice (splitInclusive '\n' text) [] [] line mem
  simpa [flatten_splitInclusive] using h

theorem locatedLines_run {front run back : List Located} {first last : Located}
    (h : locatedLines text = front ++ (first :: run ++ back))
    (final : (first :: run).getLast? = some last) :
    byteSlice text first.start last.finish = some ((first :: run).flatMap (·.text)) := by
  have whole : text = (locatedLines text).flatMap (·.text) := by
    have texts := congrArg List.flatten (@located_texts 0 (splitInclusive '\n' text))
    rw [flatten_splitInclusive] at texts
    exact texts.symm.trans List.flatMap_def.symm
  have rest := located_append h
  rw [Nat.zero_add] at rest
  have shape : located (byteLength (front.flatMap (·.text))) ((first :: run).map (·.text)) =
      first :: run := by
    have prefixed := congrArg (List.take (first :: run).length) rest
    rw [List.take_left, List.map_append] at prefixed
    have taken : ∀ {offset : Nat} {front back : List (List Char)},
        (located offset (front ++ back)).take front.length = located offset front := by
      intro offset front back
      induction front generalizing offset with
      | nil => rfl
      | cons piece front ih => simp [located, ih]
    have long : (first :: run).length = ((first :: run).map (·.text)).length := by simp
    rw [long, taken] at prefixed
    exact prefixed.symm
  obtain ⟨start, finish⟩ := located_last shape final
  rw [start, finish]
  have split : text = front.flatMap (·.text) ++
      ((first :: run).flatMap (·.text) ++ back.flatMap (·.text)) := by
    rw [← List.flatMap_append, ← List.flatMap_append, ← h]
    exact whole
  exact (byteSlice_eq_some).mpr ⟨_, _, split, rfl, rfl⟩

theorem locatedLines_nonempty (mem : line ∈ locatedLines text) : line.start < line.finish := by
  obtain ⟨-, -, size⟩ := located_bounds mem
  have inside : line.text ∈ splitInclusive '\n' text := by
    have := List.mem_map_of_mem (f := Located.text) mem
    rwa [locatedLines, located_texts] at this
  have := byteLength_pos (splitInclusive_ne_nil _ _ _ inside)
  omega

theorem locatedLines_pairwise : (locatedLines text).Pairwise fun a b => a.finish ≤ b.start :=
  located_pairwise

theorem locatedLines_le (mem : line ∈ locatedLines text) : line.finish ≤ byteLength text := by
  have := (located_bounds mem).2.1
  rwa [flatten_splitInclusive, Nat.zero_add] at this

theorem locatedLines_covers {byte : Nat} (inside : byte < byteLength text) :
    ∃ line ∈ locatedLines text, line.start ≤ byte ∧ byte < line.finish := by
  apply located_covers (Nat.zero_le byte)
  rwa [flatten_splitInclusive, Nat.zero_add]

theorem lines_apart {a b : Located} (first : a ∈ locatedLines text)
    (second : b ∈ locatedLines text) :
    a = b ∨ a.finish ≤ b.start ∨ b.finish ≤ a.start := by
  have ordered := @locatedLines_pairwise text
  apply List.Pairwise.forall_of_forall_of_flip (R := fun a b : Located =>
    a = b ∨ a.finish ≤ b.start ∨ b.finish ≤ a.start) ?_ ?_ ?_ first second
  · exact fun _ _ => .inl rfl
  · exact ordered.imp fun h => .inr (.inl h)
  · exact ordered.imp fun h => .inr (.inr h)

end Lines

/-! ## Line breaks -/

/-- An offset where a line may start: the start of the text, or after a separator. -/
def IsLineBreak (text : List Char) (offset : Nat) : Prop :=
  ∃ front back, text = front ++ back ∧ byteLength front = offset ∧
    (front = [] ∨ ∃ body, front = body ++ ['\n'])

section LineBreaks

variable {text : List Char} {line : Located}

theorem splitInclusive_append {α : Type*} [DecidableEq α] {separator : α} {front : List α}
    (back : List α) (ended : front = [] ∨ ∃ body, front = body ++ [separator]) :
    splitInclusive separator (front ++ back) =
      splitInclusive separator front ++ splitInclusive separator back := by
  induction front with
  | nil => rfl
  | cons a rest ih =>
      have later : rest = [] ∨ ∃ body, rest = body ++ [separator] := by
        obtain ⟨body, same⟩ := ended.resolve_left nofun
        cases body with
        | nil => exact .inl (List.cons.inj same).2
        | cons b body => exact .inr ⟨body, (List.cons.inj same).2⟩
      rw [List.cons_append, splitInclusive, splitInclusive, ih later]
      split
      · rfl
      next different =>
        cases found : splitInclusive separator rest with
        | cons first further => rfl
        | nil =>
            have empty : rest = [] := by
              rw [← flatten_splitInclusive separator rest, found]
              rfl
            subst empty
            obtain ⟨body, same⟩ := ended.resolve_left nofun
            cases body with
            | nil => exact absurd (List.cons.inj same).1 different
            | cons b body => exact absurd (List.cons.inj same).2.symm (by simp)

theorem located_concat (offset : Nat) (front back : List (List Char)) :
    located offset (front ++ back) =
      located offset front ++ located (offset + byteLength front.flatten) back := by
  induction front generalizing offset with
  | nil => simp [located]
  | cons piece front ih => simp [located, ih, Nat.add_assoc]

theorem lineBreak_of_start (mem : line ∈ locatedLines text) : IsLineBreak text line.start := by
  obtain ⟨before, after, whole⟩ := List.append_of_mem mem
  have texts : splitInclusive '\n' text =
      before.map (·.text) ++ line.text :: after.map (·.text) := by
    have := congrArg (List.map (·.text)) whole
    rwa [locatedLines, located_texts, List.map_append, List.map_cons] at this
  have start : byteLength (before.flatMap (·.text)) = line.start := by
    have rest := located_append whole
    rw [Nat.zero_add, List.map_cons, located] at rest
    exact (congrArg Located.start (List.cons.inj rest).1).symm
  refine ⟨before.flatMap (·.text), (line :: after).flatMap (·.text), ?_, start, ?_⟩
  · rw [← flatten_splitInclusive '\n' text, texts]
    simp [List.flatMap_def]
  · rcases List.eq_nil_or_concat before with rfl | ⟨front, last, rfl⟩
    · exact .inl rfl
    · right
      rw [List.concat_eq_append, List.map_append, List.append_assoc] at texts
      obtain ⟨body, ends⟩ := splitInclusive_ends texts
      refine ⟨front.flatMap (·.text) ++ body, ?_⟩
      simp [ends]

theorem lineBreak_of_finish (mem : line ∈ locatedLines text)
    (inside : line.finish < byteLength text) : IsLineBreak text line.finish := by
  obtain ⟨next, next_mem, start, finish⟩ := locatedLines_covers inside
  rcases lines_apart mem next_mem with rfl | before | after
  · omega
  · have same : next.start = line.finish := by omega
    exact same ▸ lineBreak_of_start next_mem
  · have := locatedLines_nonempty mem
    omega

theorem lineBreak_zero (text : List Char) : IsLineBreak text 0 :=
  ⟨[], text, rfl, rfl, .inl rfl⟩

theorem lineBreak_outside {offset : Nat} (h : IsLineBreak text offset)
    (mem : line ∈ locatedLines text) (before : offset < line.finish) : offset ≤ line.start := by
  obtain ⟨front, back, rfl, rfl, ended⟩ := h
  rw [locatedLines, splitInclusive_append _ ended, located_concat, flatten_splitInclusive,
    Nat.zero_add] at mem
  rcases List.mem_append.mp mem with first | later
  · have := locatedLines_le first
    omega
  · exact (located_bounds later).1

/-- Between two line breaks a text has the lines of the slice between them. -/
theorem locatedLines_between {part : List Char} {start finish : Nat}
    (first : IsLineBreak text start)
    (last : finish = byteLength text ∨ IsLineBreak text finish) (less : start < finish)
    (sliced : byteSlice text start finish = some part) :
    located start (splitInclusive '\n' part) =
      (locatedLines text).filter fun line => start ≤ line.start ∧ line.finish ≤ finish := by
  obtain ⟨front, back, rfl, rfl, rfl⟩ := (byteSlice_eq_some).mp sliced
  have front_ended : front = [] ∨ ∃ body, front = body ++ ['\n'] := by
    obtain ⟨front', back', same, long, ended⟩ := first
    obtain ⟨middle, rfl, -⟩ := front_of_le same long.symm.le
    obtain rfl : middle = [] := by
      rw [byteLength_append] at long
      exact (byteLength_eq_zero).mp (by omega)
    simpa using ended
  have part_ended : back = [] ∨ ∃ body, part = body ++ ['\n'] := by
    rcases last with whole | ⟨front', back', same, long, ended⟩
    · left
      rw [byteLength_append, byteLength_append] at whole
      exact (byteLength_eq_zero).mp (by omega)
    · right
      rw [← List.append_assoc] at same
      obtain ⟨middle, rfl, -⟩ := front_of_le same (by rw [byteLength_append, long])
      obtain rfl : middle = [] := by
        rw [byteLength_append, byteLength_append] at long
        exact (byteLength_eq_zero).mp (by omega)
      rw [List.append_nil] at ended
      have visible : part ≠ [] := by
        rintro rfl
        simp at less
      obtain ⟨body, ends⟩ := ended.resolve_left (by simp [visible])
      have tail := congrArg List.getLast? ends
      rw [List.getLast?_append_of_ne_nil _ visible, List.getLast?_concat] at tail
      exact ⟨part.dropLast, (List.dropLast_append_getLast? _ tail).symm⟩
  have lines : splitInclusive '\n' (front ++ (part ++ back)) =
      splitInclusive '\n' front ++ (splitInclusive '\n' part ++ splitInclusive '\n' back) := by
    rw [splitInclusive_append _ front_ended]
    rcases part_ended with rfl | ended
    · simp [splitInclusive]
    · rw [splitInclusive_append _ (.inr ended)]
  rw [locatedLines, lines, located_concat, located_concat, List.filter_append,
    List.filter_append, flatten_splitInclusive, flatten_splitInclusive, Nat.zero_add]
  have none_front : (located 0 (splitInclusive '\n' front)).filter
      (fun line => byteLength front ≤ line.start ∧
        line.finish ≤ byteLength front + byteLength part) = [] := by
    rw [List.filter_eq_nil_iff]
    intro line mem
    have := locatedLines_nonempty mem
    have := locatedLines_le mem
    simp only [decide_eq_true_eq]
    omega
  have all_part : (located (byteLength front) (splitInclusive '\n' part)).filter
      (fun line => byteLength front ≤ line.start ∧
        line.finish ≤ byteLength front + byteLength part) =
      located (byteLength front) (splitInclusive '\n' part) := by
    rw [List.filter_eq_self]
    intro line mem
    have bounds := located_bounds mem
    rw [flatten_splitInclusive] at bounds
    simp only [decide_eq_true_eq]
    omega
  have none_back : (located (byteLength front + byteLength part)
      (splitInclusive '\n' back)).filter
      (fun line => byteLength front ≤ line.start ∧
        line.finish ≤ byteLength front + byteLength part) = [] := by
    rw [List.filter_eq_nil_iff]
    intro line mem
    obtain ⟨lower, -, size⟩ := located_bounds mem
    have inside : line.text ∈ splitInclusive '\n' back := by
      have := List.mem_map_of_mem (f := Located.text) mem
      rwa [located_texts] at this
    have := byteLength_pos (splitInclusive_ne_nil _ _ _ inside)
    simp only [decide_eq_true_eq]
    omega
  rw [none_front, all_part, none_back, List.nil_append, List.append_nil]

end LineBreaks

end DocumentSummarizer.Library
