import Mathlib

/-! # The lexical grammar of JSON

White space, numbers and the bodies of strings, over the bytes of a text.
-/

namespace DocumentSummarizer.Library.JsonLexis

/-- Space, tab, line feed and carriage return. -/
def IsBlank (text : List UInt8) : Prop :=
  ∀ byte ∈ text, byte ∈ [0x20, 0x09, 0x0a, 0x0d]

def IsDigit (byte : UInt8) : Prop :=
  0x30 ≤ byte ∧ byte ≤ 0x39

def IsHexDigit (byte : UInt8) : Prop :=
  IsDigit byte ∨ 0x41 ≤ byte ∧ byte ≤ 0x46 ∨ 0x61 ≤ byte ∧ byte ≤ 0x66

def IsDigits (text : List UInt8) : Prop :=
  text ≠ [] ∧ ∀ byte ∈ text, IsDigit byte

/-- No leading zero but in zero itself. -/
def IsInteger (text : List UInt8) : Prop :=
  text = [0x30] ∨ IsDigits text ∧ text.head? ≠ some 0x30

def IsFraction (text : List UInt8) : Prop :=
  text = [] ∨ ∃ digits, text = 0x2e :: digits ∧ IsDigits digits

def IsExponent (text : List UInt8) : Prop :=
  text = [] ∨ ∃ mark sign digits, text = mark :: (sign ++ digits) ∧ mark ∈ [0x65, 0x45] ∧
    sign ∈ [[], [0x2b], [0x2d]] ∧ IsDigits digits

def IsNumber (text : List UInt8) : Prop :=
  ∃ sign integer fraction exponent, text = sign ++ (integer ++ (fraction ++ exponent)) ∧
    sign ∈ [[], [0x2d]] ∧ IsInteger integer ∧ IsFraction fraction ∧ IsExponent exponent

/-- What stands between the quotes of a string. -/
inductive IsStringBody : List UInt8 → Prop where
  | nil : IsStringBody []
  | plain {byte rest} (printable : 0x20 ≤ byte) (unquoted : byte ≠ 0x22) (unescaped : byte ≠ 0x5c)
      (later : IsStringBody rest) : IsStringBody (byte :: rest)
  | escape {byte rest}
      (simple : byte ∈ [0x22, 0x5c, 0x2f, 0x62, 0x66, 0x6e, 0x72, 0x74])
      (later : IsStringBody rest) : IsStringBody (0x5c :: byte :: rest)
  | unicode {digits rest} (four : digits.length = 4) (hex : ∀ byte ∈ digits, IsHexDigit byte)
      (later : IsStringBody rest) : IsStringBody (0x5c :: 0x75 :: (digits ++ rest))

/-- Neither a quote nor a bracket. -/
def IsQuiet (byte : UInt8) : Prop :=
  byte ∉ [0x22, 0x5b, 0x5d, 0x7b, 0x7d]

section Quiet

variable {text : List UInt8} {byte : UInt8}

theorem quiet_of_all
    (h : text.all (fun byte => !([0x22, 0x5b, 0x5d, 0x7b, 0x7d] : List UInt8).contains byte) =
      true) : ∀ byte ∈ text, IsQuiet byte := by
  intro byte mem
  have apart := List.all_eq_true.mp h byte mem
  simpa [IsQuiet] using apart

theorem IsDigit.quiet (h : IsDigit byte) : IsQuiet byte := by
  intro mem
  simp only [List.mem_cons, List.not_mem_nil, or_false] at mem
  rcases mem with rfl | rfl | rfl | rfl | rfl <;> exact absurd h (by unfold IsDigit; decide)

theorem IsBlank.quiet (h : IsBlank text) : ∀ byte ∈ text, IsQuiet byte := by
  intro byte mem
  exact @quiet_of_all [0x20, 0x09, 0x0a, 0x0d] (by decide) byte (h byte mem)

theorem IsDigits.quiet (h : IsDigits text) : ∀ byte ∈ text, IsQuiet byte := fun byte mem =>
  (h.2 byte mem).quiet

theorem IsInteger.quiet (h : IsInteger text) : ∀ byte ∈ text, IsQuiet byte := by
  rcases h with rfl | ⟨digits, -⟩
  · exact quiet_of_all (by decide)
  · exact digits.quiet

theorem IsFraction.quiet (h : IsFraction text) : ∀ byte ∈ text, IsQuiet byte := by
  rcases h with rfl | ⟨digits, rfl, isDigits⟩
  · nofun
  · rw [List.forall_mem_cons]
    exact ⟨@quiet_of_all [0x2e] (by decide) _ List.mem_cons_self, isDigits.quiet⟩

theorem sign_quiet {sign : List UInt8} (h : sign ∈ ([[], [0x2b], [0x2d]] : List (List UInt8))) :
    ∀ byte ∈ sign, IsQuiet byte := by
  simp only [List.mem_cons, List.not_mem_nil, or_false] at h
  rcases h with rfl | rfl | rfl <;> exact quiet_of_all (by decide)

theorem IsExponent.quiet (h : IsExponent text) : ∀ byte ∈ text, IsQuiet byte := by
  rcases h with rfl | ⟨mark, sign, digits, rfl, isMark, isSign, isDigits⟩
  · nofun
  · rw [List.forall_mem_cons, List.forall_mem_append]
    exact ⟨@quiet_of_all [0x65, 0x45] (by decide) _ isMark, sign_quiet isSign,
      isDigits.quiet⟩

theorem IsNumber.quiet (h : IsNumber text) : ∀ byte ∈ text, IsQuiet byte := by
  obtain ⟨sign, integer, fraction, exponent, rfl, isSign, isInteger, isFraction, isExponent⟩ := h
  have signed : sign ∈ ([[], [0x2b], [0x2d]] : List (List UInt8)) := by
    simp only [List.mem_cons, List.not_mem_nil, or_false] at isSign ⊢
    exact isSign.imp_right .inr
  simp only [List.forall_mem_append]
  exact ⟨sign_quiet signed, isInteger.quiet, isFraction.quiet, isExponent.quiet⟩

theorem IsHexDigit.plain (h : IsHexDigit byte) : byte ≠ 0x22 ∧ byte ≠ 0x5c := by
  constructor
  · rintro rfl
    exact absurd h (by unfold IsHexDigit IsDigit; decide)
  · rintro rfl
    exact absurd h (by unfold IsHexDigit IsDigit; decide)

end Quiet

end DocumentSummarizer.Library.JsonLexis
