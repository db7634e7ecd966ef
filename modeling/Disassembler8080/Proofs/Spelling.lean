/-
# Every spelling of a number

A number can be typed in seven ways: behind `0x`, `0X` or `$`, in front of `h` or `H`, behind a
zero, or plainly.  What a text means is decided by its marks before a digit is looked at, so it has
to be shown that the marks cannot be taken for digits, nor one mark for another: `0b1h` is marked
behind and not in front, and `00` is octal while `0` is not.

No digit is a mark, and neither is the sign.  So the marks of a spelling are found again in its
text, what is left is the sign and the digits, and from there on the reader does nothing but add up
digits.  A text is therefore read exactly if it is the spelling of a number that fits, and of a
text there is no second spelling.

Main statements:

* `digitsFrom?_eq_some_iff` and `value?_eq_some_iff`: what digits and numerals stand for.
* `Spelling.Spells.numeral_ofText_text`: a spelling is taken apart into its parts.
* `parse_eq_ok_iff`: which texts are read, and as what.
* `reads_every_spelling`: spellings are read back, and nothing else is read.
-/
import Disassembler8080.Numeral
import Mathlib.Data.List.Forall2
import Mathlib.Data.Nat.Digits.Defs

namespace Disassembler8080.Numeral

/-! ## 1. Digits -/

/-- Whether a character is the digit of a value, be the letter small or capital. -/
def IsDigit (base : Base) (c : Char) (value : Nat) : Prop :=
  value < base.radix ∧ (c = Nat.digitChar value ∨ c = (Nat.digitChar value).toUpper)

/-- The number that a row of digits stands for, the highest digit first. -/
structure Denotes (base : Base) (digits : List Char) (n : Nat) : Prop where
  ne_nil : digits ≠ []
  exists_values : ∃ values, List.Forall₂ (IsDigit base) digits values ∧
    Nat.ofDigits base.radix values.reverse = n

theorem radix_le (base : Base) : base.radix ≤ 16 := by
  cases base <;> decide

theorem toNat_lt_of_digitValue? {c : Char} {value : Nat} (h : digitValue? c = some value) :
    c.toNat < 128 := by
  have hle : c ≤ '9' ∨ c ≤ 'f' ∨ c ≤ 'F' := by
    unfold digitValue? at h
    split at h
    · exact Or.inl (by assumption : _ ∧ c ≤ '9').2
    · split at h
      · exact Or.inr (Or.inl (by assumption : _ ∧ c ≤ 'f').2)
      · split at h
        · exact Or.inr (Or.inr (by assumption : _ ∧ c ≤ 'F').2)
        · cases h
  rcases hle with hle | hle | hle <;> exact Nat.lt_of_le_of_lt hle (by decide)

set_option maxRecDepth 4000 in
theorem digitValue?_eq_some_iff {c : Char} {value : Nat} :
    digitValue? c = some value ↔ IsDigit .hexadecimal c value := by
  have hread : ∀ digit : Fin 16, digitValue? (Nat.digitChar digit) = some digit.val ∧
      digitValue? (Nat.digitChar digit).toUpper = some digit.val := by decide
  have hascii : ∀ code : Fin 128, ∀ value ∈ digitValue? (Char.ofNat code), value < 16 ∧
      (Char.ofNat code = Nat.digitChar value ∨
        Char.ofNat code = (Nat.digitChar value).toUpper) := by decide
  constructor
  · intro h
    have hcode := hascii ⟨c.toNat, toNat_lt_of_digitValue? h⟩ value
    rw [Char.ofNat_toNat] at hcode
    exact hcode h
  · rintro ⟨hlt, rfl | rfl⟩
    · exact (hread ⟨value, hlt⟩).1
    · exact (hread ⟨value, hlt⟩).2

theorem digit?_eq_some_iff {base : Base} {c : Char} {value : Nat} :
    digit? base c = some value ↔ IsDigit base c value := by
  rw [digit?, Option.filter_eq_some_iff, digitValue?_eq_some_iff, decide_eq_true_eq, IsDigit,
    IsDigit]
  constructor
  · rintro ⟨⟨-, hchar⟩, hlt⟩
    exact ⟨hlt, hchar⟩
  · rintro ⟨hlt, hchar⟩
    exact ⟨⟨Nat.lt_of_lt_of_le hlt (radix_le base), hchar⟩, hlt⟩

/-- What a digit cannot be taken for: the sign, a mark, and white space. -/
theorem IsDigit.ne {base : Base} {c : Char} {value : Nat} (h : IsDigit base c value) :
    c ∉ ['+', '-', '$', 'x', 'X', 'h', 'H'] ∧ Text.isWhiteSpace c = false := by
  have hsmall : ∀ digit : Fin 16,
      Nat.digitChar digit ∉ ['+', '-', '$', 'x', 'X', 'h', 'H'] ∧
        Text.isWhiteSpace (Nat.digitChar digit) = false := by decide
  have hcapital : ∀ digit : Fin 16,
      (Nat.digitChar digit).toUpper ∉ ['+', '-', '$', 'x', 'X', 'h', 'H'] ∧
        Text.isWhiteSpace (Nat.digitChar digit).toUpper = false := by decide
  obtain ⟨hlt, rfl | rfl⟩ := h
  · exact hsmall ⟨value, Nat.lt_of_lt_of_le hlt (radix_le base)⟩
  · exact hcapital ⟨value, Nat.lt_of_lt_of_le hlt (radix_le base)⟩

/-! ## 2. Rows of digits -/

theorem digitsFrom?_cons (base : Base) (n : Nat) (c : Char) (rest : List Char) :
    digitsFrom? base n (c :: rest) =
      (digit? base c).bind fun value => digitsFrom? base (n * base.radix + value) rest := by
  simp only [digitsFrom?, List.foldlM_cons, Option.map_eq_bind]
  cases digit? base c <;> rfl

/-- Digits continue a number: it moves up by their count, and what they stand for is added. -/
theorem digitsFrom?_eq_some_iff {base : Base} {m n : Nat} {digits : List Char} :
    digitsFrom? base m digits = some n ↔
      ∃ values, List.Forall₂ (IsDigit base) digits values ∧
        base.radix ^ digits.length * m + Nat.ofDigits base.radix values.reverse = n := by
  induction digits generalizing m with
  | nil => simp [digitsFrom?, List.forall₂_nil_left_iff]
  | cons c rest ih =>
    have hvalue : ∀ (value : Nat) (values : List Nat), rest.length = values.length →
        base.radix ^ rest.length * (m * base.radix + value)
            + Nat.ofDigits base.radix values.reverse =
          base.radix ^ (c :: rest).length * m
            + Nat.ofDigits base.radix (value :: values).reverse := by
      intro value values hlength
      rw [Nat.ofDigits_reverse_cons, List.length_cons, hlength]
      ring
    rw [digitsFrom?_cons, Option.bind_eq_some_iff]
    constructor
    · rintro ⟨value, hdigit, hrest⟩
      obtain ⟨values, hvalues, rfl⟩ := ih.mp hrest
      exact ⟨value :: values, .cons (digit?_eq_some_iff.mp hdigit) hvalues,
        (hvalue value values hvalues.length_eq).symm⟩
    · rintro ⟨values, hvalues, rfl⟩
      cases hvalues with
      | cons hdigit hrest =>
        exact ⟨_, digit?_eq_some_iff.mpr hdigit,
          ih.mpr ⟨_, hrest, hvalue _ _ hrest.length_eq⟩⟩

/-- A row of digits is read as the number that it stands for. -/
theorem denotes_iff {base : Base} {digits : List Char} {n : Nat} :
    Denotes base digits n ↔ digits ≠ [] ∧ digitsFrom? base 0 digits = some n := by
  simp only [digitsFrom?_eq_some_iff, Nat.mul_zero, Nat.zero_add]
  exact ⟨fun h => ⟨h.ne_nil, h.exists_values⟩, fun h => ⟨h.1, h.2⟩⟩

namespace Denotes

variable {base : Base} {digits : List Char} {m n : Nat}

theorem unique (h : Denotes base digits m) (h' : Denotes base digits n) : m = n :=
  Option.some.inj ((denotes_iff.mp h).2.symm.trans (denotes_iff.mp h').2)

theorem isDigit_of_mem (h : Denotes base digits n) {c : Char} (hc : c ∈ digits) :
    ∃ value, IsDigit base c value := by
  obtain ⟨values, hvalues, -⟩ := h.exists_values
  clear h
  induction hvalues with
  | nil => exact absurd hc List.not_mem_nil
  | cons hdigit _ ih =>
    rcases List.mem_cons.mp hc with rfl | hrest
    · exact ⟨_, hdigit⟩
    · exact ih hrest

theorem ne_of_mem (h : Denotes base digits n) {c : Char} (hc : c ∈ digits) :
    c ∉ ['+', '-', '$', 'x', 'X', 'h', 'H'] ∧ Text.isWhiteSpace c = false := by
  obtain ⟨value, hdigit⟩ := h.isDigit_of_mem hc
  exact hdigit.ne

end Denotes

/-- The sign as it is typed, if it is. -/
def sign (signed : Bool) : List Char := if signed then ['+'] else []

theorem exists_sign (digits : List Char) : ∃ signed, digits = sign signed ++ unsigned digits := by
  fun_cases unsigned digits with
  | case1 rest => exact ⟨true, rfl⟩
  | case2 rest _ => exact ⟨false, rfl⟩

/-- The sign is not taken for a digit, nor the first digit for the sign. -/
theorem Denotes.unsigned_sign_append {base : Base} {digits : List Char} {n : Nat}
    (h : Denotes base digits n) (signed : Bool) : unsigned (sign signed ++ digits) = digits := by
  cases signed with
  | true => rfl
  | false =>
    rw [sign, if_neg Bool.false_ne_true, List.nil_append]
    fun_cases unsigned digits with
    | case1 rest => exact absurd (h.ne_of_mem List.mem_cons_self).1 (by decide)
    | case2 rest _ => rfl

/-- The number of a numeral is that of its digits, in front of which the sign may stand. -/
theorem value?_eq_some_iff {numeral : Numeral} {n : Nat} :
    numeral.value? = some n ↔ ∃ signed digits,
      numeral.digits = sign signed ++ digits ∧ Denotes numeral.base digits n := by
  have hvalue : numeral.value? = some n ↔ Denotes numeral.base (unsigned numeral.digits) n := by
    rw [denotes_iff, value?]
    split
    · rename_i hnil
      simp [hnil]
    · rename_i hne
      exact (and_iff_right hne).symm
  rw [hvalue]
  constructor
  · intro h
    obtain ⟨signed, hdigits⟩ := exists_sign numeral.digits
    exact ⟨signed, _, hdigits, h⟩
  · rintro ⟨signed, digits, hdigits, h⟩
    rwa [hdigits, h.unsigned_sign_append]

/-! ## 3. Marks -/

/-- What marks the base of a number. -/
inductive Mark where
  /-- A zero and an `x` in front. -/
  | x (letter : LetterCase)
  | dollar
  /-- An `h` behind. -/
  | h (letter : LetterCase)
  /-- A zero in front. -/
  | zero
  | nothing
deriving DecidableEq, Repr

namespace Mark

/-- The base that a mark stands for. -/
def base : Mark → Base
  | .zero => .octal
  | .nothing => .decimal
  | _ => .hexadecimal

/-- What a mark puts in front of the sign and the digits. -/
def front : Mark → List Char
  | .x .lower => ['0', 'x']
  | .x .upper => ['0', 'X']
  | .dollar => ['$']
  | .zero => ['0']
  | _ => []

/-- What a mark puts behind the digits. -/
def back : Mark → List Char
  | .h .lower => ['h']
  | .h .upper => ['H']
  | _ => []

/-- The mark of a text that has none but for a zero in front of something. -/
def leading : List Char → Mark
  | '0' :: _ :: _ => .zero
  | _ => .nothing

/-- The mark of a text that has none in front but for a zero. -/
def behind (text : List Char) : Mark :=
  if text.getLast? = some 'h' then .h .lower
  else if text.getLast? = some 'H' then .h .upper
  else leading text

/-- The mark that a text is understood by, whether or not it spells a number. -/
def ofText : List Char → Mark
  | '0' :: 'x' :: _ => .x .lower
  | '0' :: 'X' :: _ => .x .upper
  | '$' :: _ => .dollar
  | text => behind text

/-- A text is its mark and what is read as its digits. -/
theorem eq_front_append (text : List Char) :
    (Numeral.ofText text).base = (ofText text).base ∧
      text = (ofText text).front ++ (Numeral.ofText text).digits ++ (ofText text).back := by
  fun_cases ofText text with
  | case1 rest => simp [Numeral.ofText, base, front, back]
  | case2 rest => simp [Numeral.ofText, base, front, back]
  | case3 rest => simp [Numeral.ofText, base, front, back]
  | case4 text hx hX hdollar =>
    fun_cases behind text with
    | case1 hsmall =>
      simp only [Numeral.ofText, hsmall, true_or, if_true]
      obtain ⟨body, rfl⟩ := List.getLast?_eq_some_iff.mp hsmall
      simp [base, front, back]
    | case2 hsmall hcapital =>
      simp only [Numeral.ofText, hcapital, or_true, if_true]
      obtain ⟨body, rfl⟩ := List.getLast?_eq_some_iff.mp hcapital
      simp [base, front, back]
    | case3 hsmall hcapital =>
      simp only [Numeral.ofText, hsmall, hcapital, or_self, if_false]
      fun_cases leading text with
      | case1 c rest => simp [base, front, back]
      | case2 hzero => simp [base, front, back]

/-- In a text without a mark in front, the mark is found behind. -/
theorem ofText_eq_behind {text : List Char} (h : ∀ c ∈ text, c ∉ ['$', 'x', 'X']) :
    ofText text = behind text := by
  fun_cases ofText text with
  | case1 rest => exact absurd (h 'x' (by simp)) (by decide)
  | case2 rest => exact absurd (h 'X' (by simp)) (by decide)
  | case3 rest => exact absurd (h '$' (by simp)) (by decide)
  | case4 => rfl

/-- In a text without a mark behind either, the mark can only be a zero. -/
theorem behind_eq_leading {text : List Char} (h : ∀ c ∈ text, c ∉ ['h', 'H']) :
    behind text = leading text := by
  fun_cases behind text with
  | case1 hsmall => exact absurd (h 'h' (List.mem_of_getLast? hsmall)) (by decide)
  | case2 _ hcapital => exact absurd (h 'H' (List.mem_of_getLast? hcapital)) (by decide)
  | case3 => rfl

/-- A text without a mark does not begin with a zero that something follows. -/
theorem leading_eq_nothing {text : List Char} (h : ofText text = .nothing) :
    leading text = .nothing := by
  unfold ofText at h
  split at h
  · cases h
  · cases h
  · cases h
  · unfold behind at h
    split at h
    · cases h
    · split at h
      · cases h
      · exact h

end Mark

/-! ## 4. Spellings -/

/-- The parts of a number as it is typed. -/
structure Spelling where
  mark : Mark
  /-- Whether a plus sign stands in front of the digits. -/
  signed : Bool
  digits : List Char
deriving DecidableEq, Repr

namespace Spelling

/-- A spelling as it is typed. -/
def text (spelling : Spelling) : List Char :=
  spelling.mark.front ++ (sign spelling.signed ++ spelling.digits) ++ spelling.mark.back

@[simp] theorem text_zero (signed : Bool) (digits : List Char) :
    text ⟨.zero, signed, digits⟩ = '0' :: (sign signed ++ digits) := by
  simp [text, Mark.front, Mark.back]

@[simp] theorem text_nothing (signed : Bool) (digits : List Char) :
    text ⟨.nothing, signed, digits⟩ = sign signed ++ digits := by
  simp [text, Mark.front, Mark.back]

/-- A spelling of a number: its digits stand for the number.  What begins with a zero is not decimal,
unless a sign stands in front of it or nothing follows. -/
structure Spells (spelling : Spelling) (n : Nat) : Prop where
  denotes : Denotes spelling.mark.base spelling.digits n
  eq_zero_of_head : spelling.mark = .nothing → spelling.signed = false →
    spelling.digits.head? = some '0' → spelling.digits = ['0']

variable {spelling : Spelling} {n : Nat}

theorem Spells.ne_of_mem (h : spelling.Spells n) {c : Char}
    (hc : c ∈ sign spelling.signed ++ spelling.digits) :
    c ∉ ['$', 'x', 'X', 'h', 'H'] ∧ Text.isWhiteSpace c = false := by
  rcases List.mem_append.mp hc with hsign | hdigit
  · obtain ⟨-, rfl⟩ : spelling.signed = true ∧ c = '+' := by simpa [sign] using hsign
    decide
  · obtain ⟨hne, hblank⟩ := h.denotes.ne_of_mem hdigit
    exact ⟨by simp at hne ⊢; tauto, hblank⟩

theorem Spells.ne_nil (h : spelling.Spells n) : sign spelling.signed ++ spelling.digits ≠ [] :=
  List.append_ne_nil_of_right_ne_nil _ h.denotes.ne_nil

/-- **The mark of a spelling is found again in its text.** -/
theorem Spells.mark_ofText_text (h : spelling.Spells n) :
    Mark.ofText spelling.text = spelling.mark := by
  have hne := h.ne_nil
  have hzero := h.eq_zero_of_head
  have hfront : ∀ c ∈ sign spelling.signed ++ spelling.digits, c ∉ ['$', 'x', 'X'] :=
    fun c hc hmem => (h.ne_of_mem hc).1 (List.mem_append_left ['h', 'H'] hmem)
  have hback : ∀ c ∈ sign spelling.signed ++ spelling.digits, c ∉ ['h', 'H'] :=
    fun c hc hmem => (h.ne_of_mem hc).1 (List.mem_append_right ['$', 'x', 'X'] hmem)
  obtain ⟨mark, signed, digits⟩ := spelling
  simp only at hne hzero hfront hback
  cases mark with
  | x letter => cases letter <;> rfl
  | dollar => rfl
  | h letter =>
    have hletter : ∀ letter, Mark.ofText (sign signed ++ digits ++ (Mark.h letter).back) =
        Mark.behind (sign signed ++ digits ++ (Mark.h letter).back) := by
      intro letter
      refine Mark.ofText_eq_behind (List.forall_mem_append.mpr ⟨hfront, ?_⟩)
      cases letter <;> simp [Mark.back]
    change Mark.ofText (sign signed ++ digits ++ _) = _
    rw [hletter]
    cases letter <;> simp [Mark.behind, Mark.back]
  | zero =>
    obtain ⟨c, rest, hbody⟩ := List.exists_cons_of_ne_nil hne
    rw [text_zero, Mark.ofText_eq_behind (List.forall_mem_cons.mpr ⟨by decide, hfront⟩),
      Mark.behind_eq_leading (List.forall_mem_cons.mpr ⟨by decide, hback⟩), hbody]
    rfl
  | nothing =>
    rw [text_nothing, Mark.ofText_eq_behind hfront, Mark.behind_eq_leading hback]
    cases signed with
    | true => rfl
    | false =>
      change Mark.leading digits = _
      fun_cases Mark.leading digits with
      | case1 c rest =>
        -- a zero with something behind it would be the mark of an octal number
        exact absurd (hzero rfl rfl rfl) (by simp)
      | case2 => rfl

/-- **A spelling is taken apart into its parts.** -/
theorem Spells.numeral_ofText_text (h : spelling.Spells n) :
    Numeral.ofText spelling.text = ⟨spelling.mark.base, sign spelling.signed ++ spelling.digits⟩ := by
  obtain ⟨hbase, htext⟩ := Mark.eq_front_append spelling.text
  rw [h.mark_ofText_text] at hbase htext
  have hdigits : sign spelling.signed ++ spelling.digits = (Numeral.ofText spelling.text).digits :=
    List.append_cancel_left (List.append_cancel_right htext)
  rw [hdigits, ← hbase]

/-- A text spells one number at most, and has one spelling at most. -/
theorem Spells.unique {other : Spelling} {m : Nat} (h : spelling.Spells n) (h' : other.Spells m)
    (heq : spelling.text = other.text) : spelling = other ∧ n = m := by
  have hmark : spelling.mark = other.mark := by
    rw [← h.mark_ofText_text, ← h'.mark_ofText_text, heq]
  have hbody : sign spelling.signed ++ spelling.digits = sign other.signed ++ other.digits := by
    have := h.numeral_ofText_text.symm.trans (heq ▸ h'.numeral_ofText_text)
    exact congrArg Numeral.digits this
  have hdigits : spelling.digits = other.digits := by
    rw [← h.denotes.unsigned_sign_append spelling.signed, hbody, h'.denotes.unsigned_sign_append]
  have hsigned : spelling.signed = other.signed := by
    rw [hdigits] at hbody
    have hsign := List.append_cancel_right hbody
    cases hs : spelling.signed <;> cases ho : other.signed <;> simp_all [sign]
  obtain ⟨mark, signed, digits⟩ := spelling
  obtain ⟨mark', signed', digits'⟩ := other
  simp only at hmark hdigits hsigned
  subst hmark hdigits hsigned
  exact ⟨rfl, h.denotes.unique h'.denotes⟩

theorem exists_spells_of_value? {text : List Char} (h : (Numeral.ofText text).value? = some n) :
    ∃ spelling : Spelling, spelling.Spells n ∧ text = spelling.text := by
  obtain ⟨hbase, htext⟩ := Mark.eq_front_append text
  obtain ⟨signed, digits, hdigits, hdenotes⟩ := value?_eq_some_iff.mp h
  rw [hbase] at hdenotes
  rw [hdigits] at htext
  refine ⟨⟨Mark.ofText text, signed, digits⟩, ⟨hdenotes, ?_⟩, htext⟩
  intro hnothing hunsigned hhead
  simp only at hnothing hunsigned hhead
  subst hunsigned
  rw [hnothing] at htext
  change text = [] ++ ([] ++ digits) ++ [] at htext
  obtain ⟨rest, rfl⟩ := List.head?_eq_some_iff.mp hhead
  cases rest with
  | nil => rfl
  | cons c rest =>
    rw [List.append_nil, List.nil_append, List.nil_append] at htext
    exact absurd (Mark.leading_eq_nothing (htext ▸ hnothing)) (by simp [Mark.leading])

/-- The number of a text is that of its spelling. -/
theorem value?_ofText_iff {text : List Char} :
    (Numeral.ofText text).value? = some n ↔
      ∃ spelling : Spelling, spelling.Spells n ∧ text = spelling.text := by
  refine ⟨exists_spells_of_value?, ?_⟩
  rintro ⟨spelling, h, rfl⟩
  rw [h.numeral_ofText_text]
  exact value?_eq_some_iff.mpr ⟨_, _, rfl, h.denotes⟩

theorem Spells.trim_eq (h : spelling.Spells n) {front back : List Char}
    (hfront : ∀ c ∈ front, Text.isWhiteSpace c = true)
    (hback : ∀ c ∈ back, Text.isWhiteSpace c = true) :
    Text.trim (front ++ spelling.text ++ back) = spelling.text := by
  have hmarks : ∀ c ∈ spelling.mark.front ++ spelling.mark.back, Text.isWhiteSpace c = false := by
    have hall : (spelling.mark.front ++ spelling.mark.back).all
        (fun c => Text.isWhiteSpace c = false) = true := by
      cases spelling.mark with
      | x letter => cases letter <;> decide
      | h letter => cases letter <;> decide
      | _ => decide
    exact fun c hc => of_decide_eq_true (List.all_eq_true.mp hall c hc)
  have hnone : ∀ c ∈ spelling.text, Text.isWhiteSpace c = false := by
    intro c hc
    rw [text, List.mem_append, List.mem_append] at hc
    rcases hc with (hc | hc) | hc
    · exact hmarks c (List.mem_append_left _ hc)
    · exact (h.ne_of_mem hc).2
    · exact hmarks c (List.mem_append_right _ hc)
  exact Text.trim_append hfront hback (fun c hc => hnone c (List.mem_of_mem_head? hc))
    fun c hc => hnone c (List.mem_of_getLast? hc)

end Spelling

/-! ## 5. Texts -/

/-- A text that spells a number, with white space around the spelling. -/
structure SpelledIn (text : String) (spelling : Spelling) (n : Nat) : Prop where
  spells : spelling.Spells n
  exists_blanks : ∃ front back, (∀ c ∈ front, Text.isWhiteSpace c = true) ∧
    (∀ c ∈ back, Text.isWhiteSpace c = true) ∧ text.toList = front ++ spelling.text ++ back

theorem SpelledIn.trim_eq {text : String} {spelling : Spelling} {n : Nat}
    (h : SpelledIn text spelling n) : Text.trim text.toList = spelling.text := by
  obtain ⟨front, back, hfront, hback, htext⟩ := h.exists_blanks
  rw [htext, h.spells.trim_eq hfront hback]

theorem SpelledIn.parse_eq {text : String} {spelling : Spelling} {n : Nat}
    (h : SpelledIn text spelling n) :
    parse text = if n < UInt64.size then .ok (UInt64.ofNat n) else .error (.notANumber text) := by
  have hvalue : (ofText (Text.trim text.toList)).value? = some n := by
    rw [h.trim_eq]
    exact Spelling.value?_ofText_iff.mpr ⟨spelling, h.spells, rfl⟩
  simp only [parse, hvalue]

/-- A text is read exactly if it spells a number. -/
theorem parse_eq_ok_iff {text : String} {n : UInt64} :
    parse text = .ok n ↔ ∃ spelling, SpelledIn text spelling n.toNat := by
  constructor
  · intro hread
    obtain ⟨spelling, h, htrim⟩ := Spelling.value?_ofText_iff.mp (value_of_parse hread)
    obtain ⟨front, back, hfront, hback, htext⟩ := Text.exists_blank_around text.toList
    exact ⟨spelling, h, front, back, hfront, hback, htrim ▸ htext⟩
  · rintro ⟨spelling, h⟩
    rw [h.parse_eq, if_pos n.toNat_lt, UInt64.ofNat_toNat]

/-- **Spellings are read back, and nothing else is read.**  A text that spells a number, with white
space around it, is read as that number if it fits 64 bits, and otherwise refused as it was given.
A text that is read has one spelling in it, and is read as the number of that. -/
theorem reads_every_spelling :
    (∀ (text : String) (spelling : Spelling) (n : Nat), SpelledIn text spelling n →
      parse text =
        if n < UInt64.size then .ok (UInt64.ofNat n) else .error (.notANumber text)) ∧
      ∀ (text : String) (n : UInt64), parse text = .ok n →
        ∃ spelling, SpelledIn text spelling n.toNat ∧
          ∀ (other : Spelling) (m : Nat), SpelledIn text other m →
            other = spelling ∧ m = n.toNat := by
  refine ⟨fun text spelling n h => h.parse_eq, fun text n hread => ?_⟩
  obtain ⟨spelling, h⟩ := parse_eq_ok_iff.mp hread
  refine ⟨spelling, h, fun other m hother => ?_⟩
  exact hother.spells.unique h.spells (hother.trim_eq.symm.trans h.trim_eq)

/-- A number that is marked behind, with white space around it, although a `b` follows its leading
zero. -/
theorem reads_every_spelling_marked_behind :
    let spelling : Spelling := ⟨.h .lower, false, ['0', 'b', '1']⟩
    SpelledIn "\u2003 0b1h\n" spelling 0xb1 ∧ parse "\u2003 0b1h\n" = .ok 0xb1 ∧
      ∀ (other : Spelling) (m : Nat), SpelledIn "\u2003 0b1h\n" other m → other = spelling := by
  intro spelling
  have hspells : spelling.Spells 0xb1 :=
    ⟨denotes_iff.mpr ⟨by decide, by decide⟩, fun h => absurd h (by decide)⟩
  have hspelled : SpelledIn "\u2003 0b1h\n" spelling 0xb1 :=
    ⟨hspells, ['\u2003', ' '], ['\n'], List.all_eq_true.mp (by decide),
      List.all_eq_true.mp (by decide), rfl⟩
  have hread : parse "\u2003 0b1h\n" = .ok 0xb1 := reads_every_spelling.1 _ _ _ hspelled
  obtain ⟨found, -, honly⟩ := reads_every_spelling.2 _ _ hread
  obtain ⟨rfl, -⟩ := honly spelling _ hspelled
  exact ⟨hspelled, hread, fun other m hother => (honly other m hother).1⟩

end Disassembler8080.Numeral
