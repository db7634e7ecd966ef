/-
# Where the sign of a number stands

But for the marks `$` and `h`, numbers are meant to be read as `strtoul` with base 0 reads them.
There a plus sign stands in front of everything else: a sign, `0x` or a leading zero or neither,
digits.  The reader looks for the mark first and lets the sign stand behind it, in front of the
digits.  Where there is no mark these are the same place, and without a sign there is no difference
at all.

So the two part where a sign meets a mark.  A sign in front of a mark hides it, and the number is
taken for a decimal one: `+0x10` is refused and `+010` is ten.  A sign behind a mark is accepted:
`0+7` and `0x+7` are read.  That is all, and it is stated exactly, since a leading zero may also be
harmless: `+07` is seven in both bases.

Main statements:

* `exists_decimal_of_octal` and `octal_of_decimal_lt`: digits that are the same number in both bases.
* `readAsInC_iff`: the texts that are read in the same way.
* `sign_hides_octal_mark`: a text that is not.
-/
import Disassembler8080.Proofs.Spelling

namespace Disassembler8080.Numeral

/-! ## 1. Numbers in C -/

/-- A number without a sign that `strtoul` with base 0 takes from the first to the last character. -/
inductive CNumber : List Char → Nat → Prop
  | hexadecimal {x : Char} {digits : List Char} {n : Nat} (hx : x = 'x' ∨ x = 'X')
    (h : Denotes .hexadecimal digits n) : CNumber ('0' :: x :: digits) n
  /-- A leading zero is a digit itself, so it need not be followed by others. -/
  | octal {digits : List Char} {n : Nat} (h : Denotes .octal ('0' :: digits) n) :
    CNumber ('0' :: digits) n
  | decimal {digits : List Char} {n : Nat} (hhead : digits.head? ≠ some '0')
    (h : Denotes .decimal digits n) : CNumber digits n

/-- The same with a plus sign, which may stand in front. -/
def TakenByC (text : List Char) (n : Nat) : Prop :=
  ∃ signed number, text = sign signed ++ number ∧ CNumber number n

/-- Texts of which `strtoul` and the reader are to make the same: without the marks and the sign that
one of them does not know, and without white space around them. -/
structure TypedAsInC (text : List Char) : Prop where
  minus_not_mem : '-' ∉ text
  dollar_not_mem : '$' ∉ text
  last_ne : text.getLast? ≠ some 'h' ∧ text.getLast? ≠ some 'H'
  head_not_blank : ∀ c ∈ text.head?, Text.isWhiteSpace c = false
  last_not_blank : ∀ c ∈ text.getLast?, Text.isWhiteSpace c = false

/-- A text that is read as `strtoul` reads it: as the same number if that fits 64 bits, and else it
is refused. -/
structure ReadAsInC (text : String) : Prop where
  ok_iff : ∀ value : UInt64, parse text = .ok value ↔ TakenByC text.toList value.toNat
  error_of_not : (¬∃ n < UInt64.size, TakenByC text.toList n) →
    parse text = .error (.notANumber text)

/-- Texts in which a sign meets a mark and makes a difference. -/
inductive SignMisplaced : List Char → Prop
  /-- A sign in front of `0x`, which is then no mark: a number in C, and no number here. -/
  | beforeX {x : Char} {digits : List Char} {n : Nat} (hx : x = 'x' ∨ x = 'X')
    (h : Denotes .hexadecimal digits n) (hn : n < UInt64.size) :
    SignMisplaced ('+' :: '0' :: x :: digits)
  /-- A sign in front of a leading zero, which is then no mark: a decimal number here.  One that is
  below 8 is the same in C. -/
  | beforeZero {digits : List Char} {n : Nat} (h : Denotes .decimal ('0' :: digits) n)
    (hn : 8 ≤ n)
    (hfits : n < UInt64.size ∨ ∃ m < UInt64.size, Denotes .octal ('0' :: digits) m) :
    SignMisplaced ('+' :: '0' :: digits)
  /-- A sign behind `0x`: a number here, and no number in C. -/
  | behindX {x : Char} {digits : List Char} {n : Nat} (hx : x = 'x' ∨ x = 'X')
    (h : Denotes .hexadecimal digits n) (hn : n < UInt64.size) :
    SignMisplaced ('0' :: x :: '+' :: digits)
  /-- A sign behind the zero that marks octal: a number here, and no number in C. -/
  | behindZero {digits : List Char} {n : Nat} (h : Denotes .octal digits n)
    (hn : n < UInt64.size) : SignMisplaced ('0' :: '+' :: digits)

/-! ## 2. Digits in two bases -/

theorem IsDigit.decimal_of_octal {c : Char} {value : Nat} (h : IsDigit .octal c value) :
    IsDigit .decimal c value :=
  ⟨Nat.lt_trans h.1 (by decide), h.2⟩

theorem digitsFrom?_zero_cons (base : Base) (digits : List Char) :
    digitsFrom? base 0 ('0' :: digits) = digitsFrom? base 0 digits := by
  have hzero : digit? base '0' = some 0 := by cases base <;> decide
  rw [digitsFrom?_cons, hzero, Option.bind_some, Nat.zero_mul]

theorem denotes_zero_cons_iff {base : Base} {digits : List Char} {n : Nat} (h : digits ≠ []) :
    Denotes base ('0' :: digits) n ↔ Denotes base digits n := by
  rw [denotes_iff, denotes_iff, digitsFrom?_zero_cons]
  simp [h]

theorem denotes_zero (base : Base) : Denotes base ['0'] 0 :=
  denotes_iff.mpr ⟨List.cons_ne_nil _ _, digitsFrom?_zero_cons base []⟩

/-- How the number `m` of octal digits lies to the number `n` of the same digits in decimal. -/
def Apart (m n : Nat) : Prop := m = n ∧ n < 8 ∨ m < n ∧ 8 ≤ n

/-- **Octal digits are a decimal number too**, and the same one only if it is below 8. -/
theorem exists_decimal_of_octal {digits : List Char} {m n k : Nat} (hstart : Apart m n)
    (h : digitsFrom? .octal m digits = some k) :
    ∃ l, digitsFrom? .decimal n digits = some l ∧ Apart k l := by
  induction digits generalizing m n with
  | nil =>
    cases h
    exact ⟨n, rfl, hstart⟩
  | cons c rest ih =>
    rw [digitsFrom?_cons, Option.bind_eq_some_iff] at h
    obtain ⟨value, hdigit, hrest⟩ := h
    have hvalue := digit?_eq_some_iff.mp hdigit
    have hsmall : value < 8 := hvalue.1
    have hnext : Apart (m * Base.octal.radix + value) (n * Base.decimal.radix + value) := by
      simp only [Apart, Base.radix] at hstart ⊢
      omega
    rw [digitsFrom?_cons, digit?_eq_some_iff.mpr hvalue.decimal_of_octal]
    exact ih hnext hrest

theorem le_of_digitsFrom? {base : Base} {digits : List Char} {m n : Nat}
    (h : digitsFrom? base m digits = some n) : m ≤ n := by
  obtain ⟨values, -, rfl⟩ := digitsFrom?_eq_some_iff.mp h
  have hpos : 0 < base.radix ^ digits.length := Nat.pow_pos (by cases base <;> decide)
  exact Nat.le_add_right_of_le (Nat.le_mul_of_pos_left m hpos)

/-- Decimal digits of a number below 8 are its octal digits. -/
theorem octal_of_decimal_lt {digits : List Char} {m n : Nat}
    (h : digitsFrom? .decimal m digits = some n) (hn : n < 8) :
    digitsFrom? .octal m digits = some n := by
  induction digits generalizing m with
  | nil => exact h
  | cons c rest ih =>
    rw [digitsFrom?_cons, Option.bind_eq_some_iff] at h
    obtain ⟨value, hdigit, hrest⟩ := h
    have hle := le_of_digitsFrom? hrest
    -- only the last digit of a number below 8 can be anything but zero
    obtain ⟨rfl, hsmall⟩ : m = 0 ∧ value < 8 := by
      simp only [Base.radix] at hle
      omega
    have hoctal : digit? .octal c = some value :=
      digit?_eq_some_iff.mpr ⟨hsmall, (digit?_eq_some_iff.mp hdigit).2⟩
    rw [digitsFrom?_cons, hoctal]
    exact ih (by simpa using hrest)

/-! ## 3. Numbers in C and their spellings -/

/-- A number in C has no sign inside. -/
theorem CNumber.plus_not_mem {number : List Char} {n : Nat} (h : CNumber number n) :
    '+' ∉ number := by
  have hdigits : ∀ {base : Base} {digits : List Char}, Denotes base digits n → '+' ∉ digits :=
    fun h hmem => (h.ne_of_mem hmem).1 (by decide)
  cases h with
  | hexadecimal hx h =>
    rcases hx with rfl | rfl <;> simpa using hdigits h
  | octal h => exact hdigits h
  | decimal _ h => exact hdigits h

/-- A sign anywhere but in front makes a text no number in C. -/
theorem not_takenByC_of_mem_tail {c : Char} {rest : List Char} {n : Nat} (h : '+' ∈ rest) :
    ¬TakenByC (c :: rest) n := by
  rintro ⟨signed, number, htext, hnumber⟩
  refine hnumber.plus_not_mem ?_
  cases signed with
  | true =>
    obtain ⟨-, rfl⟩ := List.cons.inj htext
    exact h
  | false =>
    change c :: rest = number at htext
    exact htext ▸ List.mem_cons_of_mem c h

theorem Mark.exists_front_x_iff (x : Char) :
    (∃ letter, (Mark.x letter).front = ['0', x]) ↔ x = 'x' ∨ x = 'X' := by
  constructor
  · rintro ⟨letter, hfront⟩
    cases letter <;> cases hfront
    · exact Or.inl rfl
    · exact Or.inr rfl
  · rintro (rfl | rfl)
    · exact ⟨.lower, rfl⟩
    · exact ⟨.upper, rfl⟩

/-- Digits of a number below 8 are octal, if they are decimal. -/
theorem Denotes.octal_of_lt {digits : List Char} {n : Nat} (h : Denotes .decimal digits n)
    (hn : n < 8) : Denotes .octal digits n := by
  rw [denotes_iff] at h ⊢
  exact ⟨h.1, octal_of_decimal_lt h.2 hn⟩

/-- Octal digits are decimal, and stand for another number unless that is below 8. -/
theorem Denotes.exists_decimal {digits : List Char} {m : Nat} (h : Denotes .octal digits m) :
    ∃ n, Denotes .decimal digits n ∧ Apart m n := by
  rw [denotes_iff] at h
  obtain ⟨n, hn, hapart⟩ := exists_decimal_of_octal (Or.inl ⟨rfl, by decide⟩) h.2
  exact ⟨n, denotes_iff.mpr ⟨h.1, hn⟩, hapart⟩

/-- **A number that is spelled is a number in C**, unless a sign is misplaced. -/
theorem Spelling.Spells.takenByC {spelling : Spelling} {n : Nat} (h : spelling.Spells n)
    (hn : n < UInt64.size) (htyped : TypedAsInC spelling.text)
    (hplaced : ¬SignMisplaced spelling.text) : TakenByC spelling.text n := by
  obtain ⟨hdenotes, hzero⟩ := h
  obtain ⟨mark, signed, digits⟩ := spelling
  cases mark with
  | x letter =>
    obtain ⟨x, hfront⟩ : ∃ x, (Mark.x letter).front = ['0', x] := by
      cases letter <;> exact ⟨_, rfl⟩
    have hx := (Mark.exists_front_x_iff x).mp ⟨letter, hfront⟩
    have htext : text ⟨.x letter, signed, digits⟩ = '0' :: x :: (sign signed ++ digits) := by
      simp [text, hfront, Mark.back]
    rw [htext] at hplaced ⊢
    cases signed with
    | true => exact absurd (.behindX hx hdenotes hn) hplaced
    | false => exact ⟨false, _, rfl, .hexadecimal hx hdenotes⟩
  | dollar => exact absurd List.mem_cons_self htyped.dollar_not_mem
  | h letter =>
    cases letter with
    | lower => exact absurd (by simp [text, Mark.back]) htyped.last_ne.1
    | upper => exact absurd (by simp [text, Mark.back]) htyped.last_ne.2
  | zero =>
    rw [text_zero] at hplaced ⊢
    cases signed with
    | true => exact absurd (.behindZero hdenotes hn) hplaced
    | false =>
      exact ⟨false, _, rfl, .octal ((denotes_zero_cons_iff hdenotes.ne_nil).mpr hdenotes)⟩
  | nothing =>
    rw [text_nothing] at hplaced ⊢
    by_cases hhead : digits.head? = some '0'
    · obtain ⟨rest, rfl⟩ := List.head?_eq_some_iff.mp hhead
      refine ⟨signed, _, rfl, .octal (hdenotes.octal_of_lt (Nat.lt_of_not_le fun hlarge => ?_))⟩
      cases signed with
      | true => exact hplaced (.beforeZero hdenotes hlarge (Or.inl hn))
      | false =>
        -- without a sign there is nothing behind the zero, and zero is not large
        rw [hzero rfl rfl hhead] at hdenotes
        have hnone : n = 0 := hdenotes.unique (denotes_zero .decimal)
        omega
    · exact ⟨signed, _, rfl, .decimal hhead hdenotes⟩

/-- **A number in C has a spelling**, unless a sign is misplaced. -/
theorem TakenByC.exists_spells {text : List Char} {n : Nat} (h : TakenByC text n)
    (hn : n < UInt64.size) (hplaced : ¬SignMisplaced text) :
    ∃ spelling : Spelling, spelling.Spells n ∧ text = spelling.text := by
  obtain ⟨signed, number, rfl, hnumber⟩ := h
  cases hnumber with
  | @hexadecimal x digits n hx hdenotes =>
    obtain ⟨letter, hfront⟩ := (Mark.exists_front_x_iff x).mpr hx
    cases signed with
    | true => exact absurd (.beforeX hx hdenotes hn) hplaced
    | false =>
      refine ⟨⟨.x letter, false, digits⟩, ⟨hdenotes, fun h => absurd h (by simp)⟩, ?_⟩
      simp [Spelling.text, hfront, Mark.back, sign]
  | @octal digits n hdenotes =>
    cases signed with
    | true =>
      obtain ⟨m, hdecimal, ⟨rfl, -⟩ | ⟨-, hlarge⟩⟩ := hdenotes.exists_decimal
      · exact ⟨⟨.nothing, true, '0' :: digits⟩, ⟨hdecimal, fun _ h => absurd h (by simp)⟩,
          (Spelling.text_nothing _ _).symm⟩
      · exact absurd (.beforeZero hdecimal hlarge (Or.inr ⟨n, hn, hdenotes⟩)) hplaced
    | false =>
      cases digits with
      | nil =>
        obtain rfl := hdenotes.unique (denotes_zero .octal)
        exact ⟨⟨.nothing, false, ['0']⟩, ⟨denotes_zero .decimal, fun _ _ _ => rfl⟩, rfl⟩
      | cons c rest =>
        have hbehind := (denotes_zero_cons_iff (List.cons_ne_nil c rest)).mp hdenotes
        exact ⟨⟨.zero, false, c :: rest⟩, ⟨hbehind, fun h => absurd h (by simp)⟩,
          (Spelling.text_zero false (c :: rest)).symm⟩
  | decimal hhead hdenotes =>
    refine ⟨⟨.nothing, signed, number⟩, ⟨hdenotes, fun _ _ h => absurd h hhead⟩, ?_⟩
    exact (Spelling.text_nothing _ _).symm

/-! ## 4. Where the two part -/

/-- A text without white space around it is read as the number that it spells. -/
theorem parse_eq_ok_iff_of_typed {text : String} (h : TypedAsInC text.toList) {value : UInt64} :
    parse text = .ok value ↔
      ∃ spelling : Spelling, spelling.Spells value.toNat ∧ text.toList = spelling.text := by
  have htrim := Text.trim_eq_self h.head_not_blank h.last_not_blank
  rw [parse_eq_ok_iff]
  constructor
  · rintro ⟨spelling, hspelled⟩
    exact ⟨spelling, hspelled.spells, htrim.symm.trans hspelled.trim_eq⟩
  · rintro ⟨spelling, hspells, htext⟩
    exact ⟨spelling, hspells, [], [], by simp, by simp, by simp [htext]⟩

theorem Denotes.lt_of_octal {digits : List Char} {n : Nat} (h : Denotes .octal digits n)
    (h' : Denotes .decimal digits n) : n < 8 := by
  obtain ⟨m, hm, hapart⟩ := h.exists_decimal
  obtain rfl := hm.unique h'
  simp only [Apart] at hapart
  omega

/-- Behind a sign, a leading zero marks a number in C as octal, if no `x` follows. -/
theorem TakenByC.octal_of_zero {digits : List Char} {n : Nat}
    (h : TakenByC ('+' :: '0' :: digits) n) (hnone : ∀ x, x = 'x' ∨ x = 'X' → x ∉ digits) :
    Denotes .octal ('0' :: digits) n := by
  obtain ⟨signed, number, htext, hnumber⟩ := h
  cases signed with
  | false =>
    change _ = number at htext
    exact absurd (htext ▸ List.mem_cons_self) hnumber.plus_not_mem
  | true =>
    obtain ⟨-, rfl⟩ := List.cons.inj htext
    cases hnumber with
    | hexadecimal hx _ => exact absurd List.mem_cons_self (hnone _ hx)
    | octal hdenotes => exact hdenotes
    | decimal hhead _ => exact absurd rfl hhead

theorem Mark.x_not_mem_back (mark : Mark) {x : Char} (hx : x = 'x' ∨ x = 'X') :
    x ∉ mark.back := by
  fun_cases Mark.back mark <;> rcases hx with rfl | rfl <;> decide

/-- Behind a sign, a spelling has no `x`: the mark with an `x` begins with a zero. -/
theorem Spelling.Spells.x_not_mem {spelling : Spelling} {n : Nat} {rest : List Char}
    (h : spelling.Spells n) (htext : '+' :: rest = spelling.text) {x : Char}
    (hx : x = 'x' ∨ x = 'X') : x ∉ rest := by
  intro hmem
  have hfront : spelling.mark.front = [] := by
    rw [text] at htext
    generalize spelling.mark = mark at htext
    cases mark with
    | x letter => cases letter <;> exact absurd htext (by simp [Mark.front])
    | dollar => exact absurd htext (by simp [Mark.front])
    | zero => exact absurd htext (by simp [Mark.front])
    | h letter => rfl
    | nothing => rfl
  have hwhole : x ∈ spelling.text := htext ▸ List.mem_cons_of_mem '+' hmem
  rw [text, hfront, List.nil_append, List.mem_append] at hwhole
  rcases hwhole with hbody | hback
  · rcases hx with rfl | rfl <;> exact (h.ne_of_mem hbody).1 (by decide)
  · exact spelling.mark.x_not_mem_back hx hback

/-- **A misplaced sign makes a difference.** -/
theorem SignMisplaced.not_readAsInC {text : String} (h : SignMisplaced text.toList)
    (htyped : TypedAsInC text.toList) : ¬ReadAsInC text := by
  intro hread
  have hok : ∀ {n : Nat}, n < UInt64.size →
      ((∃ spelling : Spelling, spelling.Spells n ∧ text.toList = spelling.text) ↔
        TakenByC text.toList n) := by
    intro n hn
    have hvalue := hread.ok_iff (UInt64.ofNat n)
    rwa [parse_eq_ok_iff_of_typed htyped, UInt64.toNat_ofNat_of_lt' hn] at hvalue
  generalize text.toList = typed at h htyped hok
  cases h with
  | @beforeX x digits n hx hdenotes hn =>
    obtain ⟨spelling, hspells, htext⟩ := (hok hn).mpr ⟨true, _, rfl, .hexadecimal hx hdenotes⟩
    exact hspells.x_not_mem htext hx (List.mem_cons_of_mem '0' List.mem_cons_self)
  | @beforeZero digits n hdenotes hlarge hfits =>
    have hspells : Spelling.Spells ⟨.nothing, true, '0' :: digits⟩ n :=
      ⟨hdenotes, fun _ h => absurd h (by simp)⟩
    have htext := Spelling.text_nothing true ('0' :: digits)
    have hoctal : Denotes .octal ('0' :: digits) n := by
      rcases hfits with hn | ⟨m, hm, hoctal⟩
      · have htaken := (hok hn).mp ⟨_, hspells, htext.symm⟩
        exact htaken.octal_of_zero fun x hx hmem =>
          hspells.x_not_mem htext.symm hx (List.mem_cons_of_mem '0' hmem)
      · obtain ⟨other, hother, hsame⟩ := (hok hm).mpr ⟨true, _, rfl, .octal hoctal⟩
        rwa [(hspells.unique hother (htext.trans hsame)).2]
    exact absurd (hoctal.lt_of_octal hdenotes) (Nat.not_lt.mpr hlarge)
  | @behindX x digits n hx hdenotes hn =>
    obtain ⟨letter, hfront⟩ := (Mark.exists_front_x_iff x).mpr hx
    refine not_takenByC_of_mem_tail (by simp) ((hok hn).mp ⟨⟨.x letter, true, digits⟩,
      ⟨hdenotes, fun h => absurd h (by simp)⟩, ?_⟩)
    simp [Spelling.text, hfront, Mark.back, sign]
  | @behindZero digits n hdenotes hn =>
    exact not_takenByC_of_mem_tail (by simp) ((hok hn).mp ⟨⟨.zero, true, digits⟩,
      ⟨hdenotes, fun h => absurd h (by simp)⟩, (Spelling.text_zero true digits).symm⟩)

/-- **Numbers are read as in C exactly if no sign is misplaced.**  The texts are those without the
marks that C does not know, without a minus sign and without white space around them. -/
theorem readAsInC_iff (text : String) (h : TypedAsInC text.toList) :
    ReadAsInC text ↔ ¬SignMisplaced text.toList := by
  refine ⟨fun hread hplaced => hplaced.not_readAsInC h hread, fun hplaced => ?_⟩
  have hok : ∀ value : UInt64, parse text = .ok value ↔ TakenByC text.toList value.toNat := by
    intro value
    rw [parse_eq_ok_iff_of_typed h]
    constructor
    · rintro ⟨spelling, hspells, htext⟩
      rw [htext] at h hplaced ⊢
      exact hspells.takenByC value.toNat_lt h hplaced
    · intro htaken
      exact htaken.exists_spells value.toNat_lt hplaced
  refine ⟨hok, fun hnone => ?_⟩
  cases hread : parse text with
  | ok value => exact absurd ⟨value.toNat, value.toNat_lt, (hok value).mp hread⟩ hnone
  | error failure => rw [parse_error hread]

/-- A sign in front of a leading zero that is harmless, since seven is seven in both bases. -/
theorem readAsInC_iff_of_seven :
    TypedAsInC "+07".toList ∧ ¬SignMisplaced "+07".toList ∧ ReadAsInC "+07" := by
  have htyped : TypedAsInC "+07".toList :=
    ⟨by decide, by decide, by decide, fun c hc => by cases hc; rfl, fun c hc => by cases hc; rfl⟩
  have hseven : Denotes .decimal ['0', '7'] 7 := denotes_iff.mpr ⟨by decide, by decide⟩
  have hplaced : ¬SignMisplaced ['+', '0', '7'] := by
    intro h
    cases h with
    | beforeX hx => exact absurd hx (by decide)
    | beforeZero hdecimal hlarge => exact absurd hlarge (hseven.unique hdecimal ▸ by decide)
  exact ⟨htyped, hplaced, (readAsInC_iff "+07" htyped).mpr hplaced⟩

/-- **A sign hides the mark of an octal number**: `+010` is eight in C, and read as ten. -/
theorem sign_hides_octal_mark :
    TypedAsInC "+010".toList ∧ TakenByC "+010".toList 8 ∧ parse "+010" = .ok 10 ∧
      ¬ReadAsInC "+010" := by
  have htaken : TakenByC "+010".toList 8 :=
    ⟨true, ['0', '1', '0'], rfl, .octal (denotes_iff.mpr ⟨by decide, by decide⟩)⟩
  have hread : parse "+010" = .ok 10 := rfl
  have htyped : TypedAsInC "+010".toList :=
    ⟨by decide, by decide, by decide, fun c hc => by cases hc; rfl, fun c hc => by cases hc; rfl⟩
  refine ⟨htyped, htaken, hread, fun h => ?_⟩
  exact absurd (hread.symm.trans ((h.ok_iff 8).mpr htaken)) (by decide)

end Disassembler8080.Numeral
