/-
# Reading a listing back

Nothing of a line is lost on a reader who knows its notation and nothing else: each line of the body
is read as the label or the statement that it was written for, and each definition as its name and
its address.

Two things could go wrong.  The text of one instruction could be the beginning of another's, and a
data byte could look like an instruction.  Neither happens, because an operand that follows in
memory begins with a mark, `$` or `L`, that no mnemonic and no register contains, and because the
texts in front of the operands are all different.

Main statements:

* `readItem_statement` and `readItem_label`: the lines of the body are read as what they show.
* `readDefinition_definition`: a definition is read as its name and its address.
-/
import Disassembler8080.Assembler
import Disassembler8080.Listing.Line

namespace Disassembler8080

/-! ## 1. Digits -/

theorem Numeral.digit?_digit (letters : LetterCase) (value : Fin 16) :
    digit? .hexadecimal (Hexadecimal.digit letters value) = some value.val := by
  revert value
  cases letters <;> decide

theorem Numeral.digitsFrom?_append (base : Base) (n : Nat) (first second : List Char) :
    digitsFrom? base n (first ++ second) =
      (digitsFrom? base n first).bind fun m => digitsFrom? base m second := by
  simp only [digitsFrom?, List.foldlM_append]
  rfl

/-- The count of numbers that digits of a width tell apart. -/
def Hexadecimal.range : Nat → Nat
  | 0 => 1
  | width + 1 => 16 * range width

/-- Reading the lowest digits of a number continues a number by those digits. -/
theorem Numeral.digitsFrom?_fixed (letters : LetterCase) (m width n : Nat) :
    digitsFrom? .hexadecimal m (Hexadecimal.fixed letters width n) =
      some (m * Hexadecimal.range width + n % Hexadecimal.range width) := by
  induction width generalizing n with
  | zero => simp [Hexadecimal.fixed, Hexadecimal.range, digitsFrom?, Nat.mod_one]
  | succ width ih =>
    have hvalue :
        (m * Hexadecimal.range width + n / 16 % Hexadecimal.range width) * 16 + n % 16 =
          m * Hexadecimal.range (width + 1) + n % Hexadecimal.range (width + 1) := by
      rw [Hexadecimal.range, Nat.mod_mul, Nat.add_mul]
      have hshift : m * Hexadecimal.range width * 16 = m * (16 * Hexadecimal.range width) := by
        rw [Nat.mul_assoc, Nat.mul_comm (Hexadecimal.range width)]
      omega
    rw [Hexadecimal.fixed, digitsFrom?_append, ih, Option.bind_some, ← hvalue]
    simp [digitsFrom?, digit?_digit, Base.radix]

theorem Hexadecimal.exists_digit_of_mem_fixed {letters : LetterCase} {width n : Nat} {c : Char}
    (h : c ∈ fixed letters width n) : ∃ value, c = digit letters value := by
  induction width generalizing n with
  | zero => exact absurd h (by simp [fixed])
  | succ width ih =>
    rw [fixed, List.mem_append, List.mem_singleton] at h
    rcases h with hfront | hlast
    · exact ih hfront
    · exact ⟨_, hlast⟩

/-- No digit has a meaning of its own in a listing. -/
theorem Hexadecimal.digit_ne (letters : LetterCase) (value : Fin 16) :
    digit letters value ≠ 'L' ∧ digit letters value ≠ '\n' := by
  revert value
  cases letters <;> decide

theorem Hexadecimal.ne_of_mem_fixed {letters : LetterCase} {width n : Nat} {c : Char}
    (h : c ∈ fixed letters width n) : c ≠ 'L' ∧ c ≠ '\n' := by
  obtain ⟨value, rfl⟩ := exists_digit_of_mem_fixed h
  exact digit_ne letters value

namespace Assembler

theorem readDigits?_fixed (letters : LetterCase) {width n : Nat}
    (h : n < Hexadecimal.range width) :
    readDigits? width (Hexadecimal.fixed letters width n) = some n := by
  rw [readDigits?, if_pos (Hexadecimal.length_fixed letters width n), Numeral.digitsFrom?_fixed,
    Nat.zero_mul, Nat.zero_add, Nat.mod_eq_of_lt h]

theorem readDigits?_labelDigits (address : Address) :
    readDigits? 4 address.labelDigits = some address.toNat :=
  readDigits?_fixed .upper address.toNat_lt

theorem readByte?_byte (value : UInt8) :
    readByte? (Operand.byte value).text.toList = some value := by
  have hdigits : readDigits? 2 (Hexadecimal.fixed .lower 2 value.toNat) = some value.toNat :=
    readDigits?_fixed .lower value.toNat_lt
  simp [Operand.text, readByte?, hdigits]

theorem readConstant?_constant (address : Address) :
    readConstant? address.constant.toList = some address := by
  simp [Address.constant, readConstant?, readDigits?_labelDigits]

theorem readName?_label (address : Address) :
    readName? address.label.toList = some address.label := by
  simp [Address.label, readName?, readDigits?_labelDigits, String.ofList_cons]

end Assembler

theorem Address.toList_label (address : Address) :
    address.label.toList = 'L' :: address.labelDigits := by
  simp [label]

theorem Address.labelDigits_injective {first second : Address}
    (h : first.labelDigits = second.labelDigits) : first = second := by
  have hread := Assembler.readDigits?_labelDigits first
  rw [h, Assembler.readDigits?_labelDigits, Option.some.injEq] at hread
  exact UInt16.toNat_inj.mp hread.symm

theorem Address.label_injective {first second : Address} (h : first.label = second.label) :
    first = second := by
  have hlist := congrArg String.toList h
  rw [toList_label, toList_label, List.cons.injEq] at hlist
  exact labelDigits_injective hlist.2

/-! ## 2. Where operands begin -/

namespace Assembler

/-- A character that an operand begins with: the mark of a number or the letter of a name. -/
def IsMark (c : Char) : Prop := c = '$' ∨ c = 'L'

/-- A text without the marks of operands. -/
def Unmarked (text : List Char) : Prop := ∀ c ∈ text, ¬ IsMark c

/-- A text that begins with the mark of an operand if it begins with anything. -/
def Marked (text : List Char) : Prop := ∀ c ∈ text.head?, IsMark c

/-- **Where the operand begins is plain to see**: a text can be divided in front of a mark in one
way only. -/
theorem eq_of_append_eq_append {first second firstRest secondRest : List Char}
    (hfirst : Unmarked first) (hsecond : Unmarked second) (hfirstRest : Marked firstRest)
    (hsecondRest : Marked secondRest) (h : first ++ firstRest = second ++ secondRest) :
    first = second := by
  induction first generalizing second with
  | nil =>
    cases second with
    | nil => rfl
    | cons c rest =>
      rw [List.nil_append] at h
      refine absurd (hfirstRest c ?_) (hsecond c List.mem_cons_self)
      rw [h]
      rfl
  | cons c rest ih =>
    cases second with
    | nil =>
      rw [List.nil_append] at h
      refine absurd (hsecondRest c ?_) (hfirst c List.mem_cons_self)
      rw [← h]
      rfl
    | cons d others =>
      obtain ⟨rfl, hrest⟩ := List.cons.inj h
      rw [ih (fun e he => hfirst e (List.mem_cons_of_mem _ he))
        (fun e he => hsecond e (List.mem_cons_of_mem _ he)) hrest]

/-- A prefix is taken off exactly where it stands. -/
theorem isPrefixOf?_eq_some_iff (front text rest : List Char) :
    front.isPrefixOf? text = some rest ↔ text = front ++ rest := by
  induction front generalizing text with
  | nil =>
    change some text = some rest ↔ _
    rw [Option.some.injEq, List.nil_append]
  | cons c others ih =>
    cases text with
    | nil =>
      change none = some rest ↔ _
      simp
    | cons d more =>
      change (if c == d then others.isPrefixOf? more else none) = some rest ↔ _
      split
      · rename_i heq
        rw [ih, beq_iff_eq.mp heq]
        simp
      · rename_i hne
        simp only [beq_iff_eq] at hne
        simp [Ne.symm hne]

/-- What is read as an operand begins with a mark if it is not empty. -/
theorem marked_of_readArgument? {text : List Char} {width : OperandWidth} {argument : Argument}
    (h : readArgument? text width = some argument) : Marked text := by
  intro c hc
  cases width with
  | none =>
    rw [readArgument?] at h
    split at h
    · rename_i hempty
      rw [List.isEmpty_iff.mp hempty] at hc
      exact absurd hc (by simp)
    · exact absurd h (by simp)
  | byte =>
    obtain ⟨value, hvalue, -⟩ := Option.map_eq_some_iff.mp h
    unfold readByte? at hvalue
    split at hvalue
    · exact Or.inl (Option.mem_some.mp hc).symm
    · exact absurd hvalue (by simp)
  | word =>
    obtain ⟨name, hname, -⟩ := Option.map_eq_some_iff.mp h
    unfold readName? at hname
    split at hname
    · exact Or.inr (Option.mem_some.mp hc).symm
    · exact absurd hname (by simp)

/-- The operand as it is written. -/
def Argument.ofOperand : Operand → Argument
  | .none => .none
  | .byte value => .byte value
  | .word address => .name address.label

/-- An operand is read as it was written. -/
theorem readArgument?_text (operand : Operand) :
    readArgument? operand.text.toList operand.width = some (.ofOperand operand) := by
  cases operand with
  | none => rfl
  | byte value => simp only [Operand.width, readArgument?, readByte?_byte]; rfl
  | word address => simp only [Operand.width, Operand.text, readArgument?, readName?_label]; rfl

/-! ## 3. The texts in front of operands -/

/-- The texts in front of the operands of all statements: that of a data byte and the heads of the
instructions. -/
def heads : List (List Char) :=
  "db\t".toList :: InstructionForm.all.map fun form => form.head.toList

/-- Whether numbers are all different. -/
def allDifferent : List Nat → Bool
  | [] => true
  | n :: rest => rest.all (fun m => !n.beq m) && allDifferent rest

/-- A text as one number, for a quick comparison. -/
def fingerprint (text : List Char) : Nat := text.foldl (fun n c => n * 256 + c.toNat) 1

set_option maxRecDepth 10000 in
/-- The texts in front of operands are different from one another and contain neither a mark nor a
line feed. -/
theorem heads_checked :
    (allDifferent (heads.map fingerprint) &&
      heads.all fun text => text.all fun c => c != '$' && c != 'L' && c != '\n') = true := by
  decide +kernel

theorem pairwise_of_allDifferent {numbers : List Nat} (h : allDifferent numbers = true) :
    numbers.Pairwise fun n m => n ≠ m := by
  induction numbers with
  | nil => exact List.Pairwise.nil
  | cons n rest ih =>
    simp only [allDifferent, Bool.and_eq_true, List.all_eq_true, Bool.not_eq_true'] at h
    exact List.Pairwise.cons (fun m hm => Nat.ne_of_beq_eq_false (h.1 m hm)) (ih h.2)

theorem pairwise_heads : heads.Pairwise fun first second => first ≠ second := by
  have hcheck := heads_checked
  rw [Bool.and_eq_true] at hcheck
  have hnumbers := pairwise_of_allDifferent hcheck.1
  rw [List.pairwise_map] at hnumbers
  exact hnumbers.imp fun hne heq => hne (congrArg fingerprint heq)

theorem not_mem_of_mem_heads {text : List Char} (h : text ∈ heads) :
    Unmarked text ∧ '\n' ∉ text := by
  have hcheck := heads_checked
  simp only [Bool.and_eq_true, List.all_eq_true, bne_iff_ne] at hcheck
  constructor
  · rintro c hc (rfl | rfl)
    · exact (hcheck.2 _ h _ hc).1.1 rfl
    · exact (hcheck.2 _ h _ hc).1.2 rfl
  · intro hc
    exact (hcheck.2 _ h _ hc).2 rfl

theorem mem_all {form : InstructionForm}
    (h : InstructionForm.ofOpcode? form.opcode = some form) : form ∈ InstructionForm.all := by
  rw [InstructionForm.all, List.mem_filterMap]
  refine ⟨form.opcode.toNat, List.mem_range.mpr form.opcode.toNat_lt, ?_⟩
  rw [UInt8.ofNat_toNat, h]

theorem head_mem_heads {form : InstructionForm} (h : form ∈ InstructionForm.all) :
    form.head.toList ∈ heads :=
  List.mem_cons_of_mem _ (List.mem_map_of_mem h)

/-- No instruction looks like data. -/
theorem head_ne_data {form : InstructionForm} (h : form ∈ InstructionForm.all) :
    "db\t".toList ≠ form.head.toList :=
  (List.pairwise_cons.mp pairwise_heads).1 _ (List.mem_map_of_mem h)

/-- The head of an instruction tells its form. -/
theorem head_injective {first second : InstructionForm} (hfirst : first ∈ InstructionForm.all)
    (hsecond : second ∈ InstructionForm.all)
    (h : first.head.toList = second.head.toList) : first = second := by
  have hforms := (List.pairwise_cons.mp pairwise_heads).2
  rw [List.pairwise_map] at hforms
  have hone : InstructionForm.all.Pairwise
      fun first second => first.head.toList = second.head.toList → first = second :=
    hforms.imp fun hne heq => absurd heq hne
  have hother : InstructionForm.all.Pairwise
      fun first second => second.head.toList = first.head.toList → second = first :=
    hforms.imp fun hne heq => absurd heq.symm hne
  exact List.Pairwise.forall_of_forall_of_flip (fun _ _ _ => rfl) hone hother hfirst hsecond h

/-! ## 4. Reading statements -/

/-- The item that a statement is read as. -/
def Item.ofStatement : Statement → Item
  | .instruction form operand => .instruction form (.ofOperand operand)
  | .data value => .data value

@[simp] theorem Item.size_ofStatement (statement : Statement) :
    (Item.ofStatement statement).size = statement.size := by
  cases statement <;> rfl

theorem marked_text (operand : Operand) : Marked operand.text.toList :=
  marked_of_readArgument? (readArgument?_text operand)

/-- A form is read from the texts of its own instructions only. -/
theorem eq_of_readAs? {form other : InstructionForm} {operand : Operand} {item : Item}
    (hform : form ∈ InstructionForm.all) (hother : other ∈ InstructionForm.all)
    (h : readAs? (form.head.toList ++ operand.text.toList) other = some item) : other = form := by
  obtain ⟨rest, hrest, h⟩ := Option.bind_eq_some_iff.mp h
  obtain ⟨argument, hargument, -⟩ := Option.bind_eq_some_iff.mp h
  rw [isPrefixOf?_eq_some_iff] at hrest
  have hheads := eq_of_append_eq_append (not_mem_of_mem_heads (head_mem_heads hform)).1
    (not_mem_of_mem_heads (head_mem_heads hother)).1 (marked_text operand)
    (marked_of_readArgument? hargument) hrest
  exact (head_injective hform hother hheads).symm

/-- The form of an instruction is read from its text. -/
theorem readAs?_text {form : InstructionForm} {operand : Operand}
    (h : operand.width = form.width) :
    readAs? (form.head.toList ++ operand.text.toList) form =
      some (.instruction form (.ofOperand operand)) := by
  have hrest : form.head.toList.isPrefixOf? (form.head.toList ++ operand.text.toList) =
      some operand.text.toList := (isPrefixOf?_eq_some_iff _ _ _).mpr rfl
  simp [readAs?, hrest, ← h, readArgument?_text]

/-- The text of an instruction is not read as data. -/
theorem readData?_text {form : InstructionForm} (h : form ∈ InstructionForm.all)
    (operand : Operand) : readData? (form.head.toList ++ operand.text.toList) = none := by
  cases hread : readData? (form.head.toList ++ operand.text.toList) with
  | none => rfl
  | some item =>
    obtain ⟨rest, hrest, hread⟩ := Option.bind_eq_some_iff.mp hread
    obtain ⟨value, hvalue, -⟩ := Option.bind_eq_some_iff.mp hread
    rw [isPrefixOf?_eq_some_iff] at hrest
    have hbyte : readArgument? (rest.take 3) .byte = some (.byte value) := by
      rw [readArgument?, hvalue, Option.map_some]
    have hmarked : Marked rest := by
      intro c hc
      refine marked_of_readArgument? hbyte c ?_
      rw [List.head?_take]
      exact hc
    have hheads := eq_of_append_eq_append (not_mem_of_mem_heads (head_mem_heads h)).1
      (not_mem_of_mem_heads List.mem_cons_self).1 (marked_text operand) hmarked hrest
    exact absurd hheads.symm (head_ne_data h)

/-- What stands behind a data byte: its character in a comment, if it is printable. -/
def comment (value : UInt8) : List Char :=
  if Statement.isPrintable value then
    "\t\t; '".toList ++ Char.ofNat value.toNat :: "'".toList
  else []

theorem toList_text_data (value : UInt8) :
    (Statement.data value).text.toList =
      "db\t".toList ++ ((Operand.byte value).text.toList ++ comment value) := by
  by_cases hprintable : Statement.isPrintable value
  · simp [Statement.text, Operand.text, comment, hprintable]
  · simp [Statement.text, Operand.text, comment, hprintable]

theorem isComment_comment (value : UInt8) : isComment (comment value) = true := by
  unfold comment isComment
  split <;> simp

theorem readData?_data (value : UInt8) :
    readData? (Statement.data value).text.toList = some (.data value) := by
  have hlength : (Operand.byte value).text.toList.length = 3 := by simp [Operand.text]
  have hrest := (isPrefixOf?_eq_some_iff _ _ _).mpr (toList_text_data value)
  have hvalue := readByte?_byte value
  rw [readData?, hrest, ← hlength, Option.bind_eq_bind, Option.bind_some, List.take_left,
    List.drop_left, hvalue, isComment_comment]
  rfl

/-- **The text of a well-formed statement is read as that statement.** -/
theorem readItem_statement {statement : Statement} (h : statement.WellFormed) :
    readItem (Line.statement statement).text.toList = .ok (.ofStatement statement) := by
  have htext : (Line.statement statement).text.toList = '\t' :: statement.text.toList := by
    simp [Line.text]
  rw [htext]
  cases statement with
  | instruction form operand =>
    obtain ⟨hform, hwidth⟩ := h
    have hmem := mem_all hform
    have hfind : InstructionForm.all.findSome? (readAs? (form.head.toList ++ operand.text.toList)) =
        some (.instruction form (.ofOperand operand)) := by
      obtain ⟨before, after, hall, hbefore⟩ := List.eq_append_cons_of_mem hmem
      refine List.findSome?_eq_some_iff.mpr ⟨before, form, after, hall, readAs?_text hwidth, ?_⟩
      intro other hother
      have hothermem : other ∈ InstructionForm.all := hall ▸ List.mem_append_left _ hother
      cases hread : readAs? (form.head.toList ++ operand.text.toList) other with
      | none => rfl
      | some item => exact absurd (eq_of_readAs? hmem hothermem hread ▸ hother) hbefore
    simp [Statement.text, readItem, readData?_text hmem, hfind, Item.ofStatement]
  | data value =>
    simp only [readItem, readData?_data, Option.orElse_some, Item.ofStatement]

/-- **A label in place is read as its name.** -/
theorem readItem_label (address : Address) :
    readItem (Line.label address).text.toList = .ok (.label address.label) := by
  have hread := readName?_label address
  rw [Address.toList_label] at hread
  have hlast : ('L' :: address.labelDigits ++ [':']).getLast? = some ':' :=
    List.getLast?_concat
  have hfront : ('L' :: address.labelDigits ++ [':']).dropLast = 'L' :: address.labelDigits :=
    List.dropLast_concat
  have htext : (Line.label address).text.toList = 'L' :: address.labelDigits ++ [':'] := by
    simp [Line.text, Address.toList_label]
  rw [htext, readItem, hlast, hfront, hread]
  · simp
  · simp

/-- **A definition is read as its name and its address.** -/
theorem readDefinition_definition (address : Address) :
    readDefinition (Line.definition address).text.toList = .ok (address.label, address) := by
  have hlength : address.label.toList.length = 5 := by simp [Address.toList_label]
  have htext : (Line.definition address).text.toList =
      address.label.toList ++ ("\t= ".toList ++ address.constant.toList) := by
    simp [Line.text]
  have hrest := (isPrefixOf?_eq_some_iff "\t= ".toList _ address.constant.toList).mpr rfl
  rw [readDefinition, htext, ← hlength, List.take_left, List.drop_left, readName?_label, hrest]
  simp [readConstant?_constant]

end Assembler

end Disassembler8080
