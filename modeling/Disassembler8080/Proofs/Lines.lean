/-
# Lines told apart

A listing is one text.  Its lines can be found again, because no line contains a line feed, and can
be told apart by their texts alone: labels in place, definitions and statements never look alike,
and the label of an address occurs in a statement only as its operand.

Main statements:

* `Line.splitOn_join_written`: a text of lines is split into those lines.
* `Line.chars_eq_label_iff` and `Line.chars_eq_definition_iff`: the lines that look like a label in
  place or like a definition are those lines.
* `Statement.target?_of_label_mem`: the label that a statement shows is that of its target.
-/
import Disassembler8080.Proofs.Notation

namespace Disassembler8080

open Assembler

/-! ## 1. Lines end with a line feed -/

/-- A byte is written without the letter of a name and without a line feed. -/
theorem Operand.ne_of_mem_byte {value : UInt8} {c : Char}
    (h : c ∈ (Operand.byte value).text.toList) : c ≠ 'L' ∧ c ≠ '\n' := by
  simp only [text, String.toList_append, List.mem_append, String.toList_ofList] at h
  rcases h with hmark | hdigits
  · rw [show "$".toList = ['$'] by simp, List.mem_singleton] at hmark
    subst hmark
    decide
  · exact Hexadecimal.ne_of_mem_fixed hdigits

theorem Address.ne_of_mem_labelDigits {address : Address} {c : Char}
    (h : c ∈ address.labelDigits) : c ≠ 'L' ∧ c ≠ '\n' :=
  Hexadecimal.ne_of_mem_fixed h

theorem Operand.lineFeed_not_mem_text (operand : Operand) : '\n' ∉ operand.text.toList := by
  cases operand with
  | none => simp [Operand.text]
  | byte value => exact fun h => (ne_of_mem_byte h).2 rfl
  | word address =>
    intro h
    rw [Operand.text, Address.toList_label, List.mem_cons] at h
    rcases h with hletter | hdigits
    · exact absurd hletter (by decide)
    · exact (Address.ne_of_mem_labelDigits hdigits).2 rfl

theorem Statement.lineFeed_not_mem_comment (value : UInt8) : '\n' ∉ comment value := by
  unfold comment
  split
  · rename_i hprintable
    have hvalid : value.toNat.isValidChar := Or.inl (by have := value.toNat_lt; omega)
    have hvalue : (Char.ofNat value.toNat).toNat = value.toNat := by
      rw [Char.ofNat, dif_pos hvalid]
      rfl
    have hne : '\n' ≠ Char.ofNat value.toNat := by
      intro heq
      rw [← heq] at hvalue
      simp only [Statement.isPrintable, Bool.and_eq_true, decide_eq_true_eq,
        UInt8.le_iff_toNat_le, ← hvalue] at hprintable
      exact absurd hprintable.1 (by decide)
    simp [hne]
  · simp

theorem Statement.lineFeed_not_mem_text {statement : Statement} (h : statement.WellFormed) :
    '\n' ∉ statement.text.toList := by
  cases statement with
  | instruction form operand =>
    have hhead := (not_mem_of_mem_heads (head_mem_heads (mem_all h.1))).2
    rw [Statement.text, String.toList_append, List.mem_append]
    rintro (hmem | hmem)
    · exact hhead hmem
    · exact operand.lineFeed_not_mem_text hmem
  | data value =>
    rw [toList_text_data, List.mem_append, List.mem_append]
    rintro (hmem | hmem | hmem)
    · exact (not_mem_of_mem_heads List.mem_cons_self).2 hmem
    · exact (Operand.byte value).lineFeed_not_mem_text hmem
    · exact lineFeed_not_mem_comment value hmem

theorem Address.lineFeed_not_mem_labelDigits (address : Address) : '\n' ∉ address.labelDigits :=
  fun h => (ne_of_mem_labelDigits h).2 rfl

/-- A line that can stand in a listing: what it shows of a statement can stand in memory. -/
def Line.WellFormed : Line → Prop
  | .statement content => content.WellFormed
  | _ => True

namespace Line

/-- The address that a line labels in place. -/
def label? : Line → Option Address
  | .label address => some address
  | _ => none

/-- The address that a line defines the label of. -/
def definition? : Line → Option Address
  | .definition address => some address
  | _ => none

/-- The characters of a line without the line feed. -/
def chars (line : Line) : List Char := line.text.toList

@[simp] theorem chars_label (address : Address) :
    (label address).chars = 'L' :: (address.labelDigits ++ [':']) := by
  simp [chars, text, Address.toList_label]

@[simp] theorem chars_statement (content : Statement) :
    (statement content).chars = '\t' :: content.text.toList := by
  simp [chars, text]

@[simp] theorem chars_blank : blank.chars = [] := by
  simp [chars, text]

@[simp] theorem chars_definition (address : Address) :
    (definition address).chars =
      'L' :: (address.labelDigits ++ "\t= $".toList ++ address.labelDigits) := by
  simp [chars, text, Address.toList_label, Address.constant]

@[simp] theorem chars_finish : finish.chars = "end".toList := rfl

/-- A line does not go on behind its line feed. -/
theorem lineFeed_not_mem_chars {line : Line} (h : line.WellFormed) : '\n' ∉ line.chars := by
  cases line with
  | label address => simp [Address.lineFeed_not_mem_labelDigits]
  | statement content => simp [Statement.lineFeed_not_mem_text h]
  | blank => simp
  | definition address => simp [Address.lineFeed_not_mem_labelDigits]
  | finish => simp

/-- **A listing is split into its lines**, and an empty rest behind the last line feed. -/
theorem splitOn_join_written {lines : List Line} (h : ∀ line ∈ lines, line.WellFormed) :
    (String.join (lines.map written)).toList.splitOn '\n' = lines.map chars ++ [[]] := by
  induction lines with
  | nil => simp
  | cons line rest ih =>
    obtain ⟨hline, hrest⟩ := List.forall_mem_cons.mp h
    have hwritten : line.written.toList = line.chars ++ ['\n'] := by simp [written, chars]
    rw [List.map_cons, String.join_cons, String.toList_append, hwritten, List.append_assoc,
      List.singleton_append,
      List.splitOn_append_cons_self_of_not_mem (lineFeed_not_mem_chars hline), ih hrest,
      List.map_cons, List.cons_append]

end Line

/-! ## 2. Labels and definitions -/

namespace Line

/-- Only a label in place looks like one. -/
theorem chars_eq_label_iff (line : Line) (address : Address) :
    line.chars = (label address).chars ↔ line.label? = some address := by
  cases line with
  | label other =>
    constructor
    · intro h
      rw [chars_label, chars_label, List.cons.injEq, List.append_left_inj] at h
      rw [label?, Address.labelDigits_injective h.2]
    · intro h
      cases h
      rfl
  | statement content => simp [label?]
  | blank => simp [label?]
  | definition other =>
    refine iff_of_false ?_ (by simp [label?])
    intro h
    rw [chars_label, chars_definition, List.cons.injEq, List.append_assoc] at h
    exact absurd (List.append_inj h.2 (by simp)).2 (by simp)
  | finish => simp [label?]

/-- Only a definition looks like one. -/
theorem chars_eq_definition_iff (line : Line) (address : Address) :
    line.chars = (definition address).chars ↔ line.definition? = some address := by
  cases line with
  | label other =>
    refine iff_of_false ?_ (by simp [definition?])
    intro h
    rw [chars_label, chars_definition, List.cons.injEq, List.append_assoc] at h
    exact absurd (List.append_inj h.2 (by simp)).2 (by simp)
  | statement content => simp [definition?]
  | blank => simp [definition?]
  | definition other =>
    constructor
    · intro h
      rw [chars_definition, chars_definition, List.cons.injEq, List.append_assoc,
        List.append_assoc] at h
      rw [definition?, Address.labelDigits_injective (List.append_inj h.2 (by simp)).1]
    · intro h
      cases h
      rfl
  | finish => simp [definition?]

end Line

/-! ## 3. Labels as operands -/

/-- A row that begins with a character is not found before that character is. -/
theorem infix_of_infix_append {c : Char} {word front rest : List Char} (hfront : c ∉ front)
    (h : c :: word <:+: front ++ rest) : c :: word <:+: rest := by
  induction front with
  | nil => exact h
  | cons d others ih =>
    rw [List.mem_cons, not_or] at hfront
    rcases List.infix_cons_iff.mp h with hstart | hfound
    · exact absurd (List.cons_prefix_cons.mp hstart).1 hfront.1
    · exact ih hfront.2 hfound

/-- A comment has no room for a label. -/
theorem Statement.label_not_infix_comment (address : Address) (value : UInt8) :
    ¬ 'L' :: address.labelDigits <:+: comment value := by
  intro h
  unfold comment at h
  split at h
  · have hfront : 'L' ∉ "\t\t; '".toList := by simp
    have hlength := (infix_of_infix_append hfront h).length_le
    rw [List.length_cons, Address.length_labelDigits] at hlength
    exact absurd hlength (by simp)
  · exact absurd h (by simp)

/-- **A label that a statement shows is that of its target.** -/
theorem Statement.target?_of_label_mem {statement : Statement} (h : statement.WellFormed)
    {address : Address} (hfound : address.label.toList <:+: (Line.statement statement).chars) :
    statement.target? = some address := by
  rw [Address.toList_label, Line.chars_statement] at hfound
  have htab : 'L' ∉ ['\t'] := by simp
  have htext : 'L' :: address.labelDigits <:+: statement.text.toList :=
    infix_of_infix_append htab hfound
  cases statement with
  | instruction form operand =>
    have hhead : 'L' ∉ form.head.toList := fun hmem =>
      (not_mem_of_mem_heads (head_mem_heads (mem_all h.1))).1 _ hmem (Or.inr rfl)
    rw [Statement.text, String.toList_append] at htext
    have hoperand := infix_of_infix_append hhead htext
    cases operand with
    | none => exact absurd hoperand (by simp [Operand.text])
    | byte value =>
      exact absurd rfl (Operand.ne_of_mem_byte (hoperand.mem List.mem_cons_self)).1
    | word other =>
      rw [Operand.text, Address.toList_label] at hoperand
      rcases List.infix_cons_iff.mp hoperand with hstart | hrest
      · have hdigits := (List.cons_prefix_cons.mp hstart).2.eq_of_length (by simp)
        rw [Address.labelDigits_injective hdigits]
        rfl
      · exact absurd rfl (Address.ne_of_mem_labelDigits (hrest.mem List.mem_cons_self)).1
  | data value =>
    rw [toList_text_data] at htext
    have hbyte : 'L' ∉ (Operand.byte value).text.toList :=
      fun hmem => (Operand.ne_of_mem_byte hmem).1 rfl
    have hbehind := infix_of_infix_append hbyte (infix_of_infix_append (by simp) htext)
    exact absurd hbehind (label_not_infix_comment address value)

end Disassembler8080
