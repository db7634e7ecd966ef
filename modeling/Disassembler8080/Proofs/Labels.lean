/-
# Every reference has its label

What an operand or the end of a data block refers to has one label in the listing: in place, right
in front of the statement at that address, or defined behind the body, where no statement starts at
the address or where the body does not reach.  Nothing else is labelled.

The result is about texts: it speaks of the lines of the text that rendering gives, and of the labels
that occur in them, not of the lines that the text was put together from.

Main statement: `labels_of_result`, for every sweep that succeeds.
-/
import Disassembler8080.Proofs.Placement
import Disassembler8080.Proofs.RoundTrip

namespace Disassembler8080

open Tiling

/-! ## 1. What is asked of the labels of a listing -/

/-- Whether a statement or the end of a block refers to an address. -/
def Refers (units : List (Address × Statement)) (blocks : List DataBlock) (address : Address) :
    Prop :=
  (∃ entry ∈ units, entry.2.target? = some address) ∨
    ∃ block ∈ blocks, block.resume? = some address

/-- Whether a line shows a statement: those lines and no others begin with a tab. -/
def showsStatement (line : List Char) : Bool := line.head? == some '\t'

/-- Lines in which exactly the addresses that something refers to have a label, each one label, and
each label where it belongs.  The units are those that were decoded, the last one of which the lines
may leave out. -/
structure LabelledExactly (lines : List (List Char)) (units : List (Address × Statement))
    (refers : Address → Prop) : Prop where
  /-- A label in place or a definition, and not both. -/
  one_of_refers : ∀ address, refers address →
    lines.count (Line.label address).chars + lines.count (Line.definition address).chars = 1
  none_of_not_refers : ∀ address, ¬ refers address →
    (Line.label address).chars ∉ lines ∧ (Line.definition address).chars ∉ lines
  label_mem_iff : ∀ address, refers address →
    ((Line.label address).chars ∈ lines ↔
      (∃ statement, (address, statement) ∈ units) ∧ address.toNat < 0xffff)
  definition_mem_iff : ∀ address, refers address →
    ((Line.definition address).chars ∈ lines ↔
      ¬ ((∃ statement, (address, statement) ∈ units) ∧ address.toNat < 0xffff))
  /-- The line behind a label shows the unit at its address: the lines in front of the label show
  the units below that address. -/
  unit_behind_label : ∀ address, (Line.label address).chars ∈ lines →
    ∃ statement before after, (address, statement) ∈ units ∧
      lines = before ++ (Line.label address).chars :: (Line.statement statement).chars :: after ∧
      before.filter showsStatement =
        (units.filter (·.1 < address)).map fun entry => (Line.statement entry.2).chars
  refers_of_operand : ∀ line ∈ lines, showsStatement line = true →
    ∀ address : Address, address.label.toList <:+: line → refers address
  definitions_increase : lines.Pairwise fun first second => ∀ address other,
    first = (Line.definition address).chars → second = (Line.definition other).chars →
      address < other

/-! ## 2. Counting lines -/

namespace Line

/-- Lines of a kind are counted by their texts, if their texts tell them. -/
theorem count_chars {kind : Line → Option Address} {ofKind : Address → Line}
    (h : ∀ line address, line.chars = (ofKind address).chars ↔ kind line = some address)
    (lines : List Line) (address : Address) :
    (lines.map chars).count (ofKind address).chars = (lines.filterMap kind).count address := by
  rw [List.count_filterMap, List.count, List.countP_map]
  refine List.countP_congr fun line _ => ?_
  rw [Function.comp_apply, beq_iff_eq, beq_iff_eq, h]

theorem exists_of_showsStatement {line : Line} (h : showsStatement line.chars = true) :
    ∃ statement, line = .statement statement := by
  cases line with
  | statement content => exact ⟨content, rfl⟩
  | _ => exact absurd h (by simp [showsStatement])

end Line

/-! ## 3. Lines in front of a label -/

namespace Disassembly

theorem filter_lt_of_increasing {before after : List (Address × Statement)}
    {entry : Address × Statement} (h : Increasing (before ++ entry :: after)) :
    (before ++ entry :: after).filter (·.1 < entry.1) = before := by
  obtain ⟨-, hafter, hbefore⟩ := List.pairwise_append.mp h
  rw [List.filter_append, List.filter_eq_self.mpr, List.filter_eq_nil_iff.mpr, List.append_nil]
  · intro other hother
    rcases List.mem_cons.mp hother with rfl | hmem
    · simp
    · have hless := (List.pairwise_cons.mp hafter).1 other hmem
      simpa using UInt16.le_of_lt hless
  · intro other hother
    simpa using hbefore other hother entry List.mem_cons_self

variable (disassembly : Disassembly)

/-- The lines of statements that begin with a tab show those statements, each once. -/
theorem filter_showsStatement (entries : List (Address × Statement)) :
    ((disassembly.linesOfAll entries).map Line.chars).filter showsStatement =
      entries.map fun entry => (Line.statement entry.2).chars := by
  induction entries with
  | nil => rfl
  | cons entry rest ih =>
    rw [linesOfAll_cons, List.map_append, List.filter_append, ih, List.map_cons, linesOf]
    split <;> simp [showsStatement]

/-- A label in place stands directly in front of the line of its statement. -/
theorem exists_lines_of_mem_placed {address : Address} (h : address ∈ disassembly.placed) :
    ∃ statement before after rest,
      disassembly.shown = before ++ (address, statement) :: after ∧
      disassembly.lines =
        disassembly.linesOfAll before ++ .label address :: .statement statement :: rest := by
  obtain ⟨⟨statement, hmem⟩, hreferenced⟩ := (mem_placed_iff disassembly address).mp h
  obtain ⟨before, after, hshown⟩ := List.append_of_mem hmem
  have hlines : disassembly.linesOf address statement = [.label address, .statement statement] :=
    if_pos hreferenced
  refine ⟨statement, before, after, disassembly.linesOfAll after ++ disassembly.behindBody,
    hshown, ?_⟩
  rw [lines_eq_of_shown hshown, hlines, List.append_assoc]
  rfl

end Disassembly

/-! ## 4. The labels of every listing -/

namespace Disassembly

variable (disassembly : Disassembly) (address : Address)

/-- A label in place occurs as often as its address was given one. -/
theorem count_label :
    disassembly.texts.count (Line.label address).chars = disassembly.placed.count address := by
  have hrest : [[]].count (Line.label address).chars = 0 := by
    rw [List.count_eq_zero]
    simp
  rw [texts, List.count_append, hrest, Line.count_chars Line.chars_eq_label_iff,
    filterMap_label?_lines, Nat.add_zero]

theorem count_definition :
    disassembly.texts.count (Line.definition address).chars =
      disassembly.outside.count address := by
  have hrest : [[]].count (Line.definition address).chars = 0 := by
    rw [List.count_eq_zero]
    simp
  rw [texts, List.count_append, hrest, Line.count_chars Line.chars_eq_definition_iff,
    filterMap_definition?_lines, Nat.add_zero]

/-- A label stands in place for the addresses that were given one. -/
theorem label_mem_texts_iff :
    (Line.label address).chars ∈ disassembly.texts ↔ address ∈ disassembly.placed := by
  rw [← List.count_pos_iff, count_label, List.count_pos_iff]

theorem definition_mem_texts_iff :
    (Line.definition address).chars ∈ disassembly.texts ↔ address ∈ disassembly.outside := by
  rw [← List.count_pos_iff, count_definition, List.count_pos_iff]

theorem exists_statement_of_mem_texts {text : List Char} (h : text ∈ disassembly.texts)
    (hshows : showsStatement text = true) :
    ∃ address statement, (address, statement) ∈ disassembly.shown ∧
      text = (Line.statement statement).chars := by
  rw [texts, List.mem_append, List.mem_singleton, List.mem_map] at h
  rcases h with ⟨line, hline, rfl⟩ | rfl
  · obtain ⟨statement, rfl⟩ := Line.exists_of_showsStatement hshows
    obtain ⟨address, hshown⟩ := exists_of_statement_mem_lines disassembly hline
    exact ⟨address, statement, hshown, rfl⟩
  · exact absurd hshows (by simp [showsStatement])

/-- Definitions stand in the order of their addresses, as texts too. -/
theorem pairwise_texts : disassembly.texts.Pairwise fun first second => ∀ address other,
    first = (Line.definition address).chars → second = (Line.definition other).chars →
      address < other := by
  have hincreasing := increasing_outside disassembly
  rw [← filterMap_definition?_lines, List.pairwise_filterMap] at hincreasing
  refine List.pairwise_append.mpr ⟨List.pairwise_map.mpr (hincreasing.imp ?_),
    List.pairwise_singleton _ _, ?_⟩
  · intro first second hless address other hfirst hsecond
    rw [Line.chars_eq_definition_iff] at hfirst hsecond
    exact hless _ hfirst _ hsecond
  · intro first _ second hsecond address other _ hother
    rw [List.mem_singleton.mp hsecond] at hother
    exact absurd hother (by simp)

end Disassembly

theorem isReferenced_ofStatements_iff (blocks : List DataBlock) (statements : List Statement)
    (address : Address) :
    (Disassembly.ofStatements blocks statements).IsReferenced address ↔
      Refers (addressed 0 statements) blocks address := by
  have hunits := any_addressed 0 statements fun statement => statement.target? == some address
  rw [Bool.eq_iff_iff] at hunits
  simp only [List.any_eq_true, beq_iff_eq] at hunits
  rw [Disassembly.IsReferenced, Disassembly.referenced_ofStatements_iff, Refers, hunits]

/-- A label in place needs a statement at its address, below the last one of memory. -/
theorem mem_placed_ofStatements_iff (blocks : List DataBlock) {statements : List Statement}
    (hroom : extent statements ≤ memorySize) {address : Address}
    (h : (Disassembly.ofStatements blocks statements).IsReferenced address) :
    address ∈ (Disassembly.ofStatements blocks statements).placed ↔
      (∃ statement, (address, statement) ∈ addressed 0 statements) ∧
        address.toNat < memorySize - 1 := by
  rw [Disassembly.mem_placed_iff, and_iff_left h]
  constructor
  · rintro ⟨statement, hshown⟩
    have hunit := (Disassembly.mem_shown_iff blocks hroom _).mp hshown
    exact ⟨⟨statement, hunit.1⟩, hunit.2⟩
  · rintro ⟨⟨statement, hunit⟩, hbelow⟩
    exact ⟨statement, (Disassembly.mem_shown_iff blocks hroom _).mpr ⟨hunit, hbelow⟩⟩

/-- In front of a shown unit, the body shows the units below its address. -/
theorem filter_lt_of_shown (blocks : List DataBlock) {statements : List Statement}
    (hroom : extent statements ≤ memorySize) {entry : Address × Statement}
    {before after : List (Address × Statement)}
    (h : (Disassembly.ofStatements blocks statements).shown = before ++ entry :: after) :
    (addressed 0 statements).filter (·.1 < entry.1) = before := by
  obtain ⟨others, hunits⟩ := Disassembly.shown_isPrefix blocks hroom
  have hzero : 0 + extent statements ≤ memorySize := by omega
  have hincreasing := increasing_addressed hzero
  rw [h, List.append_assoc, List.cons_append] at hunits
  rw [← hunits] at hincreasing ⊢
  exact Disassembly.filter_lt_of_increasing hincreasing

/-- The line behind a label shows the unit at its address. -/
theorem unit_behind_placed (blocks : List DataBlock) {statements : List Statement}
    (hroom : extent statements ≤ memorySize) {address : Address}
    (h : address ∈ (Disassembly.ofStatements blocks statements).placed) :
    ∃ statement before after, (address, statement) ∈ addressed 0 statements ∧
      (Disassembly.ofStatements blocks statements).texts =
        before ++ (Line.label address).chars :: (Line.statement statement).chars :: after ∧
      before.filter showsStatement =
        ((addressed 0 statements).filter (·.1 < address)).map
          fun entry => (Line.statement entry.2).chars := by
  obtain ⟨statement, before, after, rest, hshown, hlines⟩ :=
    Disassembly.exists_lines_of_mem_placed _ h
  have hmem : (address, statement) ∈ (Disassembly.ofStatements blocks statements).shown :=
    hshown ▸ List.mem_append_right _ List.mem_cons_self
  refine ⟨statement,
    ((Disassembly.ofStatements blocks statements).linesOfAll before).map Line.chars,
    rest.map Line.chars ++ [[]], ((Disassembly.mem_shown_iff blocks hroom _).mp hmem).1, ?_, ?_⟩
  · rw [Disassembly.texts, hlines, List.map_append, List.append_assoc]
    rfl
  · rw [Disassembly.filter_showsStatement, filter_lt_of_shown blocks hroom hshown]

/-- **Every reference has its label.** In the listing of every sweep that succeeds, the addresses
that a statement or the end of a block refers to have one label each: in place, directly in front of
the statement that starts there, if one does below the last address of memory, and defined
otherwise.  No other address has a label, no operand shows the label of another address, and the
definitions stand in increasing order. -/
theorem labels_of_result {stream : ByteStream} {blocks : List DataBlock}
    {disassembly : Disassembly} (h : (linearSweep stream blocks).result = .ok disassembly) :
    LabelledExactly (disassembly.render.1.toList.splitOn '\n') disassembly.statements
      (Refers disassembly.statements blocks) := by
  obtain ⟨statements, rfl, hfitting, hroom, -⟩ := exists_statements_of_result h
  have hwell := Disassembly.wellFormed_of_mem_shown blocks hfitting hroom
  have hreferenced := isReferenced_ofStatements_iff blocks statements
  have hlabelled := @Disassembly.labelled_ofStatements blocks statements
  have hincreasing := Disassembly.increasing_shown blocks hroom
  have hmem := Disassembly.mem_labels_iff hlabelled
  have hnodup := Disassembly.nodup_labels hlabelled hincreasing
  rw [Disassembly.splitOn_render _ hwell, Disassembly.statements_ofStatements hroom]
  constructor
  · intro address hrefers
    rw [← hreferenced, ← hmem] at hrefers
    rw [Disassembly.count_label, Disassembly.count_definition, ← List.count_append]
    exact (hnodup.count).trans (if_pos hrefers)
  · intro address hrefers
    rw [← hreferenced, ← hmem, Disassembly.labels, List.mem_append, not_or] at hrefers
    rwa [Disassembly.label_mem_texts_iff, Disassembly.definition_mem_texts_iff]
  · intro address hrefers
    rw [← hreferenced] at hrefers
    rw [Disassembly.label_mem_texts_iff]
    exact mem_placed_ofStatements_iff blocks hroom hrefers
  · intro address hrefers
    rw [← hreferenced] at hrefers
    rw [Disassembly.definition_mem_texts_iff, Disassembly.mem_outside_iff _ hlabelled,
      and_iff_right hrefers]
    exact not_congr (mem_placed_ofStatements_iff blocks hroom hrefers)
  · intro address hlabel
    rw [Disassembly.label_mem_texts_iff] at hlabel
    exact unit_behind_placed blocks hroom hlabel
  · intro text htext hshows address hlabel
    obtain ⟨place, statement, hshown, rfl⟩ :=
      Disassembly.exists_statement_of_mem_texts _ htext hshows
    refine Or.inl ⟨(place, statement), ((Disassembly.mem_shown_iff blocks hroom _).mp hshown).1, ?_⟩
    exact Statement.target?_of_label_mem (hwell _ hshown) hlabel
  · exact Disassembly.pairwise_texts _

/-- A jump to a byte of data, and an address inside that jump.  The byte has its label in place; the
address inside the jump and the one behind the data are defined. -/
theorem labels_of_result_of_short_program :
    let bytes := [0xc3, 0x06, 0x00, 0x01, 0x01, 0x00, 0x41]
    let blocks : List DataBlock := [⟨6, 1, by decide, by decide⟩]
    ∃ disassembly, (linearSweep (.ofBytes bytes) blocks).result = .ok disassembly ∧
      ∃ lines, disassembly.render.1.toList.splitOn '\n' = lines ∧
        "L0006:".toList ∈ lines ∧ "L0001\t= $0001".toList ∈ lines ∧
        "L0007\t= $0007".toList ∈ lines := by
  intro bytes blocks
  let units : List Statement :=
    [.instruction ⟨0xc3, "jmp", "", .word⟩ (.word 6),
      .instruction ⟨0x01, "lxi", "b,", .word⟩ (.word 1), .data 0x41]
  have hfitting : Fitting (DataBlock.covers blocks) 0 units :=
    fitting_of_wellFormed (by decide) (by decide)
  have hresult : (linearSweep (.ofBytes bytes) blocks).result = .ok (.ofStatements blocks units) :=
    result_of_fitting hfitting (by decide)
  have hunits : (Disassembly.ofStatements blocks units).statements = addressed 0 units :=
    Disassembly.statements_ofStatements (by decide)
  have hlabels := labels_of_result hresult
  rw [hunits] at hlabels
  have hdata : Refers (addressed 0 units) blocks 6 := Or.inl (by decide)
  have hinside : Refers (addressed 0 units) blocks 1 := Or.inl (by decide)
  have hbehind : Refers (addressed 0 units) blocks 7 := Or.inr (by decide)
  have hstarts : ∀ entry ∈ addressed 0 units, entry.1 ≠ 1 ∧ entry.1 ≠ 7 := by decide
  refine ⟨_, hresult, _, rfl, ?_, ?_, ?_⟩
  · exact (hlabels.label_mem_iff 6 hdata).mpr ⟨⟨.data 0x41, by decide⟩, by decide⟩
  · refine (hlabels.definition_mem_iff 1 hinside).mpr ?_
    rintro ⟨⟨statement, hunit⟩, -⟩
    exact (hstarts _ hunit).1 rfl
  · refine (hlabels.definition_mem_iff 7 hbehind).mpr ?_
    rintro ⟨⟨statement, hunit⟩, -⟩
    exact (hstarts _ hunit).2 rfl

end Disassembler8080
