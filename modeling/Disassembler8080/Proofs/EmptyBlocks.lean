/-
# An empty block asks for a label

A block of no bytes forces nothing, so a sweep with it decodes as it would without it.  What the
block still does is to ask for a label at its start, since that is where decoding resumes behind it.
So the disassembly is the old one with one more referenced address, or with none if the block stands
at the end of memory.

To a listing, one more referenced address is one more line.  If the body shows a statement at the
address, the line is a label in front of the statement, and otherwise it is a definition.  The
definitions before and after are two rows in increasing order that differ in one member, and so the
longer one is the other with that member put in its place.

Main statements:

* `result_of_empty_block`: what an empty block makes of the result of a sweep.
* `Disassembly.lines_refer_of_shown` and `Disassembly.lines_refer_of_not_shown`: listings with one
  more referenced address.
* `empty_block_adds_label`: an empty block adds one label line and nothing else.
-/
import Disassembler8080.Proofs.BlockUnion
import Disassembler8080.Proofs.Labels

namespace Disassembler8080

open Tiling

/-! ## 1. What an empty block adds -/

/-- Lines of a listing before and after an address was given a label.  The units tell in front of
which line the label belongs. -/
inductive OneLabelMore (units : List (Address × Statement)) (address : Address) :
    List (List Char) → List (List Char) → Prop
  /-- The label stands directly in front of the line of the unit at its address: the lines before
  that show the units below. -/
  | inPlace {statement : Statement} {front rest : List (List Char)}
    (hunit : (address, statement) ∈ units) (hbelow : address.toNat < 0xffff)
    (hfront : front.filter showsStatement =
      (units.filter (·.1 < address)).map fun entry => (Line.statement entry.2).chars) :
    OneLabelMore units address
      (front ++ (Line.statement statement).chars :: rest)
      (front ++ (Line.label address).chars :: (Line.statement statement).chars :: rest)
  /-- The label is defined behind the body, which ends with the first empty line: between the
  definitions of lower and of higher addresses. -/
  | defined {body : List (List Char)} {lower higher : List Address}
    (hnone : ¬ ((∃ statement, (address, statement) ∈ units) ∧ address.toNat < 0xffff))
    (hbody : [] ∉ body) (hlower : ∀ other ∈ lower, other < address)
    (hhigher : ∀ other ∈ higher, address < other) :
    OneLabelMore units address
      (body ++ [] :: (lower ++ higher).map (fun other => (Line.definition other).chars) ++
        [[], "end".toList, [], []])
      (body ++ [] :: (lower ++ address :: higher).map (fun other => (Line.definition other).chars) ++
        [[], "end".toList, [], []])

/-- Disassemblies that differ in the label at a number only, which may be the end of memory and then
is no address. -/
structure AddsLabel (start : Nat) (old new : Disassembly) : Prop where
  stop_eq : new.stop = old.stop
  statements_eq : new.statements = old.statements
  location_eq : ∀ address, new.map.location address =
    { old.map.location address with
      referenced := (old.map.location address).referenced || decide (address.toNat = start) }
  /-- The listings are the same if the address was referenced before, or is none. -/
  render_eq : (∀ address : Address, address.toNat = start → old.IsReferenced address) →
    new.render.1 = old.render.1
  /-- Otherwise the new listing is the old one with one line put in. -/
  one_more : ∀ address : Address, address.toNat = start → ¬ old.IsReferenced address →
    OneLabelMore old.statements address (old.render.1.toList.splitOn '\n')
      (new.render.1.toList.splitOn '\n')

/-! ## 2. Marks -/

namespace MemoryMap

theorem location_refer? (map : MemoryMap) (target? : Option Address) (address : Address) :
    (map.refer? target?).location address =
      { map.location address with
        referenced := (map.location address).referenced || target? == some address } := by
  cases target? with
  | none => simp [refer?]
  | some target => simp [refer?, location_refer, Bool.or_comm]

/-- Marks can be set before a statement is entered or after. -/
theorem enter_refer? (map : MemoryMap) (target? : Option Address) (entry : Address × Statement) :
    (map.refer? target?).enter entry = (map.enter entry).refer? target? := by
  refine ext_location fun address => ?_
  rw [location_enter, location_refer?, location_refer?, location_enter]
  simp only [Bool.or_right_comm]

theorem enterAll_refer? (map : MemoryMap) (target? : Option Address)
    (entries : List (Address × Statement)) :
    (map.refer? target?).enterAll entries = (map.enterAll entries).refer? target? := by
  induction entries generalizing map with
  | nil => rfl
  | cons entry rest ih =>
    rw [enterAll, List.foldl_cons, enter_refer?, ← enterAll, ih, enterAll, enterAll,
      List.foldl_cons]

end MemoryMap

namespace DataBlock

variable {block : DataBlock} (before after : List DataBlock)

theorem contains_of_empty (h : block.count.toNat = 0) (address : Address) :
    block.contains address = false := by
  rw [Bool.eq_false_iff, Ne, contains_iff]
  omega

theorem covers_of_empty (h : block.count.toNat = 0) :
    covers (before ++ block :: after) = covers (before ++ after) := by
  funext address
  rw [covers, covers, List.any_append, List.any_cons, contains_of_empty h, Bool.false_or,
    List.any_append]

/-- An empty block leaves the mark at its start. -/
theorem applyAll_of_empty (h : block.count.toNat = 0) :
    applyAll (before ++ block :: after) .blank =
      (applyAll (before ++ after) .blank).refer? block.resume? := by
  refine MemoryMap.ext_location fun address => ?_
  rw [MemoryMap.location_refer?, location_applyAll_blank, location_applyAll_blank,
    covers_of_empty before after h]
  simp only [List.any_append, List.any_cons, Bool.or_comm, Bool.or_left_comm]

end DataBlock

namespace Disassembly

/-- A disassembly in which one more address is referenced. -/
def refer (disassembly : Disassembly) (address : Address) : Disassembly :=
  { disassembly with map := disassembly.map.refer address }

/-- A disassembly in which one more address is referenced, if there is one. -/
def refer? (disassembly : Disassembly) : Option Address → Disassembly
  | some address => disassembly.refer address
  | none => disassembly

@[simp] theorem map_refer? (disassembly : Disassembly) (target? : Option Address) :
    (disassembly.refer? target?).map = disassembly.map.refer? target? := by
  cases target? <;> rfl

@[simp] theorem stop_refer? (disassembly : Disassembly) (target? : Option Address) :
    (disassembly.refer? target?).stop = disassembly.stop := by
  cases target? <;> rfl

@[simp] theorem statements_refer? (disassembly : Disassembly) (target? : Option Address) :
    (disassembly.refer? target?).statements = disassembly.statements := by
  cases target? <;> rfl

end Disassembly

/-- **What an empty block makes of the result of a sweep**: the same failure, or the same
disassembly with the start of the block referenced. -/
theorem result_of_empty_block {block : DataBlock} (h : block.count.toNat = 0)
    (before after : List DataBlock) (stream : ByteStream) :
    (linearSweep stream (before ++ block :: after)).result =
      (linearSweep stream (before ++ after)).result.map fun found =>
        found.refer? block.resume? := by
  have hcovers := DataBlock.covers_of_empty before after h
  rw [result_eq_verdict, result_eq_verdict, verdict_congr hcovers, statementsIn_congr hcovers,
    Disassembly.ofStatements, DataBlock.applyAll_of_empty before after h, MemoryMap.enterAll_refer?,
    Disassembly.ofStatements]
  cases verdict (before ++ after) stream.ready stream.failure? with
  | error failure => rfl
  | ok stop => cases block.resume? <;> rfl

/-! ## 3. One more referenced address -/

/-- A row in increasing order with one member more than another has it in its place. -/
theorem exists_place_of_mem_iff {short long : List Address} {address : Address}
    (hshort : short.Pairwise (· < ·)) (hlong : long.Pairwise (· < ·)) (hnot : address ∉ short)
    (h : ∀ other, other ∈ long ↔ other = address ∨ other ∈ short) :
    ∃ lower higher, short = lower ++ higher ∧ long = lower ++ address :: higher ∧
      (∀ other ∈ lower, other < address) ∧ ∀ other ∈ higher, address < other := by
  obtain ⟨lower, higher, rfl⟩ := List.append_of_mem ((h address).mpr (Or.inl rfl))
  obtain ⟨-, hrest, hacross⟩ := List.pairwise_append.mp hlong
  obtain ⟨hhigher, -⟩ := List.pairwise_cons.mp hrest
  have hlower : ∀ other ∈ lower, other < address :=
    fun other hother => hacross other hother address List.mem_cons_self
  have hwithout : (lower ++ higher).Sublist (lower ++ address :: higher) :=
    (List.sublist_cons_self address higher).append_left lower
  refine ⟨lower, higher, ?_, rfl, hlower, hhigher⟩
  refine hshort.eq_of_mem_iff (hlong.sublist hwithout) fun other => ?_
  constructor
  · intro hmem
    rcases List.mem_append.mp ((h other).mpr (Or.inr hmem)) with hmem' | hmem'
    · exact List.mem_append_left higher hmem'
    · rcases List.mem_cons.mp hmem' with rfl | hmem'
      · exact absurd hmem hnot
      · exact List.mem_append_right lower hmem'
  · intro hmem
    refine ((h other).mp (hwithout.subset hmem)).resolve_left ?_
    rintro rfl
    rcases List.mem_append.mp hmem with hmem' | hmem'
    · exact UInt16.lt_irrefl _ (hlower _ hmem')
    · exact UInt16.lt_irrefl _ (hhigher _ hmem')

namespace Disassembly

variable (disassembly : Disassembly) (address : Address)

theorem isReferenced_refer_iff (other : Address) :
    (disassembly.refer address).IsReferenced other ↔
      other = address ∨ disassembly.IsReferenced other := by
  rw [IsReferenced, refer, MemoryMap.location_refer, IsReferenced, Bool.or_eq_true, beq_iff_eq,
    eq_comm]

variable {disassembly address}

theorem refer_of_isReferenced (h : disassembly.IsReferenced address) :
    disassembly.refer address = disassembly := by
  have hmap : disassembly.map.refer address = disassembly.map := by
    refine MemoryMap.ext_location fun other => ?_
    rw [MemoryMap.location_refer]
    by_cases heq : address = other
    · subst heq
      rw [IsReferenced] at h
      rw [beq_self_eq_true, Bool.true_or, ← h]
    · rw [beq_eq_false_iff_ne.mpr heq, Bool.false_or]
  rw [refer, hmap]

theorem linesOf_eq (disassembly : Disassembly) (place : Address) (statement : Statement) :
    disassembly.linesOf place statement =
      if (disassembly.map.location place).referenced then [.label place, .statement statement]
      else [.statement statement] := rfl

/-- Statements at other addresses keep their lines. -/
theorem linesOfAll_refer {entries : List (Address × Statement)}
    (h : ∀ entry ∈ entries, entry.1 ≠ address) :
    (disassembly.refer address).linesOfAll entries = disassembly.linesOfAll entries := by
  refine List.flatMap_congr fun entry hentry => ?_
  rw [linesOf_eq, refer, MemoryMap.location_refer,
    beq_eq_false_iff_ne.mpr (h entry hentry).symm, Bool.false_or, linesOf_eq]

theorem mem_outside_refer_iff (other : Address) :
    other ∈ (disassembly.refer address).outside ↔
      other ∈ disassembly.outside ∨
        other = address ∧ (disassembly.map.location address).labelled = false ∧
          ¬ ∃ statement, (address, statement) ∈ disassembly.shown := by
  have hlabelled : ((disassembly.refer address).map.location other).labelled =
      (disassembly.map.location other).labelled := by
    rw [refer, MemoryMap.location_refer]
  have hshown : (disassembly.refer address).shown = disassembly.shown := rfl
  rw [mem_outside, mem_outside, mem_placed_iff, mem_placed_iff, isReferenced_refer_iff, hlabelled,
    hshown]
  by_cases heq : other = address
  · subst heq
    tauto
  · tauto

/-- **One more referenced address with a statement**: a label in front of that. -/
theorem lines_refer_of_shown {statement : Statement} (hincreasing : Increasing disassembly.shown)
    (hmem : (address, statement) ∈ disassembly.shown) (hnot : ¬ disassembly.IsReferenced address) :
    ∃ before after rest, disassembly.shown = before ++ (address, statement) :: after ∧
      disassembly.lines = disassembly.linesOfAll before ++ .statement statement :: rest ∧
      (disassembly.refer address).lines =
        disassembly.linesOfAll before ++ .label address :: .statement statement :: rest := by
  obtain ⟨before, after, hshown⟩ := List.append_of_mem hmem
  have hshown' : (disassembly.refer address).shown = before ++ (address, statement) :: after :=
    hshown
  have houtside : (disassembly.refer address).outside = disassembly.outside := by
    refine (increasing_outside _).eq_of_mem_iff (increasing_outside _) fun other => ?_
    rw [mem_outside_refer_iff]
    exact or_iff_left fun h => h.2.2 ⟨statement, hmem⟩
  have hbehind : (disassembly.refer address).behindBody = disassembly.behindBody := by
    rw [behindBody, houtside, behindBody]
  rw [hshown] at hincreasing
  obtain ⟨-, hrest, hbefore⟩ := List.pairwise_append.mp hincreasing
  obtain ⟨hafter, -⟩ := List.pairwise_cons.mp hrest
  have hfront : (disassembly.refer address).linesOfAll before = disassembly.linesOfAll before :=
    linesOfAll_refer fun entry hentry =>
      UInt16.ne_of_lt (hbefore entry hentry _ List.mem_cons_self)
  have hback : (disassembly.refer address).linesOfAll after = disassembly.linesOfAll after :=
    linesOfAll_refer fun entry hentry => (UInt16.ne_of_lt (hafter entry hentry)).symm
  refine ⟨before, after, disassembly.linesOfAll after ++ disassembly.behindBody, hshown, ?_, ?_⟩
  · have hline : disassembly.linesOf address statement = [.statement statement] := if_neg hnot
    rw [lines_eq_of_shown hshown, hline, List.append_assoc, List.singleton_append]
  · have hlines : (disassembly.refer address).linesOf address statement =
        [.label address, .statement statement] :=
      if_pos ((isReferenced_refer_iff disassembly address address).mpr (Or.inl rfl))
    rw [lines_eq_of_shown hshown', hlines, hfront, hback, hbehind, List.append_assoc]
    rfl

/-- **One more referenced address without a statement**: a definition in its place. -/
theorem lines_refer_of_not_shown (hnone : ¬ ∃ statement, (address, statement) ∈ disassembly.shown)
    (hlabelled : (disassembly.map.location address).labelled = false)
    (hnot : ¬ disassembly.IsReferenced address) :
    ∃ lower higher,
      disassembly.lines =
        disassembly.body ++ .blank :: (lower ++ higher).map .definition ++ closing ∧
      (disassembly.refer address).lines =
        disassembly.body ++ .blank :: (lower ++ address :: higher).map .definition ++ closing ∧
      (∀ other ∈ lower, other < address) ∧ ∀ other ∈ higher, address < other := by
  have hbody : (disassembly.refer address).body = disassembly.body := by
    rw [body_eq, body_eq]
    exact linesOfAll_refer fun entry hentry heq => hnone ⟨entry.2, heq ▸ hentry⟩
  have hdefined : address ∉ disassembly.outside :=
    fun hmem => hnot ((mem_outside disassembly address).mp hmem).1
  have hone : ∀ other, other ∈ (disassembly.refer address).outside ↔
      other = address ∨ other ∈ disassembly.outside := by
    intro other
    rw [mem_outside_refer_iff, and_iff_left ⟨hlabelled, hnone⟩, or_comm]
  obtain ⟨lower, higher, hold, hnew, hlower, hhigher⟩ :=
    exists_place_of_mem_iff (increasing_outside disassembly)
      (increasing_outside (disassembly.refer address)) hdefined hone
  refine ⟨lower, higher, ?_, ?_, hlower, hhigher⟩
  · rw [lines, front, hold]
  · rw [lines, front, hnew, hbody]

theorem nil_not_mem_body : [] ∉ disassembly.body.map Line.chars := by
  intro h
  obtain ⟨line, hline, htext⟩ := List.mem_map.mp h
  obtain ⟨entry, -, hentry⟩ := List.mem_flatMap.mp hline
  rcases (mem_linesOf_iff disassembly entry.1 entry.2 line).mp hentry with ⟨rfl, -⟩ | rfl
  · exact absurd htext (by simp)
  · exact absurd htext (by simp)

theorem texts_of_lines {body : List Line} {defined : List Address}
    (h : disassembly.lines = body ++ .blank :: defined.map .definition ++ closing) :
    disassembly.texts =
      body.map Line.chars ++ [] :: defined.map (fun other => (Line.definition other).chars) ++
        [[], "end".toList, [], []] := by
  rw [texts, h]
  simp [closing, Function.comp_def]

end Disassembly

/-! ## 4. Sweeps with an empty block -/

/-- The lines of what a sweep finds, with one more referenced address. -/
theorem oneLabelMore_refer {blocks : List DataBlock} {statements : List Statement}
    (hroom : extent statements ≤ memorySize) {address : Address}
    (hnot : ¬ (Disassembly.ofStatements blocks statements).IsReferenced address) :
    OneLabelMore (addressed 0 statements) address
      (Disassembly.ofStatements blocks statements).texts
      ((Disassembly.ofStatements blocks statements).refer address).texts := by
  have hincreasing := Disassembly.increasing_shown blocks hroom
  by_cases hshown : ∃ statement,
      (address, statement) ∈ (Disassembly.ofStatements blocks statements).shown
  · obtain ⟨statement, hmem⟩ := hshown
    obtain ⟨hunit, hbelow⟩ := (Disassembly.mem_shown_iff blocks hroom _).mp hmem
    obtain ⟨before, after, rest, hsplit, hold, hnew⟩ :=
      Disassembly.lines_refer_of_shown hincreasing hmem hnot
    rw [Disassembly.texts, Disassembly.texts, hold, hnew]
    simp only [List.map_append, List.map_cons, List.append_assoc, List.cons_append]
    refine .inPlace hunit hbelow ?_
    rw [Disassembly.filter_showsStatement, filter_lt_of_shown blocks hroom hsplit]
  · obtain ⟨lower, higher, hold, hnew, hlower, hhigher⟩ :=
      Disassembly.lines_refer_of_not_shown hshown (Disassembly.labelled_ofStatements address) hnot
    rw [Disassembly.texts_of_lines hold, Disassembly.texts_of_lines hnew]
    refine .defined ?_ Disassembly.nil_not_mem_body hlower hhigher
    rintro ⟨⟨statement, hunit⟩, hbelow⟩
    exact hshown ⟨statement, (Disassembly.mem_shown_iff blocks hroom _).mpr ⟨hunit, hbelow⟩⟩

/-- A disassembly that a sweep finds, with the start of an empty block referenced. -/
theorem addsLabel_refer? {blocks : List DataBlock} {statements : List Statement}
    (hfitting : Fitting (DataBlock.covers blocks) 0 statements)
    (hroom : extent statements ≤ memorySize) {target? : Option Address} {start : Nat}
    (htarget : ∀ address, target? = some address ↔ start = address.toNat) :
    AddsLabel start (.ofStatements blocks statements)
      ((Disassembly.ofStatements blocks statements).refer? target?) := by
  have hstatements : (Disassembly.ofStatements blocks statements).statements =
      addressed 0 statements := Disassembly.statements_ofStatements hroom
  have hwell := Disassembly.wellFormed_of_mem_shown blocks hfitting hroom
  refine ⟨Disassembly.stop_refer? _ _, Disassembly.statements_refer? _ _, ?_, ?_, ?_⟩
  · intro address
    have hmark : (target? == some address) = decide (address.toNat = start) := by
      rw [Bool.eq_iff_iff, beq_iff_eq, decide_eq_true_iff, htarget, eq_comm]
    rw [Disassembly.map_refer?, MemoryMap.location_refer?, hmark]
  · intro hreferenced
    cases target? with
    | none => rfl
    | some address =>
      have hstart := (htarget address).mp rfl
      rw [Disassembly.refer?, Disassembly.refer_of_isReferenced (hreferenced address hstart.symm)]
  · intro address hstart hnot
    have hwell' : ∀ entry ∈ ((Disassembly.ofStatements blocks statements).refer address).shown,
        entry.2.WellFormed := hwell
    rw [(htarget address).mpr hstart.symm, hstatements, Disassembly.splitOn_render _ hwell,
      Disassembly.refer?, Disassembly.splitOn_render _ hwell']
    exact oneLabelMore_refer hroom hnot

/-- **An empty block adds one label line and nothing else.**  Let a sweep succeed, and let an empty
block be put anywhere between its data blocks, at an address other than 0 or at the end of memory.
The sweep with that block succeeds too, and finds the same units up to the same stop with the same
addresses forced.  The listing is the same if the block stands at the end of memory or where
something referred to before, and has one line more otherwise, with the label of its address. -/
theorem empty_block_adds_label {stream : ByteStream} {before after : List DataBlock}
    {old : Disassembly} {start : UInt64} (hpos : 1 ≤ start.toNat) (hle : start.toNat ≤ memorySize)
    (h : (linearSweep stream (before ++ after)).result = .ok old) :
    ∃ block new, DataBlock.ofNumbers start 0 = .ok block ∧
      (linearSweep stream (before ++ block :: after)).result = .ok new ∧
      AddsLabel start.toNat old new := by
  obtain ⟨block, hblock⟩ : ∃ block, DataBlock.ofNumbers start 0 = .ok block :=
    (DataBlock.exists_ofNumbers_iff start 0).mpr ⟨hpos, hle⟩
  obtain ⟨hstart, hcount⟩ := (DataBlock.ofNumbers_eq_ok_iff start 0 block).mp hblock
  have hempty : block.count.toNat = 0 := hcount
  have hresume : ∀ address, block.resume? = some address ↔ start.toNat = address.toNat := by
    intro address
    rw [block.resume?_eq_some_iff, hempty, Nat.add_zero, hstart]
  have hresult := result_of_empty_block hempty before after stream
  rw [h] at hresult
  obtain ⟨statements, rfl, hfitting, hroom, -⟩ := exists_statements_of_result h
  exact ⟨block, _, hblock, hresult, addsLabel_refer? hfitting hroom hresume⟩

/-- Two instructions of one byte, and an empty block between them: the second one gets a label. -/
theorem empty_block_adds_label_in_place :
    ∃ block old new, DataBlock.ofNumbers 1 0 = .ok block ∧
      (linearSweep (.ofBytes [0x00, 0x00]) []).result = .ok old ∧
      (linearSweep (.ofBytes [0x00, 0x00]) [block]).result = .ok new ∧
      ∃ front rest, old.render.1.toList.splitOn '\n' = front ++ "\tnop".toList :: rest ∧
        new.render.1.toList.splitOn '\n' =
          front ++ "L0001:".toList :: "\tnop".toList :: rest := by
  let nop : Statement := .instruction ⟨0x00, "nop", "", .none⟩ .none
  let units : List Statement := [nop, nop]
  have hfitting : Fitting (DataBlock.covers []) 0 units :=
    fitting_of_wellFormed (by decide) (by decide)
  have hresult : (linearSweep (.ofBytes [0x00, 0x00]) ([] ++ [])).result =
      .ok (.ofStatements [] units) :=
    result_of_fitting hfitting (by decide)
  have hunits : (Disassembly.ofStatements [] units).statements = addressed 0 units :=
    Disassembly.statements_ofStatements (by decide)
  have hpos : 1 ≤ (1 : UInt64).toNat := by decide
  obtain ⟨block, new, hblock, hnew, hadds⟩ := empty_block_adds_label hpos (by decide) hresult
  have hfree : ¬ (Disassembly.ofStatements [] units).IsReferenced 1 := by
    rw [Disassembly.IsReferenced, Disassembly.referenced_ofStatements_iff]
    decide
  have hmore := hadds.one_more 1 rfl hfree
  rw [hunits] at hmore
  refine ⟨block, _, new, hblock, hresult, hnew, ?_⟩
  generalize (Disassembly.ofStatements [] units).render.1.toList.splitOn '\n' = rows at hmore ⊢
  generalize new.render.1.toList.splitOn '\n' = rows' at hmore ⊢
  cases hmore with
  | @inPlace statement front rest hunit =>
    have hnop : ∀ entry ∈ addressed 0 units, entry.2 = nop := by decide
    obtain rfl : statement = nop := hnop _ hunit
    exact ⟨front, rest, rfl, rfl⟩
  | defined hnone => exact absurd ⟨⟨nop, by decide⟩, by decide⟩ hnone

end Disassembler8080
