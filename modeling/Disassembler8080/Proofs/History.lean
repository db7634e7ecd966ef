/-
# What a disassembly remembers

A disassembly can be worked on in any order: addresses are marked, statements are placed, one over
another if need be, blocks of data are applied, the stop is moved, and listings are written in
between, some of which break off.  This file says what is known of an address behind any such
history.

A mark is there because of an operation that made it, and no operation takes one away.  For three of
the four things known of an address one can tell from the operation alone whether it was such an
operation.  Not so for the label: whether a listing labels an address depends on what the
disassembly held when the listing was written, and on how much of it the writer took.  So a cause is
a relation between an operation and the disassembly that it finds.

Main statements:

* `Disassembly.outputsLabel_iff`: the label lines that a listing outputs to the end are those that
  leave a mark.
* `Disassembly.changes_operate`: what an operation does to each address.
* `Disassembly.CausedBy.operateAll_iff`: what one operation brings about, a run does.
* `Disassembly.remembers_operateAll`: what a run of operations leaves, and that no mark gets lost.
-/
import Disassembler8080.Proofs.Interruption
import Mathlib.Data.List.Induction

namespace Disassembler8080

/-! ## 1. What a listing outputs -/

/-- A front part of bytes is taken whole exactly if it is a front part of what fits. -/
theorem Writer.put_snd_eq_none_iff_prefix (writer : Writer) {front : ByteArray}
    {bytes : List UInt8} (h : front.data.toList <+: bytes) :
    (writer.put front).2 = none ↔ front.data.toList <+: writer.fitting bytes := by
  rw [put_snd_eq_none_iff, fitting]
  cases writer.room with
  | none => simp [h]
  | some room => simp [List.prefix_take_iff, h]

namespace Disassembly

/-- The bytes that arrive of a listing. -/
def output (disassembly : Disassembly) : Attempt → List UInt8
  | .write writer => (disassembly.write writer).writer.bytes.drop writer.bytes.length
  | .render => Text.bytes disassembly.render.1

/-- Whether a listing has the label of an address in place, and what arrives of the listing goes as
far as the end of that line. -/
def OutputsLabel (disassembly : Disassembly) (attempt : Attempt) (address : Address) : Prop :=
  ∃ before after, disassembly.lines = before ++ .label address :: after ∧
    Text.bytes (String.join ((before ++ [.label address]).map Line.written)) <+:
      disassembly.output attempt

theorem output_write (disassembly : Disassembly) (writer : Writer) :
    disassembly.output (.write writer) = writer.fitting (Text.bytes disassembly.listing) := by
  rw [output, (disassembly.write_eq writer).1, Writer.bytes_put, List.drop_left]
  rfl

theorem output_render (disassembly : Disassembly) :
    disassembly.output .render = disassembly.output (.write .unbounded) := by
  rw [output_write, output, render_fst]
  rfl

/-- **The label lines that arrive to their ends** are those that the writer takes whole. -/
theorem outputsLabel_iff (disassembly : Disassembly) (writer : Writer) (address : Address) :
    disassembly.OutputsLabel (.write writer) address ↔
      .label address ∈ writer.whole disassembly.lines := by
  rw [OutputsLabel, Writer.mem_whole_iff]
  refine exists_congr fun before => exists_congr fun after => and_congr_right fun hlines => ?_
  have hfront : Text.bytes (String.join ((before ++ [Line.label address]).map Line.written)) <+:
      Text.bytes disassembly.listing := by
    refine ⟨Text.bytes (String.join (after.map Line.written)), ?_⟩
    rw [← Text.bytes_append, Text.bytes_inj, listing, hlines]
    simp [String.append_assoc]
  rw [output_write]
  exact (writer.put_snd_eq_none_iff_prefix hfront).symm

/-- A listing changes nothing but the marks of its labels, which are those that arrive. -/
theorem location_after (disassembly : Disassembly) (attempt : Attempt) (address : Address) :
    (disassembly.after attempt).map.location address =
      { disassembly.map.location address with
        labelled := ((disassembly.after attempt).map.location address).labelled } :=
  congrArg (fun later => later.map.location address)
    (disassembly.markedFrom_after attempt).eq_first

/-- The labels marked behind a listing are those of before and those that arrive. -/
theorem labelled_after_iff (disassembly : Disassembly) (attempt : Attempt) (address : Address) :
    ((disassembly.after attempt).map.location address).labelled = true ↔
      (disassembly.map.location address).labelled = true ∨
        disassembly.OutputsLabel attempt address := by
  have hwrite : ∀ writer,
      ((disassembly.write writer).disassembly.map.location address).labelled = true ↔
        (disassembly.map.location address).labelled = true ∨
          disassembly.OutputsLabel (.write writer) address := by
    intro writer
    rw [labelled_write_iff, outputsLabel_iff]
  cases attempt with
  | write writer => exact hwrite writer
  | render =>
    rw [OutputsLabel, output_render]
    exact hwrite .unbounded

end Disassembly

/-! ## 2. Operations -/

/-- One thing that can be done to a disassembly. -/
inductive Operation where
  | refer (address : Address)
  | force (address : Address)
  | markLabelled (address : Address)
  | place (address : Address) (statement : Statement)
  /-- Applying the block of data of two numbers, if they make one. -/
  | apply (start count : UInt64)
  | setStop (stop : Nat)
  /-- A listing, which may break off. -/
  | list (attempt : Attempt)

namespace Operation

/-- The block that an operation applies. -/
def block? : Operation → Option DataBlock
  | .apply start count => (DataBlock.ofNumbers start count).toOption
  | _ => none

/-- The statement that an operation places at an address. -/
def placed? (address : Address) : Operation → Option Statement
  | .place other statement => if other = address then some statement else none
  | _ => none

/-- Whether an operation refers to an address: by itself, or as the address where decoding resumes
behind the block that it applies. -/
def Refers (operation : Operation) (address : Address) : Prop :=
  operation = .refer address ∨ ∃ block ∈ operation.block?, block.resume? = some address

/-- Whether an operation forces an address: by itself, or as one of the block that it applies. -/
def Forces (operation : Operation) (address : Address) : Prop :=
  operation = .force address ∨ ∃ block ∈ operation.block?, block.contains address = true

end Operation

namespace Disassembly

/-- What an operation makes of a disassembly. -/
def operate (disassembly : Disassembly) : Operation → Disassembly
  | .refer address => { disassembly with map := disassembly.map.refer address }
  | .force address => { disassembly with map := disassembly.map.force address }
  | .markLabelled address => { disassembly with map := disassembly.map.markLabelled address }
  | .place address statement =>
    { disassembly with map := disassembly.map.place address statement }
  | .apply start count =>
    match DataBlock.ofNumbers start count with
    | .ok block => { disassembly with map := block.apply disassembly.map }
    | .error _ => disassembly
  | .setStop stop => { disassembly with stop := stop }
  | .list attempt => disassembly.after attempt

/-- What operations one after the other make of a disassembly. -/
def operateAll (disassembly : Disassembly) (operations : List Operation) : Disassembly :=
  operations.foldl operate disassembly

/-- Whether an operation labels an address in a disassembly: by itself, or by a listing that outputs
the line of its label. -/
def Labels (disassembly : Disassembly) (operation : Operation) (address : Address) : Prop :=
  operation = .markLabelled address ∨
    ∃ attempt, operation = .list attempt ∧ disassembly.OutputsLabel attempt address

/-! ## 3. What one operation does -/

variable (disassembly : Disassembly) (operation : Operation) (address : Address)

/-- Applying two numbers does what their block does to each address, if they make one. -/
theorem location_operate_apply (start count : UInt64) :
    (disassembly.operate (.apply start count)).map.location address =
      { disassembly.map.location address with
        referenced := (disassembly.map.location address).referenced ||
          ((Operation.apply start count).block?.any fun block => block.resume? == some address)
        forced := (disassembly.map.location address).forced ||
          ((Operation.apply start count).block?.any fun block => block.contains address) } := by
  simp only [operate, Operation.block?]
  cases DataBlock.ofNumbers start count with
  | ok block => exact DataBlock.location_apply _ _ _
  | error failure => simp [Except.toOption]

/-- All that an operation should do to an address of the disassembly that it finds. -/
structure Changes (found : Disassembly) (operation : Operation) (address : Address) : Prop where
  referenced_iff : ((found.operate operation).map.location address).referenced = true ↔
    (found.map.location address).referenced = true ∨ operation.Refers address
  forced_iff : ((found.operate operation).map.location address).forced = true ↔
    (found.map.location address).forced = true ∨ operation.Forces address
  labelled_iff : ((found.operate operation).map.location address).labelled = true ↔
    (found.map.location address).labelled = true ∨ found.Labels operation address
  statement_eq : ((found.operate operation).map.location address).statement =
    (operation.placed? address).or (found.map.location address).statement

/-- **What an operation does to each address**: it makes the marks that it causes, puts the
statement there that it places, and leaves all else. -/
theorem changes_operate : Changes disassembly operation address := by
  cases operation with
  | refer other =>
    constructor <;> simp [operate, Operation.Refers, Operation.Forces, Operation.block?,
      Operation.placed?, Labels, MemoryMap.location_refer, or_comm]
  | force other =>
    constructor <;> simp [operate, Operation.Refers, Operation.Forces, Operation.block?,
      Operation.placed?, Labels, MemoryMap.location_force, or_comm]
  | markLabelled other =>
    constructor <;> simp [operate, Operation.Refers, Operation.Forces, Operation.block?,
      Operation.placed?, Labels, MemoryMap.location_markLabelled, or_comm]
  | place other statement =>
    by_cases hother : other = address <;> constructor <;>
      simp [operate, Operation.Refers, Operation.Forces, Operation.block?, Operation.placed?,
        Labels, MemoryMap.location_place, hother]
  | apply start count =>
    constructor <;> simp [location_operate_apply, Operation.Refers, Operation.Forces,
      Operation.placed?, Labels, Option.any_eq_true]
  | setStop stop =>
    constructor <;> simp [operate, Operation.Refers, Operation.Forces, Operation.block?,
      Operation.placed?, Labels]
  | list attempt =>
    constructor
    · rw [operate, location_after]
      simp [Operation.Refers, Operation.block?]
    · rw [operate, location_after]
      simp [Operation.Forces, Operation.block?]
    · rw [operate, labelled_after_iff]
      simp [Labels]
    · rw [operate, location_after]
      simp [Operation.placed?]

/-! ## 4. What a run does -/

/-- Whether a cause is among the operations of a run.  It is looked for in each operation together
with the disassembly that the operation finds. -/
def Happens (causes : Disassembly → Operation → Prop) (start : Disassembly)
    (operations : List Operation) : Prop :=
  ∃ before operation after, operations = before ++ operation :: after ∧
    causes (start.operateAll before) operation

variable (causes : Disassembly → Operation → Prop) (start : Disassembly)
  (operations later : List Operation)

theorem operateAll_append :
    start.operateAll (operations ++ later) = (start.operateAll operations).operateAll later :=
  List.foldl_append

theorem operateAll_concat :
    start.operateAll (operations ++ [operation]) =
      (start.operateAll operations).operate operation :=
  operateAll_append _ _ _

/-- A cause is the last operation of a run or is among the others. -/
theorem happens_concat_iff :
    Happens causes start (operations ++ [operation]) ↔
      Happens causes start operations ∨ causes (start.operateAll operations) operation := by
  constructor
  · rintro ⟨before, found, after, hsplit, hcause⟩
    rcases List.eq_nil_or_concat after with rfl | ⟨front, last, rfl⟩
    · obtain ⟨rfl, hlast⟩ := List.append_inj' hsplit rfl
      cases hlast
      exact Or.inr hcause
    · rw [List.concat_eq_append, ← List.cons_append, ← List.append_assoc] at hsplit
      obtain ⟨hfront, -⟩ := List.append_inj' hsplit rfl
      exact Or.inl ⟨before, found, front, hfront, hcause⟩
  · rintro (⟨before, found, after, rfl, hcause⟩ | hcause)
    · exact ⟨before, found, after ++ [operation], by simp, hcause⟩
    · exact ⟨operations, operation, [], rfl, hcause⟩

/-- A cause that does not depend on the disassembly is one of the operations. -/
theorem happens_iff_mem (kind : Operation → Prop) :
    Happens (fun _ operation => kind operation) start operations ↔
      ∃ operation ∈ operations, kind operation := by
  constructor
  · rintro ⟨before, found, after, rfl, hkind⟩
    exact ⟨found, by simp, hkind⟩
  · rintro ⟨found, hmem, hkind⟩
    obtain ⟨before, after, hsplit⟩ := List.append_of_mem hmem
    exact ⟨before, found, after, hsplit, hkind⟩

/-- Something that holds behind an operation exactly if it held before or if the operation is a
cause of it, which it may be by what it finds. -/
def CausedBy (holds : Disassembly → Prop) (causes : Disassembly → Operation → Prop) : Prop :=
  ∀ disassembly operation,
    holds (disassembly.operate operation) ↔ holds disassembly ∨ causes disassembly operation

/-- **What one operation brings about, a run does**: it holds behind a run exactly if it held at the
start or if one of its causes has happened. -/
theorem CausedBy.operateAll_iff {holds : Disassembly → Prop}
    {causes : Disassembly → Operation → Prop} (h : CausedBy holds causes) (start : Disassembly)
    (operations : List Operation) :
    holds (start.operateAll operations) ↔ holds start ∨ Happens causes start operations := by
  induction operations using List.reverseRecOn with
  | nil =>
    refine (or_iff_left ?_).symm
    rintro ⟨before, operation, after, hsplit, -⟩
    exact absurd hsplit (by simp)
  | append_singleton front operation ih =>
    rw [operateAll_concat, h, ih, happens_concat_iff, or_assoc]

theorem CausedBy.operateAll_append {holds : Disassembly → Prop}
    {causes : Disassembly → Operation → Prop} (h : CausedBy holds causes) (start : Disassembly)
    (operations later : List Operation) (hholds : holds (start.operateAll operations)) :
    holds (start.operateAll (operations ++ later)) := by
  rw [Disassembly.operateAll_append]
  exact (h.operateAll_iff _ later).mpr (Or.inl hholds)

theorem referenced_causedBy :
    CausedBy (fun found => (found.map.location address).referenced = true)
      fun _ operation => operation.Refers address :=
  fun found operation => (changes_operate found operation address).referenced_iff

theorem forced_causedBy :
    CausedBy (fun found => (found.map.location address).forced = true)
      fun _ operation => operation.Forces address :=
  fun found operation => (changes_operate found operation address).forced_iff

/-- An address is labelled by operations that label it in the disassembly that they find. -/
theorem labelled_causedBy :
    CausedBy (fun found => (found.map.location address).labelled = true)
      fun found operation => found.Labels operation address :=
  fun found operation => (changes_operate found operation address).labelled_iff

/-- The statement at an address is the last one placed there. -/
theorem statement_operateAll :
    ((start.operateAll operations).map.location address).statement =
      (operations.filterMap (Operation.placed? address)).getLast?.or
        (start.map.location address).statement := by
  induction operations using List.reverseRecOn with
  | nil => rfl
  | append_singleton front operation ih =>
    rw [operateAll_concat, (changes_operate _ operation address).statement_eq, ih,
      List.filterMap_append, List.getLast?_append, Option.or_assoc]
    congr 1
    cases hplaced : operation.placed? address <;> simp [hplaced]

/-- What should be left of a disassembly behind a run of operations. -/
structure Remembers (start : Disassembly) (operations : List Operation) (now : Disassembly) :
    Prop where
  referenced_iff : ∀ address, (now.map.location address).referenced = true ↔
    (start.map.location address).referenced = true ∨
      ∃ operation ∈ operations, operation.Refers address
  forced_iff : ∀ address, (now.map.location address).forced = true ↔
    (start.map.location address).forced = true ∨
      ∃ operation ∈ operations, operation.Forces address
  /-- The last statement placed at an address stands there, and if none was placed, the one of the
  start does. -/
  statement_eq : ∀ address, (now.map.location address).statement =
    (operations.filterMap (Operation.placed? address)).getLast?.or
      (start.map.location address).statement
  /-- Labelled are the addresses marked so and those whose label line an earlier listing has output
  to its end. -/
  labelled_iff : ∀ address, (now.map.location address).labelled = true ↔
    Happens (fun found operation => found.Labels operation address) start operations

/-- A disassembly whose marks another one still has. -/
structure KeepsMarks (first later : Disassembly) : Prop where
  referenced : ∀ address, (first.map.location address).referenced = true →
    (later.map.location address).referenced = true
  forced : ∀ address, (first.map.location address).forced = true →
    (later.map.location address).forced = true
  labelled : ∀ address, (first.map.location address).labelled = true →
    (later.map.location address).labelled = true

/-- A disassembly that has not been worked on: of blank memory, with any stop, or as a sweep has
found it. -/
def Fresh (disassembly : Disassembly) : Prop :=
  disassembly.map = .blank ∨
    ∃ stream blocks, (linearSweep stream blocks).result = .ok disassembly

theorem Fresh.labelled_eq {disassembly : Disassembly} (h : disassembly.Fresh) (address : Address) :
    (disassembly.map.location address).labelled = false := by
  rcases h with hblank | ⟨stream, blocks, hresult⟩
  · rw [hblank, MemoryMap.location_blank]
  · obtain ⟨statements, rfl, -⟩ := exists_statements_of_result hresult
    exact labelled_ofStatements address

/-- **What a disassembly remembers.**  Behind any operations, in any order, an address is referenced
or forced exactly if it was so at the start or if an operation has made it so, and it has the
statement that was placed there last.  It is labelled exactly if it was marked so, or if a listing
has output the line of its label to the end, wherever that listing broke off then.  Further
operations take no mark away. -/
theorem remembers_operateAll {start : Disassembly} (h : start.Fresh)
    (operations later : List Operation) :
    Remembers start operations (start.operateAll operations) ∧
      KeepsMarks (start.operateAll operations) (start.operateAll (operations ++ later)) := by
  constructor
  · constructor
    · intro address
      rw [← happens_iff_mem start]
      exact (referenced_causedBy address).operateAll_iff start operations
    · intro address
      rw [← happens_iff_mem start]
      exact (forced_causedBy address).operateAll_iff start operations
    · exact fun address => statement_operateAll address start operations
    · intro address
      have hunlabelled : ¬ (start.map.location address).labelled = true := by
        rw [h.labelled_eq address]
        exact Bool.false_ne_true
      exact ((labelled_causedBy address).operateAll_iff start operations).trans
        (or_iff_right hunlabelled)
  · constructor
    · exact fun address => (referenced_causedBy address).operateAll_append start operations later
    · exact fun address => (forced_causedBy address).operateAll_append start operations later
    · exact fun address => (labelled_causedBy address).operateAll_append start operations later

/-- A listing that breaks off in front of the line feed of a label, behind a block that does not lie
in memory, and one that takes the label line and nothing more. -/
theorem remembers_operateAll_of_broken_listing :
    let start : Disassembly := {}
    let broken : List Operation := [.refer 0, .place 0 (.data 0x41), .apply 0xffff 2, .setStop 1,
      .list (.write { room := some 6 })]
    let again : List Operation := [.list (.write { room := some 7 })]
    start.Fresh ∧ Remembers start broken (start.operateAll broken) ∧
      KeepsMarks (start.operateAll broken) (start.operateAll (broken ++ again)) ∧
      (start.operateAll broken).map.location 0 =
        { statement := some (.data 0x41), referenced := true } ∧
      (start.operateAll (broken ++ again)).map.location 0 =
        { statement := some (.data 0x41), referenced := true, labelled := true } := by
  intro start broken again
  have hfresh : start.Fresh := Or.inl rfl
  obtain ⟨hremembers, hkeeps⟩ := remembers_operateAll hfresh broken again
  refine ⟨hfresh, hremembers, hkeeps, ?_, ?_⟩
  · decide
  · decide

end Disassembly

end Disassembler8080
