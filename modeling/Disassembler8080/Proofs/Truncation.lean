/-
# Sweeps of input that was cut off

A sweep never looks ahead: what it makes of a byte depends on the bytes up to the end of the
statement that the byte belongs to, and on nothing behind it.  So where the input of a sweep that
succeeds is cut off between two statements, the sweep of the front part succeeds and finds the same
statements as far as they go.  Where it is cut off inside a statement, the sweep fails in that
statement.

Behind this is that no encoding begins with another one: a statement that has lost its last bytes is
not read as a shorter statement.

Main statements:

* `Statement.front?_take_encode`: there is no statement in front of a part of an encoding.
* `tiles_of_part`: the cut of a row that ends inside a statement stops in front of it.
* `sweep_of_cut_input`: sweeps of the front parts of an input.
-/
import Disassembler8080.Proofs.Coverage

namespace Disassembler8080

open Tiling

/-! ## 1. Parts of an encoding -/

/-- **There is no statement in front of a part of an encoding.** -/
theorem Statement.front?_take_encode {forced : Bool} {statement : Statement}
    (hwell : statement.WellFormed) (hsuits : statement.Suits forced) {count : Nat}
    (hcount : count < statement.size) : front? forced (statement.encode.take count) = none := by
  cases hfront : front? forced (statement.encode.take count) with
  | none => rfl
  | some other =>
    -- it would be in front of the whole encoding as well, and so be the statement itself
    obtain ⟨hother, hfits, hpart⟩ := (front?_eq_some_iff _ _ _).mp hfront
    have hwhole : front? forced statement.encode = some other :=
      (front?_eq_some_iff _ _ _).mpr ⟨hother, hfits, hpart.trans (List.take_prefix _ _)⟩
    have hself := front?_encode_append hwell hsuits []
    rw [List.append_nil, hwhole, Option.some.injEq] at hself
    subst hself
    have hlength := hpart.length_le
    rw [List.length_take, length_encode hwell] at hlength
    omega

namespace Tiling

variable {forced : Address → Bool} {address count : Nat} {before after : List Statement}
  {statement : Statement}

/-- The bytes of a row up to a place inside a statement: the statements before it, and a part of
its encoding. -/
theorem take_flatMap_encode (h : Fitting forced address (before ++ statement :: after))
    (hcount : count ≤ statement.size) :
    ((before ++ statement :: after).flatMap Statement.encode).take (extent before + count) =
      before.flatMap Statement.encode ++ statement.encode.take count := by
  have hmem : statement ∈ before ++ statement :: after :=
    List.mem_append_right _ List.mem_cons_self
  have hlength := Statement.length_encode (h.wellFormed statement hmem)
  rw [List.flatMap_append, List.flatMap_cons, ← length_flatMap_encode h.left,
    List.take_length_add_append, List.take_append_of_le_length (by omega)]

/-- **The cut of a row that ends inside a statement stops in front of that statement.** -/
theorem tiles_of_part (h : Fitting forced address (before ++ statement :: after))
    (hcount : count < statement.size) :
    tiles forced address (before.flatMap Statement.encode ++ statement.encode.take count) =
      before := by
  obtain ⟨⟨hwell, hsuits⟩, -⟩ := fitting_cons_iff.mp h.right
  rw [tiles_flatMap_encode h.left,
    tiles_of_front?_none (Statement.front?_take_encode hwell hsuits hcount), List.append_nil]

theorem filter_lt_extent (h : extent (before ++ after) ≤ memorySize) :
    (addressed 0 (before ++ after)).filter (fun entry => entry.1.toNat < extent before) =
      addressed 0 before := by
  rw [extent_append] at h
  rw [addressed_append, List.filter_append, List.filter_eq_self.mpr, List.filter_eq_nil_iff.mpr,
    List.append_nil]
  · rintro ⟨place, statement⟩ hmem
    have hbounds := bounds_of_mem_addressed (by omega) hmem
    simp only [decide_eq_true_eq]
    omega
  · rintro ⟨place, statement⟩ hmem
    have hbounds := bounds_of_mem_addressed (by omega) hmem
    have hpos := statement.size_pos
    simp only [decide_eq_true_eq]
    omega

end Tiling

/-! ## 2. Sweeps of the front part -/

/-- Whether the front part of a disassembly of some length ends between two statements: at the stop,
or where a statement starts. -/
def Disassembly.IsBoundary (disassembly : Disassembly) (count : Nat) : Prop :=
  count = disassembly.stop ∨ ∃ entry ∈ disassembly.statements, entry.1.toNat = count

variable {blocks : List DataBlock} {statements before after : List Statement}
  {statement : Statement} {count : Nat}

/-- The boundaries of a row are the ends of its front parts. -/
theorem isBoundary_ofStatements_iff (hroom : extent statements ≤ memorySize) :
    (Disassembly.ofStatements blocks statements).IsBoundary count ↔
      ∃ before after, statements = before ++ after ∧ extent before = count := by
  rw [Disassembly.IsBoundary, Disassembly.statements_ofStatements hroom]
  constructor
  · rintro (rfl | ⟨⟨place, statement⟩, hmem, rfl⟩)
    · exact ⟨statements, [], (List.append_nil _).symm, rfl⟩
    · obtain ⟨before, after, rfl, hplace⟩ := (mem_addressed_zero_iff hroom).mp hmem
      exact ⟨before, statement :: after, rfl, hplace.symm⟩
  · rintro ⟨before, after, rfl, rfl⟩
    cases after with
    | nil => exact Or.inl (by rw [List.append_nil]; rfl)
    | cons statement others =>
      have hplace := toNat_extent hroom
      refine Or.inr ⟨(UInt16.ofNat (extent before), statement), ?_, hplace⟩
      exact (mem_addressed_zero_iff hroom).mpr ⟨before, others, rfl, hplace⟩

/-- A sweep of bytes that end between two statements finds the statements before that. -/
theorem result_of_boundary {bytes : List UInt8}
    (hfitting : Fitting (DataBlock.covers blocks) 0 (before ++ after))
    (hroom : extent (before ++ after) ≤ memorySize)
    (hbytes : bytes = ((before ++ after).flatMap Statement.encode).take (extent before)) :
    (linearSweep (.ofBytes bytes) blocks).result = .ok (.ofStatements blocks before) := by
  rw [hbytes, List.flatMap_append, ← length_flatMap_encode hfitting.left, List.take_left]
  rw [extent_append] at hroom
  exact result_of_fitting hfitting.left (by omega)

/-- A sweep of bytes that end inside a statement is cut short in that statement. -/
theorem result_of_inside {bytes : List UInt8}
    (hfitting : Fitting (DataBlock.covers blocks) 0 (before ++ statement :: after))
    (hroom : extent (before ++ statement :: after) ≤ memorySize) (hpos : 0 < count)
    (hcount : count < statement.size)
    (hbytes : bytes =
      ((before ++ statement :: after).flatMap Statement.encode).take (extent before + count)) :
    (linearSweep (.ofBytes bytes) blocks).result =
      .error (.cutShort (UInt16.ofNat (extent before))) := by
  have hlength : bytes.length = extent before + count := by
    rw [hbytes, List.length_take, length_flatMap_encode hfitting, extent_append, extent_cons]
    omega
  rw [extent_append, extent_cons] at hroom
  refine result_of_part_cut ?_ (by omega) (by omega)
  rw [hbytes, take_flatMap_encode hfitting (Nat.le_of_lt hcount)]
  exact tiles_of_part hfitting hcount

/-- **Sweeps of input that was cut off.** Let a sweep of a stream succeed, and let its first bytes
be swept with the same data blocks, in whatever pieces they come.  This succeeds exactly if they end
at the stop of the whole sweep or where one of its statements starts, and then finds the statements
that start in front of that.  Otherwise it is cut short in the statement of the whole sweep that
covers the place where the bytes end. -/
theorem sweep_of_cut_input {stream cut : ByteStream} {blocks : List DataBlock}
    {disassembly : Disassembly} {count : Nat}
    (h : (linearSweep stream blocks).result = .ok disassembly) (hcount : count ≤ disassembly.stop)
    (hcut : cut.DataOnly) (hbytes : cut.bytes = stream.bytes.take count) :
    ((∃ short, (linearSweep cut blocks).result = .ok short) ↔ disassembly.IsBoundary count) ∧
      (∀ short, (linearSweep cut blocks).result = .ok short →
        short.stop = count ∧
          short.statements =
            disassembly.statements.filter (fun entry => entry.1.toNat < count)) ∧
      (¬ disassembly.IsBoundary count →
        ∃ entry ∈ disassembly.statements, entry.1.toNat < count ∧
          count < entry.1.toNat + entry.2.size ∧
          (linearSweep cut blocks).result = .error (.cutShort entry.1)) := by
  obtain ⟨statements, rfl, hfitting, hroom, hencode⟩ := exists_statements_of_result h
  change count ≤ extent statements at hcount
  have hfront : cut.bytes = (statements.flatMap Statement.encode).take count := by
    rw [hencode, List.take_take, Nat.min_eq_left hcount, hbytes]
  rw [result_eq_of_dataOnly hcut, isBoundary_ofStatements_iff hroom,
    Disassembly.statements_ofStatements hroom]
  by_cases hboundary : ∃ before after, statements = before ++ after ∧ extent before = count
  · obtain ⟨before, after, rfl, rfl⟩ := hboundary
    have hresult := result_of_boundary hfitting hroom hfront
    rw [hresult]
    refine ⟨iff_of_true ⟨_, rfl⟩ ⟨before, after, rfl, rfl⟩, ?_, fun hnot =>
      absurd ⟨before, after, rfl, rfl⟩ hnot⟩
    rintro short hshort
    cases hshort
    refine ⟨rfl, ?_⟩
    rw [filter_lt_extent hroom, Disassembly.statements_ofStatements]
    rw [extent_append] at hroom
    omega
  · -- the place is inside a statement, behind its first byte
    have hinside : count < extent statements := by
      refine Nat.lt_of_le_of_ne hcount fun heq => hboundary ?_
      exact ⟨statements, [], (List.append_nil _).symm, heq.symm⟩
    obtain ⟨before, statement, after, rfl, hle, hlt⟩ := exists_split_of_lt_extent hinside
    have hne : extent before ≠ count := fun heq => hboundary ⟨before, statement :: after, rfl, heq⟩
    rw [← Nat.add_sub_cancel' hle] at hfront
    have hresult := result_of_inside hfitting hroom (by omega) (by omega) hfront
    have hplace := toNat_extent hroom
    rw [hresult]
    refine ⟨iff_of_false (by simp) hboundary, by simp, fun _ => ?_⟩
    refine ⟨(UInt16.ofNat (extent before), statement), ?_, ?_, ?_, rfl⟩
    · exact (mem_addressed_zero_iff hroom).mpr ⟨before, after, rfl, hplace⟩
    · rw [hplace]
      omega
    · rw [hplace]
      exact hlt

/-- A jump behind an instruction of one byte, in two pieces.  Without its last byte the jump is cut
short, and without the whole jump the sweep succeeds. -/
theorem sweep_of_cut_input_of_jump :
    let stream : ByteStream := [.data [0x00, 0xc3], .data [0x10, 0x00]]
    ∃ disassembly, (linearSweep stream []).result = .ok disassembly ∧ disassembly.stop = 4 ∧
      (linearSweep (.ofBytes [0x00, 0xc3, 0x10]) []).result = .error (.cutShort 1) ∧
      ∃ short, (linearSweep (.ofBytes [0x00]) []).result = .ok short ∧ short.stop = 1 := by
  intro stream
  let units : List Statement :=
    [.instruction ⟨0x00, "nop", "", .none⟩ .none,
      .instruction ⟨0xc3, "jmp", "", .word⟩ (.word 0x0010)]
  have hdata : stream.DataOnly := by
    intro segment hsegment
    rcases List.mem_cons.mp hsegment with rfl | hrest
    · exact ⟨_, rfl⟩
    · exact ⟨_, List.mem_singleton.mp hrest⟩
  have hfitting : Fitting (DataBlock.covers []) 0 units :=
    fitting_of_wellFormed (by decide) (by decide)
  have hresult : (linearSweep stream []).result = .ok (.ofStatements [] units) :=
    (result_eq_of_dataOnly hdata []).trans (result_of_fitting hfitting (by decide))
  have hunits : (Disassembly.ofStatements [] units).statements = addressed 0 units :=
    Disassembly.statements_ofStatements (by decide)
  have hinside : ¬ (Disassembly.ofStatements [] units).IsBoundary 3 := by
    rw [Disassembly.IsBoundary, hunits]
    decide
  have hboundary : (Disassembly.ofStatements [] units).IsBoundary 1 := by
    rw [Disassembly.IsBoundary, hunits]
    decide
  refine ⟨_, hresult, rfl, ?_, ?_⟩
  · have hthree : 3 ≤ (Disassembly.ofStatements [] units).stop := by decide
    obtain ⟨entry, hmem, -, hbehind, hshort⟩ := (sweep_of_cut_input hresult hthree
      (ByteStream.dataOnly_ofBytes [0x00, 0xc3, 0x10]) rfl).2.2 hinside
    rw [hunits] at hmem
    have hplace : ∀ entry ∈ addressed 0 units, 3 < entry.1.toNat + entry.2.size → entry.1 = 1 := by
      decide
    rw [hshort, hplace entry hmem hbehind]
  · have hone : 1 ≤ (Disassembly.ofStatements [] units).stop := by decide
    obtain ⟨hsucceeds, hfinds, -⟩ := sweep_of_cut_input hresult hone
      (ByteStream.dataOnly_ofBytes [0x00]) rfl
    obtain ⟨short, hshort⟩ := hsucceeds.mpr hboundary
    exact ⟨short, hshort, (hfinds short hshort).1⟩

end Disassembler8080
