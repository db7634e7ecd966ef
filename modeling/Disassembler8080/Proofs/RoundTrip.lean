/-
# Decoding and encoding undo each other

A sweep that succeeds accounts for every byte that it has read: its statements stand one behind the
other from address 0 on, and their encodings are the bytes in front of the stop.  The other way
round, every row of statements is found again from its encoding, if memory has room for it and the
blocks mark as data what cannot be told from an instruction otherwise.

Main statement: `sweep_encode_inverse`, both directions.
-/
import Disassembler8080.Proofs.Outcome

namespace Disassembler8080

open Tiling

theorem Tiling.Fitting.wellFormed {forced : Address → Bool} {address : Nat}
    {statements : List Statement} (h : Fitting forced address statements) :
    ∀ statement ∈ statements, statement.WellFormed := by
  intro statement hmem
  obtain ⟨entry, hentry, rfl⟩ := (mem_iff_exists_addressed address).mp hmem
  exact (h entry hentry).1

/-- Well-formed statements fit where each suits its address. -/
theorem Tiling.fitting_of_wellFormed {forced : Address → Bool} {address : Nat}
    {statements : List Statement} (hwell : ∀ statement ∈ statements, statement.WellFormed)
    (hsuits : ∀ entry ∈ addressed address statements, entry.2.Suits (forced entry.1)) :
    Fitting forced address statements := by
  intro entry hentry
  exact ⟨hwell _ (snd_mem_of_mem_addressed hentry), hsuits entry hentry⟩

/-- A row of fitting statements that memory has room for is found again from its encoding. -/
theorem result_of_fitting {blocks : List DataBlock} {statements : List Statement}
    (h : Fitting (DataBlock.covers blocks) 0 statements)
    (hroom : extent statements ≤ memorySize) :
    (linearSweep (.ofBytes (statements.flatMap Statement.encode)) blocks).result =
      .ok (.ofStatements blocks statements) := by
  have hlength := length_flatMap_encode h
  refine result_of_whole_cut ?_ hlength.symm (by omega)
  have hcut := tiles_flatMap_encode h []
  rwa [List.append_nil, tiles_nil, List.append_nil] at hcut

/-- **Decoding and encoding undo each other.** What a sweep finds stands in a row from address 0 on,
is well formed, and encodes the bytes in front of the stop.  And well-formed statements that memory
has room for are found again from their encodings, if no instruction starts at a forced address and
each opcode that is data does. -/
theorem sweep_encode_inverse :
    (∀ (stream : ByteStream) (blocks : List DataBlock) (disassembly : Disassembly),
      (linearSweep stream blocks).result = .ok disassembly →
        let statements := disassembly.statements.map Prod.snd
        disassembly.statements = addressed 0 statements ∧
          disassembly.stop = extent statements ∧ disassembly.stop ≤ memorySize ∧
          (∀ statement ∈ statements,
            statement.WellFormed ∧ statement.encode.length = statement.size) ∧
          statements.flatMap Statement.encode = stream.bytes.take disassembly.stop) ∧
    (∀ (statements : List Statement) (blocks : List DataBlock),
      (∀ statement ∈ statements, statement.WellFormed) →
      extent statements ≤ memorySize →
      (∀ entry ∈ addressed 0 statements, entry.2.Suits (DataBlock.covers blocks entry.1)) →
        ∃ disassembly,
          (linearSweep (.ofBytes (statements.flatMap Statement.encode)) blocks).result =
            .ok disassembly ∧
          disassembly.statements = addressed 0 statements ∧
          disassembly.stop = extent statements) := by
  constructor
  · intro stream blocks disassembly h
    obtain ⟨statements, rfl, hfitting, hroom, hencode⟩ := exists_statements_of_result h
    rw [Disassembly.statements_ofStatements hroom, map_snd_addressed]
    refine ⟨rfl, rfl, hroom, ?_, hencode⟩
    intro statement hmem
    have hwell := hfitting.wellFormed statement hmem
    exact ⟨hwell, Statement.length_encode hwell⟩
  · intro statements blocks hwell hroom hsuits
    exact ⟨_, result_of_fitting (fitting_of_wellFormed hwell hsuits) hroom,
      Disassembly.statements_ofStatements hroom, rfl⟩

/-- A short program, with one byte of data that would be an opcode outside its block and one that is
never an opcode. -/
theorem sweep_encode_inverse_of_short_program :
    let bytes := [0x3e, 0x05, 0xc3, 0x05, 0x00, 0xc3, 0x08]
    let blocks : List DataBlock := [⟨5, 1, by decide, by decide⟩]
    ∃ disassembly, (linearSweep (.ofBytes bytes) blocks).result = .ok disassembly ∧
      disassembly.statements =
        [(0, .instruction ⟨0x3e, "mvi", "a,", .byte⟩ (.byte 5)),
          (2, .instruction ⟨0xc3, "jmp", "", .word⟩ (.word 5)), (5, .data 0xc3), (6, .data 0x08)] ∧
      (disassembly.statements.map Prod.snd).flatMap Statement.encode =
        (ByteStream.ofBytes bytes).bytes.take disassembly.stop := by
  intro bytes blocks
  obtain ⟨disassembly, hresult, hstatements, -⟩ := sweep_encode_inverse.2
    [.instruction ⟨0x3e, "mvi", "a,", .byte⟩ (.byte 5),
      .instruction ⟨0xc3, "jmp", "", .word⟩ (.word 5), .data 0xc3, .data 0x08]
    blocks (by decide) (by decide) (by decide)
  exact ⟨disassembly, hresult, hstatements,
    (sweep_encode_inverse.1 _ _ _ hresult).2.2.2.2⟩

end Disassembler8080
