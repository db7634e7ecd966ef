/-
# What a byte of data can change

Data blocks keep bytes out of decoding.  So the bytes in them should not decide how the rest is cut
into statements, and a block should put an end to whatever went wrong in front of it.  Both are
about two sweeps of inputs that differ in some places, and both are shown on the cut alone: the
outcome of a sweep is decided by where the cut ends.

In inputs that differ at forced addresses only, the two cuts go in step.  A byte at a forced address
is met as the first byte of a statement, and is then a statement of one byte whatever its value, or
as an operand byte, which no size depends on.

Behind two forced addresses in a row, cuts that were out of step are in step again.  An instruction
in front of them ends with the second one at the latest, and none starts at either.

Main statements:

* `Tiling.inStep_tiles`: the cuts of rows that differ at forced addresses only go in step.
* `Tiling.exists_tiles_behind_pair`: every cut comes to the end of two forced addresses in a row.
* `same_outline_of_agree`: two sweeps of inputs that differ at forced addresses only.
* `sweeps_meet_behind_forced_pair`: two sweeps of inputs that are the same behind two forced
  addresses.
-/
import Disassembler8080.Proofs.Truncation

namespace Disassembler8080

open Tiling

/-! ## 1. Rows that differ at forced addresses only -/

namespace Statement

/-- Where the same bytes are forced, statements with the same encoding are the same. -/
theorem eq_of_encode_eq {forced : Bool} {first second : Statement} (hfirst : first.WellFormed)
    (hfirst' : first.Suits forced) (hsecond : second.WellFormed) (hsecond' : second.Suits forced)
    (h : first.encode = second.encode) : first = second := by
  have hfront := front?_encode_append hfirst hfirst' []
  rw [h, front?_encode_append hsecond hsecond' []] at hfront
  exact (Option.some.inj hfront).symm

/-- A statement in front of a row of bytes is encoded by as many of them as its size says. -/
theorem encode_eq_take_of_front? {forced : Bool} {bytes : List UInt8} {statement : Statement}
    (h : front? forced bytes = some statement) : statement.encode = bytes.take statement.size := by
  obtain ⟨hwell, -, hencode⟩ := (front?_eq_some_iff _ _ _).mp h
  rw [← length_encode hwell]
  exact List.prefix_iff_eq_take.mp hencode

theorem exists_eq_of_target? {statement : Statement} {address : Address}
    (h : statement.target? = some address) :
    ∃ form, statement = .instruction form (.word address) := by
  cases statement with
  | data value => exact absurd h (by simp [target?])
  | instruction form operand =>
    cases operand with
    | word value =>
      cases h
      exact ⟨form, rfl⟩
    | _ => exact absurd h (by simp [target?])

theorem sizeOfFirst_le (forced : Bool) (first : UInt8) : sizeOfFirst forced first ≤ 3 := by
  unfold sizeOfFirst
  split
  · rename_i form _
    exact size_le (.instruction form .none)
  · omega

theorem sizeOfFirst_forced (first : UInt8) : sizeOfFirst true first = 1 := rfl

/-- Which bytes follow the first one does not decide how long the statement in front is, only
whether it is whole. -/
theorem map_size_front?_cons (forced : Bool) (first : UInt8) (rest : List UInt8) :
    (front? forced (first :: rest)).map size =
      if sizeOfFirst forced first ≤ rest.length + 1 then some (sizeOfFirst forced first)
      else none := by
  cases hfront : front? forced (first :: rest) with
  | none =>
    have hshort := (front?_cons_eq_none_iff _ _ _).mp hfront
    rw [Option.map_none, if_neg (by omega)]
  | some statement =>
    have hsize := size_of_front? hfront
    have hle := size_le_of_front? hfront
    rw [List.length_cons] at hle
    rw [Option.map_some, hsize, if_pos (by omega)]

end Statement

theorem take_eq_take_of_getElem? {first second : List UInt8} {count : Nat}
    (h : ∀ offset < count, first[offset]? = second[offset]?) :
    first.take count = second.take count := by
  refine List.ext_getElem? fun offset => ?_
  rw [List.getElem?_take, List.getElem?_take]
  split
  · exact h offset ‹_›
  · rfl

namespace Tiling

/-- Rows of bytes from an address on that differ at forced addresses only. -/
structure AgreeOutside (forced : Address → Bool) (address : Nat) (first second : List UInt8) :
    Prop where
  length_eq : first.length = second.length
  getElem?_eq : ∀ offset, forced (UInt16.ofNat (address + offset)) = false →
    first[offset]? = second[offset]?

/-- Whether a statement takes a byte at a forced address, as its first byte or as an operand. -/
def TakesForced (forced : Address → Bool) (entry : Address × Statement) : Prop :=
  ∃ address, forced address = true ∧ entry.1.toNat ≤ address.toNat ∧
    address.toNat < entry.1.toNat + entry.2.size

/-- Statements at the same address that take as many bytes, and that are the same unless one of
those bytes is forced. -/
structure InStep (forced : Address → Bool) (first second : Address × Statement) : Prop where
  address_eq : first.1 = second.1
  size_eq : first.2.size = second.2.size
  eq_of_not_takesForced : ¬ TakesForced forced first → first = second

variable {forced : Address → Bool} {address : Nat} {first second : List UInt8}

namespace AgreeOutside

theorem drop (h : AgreeOutside forced address first second) (count : Nat) :
    AgreeOutside forced (address + count) (first.drop count) (second.drop count) where
  length_eq := by rw [List.length_drop, List.length_drop, h.length_eq]
  getElem?_eq offset hforced := by
    rw [List.getElem?_drop, List.getElem?_drop]
    exact h.getElem?_eq _ (by rwa [← Nat.add_assoc])

/-- The first bytes of rows that agree ask for as many bytes. -/
theorem sizeOfFirst_eq {value other : UInt8} {rest others : List UInt8}
    (h : AgreeOutside forced address (value :: rest) (other :: others)) :
    Statement.sizeOfFirst (forced (UInt16.ofNat address)) value =
      Statement.sizeOfFirst (forced (UInt16.ofNat address)) other := by
  cases hforced : forced (UInt16.ofNat address) with
  | true => rw [Statement.sizeOfFirst_forced, Statement.sizeOfFirst_forced]
  | false =>
    have hvalue : some value = some other := h.getElem?_eq 0 (by rwa [Nat.add_zero])
    rw [Option.some.inj hvalue]

theorem map_size_front? (h : AgreeOutside forced address first second) :
    (Statement.front? (forced (UInt16.ofNat address)) first).map Statement.size =
      (Statement.front? (forced (UInt16.ofNat address)) second).map Statement.size := by
  cases first with
  | nil => rw [List.eq_nil_of_length_eq_zero h.length_eq.symm]
  | cons value rest =>
    cases second with
    | nil => exact absurd h.length_eq (by simp)
    | cons other others =>
      have hlength : rest.length + 1 = others.length + 1 := h.length_eq
      rw [Statement.map_size_front?_cons, Statement.map_size_front?_cons, h.sizeOfFirst_eq,
        hlength]

/-- The first bytes of rows that agree are the same as far as none of them is forced. -/
theorem take_eq {count : Nat} (h : AgreeOutside forced address first second)
    (hfree : ∀ offset < count, forced (UInt16.ofNat (address + offset)) = false) :
    first.take count = second.take count := by
  refine take_eq_take_of_getElem? fun offset hoffset => ?_
  exact h.getElem?_eq offset (hfree offset hoffset)

/-- The statements in front of rows that agree go in step. -/
theorem inStep_front {statement other : Statement}
    (h : AgreeOutside forced address first second)
    (hroom : address + first.length ≤ memorySize)
    (hfirst : Statement.front? (forced (UInt16.ofNat address)) first = some statement)
    (hsecond : Statement.front? (forced (UInt16.ofNat address)) second = some other)
    (hsize : statement.size = other.size) :
    InStep forced (UInt16.ofNat address, statement) (UInt16.ofNat address, other) := by
  refine ⟨rfl, hsize, fun hfree => ?_⟩
  have hle := Statement.size_le_of_front? hfirst
  have hplace : ∀ offset < statement.size,
      (UInt16.ofNat (address + offset)).toNat = address + offset := by
    intro offset hoffset
    have hlt : address + offset < memorySize := by omega
    exact UInt16.toNat_ofNat_of_lt' hlt
  have htake : first.take statement.size = second.take statement.size := by
    refine h.take_eq fun offset hoffset => ?_
    cases hforced : forced (UInt16.ofNat (address + offset)) with
    | false => rfl
    | true =>
      -- it would be a forced address that the statement takes
      have hstart := hplace 0 statement.size_pos
      have hbyte := hplace offset hoffset
      rw [Nat.add_zero] at hstart
      refine absurd ⟨_, hforced, ?_, ?_⟩ hfree <;> simp only [hstart, hbyte] <;> omega
  have hencode : statement.encode = other.encode := by
    rw [Statement.encode_eq_take_of_front? hfirst, Statement.encode_eq_take_of_front? hsecond,
      ← hsize, htake]
  obtain ⟨hwell, hsuits, -⟩ := (Statement.front?_eq_some_iff _ _ _).mp hfirst
  obtain ⟨hwell', hsuits', -⟩ := (Statement.front?_eq_some_iff _ _ _).mp hsecond
  rw [Statement.eq_of_encode_eq hwell hsuits hwell' hsuits' hencode]

end AgreeOutside

/-- **The cuts of rows that differ at forced addresses only go in step.** -/
theorem inStep_tiles (h : AgreeOutside forced address first second)
    (hroom : address + first.length ≤ memorySize) :
    List.Forall₂ (InStep forced) (addressed address (tiles forced address first))
      (addressed address (tiles forced address second)) := by
  -- the induction is along the first cut; the second one follows it by `AgreeOutside.drop`
  induction address, first using tiles.induct forced generalizing second with
  | case1 address first hfront =>
    have hother : Statement.front? (forced (UInt16.ofNat address)) second = none := by
      rw [← Option.map_eq_none_iff, ← h.map_size_front?, hfront, Option.map_none]
    rw [tiles_of_front?_none hfront, tiles_of_front?_none hother]
    exact .nil
  | case2 address first statement hfront ih =>
    have hsizes := h.map_size_front?
    rw [hfront, Option.map_some] at hsizes
    obtain ⟨other, hother, hsize⟩ := Option.map_eq_some_iff.mp hsizes.symm
    have hle := Statement.size_le_of_front? hfront
    rw [tiles_of_front?_some hfront, tiles_of_front?_some hother, addressed, addressed, hsize]
    refine .cons (h.inStep_front hroom hfront hother hsize.symm) (ih (h.drop _) ?_)
    rw [List.length_drop]
    omega

/-- What goes in step stands at the same addresses and has the same sizes. -/
theorem map_outline_eq {entries others : List (Address × Statement)}
    (h : List.Forall₂ (InStep forced) entries others) :
    (entries.map fun entry => (entry.1, entry.2.size)) =
      others.map fun entry => (entry.1, entry.2.size) := by
  induction h with
  | nil => rfl
  | cons hentry _ ih =>
    rw [List.map_cons, List.map_cons, ih, hentry.address_eq, hentry.size_eq]

theorem extent_eq_of_inStep {statements others : List Statement}
    (h : List.Forall₂ (InStep forced) (addressed address statements) (addressed address others)) :
    extent statements = extent others := by
  induction statements generalizing others address with
  | nil =>
    cases others with
    | nil => rfl
    | cons other rest => cases h
  | cons statement rest ih =>
    cases others with
    | nil => cases h
    | cons other more =>
      obtain ⟨hentry, hrest⟩ := List.forall₂_cons.mp h
      have hsize : statement.size = other.size := hentry.size_eq
      rw [← hsize] at hrest
      rw [extent_cons, extent_cons, ← hsize, ih hrest]

/-- A statement of the one row has a statement of the other row in step with it. -/
theorem exists_inStep_of_mem {entries others : List (Address × Statement)}
    {entry : Address × Statement} (h : List.Forall₂ (InStep forced) entries others)
    (hmem : entry ∈ entries) : ∃ other ∈ others, InStep forced entry other := by
  induction h with
  | nil => exact absurd hmem List.not_mem_nil
  | cons hhead _ ih =>
    rcases List.mem_cons.mp hmem with rfl | hrest
    · exact ⟨_, List.mem_cons_self, hhead⟩
    · obtain ⟨other, hother, hstep⟩ := ih hrest
      exact ⟨other, List.mem_cons_of_mem _ hother, hstep⟩

/-- A statement without a forced byte is one of the other row too. -/
theorem mem_of_not_takesForced {entries others : List (Address × Statement)}
    {entry : Address × Statement} (h : List.Forall₂ (InStep forced) entries others)
    (hfree : ¬ TakesForced forced entry) (hmem : entry ∈ entries) : entry ∈ others := by
  obtain ⟨other, hother, hstep⟩ := exists_inStep_of_mem h hmem
  rwa [hstep.eq_of_not_takesForced hfree]

theorem AgreeOutside.symm (h : AgreeOutside forced address first second) :
    AgreeOutside forced address second first where
  length_eq := h.length_eq.symm
  getElem?_eq offset hforced := (h.getElem?_eq offset hforced).symm

/-! ## 2. Behind two forced addresses in a row -/

variable {pair : Nat} {bytes : List UInt8}

/-- In front of the end of two forced addresses in a row, no statement reaches behind it. -/
theorem sizeOfFirst_le_to_pair (hlow : forced (UInt16.ofNat pair) = true)
    (hhigh : forced (UInt16.ofNat (pair + 1)) = true) (haddress : address < pair + 2)
    (value : UInt8) :
    address + Statement.sizeOfFirst (forced (UInt16.ofNat address)) value ≤ pair + 2 := by
  have hle := Statement.sizeOfFirst_le (forced (UInt16.ofNat address)) value
  rcases Nat.lt_or_ge address pair with hbefore | hin
  · -- at most three bytes, and the first of them is in front of the pair
    omega
  · have hforced : forced (UInt16.ofNat address) = true := by
      rcases Nat.eq_or_lt_of_le hin with rfl | hnext
      · exact hlow
      · rwa [show address = pair + 1 by omega]
    rw [hforced, Statement.sizeOfFirst_forced]
    omega

/-- **Every cut comes to the end of two forced addresses in a row**, and goes on there as if it had
begun there. -/
theorem exists_tiles_behind_pair (hlow : forced (UInt16.ofNat pair) = true)
    (hhigh : forced (UInt16.ofNat (pair + 1)) = true) (haddress : address ≤ pair + 2)
    (hlong : pair + 2 ≤ address + bytes.length) :
    ∃ before, address + extent before = pair + 2 ∧
      tiles forced address bytes =
        before ++ tiles forced (pair + 2) (bytes.drop (pair + 2 - address)) := by
  induction address, bytes using tiles.induct forced with
  | case1 address bytes hfront =>
    rcases Nat.eq_or_lt_of_le haddress with rfl | hlt
    · exact ⟨[], rfl, by rw [Nat.sub_self, List.drop_zero, List.nil_append]⟩
    · cases bytes with
      | nil => exact absurd hlong (by simpa using hlt)
      | cons value rest =>
        have hshort := (Statement.front?_cons_eq_none_iff _ _ _).mp hfront
        have hend := sizeOfFirst_le_to_pair hlow hhigh hlt value
        rw [List.length_cons] at hlong
        omega
  | case2 address bytes statement hfront ih =>
    rcases Nat.eq_or_lt_of_le haddress with rfl | hlt
    · exact ⟨[], rfl, by rw [Nat.sub_self, List.drop_zero, List.nil_append]⟩
    · cases bytes with
      | nil => exact absurd hfront (by simp [Statement.front?])
      | cons value rest =>
        have hend := sizeOfFirst_le_to_pair hlow hhigh hlt value
        rw [← Statement.size_of_front? hfront] at hend
        obtain ⟨before, hextent, htiles⟩ := ih hend (by
          rw [List.length_drop]
          omega)
        refine ⟨statement :: before, by rw [extent_cons, ← Nat.add_assoc, hextent], ?_⟩
        rw [tiles_of_front?_some hfront, htiles, List.drop_drop, List.cons_append,
          ← Nat.sub_sub, Nat.add_sub_cancel' (by omega)]

end Tiling

/-! ## 3. Outcomes -/

/-- How far a sweep gets, or why it fails. -/
theorem result_map_stop (stream : ByteStream) (blocks : List DataBlock) :
    (linearSweep stream blocks).result.map Disassembly.stop =
      verdict blocks stream.ready stream.failure? := by
  rw [result_eq_verdict]
  cases verdict blocks stream.ready stream.failure? <;> rfl

/-- A sweep that succeeds has found what its memory image is cut into. -/
theorem eq_ofStatements_of_result {stream : ByteStream} {blocks : List DataBlock}
    {disassembly : Disassembly} (h : (linearSweep stream blocks).result = .ok disassembly) :
    disassembly = .ofStatements blocks (statementsIn blocks stream.image) := by
  rw [result_eq_cut] at h
  split at h
  · exact absurd h (by simp)
  · exact (Except.ok.inj h).symm

theorem extent_statementsIn_le (blocks : List DataBlock) (stream : ByteStream) :
    extent (statementsIn blocks stream.image) ≤ memorySize :=
  Nat.le_trans (extent_tiles_le _ _ _) (List.length_take_le _ _)

variable {first second : ByteStream} {blocks : List DataBlock}

/-- **Inputs of the same length whose cuts end at the same place have the same outcome.** -/
theorem result_map_stop_congr (hfirst : first.DataOnly) (hsecond : second.DataOnly)
    (hlength : first.bytes.length = second.bytes.length)
    (hextent : extent (statementsIn blocks first.image) =
      extent (statementsIn blocks second.image)) :
    (linearSweep first blocks).result.map Disassembly.stop =
      (linearSweep second blocks).result.map Disassembly.stop := by
  have hboundary : lastBoundary (DataBlock.covers blocks) 0 (first.bytes.take memorySize) =
      lastBoundary (DataBlock.covers blocks) 0 (second.bytes.take memorySize) := by
    rw [ByteStream.image, ByteStream.image, hfirst.ready_eq, hsecond.ready_eq] at hextent
    rw [lastBoundary_eq, lastBoundary_eq, Nat.zero_add, Nat.zero_add]
    exact hextent
  rw [result_map_stop, result_map_stop, hfirst.ready_eq, hsecond.ready_eq, hfirst.failure?_eq,
    hsecond.failure?_eq]
  simp only [verdict, hboundary, hlength]

/-! ## 4. Inputs that differ at forced addresses only -/

/-- Whether an address is the target of an instruction that has one of its operand bytes at a forced
address. -/
def IsForcedTarget (blocks : List DataBlock) (disassembly : Disassembly) (target : Address) :
    Prop :=
  ∃ place form, (place, .instruction form (.word target)) ∈ disassembly.statements ∧
    ∃ byte, DataBlock.covers blocks byte = true ∧
      (byte.toNat = place.toNat + 1 ∨ byte.toNat = place.toNat + 2)

/-- Two disassemblies that differ in no more than what forced bytes spell out. -/
structure SameOutline (blocks : List DataBlock) (first second : Disassembly) : Prop where
  stop_eq : first.stop = second.stop
  /-- Statements start at the same addresses and take as many bytes. -/
  outline_eq : (first.statements.map fun entry => (entry.1, entry.2.size)) =
    second.statements.map fun entry => (entry.1, entry.2.size)
  /-- A statement that takes no forced byte is the same in both. -/
  mem_iff : ∀ entry, ¬ TakesForced (DataBlock.covers blocks) entry →
    (entry ∈ first.statements ↔ entry ∈ second.statements)
  isForcedTarget_of_ne : ∀ address,
    (first.map.location address).referenced ≠ (second.map.location address).referenced →
      IsForcedTarget blocks first address ∨ IsForcedTarget blocks second address

theorem agreeOutside_image (hfirst : first.DataOnly) (hsecond : second.DataOnly)
    (hlength : first.bytes.length = second.bytes.length)
    (hagree : ∀ address, DataBlock.covers blocks address = false →
      first.bytes[address.toNat]? = second.bytes[address.toNat]?) :
    AgreeOutside (DataBlock.covers blocks) 0 first.image second.image where
  length_eq := by
    rw [ByteStream.image, ByteStream.image, hfirst.ready_eq, hsecond.ready_eq, List.length_take,
      List.length_take, hlength]
  getElem?_eq offset hfree := by
    rw [Nat.zero_add] at hfree
    rw [ByteStream.image, ByteStream.image, hfirst.ready_eq, hsecond.ready_eq, List.getElem?_take,
      List.getElem?_take]
    split
    · rename_i hoffset
      have hplace : (UInt16.ofNat offset).toNat = offset := UInt16.toNat_ofNat_of_lt' hoffset
      rw [← hplace]
      exact hagree _ hfree
    · rfl

variable {statements others : List Statement}

/-- What refers to an address in the one row alone is an instruction with a forced operand byte. -/
theorem isForcedTarget_of_referenced
    (h : List.Forall₂ (InStep (DataBlock.covers blocks)) (addressed 0 statements)
      (addressed 0 others))
    (hfitting : Fitting (DataBlock.covers blocks) 0 statements)
    (hroom : extent statements ≤ memorySize) {address : Address}
    (hhere : ((Disassembly.ofStatements blocks statements).map.location address).referenced = true)
    (hthere : ((Disassembly.ofStatements blocks others).map.location address).referenced ≠ true) :
    IsForcedTarget blocks (.ofStatements blocks statements) address := by
  rw [Disassembly.referenced_ofStatements_iff] at hhere
  rw [Ne, Disassembly.referenced_ofStatements_iff, not_or] at hthere
  rcases hhere with ⟨statement, hmem, htarget⟩ | hresume
  · obtain ⟨form, rfl⟩ := Statement.exists_eq_of_target? htarget
    obtain ⟨⟨place, _⟩, hentry, rfl⟩ := (mem_iff_exists_addressed 0).mp hmem
    obtain ⟨⟨-, hwidth⟩, hopen⟩ := hfitting _ hentry
    change DataBlock.covers blocks place = false at hopen
    obtain ⟨byte, hforced, hle, hlt⟩ :
        TakesForced (DataBlock.covers blocks) (place, .instruction form (.word address)) := by
      by_contra hfree
      have hother := snd_mem_of_mem_addressed (mem_of_not_takesForced h hfree hentry)
      exact hthere.1 ⟨_, hother, htarget⟩
    -- the opcode is not forced, so it is one of the operand bytes
    have hne : byte.toNat ≠ place.toNat := by
      intro heq
      rw [UInt16.toNat_inj.mp heq, hopen] at hforced
      exact Bool.false_ne_true hforced
    have hsize : (Statement.instruction form (.word address)).size = 3 := by
      rw [Statement.size, InstructionForm.size, ← hwidth]
      rfl
    simp only [hsize] at hle hlt
    refine ⟨place, form, ?_, byte, hforced, by omega⟩
    rwa [Disassembly.statements_ofStatements hroom]
  · exact absurd hresume hthere.2

/-- **Bytes at forced addresses do not decide how the rest is cut.**  Let two inputs of the same
length be the same at all addresses that no data block contains.  Their sweeps both succeed with the
same stop, or both fail in the same way in the same statement.  If they succeed, the statements
stand at the same addresses, take as many bytes, and are the same where no forced byte belongs to
them; and an address that is referenced in one of them alone is the target of an instruction with a
forced operand byte. -/
theorem same_outline_of_agree {first second : ByteStream} {blocks : List DataBlock}
    (hfirst : first.DataOnly) (hsecond : second.DataOnly)
    (hlength : first.bytes.length = second.bytes.length)
    (hagree : ∀ address, DataBlock.covers blocks address = false →
      first.bytes[address.toNat]? = second.bytes[address.toNat]?) :
    (linearSweep first blocks).result.map Disassembly.stop =
        (linearSweep second blocks).result.map Disassembly.stop ∧
      ∀ one other, (linearSweep first blocks).result = .ok one →
        (linearSweep second blocks).result = .ok other → SameOutline blocks one other := by
  have himages := agreeOutside_image hfirst hsecond hlength hagree
  have hroom := extent_statementsIn_le blocks first
  have hroom' := extent_statementsIn_le blocks second
  have hlong : ∀ stream : ByteStream, 0 + stream.image.length ≤ memorySize := by
    intro stream
    rw [Nat.zero_add]
    exact List.length_take_le _ _
  have hstep : List.Forall₂ (InStep (DataBlock.covers blocks))
      (addressed 0 (statementsIn blocks first.image))
      (addressed 0 (statementsIn blocks second.image)) := inStep_tiles himages (hlong first)
  have hback : List.Forall₂ (InStep (DataBlock.covers blocks))
      (addressed 0 (statementsIn blocks second.image))
      (addressed 0 (statementsIn blocks first.image)) := inStep_tiles himages.symm (hlong second)
  have hextent := extent_eq_of_inStep hstep
  refine ⟨result_map_stop_congr hfirst hsecond hlength hextent, ?_⟩
  intro one other hone hother
  rw [eq_ofStatements_of_result hone, eq_ofStatements_of_result hother]
  constructor
  · exact hextent
  · rw [Disassembly.statements_ofStatements hroom, Disassembly.statements_ofStatements hroom']
    exact map_outline_eq hstep
  · intro entry hfree
    rw [Disassembly.statements_ofStatements hroom, Disassembly.statements_ofStatements hroom']
    exact ⟨mem_of_not_takesForced hstep hfree, mem_of_not_takesForced hback hfree⟩
  · intro address hne
    rcases Bool.eq_false_or_eq_true ((Disassembly.ofStatements blocks
      (statementsIn blocks first.image)).map.location address).referenced with hhere | hhere
    · rw [hhere] at hne
      exact Or.inl (isForcedTarget_of_referenced hstep (fitting_tiles _ _ _) hroom hhere
        (Ne.symm hne))
    · rw [hhere] at hne
      refine Or.inr (isForcedTarget_of_referenced hback (fitting_tiles _ _ _) hroom' ?_ ?_)
      · exact Bool.eq_true_of_not_eq_false (Ne.symm hne)
      · rw [hhere]
        exact Bool.false_ne_true

/-- A jump whose low operand byte is forced goes to different addresses, and all else is the same.
-/
theorem same_outline_of_agree_of_jumps :
    let blocks : List DataBlock := [⟨1, 1, by decide, by decide⟩]
    ∃ one other, (linearSweep (.ofBytes [0xc3, 0x05, 0x00, 0x76]) blocks).result = .ok one ∧
      (linearSweep (.ofBytes [0xc3, 0x06, 0x00, 0x76]) blocks).result = .ok other ∧
      SameOutline blocks one other ∧
      (one.map.location 5).referenced ≠ (other.map.location 5).referenced := by
  intro blocks
  let first : ByteStream := .ofBytes [0xc3, 0x05, 0x00, 0x76]
  let second : ByteStream := .ofBytes [0xc3, 0x06, 0x00, 0x76]
  let units : Address → List Statement := fun target =>
    [.instruction ⟨0xc3, "jmp", "", .word⟩ (.word target),
      .instruction ⟨0x76, "hlt", "", .none⟩ .none]
  have hfive : Fitting (DataBlock.covers blocks) 0 (units 5) :=
    fitting_of_wellFormed (by decide) (by decide)
  have hsix : Fitting (DataBlock.covers blocks) 0 (units 6) :=
    fitting_of_wellFormed (by decide) (by decide)
  have hone : (linearSweep first blocks).result = .ok (.ofStatements blocks (units 5)) :=
    result_of_fitting hfive (by decide)
  have hother : (linearSweep second blocks).result = .ok (.ofStatements blocks (units 6)) :=
    result_of_fitting hsix (by decide)
  have hagree : ∀ address, DataBlock.covers blocks address = false →
      first.bytes[address.toNat]? = second.bytes[address.toNat]? := by
    intro address hopen
    have hne : address.toNat ≠ 1 := by
      intro heq
      rw [show address = 1 from UInt16.toNat_inj.mp heq] at hopen
      exact absurd hopen (by decide)
    match address.toNat, hne with
    | 0, _ => rfl
    | n + 2, _ => rfl
  have hsame : first.bytes.length = second.bytes.length := rfl
  refine ⟨_, _, hone, hother, ?_, ?_⟩
  · exact (same_outline_of_agree (ByteStream.dataOnly_ofBytes _) (ByteStream.dataOnly_ofBytes _)
      hsame hagree).2 _ _ hone hother
  · have hhere : ((Disassembly.ofStatements blocks (units 5)).map.location 5).referenced = true :=
      (Disassembly.referenced_ofStatements_iff 5).mpr (Or.inl (by decide))
    have hthere :
        ((Disassembly.ofStatements blocks (units 6)).map.location 5).referenced ≠ true := by
      rw [Ne, Disassembly.referenced_ofStatements_iff]
      decide
    rw [hhere]
    exact Ne.symm hthere

/-! ## 5. Inputs that are the same behind two forced addresses -/

/-- Two disassemblies in which a statement starts at a position, unless both stop there, and which
have the same statements from there on. -/
structure MeetAt (position : Nat) (first second : Disassembly) : Prop where
  stop_eq : first.stop = second.stop
  isBoundary_first : first.IsBoundary position
  isBoundary_second : second.IsBoundary position
  statements_eq : (first.statements.filter fun entry => position ≤ entry.1.toNat) =
    second.statements.filter fun entry => position ≤ entry.1.toNat

/-- The statements of a row from the end of its front part on are the rest of it. -/
theorem filter_extent_le {before after : List Statement}
    (h : extent (before ++ after) ≤ memorySize) :
    (addressed 0 (before ++ after)).filter (fun entry => extent before ≤ entry.1.toNat) =
      addressed (extent before) after := by
  rw [extent_append] at h
  rw [addressed_append, Nat.zero_add, List.filter_append, List.filter_eq_nil_iff.mpr,
    List.filter_eq_self.mpr, List.nil_append]
  · rintro ⟨place, statement⟩ hmem
    have hbounds := bounds_of_mem_addressed h hmem
    simp only [decide_eq_true_eq]
    omega
  · rintro ⟨place, statement⟩ hmem
    have hbounds := bounds_of_mem_addressed (by omega) hmem
    have hpos := statement.size_pos
    simp only [decide_eq_true_eq]
    omega

/-- What a sweep finds comes to the end of two forced addresses in a row, and is from there on the
cut of the bytes behind it. -/
theorem exists_statementsIn_behind_pair {stream : ByteStream} {low high : Address}
    (hstream : stream.DataOnly) (hlow : DataBlock.covers blocks low = true)
    (hhigh : DataBlock.covers blocks high = true) (hnext : low.toNat + 1 = high.toNat)
    (hlong : low.toNat + 2 ≤ stream.bytes.length) :
    ∃ before, extent before = low.toNat + 2 ∧
      statementsIn blocks stream.image =
        before ++ tiles (DataBlock.covers blocks) (low.toNat + 2)
          ((stream.bytes.drop (low.toNat + 2)).take (memorySize - (low.toNat + 2))) := by
  have hlow' : DataBlock.covers blocks (UInt16.ofNat low.toNat) = true := by
    rwa [UInt16.ofNat_toNat]
  have hhigh' : DataBlock.covers blocks (UInt16.ofNat (low.toNat + 1)) = true := by
    rwa [hnext, UInt16.ofNat_toNat]
  have hlt := high.toNat_lt
  have himage : low.toNat + 2 ≤ 0 + stream.image.length := by
    rw [ByteStream.image, hstream.ready_eq, List.length_take, memorySize]
    omega
  obtain ⟨before, hextent, htiles⟩ :=
    exists_tiles_behind_pair hlow' hhigh' (Nat.zero_le _) himage
  rw [Nat.zero_add] at hextent
  refine ⟨before, hextent, ?_⟩
  rw [statementsIn, htiles, ByteStream.image, hstream.ready_eq, Nat.sub_zero, List.drop_take]

/-- **Two forced addresses in a row bring sweeps together.**  Let two inputs of the same length,
which reach behind the two addresses, be the same from there on, whatever they are in front.  Their
sweeps both succeed with the same stop, or both fail in the same way in the same statement.  If they
succeed, a statement starts directly behind the two addresses in both, unless both stop there, and
from there on they have the same statements. -/
theorem sweeps_meet_behind_forced_pair {first second : ByteStream} {blocks : List DataBlock}
    {low high : Address} (hfirst : first.DataOnly) (hsecond : second.DataOnly)
    (hlow : DataBlock.covers blocks low = true) (hhigh : DataBlock.covers blocks high = true)
    (hnext : low.toNat + 1 = high.toNat)
    (hlength : first.bytes.length = second.bytes.length)
    (hlong : low.toNat + 2 ≤ first.bytes.length)
    (hagree : ∀ address : Address, low.toNat + 2 ≤ address.toNat →
      first.bytes[address.toNat]? = second.bytes[address.toNat]?) :
    (linearSweep first blocks).result.map Disassembly.stop =
        (linearSweep second blocks).result.map Disassembly.stop ∧
      ∀ one other, (linearSweep first blocks).result = .ok one →
        (linearSweep second blocks).result = .ok other → MeetAt (low.toNat + 2) one other := by
  obtain ⟨before, hextent, hcut⟩ :=
    exists_statementsIn_behind_pair hfirst hlow hhigh hnext hlong
  obtain ⟨before', hextent', hcut'⟩ :=
    exists_statementsIn_behind_pair hsecond hlow hhigh hnext (hlength ▸ hlong)
  have hbehind : (first.bytes.drop (low.toNat + 2)).take (memorySize - (low.toNat + 2)) =
      (second.bytes.drop (low.toNat + 2)).take (memorySize - (low.toNat + 2)) := by
    refine take_eq_take_of_getElem? fun offset hoffset => ?_
    have hlt : low.toNat + 2 + offset < memorySize := by omega
    have hplace : (UInt16.ofNat (low.toNat + 2 + offset)).toNat = low.toNat + 2 + offset :=
      UInt16.toNat_ofNat_of_lt' hlt
    rw [List.getElem?_drop, List.getElem?_drop, ← hplace]
    refine hagree _ ?_
    rw [hplace]
    exact Nat.le_add_right _ _
  rw [← hbehind] at hcut'
  have hroom := extent_statementsIn_le blocks first
  have hroom' := extent_statementsIn_le blocks second
  have hsame : extent (statementsIn blocks first.image) =
      extent (statementsIn blocks second.image) := by
    rw [hcut, hcut', extent_append, extent_append, hextent, hextent']
  refine ⟨result_map_stop_congr hfirst hsecond hlength hsame, ?_⟩
  intro one other hone hother
  rw [eq_ofStatements_of_result hone, eq_ofStatements_of_result hother]
  refine ⟨hsame, ?_, ?_, ?_⟩
  · exact (isBoundary_ofStatements_iff hroom).mpr ⟨before, _, hcut, hextent⟩
  · exact (isBoundary_ofStatements_iff hroom').mpr ⟨before', _, hcut', hextent'⟩
  · rw [Disassembly.statements_ofStatements hroom, Disassembly.statements_ofStatements hroom']
    rw [hcut] at hroom ⊢
    rw [hcut'] at hroom' ⊢
    have hleft := filter_extent_le hroom
    have hright := filter_extent_le hroom'
    rw [hextent] at hleft
    rw [hextent'] at hright
    rw [hleft, hright]

/-- In front of two bytes of data, a jump that takes both of them and an instruction of one byte.
Behind the data, both inputs go on with the same instruction. -/
theorem sweeps_meet_behind_forced_pair_of_jump :
    let blocks : List DataBlock := [⟨1, 2, by decide, by decide⟩]
    ∃ one other, (linearSweep (.ofBytes [0xc3, 0x41, 0x42, 0x76]) blocks).result = .ok one ∧
      (linearSweep (.ofBytes [0x00, 0x43, 0x44, 0x76]) blocks).result = .ok other ∧
      MeetAt 3 one other ∧ ¬ one.StartsAt 1 ∧ other.StartsAt 1 := by
  intro blocks
  let first : ByteStream := .ofBytes [0xc3, 0x41, 0x42, 0x76]
  let second : ByteStream := .ofBytes [0x00, 0x43, 0x44, 0x76]
  let jump : List Statement :=
    [.instruction ⟨0xc3, "jmp", "", .word⟩ (.word 0x4241),
      .instruction ⟨0x76, "hlt", "", .none⟩ .none]
  let still : List Statement :=
    [.instruction ⟨0x00, "nop", "", .none⟩ .none, .data 0x43, .data 0x44,
      .instruction ⟨0x76, "hlt", "", .none⟩ .none]
  have hjump : Fitting (DataBlock.covers blocks) 0 jump :=
    fitting_of_wellFormed (by decide) (by decide)
  have hstill : Fitting (DataBlock.covers blocks) 0 still :=
    fitting_of_wellFormed (by decide) (by decide)
  have hone : (linearSweep first blocks).result = .ok (.ofStatements blocks jump) :=
    result_of_fitting hjump (by decide)
  have hother : (linearSweep second blocks).result = .ok (.ofStatements blocks still) :=
    result_of_fitting hstill (by decide)
  have hlow : DataBlock.covers blocks 1 = true := by decide
  have hhigh : DataBlock.covers blocks 2 = true := by decide
  have hsame : first.bytes.length = second.bytes.length := rfl
  have hlong : (1 : Address).toNat + 2 ≤ first.bytes.length := by decide
  have hagree : ∀ address : Address, (1 : Address).toNat + 2 ≤ address.toNat →
      first.bytes[address.toNat]? = second.bytes[address.toNat]? := by
    intro address hbehind
    change 3 ≤ address.toNat at hbehind
    match address.toNat, hbehind with
    | n + 3, _ => rfl
  refine ⟨_, _, hone, hother, ?_, ?_, ?_⟩
  · exact (sweeps_meet_behind_forced_pair (ByteStream.dataOnly_ofBytes _)
      (ByteStream.dataOnly_ofBytes _) hlow hhigh rfl hsame hlong hagree).2 _ _ hone hother
  · rintro ⟨statement, hmem⟩
    rw [Disassembly.statements_ofStatements (by decide)] at hmem
    have hplaces : ∀ entry ∈ addressed 0 jump, entry.1 ≠ 1 := by decide
    exact hplaces _ hmem rfl
  · refine ⟨.data 0x43, ?_⟩
    rw [Disassembly.statements_ofStatements (by decide)]
    decide

end Disassembler8080
