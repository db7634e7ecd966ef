/-
# Bytes cut into statements

Disassembling has a pure core: a row of bytes is cut from the front on into statements, and the cut
is the same whoever delivers the bytes.  This file holds that cut without streams, positions or
maps, and shows that it undoes encoding.

Where a cut falls depends on the address: at a forced address there is one byte of data whatever its
value.  A statement *suits* an address if the cut could put it there.

Main statements:

* `Statement.front?_eq_some_iff`: the statement in front of a row of bytes is the well-formed one
  that suits the address and whose encoding the row begins with.
* `tiles_flatMap_encode`: the cut gives back every row of fitting statements from its encoding.
* `fitting_tiles` and `flatMap_encode_tiles`: what the cut gives fits, and encodes the bytes.
* `lastBoundary_eq`: counting sizes alone leads to where the cut ends.
-/
import Disassembler8080.DataBlock

namespace Disassembler8080

/-! ## 1. Words in memory -/

namespace Operand

theorem toNat_wordOfBytes (low high : UInt8) :
    (wordOfBytes low high).toNat = high.toNat * 256 + low.toNat := by
  have hlow := low.toNat_lt
  have hhigh := high.toNat_lt
  have hshift : high.toNat <<< 8 % 65536 = high.toNat <<< 8 := by
    rw [Nat.shiftLeft_eq]
    omega
  simp only [wordOfBytes, UInt16.toNat_or, UInt16.toNat_shiftLeft, UInt8.toNat_toUInt16]
  rw [show (8 : UInt16).toNat % 16 = 8 from rfl, hshift, ← Nat.shiftLeft_add_eq_or_of_lt hlow,
    Nat.shiftLeft_eq]

/-- A word put together from two bytes is encoded as those two. -/
theorem encode_wordOfBytes (low high : UInt8) :
    (Operand.word (wordOfBytes low high)).encode = [low, high] := by
  have hword := toNat_wordOfBytes low high
  have hlow := low.toNat_lt
  have hhigh := high.toNat_lt
  have hlowByte : (wordOfBytes low high).toUInt8 = low := by
    rw [← UInt8.toNat_inj, UInt16.toNat_toUInt8]
    omega
  have hhighByte : (wordOfBytes low high >>> 8).toUInt8 = high := by
    rw [← UInt8.toNat_inj, UInt16.toNat_toUInt8, UInt16.toNat_shiftRight,
      show (8 : UInt16).toNat % 16 = 8 from rfl, Nat.shiftRight_eq_div_pow]
    omega
  rw [encode, hlowByte, hhighByte]

theorem wordOfBytes_of_encode {value : Address} {low high : UInt8}
    (h : (Operand.word value).encode = [low, high]) : wordOfBytes low high = value := by
  have hvalue := value.toNat_lt
  simp only [encode, List.cons.injEq, and_true] at h
  obtain ⟨rfl, rfl⟩ := h
  rw [← UInt16.toNat_inj, toNat_wordOfBytes, UInt16.toNat_toUInt8, UInt16.toNat_toUInt8,
    UInt16.toNat_shiftRight, show (8 : UInt16).toNat % 16 = 8 from rfl,
    Nat.shiftRight_eq_div_pow]
  omega

/-! ## 2. What stands in front of a row of bytes -/

/-- The operand of a width in front of a row of bytes, if there are enough of them. -/
def front? : OperandWidth → List UInt8 → Option Operand
  | .none, _ => some .none
  | .byte, value :: _ => some (.byte value)
  | .word, low :: high :: _ => some (.word (wordOfBytes low high))
  | _, _ => Option.none

/-- The operand in front is the one of that width whose encoding the bytes begin with. -/
theorem front?_eq_some_iff (width : OperandWidth) (bytes : List UInt8) (operand : Operand) :
    front? width bytes = some operand ↔ operand.width = width ∧ operand.encode <+: bytes := by
  constructor
  · intro h
    unfold front? at h
    split at h
    · cases h
      exact ⟨rfl, List.nil_prefix⟩
    · cases h
      exact ⟨rfl, List.prefix_iff_eq_take.mpr rfl⟩
    · cases h
      rw [encode_wordOfBytes]
      exact ⟨rfl, List.prefix_iff_eq_take.mpr rfl⟩
    · exact absurd h (by simp)
  · rintro ⟨rfl, rest, rfl⟩
    cases operand with
    | none => rfl
    | byte value => rfl
    | word value =>
      have hword : wordOfBytes value.toUInt8 (value >>> 8).toUInt8 = value :=
        wordOfBytes_of_encode rfl
      simp only [encode, width, front?, List.cons_append, hword]

theorem front?_eq_none_iff (width : OperandWidth) (bytes : List UInt8) :
    front? width bytes = Option.none ↔ bytes.length + 1 < width.size := by
  match width, bytes with
  | .none, _ => simp [front?, OperandWidth.size]
  | .byte, [] => simp [front?, OperandWidth.size]
  | .byte, _ :: _ => simp [front?, OperandWidth.size]
  | .word, [] => simp [front?, OperandWidth.size]
  | .word, [_] => simp [front?, OperandWidth.size]
  | .word, _ :: _ :: _ => simp [front?, OperandWidth.size]

end Operand

namespace Statement

/-- Whether a statement may start where bytes are forced, or are not forced, to be data: an
instruction never stands at a forced address, and an opcode is data only there. -/
def Suits (forced : Bool) : Statement → Prop
  | .instruction _ _ => forced = false
  | .data value => forced = true ∨ InstructionForm.ofOpcode? value = none

instance (forced : Bool) : DecidablePred (Suits forced)
  | .instruction _ _ => inferInstanceAs (Decidable (forced = false))
  | .data value =>
    inferInstanceAs (Decidable (forced = true ∨ InstructionForm.ofOpcode? value = none))

/-- The statement in front of a row of bytes, if there are enough of them. -/
def front? (forced : Bool) : List UInt8 → Option Statement
  | [] => none
  | first :: rest =>
    match forced, InstructionForm.ofOpcode? first with
    | false, some form => (Operand.front? form.width rest).map (.instruction form)
    | _, _ => some (.data first)

/-- A statement in front of a row of bytes is well formed and suits the address, and the row begins
with its encoding. -/
theorem of_front?_eq_some {forced : Bool} {bytes : List UInt8} {statement : Statement}
    (h : front? forced bytes = some statement) :
    statement.WellFormed ∧ statement.Suits forced ∧ statement.encode <+: bytes := by
  cases bytes with
  | nil => exact absurd h (by simp [front?])
  | cons first rest =>
    have hfirst : [first] <+: first :: rest := List.cons_prefix_cons.mpr ⟨rfl, List.nil_prefix⟩
    cases forced with
    | true =>
      cases h
      exact ⟨trivial, Or.inl rfl, hfirst⟩
    | false =>
      simp only [front?] at h
      cases hform : InstructionForm.ofOpcode? first with
      | none =>
        rw [hform] at h
        cases h
        exact ⟨trivial, Or.inr hform, hfirst⟩
      | some form =>
        rw [hform] at h
        obtain ⟨operand, hoperand, rfl⟩ := Option.map_eq_some_iff.mp h
        obtain ⟨hwidth, hencode⟩ := (Operand.front?_eq_some_iff _ _ _).mp hoperand
        have hopcode := InstructionForm.opcode_of_ofOpcode? hform
        refine ⟨⟨?_, hwidth⟩, rfl, ?_⟩
        · rw [hopcode, hform]
        · rw [encode, hopcode]
          exact List.cons_prefix_cons.mpr ⟨rfl, hencode⟩

/-- A well-formed statement that suits the address is found in front of its encoding, whatever
follows. -/
theorem front?_encode_append {forced : Bool} {statement : Statement} (hwell : statement.WellFormed)
    (hsuits : statement.Suits forced) (rest : List UInt8) :
    front? forced (statement.encode ++ rest) = some statement := by
  cases statement with
  | instruction form operand =>
    obtain ⟨hform, hwidth⟩ := hwell
    cases (hsuits : forced = false)
    have hoperand : Operand.front? form.width (operand.encode ++ rest) = some operand :=
      (Operand.front?_eq_some_iff _ _ _).mpr ⟨hwidth, List.prefix_append _ _⟩
    simp only [encode, List.cons_append, front?, hform, hoperand, Option.map_some]
  | data value =>
    simp only [encode, List.cons_append, List.nil_append, front?]
    rcases hsuits with rfl | hnone
    · rfl
    · rw [hnone]
      cases forced <;> rfl

/-- **The statement in front of a row of bytes** is the well-formed one that suits the address and
whose encoding the row begins with.  So a row of bytes begins with one such statement at most. -/
theorem front?_eq_some_iff (forced : Bool) (bytes : List UInt8) (statement : Statement) :
    front? forced bytes = some statement ↔
      statement.WellFormed ∧ statement.Suits forced ∧ statement.encode <+: bytes := by
  constructor
  · exact of_front?_eq_some
  · rintro ⟨hwell, hsuits, rest, rfl⟩
    exact front?_encode_append hwell hsuits rest

theorem size_le_of_front? {forced : Bool} {bytes : List UInt8} {statement : Statement}
    (h : front? forced bytes = some statement) : statement.size ≤ bytes.length := by
  obtain ⟨hwell, -, hencode⟩ := (front?_eq_some_iff _ _ _).mp h
  rw [← length_encode hwell]
  exact hencode.length_le

/-- The bytes that a statement takes that begins with a byte, counted without looking at what
follows. -/
def sizeOfFirst (forced : Bool) (first : UInt8) : Nat :=
  match forced, InstructionForm.ofOpcode? first with
  | false, some form => form.size
  | _, _ => 1

theorem sizeOfFirst_pos (forced : Bool) (first : UInt8) : 0 < sizeOfFirst forced first := by
  unfold sizeOfFirst
  split
  · rename_i form _
    exact size_pos (.instruction form .none)
  · exact Nat.zero_lt_one

/-- The first byte of a statement tells its size. -/
theorem size_of_front? {forced : Bool} {first : UInt8} {rest : List UInt8} {statement : Statement}
    (h : front? forced (first :: rest) = some statement) :
    statement.size = sizeOfFirst forced first := by
  simp only [front?] at h
  unfold sizeOfFirst
  split at h
  · obtain ⟨operand, -, rfl⟩ := Option.map_eq_some_iff.mp h
    rfl
  · cases h
    rfl

theorem front?_cons_eq_none_iff (forced : Bool) (first : UInt8) (rest : List UInt8) :
    front? forced (first :: rest) = none ↔ rest.length + 1 < sizeOfFirst forced first := by
  simp only [front?, sizeOfFirst]
  split
  · rw [Option.map_eq_none_iff, Operand.front?_eq_none_iff]
    rfl
  · simp

end Statement

/-! ## 3. Statements in a row -/

namespace Tiling

/-- The bytes that a row of statements takes. -/
def extent : List Statement → Nat
  | [] => 0
  | statement :: rest => statement.size + extent rest

@[simp] theorem extent_nil : extent [] = 0 := rfl

@[simp] theorem extent_cons (statement : Statement) (rest : List Statement) :
    extent (statement :: rest) = statement.size + extent rest := rfl

@[simp] theorem extent_append (first second : List Statement) :
    extent (first ++ second) = extent first + extent second := by
  induction first with
  | nil => rw [List.nil_append, extent_nil, Nat.zero_add]
  | cons statement rest ih => rw [List.cons_append, extent_cons, extent_cons, ih, Nat.add_assoc]

/-- Statements with their addresses: the first one stands at `address`, and each next one where the
one before it ends. -/
def addressed : Nat → List Statement → List (Address × Statement)
  | _, [] => []
  | address, statement :: rest =>
    (UInt16.ofNat address, statement) :: addressed (address + statement.size) rest

@[simp] theorem map_snd_addressed (address : Nat) (statements : List Statement) :
    (addressed address statements).map Prod.snd = statements := by
  induction statements generalizing address with
  | nil => rfl
  | cons statement rest ih => rw [addressed, List.map_cons, ih]

theorem mem_iff_exists_addressed (address : Nat) {statements : List Statement}
    {statement : Statement} :
    statement ∈ statements ↔ ∃ entry ∈ addressed address statements, entry.2 = statement := by
  rw [← List.mem_map, map_snd_addressed]

theorem snd_mem_of_mem_addressed {address : Nat} {statements : List Statement}
    {entry : Address × Statement} (h : entry ∈ addressed address statements) :
    entry.2 ∈ statements :=
  (mem_iff_exists_addressed address).mpr ⟨entry, h, rfl⟩

@[simp] theorem addressed_append (address : Nat) (first second : List Statement) :
    addressed address (first ++ second) =
      addressed address first ++ addressed (address + extent first) second := by
  induction first generalizing address with
  | nil => rfl
  | cons statement rest ih =>
    rw [List.cons_append, addressed, ih, addressed, extent_cons, Nat.add_assoc, List.cons_append]

/-- A statement stands at the sum of the sizes of those before it. -/
theorem mem_addressed_iff {address : Nat} {statements : List Statement} {place : Address}
    {statement : Statement} :
    (place, statement) ∈ addressed address statements ↔
      ∃ before after, statements = before ++ statement :: after ∧
        place = UInt16.ofNat (address + extent before) := by
  constructor
  · intro h
    induction statements generalizing address with
    | nil => exact absurd h (by simp [addressed])
    | cons head rest ih =>
      rcases List.mem_cons.mp h with heq | hrest
      · cases heq
        exact ⟨[], rest, rfl, rfl⟩
      · obtain ⟨before, after, rfl, rfl⟩ := ih hrest
        exact ⟨head :: before, after, rfl, by rw [extent_cons, Nat.add_assoc]⟩
  · rintro ⟨before, after, rfl, rfl⟩
    rw [addressed_append]
    exact List.mem_append_right _ List.mem_cons_self

variable {forced : Address → Bool} {address : Nat} {bytes : List UInt8}
  {statements : List Statement}

/-- Statements that can stand in a row from an address on: each is well formed and suits the address
that it gets. -/
def Fitting (forced : Address → Bool) (address : Nat) (statements : List Statement) : Prop :=
  ∀ entry ∈ addressed address statements, entry.2.WellFormed ∧ entry.2.Suits (forced entry.1)

theorem fitting_nil : Fitting forced address [] := fun _ h => absurd h (by simp [addressed])

theorem fitting_cons_iff {statement : Statement} :
    Fitting forced address (statement :: statements) ↔
      (statement.WellFormed ∧ statement.Suits (forced (UInt16.ofNat address))) ∧
        Fitting forced (address + statement.size) statements := by
  simp only [Fitting, addressed, List.forall_mem_cons]

/-- The encoding of fitting statements is as long as they are. -/
theorem length_flatMap_encode (h : Fitting forced address statements) :
    (statements.flatMap Statement.encode).length = extent statements := by
  induction statements generalizing address with
  | nil => rfl
  | cons statement rest ih =>
    obtain ⟨⟨hwell, -⟩, hrest⟩ := fitting_cons_iff.mp h
    rw [List.flatMap_cons, List.length_append, Statement.length_encode hwell, ih hrest, extent_cons]

/-! ## 4. The cut -/

/-- Cuts bytes into statements from an address on, as far as there are enough bytes for the next
one. -/
def tiles (forced : Address → Bool) (address : Nat) (bytes : List UInt8) : List Statement :=
  match _h : Statement.front? (forced (UInt16.ofNat address)) bytes with
  | none => []
  | some statement =>
    statement :: tiles forced (address + statement.size) (bytes.drop statement.size)
termination_by bytes.length
decreasing_by
  have hpos := statement.size_pos
  have hle := Statement.size_le_of_front? _h
  rw [List.length_drop]
  omega

theorem tiles_of_front?_none
    (h : Statement.front? (forced (UInt16.ofNat address)) bytes = none) :
    tiles forced address bytes = [] := by
  rw [tiles]
  split <;> simp_all

theorem tiles_nil (forced : Address → Bool) (address : Nat) : tiles forced address [] = [] :=
  tiles_of_front?_none rfl

/-- The statement in front is cut off, and the cut goes on behind it. -/
theorem tiles_of_front?_some {statement : Statement}
    (h : Statement.front? (forced (UInt16.ofNat address)) bytes = some statement) :
    tiles forced address bytes =
      statement :: tiles forced (address + statement.size) (bytes.drop statement.size) := by
  rw [tiles]
  split <;> simp_all

/-- The statements of a cut fit. -/
theorem fitting_tiles (forced : Address → Bool) (address : Nat) (bytes : List UInt8) :
    Fitting forced address (tiles forced address bytes) := by
  induction address, bytes using tiles.induct forced with
  | case1 address bytes hfront =>
    rw [tiles_of_front?_none hfront]
    exact fitting_nil
  | case2 address bytes statement hfront ih =>
    obtain ⟨hwell, hsuits, -⟩ := (Statement.front?_eq_some_iff _ _ _).mp hfront
    rw [tiles_of_front?_some hfront]
    exact fitting_cons_iff.mpr ⟨⟨hwell, hsuits⟩, ih⟩

/-- **The cut encodes the bytes that it takes.** -/
theorem flatMap_encode_tiles (forced : Address → Bool) (address : Nat) (bytes : List UInt8) :
    (tiles forced address bytes).flatMap Statement.encode =
      bytes.take (extent (tiles forced address bytes)) := by
  induction address, bytes using tiles.induct forced with
  | case1 address bytes hfront =>
    rw [tiles_of_front?_none hfront]
    rfl
  | case2 address bytes statement hfront ih =>
    obtain ⟨hwell, -, hencode⟩ := (Statement.front?_eq_some_iff _ _ _).mp hfront
    rw [List.prefix_iff_eq_take, Statement.length_encode hwell] at hencode
    rw [tiles_of_front?_some hfront, List.flatMap_cons, ih, hencode, extent_cons, List.take_add]

/-- A cut takes bytes that are there. -/
theorem extent_tiles_le (forced : Address → Bool) (address : Nat) (bytes : List UInt8) :
    extent (tiles forced address bytes) ≤ bytes.length := by
  rw [← length_flatMap_encode (fitting_tiles forced address bytes), flatMap_encode_tiles]
  exact List.length_take_le' _ _

/-- **The cut gives back every row of fitting statements from its encoding**, whatever follows. -/
theorem tiles_flatMap_encode (h : Fitting forced address statements) (rest : List UInt8) :
    tiles forced address (statements.flatMap Statement.encode ++ rest) =
      statements ++ tiles forced (address + extent statements) rest := by
  induction statements generalizing address with
  | nil => rfl
  | cons statement others ih =>
    obtain ⟨⟨hwell, hsuits⟩, hothers⟩ := fitting_cons_iff.mp h
    have hsize := Statement.length_encode hwell
    rw [List.flatMap_cons, List.append_assoc]
    have hfront := Statement.front?_encode_append hwell hsuits
      (others.flatMap Statement.encode ++ rest)
    rw [tiles_of_front?_some hfront, ← hsize, List.drop_left, hsize, ih hothers, extent_cons,
      Nat.add_assoc, List.cons_append]

/-! ## 5. Where the cut ends -/

/-- The last address that is reached from `address` on by counting the sizes of statements that
there are enough bytes for. -/
def lastBoundary (forced : Address → Bool) (address : Nat) : List UInt8 → Nat
  | [] => address
  | first :: rest =>
    let size := Statement.sizeOfFirst (forced (UInt16.ofNat address)) first
    if size ≤ rest.length + 1 then lastBoundary forced (address + size) ((first :: rest).drop size)
    else address
termination_by bytes => bytes.length
decreasing_by
  have hpos := Statement.sizeOfFirst_pos (forced (UInt16.ofNat address)) first
  rw [List.length_drop, List.length_cons]
  omega

/-- **Counting sizes leads to where the cut ends.** -/
theorem lastBoundary_eq (forced : Address → Bool) (address : Nat) (bytes : List UInt8) :
    lastBoundary forced address bytes = address + extent (tiles forced address bytes) := by
  induction address, bytes using tiles.induct forced with
  | case1 address bytes hfront =>
    rw [tiles_of_front?_none hfront]
    match bytes with
    | [] => simp [lastBoundary]
    | first :: rest =>
      have hshort := (Statement.front?_cons_eq_none_iff _ _ _).mp hfront
      rw [lastBoundary, if_neg (by omega)]
      rfl
  | case2 address bytes statement hfront ih =>
    match bytes with
    | [] => exact absurd hfront (by simp [Statement.front?])
    | first :: rest =>
      have hsize := Statement.size_of_front? hfront
      have hle : statement.size ≤ rest.length + 1 := Statement.size_le_of_front? hfront
      rw [tiles_of_front?_some hfront, lastBoundary, ← hsize, if_pos hle, ih, extent_cons,
        Nat.add_assoc]

end Tiling

end Disassembler8080
